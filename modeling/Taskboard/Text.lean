import Mathlib.Algebra.Group.Int.Defs
import Mathlib.Algebra.Group.Nat.Defs
import Mathlib.Data.List.DropRight
import Taskboard.Requests

/-!
# Text as the service cleans it

`strings.TrimSpace` and the small string functions of the service. A length is a number
of bytes of UTF-8, as `len` counts it, unless the source counts characters.

The Unicode tables behind `strings.ToLower`, `unicode.IsLetter` and `unicode.IsDigit`
are a parameter (`Unicode`): no result below depends on what they hold.
-/

namespace Taskboard

/-- The character tables of the `unicode` package. -/
structure Unicode where
  toLower : Char → Char
  isLetter : Char → Bool
  isDigit : Char → Bool

/-- The tables restricted to ASCII, exact on ASCII text. -/
def Unicode.ascii : Unicode where
  toLower := Char.toLower
  isLetter := Char.isAlpha
  isDigit := Char.isDigit

/-- `unicode.IsSpace`. -/
def isSpace (c : Char) : Bool :=
  let n := c.toNat
  (9 ≤ n && n ≤ 13) || n == 32 || n == 0x85 || n == 0xA0 || n == 0x1680 ||
    (0x2000 ≤ n && n ≤ 0x200A) || n == 0x2028 || n == 0x2029 || n == 0x202F ||
    n == 0x205F || n == 0x3000

/-- The characters without the spaces at both ends. -/
def trimChars (cs : List Char) : List Char :=
  (cs.dropWhile isSpace).rdropWhile isSpace

/-- `strings.TrimSpace`. -/
def trimSpace (value : String) : String :=
  String.ofList (trimChars value.toList)

/-- `len` of a string. -/
def byteLen (value : String) : Nat :=
  value.utf8ByteSize

/-- `strings.ToLower`. -/
def Unicode.lower (u : Unicode) (value : String) : String :=
  String.ofList (value.toList.map u.toLower)

/-- The longest start of `cs` that takes at most `bytes` bytes. -/
def takeBytes : Nat → List Char → List Char
  | _, [] => []
  | bytes, c :: cs => if c.utf8Size ≤ bytes then c :: takeBytes (bytes - c.utf8Size) cs else []

/-- `clipped`: at most `max` bytes, the cut marked with an ellipsis. -/
def clipped (value : String) (max : Nat) : String :=
  let value := trimSpace value
  if byteLen value ≤ max then value
  else trimSpace (String.ofList (takeBytes (max - 3) value.toList)) ++ "…"

/-- `defaultActor`. -/
def defaultActor (value fallback : String) : String :=
  if trimSpace value ≠ "" then trimSpace value else fallback

/-- `unique`: the trimmed values, each once, without the empty one. -/
def unique (values : List String) : List String :=
  values.foldl
    (fun result value =>
      let value := trimSpace value
      if value ≠ "" ∧ value ∉ result then result ++ [value] else result)
    []

theorem mem_foldl_unique (values result : List String) (name : String) :
    name ∈ values.foldl
      (fun result value =>
        let value := trimSpace value
        if value ≠ "" ∧ value ∉ result then result ++ [value] else result) result ↔
      name ∈ result ∨ name ≠ "" ∧ ∃ value ∈ values, trimSpace value = name := by
  induction values generalizing result with
  | nil => simp
  | cons value rest ih =>
      rw [List.foldl_cons, ih]
      simp only [List.mem_cons, exists_eq_or_imp]
      split <;> grind

theorem mem_unique {values : List String} {name : String} :
    name ∈ unique values ↔ name ≠ "" ∧ ∃ value ∈ values, trimSpace value = name := by
  simp [unique, mem_foldl_unique]

theorem trimSpace_of_plain {value : String} (h : ∀ c ∈ value.toList, isSpace c = false) :
    trimSpace value = value := by
  have hdrop : value.toList.dropWhile isSpace = value.toList := by
    rw [List.dropWhile_eq_self_iff]
    exact fun hl => by simp [h _ (List.getElem_mem hl)]
  have hrdrop : value.toList.rdropWhile isSpace = value.toList := by
    rw [List.rdropWhile_eq_self_iff]
    exact fun hl => by simp [h _ (List.getLast_mem hl)]
  rw [trimSpace, trimChars, hdrop, hrdrop, String.ofList_toList]

/-- A start of a list that begins with no space begins with none either. -/
theorem dropWhile_eq_self_of_isPrefix {p : Char → Bool} {l m : List Char}
    (hpre : m <+: l) (hl : l.dropWhile p = l) : m.dropWhile p = m := by
  rw [List.dropWhile_eq_self_iff] at hl ⊢
  intro hm
  obtain ⟨t, rfl⟩ := hpre
  have hlen : 0 < (m ++ t).length := by simp; omega
  simpa [List.getElem_append_left hm] using hl hlen

theorem trimChars_idem (cs : List Char) : trimChars (trimChars cs) = trimChars cs := by
  have hfront : (trimChars cs).dropWhile isSpace = trimChars cs :=
    dropWhile_eq_self_of_isPrefix ( List.rdropWhile_prefix _ _)
      (List.dropWhile_idempotent _ _)
  calc trimChars (trimChars cs)
      = (trimChars cs).rdropWhile isSpace := by rw [trimChars, hfront]
    _ = trimChars cs := List.rdropWhile_idempotent _ _

/-- Trimming twice is trimming once. -/
@[simp] theorem trimSpace_idem (value : String) :
    trimSpace (trimSpace value) = trimSpace value := by
  simp [trimSpace, trimChars_idem]

/-- Text that is not blank is not cut to nothing. -/
theorem clipped_ne {value : String} (max : Nat) (h : trimSpace value ≠ "") :
    clipped value max ≠ "" := by
  simp only [clipped]
  split
  · exact h
  · simp

example : trimSpace " \tweekly report \n" = "weekly report" := by decide

end Taskboard
