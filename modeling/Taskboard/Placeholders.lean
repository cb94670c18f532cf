import Taskboard.Lib.Quoting
import Taskboard.Store

/-!
# Placeholders

Queries are written with question marks, and `rebind` numbers them for PostgreSQL. It goes through
the bytes of a query once and only knows whether it is between quotes.

What it should do is said of the parts of a query: bytes outside of literals, and literals, in
which a doubled quote stands for a quote. A query has exactly one reading as such parts
(`WellRead`), and `rebind` replaces the `i`-th part that is a question mark by `$i` and keeps the
others (`rebind_numbers_marks`).
-/

namespace Taskboard

variable {parts : List QueryPart} {query : List UInt8} {before : Nat} {part : QueryPart} {b : UInt8}

/-- `'`. -/
def quoteByte : UInt8 := 39

/-- `?`. -/
def markByte : UInt8 := 63

/-- `$%d`. -/
def placeholder (parameter : Nat) : List UInt8 :=
  36 :: (Nat.toDigits 10 parameter).map fun c => c.toNat.toUInt8

/-- The loop of `rebind`, from the byte that it is at. -/
def rebindFrom : (parameter : Nat) → (inSingleQuote : Bool) → List UInt8 → List UInt8
  | _, _, [] => []
  | parameter, inSingleQuote, [character] =>
      if character = quoteByte then [character]
      else if character = markByte && !inSingleQuote then placeholder parameter
      else [character]
  | parameter, inSingleQuote, character :: next :: query =>
      if character = quoteByte then
        if inSingleQuote && next = quoteByte then
          character :: next :: rebindFrom parameter inSingleQuote query
        else character :: rebindFrom parameter (!inSingleQuote) (next :: query)
      else if character = markByte && !inSingleQuote then
        placeholder parameter ++ rebindFrom (parameter + 1) inSingleQuote (next :: query)
      else character :: rebindFrom parameter inSingleQuote (next :: query)

/-- `rebind`. -/
def rebind (dialect : Dialect) (query : List UInt8) : List UInt8 :=
  if dialect ≠ .postgres ∨ !query.contains markByte then query else rebindFrom 1 false query

/-- A part of a query: a byte outside of literals, a literal with the text that it stands for, or
one that is not closed. -/
inductive QueryPart where
  | byte (b : UInt8)
  | literal (text : List UInt8)
  | unclosed (text : List UInt8)
  deriving DecidableEq

/-- A placeholder as the query has it. -/
abbrev QueryPart.mark : QueryPart := .byte markByte

def QueryPart.spelling : QueryPart → List UInt8
  | .byte b => [b]
  | .literal text => quoteByte :: (doubled quoteByte text ++ [quoteByte])
  | .unclosed text => quoteByte :: doubled quoteByte text

/-- The query that is made of these parts. -/
def spelling (parts : List QueryPart) : List UInt8 :=
  parts.flatMap QueryPart.spelling

/-- The parts are read from left to right: a quote opens a literal, the next one that is not
doubled closes it, and a literal that is not closed goes on to the end. -/
inductive WellRead : List QueryPart → Prop
  | nil : WellRead []
  | byte {b : UInt8} {parts : List QueryPart} (outside : b ≠ quoteByte) (rest : WellRead parts) :
      WellRead (.byte b :: parts)
  | literal (text : List UInt8) {parts : List QueryPart}
      (single : (spelling parts).head? ≠ some quoteByte) (rest : WellRead parts) :
      WellRead (.literal text :: parts)
  | unclosed (text : List UInt8) : WellRead [.unclosed text]

/-- What becomes of a part. -/
inductive Rebound where
  | kept (part : QueryPart)
  | placeholder (number : Nat)

def Rebound.text : Rebound → List UInt8
  | .kept part => part.spelling
  | .placeholder number => Taskboard.placeholder number

def Rebound.number? : Rebound → Option Nat
  | .kept _ => none
  | .placeholder number => some number

/-- Each question mark is replaced by its number among them, where `before` others stand before the
parts, and every other part is kept. -/
def numbered (before : Nat) (parts : List QueryPart) : List Rebound :=
  parts.mapIdx fun index part =>
    if part = .mark then .placeholder (before + (parts.take (index + 1)).count .mark)
    else .kept part

section Reading

variable {parts' : List QueryPart} {text : List UInt8}

@[simp] theorem spelling_nil : spelling [] = [] := rfl

@[simp] theorem spelling_cons : spelling (part :: parts) = part.spelling ++ spelling parts := rfl

/-- A literal and what stands behind it. -/
theorem spelling_literal : spelling (.literal text :: parts) =
    quoteByte :: (doubled quoteByte text ++ closing quoteByte (some (spelling parts))) := by
  simp [QueryPart.spelling, closing]

theorem spelling_unclosed : spelling [.unclosed text] =
    quoteByte :: (doubled quoteByte text ++ closing quoteByte none) := by
  simp [QueryPart.spelling, closing]

/-- Every query can be read. -/
theorem exists_wellRead (query : List UInt8) : ∃ parts, WellRead parts ∧ spelling parts = query := by
  induction hlength : query.length using Nat.strong_induction_on generalizing query with
  | _ length ih =>
      subst hlength
      cases query with
      | nil => exact ⟨[], .nil, rfl⟩
      | cons b query =>
          by_cases hb : b = quoteByte
          · subst hb
            obtain ⟨text, rest, hrest, rfl⟩ := exists_doubled quoteByte query
            cases rest with
            | none => exact ⟨[.unclosed text], .unclosed text, spelling_unclosed⟩
            | some tail =>
                obtain ⟨parts, hparts, rfl⟩ := ih tail.length (by simp [closing]; omega) tail rfl
                exact ⟨.literal text :: parts, .literal text (hrest _ rfl) hparts, spelling_literal⟩
          · obtain ⟨parts, hparts, rfl⟩ := ih query.length (by simp) query rfl
            exact ⟨.byte b :: parts, .byte hb hparts, rfl⟩

/-- **A query has one reading.** -/
theorem WellRead.unique (h : WellRead parts) (h' : WellRead parts')
    (hsame : spelling parts = spelling parts') : parts = parts' := by
  induction h generalizing parts' with
  | nil => cases h' <;> simp_all [QueryPart.spelling]
  | @byte b parts outside rest ih =>
      cases h' with
      | nil => simp [QueryPart.spelling] at hsame
      | byte _ rest' =>
          obtain ⟨rfl, hrest⟩ := List.cons.inj hsame
          rw [ih rest' hrest]
      | literal | unclosed => exact absurd (List.cons.inj hsame).1 outside
  | @literal text parts single rest ih =>
      rw [spelling_literal] at hsame
      cases h' with
      | nil => cases hsame
      | byte outside' => exact absurd (List.cons.inj hsame).1.symm outside'
      | literal text' single' rest' =>
          rw [spelling_literal] at hsame
          obtain ⟨rfl, hrest⟩ := doubled_inj (by rintro _ ⟨⟩; exact single)
            (by rintro _ ⟨⟩; exact single') (List.cons.inj hsame).2
          rw [ih rest' (Option.some.inj hrest)]
      | unclosed text' =>
          rw [spelling_unclosed] at hsame
          obtain ⟨-, hrest⟩ := doubled_inj (by rintro _ ⟨⟩; exact single) closes_none
            (List.cons.inj hsame).2
          cases hrest
  | unclosed text =>
      rw [spelling_unclosed] at hsame
      cases h' with
      | nil => cases hsame
      | byte outside' => exact absurd (List.cons.inj hsame).1.symm outside'
      | literal text' single' rest' =>
          rw [spelling_literal] at hsame
          obtain ⟨-, hrest⟩ := doubled_inj closes_none (by rintro _ ⟨⟩; exact single')
            (List.cons.inj hsame).2
          cases hrest
      | unclosed text' =>
          rw [spelling_unclosed] at hsame
          rw [(doubled_inj closes_none closes_none (List.cons.inj hsame).2).1]

end Reading

section Loop

variable {text body : List UInt8} {n : Nat}

theorem rebindFrom_byte (hquote : b ≠ quoteByte) (hmark : b ≠ markByte) :
    rebindFrom n false (b :: query) = b :: rebindFrom n false query := by
  cases query <;> simp [rebindFrom, hquote, hmark]

theorem rebindFrom_mark :
    rebindFrom n false (markByte :: query) = placeholder n ++ rebindFrom (n + 1) false query := by
  have hne : markByte ≠ quoteByte := by decide
  cases query <;> simp [rebindFrom, hne]

theorem rebindFrom_open :
    rebindFrom n false (quoteByte :: query) = quoteByte :: rebindFrom n true query := by
  cases query <;> simp [rebindFrom]

theorem rebindFrom_close (h : query.head? ≠ some quoteByte) :
    rebindFrom n true (quoteByte :: query) = quoteByte :: rebindFrom n false query := by
  cases query with
  | nil => simp [rebindFrom]
  | cons b query =>
      have hb : b ≠ quoteByte := by simpa using h
      simp [rebindFrom, hb]

/-- Between quotes everything is copied. -/
theorem rebindFrom_doubled : rebindFrom n true (doubled quoteByte text ++ body) =
    doubled quoteByte text ++ rebindFrom n true body := by
  induction text with
  | nil => rfl
  | cons b text ih =>
      by_cases hb : b = quoteByte
      · subst hb
        simp [doubled_cons_quote, rebindFrom, ih]
      · have hcopy (query : List UInt8) :
            rebindFrom n true (b :: query) = b :: rebindFrom n true query := by
          cases query <;> simp [rebindFrom, hb]
        rw [doubled_cons_of_ne hb, List.cons_append, List.cons_append, hcopy, ih]

theorem numbered_mark :
    numbered before (.mark :: parts) = .placeholder (before + 1) :: numbered (before + 1) parts := by
  simp [numbered, List.mapIdx_cons, ← Nat.add_assoc, Nat.add_right_comm]

theorem numbered_of_ne (h : part ≠ .mark) :
    numbered before (part :: parts) = .kept part :: numbered before parts := by
  simp [numbered, List.mapIdx_cons, h]

/-- **The loop numbers the question marks.** The induction is on the reading of the query. -/
theorem rebindFrom_spelling (h : WellRead parts) (before : Nat) :
    rebindFrom (before + 1) false (spelling parts) =
      (numbered before parts).flatMap Rebound.text := by
  induction h generalizing before with
  | nil => rfl
  | @byte b parts outside rest ih =>
      by_cases hb : b = markByte
      · subst hb
        rw [numbered_mark, List.flatMap_cons, ← ih (before + 1)]
        exact rebindFrom_mark
      · have hne : QueryPart.byte b ≠ .mark := fun hsame => hb (QueryPart.byte.inj hsame)
        rw [numbered_of_ne hne, List.flatMap_cons, ← ih before]
        exact rebindFrom_byte outside hb
  | @literal text parts single rest ih =>
      rw [numbered_of_ne (by simp), List.flatMap_cons, ← ih before, spelling_literal, rebindFrom_open,
        rebindFrom_doubled, closing, rebindFrom_close single]
      simp [Rebound.text, QueryPart.spelling]
  | unclosed text =>
      rw [numbered_of_ne (by simp), List.flatMap_cons, spelling_unclosed, rebindFrom_open,
        rebindFrom_doubled]
      rfl

theorem numbered_of_not_mem (h : .mark ∉ parts) : numbered before parts = parts.map .kept := by
  induction parts with
  | nil => rfl
  | cons part parts ih =>
      have hpart : part ≠ .mark := fun hsame => h (hsame ▸ List.mem_cons_self)
      rw [numbered_of_ne hpart, ih (fun hmem => h (List.mem_cons_of_mem _ hmem)), List.map_cons]

theorem text_kept : (parts.map Rebound.kept).flatMap Rebound.text = spelling parts := by
  rw [List.flatMap_map]
  rfl

theorem rebind_spelling (h : WellRead parts) :
    rebind .postgres (spelling parts) = (numbered 0 parts).flatMap Rebound.text := by
  by_cases hmark : markByte ∈ spelling parts
  · rw [rebind, if_neg (by simpa using hmark), rebindFrom_spelling h 0]
  · have hnone : .mark ∉ parts := fun hmem =>
      hmark (List.mem_flatMap.mpr ⟨.mark, hmem, List.mem_singleton_self _⟩)
    rw [rebind, if_pos (Or.inr (by simpa using hmark)), numbered_of_not_mem hnone, text_kept]

/-- The placeholders are numbered one after the other. -/
theorem numbers_numbered : (numbered before parts).filterMap Rebound.number? =
    List.range' (before + 1) (parts.count .mark) := by
  induction parts generalizing before with
  | nil => rfl
  | cons part parts ih =>
      by_cases hpart : part = .mark
      · subst hpart
        rw [numbered_mark, List.count_cons_self, List.range'_succ, ← ih]
        rfl
      · rw [numbered_of_ne hpart, List.count_cons_of_ne hpart, ← ih]
        rfl

end Loop

section Again

variable {number : Nat}

/-- A placeholder has neither quotes nor question marks. -/
theorem plain_of_mem_placeholder (h : b ∈ placeholder number) : b ≠ quoteByte ∧ b ≠ markByte := by
  rcases List.mem_cons.mp h with rfl | h
  · decide
  · obtain ⟨c, hc, rfl⟩ := List.mem_map.mp h
    have hdigit := Char.isDigit_iff_toNat.mp (Nat.isDigit_of_mem_toDigits (by decide) (by decide) hc)
    have hbounds : 48 ≤ c.toNat ∧ c.toNat ≤ 57 := hdigit
    constructor
    · intro hsame
      have htoNat := congrArg UInt8.toNat hsame
      simp [quoteByte] at htoNat
      omega
    · intro hsame
      have htoNat := congrArg UInt8.toNat hsame
      simp [markByte] at htoNat
      omega

/-- The parts of the query that a part is replaced by. -/
def Rebound.reread : Rebound → List QueryPart
  | .kept part => [part]
  | .placeholder number => (Taskboard.placeholder number).map .byte

/-- The rebound query, read again. -/
def reread (before : Nat) (parts : List QueryPart) : List QueryPart :=
  (numbered before parts).flatMap Rebound.reread

theorem reread_mark : reread before (.mark :: parts) =
    (placeholder (before + 1)).map .byte ++ reread (before + 1) parts := by
  rw [reread, numbered_mark, List.flatMap_cons]
  rfl

theorem reread_of_ne (h : part ≠ .mark) :
    reread before (part :: parts) = part :: reread before parts := by
  rw [reread, numbered_of_ne h, List.flatMap_cons]
  rfl

theorem spelling_bytes (bytes : List UInt8) : spelling (bytes.map .byte) = bytes := by
  rw [spelling, List.flatMap_map]
  exact List.flatMap_singleton' bytes

theorem spelling_append (parts parts' : List QueryPart) :
    spelling (parts ++ parts') = spelling parts ++ spelling parts' :=
  List.flatMap_append

theorem spelling_reread :
    spelling (reread before parts) = (numbered before parts).flatMap Rebound.text := by
  rw [reread, spelling, List.flatMap_assoc]
  congr 1
  funext part
  cases part with
  | kept part => exact List.flatMap_singleton _ _
  | placeholder number => exact spelling_bytes _

theorem WellRead.append_bytes {bytes : List UInt8} (hbytes : ∀ b ∈ bytes, b ≠ quoteByte)
    (h : WellRead parts) : WellRead (bytes.map .byte ++ parts) := by
  induction bytes with
  | nil => exact h
  | cons b bytes ih =>
      obtain ⟨hb, hbytes⟩ := List.forall_mem_cons.mp hbytes
      exact .byte hb (ih hbytes)

/-- A quote that is not doubled is not doubled afterwards. -/
theorem head?_reread (h : (spelling parts).head? ≠ some quoteByte) :
    (spelling (reread before parts)).head? ≠ some quoteByte := by
  cases parts with
  | nil => exact h
  | cons part parts =>
      by_cases hpart : part = .mark
      · subst hpart
        rw [reread_mark, spelling_append, spelling_bytes]
        simp [placeholder, quoteByte]
      · rw [reread_of_ne hpart]
        cases part with
        | byte b => simpa [QueryPart.spelling] using h
        | literal | unclosed => simp [QueryPart.spelling] at h

theorem WellRead.reread (h : WellRead parts) (before : Nat) : WellRead (reread before parts) := by
  induction h generalizing before with
  | nil => exact .nil
  | @byte b parts outside rest ih =>
      by_cases hb : b = markByte
      · subst hb
        rw [reread_mark]
        exact (ih _).append_bytes fun _ hmem => (plain_of_mem_placeholder hmem).1
      · rw [reread_of_ne fun hsame => hb (QueryPart.byte.inj hsame)]
        exact .byte outside (ih before)
  | @literal text parts single rest ih =>
      rw [reread_of_ne (by simp)]
      exact .literal text (head?_reread single) (ih before)
  | unclosed text =>
      rw [reread_of_ne (by simp)]
      exact .unclosed text

theorem mark_not_mem_reread : .mark ∉ reread before parts := by
  induction parts generalizing before with
  | nil => exact List.not_mem_nil
  | cons part parts ih =>
      by_cases hpart : part = .mark
      · subst hpart
        rw [reread_mark, List.mem_append]
        rintro (hmem | hmem)
        · obtain ⟨b, hb, hsame⟩ := List.mem_map.mp hmem
          exact (plain_of_mem_placeholder hb).2 (QueryPart.byte.inj hsame)
        · exact ih hmem
      · rw [reread_of_ne hpart, List.mem_cons]
        rintro (hsame | hmem)
        · exact hpart hsame.symm
        · exact ih hmem

end Again

/-- **Rebinding numbers the question marks outside of literals and changes nothing else.** A query
has one reading; of its parts, the question marks become `$1`, `$2` and so on, in order, and the
others stay, so that a query without any is left alone, and so is one that is rebound already. -/
theorem rebind_numbers_marks (query : List UInt8) :
    ∃ parts, (WellRead parts ∧ spelling parts = query ∧
        ∀ other, WellRead other → spelling other = query → other = parts) ∧
      rebind .postgres query = (numbered 0 parts).flatMap Rebound.text ∧
      (numbered 0 parts).filterMap Rebound.number? = List.range' 1 (parts.count .mark) ∧
      (.mark ∉ parts → rebind .postgres query = query) ∧
      rebind .postgres (rebind .postgres query) = rebind .postgres query := by
  obtain ⟨parts, hparts, rfl⟩ := exists_wellRead query
  have hrebind := rebind_spelling hparts
  refine ⟨parts, ⟨hparts, rfl, fun other hother hsame => hother.unique hparts hsame⟩, hrebind,
    numbers_numbered, ?_, ?_⟩
  · intro hmark
    rw [hrebind, numbered_of_not_mem hmark, text_kept]
  · rw [hrebind, ← spelling_reread, rebind_spelling (hparts.reread 0),
      numbered_of_not_mem mark_not_mem_reread, text_kept]

example : rebind .postgres "SELECT '?' AS literal WHERE visibility=? AND owner=?".toUTF8.toList =
    "SELECT '?' AS literal WHERE visibility=$1 AND owner=$2".toUTF8.toList := by decide +kernel

end Taskboard
