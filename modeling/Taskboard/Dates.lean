import Mathlib.Data.Char
import Mathlib.Order.Monotone.Basic
import Taskboard.Calendar
import Taskboard.Lib.Lexicographic

/-!
# Dates and their texts

Days, dates and the texts of dates are three writings of one thing. A day has one date
(`Date.ofDay_number`), and the order of days is that of their dates by year, month and day
(`ofDay_lt_iff`) and, in years of four digits, that of their texts.
-/

namespace Taskboard

variable {a b : Date} {p q : Nat} {start : Nat → Nat} {value : String}

variable {c : Char} {date : Date} {rest rest' : List Char} {n width : Nat}

section Digits

variable {m : Nat}

@[simp]
theorem length_digits (width n : Nat) : (digits width n).length = width := by
  induction width generalizing n with
  | zero => rfl
  | succ width ih => simp [digits, ih]

theorem digits_add (width k n : Nat) :
    digits (width + k) n = digits width (n / 10 ^ k) ++ digits k n := by
  induction k generalizing n with
  | zero => simp [digits]
  | succ k ih =>
      rw [← Nat.add_assoc, digits, ih, digits, Nat.div_div_eq_div_mul, ← Nat.pow_succ',
        List.append_assoc]

theorem digits_mul_pow (k n : Nat) : digits k (n * 10 ^ k) = List.replicate k '0' := by
  induction k with
  | zero => rfl
  | succ k ih =>
      have hmul : n * 10 ^ (k + 1) = n * 10 ^ k * 10 := by rw [Nat.pow_succ, Nat.mul_assoc]
      rw [digits, hmul, Nat.mul_div_cancel _ (by decide), ih, Nat.mul_mod_left,
        List.replicate_succ']
      rfl

theorem digitChar_bounds (n : Nat) : '0' ≤ Nat.digitChar (n % 10) ∧ Nat.digitChar (n % 10) < 'Z' := by
  have hdigit : ∀ d < 10, '0' ≤ Nat.digitChar d ∧ Nat.digitChar d < 'Z' := by decide
  exact hdigit _ (Nat.mod_lt n (by decide))

theorem bounds_of_mem_digits (h : c ∈ digits width n) :
    '0' ≤ c ∧ c < 'Z' := by
  induction width generalizing n with
  | zero => simp [digits] at h
  | succ width ih =>
      rcases List.mem_append.mp h with h | h
      · exact ih h
      · rw [List.mem_singleton.mp h]
        exact digitChar_bounds n

theorem digitChar_lt_iff (m n : Nat) :
    Nat.digitChar (m % 10) < Nat.digitChar (n % 10) ↔ m % 10 < n % 10 := by
  have hdigit : ∀ d < 10, ∀ e < 10, Nat.digitChar d < Nat.digitChar e ↔ d < e := by decide
  exact hdigit _ (Nat.mod_lt m (by decide)) _ (Nat.mod_lt n (by decide))

/-- Numbers of the same width are in the order of their digits. -/
theorem digits_lt_iff (hm : m < 10 ^ width) (hn : n < 10 ^ width) :
    digits width m < digits width n ↔ m < n := by
  induction width generalizing m n with
  | zero =>
      have : m = n := by simp at hm hn; omega
      simp [this]
  | succ width ih =>
      rw [Nat.pow_succ] at hm hn
      have hlt := ih (m := m / 10) (n := n / 10) (by omega) (by omega)
      have hgt := ih (m := n / 10) (n := m / 10) (by omega) (by omega)
      have heq : digits width (m / 10) = digits width (n / 10) ↔ m / 10 = n / 10 := by
        refine ⟨fun h => ?_, fun h => by rw [h]⟩
        rw [h] at hlt hgt
        have := mt hlt.mpr (lt_irrefl _)
        have := mt hgt.mpr (lt_irrefl _)
        omega
      rw [digits, digits, append_lt_append_iff (by simp), hlt, heq, List.cons_lt_cons_iff,
        digitChar_lt_iff]
      simp only [List.not_lt_nil, and_false, or_false]
      omega

theorem digits_inj (hm : m < 10 ^ width) (hn : n < 10 ^ width) :
    digits width m = digits width n ↔ m = n := by
  refine ⟨fun h => ?_, fun h => by rw [h]⟩
  have hlt := mt (digits_lt_iff hm hn).mpr (h ▸ lt_irrefl _)
  have hgt := mt (digits_lt_iff hn hm).mpr (h ▸ lt_irrefl _)
  omega

/-- A field of fixed width comes before everything behind it. -/
theorem digits_append_lt_iff (hm : m < 10 ^ width) (hn : n < 10 ^ width):
    digits width m ++ rest < digits width n ++ rest' ↔ m < n ∨ m = n ∧ rest < rest' := by
  rw [append_lt_append_iff (by simp), digits_lt_iff hm hn, digits_inj hm hn]

theorem digits_sep_lt_iff {sep : Char} (hm : m < 10 ^ width) (hn : n < 10 ^ width):
    digits width m ++ sep :: rest < digits width n ++ sep :: rest' ↔
      m < n ∨ m = n ∧ rest < rest' := by
  simp [digits_append_lt_iff hm hn]

end Digits

section Dates

theorem daysBeforeYear_mono : Monotone daysBeforeYear :=
  monotone_nat_of_le_succ fun year => by rw [daysBeforeYear_succ]; omega

theorem daysBeforeMonth_mono (leap : Bool) : Monotone (daysBeforeMonth leap) := by
  refine monotone_nat_of_le_succ fun month => ?_
  rcases Nat.lt_or_ge month 13 with h | h
  · revert leap month
    decide
  · obtain ⟨k, rfl⟩ := Nat.exists_eq_add_of_le h
    simp [daysBeforeMonth, show 13 + k - 1 = k + 12 by omega,
      show 13 + k + 1 - 1 = k + 13 by omega, daysBefore, show 3 ≤ 13 + k by omega,
      show 3 ≤ 13 + k + 1 by omega]

/-- Where the days from `start p` up to `start (p + 1)` have the period `p`, the period of an
earlier day is no later one. -/
theorem period_lt_iff (hmono : Monotone start) {m : Nat}
    (hm : start p ≤ m ∧ m < start (p + 1)) (hn : start q ≤ n ∧ n < start (q + 1)) :
    m < n ↔ p < q ∨ p = q ∧ m < n := by
  rcases lt_trichotomy p q with h | h | h
  · have := hmono (show p + 1 ≤ q from h)
    omega
  · omega
  · have := hmono (show q + 1 ≤ p from h)
    omega

/-- A day has one period. -/
theorem period_unique (hmono : Monotone start)
    (hp : start p ≤ n ∧ n < start (p + 1)) (hq : start q ≤ n ∧ n < start (q + 1)) : p = q := by
  rcases lt_trichotomy p q with h | h | h
  · have := hmono (show p + 1 ≤ q from h)
    omega
  · exact h
  · have := hmono (show q + 1 ≤ p from h)
    omega

/-- Days are in the order of their dates, by year, month and day. -/
theorem ofDay_lt_iff (m n : Nat) :
    m < n ↔ (Date.ofDay m).year < (Date.ofDay n).year ∨
      (Date.ofDay m).year = (Date.ofDay n).year ∧
        ((Date.ofDay m).month < (Date.ofDay n).month ∨
          (Date.ofDay m).month = (Date.ofDay n).month ∧
            (Date.ofDay m).day < (Date.ofDay n).day) := by
  have hm := yearOfDay_spec m
  have hn := yearOfDay_spec n
  rw [period_lt_iff daysBeforeYear_mono hm hn]
  simp only [Date.ofDay]
  refine or_congr_right (and_congr_right fun hyear => ?_)
  rw [hyear] at hm ⊢
  rw [daysBeforeYear_succ] at hm hn
  generalize yearOfDay n = year at *
  have hm' := @monthOfYearDay_spec (isLeap year) (m - daysBeforeYear year) (by omega)
  have hn' := @monthOfYearDay_spec (isLeap year) (n - daysBeforeYear year) (by omega)
  have hmonth := period_lt_iff (daysBeforeMonth_mono (isLeap year)) hm'.2.2 hn'.2.2
  rw [show m < n ↔ m - daysBeforeYear year < n - daysBeforeYear year by omega, hmonth]
  refine or_congr_right (and_congr_right fun hsame => ?_)
  rw [hsame] at hm' ⊢
  omega

/-- A date of the calendar. -/
structure Date.Valid (date : Date) : Prop where
  month_pos : 1 ≤ date.month
  month_le : date.month ≤ 12
  day_pos : 1 ≤ date.day
  day_le : date.day ≤ daysIn date.year date.month

/-- The day of a date. -/
def Date.number (date : Date) : Nat :=
  dayNumber date.year date.month date.day

theorem daysBeforeMonth_succ (year month : Nat) :
    daysBeforeMonth (isLeap year) (month + 1) =
      daysBeforeMonth (isLeap year) month + daysIn year month := by
  have hmono : daysBeforeMonth (isLeap year) month ≤ daysBeforeMonth (isLeap year) (month + 1) :=
    daysBeforeMonth_mono (isLeap year) (Nat.le_succ month)
  unfold daysIn
  omega

theorem daysIn_le (year month : Nat) (h : month ≤ 12) : daysIn year month ≤ 31 := by
  have hle := daysBeforeMonth_succ_le (isLeap year) h
  have hsucc := daysBeforeMonth_succ year month
  omega

theorem Date.number_ofDay (n : Nat) : (Date.ofDay n).number = n :=
  (Date.ofDay_spec n).2.2.2.2

theorem Date.valid_ofDay (n : Nat) : (Date.ofDay n).Valid := by
  obtain ⟨hlow, hhigh⟩ := yearOfDay_spec n
  rw [daysBeforeYear_succ] at hhigh
  have hyday : n - daysBeforeYear (yearOfDay n) <
      if isLeap (yearOfDay n) then 366 else 365 := by omega
  obtain ⟨h1, h12, hle, hlt⟩ := monthOfYearDay_spec _ hyday
  rw [daysBeforeMonth_succ] at hlt
  constructor
  all_goals simp only [Date.ofDay]
  · exact h1
  · exact h12
  · omega
  · omega

theorem daysBeforeMonth_thirteen (leap : Bool) :
    daysBeforeMonth leap 13 = if leap then 366 else 365 := by
  cases leap <;> rfl

/-- **A day has one date.** -/
theorem Date.ofDay_number (h : date.Valid) : Date.ofDay date.number = date := by
  have hmonth := daysBeforeMonth_succ date.year date.month
  have hyear : daysBeforeMonth (isLeap date.year) (date.month + 1) ≤
      daysBeforeMonth (isLeap date.year) 13 :=
    daysBeforeMonth_mono _ (Nat.succ_le_succ h.month_le)
  have hlong := daysBeforeMonth_thirteen (isLeap date.year)
  have hnext := daysBeforeYear_succ date.year
  have hpos := h.day_pos
  have hle := h.day_le
  have hnumber : date.number = daysBeforeYear date.year +
      (daysBeforeMonth (isLeap date.year) date.month + (date.day - 1)) := Nat.add_assoc _ _ _
  have hy : yearOfDay date.number = date.year :=
    period_unique daysBeforeYear_mono (yearOfDay_spec _) ⟨by omega, by omega⟩
  have hyday : date.number - daysBeforeYear date.year =
      daysBeforeMonth (isLeap date.year) date.month + (date.day - 1) := by omega
  have hspec := @monthOfYearDay_spec (isLeap date.year)
    (daysBeforeMonth (isLeap date.year) date.month + (date.day - 1)) (by omega)
  have hm : monthOfYearDay (isLeap date.year)
      (daysBeforeMonth (isLeap date.year) date.month + (date.day - 1)) = date.month :=
    period_unique (daysBeforeMonth_mono _) hspec.2.2 ⟨by omega, by omega⟩
  unfold Date.ofDay
  simp only [hy, hyday, hm]
  have hd : daysBeforeMonth (isLeap date.year) date.month + (date.day - 1) -
      daysBeforeMonth (isLeap date.year) date.month + 1 = date.day := by omega
  rw [hd]

/-- Dates are ordered as their days. -/
theorem Date.number_lt_iff (ha : a.Valid) (hb : b.Valid) :
    a.number < b.number ↔ a.year < b.year ∨ a.year = b.year ∧
      (a.month < b.month ∨ a.month = b.month ∧ a.day < b.day) := by
  rw [ofDay_lt_iff, Date.ofDay_number ha, Date.ofDay_number hb]

/-- The texts of dates in years of four digits are ordered as their days; what follows them only
matters within one day. -/
theorem formatDate_append_lt_iff (ha : a.Valid)
    (hb : b.Valid) (hyear : a.year < 10000) (hyear' : b.year < 10000) :
    (formatDate a).toList ++ rest < (formatDate b).toList ++ rest' ↔
      a.number < b.number ∨ a.number = b.number ∧ rest < rest' := by
  have hlt := Date.number_lt_iff ha hb
  have hgt := Date.number_lt_iff hb ha
  have hday := daysIn_le a.year a.month ha.month_le
  have hday' := daysIn_le b.year b.month hb.month_le
  obtain ⟨-, hmonth, -, hdom⟩ := ha
  obtain ⟨-, hmonth', -, hdom'⟩ := hb
  simp only [formatDate, yearText, if_pos hyear, if_pos hyear', String.toList_ofList,
    List.append_assoc, List.cons_append]
  rw [digits_sep_lt_iff (by omega) (by omega), digits_sep_lt_iff (by omega) (by omega),
    digits_append_lt_iff (by omega) (by omega)]
  by_cases hrest : rest < rest'
  · simp only [hrest, and_true]
    omega
  · simp only [hrest, and_false, or_false]
    omega

/-! ## Parsing -/

theorem parseDigits_append (ds : List Char) (c : Char) :
    parseDigits (ds ++ [c]) = (parseDigits ds).bind fun n =>
      if c.isDigit then some (10 * n + (c.toNat - '0'.toNat)) else none := by
  unfold parseDigits
  rw [List.foldl_append]
  rfl

theorem digitChar_digit (n : Nat) : (Nat.digitChar (n % 10)).isDigit = true ∧
    (Nat.digitChar (n % 10)).toNat - '0'.toNat = n % 10 := by
  have hdigit : ∀ d < 10, (Nat.digitChar d).isDigit = true ∧
      (Nat.digitChar d).toNat - '0'.toNat = d := by decide
  exact hdigit _ (Nat.mod_lt n (by decide))

/-- Parsing the digits of a number gives it back, as far as they go. -/
theorem parseDigits_digits (width n : Nat) : parseDigits (digits width n) = some (n % 10 ^ width) := by
  induction width generalizing n with
  | zero => simp [parseDigits, digits, Nat.mod_one]
  | succ width ih =>
      obtain ⟨hdigit, hvalue⟩ := digitChar_digit n
      have hsplit : 10 * (n / 10 % 10 ^ width) + n % 10 = n % 10 ^ (width + 1) := by
        rw [Nat.pow_succ', Nat.mod_mul]
        omega
      rw [digits, parseDigits_append, ih]
      simp only [Option.bind_some, hdigit, if_true, hvalue, hsplit]

theorem digits_two (n : Nat) :
    digits 2 n = [Nat.digitChar (n / 10 % 10), Nat.digitChar (n % 10)] := rfl

theorem digits_four (n : Nat) : digits 4 n =
    [Nat.digitChar (n / 10 / 10 / 10 % 10), Nat.digitChar (n / 10 / 10 % 10),
      Nat.digitChar (n / 10 % 10), Nat.digitChar (n % 10)] := rfl

theorem digit_bounds (h : c.isDigit = true) : 48 ≤ c.toNat ∧ c.toNat ≤ 57 :=
  Char.isDigit_iff_toNat.mp h

theorem digitChar_of_isDigit (h : c.isDigit = true) (n : Nat) :
    Nat.digitChar ((10 * n + (c.toNat - '0'.toNat)) % 10) = c ∧
      (10 * n + (c.toNat - '0'.toNat)) / 10 = n := by
  obtain ⟨hlow, hhigh⟩ := digit_bounds h
  have hchar : ∀ code < 58, 48 ≤ code → Nat.digitChar (code - 48) = Char.ofNat code := by decide
  have hzero : '0'.toNat = 48 := rfl
  rw [hzero]
  constructor
  · have hmod : (10 * n + (c.toNat - 48)) % 10 = c.toNat - 48 := by omega
    rw [hmod, hchar _ (by omega) hlow, Char.ofNat_toNat]
  · omega

/-- What parses as a number is written with its digits. -/
theorem digits_of_parseDigits {ds : List Char} (h : parseDigits ds = some n) :
    digits ds.length n = ds ∧ n < 10 ^ ds.length := by
  induction ds using List.reverseRecOn generalizing n with
  | nil =>
      cases h
      exact ⟨rfl, Nat.one_pos⟩
  | append_singleton ds c ih =>
      rw [parseDigits_append] at h
      obtain ⟨m, hm, h⟩ := Option.bind_eq_some_iff.mp h
      by_cases hdigit : c.isDigit = true
      · rw [if_pos hdigit] at h
        obtain ⟨hds, hlt⟩ := ih hm
        obtain ⟨hlast, hinit⟩ := digitChar_of_isDigit hdigit m
        have hvalue := digit_bounds hdigit
        cases h
        rw [List.length_append, List.length_singleton, digits, hlast, hinit, hds]
        refine ⟨rfl, ?_⟩
        have hzero : '0'.toNat = 48 := rfl
        rw [Nat.pow_succ]
        omega
      · rw [if_neg hdigit] at h
        cases h

/-- **What parses as a date** is the text of that date. -/
theorem formatDate_of_parseDate (h : parseDate value = some date) :
    date.Valid ∧ date.year < 10000 ∧ formatDate date = value := by
  unfold parseDate at h
  split at h
  · rename_i hchars
    simp only [Option.bind_eq_bind, Option.bind_eq_some_iff] at h
    obtain ⟨year, hyear, month, hmonth, day, hday, h⟩ := h
    split at h
    · rename_i hrange
      cases h
      obtain ⟨hyear, hlt⟩ := digits_of_parseDigits hyear
      obtain ⟨hmonth, -⟩ := digits_of_parseDigits hmonth
      obtain ⟨hday, -⟩ := digits_of_parseDigits hday
      have hlt : year < 10000 := by simpa using hlt
      refine ⟨⟨hrange.1, hrange.2.1, hrange.2.2.1, hrange.2.2.2⟩, hlt, ?_⟩
      apply String.toList_injective
      unfold formatDate yearText
      simp only [List.length_cons, List.length_nil] at hyear hmonth hday
      rw [String.toList_ofList, hchars, if_pos hlt, hyear, hmonth, hday]
      rfl
    · cases h
  · cases h

theorem parseDate_valid (h : parseDate value = some date) :
    date.Valid :=
  (formatDate_of_parseDate h).1

end Dates

end Taskboard
