import Taskboard.Text

/-!
# Dates

The proleptic Gregorian calendar of Go's `time` package, as far as the service uses it:
dates written `YYYY-MM-DD`, the date of an instant, and adding days or a month.

A day is numbered from the first of January of year 0. `Date.ofDay` follows the
package's own conversion, which peels off cycles of 400, 100 and 4 years and then
estimates the month; `Date.ofDay_spec` says that the year and month
it finds are the ones whose days enclose the given day.
-/

namespace Taskboard

structure Date where
  year : Nat
  month : Nat
  day : Nat
  deriving DecidableEq

/-- `isLeap`. -/
def isLeap (year : Nat) : Bool :=
  year % 4 = 0 ∧ (year % 100 ≠ 0 ∨ year % 400 = 0)

/-- Days of a common year before the month after `month`: the table `daysBefore`. -/
def daysBefore : Nat → Nat
  | 0 => 0
  | 1 => 31
  | 2 => 59
  | 3 => 90
  | 4 => 120
  | 5 => 151
  | 6 => 181
  | 7 => 212
  | 8 => 243
  | 9 => 273
  | 10 => 304
  | 11 => 334
  | _ => 365

/-- Days of `year` before its `month`, counted from 1. -/
def daysBeforeMonth (leap : Bool) (month : Nat) : Nat :=
  daysBefore (month - 1) + if leap ∧ 3 ≤ month then 1 else 0

/-- Days before the first of January of `year`, from that of year 0. -/
def daysBeforeYear (year : Nat) : Nat :=
  365 * year + (year + 3) / 4 - (year + 99) / 100 + (year + 399) / 400

/-- `daysIn`. -/
def daysIn (year month : Nat) : Nat :=
  daysBeforeMonth (isLeap year) (month + 1) - daysBeforeMonth (isLeap year) month

/-- The number of a day given by year, month and day. The day may lie past the end of
the month, as `time.Date` allows. -/
def dayNumber (year month day : Nat) : Nat :=
  daysBeforeYear year + daysBeforeMonth (isLeap year) month + (day - 1)

/-- Years since the cycle year before year 0 that the day `d`, counted from there, lies
in. The last year of each cycle is one day longer, which the subtracted quarters undo. -/
def cycleYear (d : Nat) : Nat :=
  let n400 := d / 146097
  let d := d - 146097 * n400
  let n100 := d / 36524 - d / 36524 / 4
  let d := d - 36524 * n100
  let n4 := d / 1461
  let d := d - 1461 * n4
  let n1 := d / 365 - d / 365 / 4
  400 * n400 + 100 * n100 + 4 * n4 + n1

/-- The year of a day. Cycles start in year -399, 145731 days before year 0. -/
def yearOfDay (n : Nat) : Nat :=
  cycleYear (n + 145731) - 399

/-- The month of the day `yday` of a year, counted from 1: the estimate by months of 31
days, corrected by at most one. -/
def monthOfYearDay (leap : Bool) (yday : Nat) : Nat :=
  if leap ∧ yday = 59 then 2
  else
    let day := if leap ∧ 59 < yday then yday - 1 else yday
    if daysBefore (day / 31 + 1) ≤ day then day / 31 + 2 else day / 31 + 1

/-- The date of a day. -/
def Date.ofDay (n : Nat) : Date :=
  let year := yearOfDay n
  let yday := n - daysBeforeYear year
  let month := monthOfYearDay (isLeap year) yday
  { year, month, day := yday - daysBeforeMonth (isLeap year) month + 1 }

/-- Days before a year given by its place in the cycles of 400, 100, 4 and 1 years. -/
theorem daysBeforeYear_of_cycle {a b c e : Nat} (hb : b ≤ 3) (hc : c ≤ 24) (he : e ≤ 3)
    (h : 399 ≤ 400 * a + 100 * b + 4 * c + e) :
    daysBeforeYear (400 * a + 100 * b + 4 * c + e - 399) + 145731 =
      146097 * a + 36524 * b + 1461 * c + 365 * e := by
  unfold daysBeforeYear
  omega

/-- The year found for a day, by its place in the cycles. The days left over are those
of a common year, or of a leap year at the end of its cycles. -/
theorem cycleYear_spec (d : Nat) : ∃ a b c e r,
    b ≤ 3 ∧ c ≤ 24 ∧ e ≤ 3 ∧ cycleYear d = 400 * a + 100 * b + 4 * c + e ∧
      d = 146097 * a + 36524 * b + 1461 * c + 365 * e + r ∧
      (r < 365 ∨ (r = 365 ∧ e = 3 ∧ (c < 24 ∨ b = 3))) := by
  obtain ⟨a, r1, hr1, hd⟩ : ∃ a r1, r1 < 146097 ∧ d = 146097 * a + r1 :=
    ⟨d / 146097, d % 146097, Nat.mod_lt _ (by omega), by omega⟩
  obtain ⟨b, r2, hb, hb', hd2, hr2⟩ : ∃ b r2, b ≤ 3 ∧ b = r1 / 36524 - r1 / 36524 / 4 ∧
      r1 = 36524 * b + r2 ∧ (r2 < 36524 ∨ (r2 = 36524 ∧ b = 3)) :=
    ⟨r1 / 36524 - r1 / 36524 / 4, r1 - 36524 * (r1 / 36524 - r1 / 36524 / 4),
      by omega, rfl, by omega, by omega⟩
  obtain ⟨c, r3, hc, hc', hd3, hr3⟩ : ∃ c r3, c ≤ 24 ∧ c = r2 / 1461 ∧
      r2 = 1461 * c + r3 ∧ (r3 < 1461 ∧ (c = 24 → r3 < 1460 ∨ b = 3)) :=
    ⟨r2 / 1461, r2 - 1461 * (r2 / 1461), by omega, rfl, by omega, by omega⟩
  obtain ⟨e, r, he, he', hd4, hr⟩ : ∃ e r, e ≤ 3 ∧ e = r3 / 365 - r3 / 365 / 4 ∧
      r3 = 365 * e + r ∧ (r < 365 ∨ (r = 365 ∧ e = 3)) :=
    ⟨r3 / 365 - r3 / 365 / 4, r3 - 365 * (r3 / 365 - r3 / 365 / 4),
      by omega, rfl, by omega, by omega⟩
  refine ⟨a, b, c, e, r, hb, hc, he, ?_, by omega, by omega⟩
  have ha : d / 146097 = a := by omega
  have h1 : d - 146097 * a = r1 := by omega
  have h2 : r1 - 36524 * b = r2 := by omega
  have h3 : r2 - 1461 * c = r3 := by omega
  simp only [cycleYear, ha, h1, ← hb', h2, ← hc', h3, ← he']

/-- The place in the cycles of the year after the one found for a day, with a carry
where a smaller cycle is full; the day lies before that year. -/
theorem next_cycle {d a b c e r : Nat} (hb : b ≤ 3) (hc : c ≤ 24) (he : e ≤ 3)
    (hd : d = 146097 * a + 36524 * b + 1461 * c + 365 * e + r)
    (hr : r < 365 ∨ (r = 365 ∧ e = 3 ∧ (c < 24 ∨ b = 3))) : ∃ a' b' c' e',
    b' ≤ 3 ∧ c' ≤ 24 ∧ e' ≤ 3 ∧
      400 * a' + 100 * b' + 4 * c' + e' = 400 * a + 100 * b + 4 * c + e + 1 ∧
      d < 146097 * a' + 36524 * b' + 1461 * c' + 365 * e' := by
  rcases Nat.lt_or_ge e 3 with h | h
  · exact ⟨a, b, c, e + 1, hb, hc, by omega, by omega, by omega⟩
  rcases Nat.lt_or_ge c 24 with h' | h'
  · exact ⟨a, b, c + 1, 0, hb, by omega, by omega, by omega, by omega⟩
  rcases Nat.lt_or_ge b 3 with h'' | h''
  · exact ⟨a, b + 1, 0, 0, by omega, by omega, by omega, by omega, by omega⟩
  · exact ⟨a + 1, 0, 0, 0, by omega, by omega, by omega, by omega, by omega⟩

/-- A day from year 0 on lies in the year found for it. -/
theorem cycleYear_bounds {d : Nat} (h0 : 145731 ≤ d) :
    daysBeforeYear (cycleYear d - 399) + 145731 ≤ d ∧
      d < daysBeforeYear (cycleYear d - 399 + 1) + 145731 := by
  obtain ⟨a, b, c, e, r, hb, hc, he, hy, hd, hr⟩ := cycleYear_spec d
  have hge : 399 ≤ 400 * a + 100 * b + 4 * c + e := by
    -- Cycles start 399 years before year 0, so only the first one needs a look.
    rcases Nat.eq_zero_or_pos a with rfl | ha
    · have hb3 : b = 3 := by omega
      have hc24 : c = 24 := by omega
      omega
    · omega
  have hlow := daysBeforeYear_of_cycle hb hc he hge
  obtain ⟨a', b', c', e', hb', hc', he', hnext, hlt⟩ := next_cycle hb hc he hd hr
  have hhigh := daysBeforeYear_of_cycle (a := a') hb' hc' he' (by omega)
  rw [hnext] at hhigh
  rw [hy, ← Nat.sub_add_comm hge]
  exact ⟨by omega, by omega⟩

/-- A day lies in the year found for it. -/
theorem yearOfDay_spec (n : Nat) :
    daysBeforeYear (yearOfDay n) ≤ n ∧ n < daysBeforeYear (yearOfDay n + 1) := by
  obtain ⟨hlow, hhigh⟩ := cycleYear_bounds (d := n + 145731) (Nat.le_add_left _ _)
  exact ⟨Nat.le_of_add_le_add_right hlow, Nat.lt_of_add_lt_add_right hhigh⟩

/-- The month found for a day of the year is the one whose days enclose it. -/
theorem monthOfYearDay_spec (leap : Bool) {yday : Nat}
    (h : yday < if leap then 366 else 365) :
    1 ≤ monthOfYearDay leap yday ∧ monthOfYearDay leap yday ≤ 12 ∧
      daysBeforeMonth leap (monthOfYearDay leap yday) ≤ yday ∧
      yday < daysBeforeMonth leap (monthOfYearDay leap yday + 1) := by
  revert h
  cases leap with
  | false => revert yday; decide +kernel
  | true => revert yday; decide +kernel

theorem daysBeforeYear_succ (year : Nat) :
    daysBeforeYear (year + 1) = daysBeforeYear year + if isLeap year then 366 else 365 := by
  have h4 : (year + 1 + 3) / 4 = (year + 3) / 4 + if year % 4 = 0 then 1 else 0 := by
    split <;> omega
  have h100 : (year + 1 + 99) / 100 = (year + 99) / 100 + if year % 100 = 0 then 1 else 0 := by
    split <;> omega
  have h400 : (year + 1 + 399) / 400 = (year + 399) / 400 + if year % 400 = 0 then 1 else 0 := by
    split <;> omega
  have hle : (year + 99) / 100 ≤ 365 * year + (year + 3) / 4 := by omega
  unfold daysBeforeYear isLeap
  rw [h4, h100, h400]
  -- The three residues decide the length of the year.
  have h25 : year % 100 = 0 → year % 4 = 0 := by omega
  have h16 : year % 400 = 0 → year % 100 = 0 := by omega
  generalize (year + 3) / 4 = q4 at *
  generalize (year + 99) / 100 = q100 at *
  generalize (year + 399) / 400 = q400 at *
  by_cases m4 : year % 4 = 0 <;> by_cases m100 : year % 100 = 0 <;>
    by_cases m400 : year % 400 = 0 <;> simp [m4, m100, m400] at h25 h16 ⊢ <;> omega

theorem daysBeforeMonth_succ_le (leap : Bool) {month : Nat} (h : month ≤ 12) :
    daysBeforeMonth leap (month + 1) ≤ daysBeforeMonth leap month + 31 := by
  revert leap month
  decide

/-- **Dates name their days.** Month and day are in range, and counting forward from the
start of the year leads back to the day. -/
theorem Date.ofDay_spec (n : Nat) :
    1 ≤ (Date.ofDay n).month ∧ (Date.ofDay n).month ≤ 12 ∧
      1 ≤ (Date.ofDay n).day ∧ (Date.ofDay n).day ≤ 31 ∧
      dayNumber (Date.ofDay n).year (Date.ofDay n).month (Date.ofDay n).day = n := by
  obtain ⟨hlow, hhigh⟩ := yearOfDay_spec n
  rw [daysBeforeYear_succ] at hhigh
  have hyday : n - daysBeforeYear (yearOfDay n) <
      if isLeap (yearOfDay n) then 366 else 365 := by omega
  obtain ⟨h1, h12, hle, hlt⟩ := monthOfYearDay_spec _ hyday
  have hlen := daysBeforeMonth_succ_le (isLeap (yearOfDay n)) h12
  simp only [Date.ofDay, dayNumber]
  generalize yearOfDay n = year at *
  generalize monthOfYearDay (isLeap year) (n - daysBeforeYear year) = month at *
  exact ⟨h1, h12, by omega, by omega, by omega⟩

/-- The date of an instant in UTC. Year 0 starts 719528 days before the epoch. -/
def dateOf (t : Instant) : Date :=
  Date.ofDay (t / (24 * hour) + 719528).toNat

/-- The last `width` decimal digits of `n`. -/
def digits : Nat → Nat → List Char
  | 0, _ => []
  | width + 1, n => digits width (n / 10) ++ [Nat.digitChar (n % 10)]

theorem isSpace_digitChar (n : Nat) : isSpace (Nat.digitChar (n % 10)) = false := by
  have hdigit : ∀ d < 10, isSpace (Nat.digitChar d) = false := by decide
  exact hdigit _ (Nat.mod_lt n (by decide))

theorem isSpace_of_mem_digits {width n : Nat} {c : Char} (h : c ∈ digits width n) :
    isSpace c = false := by
  induction width generalizing n with
  | zero => simp [digits] at h
  | succ width ih =>
      rcases List.mem_append.mp h with h | h
      · exact ih h
      · rw [List.mem_singleton.mp h]
        exact isSpace_digitChar n

/-- A year with at least four digits. -/
def yearText (year : Nat) : List Char :=
  if year < 10000 then digits 4 year else (Nat.repr year).toList

/-- The layout `2006-01-02`. -/
def formatDate (date : Date) : String :=
  String.ofList (yearText date.year ++ '-' :: digits 2 date.month ++ '-' :: digits 2 date.day)

/-- Seconds since midnight UTC of the day of an instant. -/
def secondOfDay (t : Instant) : Nat :=
  (t / second % 86400).toNat

/-- The layout `2006-01-02T15:04:05`, in UTC. -/
def dateTimeText (t : Instant) : List Char :=
  let clock := secondOfDay t
  (formatDate (dateOf t)).toList ++ 'T' :: digits 2 (clock / 3600) ++
    ':' :: digits 2 (clock / 60 % 60) ++ ':' :: digits 2 (clock % 60)

/-- The number that `ds` writes in decimal, if they are digits. -/
def parseDigits (ds : List Char) : Option Nat :=
  ds.foldl (fun n? c => n?.bind fun n =>
    if c.isDigit then some (10 * n + (c.toNat - '0'.toNat)) else none) (some 0)

/-- `time.Parse` with the layout `2006-01-02`. -/
def parseDate (value : String) : Option Date :=
  match value.toList with
  | [y1, y2, y3, y4, '-', m1, m2, '-', d1, d2] => do
      let year ← parseDigits [y1, y2, y3, y4]
      let month ← parseDigits [m1, m2]
      let day ← parseDigits [d1, d2]
      if 1 ≤ month ∧ month ≤ 12 ∧ 1 ≤ day ∧ day ≤ daysIn year month then
        some { year, month, day }
      else none
  | _ => none

/-- `AddDate` with a number of days. -/
def Date.addDays (date : Date) (days : Nat) : Date :=
  Date.ofDay (dayNumber date.year date.month date.day + days)

/-- `AddDate` with one month: a day past the end of the month runs on into the next. -/
def Date.addMonth (date : Date) : Date :=
  if date.month = 12 then Date.ofDay (dayNumber (date.year + 1) 1 date.day)
  else Date.ofDay (dayNumber date.year (date.month + 1) date.day)

example : ((parseDate "2024-01-31").map fun d => formatDate d.addMonth) = some "2024-03-02" := by
  decide

example : formatDate (dateOf 1700000000000000000) = "2023-11-14" := by decide

end Taskboard
