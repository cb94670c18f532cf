import Taskboard.Reads
import Taskboard.Timestamps

/-!
# Deferrals

A task is deferred to a date or to a time. A date is stored as it was sent and ends at midnight
where the people of the board are; a time is stored in UTC with whole seconds. Both are stored in
a form that is read back as what was sent.

The parser is that of Go's `time.Parse` for the layout `time.RFC3339`. It accepts more than the
standard: an hour of one digit, a comma before the fraction of a second, and offsets of up to 24
hours and 60 minutes.
-/

namespace Taskboard

variable {c : Char} {date : Date} {t : Instant} {rest : List Char} {n : Nat}

/-- `getnum`: a number of two digits, or of one where the layout allows it. -/
def getnum (fixed : Bool) : List Char → Option (Nat × List Char)
  | [] => none
  | [c] => if c.isDigit && !fixed then some (c.toNat - '0'.toNat, []) else none
  | c :: c' :: rest =>
      if !c.isDigit then none
      else if c'.isDigit then
        some (10 * (c.toNat - '0'.toNat) + (c'.toNat - '0'.toNat), rest)
      else if fixed then none
      else some (c.toNat - '0'.toNat, c' :: rest)

/-- `skip`: a character that stands in the layout as it is. -/
def skip (c : Char) : List Char → Option (List Char)
  | [] => none
  | c' :: rest => if c' = c then some rest else none

/-- The year of a layout, in four digits. -/
def getYear : List Char → Option (Nat × List Char)
  | y1 :: y2 :: y3 :: y4 :: rest => (parseDigits [y1, y2, y3, y4]).map fun year => (year, rest)
  | _ => none

/-- `parseNanoseconds`: the first nine digits of a fraction. -/
def parseNanoseconds (fraction : List Char) : Nat :=
  let kept := fraction.take 9
  (parseDigits kept).getD 0 * 10 ^ (9 - kept.length)

/-- A fraction of a second that the layout does not ask for, and what follows. -/
def getFraction : List Char → Nat × List Char
  | c :: d :: rest =>
      if (c = '.' ∨ c = ',') ∧ d.isDigit then
        (parseNanoseconds ((d :: rest).takeWhile Char.isDigit), (d :: rest).dropWhile Char.isDigit)
      else (0, c :: d :: rest)
  | cs => (0, cs)

/-- The offset from UTC at the end of the text, in seconds. -/
def getOffset : List Char → Option Int
  | ['Z'] => some 0
  | [sign, h1, h2, ':', m1, m2] => do
      let hours ← parseDigits [h1, h2]
      let minutes ← parseDigits [m1, m2]
      if 24 < hours ∨ 60 < minutes then none
      else if sign = '+' then some ((60 * hours + minutes) * 60)
      else if sign = '-' then some (-((60 * hours + minutes) * 60))
      else none
  | _ => none

/-- `time.Date` in UTC. Year 0 starts 719528 days before the epoch. -/
def utcInstant (date : Date) (clock : Nat) (nanos : Nat) : Instant :=
  (((date.number : Int) - 719528) * 86400 + clock) * second + nanos

/-- `time.Parse` with the layout `time.RFC3339`. -/
def parseRFC3339 (value : String) : Option Instant := do
  let (year, cs) ← getYear value.toList
  let cs ← skip '-' cs
  let (month, cs) ← getnum true cs
  let cs ← skip '-' cs
  let (day, cs) ← getnum true cs
  let cs ← skip 'T' cs
  let (hours, cs) ← getnum false cs
  let cs ← skip ':' cs
  let (minutes, cs) ← getnum true cs
  let cs ← skip ':' cs
  let (seconds, cs) ← getnum true cs
  let (nanos, cs) := getFraction cs
  let offset ← getOffset cs
  if 1 ≤ month ∧ month ≤ 12 ∧ 1 ≤ day ∧ day ≤ daysIn year month ∧
      hours < 24 ∧ minutes < 60 ∧ seconds < 60 then
    some (utcInstant ⟨year, month, day⟩ (3600 * hours + 60 * minutes + seconds) nanos -
      offset * second)
  else none

example : parseRFC3339 "2023-11-14T23:13:20.5+01:00" = some 1700000000500000000 := by decide

example : parseRFC3339 "2023-11-14T9:13:20,5Z" = some 1699953200500000000 := by decide

section Parsing

theorem getnum_digits (fixed : Bool) (rest : List Char) (h : n < 100) :
    getnum fixed (digits 2 n ++ rest) = some (n, rest) := by
  obtain ⟨hdigit, hvalue⟩ := digitChar_digit (n / 10)
  obtain ⟨hdigit', hvalue'⟩ := digitChar_digit n
  rw [digits_two]
  simp only [List.cons_append, List.nil_append, getnum, hdigit, hdigit', hvalue, hvalue',
    Bool.not_true, Bool.false_eq_true, if_false, if_true]
  congr 2
  omega

theorem getYear_digits (rest : List Char) (h : n < 10000) :
    getYear (digits 4 n ++ rest) = some (n, rest) := by
  have hparse : parseDigits (digits 4 n) = some n := by
    rw [parseDigits_digits, Nat.mod_eq_of_lt (show n < 10 ^ 4 from h)]
  rw [digits_four] at hparse ⊢
  simp only [List.cons_append, List.nil_append, getYear, hparse, Option.map_some]

@[simp] theorem skip_cons (c : Char) (rest : List Char) : skip c (c :: rest) = some rest := by
  simp [skip]

theorem skip_ne {c' : Char} (h : c' ≠ c) : skip c (c' :: rest) = none := by
  simp [skip, h]

/-- The instant of the date and the second of the day that an instant has. -/
theorem utcInstant_dateOf (h : t.FourDigitYear) :
    utcInstant (dateOf t) (secondOfDay t) 0 = t / second * second := by
  have hday : t / (24 * hour) = t / second / 86400 := by
    rw [Int.ediv_ediv_of_nonneg (by decide)]
    rfl
  have hpos := h.1
  unfold utcInstant dateOf secondOfDay
  rw [Date.number_ofDay, hday] at *
  generalize t / second = s at *
  have hclock : ((s / 86400 + 719528).toNat - 719528 : Int) * 86400 + (s % 86400).toNat = s := by
    lia
  rw [hclock]
  exact Int.add_zero _

/-- The parser reads a date and a time of day in UTC. -/
theorem parseRFC3339_text {clock : Nat} (h : date.Valid) (hyear : date.year < 10000)
    (hclock : clock < 86400) :
    parseRFC3339 (String.ofList ((formatDate date).toList ++ 'T' :: digits 2 (clock / 3600) ++
      ':' :: digits 2 (clock / 60 % 60) ++ ':' :: digits 2 (clock % 60) ++ ['Z'])) =
        some (utcInstant date clock 0) := by
  obtain ⟨year, month, day⟩ := date
  have hday := daysIn_le year month h.month_le
  have hle : day ≤ daysIn year month := h.day_le
  have hmonth : month ≤ 12 := h.month_le
  have hseconds : 3600 * (clock / 3600) + 60 * (clock / 60 % 60) + clock % 60 = clock := by omega
  have hfraction : getFraction ['Z'] = (0, ['Z']) := rfl
  have hoffset : getOffset ['Z'] = some 0 := rfl
  unfold parseRFC3339 formatDate yearText
  rw [String.toList_ofList, String.toList_ofList, if_pos hyear]
  simp only [List.append_assoc, List.cons_append, getYear_digits _ hyear,
    getnum_digits _ _ (show month < 100 by omega), getnum_digits _ _ (show day < 100 by omega),
    getnum_digits _ _ (show clock / 3600 < 100 by omega),
    getnum_digits _ _ (show clock / 60 % 60 < 100 by omega),
    getnum_digits _ _ (show clock % 60 < 100 by omega),
    skip_cons, Option.bind_eq_bind, Option.bind_some, hfraction, hoffset, hseconds, Int.zero_mul,
    Int.sub_zero]
  exact if_pos ⟨h.month_pos, h.month_le, h.day_pos, h.day_le, by omega, by omega, by omega⟩

/-- **Reading back a stored time** gives the instant it was written for, in whole seconds. -/
theorem parseRFC3339_dateTimeText (h : t.FourDigitYear) :
    parseRFC3339 (String.ofList (dateTimeText t ++ ['Z'])) = some (t / second * second) := by
  rw [← utcInstant_dateOf h]
  exact parseRFC3339_text (Date.valid_ofDay _) h.2 (secondOfDay_lt t)

/-- A year of more than four digits is not read. -/
theorem parseRFC3339_longYear (h : 10000 ≤ date.year) :
    parseRFC3339 (String.ofList ((formatDate date).toList ++ rest)) = none := by
  obtain ⟨ds, hds⟩ : ∃ ds, ds = Nat.toDigits 10 date.year := ⟨_, rfl⟩
  have hlong : 4 < ds.length := by
    rw [hds, ← Nat.not_le, Nat.length_toDigits_le_iff (by decide) (by decide)]
    omega
  have hdigit : ∀ c ∈ ds, c.isDigit = true := by
    intro c hc
    rw [hds] at hc
    exact Nat.isDigit_of_mem_toDigits (by decide) (by decide) hc
  unfold parseRFC3339 formatDate yearText
  rw [String.toList_ofList, String.toList_ofList, if_neg (by omega), Nat.repr_eq_ofList_toDigits,
    String.toList_ofList, ← hds]
  match ds, hlong, hdigit with
  | y1 :: y2 :: y3 :: y4 :: y5 :: ds, _, hdigit =>
      have hsep : y5 ≠ '-' := by
        intro hy5
        have := hdigit y5 (by simp)
        rw [hy5] at this
        cases this
      simp only [List.cons_append, getYear, Option.bind_eq_bind]
      cases parseDigits [y1, y2, y3, y4] with
      | none => rfl
      | some year => simp only [Option.map_some, Option.bind_some, skip_ne hsep, Option.bind_none]

/-- A time that is read back as itself has a year of four digits. -/
theorem fourDigitYear_of_parseRFC3339
    (h : parseRFC3339 (String.ofList (dateTimeText t ++ ['Z'])) = some t) : t.FourDigitYear := by
  by_cases hyear : (dateOf t).year < 10000
  · have htext := parseRFC3339_text (Date.valid_ofDay _) hyear (secondOfDay_lt t)
    have hself : utcInstant (dateOf t) (secondOfDay t) 0 = t :=
      Option.some_inj.mp (htext.symm.trans h)
    refine ⟨?_, hyear⟩
    clear htext
    generalize dateOf t = date at hself
    unfold utcInstant second at hself
    unfold hour minute second
    lia
  · unfold dateTimeText at h
    simp only [List.append_assoc] at h
    rw [parseRFC3339_longYear (Nat.not_lt.mp hyear)] at h
    cases h

/-- The layout does not show fractions of a second. -/
theorem dateTimeText_seconds (t : Instant) :
    dateTimeText (t / second * second) = dateTimeText t := by
  have hseconds : t / second * second / second = t / second :=
    Int.mul_ediv_cancel _ (by decide)
  have hdays (u : Instant) : u / (24 * hour) = u / second / 86400 := by
    rw [Int.ediv_ediv_of_nonneg (by decide)]
    rfl
  have hdate : dateOf (t / second * second) = dateOf t := by
    unfold dateOf
    rw [hdays, hdays, hseconds]
  have hclock : secondOfDay (t / second * second) = secondOfDay t := by
    unfold secondOfDay
    rw [hseconds]
  unfold dateTimeText
  rw [hdate, hclock]

theorem length_of_parseDate {value : String} (h : parseDate value = some date) :
    value.toList.length = 10 := by
  unfold parseDate at h
  split at h
  · rename_i hchars
    rw [hchars]
    rfl
  · cases h

/-- A stored time is not a date. -/
theorem parseDate_dateTimeText (h : t.FourDigitYear) :
    parseDate (String.ofList (dateTimeText t ++ ['Z'])) = none := by
  cases hparse : parseDate (String.ofList (dateTimeText t ++ ['Z'])) with
  | none => rfl
  | some date =>
      have hlength := length_of_parseDate hparse
      unfold dateTimeText formatDate yearText at hlength
      rw [String.toList_ofList, String.toList_ofList, if_pos h.2] at hlength
      simp at hlength

end Parsing

/-- The service reads times with the parser of the language. -/
def Service.ParsesRFC3339 (svc : Service) : Prop :=
  svc.parseTime = parseRFC3339

section Stored

variable {svc : Service} {value stored : String}

/-- **What is stored** of an accepted deferral: nothing, the date that was sent, or the time in
UTC. -/
theorem normalizeDeferUntil_cases (hsvc : svc.ParsesRFC3339)
    (h : svc.normalizeDeferUntil value = .ok stored) :
    value = "" ∧ stored = "" ∨
      (∃ date, value ≠ "" ∧ parseDate value = some date ∧ stored = value) ∨
      ∃ t, value ≠ "" ∧ parseDate value = none ∧ parseRFC3339 value = some t ∧
        stored = String.ofList (dateTimeText t ++ ['Z']) := by
  unfold Service.normalizeDeferUntil at h
  rw [hsvc] at h
  by_cases hempty : value = ""
  · rw [if_pos hempty] at h
    exact Or.inl ⟨hempty, (Except.ok.inj h).symm⟩
  rw [if_neg hempty] at h
  cases hdate : parseDate value with
  | some date =>
      rw [hdate, Option.isSome_some, if_pos rfl] at h
      exact Or.inr (Or.inl ⟨date, hempty, rfl, (Except.ok.inj h).symm⟩)
  | none =>
      rw [hdate, Option.isSome_none, if_neg Bool.false_ne_true] at h
      split at h
      · rename_i t htime
        exact Or.inr (Or.inr ⟨t, hempty, rfl, htime, (Except.ok.inj h).symm⟩)
      · cases h

/-- A deferral that has ended stays so. -/
theorem deferActive_mono {now later : Instant} (hle : now ≤ later)
    (h : svc.deferActive value now = false) : svc.deferActive value later = false := by
  unfold Service.deferActive at *
  cases hstart : svc.deferStart value with
  | none => rfl
  | some start =>
      rw [hstart, Option.any_some, decide_eq_false_iff_not] at h
      rw [Option.any_some, decide_eq_false_iff_not]
      lia

theorem ofList_ne_empty {cs : List Char} (h : c ∈ cs) : String.ofList cs ≠ "" := by
  intro hempty
  have hnil : cs = [] := by simpa using congrArg String.toList hempty
  rw [hnil] at h
  cases h

theorem deferStart_date (svc : Service) (hne : value ≠ "") (hdate : parseDate value = some date) :
    svc.deferStart value = some (svc.midnight date) := by
  unfold Service.deferStart
  rw [if_neg hne, hdate]
  rfl

theorem storedTime_ne_empty (t : Instant) : String.ofList (dateTimeText t ++ ['Z']) ≠ "" :=
  ofList_ne_empty (List.mem_append_right _ (List.mem_singleton_self 'Z'))

theorem deferStart_storedTime (hsvc : svc.ParsesRFC3339) (h : t.FourDigitYear) :
    svc.deferStart (String.ofList (dateTimeText t ++ ['Z'])) = some (t / second * second) := by
  unfold Service.deferStart
  rw [if_neg (storedTime_ne_empty t), parseDate_dateTimeText h, hsvc, Option.elim_none,
    parseRFC3339_dateTimeText h]

theorem normalizeDeferUntil_storedTime (hsvc : svc.ParsesRFC3339) (h : t.FourDigitYear):
    svc.normalizeDeferUntil (String.ofList (dateTimeText t ++ ['Z'])) =
      .ok (String.ofList (dateTimeText t ++ ['Z'])) := by
  unfold Service.normalizeDeferUntil
  rw [if_neg (storedTime_ne_empty t), parseDate_dateTimeText h, hsvc,
    parseRFC3339_dateTimeText h]
  simp only [Option.isSome_none, Bool.false_eq_true, if_false, dateTimeText_seconds]

/-- **Stored deferrals are canonical and mean what was sent.** -/
theorem stored_deferrals_mean_what_was_sent (hsvc : svc.ParsesRFC3339)
    (h : svc.normalizeDeferUntil value = .ok stored)
    (hyears : ∀ t, parseDate value = none → parseRFC3339 value = some t → t.FourDigitYear) :
    svc.normalizeDeferUntil stored = .ok stored ∧
      ((svc.deferStart stored).isSome = true ↔ value ≠ "") ∧
      (∀ date, parseDate value = some date →
        svc.deferStart stored = some (svc.midnight date)) ∧
      (∀ t, parseDate value = none → parseRFC3339 value = some t →
        svc.deferStart stored = some (t / second * second)) ∧
      ∀ now later, now ≤ later → svc.deferActive stored now = false →
        svc.deferActive stored later = false := by
  have hmono : ∀ now later, now ≤ later → svc.deferActive stored now = false →
      svc.deferActive stored later = false := fun _ _ => deferActive_mono
  rcases normalizeDeferUntil_cases hsvc h with
    ⟨rfl, rfl⟩ | ⟨date, hne, hdate, rfl⟩ | ⟨t, hne, hdate, htime, rfl⟩
  · refine ⟨h, ?_, ?_, ?_, hmono⟩
    · simp [Service.deferStart]
    · exact fun _ hdate => nomatch hdate
    · exact fun _ _ htime => nomatch htime
  · have hstart := deferStart_date svc hne hdate
    refine ⟨h, ?_, ?_, ?_, hmono⟩
    · rw [hstart]
      exact iff_of_true rfl hne
    · intro other hother
      rw [hdate] at hother
      rw [hstart, Option.some_inj.mp hother]
    · intro t hnone
      rw [hdate] at hnone
      cases hnone
  · have hyear := hyears t hdate htime
    have hstart := deferStart_storedTime hsvc hyear
    refine ⟨normalizeDeferUntil_storedTime hsvc hyear, ?_, ?_, ?_, hmono⟩
    · rw [hstart]
      exact iff_of_true rfl hne
    · intro date hsome
      rw [hdate] at hsome
      cases hsome
    · intro other _ hother
      rw [htime] at hother
      rw [hstart, Option.some_inj.mp hother]

end Stored

/-- A service in UTC that reads times as the language does. -/
def Service.utc : Service :=
  { Service.ascii with
    parseTime := parseRFC3339
    midnight := fun date => utcInstant date 0 0 }

/-- A time with an offset and a fraction is stored in UTC with whole seconds. -/
theorem offset_time_is_stored :
    Service.utc.normalizeDeferUntil "2023-11-14T23:13:20.5+01:00" = .ok "2023-11-14T22:13:20Z" ∧
      Service.utc.deferStart "2023-11-14T22:13:20Z" = some 1700000000000000000 := by
  have hstored : Service.utc.normalizeDeferUntil "2023-11-14T23:13:20.5+01:00" =
      .ok "2023-11-14T22:13:20Z" := by decide +kernel
  refine ⟨hstored, ?_⟩
  have hparse : parseRFC3339 "2023-11-14T23:13:20.5+01:00" = some 1700000000500000000 := by decide
  have hsvc : Service.utc.ParsesRFC3339 := rfl
  have hmeans := stored_deferrals_mean_what_was_sent hsvc hstored ?_
  · exact hmeans.2.2.2.1 _ (by decide) hparse
  · intro t _ htime
    rw [hparse] at htime
    rw [← Option.some_inj.mp htime]
    exact ⟨by decide, by decide +kernel⟩

end Taskboard
