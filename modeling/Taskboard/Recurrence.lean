import Taskboard.Dates
import Taskboard.Planning

/-!
# The next occurrence of a recurring task

A daily, weekly or monthly task that is done is followed by an occurrence that is due a day, a
week or a month later (`nextRecurringDate`). Go adds a month to a date by adding one to its month
and letting a day that the new month does not have run on into the month after, so that the
occurrence after the 31st of January falls into March.
-/

namespace Taskboard

/-- The year and the number of the calendar month after that of a date. -/
def Date.monthAfter (date : Date) : Nat × Nat :=
  if date.month = 12 then (date.year + 1, 1) else (date.year, date.month + 1)

/-- The date lies in the calendar month after that of `due`, on the same day of the month where
that month has it. -/
structure Date.FollowsMonth (due date : Date) : Prop where
  year : date.year = due.monthAfter.1
  month : date.month = due.monthAfter.2
  day : due.day ≤ daysIn due.monthAfter.1 due.monthAfter.2 → date.day = due.day

section Months

variable {due : Date}

theorem Date.addMonth_eq (due : Date) :
    due.addMonth = Date.ofDay (dayNumber due.monthAfter.1 due.monthAfter.2 due.day) := by
  unfold Date.addMonth Date.monthAfter
  split <;> rfl

/-- The month after another begins where that one ends. -/
theorem monthAfter_start (due : Date) :
    daysBeforeYear due.monthAfter.1 +
        daysBeforeMonth (isLeap due.monthAfter.1) due.monthAfter.2 =
      daysBeforeYear due.year + daysBeforeMonth (isLeap due.year) due.month +
        daysIn due.year due.month := by
  have hnext := daysBeforeMonth_succ due.year due.month
  unfold Date.monthAfter
  split
  · rename_i hdecember
    have hlong : daysBeforeMonth (isLeap due.year) (12 + 1) = _ := daysBeforeMonth_thirteen _
    have hyear := daysBeforeYear_succ due.year
    have hjanuary : daysBeforeMonth (isLeap (due.year + 1)) 1 = 0 := by
      simp [daysBeforeMonth, daysBefore]
    rw [hdecember] at hnext ⊢
    show daysBeforeYear (due.year + 1) + daysBeforeMonth (isLeap (due.year + 1)) 1 = _
    omega
  · show daysBeforeYear due.year + daysBeforeMonth (isLeap due.year) (due.month + 1) = _
    omega

/-- Adding a month adds the days of the month that the date lies in. -/
theorem Date.number_addMonth (due : Date) :
    due.addMonth.number = due.number + daysIn due.year due.month := by
  have hstart := monthAfter_start due
  rw [Date.addMonth_eq, Date.number_ofDay, Date.number]
  unfold dayNumber
  omega

theorem monthAfter_range (h : due.Valid) : 1 ≤ due.monthAfter.2 ∧ due.monthAfter.2 ≤ 12 := by
  have hle := h.month_le
  unfold Date.monthAfter
  split
  · exact ⟨le_rfl, Nat.le_add_left 1 11⟩
  · exact ⟨Nat.le_add_left 1 _, by show due.month + 1 ≤ 12; omega⟩

/-- **A month later** is in the next month exactly if that month has the day. -/
theorem followsMonth_addMonth_iff (h : due.Valid) :
    due.FollowsMonth due.addMonth ↔ due.day ≤ daysIn due.monthAfter.1 due.monthAfter.2 := by
  obtain ⟨hfirst, hlast⟩ := monthAfter_range h
  have hadd := due.addMonth_eq
  constructor
  · rintro ⟨hyear, hmonth, -⟩
    have hnumber : due.addMonth.number = dayNumber due.monthAfter.1 due.monthAfter.2 due.day := by
      rw [hadd, Date.number_ofDay]
    have hvalid : due.addMonth.Valid := by
      rw [hadd]
      exact Date.valid_ofDay _
    have hday := hvalid.day_le
    have hpos := hvalid.day_pos
    have hduePos := h.day_pos
    rw [hyear, hmonth] at hday
    rw [Date.number, hyear, hmonth] at hnumber
    generalize due.monthAfter = next at *
    unfold dayNumber at hnumber
    omega
  · intro hday
    generalize hnext : due.monthAfter = next at *
    have hvalid : Date.Valid ⟨next.1, next.2, due.day⟩ := ⟨hfirst, hlast, h.day_pos, hday⟩
    have hdate : due.addMonth = ⟨next.1, next.2, due.day⟩ := by
      have hnumber : Date.number ⟨next.1, next.2, due.day⟩ = dayNumber next.1 next.2 due.day := rfl
      rw [hadd, ← hnumber, Date.ofDay_number hvalid]
    rw [hdate]
    exact ⟨by rw [hnext], by rw [hnext], fun _ => rfl⟩

end Months

/-- **Recurring dates.** From a valid due date the daily and weekly occurrences are due one and
seven days later, and the monthly one at a later date too, which lies in the next calendar month
exactly if that month has the day. -/
theorem recurring_dates_advance {dueDate : String} {due : Date} (now : Instant)
    (h : parseDate dueDate = some due) :
    ∃ daily weekly monthly : Date,
      nextRecurringDate dueDate "daily" now = .ok (formatDate daily) ∧
      nextRecurringDate dueDate "weekly" now = .ok (formatDate weekly) ∧
      nextRecurringDate dueDate "monthly" now = .ok (formatDate monthly) ∧
      (daily.Valid ∧ weekly.Valid ∧ monthly.Valid) ∧
      daily.number = due.number + 1 ∧ weekly.number = due.number + 7 ∧
      due.number < monthly.number ∧
      (due.FollowsMonth monthly ↔ due.day ≤ daysIn due.monthAfter.1 due.monthAfter.2) := by
  have hvalid := parseDate_valid h
  have hnamed : dueDate ≠ "" := by
    rintro rfl
    cases h
  refine ⟨due.addDays 1, due.addDays 7, due.addMonth, ?_, ?_, ?_, ⟨?_, ?_, ?_⟩, ?_, ?_, ?_, ?_⟩
  · simp only [nextRecurringDate, hnamed, if_false, h]
    rfl
  · simp only [nextRecurringDate, hnamed, if_false, h]
    rfl
  · simp only [nextRecurringDate, hnamed, if_false, h]
    rfl
  · exact Date.valid_ofDay _
  · exact Date.valid_ofDay _
  · rw [Date.addMonth_eq]
    exact Date.valid_ofDay _
  · exact Date.number_ofDay _
  · exact Date.number_ofDay _
  · have hpos := hvalid.day_pos
    have hle := hvalid.day_le
    rw [Date.number_addMonth]
    omega
  · exact followsMonth_addMonth_iff hvalid

/-- The 15th of January is followed by the 15th of February. -/
theorem mid_month_recurs : ∃ monthly : Date,
    nextRecurringDate "2025-01-15" "monthly" 0 = .ok (formatDate monthly) ∧
      Date.FollowsMonth ⟨2025, 1, 15⟩ monthly := by
  have hdue : parseDate "2025-01-15" = some ⟨2025, 1, 15⟩ := by decide
  obtain ⟨-, -, monthly, -, -, hmonthly, -, -, -, -, hiff⟩ := recurring_dates_advance 0 hdue
  exact ⟨monthly, hmonthly, hiff.mpr (by decide)⟩

/-- The 31st of January is followed by the 3rd of March. -/
theorem end_of_month_skips_a_month :
    parseDate "2025-01-31" = some ⟨2025, 1, 31⟩ ∧
      nextRecurringDate "2025-01-31" "monthly" 0 = .ok (formatDate ⟨2025, 3, 3⟩) ∧
      ¬ Date.FollowsMonth ⟨2025, 1, 31⟩ ⟨2025, 3, 3⟩ := by
  refine ⟨by decide, by decide +kernel, ?_⟩
  rintro ⟨-, hmonth, -⟩
  cases hmonth

end Taskboard
