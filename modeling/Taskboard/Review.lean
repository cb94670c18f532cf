import Taskboard.Deferral
import Taskboard.Rows

/-!
# The daily review

Once a day, from nine o'clock on, the people who want it are sent a list of the automatic tasks
that wait, are blocked or went stale (`deliverReview`). Tasks that are still deferred are to be
left out. The review compares the text of the deferral with the text of the day, which is right for dates
but not for times: a time of today sorts behind the date of today, even when it has passed.

A location is what Go's `time` package knows of it: for every second the offset from UTC and the
stretch of time in which it is in effect.
-/

namespace Taskboard

variable {date : Date} {t now : Instant} {loc : Location} {svc : Service}

/-- A stretch of time with one offset from UTC, in seconds. -/
structure Zone where
  offset : Int
  start : Int
  stop : Int

/-- `time.Location` with its `lookup`. -/
structure Location where
  lookup : Int → Zone
  within (sec : Int) : (lookup sec).start ≤ sec ∧ sec < (lookup sec).stop

/-- The offset in effect at an instant. -/
def Location.offset (loc : Location) (t : Instant) : Int :=
  (loc.lookup (t / second)).offset

/-- The seconds of the clock on the wall, since 1970 there. -/
def Location.wall (loc : Location) (t : Instant) : Int :=
  t / second + loc.offset t

/-- The hour of an instant there. -/
def Location.hour (loc : Location) (t : Instant) : Int :=
  loc.wall t % 86400 / 3600

/-- The date of an instant there. -/
def Location.day (loc : Location) (t : Instant) : Date :=
  Date.ofDay (loc.wall t / 86400 + 719528).toNat

/-- Midnight of a date in UTC, in seconds since the epoch. -/
def Date.unix (date : Date) : Int :=
  ((date.number : Int) - 719528) * 86400

/-- The offset by which `time.Date` turns midnight of a date into an instant: that of the stretch
in which midnight in UTC lies, or where this leads out of the stretch, that of where it leads. -/
def Location.midnightOffset (loc : Location) (date : Date) : Int :=
  let zone := loc.lookup date.unix
  let utc := date.unix - zone.offset
  if utc < zone.start ∨ zone.stop ≤ utc then (loc.lookup utc).offset else zone.offset

/-- `time.ParseInLocation` of a date: its midnight. -/
def Location.midnight (loc : Location) (date : Date) : Instant :=
  (date.unix - loc.midnightOffset date) * second

/-- The settings of the review. -/
structure ReviewSettings where
  routineProducers : List String
  reviewLocation : Location

/-- The rank of a priority in the order of the review. -/
def Priority.rank : Priority → Nat
  | .urgent => 0
  | .high => 1
  | .normal => 2
  | .low => 3

/-- The statuses that the review is about. -/
def TaskStatus.reviewed (status : TaskStatus) : Bool :=
  status = .waiting ∨ status = .blocked ∨ status = .stale

/-- The rows of the query of the review. -/
def Service.reviewRows (svc : Service) (db : Db) : List Task :=
  sortBy (fun a b => a.priority.rank < b.priority.rank ||
      (a.priority.rank = b.priority.rank && svc.before a.createdAt b.createdAt))
    (db.tasks.filter fun task => task.status.reviewed)

/-- The test of one task, with the day as text. -/
def ReviewSettings.includes (review : ReviewSettings) (day : String) (task : Task) : Bool :=
  task.status.reviewed && task.createdBy ∈ review.routineProducers &&
    (task.deferUntil = "" || task.deferUntil ≤ day)

/-- The loop of the review over the tasks that its query found. -/
def reviewTasks (svc : Service) (review : ReviewSettings) (now : Instant) (day : String) :
    List String → CallM (List TaskView)
  | [] => pure []
  | id :: rest => do
      let task ← getTask svc now (trimSpace id)
      let tasks ← reviewTasks svc review now day rest
      pure (if review.includes day task.toTask then task :: tasks else tasks)

/-- The snapshot of `deliverReview`. -/
def reviewSnapshot (svc : Service) (review : ReviewSettings) (now : Instant) :
    CallM (List TaskView) := do
  if review.routineProducers = [] ∨ review.reviewLocation.hour now < 9 then pure []
  else
    let ids ← Call.look fun db => (svc.reviewRows db).map Task.id
    reviewTasks svc review now (formatDate (review.reviewLocation.day now)) ids

/-- The stored deferral does not fall where the review and the deferral differ. For a date, the
time from now to its midnight does not lie between the offset of now and that of midnight; they
mostly are the same. For a time, it does not lie between now and the midnight, in UTC, of the day
that it is at the location. -/
def Location.Settled (loc : Location) (now : Instant) (deferUntil : String) : Prop :=
  match parseDate deferUntil with
  | some date =>
      date.unix - now / second ≤ loc.offset now ∧
          date.unix - now / second ≤ loc.midnightOffset date ∨
        loc.offset now < date.unix - now / second ∧
          loc.midnightOffset date < date.unix - now / second
  | none => ∀ t, parseRFC3339 deferUntil = some t →
      t ≤ now ∧ t < (loc.day now).unix * second ∨ now < t ∧ (loc.day now).unix * second ≤ t

/-- The years 0 to 9999 at a location. -/
def Location.FourDigitYear (loc : Location) (now : Instant) : Prop :=
  0 ≤ loc.wall now / 86400 + 719528 ∧ (loc.day now).year < 10000

section Texts

theorem unix_day (h : loc.FourDigitYear now) :
    (loc.day now).unix = loc.wall now / 86400 * 86400 := by
  have hpos := h.1
  unfold Date.unix Location.day
  rw [Date.number_ofDay]
  omega

/-- A date is due by its text when the clock there has reached it. -/
theorem date_le_day_iff (h : loc.FourDigitYear now) (hvalid : date.Valid)
    (hyear : date.year < 10000) :
    formatDate date ≤ formatDate (loc.day now) ↔ date.unix ≤ loc.wall now := by
  have hday : (loc.day now).Valid := Date.valid_ofDay _
  have htext : (formatDate (loc.day now)).toList ++ [] < (formatDate date).toList ++ [] ↔ _ :=
    formatDate_append_lt_iff hday hvalid h.2 hyear
  have hunix := unix_day h
  rw [List.append_nil, List.append_nil, ← String.lt_iff] at htext
  rw [← String.not_lt, htext]
  unfold Date.unix at *
  simp only [List.lt_irrefl, and_false, or_false]
  omega

/-- A time is due by its text when its day in UTC is before the day there. -/
theorem time_le_day_iff (h : loc.FourDigitYear now) (ht : t.FourDigitYear) :
    String.ofList (dateTimeText t ++ ['Z']) ≤ formatDate (loc.day now) ↔
      t < (loc.day now).unix * second := by
  have hday : (loc.day now).Valid := Date.valid_ofDay _
  have hvalid : (dateOf t).Valid := Date.valid_ofDay _
  have hnumber : (dateOf t).number = (t / (24 * hour) + 719528).toNat := Date.number_ofDay _
  have hpos := ht.1
  rw [← String.not_lt, String.lt_iff, String.toList_ofList,
    ← List.append_nil (formatDate (loc.day now)).toList]
  unfold dateTimeText
  simp only [List.append_assoc, List.cons_append]
  rw [formatDate_append_lt_iff hday hvalid h.2 ht.2]
  simp only [List.nil_lt_cons, and_true]
  unfold Date.unix
  rw [hnumber]
  unfold hour minute second at *
  lia

end Texts

section Snapshot

variable {review : ReviewSettings} {db : Db} {day : String}

theorem exec_reviewTasks {tasks : List Task}
    (h : ∀ task ∈ tasks, db.task? task.id = some task ∧ trimSpace task.id = task.id) :
    (reviewTasks svc review now day (tasks.map Task.id)).exec db =
      (.ok ((tasks.filter (review.includes day)).map (svc.view db now)), db) := by
  induction tasks with
  | nil => rfl
  | cons task rest ih =>
      obtain ⟨⟨htask, htrim⟩, hrest⟩ := List.forall_mem_cons.mp h
      simp only [List.map_cons, reviewTasks, htrim, Call.exec_bind, exec_getTask htask, ih hrest,
        Call.exec_pure, List.filter_cons]
      have hsame : (svc.view db now task).toTask = task := rfl
      rw [hsame]
      split <;> rfl

/-- **The snapshot**: the tasks of the query that pass the test. -/
theorem exec_reviewSnapshot (hunique : db.Unique) (hproper : ∀ task ∈ db.tasks, task.Proper)
    (hproducers : review.routineProducers ≠ []) (hhour : 9 ≤ review.reviewLocation.hour now) :
    (reviewSnapshot svc review now).exec db =
      (.ok (((svc.reviewRows db).filter
        (review.includes (formatDate (review.reviewLocation.day now)))).map (svc.view db now)),
        db) := by
  have hopen : ¬(review.routineProducers = [] ∨ review.reviewLocation.hour now < 9) := by
    rintro (hnone | hearly)
    · exact hproducers hnone
    · omega
  unfold reviewSnapshot
  rw [if_neg hopen]
  simp only [Call.exec_bind, Call.exec_look]
  apply exec_reviewTasks
  intro task htask
  have hmem : task ∈ db.tasks := (List.mem_filter.mp (mem_sortBy.mp htask)).1
  exact ⟨hunique.task? hmem, (hproper task hmem).trimmed⟩

end Snapshot

section Exactness

variable {deferUntil : String}

/-- A date is due by the deferral when its midnight has passed. -/
theorem deferActive_date (hmidnight : svc.midnight = loc.midnight)
    (hne : deferUntil ≠ "") (hdate : parseDate deferUntil = some date) :
    svc.deferActive deferUntil now = false ↔
      date.unix - now / second ≤ loc.midnightOffset date := by
  unfold Service.deferActive
  rw [deferStart_date svc hne hdate, hmidnight, Option.any_some, decide_eq_false_iff_not]
  unfold Location.midnight second
  lia

theorem deferActive_time (now : Instant) (hsvc : svc.ParsesRFC3339)
    (hself : parseRFC3339 (String.ofList (dateTimeText t ++ ['Z'])) = some t) :
    svc.deferActive (String.ofList (dateTimeText t ++ ['Z'])) now = false ↔ t ≤ now := by
  have hyear := fourDigitYear_of_parseRFC3339 hself
  have hwhole : t / second * second = t := by
    have hread := parseRFC3339_dateTimeText hyear
    rw [hself] at hread
    exact (Option.some_inj.mp hread).symm
  unfold Service.deferActive
  rw [deferStart_storedTime hsvc hyear, hwhole, Option.any_some, decide_eq_false_iff_not]
  lia

theorem settled_date (hdate : parseDate deferUntil = some date) :
    loc.Settled now deferUntil ↔
      (date.unix - now / second ≤ loc.offset now ↔
        date.unix - now / second ≤ loc.midnightOffset date) := by
  unfold Location.Settled
  rw [hdate]
  omega

theorem settled_time (hdate : parseDate deferUntil = none)
    (htime : parseRFC3339 deferUntil = some t) :
    loc.Settled now deferUntil ↔ (t < (loc.day now).unix * second ↔ t ≤ now) := by
  unfold Location.Settled
  rw [hdate, htime]
  simp only [Option.some_inj, forall_eq']
  generalize (loc.day now).unix * second = start
  lia

theorem settled_empty : loc.Settled now "" := by
  have hdate : parseDate "" = none := rfl
  have htime : parseRFC3339 "" = none := rfl
  unfold Location.Settled
  rw [hdate, htime]
  exact fun _ ht => nomatch ht

/-- **The two readings of a deferral** agree exactly when it is settled. -/
theorem due_iff_settled (hsvc : svc.ParsesRFC3339) (hmidnight : svc.midnight = loc.midnight)
    (hyear : loc.FourDigitYear now)
    (hstored : svc.normalizeDeferUntil deferUntil = .ok deferUntil) :
    ((deferUntil = "" ∨ deferUntil ≤ formatDate (loc.day now)) ↔
        svc.deferActive deferUntil now = false) ↔ loc.Settled now deferUntil := by
  rcases normalizeDeferUntil_cases hsvc hstored with
    ⟨rfl, -⟩ | ⟨date, hne, hdate, -⟩ | ⟨t, hne, hdate, htime, htext⟩
  · have hactive : svc.deferActive "" now = false := rfl
    exact iff_of_true (iff_of_true (Or.inl rfl) hactive) settled_empty
  · obtain ⟨hvalid, hfour, htext⟩ := formatDate_of_parseDate hdate
    have hdue := date_le_day_iff hyear hvalid hfour
    rw [htext] at hdue
    rw [deferActive_date hmidnight hne hdate, settled_date hdate, or_iff_right hne, hdue,
      Location.wall]
    omega
  · rw [htext] at htime
    have hdue := time_le_day_iff hyear (fourDigitYear_of_parseRFC3339 htime)
    have hactive := deferActive_time now hsvc htime
    rw [← htext] at hdue hactive htime
    rw [settled_time hdate htime, or_iff_right hne, hdue, hactive]

end Exactness

/-- **The daily review respects a deferral exactly if the deferral is settled.** -/
theorem review_respects_settled_deferrals {svc : Service} {review : ReviewSettings}
    {now : Instant} {db : Db} {task : Task} (hsvc : svc.ParsesRFC3339)
    (hmidnight : svc.midnight = review.reviewLocation.midnight) (hunique : db.Unique)
    (hproper : ∀ task ∈ db.tasks, task.Proper)
    (hyear : review.reviewLocation.FourDigitYear now) (hhour : 9 ≤ review.reviewLocation.hour now)
    (htask : task ∈ db.tasks) (hstatus : task.status.reviewed = true)
    (hproducer : task.createdBy ∈ review.routineProducers)
    (hstored : svc.normalizeDeferUntil task.deferUntil = .ok task.deferUntil) :
    ∃ snapshot, (reviewSnapshot svc review now).exec db = (.ok snapshot, db) ∧
      (((∃ view ∈ snapshot, view.toTask = task) ↔
          svc.deferActive task.deferUntil now = false) ↔
        review.reviewLocation.Settled now task.deferUntil) := by
  have hnonempty := List.ne_nil_of_mem hproducer
  refine ⟨_, exec_reviewSnapshot hunique hproper hnonempty hhour, ?_⟩
  have hview (rows : List Task) :
      (∃ view ∈ rows.map (svc.view db now), view.toTask = task) ↔ task ∈ rows := by
    constructor
    · rintro ⟨view, hview, rfl⟩
      obtain ⟨row, hrow, rfl⟩ := List.mem_map.mp hview
      exact hrow
    · intro h
      exact ⟨_, List.mem_map_of_mem h, rfl⟩
  have hincluded : task ∈ (svc.reviewRows db).filter
      (review.includes (formatDate (review.reviewLocation.day now))) ↔
      task.deferUntil = "" ∨ task.deferUntil ≤ formatDate (review.reviewLocation.day now) := by
    rw [List.mem_filter, Service.reviewRows, mem_sortBy, List.mem_filter]
    simp [htask, ReviewSettings.includes, hstatus, hproducer]
  rw [hview, hincluded]
  exact due_iff_settled hsvc hmidnight hyear hstored

/-- A location that keeps UTC. -/
def Location.utc : Location where
  lookup sec := { offset := 0, start := sec, stop := sec + 1 }
  within _ := ⟨Int.le_refl _, Int.lt_succ _⟩

theorem midnight_utc : Service.utc.midnight = Location.utc.midnight := by
  funext date
  have hoffset : Location.utc.midnightOffset date = 0 := ite_self _
  have hservice : Service.utc.midnight date = (date.unix + 0) * second + 0 := rfl
  rw [hservice, Location.midnight, hoffset, Int.add_zero, Int.add_zero, Int.sub_zero]

/-- A task is written down for later. -/
def deferOp (deferUntil : String) : Op :=
  .create (.numbered 1 0) { title := "Renew the certificate", deferUntil }
    (humanPrincipal "ann" .owner)

/-- The task is blocked. -/
def blockOp : Op :=
  .update (.numbered 2 1) "0100"
    { expectedVersion := 1, status := "blocked", blocker := some "No access" }
    (humanPrincipal "ann" .owner)

def parkedBoard (deferUntil : String) : Db :=
  Op.run .utc [deferOp deferUntil, blockOp] {}

theorem develops_parkedBoard (deferUntil : String) :
    Develops .utc (fun _ _ => True) (parkedBoard deferUntil) :=
  (Develops.empty.change (.operation (deferOp deferUntil)) trivial).change
    (.operation blockOp) trivial

/-- The person's tasks are reviewed. -/
def sampleReview : ReviewSettings where
  routineProducers := ["ann"]
  reviewLocation := .utc

/-- Noon of the second of June 2025 in UTC. -/
def sampleNoon : Instant := 1748865600 * second

/-- At noon, a task that was deferred to this date is reviewed. -/
theorem due_date_is_reviewed :
    ∃ task ∈ (parkedBoard "2025-06-02").tasks, task.deferUntil = "2025-06-02" ∧
      ∃ snapshot, (reviewSnapshot .utc sampleReview sampleNoon).exec (parkedBoard "2025-06-02") =
          (.ok snapshot, parkedBoard "2025-06-02") ∧ ∃ view ∈ snapshot, view.toTask = task := by
  have hsome : ((parkedBoard "2025-06-02").task? "0100").isSome = true := by decide +kernel
  obtain ⟨task, htask⟩ := Option.isSome_iff_exists.mp hsome
  have hmem : task ∈ (parkedBoard "2025-06-02").tasks := List.mem_of_find?_eq_some htask
  have hrow : ∀ task ∈ (parkedBoard "2025-06-02").tasks, task.status.reviewed = true ∧
      task.createdBy ∈ sampleReview.routineProducers ∧ task.deferUntil = "2025-06-02" := by
    decide +kernel
  obtain ⟨hstatus, hproducer, hdefer⟩ := hrow task hmem
  have hdevelops := develops_parkedBoard "2025-06-02"
  have hsvc : Service.utc.ParsesRFC3339 := rfl
  have hyear : sampleReview.reviewLocation.FourDigitYear sampleNoon :=
    ⟨by decide, by decide +kernel⟩
  have hstored : Service.utc.normalizeDeferUntil task.deferUntil = .ok task.deferUntil := by
    rw [hdefer]
    decide +kernel
  have hmidnight : Service.utc.midnight = sampleReview.reviewLocation.midnight := midnight_utc
  have hhour : 9 ≤ sampleReview.reviewLocation.hour sampleNoon := by decide
  have hresult := review_respects_settled_deferrals hsvc hmidnight hdevelops.unique
    hdevelops.proper hyear hhour hmem hstatus hproducer hstored
  obtain ⟨snapshot, hexec, hiff⟩ := hresult
  refine ⟨task, hmem, hdefer, snapshot, hexec, (hiff.mpr ?_).mpr ?_⟩
  · rw [hdefer]
    exact Or.inl ⟨by decide +kernel, by decide +kernel⟩
  · rw [hdefer]
    decide +kernel

/-- At noon, a task that was deferred to eight o'clock of this date is not reviewed. -/
theorem past_time_is_not_reviewed :
    Service.utc.normalizeDeferUntil "2025-06-02T08:00:00Z" = .ok "2025-06-02T08:00:00Z" ∧
      Service.utc.midnight = Location.utc.midnight ∧ 9 ≤ Location.utc.hour sampleNoon ∧
      Service.utc.deferActive "2025-06-02T08:00:00Z" sampleNoon = false ∧
      (∀ task ∈ (parkedBoard "2025-06-02T08:00:00Z").tasks, task.status = .blocked ∧
        task.createdBy ∈ sampleReview.routineProducers ∧
        task.deferUntil = "2025-06-02T08:00:00Z") ∧
      (parkedBoard "2025-06-02T08:00:00Z").tasks.map Task.id = ["0100"] ∧
      ((reviewSnapshot .utc sampleReview sampleNoon).exec
        (parkedBoard "2025-06-02T08:00:00Z")).1 = .ok [] := by
  refine ⟨?_, midnight_utc, ?_, ?_, ?_, ?_, ?_⟩
  all_goals decide +kernel

end Taskboard
