import Mathlib
import Taskboard.Deletion
import Taskboard.RunLife

/-!
# Analytics

Agents record the tokens and the cost of their runs (`recordUsageFor`), and the people who run the
board look at the totals of a window of time (`analyticsFor`). Records are checked to be
non-negative, and to nothing above that. The databases add up 64-bit integers, SQLite one after
the other, PostgreSQL exactly, and the total has to fit into 64 bits again.

The rates and means of the summary are exact fractions here and floating-point numbers in the
source.
-/

namespace Taskboard

variable {values : List Int} {request : RecordUsageRequest} {db : Db} {svc : Service}

/-- The largest 64-bit signed integer. -/
def maxInt64 : Int := 9223372036854775807

/-- A number as a 64-bit signed integer, if it is one. -/
def int64? (n : Int) : Option Int :=
  if -maxInt64 - 1 ≤ n ∧ n ≤ maxInt64 then some n else none

/-- `sumStep` of SQLite: one more number, while the total is a 64-bit integer. -/
def sumStep (total? : Option Int) (n : Int) : Option Int :=
  total?.bind fun total => int64? (total + n)

/-- `SUM` over a column of 64-bit integers, as it is scanned into one. -/
def Dialect.sum : Dialect → List Int → Option Int
  | .sqlite, values => values.foldl sumStep (some 0)
  | .postgres, values => int64? values.sum

/-- A quotient, or nothing to divide by. -/
def rate (total : Rat) (count : Nat) : Rat :=
  if 0 < count then total / count else 0

/-- `AnalyticsSummary`. -/
structure AnalyticsSummary where
  windowDays : Int
  windowStart : Instant
  windowEnd : Instant
  tasksCreated : Nat
  tasksDone : Nat
  tasksCancelled : Nat
  meanQueueAgeSeconds : Rat
  completionRate : Rat
  runs : Nat
  staleRuns : Nat
  staleRunRate : Rat
  meanExecutionSeconds : Rat
  escalations : Nat
  retries : Nat
  reviewReferences : Nat
  escalationRate : Rat
  meanReviewCycles : Rat
  inputTokens : Int
  outputTokens : Int
  estimatedCostMicros : Int
  deriving DecidableEq

/-- `WHERE created_at>=?`. -/
def Service.since {ρ : Type} (svc : Service) (start : Instant) (time : ρ → Instant)
    (rows : List ρ) : List ρ :=
  rows.filter fun row => !svc.before (time row) start

/-- The usage records of a window. -/
def Service.usageSince (svc : Service) (start : Instant) (db : Db) : List UsageRecord :=
  svc.since start UsageRecord.createdAt db.usage

/-- The query for the totals of the usage records. -/
def Dialect.usageTotals (dialect : Dialect) (records : List UsageRecord) :
    Except ServiceError (Int × Int × Int) :=
  let totals := do
    let inputTokens ← dialect.sum (records.map UsageRecord.inputTokens)
    let outputTokens ← dialect.sum (records.map UsageRecord.outputTokens)
    let estimatedCostMicros ← dialect.sum (records.map UsageRecord.estimatedCostMicros)
    pure (inputTokens, outputTokens, estimatedCostMicros)
  totals.elim (.error (.database "integer overflow")) .ok

/-- A time span in seconds. -/
def seconds (span : Duration) : Rat :=
  (span : Rat) / (second : Rat)

/-- The days of the window that was asked for. -/
def windowDays (days : Int) : Int :=
  if days ≤ 0 then 30 else days

/-- Where a window of some days ends now, this is where it starts. -/
def windowStart (now : Instant) (days : Int) : Instant :=
  now - windowDays days * (24 * hour)

/-- `AnalyticsFor`. -/
def analyticsFor (svc : Service) (dialect : Dialect) (now : Instant) (days : Int)
    (principal : Principal) : CallM AnalyticsSummary := do
  refuse (principal.agent || (principal.role ≠ .owner && principal.role ≠ .admin)) ErrForbidden
  refuse (365 < windowDays days) (ErrValidation "analytics window is limited to 365 days")
  let start := windowStart now days
  let tasks ← Call.look fun db => svc.since start Task.createdAt db.tasks
  let queued := tasks.filter fun task => task.status = .queued
  let tasksDone := (tasks.filter fun task => task.status = .done).length
  let tasksCancelled := (tasks.filter fun task => task.status = .cancelled).length
  let runs ← Call.look fun db => svc.since start AgentRun.startedAt db.runs
  let staleRuns := (runs.filter fun run => run.status = .stale).length
  let executions := runs.filterMap fun run =>
    run.endedAt.map fun endedAt => seconds (endedAt - run.startedAt)
  let escalations ← Call.look fun db =>
    (svc.since start TaskEscalation.createdAt db.escalations).length
  let retries ← Call.look fun db =>
    ((svc.since start RunControlRequest.createdAt db.controls).filter fun row =>
      row.kind = .retry ∧ row.status = .completed).length
  let reviewReferences ← Call.look fun db =>
    ((svc.since start TaskReference.createdAt db.references).filter fun row =>
      row.kind = .review).length
  let totals ← Call.lookOr fun db => dialect.usageTotals (svc.usageSince start db)
  pure
    { windowDays := windowDays days
      windowStart := start
      windowEnd := now
      tasksCreated := tasks.length
      tasksDone, tasksCancelled
      meanQueueAgeSeconds :=
        rate (queued.map fun task => seconds (now - task.createdAt)).sum queued.length
      completionRate := rate tasksDone (tasksDone + tasksCancelled)
      runs := runs.length
      staleRuns
      staleRunRate := rate staleRuns runs.length
      meanExecutionSeconds := rate executions.sum executions.length
      escalations, retries, reviewReferences
      escalationRate := rate escalations tasks.length
      meanReviewCycles := rate reviewReferences tasksDone
      inputTokens := totals.1
      outputTokens := totals.2.1
      estimatedCostMicros := totals.2.2 }

section Sums

theorem int64?_of_nonneg {n : Int} (h : 0 ≤ n) :
    int64? n = if n ≤ maxInt64 then some n else none := by
  have hlow : -maxInt64 - 1 ≤ n := Int.le_trans (by decide) h
  unfold int64?
  simp only [hlow, true_and]

theorem foldl_sumStep_none (values : List Int) : values.foldl sumStep none = none := by
  induction values with
  | nil => rfl
  | cons n rest ih => exact ih

/-- Adding up one after the other fails exactly where the total is too large. -/
theorem foldl_sumStep (h : ∀ n ∈ values, 0 ≤ n) {total : Int} (hpos : 0 ≤ total)
    (hfits : total ≤ maxInt64) :
    values.foldl sumStep (some total) =
      if total + values.sum ≤ maxInt64 then some (total + values.sum) else none := by
  induction values generalizing total with
  | nil => simp [hfits]
  | cons n rest ih =>
      obtain ⟨hn, hrest⟩ := List.forall_mem_cons.mp h
      have hsum := List.sum_nonneg hrest
      rw [List.foldl_cons, sumStep, Option.bind_some, int64?_of_nonneg (by omega), List.sum_cons,
        ← Int.add_assoc]
      by_cases hnext : total + n ≤ maxInt64
      · rw [if_pos hnext, ih hrest (by omega) hnext]
      · rw [if_neg hnext, foldl_sumStep_none, if_neg (by omega)]

/-- **Both database systems** give the exact total of non-negative numbers if it fits, and
otherwise fail. -/
theorem Dialect.sum_eq (dialect : Dialect) (h : ∀ n ∈ values, 0 ≤ n) :
    dialect.sum values = if values.sum ≤ maxInt64 then some values.sum else none := by
  cases dialect with
  | sqlite =>
      have hfold := foldl_sumStep h (Int.le_refl 0) (by decide)
      rwa [Int.zero_add] at hfold
  | postgres => exact int64?_of_nonneg (List.sum_nonneg h)

end Sums

/-- What `RecordUsageFor` checks of the numbers of a record. -/
structure UsageRecord.NonNegative (row : UsageRecord) : Prop where
  inputTokens : 0 ≤ row.inputTokens
  outputTokens : 0 ≤ row.outputTokens
  estimatedCostMicros : 0 ≤ row.estimatedCostMicros

section Records

theorem validateUsage_ok (h : validateUsage request = .ok ()) :
    0 ≤ request.inputTokens ∧ 0 ≤ request.outputTokens ∧ 0 ≤ request.estimatedCostMicros := by
  simp only [validateUsage, Except.bind_ok_iff, refuse_ok_iff, not_or, Int.not_lt] at h
  obtain ⟨_, ⟨-, hinput, houtput, hcost, -⟩, -⟩ := h
  exact ⟨hinput, houtput, hcost⟩

/-- What `RecordUsageFor` does where it does anything: it adds one record that it has checked. -/
theorem atMost_recordUsageFor {env : Env} {taskID : String} {principal : Principal}:
    (recordUsageFor svc env taskID request principal).AtMost fun db db' =>
      ∃ item : UsageRecord, item.NonNegative ∧ db'.usage = db.usage ++ [item] := by
  have hchecked (db : Db) (h : (mayRecordUsage svc env (trimSpace taskID) request.clean
      principal).exec db = (.ok (), db)) : validateUsage request.clean = .ok () := by
    obtain ⟨_, -, h⟩ := Call.exec_lift_bind_ok h
    obtain ⟨_, hvalid, -⟩ := Call.exec_lift_bind_ok h
    rw [Call.exec_lift, Prod.mk.injEq] at hvalid
    exact hvalid.1
  refine Call.atMost_bind_seen quiet_mayRecordUsage (fun db _ h => hchecked db h) fun _ => ?_
  refine atMost_keyed (fun _ => Call.quiet_lookOr _) ?_
  refine (Call.atMost_tx _).mono fun db db' ⟨item, hrun⟩ hvalid => ?_
  obtain ⟨hinput, houtput, hcost⟩ := validateUsage_ok hvalid
  simp only [recordUsageTx, Tx.run_bind_ok, Table.run_insert_ok, run_insertEvent_ok,
    Tx.run_pure_ok, usageTable] at hrun
  obtain ⟨_, _, ⟨-, -, rfl⟩, _, _, ⟨-, -, rfl⟩, rfl, rfl⟩ := hrun
  exact ⟨_, ⟨hinput, houtput, hcost⟩, rfl⟩

theorem nonNegative_step (op : Op) (db : Db) (h : ∀ row ∈ db.usage, row.NonNegative) :
    ∀ row ∈ (op.step svc db).usage, row.NonNegative := by
  by_cases hledger : Ledger.usage ∈ op.ledgers
  · cases op with
    | recordUsage env taskID request principal =>
        have hrecord : (Op.call svc (.recordUsage env taskID request principal)).AtMost
            fun db db' => ∃ item : UsageRecord, item.NonNegative ∧
              db'.usage = db.usage ++ [item] :=
          Call.atMost_then_quiet atMost_recordUsageFor fun _ => Call.quiet_pure _
        rcases hrecord db with hsame | ⟨item, hitem, husage⟩
        · rw [Op.step, hsame]
          exact h
        · intro row hrow
          rw [Op.step, husage] at hrow
          rcases List.mem_append.mp hrow with hold | hnew
          · exact h row hold
          · rw [List.mem_singleton.mp hnew]
            exact hitem
    | _ => simp [Op.ledgers] at hledger
  · rw [(loose_step op db).sameUsage hledger]
    exact h

/-- **Every usage record is non-negative.** -/
theorem Develops.nonNegative {ok : Change → Db → Prop} (h : Develops svc ok db) :
    ∀ row ∈ db.usage, row.NonNegative := by
  refine h.invariant (by simp) (fun op db _ => nonNegative_step op db) ?_
  rintro db db' ⟨gone, sessions, rfl⟩ hrows row hrow
  exact hrows row (List.mem_of_mem_filter hrow)

end Records

/-- The numbers of a summary are the exact totals of some records. -/
structure AnalyticsSummary.Totals (summary : AnalyticsSummary) (records : List UsageRecord) :
    Prop where
  inputTokens : summary.inputTokens = (records.map UsageRecord.inputTokens).sum
  outputTokens : summary.outputTokens = (records.map UsageRecord.outputTokens).sum
  estimatedCostMicros :
    summary.estimatedCostMicros = (records.map UsageRecord.estimatedCostMicros).sum

/-- The three totals of some records are 64-bit integers. -/
structure TotalsFit (records : List UsageRecord) : Prop where
  inputTokens : (records.map UsageRecord.inputTokens).sum ≤ maxInt64
  outputTokens : (records.map UsageRecord.outputTokens).sum ≤ maxInt64
  estimatedCostMicros : (records.map UsageRecord.estimatedCostMicros).sum ≤ maxInt64

section Summary

variable {now : Instant} {days : Int} {principal : Principal} {records : List UsageRecord}

/-- **The totals of non-negative records**: exact if they fit, an error otherwise. -/
theorem usageTotals_cases (dialect : Dialect) (h : ∀ row ∈ records, row.NonNegative) :
    TotalsFit records ∧ dialect.usageTotals records =
        .ok ((records.map UsageRecord.inputTokens).sum,
          (records.map UsageRecord.outputTokens).sum,
          (records.map UsageRecord.estimatedCostMicros).sum) ∨
      ¬TotalsFit records ∧
        dialect.usageTotals records = .error (.database "integer overflow") := by
  have hinput : ∀ n ∈ records.map UsageRecord.inputTokens, 0 ≤ n :=
    List.forall_mem_map.mpr fun row hrow => (h row hrow).inputTokens
  have houtput : ∀ n ∈ records.map UsageRecord.outputTokens, 0 ≤ n :=
    List.forall_mem_map.mpr fun row hrow => (h row hrow).outputTokens
  have hcost : ∀ n ∈ records.map UsageRecord.estimatedCostMicros, 0 ≤ n :=
    List.forall_mem_map.mpr fun row hrow => (h row hrow).estimatedCostMicros
  unfold Dialect.usageTotals
  rw [dialect.sum_eq hinput, dialect.sum_eq houtput, dialect.sum_eq hcost]
  by_cases hi : (records.map UsageRecord.inputTokens).sum ≤ maxInt64
  · by_cases ho : (records.map UsageRecord.outputTokens).sum ≤ maxInt64
    · by_cases hc : (records.map UsageRecord.estimatedCostMicros).sum ≤ maxInt64
      · rw [if_pos hi, if_pos ho, if_pos hc]
        exact Or.inl ⟨⟨hi, ho, hc⟩, rfl⟩
      · rw [if_pos hi, if_pos ho, if_neg hc]
        exact Or.inr ⟨fun hfit => hc hfit.estimatedCostMicros, rfl⟩
    · rw [if_pos hi, if_neg ho]
      exact Or.inr ⟨fun hfit => ho hfit.outputTokens, rfl⟩
  · rw [if_neg hi]
    exact Or.inr ⟨fun hfit => hi hfit.inputTokens, rfl⟩

/-- For those who may see it, a summary depends on nothing but the totals. -/
theorem exec_analyticsFor (svc : Service) (dialect : Dialect) (now : Instant) (db : Db)
    (hagent : principal.agent = false)
    (hrole : principal.role = .owner ∨ principal.role = .admin) (hdays : days ≤ 365) :
    (∃ totals summary, dialect.usageTotals (svc.usageSince (windowStart now days) db) = .ok totals ∧
        (analyticsFor svc dialect now days principal).exec db = (.ok summary, db) ∧
        (summary.inputTokens, summary.outputTokens, summary.estimatedCostMicros) = totals) ∨
      ∃ e, dialect.usageTotals (svc.usageSince (windowStart now days) db) = .error e ∧
        (analyticsFor svc dialect now days principal).exec db = (.error e, db) := by
  have hmay : (principal.agent ||
      (principal.role ≠ .owner && principal.role ≠ .admin)) = false := by
    rcases hrole with hrole | hrole <;> simp [hagent, hrole]
  have hwindow : ¬365 < windowDays days := by
    unfold windowDays
    split <;> omega
  unfold analyticsFor
  simp only [hmay, hwindow, refuse, Call.exec_bind, Call.exec_look, Call.exec_lookOr,
    Call.exec_pure, Call.exec_lift, if_false, Bool.false_eq_true]
  cases htotals : dialect.usageTotals (svc.usageSince (windowStart now days) db) with
  | error e => exact Or.inr ⟨e, rfl, rfl⟩
  | ok totals => exact Or.inl ⟨totals, _, rfl, rfl, rfl⟩

/-- **The totals of a window are exact if they are 64-bit integers, and otherwise the summary
fails.** -/
theorem usage_totals_exact_iff {ok : Change → Db → Prop} (dialect : Dialect)
    (hdevelops : Develops svc ok db) (hagent : principal.agent = false)
    (hrole : principal.role = .owner ∨ principal.role = .admin) (hdays : days ≤ 365) :
    (∃ summary, (analyticsFor svc dialect now days principal).exec db = (.ok summary, db) ∧
        summary.Totals (svc.usageSince (windowStart now days) db)) ↔
      TotalsFit (svc.usageSince (windowStart now days) db) := by
  have hrows : ∀ row ∈ svc.usageSince (windowStart now days) db, row.NonNegative :=
    fun row hrow => hdevelops.nonNegative row (List.mem_of_mem_filter hrow)
  have hsummary := exec_analyticsFor svc dialect now db hagent hrole hdays
  rcases usageTotals_cases dialect hrows with ⟨hfit, htotals⟩ | ⟨hfit, htotals⟩
  · rcases hsummary with ⟨totals, summary, hok, hexec, hnumbers⟩ | ⟨e, herror, -⟩
    · rw [htotals] at hok
      cases hok
      simp only [Prod.mk.injEq] at hnumbers
      exact iff_of_true ⟨summary, hexec, hnumbers.1, hnumbers.2.1, hnumbers.2.2⟩ hfit
    · rw [htotals] at herror
      cases herror
  · rcases hsummary with ⟨totals, summary, hok, -⟩ | ⟨e, -, hexec⟩
    · rw [htotals] at hok
      cases hok
    · refine iff_of_false ?_ hfit
      rintro ⟨summary, hok, -⟩
      rw [hexec] at hok
      cases hok

end Summary

/-- An agent records the tokens of its run. -/
def usageOp (call : Nat) (inputTokens : Int) : Op :=
  .recordUsage (.numbered call call) "0100"
    { runID := "0101", inputTokens, outputTokens := 0, estimatedCostMicros := 0 }
    (sampleAgent "builder")

def usageBoard (tokens more : Int) : Db :=
  Op.run .ascii [startOp, usageOp 2 tokens, usageOp 3 more] {}

theorem develops_usageBoard (tokens more : Int) :
    Develops .ascii (fun _ _ => True) (usageBoard tokens more) :=
  ((Develops.empty.change (.operation startOp) trivial).change
    (.operation (usageOp 2 tokens)) trivial).change (.operation (usageOp 3 more)) trivial

/-- Two records are added up. -/
theorem two_records_add_up :
    ∃ summary, (analyticsFor .ascii .postgres 10 30 (humanPrincipal "ann" .owner)).exec
        (usageBoard 1200 300) = (.ok summary, usageBoard 1200 300) ∧
      summary.inputTokens = 1500 := by
  have hfit : TotalsFit (Service.ascii.usageSince (windowStart 10 30) (usageBoard 1200 300)) :=
    ⟨by decide +kernel, by decide +kernel, by decide +kernel⟩
  have hagent : (humanPrincipal "ann" .owner).agent = false := rfl
  have hrole : (humanPrincipal "ann" .owner).role = .owner := rfl
  have hdays : (30 : Int) ≤ 365 := by decide
  obtain ⟨summary, hexec, htotals⟩ := (usage_totals_exact_iff .postgres
    (develops_usageBoard 1200 300) hagent (Or.inl hrole) hdays).mpr hfit
  refine ⟨summary, hexec, ?_⟩
  rw [htotals.inputTokens]
  decide +kernel

/-- Two records are accepted that do not add up to a 64-bit integer, and then there are no
analytics. -/
theorem accepted_records_overflow :
    (usageBoard maxInt64 1).usage.map UsageRecord.inputTokens = [maxInt64, 1] ∧
      (analyticsFor .ascii .sqlite 10 30 (humanPrincipal "ann" .owner)).exec
        (usageBoard maxInt64 1) = (.error (.database "integer overflow"), usageBoard maxInt64 1) ∧
      (analyticsFor .ascii .postgres 10 30 (humanPrincipal "ann" .owner)).exec
        (usageBoard maxInt64 1) = (.error (.database "integer overflow"), usageBoard maxInt64 1) := by
  decide +kernel

end Taskboard
