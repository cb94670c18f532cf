import Taskboard.Deletion
import Taskboard.PendingControls

/-!
# The times of a control's outcome

A control that is decided, rejected or expired has the time of this decision, and a completed one
also the time of its completion. Three routes complete a control. The run's agent does it in a
step of its own, after a decision that has stored its time; a review that requeues the task does it
for an open control of its kind, and stores both times; where there is no such control, the review
inserts a completed one, and the insert writes nulls for all three times. So the times are there in
every state that is reached while each review finds an open control, and a review that finds none
leaves a completed row without them (`outcomes_are_timed_iff_reviews_find_controls`).
-/

namespace Taskboard

variable {request : CreateRunControlRequest} {note : String} {current : Task}

variable {run : AgentRun} {now : Instant} {kind : RunControlKind} {item row : RunControlRequest}
  {controlID taskID : String}

variable {svc : Service} {env : Env} {principal : Principal} {db db' : Db}

/-- A row with an outcome has the times of this outcome. -/
def RunControlRequest.OutcomeTimed (row : RunControlRequest) : Prop :=
  (row.status = .completed → row.decidedAt ≠ none ∧ row.completedAt ≠ none) ∧
    (row.status = .rejected ∨ row.status = .expired → row.decidedAt ≠ none)

instance (row : RunControlRequest) : Decidable row.OutcomeTimed :=
  inferInstanceAs (Decidable (_ ∧ _))

/-- What carries it from step to step: an accepted control has the time of its decision too. -/
def RunControlRequest.Timed (row : RunControlRequest) : Prop :=
  row.OutcomeTimed ∧ (row.status = .accepted → row.decidedAt ≠ none)

/-- Controls that have their times still have them. -/
def Db.KeepsTimes (db db' : Db) : Prop :=
  (∀ row ∈ db.controls, row.Timed) → ∀ row ∈ db'.controls, row.Timed

instance : IsPreorder Db Db.KeepsTimes where
  refl _ := id
  trans _ _ _ h h' := h' ∘ h

theorem keepsTimes_of_controls (h : db'.controls = db.controls) : db.KeepsTimes db' := by
  intro htimed
  rwa [h]

theorem keepsTimes_updateControls {p : Db → RunControlRequest → Bool}
    {f : RunControlRequest → RunControlRequest}
    {hf : ∀ row, controlTable.key (f row) = controlTable.key row}
    (h : ∀ db row, p db row = true → row.Timed → (f row).Timed) :
    (controlTable.updateWhere p f hf : TxM Nat).Each Db.KeepsTimes := by
  apply Table.each_updateWhere
  intro db htimed row hrow
  obtain ⟨old, hold, rfl⟩ := mem_mapWhere.mp hrow
  split
  · rename_i hhit
    exact h db old hhit (htimed old hold)
  · exact htimed old hold

theorem RunControlRequest.timed_of_open
    (h : row.status = .requested ∨ row.status = .acknowledged) : row.Timed := by
  rcases h with h | h <;> simp [Timed, OutcomeTimed, h]

theorem RunControlRequest.timed_of_decided (hdecided : row.decidedAt ≠ none)
    (hcompleted : row.status = .completed → row.completedAt ≠ none) : row.Timed :=
  ⟨⟨fun h => ⟨hdecided, hcompleted h⟩, fun _ => hdecided⟩, fun _ => hdecided⟩

/-- Only an accepted control can be completed, and it has been decided by then. -/
theorem RunControlRequest.Timed.moved {status : RunControlStatus} (h : row.Timed)
    (hvalid : validControlTransition row.status status = true) :
    (row.moved status note now).Timed := by
  cases status with
  | requested => simp [validControlTransition] at hvalid
  | acknowledged => exact timed_of_open (Or.inr rfl)
  | accepted | rejected | expired => exact timed_of_decided (Option.some_ne_none now) nofun
  | completed =>
      have haccepted : row.status = .accepted := by simpa [validControlTransition] using hvalid
      exact timed_of_decided (h.2 haccepted) fun _ => Option.some_ne_none now

theorem keepsTimes_expireRunControls {newID : Nat → String} :
    (expireRunControls svc now newID).Each Db.KeepsTimes :=
  each_expireRunControls_by (fun _ _ => keepsTimes_of_controls) fun _ =>
    keepsTimes_updateControls fun _ _ _ _ =>
      RunControlRequest.timed_of_decided (Option.some_ne_none now) nofun

theorem keepsTimes_updateRunControlTx {request : UpdateRunControlRequest}
    (h : (updateRunControlTx env controlID request principal).run db = .ok (item, db')) :
    db.KeepsTimes db' := by
  refine updateRunControlTx_by (fun _ _ => keepsTimes_of_controls) ?_ h
  intro item status hvalid
  apply keepsTimes_updateControls
  intro _ row hhit htimed
  simp only [Bool.and_eq_true, decide_eq_true_eq] at hhit
  exact htimed.moved (hhit.2 ▸ hvalid)

theorem keepsTimes_createRunControlTx
    (h : (createRunControlTx env taskID kind run request principal).run db = .ok (item, db')) :
    db.KeepsTimes db' := by
  simp only [createRunControlTx, insertRunControl, Tx.run_bind_ok, run_loadTask_ok,
    Tx.run_lift_ok, Tx.run_select_ok, Table.run_insert_ok, run_insertEvent_ok, Tx.run_pure_ok,
    controlTable] at h
  obtain ⟨current, _, ⟨-, rfl⟩, _, _, ⟨-, rfl⟩, _, _, ⟨-, rfl⟩, _, _, ⟨-, rfl⟩, _, _,
    ⟨-, -, rfl⟩, _, _, ⟨-, -, rfl⟩, rfl, rfl⟩ := h
  intro htimed row hrow
  rcases List.mem_append.mp hrow with hold | hnew
  · exact htimed row hold
  · rw [List.mem_singleton] at hnew
    exact RunControlRequest.timed_of_open (Or.inl (congrArg RunControlRequest.status hnew))

theorem atMost_createRunControlFor :
    (createRunControlFor svc env taskID request principal).AtMost fun db db' =>
      ∃ kind run item, (createRunControlTx env (trimSpace taskID) kind run request.clean
        principal).run db = .ok (item, db') := by
  refine Call.atMost_bind_quiet quiet_mayCreateControl ?_
  rintro ⟨kind, run⟩
  refine atMost_keyed (fun _ => Call.quiet_lookOr _) ((Call.atMost_tx _).mono ?_)
  rintro db db' ⟨item, hrun⟩
  exact ⟨kind, run, item, hrun⟩

/-- The kind of control that reviewing a task stands for. -/
def Task.reviewKind (task : Task) : RunControlKind :=
  if task.status = .stale then .retry else .resume

/-- An open control of the kind targets the run. -/
def Db.hasOpenControl (db : Db) (taskID runID : String) (kind : RunControlKind) : Bool :=
  db.controls.any fun row => row.openOf taskID runID kind

theorem recoverRun_kind (h : (recoverRun svc now current run).run db = .ok (kind, db')):
    kind = current.reviewKind := by
  unfold recoverRun at h
  unfold Task.reviewKind
  split at h
  · rename_i hstale
    rw [Tx.run_refuse_bind_ok, Tx.run_pure_ok] at h
    rw [if_pos hstale, h.2.1]
  · rename_i hstale
    simp only [Tx.run_bind_ok, Tx.run_pure_ok] at h
    obtain ⟨_, _, -, _, _, -, _, _, -, rfl, -⟩ := h
    rw [if_neg hstale]

/-- Controls that have their times still have them exactly where an open one was completed. -/
theorem completeReviewControl_timed
    (h : (completeReviewControl env current run kind note principal).run db = .ok (controlID, db'))
    (htimed : ∀ row ∈ db.controls, row.Timed) :
    (db.hasOpenControl current.id run.id kind = true → ∀ row ∈ db'.controls, row.Timed) ∧
      (db.hasOpenControl current.id run.id kind = false →
        ∃ row ∈ db'.controls, ¬ row.OutcomeTimed) := by
  simp only [completeReviewControl, Tx.run_bind_ok, Tx.run_select_ok] at h
  obtain ⟨existing, seen, ⟨hexisting, hseen⟩, h⟩ := h
  subst seen
  cases existing with
  | none =>
      have hnone : db.hasOpenControl current.id run.id kind = false := by
        rw [Db.hasOpenControl, List.any_eq_false]
        intro row hrow hopen
        have hfound : row ∈ db.controls.filter fun row => row.openOf current.id run.id kind :=
          List.mem_filter.mpr ⟨hrow, hopen⟩
        have hnone := List.eq_nil_iff_forall_not_mem.mp (List.head?_eq_none_iff.mp hexisting.symm)
        exact hnone row (mem_sortBy.mpr hfound)
      simp only [Tx.run_bind_ok, insertRunControl, Table.run_insert_ok, Tx.run_pure_ok,
        controlTable] at h
      obtain ⟨_, _, ⟨-, -, rfl⟩, -, rfl⟩ := h
      constructor
      · intro hopen
        rw [hnone] at hopen
        cases hopen
      · intro _
        refine ⟨_, List.mem_append_right _ (List.mem_singleton.mpr rfl), fun huntimed => ?_⟩
        exact (huntimed.1 rfl).1 rfl
  | some item =>
      have hsome : db.hasOpenControl current.id run.id kind = true := by
        have hmem := mem_sortBy.mp (List.mem_of_head? hexisting.symm)
        rw [List.mem_filter] at hmem
        exact List.any_eq_true.mpr ⟨item, hmem⟩
      simp only [Tx.run_bind_ok, run_oneRow_ok, Tx.run_pure_ok] at h
      obtain ⟨_, _, hwrite, -, rfl⟩ := h
      constructor
      · intro _
        refine Tx.Each.run (R := Db.KeepsTimes) (keepsTimes_updateControls ?_) hwrite htimed
        intro _ row _ _
        exact RunControlRequest.timed_of_decided (Option.some_ne_none _)
          fun _ => Option.some_ne_none _
      · intro hclosed
        rw [hsome] at hclosed
        cases hclosed

/-- The review finds an open control of its kind for the task and the run. -/
def Db.ReviewFinds (db : Db) (taskID runID : String) : Prop :=
  ∀ task, db.task? taskID = some task → db.hasOpenControl taskID runID task.reviewKind = true

theorem reviewAndRequeueTx_timed {request : ReviewRequeueRequest}
    (htimed : ∀ row ∈ db.controls, row.Timed)
    (h : (reviewAndRequeueTx svc env taskID request principal).run db = .ok (controlID, db')) :
    (db.ReviewFinds taskID request.targetRunID → ∀ row ∈ db'.controls, row.Timed) ∧
      (¬ db.ReviewFinds taskID request.targetRunID → ∃ row ∈ db'.controls, ¬ row.OutcomeTimed) := by
  simp only [reviewAndRequeueTx, Tx.run_bind_ok, run_loadTask_ok, Tx.run_selectOr_ok,
    Tx.run_lift_ok, refuse_ok_iff, run_oneRow_ok, run_bumpTask_ok,
    run_insertEvent_ok, Tx.run_pure_ok] at h
  obtain ⟨current, _, ⟨hcurrent, rfl⟩, _, _, ⟨-, rfl⟩, _, _, ⟨-, rfl⟩, _, _, ⟨-, rfl⟩,
    run, _, ⟨hrun, rfl⟩, kind, _, hrecover, _, _, ⟨-, rfl⟩, _, _, hcontrol, _, _, ⟨-, -, rfl⟩,
    rfl, rfl⟩ := h
  obtain rfl := recoverRun_kind hrecover
  obtain ⟨runs, -, rfl, -⟩ := recoverRun_ok hrecover
  obtain ⟨-, rfl⟩ := mem_of_task? hcurrent
  have hid : run.id = request.targetRunID := by
    split at hrun
    · rename_i found hfound
      obtain rfl := Except.ok.inj hrun
      exact (by simpa using List.find?_some hfound : _ ∧ _).1
    · cases hrun
  obtain ⟨hfound, hnot⟩ := completeReviewControl_timed hcontrol htimed
  rw [hid] at hfound hnot
  constructor
  · intro hfinds
    exact hfound (hfinds current hcurrent)
  · intro hmisses
    apply hnot
    by_contra hopen
    rw [Bool.not_eq_false] at hopen
    apply hmisses
    intro task htask
    obtain rfl := Option.some.inj (hcurrent.symm.trans htask)
    exact hopen

/-- A review finds an open control of its kind; any other change may be made. -/
def Change.ReviewsFind (change : Change) (db : Db) : Prop :=
  match change with
  | .operation (.reviewAndRequeue _ taskID request _) =>
      db.ReviewFinds (trimSpace taskID) (trimSpace request.targetRunID)
  | _ => True

theorem keepsTimes_step (op : Op) (db : Db) (hfinds : Change.ReviewsFind (.operation op) db) :
    db.KeepsTimes (op.step svc db) := by
  by_cases hledger : Ledger.controls ∈ op.ledgers
  · cases op with
    | heartbeat env taskID runID principal =>
        rw [Op.step, Op.call, Call.exec_bind_pure_snd]
        exact (each_heartbeatFor_by (fun _ _ => keepsTimes_of_controls) fun _ =>
          keepsTimes_expireRunControls).exec db
    | createControl env taskID request principal =>
        rw [Op.step, Op.call, Call.exec_bind_pure_snd]
        rcases atMost_createRunControlFor db with hsame | ⟨_, _, _, hrun⟩
        · exact keepsTimes_of_controls (congrArg Db.controls hsame)
        · exact keepsTimes_createRunControlTx hrun
    | updateControl env controlID request principal =>
        rw [Op.step, Op.call, Call.exec_bind_pure_snd]
        rcases atMost_updateRunControlFor db with hsame | ⟨_, _, -, -, -, hrun⟩
        · exact keepsTimes_of_controls (congrArg Db.controls hsame)
        · exact keepsTimes_updateRunControlTx hrun
    | expireControls env =>
        rw [Op.step, Op.call, Call.exec_bind_pure_snd]
        exact keepsTimes_expireRunControls.exec db
    | reviewAndRequeue env taskID request principal =>
        rw [Op.step, Op.call, Call.exec_bind_pure_snd]
        rcases atMost_reviewAndRequeueFor db with hsame | ⟨_, hrun⟩
        · exact keepsTimes_of_controls (congrArg Db.controls hsame)
        · exact fun htimed => (reviewAndRequeueTx_timed htimed hrun).1 hfinds
    | _ => exact absurd hledger (by simp [Op.ledgers])
  · exact keepsTimes_of_controls ((loose_step op db).sameControls hledger)

theorem timed_of_develops (h : Develops svc Change.ReviewsFind db) :
    ∀ row ∈ db.controls, row.Timed := by
  refine h.invariant (P := fun db => ∀ row ∈ db.controls, row.Timed) ?_ ?_ ?_
  · intro row hrow
    cases hrow
  · intro op db hfinds
    exact keepsTimes_step op db hfinds
  · rintro db db' ⟨gone, sessions, rfl⟩ htimed row hrow
    exact htimed row (List.mem_of_mem_filter hrow)

theorem reviewAndRequeueFor_ok {request : ReviewRequeueRequest}
    {result : TaskView × RunControlRequest}
    (h : (reviewAndRequeueFor svc env taskID request principal).exec db = (.ok result, db')) :
    ∃ controlID, (reviewAndRequeueTx svc env (trimSpace taskID) request.clean principal).run db =
      .ok (controlID, db') := by
  obtain ⟨_, -, h⟩ := Call.exec_lift_bind_ok h
  obtain ⟨_, -, h⟩ := Call.exec_lift_bind_ok h
  obtain ⟨_, -, h⟩ := Call.exec_lift_bind_ok h
  obtain ⟨_, -, h⟩ := Call.exec_bind_quiet_ok quiet_getForHidden h
  obtain ⟨controlID, committed, htx, h⟩ := Call.exec_bind_ok h
  have hquiet : db' = committed :=
    (Call.quiet_bind quiet_getTask fun _ =>
      Call.quiet_bind (Call.quiet_lookOr _) fun _ => Call.quiet_pure _).of_exec h
  rcases Call.exec_tx_cases htx with ⟨_, hrun, heq⟩ | ⟨_, -, heq, -⟩
  · cases heq
    exact ⟨controlID, hquiet ▸ hrun⟩
  · cases heq

/-- The three times of a control's outcome. -/
def RunControlRequest.times (row : RunControlRequest) :
    Option Instant × Option Instant × Option Instant :=
  (row.acknowledgedAt, row.decidedAt, row.completedAt)

/-- A control that is inserted is read back without its times. -/
theorem getRunControl_inserted (h : (insertRunControl item).run db = .ok ((), db')):
    ∃ row, (getRunControl item.id).exec db' = (.ok row, db') ∧ row.times = (none, none, none) := by
  simp only [insertRunControl, Table.run_insert_ok, controlTable] at h
  obtain ⟨-, hfresh, rfl⟩ := h
  have hnone : (db.controls.find? fun row => row.id = item.id) = none := by
    simpa using hfresh
  refine ⟨{ item with acknowledgedAt := none, decidedAt := none, completedAt := none }, ?_, rfl⟩
  simp [getRunControl, List.find?_append, hnone, found]

/-- **The times of an outcome.** While every review finds an open control of its kind, every
completed control has the times of its decision and of its completion, and every rejected or
expired one that of its decision; a review that succeeds keeps this exactly where it finds an open
control. A control that is inserted is read back with its own times exactly where it has none. -/
theorem outcomes_are_timed_iff_reviews_find_controls
    (h : Develops svc Change.ReviewsFind db) :
    (∀ row ∈ db.controls, row.OutcomeTimed) ∧
      (∀ env taskID request principal result db',
        (reviewAndRequeueFor svc env taskID request principal).exec db = (.ok result, db') →
        ((∀ row ∈ db'.controls, row.OutcomeTimed) ↔
          db.ReviewFinds (trimSpace taskID) (trimSpace request.targetRunID))) ∧
      ∀ (item : RunControlRequest) (db db' : Db), (insertRunControl item).run db = .ok ((), db') →
        ∃ row, (getRunControl item.id).exec db' = (.ok row, db') ∧
          (row.times = item.times ↔ item.times = (none, none, none)) := by
  have htimed := timed_of_develops h
  refine ⟨fun row hrow => (htimed row hrow).1, ?_, ?_⟩
  · intro env taskID request principal result db' hexec
    obtain ⟨controlID, hrun⟩ := reviewAndRequeueFor_ok hexec
    obtain ⟨hfound, hmissed⟩ := reviewAndRequeueTx_timed htimed hrun
    constructor
    · intro hrows
      by_contra hmisses
      obtain ⟨row, hrow, huntimed⟩ := hmissed hmisses
      exact huntimed (hrows row hrow)
    · intro hfinds row hrow
      exact (hfound hfinds row hrow).1
  · intro item db db' hinsert
    obtain ⟨row, hread, htimes⟩ := getRunControl_inserted hinsert
    refine ⟨row, hread, ?_⟩
    rw [htimes]
    exact eq_comm

/-- A person asks for the waiting work to be resumed. -/
def askResumeOp : Op :=
  .createControl (.numbered 3 200) "0100"
    { targetRunID := "0101", kind := "resume", expectedVersion := 2 } (humanPrincipal "ann" .owner)

/-- A person reviews the waiting work and requeues it. -/
def reviewResumeOp : Op :=
  .reviewAndRequeue (.numbered 4 300) "0100"
    { targetRunID := "0101", expectedVersion := 2, reviewNote := "Looks fine" }
    (humanPrincipal "ann" .owner)

theorem requeued_control_is_timed :
    (Op.run .ascii [startOp, waitOp, askResumeOp, reviewResumeOp] {}).controls.map (·.status) =
        [.completed] ∧
      ∀ row ∈ (Op.run .ascii [startOp, waitOp, askResumeOp, reviewResumeOp] {}).controls,
        row.OutcomeTimed := by
  have hopen : (Op.run .ascii [startOp, waitOp, askResumeOp] {}).hasOpenControl "0100" "0101"
      .resume = true := by decide +kernel
  have hkind : ∀ task, (Op.run .ascii [startOp, waitOp, askResumeOp] {}).task? "0100" = some task →
      task.reviewKind = .resume := by
    have hall : ((Op.run .ascii [startOp, waitOp, askResumeOp] {}).task? "0100").all
        (·.reviewKind = .resume) = true := by decide +kernel
    intro task htask
    simpa [htask] using hall
  have hfinds : Change.ReviewsFind (.operation reviewResumeOp)
      (Op.run .ascii [startOp, waitOp, askResumeOp] {}) := by
    intro task htask
    rw [hkind task htask]
    exact hopen
  have hdevelops : Develops .ascii Change.ReviewsFind
      (Op.run .ascii [startOp, waitOp, askResumeOp, reviewResumeOp] {}) :=
    (((Develops.empty.change (.operation startOp) trivial).change (.operation waitOp)
      trivial).change (.operation askResumeOp) trivial).change (.operation reviewResumeOp) hfinds
  exact ⟨by decide +kernel, (outcomes_are_timed_iff_reviews_find_controls hdevelops).1⟩

/-- A review that finds no open control stores a completed one without a time. -/
theorem requeue_stores_untimed_control :
    Develops .ascii (fun _ _ => True) (Op.run .ascii [startOp, waitOp, reviewResumeOp] {}) ∧
      (Op.run .ascii [startOp, waitOp, reviewResumeOp] {}).controls.map
        (fun row => (row.status, row.decidedAt, row.completedAt)) = [(.completed, none, none)] :=
  ⟨((Develops.empty.change (.operation startOp) trivial).change (.operation waitOp)
    trivial).change (.operation reviewResumeOp) trivial, by decide +kernel⟩

end Taskboard
