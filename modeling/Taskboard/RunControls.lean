import Taskboard.Messages

/-!
# Run controls

A person asks a run to pause or cancel, or asks for ended work to be resumed or retried;
the run's agent acknowledges, decides and completes the request. Completing it is what
changes the run and the task. A person may also review work that is stuck and put it back
into the queue at once (`reviewAndRequeueFor`).
-/

namespace Taskboard

variable {newID : Nat → String} {task : Task} {statement : TxM Nat} {u : Unit}

variable {run : AgentRun} {db db' : Db} {ev : Event → Prop} {now : Instant} {kind : RunControlKind}
  {item : RunControlRequest} {controlID note : String} {current : Task}

variable {lg : List Ledger}

section

variable {tk : List Task → List Task → Prop} {rn : List AgentRun → List AgentRun → Prop}
  {svc : Service} {env : Env} {taskID : String} {principal : Principal}

/-- `runControlLifetime`. -/
def runControlLifetime : Duration := 24 * hour

/-- `oneRow`: a statement that must have changed exactly one row. -/
def oneRow (statement : TxM Nat) : TxM Unit := do
  let count ← statement
  refuse (count ≠ 1) ErrConflict

theorem each_oneRow {R : Db → Db → Prop} (h : statement.Each R) :
    (oneRow statement).Each R :=
  Tx.each_bind h fun _ => Tx.each_lift _

theorem run_oneRow_ok :
    (oneRow statement).run db = .ok (u, db') ↔ statement.run db = .ok (1, db') := by
  simp only [oneRow, Tx.run_bind_ok, Tx.run_lift_ok, refuse_ok_iff, ne_eq, not_not]
  constructor
  · rintro ⟨n, _, h, rfl, rfl⟩
    exact h
  · intro h
    exact ⟨1, db', h, rfl, rfl⟩

/-- `InsertRunControl`. The times of the outcome are written as null. -/
def insertRunControl (item : RunControlRequest) : TxM Unit :=
  controlTable.insert
    { item with acknowledgedAt := none, decidedAt := none, completedAt := none }
    (fun db => (db.task? item.taskID).isSome && db.runs.any fun run => run.id = item.targetRunID)
    (.database "insert run control")

theorem each_insertRunControl [Std.Refl tk] [Std.Refl rn]
    : (insertRunControl item).Each (Footprint [.controls] tk rn ev) :=
  Table.each_insert fun db =>
    { Footprint.refl [.controls] tk rn ev db with
      controls := evolves_append trivial
      sameControls := fun h => absurd List.mem_cons_self h }

theorem each_updateControls [Std.Refl tk] [Std.Refl rn]
    {p : Db → RunControlRequest → Bool} {f : RunControlRequest → RunControlRequest}
    {hf : ∀ row, controlTable.key (f row) = controlTable.key row} (h : ∀ row, (f row).id = row.id) :
    (controlTable.updateWhere p f hf : TxM Nat).Each (Footprint [.controls] tk rn ev) :=
  Table.each_updateWhere fun db =>
    { Footprint.refl [.controls] tk rn ev db with
      controls := .of_forall₂ (forall₂_mapWhere fun row _ _ => h row)
      sameControls := fun h => absurd List.mem_cons_self h }

/-- `GetRunControl`. -/
def getRunControl (id : String) : CallM RunControlRequest :=
  Call.lookOr fun db => found (db.controls.find? fun row => row.id = id)

/-- `validControlTarget`. -/
def validControlTarget (task : Task) (run : AgentRun) : RunControlKind → Bool
  | .pause | .cancel => task.status = .active ∧ run.status = .active ∧ run.endedAt = none
  | .resume => (task.status = .waiting ∨ task.status = .blocked) ∧ run.endedAt ≠ none
  | .retry => (task.status = .stale ∨ task.status = .cancelled) ∧ run.endedAt ≠ none

/-- `validControlTransition`. -/
def validControlTransition (source target : RunControlStatus) : Bool :=
  (source = .requested ∧ (target = .acknowledged ∨ target = .expired)) ∨
    (source = .acknowledged ∧
      (target = .accepted ∨ target = .rejected ∨ target = .expired)) ∨
    (source = .accepted ∧ (target = .completed ∨ target = .expired))

/-- An open control of a kind that targets a run. -/
def RunControlRequest.openOf (item : RunControlRequest) (taskID runID : String)
    (kind : RunControlKind) : Bool :=
  item.taskID = taskID && item.targetRunID = runID && item.kind = kind && item.status.isOpen

/-- The request as `CreateRunControlFor` cleans it. -/
def CreateRunControlRequest.clean (request : CreateRunControlRequest) :
    CreateRunControlRequest :=
  { request with
    targetRunID := trimSpace request.targetRunID
    reason := trimSpace request.reason }

/-- The checks of `CreateRunControlFor` on the request alone. -/
def validateControl (taskID : String) (request : CreateRunControlRequest) :
    Except ServiceError RunControlKind := do
  let required := ErrValidation
    "task_id, target_run_id, expected_version, and a valid control kind are required"
  refuse (taskID = "" ∨ request.targetRunID = "" ∨ request.expectedVersion < 1) required
  let some kind := RunControlKind.ofString? request.kind | .error required
  refuse (1000 < byteLen request.reason)
    (ErrValidation "control reason is limited to 1000 characters")
  pure kind

/-- The checks of `CreateRunControlFor` on the task and the run; the result is the run
that is targeted. -/
def checkControl (task : TaskView) (kind : RunControlKind) (runID : String)
    (principal : Principal) : Except ServiceError AgentRun := do
  let mismatch := ErrValidation "control does not match the target task and run state"
  refuse (!canMutate task.toTask principal) ErrForbidden
  let some run := task.runs.find? fun run => run.id = runID | .error mismatch
  refuse (!validControlTarget task.toTask run kind) mismatch
  pure run

/-- The transaction of `CreateRunControlFor`. -/
def createRunControlTx (env : Env) (taskID : String) (kind : RunControlKind) (run : AgentRun)
    (request : CreateRunControlRequest) (principal : Principal) : TxM RunControlRequest := do
  let current ← loadTask taskID
  refuse (current.version ≠ request.expectedVersion) ErrConflict
  let duplicate ← Tx.select fun db =>
    (db.controls.filter fun row => row.openOf taskID request.targetRunID kind).length
  refuse (0 < duplicate)
    (ServiceError.conflict "an open control of this kind already targets the run")
  let item : RunControlRequest :=
    { id := env.newID 0
      taskID := taskID
      targetRunID := run.id
      targetAgent := run.agent
      kind := kind
      status := .requested
      requestedBy := principal.id
      reason := request.reason
      taskVersion := current.version
      createdAt := env.now
      updatedAt := env.now
      expiresAt := env.now + runControlLifetime }
  insertRunControl item
  insertEvent
    { id := env.newID 1
      taskID := taskID
      runID := run.id
      kind := "task.control_requested"
      actor := principal.id
      message := "Run control requested"
      payload := mergePayload
        [("control_id", .text item.id), ("control_kind", .text kind.toString),
          ("control_status", .text item.status.toString),
          ("target_run_id", .text item.targetRunID), ("version", .number current.version)]
        (idempotencyPayload "run_control_create" request.idempotencyKey
          (some (.createRunControl taskID request)))
      createdAt := env.now }
  pure item

/-- What `CreateRunControlFor` checks before it looks its key up; the result is the kind
of the control and the run it targets. -/
def mayCreateControl (svc : Service) (env : Env) (taskID : String)
    (request : CreateRunControlRequest) (principal : Principal) :
    CallM (RunControlKind × AgentRun) := do
  refuse (principal.agent || !principal.can .taskWrite) ErrForbidden
  let kind ← validateControl taskID request
  let task ← getForHidden svc env.checked taskID principal
  let run ← checkControl task kind request.targetRunID principal
  pure (kind, run)

/-- `CreateRunControlFor`. -/
def createRunControlFor (svc : Service) (env : Env) (taskID : String)
    (request : CreateRunControlRequest) (principal : Principal) : CallM RunControlRequest := do
  let taskID := trimSpace taskID
  let request := request.clean
  let (kind, run) ← mayCreateControl svc env taskID request principal
  keyed svc (request.idempotencyKey ≠ "") principal "run_control_create"
    request.idempotencyKey (.createRunControl taskID request)
    (fun event => getRunControl (Payload.text event.payload "control_id"))
    (Call.tx (createRunControlTx env taskID kind run request principal))

section Create

variable {request : CreateRunControlRequest}

theorem checkControl_ok {task : TaskView} {runID : String}
    (h : checkControl task kind runID principal = .ok run) : run ∈ task.runs ∧ run.id = runID := by
  obtain ⟨_, -, h⟩ := Except.bind_ok_iff.mp h
  split at h
  · rename_i found hfound
    obtain ⟨_, -, h⟩ := Except.bind_ok_iff.mp h
    cases h
    exact ⟨List.mem_of_find?_eq_some hfound, by simpa using List.find?_some hfound⟩
  · cases h

theorem quiet_mayCreateControl : (mayCreateControl svc env taskID request principal).Quiet := by
  refine Call.quiet_lift_bind fun _ => ?_
  refine Call.quiet_lift_bind fun _ => ?_
  refine Call.quiet_bind quiet_getForHidden fun _ => ?_
  exact Call.quiet_lift_bind fun _ => Call.quiet_pure _

theorem each_createRunControlTx [Std.Refl tk] [Std.Refl rn] :
    (createRunControlTx env taskID kind run request principal).Each
      (Footprint [.controls] tk rn (Event.Under "run_control_create")) := by
  refine Tx.each_selectOr_bind fun _ => ?_
  refine Tx.each_lift_bind fun _ => ?_
  refine Tx.each_select_bind fun _ => ?_
  refine Tx.each_lift_bind fun _ => ?_
  refine Tx.each_bind each_insertRunControl fun _ => ?_
  exact Tx.each_bind (Footprint.each_insertEvent
    (Event.under_merge (by simp [Payload.Keyless]) rfl)) fun _ => Tx.each_pure _

theorem each_createRunControlFor [IsPreorder _ tk] [IsPreorder _ rn] :
    (createRunControlFor svc env taskID request principal).Each
      (Footprint [.controls] tk rn (Event.Under "run_control_create")) :=
  Call.each_bind quiet_mayCreateControl.each fun _ =>
    each_keyed (fun _ => (Call.quiet_lookOr _).each)
      (Call.each_tx fun _ _ => each_createRunControlTx.run)

end Create

/-- The change of a task that goes back into the queue through a control. -/
def Task.requeue (task : Task) (owner note : String) (now : Instant) : Task :=
  { task with
    status := .queued
    owner := owner
    currentNote := clipped note 1000
    waitingFor := ""
    blocker := ""
    updatedAt := now
    completedAt := none }

theorem Task.requeue_id (task : Task) (owner note : String) (now : Instant) :
    (task.requeue owner note now).id = task.id :=
  rfl

/-- `completeRunControl`: what completing a control does to its run and task. -/
def completeRunControl (now : Instant) (task : Task) (item : RunControlRequest)
    (note : String) : TxM Unit := do
  let run ← Tx.selectOr fun db =>
    match db.runs.find? fun run =>
        run.id = item.targetRunID ∧ run.taskID = item.taskID ∧ run.agent = item.targetAgent with
    | some run => .ok run
    | none => .error (.database "sql: no rows in result set")
  match item.kind with
  | .pause => do
      refuse (task.status ≠ .active ∨ run.status ≠ .active ∨ run.endedAt ≠ none)
        (ServiceError.conflict "pause target is no longer active")
      oneRow (endActiveRun item.targetRunID (fun _ => true) .waiting now)
      oneRow (bumpTask task.id task.version (fun row => row.status = .active) fun row =>
        { row with
          status := .waiting
          waitingFor := if note ≠ "" then clipped note 1000 else "Paused by request"
          updatedAt := now })
  | .cancel => do
      refuse (task.status ≠ .active ∨ run.status ≠ .active ∨ run.endedAt ≠ none)
        (ServiceError.conflict "cancel target is no longer active")
      oneRow (endActiveRun item.targetRunID (fun _ => true) .cancelled now)
      oneRow (bumpTask task.id task.version (fun row => row.status = .active) fun row =>
        { row with
          status := .cancelled
          currentNote := clipped note 1000
          waitingFor := ""
          blocker := ""
          updatedAt := now
          completedAt := some now })
  | .resume => do
      refuse ((task.status ≠ .waiting ∧ task.status ≠ .blocked) ∨ run.endedAt = none)
        (ServiceError.conflict "resume target is no longer waiting or blocked")
      oneRow (bumpTask task.id task.version (fun _ => true)
        (fun row => row.requeue task.requeuedOwner note now) fun row => row.requeue_id _ _ _)
  | .retry => do
      refuse ((task.status ≠ .stale ∧ task.status ≠ .cancelled) ∨ run.endedAt = none)
        (ServiceError.conflict "retry target is no longer stale or cancelled")
      oneRow (bumpTask task.id task.version (fun _ => true)
        (fun row => row.requeue task.requeuedOwner note now) fun row => row.requeue_id _ _ _)

/-- The moves of a task that completing a control of this kind makes. -/
def RunControlKind.Moves (kind : RunControlKind) (status status' : TaskStatus) : Prop :=
  match kind with
  | .pause => status = .active ∧ status' = .waiting
  | .cancel => status = .active ∧ status' = .cancelled
  | .resume => (status = .waiting ∨ status = .blocked) ∧ status' = .queued
  | .retry => (status = .stale ∨ status = .cancelled) ∧ status' = .queued

/-- The columns that a step of a control sets. -/
def RunControlRequest.moved (item : RunControlRequest) (status : RunControlStatus)
    (note : String) (now : Instant) : RunControlRequest :=
  let item := { item with status, outcomeNote := note, updatedAt := now }
  match status with
  | .acknowledged => { item with acknowledgedAt := some now }
  | .completed => { item with completedAt := some now }
  | _ => { item with decidedAt := some now }

@[simp] theorem RunControlRequest.moved_id {status : RunControlStatus}
    : (item.moved status note now).id = item.id := by
  cases status <;> rfl

/-- The transaction of `UpdateRunControlFor`, with the control as it was. -/
def updateRunControlTx (env : Env) (controlID : String) (request : UpdateRunControlRequest)
    (principal : Principal) : TxM RunControlRequest := do
  let item ← Tx.selectOr fun db => found (db.controls.find? fun row => row.id = controlID)
  refuse (item.targetAgent ≠ principal.id) ErrForbidden
  let invalid := ServiceError.validation "invalid control transition from %s to %s"
    [item.status.toString, request.status]
  let some status := RunControlStatus.ofString? request.status | Tx.fail invalid
  refuse (!validControlTransition item.status status) invalid
  refuse (status = .expired ∧ env.now < item.expiresAt)
    (ErrValidation "control has not expired")
  refuse (status ≠ .expired ∧ item.expiresAt ≤ env.now)
    (ServiceError.conflict "control has expired")
  let current ← loadTask item.taskID
  (if status = .completed then do
    refuse (current.version ≠ request.expectedVersion) ErrConflict
    completeRunControl env.now current item request.outcomeNote
  else pure ())
  let version := if status = .completed then current.version + 1 else current.version
  oneRow (controlTable.updateWhere (fun _ row => row.id = item.id && row.status = item.status)
    (fun row => row.moved status request.outcomeNote env.now)
    fun _ => congrArg RowKey.control RunControlRequest.moved_id)
  insertEvent
    { id := env.newID 0
      taskID := item.taskID
      runID := item.targetRunID
      kind := "task.control_updated"
      actor := principal.id
      message := "Run control " ++ request.status
      payload := mergePayload
        [("control_id", .text item.id), ("control_kind", .text item.kind.toString),
          ("control_status", .text request.status), ("target_run_id", .text item.targetRunID),
          ("version", .number version)]
        (idempotencyPayload "run_control_update" request.idempotencyKey
          (some (.updateRunControl controlID request)))
      createdAt := env.now }
  pure item

/-- `UpdateRunControlFor`. -/
def updateRunControlFor (svc : Service) (env : Env) (controlID : String)
    (request : UpdateRunControlRequest) (principal : Principal) : CallM RunControlRequest := do
  refuse (!principal.hasCapability .taskControl) ErrForbidden
  let controlID := trimSpace controlID
  let request := { request with outcomeNote := trimSpace request.outcomeNote }
  refuse (controlID = "" ∨ 1000 < byteLen request.outcomeNote)
    (ErrValidation "control_id is required and outcome_note is limited to 1000 characters")
  refuse (request.status = "rejected" ∧ request.outcomeNote = "")
    (ErrValidation "rejected controls require an outcome note")
  refuse (request.status = "completed" ∧ request.expectedVersion < 1)
    (ErrValidation "completing a control requires expected_version")
  keyed svc true principal "run_control_update" request.idempotencyKey
    (.updateRunControl controlID request)
    (fun event => getRunControl (Payload.text event.payload "control_id"))
    (do
      let _ ← Call.tx (updateRunControlTx env controlID request principal)
      getRunControl controlID)

/-- The transaction of `expireRunControls` for one control. -/
def expireControlTx (svc : Service) (now : Instant) (eventID : String)
    (item : RunControlRequest) : TxM Unit := do
  let count ← controlTable.updateWhere
    (fun _ row => row.id = item.id && row.status.isOpen && !svc.before now row.expiresAt)
    fun row => { row with status := .expired, updatedAt := now, decidedAt := some now }
  if count = 1 then
    insertEvent
      { id := eventID
        taskID := item.taskID
        runID := item.targetRunID
        kind := "task.control_updated"
        actor := "taskboard"
        message := "Run control expired"
        payload := [("control_id", .text item.id), ("control_kind", .text item.kind.toString),
          ("control_status", .text "expired")]
        createdAt := now }
  else pure ()

/-- The loop of `expireRunControls`; the transaction of each control draws the next
identifier. -/
def expireControls (svc : Service) (now : Instant) (newID : Nat → String) :
    Nat → List RunControlRequest → CallM Unit
  | _, [] => pure ()
  | index, item :: rest => do
      (if now < item.expiresAt ∨ !item.status.isOpen then pure ()
      else Call.tx (expireControlTx svc now (newID index) item))
      expireControls svc now newID (index + 1) rest

/-- `expireRunControls`. -/
def expireRunControls (svc : Service) (now : Instant) (newID : Nat → String) :
    CallM Unit := do
  let items ← Call.look fun db => sortBy
    (fun a b => a.taskID < b.taskID || (a.taskID = b.taskID && a.id < b.id)) db.controls
  expireControls svc now newID 0 items

section Update

variable {request : UpdateRunControlRequest}

/-- Completing a control ends the run it targets or puts the task back into the queue. -/
theorem each_completeRunControl :
    (completeRunControl now task item note).Each (Steady lg ev) := by
  refine Tx.each_selectOr_bind fun run => ?_
  split
  case h_1 | h_2 =>
    refine Tx.each_lift_bind fun _ => ?_
    refine Tx.each_bind (each_oneRow each_endActiveRun) fun _ => ?_
    exact each_oneRow (Footprint.each_bumpTask fun _ => rfl)
  case h_3 | h_4 =>
    refine Tx.each_lift_bind fun _ => ?_
    exact each_oneRow (Footprint.each_bumpTask fun _ => rfl)

theorem each_updateRunControlTx :
    (updateRunControlTx env controlID request principal).Each
      (Steady [.controls] (Event.Under "run_control_update")) := by
  refine Tx.each_selectOr_bind fun item => ?_
  refine Tx.each_lift_bind fun _ => ?_
  split
  · refine Tx.each_lift_bind fun _ => ?_
    refine Tx.each_lift_bind fun _ => ?_
    refine Tx.each_lift_bind fun _ => ?_
    refine Tx.each_selectOr_bind fun current => ?_
    refine Tx.each_bind (Tx.each_ite
      (Tx.each_lift_bind fun _ => each_completeRunControl) (Tx.each_pure _))
      fun _ => ?_
    refine Tx.each_bind (each_oneRow (each_updateControls fun _ => RunControlRequest.moved_id))
      fun _ => ?_
    exact Tx.each_bind (Footprint.each_insertEvent
      (Event.under_merge (by simp [Payload.Keyless]) rfl)) fun _ => Tx.each_pure _
  · exact Tx.each_fail _

theorem completeRunControl_ok (htask : task ∈ db.tasks) (hnote : trimSpace note = note)
    (h : (completeRunControl now task item note).run db = .ok (u, db')) :
    ∃ status tasks runs, item.kind.Moves task.status status ∧
      List.Forall₂ (Task.Shifts task status) db.tasks tasks ∧
      List.Forall₂ AgentRun.Follows db.runs runs ∧ db' = { db with tasks, runs } := by
  simp only [completeRunControl, Tx.run_bind_ok, Tx.run_selectOr_ok] at h
  obtain ⟨run, _, ⟨-, rfl⟩, h⟩ := h
  cases hkind : item.kind with
  | pause =>
      simp only [hkind, Tx.run_bind_ok, Tx.run_lift_ok, refuse_ok_iff, run_oneRow_ok,
        run_bumpTask_ok] at h
      obtain ⟨_, _, ⟨hguard, rfl⟩, _, _, hend, hone, rfl⟩ := h
      obtain ⟨runs, hruns, rfl⟩ := endActiveRun_ok hend
      simp only [ne_eq, not_or, not_not] at hguard
      refine ⟨_, _, runs, ⟨hguard.1, rfl⟩, ?_, hruns, rfl⟩
      refine shifts_bumped hone.symm htask (by simp [bumps, hguard.1])
        (fun _ => ⟨rfl, rfl, rfl, rfl, rfl, rfl⟩) (fun hp => ?_)
        ⟨TaskStatus.noConfusion, fun _ => ?_⟩
      · have hne : task.status ≠ .blocked ∧ task.status.terminal = false := by
          simp [hguard.1, TaskStatus.terminal]
        exact hp.next rfl rfl (fun _ => hp.blocker hne.1) (fun hwaiting => absurd rfl hwaiting)
          (fun _ => hp.completedAt hne.2) Bool.noConfusion
      · show (if note ≠ "" then clipped note 1000 else "Paused by request") ≠ ""
        split
        · rename_i hne
          exact clipped_ne 1000 (hnote.symm ▸ hne)
        · decide
  | cancel =>
      simp only [hkind, Tx.run_bind_ok, Tx.run_lift_ok, refuse_ok_iff, run_oneRow_ok,
        run_bumpTask_ok] at h
      obtain ⟨_, _, ⟨hguard, rfl⟩, _, _, hend, hone, rfl⟩ := h
      obtain ⟨runs, hruns, rfl⟩ := endActiveRun_ok hend
      simp only [ne_eq, not_or, not_not] at hguard
      refine ⟨_, _, runs, ⟨hguard.1, rfl⟩, ?_, hruns, rfl⟩
      exact shifts_bumped hone.symm htask (by simp [bumps, hguard.1])
        (fun _ => ⟨rfl, rfl, rfl, rfl, rfl, rfl⟩)
        (fun hp => hp.next rfl rfl (fun _ => rfl) (fun _ => rfl) Bool.noConfusion
          fun _ => Option.some_ne_none _)
        (Task.reasoned_of_ne .cancelled rfl (by decide))
  | resume =>
      simp only [hkind, Tx.run_bind_ok, Tx.run_lift_ok, refuse_ok_iff, run_oneRow_ok,
        run_bumpTask_ok] at h
      obtain ⟨_, _, ⟨hguard, rfl⟩, hone, rfl⟩ := h
      refine ⟨_, _, _, ⟨by tauto, rfl⟩, ?_, List.forall₂_refl _, rfl⟩
      exact shifts_bumped hone.symm htask (by simp [bumps])
        (fun _ => ⟨rfl, rfl, rfl, rfl, rfl, rfl⟩)
        (fun hp => hp.next rfl rfl (fun _ => rfl) (fun _ => rfl) (fun _ => rfl) Bool.noConfusion)
        (Task.reasoned_of_ne .queued rfl (by decide))
  | retry =>
      simp only [hkind, Tx.run_bind_ok, Tx.run_lift_ok, refuse_ok_iff, run_oneRow_ok,
        run_bumpTask_ok] at h
      obtain ⟨_, _, ⟨hguard, rfl⟩, hone, rfl⟩ := h
      refine ⟨_, _, _, ⟨by tauto, rfl⟩, ?_, List.forall₂_refl _, rfl⟩
      exact shifts_bumped hone.symm htask (by simp [bumps])
        (fun _ => ⟨rfl, rfl, rfl, rfl, rfl, rfl⟩)
        (fun hp => hp.next rfl rfl (fun _ => rfl) (fun _ => rfl) (fun _ => rfl) Bool.noConfusion)
        (Task.reasoned_of_ne .queued rfl (by decide))

/-- What a step of a control does to tasks and runs. Only completing it moves its task. -/
theorem updateRunControlTx_ok (hnote : trimSpace request.outcomeNote = request.outcomeNote)
    (h : (updateRunControlTx env controlID request principal).run db = .ok (item, db')) :
    (db.controls.find? fun row => row.id = controlID) = some item ∧
      (db'.tasks = db.tasks ∧ db'.runs = db.runs ∨
        ∃ current status, RunControlStatus.ofString? request.status = some .completed ∧
          db.task? item.taskID = some current ∧ current.version = request.expectedVersion ∧
          item.kind.Moves current.status status ∧
          List.Forall₂ (Task.Shifts current status) db.tasks db'.tasks ∧
          List.Forall₂ AgentRun.Follows db.runs db'.runs) := by
  simp only [updateRunControlTx, Tx.run_bind_ok, Tx.run_selectOr_ok, Tx.run_lift_ok] at h
  obtain ⟨loaded, _, ⟨hitem, rfl⟩, _, _, ⟨-, rfl⟩, h⟩ := h
  cases hstatus : RunControlStatus.ofString? request.status with
  | none => simp [hstatus] at h
  | some status =>
      simp only [hstatus, Tx.run_bind_ok, Tx.run_lift_ok, run_loadTask_ok, Tx.run_ite_ok,
        run_oneRow_ok, refuse_ok_iff, Table.run_updateWhere_ok, run_insertEvent_ok,
        Tx.run_pure_ok, controlTable] at h
      obtain ⟨_, _, ⟨-, rfl⟩, _, _, ⟨-, rfl⟩, _, _, ⟨-, rfl⟩, current, _, ⟨hcurrent, rfl⟩, _, _,
        hcomplete, _, _, ⟨-, rfl⟩, _, _, ⟨-, -, rfl⟩, rfl, rfl⟩ := h
      refine ⟨found_ok_iff.mp hitem, ?_⟩
      rcases hcomplete with ⟨rfl, _, _, ⟨hversion, rfl⟩, hcomplete⟩ | ⟨-, -, rfl⟩
      · obtain ⟨status, tasks, runs, hmoves, htasks, hruns, rfl⟩ :=
          completeRunControl_ok (mem_of_task? hcurrent).1 hnote hcomplete
        exact Or.inr ⟨current, status, rfl, hcurrent, by simpa using hversion, hmoves, htasks, hruns⟩
      · exact Or.inl ⟨rfl, rfl⟩

theorem each_updateRunControlFor :
    (updateRunControlFor svc env controlID request principal).Each
      (Steady [.controls] (Event.Under "run_control_update")) := by
  refine Call.each_lift_bind fun _ _ => ?_
  refine Call.each_lift_bind fun _ _ => ?_
  refine Call.each_lift_bind fun _ _ => ?_
  refine Call.each_lift_bind fun _ _ => ?_
  refine each_keyed (fun _ => (Call.quiet_lookOr _).each) ?_
  exact Call.each_bind (Call.each_tx fun _ _ => each_updateRunControlTx.run) fun _ =>
    (Call.quiet_lookOr _).each

/-- What `UpdateRunControlFor` does where it does anything: one transaction. -/
theorem atMost_updateRunControlFor :
    (updateRunControlFor svc env controlID request principal).AtMost fun db db' =>
      ∃ checked item, checked.status = request.status ∧
        checked.expectedVersion = request.expectedVersion ∧
        trimSpace checked.outcomeNote = checked.outcomeNote ∧
        (updateRunControlTx env (trimSpace controlID) checked principal).run db =
          .ok (item, db') := by
  refine Call.atMost_lift_bind fun _ _ => ?_
  refine Call.atMost_lift_bind fun _ _ => ?_
  refine Call.atMost_lift_bind fun _ _ => ?_
  refine Call.atMost_lift_bind fun _ _ => ?_
  refine atMost_keyed (fun _ => Call.quiet_lookOr _) ?_
  refine Call.atMost_then_quiet ((Call.atMost_tx _).mono ?_) fun _ => Call.quiet_lookOr _
  rintro _ _ ⟨u, h⟩
  refine ⟨_, u, ?_, ?_, ?_, h⟩
  · rfl
  · rfl
  · exact trimSpace_idem _

/-- Expiring controls touches nothing but the controls. -/
theorem each_expireControls [IsPreorder _ tk] [IsPreorder _ rn]
    (hev : ∀ event : Event, event.Unkeyed → ev event) {index : Nat}
    (items : List RunControlRequest) :
    (expireControls svc now newID index items).Each (Footprint [.controls] tk rn ev) := by
  induction items generalizing index with
  | nil => exact (Call.quiet_pure _).each
  | cons item rest ih =>
      refine Call.each_bind (Call.each_ite (Call.quiet_pure _).each
        (Call.each_tx fun _ _ => Tx.Each.run ?_)) fun _ => ih
      refine Tx.each_bind (each_updateControls fun _ => rfl) fun _ => ?_
      exact Tx.each_ite (Footprint.each_insertEvent (hev _ rfl)) (Tx.each_pure _)

theorem each_expireRunControls [IsPreorder _ tk] [IsPreorder _ rn]
    (hev : ∀ event : Event, event.Unkeyed → ev event) :
    (expireRunControls svc now newID).Each (Footprint [.controls] tk rn ev) :=
  Call.each_bind (Call.quiet_look _).each fun items => each_expireControls hev items

end Update

/-- The request as `reviewAndRequeueFor` cleans it. -/
def ReviewRequeueRequest.clean (request : ReviewRequeueRequest) : ReviewRequeueRequest :=
  { request with
    targetRunID := trimSpace request.targetRunID
    reviewNote := trimSpace request.reviewNote }

/-- The part of `reviewAndRequeueFor` that decides about the runs of the task, and ends
the target where it is still open; the result is the kind of control it stands for. -/
def recoverRun (svc : Service) (now : Instant) (current : Task) (run : AgentRun) :
    TxM RunControlKind := do
  if current.status = .stale then
    refuse (run.status ≠ .stale ∨ run.endedAt = none)
      (ServiceError.conflict "target run is not the ended stale run")
    pure .retry
  else
    let live ← Tx.select fun db => (db.runs.filter fun row =>
      row.taskID = current.id && row.endedAt.isNone && !svc.before row.leaseExpires now).length
    refuse (0 < live)
      (ServiceError.conflict "an agent run still holds a live lease on this task")
    (if run.endedAt = none then
      oneRow (runTable.updateWhere
        (fun _ row => row.id = run.id && row.taskID = current.id && row.endedAt.isNone)
        fun row => { row with endedAt := some now })
    else pure ())
    pure .resume

/-- The control that `reviewAndRequeueFor` completes: an open one of the kind, or a new
one. -/
def completeReviewControl (env : Env) (current : Task) (run : AgentRun)
    (kind : RunControlKind) (note : String) (principal : Principal) : TxM String := do
  let existing ← Tx.select fun db =>
    (sortBy (fun a b => b.id < a.id)
      (db.controls.filter fun row => row.openOf current.id run.id kind)).head?
  match existing with
  | some item => do
      oneRow (controlTable.updateWhere (fun _ row => row.id = item.id && row.status.isOpen)
        fun row =>
          { row with
            status := .completed
            outcomeNote := note
            updatedAt := env.now
            decidedAt := some env.now
            completedAt := some env.now })
      pure item.id
  | none => do
      insertRunControl
        { id := env.newID 0
          taskID := current.id
          targetRunID := run.id
          targetAgent := run.agent
          kind := kind
          status := .completed
          requestedBy := principal.id
          reason := note
          outcomeNote := note
          taskVersion := current.version
          createdAt := env.now
          updatedAt := env.now
          expiresAt := env.now + runControlLifetime
          decidedAt := some env.now
          completedAt := some env.now }
      pure (env.newID 0)

/-- The transaction of `reviewAndRequeueFor`. -/
def reviewAndRequeueTx (svc : Service) (env : Env) (taskID : String)
    (request : ReviewRequeueRequest) (principal : Principal) : TxM String := do
  let current ← loadTask taskID
  refuse (current.version ≠ request.expectedVersion) ErrConflict
  refuse (!mayRecover current principal) ErrForbidden
  refuse (current.status ≠ .stale ∧ current.status ≠ .blocked ∧ current.status ≠ .waiting)
    (ServiceError.conflict "only stale, blocked, or waiting work can be reviewed and requeued")
  let run ← Tx.selectOr fun db =>
    match db.runs.find? fun run => run.id = request.targetRunID ∧ run.taskID = taskID with
    | some run => .ok run
    | none => .error (ErrValidation "target run not found")
  let kind ← recoverRun svc env.now current run
  oneRow (bumpTask taskID current.version (fun row => row.status = current.status)
    (fun row => { row.requeue current.requeuedOwner request.reviewNote env.now with
      lastEditedBy := principal.id })
    fun row => row.requeue_id current.requeuedOwner request.reviewNote env.now)
  let controlID ← completeReviewControl env current run kind request.reviewNote principal
  insertEvent
    { id := env.newID 1
      taskID := taskID
      runID := request.targetRunID
      kind := "task.reviewed_requeued"
      actor := principal.id
      message := request.reviewNote
      payload :=
        [("control_id", .text controlID), ("control_kind", .text kind.toString),
          ("control_status", .text "completed"), ("target_run_id", .text request.targetRunID),
          ("previous_last_edited_by", .text current.lastEditedBy),
          ("last_edited_by", .text principal.id), ("version", .number (current.version + 1))]
      createdAt := env.now }
  pure controlID

/-- `reviewAndRequeueFor`. -/
def reviewAndRequeueFor (svc : Service) (env : Env) (taskID : String)
    (request : ReviewRequeueRequest) (principal : Principal) :
    CallM (TaskView × RunControlRequest) := do
  refuse (principal.agent || !principal.can .taskWrite) ErrForbidden
  let taskID := trimSpace taskID
  let request := request.clean
  refuse (taskID = "" ∨ request.targetRunID = "" ∨ request.expectedVersion < 1 ∨
      request.reviewNote = "")
    (ErrValidation "task_id, target_run_id, expected_version, and review_note are required")
  refuse (1000 < byteLen request.reviewNote)
    (ErrValidation "review_note is limited to 1000 characters")
  let _ ← getForHidden svc env.checked taskID principal
  let controlID ← Call.tx (reviewAndRequeueTx svc env taskID request principal)
  let task ← getTask svc env.now taskID
  let control ← getRunControl controlID
  pure (task, control)

section Review

variable {request : ReviewRequeueRequest}

theorem each_recoverRun :
    (recoverRun svc now current run).Each (Steady lg ev) := by
  unfold recoverRun
  refine Tx.each_ite (Tx.each_lift_bind fun _ => Tx.each_pure _) ?_
  refine Tx.each_select_bind fun _ => ?_
  refine Tx.each_lift_bind fun _ => ?_
  refine Tx.each_bind (Tx.each_ite (each_oneRow (Table.each_updateWhere fun db =>
    { Footprint.refl lg (List.Forall₂ (SameKey Task.id)) (List.Forall₂ AgentRun.Follows) ev db with
      runs := forall₂_mapWhere fun run _ hrun => ?_ })) (Tx.each_pure _)) fun _ => Tx.each_pure _
  simp only [Bool.and_eq_true, Option.isNone_iff_eq_none] at hrun
  exact ⟨rfl, rfl, rfl, rfl, Or.inr ⟨hrun.2, by simp⟩⟩

theorem each_completeReviewControl [Std.Refl tk] [Std.Refl rn] :
    (completeReviewControl env current run kind note principal).Each (Footprint [.controls] tk rn ev) := by
  refine Tx.each_select_bind fun existing => ?_
  cases existing with
  | none => exact Tx.each_bind each_insertRunControl fun _ => Tx.each_pure _
  | some item =>
      exact Tx.each_bind (each_oneRow (each_updateControls fun _ => rfl)) fun _ => Tx.each_pure _

theorem each_reviewAndRequeueTx :
    (reviewAndRequeueTx svc env taskID request principal).Each (Steady [.controls] Event.Unkeyed) := by
  refine Tx.each_selectOr_bind fun current => ?_
  refine Tx.each_lift_bind fun _ => ?_
  refine Tx.each_lift_bind fun _ => ?_
  refine Tx.each_lift_bind fun _ => ?_
  refine Tx.each_selectOr_bind fun run => ?_
  refine Tx.each_bind each_recoverRun fun kind => ?_
  refine Tx.each_bind (each_oneRow (Footprint.each_bumpTask fun _ => rfl)) fun _ => ?_
  refine Tx.each_bind each_completeReviewControl fun _ => ?_
  exact Tx.each_bind (Footprint.each_insertEvent rfl) fun _ => Tx.each_pure _

/-- What `reviewAndRequeueFor` does to the runs of a task: where the task is not stale, it ends
the run it is about. -/
theorem recoverRun_ok (h : (recoverRun svc now current run).run db = .ok (kind, db')):
    ∃ runs, List.Forall₂ AgentRun.Follows db.runs runs ∧ db' = { db with runs } ∧
      (current.status ≠ .stale → run.endedAt = none →
        ∀ row ∈ runs, row.id = run.id → row.taskID = current.id → row.endedAt ≠ none) := by
  simp only [recoverRun, Tx.run_ite_ok, Tx.run_bind_ok, Tx.run_select_ok, Tx.run_lift_ok,
    refuse_ok_iff, run_oneRow_ok, Table.run_updateWhere_ok, Tx.run_pure_ok, runTable] at h
  rcases h with ⟨hstale, _, _, ⟨-, rfl⟩, -, rfl⟩ |
    ⟨-, _, _, ⟨-, rfl⟩, _, _, ⟨-, rfl⟩, _, _, ⟨hopen, -, rfl⟩ | ⟨hended, -, rfl⟩, -, rfl⟩
  · exact ⟨_, List.forall₂_refl _, rfl, fun hne => absurd hstale hne⟩
  · refine ⟨_, forall₂_mapWhere ?_, rfl, ?_⟩
    · intro row _ hrow
      simp only [Bool.and_eq_true, Option.isNone_iff_eq_none] at hrow
      exact ⟨rfl, rfl, rfl, rfl, Or.inr ⟨hrow.2, by simp⟩⟩
    · intro _ _ row' hrow' hid htask
      obtain ⟨row, -, rfl⟩ := mem_mapWhere.mp hrow'
      split at hid <;> rename_i hhit
      · simp [hhit]
      · rw [if_neg hhit] at htask ⊢
        simpa [hid, htask] using hhit
  · exact ⟨_, List.forall₂_refl _, rfl, fun _ hnone => absurd hnone hended⟩

theorem completeReviewControl_ok
    (h : (completeReviewControl env current run kind note principal).run db = .ok (controlID, db')) :
    ∃ controls, db' = { db with controls } := by
  simp only [completeReviewControl, Tx.run_bind_ok, Tx.run_select_ok] at h
  obtain ⟨existing, _, ⟨-, rfl⟩, h⟩ := h
  cases existing with
  | none =>
      simp only [Tx.run_bind_ok, insertRunControl, Table.run_insert_ok, Tx.run_pure_ok,
        controlTable] at h
      obtain ⟨_, _, ⟨-, -, rfl⟩, -, rfl⟩ := h
      exact ⟨_, rfl⟩
  | some item =>
      simp only [Tx.run_bind_ok, run_oneRow_ok, Table.run_updateWhere_ok, Tx.run_pure_ok,
        controlTable] at h
      obtain ⟨_, _, ⟨-, rfl⟩, -, rfl⟩ := h
      exact ⟨_, rfl⟩

/-- What `reviewAndRequeueFor` does. The task was stale, blocked or waiting and goes back into
the queue; where it was not stale, the run that the request names ends. -/
theorem reviewAndRequeueTx_ok
    (h : (reviewAndRequeueTx svc env taskID request principal).run db = .ok (controlID, db')) :
    ∃ current run, db.task? taskID = some current ∧
      (current.status = .stale ∨ current.status = .blocked ∨ current.status = .waiting) ∧
      (db.runs.find? fun run => run.id = request.targetRunID ∧ run.taskID = taskID) = some run ∧
      List.Forall₂ (Task.Shifts current .queued) db.tasks db'.tasks ∧
      List.Forall₂ AgentRun.Follows db.runs db'.runs ∧
      (current.status ≠ .stale → run.endedAt = none →
        ∀ row ∈ db'.runs, row.id = run.id → row.taskID = taskID → row.endedAt ≠ none) := by
  simp only [reviewAndRequeueTx, Tx.run_bind_ok, run_loadTask_ok, Tx.run_selectOr_ok,
    Tx.run_lift_ok, refuse_ok_iff, run_oneRow_ok, run_bumpTask_ok,
    run_insertEvent_ok, Tx.run_pure_ok] at h
  obtain ⟨current, _, ⟨hcurrent, rfl⟩, _, _, ⟨hversion, rfl⟩, _, _, ⟨-, rfl⟩, _, _, ⟨hstatus, rfl⟩,
    run, _, ⟨hrun, rfl⟩, kind, _, hrecover, _, _, ⟨hone, rfl⟩, _, _, hcontrol, _, _, ⟨-, -, rfl⟩,
    rfl, rfl⟩ := h
  obtain ⟨runs, hruns, rfl, hends⟩ := recoverRun_ok hrecover
  obtain ⟨controls, rfl⟩ := completeReviewControl_ok hcontrol
  obtain ⟨hmem, rfl⟩ := mem_of_task? hcurrent
  refine ⟨current, run, hcurrent, by tauto, ?_, ?_, hruns, hends⟩
  · split at hrun
    · rename_i found hfound
      obtain rfl := Except.ok.inj hrun
      exact hfound
    · cases hrun
  · exact shifts_bumped hone.symm hmem (by simp [bumps])
      (fun _ => ⟨rfl, rfl, rfl, rfl, rfl, rfl⟩)
      (fun hp => hp.next rfl rfl (fun _ => rfl) (fun _ => rfl) (fun _ => rfl) Bool.noConfusion)
      (Task.reasoned_of_ne .queued rfl (by decide))

theorem each_reviewAndRequeueFor :
    (reviewAndRequeueFor svc env taskID request principal).Each (Steady [.controls] Event.Unkeyed) := by
  refine Call.each_lift_bind fun _ _ => ?_
  refine Call.each_lift_bind fun _ _ => ?_
  refine Call.each_lift_bind fun _ _ => ?_
  refine Call.each_bind quiet_getForHidden.each fun _ => ?_
  refine Call.each_bind (Call.each_tx fun _ _ => each_reviewAndRequeueTx.run) fun _ => ?_
  refine Call.each_bind quiet_getTask.each fun _ => ?_
  exact Call.each_bind (Call.quiet_lookOr _).each fun _ => (Call.quiet_pure _).each

/-- What `reviewAndRequeueFor` does where it does anything: one transaction. -/
theorem atMost_reviewAndRequeueFor :
    (reviewAndRequeueFor svc env taskID request principal).AtMost fun db db' =>
      ∃ controlID, (reviewAndRequeueTx svc env (trimSpace taskID) request.clean principal).run db =
        .ok (controlID, db') := by
  refine Call.atMost_lift_bind fun _ _ => ?_
  refine Call.atMost_lift_bind fun _ _ => ?_
  refine Call.atMost_lift_bind fun _ _ => ?_
  refine Call.atMost_bind_quiet quiet_getForHidden fun _ => ?_
  refine Call.atMost_then_quiet (Call.atMost_tx _) fun _ => ?_
  refine Call.quiet_bind quiet_getTask fun _ => ?_
  exact Call.quiet_bind (Call.quiet_lookOr _) fun _ => Call.quiet_pure _

end Review

end

end Taskboard
