import Taskboard.Runs

/-!
# References, handoffs and usage

What runs leave behind on a task: references to delivered work, handoffs to the next run
and usage records. Each of the three is a keyed operation with the same phases: clean and
validate the request, check the task and the run, look the key up, and write the row with
its event in one transaction.
-/

namespace Taskboard

variable {ev : Event → Prop} {item : RunHandoff}

variable {lg : List Ledger}

section

variable {tk : List Task → List Task → Prop} {rn : List AgentRun → List AgentRun → Prop}
  {svc : Service} {env : Env} {taskID : String} {principal : Principal}

/-- The number of active runs of an agent with this identifier on a task. -/
def Db.activeRuns (db : Db) (runID taskID agent : String) : Nat :=
  (db.runs.filter fun run => run.id = runID && run.taskID = taskID && run.agent = agent &&
    run.status = .active && run.endedAt.isNone).length

/-- The run exists, or none is named: the foreign key of a nullable run column. -/
def Db.hasRun (db : Db) (runID : String) : Bool :=
  runID = "" || db.runs.any fun run => run.id = runID

/-- `ListTaskReferences`. -/
def Db.listTaskReferences (db : Db) (taskID : String) : List TaskReference :=
  sortBy (fun a b => a.id < b.id) (db.references.filter fun row => row.taskID = taskID)

/-- The request as `AddTaskReferenceFor` cleans it. -/
def AddTaskReferenceRequest.clean (request : AddTaskReferenceRequest) :
    AddTaskReferenceRequest :=
  { request with
    runID := trimSpace request.runID
    label := trimSpace request.label
    locator := trimSpace request.locator
    url := trimSpace request.url }

/-- The checks of `AddTaskReferenceFor` on the request alone. -/
def validateReference (svc : Service) (taskID : String) (request : AddTaskReferenceRequest) :
    Except ServiceError ReferenceKind := do
  let required := ErrValidation "task_id and a valid reference kind are required"
  refuse (taskID = "") required
  let some kind := ReferenceKind.ofString? request.kind | .error required
  refuse (request.label = "" ∨ 200 < byteLen request.label ∨ 2000 < byteLen request.locator ∨
      2000 < byteLen request.url)
    (ErrValidation "label must contain 1-200 characters and locator/URL are limited to 2000")
  refuse (request.locator = "" ∧ request.url = "")
    (ErrValidation "locator or URL is required")
  refuse (request.url ≠ "" ∧ (svc.isHTTPS request.url = false ∨ '\r' ∈ request.url.toList ∨
      '\n' ∈ request.url.toList))
    (ErrValidation "reference URL must be absolute HTTPS without embedded credentials")
  pure kind

/-- The checks of `AddTaskReferenceFor` on the task and the run. -/
def checkReference (task : TaskView) (request : AddTaskReferenceRequest)
    (principal : Principal) (now : Instant) : Except ServiceError Unit := do
  refuse (!canMutate task.toTask principal) ErrForbidden
  if principal.agent then
    refuse (request.runID = "") (ErrValidation "agent references require run_id")
    refuse (activeOwnedRun task.runs request.runID principal.id = none)
      (ErrValidation "reference run is not active for this agent")
    refuse (!principal.hasCapability .taskReference &&
        !holdsLease task.runs request.runID principal now)
      (missingCapability "task:reference"
        "add references to a task whose lease the run does not hold")
  else
    refuse (request.runID ≠ "")
      (ErrValidation "human references cannot claim a source run")

/-- The transaction of `AddTaskReferenceFor`. -/
def addReferenceTx (env : Env) (taskID : String) (kind : ReferenceKind)
    (request : AddTaskReferenceRequest) (principal : Principal) : TxM TaskReference := do
  let current ← loadTask taskID
  (if principal.agent then do
    let active ← Tx.select fun db => db.activeRuns request.runID taskID principal.id
    refuse (active ≠ 1) (ServiceError.conflict "reference run is not active for this agent")
  else pure ())
  let reference : TaskReference :=
    { id := env.newID 0
      taskID := taskID
      runID := request.runID
      kind := kind
      label := request.label
      locator := request.locator
      url := request.url
      createdBy := principal.id
      provenance := if principal.agent then .agent else .human
      createdAt := env.now }
  referenceTable.insert reference (fun db => db.hasRun request.runID)
    (.database "insert reference")
  insertEvent
    { id := env.newID 1
      taskID := taskID
      runID := request.runID
      kind := "task.reference_added"
      actor := principal.id
      message := "Delivery reference added"
      payload := mergePayload
        [("reference_id", .text reference.id), ("reference_kind", .text kind.toString),
          ("run_id", .text reference.runID), ("version", .number current.version)]
        (idempotencyPayload "task_reference_add" request.idempotencyKey
          (some (.addReference taskID request)))
      createdAt := env.now }
  pure reference

/-- `GetTaskReference`. -/
def getTaskReference (id : String) : CallM TaskReference :=
  Call.lookOr fun db => found (db.references.find? fun row => row.id = id)

/-- What `AddTaskReferenceFor` checks before it looks its key up. -/
def mayAddReference (svc : Service) (env : Env) (taskID : String)
    (request : AddTaskReferenceRequest) (principal : Principal) : CallM ReferenceKind := do
  refuse (!principal.agent && !principal.can .taskWrite) ErrForbidden
  let kind ← validateReference svc taskID request
  let task ← getForHidden svc env.checked taskID principal
  checkReference task request principal env.checked
  pure kind

/-- `AddTaskReferenceFor`. -/
def addTaskReferenceFor (svc : Service) (env : Env) (taskID : String)
    (request : AddTaskReferenceRequest) (principal : Principal) : CallM TaskReference := do
  let taskID := trimSpace taskID
  let request := request.clean
  let kind ← mayAddReference svc env taskID request principal
  keyed svc (principal.agent || request.idempotencyKey ≠ "") principal "task_reference_add"
    request.idempotencyKey (.addReference taskID request)
    (fun event => getTaskReference (Payload.text event.payload "reference_id"))
    (Call.tx (addReferenceTx env taskID kind request principal))

section Reference

variable {kind : ReferenceKind} {request : AddTaskReferenceRequest}

theorem quiet_mayAddReference : (mayAddReference svc env taskID request principal).Quiet := by
  refine Call.quiet_lift_bind fun _ => ?_
  refine Call.quiet_lift_bind fun _ => ?_
  refine Call.quiet_bind quiet_getForHidden fun _ => ?_
  exact Call.quiet_lift_bind fun _ => Call.quiet_pure _

theorem each_addReferenceTx [Std.Refl tk] [Std.Refl rn] :
    (addReferenceTx env taskID kind request principal).Each
      (Footprint lg tk rn (Event.Under "task_reference_add")) := by
  refine Tx.each_selectOr_bind fun _ => ?_
  refine Tx.each_bind (Tx.each_ite (Tx.each_select_bind fun _ => Tx.each_lift _)
    (Tx.each_pure _)) fun _ => ?_
  refine Tx.each_bind (Table.each_insertFresh fun db hfresh =>
    { Footprint.refl lg tk rn _ db with references := appends_row hfresh }) fun _ => ?_
  refine Tx.each_bind (Footprint.each_insertEvent
    (Event.under_merge (by simp [Payload.Keyless]) rfl)) fun _ => Tx.each_pure _

theorem each_addTaskReferenceFor [IsPreorder _ tk] [IsPreorder _ rn] :
    (addTaskReferenceFor svc env taskID request principal).Each
      (Footprint lg tk rn (Event.Under "task_reference_add")) :=
  Call.each_bind quiet_mayAddReference.each fun _ =>
    each_keyed (fun _ => (Call.quiet_lookOr _).each) (Call.each_tx fun _ _ => each_addReferenceTx.run)

end Reference

/-- `cleanHandoffRequest`, with the identifiers and the kind. -/
def AddRunHandoffRequest.clean (request : AddRunHandoffRequest) : AddRunHandoffRequest :=
  { request with
    runID := trimSpace request.runID
    kind := if request.kind = "" then "checkpoint" else request.kind
    lastCompletedStep := trimSpace request.lastCompletedStep
    worktree := trimSpace request.worktree
    branch := trimSpace request.branch
    blocker := trimSpace request.blocker
    nextAction := trimSpace request.nextAction
    commits := unique request.commits
    pullRequests := unique request.pullRequests
    validation := unique request.validation
    reviewFindings := unique request.reviewFindings }

/-- `validateHandoffRequest`. -/
def validateHandoffRequest (request : AddRunHandoffRequest) : Except ServiceError Unit := do
  refuse (∃ value ∈ [request.lastCompletedStep, request.worktree, request.branch,
      request.blocker, request.nextAction], 2000 < byteLen value)
    (ErrValidation "handoff fields are limited to 2000 characters")
  for list in [request.commits, request.pullRequests, request.validation,
      request.reviewFindings] do
    refuse (100 < list.length) (ErrValidation "handoff lists are limited to 100 entries")
    refuse (∃ value ∈ list, 1000 < byteLen value)
      (ErrValidation "handoff list entries are limited to 1000 characters")

/-- The kinds an agent may record itself. -/
def givenHandoffKind : String → Option HandoffKind
  | "checkpoint" => some .checkpoint
  | "final" => some .final
  | _ => none

/-- `InsertRunHandoff`. A handoff belongs to a task and a run. -/
def insertRunHandoff (item : RunHandoff) : TxM Unit :=
  handoffTable.insert item
    (fun db => (db.task? item.taskID).isSome && db.runs.any fun run => run.id = item.runID)
    (.database "insert handoff")

/-- The transaction of `AddRunHandoffFor`. -/
def addHandoffTx (env : Env) (taskID : String) (kind : HandoffKind)
    (request : AddRunHandoffRequest) (principal : Principal) : TxM RunHandoff := do
  let active ← Tx.select fun db => db.activeRuns request.runID taskID principal.id
  refuse (active ≠ 1) (ServiceError.conflict "handoff run is no longer active")
  let item : RunHandoff :=
    { id := env.newID 0
      taskID := taskID
      runID := request.runID
      kind := kind
      lastCompletedStep := request.lastCompletedStep
      worktree := request.worktree
      branch := request.branch
      commits := request.commits
      pullRequests := request.pullRequests
      validation := request.validation
      reviewFindings := request.reviewFindings
      blocker := request.blocker
      nextAction := request.nextAction
      createdBy := principal.id
      createdAt := env.now }
  insertRunHandoff item
  insertEvent
    { id := env.newID 1
      taskID := taskID
      runID := item.runID
      kind := "task.handoff_added"
      actor := principal.id
      message := "Run handoff recorded"
      payload := mergePayload
        [("handoff_id", .text item.id), ("handoff_kind", .text kind.toString),
          ("run_id", .text item.runID)]
        (idempotencyPayload "task_handoff_add" request.idempotencyKey
          (some (.addHandoff taskID request)))
      createdAt := env.now }
  pure item

/-- `GetRunHandoff`. -/
def getRunHandoff (id : String) : CallM RunHandoff :=
  Call.lookOr fun db => found (db.handoffs.find? fun row => row.id = id)

/-- The checks of `AddRunHandoffFor` on the task and the run. -/
def checkHandoff (task : TaskView) (request : AddRunHandoffRequest) (principal : Principal)
    (now : Instant) : Except ServiceError Unit := do
  refuse (!canMutate task.toTask principal) ErrForbidden
  refuse (activeOwnedRun task.runs request.runID principal.id = none)
    (ErrValidation "handoff run is not active for this agent")
  refuse (!principal.hasCapability .taskHandoff &&
      !holdsLease task.runs request.runID principal now)
    (missingCapability "task:handoff" "hand off a task whose lease the run does not hold")

/-- The checks of `AddRunHandoffFor` on the request alone. -/
def validateHandoff (taskID : String) (request : AddRunHandoffRequest) :
    Except ServiceError HandoffKind := do
  let required := ErrValidation "task_id, run_id, and checkpoint or final kind are required"
  refuse (taskID = "" ∨ request.runID = "") required
  let some kind := givenHandoffKind request.kind | .error required
  validateHandoffRequest request
  pure kind

/-- What `AddRunHandoffFor` checks before it looks its key up. -/
def mayAddHandoff (svc : Service) (env : Env) (taskID : String)
    (request : AddRunHandoffRequest) (principal : Principal) : CallM HandoffKind := do
  refuse (!principal.agent) ErrForbidden
  let kind ← validateHandoff taskID request
  let task ← getForHidden svc env.checked taskID principal
  checkHandoff task request principal env.checked
  pure kind

/-- `AddRunHandoffFor`. -/
def addRunHandoffFor (svc : Service) (env : Env) (taskID : String)
    (request : AddRunHandoffRequest) (principal : Principal) : CallM RunHandoff := do
  let taskID := trimSpace taskID
  let request := request.clean
  let kind ← mayAddHandoff svc env taskID request principal
  keyed svc (request.idempotencyKey ≠ "") principal "task_handoff_add"
    request.idempotencyKey (.addHandoff taskID request)
    (fun event => getRunHandoff (Payload.text event.payload "handoff_id"))
    (Call.tx (addHandoffTx env taskID kind request principal))

section Handoff

variable {kind : HandoffKind} {request : AddRunHandoffRequest}

theorem each_insertRunHandoff [Std.Refl tk] [Std.Refl rn] (hlg : Ledger.handoffs ∈ lg):
    (insertRunHandoff item).Each (Footprint lg tk rn ev) :=
  Table.each_insertFresh fun db hfresh =>
    { Footprint.refl lg tk rn ev db with
      handoffs := appends_row hfresh
      sameHandoffs := fun h => absurd hlg h }

theorem run_insertRunHandoff_ok {db db' : Db} {u : Unit} :
    (insertRunHandoff item).run db = .ok (u, db') ↔
      (db.task? item.taskID).isSome = true ∧ (∃ run ∈ db.runs, run.id = item.runID) ∧
        (∀ row ∈ db.handoffs, row.id ≠ item.id) ∧
        db' = { db with handoffs := db.handoffs ++ [item] } := by
  simp [insertRunHandoff, handoffTable, and_assoc]

theorem quiet_mayAddHandoff : (mayAddHandoff svc env taskID request principal).Quiet := by
  refine Call.quiet_lift_bind fun _ => ?_
  refine Call.quiet_lift_bind fun _ => ?_
  refine Call.quiet_bind quiet_getForHidden fun _ => ?_
  exact Call.quiet_lift_bind fun _ => Call.quiet_pure _

theorem each_addHandoffTx [Std.Refl tk] [Std.Refl rn] :
    (addHandoffTx env taskID kind request principal).Each
      (Footprint [.handoffs] tk rn (Event.Under "task_handoff_add")) := by
  refine Tx.each_select_bind fun _ => ?_
  refine Tx.each_lift_bind fun _ => ?_
  refine Tx.each_bind (each_insertRunHandoff (List.mem_singleton_self _)) fun _ => ?_
  exact Tx.each_bind (Footprint.each_insertEvent
    (Event.under_merge (by simp [Payload.Keyless]) rfl)) fun _ => Tx.each_pure _

theorem each_addRunHandoffFor [IsPreorder _ tk] [IsPreorder _ rn] :
    (addRunHandoffFor svc env taskID request principal).Each
      (Footprint [.handoffs] tk rn (Event.Under "task_handoff_add")) :=
  Call.each_bind quiet_mayAddHandoff.each fun _ =>
    each_keyed (fun _ => (Call.quiet_lookOr _).each) (Call.each_tx fun _ _ => each_addHandoffTx.run)

end Handoff

/-- `firstNonEmpty`. -/
def firstNonEmpty (first second : String) : String :=
  if trimSpace first ≠ "" then first else if trimSpace second ≠ "" then second else ""

/-- What one reference of the run adds to its derived handoff. -/
def RunHandoff.addReference (item : RunHandoff) (reference : TaskReference) : RunHandoff :=
  match reference.kind with
  | .worktree => { item with worktree := reference.locator }
  | .branch => { item with branch := reference.locator }
  | .commit => { item with commits := item.commits ++ [reference.locator] }
  | .pullRequest =>
      { item with
        pullRequests := item.pullRequests ++ [firstNonEmpty reference.url reference.locator] }
  | .ciRun | .screenshot =>
      { item with
        validation := item.validation ++ [firstNonEmpty reference.url reference.locator] }
  | .review =>
      { item with
        reviewFindings := item.reviewFindings ++
          [firstNonEmpty reference.url reference.locator] }
  | _ => item

/-- The label of the last item done or skipped, in checklist order. -/
def lastCompletedStep (items : List ChecklistItem) : String :=
  items.foldl
    (fun label item => if item.status = .done ∨ item.status = .skipped then item.label else label)
    ""

/-- The transaction of `ensureDerivedHandoff`. -/
def derivedHandoffTx (item : RunHandoff) (eventID : String) : TxM Unit := do
  insertRunHandoff item
  insertEvent
    { id := eventID
      taskID := item.taskID
      runID := item.runID
      kind := "task.handoff_generated"
      actor := "system"
      message := "Run handoff generated"
      payload := [("handoff_id", .text item.id), ("handoff_kind", .text item.kind.toString)]
      createdAt := item.createdAt }

/-- `ensureDerivedHandoff`: a handoff of what the board already knows, for a run that
ended without one. `itemID` and `eventID` are the identifiers it draws. -/
def ensureDerivedHandoff (svc : Service) (now : Instant) (itemID eventID : String)
    (taskID runID : String) (kind : HandoffKind) : CallM Unit := do
  let count ← Call.look fun db => (db.handoffs.filter fun row =>
    row.runID = runID ∧ (row.kind = .final ∨ row.kind = .stale)).length
  if 0 < count then pure ()
  else
    let task ← getTask svc now taskID
    let references ← Call.look fun db => db.listTaskReferences taskID
    let item : RunHandoff :=
      { id := itemID
        taskID := taskID
        runID := runID
        kind := kind
        lastCompletedStep := lastCompletedStep task.items
        blocker := task.blocker
        nextAction := task.waitingFor
        createdBy := "system"
        createdAt := now }
    let own := references.filter fun reference => reference.runID = runID
    Call.tx (derivedHandoffTx (own.foldl RunHandoff.addReference item) eventID)

/-- A derived handoff adds its row and an event without a key. -/
theorem each_ensureDerivedHandoff [IsPreorder _ tk] [IsPreorder _ rn]
    (hev : ∀ event : Event, event.Unkeyed → ev event) {now : Instant} {itemID eventID runID : String}
    {kind : HandoffKind} (hlg : Ledger.handoffs ∈ lg := by simp) :
    (ensureDerivedHandoff svc now itemID eventID taskID runID kind).Each (Footprint lg tk rn ev) := by
  refine Call.each_bind (Call.quiet_look _).each fun _ => ?_
  refine Call.each_ite (Call.quiet_pure _).each ?_
  refine Call.each_bind quiet_getTask.each fun task => ?_
  refine Call.each_bind (Call.quiet_look _).each fun references => ?_
  refine Call.each_tx fun _ _ => Tx.Each.run ?_
  exact Tx.each_bind (each_insertRunHandoff hlg) fun _ => Footprint.each_insertEvent (hev _ rfl)

/-- The request as `RecordUsageFor` cleans it. -/
def RecordUsageRequest.clean (request : RecordUsageRequest) : RecordUsageRequest :=
  { request with
    runID := trimSpace request.runID
    provider := trimSpace request.provider
    model := trimSpace request.model }

/-- The checks of `RecordUsageFor` on the request alone. -/
def validateUsage (request : RecordUsageRequest) : Except ServiceError Unit := do
  refuse (request.runID = "" ∨ request.inputTokens < 0 ∨ request.outputTokens < 0 ∨
      request.estimatedCostMicros < 0 ∨
      (request.inputTokens = 0 ∧ request.outputTokens = 0 ∧ request.estimatedCostMicros = 0))
    (ErrValidation "run_id and non-negative non-zero usage are required")
  refuse (80 < byteLen request.provider ∨ 120 < byteLen request.model)
    (ErrValidation "provider/model labels are too long")

/-- The checks of `RecordUsageFor` on the task and the run. -/
def checkUsage (task : TaskView) (request : RecordUsageRequest) (principal : Principal) :
    Except ServiceError Unit :=
  refuse (activeOwnedRun task.runs request.runID principal.id = none)
    (ErrValidation "active owned run is required")

/-- The transaction of `RecordUsageFor`. -/
def recordUsageTx (env : Env) (taskID : String) (request : RecordUsageRequest)
    (principal : Principal) : TxM UsageRecord := do
  let item : UsageRecord :=
    { id := env.newID 0
      taskID := taskID
      runID := request.runID
      provider := request.provider
      model := request.model
      inputTokens := request.inputTokens
      outputTokens := request.outputTokens
      estimatedCostMicros := request.estimatedCostMicros
      recordedBy := principal.id
      createdAt := env.now }
  usageTable.insert item
    (fun db => (db.task? taskID).isSome && db.runs.any fun run => run.id = item.runID)
    (.database "insert usage record")
  insertEvent
    { id := env.newID 1
      taskID := taskID
      runID := request.runID
      kind := "task.usage_recorded"
      actor := principal.id
      message := "Aggregate usage recorded"
      payload := mergePayload
        [("usage_id", .text item.id), ("input_tokens", .number item.inputTokens),
          ("output_tokens", .number item.outputTokens),
          ("estimated_cost_micros", .number item.estimatedCostMicros)]
        (idempotencyPayload "task_usage_record" request.idempotencyKey
          (some (.recordUsage taskID request)))
      createdAt := env.now }
  pure item

/-- `GetUsageRecord`. -/
def getUsageRecord (id : String) : CallM UsageRecord :=
  Call.lookOr fun db => found (db.usage.find? fun row => row.id = id)

/-- What `RecordUsageFor` checks before it looks its key up. -/
def mayRecordUsage (svc : Service) (env : Env) (taskID : String)
    (request : RecordUsageRequest) (principal : Principal) : CallM Unit := do
  refuse (!principal.hasCapability .taskUsage) ErrForbidden
  validateUsage request
  let task ← getForHidden svc env.checked taskID principal
  checkUsage task request principal

/-- `RecordUsageFor`. -/
def recordUsageFor (svc : Service) (env : Env) (taskID : String)
    (request : RecordUsageRequest) (principal : Principal) : CallM UsageRecord := do
  let taskID := trimSpace taskID
  let request := request.clean
  mayRecordUsage svc env taskID request principal
  keyed svc (request.idempotencyKey ≠ "") principal "task_usage_record"
    request.idempotencyKey (.recordUsage taskID request)
    (fun event => getUsageRecord (Payload.text event.payload "usage_id"))
    (Call.tx (recordUsageTx env taskID request principal))

section Usage

variable {request : RecordUsageRequest}

theorem quiet_mayRecordUsage : (mayRecordUsage svc env taskID request principal).Quiet := by
  refine Call.quiet_lift_bind fun _ => ?_
  refine Call.quiet_lift_bind fun _ => ?_
  exact Call.quiet_bind quiet_getForHidden fun _ => Call.quiet_lift _

theorem each_recordUsageTx [Std.Refl tk] [Std.Refl rn] (hlg : Ledger.usage ∈ lg) :
    (recordUsageTx env taskID request principal).Each
      (Footprint lg tk rn (Event.Under "task_usage_record")) := by
  refine Tx.each_bind (Table.each_insertFresh fun db hfresh =>
    { Footprint.refl lg tk rn _ db with
      usage := appends_row hfresh
      sameUsage := fun hl => absurd hlg hl }) fun _ => ?_
  exact Tx.each_bind (Footprint.each_insertEvent
    (Event.under_merge (by simp [Payload.Keyless]) rfl)) fun _ => Tx.each_pure _

theorem each_recordUsageFor [IsPreorder _ tk] [IsPreorder _ rn] (hlg : Ledger.usage ∈ lg) :
    (recordUsageFor svc env taskID request principal).Each
      (Footprint lg tk rn (Event.Under "task_usage_record")) :=
  Call.each_bind quiet_mayRecordUsage.each fun _ =>
    each_keyed (fun _ => (Call.quiet_lookOr _).each)
      (Call.each_tx fun _ _ => (each_recordUsageTx hlg).run)

end Usage

end

end Taskboard
