import Taskboard.RunControls

/-!
# Recording, starting and claiming work

`startFor` records a task with a run on it, `createFor` records a queued task without one,
and `claimFor` attaches a run to a task that waits in the queue or has gone stale.
-/

namespace Taskboard

variable {event : Event} {runBy scheduledFor : String} {task view : TaskView} {r : Unit × Db}
  {principal : Principal}

variable {run : AgentRun} {db db' : Db} {env : Env} {now : Instant} {overridden : List String}
  {hash : Option Digest} {svc : Service} {request : StartRequest}
  {actor agent delegatedVia : String} {u : Unit}

variable {lg : List Ledger} {item : NewTask} {schedule : Schedule}

/-- The fields that starting and creating a task have in common, once they are cleaned and
validated. -/
structure NewTask where
  title : String
  summary : String
  type : TaskType
  visibility : TaskVisibility
  «section» : String
  project : String
  repository : String
  priority : Priority
  dueDate : String
  deferUntil : String
  recurrence : String
  checklist : List String

/-- The row of a new task. -/
def NewTask.row (item : NewTask) (id createdBy editedBy owner scheduleID : String)
    (status : TaskStatus) (sortOrder : Int) (now : Instant) : Task :=
  { id := id
    title := item.title
    summary := item.summary
    type := item.type
    visibility := item.visibility
    createdBy := createdBy
    lastEditedBy := editedBy
    «section» := item.section
    project := item.project
    repository := item.repository
    priority := item.priority
    dueDate := item.dueDate
    deferUntil := item.deferUntil
    recurrence := item.recurrence
    sortOrder := sortOrder
    status := status
    owner := owner
    version := 1
    createdAt := now
    updatedAt := now
    scheduleID := scheduleID }

theorem NewTask.proper_row (item : NewTask) (env : Env) (n : Nat)
    {createdBy editedBy owner scheduleID : String} {status : TaskStatus} {sortOrder : Int}
    (hopen : status.terminal = false) :
    (item.row (env.newID n) createdBy editedBy owner scheduleID status sortOrder now).Proper :=
  ⟨env.newID_ne n, env.trimSpace_newID n, le_rfl, fun _ => rfl, fun _ => rfl, fun _ => rfl,
    fun hterminal => Bool.noConfusion (hopen.symm.trans hterminal)⟩

/-- The cleaning and the checks that `Start` and `Create` make alike, up to the checklist.
`tooLong` is what else the caller counts as too long. -/
def validateNewTask (svc : Service) (request : CreateRequest) (tooLong : Bool) :
    Except ServiceError NewTask := do
  let title := trimSpace request.title
  let summary := trimSpace request.summary
  let «section» := normalizedSection request.section
  let project := trimSpace request.project
  let repository := trimSpace request.repository
  let dueDate := trimSpace request.dueDate
  let deferUntil := svc.normalizedDeferUntil request.deferUntil
  let recurrence := svc.normalizedRecurrence request.recurrence
  refuse (title = "") (ErrValidation "title is required")
  let type ← svc.taskType request.type
  let visibility ← named TaskVisibility.ofString? "visibility must be private, team, or agent"
    (svc.normalizedVisibility request.visibility "team")
  refuse (200 < byteLen title ∨ 2000 < byteLen summary ∨ 80 < byteLen «section» ∨
      120 < byteLen project ∨ 300 < byteLen repository ∨ tooLong)
    (ErrValidation "task text is too long")
  let priority ← svc.validatePlanning (svc.normalizedPriority request.priority) dueDate
    deferUntil recurrence
  pure { title, summary, type, visibility, «section», project, repository, priority, dueDate,
         deferUntil, recurrence, checklist := request.checklist }

/-- The statement that inserts a task. -/
def insertTask (task : Task) : TxM Unit :=
  taskTable.insert task (fun _ => true) (.database "insert task")

/-- The fields of a start request that a create request has too. -/
def StartRequest.toCreate (request : StartRequest) : CreateRequest :=
  { title := request.title
    type := request.type
    visibility := request.visibility
    summary := request.summary
    «section» := request.section
    project := request.project
    repository := request.repository
    priority := request.priority
    dueDate := request.dueDate
    deferUntil := request.deferUntil
    recurrence := request.recurrence
    checklist := request.checklist }

/-- The agent of the run that `Start` opens. -/
def startAgent (agent actor : String) : String :=
  if trimSpace agent ≠ "" then trimSpace agent else if actor ≠ "" then actor else "unassigned"

/-- The checks of `Start`. -/
def validateStart (svc : Service) (request : StartRequest) : Except ServiceError NewTask := do
  let item ← validateNewTask svc request.toCreate
    (100 < byteLen (trimSpace request.agent) || 100 < byteLen (trimSpace request.client) ||
      200 < byteLen (trimSpace request.agentSessionKey))
  refuse (request.checklist = [])
    (ErrValidation "at least one checklist item is required")
  let checklist ← cleanChecklist request.checklist
  pure { item with checklist }

/-- The run that starting or claiming a task opens. -/
def newRun (svc : Service) (env : Env) (runID taskID agent client : String) : AgentRun :=
  { id := runID
    taskID := taskID
    agent := agent
    client := trimSpace client
    status := .active
    leaseExpires := env.now + svc.leaseDuration
    lastHeartbeat := env.now
    startedAt := env.now }

/-- The transaction of `Start`. -/
def startTx (svc : Service) (env : Env) (item : NewTask) (request : StartRequest)
    (actor : String) (hash : Option Digest) (overridden : List String) : TxM Unit := do
  let taskID := env.newID 0
  let runID := env.newID 1
  let agent := startAgent request.agent actor
  let creator := defaultActor actor "user"
  let sortOrder ← Tx.select fun db => db.nextSortOrder item.section
  insertTask (item.row taskID creator creator agent "" .active sortOrder env.now)
  insertItems (fun index => env.newID (4 + index)) taskID env.now
    (fun index => if index = 0 then .active else .todo) 0
    (item.checklist.map fun label => (label, true))
  insertAgentRun svc (newRun svc env runID taskID agent request.client)
    (trimSpace request.agentSessionKey) (env.newID 2)
  insertEvent
    { id := env.newID 3
      taskID := taskID
      runID := runID
      kind := "task.started"
      actor := agent
      message := item.title
      payload := mergePayload
        (idempotencyPayload "task_start" request.idempotencyKey hash)
        (overriddenDuplicatesPayload overridden)
      createdAt := env.now }

/-- The row of the task that `Start` records. -/
def startedTask (env : Env) (item : NewTask) (request : StartRequest) (actor : String)
    (sortOrder : Int) : Task :=
  item.row (env.newID 0) (defaultActor actor "user") (defaultActor actor "user")
    (startAgent request.agent actor) "" .active sortOrder env.now

/-- **Starting a task.** A task and a run on it are added, both active, with an event that
names them under the key. -/
theorem startTx_ok
    (h : (startTx svc env item request actor hash overridden).run db = .ok (u, db')) :
    ∃ sortOrder sessionID callsign event,
      (∀ row ∈ db.tasks, row.id ≠ env.newID 0) ∧ (∀ row ∈ db.runs, row.id ≠ env.newID 1) ∧
      event.taskID = env.newID 0 ∧ event.runID = env.newID 1 ∧
      event.actor = startAgent request.agent actor ∧
      event.payload = overriddenDuplicatesPayload overridden ++
        (idempotencyPayload "task_start" request.idempotencyKey hash ++ []) ∧
      Aside { db with
        tasks := db.tasks ++ [startedTask env item request actor sortOrder]
        runs := db.runs ++ [{ newRun svc env (env.newID 1) (env.newID 0)
          (startAgent request.agent actor) request.client with sessionID, callsign }]
        events := db.events ++ [event] } db' := by
  simp only [startTx, insertTask, Tx.run_select_bind_ok, Table.run_insert_bind_ok, taskTable] at h
  obtain ⟨-, hfresh, h⟩ := h
  obtain ⟨_, db1, hitems, h⟩ := Tx.run_bind_ok.mp h
  obtain ⟨_, rfl⟩ := (onItems_insertItems _).run hitems
  obtain ⟨_, db2, hrun, h⟩ := Tx.run_bind_ok.mp h
  obtain ⟨sessionID, callsign, -, hnew, _, _, rfl⟩ := insertAgentRun_ok hrun
  obtain ⟨-, -, rfl⟩ := run_insertEvent_ok.mp h
  refine ⟨_, sessionID, callsign, _, fun row hrow hid => hfresh row hrow (congrArg RowKey.task hid),
    hnew, rfl, rfl, rfl, ?_, _, _, _, _, rfl⟩
  simp [mergePayload]

theorem keyless_overriddenDuplicatesPayload (ids : List String) :
    (overriddenDuplicatesPayload ids).Keyless := by
  unfold overriddenDuplicatesPayload
  split <;> simp [Payload.Keyless]

theorem sameRequirements_insertAgentRun {sessionKey newSessionID : String}:
    (insertAgentRun svc run sessionKey newSessionID).Each SameRequirements := by
  refine Tx.each_bind (nearby_findSession.mono fun _ _ => Nearby.sameRequirements) fun _ => ?_
  refine Tx.each_bind (Table.each_updateWhere fun _ => rfl) fun _ => ?_
  exact Tx.each_bind (Table.each_insertUnless fun _ => rfl) fun _ => Tx.each_lift _

/-- What `Start` records has no requirements. -/
theorem sameRequirements_startTx :
    (startTx svc env item request actor hash overridden).Each SameRequirements := by
  refine Tx.each_select_bind fun _ => ?_
  refine Tx.each_bind (Table.each_insert fun _ => rfl) fun _ => ?_
  refine Tx.each_bind ((onItems_insertItems _).mono fun _ _ => OnItems.sameRequirements)
    fun _ => ?_
  exact Tx.each_bind sameRequirements_insertAgentRun fun _ => Table.each_insert fun _ => rfl

theorem lively_startTx
    (h : (startTx svc env item request actor hash overridden).run db = .ok r) :
    Lively [.items, .posts] (Event.Under "task_start") db r.2 := by
  obtain ⟨order, sessionID, callsign, event, -, -, -, -, -, hpayload, haside⟩ := startTx_ok h
  refine Footprint.of_aside haside (evolves_append trivial) (evolves_append fun _ => rfl)
    (evolves_append ?_) (by simp) fun _ => sameRequirements_startTx.run h
  exact Event.under_of_payload (keyless_overriddenDuplicatesPayload _) (List.forall_mem_nil _)
    hpayload

/-- `Start`. -/
def start (svc : Service) (env : Env) (request : StartRequest) (actor : String)
    (hash : Option Digest) (overridden : List String) : CallM (TaskView × AgentRun) := do
  let item ← validateStart svc request
  Call.tx (startTx svc env item request actor hash overridden)
  let task ← getTask svc env.now (env.newID 0)
  match task.runs with
  | run :: _ => pure (task, run)
  | [] => Call.fail (.database "index out of range")

/-- The answer of a replayed start or claim: the task and the run of its event. -/
def replayedRun (svc : Service) (env : Env) (principal : Principal) (event : Event) :
    CallM (TaskView × AgentRun) := do
  let task ← getForHidden svc env.checked event.taskID principal
  match task.runs.find? fun run => run.id = event.runID with
  | some run => pure (task, run)
  | none => Call.fail .notFound

/-- Whether an agent's start is a private task of the person it acts for. -/
def startsDelegated (request : StartRequest) (principal : Principal) : Bool :=
  principal.agent && principal.onBehalfOf.isSome &&
    (request.visibility = "" || request.visibility = "private")

/-- What `startFor` checks and fills in for an agent. -/
def startRequestOf (request : StartRequest) (principal : Principal) :
    Except ServiceError StartRequest := do
  refuse (!principal.hasCapability .taskCreate) ErrForbidden
  let delegated := startsDelegated request principal
  refuse (delegated ∧ principal.onBehalfOf.any fun person =>
      person.agent || person.id = "" || !person.can .taskWrite) ErrForbidden
  let visibility :=
    if delegated then "private" else if request.visibility = "" then "agent"
    else request.visibility
  refuse (visibility = "private" ∧ !delegated) ErrForbidden
  pure { request with visibility, agent := principal.id }

/-- What `startFor` does for an agent once its key is not a replay. -/
def startAgentTask (svc : Service) (env : Env) (request : StartRequest)
    (principal : Principal) (actor : String) : CallM (TaskView × AgentRun) := do
  enforceAgentPickupLimits svc principal env.checked
  let overridden ← checkDuplicates svc principal request.forceNew request.title
    request.project request.repository
  start svc env request actor (some (.start request)) overridden

/-- `startFor`. -/
def startFor (svc : Service) (env : Env) (request : StartRequest) (principal : Principal) :
    CallM (TaskView × AgentRun) := do
  refuse (!principal.agent && !principal.can .taskWrite) ErrForbidden
  if principal.agent then
    let delegated := startsDelegated request principal
    let request ← startRequestOf request principal
    let actor := if delegated then principal.onBehalfOf.elim "" (·.id) else principal.id
    Call.holding .pickup
      (keyed svc (request.idempotencyKey ≠ "") principal "task_start" request.idempotencyKey
        (.start request) (replayedRun svc env principal)
        (startAgentTask svc env request principal actor))
  else
    let visibility := if request.visibility = "" then "private" else request.visibility
    start svc env { request with visibility } principal.id none []

section Start

theorem quiet_replayedRun : (replayedRun svc env principal event).Quiet := by
  refine Call.quiet_bind quiet_getForHidden fun task => ?_
  split
  · exact Call.quiet_pure _
  · exact Call.quiet_fail _

theorem each_start :
    (start svc env request actor hash overridden).Each (Lively [.items, .posts] (Event.Under "task_start")) := by
  refine Call.each_lift_bind fun _ _ => ?_
  refine Call.each_bind (Call.each_tx fun _ _ => lively_startTx) fun _ => ?_
  refine Call.each_bind quiet_getTask.each fun task => ?_
  split
  · exact (Call.quiet_pure _).each
  · exact (Call.quiet_fail _).each

theorem each_startAgentTask :
    (startAgentTask svc env request principal actor).Each
      (Lively [.items, .posts] (Event.Under "task_start")) := by
  refine Call.each_bind quiet_enforceAgentPickupLimits.each fun _ => ?_
  exact Call.each_bind quiet_checkDuplicates.each fun _ => each_start

theorem each_startFor :
    (startFor svc env request principal).Each (Lively [.items, .posts] (Event.Under "task_start")) := by
  refine Call.each_lift_bind fun _ _ => ?_
  refine Call.each_ite ?_ each_start
  refine Call.each_lift_bind fun _ _ => ?_
  exact Call.each_holding (each_keyed (fun _ => quiet_replayedRun.each) each_startAgentTask)

theorem atMost_start :
    (start svc env request actor hash overridden).AtMost fun db db' =>
      ∃ item u, (startTx svc env item request actor hash overridden).run db = .ok (u, db') := by
  refine Call.atMost_lift_bind fun item _ => ?_
  refine Call.atMost_then_quiet
    ((Call.atMost_tx _).mono fun _ _ ⟨u, h⟩ => ⟨item, u, h⟩) fun _ => ?_
  refine Call.quiet_bind quiet_getTask fun task => ?_
  split
  · exact Call.quiet_pure _
  · exact Call.quiet_fail _

/-- What `startFor` does where it does anything: one transaction. -/
theorem atMost_startFor :
    (startFor svc env request principal).AtMost fun db db' =>
      ∃ item checked actor hash overridden u,
        (startTx svc env item checked actor hash overridden).run db = .ok (u, db') := by
  refine Call.atMost_lift_bind fun _ _ => Call.atMost_ite ?_ ?_
  · refine Call.atMost_lift_bind fun checked _ => ?_
    refine Call.atMost_holding (atMost_keyed (fun _ => quiet_replayedRun) ?_)
    refine Call.atMost_bind_quiet quiet_enforceAgentPickupLimits fun _ => ?_
    refine Call.atMost_bind_quiet quiet_checkDuplicates fun overridden => ?_
    exact atMost_start.mono fun _ _ ⟨item, u, h⟩ => ⟨item, checked, _, _, overridden, u, h⟩
  · exact atMost_start.mono fun _ _ ⟨item, u, h⟩ => ⟨item, _, _, _, _, u, h⟩

end Start

/-- `queuedTask`: a validated task to record in the queue. -/
structure QueuedTask where
  item : NewTask
  createdBy : String
  editedBy : String
  scheduleID : String := ""
  requirements : List String
  requirementsSource : String
  payload : Payload

/-- `insertQueuedTask`. The new task has the identifier `newID 0`. -/
def insertQueuedTask (newID : Nat → String) (queued : QueuedTask) (now : Instant) :
    TxM Unit := do
  let item := queued.item
  let taskID := newID 0
  let sortOrder ← Tx.select fun db => db.nextSortOrder item.section
  insertTask (item.row taskID queued.createdBy queued.editedBy "" queued.scheduleID .queued
    sortOrder now)
  insertItems (fun index => newID (2 + index)) taskID now (fun _ => .todo) 0
    (item.checklist.map fun label => (label, true))
  insertRequirements taskID queued.requirements queued.editedBy now
  insertEvent
    { id := newID 1
      taskID := taskID
      kind := "task.created"
      actor := queued.editedBy
      message := item.title
      payload := mergePayload
        ([("status", .text "queued"), ("section", .text item.section),
          ("type", .text item.type.toString), ("visibility", .text item.visibility.toString)] ++
          if queued.requirements.isEmpty then []
          else [("requirements", .texts queued.requirements),
            ("requirements_source", .text queued.requirementsSource)])
        queued.payload
      createdAt := now }

/-- The row that `insertQueuedTask` records. -/
def QueuedTask.row (queued : QueuedTask) (id : String) (sortOrder : Int) (now : Instant) : Task :=
  queued.item.row id queued.createdBy queued.editedBy "" queued.scheduleID .queued sortOrder now

/-- **Recording a task.** A queued task is added, with an event that names it. -/
theorem insertQueuedTask_ok {newID : Nat → String} {queued : QueuedTask}
    (h : (insertQueuedTask newID queued now).run db = .ok (u, db')) :
    ∃ sortOrder event base,
      (∀ row ∈ db.tasks, row.id ≠ newID 0) ∧
      event.taskID = newID 0 ∧ event.actor = queued.editedBy ∧
      event.payload = mergePayload base queued.payload ∧ base.Keyless ∧
      Aside { db with
        tasks := db.tasks ++ [queued.row (newID 0) sortOrder now]
        events := db.events ++ [event] } db' := by
  simp only [insertQueuedTask, insertTask, Tx.run_select_bind_ok, Table.run_insert_bind_ok,
    taskTable] at h
  obtain ⟨-, hfresh, h⟩ := h
  obtain ⟨_, db1, hitems, h⟩ := Tx.run_bind_ok.mp h
  obtain ⟨_, rfl⟩ := (onItems_insertItems _).run hitems
  obtain ⟨_, db2, hreqs, h⟩ := Tx.run_bind_ok.mp h
  obtain ⟨_, _, _, rfl⟩ := (beside_insertRequirements _).run hreqs
  obtain ⟨-, -, rfl⟩ := run_insertEvent_ok.mp h
  refine ⟨_, _, _, fun row hrow hid => hfresh row hrow (congrArg RowKey.task hid), rfl, rfl, rfl,
    ?_, _, _, _, _, rfl⟩
  refine Payload.Keyless.append (by simp [Payload.Keyless]) ?_
  split <;> simp [Payload.Keyless]

/-- The checks of `Create` and the task it will record. -/
def validateCreate (svc : Service) (request : CreateRequest) (actor delegatedVia : String)
    (hash : Option Digest) (overridden : List String) : Except ServiceError QueuedTask := do
  let item ← validateNewTask svc request false
  let checklist ← cleanChecklist request.checklist
  let requirements ← svc.normalizeRequirements request.requirements
  let defaulted := requirements.isEmpty ∧ item.visibility = .agent ∧ svc.defaultRequirements ≠ []
  let creator := defaultActor actor "user"
  pure
    { item := { item with checklist }
      createdBy := creator
      editedBy := creator
      requirements := if defaulted then svc.defaultRequirements else requirements
      requirementsSource := if defaulted then "default" else "request"
      payload := mergePayload
        (mergePayload
          (if delegatedVia ≠ "" then [("delegated_via", .text delegatedVia)] else [])
          (idempotencyPayload "task_create" request.idempotencyKey hash))
        (overriddenDuplicatesPayload overridden) }

theorem validateCreate_ok {request : CreateRequest} {queued : QueuedTask}
    (h : validateCreate svc request actor delegatedVia hash overridden = .ok queued) :
    queued.editedBy = defaultActor actor "user" ∧ ∃ base : Payload, base.Keyless ∧
      queued.payload = overriddenDuplicatesPayload overridden ++
        (idempotencyPayload "task_create" request.idempotencyKey hash ++ base) := by
  simp only [validateCreate, Except.bind_ok_iff] at h
  obtain ⟨item, -, checklist, -, requirements, -, h⟩ := h
  cases h
  refine ⟨rfl, _, ?_, rfl⟩
  split <;> simp [Payload.Keyless]

/-- The task that `Create` records, with its event under the key. -/
theorem createTx_ok {request : CreateRequest} {queued : QueuedTask}
    (hq : validateCreate svc request actor delegatedVia hash overridden = .ok queued)
    (h : (insertQueuedTask env.newID queued env.now).run db = .ok (u, db')) :
    ∃ sortOrder event base,
      (∀ row ∈ db.tasks, row.id ≠ env.newID 0) ∧
      event.taskID = env.newID 0 ∧ event.actor = defaultActor actor "user" ∧
      base.Keyless ∧ event.payload = overriddenDuplicatesPayload overridden ++
        (idempotencyPayload "task_create" request.idempotencyKey hash ++ base) ∧
      Aside { db with
        tasks := db.tasks ++ [queued.row (env.newID 0) sortOrder env.now]
        events := db.events ++ [event] } db' := by
  obtain ⟨heditor, first, hfirst, hpayload⟩ := validateCreate_ok hq
  obtain ⟨sortOrder, event, base, hfresh, htask, hactor, hevent, hbase, haside⟩ :=
    insertQueuedTask_ok h
  refine ⟨sortOrder, event, first ++ base, hfresh, htask, hactor.trans heditor,
    hfirst.append hbase, ?_, haside⟩
  rw [hevent, hpayload]
  simp [mergePayload]

/-- `Create`. -/
def create (svc : Service) (env : Env) (request : CreateRequest) (actor delegatedVia : String)
    (hash : Option Digest) (overridden : List String) : CallM TaskView := do
  let queued ← validateCreate svc request actor delegatedVia hash overridden
  Call.tx (insertQueuedTask env.newID queued env.now)
  getTask svc env.now (env.newID 0)

/-- `createDelegated`: a task recorded as the person an agent acts for. -/
def createDelegated (svc : Service) (env : Env) (request : CreateRequest)
    (principal : Principal) (person : Identity) : CallM TaskView := do
  refuse (person.agent || person.id = "" || !person.can .taskWrite ||
    !principal.hasCapability .taskCreate) ErrForbidden
  let request :=
    if request.visibility = "" then { request with visibility := "private" } else request
  keyedAs svc (request.idempotencyKey ≠ "") person.id principal.policy.requireIdempotency
    "task_create" request.idempotencyKey (.create request)
    (fun event => getForHidden svc env.checked event.taskID person.alone)
    (create svc env request person.id "mcp" (some (.create request)) [])

/-- What `createFor` checks of the requirements an agent asks for. -/
def checkAllowedRequirements (svc : Service) (request : CreateRequest)
    (principal : Principal) : Except ServiceError Unit := do
  let requirements ← svc.normalizeRequirements request.requirements
  match requirements.find? fun item => item ∉ principal.policy.allowedRequirements with
  | some item => .error (.forbidden "agent policy does not allow requirement %q" [item])
  | none => pure ()

/-- What `createFor` does for an agent once its key is not a replay. -/
def createAgentTask (svc : Service) (env : Env) (request : CreateRequest)
    (principal : Principal) : CallM TaskView := do
  let overridden ← checkDuplicates svc principal request.forceNew request.title
    request.project request.repository
  create svc env request principal.id "" (some (.create request)) overridden

/-- `createFor` of an agent on its own account. -/
def createOwn (svc : Service) (env : Env) (request : CreateRequest) (principal : Principal) :
    CallM TaskView := do
  refuse (!principal.hasCapability .taskCreate) ErrForbidden
  let request :=
    if request.visibility = "" then { request with visibility := "agent" } else request
  refuse (request.visibility ≠ "agent") ErrForbidden
  keyed svc (request.idempotencyKey ≠ "") principal "task_create" request.idempotencyKey
    (.create request)
    (fun event => getForHidden svc env.checked event.taskID principal)
    (createAgentTask svc env request principal)

/-- `createFor`. -/
def createFor (svc : Service) (env : Env) (request : CreateRequest) (principal : Principal) :
    CallM TaskView := do
  if principal.agent then
    checkAllowedRequirements svc request principal
    match principal.onBehalfOf with
    | some person =>
        if request.visibility ≠ "agent" then createDelegated svc env request principal person
        else createOwn svc env request principal
    | none => createOwn svc env request principal
  else
    refuse (!principal.can .taskWrite) ErrForbidden
    let visibility := if request.visibility = "" then "private" else request.visibility
    create svc env { request with visibility } principal.id "" none []

section Create

variable {request : CreateRequest}

theorem each_create :
    (create svc env request actor delegatedVia hash overridden).Each
      (Lively [.items, .posts, .taskRequirements] (Event.Under "task_create")) := by
  refine Call.each_lift_bind fun queued hq => ?_
  refine Call.each_bind (Call.each_tx fun db r h => ?_) fun _ => quiet_getTask.each
  obtain ⟨order, event, base, -, -, -, hbase, hpayload, haside⟩ := createTx_ok hq h
  exact Footprint.of_aside haside (evolves_append trivial)
    (refl_of (Evolves AgentRun.Follows AgentRun.Sound) _)
    (evolves_append (Event.under_of_payload (keyless_overriddenDuplicatesPayload _) hbase
      hpayload))

theorem each_createDelegated {person : Identity} :
    (createDelegated svc env request principal person).Each
      (Lively [.items, .posts, .taskRequirements] (Event.Under "task_create")) := by
  refine Call.each_lift_bind fun _ _ => ?_
  exact each_keyedAs (fun _ => quiet_getForHidden.each) each_create

theorem each_createOwn :
    (createOwn svc env request principal).Each (Lively [.items, .posts, .taskRequirements] (Event.Under "task_create")) := by
  refine Call.each_lift_bind fun _ _ => ?_
  refine Call.each_lift_bind fun _ _ => ?_
  refine each_keyed (fun _ => quiet_getForHidden.each) ?_
  exact Call.each_bind quiet_checkDuplicates.each fun _ => each_create

theorem each_createFor :
    (createFor svc env request principal).Each (Lively [.items, .posts, .taskRequirements] (Event.Under "task_create")) := by
  refine Call.each_ite ?_ (Call.each_lift_bind fun _ _ => each_create)
  refine Call.each_lift_bind fun _ _ => ?_
  split
  · exact Call.each_ite each_createDelegated each_createOwn
  · exact each_createOwn

theorem atMost_create :
    (create svc env request actor delegatedVia hash overridden).AtMost fun db db' =>
      ∃ queued u, (insertQueuedTask env.newID queued env.now).run db = .ok (u, db') := by
  refine Call.atMost_lift_bind fun queued _ => ?_
  exact Call.atMost_then_quiet ((Call.atMost_tx _).mono fun _ _ ⟨u, h⟩ => ⟨queued, u, h⟩)
    fun _ => quiet_getTask

/-- What `createFor` does where it does anything: one transaction. -/
theorem atMost_createFor :
    (createFor svc env request principal).AtMost fun db db' =>
      ∃ queued u, (insertQueuedTask env.newID queued env.now).run db = .ok (u, db') := by
  have hown : (createOwn svc env request principal).AtMost fun db db' =>
      ∃ queued u, (insertQueuedTask env.newID queued env.now).run db = .ok (u, db') := by
    refine Call.atMost_lift_bind fun _ _ => ?_
    refine Call.atMost_lift_bind fun _ _ => ?_
    refine atMost_keyed (fun _ => quiet_getForHidden) ?_
    exact Call.atMost_bind_quiet quiet_checkDuplicates fun _ => atMost_create
  refine Call.atMost_ite ?_ (Call.atMost_lift_bind fun _ _ => atMost_create)
  refine Call.atMost_lift_bind fun _ _ => ?_
  split
  · refine Call.atMost_ite ?_ hown
    refine Call.atMost_lift_bind fun _ _ => ?_
    exact atMost_keyedAs (fun _ => quiet_getForHidden) atMost_create
  · exact hown

end Create

/-- What a schedule records at each of its occurrences. -/
structure Schedule where
  id : String
  name : String
  item : NewTask
  requirements : List String := []
  createdBy : String
  lastEditedBy : String

/-- The queued task of an occurrence of a schedule; `runBy` is who ran it by hand. -/
def Schedule.queued (svc : Service) (schedule : Schedule) (scheduledFor runBy : String) :
    QueuedTask :=
  let defaulted := schedule.requirements.isEmpty ∧ svc.defaultRequirements ≠ []
  { item := { schedule.item with visibility := .agent }
    createdBy := schedule.createdBy
    editedBy := schedule.lastEditedBy
    scheduleID := schedule.id
    requirements := if defaulted then svc.defaultRequirements else schedule.requirements
    requirementsSource := if defaulted then "default" else "schedule"
    payload := [("schedule_id", .text schedule.id), ("schedule_name", .text schedule.name),
      ("scheduled_for", .text scheduledFor)] ++
      if runBy ≠ "" then [("run_by", .text runBy)] else [] }

/-- The part of firing a schedule that records its task. -/
def fireSchedule (svc : Service) (env : Env) (schedule : Schedule)
    (scheduledFor runBy : String) : CallM TaskView := do
  Call.tx (insertQueuedTask env.newID (schedule.queued svc scheduledFor runBy) env.now)
  getTask svc env.now (env.newID 0)

theorem each_fireSchedule:
    (fireSchedule svc env schedule scheduledFor runBy).Each (Lively [.items, .posts, .taskRequirements] Event.Unkeyed) := by
  refine Call.each_bind (Call.each_tx fun db r h => ?_) fun _ => quiet_getTask.each
  obtain ⟨order, event, base, -, -, -, hpayload, hbase, haside⟩ := insertQueuedTask_ok h
  refine Footprint.of_aside haside (evolves_append trivial)
    (refl_of (Evolves AgentRun.Follows AgentRun.Sound) _) (evolves_append ?_)
  have hkeyless : Payload.Keyless (schedule.queued svc scheduledFor runBy).payload := by
    refine Payload.Keyless.append (by simp [Payload.Keyless]) ?_
    split <;> simp [Payload.Keyless]
  rw [Event.Unkeyed, hpayload]
  exact (hkeyless.append hbase).lookup.1

theorem atMost_fireSchedule:
    (fireSchedule svc env schedule scheduledFor runBy).AtMost fun db db' =>
      ∃ queued u, (insertQueuedTask env.newID queued env.now).run db = .ok (u, db') :=
  Call.atMost_then_quiet ((Call.atMost_tx _).mono fun _ _ ⟨u, h⟩ => ⟨_, u, h⟩)
    fun _ => quiet_getTask

/-- The transaction of `Claim`. -/
def claimTx (svc : Service) (env : Env) (taskID : String) (request : ClaimRequest)
    (agent : String) (hash : Option Digest) : TxM Unit := do
  let current ← loadTask taskID
  refuse (current.version ≠ request.expectedVersion)
    (versionConflict current request.expectedVersion false)
  refuse (current.status.terminal ∧ current.duplicateOf.any (· ≠ ""))
    (duplicateClaimError (current.duplicateOf.getD ""))
  refuse current.status.terminal (ErrValidation "terminal tasks cannot be claimed")
  let unmet ← Tx.select fun db => db.unmetDependencies taskID
  refuse (0 < unmet) (ServiceError.validation "task has %d unmet dependencies" [toString unmet])
  refuse (svc.deferActive current.deferUntil env.now)
    (ServiceError.validation "task is deferred until %s" [current.deferUntil])
  activateFirstItem taskID env.now
  let runID := env.newID 0
  insertAgentRun svc (newRun svc env runID taskID agent request.client)
    (trimSpace request.agentSessionKey) (env.newID 1)
  let count ← bumpTask taskID request.expectedVersion (fun _ => true) fun task =>
    { task with status := .active, owner := agent, updatedAt := env.now, completedAt := none }
  (if count ≠ 1 then lostVersionRace taskID request.expectedVersion else pure ())
  insertEvent
    { id := env.newID 2
      taskID := taskID
      runID := runID
      kind := "task.claimed"
      actor := agent
      message := "Task claimed"
      payload := mergePayload
        [("status", .text "active"), ("version", .number (request.expectedVersion + 1))]
        (idempotencyPayload "task_claim" request.idempotencyKey hash)
      createdAt := env.now }

/-- **Claiming a task.** The task is at the expected version and not over; it becomes active
under its next version, and a run on it is added with an event that names both. -/
theorem claimTx_ok {taskID : String} {request : ClaimRequest}
    (h : (claimTx svc env taskID request agent hash).run db = .ok (u, db')) :
    ∃ current sessionID callsign event,
      db.task? taskID = some current ∧ current.version = request.expectedVersion ∧
      current.status.terminal = false ∧
      (db.tasks.filter (bumps taskID request.expectedVersion fun _ => true)).length = 1 ∧
      (∀ row ∈ db.runs, row.id ≠ env.newID 0) ∧
      event.taskID = taskID ∧ event.runID = env.newID 0 ∧ event.actor = agent ∧
      event.payload = mergePayload
        [("status", .text "active"), ("version", .number (request.expectedVersion + 1))]
        (idempotencyPayload "task_claim" request.idempotencyKey hash) ∧
      Aside { db with
        tasks := mapWhere (bumps taskID request.expectedVersion fun _ => true)
          (fun task => { task with
            status := .active, owner := agent, updatedAt := env.now, completedAt := none,
            version := task.version + 1 }) db.tasks
        runs := db.runs ++ [{ newRun svc env (env.newID 0) taskID agent request.client with
          sessionID, callsign }]
        events := db.events ++ [event] } db' := by
  simp only [claimTx, run_loadTask_bind_ok, Tx.run_refuse_bind_ok, Tx.run_select_bind_ok] at h
  obtain ⟨current, hcurrent, hversion, -, hterminal, -, -, h⟩ := h
  obtain ⟨_, db1, hitem, h⟩ := Tx.run_bind_ok.mp h
  obtain ⟨_, rfl⟩ := onItems_activateFirstItem.run hitem
  obtain ⟨_, db2, hrun, h⟩ := Tx.run_bind_ok.mp h
  obtain ⟨sessionID, callsign, -, hnew, _, _, rfl⟩ := insertAgentRun_ok hrun
  rw [run_bumpTask_bind_ok, Tx.run_bind_ok] at h
  obtain ⟨_, db3, hcount, h⟩ := h
  obtain ⟨-, -, rfl⟩ := run_insertEvent_ok.mp h
  simp only [Tx.run_ite_ok, run_lostVersionRace_ok, Tx.run_pure_ok, and_false, false_or, ne_eq,
    not_not] at hcount
  obtain ⟨hone, -, rfl⟩ := hcount
  exact ⟨current, sessionID, callsign, _, hcurrent, not_not.mp hversion,
    Bool.eq_false_iff.mpr hterminal, hone, hnew, rfl, rfl, rfl, rfl, _, _, _, _, rfl⟩

/-- `Claim`. -/
def claim (svc : Service) (env : Env) (taskID : String) (request : ClaimRequest)
    (actor : String) (hash : Option Digest) : CallM (TaskView × AgentRun) := do
  let taskID := trimSpace taskID
  refuse (taskID = "" ∨ request.expectedVersion < 1)
    (ErrValidation "task_id and expected_version are required")
  let agent :=
    if trimSpace request.agent = "" then defaultActor actor "unassigned"
    else trimSpace request.agent
  refuse (200 < byteLen (trimSpace request.agentSessionKey))
    (ErrValidation "agent_session_key is limited to 200 characters")
  Call.tx (claimTx svc env taskID request agent hash)
  let task ← getTask svc env.now taskID
  match task.runs.find? fun run => run.id = env.newID 0 with
  | some run => pure (task, run)
  | none => Call.fail .notFound

/-- What `claimFor` checks of the task before it claims it. -/
def checkClaim (task : TaskView) (principal : Principal) : Except ServiceError Unit := do
  (match task.duplicateLink with
  | some link => .error (duplicateClaimError link.taskID)
  | none => pure ())
  refuse (task.status ≠ .queued ∧ task.status ≠ .stale)
    (ErrValidation "only queued or stale work can be claimed")
  refuse (principal.operator = "" ∧ task.visibility = .team ∧ task.owner ≠ "" ∧
    task.owner ≠ principal.id) ErrForbidden

/-- What `claimFor` checks of the worker. -/
def checkWorker (task : TaskView) (principal : Principal) (now : Instant) : CallM Unit := do
  let advertisement ← Call.look fun db => db.getWorkerAdvertisement principal.id now
  refuse (!workerMatches task.requirements (advertisement.elim [] (·.capabilities)))
    (ErrValidation "worker is missing operational requirements")
  let capacity := advertisement.elim 0 (·.capacity)
  if 0 < capacity then
    let active ← Call.look fun db => (db.runs.filter fun run =>
      run.agent = principal.id ∧ run.endedAt = none ∧ run.status = .active).length
    refuse (capacity ≤ active)
      (ServiceError.rateLimit "advertised worker capacity is full" capacity)
  else pure ()

/-- What `claimFor` does once its key is not a replay. -/
def claimUnkeyed (svc : Service) (env : Env) (taskID : String) (request : ClaimRequest)
    (principal : Principal) (hash : Digest) : CallM (TaskView × AgentRun) := do
  let task ← getForHidden svc env.checked taskID principal
  checkClaim task principal
  checkWorker task principal env.checked
  enforceAgentPickupLimits svc principal env.checked
  claim svc env taskID request principal.id (some hash)

/-- `claimFor`. -/
def claimFor (svc : Service) (env : Env) (taskID : String) (request : ClaimRequest)
    (principal : Principal) : CallM (TaskView × AgentRun) := do
  refuse (!principal.hasCapability .taskClaim) ErrForbidden
  let request := { request with agent := principal.id }
  Call.holding .pickup
    (keyed svc (request.idempotencyKey ≠ "") principal "task_claim" request.idempotencyKey
      (.claim taskID request) (replayedRun svc env principal)
      (claimUnkeyed svc env taskID request principal (.claim taskID request)))

section Claim

variable {taskID : String} {request : ClaimRequest}

theorem sameRequirements_claimTx :
    (claimTx svc env taskID request agent hash).Each SameRequirements := by
  refine Tx.each_selectOr_bind fun _ => ?_
  refine Tx.each_lift_bind fun _ => ?_
  refine Tx.each_lift_bind fun _ => ?_
  refine Tx.each_lift_bind fun _ => ?_
  refine Tx.each_select_bind fun _ => ?_
  refine Tx.each_lift_bind fun _ => ?_
  refine Tx.each_lift_bind fun _ => ?_
  refine Tx.each_bind (onItems_activateFirstItem.mono fun _ _ => OnItems.sameRequirements)
    fun _ => ?_
  refine Tx.each_bind sameRequirements_insertAgentRun fun _ => ?_
  refine Tx.each_bind (Table.each_updateWhere fun _ => rfl) fun _ => ?_
  refine Tx.each_bind (Tx.each_ite (Tx.each_selectOr _) (Tx.each_pure _)) fun _ => ?_
  exact Table.each_insert fun _ => rfl

theorem lively_claimTx (h : (claimTx svc env taskID request agent hash).run db = .ok r):
    Lively [.items] (Event.Under "task_claim") db r.2 := by
  obtain ⟨_, _, _, event, -, -, -, -, -, -, -, -, hpayload, haside⟩ := claimTx_ok h
  exact Footprint.of_aside haside (.of_forall₂ (forall₂_mapWhere fun _ _ _ => rfl))
    (evolves_append fun _ => rfl)
    (evolves_append (Event.under_merge (by simp [Payload.Keyless]) hpayload))
    (fun _ => map_mapWhere fun _ => rfl) fun _ => sameRequirements_claimTx.run h

theorem each_claim :
    (claim svc env taskID request actor hash).Each (Lively [.items] (Event.Under "task_claim")) := by
  refine Call.each_lift_bind fun _ _ => ?_
  refine Call.each_lift_bind fun _ _ => ?_
  refine Call.each_bind (Call.each_tx fun _ _ => lively_claimTx) fun _ => ?_
  refine Call.each_bind quiet_getTask.each fun task => ?_
  split
  · exact (Call.quiet_pure _).each
  · exact (Call.quiet_fail _).each

theorem quiet_checkWorker :
    (checkWorker task principal now).Quiet := by
  refine Call.quiet_bind (Call.quiet_look _) fun _ => ?_
  refine Call.quiet_lift_bind fun _ => ?_
  refine Call.quiet_ite ?_ (Call.quiet_pure _)
  exact Call.quiet_bind (Call.quiet_look _) fun _ => Call.quiet_lift _

theorem each_claimUnkeyed {hash : Digest} :
    (claimUnkeyed svc env taskID request principal hash).Each
      (Lively [.items] (Event.Under "task_claim")) := by
  refine Call.each_bind quiet_getForHidden.each fun task => ?_
  refine Call.each_lift_bind fun _ _ => ?_
  refine Call.each_bind quiet_checkWorker.each fun _ => ?_
  exact Call.each_bind quiet_enforceAgentPickupLimits.each fun _ => each_claim

theorem each_claimFor :
    (claimFor svc env taskID request principal).Each (Lively [.items] (Event.Under "task_claim")) := by
  refine Call.each_lift_bind fun _ _ => ?_
  exact Call.each_holding (each_keyed (fun _ => quiet_replayedRun.each) each_claimUnkeyed)

theorem checkClaim_ok (h : checkClaim task principal = .ok u) :
    task.duplicateLink = none ∧ task.status.claimable = true := by
  simp only [checkClaim, Except.bind_ok_iff, refuse_ok_iff] at h
  obtain ⟨_, hlink, _, hstatus, -⟩ := h
  constructor
  · split at hlink
    · cases hlink
    · assumption
  · simp only [TaskStatus.claimable]
    simp
    tauto

/-- The claim of a task in a claimable status, at the version it is sent for. -/
def Claims (svc : Service) (env : Env) (taskID : String) (db db' : Db) : Prop :=
  ∃ task checked agent hash u, db.task? (trimSpace taskID) = some task ∧
    task.status.claimable = true ∧
    (claimTx svc env (trimSpace taskID) checked agent hash).run db = .ok (u, db')

/-- What `claimFor` does where it does anything: one transaction, on a task in a status in
which it may be claimed. -/
theorem atMost_claimFor :
    (claimFor svc env taskID request principal).AtMost (Claims svc env taskID) := by
  refine Call.atMost_lift_bind fun _ _ => Call.atMost_holding ?_
  refine atMost_keyed (fun _ => quiet_replayedRun) ?_
  refine Call.atMost_bind_seen quiet_getForHidden (fun _ _ h => (getForHidden_ok h).1)
    fun task => ?_
  refine Call.atMost_lift_bind fun _ hcheck => ?_
  refine Call.atMost_bind_quiet quiet_checkWorker fun _ => ?_
  refine Call.atMost_bind_quiet quiet_enforceAgentPickupLimits fun _ => ?_
  refine Call.atMost_lift_bind fun _ _ => ?_
  refine Call.atMost_lift_bind fun _ _ => ?_
  refine Call.atMost_then_quiet ((Call.atMost_tx _).mono ?_) fun _ => ?_
  · rintro db db' ⟨u, hrun⟩ htask
    exact ⟨task.toTask, _, _, _, u, htask, (checkClaim_ok hcheck).2, hrun⟩
  · refine Call.quiet_bind quiet_getTask fun task => ?_
    split
    · exact Call.quiet_pure _
    · exact Call.quiet_fail _

theorem replayedRun_ok (h : (replayedRun svc env principal event).exec db = (.ok (view, run), db')):
    ∃ row ∈ db.runs, row.id = run.id := by
  obtain ⟨task, htask, h⟩ := Call.exec_bind_quiet_ok quiet_getForHidden h
  obtain ⟨-, hruns, -, -⟩ := getForHidden_ok htask
  split at h
  · rename_i found hfound
    simp only [Call.exec_pure, Prod.mk.injEq, Except.ok.injEq] at h
    obtain ⟨⟨-, rfl⟩, -⟩ := h
    obtain ⟨row, hrow, -, hsame⟩ := mem_listRuns.mp (hruns ▸ List.mem_of_find?_eq_some hfound)
    exact ⟨row, hrow, by rw [hsame, withCallsign_id]⟩
  · cases (Prod.mk.inj h).1

/-- A claim that succeeded with a new run. -/
theorem claimFor_ok
    (h : (claimFor svc env taskID request principal).exec db = (.ok (view, run), db'))
    (hnew : ∀ row ∈ db.runs, row.id ≠ run.id) :
    view.id = trimSpace taskID ∧ run.id = env.newID 0 ∧ Claims svc env taskID db db' := by
  obtain ⟨_, -, h⟩ := Call.exec_lift_bind_ok h
  rw [Call.exec_holding] at h
  rcases exec_keyedAs_ok h with ⟨event, -, hanswer⟩ | ⟨-, h⟩
  · obtain ⟨row, hrow, hid⟩ := replayedRun_ok hanswer
    exact absurd hid (hnew row hrow)
  obtain ⟨task, htask, h⟩ := Call.exec_bind_quiet_ok quiet_getForHidden h
  obtain ⟨_, hcheck, h⟩ := Call.exec_lift_bind_ok h
  obtain ⟨_, -, h⟩ := Call.exec_bind_quiet_ok quiet_checkWorker h
  obtain ⟨_, -, h⟩ := Call.exec_bind_quiet_ok quiet_enforceAgentPickupLimits h
  obtain ⟨_, -, h⟩ := Call.exec_lift_bind_ok h
  obtain ⟨_, -, h⟩ := Call.exec_lift_bind_ok h
  obtain ⟨_, db1, htx, h⟩ := Call.exec_bind_ok h
  obtain ⟨after, hafter, h⟩ := Call.exec_bind_quiet_ok quiet_getTask h
  obtain ⟨u, hrun, -⟩ | ⟨e, -, he, -⟩ := Call.exec_tx_cases htx
  · split at h
    · rename_i found hfound
      simp only [Call.exec_pure, Prod.mk.injEq, Except.ok.injEq] at h
      obtain ⟨⟨rfl, rfl⟩, rfl⟩ := h
      simp only [Call.exec_lift, Prod.mk.injEq, and_true] at hcheck
      refine ⟨(mem_of_task? (getTask_ok hafter).1).2, by simpa using List.find?_some hfound,
        task.toTask, _, _, _, u, (getForHidden_ok htask).1, (checkClaim_ok hcheck).2, hrun⟩
    · cases (Prod.mk.inj h).1
  · cases he

end Claim

end Taskboard
