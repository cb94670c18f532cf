import Taskboard.Delivery

/-!
# Messages and escalations

The message thread of a task, and escalations: questions of a run that a person answers.
A blocking escalation ends its run and leaves the task waiting; the answer puts the task
back into the queue.
-/

namespace Taskboard

variable {checked : CreateEscalationRequest} {now : Instant} {current : Task}
  {escalation : TaskEscalation} {message : TaskMessage} {u : Unit}

variable {db db' : Db} {ev : Event → Prop}

variable {lg : List Ledger}

section

variable {tk : List Task → List Task → Prop} {rn : List AgentRun → List AgentRun → Prop}
  {svc : Service} {env : Env} {taskID : String} {principal : Principal}

/-- `InsertTaskMessage`, with its foreign keys and the unique index on `supersedes_id`. -/
def insertTaskMessage (message : TaskMessage) : TxM Unit := do
  let superseded ← Tx.select fun db => message.supersedesID ≠ "" &&
    db.messages.any fun row => row.supersedesID = message.supersedesID
  refuse superseded (ServiceError.conflict "message was already superseded")
  messageTable.insert message
    (fun db => (db.task? message.taskID).isSome && db.hasRun message.authorRunID &&
      db.hasRun message.targetRunID)
    (.database "insert message")

theorem each_insertTaskMessage [Std.Refl tk] [Std.Refl rn]
    : (insertTaskMessage message).Each (Footprint lg tk rn ev) := by
  refine Tx.each_select_bind fun _ => ?_
  refine Tx.each_lift_bind fun _ => ?_
  exact Table.each_insertFresh fun db hfresh =>
    { Footprint.refl lg tk rn ev db with messages := appends_row hfresh }

/-- A committed message is a new row; nothing else changes. -/
theorem run_insertTaskMessage_ok (h : (insertTaskMessage message).run db = .ok (u, db')):
    (∀ row ∈ db.messages, row.id ≠ message.id) ∧
      db' = { db with messages := db.messages ++ [message] } := by
  simp only [insertTaskMessage, Tx.run_bind_ok, Tx.run_select_ok, Tx.run_lift_ok,
    Table.run_insert_ok, messageTable] at h
  obtain ⟨_, _, ⟨-, rfl⟩, _, _, ⟨-, rfl⟩, -, hfresh, rfl⟩ := h
  exact ⟨by simpa using hfresh, rfl⟩

/-- `GetTaskMessage`. -/
def getTaskMessage (id : String) : CallM TaskMessage :=
  Call.lookOr fun db => found (db.messages.find? fun row => row.id = id)

/-- The request as `AddMessageFor` cleans it. -/
def AddMessageRequest.clean (request : AddMessageRequest) : AddMessageRequest :=
  { request with
    authorRunID := trimSpace request.authorRunID
    targetRunID := trimSpace request.targetRunID
    replyToID := trimSpace request.replyToID
    supersedesID := trimSpace request.supersedesID
    body := trimSpace request.body
    requiresAck := request.requiresAck || request.kind = "instruction" }

/-- The checks of `AddMessageFor` on the request alone, before it fills in
`requires_ack`. -/
def validateMessage (request : AddMessageRequest) (principal : Principal) :
    Except ServiceError MessageKind := do
  let body := trimSpace request.body
  let authorRunID := trimSpace request.authorRunID
  let some kind := MessageKind.ofString? request.kind
    | .error (ErrValidation "unknown message kind")
  refuse (body = "" ∨ 4000 < byteLen body)
    (ErrValidation "message body must contain 1-4000 characters")
  refuse (principal.agent ∧ (authorRunID = "" ∨ trimSpace request.targetRunID ≠ "" ∨
      request.requiresAck ∨ kind = .instruction))
    (ErrValidation "agent messages require author_run_id and cannot target a run, require acknowledgement, or issue instructions")
  refuse (!principal.agent ∧ authorRunID ≠ "")
    (ErrValidation "human messages cannot claim an author run")
  pure kind

/-- The checks of `AddMessageFor` on the task and the run. -/
def checkMessage (task : TaskView) (request : AddMessageRequest) (principal : Principal)
    (now : Instant) : Except ServiceError Unit := do
  if principal.agent then
    refuse (!canMutate task.toTask principal) ErrForbidden
    refuse ((activeOwnedRun task.runs request.authorRunID principal.id).all fun run => run.id = "")
      (ErrValidation "author run is not active for this agent")
    refuse (!principal.hasCapability .taskMessage &&
        !holdsLease task.runs request.authorRunID principal now)
      (missingCapability "task:message" "message a task whose lease the run does not hold")
  else
    refuse (request.targetRunID ≠ "" ∧ activeTaskRun task.runs request.targetRunID = none)
      (ErrValidation "target run is not active")

/-- A message that another one replies to or replaces must be on the same task. -/
def checkLinkedMessage (taskID name id : String) (also : TaskMessage → Except ServiceError Unit) :
    TxM Unit :=
  if id = "" then pure ()
  else Tx.selectOr fun db =>
    match db.messages.find? fun row => row.id = id with
    | none => .error (.validation "%s does not reference this task" [name])
    | some linked =>
        if linked.taskID ≠ taskID then
          .error (.validation "%s does not reference this task" [name])
        else also linked

/-- The transaction of `AddMessageFor`. -/
def addMessageTx (env : Env) (taskID : String) (kind : MessageKind)
    (request : AddMessageRequest) (principal : Principal) : TxM TaskMessage := do
  checkLinkedMessage taskID "reply_to_id" request.replyToID fun _ => .ok ()
  checkLinkedMessage taskID "supersedes_id" request.supersedesID fun linked =>
    refuse (linked.author ≠ principal.id)
      (ErrValidation "a message can only supersede the same author's message")
  let message : TaskMessage :=
    { id := env.newID 0
      taskID := taskID
      author := principal.id
      authorRunID := request.authorRunID
      targetRunID := request.targetRunID
      kind := kind
      body := request.body
      replyToID := request.replyToID
      supersedesID := request.supersedesID
      requiresAck := request.requiresAck
      createdAt := env.now }
  insertTaskMessage message
  insertEvent
    { id := env.newID 1
      taskID := taskID
      runID := request.authorRunID
      kind := "task.message_added"
      actor := principal.id
      message := "Task message added"
      payload := mergePayload
        [("message_id", .text message.id), ("kind", .text kind.toString),
          ("target_run_id", .text message.targetRunID),
          ("requires_ack", .flag message.requiresAck)]
        (idempotencyPayload "task_message_add" request.idempotencyKey
          (some (.addMessage taskID request)))
      createdAt := env.now }
  pure message

/-- What `AddMessageFor` checks before it looks its key up; the result is the kind of the
message and the task. -/
def mayAddMessage (svc : Service) (env : Env) (taskID : String) (request : AddMessageRequest)
    (principal : Principal) : CallM (MessageKind × String) := do
  refuse (!principal.agent && !principal.can .taskMessage) ErrForbidden
  let kind ← validateMessage request principal
  let task ← getForHidden svc env.checked taskID principal
  checkMessage task request.clean principal env.checked
  pure (kind, task.id)

/-- `AddMessageFor`. -/
def addMessageFor (svc : Service) (env : Env) (taskID : String)
    (request : AddMessageRequest) (principal : Principal) : CallM TaskMessage := do
  let (kind, taskID) ← mayAddMessage svc env taskID request principal
  let request := request.clean
  keyed svc (principal.agent || request.idempotencyKey ≠ "") principal "task_message_add"
    request.idempotencyKey (.addMessage taskID request)
    (fun event => getTaskMessage (Payload.text event.payload "message_id"))
    (Call.tx (addMessageTx env taskID kind request principal))

section Message

variable {kind : MessageKind} {request : AddMessageRequest}

theorem quiet_mayAddMessage : (mayAddMessage svc env taskID request principal).Quiet := by
  refine Call.quiet_lift_bind fun _ => ?_
  refine Call.quiet_lift_bind fun _ => ?_
  refine Call.quiet_bind quiet_getForHidden fun _ => ?_
  exact Call.quiet_lift_bind fun _ => Call.quiet_pure _

theorem each_checkLinkedMessage {R : Db → Db → Prop} {name id : String}
    {also : TaskMessage → Except ServiceError Unit} :
    (checkLinkedMessage taskID name id also).Each R := by
  unfold checkLinkedMessage
  exact Tx.each_ite (Tx.each_pure _) (Tx.each_selectOr _)

theorem each_addMessageTx [Std.Refl tk] [Std.Refl rn] :
    (addMessageTx env taskID kind request principal).Each
      (Footprint lg tk rn (Event.Under "task_message_add")) := by
  refine Tx.each_bind each_checkLinkedMessage fun _ => ?_
  refine Tx.each_bind each_checkLinkedMessage fun _ => ?_
  refine Tx.each_bind each_insertTaskMessage fun _ => ?_
  exact Tx.each_bind (Footprint.each_insertEvent
    (Event.under_merge (by simp [Payload.Keyless]) rfl)) fun _ => Tx.each_pure _

theorem each_addMessageFor [IsPreorder _ tk] [IsPreorder _ rn] :
    (addMessageFor svc env taskID request principal).Each
      (Footprint lg tk rn (Event.Under "task_message_add")) :=
  Call.each_bind quiet_mayAddMessage.each fun _ =>
    each_keyed (fun _ => (Call.quiet_lookOr _).each) (Call.each_tx fun _ _ => each_addMessageTx.run)

end Message

/-- `validPersonID`. -/
def validPersonID (value : String) : Bool :=
  value ≠ "" && byteLen value ≤ 200 &&
    (value.toList.all fun c => c ≠ ' ' && c ≠ '\t' && c ≠ '\r' && c ≠ '\n') &&
    !"agent:".toList.isPrefixOf value.toList &&
    !"cloudflare_access:service_token:".toList.isPrefixOf value.toList

/-- `normalizeAnswerers`. -/
def normalizeAnswerers (values : List String) : Except ServiceError (List String) := do
  refuse (20 < values.length) (ErrValidation "answerers are limited to 20")
  let values := values.map trimSpace
  refuse (∃ value ∈ values, validPersonID value = false)
    (ErrValidation "answerers must be person principal IDs")
  pure (unique values)

/-- The request as `CreateEscalationFor` cleans it, apart from the answerers. -/
def CreateEscalationRequest.clean (request : CreateEscalationRequest) :
    CreateEscalationRequest :=
  { request with
    runID := trimSpace request.runID
    question := trimSpace request.question
    recommendation := trimSpace request.recommendation
    options := request.options.map trimSpace }

/-- The checks of `CreateEscalationFor` on the request alone; the result has the
answerers normalized. -/
def validateEscalation (svc : Service) (taskID : String) (request : CreateEscalationRequest) :
    Except ServiceError CreateEscalationRequest := do
  refuse (taskID = "" ∨ request.runID = "" ∨ request.expectedVersion < 1)
    (ErrValidation "task_id, run_id, and expected_version are required")
  refuse (request.question = "" ∨ 4000 < byteLen request.question)
    (ErrValidation "question must contain 1-4000 characters")
  refuse (1000 < byteLen request.recommendation ∨ 10 < request.options.length)
    (ErrValidation "recommendation is limited to 1000 characters and choices to 10")
  refuse ((∃ choice ∈ request.options, choice = "" ∨ 200 < byteLen choice) ∨
      ¬ (request.options.map svc.unicode.lower).Nodup)
    (ErrValidation "choices must be unique and contain 1-200 characters")
  let answerers ← normalizeAnswerers request.answerers
  refuse (request.expiresIn ≠ 0 ∧ (request.expiresIn < 60 ∨ 604800 < request.expiresIn))
    (ErrValidation "expires_in_seconds must be between 60 and 604800")
  pure { request with answerers }

/-- The checks of `CreateEscalationFor` on the task and the run. -/
def checkEscalation (task : TaskView) (request : CreateEscalationRequest)
    (principal : Principal) (now : Instant) : Except ServiceError Unit := do
  refuse (!canMutate task.toTask principal) ErrForbidden
  refuse (activeOwnedRun task.runs request.runID principal.id = none)
    (ErrValidation "escalation requires this agent's active run")
  refuse ((!principal.hasCapability .taskEscalate || !principal.hasCapability .taskMessage) &&
      !holdsLease task.runs request.runID principal now)
    (missingCapability "task:escalate and task:message"
      "escalate a task whose lease the run does not hold")

/-- `InsertTaskEscalation`. A question belongs to one escalation. -/
def insertTaskEscalation (escalation : TaskEscalation) : TxM Unit :=
  escalationTable.insert escalation
    (fun db => (db.task? escalation.taskID).isSome &&
      (db.runs.any fun run => run.id = escalation.runID) &&
      (db.messages.any fun row => row.id = escalation.questionMessageID) &&
      db.escalations.all fun row => row.questionMessageID ≠ escalation.questionMessageID)
    (.database "insert escalation")

/-- An escalation as it reads at `now`: one left open past its time has expired. -/
def TaskEscalation.seenAt (escalation : TaskEscalation) (now : Instant) : TaskEscalation :=
  if escalation.status = .open ∧ escalation.expiresAt.any (fun expires => expires ≤ now) then
    { escalation with status := .expired }
  else escalation

/-- `GetTaskEscalation`. -/
def getTaskEscalation (now : Instant) (id : String) : CallM TaskEscalation :=
  Call.lookOr fun db =>
    found ((db.escalations.find? fun row => row.id = id).map (·.seenAt now))

/-- The part of a blocking escalation that ends the run and leaves the task waiting. -/
def blockOnEscalation (env : Env) (taskID : String) (current : Task)
    (request : CreateEscalationRequest) : TxM Unit := do
  let ended ← endActiveRun request.runID (fun run => run.taskID = taskID) .waiting env.now
  refuse (ended ≠ 1) ErrConflict
  let count ← bumpTask taskID current.version (fun task => task.status = .active) fun task =>
    { task with
      status := .waiting
      waitingFor := clipped request.question 1000
      updatedAt := env.now }
  refuse (count ≠ 1) ErrConflict

/-- The transaction of `CreateEscalationFor`. -/
def createEscalationTx (env : Env) (taskID : String) (request : CreateEscalationRequest)
    (principal : Principal) : TxM TaskEscalation := do
  let current ← loadTask taskID
  refuse (current.version ≠ request.expectedVersion ∨ current.status ≠ .active) ErrConflict
  let active ← Tx.select fun db => db.activeRuns request.runID taskID principal.id
  refuse (active ≠ 1) (ErrValidation "escalation requires this agent's active run")
  let question : TaskMessage :=
    { id := env.newID 0
      taskID := taskID
      author := principal.id
      authorRunID := request.runID
      kind := .question
      body := request.question
      createdAt := env.now }
  insertTaskMessage question
  let escalation : TaskEscalation :=
    { id := env.newID 1
      taskID := taskID
      runID := request.runID
      questionMessageID := question.id
      blocking := request.blocking
      options := request.options
      recommendation := request.recommendation
      status := .open
      answerers := request.answerers
      expiresAt :=
        if 0 < request.expiresIn then some (env.now + request.expiresIn * second) else none
      createdAt := env.now }
  insertTaskEscalation escalation
  (if request.blocking then blockOnEscalation env taskID current request else pure ())
  let status : TaskStatus := if request.blocking then .waiting else .active
  let version := if request.blocking then current.version + 1 else current.version
  insertEvent
    { id := env.newID 2
      taskID := taskID
      runID := request.runID
      kind := "task.escalated"
      actor := principal.id
      message := "Agent requested a decision"
      payload := mergePayload
        [("escalation_id", .text escalation.id), ("question_message_id", .text question.id),
          ("blocking", .flag request.blocking), ("status", .text status.toString),
          ("version", .number version)]
        (idempotencyPayload "task_escalation_create" request.idempotencyKey
          (some (.createEscalation taskID request)))
      createdAt := env.now }
  pure escalation

/-- What `CreateEscalationFor` checks before it looks its key up; the result is the request
as it goes on with it. -/
def mayEscalate (svc : Service) (env : Env) (taskID : String)
    (request : CreateEscalationRequest) (principal : Principal) :
    CallM CreateEscalationRequest := do
  refuse (!principal.agent) ErrForbidden
  let request ← validateEscalation svc taskID request.clean
  let task ← getForHidden svc env.checked taskID principal
  checkEscalation task request principal env.checked
  pure request

/-- `CreateEscalationFor`. -/
def createEscalationFor (svc : Service) (env : Env) (taskID : String)
    (request : CreateEscalationRequest) (principal : Principal) : CallM TaskEscalation := do
  let taskID := trimSpace taskID
  let request ← mayEscalate svc env taskID request principal
  keyed svc true principal "task_escalation_create"
    request.idempotencyKey (.createEscalation taskID request)
    (fun event => getTaskEscalation env.now (Payload.text event.payload "escalation_id"))
    (Call.tx (createEscalationTx env taskID request principal))

section Escalation

variable {request : CreateEscalationRequest}

theorem quiet_mayEscalate : (mayEscalate svc env taskID request principal).Quiet := by
  refine Call.quiet_lift_bind fun _ => ?_
  refine Call.quiet_lift_bind fun _ => ?_
  refine Call.quiet_bind quiet_getForHidden fun _ => ?_
  exact Call.quiet_lift_bind fun _ => Call.quiet_pure _

/-- Only the answerers are not taken over as they were sent. -/
theorem validateEscalation_ok (h : validateEscalation svc taskID request = .ok checked):
    checked.idempotencyKey = request.idempotencyKey ∧ checked.blocking = request.blocking ∧
      checked.runID = request.runID ∧ checked.expectedVersion = request.expectedVersion ∧
      checked.question = request.question ∧ request.question ≠ "" := by
  simp only [validateEscalation, Except.bind_ok_iff, refuse_ok_iff, not_or] at h
  obtain ⟨_, -, _, hquestion, _, -, _, -, answerers, -, _, -, h⟩ := h
  cases h
  exact ⟨rfl, rfl, rfl, rfl, rfl, hquestion.1⟩

theorem each_insertTaskEscalation [Std.Refl tk] [Std.Refl rn]:
    (insertTaskEscalation escalation).Each (Footprint [.escalations] tk rn ev) :=
  Table.each_insert fun db =>
    { Footprint.refl [.escalations] tk rn ev db with
      escalations := evolves_append trivial
      sameEscalations := fun h => absurd List.mem_cons_self h }

/-- Blocking ends the run and leaves the task waiting. -/
theorem each_blockOnEscalation :
    (blockOnEscalation env taskID current request).Each (Calm lg ev) := by
  refine Tx.each_bind each_endActiveRun fun _ => ?_
  refine Tx.each_lift_bind fun _ => ?_
  refine Tx.each_bind (Footprint.each_bumpTask fun task => ?_) fun _ => Tx.each_lift _
  exact ⟨rfl, Or.inr rfl⟩

theorem each_createEscalationTx :
    (createEscalationTx env taskID request principal).Each
      (Calm [.escalations] (Event.Under "task_escalation_create")) := by
  refine Tx.each_selectOr_bind fun _ => ?_
  refine Tx.each_lift_bind fun _ => ?_
  refine Tx.each_select_bind fun _ => ?_
  refine Tx.each_lift_bind fun _ => ?_
  refine Tx.each_bind each_insertTaskMessage fun _ => ?_
  refine Tx.each_bind each_insertTaskEscalation fun _ => ?_
  refine Tx.each_bind (Tx.each_ite each_blockOnEscalation (Tx.each_pure _)) fun _ => ?_
  exact Tx.each_bind (Footprint.each_insertEvent
    (Event.under_merge (by simp [Payload.Keyless]) rfl)) fun _ => Tx.each_pure _

theorem run_blockOnEscalation_ok
    (h : (blockOnEscalation env taskID current request).run db = .ok (u, db'))
    (hcurrent : db.task? taskID = some current) (hactive : current.status = .active)
    (hquestion : trimSpace request.question ≠ "") :
    ∃ tasks runs, List.Forall₂ (Task.Shifts current .waiting) db.tasks tasks ∧
      db' = { db with tasks, runs } := by
  simp only [blockOnEscalation, endActiveRun, Tx.run_bind_ok, Table.run_updateWhere_ok,
    Tx.run_lift_ok, run_bumpTask_ok, refuse_ok_iff, ne_eq, not_not, runTable] at h
  obtain ⟨_, _, ⟨-, rfl⟩, _, _, ⟨-, rfl⟩, _, _, ⟨hone, rfl⟩, rfl, rfl⟩ := h
  obtain ⟨hmem, hid⟩ := mem_of_task? hcurrent
  refine ⟨_, _, ?_, rfl⟩
  refine shifts_bumped hone.symm hmem (by simp [bumps, hid, hactive])
    (fun _ => ⟨rfl, rfl, rfl, rfl, rfl, rfl⟩) (fun hp => ?_)
    ⟨(fun hblocked => by cases hblocked), fun _ => ?_⟩
  · have hne : current.status ≠ .blocked ∧ current.status.terminal = false := by
      simp [hactive, TaskStatus.terminal]
    exact hp.next rfl rfl (fun _ => hp.blocker hne.1) (fun hwaiting => absurd rfl hwaiting)
      (fun _ => hp.completedAt hne.2) Bool.noConfusion
  · dsimp only
    exact clipped_ne 1000 hquestion

/-- A committed escalation is a new row with its question, and with an event that names it
under the key. -/
theorem createEscalationTx_ok (hquestion : trimSpace request.question ≠ "")
    (h : (createEscalationTx env taskID request principal).run db = .ok (escalation, db')) :
    ∃ event question tasks runs,
      (request.idempotencyKey ≠ "" → event.KeyedBy principal.id "task_escalation_create"
        request.idempotencyKey (some (.createEscalation taskID request))) ∧
      Payload.text event.payload "escalation_id" = escalation.id ∧
      (∀ row ∈ db.escalations, row.id ≠ escalation.id) ∧
      escalation.taskID = taskID ∧ escalation.blocking = request.blocking ∧
      (request.blocking = false ∧ tasks = db.tasks ∨
        request.blocking = true ∧ ∃ current, db.task? taskID = some current ∧
          current.status = .active ∧
          List.Forall₂ (Task.Shifts current .waiting) db.tasks tasks) ∧
      db' = { db with
        tasks, runs
        messages := db.messages ++ [question]
        escalations := db.escalations ++ [escalation]
        events := db.events ++ [event] } := by
  simp only [createEscalationTx, insertTaskEscalation, Tx.run_bind_ok, run_loadTask_ok,
    Tx.run_lift_ok, Tx.run_select_ok, Table.run_insert_ok, Tx.run_ite_ok, run_insertEvent_ok,
    Tx.run_pure_ok, escalationTable] at h
  obtain ⟨current, _, ⟨hcurrent, rfl⟩, _, _, ⟨hactive, rfl⟩, _, _, ⟨-, rfl⟩, _, _, ⟨-, rfl⟩, _, _,
    hmessage, _, _, ⟨-, hfresh, rfl⟩, _, _, hblock, _, _, ⟨-, -, rfl⟩, rfl, rfl⟩ := h
  obtain ⟨-, rfl⟩ := run_insertTaskMessage_ok hmessage
  have htext : ∀ version status, Payload.text (mergePayload
      [("escalation_id", .text (env.newID 1)), ("question_message_id", .text (env.newID 0)),
        ("blocking", .flag request.blocking), ("status", status), ("version", version)]
      (idempotencyPayload "task_escalation_create" request.idempotencyKey
        (some (.createEscalation taskID request)))) "escalation_id" = env.newID 1 := by
    intro version status
    rw [Payload.text_merge (by decide)]
    rfl
  simp only [refuse_ok_iff, not_or, not_not, ne_eq] at hactive
  rcases hblock with ⟨hblocking, hblock⟩ | ⟨hblocking, -, rfl⟩
  · obtain ⟨tasks, runs, htasks, rfl⟩ := run_blockOnEscalation_ok hblock hcurrent hactive.2 hquestion
    exact ⟨_, _, tasks, runs, fun hkey => Event.keyedBy_merge hkey rfl rfl, htext _ _,
      by simpa using hfresh, rfl, rfl,
      Or.inr ⟨hblocking, current, hcurrent, hactive.2, htasks⟩, rfl⟩
  · exact ⟨_, _, _, _, fun hkey => Event.keyedBy_merge hkey rfl rfl, htext _ _,
      by simpa using hfresh, rfl, rfl, Or.inl ⟨by simpa using hblocking, rfl⟩, rfl⟩

theorem each_createEscalationFor :
    (createEscalationFor svc env taskID request principal).Each
      (Calm [.escalations] (Event.Under "task_escalation_create")) :=
  Call.each_bind quiet_mayEscalate.each fun _ =>
    each_keyed (fun _ => (Call.quiet_lookOr _).each)
      (Call.each_tx fun _ _ => each_createEscalationTx.run)

theorem mayEscalate_ok
    (h : (mayEscalate svc env taskID request principal).exec db = (.ok checked, db)) :
    checked.blocking = request.blocking ∧ trimSpace checked.question ≠ "" ∧
      checked.runID = trimSpace request.runID := by
  obtain ⟨_, -, h⟩ := Call.exec_lift_bind_ok h
  obtain ⟨valid, hvalid, h⟩ := Call.exec_lift_bind_ok h
  obtain ⟨_, -, h⟩ := Call.exec_bind_quiet_ok quiet_getForHidden h
  obtain ⟨_, -, h⟩ := Call.exec_lift_bind_ok h
  simp only [Call.exec_lift, Prod.mk.injEq, and_true] at hvalid
  simp only [Call.exec_pure, Prod.mk.injEq, Except.ok.injEq, and_true] at h
  obtain rfl := h
  obtain ⟨-, hblocking, hrun, -, hsame, hquestion⟩ := validateEscalation_ok hvalid
  refine ⟨hblocking, ?_, hrun⟩
  rw [hsame]
  simpa [CreateEscalationRequest.clean] using hquestion

/-- What `CreateEscalationFor` does where it does anything: one transaction. -/
theorem atMost_createEscalationFor :
    (createEscalationFor svc env taskID request principal).AtMost fun db db' =>
      ∃ checked escalation, (checked.blocking = request.blocking ∧
          trimSpace checked.question ≠ "" ∧ checked.runID = trimSpace request.runID) ∧
        (createEscalationTx env (trimSpace taskID) checked principal).run db =
          .ok (escalation, db') := by
  refine Call.atMost_bind_seen quiet_mayEscalate (fun _ _ => mayEscalate_ok) fun checked => ?_
  refine atMost_keyed (fun _ => Call.quiet_lookOr _) ?_
  exact (Call.atMost_tx _).mono fun _ _ ⟨escalation, h⟩ hseen => ⟨checked, escalation, hseen, h⟩

end Escalation

/-- The owner a task keeps when it goes back into the queue. -/
def Task.requeuedOwner (task : Task) : String :=
  if task.visibility = .agent then "" else task.owner

/-- The request as `resolveEscalation` cleans it: a chosen option is an answer. -/
def ResolveEscalationRequest.clean (request : ResolveEscalationRequest) :
    ResolveEscalationRequest :=
  let answer := trimSpace request.answer
  let selectedOption := trimSpace request.selectedOption
  { request with
    answer := if answer = "" then selectedOption else answer
    selectedOption }

/-- The transaction of `resolveEscalation`, with the escalation it has answered. -/
def resolveEscalationTx (env : Env) (taskID escalationID : String)
    (request : ResolveEscalationRequest) (principal : Principal) (delegatedBy : String)
    (hash : Digest) : TxM TaskEscalation := do
  let current ← loadTask taskID
  refuse (current.version ≠ request.expectedVersion) ErrConflict
  let escalation ← Tx.selectOr fun db =>
    match db.escalations.find? fun row => row.id = escalationID with
    | none => .error ServiceError.notFound
    | some row => if row.taskID = taskID then .ok (row.seenAt env.now) else .error .notFound
  refuse (escalation.status = .expired)
    (ErrValidation "escalation expired; the agent must ask again")
  refuse (escalation.status ≠ .open) ErrConflict
  refuse (escalation.answerers ≠ [] ∧ principal.id ∉ escalation.answerers)
    (ServiceError.forbidden "this escalation can only be answered by its named answerers" [])
  refuse (request.selectedOption ≠ "" ∧ request.selectedOption ∉ escalation.options)
    (ErrValidation "selected_option must match one of the escalation choices")
  refuse (escalation.blocking ∧ current.status ≠ .waiting)
    (ErrValidation "blocking escalation can only be answered while the task is waiting")
  let answer : TaskMessage :=
    { id := env.newID 0
      taskID := taskID
      author := principal.id
      kind := .answer
      body := request.answer
      replyToID := escalation.questionMessageID
      createdAt := env.now }
  insertTaskMessage answer
  let resolved ← escalationTable.updateWhere
    (fun _ row => row.id = escalationID && row.status = .open)
    fun row =>
      { row with
        answerMessageID := answer.id
        selectedOption := request.selectedOption
        status := .answered
        resolvedBy := principal.id
        delegatedBy := delegatedBy
        resolvedAt := some env.now }
  refuse (resolved ≠ 1) ErrConflict
  (if escalation.blocking then do
    let count ← bumpTask taskID current.version (fun task => task.status = .waiting)
      fun task =>
        { task with
          status := .queued
          owner := current.requeuedOwner
          waitingFor := ""
          lastEditedBy := principal.id
          updatedAt := env.now }
    refuse (count ≠ 1) ErrConflict
  else pure ())
  let status := if escalation.blocking then .queued else current.status
  let version := if escalation.blocking then current.version + 1 else current.version
  insertEvent
    { id := env.newID 1
      taskID := taskID
      runID := escalation.runID
      kind := "task.escalation_answered"
      actor := principal.id
      message := "Escalation answered"
      payload := mergePayload
        ([("escalation_id", .text escalation.id), ("answer_message_id", .text answer.id),
          ("blocking", .flag escalation.blocking), ("status", .text status.toString),
          ("version", .number version)] ++
          if delegatedBy ≠ "" then [("delegated_by", .text delegatedBy)] else [])
        (idempotencyPayload "task_escalation_resolve" request.idempotencyKey (some hash))
      createdAt := env.now }
  pure escalation

/-- `resolveEscalation`. -/
def resolveEscalation (svc : Service) (env : Env) (taskID escalationID : String)
    (request : ResolveEscalationRequest) (principal : Principal) (delegatedBy : String) :
    CallM TaskEscalation := do
  refuse (principal.agent || !principal.can .taskWrite) ErrForbidden
  let taskID := trimSpace taskID
  let escalationID := trimSpace escalationID
  let request := request.clean
  refuse (taskID = "" ∨ escalationID = "" ∨ request.expectedVersion < 1 ∨
      request.answer = "" ∨ 4000 < byteLen request.answer)
    (ErrValidation "task_id, escalation_id, expected_version, and a selected_option or a 1-4000 character answer are required")
  let task ← getForHidden svc env.checked taskID principal
  refuse (!canMutate task.toTask principal) ErrForbidden
  let hash : Digest := .resolveEscalation taskID escalationID delegatedBy request
  keyed svc (request.idempotencyKey ≠ "") principal "task_escalation_resolve"
    request.idempotencyKey hash
    (fun event => getTaskEscalation env.now (Payload.text event.payload "escalation_id"))
    (do
      let _ ← Call.tx
        (resolveEscalationTx env taskID escalationID request principal delegatedBy hash)
      getTaskEscalation env.now escalationID)

theorem loadEscalation_ok {escalationID : String} {seen : TaskEscalation}
    (h : (match db.escalations.find? fun row => row.id = escalationID with
      | none => .error ServiceError.notFound
      | some row => if row.taskID = taskID then .ok (row.seenAt now) else .error .notFound :
        Except ServiceError TaskEscalation) = .ok seen) :
    ∃ row, (db.escalations.find? fun row => row.id = escalationID) = some row ∧
      row.taskID = taskID ∧ seen = row.seenAt now := by
  split at h
  · cases h
  · rename_i row hrow
    split at h
    · exact ⟨row, hrow, ‹_›, (Except.ok.inj h).symm⟩
    · cases h

theorem TaskEscalation.seenAt_eq {row : TaskEscalation}
    (h : (row.seenAt now).status ≠ .expired) : row.seenAt now = row := by
  unfold TaskEscalation.seenAt at h ⊢
  split at h
  · exact absurd rfl h
  · rw [if_neg ‹_›]

section Resolve

variable {escalationID delegatedBy : String} {request : ResolveEscalationRequest}
  {hash : Digest}

theorem each_resolveEscalationTx :
    (resolveEscalationTx env taskID escalationID request principal delegatedBy hash).Each
      (Steady [.escalations] (Event.Under "task_escalation_resolve")) := by
  refine Tx.each_selectOr_bind fun current => ?_
  refine Tx.each_lift_bind fun _ => ?_
  refine Tx.each_selectOr_bind fun escalation => ?_
  refine Tx.each_lift_bind fun _ => ?_
  refine Tx.each_lift_bind fun _ => ?_
  refine Tx.each_lift_bind fun _ => ?_
  refine Tx.each_lift_bind fun _ => ?_
  refine Tx.each_lift_bind fun _ => ?_
  refine Tx.each_bind each_insertTaskMessage fun _ => ?_
  refine Tx.each_bind (Table.each_updateWhere fun db =>
    { Footprint.refl _ _ _ _ db with
      escalations := .of_forall₂ (forall₂_mapWhere fun row _ hrow => ?_)
      sameEscalations := fun h => absurd List.mem_cons_self h }) fun _ => ?_
  · simp only [Bool.and_eq_true, decide_eq_true_eq] at hrow
    exact ⟨rfl, rfl, rfl, Or.inr ⟨hrow.2, by simp⟩⟩
  refine Tx.each_lift_bind fun _ => ?_
  refine Tx.each_bind (Tx.each_ite
    (Tx.each_bind (Footprint.each_bumpTask fun _ => rfl) fun _ => Tx.each_lift _)
    (Tx.each_pure _)) fun _ => ?_
  refine Tx.each_bind (Footprint.each_insertEvent (Event.under_merge ?_ rfl)) fun _ =>
    Tx.each_pure _
  refine Payload.Keyless.append (by simp [Payload.Keyless]) ?_
  split <;> simp [Payload.Keyless]

/-- What an answer does. The escalation was open; where it blocks its task, that was waiting
and goes back into the queue. -/
theorem resolveEscalationTx_ok {answered : TaskEscalation}
    (h : (resolveEscalationTx env taskID escalationID request principal delegatedBy hash).run db =
      .ok (answered, db')) :
    ∃ current row, db.task? taskID = some current ∧
      (db.escalations.find? fun row => row.id = escalationID) = some row ∧ row.taskID = taskID ∧
      row.status = .open ∧ db'.runs = db.runs ∧
      (row.blocking = false ∧ db'.tasks = db.tasks ∨
        row.blocking = true ∧ current.status = .waiting ∧
          List.Forall₂ (Task.Shifts current .queued) db.tasks db'.tasks) := by
  simp only [resolveEscalationTx, run_loadTask_bind_ok, Tx.run_selectOr_bind_ok,
    Tx.run_refuse_bind_ok] at h
  obtain ⟨current, hcurrent, -, seen, hfind, hexpired, hopen, -, -, hwaiting, h⟩ := h
  obtain ⟨row, hrow, htask, rfl⟩ := loadEscalation_ok hfind
  rw [TaskEscalation.seenAt_eq hexpired] at hopen hwaiting h
  obtain ⟨_, _, hmessage, h⟩ := Tx.run_bind_ok.mp h
  obtain ⟨-, rfl⟩ := run_insertTaskMessage_ok hmessage
  simp only [Table.run_updateWhere_bind_ok, Tx.run_refuse_bind_ok, escalationTable] at h
  obtain ⟨-, h⟩ := h
  obtain ⟨_, _, hblock, h⟩ := Tx.run_bind_ok.mp h
  obtain ⟨_, _, hevent, h⟩ := Tx.run_bind_ok.mp h
  obtain ⟨-, rfl⟩ := Tx.run_pure_ok.mp h
  obtain ⟨-, -, rfl⟩ := run_insertEvent_ok.mp hevent
  refine ⟨current, row, hcurrent, hrow, htask, not_not.mp hopen, ?_⟩
  rcases Tx.run_ite_ok.mp hblock with ⟨hblocking, hblock⟩ | ⟨hblocking, hblock⟩
  · have hstatus : current.status = .waiting := by
      by_contra hne
      exact hwaiting ⟨hblocking, hne⟩
    obtain ⟨hmem, hid⟩ := mem_of_task? hcurrent
    rw [run_bumpTask_bind_ok, Tx.run_lift_ok, refuse_ok_iff, not_not] at hblock
    obtain ⟨hone, rfl⟩ := hblock
    refine ⟨rfl, Or.inr ⟨hblocking, hstatus, ?_⟩⟩
    refine shifts_bumped hone hmem (by simp [bumps, hid, hstatus])
      (fun _ => ⟨rfl, rfl, rfl, rfl, rfl, rfl⟩) (fun hp => ?_) (Task.reasoned_of_ne .queued rfl (by decide))
    have hne : current.status ≠ .blocked ∧ current.status.terminal = false := by
      simp [hstatus, TaskStatus.terminal]
    exact hp.next rfl rfl (fun _ => hp.blocker hne.1) (fun _ => rfl)
      (fun _ => hp.completedAt hne.2) Bool.noConfusion
  · obtain ⟨-, rfl⟩ := Tx.run_pure_ok.mp hblock
    exact ⟨rfl, Or.inl ⟨by simpa using hblocking, rfl⟩⟩

theorem each_resolveEscalation :
    (resolveEscalation svc env taskID escalationID request principal delegatedBy).Each
      (Steady [.escalations] (Event.Under "task_escalation_resolve")) := by
  refine Call.each_lift_bind fun _ _ => ?_
  refine Call.each_lift_bind fun _ _ => ?_
  refine Call.each_bind quiet_getForHidden.each fun _ => ?_
  refine Call.each_lift_bind fun _ _ => ?_
  refine each_keyed (fun _ => (Call.quiet_lookOr _).each) ?_
  exact Call.each_bind (Call.each_tx fun _ _ => each_resolveEscalationTx.run) fun _ =>
    (Call.quiet_lookOr _).each

/-- What `resolveEscalation` does where it does anything: one transaction. -/
theorem atMost_resolveEscalation :
    (resolveEscalation svc env taskID escalationID request principal delegatedBy).AtMost
      fun db db' => ∃ checked hash answered,
        (resolveEscalationTx env (trimSpace taskID) (trimSpace escalationID) checked principal
          delegatedBy hash).run db = .ok (answered, db') := by
  refine Call.atMost_lift_bind fun _ _ => ?_
  refine Call.atMost_lift_bind fun _ _ => ?_
  refine Call.atMost_bind_quiet quiet_getForHidden fun _ => ?_
  refine Call.atMost_lift_bind fun _ _ => ?_
  refine atMost_keyed (fun _ => Call.quiet_lookOr _) ?_
  refine Call.atMost_then_quiet ((Call.atMost_tx _).mono ?_) fun _ => Call.quiet_lookOr _
  rintro _ _ ⟨u, h⟩
  exact ⟨_, _, u, h⟩

end Resolve

end

end Taskboard
