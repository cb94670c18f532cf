import Taskboard.Completion

/-!
# Live discussions

A person asks the controller of a task for a live discussion; both add messages until one
of them ends it or it has been idle for half an hour.
-/

namespace Taskboard

variable {db db' : Db} {message : DiscussionMessage} {env : Env} {ev : Event → Prop} {now : Instant}
  {extra : Payload} {principal : Principal} {svc : Service}
  {rn : List AgentRun → List AgentRun → Prop} {tk : List Task → List Task → Prop}
  {discussionID : String} {item : TaskDiscussion}

variable {lg : List Ledger}

structure UpdateDiscussionRequest where
  status : String := ""
  agentStatus : String := ""
  endReason : String := ""
  deriving DecidableEq

/-- `DiscussionIdle`. -/
def discussionIdle : Duration := 30 * minute

/-- `discussionMessageLimit`. -/
def discussionMessageLimit : Nat := 200

/-- `discussionController`: the owner of open work that accepts discussions. -/
def Db.discussionController (db : Db) (task : Task) (now : Instant) : Option String :=
  if task.owner = "" ∨ task.status.terminal then none
  else
    ((db.getWorkerAdvertisement task.owner now).filter fun row =>
      "discussion" ∈ row.capabilities).map fun _ => task.owner

/-- `controllerMayDiscuss`. -/
def controllerMayDiscuss (task : Task) (principal : Principal) : Bool :=
  principal.hasCapability .taskMessage && canMutate task principal

/-- `GetDiscussion`. -/
def getDiscussion (id : String) : CallM TaskDiscussion :=
  Call.lookOr fun db => found (db.discussions.find? fun row => row.id = id)

/-- `ListDiscussionMessages`: at most 200 behind the given one, the oldest first. -/
def Db.listDiscussionMessages (db : Db) (discussionID : String) (after : String := "") :
    List DiscussionMessage :=
  (sortBy (fun a b => a.id < b.id) (db.discussionMessages.filter fun row =>
    row.discussionID = discussionID && after < row.id)).take discussionMessageLimit

/-- `authorizedDiscussion`. -/
def authorizedDiscussion (svc : Service) (env : Env) (discussionID : String)
    (principal : Principal) : CallM TaskDiscussion := do
  let item ← getDiscussion (trimSpace discussionID)
  refuse (principal.agent ∧ item.controller ≠ principal.id) ServiceError.notFound
  let task ← getForHidden svc env.checked item.taskID principal
  refuse (principal.agent ∧ !controllerMayDiscuss task.toTask principal) ErrForbidden
  pure item

/-- `discussionEvent`. -/
def discussionEvent (item : TaskDiscussion) (id kind actor message : String)
    (now : Instant) : Event :=
  { id := id
    taskID := item.taskID
    kind := kind
    actor := actor
    message := message
    payload := [("discussion_id", .text item.id), ("status", .text item.status.toString)]
    createdAt := now }

/-- The fields of a discussion that `UpdateDiscussion` writes. -/
def TaskDiscussion.rewritten (row item : TaskDiscussion) : TaskDiscussion :=
  { row with
    status := item.status
    agentStatus := item.agentStatus
    endReason := item.endReason
    startedAt := item.startedAt
    lastActivityAt := item.lastActivityAt
    endedAt := item.endedAt }

/-- `UpdateDiscussion`. -/
def updateDiscussion (item : TaskDiscussion) : TxM Unit := do
  let count ← discussionTable.updateWhere (fun _ row => row.id = item.id) (·.rewritten item)
  refuse (count ≠ 1) ServiceError.notFound

/-- `InsertDiscussionMessage`. -/
def insertDiscussionMessage (message : DiscussionMessage) : TxM Unit :=
  discussionMessageTable.insert message
    (fun db => (db.task? message.taskID).isSome &&
      db.discussions.any fun row => row.id = message.discussionID)
    (.database "insert discussion message")

section Statements

theorem each_updateDiscussion [Std.Refl tk] [Std.Refl rn] (hlg : Ledger.discussions ∈ lg) :
    (updateDiscussion item).Each (Footprint lg tk rn ev) := by
  refine Tx.each_bind (Table.each_updateWhere fun db => ?_) fun _ => Tx.each_lift _
  exact { Footprint.refl lg tk rn ev db with
    discussions := .of_forall₂ (forall₂_mapWhere fun _ _ _ => rfl)
    sameDiscussions := fun h => absurd hlg h }

theorem updateDiscussion_ok {u : Unit} (h : (updateDiscussion item).run db = .ok (u, db')):
    db' = { db with
      discussions := mapWhere (fun row => row.id = item.id) (·.rewritten item) db.discussions } := by
  simp only [updateDiscussion, Tx.run_bind_ok, Table.run_updateWhere_ok, Tx.run_lift_ok,
    discussionTable] at h
  obtain ⟨_, _, ⟨-, rfl⟩, -, rfl⟩ := h
  rfl

theorem each_insertDiscussionMessage [Std.Refl tk] [Std.Refl rn] (hlg : Ledger.discussions ∈ lg):
    (insertDiscussionMessage message).Each (Footprint lg tk rn ev) :=
  Table.each_insertFresh fun db hfresh =>
    { Footprint.refl lg tk rn ev db with
      discussionMessages := appends_row hfresh
      sameDiscussions := fun h => absurd hlg h }

end Statements

/-- The discussion as a message leaves it. -/
def TaskDiscussion.messaged (item : TaskDiscussion) (role : String) (now : Instant) :
    TaskDiscussion :=
  { item with
    lastActivityAt := now
    agentStatus := if role = "agent" then "ready" else item.agentStatus }

/-- The transaction of `addDiscussionMessage`. -/
def addDiscussionMessageTx (env : Env) (item : TaskDiscussion) (principal : Principal)
    (role body : String) (extra : Payload) : TxM DiscussionMessage := do
  let message : DiscussionMessage :=
    { id := env.newID 0
      discussionID := item.id
      taskID := item.taskID
      author := principal.id
      role := role
      body := body
      createdAt := env.now }
  let item := item.messaged role env.now
  insertDiscussionMessage message
  updateDiscussion item
  let event := discussionEvent item (env.newID 1) "task.discussion_message" principal.id
    "Discussion message" env.now
  insertEvent
    { event with
      payload := mergePayload
        (event.payload ++ [("message_id", .text message.id), ("role", .text role)]) extra }
  pure message

/-- `addDiscussionMessage`. -/
def addDiscussionMessage (env : Env) (item : TaskDiscussion) (principal : Principal)
    (role body : String) (extra : Payload) : CallM DiscussionMessage := do
  refuse (item.status = .ended ∨ discussionIdle ≤ env.now - item.lastActivityAt)
    (ServiceError.conflict "this discussion has ended")
  Call.tx (addDiscussionMessageTx env item principal role body extra)

/-- The checks of `AddDiscussionMessageFor` on the discussion and the request. -/
def checkDiscussionMessage (item : TaskDiscussion) (request : DiscussionMessageRequest)
    (principal : Principal) : Except ServiceError Unit := do
  refuse (principal.agent ∧ item.status ≠ .active)
    (ErrValidation "accept the discussion before replying")
  refuse (!principal.agent ∧ !principal.can .taskWrite) ErrForbidden
  let body := trimSpace request.body
  refuse (body = "" ∨ 4000 < byteLen body)
    (ErrValidation "a 1-4000 character message is required")

/-- What `AddDiscussionMessageFor` checks before it looks for the key. -/
def mayAddDiscussionMessage (svc : Service) (env : Env) (discussionID : String)
    (request : DiscussionMessageRequest) (principal : Principal) : CallM TaskDiscussion := do
  let item ← authorizedDiscussion svc env discussionID principal
  checkDiscussionMessage item request principal
  pure item

/-- The answer of a replayed discussion message: found among the first ones only. -/
def replayedDiscussionMessage (discussionID : String) (event : Event) :
    CallM DiscussionMessage :=
  Call.lookOr fun db => found ((db.listDiscussionMessages discussionID).find? fun row =>
    row.id = Payload.text event.payload "message_id")

/-- `AddDiscussionMessageFor`. -/
def addDiscussionMessageFor (svc : Service) (env : Env) (discussionID : String)
    (request : DiscussionMessageRequest) (principal : Principal) :
    CallM DiscussionMessage := do
  let item ← mayAddDiscussionMessage svc env discussionID request principal
  let body := trimSpace request.body
  let hash : Digest := .discussionMessage item.id body
  keyed svc (request.idempotencyKey ≠ "") principal "task_discussion_message"
    request.idempotencyKey hash (replayedDiscussionMessage item.id)
    (addDiscussionMessage env item principal (if principal.agent then "agent" else "person")
      body (idempotencyPayload "task_discussion_message" request.idempotencyKey (some hash)))

section Message

variable {role body : String} {request : DiscussionMessageRequest}

theorem quiet_authorizedDiscussion : (authorizedDiscussion svc env discussionID principal).Quiet := by
  refine Call.quiet_bind (Call.quiet_lookOr _) fun _ => ?_
  refine Call.quiet_lift_bind fun _ => ?_
  refine Call.quiet_bind quiet_getForHidden fun _ => ?_
  exact Call.quiet_lift_bind fun _ => Call.quiet_pure _

theorem quiet_mayAddDiscussionMessage :
    (mayAddDiscussionMessage svc env discussionID request principal).Quiet :=
  Call.quiet_bind quiet_authorizedDiscussion fun _ =>
    Call.quiet_lift_bind fun _ => Call.quiet_pure _

theorem each_addDiscussionMessageTx [Std.Refl tk] [Std.Refl rn]
    (hlg : Ledger.discussions ∈ lg) (hev : ∀ event : Event, ∀ base : Payload,
      base.Keyless → event.payload = mergePayload base extra → ev event) :
    (addDiscussionMessageTx env item principal role body extra).Each (Footprint lg tk rn ev) := by
  refine Tx.each_bind (each_insertDiscussionMessage hlg) fun _ => ?_
  refine Tx.each_bind (each_updateDiscussion hlg) fun _ => ?_
  refine Tx.each_bind (Footprint.each_insertEvent (hev _ _ ?_ rfl)) fun _ => Tx.each_pure _
  simp [Payload.Keyless, discussionEvent]

/-- A committed message is a new row, and its discussion is written back. -/
theorem addDiscussionMessageTx_ok
    (h : (addDiscussionMessageTx env item principal role body extra).run db = .ok (message, db')) :
    message.discussionID = item.id ∧ ∃ event, db' = { db with
      discussionMessages := db.discussionMessages ++ [message]
      discussions := mapWhere (fun row => row.id = item.id)
        (·.rewritten (item.messaged role env.now)) db.discussions
      events := db.events ++ [event] } := by
  simp only [addDiscussionMessageTx, insertDiscussionMessage, Tx.run_bind_ok, Table.run_insert_ok,
    run_insertEvent_ok, Tx.run_pure_ok, discussionMessageTable] at h
  obtain ⟨_, _, ⟨-, -, rfl⟩, _, _, hupdate, _, _, ⟨-, -, rfl⟩, rfl, rfl⟩ := h
  obtain rfl := updateDiscussion_ok hupdate
  exact ⟨rfl, _, rfl⟩

theorem each_addDiscussionMessage [IsPreorder _ tk] [IsPreorder _ rn]
    (hlg : Ledger.discussions ∈ lg) (hev : ∀ event : Event, ∀ base : Payload,
      base.Keyless → event.payload = mergePayload base extra → ev event) :
    (addDiscussionMessage env item principal role body extra).Each (Footprint lg tk rn ev) :=
  Call.each_lift_bind fun _ _ =>
    Call.each_tx fun _ _ => (each_addDiscussionMessageTx hlg hev).run

theorem each_addDiscussionMessageFor [IsPreorder _ tk] [IsPreorder _ rn] :
    (addDiscussionMessageFor svc env discussionID request principal).Each
      (Footprint [.discussions] tk rn (Event.Under "task_discussion_message")) :=
  Call.each_bind quiet_mayAddDiscussionMessage.each fun _ =>
    each_keyed (fun _ => (Call.quiet_lookOr _).each)
      (each_addDiscussionMessage (by simp) fun _ _ hbase h => Event.under_merge hbase h)

end Message

/-- The test of `expireIdleDiscussions`. -/
def TaskDiscussion.idle (item : TaskDiscussion) (now : Instant) : Bool :=
  item.status ≠ .ended ∧ discussionIdle ≤ now - item.lastActivityAt

/-- The discussion that `expireIdleDiscussions` has ended. -/
def TaskDiscussion.expired (item : TaskDiscussion) (now : Instant) : TaskDiscussion :=
  { item with status := .ended, endedAt := some now, endReason := "idle", agentStatus := "" }

/-- The transaction of `expireIdleDiscussions` for one discussion. -/
def expireDiscussionTx (now : Instant) (eventID : String) (item : TaskDiscussion) :
    TxM Unit := do
  let item := item.expired now
  updateDiscussion item
  insertEvent (discussionEvent item eventID "task.discussion_updated" "system"
    "Discussion ended after inactivity" now)

/-- What `expireIdleDiscussions` does with one discussion. One that is gone is left in the list as
it was. -/
def expireIdleDiscussion (now : Instant) (eventID : String) (item : TaskDiscussion) :
    CallM TaskDiscussion :=
  if item.idle now then do
    let written ← (Call.tx (expireDiscussionTx now eventID item)).attempt
    match written with
    | .ok _ => pure (item.expired now)
    | .error .notFound => pure item
    | .error e => Call.fail e
  else pure item

/-- `expireIdleDiscussions`. -/
def expireIdleDiscussions (now : Instant) (newID : Nat → String) :
    Nat → List TaskDiscussion → CallM (List TaskDiscussion)
  | _, [] => pure []
  | index, item :: rest => do
      let item ← expireIdleDiscussion now (newID index) item
      let others ← expireIdleDiscussions now newID (index + 1) rest
      pure (item :: others)

/-- The discussion that `StartDiscussionFor` asks for. -/
def requestedDiscussion (env : Env) (taskID controller : String) (principal : Principal) :
    TaskDiscussion where
  id := env.newID 0
  taskID := taskID
  controller := controller
  status := .requested
  requestedBy := principal.id
  createdAt := env.now
  lastActivityAt := env.now

/-- The transaction of `StartDiscussionFor`. -/
def startDiscussionTx (env : Env) (taskID controller message : String)
    (principal : Principal) : TxM Unit := do
  let item := requestedDiscussion env taskID controller principal
  discussionTable.insert item (fun db => (db.task? taskID).isSome)
    (.database "insert discussion")
  (if message ≠ "" then
    insertDiscussionMessage
      { id := env.newID 1
        discussionID := item.id
        taskID := taskID
        author := principal.id
        role := "person"
        body := message
        createdAt := env.now }
  else pure ())
  insertEvent (discussionEvent item (env.newID 2) "task.discussion_started" principal.id
    "Live discussion requested" env.now)

/-- `ListTaskDiscussions`: the latest ones of a task. -/
def Db.listTaskDiscussions (db : Db) (taskID : String) (limit : Nat) : List TaskDiscussion :=
  (sortBy (fun a b => b.id < a.id) (db.discussions.filter fun row => row.taskID = taskID)).take limit

/-- `StartDiscussionFor`: a new discussion, or a message in the one that is open. -/
def startDiscussionFor (svc : Service) (env : Env) (taskID message : String)
    (principal : Principal) : CallM TaskDiscussion := do
  refuse (principal.agent || !principal.can .taskWrite) ErrForbidden
  let message := trimSpace message
  refuse (4000 < byteLen message) (ErrValidation "messages are limited to 4000 characters")
  let task ← getForHidden svc env.checked taskID principal
  let controller ← Call.lookOr fun db =>
    match db.discussionController task.toTask env.checked with
    | some controller => .ok controller
    | none => .error (ErrValidation "this task's controller is not accepting discussions")
  let existing ← Call.look fun db => db.listTaskDiscussions task.id 5
  let existing ← expireIdleDiscussions env.checked (fun index => env.newID (3 + index)) 0 existing
  match existing.find? fun item => item.status ≠ .ended with
  | some item => do
      (if message ≠ "" then do
        let _ ← addDiscussionMessage env item principal "person" message []
        pure ()
      else pure ())
      getDiscussion item.id
  | none => do
      Call.tx (startDiscussionTx env task.id controller message principal)
      getDiscussion (env.newID 0)

/-- The discussion after an update of `UpdateDiscussionFor`. -/
def updatedDiscussion (item : TaskDiscussion) (request : UpdateDiscussionRequest)
    (principal : Principal) (now : Instant) : Except ServiceError TaskDiscussion := do
  let item ←
    match request.status with
    | "" => pure item
    | "active" =>
        pure (if item.status = .requested then
          { item with status := .active, startedAt := some now } else item)
    | "ended" =>
        let reason := trimSpace request.endReason
        let reason := if reason = "" then "ended by " ++ principal.id else reason
        pure { item with
          status := .ended
          endedAt := some now
          endReason := clipped reason 300
          agentStatus := "" }
    | _ => .error (ErrValidation "status must be active or ended")
  refuse (request.agentStatus ≠ "" ∧ request.agentStatus ≠ "thinking" ∧
      request.agentStatus ≠ "ready")
    (ErrValidation "agent_status must be thinking or ready")
  pure { item with
    agentStatus :=
      if request.agentStatus ≠ "" ∧ item.status = .active then request.agentStatus
      else item.agentStatus
    lastActivityAt := now }

/-- The transaction of `UpdateDiscussionFor`. -/
def updateDiscussionTx (env : Env) (item : TaskDiscussion) (principal : Principal) :
    TxM Unit := do
  updateDiscussion item
  insertEvent (discussionEvent item (env.newID 0) "task.discussion_updated" principal.id
    ("Discussion " ++ item.status.toString) env.now)

/-- `UpdateDiscussionFor`. -/
def updateDiscussionFor (svc : Service) (env : Env) (discussionID : String)
    (request : UpdateDiscussionRequest) (principal : Principal) : CallM TaskDiscussion := do
  let item ← authorizedDiscussion svc env discussionID principal
  refuse (!principal.agent ∧ (!principal.can .taskWrite ∨ request.status ≠ "ended" ∨
    request.agentStatus ≠ "")) ErrForbidden
  if item.status = .ended then
    refuse (request.status ≠ "ended") (ServiceError.conflict "this discussion has ended")
    pure item
  else
    let item ← updatedDiscussion item request principal env.now
    Call.tx (updateDiscussionTx env item principal)
    pure item

/-- `GetDiscussionFor`. -/
def getDiscussionFor (svc : Service) (env : Env) (discussionID after : String)
    (principal : Principal) : CallM (TaskDiscussion × List DiscussionMessage) := do
  let item ← authorizedDiscussion svc env discussionID principal
  let expired ← expireIdleDiscussions env.now env.newID 0 [item]
  let item := expired.headD item
  let messages ← Call.look fun db => db.listDiscussionMessages item.id (trimSpace after)
  pure (item, messages)

/-- The discussions with their messages. -/
def discussionsWithMessages :
    List TaskDiscussion → CallM (List (TaskDiscussion × List DiscussionMessage))
  | [] => pure []
  | item :: rest => do
      let messages ← Call.look fun db => db.listDiscussionMessages item.id
      let others ← discussionsWithMessages rest
      pure ((item, messages) :: others)

/-- `ListTaskDiscussionsFor`. -/
def listTaskDiscussionsFor (svc : Service) (env : Env) (taskID : String) (principal : Principal) :
    CallM (List (TaskDiscussion × List DiscussionMessage)) := do
  let task ← getForHidden svc env.checked taskID principal
  let items ← Call.look fun db => db.listTaskDiscussions task.id 5
  let items ← expireIdleDiscussions env.now env.newID 0 items
  discussionsWithMessages items

/-- `ListControllerDiscussions`: requested and active ones, the oldest first. -/
def Db.listControllerDiscussions (db : Db) (controller : String) (limit : Nat) :
    List TaskDiscussion :=
  (sortBy (fun a b => a.id < b.id) (db.discussions.filter fun row =>
    row.controller = controller && (row.status = .requested || row.status = .active))).take limit

/-- Whether the discussion is open and the agent may still read and answer it. -/
def discussionOpenTo (svc : Service) (env : Env) (principal : Principal) (item : TaskDiscussion) :
    CallM Bool :=
  if item.status = .ended then pure false
  else do
    let task ← (getForHidden svc env.checked item.taskID principal).attempt
    match task with
    | .ok task => pure (controllerMayDiscuss task.toTask principal)
    | .error e => if e = .notFound ∨ e = ErrForbidden then pure false else Call.fail e

def discussionsOpenTo (svc : Service) (env : Env) (principal : Principal) :
    List TaskDiscussion → CallM (List TaskDiscussion)
  | [] => pure []
  | item :: rest => do
      let opened ← discussionOpenTo svc env principal item
      let others ← discussionsOpenTo svc env principal rest
      pure (if opened then item :: others else others)

/-- `ListControllerDiscussionsFor`. -/
def listControllerDiscussionsFor (svc : Service) (env : Env) (principal : Principal) :
    CallM (List TaskDiscussion) := do
  refuse (!principal.agent) ErrForbidden
  let items ← Call.look fun db => db.listControllerDiscussions principal.id 100
  let items ← expireIdleDiscussions env.now env.newID 0 items
  discussionsOpenTo svc env principal items

theorem quiet_discussionOpenTo
    (item : TaskDiscussion) : (discussionOpenTo svc env principal item).Quiet := by
  refine Call.quiet_ite (Call.quiet_pure _) (Call.quiet_bind ?_ fun task => ?_)
  · exact Call.quiet_attempt quiet_getForHidden
  · cases task with
    | ok task => exact Call.quiet_pure _
    | error e => exact Call.quiet_ite (Call.quiet_pure _) (Call.quiet_fail _)

theorem quiet_discussionsOpenTo
    (items : List TaskDiscussion) : (discussionsOpenTo svc env principal items).Quiet := by
  induction items with
  | nil => exact Call.quiet_pure _
  | cons item rest ih =>
      refine Call.quiet_bind (quiet_discussionOpenTo item) fun _ => ?_
      exact Call.quiet_bind ih fun _ => Call.quiet_pure _

section Footprints

variable {taskID message : String} [IsPreorder _ tk] [IsPreorder _ rn]

theorem each_expireIdleDiscussion {eventID : String} (item : TaskDiscussion) :
    (expireIdleDiscussion now eventID item).Each (Footprint [.discussions] tk rn Event.Unkeyed) := by
  have htx : (expireDiscussionTx now eventID item).Each
      (Footprint [.discussions] tk rn Event.Unkeyed) :=
    Tx.each_bind (each_updateDiscussion (by simp)) fun _ => Footprint.each_insertEvent rfl
  refine Call.each_ite (Call.each_bind (Call.each_attempt (Call.each_tx fun _ _ => htx.run))
    fun written => ?_) (Call.quiet_pure _).each
  split
  · exact (Call.quiet_pure _).each
  · exact (Call.quiet_pure _).each
  · exact (Call.quiet_fail _).each

theorem each_expireIdleDiscussions {newID : Nat → String} (index : Nat)
    (items : List TaskDiscussion) :
    (expireIdleDiscussions now newID index items).Each
      (Footprint [.discussions] tk rn Event.Unkeyed) := by
  induction items generalizing index with
  | nil => exact (Call.quiet_pure _).each
  | cons item rest ih =>
      refine Call.each_bind (each_expireIdleDiscussion _) fun _ => ?_
      exact Call.each_bind (ih _) fun _ => (Call.quiet_pure _).each

theorem each_startDiscussionTx {controller : String} :
    (startDiscussionTx env taskID controller message principal).Each
      (Footprint [.discussions] tk rn Event.Unkeyed) := by
  refine Tx.each_bind (Table.each_insert fun db =>
    { Footprint.refl _ tk rn _ db with
      discussions := evolves_append trivial
      sameDiscussions := fun h => absurd (by simp) h }) fun _ => ?_
  refine Tx.each_bind (Tx.each_ite (each_insertDiscussionMessage (by simp)) (Tx.each_pure _))
    fun _ => ?_
  exact Footprint.each_insertEvent rfl

theorem each_startDiscussionFor :
    (startDiscussionFor svc env taskID message principal).Each
      (Footprint [.discussions] tk rn Event.Unkeyed) := by
  refine Call.each_lift_bind fun _ _ => ?_
  refine Call.each_lift_bind fun _ _ => ?_
  refine Call.each_bind quiet_getForHidden.each fun _ => ?_
  refine Call.each_bind (Call.quiet_lookOr _).each fun _ => ?_
  refine Call.each_bind (Call.quiet_look _).each fun _ => ?_
  refine Call.each_bind (each_expireIdleDiscussions _ _) fun opened => ?_
  split
  · refine Call.each_bind (Call.each_ite ?_ (Call.quiet_pure _).each) fun _ =>
      (Call.quiet_lookOr _).each
    refine Call.each_bind (each_addDiscussionMessage (by simp) fun _ _ hbase h => ?_) fun _ =>
      (Call.quiet_pure _).each
    rw [Event.Unkeyed, h]
    exact hbase.lookup.1
  · exact Call.each_bind (Call.each_tx fun _ _ => each_startDiscussionTx.run) fun _ =>
      (Call.quiet_lookOr _).each

theorem each_updateDiscussionFor {request : UpdateDiscussionRequest} :
    (updateDiscussionFor svc env discussionID request principal).Each
      (Footprint [.discussions] tk rn Event.Unkeyed) := by
  refine Call.each_bind quiet_authorizedDiscussion.each fun _ => ?_
  refine Call.each_lift_bind fun _ _ => ?_
  refine Call.each_ite (Call.each_lift_bind fun _ _ => (Call.quiet_pure _).each) ?_
  refine Call.each_lift_bind fun _ _ => ?_
  refine Call.each_bind (Call.each_tx fun _ _ => Tx.Each.run ?_) fun _ => (Call.quiet_pure _).each
  exact Tx.each_bind (each_updateDiscussion (by simp)) fun _ => Footprint.each_insertEvent rfl

end Footprints

end Taskboard
