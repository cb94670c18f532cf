import Taskboard.Discussions
import Taskboard.Lib.Keyset
import Taskboard.Receipts

/-!
# The inbox of a controller

`readInbox` puts together what waits for an agent on the runs it names: controls, session
requests, discussions, escalations and messages. Its digest is a hash of one line for each item, in
alphabetical order; the hash is a parameter.

Reading expires the controls and ends the discussions whose time has passed, in this order.
`readInbox_ok` takes a successful read apart, and `readInboxRuns_ok` says what its loop over the
named runs collects.
-/

namespace Taskboard

variable {messages : List TaskMessage} {id : String} {env : Env} {principal : Principal}
  {svc : Service}

/-- A run that a request names. -/
structure InboxRun where
  taskID : String
  runID : String
  deriving DecidableEq

/-- The part of an `InboxRequest` that `readInbox` reads. -/
structure InboxRequest where
  runs : List InboxRun := []
  deriving DecidableEq

/-- Where a run that was named and its task stand. -/
structure InboxRunState where
  taskID : String
  runID : String
  taskStatus : TaskStatus
  taskVersion : Int
  runStatus : TaskStatus
  active : Bool
  deriving DecidableEq

/-- `Inbox`. Each discussion carries its unanswered messages. -/
structure Inbox where
  asOf : Instant
  runs : List InboxRunState := []
  controls : List RunControlRequest := []
  sessionRequests : List SessionBridgeRequest := []
  discussions : List (TaskDiscussion × List DiscussionMessage) := []
  escalations : List TaskEscalation := []
  messages : List TaskMessage := []
  count : Nat := 0
  digest : String := ""
  deriving DecidableEq

/-- `inboxRunLimit`. -/
def inboxRunLimit : Nat := 20

/-! ## The digest -/

/-- The key of a run. Every key is its fields with colons between them. -/
def InboxRunState.fields (run : InboxRunState) : List String :=
  ["run", run.runID, run.taskStatus.toString, run.runStatus.toString,
    if run.active then "true" else "false"]

def RunControlRequest.fields (control : RunControlRequest) : List String :=
  ["control", control.id, control.status.toString]

def SessionBridgeRequest.fields (request : SessionBridgeRequest) : List String :=
  ["session", request.id, request.status.toString]

/-- The last unanswered message of a discussion, empty where there is none. -/
def lastMessageID (messages : List DiscussionMessage) : String :=
  (messages.getLast?.map (·.id)).getD ""

def discussionFields (entry : TaskDiscussion × List DiscussionMessage) : List String :=
  ["discussion", entry.1.id, entry.1.status.toString, lastMessageID entry.2]

def TaskEscalation.fields (escalation : TaskEscalation) : List String :=
  ["escalation", escalation.id, escalation.status.toString]

def TaskMessage.fields (message : TaskMessage) : List String :=
  ["message", message.id]

/-- The fields of every item, in the order in which `inboxDigest` goes through them. -/
def Inbox.fields (inbox : Inbox) : List (List String) :=
  inbox.runs.map InboxRunState.fields ++ inbox.controls.map RunControlRequest.fields ++
    inbox.sessionRequests.map SessionBridgeRequest.fields ++
    inbox.discussions.map discussionFields ++ inbox.escalations.map TaskEscalation.fields ++
    inbox.messages.map TaskMessage.fields

/-- `inboxDigest`, with the hash as a parameter. -/
def inboxDigest (hash : String → String) (inbox : Inbox) : String :=
  let keys := inbox.fields.map (String.singleton ':').intercalate
  hash ((String.singleton '\n').intercalate (keys.insertionSort (· ≤ ·)))

/-! ## Reading it -/

/-- The loop of `unansweredDiscussionMessages`, from `index` down. -/
def unansweredFrom (messages : List DiscussionMessage) : Nat → List DiscussionMessage
  | 0 => messages
  | index + 1 =>
      if messages[index]?.any (fun message => message.role ≠ "person") then
        messages.drop (index + 1)
      else unansweredFrom messages index

/-- `unansweredDiscussionMessages`. -/
def unansweredDiscussionMessages (messages : List DiscussionMessage) : List DiscussionMessage :=
  unansweredFrom messages messages.length

/-- `ListAgentRunControls`: the open controls of an agent, the oldest first. -/
def Db.listAgentRunControls (db : Db) (agent : String) (limit : Int) : List RunControlRequest :=
  let limit := if limit ≤ 0 ∨ 200 < limit then 100 else limit
  (sortBy (fun a b => a.id < b.id) (db.controls.filter fun row =>
    row.targetAgent = agent && row.status.isOpen)).take limit.toNat

/-- `ListSessionBridgeRequests` for those that are open. -/
def Db.listSessionBridgeRequests (db : Db) (controller : String) : List SessionBridgeRequest :=
  sortBy (fun a b => a.id < b.id) (db.bridgeRequests.filter fun row =>
    row.controller = controller && (row.status = .requested || row.status = .acknowledged))

/-- `ListTaskEscalations` at `now`. -/
def Db.listTaskEscalations (db : Db) (taskID : String) (now : Instant) : List TaskEscalation :=
  (sortBy (fun a b => b.id < a.id) (db.escalations.filter fun row => row.taskID = taskID)).map
    (·.seenAt now)

/-- What the loop over the named runs has collected. -/
structure InboxScope where
  runs : List String := []
  tasks : List String := []
  states : List InboxRunState := []
  messages : List TaskMessage := []

/-- The loop has passed a run. -/
def InboxScope.add (scope : InboxScope) (state : InboxRunState) (messages : List TaskMessage) :
    InboxScope where
  runs := state.runID :: scope.runs
  tasks := if state.taskID ∈ scope.tasks then scope.tasks else scope.tasks ++ [state.taskID]
  states := scope.states ++ [state]
  messages := scope.messages ++ messages

/-- The messages of the inbox for a run. -/
def inboxMessages (principal : Principal) (state : InboxRunState) : CallM (List TaskMessage) :=
  if state.active && principal.hasCapability .taskMessage then
    listPendingTaskMessages state.taskID state.runID principal.id 50
  else pure []

/-- One turn of the loop of `readInbox`. A run that was named before is passed over. -/
def readInboxRun (svc : Service) (env : Env) (principal : Principal) (scope : InboxScope)
    (entry : InboxRun) : CallM InboxScope := do
  let taskID := trimSpace entry.taskID
  let runID := trimSpace entry.runID
  refuse (taskID = "" ∨ runID = "") (ErrValidation "task_id and run_id are required")
  if runID ∈ scope.runs then pure scope
  else do
    let task ← getForHidden svc env.checked taskID principal
    let foreign : ServiceError :=
      .validation "run %q is not a run of this agent on task %q" [runID, taskID]
    match task.runs.find? fun run => run.id = runID with
    | none => Call.fail foreign
    | some run => do
        refuse (run.agent ≠ principal.id) foreign
        let state : InboxRunState :=
          { taskID := taskID
            runID := runID
            taskStatus := task.status
            taskVersion := task.version
            runStatus := run.status
            active := (activeTaskRun task.runs runID).isSome }
        let messages ← inboxMessages principal state
        pure (scope.add state messages)

def readInboxRuns (svc : Service) (env : Env) (principal : Principal) :
    InboxScope → List InboxRun → CallM InboxScope
  | scope, [] => pure scope
  | scope, entry :: rest => do
      let scope ← readInboxRun svc env principal scope entry
      readInboxRuns svc env principal scope rest

/-- The controls of the inbox. -/
def inboxControls (svc : Service) (env : Env) (principal : Principal) (runs : List String) :
    CallM (List RunControlRequest) :=
  if principal.hasCapability .taskControl then do
    expireRunControls svc env.now fun n => env.newID (2 * n)
    let controls ← Call.look fun db => db.listAgentRunControls principal.id 200
    pure (controls.filter fun control => control.targetRunID ∈ runs)
  else pure []

/-- The session requests of the inbox. -/
def inboxSessionRequests (principal : Principal) (runs : List String) :
    CallM (List SessionBridgeRequest) :=
  if principal.hasCapability .taskSession then do
    let requests ← Call.look fun db => db.listSessionBridgeRequests principal.id
    pure (requests.filter fun item => item.runID ∈ runs)
  else pure []

/-- The loop of `readInbox` over the discussions of the controller. -/
def unansweredDiscussions (tasks : List String) :
    List TaskDiscussion → CallM (List (TaskDiscussion × List DiscussionMessage))
  | [] => pure []
  | item :: rest =>
      if item.taskID ∈ tasks then do
        let messages ← Call.look fun db => db.listDiscussionMessages item.id
        let messages := unansweredDiscussionMessages messages
        let others ← unansweredDiscussions tasks rest
        pure (if item.status = .requested ∨ messages ≠ [] then (item, messages) :: others else others)
      else unansweredDiscussions tasks rest

/-- The identifiers at the odd places. -/
def Env.odd (env : Env) : Env :=
  { env with
    newID := fun n => env.newID (2 * n + 1)
    newID_ne := fun n => env.newID_ne (2 * n + 1)
    newID_plain := fun n => env.newID_plain (2 * n + 1) }

/-- The discussions of the inbox. -/
def inboxDiscussions (svc : Service) (env : Env) (principal : Principal) (tasks : List String) :
    CallM (List (TaskDiscussion × List DiscussionMessage)) := do
  let discussions ← listControllerDiscussionsFor svc env.odd principal
  unansweredDiscussions tasks discussions

/-- The loop of `readInbox` over the tasks for their escalations. -/
def settledEscalations (now : Instant) (runs : List String) :
    List String → CallM (List TaskEscalation)
  | [] => pure []
  | taskID :: rest => do
      let escalations ← Call.look fun db => db.listTaskEscalations taskID now
      let others ← settledEscalations now runs rest
      pure (escalations.filter (fun item => item.runID ∈ runs &&
        (item.status = .answered || item.status = .expired)) ++ others)

/-- The escalations of the inbox. -/
def inboxEscalations (env : Env) (principal : Principal) (runs tasks : List String) :
    CallM (List TaskEscalation) :=
  if principal.hasCapability .taskEscalate then settledEscalations env.now runs tasks
  else pure []

/-- `readInbox`. -/
def readInbox (hash : String → String) (svc : Service) (env : Env) (request : InboxRequest)
    (principal : Principal) : CallM Inbox := do
  refuse (!principal.agent) ErrForbidden
  refuse (request.runs = [] ∨ inboxRunLimit < request.runs.length)
    (ServiceError.validation "1-%d runs are required" ["20"])
  let scope ← readInboxRuns svc env principal {} request.runs
  let controls ← inboxControls svc env principal scope.runs
  let sessionRequests ← inboxSessionRequests principal scope.runs
  let discussions ← inboxDiscussions svc env principal scope.tasks
  let escalations ← inboxEscalations env principal scope.runs scope.tasks
  let inbox : Inbox :=
    { asOf := env.checked
      runs := scope.states
      controls := controls
      sessionRequests := sessionRequests
      discussions := discussions
      escalations := escalations
      messages := scope.messages
      count := controls.length + sessionRequests.length + discussions.length +
        escalations.length + scope.messages.length }
  pure { inbox with digest := inboxDigest hash inbox }

section Quiet

theorem quiet_readInboxRun {scope : InboxScope} {entry : InboxRun} :
    (readInboxRun svc env principal scope entry).Quiet := by
  refine Call.quiet_lift_bind fun _ => ?_
  refine Call.quiet_ite (Call.quiet_pure _) ?_
  refine Call.quiet_bind quiet_getForHidden fun task => ?_
  split
  · exact Call.quiet_fail _
  · refine Call.quiet_lift_bind fun _ => ?_
    refine Call.quiet_bind ?_ fun _ => Call.quiet_pure _
    exact Call.quiet_ite quiet_listPendingTaskMessages (Call.quiet_pure _)

theorem quiet_readInboxRuns (scope : InboxScope) (entries : List InboxRun) :
    (readInboxRuns svc env principal scope entries).Quiet := by
  induction entries generalizing scope with
  | nil => exact Call.quiet_pure _
  | cons entry rest ih => exact Call.quiet_bind quiet_readInboxRun fun scope => ih scope

end Quiet

/-! ## Pages -/

/-- A row is on the page of the first `n` that `p` selects exactly when `p` selects it and fewer
than `n` others with smaller names. -/
theorem mem_take_sortBy {ρ : Type} {name : ρ → String} {rows : List ρ} {p : ρ → Bool} {row : ρ}
    {n : Nat} (hnames : (rows.map name).Nodup) (hrow : row ∈ rows) :
    row ∈ (sortBy (fun a b => name a < name b) (rows.filter p)).take n ↔
      p row = true ∧ (rows.filter fun other => p other && name other < name row).length < n := by
  by_cases hp : p row = true
  · have hmem : row ∈ rows.filter p := List.mem_filter.mpr ⟨hrow, hp⟩
    have hkept : ((rows.filter p).map name).Nodup := hnames.sublist (List.filter_sublist.map _)
    have hpage : row ∈ (sortByKey (fun a b => decide (a < b)) name (rows.filter p)).take n ↔ _ :=
      mem_take_sortByKey hkept hmem n
    rw [List.filter_filter] at hpage
    simp only [hp, true_and, Bool.and_comm (p _)]
    exact hpage
  · refine iff_of_false (fun hpage => hp ?_) fun h => hp h.1
    exact (List.mem_filter.mp (mem_sortBy.mp (List.mem_of_mem_take hpage))).2

/-! ## The runs that are named -/

/-- A run of the agent, on a task that it may see. -/
structure InboxRun.Owned (db : Db) (principal : Principal) (run : AgentRun) : Prop where
  mem : run ∈ db.runs
  agent : run.agent = principal.id
  trimmed : trimSpace run.taskID = run.taskID
  visible : ∃ task, db.task? run.taskID = some task ∧ canView task principal = true

section Scope

variable {db db' : Db} {scope scope' : InboxScope} {state : InboxRunState}

/-- One turn: the run was named before, or it is a run of the agent. -/
theorem readInboxRun_ok {entry : InboxRun}
    (h : (readInboxRun svc env principal scope entry).exec db = (.ok scope', db')) :
    (trimSpace entry.runID ∈ scope.runs ∧ scope' = scope) ∨
      ∃ run state messages, InboxRun.Owned db principal run ∧ run.id = trimSpace entry.runID ∧
        state.runID = run.id ∧ state.taskID = run.taskID ∧ scope' = scope.add state messages := by
  unfold readInboxRun at h
  obtain ⟨_, -, h⟩ := Call.exec_lift_bind_ok h
  split at h
  · rename_i hseen
    cases h
    exact Or.inl ⟨hseen, rfl⟩
  · right
    obtain ⟨view, hview, h⟩ := Call.exec_bind_quiet_ok quiet_getForHidden h
    obtain ⟨htask, hruns, -, hvisible⟩ := getForHidden_ok hview
    rw [trimSpace_idem] at htask hruns
    dsimp only at h
    split at h
    · cases h
    · rename_i shown hshown
      obtain ⟨_, hagent, h⟩ := Call.exec_lift_bind_ok h
      obtain ⟨messages, db1, -, h⟩ := Call.exec_bind_ok h
      cases h
      have hlisted := List.mem_of_find?_eq_some hshown
      have hid : shown.id = trimSpace entry.runID := by simpa using List.find?_some hshown
      rw [hruns, mem_listRuns] at hlisted
      obtain ⟨run, hrun, hof, rfl⟩ := hlisted
      obtain ⟨callsign, hcallsign⟩ := withCallsign_eq db run
      rw [hcallsign] at hagent hid
      have howned : InboxRun.Owned db principal run :=
        { mem := hrun
          agent := by simpa using hagent
          trimmed := by rw [hof, trimSpace_idem]
          visible := ⟨view.toTask, hof ▸ htask, hvisible⟩ }
      exact ⟨run, _, messages, howned, hid, hid.symm, hof.symm, rfl⟩

theorem mem_runs_add :
    id ∈ (scope.add state messages).runs ↔ id = state.runID ∨ id ∈ scope.runs :=
  List.mem_cons

theorem mem_tasks_add :
    id ∈ (scope.add state messages).tasks ↔ id = state.taskID ∨ id ∈ scope.tasks := by
  unfold InboxScope.add
  dsimp only
  split
  · rename_i hseen
    constructor
    · exact Or.inr
    · rintro (rfl | hmem)
      · exact hseen
      · exact hmem
  · rw [List.mem_append, List.mem_singleton, or_comm]

/-- **The loop over the named runs:** every run that is named is one of the agent, and its task is
among those that are looked at. -/
theorem readInboxRuns_ok {entries : List InboxRun}
    (h : (readInboxRuns svc env principal scope entries).exec db = (.ok scope', db')) :
    (∀ id, id ∈ scope'.runs ↔ id ∈ scope.runs ∨ id ∈ entries.map fun entry => trimSpace entry.runID) ∧
      (∀ id ∈ scope.tasks, id ∈ scope'.tasks) ∧
      ∀ id ∈ scope'.runs, id ∈ scope.runs ∨
        ∃ run, InboxRun.Owned db principal run ∧ run.id = id ∧ run.taskID ∈ scope'.tasks := by
  induction entries generalizing scope with
  | nil =>
      cases h
      exact ⟨fun id => by simp, fun _ hid => hid, fun _ hid => Or.inl hid⟩
  | cons entry rest ih =>
      obtain ⟨mid, hmid, hrest⟩ := Call.exec_bind_quiet_ok quiet_readInboxRun h
      obtain ⟨hruns, htasks, howned⟩ := ih hrest
      rcases readInboxRun_ok hmid with ⟨hseen, rfl⟩ | ⟨run, state, messages, hrun, hid, hstate, htask, rfl⟩
      · refine ⟨fun id => ?_, htasks, howned⟩
        rw [hruns, List.map_cons, List.mem_cons]
        constructor
        · exact fun hmem => hmem.imp_right Or.inr
        · rintro (hmem | rfl | hmem)
          · exact Or.inl hmem
          · exact Or.inl hseen
          · exact Or.inr hmem
      · refine ⟨fun id => ?_, fun id hmem => htasks id (mem_tasks_add.mpr (Or.inr hmem)),
          fun id hmem => ?_⟩
        · rw [hruns, mem_runs_add, List.map_cons, List.mem_cons, hstate, hid, or_assoc, or_left_comm]
        · rcases howned id hmem with hmem | hother
          · rcases mem_runs_add.mp hmem with hself | hmem
            · exact Or.inr ⟨run, hrun, (hself.trans hstate).symm,
                htasks _ (mem_tasks_add.mpr (Or.inl htask.symm))⟩
            · exact Or.inl hmem
          · exact Or.inr hother

/-- The parts of an inbox that reading may change something for, with the states they were read
in. -/
theorem readInbox_ok {hash : String → String} {request : InboxRequest} {inbox : Inbox}
    (h : (readInbox hash svc env request principal).exec db = (.ok inbox, db')) :
    ∃ scope db1 db2, (readInboxRuns svc env principal {} request.runs).exec db = (.ok scope, db) ∧
      (inboxControls svc env principal scope.runs).exec db = (.ok inbox.controls, db1) ∧
      (inboxDiscussions svc env principal scope.tasks).exec db1 = (.ok inbox.discussions, db2) := by
  unfold readInbox at h
  obtain ⟨_, -, h⟩ := Call.exec_lift_bind_ok h
  obtain ⟨_, -, h⟩ := Call.exec_lift_bind_ok h
  obtain ⟨scope, hscope, h⟩ := Call.exec_bind_quiet_ok (quiet_readInboxRuns _ _) h
  obtain ⟨controls, db1, hcontrols, h⟩ := Call.exec_bind_ok h
  have hquiet : (inboxSessionRequests principal scope.runs).Quiet :=
    Call.quiet_ite (Call.quiet_bind (Call.quiet_look _) fun _ => Call.quiet_pure _)
      (Call.quiet_pure _)
  obtain ⟨requests, -, h⟩ := Call.exec_bind_quiet_ok hquiet h
  obtain ⟨discussions, db2, hdiscussions, h⟩ := Call.exec_bind_ok h
  obtain ⟨escalations, db3, -, h⟩ := Call.exec_bind_ok h
  cases h
  exact ⟨scope, db1, db2, hscope, hcontrols, hdiscussions⟩

end Scope

end Taskboard
