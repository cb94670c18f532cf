import Taskboard.Leases
import Taskboard.Receipts
import Mathlib.Logic.Relation

/-!
# The operations of the service, and what a run of them does

Every operation of the service as one case of `Op`, with the call it makes. A state of the
board is reached by operations one after another, each run alone. What an operation writes
is said by the class of its footprint: all of them keep what identifies tasks and runs,
and only the general update may take a run back to life.
-/

namespace Taskboard

variable {db : Db} {svc : Service} {ok : Op → Db → Prop}

/-- What a call reports of the rows it is about. -/
structure Outcome where
  taskID : String := ""
  runID : String := ""
  recordID : String := ""
  deriving DecidableEq

/-- An operation of the service, with what the caller sends and what the call draws. -/
inductive Op where
  | start (env : Env) (request : StartRequest) (principal : Principal)
  | create (env : Env) (request : CreateRequest) (principal : Principal)
  | fireSchedule (env : Env) (schedule : Schedule) (scheduledFor runBy : String)
  | claim (env : Env) (taskID : String) (request : ClaimRequest) (principal : Principal)
  | update (env : Env) (taskID : String) (request : UpdateRequest) (principal : Principal)
  | heartbeat (env : Env) (taskID runID : String) (principal : Principal)
  | sweep (env : Env)
  | escalate (env : Env) (taskID : String) (request : CreateEscalationRequest)
      (principal : Principal)
  | resolve (env : Env) (taskID escalationID : String) (request : ResolveEscalationRequest)
      (principal : Principal) (delegatedBy : String)
  | createControl (env : Env) (taskID : String) (request : CreateRunControlRequest)
      (principal : Principal)
  | updateControl (env : Env) (controlID : String) (request : UpdateRunControlRequest)
      (principal : Principal)
  | expireControls (env : Env)
  | reviewAndRequeue (env : Env) (taskID : String) (request : ReviewRequeueRequest)
      (principal : Principal)
  | addMessage (env : Env) (taskID : String) (request : AddMessageRequest)
      (principal : Principal)
  | recordReceipts (env : Env) (taskID runID : String) (request : MessageReceiptRequest)
      (principal : Principal)
  | addReference (env : Env) (taskID : String) (request : AddTaskReferenceRequest)
      (principal : Principal)
  | addHandoff (env : Env) (taskID : String) (request : AddRunHandoffRequest)
      (principal : Principal)
  | recordUsage (env : Env) (taskID : String) (request : RecordUsageRequest)
      (principal : Principal)
  | createRequirement (env : Env) (taskID : String)
      (request : CreateCompletionRequirementRequest) (principal : Principal)
  | submitEvidence (env : Env) (taskID requirementID : String)
      (request : SubmitCompletionEvidenceRequest) (principal : Principal)
  | reviewCompletion (env : Env) (taskID requirementID : String)
      (request : ReviewCompletionRequest) (principal : Principal)
  | startDiscussion (env : Env) (taskID message : String) (principal : Principal)
  | addDiscussionMessage (env : Env) (discussionID : String)
      (request : DiscussionMessageRequest) (principal : Principal)
  | updateDiscussion (env : Env) (discussionID : String) (request : UpdateDiscussionRequest)
      (principal : Principal)
  | move (env : Env) (taskID : String) (request : MoveRequest) (principal : Principal)
  | renameRun (env : Env) (taskID runID : String) (request : RenameRunRequest)
      (principal : Principal)
  | addDependency (env : Env) (taskID : String) (request : AddTaskDependencyRequest)
      (principal : Principal)
  | removeDependency (env : Env) (taskID blockedBy : String) (expected : Int)
      (principal : Principal)
  | setRequirements (env : Env) (taskID : String) (request : SetTaskRequirementsRequest)
      (principal : Principal)
  | advertise (env : Env) (request : AdvertiseWorkerRequest) (principal : Principal)

/-- The call of an operation, with what it reports. -/
def Op.call (svc : Service) : Op → CallM Outcome
  | .start env request principal => do
      let (task, run) ← startFor svc env request principal
      pure { taskID := task.id, runID := run.id }
  | .create env request principal => do
      let task ← createFor svc env request principal
      pure { taskID := task.id }
  | .fireSchedule env schedule scheduledFor runBy => do
      let task ← Taskboard.fireSchedule svc env schedule scheduledFor runBy
      pure { taskID := task.id }
  | .claim env taskID request principal => do
      let (task, run) ← claimFor svc env taskID request principal
      pure { taskID := task.id, runID := run.id }
  | .update env taskID request principal => do
      let task ← updateFor svc env taskID request principal
      pure { taskID := task.id }
  | .heartbeat env taskID runID principal => do
      let run ← heartbeatFor svc env taskID runID principal
      pure { taskID := run.taskID, runID := run.id }
  | .sweep env => do
      let _ ← sweepStale svc env
      pure {}
  | .escalate env taskID request principal => do
      let record ← createEscalationFor svc env taskID request principal
      pure { recordID := record.id }
  | .resolve env taskID escalationID request principal delegatedBy => do
      let record ← resolveEscalation svc env taskID escalationID request principal delegatedBy
      pure { recordID := record.id }
  | .createControl env taskID request principal => do
      let record ← createRunControlFor svc env taskID request principal
      pure { recordID := record.id }
  | .updateControl env controlID request principal => do
      let record ← updateRunControlFor svc env controlID request principal
      pure { taskID := record.taskID, runID := record.targetRunID, recordID := record.id }
  | .expireControls env => do
      expireRunControls svc env.now env.newID
      pure {}
  | .reviewAndRequeue env taskID request principal => do
      let (task, record) ← reviewAndRequeueFor svc env taskID request principal
      pure { taskID := task.id, recordID := record.id }
  | .addMessage env taskID request principal => do
      let record ← addMessageFor svc env taskID request principal
      pure { recordID := record.id }
  | .recordReceipts env taskID runID request principal => do
      let _ ← recordMessageReceiptsFor svc env taskID runID request principal
      pure {}
  | .addReference env taskID request principal => do
      let record ← addTaskReferenceFor svc env taskID request principal
      pure { recordID := record.id }
  | .addHandoff env taskID request principal => do
      let record ← addRunHandoffFor svc env taskID request principal
      pure { recordID := record.id }
  | .recordUsage env taskID request principal => do
      let record ← recordUsageFor svc env taskID request principal
      pure { recordID := record.id }
  | .createRequirement env taskID request principal => do
      let record ← createCompletionRequirementFor svc env taskID request principal
      pure { recordID := record.id }
  | .submitEvidence env taskID requirementID request principal => do
      let record ← submitCompletionEvidenceFor svc env taskID requirementID request principal
      pure { recordID := record.id }
  | .reviewCompletion env taskID requirementID request principal => do
      let record ← reviewCompletionRequirementFor svc env taskID requirementID request principal
      pure { recordID := record.id }
  | .startDiscussion env taskID message principal => do
      let record ← startDiscussionFor svc env taskID message principal
      pure { recordID := record.id }
  | .addDiscussionMessage env discussionID request principal => do
      let record ← addDiscussionMessageFor svc env discussionID request principal
      pure { recordID := record.id }
  | .updateDiscussion env discussionID request principal => do
      let record ← updateDiscussionFor svc env discussionID request principal
      pure { recordID := record.id }
  | .move env taskID request principal => do
      let task ← moveFor svc env taskID request principal
      pure { taskID := task.id }
  | .renameRun env taskID runID request principal => do
      let task ← renameRunFor svc env taskID runID request principal
      pure { taskID := task.id }
  | .addDependency env taskID request principal => do
      let task ← addTaskDependencyFor svc env taskID request principal
      pure { taskID := task.id }
  | .removeDependency env taskID blockedBy expected principal => do
      let task ← removeTaskDependencyFor svc env taskID blockedBy expected principal
      pure { taskID := task.id }
  | .setRequirements env taskID request principal => do
      let task ← setTaskRequirementsFor svc env taskID request principal
      pure { taskID := task.id }
  | .advertise env request principal => do
      let _ ← advertiseWorkerFor svc env request principal
      pure {}

/-- The operation under which the call writes its idempotency key. -/
def Op.operation : Op → String
  | .start .. => "task_start"
  | .create .. => "task_create"
  | .claim .. => "task_claim"
  | .update .. => "task_update"
  | .escalate .. => "task_escalation_create"
  | .resolve .. => "task_escalation_resolve"
  | .createControl .. => "run_control_create"
  | .updateControl .. => "run_control_update"
  | .addMessage .. => "task_message_add"
  | .recordReceipts .. => "task_message_receipt"
  | .addReference .. => "task_reference_add"
  | .addHandoff .. => "task_handoff_add"
  | .recordUsage .. => "task_usage_record"
  | .submitEvidence .. => "task_completion_evidence_submit"
  | .reviewCompletion .. => "task_completion_review"
  | .addDiscussionMessage .. => "task_discussion_message"
  | _ => ""

/-- The tables that few operations write, of which this one writes no others. -/
def Op.ledgers : Op → List Ledger
  | .escalate .. | .resolve .. => [.escalations]
  | .heartbeat .. | .createControl .. | .updateControl .. | .expireControls ..
  | .reviewAndRequeue .. => [.controls]
  | .createRequirement .. => [.completionRequirements]
  | .submitEvidence .. => [.evidence]
  | .reviewCompletion .. => [.evidence, .completionRequirements]
  | .addDependency .. | .removeDependency .. => [.dependencies]
  | .start .. => [.items, .posts]
  | .create .. | .fireSchedule .. => [.items, .posts, .taskRequirements]
  | .claim .. => [.items]
  | .update .. => [.items, .handoffs, .posts, .taskRequirements]
  | .move .. => [.posts]
  | .setRequirements .. => [.taskRequirements]
  | .sweep .. | .addHandoff .. => [.handoffs]
  | .startDiscussion .. | .addDiscussionMessage .. | .updateDiscussion .. => [.discussions]
  | .recordReceipts .. => [.receipts]
  | .recordUsage .. => [.usage]
  | _ => []

/-- The database after the operation ran alone. -/
def Op.step (svc : Service) (op : Op) (db : Db) : Db :=
  ((op.call svc).exec db).2

/-- One operation that `ok` allows in this state. -/
def Step (svc : Service) (ok : Op → Db → Prop) (db db' : Db) : Prop :=
  ∃ op, ok op db ∧ db' = op.step svc db

section Footprints

variable {op : Op}

theorem Event.Unkeyed.under {event : Event} {operation : String} (h : event.Unkeyed) :
    event.Under operation :=
  Or.inl h

/-- The operations that leave the work on every task as it is. -/
def Op.still : Op → Bool
  | .start .. | .create .. | .fireSchedule .. | .claim .. | .update .. | .sweep .. | .escalate ..
  | .resolve .. | .updateControl .. | .reviewAndRequeue .. => false
  | _ => true

/-- The operations that leave the lease of every run as it is, too. -/
def Op.plain : Op → Bool
  | .heartbeat .. => false
  | op => op.still

theorem plain_call (h : op.plain = true) :
    (op.call svc).Each (Plain op.ledgers (Event.Under op.operation)) := by
  have unkeyed {α : Type} {c : CallM α} {lg : List Ledger} (hc : c.Each (Plain lg Event.Unkeyed)) (o : String) :
      c.Each (Plain lg (Event.Under o)) :=
    hc.mono fun _ _ h => h.mono (fun h => h) (fun h => h) fun _ => Event.Unkeyed.under
  cases op with
  | start | create | fireSchedule | claim | update | heartbeat | sweep | escalate | resolve
  | updateControl | reviewAndRequeue => exact Bool.noConfusion h
  | createControl => exact Call.each_bind each_createRunControlFor fun _ => (Call.quiet_pure _).each
  | expireControls =>
      exact Call.each_bind (each_expireRunControls fun _ => Event.Unkeyed.under) fun _ =>
        (Call.quiet_pure _).each
  | addMessage => exact Call.each_bind each_addMessageFor fun _ => (Call.quiet_pure _).each
  | recordReceipts =>
      exact Call.each_bind (each_recordMessageReceiptsFor List.mem_cons_self) fun _ =>
        (Call.quiet_pure _).each
  | addReference => exact Call.each_bind each_addTaskReferenceFor fun _ => (Call.quiet_pure _).each
  | addHandoff => exact Call.each_bind each_addRunHandoffFor fun _ => (Call.quiet_pure _).each
  | recordUsage =>
      exact Call.each_bind (each_recordUsageFor List.mem_cons_self) fun _ => (Call.quiet_pure _).each
  | createRequirement =>
      exact Call.each_bind (unkeyed plain_createCompletionRequirementFor _) fun _ =>
        (Call.quiet_pure _).each
  | submitEvidence =>
      exact Call.each_bind each_submitCompletionEvidenceFor fun _ => (Call.quiet_pure _).each
  | reviewCompletion =>
      exact Call.each_bind plain_reviewCompletionRequirementFor fun _ => (Call.quiet_pure _).each
  | startDiscussion =>
      exact Call.each_bind (unkeyed each_startDiscussionFor _) fun _ => (Call.quiet_pure _).each
  | addDiscussionMessage =>
      exact Call.each_bind each_addDiscussionMessageFor fun _ => (Call.quiet_pure _).each
  | updateDiscussion =>
      exact Call.each_bind (unkeyed each_updateDiscussionFor _) fun _ => (Call.quiet_pure _).each
  | move => exact Call.each_bind (unkeyed plain_moveFor _) fun _ => (Call.quiet_pure _).each
  | renameRun =>
      exact Call.each_bind (unkeyed plain_renameRunFor _) fun _ => (Call.quiet_pure _).each
  | addDependency =>
      exact Call.each_bind (unkeyed plain_addTaskDependencyFor _) fun _ => (Call.quiet_pure _).each
  | removeDependency =>
      exact Call.each_bind (unkeyed plain_removeTaskDependencyFor _) fun _ =>
        (Call.quiet_pure _).each
  | setRequirements =>
      exact Call.each_bind (unkeyed plain_setTaskRequirementsFor _) fun _ => (Call.quiet_pure _).each
  | advertise =>
      exact Call.each_bind (nearby_advertiseWorkerFor.mono fun _ _ => Nearby.plain) fun _ =>
        (Call.quiet_pure _).each

theorem still_call (h : op.still = true) :
    (op.call svc).Each (Still op.ledgers (Event.Under op.operation)) := by
  cases hplain : op.plain with
  | true => exact (plain_call hplain).mono fun _ _ => Plain.still
  | false =>
      cases op with
      | heartbeat env taskID runID principal =>
          have hbeat : (heartbeatFor svc env taskID runID principal).Each
              (Still [.controls] Event.Unkeyed) := each_heartbeatFor
          refine Call.each_bind (hbeat.mono fun _ _ h => ?_) fun _ => (Call.quiet_pure _).each
          exact h.mono (fun h => h) (fun h => h) fun _ => Event.Unkeyed.under
      | _ => exact Bool.noConfusion (hplain.symm.trans h)

/-- The operations after which no task has become claimable and no run has been opened. -/
def Op.calm : Op → Bool
  | .start .. | .create .. | .fireSchedule .. | .claim .. | .update .. | .sweep ..
  | .resolve .. | .updateControl .. | .reviewAndRequeue .. => false
  | _ => true

theorem calm_call (h : op.calm = true) :
    (op.call svc).Each (Calm op.ledgers (Event.Under op.operation)) := by
  cases hstill : op.still with
  | true => exact (still_call hstill).mono fun _ _ => Still.calm
  | false =>
      cases op with
      | escalate => exact Call.each_bind each_createEscalationFor fun _ => (Call.quiet_pure _).each
      | start | create | fireSchedule | claim | update | sweep | resolve | updateControl
      | reviewAndRequeue => exact Bool.noConfusion h
      | _ => exact Bool.noConfusion hstill

/-- Every operation but the general update takes runs through their life. -/
theorem lively_call (h : op.operation ≠ "task_update") :
    (op.call svc).Each (Lively op.ledgers (Event.Under op.operation)) := by
  have unkeyed {α : Type} {c : CallM α} {lg : List Ledger} (hc : c.Each (Lively lg Event.Unkeyed)) (o : String) :
      c.Each (Lively lg (Event.Under o)) :=
    hc.mono fun _ _ h => h.mono (fun h => h) (fun h => h) fun _ => Event.Unkeyed.under
  cases hcalm : op.calm with
  | true => exact (calm_call hcalm).mono fun _ _ h => h.steady.lively
  | false =>
      cases op with
      | start => exact Call.each_bind each_startFor fun _ => (Call.quiet_pure _).each
      | create => exact Call.each_bind each_createFor fun _ => (Call.quiet_pure _).each
      | fireSchedule =>
          exact Call.each_bind (unkeyed each_fireSchedule _) fun _ => (Call.quiet_pure _).each
      | claim => exact Call.each_bind each_claimFor fun _ => (Call.quiet_pure _).each
      | update => exact absurd rfl h
      | sweep =>
          exact Call.each_bind (unkeyed (steady_sweepStale.mono fun _ _ => Steady.lively) _)
            fun _ => (Call.quiet_pure _).each
      | resolve =>
          exact Call.each_bind (each_resolveEscalation.mono fun _ _ => Steady.lively) fun _ =>
            (Call.quiet_pure _).each
      | updateControl =>
          exact Call.each_bind (each_updateRunControlFor.mono fun _ _ => Steady.lively) fun _ =>
            (Call.quiet_pure _).each
      | reviewAndRequeue =>
          exact Call.each_bind (unkeyed (each_reviewAndRequeueFor.mono fun _ _ => Steady.lively) _)
            fun _ => (Call.quiet_pure _).each
      | _ => exact Bool.noConfusion hcalm

/-- **Every operation keeps what identifies the rows.** -/
theorem loose_call (op : Op) : (op.call svc).Each (Loose op.ledgers (Event.Under op.operation)) := by
  by_cases h : op.operation = "task_update"
  · cases op with
    | update => exact Call.each_bind each_updateFor fun _ => (Call.quiet_pure _).each
    | _ => simp [Op.operation] at h
  · exact (lively_call h).mono fun _ _ => Lively.loose

theorem loose_step (op : Op) (db : Db) :
    Loose op.ledgers (Event.Under op.operation) db (op.step svc db) :=
  (loose_call op).exec db

theorem lively_step (h : op.operation ≠ "task_update") (db : Db) :
    Lively op.ledgers (Event.Under op.operation) db (op.step svc db) :=
  (lively_call h).exec db

theorem plain_step (h : op.plain = true) (db : Db) :
    Plain op.ledgers (Event.Under op.operation) db (op.step svc db) :=
  (plain_call h).exec db

theorem still_step (h : op.still = true) (db : Db) :
    Still op.ledgers (Event.Under op.operation) db (op.step svc db) :=
  (still_call h).exec db

end Footprints

/-- The states that such operations lead to, one after another, from an empty database. -/
def Reachable (svc : Service) (ok : Op → Db → Prop) (db : Db) : Prop :=
  Relation.ReflTransGen (Step svc ok) {} db

theorem Reachable.step (h : Reachable svc ok db)
    (op : Op) (hop : ok op db) : Reachable svc ok (op.step svc db) :=
  h.tail ⟨op, hop, rfl⟩

/-- What every allowed operation keeps holds in every state that is reached. -/
theorem Reachable.invariant {P : Db → Prop} (hinit : P {})
    (hstep : ∀ op db, ok op db → P db → P (op.step svc db)) (h : Reachable svc ok db) :
    P db := by
  induction h with
  | refl => exact hinit
  | tail _ hlast ih =>
      obtain ⟨op, hop, rfl⟩ := hlast
      exact hstep op _ hop ih

/-- What every allowed operation does to the database, later ones do together. -/
theorem later_of_step {R : Db → Db → Prop}
    [IsPreorder Db R] (hstep : ∀ op db, ok op db → R db (op.step svc db)) {db' : Db}
    (h : Relation.ReflTransGen (Step svc ok) db db') : R db db' := by
  induction h with
  | refl => exact refl_of R _
  | tail _ hlast ih =>
      obtain ⟨op, hop, rfl⟩ := hlast
      exact trans_of R ih (hstep op _ hop)

/-- Operations one after another. -/
def Op.run (svc : Service) (ops : List Op) (db : Db) : Db :=
  ops.foldl (fun db op => op.step svc db) db

theorem reachable_run (svc : Service) (ops : List Op) :
    Reachable svc (fun _ _ => True) (Op.run svc ops {}) := by
  suffices h : ∀ db, Reachable svc (fun _ _ => True) db →
      Reachable svc (fun _ _ => True) (Op.run svc ops db) from h {} .refl
  induction ops with
  | nil => exact fun _ h => h
  | cons op rest ih => exact fun db h => ih _ (h.step op trivial)

/-- A service that compares stored times as instants and knows ASCII. -/
def Service.ascii : Service where
  leaseDuration := 15 * minute
  before a b := a < b
  unicode := .ascii
  parseTime _ := none
  midnight _ := 0
  isHTTPS _ := true

/-- What the call with this number draws at the time `now`: identifiers of four digits. -/
def Env.numbered (call : Nat) (now : Instant) : Env where
  checked := now
  now := now
  newID n := String.ofList (digits 2 call ++ digits 2 n)
  newID_ne n h := by simpa [digits] using congrArg String.toList h
  newID_plain n c hc := by
    rw [String.toList_ofList] at hc
    rcases List.mem_append.mp hc with hc | hc
    · exact isSpace_of_mem_digits hc
    · exact isSpace_of_mem_digits hc

/-- An agent with the capabilities that agents have by default, and `task:update`. -/
def sampleAgent (id : String)
    (named : trimSpace id ≠ "" := by first | exact builder_named | decide) : Principal :=
  agentPrincipal id
    { defaultAgentPolicy with capabilities := .taskUpdate :: defaultAgentPolicy.capabilities } named

end Taskboard
