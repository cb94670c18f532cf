import Taskboard.Update

/-!
# Completion requirements and their evidence

A person adds what a task needs before it is done; runs and people submit evidence; a
review satisfies, waives or reopens a requirement and settles the evidence it names.
Satisfying one asks that the reviewer is not among the builders of the evidence.
-/

namespace Taskboard

variable {kind : CompletionRequirementKind} {ev : Event → Prop} {env : Env} {principal : Principal}
  {svc : Service} {requirementID taskID : String}

variable {builders : List String} {refused : Option String} {message reasonCode : String} {u : Unit}

variable {lg : List Ledger}

/-- `GetCompletionRequirement`, without the evidence it carries along. -/
def getCompletionRequirement (id : String) : CallM CompletionRequirement :=
  Call.lookOr fun db => found (db.completionRequirements.find? fun row => row.id = id)

/-- A requirement, where it is one of this task. -/
def requirementOf (taskID requirementID : String) : CallM CompletionRequirement := do
  let requirement ← getCompletionRequirement requirementID
  refuse (requirement.taskID ≠ taskID) ServiceError.notFound
  pure requirement

section Reads

theorem quiet_requirementOf : (requirementOf taskID requirementID).Quiet :=
  Call.quiet_bind (Call.quiet_lookOr _) fun _ =>
    Call.quiet_lift_bind fun _ => Call.quiet_pure _

end Reads

/-- The statement that moves the task's version on behalf of an editor. -/
def touchTask (taskID : String) (expected : Int) (editor : String) (now : Instant) : TxM Nat :=
  bumpTask taskID expected (fun _ => true) fun task =>
    { task with lastEditedBy := editor, updatedAt := now }

theorem plain_touchTask {taskID editor : String} {expected : Int}
    {now : Instant} : (touchTask taskID expected editor now).Each (Plain lg ev) :=
  Footprint.each_bumpTask fun _ => ⟨rfl, rfl, rfl, rfl, rfl, rfl, rfl, rfl, rfl, Int.le.intro 1 rfl⟩

/-- The transaction of `CreateCompletionRequirementFor`. The conditional update of the
task is the one statement whose count the source does not look at. -/
def createCompletionRequirementTx (env : Env) (taskID : String)
    (kind : CompletionRequirementKind) (request : CreateCompletionRequirementRequest)
    (principal : Principal) : TxM CompletionRequirement := do
  let item : CompletionRequirement :=
    { id := env.newID 0
      taskID := taskID
      kind := kind
      label := request.label
      required := request.required
      status := .pending
      createdBy := principal.id
      createdAt := env.now
      updatedAt := env.now }
  let current ← loadTask taskID
  refuse (current.version ≠ request.expectedVersion) ErrConflict
  refuse current.status.terminal (ErrValidation "terminal task contracts cannot change")
  completionRequirementTable.insert item (fun db => (db.task? taskID).isSome)
    (.database "insert completion requirement")
  let _ ← touchTask taskID request.expectedVersion principal.id env.now
  insertEvent
    { id := env.newID 1
      taskID := taskID
      kind := "task.completion_requirement_added"
      actor := principal.id
      message := "Completion requirement added"
      payload := [("requirement_id", .text item.id), ("kind", .text kind.toString),
        ("required", .flag item.required), ("version", .number (request.expectedVersion + 1))]
      createdAt := env.now }
  pure item

/-- `CreateCompletionRequirementFor`. -/
def createCompletionRequirementFor (svc : Service) (env : Env) (taskID : String)
    (request : CreateCompletionRequirementRequest) (principal : Principal) :
    CallM CompletionRequirement := do
  refuse (principal.agent || !principal.can .taskWrite) ErrForbidden
  let taskID := trimSpace taskID
  let request := { request with label := trimSpace request.label }
  let required := ErrValidation
    "kind, 1-300 character label, and expected_version are required"
  refuse (request.label = "" ∨ 300 < byteLen request.label ∨ request.expectedVersion < 1)
    required
  let some kind := CompletionRequirementKind.ofString? request.kind | Call.fail required
  let task ← getForHidden svc env.checked taskID principal
  refuse (!canMutate task.toTask principal) ErrForbidden
  Call.tx (createCompletionRequirementTx env taskID kind request principal)

section Create

variable {request : CreateCompletionRequirementRequest}

theorem plain_createCompletionRequirementTx :
    (createCompletionRequirementTx env taskID kind request principal).Each
      (Plain [.completionRequirements] Event.Unkeyed) := by
  refine Tx.each_selectOr_bind fun _ => ?_
  refine Tx.each_lift_bind fun _ => ?_
  refine Tx.each_lift_bind fun _ => ?_
  refine Tx.each_bind (Table.each_insert fun db =>
    { Footprint.refl _ _ _ _ db with
      completionRequirements := evolves_append trivial
      sameRequirements := fun h => absurd List.mem_cons_self h }) fun _ => ?_
  refine Tx.each_bind plain_touchTask fun _ => ?_
  exact Tx.each_bind (Footprint.each_insertEvent rfl) fun _ => Tx.each_pure _

theorem plain_createCompletionRequirementFor :
    (createCompletionRequirementFor svc env taskID request principal).Each
      (Plain [.completionRequirements] Event.Unkeyed) := by
  refine Call.each_lift_bind fun _ _ => ?_
  refine Call.each_lift_bind fun _ _ => ?_
  split
  · refine Call.each_bind quiet_getForHidden.each fun _ => ?_
    refine Call.each_lift_bind fun _ _ => ?_
    exact Call.each_tx fun _ _ => plain_createCompletionRequirementTx.run
  · exact (Call.quiet_fail _).each

/-- A requirement is added, pending, to a task that is neither done nor cancelled. -/
def Requires (taskID : String) (db db' : Db) : Prop :=
  ∃ current item, db.task? taskID = some current ∧ current.status.terminal = false ∧
    item.taskID = taskID ∧ (∀ row ∈ db.completionRequirements, row.id ≠ item.id) ∧
    db'.completionRequirements = db.completionRequirements ++ [item]

theorem createCompletionRequirementTx_ok {db db' : Db} {item : CompletionRequirement}
    (h : (createCompletionRequirementTx env taskID kind request principal).run db =
      .ok (item, db')) : Requires taskID db db' := by
  simp only [createCompletionRequirementTx, touchTask, run_loadTask_bind_ok,
    Tx.run_refuse_bind_ok, Table.run_insert_bind_ok, run_bumpTask_bind_ok,
    completionRequirementTable] at h
  obtain ⟨current, hcurrent, -, hopen, -, hfresh, h⟩ := h
  obtain ⟨_, _, hevent, hpure⟩ := Tx.run_bind_ok.mp h
  obtain ⟨-, -, rfl⟩ := run_insertEvent_ok.mp hevent
  obtain ⟨-, rfl⟩ := Tx.run_pure_ok.mp hpure
  refine ⟨current, _, hcurrent, by simpa using hopen, ?_, ?_, rfl⟩
  · rfl
  · simpa using hfresh

theorem atMost_createCompletionRequirementFor :
    (createCompletionRequirementFor svc env taskID request principal).AtMost
      (Requires (trimSpace taskID)) := by
  refine Call.atMost_lift_bind fun _ _ => ?_
  refine Call.atMost_lift_bind fun _ _ => ?_
  split
  · refine Call.atMost_bind_quiet quiet_getForHidden fun _ => ?_
    refine Call.atMost_lift_bind fun _ _ => ?_
    exact (Call.atMost_tx _).mono fun _ _ ⟨_, hrun⟩ => createCompletionRequirementTx_ok hrun
  · exact Call.atMost_of_quiet (Call.quiet_fail _)

end Create

/-- `requiredReferenceKind`. -/
def requiredReferenceKind : CompletionRequirementKind → Option ReferenceKind
  | .pullRequest => some .pullRequest
  | .greenCI => some .ciRun
  | .validation => some .screenshot
  | .resolvedReview => some .review
  | .deployment => some .deployment
  | .humanApproval | .custom => none

/-- The request as `SubmitCompletionEvidenceFor` cleans it. -/
def SubmitCompletionEvidenceRequest.clean (request : SubmitCompletionEvidenceRequest) :
    SubmitCompletionEvidenceRequest :=
  { request with
    runID := trimSpace request.runID
    referenceID := trimSpace request.referenceID
    note := trimSpace request.note }

/-- The checks of `SubmitCompletionEvidenceFor` on the request alone. -/
def validateEvidence (request : SubmitCompletionEvidenceRequest) : Except ServiceError Unit := do
  refuse (request.referenceID = "" ∧ request.note = "")
    (ErrValidation "reference_id or concise evidence note is required")
  refuse (2000 < byteLen request.note)
    (ErrValidation "evidence note is limited to 2000 characters")

/-- The checks of `SubmitCompletionEvidenceFor` on the task and the run. -/
def checkEvidence (task : TaskView) (request : SubmitCompletionEvidenceRequest)
    (principal : Principal) (now : Instant) : Except ServiceError Unit := do
  refuse (!canMutate task.toTask principal) ErrForbidden
  if principal.agent then
    refuse (activeOwnedRun task.runs request.runID principal.id = none)
      (ErrValidation "active owned run is required")
    refuse (!principal.hasCapability .taskEvidence &&
        !holdsLease task.runs request.runID principal now)
      (missingCapability "task:evidence"
        "submit evidence for a task whose lease the run does not hold")
  else
    refuse (!principal.can .taskWrite) ErrForbidden

/-- The checks of `SubmitCompletionEvidenceFor` on the reference it cites. -/
def checkEvidenceReference (taskID : String) (requirement : CompletionRequirement)
    (request : SubmitCompletionEvidenceRequest) : CallM Unit :=
  if request.referenceID = "" then pure ()
  else Call.lookOr fun db =>
    match db.references.find? fun row => row.id = request.referenceID with
    | none => .error (ErrValidation "evidence reference must belong to the task")
    | some reference => do
        refuse (reference.taskID ≠ taskID)
          (ErrValidation "evidence reference must belong to the task")
        match requiredReferenceKind requirement.kind with
        | some expected =>
            refuse (reference.kind ≠ expected)
              (ServiceError.validation "%s evidence requires a %s reference"
                [requirement.kind.toString, expected.toString])
        | none => pure ()

/-- What `SubmitCompletionEvidenceFor` checks before it looks for the key. -/
def maySubmitEvidence (svc : Service) (env : Env) (taskID requirementID : String)
    (request : SubmitCompletionEvidenceRequest) (principal : Principal) : CallM Unit := do
  validateEvidence request
  let task ← getForHidden svc env.checked taskID principal
  checkEvidence task request principal env.checked
  let requirement ← requirementOf taskID requirementID
  checkEvidenceReference taskID requirement request

/-- The transaction of `SubmitCompletionEvidenceFor`. -/
def submitEvidenceTx (env : Env) (taskID requirementID : String)
    (request : SubmitCompletionEvidenceRequest) (principal : Principal) :
    TxM CompletionEvidence := do
  let item : CompletionEvidence :=
    { id := env.newID 0
      requirementID := requirementID
      taskID := taskID
      runID := request.runID
      referenceID := request.referenceID
      note := request.note
      status := .submitted
      submittedBy := principal.id
      submittedAt := env.now }
  evidenceTable.insert item
    (fun db => (db.task? taskID).isSome && db.hasRun request.runID &&
      (db.completionRequirements.any fun row => row.id = requirementID) &&
      (request.referenceID = "" || db.references.any fun row => row.id = request.referenceID))
    (.database "insert completion evidence")
  insertEvent
    { id := env.newID 1
      taskID := taskID
      runID := request.runID
      kind := "task.completion_evidence_submitted"
      actor := principal.id
      message := "Completion evidence submitted"
      payload := mergePayload
        [("evidence_id", .text item.id), ("requirement_id", .text requirementID)]
        (idempotencyPayload "task_completion_evidence_submit" request.idempotencyKey
          (some (.submitEvidence taskID requirementID request)))
      createdAt := env.now }
  pure item

/-- The evidence of the requirements of a task, as `ListCompletionRequirements` carries
it. -/
def Db.evidenceOf (db : Db) (taskID : String) : List CompletionEvidence :=
  (db.completionRequirements.filter fun row => row.taskID = taskID).flatMap fun requirement =>
    db.evidence.filter fun row => row.requirementID = requirement.id

/-- `SubmitCompletionEvidenceFor`. A replay whose record is not found is submitted again. -/
def submitCompletionEvidenceFor (svc : Service) (env : Env) (taskID requirementID : String)
    (request : SubmitCompletionEvidenceRequest) (principal : Principal) :
    CallM CompletionEvidence := do
  let taskID := trimSpace taskID
  let requirementID := trimSpace requirementID
  let request := request.clean
  maySubmitEvidence svc env taskID requirementID request principal
  let submit : CallM CompletionEvidence :=
    Call.tx (submitEvidenceTx env taskID requirementID request principal)
  keyed svc (request.idempotencyKey ≠ "") principal "task_completion_evidence_submit"
    request.idempotencyKey (.submitEvidence taskID requirementID request)
    (fun event => do
      let record ← Call.look fun db => (db.evidenceOf taskID).find? fun row =>
        row.id = Payload.text event.payload "evidence_id"
      match record with
      | some record => pure record
      | none => submit)
    submit

section Submit

variable {request : SubmitCompletionEvidenceRequest} {tk : List Task → List Task → Prop}
  {rn : List AgentRun → List AgentRun → Prop}

theorem quiet_maySubmitEvidence :
    (maySubmitEvidence svc env taskID requirementID request principal).Quiet := by
  refine Call.quiet_lift_bind fun _ => ?_
  refine Call.quiet_bind quiet_getForHidden fun _ => ?_
  refine Call.quiet_lift_bind fun _ => ?_
  refine Call.quiet_bind quiet_requirementOf fun requirement => ?_
  unfold checkEvidenceReference
  exact Call.quiet_ite (Call.quiet_pure _) (Call.quiet_lookOr _)

theorem each_submitEvidenceTx [Std.Refl tk] [Std.Refl rn] :
    (submitEvidenceTx env taskID requirementID request principal).Each
      (Footprint [.evidence] tk rn (Event.Under "task_completion_evidence_submit")) := by
  refine Tx.each_bind (Table.each_insert fun db =>
    { Footprint.refl [.evidence] tk rn _ db with
      evidence := evolves_append trivial
      sameEvidence := fun h => absurd List.mem_cons_self h }) fun _ => ?_
  exact Tx.each_bind (Footprint.each_insertEvent
    (Event.under_merge (by simp [Payload.Keyless]) rfl)) fun _ => Tx.each_pure _

theorem each_submitCompletionEvidenceFor [IsPreorder _ tk] [IsPreorder _ rn] :
    (submitCompletionEvidenceFor svc env taskID requirementID request principal).Each
      (Footprint [.evidence] tk rn (Event.Under "task_completion_evidence_submit")) := by
  refine Call.each_bind quiet_maySubmitEvidence.each fun _ => ?_
  refine each_keyed (fun event => ?_) (Call.each_tx fun _ _ => each_submitEvidenceTx.run)
  refine Call.each_bind (Call.quiet_look _).each fun record => ?_
  cases record with
  | some record => exact (Call.quiet_pure _).each
  | none => exact Call.each_tx fun _ _ => each_submitEvidenceTx.run

end Submit

/-- The request as `ReviewCompletionRequirementFor` cleans it. -/
def ReviewCompletionRequest.clean (request : ReviewCompletionRequest) :
    ReviewCompletionRequest :=
  { request with
    evidenceID := trimSpace request.evidenceID
    note := trimSpace request.note
    separationOverrideReason := trimSpace request.separationOverrideReason }

/-- The checks of `ReviewCompletionRequirementFor` on the request alone. -/
def validateReview (request : ReviewCompletionRequest) :
    Except ServiceError CompletionRequirementStatus := do
  refuse (request.expectedVersion < 1) (ErrValidation "expected_version is required")
  let status ← named CompletionRequirementStatus.ofString?
    "status must be satisfied, waived, or pending" request.status
  refuse (status = .waived ∧ request.note = "") (ErrValidation "waiver requires a reason")
  refuse (request.separationOverride ∧ status ≠ .satisfied)
    (ErrValidation "separation override is only valid when satisfying a requirement")
  refuse (request.separationOverride ∧ (request.separationOverrideReason = "" ∨
      1000 < byteLen request.separationOverrideReason))
    (ErrValidation "separation override requires a 1-1000 character reason")
  pure status

/-- The principals behind a piece of evidence: its submitter, and the creator of the
reference it cites. -/
def evidenceBuilders (taskID requirementID evidenceID : String) : TxM (List String) :=
  if evidenceID = "" then pure []
  else do
    let evidence ← Tx.selectOr fun db =>
      match db.evidence.find? fun row =>
          row.id = evidenceID ∧ row.requirementID = requirementID with
      | some evidence => .ok evidence
      | none => .error (ErrValidation "evidence not found")
    if evidence.referenceID = "" then pure [evidence.submittedBy]
    else do
      let reference ← Tx.selectOr fun db =>
        match db.references.find? fun row =>
            row.id = evidence.referenceID ∧ row.taskID = taskID with
        | some reference => .ok reference
        | none => .error (ErrValidation "evidence reference not found")
      pure [evidence.submittedBy, reference.createdBy]

/-- `completionBuilderPrincipals`: every agent with a run on the task and the principals
behind the evidence, without empty names. -/
def completionBuilderPrincipals (taskID requirementID evidenceID : String) :
    TxM (List String) := do
  let agents ← Tx.select fun db => (db.runsOf taskID).map (·.agent)
  let others ← evidenceBuilders taskID requirementID evidenceID
  pure (sortBy (fun a b => a < b) (unique (agents ++ others)))

/-- The event of a review that was refused. -/
def rejectCompletionReview (env : Env) (taskID requirementID : String)
    (request : ReviewCompletionRequest) (principal : Principal) (builders : List String)
    (reasonCode message : String) (hash : Digest) : TxM (Option String) := do
  insertEvent
    { id := env.newID 0
      taskID := taskID
      kind := "task.completion_review_rejected"
      actor := principal.id
      message := "Completion review rejected"
      payload := mergePayload
        [("requirement_id", .text requirementID), ("evidence_id", .text request.evidenceID),
          ("validator_principal", .text principal.id), ("builder_principals", .texts builders),
          ("reason_code", .text reasonCode), ("reason", .text message)]
        (idempotencyPayload "task_completion_review" request.idempotencyKey (some hash))
      createdAt := env.now }
  pure (some message)

/-- The row of a piece of evidence after a review that names it. -/
def CompletionEvidence.settled (row : CompletionEvidence) (request : ReviewCompletionRequest)
    (status : CompletionRequirementStatus) (reviewer : String) (now : Instant) :
    CompletionEvidence :=
  { row with
    status := if status = .pending then .rejected else .verified
    reviewedBy := reviewer
    reviewNote := request.note
    reviewedAt := some now }

/-- The part of a review that settles the evidence it names. -/
def settleEvidence (env : Env) (requirementID : String)
    (request : ReviewCompletionRequest) (status : CompletionRequirementStatus)
    (principal : Principal) : TxM Unit :=
  if request.evidenceID = "" then pure ()
  else do
    let count ← evidenceTable.updateWhere
      (fun _ row => row.id = request.evidenceID && row.requirementID = requirementID)
      (·.settled request status principal.id env.now)
    refuse (count ≠ 1) (ErrValidation "evidence not found")

/-- The part of a review that is accepted. -/
def acceptReview (env : Env) (taskID requirementID : String)
    (request : ReviewCompletionRequest) (status : CompletionRequirementStatus)
    (principal : Principal) (builders : List String) (hash : Digest) : TxM Unit := do
  settleEvidence env requirementID request status principal
  let _ ← completionRequirementTable.updateWhere (fun _ row => row.id = requirementID)
    fun row =>
      { row with
        status := status
        verifiedBy := if status = .pending then "" else principal.id
        waiverReason := if status = .waived then request.note else ""
        updatedAt := env.now
        verifiedAt := if status = .pending then none else some env.now }
  let count ← touchTask taskID request.expectedVersion principal.id env.now
  refuse (count ≠ 1) ErrConflict
  insertEvent
    { id := env.newID 0
      taskID := taskID
      kind := "task.completion_requirement_reviewed"
      actor := principal.id
      message := "Completion requirement reviewed"
      payload := mergePayload
        (mergePayload
          [("requirement_id", .text requirementID), ("status", .text status.toString),
            ("evidence_id", .text request.evidenceID),
            ("version", .number (request.expectedVersion + 1))]
          (idempotencyPayload "task_completion_review" request.idempotencyKey (some hash)))
        (if request.separationOverride then
          [("separation_override", .flag true),
            ("separation_override_reason", .text request.separationOverrideReason),
            ("builder_principals", .texts builders)]
        else [])
      createdAt := env.now }

/-- The transaction of `ReviewCompletionRequirementFor`. A refusal for lack of separation
commits its own event; the result is then its reason. -/
def reviewCompletionTx (env : Env) (taskID requirementID : String)
    (request : ReviewCompletionRequest) (status : CompletionRequirementStatus)
    (principal : Principal) (hash : Digest) : TxM (Option String) := do
  let current ← loadTask taskID
  refuse (current.version ≠ request.expectedVersion) ErrConflict
  if status = .satisfied then
    let builders ← completionBuilderPrincipals taskID requirementID request.evidenceID
    let selfValidation := decide (principal.id ∈ builders)
    refuse (request.separationOverride ∧ !selfValidation)
      (ErrValidation "separation override requires a builder-validator conflict")
    if selfValidation ∧ request.separationOverride ∧
        (principal.agent ∨ (principal.role ≠ .owner ∧ principal.role ≠ .admin)) then
      rejectCompletionReview env taskID requirementID request principal builders
        "override_not_authorized"
        "only owners and admins may override builder-validator separation" hash
    else if selfValidation ∧ !request.separationOverride then
      rejectCompletionReview env taskID requirementID request principal builders
        "builder_validator_same_principal"
        "validator principal is recorded in the task's builder provenance" hash
    else do
      acceptReview env taskID requirementID request status principal builders hash
      pure none
  else do
    acceptReview env taskID requirementID request status principal [] hash
    pure none

/-- The answer of a replayed review. -/
def replayedReview (requirementID : String) (event : Event) : CallM CompletionRequirement := do
  refuse ((event.payload.lookup "reason_code").isSome)
    (ServiceError.validation "%s" [Payload.text event.payload "reason"])
  getCompletionRequirement requirementID

/-- `ReviewCompletionRequirementFor`. -/
def reviewCompletionRequirementFor (svc : Service) (env : Env) (taskID requirementID : String)
    (request : ReviewCompletionRequest) (principal : Principal) :
    CallM CompletionRequirement := do
  refuse (principal.agent && !principal.hasCapability .taskValidate) ErrForbidden
  refuse (!principal.agent && !principal.can .taskWrite) ErrForbidden
  let taskID := trimSpace taskID
  let requirementID := trimSpace requirementID
  let request := request.clean
  let status ← validateReview request
  let task ← getForHidden svc env.checked taskID principal
  refuse (if principal.agent then !canView task.toTask principal
    else !canMutate task.toTask principal) ErrForbidden
  let requirement ← requirementOf taskID requirementID
  refuse (status = .satisfied ∧ requirement.kind ≠ .humanApproval ∧ request.evidenceID = "")
    (ErrValidation "satisfying this requirement requires evidence_id")
  let hash : Digest := .reviewCompletion taskID requirementID request
  keyed svc (request.idempotencyKey ≠ "") principal "task_completion_review"
    request.idempotencyKey hash (replayedReview requirementID)
    (do
      let refused ← Call.tx
        (reviewCompletionTx env taskID requirementID request status principal hash)
      match refused with
      | some reason => Call.fail (.validation "%s" [reason])
      | none => getCompletionRequirement requirementID)

section Review

variable {request : ReviewCompletionRequest} {status : CompletionRequirementStatus} {hash : Digest}

theorem each_completionBuilderPrincipals {R : Db → Db → Prop} {evidenceID : String} :
    (completionBuilderPrincipals taskID requirementID evidenceID).Each R := by
  refine Tx.each_select_bind fun _ => ?_
  refine Tx.each_bind ?_ fun _ => Tx.each_pure _
  unfold evidenceBuilders
  refine Tx.each_ite (Tx.each_pure _) ?_
  refine Tx.each_selectOr_bind fun _ => ?_
  exact Tx.each_ite (Tx.each_pure _)
    (Tx.each_selectOr_bind fun _ => Tx.each_pure _)

theorem plain_rejectCompletionReview :
    (rejectCompletionReview env taskID requirementID request principal builders reasonCode message
      hash).Each (Plain [.evidence, .completionRequirements] (Event.Under "task_completion_review")) :=
  Tx.each_bind (Footprint.each_insertEvent (Event.under_merge (by simp [Payload.Keyless]) rfl))
    fun _ => Tx.each_pure _

theorem plain_settleEvidence :
    (settleEvidence env requirementID request status principal).Each (Plain [.evidence, .completionRequirements] ev) := by
  unfold settleEvidence
  refine Tx.each_ite (Tx.each_pure _) ?_
  refine Tx.each_bind (Table.each_updateWhere fun db => ?_) fun _ => Tx.each_lift _
  exact { Footprint.refl _ _ _ _ db with
    evidence := .of_forall₂ (forall₂_mapWhere fun _ _ _ => rfl)
    sameEvidence := fun h => absurd List.mem_cons_self h }

theorem plain_acceptReview :
    (acceptReview env taskID requirementID request status principal builders hash).Each
      (Plain [.evidence, .completionRequirements] (Event.Under "task_completion_review")) := by
  refine Tx.each_bind plain_settleEvidence fun _ => ?_
  refine Tx.each_bind (Table.each_updateWhere fun db =>
    { Footprint.refl _ _ _ _ db with
      completionRequirements := .of_forall₂ (forall₂_mapWhere fun _ _ _ => rfl)
      sameRequirements := fun h => absurd (List.mem_cons_of_mem _ List.mem_cons_self) h }) fun _ => ?_
  refine Tx.each_bind plain_touchTask fun _ => ?_
  refine Tx.each_lift_bind fun _ => ?_
  refine Footprint.each_insertEvent (Event.under_of_payload ?_ ?_ rfl)
  · split <;> simp [Payload.Keyless]
  · simp [Payload.Keyless]

theorem plain_reviewCompletionTx :
    (reviewCompletionTx env taskID requirementID request status principal hash).Each
      (Plain [.evidence, .completionRequirements] (Event.Under "task_completion_review")) := by
  refine Tx.each_selectOr_bind fun _ => ?_
  refine Tx.each_lift_bind fun _ => ?_
  refine Tx.each_ite ?_ (Tx.each_bind plain_acceptReview fun _ => Tx.each_pure _)
  refine Tx.each_bind each_completionBuilderPrincipals fun _ => ?_
  refine Tx.each_lift_bind fun _ => ?_
  refine Tx.each_ite plain_rejectCompletionReview ?_
  exact Tx.each_ite plain_rejectCompletionReview
    (Tx.each_bind plain_acceptReview fun _ => Tx.each_pure _)

theorem plain_reviewCompletionRequirementFor :
    (reviewCompletionRequirementFor svc env taskID requirementID request principal).Each
      (Plain [.evidence, .completionRequirements] (Event.Under "task_completion_review")) := by
  refine Call.each_lift_bind fun _ _ => ?_
  refine Call.each_lift_bind fun _ _ => ?_
  refine Call.each_lift_bind fun _ _ => ?_
  refine Call.each_bind quiet_getForHidden.each fun _ => ?_
  refine Call.each_lift_bind fun _ _ => ?_
  refine Call.each_bind quiet_requirementOf.each fun _ => ?_
  refine Call.each_lift_bind fun _ _ => ?_
  refine each_keyed (fun _ => Call.each_lift_bind fun _ _ =>
    (Call.quiet_lookOr _).each) ?_
  refine Call.each_bind (Call.each_tx fun _ _ => plain_reviewCompletionTx.run) fun refused => ?_
  cases refused with
  | some reason => exact (Call.quiet_fail _).each
  | none => exact (Call.quiet_lookOr _).each

theorem validateReview_ok (h : validateReview request = .ok status):
    CompletionRequirementStatus.ofString? request.status = some status ∧
      (request.separationOverride = true →
        status = .satisfied ∧ request.separationOverrideReason ≠ "") := by
  simp only [validateReview, Except.bind_ok_iff, refuse_ok_iff, named_ok_iff] at h
  obtain ⟨_, -, _, hnamed, _, -, _, hsatisfied, _, hreason, h⟩ := h
  cases h
  exact ⟨hnamed, by grind⟩

variable {db db' : Db}

/-- What settling does to the evidence, of which it names one row or none. -/
def Settles (env : Env) (requirementID : String) (request : ReviewCompletionRequest)
    (status : CompletionRequirementStatus) (principal : Principal)
    (rows rows' : List CompletionEvidence) : Prop :=
  (request.evidenceID = "" ∧ rows' = rows) ∨
    (request.evidenceID ≠ "" ∧
      (rows.filter fun row =>
        row.id = request.evidenceID && row.requirementID = requirementID).length = 1 ∧
      rows' = mapWhere
        (fun row => row.id = request.evidenceID && row.requirementID = requirementID)
        (·.settled request status principal.id env.now) rows)

theorem settleEvidence_ok
    (h : (settleEvidence env requirementID request status principal).run db = .ok (u, db')) :
    ∃ evidence, Settles env requirementID request status principal db.evidence evidence ∧
      db' = { db with evidence } := by
  simp only [settleEvidence, Tx.run_ite_ok, Tx.run_bind_ok, Table.run_updateWhere_ok,
    Tx.run_pure_ok, Tx.run_lift_ok, refuse_ok_iff, ne_eq, not_not, evidenceTable] at h
  rcases h with ⟨hempty, -, rfl⟩ | ⟨hnamed, count, _, ⟨hcount, rfl⟩, hone, rfl⟩
  · exact ⟨_, Or.inl ⟨hempty, rfl⟩, rfl⟩
  · exact ⟨_, Or.inr ⟨hnamed, hcount ▸ hone, rfl⟩, rfl⟩

theorem acceptReview_ok
    (h : (acceptReview env taskID requirementID request status principal builders hash).run db =
      .ok (u, db')) :
    Settles env requirementID request status principal db.evidence db'.evidence := by
  simp only [acceptReview, touchTask, bumpTask, Tx.run_bind_ok,
    Tx.run_lift_ok, run_insertEvent_ok] at h
  obtain ⟨_, _, hsettle, _, _, ⟨-, rfl⟩, _, _, ⟨-, rfl⟩, _, _, ⟨-, rfl⟩, -, -, rfl⟩ := h
  obtain ⟨evidence, hsettles, rfl⟩ := settleEvidence_ok hsettle
  exact hsettles

theorem rejectCompletionReview_ok
    (h : (rejectCompletionReview env taskID requirementID request principal builders reasonCode
      message hash).run db = .ok (refused, db')) : db'.evidence = db.evidence := by
  simp only [rejectCompletionReview, Tx.run_bind_ok, run_insertEvent_ok, Tx.run_pure_ok] at h
  obtain ⟨_, _, ⟨-, -, rfl⟩, -, rfl⟩ := h
  rfl

/-- **A review.** It leaves the evidence alone, or it settles what it names; and it
satisfies a requirement only where the reviewer is none of the builders, or an owner or
admin overrides the separation. -/
theorem reviewCompletionTx_ok
    (h : (reviewCompletionTx env taskID requirementID request status principal hash).run db =
      .ok (refused, db')) :
    db'.evidence = db.evidence ∨
      (Settles env requirementID request status principal db.evidence db'.evidence ∧
        (status = .satisfied → ∃ builders,
          (completionBuilderPrincipals taskID requirementID request.evidenceID).run db =
            .ok (builders, db) ∧
          (request.separationOverride = true ↔ principal.id ∈ builders) ∧
          (principal.id ∈ builders →
            principal.agent = false ∧ (principal.role = .owner ∨ principal.role = .admin)))) := by
  simp only [reviewCompletionTx, Tx.run_bind_ok, run_loadTask_ok, Tx.run_lift_ok, Tx.run_ite_ok,
    Tx.run_pure_ok] at h
  obtain ⟨_, _, ⟨-, rfl⟩, _, _, ⟨-, rfl⟩, hreview⟩ := h
  rcases hreview with ⟨hstatus, builders, _, hbuilders, _, _, ⟨hnamed, rfl⟩, hreview⟩ |
    ⟨hstatus, _, _, haccept, -, rfl⟩
  · obtain rfl := (each_completionBuilderPrincipals (R := Eq)).run hbuilders
    rcases hreview with ⟨-, hreject⟩ | ⟨hauthorized, ⟨-, hreject⟩ | ⟨hseparate, _, _, haccept, -, rfl⟩⟩
    · exact Or.inl (rejectCompletionReview_ok hreject)
    · exact Or.inl (rejectCompletionReview_ok hreject)
    · refine Or.inr ⟨acceptReview_ok haccept, fun _ => ⟨builders, hbuilders, ?_, fun hself => ?_⟩⟩
      · rw [refuse_ok_iff] at hnamed
        grind
      · grind
  · exact Or.inr ⟨acceptReview_ok haccept, fun h => absurd h hstatus⟩

/-- The requirement a review names takes on its status, or requirements stay as they are. -/
def Reviews (requirementID : String) (status : CompletionRequirementStatus) (db db' : Db) : Prop :=
  db'.completionRequirements = db.completionRequirements ∨
    ∃ f : CompletionRequirement → CompletionRequirement,
      (∀ row, (f row).id = row.id ∧ (f row).taskID = row.taskID ∧ (f row).status = status) ∧
      db'.completionRequirements =
        mapWhere (fun row => row.id = requirementID) f db.completionRequirements

theorem acceptReview_rows
    (h : (acceptReview env taskID requirementID request status principal builders hash).run db =
      .ok (u, db')) : Reviews requirementID status db db' := by
  obtain ⟨_, _, hsettle, h⟩ := Tx.run_bind_ok.mp h
  obtain ⟨evidence, -, rfl⟩ := settleEvidence_ok hsettle
  simp only [touchTask, Table.run_updateWhere_bind_ok, run_bumpTask_bind_ok,
    Tx.run_refuse_bind_ok, run_insertEvent_ok, completionRequirementTable] at h
  obtain ⟨-, -, -, rfl⟩ := h
  refine Or.inr ⟨_, fun row => ?_, rfl⟩
  exact ⟨rfl, rfl, rfl⟩

theorem rejectCompletionReview_rows
    (h : (rejectCompletionReview env taskID requirementID request principal builders reasonCode
      message hash).run db = .ok (refused, db')) : Reviews requirementID status db db' := by
  simp only [rejectCompletionReview, Tx.run_bind_ok, run_insertEvent_ok, Tx.run_pure_ok] at h
  obtain ⟨_, _, ⟨-, -, rfl⟩, -, rfl⟩ := h
  exact Or.inl rfl

theorem reviewCompletionTx_rows
    (h : (reviewCompletionTx env taskID requirementID request status principal hash).run db =
      .ok (refused, db')) : Reviews requirementID status db db' := by
  simp only [reviewCompletionTx, run_loadTask_bind_ok, Tx.run_refuse_bind_ok, Tx.run_ite_ok] at h
  obtain ⟨_, -, -, ⟨-, h⟩ | ⟨-, h⟩⟩ := h
  · obtain ⟨builders, _, hbuilders, h⟩ := Tx.run_bind_ok.mp h
    obtain rfl := (each_completionBuilderPrincipals (R := Eq)).run hbuilders
    simp only [Tx.run_refuse_bind_ok, Tx.run_ite_ok] at h
    obtain ⟨-, ⟨-, h⟩ | ⟨-, ⟨-, h⟩ | ⟨-, h⟩⟩⟩ := h
    · exact rejectCompletionReview_rows h
    · exact rejectCompletionReview_rows h
    · obtain ⟨_, _, haccept, hpure⟩ := Tx.run_bind_ok.mp h
      obtain ⟨-, rfl⟩ := Tx.run_pure_ok.mp hpure
      exact acceptReview_rows haccept
  · obtain ⟨_, _, haccept, hpure⟩ := Tx.run_bind_ok.mp h
    obtain ⟨-, rfl⟩ := Tx.run_pure_ok.mp hpure
    exact acceptReview_rows haccept

theorem requirementOf_ok {requirement : CompletionRequirement}
    (h : (requirementOf taskID requirementID).exec db = (.ok requirement, db')) :
    (db.completionRequirements.find? fun row => row.id = requirementID) = some requirement ∧
      requirement.taskID = taskID := by
  obtain ⟨row, hrow, h⟩ := Call.exec_bind_quiet_ok (Call.quiet_lookOr _) h
  obtain ⟨_, hcheck, h⟩ := Call.exec_lift_bind_ok h
  simp only [Call.exec_lookOr, Prod.mk.injEq, found_ok_iff, and_true] at hrow
  simp only [Call.exec_lift, Prod.mk.injEq, refuse_ok_iff, ne_eq, not_not, and_true] at hcheck
  simp only [Call.exec_pure, Prod.mk.injEq, Except.ok.injEq] at h
  obtain ⟨rfl, -⟩ := h
  exact ⟨hrow, hcheck⟩

/-- **What a review does to the requirements.** The one it names is of the task it names. -/
theorem atMost_reviewCompletionRequirementFor :
    (reviewCompletionRequirementFor svc env taskID requirementID request principal).AtMost
      fun db db' => ∃ requirement status,
        (db.completionRequirements.find? fun row => row.id = trimSpace requirementID) =
          some requirement ∧ requirement.taskID = trimSpace taskID ∧
        CompletionRequirementStatus.ofString? request.status = some status ∧
        Reviews (trimSpace requirementID) status db db' := by
  refine Call.atMost_lift_bind fun _ _ => ?_
  refine Call.atMost_lift_bind fun _ _ => ?_
  refine Call.atMost_lift_bind fun status hstatus => ?_
  refine Call.atMost_bind_quiet quiet_getForHidden fun _ => ?_
  refine Call.atMost_lift_bind fun _ _ => ?_
  refine Call.atMost_bind_seen quiet_requirementOf (fun _ _ => requirementOf_ok)
    fun requirement => ?_
  refine Call.atMost_lift_bind fun _ _ => ?_
  refine atMost_keyed (fun _ => Call.quiet_lift_bind fun _ => Call.quiet_lookOr _) ?_
  refine Call.atMost_then_quiet ((Call.atMost_tx _).mono fun db db' ⟨refused, hrun⟩ => ?_)
    fun refused => ?_
  · intro hseen
    exact ⟨requirement, status, hseen.1, hseen.2, (validateReview_ok hstatus).1,
      reviewCompletionTx_rows hrun⟩
  · cases refused with
    | some reason => exact Call.quiet_fail _
    | none => exact Call.quiet_lookOr _

end Review

end Taskboard
