import Taskboard.Pickup

/-!
# The general update

`updateFor` changes any field of a task, its checklist and, when the request names one,
its run. The transaction is written as the parts the source goes through in order; each
part has one job and touches one table, apart from `createRecurrence`, which records the
next occurrence of a recurring task.
-/

namespace Taskboard

variable {expected : Int} {rows rows' : List AgentRun} {view : TaskView}

variable {db db' : Db} {R : Db → Db → Prop} {env : Env} {now : Instant} {hash : Option Digest}
  {kept : Option Task} {svc : Service} {actor runID taskID : String} {current row : Task}
  {status : TaskStatus} {u : Unit} {request : UpdateRequest}

variable {lg : List Ledger} {update : TaskUpdate}

/-- An update that passed the validation of `Update`. -/
structure TaskUpdate where
  expectedVersion : Int
  runID : String
  status : Option TaskStatus
  title : Option String
  type : Option TaskType
  visibility : Option TaskVisibility
  summary : Option String
  owner : Option String
  «section» : Option String
  project : Option String
  repository : Option String
  priority : Option Priority
  dueDate : Option String
  deferUntil : Option String
  recurrence : Option String
  reviewed : Bool
  checklist : Option (List String)
  currentNote : Option String
  blocker : Option String
  waitingFor : Option String
  currentItemID : String
  completeItemIDs : List String
  skipItemIDs : List String
  skipReason : String
  addItems : List String
  duplicateOf : Option String
  idempotencyKey : String

/-- `validateStatusNotes`. -/
def validateStatusNotes (request : UpdateRequest) : Except ServiceError Unit := do
  for (name, value) in [("current_note", request.currentNote), ("blocker", request.blocker),
      ("waiting_for", request.waitingFor)] do
    refuse (value.any fun value => 300 < (trimSpace value).length)
      (ServiceError.validation "%s must be at most %d characters; it is the one-line status a person sees on the board. Put details, steps, logs and links in task_message_add or task_handoff_add, then keep %s to a short summary" [name, "300", name])

/-- The status an update asks for: marking a duplicate cancels the task. -/
def requestedStatus (request : UpdateRequest) : Except ServiceError (Option TaskStatus) := do
  let marks := request.duplicateOf.any fun target => trimSpace target ≠ ""
  let status := if marks && request.status = "" then "cancelled" else request.status
  refuse (marks ∧ status ≠ "cancelled")
    (ErrValidation "duplicate_of cancels the task and cannot be combined with another status")
  if status = "" then pure none
  else namedOption TaskStatus.ofString? "unknown task status" (some status)

/-- The status a task has after an update that is accepted. -/
def UpdateRequest.nextStatus (request : UpdateRequest) (current : TaskStatus) : TaskStatus :=
  if request.duplicateOf.any fun target => trimSpace target ≠ "" then .cancelled
  else (TaskStatus.ofString? request.status).getD current

theorem requestedStatus_ok {status : Option TaskStatus}
    (h : requestedStatus request = .ok status) (current : TaskStatus) :
    status.getD current = request.nextStatus current := by
  simp only [requestedStatus, Except.bind_ok_iff, refuse_ok_iff] at h
  obtain ⟨_, hcancels, h⟩ := h
  unfold UpdateRequest.nextStatus
  generalize (request.duplicateOf.any fun target => trimSpace target ≠ "") = marks at h hcancels ⊢
  cases marks with
  | true =>
      have hcancelled : (if request.status = "" then "cancelled" else request.status) =
          "cancelled" := by simpa using hcancels
      simp only [Bool.true_and, decide_eq_true_eq, hcancelled] at h
      cases h
      rfl
  | false =>
      simp only [Bool.false_and, Bool.false_eq_true, if_false] at h ⊢
      split at h
      · rename_i hempty
        cases h
        rw [hempty]
        rfl
      · obtain ⟨a, ha, rfl⟩ := namedOption_some_ok_iff.mp h
        simp [ha]

/-- A text field of an update, trimmed and no longer than `limit` bytes. -/
def limited (text : String) (limit : Nat) (value : Option String) :
    Except ServiceError (Option String) := do
  refuse (value.any fun value => limit < byteLen value) (ErrValidation text)
  pure value

/-- The checks `Update` makes before its transaction. -/
def validateUpdate (svc : Service) (taskID : String) (request : UpdateRequest) :
    Except ServiceError TaskUpdate := do
  refuse (taskID = "" ∨ request.expectedVersion < 1)
    (ErrValidation "task_id and expected_version are required")
  let status ← requestedStatus request
  validateStatusNotes request
  let type ← namedOption TaskType.ofString? "type must be personal or work"
    (if svc.fixedType.isSome then none
    else request.type.map fun value => svc.unicode.lower (trimSpace value))
  let visibility ← namedOption TaskVisibility.ofString?
    "visibility must be private, team, or agent"
    (request.visibility.map fun value => svc.unicode.lower (trimSpace value))
  refuse (status = some .blocked ∧ request.blocker.all fun value => trimSpace value = "")
    (ErrValidation "blocked status requires blocker")
  refuse (status = some .waiting ∧ request.waitingFor.all fun value => trimSpace value = "")
    (ErrValidation "waiting status requires waiting_for")
  refuse (request.skipItemIDs ≠ [] ∧ trimSpace request.skipReason = "")
    (ErrValidation "skipped items require skip_reason")
  refuse (50 < request.addItems.length) (ErrValidation "add_items is limited to 50")
  let checklist ← match request.checklist with
    | some labels => (cleanChecklist labels).map some
    | none => pure none
  let owner ← limited "owner is limited to 100 characters" 100 (request.owner.map trimSpace)
  let «section» ← limited "section is limited to 80 characters" 80
    (request.section.map normalizedSection)
  let title := request.title.map trimSpace
  refuse (title.any fun value => value = "" || 200 < byteLen value)
    (ErrValidation "title must contain 1-200 characters")
  let summary ← limited "task text is too long" 2000 (request.summary.map trimSpace)
  let project ← limited "task text is too long" 120 (request.project.map trimSpace)
  let repository ← limited "task text is too long" 300 (request.repository.map trimSpace)
  let dueDate := request.dueDate.map trimSpace
  let deferUntil := request.deferUntil.map svc.normalizedDeferUntil
  let recurrence := request.recurrence.map svc.normalizedRecurrence
  let priority ← svc.validatePlanning (svc.normalizedPriority (request.priority.getD ""))
    (dueDate.getD "") (deferUntil.getD "") (recurrence.getD "")
  pure
    { status, type, visibility, checklist, owner, «section», title, summary, project,
      repository, dueDate, deferUntil, recurrence
      expectedVersion := request.expectedVersion
      runID := request.runID
      priority := request.priority.map fun _ => priority
      reviewed := request.reviewed
      currentNote := request.currentNote
      blocker := request.blocker
      waitingFor := request.waitingFor
      currentItemID := request.currentItemID
      completeItemIDs := request.completeItemIDs
      skipItemIDs := request.skipItemIDs
      skipReason := request.skipReason
      addItems := request.addItems
      duplicateOf := request.duplicateOf.map trimSpace
      idempotencyKey := request.idempotencyKey }

theorem validateUpdate_ok
    (h : validateUpdate svc taskID request = .ok update) :
    update.expectedVersion = request.expectedVersion ∧ update.runID = request.runID ∧
      update.idempotencyKey = request.idempotencyKey ∧
      update.duplicateOf = request.duplicateOf.map trimSpace ∧
      ∀ current, update.status.getD current = request.nextStatus current := by
  simp only [validateUpdate, Except.bind_ok_iff] at h
  obtain ⟨_, -, _, hstatus, _, -, _, -, _, -, _, -, _, -, _, -, _, -, h⟩ := h
  -- The checklist is cleaned where the request has one, and the rest is the same.
  split at h
  all_goals
    simp only [Except.bind_ok_iff] at h
    obtain ⟨_, -, _, -, _, -, _, -, _, -, _, -, _, -, _, -, h⟩ := h
    cases h
    exact ⟨rfl, rfl, rfl, rfl, requestedStatus_ok hstatus⟩

/-- An update that asks for no status was sent none. -/
theorem requestedStatus_none (h : requestedStatus request = .ok none) :
    request.status = "" := by
  simp only [requestedStatus, Except.bind_ok_iff] at h
  obtain ⟨_, -, h⟩ := h
  split at h
  · rename_i hempty
    simp only [Bool.and_eq_true, decide_eq_true_eq] at hempty
    exact hempty.2
  · by_contra hne
    rw [if_neg hne] at h
    obtain ⟨_, -, hnone⟩ := namedOption_some_ok_iff.mp h
    cases hnone

/-- The reasons of an update are those of its request, and where it asks for a status that
needs one it has one. -/
theorem validateUpdate_reasons
    (h : validateUpdate svc taskID request = .ok update) :
    update.blocker = request.blocker ∧ update.waitingFor = request.waitingFor ∧
      (update.status = none → request.status = "") ∧
      (update.status = some .blocked → ∃ text, request.blocker = some text ∧ trimSpace text ≠ "") ∧
      (update.status = some .waiting →
        ∃ text, request.waitingFor = some text ∧ trimSpace text ≠ "") := by
  simp only [validateUpdate, Except.bind_ok_iff, refuse_ok_iff] at h
  obtain ⟨_, -, status, hstatus, _, -, _, -, _, -, _, hblocked, _, hwaiting, _, -, _, -, h⟩ := h
  have hgiven : ∀ {target : TaskStatus} {value : Option String},
      ¬ (status = some target ∧ value.all (fun value => trimSpace value = "") = true) →
        status = some target → ∃ text, value = some text ∧ trimSpace text ≠ "" := by
    intro target value hnot htarget
    cases value with
    | none => exact absurd ⟨htarget, rfl⟩ hnot
    | some text => exact ⟨text, rfl, fun hblank => hnot ⟨htarget, by simp [hblank]⟩⟩
  split at h
  all_goals
    simp only [Except.bind_ok_iff] at h
    obtain ⟨_, -, _, -, _, -, _, -, _, -, _, -, _, -, _, -, h⟩ := h
    cases h
    exact ⟨rfl, rfl, fun hnone => requestedStatus_none (hnone ▸ hstatus), hgiven hblocked,
      hgiven hwaiting⟩

/-- The number of active runs of a task that have not ended. -/
def Db.openRuns (db : Db) (taskID : String) : Nat :=
  (db.runs.filter fun run =>
    run.taskID = taskID && run.status = .active && run.endedAt.isNone).length

/-- The version check of `Update`, which also tells a caller whose run has ended. -/
def checkVersion (taskID : String) (update : TaskUpdate) (current : Task) : TxM Unit := do
  if current.version ≠ update.expectedVersion then
    let ended ← Tx.select fun db => update.runID ≠ "" &&
      (db.runs.find? fun run => run.id = update.runID ∧ run.taskID = taskID).any
        fun run => run.endedAt.isSome
    Tx.fail (versionConflict current update.expectedVersion ended)
  else pure ()

theorem checkVersion_ok
    (h : (checkVersion taskID update current).run db = .ok (u, db')) :
    current.version = update.expectedVersion ∧ db' = db := by
  simp only [checkVersion, Tx.run_ite_ok, Tx.run_bind_ok, Tx.run_select_ok, Tx.run_fail_ok,
    Tx.run_pure_ok, and_false, exists_false, false_or, ne_eq, not_not] at h
  exact ⟨h.1, h.2.2⟩

/-- What `Update` checks when visibility or owner change. -/
def checkAssignment (taskID actor : String) (update : TaskUpdate) (current : Task) :
    TxM Unit := do
  let openRuns ← Tx.select fun db => db.openRuns taskID
  (match update.visibility with
  | none => pure ()
  | some visibility =>
      if visibility = current.visibility then pure ()
      else do
        refuse (0 < openRuns)
          (ErrValidation "visibility cannot change while an agent run is active")
        refuse (visibility = .private ∧
          (current.createdBy = "" ∨ current.createdBy ≠ trimSpace actor)) ErrForbidden
        refuse (visibility = .agent ∧ current.status ≠ .queued ∧ current.status ≠ .stale ∧
            !current.status.terminal)
          (ErrValidation "only queued, stale, or terminal work can move to agent pickup"))
  refuse ((update.owner.any fun owner => owner ≠ current.owner) ∧ 0 < openRuns)
    (ErrValidation "owner cannot change while an agent run is active")
  refuse (update.visibility.getD current.visibility = .agent ∧
      update.owner.any fun owner => owner ≠ "")
    (ErrValidation "agent-pickup ownership is set by claim")

theorem each_checkAssignment:
    (checkAssignment taskID actor update current).Each R := by
  refine Tx.each_select_bind fun openRuns => ?_
  refine Tx.each_bind ?_ fun _ => Tx.each_lift_bind fun _ => Tx.each_lift _
  split
  · exact Tx.each_pure _
  · refine Tx.each_ite (Tx.each_pure _) ?_
    refine Tx.each_lift_bind fun _ => ?_
    exact Tx.each_lift_bind fun _ => Tx.each_lift _

/-- The checklist replacement of `Update`. -/
def replaceChecklist (env : Env) (taskID : String) (update : TaskUpdate) (current : Task) :
    TxM Unit :=
  match update.checklist with
  | none => pure ()
  | some labels => do
      let runs ← Tx.select fun db => (db.runsOf taskID).length
      refuse (current.status ≠ .queued ∨ 0 < runs)
        (ErrValidation "checklist replacement is limited to queued tasks without runs")
      let _ ← itemTable.deleteWhere fun _ item => item.taskID = taskID
      insertItems (fun index => env.newID (10 + 3 * index)) taskID env.now (fun _ => .todo) 0
        (labels.map fun label => (label, true))

/-- The loop that marks items done; the result is the items that were not yet done. -/
def completeItems (taskID : String) (now : Instant) : List String → TxM (List String)
  | [] => pure []
  | id :: rest => do
      let count ← itemTable.updateWhere
        (fun _ item => item.id = id && item.taskID = taskID && item.status ≠ .done)
        fun item => { item with status := .done, note := "", updatedAt := now }
      if count = 1 then
        let completed ← completeItems taskID now rest
        pure (id :: completed)
      else
        let known ← Tx.select fun db =>
          db.items.any fun item => item.id = id && item.taskID = taskID
        refuse (!known) (ServiceError.validation "checklist item %q not found" [id])
        completeItems taskID now rest

/-- The loop that marks items skipped. -/
def skipItems (taskID reason : String) (now : Instant) : List String → TxM Unit
  | [] => pure ()
  | id :: rest => do
      let count ← itemTable.updateWhere (fun _ item => item.id = id && item.taskID = taskID)
        fun item => { item with status := .skipped, note := trimSpace reason, updatedAt := now }
      refuse (count ≠ 1) (ServiceError.validation "checklist item %q not found" [id])
      skipItems taskID reason now rest

theorem itemTable_key_active (now : Instant) (item : ChecklistItem) :
    itemTable.key { item with status := .active, updatedAt := now } = itemTable.key item := rfl

/-- The part that makes one item the current one. -/
def setCurrentItem (taskID itemID : String) (now : Instant) : TxM Unit :=
  if itemID = "" then pure ()
  else do
    let _ ← itemTable.updateWhere (fun _ item => item.taskID = taskID && item.status = .active)
      fun item => { item with status := .todo, updatedAt := now }
    let count ← itemTable.updateWhere
      (fun _ item => item.id = itemID && item.taskID = taskID && item.status ≠ .done &&
        item.status ≠ .skipped)
      (fun item => { item with status := .active, updatedAt := now }) (itemTable_key_active now)
    refuse (count ≠ 1) (ErrValidation "current checklist item is missing or terminal")

/-- The position behind the last item of a task. -/
def Db.nextPosition (db : Db) (taskID : String) : Int :=
  ((db.items.filter fun item => item.taskID = taskID).map (·.position)).foldl max (-1) + 1

/-- The loop that adds items behind the others. -/
def addItems (newID : Nat → String) (taskID : String) (now : Instant) (position : Int) :
    Nat → List String → TxM Unit
  | _, [] => pure ()
  | index, label :: rest => do
      let label := trimSpace label
      refuse (label = "" ∨ 300 < byteLen label)
        (ErrValidation "added checklist items must contain 1-300 characters")
      insertItem (newID index) taskID label .todo (position + index) true now
      addItems newID taskID now position (index + 1) rest

/-- All that `Update` does to the checklist before it looks at the status; the result is
the items that became done. -/
def editItems (env : Env) (taskID : String) (update : TaskUpdate) (current : Task) :
    TxM (List String) := do
  replaceChecklist env taskID update current
  let completed ← completeItems taskID env.now (unique update.completeItemIDs)
  skipItems taskID update.skipReason env.now (unique update.skipItemIDs)
  setCurrentItem taskID update.currentItemID env.now
  let position ← Tx.select fun db => db.nextPosition taskID
  addItems (fun index => env.newID (11 + 3 * index)) taskID env.now position 0 update.addItems
  pure completed

section Items

theorem onItems_replaceChecklist :
    (replaceChecklist env taskID update current).Each OnItems := by
  unfold replaceChecklist
  split
  · exact Tx.each_pure _
  · refine Tx.each_select_bind fun _ => ?_
    refine Tx.each_lift_bind fun _ => ?_
    refine Tx.each_bind (Table.each_deleteWhere fun _ => ⟨_, rfl⟩) fun _ => ?_
    exact onItems_insertItems _

theorem onItems_completeItems (ids : List String) :
    (completeItems taskID now ids).Each OnItems := by
  induction ids with
  | nil => exact Tx.each_pure _
  | cons id rest ih =>
      refine Tx.each_bind (Table.each_updateWhere fun _ => ⟨_, rfl⟩) fun _ => ?_
      refine Tx.each_ite (Tx.each_bind ih fun _ => Tx.each_pure _) ?_
      refine Tx.each_select_bind fun _ => ?_
      exact Tx.each_lift_bind fun _ => ih

theorem onItems_skipItems {reason : String} (ids : List String) :
    (skipItems taskID reason now ids).Each OnItems := by
  induction ids with
  | nil => exact Tx.each_pure _
  | cons id rest ih =>
      refine Tx.each_bind (Table.each_updateWhere fun _ => ⟨_, rfl⟩) fun _ => ?_
      exact Tx.each_lift_bind fun _ => ih

theorem onItems_setCurrentItem {itemID : String} :
    (setCurrentItem taskID itemID now).Each OnItems := by
  unfold setCurrentItem
  refine Tx.each_ite (Tx.each_pure _) ?_
  refine Tx.each_bind (Table.each_updateWhere fun _ => ⟨_, rfl⟩) fun _ => ?_
  refine Tx.each_bind (Table.each_updateWhere fun _ => ⟨_, rfl⟩) fun _ => ?_
  exact Tx.each_lift _

theorem onItems_addItems {newID : Nat → String} {position : Int} {index : Nat}
    (labels : List String) : (addItems newID taskID now position index labels).Each OnItems := by
  induction labels generalizing index with
  | nil => exact Tx.each_pure _
  | cons label rest ih =>
      refine Tx.each_lift_bind fun _ => ?_
      exact Tx.each_bind (Table.each_insert fun _ => ⟨_, rfl⟩) fun _ => ih

/-- Editing the checklist touches nothing but its items. -/
theorem onItems_editItems :
    (editItems env taskID update current).Each OnItems := by
  refine Tx.each_bind onItems_replaceChecklist fun _ => ?_
  refine Tx.each_bind (onItems_completeItems _) fun _ => ?_
  refine Tx.each_bind (onItems_skipItems _) fun _ => ?_
  refine Tx.each_bind onItems_setCurrentItem fun _ => ?_
  refine Tx.each_select_bind fun _ => ?_
  exact Tx.each_bind (onItems_addItems _) fun _ => Tx.each_pure _

end Items

/-- The part of `Update` that finds the task a duplicate is merged into, where the request
names one. -/
def findKept (taskID actor : String) (update : TaskUpdate) : TxM (Option Task) :=
  match update.duplicateOf with
  | none => pure none
  | some target =>
      if target = "" then pure none
      else do
        let kept ← resolveDuplicateRoot target taskID
        let others ← Tx.select fun db => (db.runs.filter fun run =>
          run.taskID = taskID && run.id ≠ update.runID && run.agent ≠ trimSpace actor &&
            run.status = .active && run.endedAt.isNone).length
        refuse (0 < others)
          (ErrValidation "request cancellation of the active agent run before marking this task a duplicate")
        pure (some kept)

theorem each_findKept :
    (findKept taskID actor update).Each R := by
  unfold findKept
  split
  · exact Tx.each_pure _
  · refine Tx.each_ite (Tx.each_pure _) ?_
    refine Tx.each_bind (each_resolveDuplicate _) fun _ => ?_
    refine Tx.each_select_bind fun _ => ?_
    exact Tx.each_lift_bind fun _ => Tx.each_pure _

/-- The task a duplicate is merged into is the root of the task the request names, and there
is none where the request names none. -/
theorem findKept_ok
    (h : (findKept taskID actor update).run db = .ok (kept, db')) :
    db' = db ∧
      (∀ task, kept = some task → ∃ target, update.duplicateOf = some target ∧ target ≠ "" ∧
        (resolveDuplicateRoot target taskID).run db = .ok (task, db)) ∧
      (kept = none → ∀ target, update.duplicateOf = some target → target = "") := by
  have hsame : db' = db := ((each_findKept (R := Eq)).run h).symm
  subst hsame
  unfold findKept at h
  split at h
  · next hnone =>
      obtain ⟨rfl, -⟩ := Tx.run_pure_ok.mp h
      exact ⟨rfl, by simp, by simp [hnone]⟩
  · next target hsome =>
      rcases Tx.run_ite_ok.mp h with ⟨hempty, h⟩ | ⟨hne, h⟩
      · obtain ⟨rfl, -⟩ := Tx.run_pure_ok.mp h
        refine ⟨rfl, by simp, fun _ other hother => ?_⟩
        exact (Option.some_inj.mp (hsome.symm.trans hother)) ▸ hempty
      · obtain ⟨root, db1, hroot, h⟩ := Tx.run_bind_ok.mp h
        obtain rfl := (each_resolveDuplicate (R := Eq) _).run hroot
        simp only [Tx.run_select_bind_ok, Tx.run_refuse_bind_ok, Tx.run_pure_ok] at h
        obtain ⟨-, rfl, -⟩ := h
        refine ⟨rfl, fun task htask => ⟨target, hsome, hne, ?_⟩, by simp⟩
        obtain rfl := Option.some_inj.mp htask
        exact hroot

/-- `openRequiredItemIDs`. -/
def Db.openRequiredItemIDs (db : Db) (taskID : String) : List String :=
  ((db.listItems taskID).filter fun item =>
    item.required && item.status ≠ .done && item.status ≠ .skipped).map (·.id)

/-- The labels of the completion requirements that are not met. -/
def Db.unmetRequirements (db : Db) (taskID : String) : List String :=
  (sortBy (fun a b => a.id < b.id) (db.completionRequirements.filter fun row =>
    row.taskID = taskID && row.required && row.status = .pending)).map (·.label)

/-- What a task needs before it is done. -/
def checkDone (taskID : String) (status : TaskStatus) : TxM Unit :=
  if status = .done then do
    let openItems ← Tx.select fun db => db.openRequiredItemIDs taskID
    refuse (openItems ≠ [])
      (ServiceError.validation "%d required checklist items remain open: %s; once each is finished, send it in complete_item_ids, or skip one that no longer applies with skip_item_ids and a skip_reason" [toString openItems.length, String.intercalate ", " openItems])
    let unmet ← Tx.select fun db => db.unmetRequirements taskID
    refuse (unmet ≠ [])
      (ServiceError.validation "unmet completion requirements: %s" [String.intercalate "; " unmet])
    let dependencies ← Tx.select fun db => db.unmetDependencies taskID
    refuse (0 < dependencies)
      (ServiceError.validation "task has %d unmet dependencies" [toString dependencies])
  else pure ()

theorem each_checkDone :
    (checkDone taskID status).Each R := by
  unfold checkDone
  refine Tx.each_ite ?_ (Tx.each_pure _)
  refine Tx.each_select_bind fun _ => ?_
  refine Tx.each_lift_bind fun _ => ?_
  refine Tx.each_select_bind fun _ => ?_
  refine Tx.each_lift_bind fun _ => ?_
  exact Tx.each_select_bind fun _ => Tx.each_lift _

theorem checkDone_ok (h : (checkDone taskID status).run db = .ok (u, db')):
    db' = db ∧ (status = .done → db.openRequiredItemIDs taskID = [] ∧
      db.unmetRequirements taskID = [] ∧ db.unmetDependencies taskID = 0) := by
  unfold checkDone at h
  rcases Tx.run_ite_ok.mp h with ⟨-, h⟩ | ⟨hne, h⟩
  · simp only [Tx.run_select_bind_ok, Tx.run_refuse_bind_ok, Tx.run_lift_ok, refuse_ok_iff,
      ne_eq, not_not, Nat.not_lt, Nat.le_zero] at h
    obtain ⟨hitems, hunmet, hdependencies, rfl⟩ := h
    exact ⟨rfl, fun _ => ⟨hitems, hunmet, hdependencies⟩⟩
  · obtain ⟨-, rfl⟩ := Tx.run_pure_ok.mp h
    exact ⟨rfl, fun hdone => absurd hdone hne⟩

/-- The owner after an update: moving a task into the agent lane, or making another
person's task private, clears it. -/
def updatedOwner (update : TaskUpdate) (current : Task) : String :=
  let owner := update.owner.getD current.owner
  let visibility := update.visibility.getD current.visibility
  if visibility ≠ current.visibility ∧
      (visibility = .agent ∨ (visibility = .private ∧ owner ≠ current.createdBy)) then ""
  else owner

/-- The note after an update. -/
def updatedNote (update : TaskUpdate) (current : Task) (kept : Option Task) : String :=
  match update.currentNote with
  | some note => clipped note 1000
  | none =>
      match kept with
      | some kept =>
          if kept.title ≠ "" then clipped ("Duplicate of " ++ kept.title) 1000
          else current.currentNote
      | none => current.currentNote

/-- The row that `Update` writes, from the row it read. -/
def updatedTask (update : TaskUpdate) (current : Task) (status : TaskStatus)
    (sortOrder : Int) (kept : Option Task) (editor : String) (now : Instant) : Task :=
  { current with
    title := update.title.getD current.title
    summary := update.summary.getD current.summary
    type := update.type.getD current.type
    visibility := update.visibility.getD current.visibility
    status := status
    owner := updatedOwner update current
    «section» := update.section.getD current.section
    project := update.project.getD current.project
    repository := update.repository.getD current.repository
    priority := update.priority.getD current.priority
    dueDate := update.dueDate.getD current.dueDate
    deferUntil := update.deferUntil.getD current.deferUntil
    recurrence := update.recurrence.getD current.recurrence
    sortOrder := sortOrder
    reviewedAt := if update.reviewed then some now else current.reviewedAt
    currentNote := updatedNote update current kept
    blocker :=
      if status ≠ .blocked then ""
      else update.blocker.elim current.blocker fun value => clipped value 1000
    waitingFor :=
      if status ≠ .waiting then ""
      else update.waitingFor.elim current.waitingFor fun value => clipped value 1000
    lastEditedBy := editor
    updatedAt := now
    completedAt :=
      if !status.terminal then none
      else if !current.status.terminal then some now
      else current.completedAt }

/-- The statement `UPDATE tasks` of `Update`: it sets the columns of `row`, and leaves
those it does not name as they are. -/
def writeTask (taskID : String) (expected : Int) (row : Task) : TxM Unit := do
  let count ← bumpTask taskID expected (fun _ => true) fun task =>
    { row with
      id := task.id
      createdBy := task.createdBy
      version := task.version
      createdAt := task.createdAt
      scheduleID := task.scheduleID
      duplicateOf := task.duplicateOf }
  if count ≠ 1 then lostVersionRace taskID expected else pure ()

/-- The columns that `Update` leaves as they are. -/
def Task.rewritten (task row : Task) : Task :=
  { row with
    id := task.id
    createdBy := task.createdBy
    version := task.version + 1
    createdAt := task.createdAt
    scheduleID := task.scheduleID
    duplicateOf := task.duplicateOf }

theorem writeTask_ok (h : (writeTask taskID expected row).run db = .ok (u, db')):
    (db.tasks.filter (bumps taskID expected fun _ => true)).length = 1 ∧
      db' = { db with
        tasks := mapWhere (bumps taskID expected fun _ => true) (·.rewritten row) db.tasks } := by
  simp only [writeTask, Tx.run_bind_ok, run_bumpTask_ok, Tx.run_ite_ok, run_lostVersionRace_ok,
    Tx.run_pure_ok, and_false, false_or, ne_eq, not_not] at h
  obtain ⟨count, _, ⟨hcount, rfl⟩, hone, -, rfl⟩ := h
  exact ⟨hcount ▸ hone, rfl⟩

/-- The part of `Update` that keeps the duplicate links, and ends the editor's own runs
on a task merged into another. -/
def linkDuplicate (env : Env) (taskID actor : String) (update : TaskUpdate)
    (current row : Task) (kept : Option Task) : TxM Unit :=
  match kept with
  | some kept => do
      let _ ← taskTable.updateWhere
        (fun _ task => task.id = taskID || task.duplicateOf = some taskID)
        fun task => { task with duplicateOf := some kept.id }
      let _ ← runTable.updateWhere
        (fun _ run => run.taskID = taskID && run.id ≠ update.runID &&
          run.agent = trimSpace actor && run.endedAt.isNone)
        fun run => { run with status := .cancelled, endedAt := some env.now }
      insertEvent
        { id := env.newID 1
          taskID := kept.id
          kind := "task.duplicate_linked"
          actor := row.lastEditedBy
          message := clipped (row.title ++ " was marked a duplicate of this task") 1000
          payload := [("duplicate_task_id", .text taskID)]
          createdAt := env.now }
  | none =>
      if update.duplicateOf.isSome ∨ (current.status = .cancelled ∧ row.status ≠ .cancelled)
      then do
        let _ ← taskTable.updateWhere (fun _ task => task.id = taskID)
          fun task => { task with duplicateOf := none }
        pure ()
      else pure ()

/-- Whether an update that merges the task into no other clears its link. -/
def TaskUpdate.unlinks (update : TaskUpdate) (was status : TaskStatus) : Bool :=
  update.duplicateOf.isSome || (was = .cancelled && status ≠ .cancelled)

/-- A row of `tasks` after `linkDuplicate`: where there is a task to keep, the duplicate and
those linked to it point there. -/
def Task.relinked (taskID : String) (kept : Option Task) (unlinks : Bool) (task : Task) : Task :=
  match kept with
  | some kept =>
      if task.id = taskID ∨ task.duplicateOf = some taskID then
        { task with duplicateOf := some kept.id }
      else task
  | none => if unlinks = true ∧ task.id = taskID then { task with duplicateOf := none } else task

/-- The same row, linked to another task perhaps. -/
def Task.Relinked (task task' : Task) : Prop :=
  ∃ duplicateOf, task' = { task with duplicateOf }

theorem Task.relinked_spec (taskID : String) (kept : Option Task) (unlinks : Bool) (task : Task) :
    task.Relinked (task.relinked taskID kept unlinks) := by
  unfold relinked
  split
  · split
    · exact ⟨_, rfl⟩
    · exact ⟨task.duplicateOf, rfl⟩
  · split
    · exact ⟨_, rfl⟩
    · exact ⟨task.duplicateOf, rfl⟩

theorem map_relinked_some {kept : Task} {unlinks : Bool} (rows : List Task) :
    rows.map (Task.relinked taskID (some kept) unlinks) =
      mapWhere (fun task => task.id = taskID || task.duplicateOf = some taskID)
        (fun task => { task with duplicateOf := some kept.id }) rows := by
  refine List.map_congr_left fun task _ => ?_
  simp only [Task.relinked, Bool.or_eq_true, decide_eq_true_eq]

theorem map_relinked_clear (rows : List Task) :
    rows.map (Task.relinked taskID none true) =
      mapWhere (fun task => task.id = taskID) (fun task => { task with duplicateOf := none })
        rows := by
  refine List.map_congr_left fun task _ => ?_
  simp only [Task.relinked, true_and, decide_eq_true_eq]

theorem map_relinked_keep (rows : List Task) :
    rows.map (Task.relinked taskID none false) = rows := by
  refine (List.map_congr_left fun task _ => ?_).trans (List.map_id rows)
  simp only [Task.relinked, Bool.false_eq_true, false_and, if_false, id_eq]

/-- The same run, or one of the task's runs other than `runID` that ends. -/
def AgentRun.Dropped (taskID runID : String) (run run' : AgentRun) : Prop :=
  run' = run ∨ (run.taskID = taskID ∧ run.id ≠ runID ∧ run.Follows run')

instance {taskID runID : String} : Std.Refl (AgentRun.Dropped taskID runID) where
  refl _ := Or.inl rfl

/-- Linking duplicates changes links, ends other runs of the task, and leaves an event
without a key on the task that is kept. -/
theorem linkDuplicate_ok
    (h : (linkDuplicate env taskID actor update current row kept).run db = .ok (u, db')) :
    ∃ runs notes, List.Forall₂ (AgentRun.Dropped taskID update.runID) db.runs runs ∧
      (∀ event ∈ notes, Event.Unkeyed event) ∧
      db' = { db with
        tasks := db.tasks.map (Task.relinked taskID kept (update.unlinks current.status row.status))
        runs := runs
        events := db.events ++ notes } := by
  cases kept with
  | some kept =>
      simp only [linkDuplicate, Table.run_updateWhere_bind_ok, run_insertEvent_ok, taskTable,
        runTable] at h
      obtain ⟨-, -, rfl⟩ := h
      rw [map_relinked_some]
      refine ⟨_, [_], forall₂_mapWhere fun run _ hrun => Or.inr ?_, ?_, rfl⟩
      · simp only [Bool.and_eq_true, decide_eq_true_eq, Option.isNone_iff_eq_none] at hrun
        obtain ⟨⟨⟨htask, hid⟩, -⟩, hopen⟩ := hrun
        exact ⟨htask, hid, rfl, rfl, rfl, rfl, Or.inr ⟨hopen, by simp⟩⟩
      · simp [Event.Unkeyed]
  | none =>
      simp only [linkDuplicate, Tx.run_ite_ok, Table.run_updateWhere_bind_ok, Tx.run_pure_ok,
        taskTable] at h
      refine ⟨db.runs, [], List.forall₂_refl _, by simp, ?_⟩
      rw [List.append_nil]
      rcases h with ⟨hclears, -, rfl⟩ | ⟨hkeeps, -, rfl⟩
      · have hunlinks : update.unlinks current.status row.status = true := by
          simpa [TaskUpdate.unlinks] using hclears
        rw [hunlinks, map_relinked_clear]
      · have hunlinks : update.unlinks current.status row.status = false := by
          simpa [TaskUpdate.unlinks] using hkeeps
        rw [hunlinks, map_relinked_keep]

/-- The default requirements a task takes on when it moves into the agent lane. -/
def defaultOnMove (svc : Service) (taskID : String) (update : TaskUpdate)
    (current row : Task) (now : Instant) : TxM (List String) :=
  if update.visibility.isSome ∧ row.visibility = .agent ∧ current.visibility ≠ .agent then
    applyDefaultRequirements svc taskID row.lastEditedBy now
  else pure []

theorem beside_defaultOnMove :
    (defaultOnMove svc taskID update current row now).Each Beside := by
  unfold defaultOnMove
  exact Tx.each_ite beside_applyDefaultRequirements (Tx.each_pure _)

/-- The loop that copies requirements to the next occurrence of a task. -/
def copyRequirements (taskID : String) (now : Instant) : List TaskRequirement → TxM Unit
  | [] => pure ()
  | row :: rest => do
      requirementTable.insert { row with taskID, createdAt := now }
        (fun db => (db.task? taskID).isSome) (.database "insert requirement")
      copyRequirements taskID now rest

theorem each_copyRequirements
    (h : ∀ db requirements, R db { db with requirements }) (rows : List TaskRequirement) :
    (copyRequirements taskID now rows).Each R := by
  induction rows with
  | nil => exact Tx.each_pure _
  | cons row rest ih => exact Tx.each_bind (Table.each_insert fun db => h db _) fun _ => ih

theorem beside_copyRequirements (rows : List TaskRequirement) :
    (copyRequirements taskID now rows).Each Beside :=
  each_copyRequirements (fun _ _ => ⟨_, _, _, rfl⟩) rows

/-- The next occurrence of a recurring task that has just been done. -/
def nextOccurrence (svc : Service) (id : String) (row : Task) (dueDate : String)
    (sortOrder : Int) (now : Instant) : Task :=
  { id := id
    title := row.title
    summary := row.summary
    type := svc.fixedType.getD row.type
    visibility := row.visibility
    createdBy := row.createdBy
    lastEditedBy := row.lastEditedBy
    «section» := row.section
    project := row.project
    repository := row.repository
    priority := row.priority
    dueDate := dueDate
    recurrence := row.recurrence
    sortOrder := sortOrder
    status := .queued
    version := 1
    createdAt := now
    updatedAt := now }

/-- The part of `Update` that records the next occurrence. -/
def createRecurrence (svc : Service) (env : Env) (taskID actor : String)
    (current row : Task) : TxM Unit :=
  if row.status = .done ∧ current.status ≠ .done ∧ row.recurrence ≠ "" then do
    let nextID := env.newID 2
    let nextDue ← nextRecurringDate row.dueDate row.recurrence env.now
    let sortOrder ← Tx.select fun db => db.nextSortOrder row.section
    insertTask (nextOccurrence svc nextID row nextDue sortOrder env.now)
    let items ← Tx.select fun db => db.listItems taskID
    insertItems (fun index => env.newID (12 + 3 * index)) nextID env.now (fun _ => .todo) 0
      (items.map fun item => (item.label, item.required))
    let requirements ← Tx.select fun db =>
      db.requirements.filter fun requirement => requirement.taskID = taskID
    copyRequirements nextID env.now requirements
    (if row.visibility = .agent then do
      let _ ← applyDefaultRequirements svc nextID row.lastEditedBy env.now
      pure ()
    else pure ())
    insertEvent
      { id := env.newID 3
        taskID := nextID
        kind := "task.recurring_created"
        actor := defaultActor actor current.owner
        message := row.title
        payload := [("status", .text "queued"), ("source_task_id", .text taskID),
          ("due_date", .text nextDue)]
        createdAt := env.now }
  else pure ()

/-- A task in the queue that is new beside the others. -/
structure Task.Newcomer (tasks : List Task) (task : Task) : Prop where
  queued : task.status = .queued
  linkless : task.duplicateOf = none
  proper : task.Proper
  fresh : ∀ other ∈ tasks, other.id ≠ task.id

theorem newcomer_nextOccurrence {n : Nat} {dueDate : String} {sortOrder : Int} {tasks : List Task}
    (hfresh : ∀ other ∈ tasks, other.id ≠ env.newID n) :
    (nextOccurrence svc (env.newID n) row dueDate sortOrder now).Newcomer tasks where
  queued := rfl
  linkless := rfl
  proper := ⟨env.newID_ne n, env.trimSpace_newID n, le_rfl, fun _ => rfl, fun _ => rfl,
    fun _ => rfl, Bool.noConfusion⟩
  fresh := hfresh

/-- A recurring task that has become done records its next occurrence, and nothing else does. -/
theorem createRecurrence_tasks
    (h : (createRecurrence svc env taskID actor current row).run db = .ok (u, db')) :
    if row.status = .done ∧ current.status ≠ .done ∧ row.recurrence ≠ "" then
      ∃ due, nextRecurringDate row.dueDate row.recurrence env.now = .ok due ∧
        (∀ other ∈ db.tasks, other.id ≠ env.newID 2) ∧
        db'.tasks = db.tasks ++
          [nextOccurrence svc (env.newID 2) row due (db.nextSortOrder row.section) env.now]
    else db' = db := by
  simp only [createRecurrence, Tx.run_ite_ok, Tx.run_bind_ok, Tx.run_lift_ok, Tx.run_select_ok,
    insertTask, Table.run_insert_ok, run_insertEvent_ok, Tx.run_pure_ok, taskTable] at h
  rcases h with ⟨hdone, due, _, ⟨hdue, rfl⟩, order, _, ⟨rfl, rfl⟩, _, _, ⟨-, hfresh, rfl⟩, items, _,
    ⟨-, rfl⟩, _, _, hitems, requirements, _, ⟨-, rfl⟩, _, _, hcopy, _, _, hdefault, -, -, rfl⟩ |
    ⟨hopen, -, rfl⟩
  · rw [if_pos hdone]
    simp only [ne_eq, RowKey.task.injEq] at hfresh
    obtain ⟨_, rfl⟩ := (onItems_insertItems _).run hitems
    obtain ⟨_, _, _, rfl⟩ := (beside_copyRequirements _).run hcopy
    rcases hdefault with ⟨-, _, _, happly, -, rfl⟩ | ⟨-, -, rfl⟩
    · obtain ⟨_, _, _, rfl⟩ := beside_applyDefaultRequirements.run happly
      exact ⟨due, hdue, hfresh, rfl⟩
    · exact ⟨due, hdue, hfresh, rfl⟩
  · rw [if_neg hopen]

/-- A recurring task that is done records one new task in the queue, or none. -/
theorem createRecurrence_ok
    (h : (createRecurrence svc env taskID actor current row).run db = .ok (u, db')) :
    ∃ added notes, added.length ≤ 1 ∧ (row.status ≠ .done → added = []) ∧
      (∀ task ∈ added, task.Newcomer db.tasks) ∧
      (∀ event ∈ notes, Event.Unkeyed event) ∧
      Aside { db with tasks := db.tasks ++ added, events := db.events ++ notes } db' := by
  simp only [createRecurrence, Tx.run_ite_ok, Tx.run_bind_ok, Tx.run_lift_ok, Tx.run_select_ok,
    insertTask, Table.run_insert_ok, run_insertEvent_ok, Tx.run_pure_ok, taskTable] at h
  rcases h with ⟨hdone, due, _, ⟨-, rfl⟩, order, _, ⟨-, rfl⟩, _, _, ⟨-, hfresh, rfl⟩, items, _,
    ⟨-, rfl⟩, _, _, hitems, requirements, _, ⟨-, rfl⟩, _, _, hcopy, _, _, hdefault, -, -, rfl⟩ |
    ⟨-, -, rfl⟩
  · obtain ⟨_, rfl⟩ := (onItems_insertItems _).run hitems
    obtain ⟨_, _, _, rfl⟩ := (beside_copyRequirements _).run hcopy
    have hnew := hfresh
    simp only [ne_eq, RowKey.task.injEq] at hnew
    rcases hdefault with ⟨-, _, _, happly, -, rfl⟩ | ⟨-, -, rfl⟩
    · obtain ⟨_, _, _, rfl⟩ := beside_applyDefaultRequirements.run happly
      refine ⟨[_], [_], le_rfl, fun hne => absurd hdone.1 hne,
        List.forall_mem_singleton.mpr (newcomer_nextOccurrence hnew), ?_, _, _, _, _, rfl⟩
      exact List.forall_mem_singleton.mpr rfl
    · refine ⟨[_], [_], le_rfl, fun hne => absurd hdone.1 hne,
        List.forall_mem_singleton.mpr (newcomer_nextOccurrence hnew), ?_, _, _, _, _, rfl⟩
      exact List.forall_mem_singleton.mpr rfl
  · exact ⟨[], [], by simp, fun _ => rfl, by simp, by simp, _, _, _, _,
      by simp only [List.append_nil]; rfl⟩

/-- The statuses in which `Update` ends the run it names. -/
def TaskStatus.endsRun (status : TaskStatus) : Bool :=
  status = .done ∨ status = .cancelled ∨ status = .waiting ∨ status = .blocked

/-- What `Update` writes to the run it names, whatever that run was before. -/
def AgentRun.updated (run : AgentRun) (svc : Service) (status : TaskStatus)
    (now : Instant) : AgentRun :=
  { run with
    status := status
    leaseExpires := if status.endsRun then now else now + svc.leaseDuration
    lastHeartbeat := now
    endedAt := if status.endsRun then some now else none }

/-- The part of `Update` that writes the run. -/
def writeRun (svc : Service) (now : Instant) (taskID runID : String) (status : TaskStatus) :
    TxM Unit :=
  if runID = "" then pure ()
  else do
    let count ← runTable.updateWhere (fun _ run => run.id = runID && run.taskID = taskID)
      fun run => run.updated svc status now
    refuse (count ≠ 1) (ErrValidation "run not found")

/-- The run that `Update` rewrites: the one the request names, on the task it names. -/
def AgentRun.isNamed (taskID runID : String) (run : AgentRun) : Bool :=
  runID ≠ "" && run.id = runID && run.taskID = taskID

theorem writeRun_ok (h : (writeRun svc now taskID runID status).run db = .ok (u, db')):
    (runID ≠ "" → (db.runs.filter (AgentRun.isNamed taskID runID)).length = 1) ∧
      db' = { db with
        runs := mapWhere (AgentRun.isNamed taskID runID) (·.updated svc status now) db.runs } := by
  simp only [writeRun, Tx.run_ite_ok, Tx.run_pure_ok, Tx.run_bind_ok, Table.run_updateWhere_ok,
    Tx.run_lift_ok, refuse_ok_iff, ne_eq, not_not, runTable] at h
  rcases h with ⟨hempty, -, rfl⟩ | ⟨hnamed, count, _, ⟨hcount, rfl⟩, hone, rfl⟩
  · refine ⟨fun hne => absurd hempty hne, ?_⟩
    rw [mapWhere_of_none fun run _ => by simp [AgentRun.isNamed, hempty]]
  · have hsame : AgentRun.isNamed taskID runID =
        fun run => decide (run.id = runID) && decide (run.taskID = taskID) := by
      funext run
      simp [AgentRun.isNamed, hnamed]
    rw [hsame]
    exact ⟨fun _ => hcount ▸ hone, rfl⟩

/-- The payload of the event of an update. -/
def updatePayload (update : TaskUpdate) (row : Task) (kept : Option Task)
    (defaulted completed : List String) : Payload :=
  [("status", .text row.status.toString), ("version", .number (update.expectedVersion + 1))] ++
    (if update.owner.isSome then [("owner", .text row.owner)] else []) ++
    (if update.section.isSome then [("section", .text row.section)] else []) ++
    (if update.type.isSome then [("type", .text row.type.toString)] else []) ++
    (if update.visibility.isSome then [("visibility", .text row.visibility.toString)] else []) ++
    (if defaulted.isEmpty then []
    else [("requirements", .texts defaulted), ("requirements_source", .text "default")]) ++
    (if completed.isEmpty then [] else [("completed_item_ids", .texts completed)]) ++
    (match update.duplicateOf with
    | some target => [("duplicate_of", .text (kept.elim target (·.id)))]
    | none => [])

theorem keyless_updatePayload (update : TaskUpdate) (row : Task) (kept : Option Task)
    (defaulted completed : List String) :
    (updatePayload update row kept defaulted completed).Keyless := by
  unfold updatePayload
  repeat' apply Payload.Keyless.append
  all_goals first
    | split <;> simp [Payload.Keyless]
    | simp [Payload.Keyless]

/-- The transaction of `Update`; the result is the status the task was left in. -/
def updateTx (svc : Service) (env : Env) (taskID : String) (update : TaskUpdate)
    (actor : String) (hash : Option Digest) : TxM TaskStatus := do
  let current ← loadTask taskID
  checkVersion taskID update current
  checkAssignment taskID actor update current
  let completed ← editItems env taskID update current
  let status := update.status.getD current.status
  let kept ← findKept taskID actor update
  checkDone taskID status
  (if status = .active ∧ current.status ≠ .active ∧ update.currentItemID = "" then
    activateFirstItem taskID env.now
  else pure ())
  let «section» := update.section.getD current.section
  let sortOrder ← Tx.select fun db =>
    if «section» ≠ current.section then db.nextSortOrder «section» else current.sortOrder
  let row := updatedTask update current status sortOrder kept
    (defaultActor actor current.createdBy) env.now
  writeTask taskID update.expectedVersion row
  linkDuplicate env taskID actor update current row kept
  let defaulted ← defaultOnMove svc taskID update current row env.now
  createRecurrence svc env taskID actor current row
  writeRun svc env.now taskID update.runID status
  insertEvent
    { id := env.newID 0
      taskID := taskID
      runID := update.runID
      kind := "task.updated"
      actor := defaultActor actor current.owner
      message := row.currentNote
      payload := mergePayload (updatePayload update row kept defaulted completed)
        (idempotencyPayload "task_update" update.idempotencyKey hash)
      createdAt := env.now }
  pure status

section Parts

/-- What the next occurrence of a task changes, by its parts. -/
theorem each_createRecurrence (haside : ∀ db db', Aside db db' → R db db')
    (htask : ∀ task, (insertTask task).Each R)
    (hevent : ∀ event : Event, event.id = env.newID 3 → (insertEvent event).Each R) :
    (createRecurrence svc env taskID actor current row).Each R := by
  have aside {α : Type} {t : TxM α} (h : t.Each Aside) : t.Each R := h.mono haside
  refine Tx.each_ite ?_ (Tx.each_pure _)
  refine Tx.each_lift_bind fun _ => ?_
  refine Tx.each_select_bind fun _ => ?_
  refine Tx.each_bind (htask _) fun _ => ?_
  refine Tx.each_select_bind fun _ => ?_
  refine Tx.each_bind (aside (aside_of_onItems (onItems_insertItems _))) fun _ => ?_
  refine Tx.each_select_bind fun _ => ?_
  refine Tx.each_bind (aside (aside_of_beside (beside_copyRequirements _))) fun _ => ?_
  refine Tx.each_bind (Tx.each_ite ?_ (Tx.each_pure _)) fun _ => hevent _ rfl
  exact Tx.each_bind (aside (aside_of_beside beside_applyDefaultRequirements)) fun _ =>
    Tx.each_pure _

/-- **What the general update changes, by its parts.** It keeps a task only where the request
names one that the task is a duplicate of. -/
theorem triple_updateTx [IsPreorder Db R] {start : Db} (haside : ∀ db db', Aside db db' → R db db')
    (htask : ∀ task, (insertTask task).Each R)
    (hwrite : ∀ row, (writeTask taskID update.expectedVersion row).Each R)
    (hlink : ∀ current row kept,
      (kept ≠ none → ∃ target, update.duplicateOf = some target ∧ target ≠ "") →
      (linkDuplicate env taskID actor update current row kept).Each R)
    (hrun : ∀ status, (writeRun svc env.now taskID update.runID status).Each R)
    (hevent : ∀ (event : Event) (n : Nat), n < 4 → event.id = env.newID n →
      (insertEvent event).Each R) :
    Tx.Triple (R start) (updateTx svc env taskID update actor hash) (fun _ => R start) := by
  have aside {α : Type} {t : TxM α} (h : t.Each Aside) : t.Each R := h.mono haside
  refine Tx.triple_bind (Tx.triple_trail (Tx.each_selectOr _)) fun current => ?_
  refine Tx.triple_bind (Tx.triple_trail (Tx.each_ite
    (Tx.each_select_bind fun _ => Tx.each_fail _) (Tx.each_pure _))) fun _ => ?_
  refine Tx.triple_bind (Tx.triple_trail each_checkAssignment) fun _ => ?_
  refine Tx.triple_bind (Tx.triple_trail (aside (aside_of_onItems onItems_editItems))) fun completed => ?_
  refine Tx.triple_bind (Q := fun kept db => R start db ∧
    (kept ≠ none → ∃ target, update.duplicateOf = some target ∧ target ≠ "")) ?_ fun kept => ?_
  · intro db kept db' htrail hkept
    obtain ⟨rfl, hmerged, -⟩ := findKept_ok hkept
    refine ⟨htrail, fun hne => ?_⟩
    obtain ⟨task, htask⟩ := Option.ne_none_iff_exists'.mp hne
    obtain ⟨target, htarget, hblank, -⟩ := hmerged task htask
    exact ⟨target, htarget, hblank⟩
  · rintro db status db' ⟨htrail, hmerged⟩ hrest
    refine Tx.triple_trail (R := R) ?_ db status db' htrail hrest
    refine Tx.each_bind each_checkDone fun _ => ?_
    refine Tx.each_bind (Tx.each_ite (aside (aside_of_onItems onItems_activateFirstItem)) (Tx.each_pure _)) fun _ => ?_
    refine Tx.each_select_bind fun sortOrder => ?_
    refine Tx.each_bind (hwrite _) fun _ => ?_
    refine Tx.each_bind (hlink _ _ kept hmerged) fun _ => ?_
    refine Tx.each_bind (aside (aside_of_beside beside_defaultOnMove)) fun defaulted => ?_
    refine Tx.each_bind (each_createRecurrence haside htask fun event => hevent event 3 (by omega))
      fun _ => ?_
    refine Tx.each_bind (hrun _) fun _ => ?_
    exact Tx.each_bind (hevent _ 0 (by omega) rfl) fun _ => Tx.each_pure _

end Parts

/-- What `Update` does to a row of `tasks`: the row it is about takes on the status and the
next version, and another row changes its link at most. -/
structure Task.Updated (taskID : String) (expected : Int) (status : TaskStatus)
    (task task' : Task) : Prop where
  id : task'.id = task.id
  createdBy : task'.createdBy = task.createdBy
  hit : bumps taskID expected (fun _ => true) task = true →
    task'.status = status ∧ task'.version = task.version + 1
  miss : bumps taskID expected (fun _ => true) task = false → task.Relinked task'

/-- What `Update` does to a row of `agent_runs`: the run it names is rewritten, and others
of the task may end. -/
structure AgentRun.Written (svc : Service) (now : Instant) (taskID runID : String)
    (status : TaskStatus) (run run' : AgentRun) : Prop where
  named : run.isNamed taskID runID = true → run' = run.updated svc status now
  other : run.isNamed taskID runID = false → run.Follows run' ∧ (run.taskID ≠ taskID → run' = run)

theorem updated_relinked {unlinks : Bool} (hrow : row.status = status) (rows : List Task):
    List.Forall₂ (Task.Updated taskID expected status) rows
      ((mapWhere (bumps taskID expected fun _ => true) (·.rewritten row) rows).map
        (Task.relinked taskID kept unlinks)) := by
  rw [mapWhere, List.map_map, List.forall₂_map_right_iff, List.forall₂_same]
  intro task _
  simp only [Function.comp_apply]
  by_cases hhit : bumps taskID expected (fun _ => true) task = true
  · rw [if_pos hhit]
    obtain ⟨link, hlink⟩ := (task.rewritten row).relinked_spec taskID kept unlinks
    rw [hlink]
    exact ⟨rfl, rfl, fun _ => ⟨hrow, rfl⟩, fun hmiss => by simp [hhit] at hmiss⟩
  · rw [if_neg hhit]
    have hlink := task.relinked_spec taskID kept unlinks
    refine ⟨?_, ?_, fun h => absurd h hhit, fun _ => hlink⟩
    · obtain ⟨_, heq⟩ := hlink
      rw [heq]
    · obtain ⟨_, heq⟩ := hlink
      rw [heq]

theorem written_of_dropped (h : List.Forall₂ (AgentRun.Dropped taskID runID) rows rows'):
    List.Forall₂ (AgentRun.Written svc now taskID runID status) rows
      (mapWhere (AgentRun.isNamed taskID runID) (·.updated svc status now) rows') := by
  rw [mapWhere, List.forall₂_map_right_iff]
  refine h.imp fun run run' hdrop => ?_
  rcases hdrop with rfl | ⟨htask, hid, hfollows⟩
  · refine ⟨fun hnamed => by simp [hnamed], fun hother => ?_⟩
    simp only [hother, Bool.false_eq_true, if_false]
    exact ⟨refl_of AgentRun.Follows _, fun _ => trivial⟩
  · have hother : run'.isNamed taskID runID = false := by
      simp [AgentRun.isNamed, hfollows.id, hid]
    refine ⟨fun hnamed => ?_, fun _ => ?_⟩
    · simp [AgentRun.isNamed, hid] at hnamed
    · simp only [hother, Bool.false_eq_true, if_false]
      exact ⟨hfollows, fun hne => absurd htask hne⟩

theorem named_of_dropped (h : List.Forall₂ (AgentRun.Dropped taskID runID) rows rows')
    (hone : (rows'.filter (AgentRun.isNamed taskID runID)).length = 1) :
    ∃ run ∈ rows, run.isNamed taskID runID = true := by
  obtain ⟨run', hrun'⟩ := List.exists_mem_of_length_pos (by omega :
    0 < (rows'.filter (AgentRun.isNamed taskID runID)).length)
  obtain ⟨hmem', hnamed⟩ := List.mem_filter.mp hrun'
  obtain ⟨run, hmem, hdrop⟩ := exists_of_forall₂ h hmem'
  rcases hdrop with rfl | ⟨-, hid, hfollows⟩
  · exact ⟨run', hmem, hnamed⟩
  · simp [AgentRun.isNamed, hfollows.id, hid] at hnamed

/-- What `Update` has checked when it writes. `edited` is the board with the checklist
edited, `kept` the task that the task is merged into. -/
structure UpdateChecks (taskID : String) (update : TaskUpdate) (current : Task)
    (kept : Option Task) (db edited : Db) : Prop where
  found : db.task? taskID = some current
  version : current.version = update.expectedVersion
  aside : Aside db edited
  merged : ∀ task, kept = some task → ∃ target, update.duplicateOf = some target ∧ target ≠ "" ∧
    (resolveDuplicateRoot target taskID).run edited = .ok (task, edited)
  unmerged : kept = none → ∀ target, update.duplicateOf = some target → target = ""
  done : update.status.getD current.status = .done → edited.openRequiredItemIDs taskID = [] ∧
    edited.unmetRequirements taskID = [] ∧ edited.unmetDependencies taskID = 0
  named : update.runID ≠ "" → ∃ run ∈ db.runs, run.isNamed taskID update.runID = true

/-- **The general update.** Its checks hold, one row of `tasks` is rewritten and the links
follow; the run the request names is rewritten with it; a next occurrence may be recorded;
and one event under the key comes behind the events without one. -/
theorem updateTx_rows
    (h : (updateTx svc env taskID update actor hash).run db = .ok (status, db')) :
    ∃ current kept edited sortOrder added runs notes event base,
      UpdateChecks taskID update current kept db edited ∧
      status = update.status.getD current.status ∧
      (db.tasks.filter (bumps taskID update.expectedVersion fun _ => true)).length = 1 ∧
      added.length ≤ 1 ∧ (status ≠ .done → added = []) ∧
      (∀ task ∈ added, task.Newcomer db.tasks) ∧
      List.Forall₂ (AgentRun.Written svc env.now taskID update.runID status) db.runs runs ∧
      (∀ event ∈ notes, Event.Unkeyed event) ∧
      event.taskID = taskID ∧ event.runID = update.runID ∧
      event.actor = defaultActor actor current.owner ∧
      event.payload = mergePayload base
        (idempotencyPayload "task_update" update.idempotencyKey hash) ∧ base.Keyless ∧
      Aside { db with
        tasks := (mapWhere (bumps taskID update.expectedVersion fun _ => true)
          (·.rewritten (updatedTask update current status sortOrder kept
            (defaultActor actor current.createdBy) env.now)) db.tasks).map
          (Task.relinked taskID kept (update.unlinks current.status status)) ++ added
        runs := runs
        events := db.events ++ notes ++ [event] } db' := by
  simp only [updateTx, run_loadTask_bind_ok] at h
  obtain ⟨current, hcurrent, h⟩ := h
  obtain ⟨_, checked, hcheck, h⟩ := Tx.run_bind_ok.mp h
  obtain ⟨hversion, hsame⟩ := checkVersion_ok hcheck
  obtain rfl : db = checked := hsame.symm
  obtain ⟨_, _, hassign, h⟩ := Tx.run_bind_ok.mp h
  obtain rfl := (each_checkAssignment (R := Eq)).run hassign
  obtain ⟨completed, edited, hitems, h⟩ := Tx.run_bind_ok.mp h
  have hedited : OnItems db edited := onItems_editItems.run hitems
  obtain ⟨kept, found, hkept, h⟩ := Tx.run_bind_ok.mp h
  obtain ⟨hsame, hmerged, hunmerged⟩ := findKept_ok hkept
  obtain rfl : edited = found := hsame.symm
  obtain ⟨_, ready, hready, h⟩ := Tx.run_bind_ok.mp h
  obtain ⟨hsame, hdone⟩ := checkDone_ok hready
  obtain rfl : edited = ready := hsame.symm
  obtain ⟨_, active, hactivate, h⟩ := Tx.run_bind_ok.mp h
  have hactive : OnItems db active := trans_of OnItems hedited
    ((Tx.each_ite onItems_activateFirstItem (Tx.each_pure _) : Tx.Each OnItems _).run hactivate)
  obtain ⟨sortOrder, placed, horder, h⟩ := Tx.run_bind_ok.mp h
  obtain rfl : active = placed := (Tx.run_select_ok.mp horder).2.symm
  obtain ⟨_, _, hwrite, h⟩ := Tx.run_bind_ok.mp h
  obtain ⟨hone, rfl⟩ := writeTask_ok hwrite
  obtain ⟨_, _, hlink, h⟩ := Tx.run_bind_ok.mp h
  obtain ⟨runs, links, hruns, hlinks, rfl⟩ := linkDuplicate_ok hlink
  obtain ⟨defaulted, moved, hdefault, h⟩ := Tx.run_bind_ok.mp h
  have hmoved := beside_defaultOnMove.run hdefault
  obtain ⟨_, recurring, hrecur, h⟩ := Tx.run_bind_ok.mp h
  obtain ⟨added, recurs, hlength, hnone, hadded, hrecurs, hrecurring⟩ := createRecurrence_ok hrecur
  obtain ⟨_, last, hrun, h⟩ := Tx.run_bind_ok.mp h
  obtain ⟨_, noted, hinsert, h⟩ := Tx.run_bind_ok.mp h
  obtain ⟨-, -, hnoted⟩ := run_insertEvent_ok.mp hinsert
  obtain ⟨event, base, rfl, htask, hnamed, hactor, hpayload, hbase⟩ : ∃ event base,
      noted = { last with events := last.events ++ [event] } ∧ event.taskID = taskID ∧
      event.runID = update.runID ∧ event.actor = defaultActor actor current.owner ∧
      event.payload = mergePayload base
        (idempotencyPayload "task_update" update.idempotencyKey hash) ∧ base.Keyless :=
    ⟨_, _, hnoted, rfl, rfl, rfl, rfl, keyless_updatePayload _ _ _ _ _⟩
  obtain ⟨hfound, rfl⟩ := writeRun_ok hrun
  obtain ⟨rfl, rfl⟩ := Tx.run_pure_ok.mp h
  obtain ⟨_, rfl⟩ := hactive
  obtain ⟨_, _, _, rfl⟩ := hmoved
  obtain ⟨_, _, _, _, rfl⟩ := hrecurring
  have hchecks : UpdateChecks taskID update current kept db edited :=
    ⟨hcurrent, hversion, hedited.aside, hmerged, hunmerged, hdone, fun hne =>
      named_of_dropped hruns (hfound hne)⟩
  refine ⟨current, kept, edited, sortOrder, added, _, links ++ recurs, event, base, hchecks,
    rfl, hone, hlength, hnone, fun task hnew => ?_, written_of_dropped hruns,
    List.forall_mem_append.mpr ⟨hlinks, hrecurs⟩, htask, hnamed, hactor, hpayload, hbase, ?_⟩
  · obtain ⟨hqueued, hlinkless, hproper, hfresh⟩ := hadded task hnew
    refine ⟨hqueued, hlinkless, hproper, fun other hother => ?_⟩
    obtain ⟨other', hother', hsame⟩ := exists_next_of_forall₂ (updated_relinked rfl db.tasks) hother
    exact hsame.id ▸ hfresh other' hother'
  · simp only [List.append_assoc]
    exact ⟨_, _, _, _, rfl⟩

/-- **The states that the general update goes through.** The row is written once the checklist is
edited (`active`); then come the links, the requirements by default and the next occurrence. What
follows touches neither tasks nor requirements. -/
theorem updateTx_steps
    (h : (updateTx svc env taskID update actor hash).run db = .ok (status, db')) :
    ∃ current kept active row linked defaulted moved recurring,
      db.task? taskID = some current ∧ current.version = update.expectedVersion ∧
      OnItems db active ∧
      row = updatedTask update current (update.status.getD current.status)
        (if update.section.getD current.section ≠ current.section then
          db.nextSortOrder (update.section.getD current.section) else current.sortOrder)
        kept (defaultActor actor current.createdBy) env.now ∧
      (db.tasks.filter (bumps taskID update.expectedVersion fun _ => true)).length = 1 ∧
      (linkDuplicate env taskID actor update current row kept).run
        { active with
          tasks := mapWhere (bumps taskID update.expectedVersion fun _ => true) (·.rewritten row)
            active.tasks } = .ok ((), linked) ∧
      (defaultOnMove svc taskID update current row env.now).run linked = .ok (defaulted, moved) ∧
      (createRecurrence svc env taskID actor current row).run moved = .ok ((), recurring) ∧
      db'.tasks = recurring.tasks ∧ db'.requirements = recurring.requirements := by
  simp only [updateTx, run_loadTask_bind_ok] at h
  obtain ⟨current, hcurrent, h⟩ := h
  obtain ⟨_, checked, hcheck, h⟩ := Tx.run_bind_ok.mp h
  obtain ⟨hversion, hsame⟩ := checkVersion_ok hcheck
  obtain rfl : db = checked := hsame.symm
  obtain ⟨_, _, hassign, h⟩ := Tx.run_bind_ok.mp h
  obtain rfl := (each_checkAssignment (R := Eq)).run hassign
  obtain ⟨completed, edited, hitems, h⟩ := Tx.run_bind_ok.mp h
  obtain ⟨kept, found, hkept, h⟩ := Tx.run_bind_ok.mp h
  obtain rfl : edited = found := (findKept_ok hkept).1.symm
  obtain ⟨_, ready, hready, h⟩ := Tx.run_bind_ok.mp h
  obtain rfl : edited = ready := (checkDone_ok hready).1.symm
  obtain ⟨_, active, hactivate, h⟩ := Tx.run_bind_ok.mp h
  have hactive : OnItems db active := trans_of OnItems (onItems_editItems.run hitems)
    ((Tx.each_ite onItems_activateFirstItem (Tx.each_pure _) : Tx.Each OnItems _).run hactivate)
  obtain ⟨sortOrder, placed, horder, h⟩ := Tx.run_bind_ok.mp h
  obtain ⟨hvalue, hsame⟩ := Tx.run_select_ok.mp horder
  obtain rfl : active = placed := hsame.symm
  obtain ⟨_, _, hwrite, h⟩ := Tx.run_bind_ok.mp h
  obtain ⟨hone, rfl⟩ := writeTask_ok hwrite
  obtain ⟨_, linked, hlink, h⟩ := Tx.run_bind_ok.mp h
  obtain ⟨defaulted, moved, hdefault, h⟩ := Tx.run_bind_ok.mp h
  obtain ⟨_, recurring, hrecur, h⟩ := Tx.run_bind_ok.mp h
  obtain ⟨_, last, hrun, h⟩ := Tx.run_bind_ok.mp h
  obtain ⟨_, noted, hinsert, h⟩ := Tx.run_bind_ok.mp h
  obtain ⟨-, rfl⟩ := writeRun_ok hrun
  obtain ⟨-, -, rfl⟩ := run_insertEvent_ok.mp hinsert
  obtain ⟨-, rfl⟩ := Tx.run_pure_ok.mp h
  obtain ⟨_, rfl⟩ := hactive
  refine ⟨current, kept, _, _, linked, defaulted, moved, recurring, hcurrent, hversion, ⟨_, rfl⟩,
    ?_, hone, hlink, hdefault, hrecur, rfl, rfl⟩
  rw [hvalue]
  rfl

/-- The general update, with no more of the rows than their identity, status and version. -/
theorem updateTx_ok
    (h : (updateTx svc env taskID update actor hash).run db = .ok (status, db')) :
    ∃ current tasks added runs notes event base,
      db.task? taskID = some current ∧ current.version = update.expectedVersion ∧
      status = update.status.getD current.status ∧
      (db.tasks.filter (bumps taskID update.expectedVersion fun _ => true)).length = 1 ∧
      List.Forall₂ (Task.Updated taskID update.expectedVersion status) db.tasks tasks ∧
      added.length ≤ 1 ∧
      (∀ task ∈ added, task.status = .queued ∧ ∀ other ∈ db.tasks, other.id ≠ task.id) ∧
      List.Forall₂ (AgentRun.Written svc env.now taskID update.runID status) db.runs runs ∧
      (∀ event ∈ notes, Event.Unkeyed event) ∧
      event.taskID = taskID ∧ event.runID = update.runID ∧
      event.actor = defaultActor actor current.owner ∧
      event.payload = mergePayload base
        (idempotencyPayload "task_update" update.idempotencyKey hash) ∧ base.Keyless ∧
      Aside { db with
        tasks := tasks ++ added, runs := runs, events := db.events ++ notes ++ [event] } db' := by
  obtain ⟨current, kept, edited, sortOrder, added, runs, notes, event, base, hchecks, hstatus,
    hone, hlength, -, hadded, hruns, hnotes, htask, hnamed, hactor, hpayload, hbase, haside⟩ :=
    updateTx_rows h
  exact ⟨current, _, added, runs, notes, event, base, hchecks.found, hchecks.version, hstatus,
    hone, updated_relinked (by rfl) db.tasks, hlength, fun task hnew => ⟨(hadded task hnew).queued,
    (hadded task hnew).fresh⟩, hruns, hnotes, htask, hnamed, hactor, hpayload, hbase, haside⟩

theorem AgentRun.Written.sameKey
    {run run' : AgentRun} (h : run.Written svc now taskID runID status run') :
    SameKey (fun run : AgentRun => (run.id, run.taskID, run.agent, run.startedAt)) run run' := by
  cases hnamed : run.isNamed taskID runID with
  | true =>
      obtain rfl := h.named hnamed
      rfl
  | false =>
      have hfollows := (h.other hnamed).1
      exact Prod.ext hfollows.id (Prod.ext hfollows.taskID
        (Prod.ext hfollows.agent hfollows.startedAt))

theorem loose_updateTx {r : TaskStatus × Db}
    (h : (updateTx svc env taskID update actor hash).run db = .ok r) :
    Loose [.items, .handoffs, .posts, .taskRequirements] (Event.Under "task_update") db r.2 := by
  obtain ⟨current, tasks, added, runs, notes, event, base, -, -, -, -, htasks, -, -, hruns, hnotes,
    -, -, -, hpayload, hbase, haside⟩ := updateTx_ok h
  refine Footprint.of_aside haside
    ⟨tasks, added, rfl, htasks.imp fun _ _ h => h.id, fun _ _ => trivial⟩
    (.of_forall₂ (hruns.imp fun _ _ h => h.sameKey)) ⟨db.events, notes ++ [event],
      List.append_assoc _ _ _, List.forall₂_refl _, ?_⟩
  simp only [List.mem_append, List.mem_singleton]
  rintro e (he | rfl)
  · exact Or.inl (hnotes e he)
  · exact Event.under_merge hbase hpayload

/-- `Update`. -/
def updateTask (svc : Service) (env : Env) (taskID : String) (request : UpdateRequest)
    (actor : String) (hash : Option Digest) : CallM TaskView := do
  let taskID := trimSpace taskID
  let update ← validateUpdate svc taskID request
  let status ← Call.tx (updateTx svc env taskID update actor hash)
  let task ← getTask svc env.now taskID
  (if update.runID ≠ "" ∧ status.terminal then do
    let _ ← (ensureDerivedHandoff svc env.now (env.newID 4) (env.newID 5) taskID update.runID
      .final).attempt
    pure ()
  else pure ())
  pure task

/-- Whether the update comes from a run that holds the task's lease. -/
def updateLeased (svc : Service) (env : Env) (taskID : String) (request : UpdateRequest)
    (principal : Principal) : CallM Bool := do
  if trimSpace request.runID = "" then pure false
  else
    let seen ← (getForHidden svc env.checked taskID principal).attempt
    match seen with
    | .ok task =>
        pure (canMutate task.toTask principal &&
          holdsLease task.runs request.runID principal env.checked)
    | .error (.forbidden _ _) => pure false
    | .error .notFound => pure false
    | .error e => Call.fail e

/-- The capabilities `updateFor` asks of an agent whose key is not a replay. -/
def checkUpdateCapabilities (svc : Service) (env : Env) (taskID : String)
    (request : UpdateRequest) (principal : Principal) : CallM Unit := do
  let leased ← updateLeased svc env taskID request principal
  refuse (!leased && !principal.hasCapability .taskUpdate)
    (missingCapability "task:update" "update tasks")
  refuse (request.status = "done" ∧ !leased ∧ !principal.hasCapability .taskComplete)
    (missingCapability "task:complete" "mark tasks done")

/-- Who may update a task: `updateFor` decides it from the task as it reads it. -/
def mayUpdate (task : Task) (runs : List AgentRun) (principal : Principal)
    (request : UpdateRequest) : Bool :=
  canMutate task principal ||
    (producerMayUpdate task runs principal && producerFieldsOnly request) ||
    pickupRunnerMayNote task runs principal request

/-- What `updateFor` checks of the task it read. -/
def checkUpdate (current : TaskView) (request : UpdateRequest) (principal : Principal) :
    Except ServiceError Unit := do
  refuse (principal.agent ∧ trimSpace request.runID ≠ "" ∧ ∃ run ∈ current.runs,
      run.id = trimSpace request.runID ∧ run.agent ≠ principal.id)
    (ServiceError.forbidden "run belongs to another agent" [])
  refuse (!mayUpdate current.toTask current.runs principal request)
    (if principal.agent ∧ current.owner ≠ principal.id then
      ServiceError.forbidden "the task is owned by %q, not %s; claim it first"
        [current.owner, principal.id]
    else ErrForbidden)
  refuse (principal.agent ∧ request.visibility ≠ none)
    (ServiceError.forbidden "agents cannot change task visibility" [])
  refuse (principal.agent ∧ request.owner.any fun owner => trimSpace owner ≠ principal.id)
    (ServiceError.forbidden "agents can only assign tasks to themselves" [])

/-- The check of `updateFor` that the caller may see the task it merges into. -/
def checkDuplicateTarget (svc : Service) (env : Env) (request : UpdateRequest)
    (principal : Principal) : CallM Unit :=
  let target := trimSpace (request.duplicateOf.getD "")
  if target = "" then pure ()
  else do
    let seen ← (getForHidden svc env.checked target principal).attempt
    match seen with
    | .ok _ => pure ()
    | .error (.forbidden _ _) =>
        Call.fail (ErrValidation "duplicate_of task not found")
    | .error .notFound => Call.fail (ErrValidation "duplicate_of task not found")
    | .error e => Call.fail e

/-- The part of `updateFor` that people and agents have in common. -/
def updateAllowed (svc : Service) (env : Env) (taskID : String) (request : UpdateRequest)
    (principal : Principal) (hash : Option Digest) : CallM TaskView := do
  let current ← getForHidden svc env.checked taskID principal
  checkUpdate current request principal
  checkDuplicateTarget svc env request principal
  updateTask svc env taskID request principal.id hash

/-- What `updateFor` refuses an agent outright. -/
def checkSensitive (request : UpdateRequest) (principal : Principal) :
    Except ServiceError Unit := do
  let marksDuplicate := request.duplicateOf.any fun target => trimSpace target ≠ ""
  refuse ((request.status = "cancelled" ∨ marksDuplicate) ∧
      !principal.hasCapability .taskSensitive)
    (missingCapability "task:sensitive"
      "cancel tasks or mark them duplicates; ask a person to do it")
  refuse (request.skipItemIDs ≠ [] ∧ !principal.hasCapability .taskSkip ∧
      !principal.hasCapability .taskSensitive)
    (missingCapability "task:skip"
      "skip checklist items; ask a person to skip them or finish the steps")

/-- `updateFor`. -/
def updateFor (svc : Service) (env : Env) (taskID : String) (request : UpdateRequest)
    (principal : Principal) : CallM TaskView := do
  if principal.agent then
    checkSensitive request principal
    keyed svc (request.idempotencyKey ≠ "") principal "task_update" request.idempotencyKey
      (.update taskID request)
      (fun event => getForHidden svc env.checked event.taskID principal)
      (do
        checkUpdateCapabilities svc env taskID request principal
        updateAllowed svc env taskID request principal (some (.update taskID request)))
  else
    refuse (!principal.can .taskWrite) ErrForbidden
    updateAllowed svc env taskID request principal none

section Footprints

variable {principal : Principal}

theorem quiet_checkUpdateCapabilities :
    (checkUpdateCapabilities svc env taskID request principal).Quiet := by
  refine Call.quiet_bind ?_ fun _ => Call.quiet_lift_bind fun _ => Call.quiet_lift _
  unfold updateLeased
  refine Call.quiet_ite (Call.quiet_pure _) ?_
  refine Call.quiet_bind (Call.quiet_attempt quiet_getForHidden) fun seen => ?_
  split
  · exact Call.quiet_pure _
  · exact Call.quiet_pure _
  · exact Call.quiet_pure _
  · exact Call.quiet_fail _

theorem quiet_checkDuplicateTarget : (checkDuplicateTarget svc env request principal).Quiet := by
  unfold checkDuplicateTarget
  refine Call.quiet_ite (Call.quiet_pure _) ?_
  refine Call.quiet_bind (Call.quiet_attempt quiet_getForHidden) fun seen => ?_
  split
  · exact Call.quiet_pure _
  · exact Call.quiet_fail _
  · exact Call.quiet_fail _
  · exact Call.quiet_fail _

theorem each_updateAllowed : (updateAllowed svc env taskID request principal hash).Each
    (Loose [.items, .handoffs, .posts, .taskRequirements] (Event.Under "task_update")) := by
  refine Call.each_bind quiet_getForHidden.each fun _ => ?_
  refine Call.each_lift_bind fun _ _ => ?_
  refine Call.each_bind quiet_checkDuplicateTarget.each fun _ => ?_
  refine Call.each_lift_bind fun _ _ => ?_
  refine Call.each_bind (Call.each_tx fun _ _ h => loose_updateTx h) fun _ => ?_
  refine Call.each_bind quiet_getTask.each fun _ => ?_
  refine Call.each_bind (Call.each_ite ?_ (Call.quiet_pure _).each) fun _ =>
    (Call.quiet_pure _).each
  exact Call.each_bind (Call.each_attempt (each_ensureDerivedHandoff fun _ => Or.inl))
    fun _ => (Call.quiet_pure _).each

/-- What a call of the general update does where it does anything: one transaction, and a
derived handoff perhaps. -/
def Updates (svc : Service) (env : Env) (taskID : String) (request : UpdateRequest)
    (actor : String) (db db' : Db) : Prop :=
  ∃ update hash status db1, validateUpdate svc (trimSpace taskID) request = .ok update ∧
    (updateTx svc env (trimSpace taskID) update actor hash).run db = .ok (status, db1) ∧
    Plain [.handoffs] Event.Unkeyed db1 db'

/-- The part of `Update` after its transaction. -/
def afterUpdate (svc : Service) (env : Env) (taskID runID : String) (status : TaskStatus) :
    CallM TaskView := do
  let task ← getTask svc env.now taskID
  (if runID ≠ "" ∧ status.terminal then do
    let _ ← (ensureDerivedHandoff svc env.now (env.newID 4) (env.newID 5) taskID runID
      .final).attempt
    pure ()
  else pure ())
  pure task

/-- What `Update` does after its transaction leaves tasks and runs as they are. -/
theorem each_afterUpdate {tk : List Task → List Task → Prop}
    {rn : List AgentRun → List AgentRun → Prop} [IsPreorder _ tk] [IsPreorder _ rn]
    :
    (afterUpdate svc env taskID runID status).Each
      (Footprint [.handoffs] tk rn Event.Unkeyed) := by
  refine Call.each_bind quiet_getTask.each fun _ => ?_
  refine Call.each_bind (Call.each_ite ?_ (Call.quiet_pure _).each) fun _ =>
    (Call.quiet_pure _).each
  exact Call.each_bind (Call.each_attempt (each_ensureDerivedHandoff fun _ h => h))
    fun _ => (Call.quiet_pure _).each

/-- What `updateFor` does where it does anything: the transaction, and what comes after it. -/
theorem atMost_updateFor_of {E : Db → Db → Prop}
    (hE : ∀ update hash db status db1, validateUpdate svc (trimSpace taskID) request = .ok update →
      (updateTx svc env (trimSpace taskID) update principal.id hash).run db = .ok (status, db1) →
      E db ((afterUpdate svc env (trimSpace taskID) update.runID status).exec db1).2) :
    (updateFor svc env taskID request principal).AtMost E := by
  have hallowed (hash : Option Digest) :
      (updateAllowed svc env taskID request principal hash).AtMost E := by
    refine Call.atMost_bind_quiet quiet_getForHidden fun _ => ?_
    refine Call.atMost_lift_bind fun _ _ => ?_
    refine Call.atMost_bind_quiet quiet_checkDuplicateTarget fun _ => ?_
    refine Call.atMost_lift_bind fun update hvalid => ?_
    exact Call.atMost_tx_bind fun db status db1 hrun => hE update hash db status db1 hvalid hrun
  refine Call.atMost_ite ?_ (Call.atMost_lift_bind fun _ _ => hallowed _)
  refine Call.atMost_lift_bind fun _ _ => ?_
  exact atMost_keyed (fun _ => quiet_getForHidden)
    (Call.atMost_bind_quiet quiet_checkUpdateCapabilities fun _ => hallowed _)

theorem atMost_updateFor :
    (updateFor svc env taskID request principal).AtMost
      (Updates svc env taskID request principal.id) :=
  atMost_updateFor_of fun update hash _ status db1 hvalid hrun =>
    ⟨update, hash, status, db1, hvalid, hrun, each_afterUpdate.exec db1⟩

/-- An update that is allowed and succeeds has committed its transaction. -/
theorem updateAllowed_ok
    (h : (updateAllowed svc env taskID request principal hash).exec db = (.ok view, db')) :
    Updates svc env taskID request principal.id db db' := by
  obtain ⟨current, -, h⟩ := Call.exec_bind_quiet_ok quiet_getForHidden h
  obtain ⟨_, -, h⟩ := Call.exec_lift_bind_ok h
  obtain ⟨_, -, h⟩ := Call.exec_bind_quiet_ok quiet_checkDuplicateTarget h
  obtain ⟨update, hvalid, h⟩ := Call.exec_lift_bind_ok h
  simp only [Call.exec_lift, Prod.mk.injEq, and_true] at hvalid
  obtain ⟨status, db1, htx, h⟩ := Call.exec_bind_ok h
  obtain ⟨_, hrun, hstatus⟩ | ⟨e, -, he, -⟩ := Call.exec_tx_cases htx
  · cases hstatus
    exact ⟨update, hash, status, db1, hvalid, hrun, each_afterUpdate.of_exec h⟩
  · cases he

/-- A successful call of `updateFor` answered an event under its key and changed nothing, or
committed its transaction. -/
theorem updateFor_ok (h : (updateFor svc env taskID request principal).exec db = (.ok view, db')):
    (db' = db ∧ principal.agent = true ∧ ∃ event, svc.findReplay db principal.id "task_update"
        request.idempotencyKey (.update taskID request) = .ok (some event)) ∨
      Updates svc env taskID request principal.id db db' := by
  unfold updateFor at h
  split at h
  · rename_i hagent
    obtain ⟨_, -, h⟩ := Call.exec_lift_bind_ok h
    rcases exec_keyedAs_ok h with ⟨event, hevent, hanswer⟩ | ⟨-, h⟩
    · exact Or.inl ⟨quiet_getForHidden.of_exec hanswer, hagent, event, hevent.2⟩
    · obtain ⟨_, -, h⟩ := Call.exec_bind_quiet_ok quiet_checkUpdateCapabilities h
      exact Or.inr (updateAllowed_ok h)
  · obtain ⟨_, -, h⟩ := Call.exec_lift_bind_ok h
    exact Or.inr (updateAllowed_ok h)

theorem each_updateFor :
    (updateFor svc env taskID request principal).Each
      (Loose [.items, .handoffs, .posts, .taskRequirements] (Event.Under "task_update")) := by
  refine Call.each_ite ?_ (Call.each_lift_bind fun _ _ => each_updateAllowed)
  refine Call.each_lift_bind fun _ _ => ?_
  exact each_keyed (fun _ => quiet_getForHidden.each)
    (Call.each_bind quiet_checkUpdateCapabilities.each fun _ => each_updateAllowed)

end Footprints

end Taskboard
