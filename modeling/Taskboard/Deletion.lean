import Taskboard.Transitions

/-!
# Deleting tasks

People with the administrator role delete tasks, one at a time or all that were completed
before a cutoff. The rows that belong to a deleted task go with it (`ON DELETE CASCADE`), a
dependency with either of its two tasks, and a link to a deleted task is cleared
(`ON DELETE SET NULL`).

A board changes by the operations of the service and by deletions (`Change`).
-/

namespace Taskboard

variable {db db' : Db} {svc : Service} {ok : Change → Db → Prop}

/-- The receipt is for a message or a run of the tasks named. -/
def Db.receiptOf (db : Db) (gone : String → Bool) (row : MessageReceipt) : Bool :=
  db.messages.any (fun message => message.id = row.messageID && gone message.taskID) ||
    db.runs.any fun run => run.id = row.runID && gone run.taskID

/-- The database without the tasks named. -/
def Db.without (db : Db) (gone : String → Bool) : Db :=
  { db with
    tasks := (db.tasks.filter fun task => !gone task.id).map fun task =>
      { task with duplicateOf := task.duplicateOf.filter fun id => !gone id }
    items := db.items.filter fun row => !gone row.taskID
    runs := db.runs.filter fun row => !gone row.taskID
    events := db.events.filter fun row => !gone row.taskID
    dependencies := db.dependencies.filter fun row =>
      !gone row.taskID && !gone row.blockedByTaskID
    requirements := db.requirements.filter fun row => !gone row.taskID
    messages := db.messages.filter fun row => !gone row.taskID
    escalations := db.escalations.filter fun row => !gone row.taskID
    controls := db.controls.filter fun row => !gone row.taskID
    references := db.references.filter fun row => !gone row.taskID
    handoffs := db.handoffs.filter fun row => !gone row.taskID
    completionRequirements := db.completionRequirements.filter fun row => !gone row.taskID
    evidence := db.evidence.filter fun row => !gone row.taskID
    usage := db.usage.filter fun row => !gone row.taskID
    discussions := db.discussions.filter fun row => !gone row.taskID
    discussionMessages := db.discussionMessages.filter fun row => !gone row.taskID
    receipts := db.receipts.filter fun row => !db.receiptOf gone row
    bridgeRequests := db.bridgeRequests.filter fun row => !gone row.taskID }

theorem taskTable_key_unlinked (task : Task) :
    taskTable.key { task with duplicateOf := none } = taskTable.key task := rfl

/-- `DELETE FROM tasks WHERE ...`, with what its foreign keys do to other rows. -/
def deleteTasksWhere (p : Task → Bool) : TxM Nat := do
  let ids ← Tx.select fun db => (db.tasks.filter p).map (·.id)
  let count ← taskTable.deleteWhere fun _ task => ids.contains task.id
  let _ ← taskTable.updateWhere (fun _ task => task.duplicateOf.any ids.contains)
    (fun task => { task with duplicateOf := none }) taskTable_key_unlinked
  let _ ← receiptTable.deleteWhere fun db row => db.receiptOf ids.contains row
  let _ ← itemTable.deleteWhere fun _ row => ids.contains row.taskID
  let _ ← runTable.deleteWhere fun _ row => ids.contains row.taskID
  let _ ← eventTable.deleteWhere fun _ row => ids.contains row.taskID
  let _ ← dependencyTable.deleteWhere fun _ row =>
    ids.contains row.taskID || ids.contains row.blockedByTaskID
  let _ ← requirementTable.deleteWhere fun _ row => ids.contains row.taskID
  let _ ← messageTable.deleteWhere fun _ row => ids.contains row.taskID
  let _ ← escalationTable.deleteWhere fun _ row => ids.contains row.taskID
  let _ ← controlTable.deleteWhere fun _ row => ids.contains row.taskID
  let _ ← referenceTable.deleteWhere fun _ row => ids.contains row.taskID
  let _ ← handoffTable.deleteWhere fun _ row => ids.contains row.taskID
  let _ ← completionRequirementTable.deleteWhere fun _ row => ids.contains row.taskID
  let _ ← evidenceTable.deleteWhere fun _ row => ids.contains row.taskID
  let _ ← usageTable.deleteWhere fun _ row => ids.contains row.taskID
  let _ ← discussionTable.deleteWhere fun _ row => ids.contains row.taskID
  let _ ← discussionMessageTable.deleteWhere fun _ row => ids.contains row.taskID
  let _ ← bridgeRequestTable.deleteWhere fun _ row => ids.contains row.taskID
  pure count

theorem cleared_links (gone : String → Bool) (tasks : List Task) :
    mapWhere (fun task => task.duplicateOf.any gone) (fun task => { task with duplicateOf := none })
        tasks =
      tasks.map fun task =>
        { task with duplicateOf := task.duplicateOf.filter fun id => !gone id } := by
  unfold mapWhere
  apply List.map_congr_left
  intro task _
  have hlink : task.duplicateOf.filter (fun id => !gone id) =
      if task.duplicateOf.any gone then none else task.duplicateOf := by
    cases task.duplicateOf with
    | none => rfl
    | some id => cases hgone : gone id <;> simp [Option.filter, hgone]
  rw [hlink]
  split <;> rfl

theorem deleteTasksWhere_ok {p : Task → Bool} {n : Nat}
    (h : (deleteTasksWhere p).run db = .ok (n, db')) :
    db' = db.without ((db.tasks.filter p).map (·.id)).contains := by
  simp only [deleteTasksWhere, Tx.run_select_bind_ok, Table.run_deleteWhere_bind_ok] at h
  obtain ⟨_, _, hlinks, h⟩ := Tx.run_bind_ok.mp h
  obtain ⟨-, rfl⟩ := Table.run_updateWhere_ok.mp hlinks
  simp only [Table.run_deleteWhere_bind_ok, Tx.run_pure_ok, Bool.not_or] at h
  obtain ⟨-, rfl⟩ := h
  simp only [taskTable, cleared_links]
  rfl

/-- `DeleteTask`. -/
def deleteTask (id : String) : CallM Unit :=
  Call.tx do
    let count ← deleteTasksWhere fun task => task.id = trimSpace id
    refuse (count ≠ 1) ServiceError.notFound

/-- The test of `ApplyRetention`: done or cancelled, and completed before the cutoff. -/
def Service.retired (svc : Service) (cutoff : Instant) (task : Task) : Bool :=
  (task.status = .done || task.status = .cancelled) && task.completedAt.any (svc.before · cutoff)

/-- `ApplyRetention`; sessions that no run is left of go too. -/
def applyRetention (svc : Service) (cutoff : Instant) : CallM Nat :=
  Call.tx do
    let count ← deleteTasksWhere (svc.retired cutoff)
    let _ ← sessionTable.deleteWhere fun db session =>
      !db.runs.any fun run => run.sessionID = session.id
    pure count

/-- What changes a board. -/
inductive Change where
  | operation (op : Op)
  | deleteTask (id : String)
  | applyRetention (cutoff : Instant)

/-- The database after the change alone. -/
def Change.step (svc : Service) (change : Change) (db : Db) : Db :=
  match change with
  | .operation op => op.step svc db
  | .deleteTask id => ((Taskboard.deleteTask id).exec db).2
  | .applyRetention cutoff => ((Taskboard.applyRetention svc cutoff).exec db).2

/-- Tasks and what belongs to them are taken out of the database, and sessions perhaps. -/
def Deletes (db db' : Db) : Prop :=
  ∃ gone sessions, db' = { db.without gone with sessions }

theorem atMost_deleteTask (id : String) : (deleteTask id).AtMost Deletes := by
  refine (Call.atMost_tx _).mono fun db db' ⟨u, hrun⟩ => ?_
  obtain ⟨_, _, hwrite, hrest⟩ := Tx.run_bind_ok.mp hrun
  obtain ⟨-, rfl⟩ := Tx.run_lift_ok.mp hrest
  obtain rfl := deleteTasksWhere_ok hwrite
  exact ⟨_, db.sessions, rfl⟩

theorem atMost_applyRetention (svc : Service) (cutoff : Instant) :
    (applyRetention svc cutoff).AtMost Deletes := by
  refine (Call.atMost_tx _).mono fun db db' ⟨count, hrun⟩ => ?_
  obtain ⟨_, _, hwrite, hrest⟩ := Tx.run_bind_ok.mp hrun
  obtain ⟨_, _, hsessions, hlast⟩ := Tx.run_bind_ok.mp hrest
  obtain ⟨-, rfl⟩ := Table.run_deleteWhere_ok.mp hsessions
  obtain ⟨-, rfl⟩ := Tx.run_pure_ok.mp hlast
  obtain rfl := deleteTasksWhere_ok hwrite
  exact ⟨_, _, rfl⟩

/-- **One change, inverted**: an operation, a deletion, or nothing at all. -/
theorem Change.step_cases (svc : Service) (change : Change) (db : Db) :
    (∃ op, change = .operation op ∧ change.step svc db = op.step svc db) ∨
      change.step svc db = db ∨ Deletes db (change.step svc db) := by
  cases change with
  | operation op => exact Or.inl ⟨op, rfl, rfl⟩
  | deleteTask id => exact Or.inr (atMost_deleteTask id db)
  | applyRetention cutoff => exact Or.inr (atMost_applyRetention svc cutoff db)

/-- The states that changes which `ok` allows lead to, one after another, from an empty
database. -/
inductive Develops (svc : Service) (ok : Change → Db → Prop) : Db → Prop
  | empty : Develops svc ok {}
  | change {db : Db} (h : Develops svc ok db) (change : Change) (hok : ok change db) :
      Develops svc ok (change.step svc db)

/-- What every allowed operation and every deletion keeps holds in every state that is
reached. -/
theorem Develops.invariant {P : Db → Prop} (hinit : P {})
    (hop : ∀ op db, ok (.operation op) db → P db → P (op.step svc db))
    (hdelete : ∀ db db', Deletes db db' → P db → P db') (h : Develops svc ok db) :
    P db := by
  induction h with
  | empty => exact hinit
  | @change db h change hok ih =>
      rcases change.step_cases svc db with ⟨op, rfl, hstep⟩ | hsame | hdeletes
      · exact hstep ▸ hop op db hok ih
      · exact hsame.symm ▸ ih
      · exact hdelete db _ hdeletes ih

theorem unique_deletes (hdeletes : Deletes db db') (h : db.Unique) : db'.Unique := by
  obtain ⟨gone, sessions, rfl⟩ := hdeletes
  unfold Db.Unique
  simp only [Db.without, List.map_map]
  exact h.sublist (List.filter_sublist.map _)

theorem Develops.unique (h : Develops svc ok db): db.Unique :=
  h.invariant List.nodup_nil (fun op db _ => unique_step op db) fun _ _ => unique_deletes

end Taskboard
