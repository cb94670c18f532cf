import Taskboard.Authority
import Taskboard.Duplicates

/-!
# Changes of tasks that the caller cannot see

Every edit looks at the task it is about before it starts. Two of them change the rows of other
tasks as well: a move swaps places with the neighbour of the task, and a task that is merged into
another hands its duplicates on. Neither asks who may see those tasks, so that what an edit
changes is visible to its caller exactly where those tasks are (`edits_change_seen_tasks`).
-/

namespace Taskboard

variable {now : Instant} {request : ReviewCompletionRequest} {requirementID taskID : String}
  {also : Task → Bool} {db db' : Db} {env : Env} {principal : Principal} {svc : Service}

variable {task : Task} {view : TaskView}

/-- The rows that differ afterwards are of tasks that the principal could see. -/
def ChangesSeen (principal : Principal) (db db' : Db) : Prop :=
  ∀ task ∈ db.tasks, ∀ task' ∈ db'.tasks, task'.id = task.id → task' ≠ task →
    canView task principal = true

/-- The edits of the principal. -/
def Op.EditBy (principal : Principal) (op : Op) : Prop :=
  match op with
  | .update _ _ _ caller | .move _ _ _ caller | .claim _ _ _ caller | .heartbeat _ _ _ caller
  | .addDependency _ _ _ caller | .removeDependency _ _ _ _ caller
  | .setRequirements _ _ _ caller | .reviewCompletion _ _ _ _ caller => caller = principal
  | _ => False

/-- The request marks the task as a duplicate of another. -/
def UpdateRequest.merges (request : UpdateRequest) : Bool :=
  request.duplicateOf.any fun target => trimSpace target ≠ ""

/-- The update of an agent was made before, under the same key. -/
def UpdateRequest.Replayed (svc : Service) (taskID : String) (request : UpdateRequest)
    (principal : Principal) (db : Db) : Prop :=
  principal.agent = true ∧ request.idempotencyKey ≠ "" ∧
    ∃ event, svc.findReplay db principal.id "task_update" request.idempotencyKey
      (.update taskID request) = .ok (some event)

/-- The other tasks whose rows the edit would write are ones that the principal can see: the
neighbour of a task that is moved, and the duplicates of a task that is merged. -/
def Op.ReachesSeen (svc : Service) (principal : Principal) (op : Op) (db : Db) : Prop :=
  match op with
  | .move _ taskID request _ =>
      ∀ current neighbor, db.task? (trimSpace taskID) = some current →
        svc.neighbor db current (svc.unicode.lower (trimSpace request.direction) = "down") =
          some neighbor → canView neighbor principal = true
  | .update _ taskID request _ =>
      request.merges = true → ¬ request.Replayed svc taskID principal db →
        ∀ task ∈ db.tasks, task.duplicateOf = some (trimSpace taskID) →
          canView task principal = true
  | _ => True

/-- The row of a task, unchanged unless it is the one named. -/
structure Task.Spared (taskID : String) (task task' : Task) : Prop where
  id : task'.id = task.id
  same : task.id ≠ taskID → task' = task

instance (taskID : String) : IsPreorder Task (Task.Spared taskID) where
  refl _ := ⟨rfl, fun _ => rfl⟩
  trans _ _ _ h h' := by
    refine ⟨h'.id.trans h.id, fun hne => ?_⟩
    have hsame := h.same hne
    rw [h'.same (hsame ▸ hne), hsame]

/-- The rows of all tasks but one stay as they are. -/
def OnlyTask (taskID : String) (db db' : Db) : Prop :=
  List.Forall₂ (Task.Spared taskID) db.tasks db'.tasks

instance (taskID : String) : IsPreorder Db (OnlyTask taskID) where
  refl db := refl_of (List.Forall₂ (Task.Spared taskID)) db.tasks
  trans _ _ _ h h' := forall₂_trans h h'

section Edits

variable {blockedBy : String} {expected : Int}

theorem id_of_bumps (h : bumps taskID expected also task = true): task.id = taskID := by
  simp only [bumps, Bool.and_eq_true, decide_eq_true_eq] at h
  exact h.1.1

theorem onlyTask_of_tasks (h : db'.tasks = db.tasks) : OnlyTask taskID db db' := by
  unfold OnlyTask
  rw [h]
  exact refl_of (List.Forall₂ (Task.Spared taskID)) db.tasks

theorem onlyTask_bumpTask {f : Task → Task} {hf : ∀ task, (f task).id = task.id}:
    (bumpTask taskID expected also f hf).Each (OnlyTask taskID) :=
  Table.each_updateWhere fun _ => forall₂_mapWhere fun task _ hhit =>
    ⟨hf task, fun hne => absurd (id_of_bumps hhit) hne⟩

theorem onlyTask_touchTask {editor : String} :
    (touchTask taskID expected editor now).Each (OnlyTask taskID) :=
  onlyTask_bumpTask

theorem onlyTask_insertEvent {event : Event} : (insertEvent event).Each (OnlyTask taskID) :=
  Table.each_insert fun _ => onlyTask_of_tasks rfl

theorem onlyTask_addDependencyTx :
    (addDependencyTx env taskID blockedBy expected principal).Each (OnlyTask taskID) := by
  refine Tx.each_selectOr_bind fun _ => ?_
  refine Tx.each_lift_bind fun _ => ?_
  refine Tx.each_select_bind fun _ => ?_
  refine Tx.each_lift_bind fun _ => ?_
  refine Tx.each_bind (Table.each_insertUnless fun _ => onlyTask_of_tasks rfl) fun _ => ?_
  refine Tx.each_lift_bind fun _ => ?_
  exact Tx.each_bind onlyTask_touchTask fun _ => onlyTask_insertEvent

theorem onlyTask_removeDependencyTx :
    (removeDependencyTx env taskID blockedBy expected principal).Each (OnlyTask taskID) := by
  refine Tx.each_selectOr_bind fun _ => ?_
  refine Tx.each_lift_bind fun _ => ?_
  refine Tx.each_bind (Table.each_deleteWhere fun _ => onlyTask_of_tasks rfl) fun _ => ?_
  refine Tx.each_lift_bind fun _ => ?_
  exact Tx.each_bind onlyTask_touchTask fun _ => onlyTask_insertEvent

theorem onlyTask_setRequirementsTx {items : List String} :
    (setRequirementsTx env taskID items expected principal).Each (OnlyTask taskID) := by
  refine Tx.each_selectOr_bind fun _ => ?_
  refine Tx.each_lift_bind fun _ => ?_
  refine Tx.each_bind (Table.each_deleteWhere fun _ => onlyTask_of_tasks rfl) fun _ => ?_
  refine Tx.each_bind (each_insertRequirements (fun _ _ => onlyTask_of_tasks rfl) items) fun _ => ?_
  exact Tx.each_bind onlyTask_touchTask fun _ => onlyTask_insertEvent

theorem onlyTask_reviewCompletionTx {status : CompletionRequirementStatus} {hash : Digest}:
    (reviewCompletionTx env taskID requirementID request status principal hash).Each
      (OnlyTask taskID) := by
  have haccept (builders : List String) : (acceptReview env taskID requirementID request status
      principal builders hash).Each (OnlyTask taskID) := by
    refine Tx.each_bind ?_ fun _ => ?_
    · refine Tx.each_ite (Tx.each_pure _) ?_
      exact Tx.each_bind (Table.each_updateWhere fun _ => onlyTask_of_tasks rfl) fun _ =>
        Tx.each_lift _
    refine Tx.each_bind (Table.each_updateWhere fun _ => onlyTask_of_tasks rfl) fun _ => ?_
    refine Tx.each_bind onlyTask_touchTask fun _ => ?_
    exact Tx.each_lift_bind fun _ => onlyTask_insertEvent
  have hreject (builders : List String) (reasonCode message : String) :
      (rejectCompletionReview env taskID requirementID request principal builders reasonCode message
        hash).Each (OnlyTask taskID) :=
    Tx.each_bind onlyTask_insertEvent fun _ => Tx.each_pure _
  refine Tx.each_selectOr_bind fun _ => ?_
  refine Tx.each_lift_bind fun _ => ?_
  refine Tx.each_ite ?_ (Tx.each_bind (haccept []) fun _ => Tx.each_pure _)
  refine Tx.each_bind each_completionBuilderPrincipals fun builders => ?_
  refine Tx.each_lift_bind fun _ => ?_
  refine Tx.each_ite (hreject builders _ _) (Tx.each_ite (hreject builders _ _) ?_)
  exact Tx.each_bind (haccept builders) fun _ => Tx.each_pure _

/-- The principal can see the task. -/
def Sees (principal : Principal) (taskID : String) (db : Db) : Prop :=
  ∃ current, db.task? taskID = some current ∧ canView current principal = true

theorem sees_of_getForHidden
    (h : (getForHidden svc now taskID principal).exec db = (.ok view, db')) :
    Sees principal (trimSpace taskID) db :=
  ⟨view.toTask, (getForHidden_ok h).1, (getForHidden_ok h).2.2.2⟩

theorem sees_of_checkEditor {u : Unit}
    (h : (checkEditor svc env taskID principal).exec db = (.ok u, db')) :
    Sees principal (trimSpace taskID) db := by
  obtain ⟨view, hview, -⟩ := Call.exec_bind_quiet_ok quiet_getForHidden h
  exact sees_of_getForHidden hview

/-- An edit of a task that the principal can see, and of no other. The transaction may name the
task with the spaces that the check took off. -/
structure EditsSeen (principal : Principal) (taskID : String) (db db' : Db) : Prop where
  seen : Sees principal (trimSpace taskID) db
  loaded : (db.task? taskID).isSome = true
  only : OnlyTask taskID db db'

theorem EditsSeen.changesSeen (hunique : db.Unique) (hproper : ∀ task ∈ db.tasks, task.Proper)
    (h : EditsSeen principal taskID db db') : ChangesSeen principal db db' := by
  intro task htask task' htask' hid hchanged
  obtain ⟨old, hold, hspared⟩ := exists_of_forall₂ h.only htask'
  obtain rfl := hunique.eq_of_id hold htask (hspared.id.symm.trans hid)
  obtain ⟨loaded, hloaded⟩ := Option.isSome_iff_exists.mp h.loaded
  obtain ⟨hmem, hname⟩ := mem_of_task? hloaded
  have hnamed : old.id = taskID := by
    by_contra hne
    exact hchanged (hspared.same hne)
  obtain ⟨current, hcurrent, hview⟩ := h.seen
  rw [← hname, (hproper loaded hmem).trimmed, hname, hloaded] at hcurrent
  obtain rfl := Option.some_inj.mp hcurrent
  rw [hunique.eq_of_id hold hmem (hnamed.trans hname.symm)]
  exact hview

theorem changesSeen_of_tasks (hunique : db.Unique) (h : db'.tasks = db.tasks) :
    ChangesSeen principal db db' := by
  intro task htask task' htask' hid hchanged
  exact absurd (hunique.eq_of_id (h ▸ htask') htask hid) hchanged

theorem editsSeen_addTaskDependencyFor {request : AddTaskDependencyRequest} :
    (addTaskDependencyFor svc env taskID request principal).AtMost
      (EditsSeen principal (trimSpace taskID)) := by
  refine Call.atMost_lift_bind fun _ _ => ?_
  refine Call.atMost_lift_bind fun _ _ => ?_
  refine Call.atMost_bind_seen quiet_checkEditor (fun _ _ => sees_of_checkEditor) fun _ => ?_
  refine Call.atMost_bind_quiet quiet_getForHidden fun _ => ?_
  refine Call.atMost_then_quiet ((Call.atMost_tx _).mono ?_) fun _ => quiet_getTask
  rintro db db' ⟨u, hrun⟩ hseen
  have honly := onlyTask_addDependencyTx.run hrun
  simp only [addDependencyTx, run_loadTask_bind_ok] at hrun
  obtain ⟨current, hload, -⟩ := hrun
  exact ⟨hseen, by rw [hload]; rfl, honly⟩

theorem editsSeen_removeTaskDependencyFor :
    (removeTaskDependencyFor svc env taskID blockedBy expected principal).AtMost
      (EditsSeen principal taskID) := by
  refine Call.atMost_lift_bind fun _ _ => ?_
  refine Call.atMost_bind_seen quiet_checkEditor (fun _ _ => sees_of_checkEditor) fun _ => ?_
  refine Call.atMost_then_quiet ((Call.atMost_tx _).mono ?_) fun _ => quiet_getTask
  rintro db db' ⟨u, hrun⟩ hseen
  have honly := onlyTask_removeDependencyTx.run hrun
  simp only [removeDependencyTx, run_loadTask_bind_ok] at hrun
  obtain ⟨current, hload, -⟩ := hrun
  exact ⟨hseen, by rw [hload]; rfl, honly⟩

theorem editsSeen_setTaskRequirementsFor {request : SetTaskRequirementsRequest} :
    (setTaskRequirementsFor svc env taskID request principal).AtMost
      (EditsSeen principal taskID) := by
  refine Call.atMost_lift_bind fun _ _ => ?_
  refine Call.atMost_lift_bind fun items _ => ?_
  refine Call.atMost_lift_bind fun _ _ => ?_
  refine Call.atMost_bind_seen quiet_checkEditor (fun _ _ => sees_of_checkEditor) fun _ => ?_
  refine Call.atMost_then_quiet ((Call.atMost_tx _).mono ?_) fun _ => quiet_getTask
  rintro db db' ⟨u, hrun⟩ hseen
  have honly := onlyTask_setRequirementsTx.run hrun
  simp only [setRequirementsTx, run_loadTask_bind_ok] at hrun
  obtain ⟨current, hload, -⟩ := hrun
  exact ⟨hseen, by rw [hload]; rfl, honly⟩

theorem editsSeen_reviewCompletionRequirementFor :
    (reviewCompletionRequirementFor svc env taskID requirementID request principal).AtMost
      (EditsSeen principal (trimSpace taskID)) := by
  refine Call.atMost_lift_bind fun _ _ => ?_
  refine Call.atMost_lift_bind fun _ _ => ?_
  refine Call.atMost_lift_bind fun status _ => ?_
  refine Call.atMost_bind_seen quiet_getForHidden (fun _ _ => sees_of_getForHidden) fun _ => ?_
  refine Call.atMost_lift_bind fun _ _ => ?_
  refine Call.atMost_bind_quiet quiet_requirementOf fun _ => ?_
  refine Call.atMost_lift_bind fun _ _ => ?_
  refine atMost_keyed (fun _ => Call.quiet_lift_bind fun _ => Call.quiet_lookOr _) ?_
  refine Call.atMost_then_quiet ((Call.atMost_tx _).mono ?_) fun refused => ?_
  · rintro db db' ⟨refused, hrun⟩ hseen
    have honly := onlyTask_reviewCompletionTx.run hrun
    simp only [reviewCompletionTx, run_loadTask_bind_ok] at hrun
    obtain ⟨current, hload, -⟩ := hrun
    exact ⟨hseen, by rw [hload]; rfl, honly⟩
  · cases refused with
    | some reason => exact Call.quiet_fail _
    | none => exact Call.quiet_lookOr _

theorem editsSeen_claimFor {request : ClaimRequest} :
    (claimFor svc env taskID request principal).AtMost (EditsSeen principal (trimSpace taskID)) := by
  refine Call.atMost_lift_bind fun _ _ => Call.atMost_holding ?_
  refine atMost_keyed (fun _ => quiet_replayedRun) ?_
  refine Call.atMost_bind_seen quiet_getForHidden (fun _ _ => sees_of_getForHidden) fun task => ?_
  refine Call.atMost_lift_bind fun _ _ => ?_
  refine Call.atMost_bind_quiet quiet_checkWorker fun _ => ?_
  refine Call.atMost_bind_quiet quiet_enforceAgentPickupLimits fun _ => ?_
  refine Call.atMost_lift_bind fun _ _ => ?_
  refine Call.atMost_lift_bind fun _ _ => ?_
  refine Call.atMost_then_quiet ((Call.atMost_tx _).mono ?_) fun _ => ?_
  · rintro db db' ⟨u, hrun⟩ hseen
    obtain ⟨_, _, _, _, hload, -, -, -, -, -, -, -, -, _, _, _, _, rfl⟩ := claimTx_ok hrun
    refine ⟨by rwa [trimSpace_idem], by rw [hload]; rfl, ?_⟩
    exact forall₂_mapWhere fun task _ hhit => ⟨rfl, fun hne => absurd (id_of_bumps hhit) hne⟩
  · refine Call.quiet_bind quiet_getTask fun task => ?_
    split
    · exact Call.quiet_pure _
    · exact Call.quiet_fail _

end Edits

section Move

/-- The neighbour of a task is another task in another place. -/
theorem mem_of_neighbor {current neighbor : Task} {down : Bool}
    (h : svc.neighbor db current down = some neighbor) :
    neighbor ∈ db.tasks ∧ neighbor.id ≠ current.id ∧ neighbor.sortOrder ≠ current.sortOrder := by
  have hmem := mem_sortBy.mp (List.mem_of_head? h)
  simp only [List.mem_filter, Bool.and_eq_true, decide_eq_true_eq] at hmem
  obtain ⟨hmem, ⟨⟨-, hother⟩, -⟩, hplace⟩ := hmem
  refine ⟨hmem, hother, ?_⟩
  cases down with
  | true => exact (of_decide_eq_true hplace).ne'
  | false => exact (of_decide_eq_true hplace).ne

theorem moveTx_ok {direction actor : String} {expected : Int} {unmoved : Option Task}
    (h : (moveTx svc env taskID direction expected actor).run db = .ok (unmoved, db')) :
    ∃ current, db.task? taskID = some current ∧
      (svc.neighbor db current (direction = "down") = none ∧ db' = db ∨
        ∃ neighbor, svc.neighbor db current (direction = "down") = some neighbor ∧
          OnlyTask taskID { db with
            tasks := mapWhere (fun task => decide (task.id = neighbor.id))
              (fun task => { task with sortOrder := current.sortOrder, updatedAt := env.now })
              db.tasks } db') := by
  simp only [moveTx, run_loadTask_bind_ok, Tx.run_refuse_bind_ok, Tx.run_select_bind_ok] at h
  obtain ⟨current, hload, -, -, h⟩ := h
  refine ⟨current, hload, ?_⟩
  split at h
  · rename_i hnone
    exact Or.inl ⟨hnone, (Tx.run_pure_ok.mp h).2⟩
  · rename_i neighbor hsome
    obtain ⟨_, swapped, hswap, h⟩ := Tx.run_bind_ok.mp h
    obtain ⟨-, rfl⟩ := Table.run_updateWhere_ok.mp hswap
    refine Or.inr ⟨neighbor, hsome, ?_⟩
    refine Tx.Each.run (R := OnlyTask taskID) ?_ h
    refine Tx.each_bind (each_oneRow onlyTask_bumpTask) fun _ => ?_
    refine Tx.each_bind onlyTask_insertEvent fun _ => ?_
    exact Tx.each_bind onlyTask_insertEvent fun _ => Tx.each_pure _

theorem moveFor_ok {request : MoveRequest}
    (h : (moveFor svc env taskID request principal).exec db = (.ok task, db')) :
    Sees principal (trimSpace taskID) db ∧ ∃ unmoved,
      (moveTx svc env (trimSpace taskID) (svc.unicode.lower (trimSpace request.direction))
        request.expectedVersion principal.id).run db = .ok (unmoved, db') := by
  obtain ⟨_, -, h⟩ := Call.exec_lift_bind_ok h
  obtain ⟨_, hcheck, h⟩ := Call.exec_bind_quiet_ok quiet_checkEditor h
  obtain ⟨_, -, h⟩ := Call.exec_lift_bind_ok h
  obtain ⟨unmoved, db1, htx, h⟩ := Call.exec_bind_ok h
  obtain rfl : db' = db1 := by
    cases unmoved with
    | some task => exact (Call.quiet_pure _).of_exec h
    | none => exact (Call.quiet_bind quiet_getTask fun _ => Call.quiet_pure _).of_exec h
  obtain ⟨_, hrun, hmoved⟩ | ⟨e, -, he, -⟩ := Call.exec_tx_cases htx
  · exact ⟨sees_of_checkEditor hcheck, _, hrun⟩
  · cases he

/-- **What a move changes** is visible to the caller exactly where the neighbour is. -/
theorem changesSeen_move (hunique : db.Unique) {request : MoveRequest}
    (h : (moveFor svc env taskID request principal).exec db = (.ok task, db')) :
    ChangesSeen principal db db' ↔
      ∀ current neighbor, db.task? (trimSpace taskID) = some current →
        svc.neighbor db current (svc.unicode.lower (trimSpace request.direction) = "down") =
          some neighbor → canView neighbor principal = true := by
  obtain ⟨⟨current, hfound, hview⟩, unmoved, hrun⟩ := moveFor_ok h
  obtain ⟨loaded, hload, hmoved⟩ := moveTx_ok hrun
  obtain rfl := Option.some_inj.mp (hload.symm.trans hfound)
  obtain ⟨hmem, hname⟩ := mem_of_task? hfound
  rcases hmoved with ⟨hnone, rfl⟩ | ⟨neighbor, hneighbor, honly⟩
  · refine iff_of_true (changesSeen_of_tasks hunique rfl) fun other neighbor hother hneighbor => ?_
    obtain rfl := Option.some_inj.mp (hother.symm.trans hfound)
    rw [hnone] at hneighbor
    cases hneighbor
  obtain ⟨hnext, hother, hplace⟩ := mem_of_neighbor hneighbor
  constructor
  · intro hseen other named hother' hnamed
    obtain rfl := Option.some_inj.mp (hother'.symm.trans hfound)
    obtain rfl := Option.some_inj.mp (hnamed.symm.trans hneighbor)
    -- The row of the neighbour takes on the place of the task.
    have hswapped : { named with sortOrder := other.sortOrder, updatedAt := env.now } ∈
        mapWhere (fun task => decide (task.id = named.id))
          (fun task => { task with sortOrder := other.sortOrder, updatedAt := env.now })
          db.tasks := mem_mapWhere.mpr ⟨named, hnext, by simp⟩
    obtain ⟨row, hrow, hspared⟩ := exists_next_of_forall₂ honly hswapped
    have hkept := hspared.same (hname ▸ hother)
    refine hseen named hnext row hrow (by rw [hkept]) fun hsame => hplace ?_
    rw [← hsame, hkept]
  · intro hseen row hrow row' hrow' hid hchanged
    obtain ⟨mid, hmid, hspared⟩ := exists_of_forall₂ honly hrow'
    obtain ⟨old, hold, rfl⟩ := mem_mapWhere.mp hmid
    by_cases hnear : old.id = neighbor.id
    · have hrows : row.id = neighbor.id := by
        rw [← hid, hspared.id]
        simp [hnear]
      rw [hunique.eq_of_id hrow hnext hrows]
      exact hseen _ neighbor hfound hneighbor
    · simp only [hnear, decide_false, Bool.false_eq_true, if_false] at hspared
      obtain rfl := hunique.eq_of_id hold hrow (hspared.id.symm.trans hid)
      have hnamed : old.id = trimSpace taskID := by
        by_contra hne
        exact hchanged (hspared.same hne)
      rw [hunique.eq_of_id hold hmem (hnamed.trans hname.symm)]
      exact hview

end Move

section Merge

variable {request : UpdateRequest}

/-- A successful update was made before and changes nothing, or it is new and commits. -/
theorem updateFor_decided
    (h : (updateFor svc env taskID request principal).exec db = (.ok view, db')) :
    request.Replayed svc taskID principal db ∧ db' = db ∨
      ¬ request.Replayed svc taskID principal db ∧
        Updates svc env taskID request principal.id db db' := by
  unfold updateFor at h
  split at h
  · rename_i hagent
    obtain ⟨_, -, h⟩ := Call.exec_lift_bind_ok h
    rcases exec_keyedAs_ok h with ⟨event, ⟨hkey, hevent⟩, hanswer⟩ | ⟨hnone, h⟩
    · exact Or.inl ⟨⟨hagent, hkey, event, hevent⟩, quiet_getForHidden.of_exec hanswer⟩
    · obtain ⟨_, -, h⟩ := Call.exec_bind_quiet_ok quiet_checkUpdateCapabilities h
      refine Or.inr ⟨?_, updateAllowed_ok h⟩
      rintro ⟨-, hkey, event, hevent⟩
      rw [hnone.resolve_left hkey] at hevent
      cases hevent
  · rename_i hperson
    obtain ⟨_, -, h⟩ := Call.exec_lift_bind_ok h
    exact Or.inr ⟨fun hreplayed => hperson hreplayed.1, updateAllowed_ok h⟩

/-- The duplicates of a task that is merged get another link. -/
theorem relinked_of_merges (hlinked : db.Linked)
    (h : Updates svc env taskID request principal.id db db') (hmerges : request.merges = true)
    (htask : task ∈ db.tasks) (hlink : task.duplicateOf = some (trimSpace taskID)) :
    ∃ task' ∈ db'.tasks, task'.id = task.id ∧ task' ≠ task := by
  obtain ⟨current, kept, added, -, hmerged, hunmerged, -, -, -, hlinks⟩ := h.links
  cases kept with
  | none =>
      unfold UpdateRequest.merges at hmerges
      cases htarget : request.duplicateOf with
      | none => simp [htarget] at hmerges
      | some target =>
          have hempty := hunmerged rfl (trimSpace target) (by rw [htarget]; rfl)
          simp [htarget, hempty] at hmerges
  | some root =>
      obtain ⟨_, -, hne, hroot⟩ := hmerged root rfl
      have haway := (hlinked.root hroot hne).2.1
      have hrelinked : (task.id, some root.id) ∈ db'.links := by
        rw [hlinks]
        apply List.mem_append_left
        refine List.mem_map.mpr ⟨task.link, mem_links.mpr ⟨task, htask, rfl⟩, ?_⟩
        simp [relinkLink, mergeLink, Task.link, hlink]
      obtain ⟨task', htask', hlink'⟩ := mem_links.mp hrelinked
      obtain ⟨hid, hroot'⟩ := Prod.mk.inj hlink'
      refine ⟨task', htask', hid, ?_⟩
      rintro rfl
      exact haway (Option.some_inj.mp (hroot'.symm.trans hlink))

/-- A link stays as it is on any other task, but where the task it names is merged. -/
theorem Task.relinked_of_unlinked {kept : Option Task} {unlinks : Bool}
    (hother : task.id ≠ taskID) (hlink : kept ≠ none → task.duplicateOf ≠ some taskID) :
    task.relinked taskID kept unlinks = task := by
  unfold Task.relinked
  cases kept with
  | none => exact if_neg fun h => hother h.2
  | some kept => exact if_neg (not_or.mpr ⟨hother, hlink (by simp)⟩)

/-- The rows that an update changes: the one of its task, and where it merges the task those of
the duplicates. -/
theorem Commits.changed (hunique : db.Unique) (h : Commits svc env taskID request principal.id db db')
    {task' : Task} (htask : task ∈ db.tasks) (htask' : task' ∈ db'.tasks)
    (hid : task'.id = task.id) (hchanged : task' ≠ task) :
    task.id = trimSpace taskID ∨
      request.merges = true ∧ task.duplicateOf = some (trimSpace taskID) := by
  obtain ⟨update, hash, status, db1, hvalid, hrun, htrails, -⟩ := h
  obtain ⟨-, -, -, hmarks, -⟩ := validateUpdate_ok hvalid
  obtain ⟨current, kept, edited, sortOrder, added, runs, notes, event, base, hchecks, -, -, -, -,
    hadded, -, -, -, -, -, -, -, haside⟩ := updateTx_rows hrun
  by_contra hnone
  obtain ⟨hother, hunlinked⟩ := not_or.mp hnone
  obtain ⟨_, _, _, _, rfl⟩ := haside
  obtain ⟨_, _, rfl⟩ := htrails
  rcases List.mem_append.mp htask' with hkept | hnew
  · obtain ⟨mid, hmid, rfl⟩ := List.mem_map.mp hkept
    obtain ⟨old, hold, rfl⟩ := mem_mapWhere.mp hmid
    have hsame : old = task := by
      refine hunique.eq_of_id hold htask (Eq.trans ?_ hid)
      obtain ⟨_, hlink⟩ := Task.relinked_spec (trimSpace taskID) kept
        (update.unlinks current.status status) (if bumps (trimSpace taskID) update.expectedVersion
          (fun _ => true) old = true then old.rewritten (updatedTask update current status
            sortOrder kept (defaultActor principal.id current.createdBy) env.now) else old)
      rw [hlink]
      split <;> rfl
    subst hsame
    rw [if_neg fun hhit => hother (id_of_bumps hhit)] at hchanged
    refine hchanged (Task.relinked_of_unlinked hother fun hkept hlink => hunlinked ⟨?_, hlink⟩)
    obtain ⟨root, hroot⟩ := Option.ne_none_iff_exists'.mp hkept
    obtain ⟨target, htarget, hne, -⟩ := hchecks.merged root hroot
    rw [hmarks] at htarget
    obtain ⟨named, hnamed, rfl⟩ := Option.map_eq_some_iff.mp htarget
    simp [UpdateRequest.merges, hnamed, hne]
  · exact absurd hid.symm ((hadded task' hnew).fresh task htask)

/-- **What an update changes** is visible to the caller exactly where the duplicates that it hands
on are. -/
theorem changesSeen_update (hunique : db.Unique) (hlinked : db.Linked)
    (h : (updateFor svc env taskID request principal).exec db = (.ok view, db')) :
    ChangesSeen principal db db' ↔
      (request.merges = true → ¬ request.Replayed svc taskID principal db →
        ∀ task ∈ db.tasks, task.duplicateOf = some (trimSpace taskID) →
          canView task principal = true) := by
  rcases updateFor_decided h with ⟨hreplayed, rfl⟩ | ⟨hnew, hupdates⟩
  · exact iff_of_true (changesSeen_of_tasks hunique rfl) fun _ hnot => absurd hreplayed hnot
  constructor
  · intro hseen hmerges _ task htask hlink
    obtain ⟨task', htask', hid, hne⟩ := relinked_of_merges hlinked hupdates hmerges htask hlink
    exact hseen task htask task' htask' hid hne
  · intro hseen task htask task' htask' hid hchanged
    rcases atMost_updateFor_granted.of_exec h with rfl | ⟨⟨current, hauthority⟩, -, hcommits⟩
    · exact absurd (hunique.eq_of_id htask' htask hid) hchanged
    rcases hcommits.changed hunique htask htask' hid hchanged with hname | ⟨hmerges, hlink⟩
    · obtain ⟨hmem, hnamed⟩ := mem_of_task? hauthority.found
      rw [hunique.eq_of_id htask hmem (hname.trans hnamed.symm)]
      exact hauthority.visible
    · exact hseen hmerges hnew task htask hlink

end Merge

theorem exec_then_pure {α β : Type} {c : CallM α} {f : α → β} {b : β}
    (h : (c >>= fun a => pure (f a)).exec db = (.ok b, db')) :
    ∃ a, c.exec db = (.ok a, db') := by
  obtain ⟨a, db1, hc, hpure⟩ := Call.exec_bind_ok h
  obtain rfl := (Call.quiet_pure _).of_exec hpure
  exact ⟨a, hc⟩

/-- **Tasks that the caller cannot see.** A successful edit changes the rows of such tasks exactly
where it moves a task past a neighbour that is one of them, or merges a task with a duplicate that
is one of them. -/
theorem edits_change_seen_tasks {svc : Service} {db db' : Db}
    (hdb : Develops svc (fun _ _ => True) db) {principal : Principal} {op : Op}
    (hop : op.EditBy principal) {outcome : Outcome}
    (hok : (op.call svc).exec db = (.ok outcome, db')) :
    ChangesSeen principal db db' ↔ op.ReachesSeen svc principal db := by
  have hunique := hdb.unique
  have hedits {taskID : String} {α : Type} {c : CallM α} {result : Except ServiceError α}
      (hc : c.AtMost (EditsSeen principal taskID)) (hexec : c.exec db = (result, db')) :
      ChangesSeen principal db db' := by
    rcases hc.of_exec hexec with rfl | hedits
    · exact changesSeen_of_tasks hunique rfl
    · exact hedits.changesSeen hunique hdb.proper
  cases op with
  | move env taskID request caller =>
      obtain rfl : caller = principal := hop
      obtain ⟨task, hexec⟩ := exec_then_pure hok
      exact changesSeen_move hunique hexec
  | update env taskID request caller =>
      obtain rfl : caller = principal := hop
      obtain ⟨view, hexec⟩ := exec_then_pure hok
      exact changesSeen_update hunique (linked_of_develops hdb) hexec
  | claim env taskID request caller =>
      obtain rfl : caller = principal := hop
      obtain ⟨_, hexec⟩ := exec_then_pure hok
      exact iff_of_true (hedits editsSeen_claimFor hexec) trivial
  | heartbeat env taskID runID caller =>
      obtain ⟨_, hexec⟩ := exec_then_pure hok
      have hframe : (heartbeatFor svc env taskID runID caller).Each
          (Footprint [.controls] Eq (List.Forall₂ AgentRun.Follows) Event.Unkeyed) :=
        each_heartbeatFor
      exact iff_of_true (changesSeen_of_tasks hunique (hframe.of_exec hexec).tasks.symm) trivial
  | addDependency env taskID request caller =>
      obtain rfl : caller = principal := hop
      obtain ⟨_, hexec⟩ := exec_then_pure hok
      exact iff_of_true (hedits editsSeen_addTaskDependencyFor hexec) trivial
  | removeDependency env taskID blockedBy expected caller =>
      obtain rfl : caller = principal := hop
      obtain ⟨_, hexec⟩ := exec_then_pure hok
      exact iff_of_true (hedits editsSeen_removeTaskDependencyFor hexec) trivial
  | setRequirements env taskID request caller =>
      obtain rfl : caller = principal := hop
      obtain ⟨_, hexec⟩ := exec_then_pure hok
      exact iff_of_true (hedits editsSeen_setTaskRequirementsFor hexec) trivial
  | reviewCompletion env taskID requirementID request caller =>
      obtain rfl : caller = principal := hop
      obtain ⟨_, hexec⟩ := exec_then_pure hok
      exact iff_of_true (hedits editsSeen_reviewCompletionRequirementFor hexec) trivial
  | _ => exact False.elim hop

/-- A person writes down a task, in the section that all tasks have where none is named. -/
def jotOp (call : Nat) (person title visibility : String) : Op :=
  .create (.numbered call call) { title, visibility } (humanPrincipal person .member)

/-- The board of two people, who wrote down a task each. -/
def notesBoard (visibility : String) : Db :=
  Op.run .ascii [jotOp 1 "ann" "Fix the login" visibility, jotOp 2 "bob" "Fix the logout" ""] {}

theorem develops_notesBoard (visibility : String) :
    Develops .ascii (fun _ _ => True) (notesBoard visibility) :=
  (Develops.empty.change (.operation (jotOp 1 "ann" "Fix the login" visibility)) trivial).change
    (.operation (jotOp 2 "bob" "Fix the logout" "")) trivial

/-- The second person moves their task to the front. -/
def moveUpOp : Op :=
  .move (.numbered 3 3) "0200" { expectedVersion := 1, direction := "up" }
    (humanPrincipal "bob" .member)

/-- A task is moved past one that everybody sees. -/
theorem moved_past_team_task :
    (moveUpOp.step .ascii (notesBoard "team")).tasks.map (fun task => (task.id, task.sortOrder)) ≠
        (notesBoard "team").tasks.map (fun task => (task.id, task.sortOrder)) ∧
      ChangesSeen (humanPrincipal "bob" .member) (notesBoard "team")
        (moveUpOp.step .ascii (notesBoard "team")) := by
  have hok : ((moveUpOp.call .ascii).exec (notesBoard "team")).1 = .ok { taskID := "0200" } := by
    decide +kernel
  have hseen : ∀ task ∈ (notesBoard "team").tasks,
      canView task (humanPrincipal "bob" .member) = true := by decide +kernel
  have hedit : moveUpOp.EditBy (humanPrincipal "bob" .member) := rfl
  refine ⟨by decide +kernel, ?_⟩
  refine (edits_change_seen_tasks (develops_notesBoard "team") hedit (Prod.ext hok rfl)).mpr ?_
  exact fun _ neighbor _ hneighbor => hseen neighbor (mem_of_neighbor hneighbor).1

/-- A task is moved past one that the person who moves it cannot see. -/
theorem moved_past_private_task :
    Develops .ascii (fun _ _ => True) (notesBoard "private") ∧
      moveUpOp.EditBy (humanPrincipal "bob" .member) ∧
      ((moveUpOp.call .ascii).exec (notesBoard "private")).1 = .ok { taskID := "0200" } ∧
      ¬ ChangesSeen (humanPrincipal "bob" .member) (notesBoard "private")
        (moveUpOp.step .ascii (notesBoard "private")) := by
  refine ⟨develops_notesBoard "private", rfl, by decide +kernel, ?_⟩
  unfold ChangesSeen
  decide +kernel

end Taskboard
