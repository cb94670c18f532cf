import Taskboard.Deletion
import Taskboard.Lib.Closure

/-!
# Dependencies between tasks

A dependency says that one task waits for another. Before it is added, a recursive query
collects the tasks that the blocker waits for itself, directly or through others; the
dependency is refused if the task is among them. The query finds exactly these tasks
(`Db.mem_chain_iff`), so that dependencies that are added one at a time never form a cycle.
-/

namespace Taskboard

variable {db : Db} {env : Env} {expected : Int} {principal : Principal} {svc : Service}
  {blockedBy taskID : String}

/-- `task` waits for `blocker` directly. -/
def Db.WaitsFor (db : Db) : String → String → Prop :=
  Leads TaskDependency.taskID TaskDependency.blockedByTaskID db.dependencies

/-- `task` would wait for `blocker` too. -/
def Db.WaitsForWith (db : Db) (task blocker : String) (a b : String) : Prop :=
  db.WaitsFor a b ∨ (a = task ∧ b = blocker)

section Query

variable {fuel : Nat} {ids : List String} {id task blocker : String}

theorem Db.chain_eq_rounds (db : Db) (fuel : Nat) (ids : List String) :
    db.chain fuel ids =
      rounds TaskDependency.taskID TaskDependency.blockedByTaskID db.dependencies fuel ids := by
  induction fuel generalizing ids with
  | zero => rfl
  | succ fuel ih => exact ih _

theorem Db.mem_chain_iff (h : db.dependencies.length ≤ fuel) :
    id ∈ db.chain fuel ids ↔ ∃ a ∈ ids, Relation.ReflTransGen db.WaitsFor a id := by
  rw [db.chain_eq_rounds]
  exact mem_rounds_iff h

theorem Db.chain_of_length_le (h : db.dependencies.length ≤ fuel) :
    db.chain fuel ids = db.chain db.dependencies.length ids := by
  rw [db.chain_eq_rounds, db.chain_eq_rounds]
  exact rounds_of_length_le h

/-- **The cycle test**: the blocker already waits for the task. -/
theorem Db.wouldCycle_iff (db : Db) (task blocker : String) :
    db.wouldCycle task blocker = true ↔ Relation.TransGen db.WaitsFor blocker task := by
  simp only [wouldCycle, decide_eq_true_eq, mem_chain_iff le_rfl, List.mem_map, List.mem_filter,
    Relation.TransGen.head'_iff]
  constructor
  · rintro ⟨_, ⟨row, ⟨hrow, htask⟩, rfl⟩, hpath⟩
    exact ⟨_, ⟨row, hrow, htask, rfl⟩, hpath⟩
  · rintro ⟨_, ⟨row, hrow, htask, rfl⟩, hpath⟩
    exact ⟨_, ⟨row, ⟨hrow, htask⟩, rfl⟩, hpath⟩

/-- Where there is no cycle yet, the test finds out whether the dependency would close one. -/
theorem Db.wouldCycle_iff_of_acyclic (h : Acyclic db.WaitsFor) (hne : task ≠ blocker) :
    db.wouldCycle task blocker = true ↔ ¬ Acyclic (db.WaitsForWith task blocker) := by
  unfold WaitsForWith
  rw [db.wouldCycle_iff, h.insert_iff, not_not, Relation.reflTransGen_iff_eq_or_transGen,
    or_iff_right hne]

end Query

section Step

variable {db' : Db} {u : Unit}

theorem addDependencyTx_ok
    (h : (addDependencyTx env taskID blockedBy expected principal).run db = .ok (u, db')) :
    ∃ row, db'.dependencies = db.dependencies ++ [row] ∧ row.taskID = taskID ∧
      row.blockedByTaskID = blockedBy ∧ taskID ≠ blockedBy ∧
      db.wouldCycle taskID blockedBy = false := by
  simp only [addDependencyTx, run_loadTask_bind_ok, Tx.run_refuse_bind_ok,
    Tx.run_select_bind_ok] at h
  obtain ⟨current, -, -, hcycle, h⟩ := h
  obtain ⟨count, db1, hinsert, h⟩ := Tx.run_bind_ok.mp h
  rw [Tx.run_refuse_bind_ok] at h
  obtain ⟨hcount, h⟩ := h
  obtain ⟨_, db2, htouch, h⟩ := Tx.run_bind_ok.mp h
  obtain ⟨-, -, rfl⟩ := run_insertEvent_ok.mp h
  obtain ⟨-, rfl⟩ := run_bumpTask_ok.mp htouch
  rcases Table.run_insertUnless_ok hinsert with ⟨hzero, -⟩ | ⟨-, hholds, -, rfl⟩
  · exact absurd hzero (by omega)
  · simp only [Bool.and_eq_true, decide_eq_true_eq] at hholds
    exact ⟨_, rfl, rfl, rfl, hholds.2, by simpa using hcycle⟩

theorem removeDependencyTx_ok
    (h : (removeDependencyTx env taskID blockedBy expected principal).run db = .ok (u, db')) :
    db'.dependencies ⊆ db.dependencies := by
  simp only [removeDependencyTx, run_loadTask_bind_ok, Tx.run_refuse_bind_ok] at h
  obtain ⟨current, -, -, h⟩ := h
  obtain ⟨count, db1, hdelete, h⟩ := Tx.run_bind_ok.mp h
  rw [Tx.run_refuse_bind_ok] at h
  obtain ⟨-, h⟩ := h
  obtain ⟨_, db2, htouch, h⟩ := Tx.run_bind_ok.mp h
  obtain ⟨-, -, rfl⟩ := run_insertEvent_ok.mp h
  obtain ⟨-, rfl⟩ := run_bumpTask_ok.mp htouch
  obtain ⟨-, rfl⟩ := Table.run_deleteWhere_ok.mp hdelete
  exact List.filter_subset_self _

/-- Fewer dependencies, or one more that closes no cycle. -/
def DependencyStep (db db' : Db) : Prop :=
  db'.dependencies ⊆ db.dependencies ∨
    ∃ row, db'.dependencies = db.dependencies ++ [row] ∧ row.taskID ≠ row.blockedByTaskID ∧
      db.wouldCycle row.taskID row.blockedByTaskID = false

theorem atMost_addTaskDependencyFor {request : AddTaskDependencyRequest} :
    (addTaskDependencyFor svc env taskID request principal).AtMost DependencyStep := by
  refine Call.atMost_lift_bind fun _ _ => ?_
  refine Call.atMost_lift_bind fun _ _ => ?_
  refine Call.atMost_bind_quiet quiet_checkEditor fun _ => ?_
  refine Call.atMost_bind_quiet quiet_getForHidden fun _ => ?_
  refine Call.atMost_then_quiet ((Call.atMost_tx _).mono ?_) fun _ => quiet_getTask
  rintro db db' ⟨u, hrun⟩
  obtain ⟨row, hrows, htask, hblocker, hne, hcycle⟩ := addDependencyTx_ok hrun
  rw [← htask, ← hblocker] at hne hcycle
  exact Or.inr ⟨row, hrows, hne, hcycle⟩

theorem atMost_removeTaskDependencyFor :
    (removeTaskDependencyFor svc env taskID blockedBy expected principal).AtMost
      DependencyStep := by
  refine Call.atMost_lift_bind fun _ _ => ?_
  refine Call.atMost_bind_quiet quiet_checkEditor fun _ => ?_
  refine Call.atMost_then_quiet ((Call.atMost_tx _).mono ?_) fun _ => quiet_getTask
  rintro db db' ⟨u, hrun⟩
  exact Or.inl (removeDependencyTx_ok hrun)

theorem dependencyStep_of_same (h : db'.dependencies = db.dependencies) : DependencyStep db db' :=
  Or.inl (h ▸ List.Subset.refl _)

theorem dependencyStep_step (op : Op) (db : Db) : DependencyStep db (op.step svc db) := by
  by_cases hledger : Ledger.dependencies ∈ op.ledgers
  · cases op with
    | addDependency env taskID request principal =>
        rcases Call.atMost_then_quiet atMost_addTaskDependencyFor
          (fun _ => Call.quiet_pure _) db with hsame | hstep
        · exact dependencyStep_of_same (congrArg Db.dependencies hsame)
        · exact hstep
    | removeDependency env taskID blockedBy expected principal =>
        rcases Call.atMost_then_quiet atMost_removeTaskDependencyFor
          (fun _ => Call.quiet_pure _) db with hsame | hstep
        · exact dependencyStep_of_same (congrArg Db.dependencies hsame)
        · exact hstep
    | _ => simp [Op.ledgers] at hledger
  · exact dependencyStep_of_same ((loose_step op db).sameDependencies hledger)

theorem DependencyStep.acyclic (hstep : DependencyStep db db') (h : Acyclic db.WaitsFor) :
    Acyclic db'.WaitsFor := by
  rcases hstep with hsub | ⟨row, hrows, hne, hcycle⟩
  · exact h.mono fun _ _ => Leads.mono hsub
  · have hkept : Acyclic (db.WaitsForWith row.taskID row.blockedByTaskID) := by
      by_contra hclosed
      rw [(Db.wouldCycle_iff_of_acyclic h hne).mpr hclosed] at hcycle
      exact Bool.noConfusion hcycle
    refine hkept.mono fun a b hab => ?_
    rw [Db.WaitsFor, hrows] at hab
    exact leads_append_singleton.mp hab

theorem acyclic_deletes (hdeletes : Deletes db db') (h : Acyclic db.WaitsFor) :
    Acyclic db'.WaitsFor := by
  obtain ⟨gone, sessions, rfl⟩ := hdeletes
  exact h.mono fun _ _ => Leads.mono (List.filter_subset_self _)

theorem acyclic_of_develops {ok : Change → Db → Prop} (h : Develops svc ok db) :
    Acyclic db.WaitsFor := by
  refine h.invariant (P := fun db => Acyclic db.WaitsFor) ?_ ?_ ?_
  · intro id hcycle
    obtain ⟨_, ⟨row, hrow, -⟩, -⟩ := Relation.TransGen.head'_iff.mp hcycle
    exact absurd hrow List.not_mem_nil
  · exact fun op db _ => (dependencyStep_step op db).acyclic
  · exact fun db db' => acyclic_deletes

end Step

section Refusal

variable {request : AddTaskDependencyRequest}

/-- What `addTaskDependencyFor` answers when the dependency would close a cycle. -/
def cycleError : ServiceError :=
  ErrValidation "dependency would create a cycle"

/-- What `addTaskDependencyFor` checks before it looks for a cycle: the caller, the request,
both tasks, and the version. -/
structure AddChecked (svc : Service) (env : Env) (taskID : String)
    (request : AddTaskDependencyRequest) (principal : Principal) (db : Db) : Prop where
  permitted : (principal.agent || !principal.can .taskWrite) = false
  valid : ¬ (trimSpace taskID = "" ∨ trimSpace request.blockedByTaskID = "" ∨
    trimSpace taskID = trimSpace request.blockedByTaskID ∨ request.expectedVersion < 1)
  editor : ((checkEditor svc env (trimSpace taskID) principal).exec db).1 = .ok ()
  blocker : ((getForHidden svc env.checked (trimSpace request.blockedByTaskID)
    principal).exec db).1.isOk = true
  version : (db.task? (trimSpace taskID)).map Task.version = some request.expectedVersion

/-- What `addDependencyTx` does once it has found no cycle. -/
def insertDependencyTx (env : Env) (taskID blockedBy : String) (expected : Int)
    (principal : Principal) : TxM Unit := do
  let count ← dependencyTable.insertUnless
    { taskID := taskID
      blockedByTaskID := blockedBy
      createdBy := principal.id
      createdAt := env.now }
    (fun _ => false)
    (fun db => (db.task? taskID).isSome && (db.task? blockedBy).isSome && taskID ≠ blockedBy)
    (.database "insert dependency")
  refuse (count ≠ 1) (ErrValidation "dependency already exists")
  let _ ← touchTask taskID expected principal.id env.now
  insertEvent
    { id := env.newID 0
      taskID := taskID
      kind := "task.dependency_added"
      actor := principal.id
      message := "Task dependency added"
      payload := [("blocked_by_task_id", .text blockedBy), ("version", .number (expected + 1))]
      createdAt := env.now }

theorem run_addDependencyTx (env : Env) (blockedBy : String) (principal : Principal)
    {current : Task} (htask : db.task? taskID = some current)
    (hversion : current.version = expected) :
    (addDependencyTx env taskID blockedBy expected principal).run db =
      if db.wouldCycle taskID blockedBy = true then .error cycleError
      else (insertDependencyTx env taskID blockedBy expected principal).run db := by
  rw [addDependencyTx, loadTask, Tx.run_selectOr_bind, htask]
  exact (Tx.run_refuse_bind.trans (if_neg (not_not.mpr hversion))).trans Tx.run_refuse_bind

theorem raises_insertDependencyTx (env : Env) (taskID blockedBy : String) (expected : Int)
    (principal : Principal) :
    (insertDependencyTx env taskID blockedBy expected principal).Raises (· ≠ cycleError) := by
  refine Tx.raises_bind (Tx.raises_write fun db e h => ?_) fun _ => ?_
  · split at h
    · cases h
    · split at h
      · cases h
      · cases h
        simp [cycleError, ErrValidation]
  refine Tx.raises_bind (Tx.raises_refuse (by decide)) fun _ => ?_
  refine Tx.raises_bind (Tx.raises_write fun db e h => by cases h) fun _ => ?_
  refine Tx.raises_bind (Tx.raises_write fun db e h => ?_) fun _ s e h => by cases h
  split at h
  · cases h
  · cases h
    simp [cycleError, ErrValidation]

theorem raises_getTask (svc : Service) (now : Instant) (id : String) :
    (getTask svc now id).Raises (· ≠ cycleError) := by
  refine Call.raises_bind (Call.raises_lookOr fun db e h => ?_) fun _ => ?_
  · cases htask : db.task? id with
    | none =>
        rw [htask] at h
        cases h
        simp [cycleError, ErrValidation]
    | some task =>
        rw [htask] at h
        cases h
  refine Call.raises_bind (Call.raises_look _) fun _ => ?_
  refine Call.raises_bind (Call.raises_look _) fun _ => ?_
  refine Call.raises_bind (Call.raises_look _) fun _ => ?_
  refine Call.raises_bind (Call.raises_look _) fun _ => ?_
  refine Call.raises_bind (Call.raises_lookOr fun db e h => ?_) fun _ =>
    Call.raises_bind (Call.raises_look _) fun _ => Call.raises_pure _
  cases htask : db.task? id with
  | none =>
      simp only [Db.duplicateLink, htask] at h
      cases h
      simp [cycleError, ErrValidation]
  | some task =>
      simp only [Db.duplicateLink, htask] at h
      cases hlink : task.duplicateOf with
      | none => simp [hlink, bind, Except.bind, pure, Except.pure] at h
      | some kept =>
          simp only [hlink, bind, Except.bind, pure, Except.pure] at h
          split at h <;> cases h

/-- Once the checks are passed, the call is its transaction and the answer. -/
theorem AddChecked.exec (h : AddChecked svc env taskID request principal db) :
    (addTaskDependencyFor svc env taskID request principal).exec db =
      (Call.tx (addDependencyTx env (trimSpace taskID) (trimSpace request.blockedByTaskID)
        request.expectedVersion principal) >>= fun _ =>
          getTask svc env.now (trimSpace taskID)).exec db := by
  have hquiet {α : Type} {c : CallM α} {a : α} (hc : c.Quiet) (hok : (c.exec db).1 = .ok a) :
      c.exec db = (.ok a, db) :=
    Prod.ext hok (hc.exec db)
  obtain ⟨view, hview⟩ : ∃ view, ((getForHidden svc env.checked
      (trimSpace request.blockedByTaskID) principal).exec db).1 = .ok view := by
    have hblocker := h.blocker
    cases hresult : ((getForHidden svc env.checked (trimSpace request.blockedByTaskID)
        principal).exec db).1 with
    | error e =>
        rw [hresult] at hblocker
        exact Bool.noConfusion hblocker
    | ok view => exact ⟨view, rfl⟩
  have hpermitted := hquiet (Call.quiet_lift (refuse
    (principal.agent || !principal.can .taskWrite) ErrForbidden)) (by
      rw [Call.exec_lift, refuse_of_not (by simp [h.permitted])])
  have hvalid := hquiet (Call.quiet_lift (refuse (trimSpace taskID = "" ∨
    trimSpace request.blockedByTaskID = "" ∨
    trimSpace taskID = trimSpace request.blockedByTaskID ∨ request.expectedVersion < 1)
    (ErrValidation "distinct task IDs and expected_version are required"))) (by
      rw [Call.exec_lift, refuse_of_not h.valid])
  exact (Call.exec_bind_of_ok hpermitted).trans ((Call.exec_bind_of_ok hvalid).trans
    ((Call.exec_bind_of_ok (hquiet quiet_checkEditor h.editor)).trans
      (Call.exec_bind_of_ok (hquiet quiet_getForHidden hview))))

/-- **The refusal**: once the other checks are passed, the call fails with the error for
cycles just when the test finds one. -/
theorem AddChecked.refused_iff (h : AddChecked svc env taskID request principal db) :
    ((addTaskDependencyFor svc env taskID request principal).exec db).1 = .error cycleError ↔
      db.wouldCycle (trimSpace taskID) (trimSpace request.blockedByTaskID) = true := by
  obtain ⟨current, htask, hversion⟩ := Option.map_eq_some_iff.mp h.version
  have hrun := run_addDependencyTx env (trimSpace request.blockedByTaskID) principal htask hversion
  rw [h.exec]
  by_cases hcycle : db.wouldCycle (trimSpace taskID) (trimSpace request.blockedByTaskID) = true
  · rw [if_pos hcycle] at hrun
    apply iff_of_true _ hcycle
    rw [Call.exec_bind, Call.exec_tx, hrun]
  · rw [if_neg hcycle] at hrun
    apply iff_of_false _ hcycle
    intro hrefused
    have hraises : (Call.tx (insertDependencyTx env (trimSpace taskID)
        (trimSpace request.blockedByTaskID) request.expectedVersion principal) >>= fun _ =>
          getTask svc env.now (trimSpace taskID) : CallM TaskView).Raises (· ≠ cycleError) :=
      Call.raises_bind (Call.raises_tx (raises_insertDependencyTx _ _ _ _ _)) fun _ =>
        raises_getTask _ _ _
    apply hraises db cycleError _ (Prod.ext _ rfl) rfl
    rw [← hrefused, Call.exec_bind, Call.exec_bind, Call.exec_tx, Call.exec_tx, hrun]

end Refusal

/-- **Dependencies never form a cycle**, in any state that operations and deletions lead to,
and one that is added is refused for a cycle just when it would close one. The recursive query
behind the test ends on every table: no more rounds than there are rows are needed, and what it
has found then is what can be reached. -/
theorem dependencies_stay_acyclic (svc : Service) :
    (∀ db, Develops svc (fun _ _ => True) db → Acyclic db.WaitsFor ∧
      ∀ env taskID request principal, AddChecked svc env taskID request principal db →
        (((addTaskDependencyFor svc env taskID request principal).exec db).1 = .error cycleError ↔
          ¬ Acyclic (db.WaitsForWith (trimSpace taskID) (trimSpace request.blockedByTaskID)))) ∧
    ∀ (db : Db) (ids : List String) (fuel : Nat), db.dependencies.length ≤ fuel →
      db.chain fuel ids = db.chain db.dependencies.length ids ∧
        ∀ id, id ∈ db.chain fuel ids ↔ ∃ a ∈ ids, Relation.ReflTransGen db.WaitsFor a id := by
  constructor
  · intro db hdevelops
    have hacyclic := acyclic_of_develops hdevelops
    refine ⟨hacyclic, fun env taskID request principal hchecked => ?_⟩
    have hne : trimSpace taskID ≠ trimSpace request.blockedByTaskID := by
      intro hsame
      exact hchecked.valid (Or.inr (Or.inr (Or.inl hsame)))
    rw [hchecked.refused_iff, Db.wouldCycle_iff_of_acyclic hacyclic hne]
  · intro db ids fuel hfuel
    exact ⟨Db.chain_of_length_le hfuel, fun id => Db.mem_chain_iff hfuel⟩

/-- A person records a task. -/
def noteOp (call : Nat) : Op :=
  .create (.numbered call 0) { title := "Write it down", visibility := "team" }
    (humanPrincipal "ann" .owner)

/-- The person makes the first task wait for the second, and that one for the third. -/
def blockOps : List Op :=
  [noteOp 1, noteOp 2, noteOp 3,
    .addDependency (.numbered 4 100) "0100" { blockedByTaskID := "0200", expectedVersion := 1 }
      (humanPrincipal "ann" .owner),
    .addDependency (.numbered 5 200) "0200" { blockedByTaskID := "0300", expectedVersion := 1 }
      (humanPrincipal "ann" .owner)]

/-- The third task cannot wait for the first one: the cycle would go through the second. -/
theorem closing_dependency_is_refused :
    ((Op.run .ascii blockOps {}).dependencies.map fun row => (row.taskID, row.blockedByTaskID)) =
        [("0100", "0200"), ("0200", "0300")] ∧
      Acyclic (Op.run .ascii blockOps {}).WaitsFor ∧
      ((addTaskDependencyFor .ascii (.numbered 6 300) "0300"
        { blockedByTaskID := "0100", expectedVersion := 1 } (humanPrincipal "ann" .owner)).exec
          (Op.run .ascii blockOps {})).1 = .error cycleError ∧
      ¬ Acyclic ((Op.run .ascii blockOps {}).WaitsForWith "0300" "0100") := by
  have hdevelops : Develops .ascii (fun _ _ => True) (Op.run .ascii blockOps {}) :=
    ((((Develops.empty.change (.operation (noteOp 1)) trivial).change (.operation (noteOp 2))
      trivial).change (.operation (noteOp 3)) trivial).change (.operation _) trivial).change
        (.operation _) trivial
  have hchecked : AddChecked .ascii (.numbered 6 300) "0300"
      { blockedByTaskID := "0100", expectedVersion := 1 } (humanPrincipal "ann" .owner)
      (Op.run .ascii blockOps {}) :=
    ⟨by decide, by decide +kernel, by decide +kernel, by decide +kernel, by decide +kernel⟩
  have hrefused : ((addTaskDependencyFor .ascii (.numbered 6 300) "0300"
      { blockedByTaskID := "0100", expectedVersion := 1 } (humanPrincipal "ann" .owner)).exec
        (Op.run .ascii blockOps {})).1 = .error cycleError :=
    hchecked.refused_iff.mpr (by decide +kernel)
  obtain ⟨hacyclic, hexact⟩ := (dependencies_stay_acyclic .ascii).1 _ hdevelops
  exact ⟨by decide +kernel, hacyclic, hrefused, (hexact _ _ _ _ hchecked).mp hrefused⟩

end Taskboard
