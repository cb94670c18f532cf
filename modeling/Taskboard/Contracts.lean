import Taskboard.Deletion

/-!
# Completion contracts

The general update lets a task become done only where none of its required completion
requirements is pending, and no requirement is added to a task that is done. A review may set
a requirement back to pending whatever the status of its task
(`reopened_requirement_of_done_task`). Where no review does so for a task that is done, the
tasks that are done have met their contracts (`done_tasks_met_their_contracts`).
-/

namespace Taskboard

variable {taskID : String} {task' : Task} {status : TaskStatus}

/-- A review that sets a requirement back to pending finds its task not done. -/
def Change.ReopensOpen (change : Change) (db : Db) : Prop :=
  match change with
  | .operation (.reviewCompletion _ taskID _ request _) =>
      CompletionRequirementStatus.ofString? request.status = some .pending →
        ∀ task, db.task? (trimSpace taskID) = some task → task.status ≠ .done
  | _ => True

/-- No required requirement of a task that is done is pending; and requirements have
identifiers of their own. -/
structure Db.ContractsMet (db : Db) : Prop where
  met : ∀ task ∈ db.tasks, task.status = .done → ∀ row ∈ db.completionRequirements,
    row.taskID = task.id → row.required = true → row.status ≠ .pending
  unique : (db.completionRequirements.map CompletionRequirement.id).Nodup

section Step

variable {svc : Service} {db db' : Db} {op : Op} {current : Task}

theorem unmetRequirements_eq_nil :
    db.unmetRequirements taskID = [] ↔ ∀ row ∈ db.completionRequirements,
      row.taskID = taskID → row.required = true → row.status ≠ .pending := by
  have hsorted (rows : List CompletionRequirement) (lt) : sortBy lt rows = [] ↔ rows = [] := by
    rw [← List.length_eq_zero_iff, ← List.length_eq_zero_iff, sortBy,
      List.length_insertionSort]
  rw [Db.unmetRequirements, List.map_eq_nil_iff, hsorted, List.filter_eq_nil_iff]
  simp

/-- The statuses that a task is moved to by an operation other than the general update. -/
theorem Op.Moves.not_done
    (h : op.Moves db current status) : status ≠ .done := by
  cases op with
  | escalate env taskID request principal => exact h.2.2.1 ▸ by decide
  | resolve env taskID escalationID request principal delegatedBy => exact h.2.2.1 ▸ by decide
  | updateControl env controlID request principal =>
      obtain ⟨item, -, -, -, hkind⟩ := h
      cases hk : item.kind with
      | pause | cancel | resume | retry =>
          rw [hk] at hkind
          exact hkind.2 ▸ by decide
  | reviewAndRequeue env taskID request principal => exact h.2.2 ▸ by decide
  | _ => exact h.elim

theorem done_before_of_shifts (hne : status ≠ .done)
    (h : List.Forall₂ (Task.Shifts current status) db.tasks db'.tasks) (hmem : task' ∈ db'.tasks)
    (hdone : task'.status = .done) :
    ∃ task ∈ db.tasks, task.id = task'.id ∧ task.status = .done := by
  obtain ⟨task, htask, hshift⟩ := exists_of_forall₂ h hmem
  by_cases hcurrent : task = current
  · exact absurd ((hshift.hit hcurrent).1.symm.trans hdone) hne
  · obtain rfl := hshift.miss hcurrent
    exact ⟨task', htask, rfl, hdone⟩

theorem done_before_of_updateTx {env : Env} {actor : String} {update : TaskUpdate}
    {hash : Option Digest}
    (hrun : (updateTx svc env taskID update actor hash).run db = .ok (status, db'))
    (hmem : task' ∈ db'.tasks) (hdone : task'.status = .done) :
    (∃ task ∈ db.tasks, task.id = task'.id ∧ task.status = .done) ∨
      db.unmetRequirements task'.id = [] := by
  obtain ⟨current, kept, edited, sortOrder, added, runs, notes, event, base, hchecks, hstatus, -,
    -, -, hadded, -, -, -, -, -, -, -, haside⟩ := updateTx_rows hrun
  obtain ⟨_, _, _, _, rfl⟩ := haside
  rcases List.mem_append.mp hmem with hold | hnew
  · obtain ⟨task, htask, hupdated⟩ :=
      exists_of_forall₂ (updated_relinked (by rfl) db.tasks) hold
    by_cases hhit : bumps taskID update.expectedVersion (fun _ => true) task = true
    · -- The task is the one that was updated, and the check was made.
      right
      have hid : task.id = taskID := by
        simp only [bumps, Bool.and_eq_true, decide_eq_true_eq] at hhit
        exact hhit.1.1
      have hchecked := (hchecks.done (hstatus.symm.trans ((hupdated.hit hhit).1.symm.trans hdone))).2.1
      obtain ⟨_, _, _, _, rfl⟩ := hchecks.aside
      rw [hupdated.id, hid]
      exact hchecked
    · obtain ⟨link, rfl⟩ := hupdated.miss (Bool.eq_false_iff.mpr hhit)
      exact Or.inl ⟨task, htask, rfl, hdone⟩
  · rw [(hadded task' hnew).queued] at hdone
    cases hdone

/-- Only the general update makes a task done. -/
theorem done_before_or_updated (op : Op) (hmem : task' ∈ (op.step svc db).tasks)
    (hdone : task'.status = .done) :
    (∃ task ∈ db.tasks, task.id = task'.id ∧ task.status = .done) ∨
      ∃ env taskID request principal, op = .update env taskID request principal ∧
        Updates svc env taskID request principal.id db (op.step svc db) := by
  cases (op.effect db : op.Effect svc db (op.step svc db)) with
  | still htasks hruns =>
      obtain ⟨task, htask, hsame⟩ := exists_of_forall₂ htasks hmem
      exact Or.inl ⟨task, htask, hsame.id.symm, hsame.status.symm.trans hdone⟩
  | move current status hmoves htasks hruns =>
      exact Or.inl (done_before_of_shifts hmoves.not_done htasks hmem hdone)
  | claim current run hcurrent hclaimable htasks htask hruns =>
      exact Or.inl (done_before_of_shifts (by decide) htasks hmem hdone)
  | record task added hfresh hlink htasks hruns hstatus =>
      rw [htasks] at hmem
      rcases List.mem_append.mp hmem with hold | hnew
      · exact Or.inl ⟨task', hold, rfl, hdone⟩
      · rw [List.mem_singleton.mp hnew] at hdone
        rcases hstatus with ⟨hqueued, -⟩ | ⟨hactive, -⟩
        · simp [hqueued] at hdone
        · simp [hactive] at hdone
  | sweep env hop htasks hruns =>
      rw [htasks] at hmem
      obtain ⟨task, htask, rfl⟩ := mem_mapWhere.mp hmem
      by_cases hsweeps : svc.sweepsTask env.now (svc.lapsed env.now db) task = true
      · rw [if_pos hsweeps] at hdone
        cases hdone
      · rw [if_neg hsweeps] at hdone ⊢
        exact Or.inl ⟨task, htask, rfl, hdone⟩
  | update env taskID request principal hsame hupdates =>
      exact Or.inr ⟨env, taskID, request, principal, hsame, hupdates⟩

/-- **A task becomes done with its contract met.** -/
theorem done_before_of_step (op : Op) (hmem : task' ∈ (op.step svc db).tasks)
    (hdone : task'.status = .done) :
    (∃ task ∈ db.tasks, task.id = task'.id ∧ task.status = .done) ∨
      db.unmetRequirements task'.id = [] := by
  rcases done_before_or_updated op hmem hdone with hbefore | ⟨_, _, _, _, -, hupdates⟩
  · exact Or.inl hbefore
  · obtain ⟨update, hash, status, db1, hvalid, hrun, hplain⟩ := hupdates
    obtain ⟨mid, hmid, hwork⟩ := exists_of_forall₂ hplain.tasks hmem
    rw [hwork.id]
    exact done_before_of_updateTx hrun hmid (hwork.status.symm.trans hdone)

/-- Where requirements stay as they are, contracts stay met. -/
theorem contracts_of_same (h : db.ContractsMet)
    (hrows : (op.step svc db).completionRequirements = db.completionRequirements) :
    (op.step svc db).ContractsMet where
  met task' htask' hdone := by
    rw [hrows]
    rcases done_before_of_step op htask' hdone with ⟨task, htask, hid, hbefore⟩ | hunmet
    · exact hid ▸ h.met task htask hbefore
    · exact unmetRequirements_eq_nil.mp hunmet
  unique := hrows ▸ h.unique

/-- The tasks keep their work, and what is new among the requirements is settled or of a task
that is not done. -/
theorem contracts_of_still (h : db.ContractsMet)
    (htasks : List.Forall₂ Task.SameWork db.tasks db'.tasks)
    (hrows : ∀ row' ∈ db'.completionRequirements, row' ∈ db.completionRequirements ∨
      row'.status ≠ .pending ∨ ∀ task ∈ db.tasks, task.id = row'.taskID → task.status ≠ .done)
    (hunique : (db'.completionRequirements.map CompletionRequirement.id).Nodup) :
    db'.ContractsMet where
  met task' htask' hdone row' hrow' htask hrequired := by
    obtain ⟨task, hmem, hsame⟩ := exists_of_forall₂ htasks htask'
    rw [hsame.status] at hdone
    rw [hsame.id] at htask
    rcases hrows row' hrow' with hold | hsettled | hopen
    · exact h.met task hmem hdone row' hold htask hrequired
    · exact hsettled
    · exact absurd hdone (hopen task hmem htask.symm)
  unique := hunique

theorem contracts_requires (hids : db.Unique) (h : db.ContractsMet)
    (htasks : List.Forall₂ Task.SameWork db.tasks db'.tasks) (hrequires : Requires taskID db db') :
    db'.ContractsMet := by
  obtain ⟨current, item, hcurrent, hopen, hitem, hfresh, hrows⟩ := hrequires
  obtain ⟨hmem, hid⟩ := mem_of_task? hcurrent
  refine contracts_of_still h htasks ?_ ?_
  · rw [hrows]
    intro row' hrow'
    rcases List.mem_append.mp hrow' with hold | hnew
    · exact Or.inl hold
    · obtain rfl := List.mem_singleton.mp hnew
      refine Or.inr (Or.inr fun task htask hsame hdone => ?_)
      obtain rfl := hids.eq_of_id htask hmem (hsame.trans (hitem.trans hid.symm))
      simp [hdone, TaskStatus.terminal] at hopen
  · rw [hrows, List.map_append, List.nodup_append]
    refine ⟨h.unique, List.nodup_singleton _, fun id hold id' hnew hsame => ?_⟩
    obtain ⟨row, hrow, rfl⟩ := List.mem_map.mp hold
    exact hfresh row hrow (hsame.trans (List.mem_singleton.mp hnew))

theorem contracts_reviews {requirementID : String} {requirement : CompletionRequirement}
    {status : CompletionRequirementStatus} (hids : db.Unique) (h : db.ContractsMet)
    (htasks : List.Forall₂ Task.SameWork db.tasks db'.tasks)
    (hrow : (db.completionRequirements.find? fun row => row.id = requirementID) = some requirement)
    (htask : requirement.taskID = taskID)
    (hopen : status = .pending → ∀ task, db.task? taskID = some task → task.status ≠ .done)
    (hreviews : Reviews requirementID status db db') : db'.ContractsMet := by
  rcases hreviews with hsame | ⟨f, hf, hrows⟩
  · refine contracts_of_still h htasks (fun row' hrow' => Or.inl (hsame ▸ hrow')) ?_
    exact hsame.symm ▸ h.unique
  · refine contracts_of_still h htasks ?_ ?_
    · rw [hrows]
      intro row' hrow'
      obtain ⟨row, hmem, rfl⟩ := mem_mapWhere.mp hrow'
      by_cases hnamed : row.id = requirementID
      · right
        simp only [hnamed, decide_true, if_true, (hf row).2.2, (hf row).2.1]
        by_cases hpending : status = .pending
        · -- The requirement that was read is the only row with its identifier.
          right
          have hread : row = requirement := by
            refine List.inj_on_of_nodup_map h.unique hmem (List.mem_of_find?_eq_some hrow) ?_
            have hid := List.find?_some hrow
            simp only [decide_eq_true_eq] at hid
            exact hnamed.trans hid.symm
          intro task htaskmem hid
          refine hopen hpending task ?_
          rw [← htask, ← hread, ← hid]
          exact hids.task? htaskmem
        · exact Or.inl hpending
      · left
        simpa [hnamed] using hmem
    · have hsame : List.Forall₂ (SameKey CompletionRequirement.id) db.completionRequirements
          (mapWhere (fun row => row.id = requirementID) f db.completionRequirements) :=
        forall₂_mapWhere fun row _ _ => (hf row).1
      rw [hrows, map_eq_of_forall₂ (fun _ _ h => h) hsame]
      exact h.unique

theorem contracts_step (op : Op) (db : Db) (hop : (Change.operation op).ReopensOpen db)
    (hids : db.Unique) (h : db.ContractsMet) : (op.step svc db).ContractsMet := by
  by_cases hledger : Ledger.completionRequirements ∈ op.ledgers
  · cases op with
    | createRequirement env taskID request principal =>
        rcases Call.atMost_then_quiet atMost_createCompletionRequirementFor
          (fun _ => Call.quiet_pure _) db with hsame | hrequires
        · exact contracts_of_same h (congrArg Db.completionRequirements hsame)
        · exact contracts_requires hids h (still_step rfl db).tasks hrequires
    | reviewCompletion env taskID requirementID request principal =>
        rcases Call.atMost_then_quiet atMost_reviewCompletionRequirementFor
          (fun _ => Call.quiet_pure _) db with
          hsame | ⟨requirement, status, hrow, htask, hstatus, hreviews⟩
        · exact contracts_of_same h (congrArg Db.completionRequirements hsame)
        · exact contracts_reviews hids h (still_step rfl db).tasks hrow htask
            (fun hpending => hop (hpending ▸ hstatus)) hreviews
    | _ => simp [Op.ledgers] at hledger
  · exact contracts_of_same h ((loose_step op db).sameRequirements hledger)

theorem contracts_deletes (hdeletes : Deletes db db') (h : db.ContractsMet) : db'.ContractsMet := by
  obtain ⟨gone, sessions, rfl⟩ := hdeletes
  refine ⟨?_, h.unique.sublist (List.filter_sublist.map _)⟩
  intro task' htask' hdone row hrow htask
  obtain ⟨task, hmem, rfl⟩ := List.mem_map.mp htask'
  exact h.met task (List.mem_of_mem_filter hmem) hdone row (List.mem_of_mem_filter hrow) htask

end Step

/-- **Done work has met its contract**, in every state that is reached while no review sets a
requirement of a task that is done back to pending. -/
theorem done_tasks_met_their_contracts {svc : Service} {db : Db}
    (h : Develops svc Change.ReopensOpen db) :
    ∀ task ∈ db.tasks, task.status = .done → ∀ row ∈ db.completionRequirements,
      row.taskID = task.id → row.required = true → row.status = .satisfied ∨ row.status = .waived := by
  have hmet : db.Unique ∧ db.ContractsMet := by
    refine h.invariant (P := fun db => db.Unique ∧ db.ContractsMet) ?_ ?_ ?_
    · exact ⟨List.nodup_nil, by simp, List.nodup_nil⟩
    · intro op db hop ⟨hids, hmet⟩
      exact ⟨unique_step op db hids, contracts_step op db hop hids hmet⟩
    · intro db db' hdeletes ⟨hids, hmet⟩
      exact ⟨unique_deletes hdeletes hids, contracts_deletes hdeletes hmet⟩
  intro task htask hdone row hrow hof hrequired
  have hsettled := hmet.2.met task htask hdone row hrow hof hrequired
  cases hstatus : row.status with
  | pending => exact absurd hstatus hsettled
  | satisfied => exact Or.inl rfl
  | waived => exact Or.inr rfl

/-- A person records a task, adds a requirement to it and waives that, and is done. -/
def waivedOps : List Op :=
  [.create (.numbered 1 0) { title := "Fix the login", visibility := "team" }
      (humanPrincipal "ann" .owner),
    .createRequirement (.numbered 2 100) "0100"
      { kind := "human_approval", label := "Sign-off", required := true, expectedVersion := 1 }
      (humanPrincipal "ann" .owner),
    .reviewCompletion (.numbered 3 200) "0100" "0200"
      { status := "waived", note := "No release", expectedVersion := 2 }
      (humanPrincipal "ann" .owner),
    .update (.numbered 4 300) "0100" { expectedVersion := 3, status := "done" }
      (humanPrincipal "ann" .owner)]

theorem waived_task_met_its_contract :
    ((Op.run .ascii waivedOps {}).task? "0100").map Task.status = some .done ∧
      ((Op.run .ascii waivedOps {}).completionRequirements.map fun row =>
        (row.taskID, row.required, row.status)) = [("0100", true, .waived)] ∧
      ∀ task ∈ (Op.run .ascii waivedOps {}).tasks, task.status = .done →
        ∀ row ∈ (Op.run .ascii waivedOps {}).completionRequirements, row.taskID = task.id →
          row.required = true → row.status = .satisfied ∨ row.status = .waived := by
  have hdevelops : Develops .ascii Change.ReopensOpen (Op.run .ascii waivedOps {}) := by
    refine (((Develops.empty.change (.operation _) ?_).change (.operation _) ?_).change
      (.operation _) ?_).change (.operation _) ?_
    · exact trivial
    · exact trivial
    · exact fun hpending => absurd hpending (by decide)
    · exact trivial
  exact ⟨by decide +kernel, by decide +kernel, done_tasks_met_their_contracts hdevelops⟩

/-- A review sets the requirement of a task that is done back to pending. -/
def reopenOp : Op :=
  .reviewCompletion (.numbered 5 400) "0100" "0200" { status := "pending", expectedVersion := 4 }
    (humanPrincipal "ann" .owner)

/-- The task is done, and its required requirement is pending. -/
theorem reopened_requirement_of_done_task :
    Reachable .ascii (fun _ _ => True) (Op.run .ascii (waivedOps ++ [reopenOp]) {}) ∧
      ((Op.run .ascii (waivedOps ++ [reopenOp]) {}).task? "0100").map Task.status = some .done ∧
      ((Op.run .ascii (waivedOps ++ [reopenOp]) {}).completionRequirements.map fun row =>
        (row.taskID, row.required, row.status)) = [("0100", true, .pending)] :=
  ⟨reachable_run _ _, by decide +kernel, by decide +kernel⟩

end Taskboard
