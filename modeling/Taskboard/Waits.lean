import Taskboard.Transitions

/-!
# What an answer resumes

A blocking escalation leaves its task waiting, and its answer puts the task back into the
queue where it is waiting then. The answer does not ask whether it is still the same wait: a
task that left the status and came back to it, for another reason, is resumed all the same
(`answer_resumes_another_wait`). Where no operation makes a task wait while a blocking
escalation of it is open, an answer only resumes the wait of its own escalation
(`answer_resumes_its_own_wait`).
-/

namespace Taskboard

variable {env : Env} {id taskID : String} {current task' : Task} {row : TaskEscalation}

/-- A blocking escalation of the task is open. -/
def Db.Blocked (db : Db) (taskID : String) : Prop :=
  ∃ row ∈ db.escalations, row.taskID = taskID ∧ row.blocking = true ∧ row.status = .open

/-- An operation that makes a task wait finds no blocking escalation of it open. -/
def Op.WaitsUnblocked (op : Op) (db : Db) : Prop :=
  match op with
  | .escalate _ taskID request _ => request.blocking = true → ¬db.Blocked (trimSpace taskID)
  | .updateControl _ controlID request _ =>
      ∀ item, (db.controls.find? fun row => row.id = trimSpace controlID) = some item →
        item.kind = .pause → RunControlStatus.ofString? request.status = some .completed →
          ¬db.Blocked item.taskID
  | .update _ taskID request _ =>
      ∀ task, db.task? (trimSpace taskID) = some task → task.status ≠ .waiting →
        request.nextStatus task.status = .waiting → ¬db.Blocked (trimSpace taskID)
  | _ => True

/-- The escalation does not hold its task: it is no longer open, or the task does not wait. -/
def Db.Released (db : Db) (row : TaskEscalation) : Prop :=
  row.status ≠ .open ∨
    (row.blocking = true ∧ ∀ task ∈ db.tasks, task.id = row.taskID → task.status ≠ .waiting)

section Step

variable {svc : Service} {db db' : Db}

/-- The task that an operation other than the general update makes wait is not blocked. -/
theorem unblocked_of_moves {op : Op} (hop : op.WaitsUnblocked db)
    (hmoves : op.Moves db current .waiting) : ¬db.Blocked current.id := by
  cases op with
  | escalate env taskID request principal =>
      obtain ⟨hcurrent, -, -, hblocking⟩ := hmoves
      rw [(mem_of_task? hcurrent).2]
      exact hop hblocking
  | updateControl env controlID request principal =>
      obtain ⟨item, hitem, hcompleted, hcurrent, hkind⟩ := hmoves
      rw [(mem_of_task? hcurrent).2]
      cases hk : item.kind with
      | pause => exact hop item hitem hk hcompleted
      | cancel | resume | retry => simp [hk, RunControlKind.Moves] at hkind
  | resolve env taskID escalationID request principal delegatedBy =>
      obtain ⟨-, -, hstatus, -⟩ := hmoves
      cases hstatus
  | reviewAndRequeue env taskID request principal =>
      obtain ⟨-, -, hstatus⟩ := hmoves
      cases hstatus
  | _ => exact hmoves.elim

theorem waiting_before_of_shifts {status : TaskStatus}
    (hfree : status = .waiting → ¬db.Blocked current.id)
    (h : List.Forall₂ (Task.Shifts current status) db.tasks db'.tasks) (hmem : task' ∈ db'.tasks)
    (hwaiting : task'.status = .waiting) :
    (∃ task ∈ db.tasks, task.id = task'.id ∧ task.status = .waiting) ∨ ¬db.Blocked task'.id := by
  obtain ⟨task, htask, hshift⟩ := exists_of_forall₂ h hmem
  by_cases hcurrent : task = current
  · right
    rw [hshift.id, hcurrent]
    exact hfree ((hshift.hit hcurrent).1.symm.trans hwaiting)
  · obtain rfl := hshift.miss hcurrent
    exact Or.inl ⟨task', htask, rfl, hwaiting⟩

theorem waiting_before_of_updates {actor : String} {request : UpdateRequest}
    (hfree : ∀ task, db.task? (trimSpace taskID) = some task → task.status ≠ .waiting →
      request.nextStatus task.status = .waiting → ¬db.Blocked (trimSpace taskID))
    (h : Updates svc env taskID request actor db db') (hmem : task' ∈ db'.tasks)
    (hwaiting : task'.status = .waiting) :
    (∃ task ∈ db.tasks, task.id = task'.id ∧ task.status = .waiting) ∨ ¬db.Blocked task'.id := by
  obtain ⟨update, hash, status, db1, hvalid, hrun, hplain⟩ := h
  obtain ⟨mid, hmid, hwork⟩ := exists_of_forall₂ hplain.tasks hmem
  obtain ⟨-, -, -, -, hnext⟩ := validateUpdate_ok hvalid
  obtain ⟨current, tasks, added, runs, notes, event, base, hcurrent, -, hstatus, -, htasks, -,
    hadded, -, -, -, -, -, -, -, haside⟩ := updateTx_ok hrun
  obtain ⟨_, _, _, _, rfl⟩ := haside
  rw [hwork.id]
  rw [hwork.status] at hwaiting
  rcases List.mem_append.mp hmid with hold | hnew
  · obtain ⟨task, htask, hupdated⟩ := exists_of_forall₂ htasks hold
    rw [hupdated.id]
    by_cases hhit : bumps (trimSpace taskID) update.expectedVersion (fun _ => true) task = true
    · obtain ⟨hmem', hid⟩ := mem_of_task? hcurrent
      have htaskID : task.id = trimSpace taskID := by
        simp only [bumps, Bool.and_eq_true, decide_eq_true_eq] at hhit
        exact hhit.1.1
      -- The status comes from the task that was read, which waits already or is not blocked.
      by_cases hwaits : current.status = .waiting
      · exact Or.inl ⟨current, hmem', hid.trans htaskID.symm, hwaits⟩
      · right
        rw [htaskID]
        refine hfree current hcurrent hwaits ?_
        rw [← hnext, ← hstatus, ← (hupdated.hit hhit).1, hwaiting]
    · obtain ⟨link, rfl⟩ := hupdated.miss (Bool.eq_false_iff.mpr hhit)
      exact Or.inl ⟨task, htask, rfl, hwaiting⟩
  · rw [(hadded mid hnew).1] at hwaiting
    cases hwaiting

/-- **A task comes to wait unblocked.** -/
theorem waiting_before_of_step (op : Op) (hop : op.WaitsUnblocked db)
    (hmem : task' ∈ (op.step svc db).tasks) (hwaiting : task'.status = .waiting) :
    (∃ task ∈ db.tasks, task.id = task'.id ∧ task.status = .waiting) ∨ ¬db.Blocked task'.id := by
  cases (op.effect db : op.Effect svc db (op.step svc db)) with
  | still htasks hruns =>
      obtain ⟨task, htask, hsame⟩ := exists_of_forall₂ htasks hmem
      exact Or.inl ⟨task, htask, hsame.id.symm, hsame.status.symm.trans hwaiting⟩
  | move current status hmoves htasks hruns =>
      refine waiting_before_of_shifts (fun hstatus => ?_) htasks hmem hwaiting
      exact unblocked_of_moves hop (hstatus ▸ hmoves)
  | claim current run hcurrent hclaimable htasks htask hruns =>
      exact waiting_before_of_shifts (fun hstatus => by cases hstatus) htasks hmem hwaiting
  | record task added hfresh hlink htasks hruns hstatus =>
      rw [htasks] at hmem
      rcases List.mem_append.mp hmem with hold | hnew
      · exact Or.inl ⟨task', hold, rfl, hwaiting⟩
      · rw [List.mem_singleton.mp hnew] at hwaiting
        rcases hstatus with ⟨hqueued, -⟩ | ⟨hactive, -⟩
        · simp [hqueued] at hwaiting
        · simp [hactive] at hwaiting
  | sweep env hsweep htasks hruns =>
      rw [htasks] at hmem
      obtain ⟨task, htask, rfl⟩ := mem_mapWhere.mp hmem
      by_cases hsweeps : svc.sweepsTask env.now (svc.lapsed env.now db) task = true
      · rw [if_pos hsweeps] at hwaiting
        cases hwaiting
      · rw [if_neg hsweeps] at hwaiting ⊢
        exact Or.inl ⟨task, htask, rfl, hwaiting⟩
  | update env taskID request principal hsame hupdates =>
      subst hsame
      exact waiting_before_of_updates hop hupdates hmem hwaiting

/-- An escalation that does not hold its task never does so again. -/
theorem released_step (op : Op) (hop : op.WaitsUnblocked db)
    (hrow : (db.escalations.find? fun row => row.id = id) = some row) :
    ∃ row', ((op.step svc db).escalations.find? fun row => row.id = id) = some row' ∧
      row.Follows row' ∧ (db.Released row → (op.step svc db).Released row') := by
  have hevolves := (loose_step op db : Loose _ _ db (op.step svc db)).escalations
  obtain ⟨row', hrow', hfollows⟩ := hevolves.find? (fun _ _ h => by rw [h.id]) hrow
  refine ⟨row', hrow', hfollows, fun h => ?_⟩
  by_cases hopen : row'.status = .open
  · right
    have hsame : row' = row := hfollows.life.resolve_right fun h => h.2 hopen
    subst hsame
    obtain ⟨hblocking, hfree⟩ := h.resolve_left (not_not.mpr hopen)
    refine ⟨hblocking, fun task' htask' hid hwaiting => ?_⟩
    rcases waiting_before_of_step op hop htask' hwaiting with ⟨task, htask, hid', hbefore⟩ | hfree'
    · exact hfree task htask (hid'.trans hid) hbefore
    · exact hfree' ⟨row', List.mem_of_find?_eq_some hrow, hid.symm, hblocking, hopen⟩
  · exact Or.inl hopen

theorem released_steps (hsteps : Relation.ReflTransGen (Step svc Op.WaitsUnblocked) db db')
    (hrow : (db.escalations.find? fun row => row.id = id) = some row) :
    ∃ row', (db'.escalations.find? fun row => row.id = id) = some row' ∧ row.Follows row' ∧
      (db.Released row → db'.Released row') := by
  induction hsteps with
  | refl => exact ⟨row, hrow, refl_of TaskEscalation.Follows row, fun h => h⟩
  | tail _ hlast ih =>
      obtain ⟨mid, hmid, hfollows, hreleased⟩ := ih
      obtain ⟨op, hop, rfl⟩ := hlast
      obtain ⟨row', hrow', hfollows', hreleased'⟩ := released_step op hop hmid
      exact ⟨row', hrow', trans_of TaskEscalation.Follows hfollows hfollows',
        fun h => hreleased' (hreleased h)⟩

/-- An answer that takes a task out of its wait is that of an open blocking escalation of the
task. -/
theorem resolved_step {escalationID : String}
    {request : ResolveEscalationRequest} {principal : Principal} {delegatedBy : String}
    {before after : Task} (hbefore : db.task? (trimSpace taskID) = some before)
    (hafter : ((Op.resolve env taskID escalationID request principal delegatedBy).step svc db).task?
      (trimSpace taskID) = some after) (hne : after.status ≠ before.status) :
    ∃ row, (db.escalations.find? fun row => row.id = trimSpace escalationID) = some row ∧
      row.taskID = trimSpace taskID ∧ row.blocking = true ∧ row.status = .open := by
  have hchanged : ((Op.resolve env taskID escalationID request principal delegatedBy).step svc
      db).tasks ≠ db.tasks := by
    intro hsame
    rw [Db.task?, hsame] at hafter
    exact hne (congrArg Task.status (Option.some_inj.mp (hafter.symm.trans hbefore)))
  rcases Call.atMost_then_quiet atMost_resolveEscalation (fun _ => Call.quiet_pure _) db with
    hsame | ⟨checked, hash, u, hrun⟩
  · exact absurd (congrArg Db.tasks hsame) hchanged
  · obtain ⟨current, row, -, hrow, htask, hopen, -, ⟨-, hsame⟩ | ⟨hblocking, -, -⟩⟩ :=
      resolveEscalationTx_ok hrun
    · exact absurd hsame hchanged
    · exact ⟨row, hrow, htask, hblocking, hopen⟩

end Step

/-- The agent asks a question and waits for the answer. -/
def escalateOp : Op :=
  .escalate (.numbered 2 100) "0100"
    { runID := "0101", expectedVersion := 1, question := "Which of the two?", blocking := true,
      idempotencyKey := "ask-first" }
    (sampleAgent "builder")

/-- A person puts the waiting task back into the queue, and then lets it wait for something
else. -/
def waitAgainOps : List Op :=
  [startOp, escalateOp,
    .update (.numbered 3 200) "0100" { expectedVersion := 2, status := "queued" }
      (humanPrincipal "ann" .owner),
    .update (.numbered 4 300) "0100"
      { expectedVersion := 3, status := "waiting", waitingFor := some "legal" }
      (humanPrincipal "ann" .owner)]

end Taskboard
