import Taskboard.Sweep
import Taskboard.Transitions

/-!
# A claim is exclusive

A claim opens a run on a task that is queued or stale, without a look at the other runs of
the task. It is exclusive where no task in one of these statuses has an open active run.
Starting, claiming and sweeping keep it so. The other ways back into the queue do not look at
all the runs of the task either: the general update ends no run but the one it names, an
answer and a control end none, and a review ends the one it names.
-/

namespace Taskboard

variable {run run' : AgentRun} {now : Instant} {id taskID : String} {current : Task}
  {status : TaskStatus} {db db' : Db}

/-- The run is open and active, on this task. -/
def AgentRun.Holds (run : AgentRun) (id : String) : Prop :=
  run.taskID = id ∧ run.endedAt = none ∧ run.status = .active

/-- No task that may be claimed is held by a run. Besides, tasks have identifiers of their own,
and every run has its task. -/
structure Db.Exclusive (db : Db) : Prop where
  free : ∀ task ∈ db.tasks, task.status.claimable = true → ∀ run ∈ db.runs, ¬run.Holds task.id
  owned : ∀ run ∈ db.runs, ∃ task ∈ db.tasks, task.id = run.taskID
  unique : (db.tasks.map Task.id).Nodup

/-- An operation that puts a task back into the queue finds no open active run on it but the
one it names and ends. -/
def Op.LeavesFree (op : Op) (db : Db) : Prop :=
  match op with
  | .update _ taskID request _ =>
      ∀ task, db.task? (trimSpace taskID) = some task → task.version = request.expectedVersion →
        (request.nextStatus task.status).claimable = true →
          ∀ run ∈ db.runs, run.Holds task.id → run.isNamed (trimSpace taskID) request.runID = true
  | .resolve _ taskID _ _ _ _ => ∀ run ∈ db.runs, ¬run.Holds (trimSpace taskID)
  | .updateControl _ controlID _ _ =>
      ∀ item, (db.controls.find? fun row => row.id = trimSpace controlID) = some item →
        item.kind = .resume ∨ item.kind = .retry → ∀ run ∈ db.runs, ¬run.Holds item.taskID
  | .reviewAndRequeue _ taskID request _ =>
      ∀ run ∈ db.runs, run.Holds (trimSpace taskID) →
        db.run? (trimSpace request.targetRunID) = some run
  | _ => True

section Rows

theorem AgentRun.Follows.holds (h : run.Follows run') (hholds : run'.Holds id): run.Holds id := by
  obtain ⟨htask, hopen, hactive⟩ := hholds
  rcases h.life with ⟨hstatus, hended, -⟩ | ⟨-, hended⟩
  · exact ⟨h.taskID ▸ htask, hended ▸ hopen, hstatus ▸ hactive⟩
  · exact absurd hopen hended

/-- A run that holds a task held it before. -/
theorem exists_holds (hruns : List.Forall₂ AgentRun.Follows db.runs db'.runs)
    (hrun : run' ∈ db'.runs) (hholds : run'.Holds id) :
    ∃ run ∈ db.runs, run.id = run'.id ∧ run.Holds id := by
  obtain ⟨run, hmem, hfollows⟩ := exists_of_forall₂ hruns hrun
  exact ⟨run, hmem, hfollows.id.symm, hfollows.holds hholds⟩

theorem Db.Exclusive.eq_of_id (h : db.Exclusive) {a b : Task} (ha : a ∈ db.tasks)
    (hb : b ∈ db.tasks) (hid : a.id = b.id) : a = b :=
  List.inj_on_of_nodup_map h.unique ha hb hid

/-- The rows stay owned where tasks keep their identifiers and runs their tasks. -/
theorem owned_of_forall₂ {keep : Task → Task → Prop} {keepRun : AgentRun → AgentRun → Prop}
    (hid : ∀ task task', keep task task' → task'.id = task.id)
    (htask : ∀ run run', keepRun run run' → run'.taskID = run.taskID)
    (h : db.Exclusive) (htasks : List.Forall₂ keep db.tasks db'.tasks)
    (hruns : List.Forall₂ keepRun db.runs db'.runs) :
    ∀ run ∈ db'.runs, ∃ task ∈ db'.tasks, task.id = run.taskID := by
  intro run' hrun'
  obtain ⟨run, hrun, hkeep⟩ := exists_of_forall₂ hruns hrun'
  obtain ⟨task, hmem, howned⟩ := h.owned run hrun
  obtain ⟨task', hmem', hsame⟩ := exists_next_of_forall₂ htasks hmem
  exact ⟨task', hmem', by rw [hid _ _ hsame, howned, htask _ _ hkeep]⟩

end Rows

section Step

variable {svc : Service}

theorem exclusive_still (h : db.Exclusive) (htasks : List.Forall₂ Task.SameWork db.tasks db'.tasks)
    (hruns : List.Forall₂ AgentRun.Follows db.runs db'.runs) : db'.Exclusive where
  free task' htask' hclaimable run' hrun' hholds := by
    obtain ⟨task, hmem, hsame⟩ := exists_of_forall₂ htasks htask'
    obtain ⟨run, hrun, -, hheld⟩ := exists_holds hruns hrun' hholds
    exact h.free task hmem (hsame.status ▸ hclaimable) run hrun (hsame.id ▸ hheld)
  owned := owned_of_forall₂ (fun _ _ h => h.id) (fun _ _ h => h.taskID) h htasks hruns
  unique := (map_eq_of_forall₂ (fun _ _ h => h.id) htasks).symm ▸ h.unique

/-- Where one task moves, it is enough that no run holds it afterwards, if it may be claimed. -/
theorem exclusive_move (h : db.Exclusive)
    (htasks : List.Forall₂ (Task.Shifts current status) db.tasks db'.tasks)
    (hruns : List.Forall₂ AgentRun.Follows db.runs db'.runs)
    (hfree : status.claimable = true → ∀ run ∈ db'.runs, ¬run.Holds current.id) :
    db'.Exclusive where
  free task' htask' hclaimable run' hrun' hholds := by
    obtain ⟨task, hmem, hshift⟩ := exists_of_forall₂ htasks htask'
    by_cases hcurrent : task = current
    · have hstatus := (hshift.hit hcurrent).1
      refine hfree (hstatus ▸ hclaimable) run' hrun' ?_
      rwa [← hcurrent, ← hshift.id]
    · obtain rfl := hshift.miss hcurrent
      obtain ⟨run, hrun, -, hheld⟩ := exists_holds hruns hrun' hholds
      exact h.free _ hmem hclaimable run hrun hheld
  owned := owned_of_forall₂ (fun _ _ h => h.id) (fun _ _ h => h.taskID) h htasks hruns
  unique := (map_eq_of_forall₂ (fun _ _ h => h.id) htasks).symm ▸ h.unique

theorem exclusive_claim (h : db.Exclusive) (hmem : current ∈ db.tasks)
    (htasks : List.Forall₂ (Task.Shifts current .active) db.tasks db'.tasks)
    (htask : run.taskID = current.id) (hruns : db'.runs = db.runs ++ [run]) : db'.Exclusive where
  free task' htask' hclaimable run' hrun' hholds := by
    obtain ⟨task, hold, hshift⟩ := exists_of_forall₂ htasks htask'
    by_cases hcurrent : task = current
    · rw [(hshift.hit hcurrent).1] at hclaimable
      exact Bool.noConfusion hclaimable
    · obtain rfl := hshift.miss hcurrent
      rw [hruns, List.mem_append, List.mem_singleton] at hrun'
      rcases hrun' with hrun' | rfl
      · exact h.free _ hold hclaimable run' hrun' hholds
      · exact hcurrent (h.eq_of_id hold hmem (hholds.1.symm.trans htask))
  owned run' hrun' := by
    rw [hruns, List.mem_append, List.mem_singleton] at hrun'
    obtain ⟨task, hold, howned⟩ : ∃ task ∈ db.tasks, task.id = run'.taskID := by
      rcases hrun' with hrun' | rfl
      · exact h.owned run' hrun'
      · exact ⟨current, hmem, htask.symm⟩
    obtain ⟨task', hmem', hshift⟩ := exists_next_of_forall₂ htasks hold
    exact ⟨task', hmem', hshift.id.trans howned⟩
  unique := (map_eq_of_forall₂ (fun _ _ h => h.id) htasks).symm ▸ h.unique

theorem exclusive_record {task : Task} {added : List AgentRun} (h : db.Exclusive)
    (hfresh : ∀ row ∈ db.tasks, row.id ≠ task.id) (htasks : db'.tasks = db.tasks ++ [task])
    (hruns : db'.runs = db.runs ++ added)
    (hstatus : task.status = .queued ∧ added = [] ∨
      task.status = .active ∧ ∀ run ∈ added, run.taskID = task.id) : db'.Exclusive where
  free task' htask' hclaimable run hrun hholds := by
    rw [htasks, List.mem_append, List.mem_singleton] at htask'
    rw [hruns, List.mem_append] at hrun
    rcases htask' with hold | rfl
    · rcases hrun with hrun | hrun
      · exact h.free task' hold hclaimable run hrun hholds
      · rcases hstatus with ⟨-, rfl⟩ | ⟨-, hadded⟩
        · cases hrun
        · exact hfresh task' hold (hholds.1.symm.trans (hadded run hrun))
    · rcases hstatus with ⟨-, rfl⟩ | ⟨hactive, -⟩
      · -- A run on the new task would have had a task before.
        obtain ⟨row, hrow, howned⟩ := h.owned run (hrun.resolve_right (List.not_mem_nil))
        exact hfresh row hrow (howned.trans hholds.1)
      · rw [hactive] at hclaimable
        exact Bool.noConfusion hclaimable
  owned run hrun := by
    rw [hruns, List.mem_append] at hrun
    rw [htasks]
    rcases hrun with hrun | hrun
    · obtain ⟨row, hrow, howned⟩ := h.owned run hrun
      exact ⟨row, List.mem_append_left _ hrow, howned⟩
    · rcases hstatus with ⟨-, rfl⟩ | ⟨-, hadded⟩
      · cases hrun
      · exact ⟨task, by simp, (hadded run hrun).symm⟩
  unique := by
    rw [htasks, List.map_append, List.map_singleton, List.nodup_append]
    refine ⟨h.unique, List.nodup_singleton _, ?_⟩
    simpa using hfresh

/-- A run that holds a task once the leases that have passed are ended is live. -/
theorem live_of_holds_lapsed (hrun' : run' ∈ (svc.lapsed now db).runs) (hholds : run'.Holds id):
    run' ∈ db.runs ∧ svc.liveAt now run' = true := by
  obtain ⟨run, hrun, rfl⟩ := mem_mapWhere.mp hrun'
  by_cases hexpired : svc.expiredAt now run = true
  · rw [if_pos hexpired] at hholds
    exact absurd hholds.2.1 (by simp [AgentRun.swept])
  · rw [if_neg hexpired] at hholds ⊢
    exact ⟨hrun, (live_or_expired hholds.2.1 hholds.2.2).resolve_right hexpired⟩

/-- The sweep leaves a task stale only where no live run is left on it. -/
theorem exclusive_sweep (h : db.Exclusive)
    (htasks : db'.tasks = (svc.swept now db).tasks) (hruns : db'.runs = (svc.swept now db).runs) :
    db'.Exclusive := by
  have hsame : List.Forall₂ (SameKey Task.id) db.tasks db'.tasks := by
    rw [htasks]
    exact forall₂_mapWhere fun _ _ _ => rfl
  have hsame' : List.Forall₂ (SameKey AgentRun.taskID) db.runs db'.runs := by
    rw [hruns]
    exact forall₂_mapWhere fun _ _ _ => rfl
  refine ⟨?_, owned_of_forall₂ (fun _ _ h => h) (fun _ _ h => h) h hsame hsame',
    (map_eq_of_forall₂ (fun _ _ h => h) hsame).symm ▸ h.unique⟩
  intro task' htask' hclaimable run' hrun' hholds
  rw [hruns] at hrun'
  obtain ⟨hrun, hlive⟩ := live_of_holds_lapsed hrun' hholds
  rw [htasks] at htask'
  obtain ⟨task, hmem, rfl⟩ := mem_mapWhere.mp htask'
  by_cases hsweeps : svc.sweepsTask now (svc.lapsed now db) task = true
  · rw [if_pos hsweeps] at hholds
    simp only [Service.sweepsTask, Bool.and_eq_true, Bool.not_eq_true', List.any_eq_false,
      decide_eq_true_eq, not_and] at hsweeps
    exact hsweeps.2 run' hrun' hholds.1 hlive
  · rw [if_neg hsweeps] at hholds hclaimable
    exact h.free task hmem hclaimable run' hrun hholds

/-- A run that holds a task after an update that leaves its task claimable is one that the
update has not named, and it held the task before. -/
theorem AgentRun.Written.holds {runID : String} (h : run.Written svc now taskID runID status run')
    (hholds : run'.Holds id) :
    run.isNamed taskID runID = true ∧ status = .active ∧ run.taskID = id ∨
      run.isNamed taskID runID = false ∧ run.Holds id := by
  cases hnamed : run.isNamed taskID runID with
  | true =>
      obtain rfl := h.named hnamed
      exact Or.inl ⟨rfl, hholds.2.2, hholds.1⟩
  | false => exact Or.inr ⟨rfl, (h.other hnamed).1.holds hholds⟩

theorem exclusive_update {env : Env} {actor : String} {update : TaskUpdate}
    {hash : Option Digest} (h : db.Exclusive)
    (hrun : (updateTx svc env taskID update actor hash).run db = .ok (status, db'))
    (hfree : ∀ task, db.task? taskID = some task → task.version = update.expectedVersion →
      status.claimable = true → ∀ run ∈ db.runs, run.Holds task.id →
        run.isNamed taskID update.runID = true) : db'.Exclusive := by
  have hunique := unique_updateTx hrun h.unique
  obtain ⟨current, tasks, added, runs, notes, event, base, hcurrent, hversion, -, hone, htasks,
    -, hadded, hruns, -, -, -, -, -, -, haside⟩ := updateTx_ok hrun
  obtain ⟨_, _, _, _, rfl⟩ := haside
  obtain ⟨hmem, hid⟩ := mem_of_task? hcurrent
  have hhit : bumps taskID update.expectedVersion (fun _ => true) current = true := by
    simp [bumps, hid, hversion]
  have htaskID : ∀ run run', AgentRun.Written svc env.now taskID update.runID status run run' →
      run'.taskID = run.taskID := by
    intro run run' hwritten
    exact (Prod.mk.inj (Prod.mk.inj hwritten.sameKey).2).1
  refine ⟨?_, ?_, ?_⟩
  · intro task' htask' hclaimable run' hrun' hholds
    obtain ⟨run, hold, hwritten⟩ := exists_of_forall₂ hruns hrun'
    rcases List.mem_append.mp htask' with htask' | hnew
    · obtain ⟨task, htask, hupdated⟩ := exists_of_forall₂ htasks htask'
      rw [hupdated.id] at hholds
      rcases hwritten.holds hholds with ⟨hnamed, hactive, hon⟩ | ⟨hother, hheld⟩
      · -- The update made its run active, so it left its task active too.
        have hsame : task = current := by
          refine h.eq_of_id htask hmem (hon.symm.trans ?_)
          simp only [AgentRun.isNamed, Bool.and_eq_true, decide_eq_true_eq] at hnamed
          rw [hnamed.2, hid]
        rw [(hupdated.hit (hsame ▸ hhit)).1, hactive] at hclaimable
        exact Bool.noConfusion hclaimable
      · by_cases hbumps : bumps taskID update.expectedVersion (fun _ => true) task = true
        · obtain rfl := eq_of_filter_length_one hone htask hbumps hmem hhit
          rw [(hupdated.hit hbumps).1] at hclaimable
          rw [hfree task hcurrent hversion hclaimable run hold hheld] at hother
          exact Bool.noConfusion hother
        · obtain ⟨link, rfl⟩ := hupdated.miss (Bool.eq_false_iff.mpr hbumps)
          exact h.free task htask hclaimable run hold hheld
    · -- A run on the next occurrence would have had a task before.
      obtain ⟨row, hrow, howned⟩ := h.owned run hold
      refine (hadded task' hnew).2 row hrow (howned.trans ?_)
      rw [← htaskID _ _ hwritten, hholds.1]
  · intro run' hrun'
    obtain ⟨run, hold, hwritten⟩ := exists_of_forall₂ hruns hrun'
    obtain ⟨task, htask, howned⟩ := h.owned run hold
    obtain ⟨task', htask', hupdated⟩ := exists_next_of_forall₂ htasks htask
    refine ⟨task', List.mem_append_left _ htask', ?_⟩
    rw [hupdated.id, howned, htaskID _ _ hwritten]
  · exact hunique

/-- A review of a task that is not stale ends the run that holds it, where that is the one it
names. -/
theorem free_of_review {env : Env} {controlID : String} {request : ReviewRequeueRequest}
    {principal : Principal} (h : db.Exclusive)
    (hrun : (reviewAndRequeueTx svc env taskID request principal).run db = .ok (controlID, db'))
    (hfree : ∀ run ∈ db.runs, run.Holds taskID → db.run? request.targetRunID = some run) :
    ∀ run ∈ db'.runs, ¬run.Holds taskID := by
  intro run' hrun' hholds
  obtain ⟨current, target, hcurrent, -, htarget, -, hruns, hends⟩ := reviewAndRequeueTx_ok hrun
  obtain ⟨hmem, hid⟩ := mem_of_task? hcurrent
  obtain ⟨run, hold, hsame, hheld⟩ := exists_holds hruns hrun' hholds
  by_cases hstale : current.status = .stale
  · exact h.free current hmem (by simp [hstale, TaskStatus.claimable]) run hold (hid ▸ hheld)
  · have hrow := hfree run hold hheld
    -- The run that holds the task is the first row with its identifier, so the review finds it.
    have hnamed : run.id = request.targetRunID := by simpa using List.find?_some hrow
    have hfirst : (db.runs.find? fun row => row.id = request.targetRunID ∧ row.taskID = taskID) =
        some run := by
      refine find?_of_imp hrow (by simp [hnamed, hheld.1]) ?_
      intro row hboth
      simp only [decide_eq_true_eq] at hboth ⊢
      exact hboth.1
    have hfound : target = run := Option.some_inj.mp (htarget.symm.trans hfirst)
    subst hfound
    exact hends hstale hheld.2.1 run' hrun' hsame.symm hholds.1 hholds.2.1

/-- Where an operation moves a task to a status in which it may be claimed, no run holds the
task afterwards. -/
theorem free_of_moves {op : Op} (h : db.Exclusive)
    (hop : op.LeavesFree db) (hmoves : op.Moves db current status)
    (htasks : List.Forall₂ (Task.Shifts current status) db.tasks (op.step svc db).tasks)
    (hruns : List.Forall₂ AgentRun.Follows db.runs (op.step svc db).runs)
    (hclaimable : status.claimable = true) :
    ∀ run ∈ (op.step svc db).runs, ¬run.Holds current.id := by
  have hkept (hbefore : ∀ run ∈ db.runs, ¬run.Holds current.id) :
      ∀ run ∈ (op.step svc db).runs, ¬run.Holds current.id := by
    intro run' hrun' hholds
    obtain ⟨run, hrun, -, hheld⟩ := exists_holds hruns hrun' hholds
    exact hbefore run hrun hheld
  cases op with
  | escalate env taskID request principal =>
      obtain ⟨-, -, rfl, -⟩ := hmoves
      exact Bool.noConfusion hclaimable
  | resolve env taskID escalationID request principal delegatedBy =>
      obtain ⟨hcurrent, -⟩ := hmoves
      exact hkept ((mem_of_task? hcurrent).2 ▸ hop)
  | updateControl env controlID request principal =>
      obtain ⟨item, hitem, -, hcurrent, hkind⟩ := hmoves
      refine hkept ((mem_of_task? hcurrent).2 ▸ hop item hitem ?_)
      cases hk : item.kind with
      | pause =>
          rw [hk] at hkind
          rw [hkind.2] at hclaimable
          exact Bool.noConfusion hclaimable
      | cancel =>
          rw [hk] at hkind
          rw [hkind.2] at hclaimable
          exact Bool.noConfusion hclaimable
      | resume => exact Or.inl rfl
      | retry => exact Or.inr rfl
  | reviewAndRequeue env taskID request principal =>
      obtain ⟨hcurrent, -, -⟩ := hmoves
      obtain ⟨hmem, hid⟩ := mem_of_task? hcurrent
      rcases Call.atMost_then_quiet atMost_reviewAndRequeueFor (fun _ => Call.quiet_pure _) db
        with hsame | ⟨controlID, hrun⟩
      · -- The version of the task has moved, so the database is not the same.
        replace hsame : (Op.reviewAndRequeue env taskID request principal).step svc db = db := hsame
        rw [hsame] at htasks
        have hversion := ((List.forall₂_same.mp htasks current hmem).hit rfl).2
        omega
      · rw [hid]
        exact free_of_review h hrun hop
  | _ => exact hmoves.elim

theorem exclusive_step (op : Op) (db : Db) (hop : op.LeavesFree db) (h : db.Exclusive) :
    (op.step svc db).Exclusive := by
  cases (op.effect db : op.Effect svc db (op.step svc db)) with
  | still htasks hruns => exact exclusive_still h htasks hruns
  | move current status hmoves htasks hruns =>
      exact exclusive_move h htasks hruns (free_of_moves h hop hmoves htasks hruns)
  | claim current run hmem hclaimable htasks htask hruns =>
      exact exclusive_claim h hmem htasks htask hruns
  | record task added hfresh hlink htasks hruns hstatus =>
      exact exclusive_record h hfresh htasks hruns hstatus
  | sweep env hop htasks hruns => exact exclusive_sweep h htasks hruns
  | update env taskID request principal hsame hupdates =>
      subst hsame
      obtain ⟨update, hash, status, db1, hvalid, hrun, hplain⟩ := hupdates
      obtain ⟨hexpected, hnamed, -, -, hnext⟩ := validateUpdate_ok hvalid
      obtain ⟨current, _, _, _, _, _, _, hcurrent, -, hstatus, -⟩ := updateTx_ok hrun
      refine exclusive_still (exclusive_update h hrun ?_) hplain.tasks hplain.still.runs
      intro task htask hversion hclaimable run hold hheld
      obtain rfl : current = task := Option.some_inj.mp (hcurrent.symm.trans htask)
      rw [hstatus, hnext] at hclaimable
      rw [hnamed]
      exact hop current htask (hversion.trans hexpected) hclaimable run hold hheld

theorem exclusive_of_reachable (h : Reachable svc Op.LeavesFree db) : db.Exclusive :=
  h.invariant (P := Db.Exclusive) ⟨by simp, by simp, List.nodup_nil⟩ exclusive_step

end Step

/-- **A claim is exclusive.** In a state that is reached by operations that put no task back into
the queue while another run holds it, the run that a successful claim opens is open and active,
and no other run of the task is. -/
theorem claimed_run_is_only_holder {svc : Service} {env : Env} {taskID : String}
    {request : ClaimRequest} {principal : Principal} {db db' : Db} {view : TaskView}
    {run : AgentRun} (hreach : Reachable svc Op.LeavesFree db)
    (hclaim : (claimFor svc env taskID request principal).exec db = (.ok (view, run), db'))
    (hnew : ∀ row ∈ db.runs, row.id ≠ run.id) :
    (∃ row ∈ db'.runs, row.id = run.id ∧ row.taskID = view.id ∧ row.endedAt = none ∧
      row.status = .active ∧ row.leaseExpires = env.now + svc.leaseDuration) ∧
    ∀ row ∈ db'.runs, row.taskID = view.id → row.endedAt = none → row.status = .active →
      env.now ≤ row.leaseExpires → row.id = run.id := by
  have hexclusive := exclusive_of_reachable hreach
  obtain ⟨hview, hrun, task, checked, agent, hash, u, htask, hclaimable, hclaims⟩ :=
    claimFor_ok hclaim hnew
  obtain ⟨_, sessionID, callsign, event, -, -, -, -, -, -, -, -, -, haside⟩ := claimTx_ok hclaims
  obtain ⟨hmem, hid⟩ := mem_of_task? htask
  obtain ⟨_, _, _, _, rfl⟩ := haside
  rw [hview, hrun]
  constructor
  · exact ⟨_, List.mem_append_right _ (List.mem_singleton.mpr rfl), rfl, rfl, rfl, rfl, rfl⟩
  · intro row hrow hon hopen hactive _
    rcases List.mem_append.mp hrow with hold | hadded
    · exact absurd ⟨hid ▸ hon, hopen, hactive⟩ (hexclusive.free task hmem hclaimable row hold)
    · rw [List.mem_singleton.mp hadded]
      rfl

/-- A person puts a task into the queue of the agents. -/
def offerOp : Op :=
  .create (.numbered 1 0) { title := "Fix the login", visibility := "agent" }
    (humanPrincipal "ann" .owner)

theorem offered_task_is_claimed_alone :
    ∃ view run db', (claimFor .ascii (.numbered 2 100) "0100" { expectedVersion := 1 }
      (sampleAgent "builder")).exec (Op.run .ascii [offerOp] {}) = (.ok (view, run), db') ∧
      ∀ row ∈ db'.runs, row.taskID = view.id → row.endedAt = none → row.status = .active →
        100 ≤ row.leaseExpires → row.id = run.id := by
  have hok : ((claimFor .ascii (.numbered 2 100) "0100" { expectedVersion := 1 }
      (sampleAgent "builder")).exec (Op.run .ascii [offerOp] {})).1.isOk = true := by
    decide +kernel
  have hnone : (Op.run .ascii [offerOp] {}).runs = [] := by decide +kernel
  have hreach : Reachable .ascii Op.LeavesFree (Op.run .ascii [offerOp] {}) :=
    Reachable.step .refl offerOp trivial
  rcases hclaim : (claimFor .ascii (.numbered 2 100) "0100" { expectedVersion := 1 }
    (sampleAgent "builder")).exec (Op.run .ascii [offerOp] {}) with ⟨r, db'⟩
  rw [hclaim] at hok
  cases r with
  | error e => exact Bool.noConfusion hok
  | ok pair =>
      exact ⟨pair.1, pair.2, db', rfl,
        (claimed_run_is_only_holder hreach hclaim (by simp [hnone])).2⟩

/-- A person puts a task back into the queue on which an agent still works. -/
def requeueOp : Op :=
  .update (.numbered 2 100) "0100" { expectedVersion := 1, status := "queued" }
    (humanPrincipal "ann" .owner)

/-- Another agent claims the task, and two runs on it are open, active and within their
leases. -/
theorem requeued_task_is_held_twice :
    Reachable .ascii (fun _ _ => True) (Op.run .ascii [startOp, requeueOp] {}) ∧
      (((claimFor .ascii (.numbered 3 200) "0100" { expectedVersion := 2 }
        (sampleAgent "helper")).exec (Op.run .ascii [startOp, requeueOp] {})).1.isOk = true) ∧
      ((((claimFor .ascii (.numbered 3 200) "0100" { expectedVersion := 2 }
        (sampleAgent "helper")).exec (Op.run .ascii [startOp, requeueOp] {})).2.runs.filter
          fun row => row.taskID = "0100" ∧ row.endedAt = none ∧ row.status = .active ∧
            200 ≤ row.leaseExpires).map (·.id)) = ["0101", "0300"] :=
  ⟨reachable_run _ _, by decide +kernel, by decide +kernel⟩

end Taskboard
