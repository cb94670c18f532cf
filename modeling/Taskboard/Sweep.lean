import Taskboard.RunLife

/-!
# What a sweep does to tasks

The second statement of the sweep selects active tasks by the history of their runs: a run
that is stale, and none that is live. It does not ask that the stale run is one that the
first statement has just ended. The sweep therefore touches only tasks whose run it ended
exactly in those states where every active task with a stale run has an open active run.
-/

namespace Taskboard

variable {run : AgentRun} {id : String}

variable {svc : Service} {now : Instant} {env : Env} {db : Db}

/-- The sweep ended a run of this task: an active one whose lease had passed. -/
def Service.EndsRunOf (svc : Service) (env : Env) (db : Db) (id : String) : Prop :=
  ∃ run ∈ db.runs, run.taskID = id ∧ svc.expiredAt env.now run = true ∧
    run.swept env.now ∈ ((sweepStale svc env).exec db).2.runs

/-- The sweep leaves the status and the version of a task as they are, unless it ended a run
of the task. -/
def Service.SweepsOwn (svc : Service) (env : Env) (db : Db) : Prop :=
  ∀ id task task', db.task? id = some task →
    ((sweepStale svc env).exec db).2.task? id = some task' →
    task'.status ≠ task.status ∨ task'.version ≠ task.version → svc.EndsRunOf env db id

/-- Every active task with a stale run also has an open active run. -/
def Db.StaleOutrun (db : Db) : Prop :=
  ∀ id task, db.task? id = some task → task.status = .active →
    (∃ run ∈ db.runs, run.taskID = id ∧ run.status = .stale) →
      ∃ run ∈ db.runs, run.taskID = id ∧ run.endedAt = none ∧ run.status = .active

/-- The task after a sweep. -/
theorem task?_sweepStale :
    ((sweepStale svc env).exec db).2.task? id = (db.task? id).map fun task =>
      if svc.sweepsTask env.now (svc.lapsed env.now db) task then task.swept env.now else task := by
  rw [Db.task?, ← (exec_sweepStale db).tasks]
  exact find?_mapWhere fun _ => rfl

theorem endsRunOf_iff :
    svc.EndsRunOf env db id ↔
      ∃ run ∈ db.runs, run.taskID = id ∧ svc.expiredAt env.now run = true := by
  constructor
  · rintro ⟨run, hrun, hid, hexpired, -⟩
    exact ⟨run, hrun, hid, hexpired⟩
  · rintro ⟨run, hrun, hid, hexpired⟩
    refine ⟨run, hrun, hid, hexpired, ?_⟩
    rw [← (exec_sweepStale db).runs]
    exact List.mem_map.mpr ⟨run, hrun, if_pos hexpired⟩

/-- An open active run is live or its lease has passed. -/
theorem live_or_expired (hopen : run.endedAt = none)
    (hactive : run.status = .active) : svc.liveAt now run = true ∨ svc.expiredAt now run = true := by
  cases hb : svc.before run.leaseExpires now <;>
    simp [Service.liveAt, Service.expiredAt, hopen, hactive, hb]

/-- A run of the task after the first statement, where that ended none of its runs. -/
theorem mem_lapsed (hnone : ∀ run ∈ db.runs, run.taskID = id → svc.expiredAt now run = false)
    (hid : run.taskID = id) : run ∈ (svc.lapsed now db).runs ↔ run ∈ db.runs := by
  simp only [Service.lapsed, mapWhere, List.mem_map]
  constructor
  · rintro ⟨r, hr, rfl⟩
    split at hid
    · rename_i hexpired
      exact absurd (hnone r hr hid) (by simp [hexpired])
    · rwa [if_neg ‹_›]
  · exact fun hrun => ⟨run, hrun, if_neg (by simp [hnone run hrun hid])⟩

/-- Which tasks the second statement selects, among those without a run that the first one
ended. -/
theorem sweepsTask_iff {task : Task}
    (hnone : ∀ run ∈ db.runs, run.taskID = task.id → svc.expiredAt now run = false) :
    svc.sweepsTask now (svc.lapsed now db) task = true ↔ task.status = .active ∧
      (∃ run ∈ db.runs, run.taskID = task.id ∧ run.status = .stale) ∧
      ¬∃ run ∈ db.runs, run.taskID = task.id ∧ run.endedAt = none ∧ run.status = .active := by
  have hstale : (∃ run ∈ (svc.lapsed now db).runs, run.taskID = task.id ∧ run.status = .stale) ↔
      ∃ run ∈ db.runs, run.taskID = task.id ∧ run.status = .stale :=
    exists_congr fun run => and_congr_left fun h => mem_lapsed hnone h.1
  have hlive : (∃ run ∈ (svc.lapsed now db).runs, run.taskID = task.id ∧ svc.liveAt now run = true) ↔
      ∃ run ∈ db.runs, run.taskID = task.id ∧ run.endedAt = none ∧ run.status = .active := by
    constructor
    · rintro ⟨run, hrun, hid, hlive⟩
      simp only [Service.liveAt, Bool.and_eq_true, Option.isNone_iff_eq_none,
        decide_eq_true_eq] at hlive
      exact ⟨run, (mem_lapsed hnone hid).mp hrun, hid, hlive.1.1, hlive.1.2⟩
    · rintro ⟨run, hrun, hid, hopen, hactive⟩
      refine ⟨run, (mem_lapsed hnone hid).mpr hrun, hid, ?_⟩
      exact (live_or_expired hopen hactive).resolve_right (by simp [hnone run hrun hid])
  rw [← hstale, ← hlive]
  simp [Service.sweepsTask, and_assoc]

/-- **A sweep touches its own tasks only where stale runs are outrun.** It changes the status
or the version of no task but those of which it has just ended a run, exactly in the states
where every active task with a stale run also has an open active run. -/
theorem sweepsOwn_iff_staleOutrun (svc : Service) (env : Env) (db : Db) :
    svc.SweepsOwn env db ↔ db.StaleOutrun := by
  constructor
  · intro hown id task htask hactive hstale
    by_contra hopen
    have hid : task.id = id := by simpa using List.find?_some htask
    subst hid
    -- No run of the task is open and active, so the first statement ends none of them.
    have hnone : ∀ run ∈ db.runs, run.taskID = task.id → svc.expiredAt env.now run = false := by
      intro run hrun hid
      by_contra hexpired
      simp only [Service.expiredAt, Bool.not_eq_false, Bool.and_eq_true,
        Option.isNone_iff_eq_none, decide_eq_true_eq] at hexpired
      exact hopen ⟨run, hrun, hid, hexpired.1⟩
    have hsweeps := (sweepsTask_iff hnone).mpr ⟨hactive, hstale, hopen⟩
    have htask' : ((sweepStale svc env).exec db).2.task? task.id = some (task.swept env.now) := by
      rw [task?_sweepStale, htask, Option.map_some, if_pos hsweeps]
    obtain ⟨run, hrun, hid, hexpired⟩ := endsRunOf_iff.mp
      (hown task.id task _ htask htask' (Or.inl (by simp [Task.swept, hactive])))
    simp [hnone run hrun hid] at hexpired
  · intro houtrun id task task' htask htask' hchanged
    have hid : task.id = id := by simpa using List.find?_some htask
    subst hid
    by_contra hends
    rw [endsRunOf_iff] at hends
    have hnone : ∀ run ∈ db.runs, run.taskID = task.id → svc.expiredAt env.now run = false :=
      fun run hrun hid => by
        by_contra hexpired
        exact hends ⟨run, hrun, hid, by simpa using hexpired⟩
    rw [task?_sweepStale, htask, Option.map_some, Option.some_inj] at htask'
    by_cases hsweeps : svc.sweepsTask env.now (svc.lapsed env.now db) task = true
    · obtain ⟨hactive, hstale, hopen⟩ := (sweepsTask_iff hnone).mp hsweeps
      exact hopen (houtrun task.id task htask hactive hstale)
    · rw [if_neg hsweeps] at htask'
      subst htask'
      simp at hchanged

/-- A person takes up a task again that a sweep has left stale, without a run. -/
def readoptedOps : List Op :=
  [startOp, .sweep (.numbered 2 hour),
    .update (.numbered 3 (2 * hour)) "0100" { expectedVersion := 2, status := "active" }
      (humanPrincipal "ann" .owner)]

/-- The next sweep makes the task stale although it ends no run. -/
theorem readopted_task_is_swept :
    Reachable .ascii (fun _ _ => True) (Op.run .ascii readoptedOps {}) ∧
      ((Op.run .ascii readoptedOps {}).task? "0100").map (fun task => (task.status, task.version)) =
        some (.active, 3) ∧
      (((sweepStale .ascii (.numbered 4 (3 * hour))).exec (Op.run .ascii readoptedOps {})).2.task?
        "0100").map (fun task => (task.status, task.version)) = some (.stale, 4) ∧
      ¬Service.SweepsOwn .ascii (.numbered 4 (3 * hour)) (Op.run .ascii readoptedOps {}) := by
  have hbefore : ((Op.run .ascii readoptedOps {}).task? "0100").map
      (fun task => (task.status, task.version)) = some (.active, 3) := by decide +kernel
  have hafter : (((sweepStale .ascii (.numbered 4 (3 * hour))).exec
      (Op.run .ascii readoptedOps {})).2.task? "0100").map
      (fun task => (task.status, task.version)) = some (.stale, 4) := by decide +kernel
  have hnone : ∀ run ∈ (Op.run .ascii readoptedOps {}).runs,
      Service.ascii.expiredAt (3 * hour) run = false := by decide +kernel
  refine ⟨reachable_run _ _, hbefore, hafter, fun hown => ?_⟩
  obtain ⟨task, htask, heq⟩ := Option.map_eq_some_iff.mp hbefore
  obtain ⟨task', htask', heq'⟩ := Option.map_eq_some_iff.mp hafter
  have hversion : task'.version ≠ task.version := by
    simp only [Prod.mk.injEq] at heq heq'
    rw [heq.2, heq'.2]
    decide
  obtain ⟨run, hrun, -, hexpired, -⟩ := hown _ _ _ htask htask' (Or.inr hversion)
  exact Bool.noConfusion ((hnone run hrun).symm.trans hexpired)

end Taskboard
