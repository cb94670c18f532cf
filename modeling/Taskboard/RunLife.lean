import Taskboard.Operations

/-!
# The life of a run

A run is opened by a start or a claim, keeps its lease by heartbeats, and ends. Every
operation but the general update only moves it forward: `AgentRun.Follows`. The update
writes the run it names from the status it leaves the task in and looks at nothing the run
was before, so two things hold of it under a condition only: that a run that has ended stays
ended, and that a run that has not ended is active and can be swept.
-/

namespace Taskboard

variable {run : AgentRun} {db : Db} {env : Env} {svc : Service} {id : String}

/-- The run with this identifier. -/
def Db.run? (db : Db) (id : String) : Option AgentRun :=
  db.runs.find? fun run => run.id = id

section Update

variable {taskID actor : String} {request : UpdateRequest} {principal : Principal} {db' : Db}

/-- An update runs as `Updates` says or leaves the database alone. -/
theorem step_update :
    (Op.update env taskID request principal).step svc db = db ∨
      Updates svc env taskID request principal.id db
        ((Op.update env taskID request principal).step svc db) :=
  Call.atMost_then_quiet atMost_updateFor (fun _ => Call.quiet_pure _) db

/-- An update finds its task at the version it was sent, and writes the runs from the status
it leaves the task in. -/
theorem Updates.written (h : Updates svc env taskID request actor db db') :
    ∃ current, db.task? (trimSpace taskID) = some current ∧
      current.version = request.expectedVersion ∧
      List.Forall₂ (fun run run' => ∃ mid,
        run.Written svc env.now (trimSpace taskID) request.runID
          (request.nextStatus current.status) mid ∧ mid.SameLease run') db.runs db'.runs := by
  obtain ⟨update, hash, status, db1, hvalid, hrun, hplain⟩ := h
  obtain ⟨current, tasks, added, runs, notes, event, base, hcurrent, hversion, hstatus, -, -, -, -,
    hruns, -, -, -, -, -, -, haside⟩ := updateTx_ok hrun
  obtain ⟨hexpected, hnamed, -, -, hnext⟩ := validateUpdate_ok hvalid
  rw [hstatus, hnamed, hnext] at hruns
  obtain ⟨_, _, _, _, rfl⟩ := haside
  exact ⟨current, hcurrent, hversion.trans hexpected, forall₂_comp hruns hplain.runs⟩

end Update

/-- The same run; where it had ended, it is still ended, and its lease is no later. -/
def AgentRun.StaysEnded (run run' : AgentRun) : Prop :=
  run'.id = run.id ∧
    (run.endedAt ≠ none → run'.endedAt ≠ none ∧ run'.leaseExpires ≤ run.leaseExpires)

instance : IsPreorder AgentRun AgentRun.StaysEnded where
  refl _ := ⟨rfl, fun h => ⟨h, le_rfl⟩⟩
  trans _ _ _ h h' := by
    refine ⟨h'.1.trans h.1, fun hended => ?_⟩
    obtain ⟨hended', hle⟩ := h.2 hended
    obtain ⟨hended'', hle'⟩ := h'.2 hended'
    exact ⟨hended'', hle'.trans hle⟩

theorem AgentRun.Follows.staysEnded {run' : AgentRun} (h : run.Follows run') :
    run.StaysEnded run' := by
  refine ⟨h.id, fun hended => ?_⟩
  rcases h.life with ⟨-, he, hl⟩ | ⟨hopen, -⟩
  · exact ⟨he ▸ hended, (hl hended).le⟩
  · exact absurd hopen hended

/-- The runs that have ended stay so. -/
def EndedStay (db db' : Db) : Prop :=
  Evolves AgentRun.StaysEnded (fun _ => True) db.runs db'.runs

instance : IsPreorder Db EndedStay where
  refl db := refl_of (Evolves _ _) db.runs
  trans _ _ _ h h' := trans_of (Evolves _ _) h h'

/-- The update is sent for another version of its task, or it names no run that has ended, or
it leaves the task in a status that ends runs while the lease of that run has not passed. -/
def Op.SparesEnded (op : Op) (db : Db) : Prop :=
  match op with
  | .update env taskID request _ =>
      ∀ task run, db.task? (trimSpace taskID) = some task →
        task.version = request.expectedVersion → run ∈ db.runs →
        run.isNamed (trimSpace taskID) request.runID = true → run.endedAt ≠ none →
        (request.nextStatus task.status).endsRun = true ∧ env.now ≤ run.leaseExpires
  | _ => True

theorem endedStay_step (op : Op) (db : Db) (hop : op.SparesEnded db) :
    EndedStay db (op.step svc db) := by
  by_cases hupdate : op.operation = "task_update"
  · cases op with
    | update env taskID request principal =>
        rcases eq_or_ne ((Op.update env taskID request principal).step svc db) db with hsame | hne
        · rw [hsame]
          exact refl_of EndedStay db
        obtain ⟨current, hcurrent, hversion, hruns⟩ := (step_update.resolve_left hne).written
        refine .of_forall₂ (forall₂_imp_mem hruns fun run hmem run' ⟨mid, hwritten, hlease⟩ => ?_)
        refine trans_of AgentRun.StaysEnded ?_ hlease.follows.staysEnded
        cases hnamed : run.isNamed (trimSpace taskID) request.runID with
        | false => exact (hwritten.other hnamed).1.staysEnded
        | true =>
            obtain rfl := hwritten.named hnamed
            refine ⟨rfl, fun hended => ?_⟩
            obtain ⟨hends, hbefore⟩ := hop current run hcurrent hversion hmem hnamed hended
            simp [AgentRun.updated, hends, hbefore]
    | _ => simp [Op.operation] at hupdate
  · obtain ⟨kept, added, hrows, hkept, -⟩ := (lively_step hupdate db).runs
    exact ⟨kept, added, hrows, hkept.imp fun _ _ h => h.staysEnded, fun _ _ => trivial⟩

/-- An agent starts a task with one step. -/
def startOp : Op :=
  .start (.numbered 1 0) { title := "Fix the login", checklist := ["Find the cause"] }
    (sampleAgent "builder")

/-- The agent waits for a review, and its run ends. -/
def waitOp : Op :=
  .update (.numbered 2 100) "0100"
    { expectedVersion := 1, runID := "0101", status := "waiting", waitingFor := some "review" }
    (sampleAgent "builder")

/-- An update that names the run again. -/
def resumeOp (now : Instant) (status : String) : Op :=
  .update (.numbered 3 now) "0100"
    { expectedVersion := 2, runID := "0101", status, blocker := some "review" }
    (sampleAgent "builder")

/-- The update is sent for another version of its task, or it names no run, or it leaves the
task neither queued nor stale. -/
def Op.SettlesRun (op : Op) (db : Db) : Prop :=
  match op with
  | .update _ taskID request _ =>
      ∀ task, db.task? (trimSpace taskID) = some task → task.version = request.expectedVersion →
        request.runID ≠ "" → (request.nextStatus task.status).claimable = false
  | _ => True

theorem AgentRun.sound_updated {status : TaskStatus} {now : Instant}
    (h : status.claimable = false) : (run.updated svc status now).Sound := by
  intro hopen
  cases status <;> simp_all [AgentRun.updated, TaskStatus.endsRun, TaskStatus.claimable]

theorem sound_step (op : Op) (db : Db) (hop : op.SettlesRun db)
    (hsound : ∀ run ∈ db.runs, run.Sound) : ∀ run ∈ (op.step svc db).runs, run.Sound := by
  intro run' hrun'
  by_cases hupdate : op.operation = "task_update"
  · cases op with
    | update env taskID request principal =>
        rcases eq_or_ne ((Op.update env taskID request principal).step svc db) db with hsame | hne
        · exact hsound run' (hsame ▸ hrun')
        obtain ⟨current, hcurrent, hversion, hruns⟩ := (step_update.resolve_left hne).written
        obtain ⟨run, hrun, mid, hwritten, hlease⟩ := exists_of_forall₂ hruns hrun'
        refine hlease.follows.sound ?_
        cases hnamed : run.isNamed (trimSpace taskID) request.runID with
        | false => exact (hwritten.other hnamed).1.sound (hsound run hrun)
        | true =>
            have hne' : request.runID ≠ "" := by
              simp only [AgentRun.isNamed, Bool.and_eq_true, decide_eq_true_eq] at hnamed
              exact hnamed.1.1
            rw [hwritten.named hnamed]
            exact AgentRun.sound_updated (hop current hcurrent hversion hne')
    | _ => simp [Op.operation] at hupdate
  · obtain ⟨kept, added, hrows, hkept, hadded⟩ := (lively_step hupdate db).runs
    rcases List.mem_append.mp (hrows ▸ hrun') with hold | hnew
    · obtain ⟨run, hrun, hfollows⟩ := exists_of_forall₂ hkept hold
      exact hfollows.sound (hsound run hrun)
    · exact hadded run' hnew

/-- The run after a sweep. -/
theorem run?_sweepStale :
    ((sweepStale svc env).exec db).2.run? id = (db.run? id).map fun run =>
      if svc.expiredAt env.now run then run.swept env.now else run := by
  rw [Db.run?, ← (exec_sweepStale db).runs]
  exact find?_mapWhere fun _ => rfl

/-- A sweep ends an active run whose lease has passed. -/
theorem sweep_ends_run
    (hbefore : ∀ a b, svc.before a b = decide (a < b)) (hrun : db.run? id = some run)
    (hopen : run.endedAt = none) (hactive : run.status = .active)
    (hlease : run.leaseExpires < env.now) :
    ∃ run', ((sweepStale svc env).exec db).2.run? id = some run' ∧ run'.endedAt ≠ none := by
  refine ⟨run.swept env.now, ?_, Option.some_ne_none _⟩
  have hexpired : svc.expiredAt env.now run = true := by
    simp [Service.expiredAt, hopen, hactive, hbefore, hlease]
  rw [run?_sweepStale, hrun, Option.map_some, if_pos hexpired]

/-- **Every run that has not ended can be swept.** Where updates settle the runs they name, a
run that has not ended is active, and a sweep after its lease has passed ends it. -/
theorem open_run_is_active_and_swept {svc : Service} {db : Db} {id : String} {run : AgentRun}
    (hreach : Reachable svc Op.SettlesRun db) (hrun : db.run? id = some run)
    (hopen : run.endedAt = none) (hbefore : ∀ a b, svc.before a b = decide (a < b)) :
    run.status = .active ∧ ∀ env : Env, run.leaseExpires < env.now →
      ∃ run', ((sweepStale svc env).exec db).2.run? id = some run' ∧ run'.endedAt ≠ none := by
  have hsound : ∀ run ∈ db.runs, run.Sound :=
    hreach.invariant (P := fun db => ∀ run ∈ db.runs, run.Sound) (List.forall_mem_nil _) sound_step
  have hactive := hsound run (List.mem_of_find?_eq_some hrun) hopen
  exact ⟨hactive, fun env => sweep_ends_run hbefore hrun hopen hactive⟩

/-- An agent puts the task back in the queue, and names its run. -/
def queueOp : Op :=
  .update (.numbered 2 100) "0100" { expectedVersion := 1, runID := "0101", status := "queued" }
    (sampleAgent "builder")

theorem started_run_is_active_and_swept :
    ∃ run run', (Op.run .ascii [startOp] {}).run? "0101" = some run ∧ run.status = .active ∧
      ((sweepStale .ascii (.numbered 2 hour)).exec (Op.run .ascii [startOp] {})).2.run? "0101" =
        some run' ∧ run'.endedAt ≠ none := by
  have hsome : ((Op.run .ascii [startOp] {}).run? "0101").isSome := by decide +kernel
  obtain ⟨run, hrun⟩ := Option.isSome_iff_exists.mp hsome
  have hstate : ((Op.run .ascii [startOp] {}).run? "0101").all
      (fun run => run.endedAt = none ∧ run.leaseExpires < hour) := by decide +kernel
  simp only [hrun, Option.all_some, decide_eq_true_eq] at hstate
  have hreach : Reachable .ascii Op.SettlesRun (Op.run .ascii [startOp] {}) :=
    Reachable.step .refl startOp trivial
  obtain ⟨hactive, hsweep⟩ :=
    open_run_is_active_and_swept hreach hrun hstate.1 fun _ _ => rfl
  obtain ⟨run', hrun'⟩ := hsweep (.numbered 2 hour) hstate.2
  exact ⟨run, run', hrun, hactive, hrun'⟩

/-- An update that names a run and queues its task leaves the run open and queued, which no
sweep ends. -/
theorem queued_run_is_never_swept :
    Reachable .ascii (fun _ _ => True) (Op.run .ascii [startOp, queueOp] {}) ∧
      ((Op.run .ascii [startOp, queueOp] {}).run? "0101").map
        (fun run => (run.endedAt, run.status)) = some (none, .queued) ∧
      (((sweepStale .ascii (.numbered 3 (10 * hour))).exec
        (Op.run .ascii [startOp, queueOp] {})).2.run? "0101").map (·.endedAt) = some none :=
  ⟨reachable_run _ _, by decide +kernel, by decide +kernel⟩

end Taskboard
