import Taskboard.Edits

/-!
# Leases: heartbeats and the stale sweep

A run keeps its lease by heartbeats. The sweep ends active runs whose lease has passed and
marks the tasks they leave behind as stale. Its two updates are statements of their own,
outside a transaction.
-/

namespace Taskboard

variable {now : Instant}

variable {lg : List Ledger}

/-- `Heartbeat`. -/
def heartbeat (svc : Service) (env : Env) (taskID runID : String) : CallM AgentRun := do
  let count ← Call.tx (runTable.updateWhere
    (fun _ run => run.id = trimSpace runID && run.taskID = trimSpace taskID &&
      run.endedAt.isNone && run.status = .active)
    fun run => { run with leaseExpires := env.now + svc.leaseDuration, lastHeartbeat := env.now })
  refuse (count ≠ 1) ServiceError.notFound
  let task ← getTask svc env.now taskID
  match task.runs.find? fun run => run.id = runID with
  | some run => pure run
  | none => Call.fail .notFound

/-- `HeartbeatFor`, without the progress report and the pending messages of its answer.
Listing the pending controls of an agent expires those whose time has passed. -/
def heartbeatFor (svc : Service) (env : Env) (taskID runID : String) (principal : Principal) :
    CallM AgentRun := do
  refuse (!principal.agent) ErrForbidden
  let task ← getForHidden svc env.checked taskID principal
  refuse (!canMutate task.toTask principal) ErrForbidden
  refuse (!holdsLease task.runs runID principal env.checked &&
      !principal.hasCapability .taskUpdate)
    (missingCapability "task:update" "heartbeat a run whose lease has lapsed")
  match task.runs.find? fun run => run.id = trimSpace runID ∧ run.agent = principal.id with
  | none => Call.fail .notFound
  | some run => do
      refuse (0 < principal.policy.maxRunDuration ∧
          principal.policy.maxRunDuration ≤ env.checked - run.startedAt)
        (ServiceError.rateLimit "maximum run duration is %s" principal.policy.maxRunDuration)
      let updated ← heartbeat svc env taskID runID
      (if principal.hasCapability .taskControl then expireRunControls svc env.now env.newID
      else pure ())
      pure updated

/-- An active run whose lease has passed, as the database compares the times. -/
def Service.expiredAt (svc : Service) (now : Instant) (run : AgentRun) : Bool :=
  run.endedAt.isNone && run.status = .active && svc.before run.leaseExpires now

/-- What the sweep writes to a run whose lease has passed. -/
def AgentRun.swept (now : Instant) (run : AgentRun) : AgentRun :=
  { run with status := .stale, endedAt := some now }

/-- The first statement of the sweep. -/
def endExpiredRuns (svc : Service) (now : Instant) : TxM Nat :=
  runTable.updateWhere (fun _ run => svc.expiredAt now run) (AgentRun.swept now)

/-- The tasks that the second statement of the sweep selects: active ones with a stale run
in their history and without a live run. -/
def Service.sweepsTask (svc : Service) (now : Instant) (db : Db) (task : Task) : Bool :=
  task.status = .active &&
    (db.runs.any fun run => run.taskID = task.id && run.status = .stale) &&
    !db.runs.any fun run => run.taskID = task.id && svc.liveAt now run

/-- What the sweep writes to a task that it selects. -/
def Task.swept (now : Instant) (task : Task) : Task :=
  { task with status := .stale, version := task.version + 1, updatedAt := now }

/-- The second statement of the sweep. -/
def markStaleTasks (svc : Service) (now : Instant) : TxM Nat :=
  taskTable.updateWhere (fun db task => svc.sweepsTask now db task) (Task.swept now)

/-- The loop of the sweep that leaves a handoff for every run it ended; its errors are
dropped. -/
def deriveHandoffs (svc : Service) (now : Instant) (newID : Nat → String) :
    Nat → List AgentRun → CallM Unit
  | _, [] => pure ()
  | index, run :: rest => do
      let _ ← (ensureDerivedHandoff svc now (newID (2 * index)) (newID (2 * index + 1))
        run.taskID run.id .stale).attempt
      deriveHandoffs svc now newID (index + 1) rest

/-- `SweepStale`; the result is the number of runs it ended. -/
def sweepStale (svc : Service) (env : Env) : CallM Nat := do
  let expired ← Call.look fun db => db.runs.filter fun run => svc.expiredAt env.now run
  let count ← Call.tx (endExpiredRuns svc env.now)
  let _ ← Call.tx (markStaleTasks svc env.now)
  deriveHandoffs svc env.now env.newID 0 expired
  pure count

section Footprints

variable {svc : Service} {env : Env} {taskID runID : String} {principal : Principal}
  {tk : List Task → List Task → Prop}

theorem each_heartbeat [IsPreorder _ tk] : (heartbeat svc env taskID runID).Each
    (Footprint lg tk (List.Forall₂ AgentRun.Follows) Event.Unkeyed) := by
  refine Call.each_bind (Call.each_tx fun _ _ => Tx.Each.run ?_) fun _ => ?_
  · refine Table.each_updateWhere fun db =>
      { Footprint.refl lg tk (List.Forall₂ AgentRun.Follows) Event.Unkeyed db with
        runs := forall₂_mapWhere fun run _ hrun => ?_ }
    have hopen : run.endedAt = none := by
      simp only [Bool.and_eq_true, Option.isNone_iff_eq_none] at hrun
      exact hrun.1.2
    exact ⟨rfl, rfl, rfl, rfl, Or.inl ⟨rfl, rfl, fun hended => absurd hopen hended⟩⟩
  · refine Call.each_lift_bind fun _ _ => ?_
    refine Call.each_bind quiet_getTask.each fun task => ?_
    split
    · exact (Call.quiet_pure _).each
    · exact (Call.quiet_fail _).each

theorem each_heartbeatFor [IsPreorder _ tk] : (heartbeatFor svc env taskID runID principal).Each
    (Footprint [.controls] tk (List.Forall₂ AgentRun.Follows) Event.Unkeyed) := by
  refine Call.each_lift_bind fun _ _ => ?_
  refine Call.each_bind quiet_getForHidden.each fun task => ?_
  refine Call.each_lift_bind fun _ _ => ?_
  refine Call.each_lift_bind fun _ _ => ?_
  split
  · exact (Call.quiet_fail _).each
  · refine Call.each_lift_bind fun _ _ => ?_
    refine Call.each_bind each_heartbeat fun _ => ?_
    exact Call.each_bind (Call.each_ite (each_expireRunControls fun _ h => h) (Call.quiet_pure _).each)
      fun _ => (Call.quiet_pure _).each

theorem steady_endExpiredRuns :
    (endExpiredRuns svc now).Each (Steady lg Event.Unkeyed) := by
  refine Table.each_updateWhere fun db => { refl_of (Steady lg Event.Unkeyed) db with
    runs := forall₂_mapWhere fun run _ hrun => ?_ }
  have hopen : run.endedAt = none := by
    simp only [Service.expiredAt, Bool.and_eq_true, Option.isNone_iff_eq_none] at hrun
    exact hrun.1.1
  exact ⟨rfl, rfl, rfl, rfl, Or.inr ⟨hopen, Option.some_ne_none _⟩⟩

theorem steady_markStaleTasks :
    (markStaleTasks svc now).Each (Steady lg Event.Unkeyed) :=
  Table.each_updateWhere fun db => { refl_of (Steady lg Event.Unkeyed) db with
    tasks := forall₂_mapWhere fun _ _ _ => rfl
    samePosts := fun _ => map_mapWhere fun _ => rfl }

theorem each_deriveHandoffs
    {rn : List AgentRun → List AgentRun → Prop} [IsPreorder _ tk] [IsPreorder _ rn]
    {newID : Nat → String} (index : Nat) (runs : List AgentRun) :
    (deriveHandoffs svc now newID index runs).Each (Footprint [.handoffs] tk rn Event.Unkeyed) := by
  induction runs generalizing index with
  | nil => exact (Call.quiet_pure _).each
  | cons run rest ih =>
      exact Call.each_bind (Call.each_attempt (each_ensureDerivedHandoff fun _ h => h))
        fun _ => ih _

/-- The database after the first statement of the sweep. -/
def Service.lapsed (svc : Service) (now : Instant) (db : Db) : Db :=
  { db with runs := mapWhere (svc.expiredAt now) (AgentRun.swept now) db.runs }

/-- The database after the two statements of the sweep. -/
def Service.swept (svc : Service) (now : Instant) (db : Db) : Db :=
  { svc.lapsed now db with
    tasks := mapWhere (svc.sweepsTask now (svc.lapsed now db)) (Task.swept now) db.tasks }

theorem exec_endExpiredRuns (svc : Service) (now : Instant) (db : Db) :
    ∃ n, (Call.tx (endExpiredRuns svc now) : CallM Nat).exec db = (.ok n, svc.lapsed now db) := by
  have hrun : (endExpiredRuns svc now).run db = .ok (_, svc.lapsed now db) :=
    Table.run_updateWhere_ok.mpr ⟨rfl, rfl⟩
  exact ⟨_, (Call.exec_tx _ _).trans (by rw [hrun])⟩

theorem exec_markStaleTasks (svc : Service) (now : Instant) (db : Db) :
    ∃ n, (Call.tx (markStaleTasks svc now) : CallM Nat).exec (svc.lapsed now db) =
      (.ok n, svc.swept now db) := by
  have hrun : (markStaleTasks svc now).run (svc.lapsed now db) = .ok (_, svc.swept now db) :=
    Table.run_updateWhere_ok.mpr ⟨rfl, rfl⟩
  exact ⟨_, (Call.exec_tx _ _).trans (by rw [hrun])⟩

/-- The sweep comes to its loop with the runs that it has found. -/
theorem exec_sweepStale_loop (db : Db) :
    ((sweepStale svc env).exec db).2 = ((deriveHandoffs svc env.now env.newID 0
      (db.runs.filter (svc.expiredAt env.now))).exec (svc.swept env.now db)).2 := by
  obtain ⟨n, hended⟩ := exec_endExpiredRuns svc env.now db
  obtain ⟨m, hmarked⟩ := exec_markStaleTasks svc env.now db
  unfold sweepStale
  rw [Call.exec_bind_of_ok (Call.exec_look _ _), Call.exec_bind_of_ok hended,
    Call.exec_bind_of_ok hmarked, Call.exec_bind_pure_snd]

/-- **The sweep, run alone.** What comes after its two statements leaves tasks and runs as
they are. -/
theorem exec_sweepStale (db : Db) :
    Footprint [.handoffs] Eq Eq Event.Unkeyed (svc.swept env.now db)
      ((sweepStale svc env).exec db).2 := by
  rw [exec_sweepStale_loop]
  exact (each_deriveHandoffs _ _).exec _

theorem steady_sweepStale : (sweepStale svc env).Each (Steady [.handoffs] Event.Unkeyed) := by
  refine Call.each_bind (Call.quiet_look _).each fun expired => ?_
  refine Call.each_bind (Call.each_tx fun _ _ => steady_endExpiredRuns.run) fun _ => ?_
  refine Call.each_bind (Call.each_tx fun _ _ => steady_markStaleTasks.run) fun _ => ?_
  exact Call.each_bind (each_deriveHandoffs _ _) fun _ => (Call.quiet_pure _).each

end Footprints

end Taskboard
