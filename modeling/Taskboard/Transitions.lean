import Taskboard.RunLife

/-!
# What an operation does to tasks and runs

One operation run alone, inverted: it leaves the work as it is, moves one task to another
status, claims one, records one, sweeps, or is the general update. What is true of every task
or run of the board is then shown case by case (`Op.effect`).
-/

namespace Taskboard

variable {hash : Option Digest} {actor controlID : String} {task : Task} {u : Unit} {db db' : Db}
  {svc : Service}

variable {env : Env} {principal : Principal} {taskID : String}

/-- The task that an operation moves, and the status it moves it to. The general update, the
sweep and the operations that record a task are not among these. -/
def Op.Moves (op : Op) (db : Db) (current : Task) (status : TaskStatus) : Prop :=
  match op with
  | .escalate _ taskID request _ =>
      db.task? (trimSpace taskID) = some current ∧ current.status = .active ∧ status = .waiting ∧
        request.blocking = true
  | .resolve _ taskID escalationID _ _ _ =>
      db.task? (trimSpace taskID) = some current ∧ current.status = .waiting ∧
        status = .queued ∧
        ∃ row, (db.escalations.find? fun row => row.id = trimSpace escalationID) = some row ∧
          row.taskID = trimSpace taskID ∧ row.status = .open ∧ row.blocking = true
  | .updateControl _ controlID request _ =>
      ∃ item, (db.controls.find? fun row => row.id = trimSpace controlID) = some item ∧
        RunControlStatus.ofString? request.status = some .completed ∧
        db.task? item.taskID = some current ∧ item.kind.Moves current.status status
  | .reviewAndRequeue _ taskID _ _ =>
      db.task? (trimSpace taskID) = some current ∧
        (current.status = .stale ∨ current.status = .blocked ∨ current.status = .waiting) ∧
        status = .queued
  | _ => False

/-- What one operation does to the tasks and the runs of the board. -/
inductive Op.Effect (svc : Service) (op : Op) (db db' : Db) : Prop
  /-- Every task keeps its work, and runs go through their life. -/
  | still (tasks : List.Forall₂ Task.SameWork db.tasks db'.tasks)
      (runs : List.Forall₂ AgentRun.Follows db.runs db'.runs)
  /-- One task moves to another status. -/
  | move (current : Task) (status : TaskStatus) (moves : op.Moves db current status)
      (tasks : List.Forall₂ (Task.Shifts current status) db.tasks db'.tasks)
      (runs : List.Forall₂ AgentRun.Follows db.runs db'.runs)
  /-- A claimable task is claimed. -/
  | claim (current : Task) (run : AgentRun) (mem : current ∈ db.tasks)
      (claimable : current.status.claimable = true)
      (tasks : List.Forall₂ (Task.Shifts current .active) db.tasks db'.tasks)
      (task : run.taskID = current.id) (runs : db'.runs = db.runs ++ [run])
  /-- A task is recorded, with a run where it is active. -/
  | record (task : Task) (added : List AgentRun) (fresh : ∀ row ∈ db.tasks, row.id ≠ task.id)
      (link : task.duplicateOf = none) (tasks : db'.tasks = db.tasks ++ [task])
      (runs : db'.runs = db.runs ++ added)
      (status : task.status = .queued ∧ added = [] ∨
        task.status = .active ∧ ∀ run ∈ added, run.taskID = task.id)
      (proper : task.Proper)
  /-- The sweep. -/
  | sweep (env : Env) (op : op = .sweep env) (tasks : db'.tasks = (svc.swept env.now db).tasks)
      (runs : db'.runs = (svc.swept env.now db).runs)
  /-- The general update. -/
  | update (env : Env) (taskID : String) (request : UpdateRequest) (principal : Principal)
      (op : op = .update env taskID request principal)
      (updates : Updates svc env taskID request principal.id db db')

section Effect

variable {op : Op}

theorem Op.Effect.of_eq (h : db' = db) : op.Effect svc db db' := by
  subst h
  exact .still (List.forall₂_refl _) (List.forall₂_refl _)

theorem effect_claim (h : Claims svc env taskID db db') :
    op.Effect svc db db' := by
  obtain ⟨task, checked, agent, hash, u, htask, hclaimable, hrun⟩ := h
  obtain ⟨current, sessionID, callsign, event, hcurrent, hversion, -, hone, -, -, -, -, -, haside⟩ :=
    claimTx_ok hrun
  obtain rfl : task = current := Option.some_inj.mp (htask.symm.trans hcurrent)
  obtain ⟨hmem, hid⟩ := mem_of_task? htask
  obtain ⟨_, _, _, _, rfl⟩ := haside
  have hhit : bumps (trimSpace taskID) checked.expectedVersion (fun _ => true) task = true := by
    simp [bumps, hid, hversion]
  refine .claim task _ hmem hclaimable ?_ hid.symm rfl
  refine shifts_bumped hone hmem hhit (fun _ => ⟨rfl, rfl, rfl, rfl, rfl, rfl⟩) (fun hp => ?_)
    (Task.reasoned_of_ne .active rfl (by decide))
  have hne : task.status ≠ .blocked ∧ task.status ≠ .waiting := by
    constructor <;> intro h <;> simp [h, TaskStatus.claimable] at hclaimable
  exact hp.next rfl rfl (fun _ => hp.blocker hne.1) (fun _ => hp.waitingFor hne.2) (fun _ => rfl)
    Bool.noConfusion

theorem effect_start {item : NewTask} {checked : StartRequest} {overridden : List String}
    (h : (startTx svc env item checked actor hash overridden).run db = .ok (u, db')) :
    op.Effect svc db db' := by
  obtain ⟨sortOrder, sessionID, callsign, event, hfresh, -, -, -, -, -, haside⟩ := startTx_ok h
  obtain ⟨_, _, _, _, rfl⟩ := haside
  exact .record _ [_] hfresh rfl rfl rfl (Or.inr ⟨rfl, List.forall_mem_singleton.mpr rfl⟩)
    (item.proper_row env 0 rfl)

theorem effect_create {queued : QueuedTask}
    (h : (insertQueuedTask env.newID queued env.now).run db = .ok (u, db')) :
    op.Effect svc db db' := by
  obtain ⟨sortOrder, event, base, hfresh, -, -, -, -, haside⟩ := insertQueuedTask_ok h
  obtain ⟨_, _, _, _, rfl⟩ := haside
  exact .record _ [] hfresh rfl rfl (List.append_nil _).symm (Or.inl ⟨rfl, rfl⟩)
    (queued.item.proper_row env 0 rfl)

theorem effect_escalate {request checked : CreateEscalationRequest} {escalation : TaskEscalation}
    (hblocks : checked.blocking = request.blocking) (hquestion : trimSpace checked.question ≠ "")
    (h : (createEscalationTx env (trimSpace taskID) checked principal).run db =
      .ok (escalation, db')) : (Op.escalate env taskID request principal).Effect svc db db' := by
  have hruns : List.Forall₂ AgentRun.Follows db.runs db'.runs := (each_createEscalationTx.run h).runs
  obtain ⟨event, question, tasks, runs, -, -, -, -, -, htasks, rfl⟩ :=
    createEscalationTx_ok hquestion h
  rcases htasks with ⟨-, rfl⟩ | ⟨hblocking, current, hcurrent, hactive, htasks⟩
  · exact .still (List.forall₂_refl _) hruns
  · exact .move current .waiting ⟨hcurrent, hactive, rfl, hblocks ▸ hblocking⟩ htasks hruns

theorem effect_resolve {escalationID delegatedBy : String}
    {request checked : ResolveEscalationRequest} {hash : Digest}
    {answered : TaskEscalation}
    (h : (resolveEscalationTx env (trimSpace taskID) (trimSpace escalationID) checked principal
      delegatedBy hash).run db = .ok (answered, db')) :
    (Op.resolve env taskID escalationID request principal delegatedBy).Effect svc db db' := by
  obtain ⟨current, row, hcurrent, hrow, htask, hopen, hruns, htasks⟩ := resolveEscalationTx_ok h
  have hfollows : List.Forall₂ AgentRun.Follows db.runs db'.runs := by
    rw [hruns]
    exact List.forall₂_refl _
  rcases htasks with ⟨-, hsame⟩ | ⟨hblocking, hwaiting, htasks⟩
  · refine .still ?_ hfollows
    rw [hsame]
    exact List.forall₂_refl _
  · exact .move current .queued ⟨hcurrent, hwaiting, rfl, row, hrow, htask, hopen, hblocking⟩ htasks
      hfollows

theorem effect_updateControl {request checked : UpdateRunControlRequest} {item : RunControlRequest}
    (hstatus : checked.status = request.status)
    (hnote : trimSpace checked.outcomeNote = checked.outcomeNote)
    (h : (updateRunControlTx env (trimSpace controlID) checked principal).run db =
      .ok (item, db')) :
    (Op.updateControl env controlID request principal).Effect svc db db' := by
  obtain ⟨hitem, ⟨htasks, hruns⟩ |
    ⟨current, status, hcompleted, hcurrent, -, hmoves, htasks, hruns⟩⟩ :=
    updateRunControlTx_ok hnote h
  · refine .still ?_ ?_
    · rw [htasks]
      exact List.forall₂_refl _
    · rw [hruns]
      exact List.forall₂_refl _
  · exact .move current status ⟨item, hitem, hstatus ▸ hcompleted, hcurrent, hmoves⟩ htasks hruns

theorem effect_review {request : ReviewRequeueRequest}
    (h : (reviewAndRequeueTx svc env (trimSpace taskID) request.clean principal).run db =
      .ok (controlID, db')) :
    (Op.reviewAndRequeue env taskID request principal).Effect svc db db' := by
  obtain ⟨current, run, hcurrent, hstatus, -, htasks, hruns, -⟩ := reviewAndRequeueTx_ok h
  exact .move current .queued ⟨hcurrent, hstatus, rfl⟩ htasks hruns

theorem effect_sweep : (Op.sweep env).Effect svc db ((Op.sweep env).step svc db) := by
  have hswept : Footprint [.handoffs] Eq Eq Event.Unkeyed (svc.swept env.now db)
      ((sweepStale svc env).exec db).2 := exec_sweepStale db
  have hstep : (Op.sweep env).step svc db = ((sweepStale svc env).exec db).2 :=
    Call.exec_bind_pure_snd _ _ db
  rw [← hstep] at hswept
  exact .sweep env rfl hswept.tasks.symm hswept.runs.symm

end Effect

/-- **One operation, inverted.** -/
theorem Op.effect (op : Op) (db : Db) : op.Effect svc db (op.step svc db) := by
  cases hstill : op.still with
  | true => exact .still (still_step hstill db).tasks (still_step hstill db).runs
  | false =>
      cases op with
      | start env request principal =>
          rcases Call.atMost_then_quiet atMost_startFor (fun _ => Call.quiet_pure _) db with
            h | ⟨_, _, _, _, _, _, h⟩
          · exact .of_eq h
          · exact effect_start h
      | create env request principal =>
          rcases Call.atMost_then_quiet atMost_createFor (fun _ => Call.quiet_pure _) db with
            h | ⟨_, _, h⟩
          · exact .of_eq h
          · exact effect_create h
      | fireSchedule env schedule scheduledFor runBy =>
          rcases Call.atMost_then_quiet atMost_fireSchedule (fun _ => Call.quiet_pure _) db with
            h | ⟨_, _, h⟩
          · exact .of_eq h
          · exact effect_create h
      | claim env taskID request principal =>
          rcases Call.atMost_then_quiet atMost_claimFor (fun _ => Call.quiet_pure _) db with h | h
          · exact .of_eq h
          · exact effect_claim h
      | update env taskID request principal =>
          rcases step_update with h | h
          · exact .of_eq h
          · exact .update env taskID request principal rfl h
      | sweep env => exact effect_sweep
      | escalate env taskID request principal =>
          rcases Call.atMost_then_quiet atMost_createEscalationFor (fun _ => Call.quiet_pure _) db
            with h | ⟨_, _, hchecked, h⟩
          · exact .of_eq h
          · exact effect_escalate hchecked.1 hchecked.2.1 h
      | resolve env taskID escalationID request principal delegatedBy =>
          rcases Call.atMost_then_quiet atMost_resolveEscalation (fun _ => Call.quiet_pure _) db
            with h | ⟨_, _, _, h⟩
          · exact .of_eq h
          · exact effect_resolve h
      | updateControl env controlID request principal =>
          rcases Call.atMost_then_quiet atMost_updateRunControlFor (fun _ => Call.quiet_pure _) db
            with h | ⟨_, _, hstatus, -, hnote, h⟩
          · exact .of_eq h
          · exact effect_updateControl hstatus hnote h
      | reviewAndRequeue env taskID request principal =>
          rcases Call.atMost_then_quiet atMost_reviewAndRequeueFor (fun _ => Call.quiet_pure _) db
            with h | ⟨_, h⟩
          · exact .of_eq h
          · exact effect_review h
      | _ => exact Bool.noConfusion hstill

/-- Tasks have identifiers of their own. -/
def Db.Unique (db : Db) : Prop :=
  (db.tasks.map Task.id).Nodup

section Unique

theorem Db.Unique.eq_of_id (h : db.Unique) {a b : Task} (ha : a ∈ db.tasks) (hb : b ∈ db.tasks)
    (hid : a.id = b.id) : a = b :=
  List.inj_on_of_nodup_map h ha hb hid

theorem isSome_task?_iff {id : String} :
    (db.task? id).isSome = true ↔ id ∈ db.tasks.map Task.id := by
  rw [Db.task?, List.find?_isSome, List.mem_map]
  simp only [decide_eq_true_eq]

/-- The row of a task is the only one with its identifier. -/
theorem Db.Unique.task? (h : db.Unique) (hmem : task ∈ db.tasks) :
    db.task? task.id = some task := by
  obtain ⟨row, hrow⟩ : ∃ row, db.task? task.id = some row := by
    rw [← Option.isSome_iff_exists, isSome_task?_iff]
    exact List.mem_map_of_mem hmem
  obtain ⟨hmem', hid⟩ := mem_of_task? hrow
  rw [hrow, h.eq_of_id hmem' hmem hid]

/-- The conditional update of a task at its version finds one row. -/
theorem length_filter_bumps (hunique : db.Unique) (hmem : task ∈ db.tasks) :
    (db.tasks.filter (bumps task.id task.version fun _ => true)).length = 1 := by
  refine length_filter_of_unique hunique hmem (by simp [bumps]) fun row hhit => ?_
  simp only [bumps, Bool.and_eq_true, decide_eq_true_eq] at hhit
  exact hhit.1.1

theorem unique_of_forall₂ {keep : Task → Task → Prop}
    (hid : ∀ task task', keep task task' → task'.id = task.id)
    (h : List.Forall₂ keep db.tasks db'.tasks) (hunique : db.Unique) : db'.Unique := by
  unfold Db.Unique
  rw [map_eq_of_forall₂ hid h]
  exact hunique

theorem unique_append {tasks added : List Task} (h : (tasks.map Task.id).Nodup)
    (hfew : added.length ≤ 1) (hnew : ∀ task ∈ added, ∀ other ∈ tasks, other.id ≠ task.id) :
    ((tasks ++ added).map Task.id).Nodup := by
  rw [List.map_append, List.nodup_append]
  refine ⟨h, nodup_of_length_le_one (by simpa using hfew), ?_⟩
  intro id hold id' hadded hsame
  obtain ⟨other, hother, rfl⟩ := List.mem_map.mp hold
  obtain ⟨task, htask, rfl⟩ := List.mem_map.mp hadded
  exact hnew task htask other hother hsame

theorem unique_updateTx {update : TaskUpdate} {status : TaskStatus}
    (hrun : (updateTx svc env taskID update actor hash).run db = .ok (status, db'))
    (h : db.Unique) : db'.Unique := by
  obtain ⟨current, tasks, added, runs, notes, event, base, -, -, -, -, htasks, hfew, hadded, -, -,
    -, -, -, -, -, haside⟩ := updateTx_ok hrun
  obtain ⟨_, _, _, _, rfl⟩ := haside
  have hids : tasks.map Task.id = db.tasks.map Task.id :=
    map_eq_of_forall₂ (fun _ _ h => h.id) htasks
  refine unique_append (hids ▸ h) hfew fun task hnew other hother => ?_
  obtain ⟨old, hold, hupdated⟩ := exists_of_forall₂ htasks hother
  exact hupdated.id ▸ (hadded task hnew).2 old hold

theorem unique_step (op : Op) (db : Db) (h : db.Unique) : (op.step svc db).Unique := by
  cases (op.effect db : op.Effect svc db (op.step svc db)) with
  | still htasks hruns => exact unique_of_forall₂ (fun _ _ h => h.id) htasks h
  | move current status hmoves htasks hruns => exact unique_of_forall₂ (fun _ _ h => h.id) htasks h
  | claim current run hmem hclaimable htasks htask hruns =>
      exact unique_of_forall₂ (fun _ _ h => h.id) htasks h
  | record task added hfresh hlink htasks hruns hstatus =>
      unfold Db.Unique
      rw [htasks]
      exact unique_append h le_rfl (List.forall_mem_singleton.mpr hfresh)
  | sweep env hop htasks hruns =>
      have hids : List.Forall₂ (SameKey Task.id) db.tasks (op.step svc db).tasks := by
        rw [htasks]
        exact forall₂_mapWhere fun _ _ _ => rfl
      exact unique_of_forall₂ (fun _ _ h => h) hids h
  | update env taskID request principal hsame hupdates =>
      obtain ⟨update, hash, status, db1, hvalid, hrun, hplain⟩ := hupdates
      exact unique_of_forall₂ (fun _ _ h => h.id) hplain.tasks (unique_updateTx hrun h)

end Unique

end Taskboard
