import Taskboard.Deletion
import Taskboard.LeaseTimes

/-!
# The rows of tasks and runs

Every task of a board that operations and deletions lead to is in order (`Task.Proper`): it has
a trimmed name and a version, and what it is blocked by, waits for or was completed at is only
there while its status says so. Every run has a trimmed name of its own (`Db.RunsNamed`).
-/

namespace Taskboard

variable {run : AgentRun} {ok : Change → Db → Prop} {task : Task} {status : TaskStatus}

variable {db db' : Db} {svc : Service}

/-- Every task is in order afterwards if every task was before. -/
def KeepsProper (db db' : Db) : Prop :=
  (∀ task ∈ db.tasks, task.Proper) → ∀ task ∈ db'.tasks, task.Proper

instance : IsPreorder Db KeepsProper where
  refl _ h := h
  trans _ _ _ h h' hp := h' (h hp)

section Update

variable {env : Env} {taskID actor : String} {update : TaskUpdate} {current : Task}

theorem Task.Proper.relink (h : task.Proper) (duplicateOf : Option String) :
    { task with duplicateOf }.Proper :=
  ⟨h.named, h.trimmed, h.version, h.blocker, h.waitingFor, h.completedAt, h.finished⟩

/-- The row that the general update writes is in order if the row it read is. -/
theorem Task.Proper.rewritten {sortOrder : Int}
    {kept : Option Task} {editor : String} {now : Instant} (h : task.Proper)
    (hcurrent : current.Proper) :
    (task.rewritten (updatedTask update current status sortOrder kept editor now)).Proper := by
  refine h.next rfl rfl ?_ ?_ ?_ ?_
  · intro hne
    exact if_pos hne
  · intro hne
    exact if_pos hne
  · intro hopen
    have hstatus : status.terminal = false := hopen
    exact if_pos (by simp [hstatus])
  · intro hterminal
    have hstatus : status.terminal = true := hterminal
    show (if !status.terminal then none else if !current.status.terminal then some now
      else current.completedAt) ≠ none
    cases hopen : current.status.terminal with
    | false => simp [hstatus]
    | true => simpa [hstatus] using hcurrent.finished hopen

/-- The general update leaves every task in order. -/
theorem keepsProper_updateTx {hash : Option Digest}
    (h : (updateTx svc env taskID update actor hash).run db = .ok (status, db')) :
    KeepsProper db db' := by
  obtain ⟨current, kept, edited, sortOrder, added, runs, notes, event, base, hchecks, -, -, -, -,
    hadded, -, -, -, -, -, -, -, haside⟩ := updateTx_rows h
  obtain ⟨_, _, _, _, rfl⟩ := haside
  intro hp row hrow
  rcases List.mem_append.mp hrow with hold | hnew
  · obtain ⟨mid, hmid, rfl⟩ := List.mem_map.mp hold
    obtain ⟨link, hlink⟩ := mid.relinked_spec taskID kept (update.unlinks current.status status)
    rw [hlink]
    refine Task.Proper.relink ?_ _
    obtain ⟨task, hmem, rfl⟩ := mem_mapWhere.mp hmid
    split
    · exact (hp task hmem).rewritten (hp current (mem_of_task? hchecks.found).1)
    · exact hp task hmem
  · exact (hadded row hnew).proper

end Update

theorem keepsProper_forall₂ {keep : Task → Task → Prop}
    (hkeep : ∀ task task', keep task task' → task.Proper → task'.Proper)
    (h : List.Forall₂ keep db.tasks db'.tasks) : KeepsProper db db' := by
  intro hp task' htask'
  obtain ⟨task, hmem, hsame⟩ := exists_of_forall₂ h htask'
  exact hkeep task task' hsame (hp task hmem)

/-- **One operation** leaves every task in order. -/
theorem keepsProper_step (op : Op) (db : Db) : KeepsProper db (op.step svc db) := by
  cases (op.effect db : op.Effect svc db (op.step svc db)) with
  | still htasks => exact keepsProper_forall₂ (fun _ _ h => h.proper) htasks
  | move current status hmoves htasks => exact keepsProper_forall₂ (fun _ _ h => h.proper) htasks
  | claim current run hmem hclaimable htasks =>
      exact keepsProper_forall₂ (fun _ _ h => h.proper) htasks
  | record task added hfresh hlink htasks hruns hstatus hproper =>
      intro hp row hrow
      rw [htasks] at hrow
      rcases List.mem_append.mp hrow with hold | hnew
      · exact hp row hold
      · exact List.mem_singleton.mp hnew ▸ hproper
  | sweep env hop htasks =>
      intro hp row hrow
      rw [htasks] at hrow
      obtain ⟨task, hmem, rfl⟩ := mem_mapWhere.mp hrow
      split
      · rename_i hswept
        have hactive : task.status = .active := by
          simp only [Service.sweepsTask, Bool.and_eq_true, decide_eq_true_eq] at hswept
          exact hswept.1.1
        have hold := hp task hmem
        exact hold.next rfl rfl (fun _ => hold.blocker (by simp [hactive]))
          (fun _ => hold.waitingFor (by simp [hactive]))
          (fun _ => hold.completedAt (by simp [hactive, TaskStatus.terminal])) Bool.noConfusion
      · exact hp task hmem
  | update env taskID request principal hsame hupdates =>
      obtain ⟨update, hash, status, db1, hvalid, hrun, hplain⟩ := hupdates
      exact trans_of KeepsProper (keepsProper_updateTx hrun)
        (keepsProper_forall₂ (fun _ _ h => h.proper) hplain.tasks)

theorem proper_deletes (h : Deletes db db') : KeepsProper db db' := by
  obtain ⟨gone, sessions, rfl⟩ := h
  intro hp row hrow
  simp only [Db.without, List.mem_map, List.mem_filter] at hrow
  obtain ⟨task, ⟨hmem, -⟩, rfl⟩ := hrow
  exact (hp task hmem).relink _

/-- **Every task of a board is in order.** -/
theorem Develops.proper (h : Develops svc ok db): ∀ task ∈ db.tasks, task.Proper :=
  h.invariant (by simp) (fun op db _ => keepsProper_step op db) fun _ _ => proper_deletes

/-- Runs have trimmed names of their own. -/
structure Db.RunsNamed (db : Db) : Prop where
  unique : (db.runs.map AgentRun.id).Nodup
  trimmed : ∀ run ∈ db.runs, trimSpace run.id = run.id

theorem Db.RunsNamed.eq_of_id (h : db.RunsNamed) {row : AgentRun}
    (hrun : run ∈ db.runs) (hrow : row ∈ db.runs) (hid : run.id = row.id) : run = row :=
  List.inj_on_of_nodup_map h.unique hrun hrow hid

/-- What happens to every run in its place happens to the run of this name. -/
theorem Db.RunsNamed.kept {keep : AgentRun → AgentRun → Prop} (h : db.RunsNamed)
    (hkeep : ∀ run run', keep run run' → run'.id = run.id)
    (hruns : List.Forall₂ keep db.runs db'.runs) {run' : AgentRun} (hrun : run ∈ db.runs)
    (hrun' : run' ∈ db'.runs) (hid : run'.id = run.id) : keep run run' := by
  obtain ⟨old, hold, hrow⟩ := exists_of_forall₂ hruns hrun'
  obtain rfl := h.eq_of_id hold hrun ((hkeep old run' hrow).symm.trans hid)
  exact hrow

theorem runsNamed_step (op : Op) (db : Db) (h : db.RunsNamed) :
    (op.step svc db).RunsNamed := by
  rcases (op.leaseEffect db : op.LeaseEffect svc db (op.step svc db)).ids with
    hids | ⟨run, htrimmed, hfresh, hruns⟩
  · refine ⟨hids ▸ h.unique, fun run' hrun' => ?_⟩
    have hmem : run'.id ∈ db.runs.map AgentRun.id := hids ▸ List.mem_map_of_mem hrun'
    obtain ⟨run, hrun, hid⟩ := List.mem_map.mp hmem
    rw [← hid]
    exact h.trimmed run hrun
  · constructor
    · rw [hruns, List.map_append, List.nodup_append]
      refine ⟨h.unique, by simp, ?_⟩
      intro id hid id' hid' hsame
      obtain ⟨row, hrow, rfl⟩ := List.mem_map.mp hid
      rw [List.map_singleton, List.mem_singleton] at hid'
      exact hfresh row hrow (hsame.trans hid')
    · intro run' hrun'
      rw [hruns] at hrun'
      rcases List.mem_append.mp hrun' with hold | hnew
      · exact h.trimmed run' hold
      · exact List.mem_singleton.mp hnew ▸ htrimmed

theorem runsNamed_deletes (hdeletes : Deletes db db') (h : db.RunsNamed) :
    db'.RunsNamed := by
  obtain ⟨gone, sessions, rfl⟩ := hdeletes
  exact ⟨h.unique.sublist (List.filter_sublist.map _),
    fun run hrun => h.trimmed run (List.mem_of_mem_filter hrun)⟩

/-- **Every run of a board has a name of its own.** -/
theorem Develops.runsNamed (h : Develops svc ok db): db.RunsNamed :=
  h.invariant ⟨List.nodup_nil, List.forall_mem_nil _⟩ (fun op db _ => runsNamed_step op db)
    fun _ _ => runsNamed_deletes

end Taskboard
