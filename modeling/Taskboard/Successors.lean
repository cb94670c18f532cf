import Taskboard.Contracts

/-!
# How often a recurring task recurs

An update that makes a recurring task done records the next occurrence in the same transaction.
It looks at the status the task had and at nothing else: the task keeps no mark of the occurrence.
So a task has as many next occurrences, over its whole life, as it was completed while it recurred
(`each_completion_has_one_successor`); a task that is reopened and completed again has two
(`completed_again_recurs_again`).
-/

namespace Taskboard

variable {env : Env} {hash : Option Digest} {actor taskID : String} {status : TaskStatus}
  {update : TaskUpdate}

variable {svc : Service} {db db' : Db}

/-- The tasks that a change records. -/
def Change.recorded (svc : Service) (change : Change) (db : Db) : List Task :=
  (change.step svc db).tasks.filter fun task => (db.task? task.id).isNone

/-- The next occurrences of a task that a change creates: what an update of this task records. -/
def Change.successors (svc : Service) (change : Change) (db : Db) (id : String) : List Task :=
  match change with
  | .operation (.update _ taskID _ _) =>
      if trimSpace taskID = id then change.recorded svc db else []
  | _ => []

/-- The change completes a task that recurs: it was not done, and is. -/
def Change.completes (svc : Service) (change : Change) (db : Db) (id : String) : Bool :=
  (db.task? id).any (·.status ≠ .done) &&
    ((change.step svc db).task? id).any fun task => task.status = .done ∧ task.recurrence ≠ ""

/-- The next occurrences of a task that changes create, one after another. -/
def successors (svc : Service) (id : String) : List Change → Db → List Task
  | [], _ => []
  | change :: rest, db => change.successors svc db id ++ successors svc id rest (change.step svc db)

/-- How often changes complete a task that recurs. -/
def completions (svc : Service) (id : String) : List Change → Db → Nat
  | [], _ => 0
  | change :: rest, db =>
      (if change.completes svc db id then 1 else 0) + completions svc id rest (change.step svc db)

theorem unique_change (change : Change) (h : db.Unique) : (change.step svc db).Unique := by
  rcases change.step_cases svc db with ⟨op, -, hstep⟩ | hsame | hdeletes
  · rw [hstep]
    exact unique_step op db h
  · rw [hsame]
    exact h
  · exact unique_deletes hdeletes h

/-- Where the task was done before, as far as it is done after, nothing is completed. -/
theorem completes_eq_false {change : Change} {id : String} (hunique : db.Unique)
    (h : ∀ task' ∈ (change.step svc db).tasks, task'.id = id → task'.status = .done →
      ∃ task ∈ db.tasks, task.id = task'.id ∧ task.status = .done) :
    change.completes svc db id = false := by
  by_contra hcompletes
  simp only [Change.completes, Bool.not_eq_false, Bool.and_eq_true, Option.any_eq_true,
    decide_eq_true_eq] at hcompletes
  obtain ⟨⟨before, hbefore, hopen⟩, after, hafter, hdone, -⟩ := hcompletes
  obtain ⟨hmem, hid⟩ := mem_of_task? hafter
  obtain ⟨task, htask, hsame, hwas⟩ := h after hmem hid hdone
  have hfound := hunique.task? htask
  rw [hsame, hid, hbefore] at hfound
  cases hfound
  exact hopen hwas

/-- An update leaves the status of any other task. -/
theorem done_elsewhere_updateTx {task' : Task}
    (h : (updateTx svc env taskID update actor hash).run db = .ok (status, db'))
    (hmem : task' ∈ db'.tasks) (hother : task'.id ≠ taskID) (hdone : task'.status = .done) :
    ∃ task ∈ db.tasks, task.id = task'.id ∧ task.status = .done := by
  obtain ⟨current, tasks, added, runs, notes, event, base, -, -, -, -, htasks, -, hadded, -, -, -,
    -, -, -, -, haside⟩ := updateTx_ok h
  obtain ⟨_, _, _, _, rfl⟩ := haside
  rcases List.mem_append.mp hmem with hold | hnew
  · obtain ⟨task, htask, hupdated⟩ := exists_of_forall₂ htasks hold
    by_cases hhit : bumps taskID update.expectedVersion (fun _ => true) task = true
    · simp only [bumps, Bool.and_eq_true, decide_eq_true_eq] at hhit
      exact absurd (hupdated.id.trans hhit.1.1) hother
    · obtain ⟨link, rfl⟩ := hupdated.miss (Bool.eq_false_iff.mpr hhit)
      exact ⟨task, htask, rfl, hdone⟩
  · rw [(hadded task' hnew).1] at hdone
    cases hdone

/-- Tasks with the identifiers that the board has are not recorded anew. -/
theorem filter_isNone_task? {tasks : List Task}
    (h : tasks.map Task.id = db.tasks.map Task.id) :
    (tasks.filter fun task => (db.task? task.id).isNone) = [] := by
  rw [List.filter_eq_nil_iff]
  intro task htask hnone
  have hid : task.id ∈ db.tasks.map Task.id := h ▸ List.mem_map_of_mem htask
  rw [← isSome_task?_iff] at hid
  rw [Option.isNone_iff_eq_none] at hnone
  rw [hnone] at hid
  cases hid

/-- The rows that the general update leaves: those that were there, with the one it writes, and
the next occurrence where it completes a task that recurs. -/
theorem updateTx_tasks (h : (updateTx svc env taskID update actor hash).run db = .ok (status, db')):
    ∃ current written rows, db.task? taskID = some current ∧
      rows.map Task.id = db.tasks.map Task.id ∧ written ∈ rows ∧ written.id = taskID ∧
      if written.status = .done ∧ current.status ≠ .done ∧ written.recurrence ≠ "" then
        ∃ next : Task, (∀ other ∈ rows, other.id ≠ next.id) ∧ db'.tasks = rows ++ [next]
      else db'.tasks = rows := by
  obtain ⟨current, kept, active, row, linked, defaulted, moved, recurring, hcurrent, hversion,
    hactive, -, -, hlink, hdefault, hrecur, htasks, -⟩ := updateTx_steps h
  obtain ⟨_, rfl⟩ := hactive
  obtain ⟨hmem, hid⟩ := mem_of_task? hcurrent
  obtain ⟨_, _, -, -, rfl⟩ := linkDuplicate_ok hlink
  obtain ⟨_, _, _, rfl⟩ := beside_defaultOnMove.run hdefault
  refine ⟨current, (current.rewritten row).relinked taskID kept
      (update.unlinks current.status row.status),
    (mapWhere (bumps taskID update.expectedVersion fun _ => true) (·.rewritten row) db.tasks).map
      (Task.relinked taskID kept (update.unlinks current.status row.status)), hcurrent, ?_, ?_, ?_, ?_⟩
  · have hkept : Task.id ∘ Task.relinked taskID kept (update.unlinks current.status row.status) =
        Task.id := by
      funext task
      obtain ⟨_, hlinked⟩ := task.relinked_spec taskID kept
        (update.unlinks current.status row.status)
      rw [Function.comp_apply, hlinked]
    rw [List.map_map, hkept]
    exact map_mapWhere fun _ => rfl
  · refine List.mem_map_of_mem (mem_mapWhere.mpr ⟨current, hmem, ?_⟩)
    rw [if_pos]
    simp [bumps, hid, hversion]
  · obtain ⟨_, hlinked⟩ := (current.rewritten row).relinked_spec taskID kept
      (update.unlinks current.status row.status)
    rw [hlinked]
    exact hid
  · obtain ⟨_, hlinked⟩ := (current.rewritten row).relinked_spec taskID kept
      (update.unlinks current.status row.status)
    have hrows := createRecurrence_tasks hrecur
    rw [hlinked, htasks]
    by_cases hdone : row.status = .done ∧ current.status ≠ .done ∧ row.recurrence ≠ ""
    · rw [if_pos hdone] at hrows
      refine (if_pos hdone).mpr ?_
      obtain ⟨due, -, hfresh, hadded⟩ := hrows
      exact ⟨_, hfresh, hadded⟩
    · rw [if_neg hdone] at hrows
      refine (if_neg hdone).mpr ?_
      rw [hrows]

/-- **The general update** records the next occurrence exactly where it completes a task that
recurs. -/
theorem updateTx_records (hunique : db.Unique)
    (h : (updateTx svc env taskID update actor hash).run db = .ok (status, db')) :
    ∃ current row, db.task? taskID = some current ∧ db'.task? taskID = some row ∧
      (db'.tasks.filter fun task => (db.task? task.id).isNone).length =
        if row.status = .done ∧ current.status ≠ .done ∧ row.recurrence ≠ "" then 1 else 0 := by
  have hunique' := unique_updateTx h hunique
  obtain ⟨current, written, rows, hcurrent, hids, hwritten, rfl, hrows⟩ := updateTx_tasks h
  have hmem : written ∈ db'.tasks := by
    split at hrows
    · obtain ⟨_, -, hadded⟩ := hrows
      rw [hadded]
      exact List.mem_append_left _ hwritten
    · rw [hrows]
      exact hwritten
  refine ⟨current, written, hcurrent, hunique'.task? hmem, ?_⟩
  split at hrows
  · rename_i hdone
    obtain ⟨next, hfresh, hadded⟩ := hrows
    have hnew : db.task? next.id = none := by
      rw [← Option.not_isSome_iff_eq_none, isSome_task?_iff, ← hids, List.mem_map]
      rintro ⟨other, hother, hsame⟩
      exact hfresh other hother hsame
    rw [if_pos hdone, hadded, List.filter_append, filter_isNone_task? hids]
    simp [hnew]
  · rename_i hopen
    rw [if_neg hopen, hrows, filter_isNone_task? hids]
    rfl

theorem updateFor_records {request : UpdateRequest} {principal : Principal} (hunique : db.Unique):
    (Change.recorded svc (.operation (.update env taskID request principal)) db).length =
      if Change.completes svc (.operation (.update env taskID request principal)) db
        (trimSpace taskID) then 1 else 0 := by
  have hmost : (updateFor svc env taskID request principal).AtMost fun db db' =>
      ∃ update hash status db1,
        (updateTx svc env (trimSpace taskID) update principal.id hash).run db = .ok (status, db1) ∧
          db'.tasks = db1.tasks := by
    apply atMost_updateFor_of
    intro update hash db status db1 _ hrun
    have hafter : Footprint [.handoffs] Eq Eq Event.Unkeyed db1
        ((afterUpdate svc env (trimSpace taskID) update.runID status).exec db1).2 :=
      each_afterUpdate.exec db1
    exact ⟨update, hash, status, db1, hrun, hafter.tasks.symm⟩
  rcases Call.atMost_then_quiet hmost (fun _ => Call.quiet_pure _) db with
    hsame | ⟨update, hash, status, db1, hrun, htasks⟩
  · replace hsame : Change.step svc (.operation (.update env taskID request principal)) db = db :=
      hsame
    have hopen : Change.completes svc (.operation (.update env taskID request principal)) db
        (trimSpace taskID) = false := by
      apply completes_eq_false hunique
      rw [hsame]
      intro task hmem _ hdone
      exact ⟨task, hmem, rfl, hdone⟩
    rw [hopen, Change.recorded, hsame, filter_isNone_task? rfl]
    rfl
  · replace htasks : (Change.step svc (.operation (.update env taskID request principal))
      db).tasks = db1.tasks := htasks
    obtain ⟨current, row, hcurrent, hrow, hcount⟩ := updateTx_records hunique hrun
    rw [Change.recorded, htasks, hcount, Change.completes, hcurrent, Db.task?, htasks]
    rw [Db.task?] at hrow
    rw [hrow]
    refine if_congr ?_ rfl rfl
    simp only [Option.any_some, Bool.and_eq_true, decide_eq_true_eq]
    exact and_left_comm

/-- **One change** creates one next occurrence of a task where it completes it while it recurs,
and none otherwise. -/
theorem length_successors_change (change : Change) (id : String) (hunique : db.Unique) :
    (change.successors svc db id).length = if change.completes svc db id then 1 else 0 := by
  by_cases hupdate : ∃ env taskID request principal,
      change = .operation (.update env taskID request principal) ∧ trimSpace taskID = id
  · obtain ⟨env, taskID, request, principal, rfl, rfl⟩ := hupdate
    rw [Change.successors, if_pos rfl]
    exact updateFor_records hunique
  · have hnone : change.successors svc db id = [] := by
      unfold Change.successors
      split
      · rename_i env taskID request principal
        exact if_neg fun hid => hupdate ⟨env, taskID, request, principal, rfl, hid⟩
      · rfl
    have hopen : change.completes svc db id = false := by
      apply completes_eq_false hunique
      intro task' hmem hid hdone
      rcases change.step_cases svc db with ⟨op, rfl, hstep⟩ | hsame | hdeletes
      · rw [hstep] at hmem
        rcases done_before_or_updated op hmem hdone with
          hbefore | ⟨env, taskID, request, principal, rfl, update, hash, status, db1, -, hrun, hplain⟩
        · exact hbefore
        · obtain ⟨mid, hmid, hwork⟩ := exists_of_forall₂ hplain.tasks hmem
          rw [hwork.id]
          refine done_elsewhere_updateTx hrun hmid ?_ (hwork.status.symm.trans hdone)
          intro hsame
          exact hupdate ⟨env, taskID, request, principal, rfl,
            hsame.symm.trans (hwork.id.symm.trans hid)⟩
      · rw [hsame] at hmem
        exact ⟨task', hmem, rfl, hdone⟩
      · obtain ⟨gone, sessions, hdb⟩ := hdeletes
        rw [hdb] at hmem
        simp only [Db.without, List.mem_map, List.mem_filter] at hmem
        obtain ⟨task, ⟨htask, -⟩, rfl⟩ := hmem
        exact ⟨task, htask, rfl, hdone⟩
    rw [hnone, hopen]
    rfl

/-- **Each completion has one successor.** However often a task is completed, reopened, cancelled
or edited, as many next occurrences of it are created as it is completed while it recurs. -/
theorem each_completion_has_one_successor (svc : Service) (changes : List Change) (id : String) :
    (successors svc id changes {}).length = completions svc id changes {} := by
  have hrun : ∀ db : Db, db.Unique →
      (successors svc id changes db).length = completions svc id changes db := by
    induction changes with
    | nil =>
        intro db _
        rfl
    | cons change rest ih =>
        intro db hunique
        rw [successors, completions, List.length_append, length_successors_change change id hunique,
          ih _ (unique_change change hunique)]
  exact hrun {} List.nodup_nil

/-- A person plans a daily task. -/
def dailyOp : Op :=
  .create (.numbered 1 0) { title := "Water the plants", dueDate := "2026-09-16", recurrence := "daily" }
    (humanPrincipal "ann" .owner)

/-- The person sets the status of the daily task. -/
def markDailyOp (call : Nat) (version : Int) (status : String) : Op :=
  .update (.numbered call 100) "0100" { expectedVersion := version, status }
    (humanPrincipal "ann" .owner)

/-- A task that is completed, reopened and completed again has two next occurrences, due on one
day. -/
theorem completed_again_recurs_again :
    (successors .ascii "0100" [.operation dailyOp, .operation (markDailyOp 2 1 "done"),
      .operation (markDailyOp 3 2 "queued"), .operation (markDailyOp 4 3 "done")] {}).map
        (fun task => (task.id, task.dueDate)) =
      [("0202", "2026-09-17"), ("0402", "2026-09-17")] := by
  decide +kernel

end Taskboard
