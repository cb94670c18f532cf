import Taskboard.Rows

/-!
# What goes with a status

A task has the time it was completed at while it is done or cancelled, and that time stays while
it is over. A task that is blocked or waits says why: every board is so as long as no update
takes the reason away from a task that stays as it is. `Update` asks for a reason where a request
names the status, and nowhere else.
-/

namespace Taskboard

variable {env : Env} {actor : String} {task' : Task} {keep : Task → Task → Prop}
  {update : TaskUpdate} {request : UpdateRequest} {db db' : Db} {op : Op} {svc : Service}

variable {taskID : String} {current task : Task} {status : TaskStatus}

section Completion

/-- A task that is over before and after keeps the time it was completed at. -/
def KeepsCompletion (db db' : Db) : Prop :=
  ∀ task ∈ db.tasks, ∀ task' ∈ db'.tasks, task'.id = task.id →
    task.status.terminal = true → task'.status.terminal = true →
      task'.completedAt = task.completedAt

theorem keepsCompletion_forall₂ (hunique : db.Unique)
    (hid : ∀ task task', keep task task' → task'.id = task.id)
    (hkeep : ∀ task ∈ db.tasks, ∀ task', keep task task' → task.status.terminal = true →
      task'.status.terminal = true → task'.completedAt = task.completedAt)
    (h : List.Forall₂ keep db.tasks db'.tasks) : KeepsCompletion db db' := by
  intro task hmem task' hmem' hsame
  obtain ⟨old, hold, hrow⟩ := exists_of_forall₂ h hmem'
  obtain rfl := hunique.eq_of_id hold hmem ((hid old task' hrow).symm.trans hsame)
  exact hkeep old hold task' hrow

/-- A task that is moved to an end has not been over. -/
theorem Op.Moves.terminal (h : op.Moves db current status)
    (hterminal : status.terminal = true) : current.status.terminal = false := by
  cases op with
  | escalate env taskID request principal =>
      obtain ⟨-, -, rfl, -⟩ := h
      cases hterminal
  | resolve env taskID escalationID request principal delegatedBy =>
      obtain ⟨-, -, rfl, -⟩ := h
      cases hterminal
  | updateControl env controlID request principal =>
      obtain ⟨item, -, -, -, hmoves⟩ := h
      cases hkind : item.kind with
      | pause =>
          rw [hkind] at hmoves
          obtain ⟨-, rfl⟩ := hmoves
          cases hterminal
      | cancel =>
          rw [hkind] at hmoves
          rw [hmoves.1]
          rfl
      | resume | retry =>
          rw [hkind] at hmoves
          obtain ⟨-, rfl⟩ := hmoves
          cases hterminal
  | reviewAndRequeue env taskID request principal =>
      obtain ⟨-, -, rfl⟩ := h
      cases hterminal
  | _ => exact False.elim h

theorem Task.Shifts.completedAt (h : current.Shifts status task task')
    (hopen : status.terminal = true → current.status.terminal = false)
    (hterminal : task.status.terminal = true) (hterminal' : task'.status.terminal = true) :
    task'.completedAt = task.completedAt := by
  by_cases hcurrent : task = current
  · rw [(h.hit hcurrent).1] at hterminal'
    rw [hcurrent, hopen hterminal'] at hterminal
    cases hterminal
  · rw [h.miss hcurrent]

theorem keepsCompletion_updateTx {hash : Option Digest} (hunique : db.Unique)
    (h : (updateTx svc env taskID update actor hash).run db = .ok (status, db')) :
    KeepsCompletion db db' := by
  obtain ⟨current, kept, edited, sortOrder, added, runs, notes, event, base, hchecks, -, -, -, -,
    hadded, -, -, -, -, -, -, -, haside⟩ := updateTx_rows h
  obtain ⟨_, _, _, _, rfl⟩ := haside
  intro task hmem task' hmem' hsame hterminal hterminal'
  rcases List.mem_append.mp hmem' with hold | hnew
  · obtain ⟨mid, hmid, rfl⟩ := List.mem_map.mp hold
    obtain ⟨link, hlink⟩ := mid.relinked_spec taskID kept (update.unlinks current.status status)
    rw [hlink] at hsame hterminal' ⊢
    obtain ⟨row, hrow, rfl⟩ := mem_mapWhere.mp hmid
    split at hsame
    · rename_i hbumps
      obtain rfl : row = task := hunique.eq_of_id hrow hmem hsame
      rw [if_pos hbumps] at hterminal' ⊢
      -- The row that is rewritten is the one that was read.
      obtain rfl : row = current := by
        obtain ⟨hcurrent, hid⟩ := mem_of_task? hchecks.found
        refine hunique.eq_of_id hrow hcurrent (Eq.trans ?_ hid.symm)
        simp only [bumps, Bool.and_eq_true, decide_eq_true_eq] at hbumps
        exact hbumps.1.1
      have hstatus : status.terminal = true := hterminal'
      show (if !status.terminal then none else if !row.status.terminal then some env.now
        else row.completedAt) = row.completedAt
      simp [hstatus, hterminal]
    · rename_i hbumps
      obtain rfl : row = task := hunique.eq_of_id hrow hmem hsame
      rw [if_neg hbumps]
  · exact absurd hsame.symm ((hadded task' hnew).fresh task hmem)

/-- **One operation** leaves the completion time of a task that is over and stays so. -/
theorem keepsCompletion_step (op : Op) (hunique : db.Unique) :
    KeepsCompletion db (op.step svc db) := by
  cases (op.effect db : op.Effect svc db (op.step svc db)) with
  | still htasks =>
      exact keepsCompletion_forall₂ hunique (fun _ _ h => h.id) (fun _ _ _ h _ _ => h.completedAt)
        htasks
  | move current status hmoves htasks =>
      exact keepsCompletion_forall₂ hunique (fun _ _ h => h.id)
        (fun _ _ _ h => h.completedAt hmoves.terminal) htasks
  | claim current run hmem hclaimable htasks =>
      exact keepsCompletion_forall₂ hunique (fun _ _ h => h.id)
        (fun _ _ _ h => h.completedAt Bool.noConfusion) htasks
  | record task added hfresh hlink htasks =>
      intro row hrow row' hrow' hsame _ _
      rw [htasks] at hrow'
      rcases List.mem_append.mp hrow' with hold | hnew
      · rw [hunique.eq_of_id hold hrow hsame]
      · obtain rfl := List.mem_singleton.mp hnew
        exact absurd hsame.symm (hfresh row hrow)
  | sweep env hop htasks =>
      intro row hrow row' hrow' hsame _ hterminal'
      rw [htasks] at hrow'
      obtain ⟨task, hmem, rfl⟩ := mem_mapWhere.mp hrow'
      split at hterminal'
      · cases hterminal'
      · rename_i hswept
        rw [if_neg hswept] at hsame ⊢
        rw [hunique.eq_of_id hmem hrow hsame]
  | update env taskID request principal hsame hupdates =>
      obtain ⟨update, hash, status, db1, hvalid, hrun, hplain⟩ := hupdates
      intro task hmem task' hmem' hid hterminal hterminal'
      obtain ⟨mid, hmid, hwork⟩ := exists_of_forall₂ hplain.tasks hmem'
      rw [hwork.completedAt]
      exact keepsCompletion_updateTx hunique hrun task hmem mid hmid (hwork.id.symm.trans hid)
        hterminal (hwork.status ▸ hterminal')

theorem keepsCompletion_deletes (hunique : db.Unique) (h : Deletes db db') :
    KeepsCompletion db db' := by
  obtain ⟨gone, sessions, rfl⟩ := h
  intro row hrow row' hrow' hsame _ _
  simp only [Db.without, List.mem_map, List.mem_filter] at hrow'
  obtain ⟨task, ⟨hmem, -⟩, rfl⟩ := hrow'
  rw [← hunique.eq_of_id hmem hrow hsame]

theorem keepsCompletion_change (change : Change) (hunique : db.Unique) :
    KeepsCompletion db (change.step svc db) := by
  rcases change.step_cases svc db with ⟨op, -, hstep⟩ | hsame | hdeletes
  · rw [hstep]
    exact keepsCompletion_step op hunique
  · intro task hmem task' hmem' hid _ _
    rw [hsame] at hmem'
    rw [hunique.eq_of_id hmem' hmem hid]
  · exact keepsCompletion_deletes hunique hdeletes

/-- The task of this name is over. -/
def Db.Over (db : Db) (id : String) : Prop :=
  ∃ task ∈ db.tasks, task.id = id ∧ task.status.terminal = true

instance (db : Db) (id : String) : Decidable (db.Over id) :=
  inferInstanceAs (Decidable (∃ task ∈ db.tasks, task.id = id ∧ task.status.terminal = true))

/-- A change after which the task is still over. -/
def StaysOver (svc : Service) (id : String) (db db' : Db) : Prop :=
  db.Over id ∧ db'.Over id ∧ ∃ change : Change, db' = change.step svc db

theorem Develops.staysOver {ok : Change → Db → Prop} {id : String} (h : Develops svc ok db)
    (hstays : Relation.ReflTransGen (StaysOver svc id) db db') :
    Develops svc (fun _ _ => True) db' := by
  induction hstays with
  | refl =>
      induction h with
      | empty => exact .empty
      | change _ change _ ih => exact ih.change change trivial
  | tail _ hlast ih =>
      obtain ⟨-, -, change, rfl⟩ := hlast
      exact ih.change change trivial

/-- **Completion times.** In every state of a board a task has a time of completion exactly if it
is done or cancelled, and through any changes that leave it so that time stays. -/
theorem completed_iff_over (h : Develops svc (fun _ _ => True) db) :
    (∀ task ∈ db.tasks, task.completedAt ≠ none ↔ task.status = .done ∨ task.status = .cancelled) ∧
      ∀ id db', Relation.ReflTransGen (StaysOver svc id) db db' →
        ∀ task ∈ db.tasks, ∀ task' ∈ db'.tasks, task.id = id → task'.id = id →
          task'.completedAt = task.completedAt := by
  constructor
  · intro task hmem
    have hproper := h.proper task hmem
    have hterminal : task.status.terminal = true ↔ task.status = .done ∨ task.status = .cancelled := by
      cases task.status <;> simp [TaskStatus.terminal]
    rw [← hterminal]
    constructor
    · intro hcompleted
      by_contra hopen
      exact hcompleted (hproper.completedAt (Bool.eq_false_iff.mpr hopen))
    · exact hproper.finished
  · intro id db' hstays task hmem task' hmem' hid hid'
    induction hstays generalizing task' with
    | refl => rw [h.unique.eq_of_id hmem' hmem (hid'.trans hid.symm)]
    | tail hbefore hlast ih =>
        obtain ⟨⟨mid, hmid, hname, hover⟩, ⟨last, hlast, hname', hover'⟩, change, rfl⟩ := hlast
        have hdevelops := h.staysOver hbefore
        obtain rfl := (hdevelops.change change trivial).unique.eq_of_id hlast hmem'
          (hname'.trans hid'.symm)
        rw [← ih mid hmid hname]
        exact keepsCompletion_change change hdevelops.unique mid hmid last hlast
          (hname'.trans hname.symm) hover hover'

end Completion

/-- A person records a task and is done with it. -/
def finishedOps : List Op :=
  [.create (.numbered 1 0) { title := "Fix the login", visibility := "team" }
      (humanPrincipal "ann" .owner),
    .update (.numbered 2 100) "0100" { expectedVersion := 1, status := "done" }
      (humanPrincipal "ann" .owner)]

/-- The task is cancelled later on. -/
def revokedOp : Op :=
  .update (.numbered 3 200) "0100" { expectedVersion := 2, status := "cancelled" }
    (humanPrincipal "ann" .owner)

theorem cancelled_task_keeps_its_completion :
    (((Op.run .ascii finishedOps {}).tasks.map fun task => (task.status, task.completedAt)) =
        [(.done, some 100)]) ∧
      ((revokedOp.step .ascii (Op.run .ascii finishedOps {})).tasks.map Task.status) =
        [.cancelled] ∧
      ∀ task ∈ (Op.run .ascii finishedOps {}).tasks,
        ∀ task' ∈ (revokedOp.step .ascii (Op.run .ascii finishedOps {})).tasks,
          task.id = "0100" → task'.id = "0100" → task'.completedAt = task.completedAt := by
  have hdevelops : Develops .ascii (fun _ _ => True) (Op.run .ascii finishedOps {}) :=
    (Develops.empty.change (.operation _) trivial).change (.operation _) trivial
  have hstays : StaysOver .ascii "0100" (Op.run .ascii finishedOps {})
      (revokedOp.step .ascii (Op.run .ascii finishedOps {})) :=
    ⟨by decide +kernel, by decide +kernel, .operation revokedOp, rfl⟩
  exact ⟨by decide +kernel, by decide +kernel, (completed_iff_over hdevelops).2 _ _ (.single hstays)⟩

section Reasons

/-- The operation takes no reason away: an update that names no status sends no blank text for
what the task is blocked by or waits for. -/
def Op.LeavesReason (op : Op) (db : Db) : Prop :=
  match op with
  | .update _ taskID request _ => request.status = "" →
      ∀ current, db.task? (trimSpace taskID) = some current →
        (current.status = .blocked → ∀ text ∈ request.blocker, trimSpace text ≠ "") ∧
        (current.status = .waiting → ∀ text ∈ request.waitingFor, trimSpace text ≠ "")
  | _ => True

/-- Deletions take no reason away either. -/
def Change.LeavesReason (change : Change) (db : Db) : Prop :=
  match change with
  | .operation op => op.LeavesReason db
  | _ => True

theorem Task.Reasoned.relink (h : task.Reasoned) (duplicateOf : Option String) :
    { task with duplicateOf }.Reasoned :=
  ⟨h.blocked, h.waiting⟩

theorem Task.Shifts.reasons
    (h : current.Shifts status task task') (hreasoned : task.Reasoned) : task'.Reasoned := by
  by_cases hcurrent : task = current
  · exact h.reasoned hcurrent
  · rw [h.miss hcurrent]
    exact hreasoned

theorem reasoned_forall₂ (hkeep : ∀ task task', keep task task' → task.Reasoned → task'.Reasoned)
    (h : List.Forall₂ keep db.tasks db'.tasks) (hreasoned : ∀ task ∈ db.tasks, task.Reasoned) :
    ∀ task ∈ db'.tasks, task.Reasoned := by
  intro task' hmem'
  obtain ⟨task, hmem, hrow⟩ := exists_of_forall₂ h hmem'
  exact hkeep task task' hrow (hreasoned task hmem)

/-- The reason for a status that a task has after an update: the update has asked for the status
and given a reason, or the task was in it and its reason has not been taken away. -/
theorem reason_ne {requested : Option TaskStatus} {was target : TaskStatus} {given : Option String}
    {kept : String} (hnext : requested.getD was = target)
    (hasked : requested = some target → ∃ text, given = some text ∧ trimSpace text ≠ "")
    (hleft : requested = none → was = target →
      kept ≠ "" ∧ ∀ text ∈ given, trimSpace text ≠ "") :
    (if requested.getD was ≠ target then ""
      else given.elim kept fun value => clipped value 1000) ≠ "" := by
  rw [if_neg (not_not.mpr hnext)]
  cases requested with
  | none =>
      obtain ⟨hkept, hgiven⟩ := hleft rfl hnext
      cases given with
      | none => exact hkept
      | some text =>
          rw [Option.elim_some]
          exact clipped_ne 1000 (hgiven text rfl)
  | some status =>
      obtain ⟨text, rfl, hblank⟩ := hasked (congrArg some hnext)
      rw [Option.elim_some]
      exact clipped_ne 1000 hblank

/-- The row that the general update writes has its reason. -/
theorem reasoned_rewritten {sortOrder : Int} {kept : Option Task} {editor : String} {now : Instant}
    (hvalid : validateUpdate svc taskID request = .ok update) (hcurrent : current.Reasoned)
    (hleaves : request.status = "" →
      (current.status = .blocked → ∀ text ∈ request.blocker, trimSpace text ≠ "") ∧
      (current.status = .waiting → ∀ text ∈ request.waitingFor, trimSpace text ≠ "")) :
    (task.rewritten (updatedTask update current (update.status.getD current.status) sortOrder kept
      editor now)).Reasoned := by
  obtain ⟨hblocker, hwaitingFor, hnone, hblocked, hwaiting⟩ := validateUpdate_reasons hvalid
  constructor
  · intro hstatus
    refine reason_ne hstatus (hblocker ▸ hblocked) fun hunnamed hwas => ?_
    rw [hblocker]
    exact ⟨hcurrent.blocked hwas, (hleaves (hnone hunnamed)).1 hwas⟩
  · intro hstatus
    refine reason_ne hstatus (hwaitingFor ▸ hwaiting) fun hunnamed hwas => ?_
    rw [hwaitingFor]
    exact ⟨hcurrent.waiting hwas, (hleaves (hnone hunnamed)).2 hwas⟩

theorem reasoned_updates
    {principal : Principal} (hleaves : (Op.update env taskID request principal).LeavesReason db)
    (h : Updates svc env taskID request actor db db')
    (hreasoned : ∀ task ∈ db.tasks, task.Reasoned) : ∀ task ∈ db'.tasks, task.Reasoned := by
  obtain ⟨update, hash, status, db1, hvalid, hrun, hplain⟩ := h
  refine reasoned_forall₂ (fun _ _ h => h.reasoned) hplain.tasks ?_
  obtain ⟨current, kept, edited, sortOrder, added, runs, notes, event, base, hchecks, rfl, -, -, -,
    hadded, -, -, -, -, -, -, -, haside⟩ := updateTx_rows hrun
  obtain ⟨_, _, _, _, rfl⟩ := haside
  intro row hrow
  rcases List.mem_append.mp hrow with hold | hnew
  · obtain ⟨mid, hmid, rfl⟩ := List.mem_map.mp hold
    obtain ⟨link, hlink⟩ := mid.relinked_spec (trimSpace taskID) kept
      (update.unlinks current.status (update.status.getD current.status))
    rw [hlink]
    refine Task.Reasoned.relink ?_ _
    obtain ⟨task, hmem, rfl⟩ := mem_mapWhere.mp hmid
    split
    · exact reasoned_rewritten hvalid (hreasoned current (mem_of_task? hchecks.found).1)
        fun hunnamed => hleaves hunnamed current hchecks.found
    · exact hreasoned task hmem
  · have hqueued := (hadded row hnew).queued
    exact Task.reasoned_of_ne .queued hqueued (by decide)

/-- **One operation** that takes no reason away. -/
theorem reasoned_step (op : Op) (db : Db) (hleaves : op.LeavesReason db)
    (hreasoned : ∀ task ∈ db.tasks, task.Reasoned) :
    ∀ task ∈ (op.step svc db).tasks, task.Reasoned := by
  cases (op.effect db : op.Effect svc db (op.step svc db)) with
  | still htasks => exact reasoned_forall₂ (fun _ _ h => h.reasoned) htasks hreasoned
  | move current status hmoves htasks =>
      exact reasoned_forall₂ (fun _ _ h => h.reasons) htasks hreasoned
  | claim current run hmem hclaimable htasks =>
      exact reasoned_forall₂ (fun _ _ h => h.reasons) htasks hreasoned
  | record task added hfresh hlink htasks hruns hstatus =>
      intro row hrow
      rw [htasks] at hrow
      rcases List.mem_append.mp hrow with hold | hnew
      · exact hreasoned row hold
      · obtain rfl := List.mem_singleton.mp hnew
        rcases hstatus with ⟨hqueued, -⟩ | ⟨hactive, -⟩
        · exact Task.reasoned_of_ne .queued hqueued (by decide)
        · exact Task.reasoned_of_ne .active hactive (by decide)
  | sweep env hop htasks =>
      intro row hrow
      rw [htasks] at hrow
      obtain ⟨task, hmem, rfl⟩ := mem_mapWhere.mp hrow
      split
      · exact Task.reasoned_of_ne .stale rfl (by decide)
      · exact hreasoned task hmem
  | update env taskID request principal hsame hupdates =>
      subst hsame
      exact reasoned_updates hleaves hupdates hreasoned

theorem reasoned_deletes (h : Deletes db db') (hreasoned : ∀ task ∈ db.tasks, task.Reasoned) :
    ∀ task ∈ db'.tasks, task.Reasoned := by
  obtain ⟨gone, sessions, rfl⟩ := h
  intro row hrow
  simp only [Db.without, List.mem_map, List.mem_filter] at hrow
  obtain ⟨task, ⟨hmem, -⟩, rfl⟩ := hrow
  exact (hreasoned task hmem).relink _

/-- **Reasons.** In every state of a board whose changes take no reason away, a task says what it
is blocked by exactly if it is blocked, and what it waits for exactly if it waits. -/
theorem reasons_iff_status (h : Develops svc Change.LeavesReason db) :
    ∀ task ∈ db.tasks, (task.blocker ≠ "" ↔ task.status = .blocked) ∧
      (task.waitingFor ≠ "" ↔ task.status = .waiting) := by
  have hreasoned : ∀ task ∈ db.tasks, task.Reasoned :=
    h.invariant (by simp) (fun op db hop => reasoned_step op db hop) fun _ _ => reasoned_deletes
  intro task hmem
  have hproper := h.proper task hmem
  constructor
  · constructor
    · intro hblocker
      by_contra hstatus
      exact hblocker (hproper.blocker hstatus)
    · exact (hreasoned task hmem).blocked
  · constructor
    · intro hwaiting
      by_contra hstatus
      exact hwaiting (hproper.waitingFor hstatus)
    · exact (hreasoned task hmem).waiting

end Reasons

/-- A person records a task and has it wait for the vendor. -/
def waitingOps : List Op :=
  [.create (.numbered 1 0) { title := "Fix the login", visibility := "team" }
      (humanPrincipal "ann" .owner),
    .update (.numbered 2 100) "0100"
      { expectedVersion := 1, status := "waiting", waitingFor := some "the vendor" }
      (humanPrincipal "ann" .owner)]

theorem waiting_task_has_its_reason :
    ((Op.run .ascii waitingOps {}).tasks.map Task.status) = [.waiting] ∧
      ∀ task ∈ (Op.run .ascii waitingOps {}).tasks,
        (task.blocker ≠ "" ↔ task.status = .blocked) ∧
          (task.waitingFor ≠ "" ↔ task.status = .waiting) := by
  have hdevelops : Develops .ascii Change.LeavesReason (Op.run .ascii waitingOps {}) := by
    refine (Develops.empty.change (.operation _) ?_).change (.operation _) ?_
    · exact trivial
    · exact fun hunnamed => absurd hunnamed (by decide)
  exact ⟨by decide +kernel, reasons_iff_status hdevelops⟩

/-- The text is cleared by an update that names no status. -/
def clearedOp : Op :=
  .update (.numbered 3 200) "0100" { expectedVersion := 2, waitingFor := some "" }
    (humanPrincipal "ann" .owner)

/-- The task waits, and for nothing. -/
theorem waiting_task_without_reason :
    Reachable .ascii (fun _ _ => True) (Op.run .ascii (waitingOps ++ [clearedOp]) {}) ∧
      ((Op.run .ascii (waitingOps ++ [clearedOp]) {}).tasks.map fun task =>
        (task.status, task.waitingFor)) = [(.waiting, "")] :=
  ⟨reachable_run _ _, by decide +kernel⟩

end Taskboard
