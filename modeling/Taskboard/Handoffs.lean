import Taskboard.Rows

/-!
# Handoffs of ended runs

A run that ends without a final handoff is to get one that is derived from what the board knows
of it. Two operations derive it: the general update, for the run it names and where it leaves the
task done or cancelled, and the sweep. A run can end in other ways, and leaves no handoff then
unless its agent has recorded one before (`Op.Drops`).
-/

namespace Taskboard

variable {run run' : AgentRun} {env : Env} {now : Instant} {lg : List Ledger}
  {principal : Principal} {taskID : String} {request : UpdateRequest} {db : Db} {svc : Service}

variable {db' : Db} {hash : Option Digest} {runID : String} {status : TaskStatus}

/-- The run has left a handoff for good: a final one, or that of a run that went stale. -/
def Db.HandedOff (db : Db) (runID : String) : Prop :=
  ∃ row ∈ db.handoffs, row.runID = runID ∧ (row.kind = .final ∨ row.kind = .stale)

instance (db : Db) (runID : String) : Decidable (db.HandedOff runID) :=
  inferInstanceAs (Decidable (∃ row ∈ db.handoffs, _))

theorem Db.HandedOff.of_subset (h : db.HandedOff runID)
    (hsub : ∀ row ∈ db.handoffs, row ∈ db'.handoffs) : db'.HandedOff runID := by
  obtain ⟨row, hrow, hcloses⟩ := h
  exact ⟨row, hsub row hrow, hcloses⟩

section Derived

variable {itemID eventID : String} {kind : HandoffKind}

theorem foldl_addReference (references : List TaskReference) (item : RunHandoff) :
    (references.foldl RunHandoff.addReference item).id = item.id ∧
      (references.foldl RunHandoff.addReference item).taskID = item.taskID ∧
      (references.foldl RunHandoff.addReference item).runID = item.runID ∧
      (references.foldl RunHandoff.addReference item).kind = item.kind := by
  induction references generalizing item with
  | nil => exact ⟨rfl, rfl, rfl, rfl⟩
  | cons reference rest ih =>
      have hsame : (item.addReference reference).id = item.id ∧
          (item.addReference reference).taskID = item.taskID ∧
          (item.addReference reference).runID = item.runID ∧
          (item.addReference reference).kind = item.kind := by
        unfold RunHandoff.addReference
        split
        all_goals exact ⟨rfl, rfl, rfl, rfl⟩
      obtain ⟨hid, htask, hrun, hkind⟩ := ih (item.addReference reference)
      exact ⟨hid.trans hsame.1, htask.trans hsame.2.1, hrun.trans hsame.2.2.1,
        hkind.trans hsame.2.2.2⟩

/-- A handoff of the run under this name, and an event, are added. -/
def Derives (itemID eventID taskID runID : String) (kind : HandoffKind) (db db' : Db) : Prop :=
  ∃ item event, item.id = itemID ∧ item.taskID = taskID ∧ item.runID = runID ∧
    item.kind = kind ∧ event.id = eventID ∧
    db' = { db with handoffs := db.handoffs ++ [item], events := db.events ++ [event] }

theorem run_derivedHandoffTx (item : RunHandoff) (htask : (db.task? item.taskID).isSome = true)
    (hrun : ∃ run ∈ db.runs, run.id = item.runID) (hitem : ∀ row ∈ db.handoffs, row.id ≠ item.id)
    (hevent : ∀ event ∈ db.events, event.id ≠ eventID) :
    ∃ event, event.id = eventID ∧ (derivedHandoffTx item eventID).run db =
      .ok ((), { db with handoffs := db.handoffs ++ [item], events := db.events ++ [event] }) := by
  refine ⟨_, ?_, Tx.run_bind_ok.mpr ⟨(), _, run_insertRunHandoff_ok.mpr
    ⟨htask, hrun, hitem, rfl⟩, run_insertEvent_ok.mpr ⟨htask, ?_, rfl⟩⟩⟩
  · rfl
  · exact hevent

/-- **A derived handoff.** The run has left one already, or it leaves one now, where the task and
the run are there and the identifiers are new. -/
theorem exec_ensureDerivedHandoff (svc : Service) (now : Instant) (kind : HandoffKind)
    (htask : (db.task? taskID).isSome = true)
    (hrun : ∃ run ∈ db.runs, run.id = runID) (hitem : ∀ row ∈ db.handoffs, row.id ≠ itemID)
    (hevent : ∀ event ∈ db.events, event.id ≠ eventID) :
    db.HandedOff runID ∧
        ((ensureDerivedHandoff svc now itemID eventID taskID runID kind).exec db).2 = db ∨
      Derives itemID eventID taskID runID kind db
        ((ensureDerivedHandoff svc now itemID eventID taskID runID kind).exec db).2 := by
  unfold ensureDerivedHandoff
  rw [Call.exec_bind_of_ok (Call.exec_look _ _)]
  split
  · rename_i hcount
    obtain ⟨row, hrow⟩ := List.exists_mem_of_length_pos hcount
    obtain ⟨hmem, hcloses⟩ := List.mem_filter.mp hrow
    exact Or.inl ⟨⟨row, hmem, of_decide_eq_true hcloses⟩, rfl⟩
  · obtain ⟨task, hfound⟩ := Option.isSome_iff_exists.mp htask
    obtain ⟨-, rfl⟩ := mem_of_task? hfound
    rw [Call.exec_bind_of_ok (exec_getTask hfound), Call.exec_bind_of_ok (Call.exec_look _ _)]
    extract_lets item own
    obtain ⟨hid, hof, hnamed, hkind⟩ := foldl_addReference own item
    obtain ⟨event, hevent, hrun⟩ := run_derivedHandoffTx (own.foldl RunHandoff.addReference item)
      (hof.symm ▸ htask) (hnamed.symm ▸ hrun) (hid.symm ▸ hitem) hevent
    rw [Call.exec_tx, hrun]
    exact Or.inr ⟨_, event, hid, hof, hnamed, hkind, hevent, rfl⟩

/-- These runs, each with its task, have left a handoff, and no other handoffs have been added. -/
structure Hands (names : List (String × String)) (db db' : Db) : Prop where
  runs : db'.runs = db.runs
  kept : ∀ row ∈ db.handoffs, row ∈ db'.handoffs
  added : ∀ row ∈ db'.handoffs, row ∈ db.handoffs ∨ (row.runID, row.taskID) ∈ names
  given : ∀ name ∈ names, db'.HandedOff name.1

theorem Hands.append {names names' : List (String × String)} {db'' : Db}
    (h : Hands names db db') (h' : Hands names' db' db'') : Hands (names ++ names') db db'' where
  runs := h'.runs.trans h.runs
  kept row hrow := h'.kept row (h.kept row hrow)
  added := by
    intro row hrow
    rcases h'.added row hrow with hmid | hname
    · exact (h.added row hmid).imp_right (List.mem_append_left _)
    · exact Or.inr (List.mem_append_right _ hname)
  given := by
    intro name hname
    rcases List.mem_append.mp hname with hfirst | hsecond
    · exact (h.given name hfirst).of_subset h'.kept
    · exact h'.given name hsecond

theorem hands_of_derives (hkind : kind = .final ∨ kind = .stale)
    (h : db.HandedOff runID ∧ db' = db ∨ Derives itemID eventID taskID runID kind db db') :
    Hands [(runID, taskID)] db db' := by
  rcases h with ⟨hdone, rfl⟩ | ⟨item, event, -, htask, hrun, hof, -, rfl⟩
  · exact ⟨rfl, fun _ h => h, fun _ => Or.inl, List.forall_mem_singleton.mpr hdone⟩
  · refine ⟨rfl, fun _ => List.mem_append_left _, fun row hrow => ?_,
      List.forall_mem_singleton.mpr ⟨item, by simp, hrun, hof.symm ▸ hkind⟩⟩
    rcases List.mem_append.mp hrow with hold | hnew
    · exact Or.inl hold
    · rw [List.mem_singleton.mp hnew, hrun, htask]
      exact Or.inr (List.mem_singleton_self _)

end Derived

/-- The same run; where it has ended, it had ended before or it is one of which `p` says so. -/
structure AgentRun.Ends (p : String → String → String → Prop) (run run' : AgentRun) : Prop where
  id : run'.id = run.id
  taskID : run'.taskID = run.taskID
  agent : run'.agent = run.agent
  ended : run'.endedAt ≠ none → run.endedAt ≠ none ∨ p run.id run.taskID run.agent

instance {p : String → String → String → Prop} : IsPreorder AgentRun (AgentRun.Ends p) where
  refl _ := ⟨rfl, rfl, rfl, Or.inl⟩
  trans _ _ _ h h' := by
    refine ⟨h'.id.trans h.id, h'.taskID.trans h.taskID, h'.agent.trans h.agent, fun hended => ?_⟩
    rcases h'.ended hended with hbefore | hp
    · exact h.ended hbefore
    · rw [h.id, h.taskID, h.agent] at hp
      exact Or.inr hp

/-- The runs, by identifier, task and agent, that the operation ends without a handoff, where it
ends any: it leaves the run it names waiting or blocked, ends the other runs of an agent that
merges their task into another, or it blocks on an escalation, completes a pause or a
cancellation, or puts work back into the queue. -/
def Op.Drops (op : Op) (db : Db) (runID taskID agent : String) : Prop :=
  match op with
  | .update _ id request principal => taskID = trimSpace id ∧
      ∃ current, db.task? (trimSpace id) = some current ∧
        current.version = request.expectedVersion ∧
        (runID = request.runID ∧ (request.nextStatus current.status = .waiting ∨
            request.nextStatus current.status = .blocked) ∨
          (∃ target, request.duplicateOf = some target ∧ trimSpace target ≠ "") ∧
            agent = trimSpace principal.id)
  | .escalate _ _ request _ => request.blocking = true ∧ runID = trimSpace request.runID
  | .updateControl _ controlID request _ =>
      RunControlStatus.ofString? request.status = some .completed ∧
        ∃ item, (db.controls.find? fun row => row.id = trimSpace controlID) = some item ∧
          (item.kind = .pause ∨ item.kind = .cancel) ∧ runID = item.targetRunID
  | .reviewAndRequeue _ id request _ =>
      taskID = trimSpace id ∧ runID = trimSpace request.targetRunID
  | _ => False

section Ends

variable {p : String → String → String → Prop}

theorem AgentRun.SameLease.ends (h : run.SameLease run') :
    run.Ends p run' := by
  obtain ⟨_, rfl⟩ := h
  exact ⟨rfl, rfl, rfl, Or.inl⟩

/-- A statement that ends runs ends those it selects. -/
theorem ends_updateWhere {q : Db → AgentRun → Bool} {f : AgentRun → AgentRun}
    {hf : ∀ run, runTable.key (f run) = runTable.key run}
    (hsame : ∀ run, (f run).id = run.id ∧ (f run).taskID = run.taskID ∧ (f run).agent = run.agent)
    (hp : ∀ db run, q db run = true → p run.id run.taskID run.agent) :
    (runTable.updateWhere q f hf : TxM Nat).Each (Keeping lg (List.Forall₂ (AgentRun.Ends p))) :=
  Table.each_updateWhere fun db =>
    { refl_of (Keeping lg (List.Forall₂ (AgentRun.Ends p))) db with
      runs := forall₂_mapWhere fun run _ hrun =>
        ⟨(hsame run).1, (hsame run).2.1, (hsame run).2.2, fun _ => Or.inr (hp db run hrun)⟩ }

theorem ends_endActiveRun {also : AgentRun → Bool} (hp : ∀ taskID agent, p runID taskID agent):
    (endActiveRun runID also status now).Each (Keeping lg (List.Forall₂ (AgentRun.Ends p))) := by
  refine ends_updateWhere (fun _ => ⟨rfl, rfl, rfl⟩) fun _ run hrun => ?_
  simp only [Bool.and_eq_true, decide_eq_true_eq] at hrun
  rw [hrun.1.1.1]
  exact hp _ _

/-- A run that has ended had ended before, or `p` says so of it. -/
def EndsBy (p : String → String → String → Prop) (db db' : Db) : Prop :=
  ∀ run' ∈ db'.runs, run'.endedAt ≠ none → ∃ run ∈ db.runs, run.Ends p run'

theorem EndsBy.of_forall₂ (h : List.Forall₂ (AgentRun.Ends p) db.runs db'.runs) :
    EndsBy p db db' :=
  fun _ hrun' _ => exists_of_forall₂ h hrun'

theorem EndsBy.of_eq (h : db'.runs = db.runs) : EndsBy p db db' :=
  fun run' hrun' _ => ⟨run', h ▸ hrun', refl_of (AgentRun.Ends p) run'⟩

theorem EndsBy.of_opened (h : db'.runs = db.runs ++ [run])
    (hopen : run.endedAt = none) : EndsBy p db db' := by
  intro run' hrun' hended
  rcases List.mem_append.mp (h ▸ hrun') with hold | hnew
  · exact ⟨run', hold, refl_of (AgentRun.Ends p) run'⟩
  · rw [List.mem_singleton.mp hnew] at hended
    exact absurd hopen hended

theorem runs_insertQueuedTask {newID : Nat → String} {queued : QueuedTask}
    {u : Unit} (h : (insertQueuedTask newID queued now).run db = .ok (u, db')) :
    db'.runs = db.runs := by
  obtain ⟨_, _, _, -, -, -, -, -, _, _, _, _, rfl⟩ := insertQueuedTask_ok h
  rfl

/-- **The runs that an operation ends.** A run that has ended had ended before, or the operation
drops it. What the general update and the sweep do is looked at further below. -/
theorem endsBy_step (op : Op) (db : Db) (hupdate : op.operation ≠ "task_update")
    (hsweep : ∀ env, op ≠ .sweep env) : EndsBy (op.Drops db) db (op.step svc db) := by
  cases hplain : op.plain with
  | true => exact .of_forall₂ ((plain_step hplain db).runs.imp fun _ _ h => h.ends)
  | false =>
      cases op with
      | start env request principal =>
          rcases Call.atMost_then_quiet atMost_startFor_opens (fun _ => Call.quiet_pure _) db with
            hsame | ⟨run, hopens, hruns⟩
          · exact .of_eq (congrArg Db.runs hsame)
          · exact .of_opened hruns hopens.opened.endedAt
      | claim env taskID request principal =>
          rcases Call.atMost_then_quiet atMost_claimFor_opens (fun _ => Call.quiet_pure _) db with
            hsame | ⟨run, hopens, hruns⟩
          · exact .of_eq (congrArg Db.runs hsame)
          · exact .of_opened hruns hopens.opened.endedAt
      | create env request principal =>
          rcases Call.atMost_then_quiet atMost_createFor (fun _ => Call.quiet_pure _) db with
            hsame | ⟨_, _, hrun⟩
          · exact .of_eq (congrArg Db.runs hsame)
          · exact .of_eq (runs_insertQueuedTask hrun)
      | fireSchedule env schedule scheduledFor runBy =>
          rcases Call.atMost_then_quiet atMost_fireSchedule (fun _ => Call.quiet_pure _) db with
            hsame | ⟨_, _, hrun⟩
          · exact .of_eq (congrArg Db.runs hsame)
          · exact .of_eq (runs_insertQueuedTask hrun)
      | heartbeat env taskID runID principal =>
          rcases Call.atMost_then_quiet atMost_heartbeatFor (fun _ => Call.quiet_pure _) db with
            hsame | hbeats
          · exact .of_eq (congrArg Db.runs hsame)
          · refine .of_forall₂ (hbeats.runs ▸ forall₂_mapWhere fun run _ _ => ?_)
            exact ⟨rfl, rfl, rfl, Or.inl⟩
      | resolve env taskID escalationID request principal delegatedBy =>
          rcases Call.atMost_then_quiet atMost_resolveEscalation (fun _ => Call.quiet_pure _) db
            with hsame | ⟨_, _, _, hrun⟩
          · exact .of_eq (congrArg Db.runs hsame)
          · obtain ⟨_, _, -, -, -, -, hruns, -⟩ := resolveEscalationTx_ok hrun
            exact .of_eq hruns
      | escalate env taskID request principal =>
          rcases Call.atMost_then_quiet atMost_createEscalationFor (fun _ => Call.quiet_pure _) db
            with hsame | ⟨checked, _, ⟨hblocking, -, hnamed⟩, hrun⟩
          · exact .of_eq (congrArg Db.runs hsame)
          · refine .of_forall₂ ((each_createEscalationTx_of fun hblocks => ?_).run hrun).runs
            exact ends_endActiveRun fun _ _ => ⟨hblocking ▸ hblocks, hnamed⟩
      | updateControl env controlID request principal =>
          rcases Call.atMost_then_quiet atMost_updateRunControlFor (fun _ => Call.quiet_pure _) db
            with hsame | ⟨_, _, hstatus, -, -, hrun⟩
          · exact .of_eq (congrArg Db.runs hsame)
          · refine .of_forall₂ (updateRunControlTx_of ?_ hrun).runs
            intro item hfound hcompleted hkind status
            exact ends_endActiveRun fun _ _ => ⟨hstatus ▸ hcompleted, item, hfound, hkind, rfl⟩
      | reviewAndRequeue env taskID request principal =>
          rcases Call.atMost_then_quiet atMost_reviewAndRequeueFor (fun _ => Call.quiet_pure _) db
            with hsame | ⟨_, hrun⟩
          · exact .of_eq (congrArg Db.runs hsame)
          · refine .of_forall₂ (reviewAndRequeueTx_of ?_ hrun).runs
            refine ends_updateWhere (fun _ => ⟨rfl, rfl, rfl⟩) fun _ run hselected => ?_
            simp only [Bool.and_eq_true, decide_eq_true_eq] at hselected
            exact ⟨hselected.1.2, hselected.1.1⟩
      | update env taskID request principal => exact absurd rfl hupdate
      | sweep env => exact absurd rfl (hsweep env)
      | _ => exact Bool.noConfusion hplain

end Ends

section Update

variable {actor : String} {update : TaskUpdate}

/-- The runs that the transaction of the general update may end: the one it names, and those of
its caller where the task is a duplicate. -/
def TaskUpdate.EndsRun (update : TaskUpdate) (taskID actor runID runTask agent : String) : Prop :=
  runTask = taskID ∧ (update.runID ≠ "" ∧ runID = update.runID ∨
    (∃ target, update.duplicateOf = some target ∧ target ≠ "") ∧ agent = trimSpace actor)

/-- Runs end as `p` says, events are drawn from the first identifiers, and no handoff is
written. -/
structure Leaves (env : Env) (p : String → String → String → Prop) (db db' : Db) : Prop where
  runs : List.Forall₂ (AgentRun.Ends p) db.runs db'.runs
  events : ∀ event ∈ db'.events, event ∈ db.events ∨ ∃ n < 4, event.id = env.newID n
  handoffs : db'.handoffs = db.handoffs

instance {p : String → String → String → Prop} : IsPreorder Db (Leaves env p) where
  refl db := ⟨List.forall₂_refl _, fun _ => Or.inl, rfl⟩
  trans _ _ _ h h' := by
    refine ⟨forall₂_trans h.runs h'.runs, fun event hevent => ?_, h'.handoffs.trans h.handoffs⟩
    rcases h'.events event hevent with hold | hnew
    · exact h.events event hold
    · exact Or.inr hnew

theorem leaves_insertEvent {p : String → String → String → Prop} {event : Event} {n : Nat}
    (hn : n < 4) (hid : event.id = env.newID n) : (insertEvent event).Each (Leaves env p) := by
  refine Table.each_insert fun db => ⟨List.forall₂_refl _, fun other hother => ?_, rfl⟩
  rcases List.mem_append.mp hother with hold | hnew
  · exact Or.inl hold
  · exact Or.inr ⟨n, hn, List.mem_singleton.mp hnew ▸ hid⟩

theorem leaves_linkDuplicate {current row : Task} {kept : Option Task}
    (hkept : kept ≠ none → ∃ target, update.duplicateOf = some target ∧ target ≠ "") :
    (linkDuplicate env taskID actor update current row kept).Each
      (Leaves env (update.EndsRun taskID actor)) := by
  cases kept with
  | some kept =>
      refine Tx.each_bind (Table.each_updateWhere fun db =>
        ⟨List.forall₂_refl _, fun _ => Or.inl, rfl⟩) fun _ => ?_
      refine Tx.each_bind (Table.each_updateWhere fun db =>
        ⟨forall₂_mapWhere fun run _ hrun => ?_, fun _ => Or.inl, rfl⟩) fun _ => ?_
      · simp only [Bool.and_eq_true, decide_eq_true_eq] at hrun
        refine ⟨rfl, rfl, rfl, fun _ => Or.inr ⟨hrun.1.1.1, Or.inr ⟨?_, hrun.1.2⟩⟩⟩
        exact hkept (Option.some_ne_none kept)
      · exact leaves_insertEvent (n := 1) (by omega) rfl
  | none =>
      exact Tx.each_ite (Tx.each_bind (Table.each_updateWhere fun db =>
        ⟨List.forall₂_refl _, fun _ => Or.inl, rfl⟩) fun _ => Tx.each_pure _) (Tx.each_pure _)

theorem leaves_writeRun :
    (writeRun svc env.now taskID update.runID status).Each
      (Leaves env (update.EndsRun taskID actor)) := by
  unfold writeRun
  split
  · exact Tx.each_pure _
  · rename_i hne
    refine Tx.each_bind (Table.each_updateWhere fun db =>
      ⟨forall₂_mapWhere fun run _ hrun => ?_, fun _ => Or.inl, rfl⟩) fun _ => Tx.each_lift _
    simp only [Bool.and_eq_true, decide_eq_true_eq] at hrun
    exact ⟨rfl, rfl, rfl, fun _ => Or.inr ⟨hrun.2, Or.inl ⟨hne, hrun.1⟩⟩⟩

theorem leaves_updateTx
    (h : (updateTx svc env taskID update actor hash).run db = .ok (status, db')) :
    Leaves env (update.EndsRun taskID actor) db db' := by
  refine triple_updateTx (R := Leaves env (update.EndsRun taskID actor)) ?_ ?_ ?_
    (fun _ _ _ => leaves_linkDuplicate) (fun _ => leaves_writeRun)
    (fun _ _ hn hid => leaves_insertEvent hn hid) db status db' (refl_of (Leaves _ _) db) h
  · rintro db _ ⟨_, _, _, _, rfl⟩
    exact ⟨List.forall₂_refl _, fun _ => Or.inl, rfl⟩
  · exact fun _ => Table.each_insert fun _ => ⟨List.forall₂_refl _, fun _ => Or.inl, rfl⟩
  · exact fun _ => Tx.each_bind (Table.each_updateWhere fun _ =>
      ⟨List.forall₂_refl _, fun _ => Or.inl, rfl⟩) fun _ =>
        Tx.each_ite (Tx.each_selectOr _) (Tx.each_pure _)

/-- The task that was updated is still there. -/
theorem task?_updateTx (h : (updateTx svc env taskID update actor hash).run db = .ok (status, db')):
    (db'.task? taskID).isSome = true := by
  obtain ⟨current, tasks, added, _, _, _, _, hcurrent, -, -, -, htasks, -, -, -, -, -, -, -, -, -,
    haside⟩ := updateTx_ok h
  obtain ⟨_, _, _, _, rfl⟩ := haside
  obtain ⟨hmem, hid⟩ := mem_of_task? hcurrent
  obtain ⟨task, hmem', hupdated⟩ := exists_next_of_forall₂ htasks hmem
  refine List.find?_isSome.mpr ⟨task, List.mem_append_left _ hmem', ?_⟩
  simpa using hupdated.id.trans hid

theorem exec_afterUpdate (htask : (db.task? taskID).isSome = true):
    ((afterUpdate svc env taskID runID status).exec db).2 =
      if runID ≠ "" ∧ status.terminal then
        ((ensureDerivedHandoff svc env.now (env.newID 4) (env.newID 5) taskID runID
          .final).exec db).2
      else db := by
  obtain ⟨task, hfound⟩ := Option.isSome_iff_exists.mp htask
  obtain ⟨-, rfl⟩ := mem_of_task? hfound
  rw [afterUpdate, Call.exec_bind_of_ok (exec_getTask hfound)]
  split
  · rw [Call.exec_bind_pure_snd, Call.exec_bind_pure_snd, Call.exec_attempt]
  · rfl

/-- The identifiers that a call draws for handoffs and events are new, and no two are the same. A
call draws two for each run that it may derive a handoff of, and four before. -/
structure Op.DrawsNew (op : Op) (db : Db) : Prop where
  handoffs : ∀ n < 2 * db.runs.length + 6, ∀ row ∈ db.handoffs, row.id ≠ op.env.newID n
  events : ∀ n < 2 * db.runs.length + 6, ∀ event ∈ db.events, event.id ≠ op.env.newID n
  distinct : ∀ n < 2 * db.runs.length + 6, ∀ m < n, op.env.newID m ≠ op.env.newID n

/-- What an operation does about handoffs: those it adds are of runs on the board, and a run that
has ended had ended before, is dropped, or has left a handoff. -/
structure HandsOver (op : Op) (db db' : Db) : Prop where
  kept : ∀ row ∈ db.handoffs, row ∈ db'.handoffs
  placed : ∀ row ∈ db'.handoffs, row ∈ db.handoffs ∨
    ∃ run ∈ db.runs, run.id = row.runID ∧ run.taskID = row.taskID
  closed : ∀ run' ∈ db'.runs, run'.endedAt ≠ none →
    (∃ run ∈ db.runs, run.Ends (op.Drops db) run') ∨ db'.HandedOff run'.id

theorem HandsOver.refl (op : Op) (db : Db) : HandsOver op db db :=
  ⟨fun _ h => h, fun _ => Or.inl, fun run hrun _ =>
    Or.inl ⟨run, hrun, refl_of (AgentRun.Ends _) run⟩⟩

/-- A run that the transaction of the general update has ended is dropped, or it is the one that
the request names and the task is over. -/
theorem ended_updateTx (hvalid : validateUpdate svc (trimSpace taskID) request = .ok update)
    (hrun : (updateTx svc env (trimSpace taskID) update principal.id hash).run db =
      .ok (status, db')) (hrun' : run' ∈ db'.runs) (hended : run'.endedAt ≠ none) :
    (∃ run ∈ db.runs, run.Ends ((Op.update env taskID request principal).Drops db) run') ∨
      (update.runID ≠ "" ∧ status.terminal = true) ∧ run'.id = update.runID := by
  obtain ⟨hversion', hnamed', -, hduplicate, hnext⟩ := validateUpdate_ok hvalid
  obtain ⟨current, tasks, added, runs, notes, event, base, hcurrent, hversion, hstatus, -, -, -, -,
    hwritten, -, -, -, -, -, -, haside⟩ := updateTx_ok hrun
  have hends := (leaves_updateTx hrun).runs
  obtain ⟨_, _, _, _, rfl⟩ := haside
  obtain ⟨run, hmem, hends, hwritten⟩ := exists_of_forall₂ (forall₂_both hends hwritten) hrun'
  have dropped (hdrops : (Op.update env taskID request principal).Drops db run.id run.taskID
      run.agent) :
      ∃ run ∈ db.runs, run.Ends ((Op.update env taskID request principal).Drops db) run' :=
    ⟨run, hmem, hends.id, hends.taskID, hends.agent, fun _ => Or.inr hdrops⟩
  rcases hends.ended hended with hbefore | ⟨hof, ⟨hne, hid⟩ | ⟨⟨target, htarget, hblank⟩, hagent⟩⟩
  · exact Or.inl ⟨run, hmem, hends.id, hends.taskID, hends.agent, fun _ => Or.inl hbefore⟩
  · have hends' : status.endsRun = true := by
      rw [hwritten.named (by simp [AgentRun.isNamed, hne, hid, hof])] at hended
      by_contra hopen
      exact hended (if_neg hopen)
    cases hover : status.terminal with
    | true => exact Or.inr ⟨⟨hne, rfl⟩, hends.id.trans hid⟩
    | false =>
        refine Or.inl (dropped ⟨hof, current, hcurrent, hversion.trans hversion', Or.inl ?_⟩)
        rw [← hnext, ← hstatus]
        refine ⟨hid.trans hnamed', ?_⟩
        cases status <;> simp_all [TaskStatus.endsRun, TaskStatus.terminal]
  · refine Or.inl (dropped ⟨hof, current, hcurrent, hversion.trans hversion', Or.inr ⟨?_, hagent⟩⟩)
    rw [hduplicate] at htarget
    obtain ⟨given, hgiven, rfl⟩ := Option.map_eq_some_iff.mp htarget
    exact ⟨given, hgiven, hblank⟩

/-- **The general update.** The run that it names leaves a handoff where the task is over. -/
theorem handsOver_update (hnew : (Op.update env taskID request principal).DrawsNew db)
    (hvalid : validateUpdate svc (trimSpace taskID) request = .ok update)
    (hrun : (updateTx svc env (trimSpace taskID) update principal.id hash).run db =
      .ok (status, db')) :
    HandsOver (.update env taskID request principal) db
      ((afterUpdate svc env (trimSpace taskID) update.runID status).exec db').2 := by
  have hleaves := leaves_updateTx hrun
  obtain ⟨current, kept, edited, sortOrder, added, runs, notes, event, base, hchecks, -⟩ :=
    updateTx_rows hrun
  have htask : (db'.task? (trimSpace taskID)).isSome = true := task?_updateTx hrun
  rw [exec_afterUpdate htask]
  split
  · rename_i hover
    obtain ⟨run, hmem, hnamed⟩ := hchecks.named hover.1
    simp only [AgentRun.isNamed, Bool.and_eq_true, decide_eq_true_eq] at hnamed
    have hthere : ∃ run' ∈ db'.runs, run'.id = update.runID := by
      obtain ⟨run', hmem', hends⟩ := exists_next_of_forall₂ hleaves.runs hmem
      exact ⟨run', hmem', hends.id.trans hnamed.1.2⟩
    have hitems : ∀ row ∈ db'.handoffs, row.id ≠ env.newID 4 := by
      rw [hleaves.handoffs]
      exact hnew.handoffs 4 (by omega)
    have hevents : ∀ event ∈ db'.events, event.id ≠ env.newID 5 := by
      intro event hevent
      rcases hleaves.events event hevent with hold | ⟨n, hn, hid⟩
      · exact hnew.events 5 (by omega) event hold
      · exact hid ▸ hnew.distinct 5 (by omega) n (by omega)
    obtain ⟨hruns, hkept, hadded, hgiven⟩ := hands_of_derives (Or.inl rfl)
      (exec_ensureDerivedHandoff svc env.now .final htask hthere hitems hevents)
    rw [hleaves.handoffs] at hkept hadded
    refine ⟨hkept, fun row hrow => (hadded row hrow).imp_right fun hname => ?_, ?_⟩
    · obtain ⟨hid, hof⟩ := Prod.mk.inj (List.mem_singleton.mp hname)
      exact ⟨run, hmem, hnamed.1.2.trans hid.symm, hnamed.2.trans hof.symm⟩
    · intro run' hrun' hended
      rw [hruns] at hrun'
      rcases ended_updateTx hvalid hrun hrun' hended with hdrops | ⟨-, hid⟩
      · exact Or.inl hdrops
      · exact Or.inr (hid ▸ hgiven _ (List.mem_singleton_self _))
  · rename_i hopen
    refine ⟨hleaves.handoffs ▸ fun _ h => h, hleaves.handoffs ▸ fun _ => Or.inl, ?_⟩
    intro run' hrun' hended
    rcases ended_updateTx hvalid hrun hrun' hended with hdrops | ⟨hover, -⟩
    · exact Or.inl hdrops
    · exact absurd hover hopen

end Update

section Sweep

variable {newID : Nat → String}

/-- **The loop of the sweep.** Every run that it comes to leaves a handoff. -/
theorem hands_deriveHandoffs (index : Nat) (runs : List AgentRun)
    (htasks : ∀ run ∈ runs, (db.task? run.taskID).isSome = true)
    (hruns : ∀ run ∈ runs, ∃ row ∈ db.runs, row.id = run.id)
    (hhandoffs : ∀ n, 2 * index ≤ n → n < 2 * (index + runs.length) →
      ∀ row ∈ db.handoffs, row.id ≠ newID n)
    (hevents : ∀ n, 2 * index ≤ n → n < 2 * (index + runs.length) →
      ∀ event ∈ db.events, event.id ≠ newID n)
    (hdistinct : ∀ n < 2 * (index + runs.length), ∀ m < n, newID m ≠ newID n) :
    Hands (runs.map fun run => (run.id, run.taskID)) db
      ((deriveHandoffs svc now newID index runs).exec db).2 := by
  induction runs generalizing index db with
  | nil => exact ⟨rfl, fun _ h => h, fun _ => Or.inl, List.forall_mem_nil _⟩
  | cons run rest ih =>
      rw [List.length_cons] at hhandoffs hevents hdistinct
      have hderives := exec_ensureDerivedHandoff svc now .stale (htasks run List.mem_cons_self)
        (hruns run List.mem_cons_self) (hhandoffs (2 * index) (by omega) (by omega))
        (hevents (2 * index + 1) (by omega) (by omega))
      rw [deriveHandoffs, Call.exec_bind_of_ok (Call.exec_attempt _ _)]
      generalize ((ensureDerivedHandoff svc now (newID (2 * index)) (newID (2 * index + 1))
        run.taskID run.id .stale).exec db).2 = mid at hderives ⊢
      have hfirst := hands_of_derives (Or.inr rfl) hderives
      -- The identifiers that are still to come have not been used by this run.
      have hmid : mid.tasks = db.tasks ∧
          (∀ n, 2 * (index + 1) ≤ n → n < 2 * (index + 1 + rest.length) →
            ∀ row ∈ mid.handoffs, row.id ≠ newID n) ∧
          ∀ n, 2 * (index + 1) ≤ n → n < 2 * (index + 1 + rest.length) →
            ∀ event ∈ mid.events, event.id ≠ newID n := by
        rcases hderives with ⟨-, rfl⟩ | ⟨item, event, hid, -, -, -, hid', rfl⟩
        · exact ⟨rfl, fun n _ _ => hhandoffs n (by omega) (by omega),
            fun n _ _ => hevents n (by omega) (by omega)⟩
        · refine ⟨rfl, fun n _ _ row hrow => ?_, fun n _ _ other hother => ?_⟩
          · rcases List.mem_append.mp hrow with hold | hlast
            · exact hhandoffs n (by omega) (by omega) row hold
            · rw [List.mem_singleton.mp hlast, hid]
              exact hdistinct n (by omega) (2 * index) (by omega)
          · rcases List.mem_append.mp hother with hold | hlast
            · exact hevents n (by omega) (by omega) other hold
            · rw [List.mem_singleton.mp hlast, hid']
              exact hdistinct n (by omega) (2 * index + 1) (by omega)
      obtain ⟨htasks', hhandoffs', hevents'⟩ := hmid
      refine hfirst.append (ih (index + 1) (fun row hrow => ?_) (fun row hrow => ?_) hhandoffs'
        hevents' fun n hn => hdistinct n (by omega))
      · rw [Db.task?, htasks']
        exact htasks row (List.mem_cons_of_mem _ hrow)
      · rw [hfirst.runs]
        exact hruns row (List.mem_cons_of_mem _ hrow)

/-- **The sweep.** Every run that it ends leaves a handoff. -/
theorem handsOver_sweep (hnew : (Op.sweep env).DrawsNew db)
    (howned : ∀ run ∈ db.runs, ∃ task ∈ db.tasks, task.id = run.taskID) :
    HandsOver (.sweep env) db ((Op.sweep env).step svc db) := by
  have hstep : (Op.sweep env).step svc db = ((sweepStale svc env).exec db).2 :=
    Call.exec_bind_pure_snd _ _ db
  rw [hstep, exec_sweepStale_loop]
  have hlength : (db.runs.filter (svc.expiredAt env.now)).length ≤ db.runs.length :=
    List.length_filter_le _ _
  have hhands : Hands ((db.runs.filter (svc.expiredAt env.now)).map fun run => (run.id, run.taskID))
      (svc.swept env.now db) ((deriveHandoffs svc env.now env.newID 0
        (db.runs.filter (svc.expiredAt env.now))).exec (svc.swept env.now db)).2 := by
    refine hands_deriveHandoffs 0 _ (fun run hrun => ?_) (fun run hrun => ?_)
      (fun n _ _ => hnew.handoffs n (by omega)) (fun n _ _ => hnew.events n (by omega))
      fun n _ => hnew.distinct n (by omega)
    · obtain ⟨task, htask, hid⟩ := howned run (List.mem_of_mem_filter hrun)
      have hsame : List.Forall₂ (SameKey Task.id) db.tasks (svc.swept env.now db).tasks :=
        forall₂_mapWhere fun _ _ _ => rfl
      obtain ⟨task', htask', hid'⟩ := exists_next_of_forall₂ hsame htask
      exact List.find?_isSome.mpr ⟨task', htask', by simpa using hid'.trans hid⟩
    · have hsame : List.Forall₂ (SameKey AgentRun.id) db.runs (svc.swept env.now db).runs :=
        forall₂_mapWhere fun _ _ _ => rfl
      exact exists_next_of_forall₂ hsame (List.mem_of_mem_filter hrun)
  refine ⟨hhands.kept, fun row hrow => (hhands.added row hrow).imp_right fun hname => ?_, ?_⟩
  · obtain ⟨run, hrun, hsame⟩ := List.mem_map.mp hname
    obtain ⟨hid, hof⟩ := Prod.mk.inj hsame
    exact ⟨run, List.mem_of_mem_filter hrun, hid, hof⟩
  · intro run' hrun' hended
    rw [hhands.runs] at hrun'
    obtain ⟨run, hrun, rfl⟩ := mem_mapWhere.mp hrun'
    by_cases hexpired : svc.expiredAt env.now run = true
    · rw [if_pos hexpired]
      exact Or.inr (hhands.given _ (List.mem_map_of_mem (List.mem_filter.mpr ⟨hrun, hexpired⟩)))
    · rw [if_neg hexpired]
      exact Or.inl ⟨run, hrun, refl_of (AgentRun.Ends _) run⟩


end Sweep

section Board

theorem atMost_addRunHandoffFor {request : AddRunHandoffRequest} :
    (addRunHandoffFor svc env taskID request principal).AtMost fun db db' => ∃ kind item,
      (addHandoffTx env (trimSpace taskID) kind request.clean principal).run db =
        .ok (item, db') := by
  refine Call.atMost_bind_quiet quiet_mayAddHandoff fun kind => ?_
  refine atMost_keyed (fun _ => Call.quiet_lookOr _) ?_
  exact (Call.atMost_tx _).mono fun db db' ⟨item, hrun⟩ => ⟨kind, item, hrun⟩

/-- An agent hands off an active run of its own. -/
theorem addHandoffTx_placed {kind : HandoffKind}
    {request : AddRunHandoffRequest} {item : RunHandoff}
    (h : (addHandoffTx env taskID kind request principal).run db = .ok (item, db')) :
    db'.handoffs = db.handoffs ++ [item] ∧
      ∃ run ∈ db.runs, run.id = item.runID ∧ run.taskID = item.taskID := by
  simp only [addHandoffTx, Tx.run_bind_ok, Tx.run_select_ok, Tx.run_lift_ok, refuse_ok_iff,
    run_insertRunHandoff_ok, run_insertEvent_ok, Tx.run_pure_ok] at h
  obtain ⟨_, _, ⟨rfl, rfl⟩, _, _, ⟨hactive, rfl⟩, _, _, ⟨-, -, -, rfl⟩, _, _, ⟨-, -, rfl⟩, rfl,
    rfl⟩ := h
  refine ⟨rfl, ?_⟩
  rw [ne_eq, not_not, Db.activeRuns] at hactive
  obtain ⟨run, hrun⟩ := List.exists_mem_of_length_pos (hactive.symm ▸ Nat.one_pos)
  simp only [List.mem_filter, Bool.and_eq_true, decide_eq_true_eq] at hrun
  exact ⟨run, hrun.1, hrun.2.1.1.1.1, hrun.2.1.1.1.2⟩

/-- **What an operation does about handoffs.** -/
theorem handsOver_step (op : Op) (hnew : op.DrawsNew db)
    (howned : ∀ run ∈ db.runs, ∃ task ∈ db.tasks, task.id = run.taskID) :
    HandsOver op db (op.step svc db) := by
  have same (hupdate : op.operation ≠ "task_update") (hsweep : ∀ env, op ≠ .sweep env)
      (hlg : Ledger.handoffs ∉ op.ledgers) : HandsOver op db (op.step svc db) := by
    have hloose : Loose op.ledgers (Event.Under op.operation) db (op.step svc db) := loose_step op db
    have hsame := hloose.sameHandoffs hlg
    exact ⟨fun row hrow => hsame ▸ hrow, fun row hrow => Or.inl (hsame ▸ hrow),
      fun run hrun hended => Or.inl (endsBy_step op db hupdate hsweep run hrun hended)⟩
  cases op with
  | update env taskID request principal =>
      have hstep : (Op.update env taskID request principal).step svc db = db ∨ (db = db →
          HandsOver (.update env taskID request principal) db
            ((Op.update env taskID request principal).step svc db)) := by
        refine Call.atMost_then_quiet (E := fun start last => start = db →
          HandsOver (.update env taskID request principal) db last)
          (atMost_updateFor_of fun update hash start status db1 hvalid hrun hstart => ?_)
          (fun _ => Call.quiet_pure _) db
        subst hstart
        exact handsOver_update hnew hvalid hrun
      rcases hstep with hsame | hdone
      · exact hsame.symm ▸ HandsOver.refl _ db
      · exact hdone rfl
  | sweep env => exact handsOver_sweep hnew howned
  | addHandoff env taskID request principal =>
      have hends : EndsBy ((Op.addHandoff env taskID request principal).Drops db) db
          ((Op.addHandoff env taskID request principal).step svc db) :=
        endsBy_step _ db (by simp [Op.operation]) fun _ hop => by cases hop
      have hstep : (Op.addHandoff env taskID request principal).step svc db = db ∨ ∃ kind item,
          (addHandoffTx env (trimSpace taskID) kind request.clean principal).run db =
            .ok (item, (Op.addHandoff env taskID request principal).step svc db) :=
        Call.atMost_then_quiet atMost_addRunHandoffFor (fun _ => Call.quiet_pure _) db
      rcases hstep with hsame | ⟨kind, item, hrun⟩
      · exact hsame.symm ▸ HandsOver.refl _ db
      · obtain ⟨hrows, hplaced⟩ := addHandoffTx_placed hrun
        refine ⟨fun row hrow => ?_, fun row hrow => ?_, fun run hmem hended =>
          Or.inl (hends run hmem hended)⟩
        · rw [hrows]
          exact List.mem_append_left _ hrow
        · rcases List.mem_append.mp (hrows ▸ hrow) with hold | hlast
          · exact Or.inl hold
          · exact Or.inr (List.mem_singleton.mp hlast ▸ hplaced)
  | _ => exact same (by simp [Op.operation]) (fun _ hop => by cases hop) (by simp [Op.ledgers])

/-- Every run is of a task on the board. -/
def Db.RunsOwned (db : Db) : Prop :=
  ∀ run ∈ db.runs, ∃ task ∈ db.tasks, task.id = run.taskID

theorem runsOwned_step (op : Op) (h : db.RunsOwned) : (op.step svc db).RunsOwned := by
  -- no operation takes a task away, so the runs that were there still have theirs
  have old {run run' : AgentRun} (hrun : run ∈ db.runs) (hsame : run'.taskID = run.taskID) :
      ∃ task ∈ (op.step svc db).tasks, task.id = run'.taskID := by
    obtain ⟨task, htask, hid⟩ := h run hrun
    have hloose : Loose op.ledgers (Event.Under op.operation) db (op.step svc db) := loose_step op db
    obtain ⟨kept, added, hrows, hkept, -⟩ := hloose.tasks
    obtain ⟨task', htask', hid'⟩ := exists_next_of_forall₂ hkept htask
    exact ⟨task', hrows ▸ List.mem_append_left _ htask', hid'.trans (hid.trans hsame.symm)⟩
  intro run' hrun'
  cases (op.effect db : op.Effect svc db (op.step svc db)) with
  | still _ hruns | move _ _ _ _ hruns =>
      obtain ⟨run, hrun, hfollows⟩ := exists_of_forall₂ hruns hrun'
      exact old hrun hfollows.taskID
  | claim current run hcurrent _ htasks hof hruns =>
      rcases List.mem_append.mp (hruns ▸ hrun') with hold | hnew
      · exact old hold rfl
      · obtain ⟨task', htask', hshifts⟩ := exists_next_of_forall₂ htasks hcurrent
        exact ⟨task', htask', by rw [List.mem_singleton.mp hnew, hof, hshifts.id]⟩
  | record task added _ _ htasks hruns hstatus _ =>
      rcases List.mem_append.mp (hruns ▸ hrun') with hold | hnew
      · exact old hold rfl
      · rcases hstatus with ⟨-, hnone⟩ | ⟨-, hof⟩
        · simp [hnone] at hnew
        · exact ⟨task, by simp [htasks], (hof run' hnew).symm⟩
  | sweep env _ _ hruns =>
      obtain ⟨run, hrun, rfl⟩ := mem_mapWhere.mp (hruns ▸ hrun')
      exact old hrun (by split <;> rfl)
  | update env taskID request principal _ hupdates =>
      obtain ⟨current, -, -, hwritten⟩ := hupdates.written
      obtain ⟨run, hrun, mid, hmid, hsame⟩ := exists_of_forall₂ hwritten hrun'
      obtain ⟨_, rfl⟩ := hsame
      refine old hrun ?_
      cases hnamed : run.isNamed (trimSpace taskID) request.runID with
      | true => rw [hmid.named hnamed]; rfl
      | false => exact (hmid.other hnamed).1.taskID

/-- Runs are of tasks, handoffs are of runs and their tasks, and every run that has ended has left
a handoff. -/
structure Db.Delivered (db : Db) : Prop where
  named : db.RunsNamed
  owned : db.RunsOwned
  placed : ∀ row ∈ db.handoffs, ∃ run ∈ db.runs, run.id = row.runID ∧ run.taskID = row.taskID
  closed : ∀ run ∈ db.runs, run.endedAt ≠ none → db.HandedOff run.id

/-- A run that the operation would drop has left a handoff before it, and the names that the
operation draws are new. -/
structure Op.HandsOff (op : Op) (db : Db) : Prop where
  dropped : ∀ run ∈ db.runs, run.endedAt = none → op.Drops db run.id run.taskID run.agent →
    db.HandedOff run.id
  drawsNew : op.DrawsNew db

/-- An operation drops no run that has left no handoff. -/
def Change.HandsOff (change : Change) (db : Db) : Prop :=
  match change with
  | .operation op => op.HandsOff db
  | _ => True

theorem delivered_step (op : Op) (hok : op.HandsOff db) (h : db.Delivered) :
    (op.step svc db).Delivered := by
  have hover : HandsOver op db (op.step svc db) := handsOver_step op hok.drawsNew h.owned
  refine ⟨runsNamed_step op db h.named, runsOwned_step op h.owned, fun row hrow => ?_,
    fun run' hrun' hended => ?_⟩
  · have hbefore : ∃ run ∈ db.runs, run.id = row.runID ∧ run.taskID = row.taskID := by
      rcases hover.placed row hrow with hold | hplaced
      · exact h.placed row hold
      · exact hplaced
    obtain ⟨run, hrun, hid, hof⟩ := hbefore
    have hloose : Loose op.ledgers (Event.Under op.operation) db (op.step svc db) := loose_step op db
    obtain ⟨kept, added, hrows, hkept, -⟩ := hloose.runs
    obtain ⟨run', hrun', hsame⟩ := exists_next_of_forall₂ hkept hrun
    obtain ⟨hid', hof', -⟩ : run'.id = run.id ∧ run'.taskID = run.taskID ∧ _ := by
      simpa [SameKey] using hsame
    exact ⟨run', hrows ▸ List.mem_append_left _ hrun', hid'.trans hid, hof'.trans hof⟩
  · rcases hover.closed run' hrun' hended with ⟨run, hrun, hends⟩ | hdone
    · rw [hends.id]
      refine Db.HandedOff.of_subset ?_ hover.kept
      by_cases hbefore : run.endedAt = none
      · exact hok.dropped run hrun hbefore ((hends.ended hended).resolve_left (not_not.mpr hbefore))
      · exact h.closed run hrun hbefore
    · exact hdone

theorem delivered_deletes (hdeletes : Deletes db db') (h : db.Delivered) : db'.Delivered := by
  have hnamed := runsNamed_deletes hdeletes h.named
  obtain ⟨gone, sessions, rfl⟩ := hdeletes
  refine ⟨hnamed, fun run hrun => ?_, fun row hrow => ?_, fun run hrun hended => ?_⟩
  · obtain ⟨hmem, hkept⟩ := List.mem_filter.mp hrun
    obtain ⟨task, htask, hid⟩ := h.owned run hmem
    exact ⟨_, List.mem_map_of_mem (List.mem_filter.mpr ⟨htask, by rw [hid]; exact hkept⟩), hid⟩
  · obtain ⟨hmem, hkept⟩ := List.mem_filter.mp hrow
    obtain ⟨run, hrun, hid, hof⟩ := h.placed row hmem
    exact ⟨run, List.mem_filter.mpr ⟨hrun, by rw [hof]; exact hkept⟩, hid, hof⟩
  · obtain ⟨hmem, hkept⟩ := List.mem_filter.mp hrun
    obtain ⟨row, hrow, hid, hkind⟩ := h.closed run hmem hended
    -- the handoff is of this run, so it stays where the run's task does
    obtain ⟨other, hother, hid', hof⟩ := h.placed row hrow
    obtain rfl := h.named.eq_of_id hother hmem (hid'.trans hid)
    exact ⟨row, List.mem_filter.mpr ⟨hrow, by rw [← hof]; exact hkept⟩, hid, hkind⟩

/-- **Handoffs of ended runs.** Where no operation drops a run that has left no handoff, every run
that has ended has left a final handoff or that of a stale run. -/
theorem ended_runs_handed_off (h : Develops svc Change.HandsOff db) :
    ∀ run ∈ db.runs, run.endedAt ≠ none → db.HandedOff run.id := by
  have hdelivered : db.Delivered := by
    refine h.invariant ?_ (fun op db hok => delivered_step op hok) fun _ _ => delivered_deletes
    exact ⟨⟨List.nodup_nil, List.forall_mem_nil _⟩, List.forall_mem_nil _, List.forall_mem_nil _,
      List.forall_mem_nil _⟩
  exact hdelivered.closed

end Board


/-- An agent takes up a task and leaves it waiting; its run ends, and there is no handoff. -/
theorem waiting_run_leaves_no_handoff :
    Develops .ascii (fun _ _ => True) (Op.run .ascii [startOp, waitOp] {}) ∧
      ∃ run ∈ (Op.run .ascii [startOp, waitOp] {}).runs, run.endedAt ≠ none ∧
        ¬ (Op.run .ascii [startOp, waitOp] {}).HandedOff run.id := by
  refine ⟨(Develops.empty.change (.operation _) trivial).change (.operation _) trivial, ?_⟩
  decide +kernel

/-- The agent records a final handoff of its run. -/
def handoffOp : Op :=
  .addHandoff (.numbered 3 50) "0100"
    { runID := "0101", kind := "final", lastCompletedStep := "Found it", nextAction := "Mend it" }
    (sampleAgent "builder")

/-- Where the agent has recorded a handoff before it waits, the run that ends has left it. -/
theorem waiting_run_handed_off :
    (∃ run ∈ (Op.run .ascii [startOp, handoffOp, waitOp] {}).runs, run.endedAt ≠ none) ∧
      ∀ run ∈ (Op.run .ascii [startOp, handoffOp, waitOp] {}).runs, run.endedAt ≠ none →
        (Op.run .ascii [startOp, handoffOp, waitOp] {}).HandedOff run.id := by
  have hstart : startOp.HandsOff {} :=
    ⟨nofun, nofun, nofun, by decide +kernel⟩
  have hrecord : handoffOp.HandsOff (startOp.step .ascii {}) :=
    ⟨fun _ _ _ => nofun, by decide +kernel, by decide +kernel, by decide +kernel⟩
  have hwait : waitOp.HandsOff (Op.run .ascii [startOp, handoffOp] {}) := by
    have hdone : ∀ run ∈ (Op.run .ascii [startOp, handoffOp] {}).runs,
        (Op.run .ascii [startOp, handoffOp] {}).HandedOff run.id := by decide +kernel
    exact ⟨fun run hrun _ _ => hdone run hrun, by decide +kernel, by decide +kernel,
      by decide +kernel⟩
  have hdevelops : Develops .ascii Change.HandsOff (Op.run .ascii [startOp, handoffOp, waitOp] {}) :=
    ((Develops.empty.change (.operation _) hstart).change (.operation _) hrecord).change
      (.operation _) hwait
  exact ⟨by decide +kernel, ended_runs_handed_off hdevelops⟩

end Taskboard
