import Taskboard.Authority

/-!
# What a lease grants

An agent may work with less than the capabilities of its policy: the live lease of a run lets it
update the task of that run, and finish it. The grant ends with the lease. No call that the lease
stands behind cancels a task, links a duplicate or skips an item, and none of them brings a
lapsed lease back (`lease_grants_no_more`).
-/

namespace Taskboard

variable {since : Instant} {position : Int} {index : Nat} {newID : Nat → String}
  {status : TaskStatus} {db db' : Db} {env : Env} {principal : Principal} {svc : Service}
  {actor taskID : String} {current : Task} {request : UpdateRequest}

/-- The update names a live run of its task, which belongs to the caller, and the caller may
change that task. -/
def HoldsNamed (env : Env) (taskID : String) (request : UpdateRequest) (principal : Principal)
    (db : Db) : Prop :=
  ∃ run ∈ db.runs, run.id = request.runID ∧ run.taskID = trimSpace taskID ∧
    run.agent = principal.id ∧ run.live env.now = true ∧
    ∃ current, db.task? (trimSpace taskID) = some current ∧ canMutate current principal = true

/-- Whatever task is cancelled was so before. -/
def CancelsNone (db db' : Db) : Prop :=
  ∀ task' ∈ db'.tasks, task'.status = .cancelled →
    ∃ task ∈ db.tasks, task.id = task'.id ∧ task.status = .cancelled

/-- Whatever task is linked as a duplicate was linked so before. -/
def LinksNone (db db' : Db) : Prop :=
  ∀ task' ∈ db'.tasks, task'.duplicateOf ≠ none →
    ∃ task ∈ db.tasks, task.id = task'.id ∧ task.duplicateOf = task'.duplicateOf

/-- Whatever item is skipped was so before. -/
def SkipsNone (db db' : Db) : Prop :=
  ∀ item' ∈ db'.items, item'.status = .skipped →
    ∃ item ∈ db.items, item.id = item'.id ∧ item.taskID = item'.taskID ∧ item.status = .skipped

instance : IsPreorder Db SkipsNone where
  refl _ item hitem hskipped := ⟨item, hitem, rfl, rfl, hskipped⟩
  trans _ _ _ h h' item'' hitem'' hskipped'' := by
    obtain ⟨item', hitem', hid', htask', hskipped'⟩ := h' item'' hitem'' hskipped''
    obtain ⟨item, hitem, hid, htask, hskipped⟩ := h item' hitem' hskipped'
    exact ⟨item, hitem, hid.trans hid', htask.trans htask', hskipped⟩

section Items

variable {now : Instant} {update : TaskUpdate} {row : Task}

theorem SkipsNone.of_eq (h : db'.items = db.items) : SkipsNone db db' := by
  intro item hitem hskipped
  exact ⟨item, h ▸ hitem, rfl, rfl, hskipped⟩

/-- A statement that sets no item to skipped. -/
theorem skipsNone_updateItems {p : Db → ChecklistItem → Bool} {f : ChecklistItem → ChecklistItem}
    {hf : ∀ item, itemTable.key (f item) = itemTable.key item}
    (h : ∀ item, (f item).status ≠ .skipped) :
    (itemTable.updateWhere p f hf : TxM Nat).Each SkipsNone := by
  refine Table.each_updateWhere fun db item' hitem' hskipped => ?_
  obtain ⟨item, hitem, rfl⟩ := mem_mapWhere.mp hitem'
  split at hskipped
  · exact absurd hskipped (h item)
  · rename_i hmiss
    rw [if_neg hmiss]
    exact ⟨item, hitem, rfl, rfl, hskipped⟩

theorem skipsNone_insertItem {id label : String} {status : ItemStatus}
    {required : Bool} (h : status ≠ .skipped) :
    (insertItem id taskID label status position required now).Each SkipsNone := by
  refine Table.each_insert fun db item' hitem' hskipped => ?_
  rcases List.mem_append.mp hitem' with hold | hnew
  · exact ⟨item', hold, rfl, rfl, hskipped⟩
  · rw [List.mem_singleton.mp hnew] at hskipped
    exact absurd hskipped h

theorem skipsNone_insertItems (items : List (String × Bool)):
    (insertItems newID taskID now (fun _ => .todo) index items).Each SkipsNone := by
  induction items generalizing index with
  | nil => exact Tx.each_pure _
  | cons item rest ih => exact Tx.each_bind (skipsNone_insertItem ItemStatus.noConfusion) fun _ => ih

theorem skipsNone_addItems (labels : List String):
    (addItems newID taskID now position index labels).Each SkipsNone := by
  induction labels generalizing index with
  | nil => exact Tx.each_pure _
  | cons label rest ih =>
      refine Tx.each_lift_bind fun _ => ?_
      exact Tx.each_bind (skipsNone_insertItem (by decide)) fun _ => ih

theorem skipsNone_completeItems (ids : List String) :
    (completeItems taskID now ids).Each SkipsNone := by
  induction ids with
  | nil => exact Tx.each_pure _
  | cons id rest ih =>
      refine Tx.each_bind (skipsNone_updateItems fun _ => by simp) fun _ => ?_
      refine Tx.each_ite (Tx.each_bind ih fun _ => Tx.each_pure _) ?_
      refine Tx.each_select_bind fun _ => ?_
      exact Tx.each_lift_bind fun _ => ih

theorem skipsNone_setCurrentItem {itemID : String} :
    (setCurrentItem taskID itemID now).Each SkipsNone := by
  unfold setCurrentItem
  refine Tx.each_ite (Tx.each_pure _) ?_
  refine Tx.each_bind (skipsNone_updateItems fun _ => by simp) fun _ => ?_
  exact Tx.each_bind (skipsNone_updateItems fun _ => by simp) fun _ => Tx.each_lift _

theorem skipsNone_replaceChecklist :
    (replaceChecklist env taskID update current).Each SkipsNone := by
  unfold replaceChecklist
  split
  · exact Tx.each_pure _
  · refine Tx.each_select_bind fun _ => ?_
    refine Tx.each_lift_bind fun _ => ?_
    refine Tx.each_bind (Table.each_deleteWhere fun db item hitem hskipped => ?_) fun _ =>
      skipsNone_insertItems _
    exact ⟨item, List.mem_of_mem_filter hitem, rfl, rfl, hskipped⟩

/-- Where the update lists no item to skip, editing the checklist skips none. -/
theorem skipsNone_editItems (h : update.skipItemIDs = []) :
    (editItems env taskID update current).Each SkipsNone := by
  unfold editItems
  rw [h]
  refine Tx.each_bind skipsNone_replaceChecklist fun _ => ?_
  refine Tx.each_bind (skipsNone_completeItems _) fun _ => ?_
  refine Tx.each_bind (Tx.each_pure _) fun _ => ?_
  refine Tx.each_bind skipsNone_setCurrentItem fun _ => ?_
  refine Tx.each_select_bind fun _ => ?_
  exact Tx.each_bind (skipsNone_addItems _) fun _ => Tx.each_pure _

theorem skipsNone_linkDuplicate {kept : Option Task} :
    (linkDuplicate env taskID actor update current row kept).Each SkipsNone := by
  unfold linkDuplicate
  cases kept with
  | some kept =>
      refine Tx.each_bind (Table.each_updateWhere fun db => .of_eq rfl) fun _ => ?_
      refine Tx.each_bind (Table.each_updateWhere fun db => .of_eq rfl) fun _ => ?_
      exact Table.each_insert fun db => .of_eq rfl
  | none =>
      exact Tx.each_ite (Tx.each_bind (Table.each_updateWhere fun db => .of_eq rfl) fun _ =>
        Tx.each_pure _) (Tx.each_pure _)

theorem skipsNone_createRecurrence :
    (createRecurrence svc env taskID actor current row).Each SkipsNone := by
  unfold createRecurrence
  refine Tx.each_ite ?_ (Tx.each_pure _)
  refine Tx.each_lift_bind fun _ => ?_
  refine Tx.each_select_bind fun _ => ?_
  refine Tx.each_bind (Table.each_insert fun db => .of_eq rfl) fun _ => ?_
  refine Tx.each_select_bind fun _ => ?_
  refine Tx.each_bind (skipsNone_insertItems _) fun _ => ?_
  refine Tx.each_select_bind fun _ => ?_
  refine Tx.each_bind (each_copyRequirements (fun _ _ => .of_eq rfl) _) fun _ => ?_
  refine Tx.each_bind (Tx.each_ite (Tx.each_bind
    (each_applyDefaultRequirements fun _ _ => .of_eq rfl) fun _ => Tx.each_pure _)
      (Tx.each_pure _)) fun _ => ?_
  exact Table.each_insert fun db => .of_eq rfl

/-- An update that lists no item to skip skips none. -/
theorem skipsNone_updateTx {hash : Option Digest} (h : update.skipItemIDs = []) :
    (updateTx svc env taskID update actor hash).Each SkipsNone := by
  refine Tx.each_selectOr_bind fun current => ?_
  refine Tx.each_bind (Tx.each_ite (Tx.each_select_bind fun _ => Tx.each_fail _)
    (Tx.each_pure _)) fun _ => ?_
  refine Tx.each_bind each_checkAssignment fun _ => ?_
  refine Tx.each_bind (skipsNone_editItems h) fun completed => ?_
  refine Tx.each_bind each_findKept fun kept => ?_
  refine Tx.each_bind each_checkDone fun _ => ?_
  refine Tx.each_bind (Tx.each_ite (Tx.each_bind (skipsNone_updateItems fun _ => by simp) fun _ =>
    Tx.each_pure _) (Tx.each_pure _)) fun _ => ?_
  refine Tx.each_select_bind fun sortOrder => ?_
  refine Tx.each_bind (Tx.each_bind (Table.each_updateWhere fun db => .of_eq rfl) fun _ =>
    Tx.each_ite (Tx.each_selectOr _) (Tx.each_pure _)) fun _ => ?_
  refine Tx.each_bind skipsNone_linkDuplicate fun _ => ?_
  refine Tx.each_bind (Tx.each_ite (each_applyDefaultRequirements fun _ _ => .of_eq rfl)
    (Tx.each_pure _)) fun defaulted => ?_
  refine Tx.each_bind skipsNone_createRecurrence fun _ => ?_
  refine Tx.each_bind (Tx.each_ite (Tx.each_pure _) (Tx.each_bind
    (Table.each_updateWhere fun db => .of_eq rfl) fun _ => Tx.each_lift _)) fun _ => ?_
  exact Tx.each_bind (Table.each_insert fun db => .of_eq rfl) fun _ => Tx.each_pure _

end Items

section Sensitive

/-- What an agent without `task:sensitive` does not ask for. -/
theorem checkSensitive_ok (h : checkSensitive request principal = .ok ()) :
    (principal.hasCapability .taskSensitive = false → request.status ≠ "cancelled" ∧
      ∀ target, request.duplicateOf.map trimSpace = some target → target = "") ∧
    (principal.hasCapability .taskSkip = false → principal.hasCapability .taskSensitive = false →
      request.skipItemIDs = []) := by
  simp only [checkSensitive, Except.bind_ok_iff, refuse_ok_iff] at h
  obtain ⟨_, hcancel, hskip⟩ := h
  constructor
  · intro hsensitive
    have hnone : ¬ (request.status = "cancelled" ∨
        (request.duplicateOf.any fun target => trimSpace target ≠ "") = true) := by
      simpa [hsensitive] using hcancel
    refine ⟨fun hstatus => hnone (Or.inl hstatus), fun target htarget => ?_⟩
    by_contra hne
    obtain ⟨raw, hraw, rfl⟩ := Option.map_eq_some_iff.mp htarget
    exact hnone (Or.inr (by simpa [hraw] using hne))
  · intro hnoskip hsensitive
    simpa [hnoskip, hsensitive] using hskip

theorem ofString?_eq_cancelled {value : String} (h : TaskStatus.ofString? value = some .cancelled) :
    value = "cancelled" := by
  unfold TaskStatus.ofString? at h
  split at h
  all_goals first
    | rfl
    | cases h

theorem nextStatus_eq_cancelled (hstatus : request.status ≠ "cancelled")
    (hmarks : ∀ target, request.duplicateOf.map trimSpace = some target → target = "")
    (h : request.nextStatus status = .cancelled) : status = .cancelled := by
  have hunmarked : ¬ (request.duplicateOf.any fun target => trimSpace target ≠ "") = true := by
    cases hduplicate : request.duplicateOf with
    | none => simp
    | some target => simpa using hmarks (trimSpace target) (by rw [hduplicate, Option.map_some])
  unfold UpdateRequest.nextStatus at h
  rw [if_neg hunmarked] at h
  cases hasked : TaskStatus.ofString? request.status with
  | none => rwa [hasked, Option.getD_none] at h
  | some asked =>
      rw [hasked, Option.getD_some] at h
      exact absurd (ofString?_eq_cancelled (h ▸ hasked)) hstatus

theorem Task.relinked_none (taskID : String) (unlinks : Bool) (task : Task) :
    (task.relinked taskID none unlinks).duplicateOf = none ∨
      (task.relinked taskID none unlinks).duplicateOf = task.duplicateOf := by
  simp only [Task.relinked]
  split
  · exact Or.inl rfl
  · exact Or.inr rfl

theorem validateUpdate_skips {update : TaskUpdate}
    (h : validateUpdate svc taskID request = .ok update) :
    update.skipItemIDs = request.skipItemIDs := by
  simp only [validateUpdate, Except.bind_ok_iff] at h
  obtain ⟨_, -, _, -, _, -, _, -, _, -, _, -, _, -, _, -, _, -, h⟩ := h
  split at h
  all_goals
    simp only [Except.bind_ok_iff] at h
    obtain ⟨_, -, _, -, _, -, _, -, _, -, _, -, _, -, _, -, h⟩ := h
    cases h
    rfl

/-- Where nothing is asked to be cancelled or merged, no task is. -/
theorem cancelsNone_updates (h : Updates svc env taskID request actor db db')
    (hstatus : request.status ≠ "cancelled")
    (hmarks : ∀ target, request.duplicateOf.map trimSpace = some target → target = "") :
    CancelsNone db db' ∧ LinksNone db db' := by
  obtain ⟨update, hash, status, db1, hvalid, hrun, hplain⟩ := h
  obtain ⟨-, -, -, hlink, hnext⟩ := validateUpdate_ok hvalid
  obtain ⟨current, kept, edited, sortOrder, added, runs, notes, event, base, hchecks, hnew, hone,
    -, -, hadded, -, -, -, -, -, -, -, haside⟩ := updateTx_rows hrun
  obtain rfl : kept = none := by
    cases hkept : kept with
    | none => rfl
    | some task =>
        obtain ⟨target, htarget, hne, -⟩ := hchecks.merged task hkept
        exact absurd (hmarks target (hlink ▸ htarget)) hne
  obtain ⟨_, _, _, _, rfl⟩ := haside
  obtain ⟨hmem, hid⟩ := mem_of_task? hchecks.found
  have hhit : bumps (trimSpace taskID) update.expectedVersion (fun _ => true) current = true := by
    simp [bumps, hid, hchecks.version]
  constructor
  · intro task' htask' hcancelled
    obtain ⟨row, hrow, hsame⟩ := exists_of_forall₂ hplain.tasks htask'
    rw [hsame.status] at hcancelled
    rcases List.mem_append.mp hrow with hold | hfresh
    · obtain ⟨task, htask, hupdated⟩ := exists_of_forall₂ (updated_relinked rfl db.tasks) hold
      refine ⟨task, htask, hupdated.id.symm.trans hsame.id.symm, ?_⟩
      cases hbumps : bumps (trimSpace taskID) update.expectedVersion (fun _ => true) task with
      | false =>
          obtain ⟨_, rfl⟩ := hupdated.miss hbumps
          exact hcancelled
      | true =>
          obtain rfl := eq_of_filter_length_one hone htask hbumps hmem hhit
          have hasked := (hupdated.hit hbumps).1.symm.trans hcancelled
          rw [hnew, hnext] at hasked
          exact nextStatus_eq_cancelled hstatus hmarks hasked
    · simp [(hadded row hfresh).queued] at hcancelled
  · intro task' htask' hlinked
    obtain ⟨row, hrow, hsame⟩ := exists_of_forall₂ hplain.tasks htask'
    rw [hsame.duplicateOf] at hlinked ⊢
    rw [hsame.id]
    rcases List.mem_append.mp hrow with hold | hfresh
    · obtain ⟨mid, hmid, rfl⟩ := List.mem_map.mp hold
      obtain ⟨task, htask, rfl⟩ := mem_mapWhere.mp hmid
      obtain ⟨link, hrelinked⟩ := Task.relinked_spec (trimSpace taskID) none
        (update.unlinks current.status status) (if bumps (trimSpace taskID) update.expectedVersion
          (fun _ => true) task then task.rewritten _ else task)
      refine ⟨task, htask, ?_, ?_⟩
      · rw [hrelinked]
        split <;> rfl
      · rcases Task.relinked_none (trimSpace taskID) (update.unlinks current.status status) _ with
          hnone | hkeeps
        · exact absurd hnone hlinked
        · rw [hkeeps]
          split <;> rfl
    · exact absurd (hadded row hfresh).linkless hlinked

theorem skipsNone_commits (h : Commits svc env taskID request actor db db')
    (hskip : request.skipItemIDs = []) : SkipsNone db db' := by
  obtain ⟨update, hash, status, db1, hvalid, hrun, ⟨_, _, rfl⟩, -⟩ := h
  exact (skipsNone_updateTx ((validateUpdate_skips hvalid).trans hskip)).run hrun

end Sensitive

section Lease

/-- Where names of runs are trimmed, the run behind the lease is the one that the update names:
it found a run under the name as it was sent. -/
theorem Leased.holdsNamed (h : Leased svc env taskID request principal db current)
    (hfound : db.task? (trimSpace taskID) = some current) (hruns : db.RunsNamed)
    (hinstant : env.checked = env.now)
    (hcommits : Commits svc env taskID request principal.id db db') :
    HoldsNamed env taskID request principal db := by
  obtain ⟨run, hrun, hid, hset, htask, hagent, hlive⟩ := holdsLease_ok h.holds
  obtain ⟨update, hash, status, db1, hvalid, htx, -, -⟩ := hcommits
  have hraw : update.runID = request.runID := (validateUpdate_ok hvalid).2.1
  have hne : request.runID ≠ "" := by
    intro hempty
    rw [hempty] at hid
    exact hset hid
  obtain ⟨_, _, _, _, _, _, _, _, _, hchecks, -⟩ := updateTx_rows htx
  obtain ⟨row, hrow, hnamed⟩ := hchecks.named (hraw ▸ hne)
  simp only [AgentRun.isNamed, Bool.and_eq_true, decide_eq_true_eq] at hnamed
  have htrimmed : trimSpace request.runID = request.runID := by
    rw [← hraw, ← hnamed.1.2]
    exact hruns.trimmed row hrow
  exact ⟨run, hrun, hid.trans htrimmed, htask, hagent, hinstant ▸ hlive, current, hfound, h.mutates⟩

/-- Whatever run is live at `since` was so before. -/
def RevivesNone (since : Instant) (db db' : Db) : Prop :=
  ∀ run' ∈ db'.runs, run'.live since = true →
    ∃ run ∈ db.runs, run.id = run'.id ∧ run.live since = true

/-- One of the principal's own updates and heartbeats, at an instant no earlier than `since`. -/
def Op.KeepsAlive (principal : Principal) (since : Instant) (op : Op) (_ : Db) : Prop :=
  op.env.checked = op.env.now ∧ since ≤ op.env.now ∧
    ((∃ taskID request, op = .update op.env taskID request principal) ∨
      ∃ taskID runID, op = .heartbeat op.env taskID runID principal)

theorem revivesNone_update (hruns : db.RunsNamed)
    (hagent : principal.agent = true) (hcapability : principal.hasCapability .taskUpdate = false)
    (hinstant : env.checked = env.now) (hsince : since ≤ env.now)
    (hne : (Op.update env taskID request principal).step svc db ≠ db)
    (hamended : List.Forall₂ (AgentRun.Amended svc env.now (trimSpace taskID) request.runID status)
      db.runs ((Op.update env taskID request principal).step svc db).runs) :
    RevivesNone since db ((Op.update env taskID request principal).step svc db) := by
  obtain ⟨⟨current, hauthority⟩, -, hcommits⟩ := granted_of_step hne
  obtain ⟨leased, hleased, hid, -, -, hlive, -⟩ :=
    (hauthority.capable hagent hcapability).holdsNamed hauthority.found hruns hinstant hcommits
  intro run' hrun' hlive'
  obtain ⟨run, hrun, hrow⟩ := exists_of_forall₂ hamended hrun'
  refine ⟨run, hrun, hrow.id.symm, ?_⟩
  cases hnamed : run.isNamed (trimSpace taskID) request.runID with
  | false => exact (hrow.other hnamed).live hlive'
  | true =>
      -- The run that is written is the one whose lease was found live.
      simp only [AgentRun.isNamed, Bool.and_eq_true, decide_eq_true_eq] at hnamed
      obtain rfl := hruns.eq_of_id hrun hleased (hnamed.1.2.trans hid.symm)
      exact AgentRun.live_of_le hlive hsince

theorem revivesNone_heartbeat {runID : String} (hruns : db.RunsNamed)
    (hcapability : principal.hasCapability .taskUpdate = false)
    (hinstant : env.checked = env.now) (hsince : since ≤ env.now)
    (h : Heartbeats svc env taskID runID principal db db') : RevivesNone since db db' := by
  have hholds := h.holds.resolve_right (by simp [hcapability])
  obtain ⟨leased, hleased, hid, -, -, -, hlive⟩ := holdsLease_ok hholds
  intro run' hrun' hlive'
  rw [h.runs] at hrun'
  obtain ⟨run, hrun, rfl⟩ := mem_mapWhere.mp hrun'
  split at hlive' <;> rename_i hbeats
  · rw [if_pos hbeats]
    simp only [AgentRun.beats, Bool.and_eq_true, decide_eq_true_eq] at hbeats
    obtain rfl := hruns.eq_of_id hrun hleased (hbeats.1.1.1.trans hid.symm)
    exact ⟨run, hrun, rfl, AgentRun.live_of_le (hinstant ▸ hlive) hsince⟩
  · rw [if_neg hbeats]
    exact ⟨run, hrun, rfl, hlive'⟩

theorem revivesNone_step (hruns : db.RunsNamed) (hagent : principal.agent = true)
    (hcapability : principal.hasCapability .taskUpdate = false) {op : Op}
    (hop : op.KeepsAlive principal since db) : RevivesNone since db (op.step svc db) := by
  obtain ⟨hinstant, hsince, hkind⟩ := hop
  cases (op.leaseEffect db : op.LeaseEffect svc db (op.step svc db)) with
  | wane hwane =>
      intro run' hrun' hlive'
      obtain ⟨run, hrun, hrow⟩ := exists_of_forall₂ hwane hrun'
      exact ⟨run, hrun, hrow.id.symm, hrow.live hlive'⟩
  | opens other run call hopens hopened =>
      rcases hkind with ⟨_, _, hupdate⟩ | ⟨_, _, hbeat⟩
      · rcases call with ⟨_, hcall⟩ | ⟨_, _, hcall⟩ <;> cases hupdate.symm.trans hcall
      · rcases call with ⟨_, hcall⟩ | ⟨_, _, hcall⟩ <;> cases hbeat.symm.trans hcall
  | heartbeat taskID runID other call hbeats =>
      obtain rfl : other = principal := by
        rcases hkind with ⟨_, _, hupdate⟩ | ⟨_, _, hbeat⟩
        · cases hupdate.symm.trans call
        · exact (Op.heartbeat.inj (hbeat.symm.trans call)).2.2.2.symm
      exact revivesNone_heartbeat hruns hcapability hinstant hsince hbeats
  | update taskID request other current call hchanged hfound hversion hamended =>
      obtain rfl : other = principal := by
        rcases hkind with ⟨_, _, hupdate⟩ | ⟨_, _, hbeat⟩
        · exact (Op.update.inj (hupdate.symm.trans call)).2.2.2.symm
        · cases hbeat.symm.trans call
      generalize op.env = env at *
      subst call
      exact revivesNone_update hruns hagent hcapability hinstant hsince hchanged hamended

/-- Updates and heartbeats one after another. -/
theorem revivesNone_steps (hruns : db.RunsNamed) (hagent : principal.agent = true)
    (hcapability : principal.hasCapability .taskUpdate = false)
    (h : Relation.ReflTransGen (Step svc (Op.KeepsAlive principal since)) db db') :
    db'.RunsNamed ∧ RevivesNone since db db' := by
  induction h with
  | refl => exact ⟨hruns, fun run hrun hlive => ⟨run, hrun, rfl, hlive⟩⟩
  | tail _ hlast ih =>
      obtain ⟨hnamed, hbefore⟩ := ih
      obtain ⟨op, hop, rfl⟩ := hlast
      refine ⟨runsNamed_step op _ hnamed, fun run'' hrun'' hlive'' => ?_⟩
      obtain ⟨run', hrun', hid', hlive'⟩ :=
        revivesNone_step hnamed hagent hcapability hop run'' hrun'' hlive''
      obtain ⟨run, hrun, hid, hlive⟩ := hbefore run' hrun' hlive'
      exact ⟨run, hrun, hid.trans hid', hlive⟩

end Lease

/-- **A lease grants no more than its task and its lifetime.** An agent's update that changes
anything comes from a live run of the agent's own on the task unless the agent has `task:update`,
and unless it has `task:complete` so does one to `done`; it cancels and merges nothing without
`task:sensitive`, and skips nothing without that or `task:skip`. And an agent without
`task:update` does not bring a run back: what is not live at some time is not live at any later
time, whatever updates and heartbeats the agent makes from then on. -/
theorem lease_grants_no_more {svc : Service} {principal : Principal}
    (hagent : principal.agent = true) {db : Db} (h : Develops svc (fun _ _ => True) db) :
    (∀ env taskID request, env.checked = env.now →
      (Op.update env taskID request principal).step svc db ≠ db →
        (principal.hasCapability .taskUpdate = false → HoldsNamed env taskID request principal db) ∧
        (principal.hasCapability .taskComplete = false → request.status = "done" →
          HoldsNamed env taskID request principal db) ∧
        (principal.hasCapability .taskSensitive = false →
          CancelsNone db ((Op.update env taskID request principal).step svc db) ∧
          LinksNone db ((Op.update env taskID request principal).step svc db)) ∧
        (principal.hasCapability .taskSkip = false →
          principal.hasCapability .taskSensitive = false →
          SkipsNone db ((Op.update env taskID request principal).step svc db))) ∧
    (principal.hasCapability .taskUpdate = false → ∀ since db',
      Relation.ReflTransGen (Step svc (Op.KeepsAlive principal since)) db db' →
      ∀ run ∈ db.runs, run.live since = false →
        ∀ run' ∈ db'.runs, run'.id = run.id → ∀ now, since ≤ now → run'.live now = false) := by
  have hruns := h.runsNamed
  constructor
  · intro env taskID request hinstant hne
    obtain ⟨⟨current, hauthority⟩, hupdates, hcommits⟩ := granted_of_step hne
    obtain ⟨hsensitive, hskip⟩ := checkSensitive_ok (hauthority.sensitive hagent)
    refine ⟨fun hcapability => ?_, fun hcapability hdone => ?_, fun hcapability => ?_,
      fun hnoskip hcapability => ?_⟩
    · exact (hauthority.capable hagent hcapability).holdsNamed hauthority.found hruns hinstant
        hcommits
    · exact (hauthority.completes hagent hcapability hdone).holdsNamed hauthority.found hruns
        hinstant hcommits
    · obtain ⟨hstatus, hmarks⟩ := hsensitive hcapability
      exact cancelsNone_updates hupdates hstatus hmarks
    · exact skipsNone_commits hcommits (hskip hnoskip hcapability)
  · intro hcapability since db' hsteps run hrun hlapsed run' hrun' hid now hnow
    by_contra hlive
    have hlive' := AgentRun.live_of_le (Bool.not_eq_false _ ▸ hlive) hnow
    obtain ⟨old, hold, hsame, hlived⟩ :=
      (revivesNone_steps hruns hagent hcapability hsteps).2 run' hrun' hlive'
    obtain rfl := hruns.eq_of_id hold hrun (hsame.trans hid)
    simp [hlapsed] at hlived

/-- An agent that may read and start tasks, and nothing else. -/
def leaseAgent : Principal :=
  agentPrincipal "builder" { capabilities := [.taskRead, .taskCreate] }

/-- The agent starts a task. -/
def leaseOp : Op :=
  .start (.numbered 1 0) { title := "Fix the login", checklist := ["Find the cause"] } leaseAgent

/-- The agent notes how far it is, and names its run. -/
def halfwayOp : Op :=
  .update (.numbered 2 100) "0100"
    { expectedVersion := 1, runID := "0101", currentNote := some "Half done" } leaseAgent

/-- The lease lets the agent update its task, and a heartbeat after an hour does not bring the
run back. -/
theorem leased_agent_updates :
    halfwayOp.step .ascii (leaseOp.step .ascii {}) ≠ leaseOp.step .ascii {} ∧
      HoldsNamed (.numbered 2 100) "0100"
        { expectedVersion := 1, runID := "0101", currentNote := some "Half done" } leaseAgent
        (leaseOp.step .ascii {}) ∧
      (leaseOp.step .ascii {}).runs.map (fun run => (run.id, run.live 100, run.live hour)) =
        [("0101", true, false)] ∧
      ∀ run' ∈ ((Op.heartbeat (.numbered 3 hour) "0100" "0101" leaseAgent).step .ascii
        (leaseOp.step .ascii {})).runs, run'.id = "0101" → run'.live hour = false := by
  have hdevelops : Develops .ascii (fun _ _ => True) (leaseOp.step .ascii {}) :=
    Develops.empty.change (.operation leaseOp) trivial
  have hne : halfwayOp.step .ascii (leaseOp.step .ascii {}) ≠ leaseOp.step .ascii {} := by
    intro hsame
    have hnotes := congrArg (fun db => db.tasks.map (·.currentNote)) hsame
    revert hnotes
    decide +kernel
  have hruns : (leaseOp.step .ascii {}).runs.map
      (fun run => (run.id, run.live 100, run.live hour)) = [("0101", true, false)] := by
    decide +kernel
  obtain ⟨run, hrun, hfields⟩ : ∃ run ∈ (leaseOp.step .ascii {}).runs,
      (run.id, run.live 100, run.live hour) = ("0101", true, false) := by
    have hmem : ("0101", true, false) ∈ (leaseOp.step .ascii {}).runs.map
        (fun run => (run.id, run.live 100, run.live hour)) := by simp [hruns]
    exact List.mem_map.mp hmem
  simp only [Prod.mk.injEq] at hfields
  have hagent : leaseAgent.agent = true := rfl
  obtain ⟨hgrants, hrevives⟩ := lease_grants_no_more hagent hdevelops
  refine ⟨hne, (hgrants _ _ _ rfl hne).1 (by decide), hruns, fun run' hrun' hid => ?_⟩
  exact hrevives (by decide) hour _ (.single ⟨_, ⟨rfl, le_rfl, Or.inr ⟨_, _, rfl⟩⟩, rfl⟩) run hrun
    hfields.2.2 run' hrun' (hid.trans hfields.1.symm) hour le_rfl

end Taskboard
