import Taskboard.Rows

/-!
# What an update has been granted

`updateFor` decides from what it reads before its transaction. Run alone, that is the state its
transaction starts from (`UpdateAuthority`). An agent comes by its authority in one of three
ways: by a capability of its policy, by the live lease of a run that it names, or, on work that
nobody owns, by having raised it or by being able to claim it.
-/

namespace Taskboard

variable {hash : Option Digest} {principal : Principal} {editor : String} {task : Task}
  {db db' : Db} {env : Env}

variable {now : Instant} {svc : Service} {runID taskID : String} {status : TaskStatus}
  {update : TaskUpdate} {request : UpdateRequest}

/-- The update comes from a run of the task, which belongs to the caller and is live, on a task
that the caller may change. -/
structure Leased (svc : Service) (env : Env) (taskID : String) (request : UpdateRequest)
    (principal : Principal) (db : Db) (current : Task) : Prop where
  mutates : canMutate current principal = true
  holds : holdsLease (svc.listRuns db (trimSpace taskID)) request.runID principal env.checked = true

/-- What `updateFor` has found in the state that its transaction starts from. -/
structure UpdateAuthority (svc : Service) (env : Env) (taskID : String) (request : UpdateRequest)
    (principal : Principal) (db : Db) (current : Task) : Prop where
  found : db.task? (trimSpace taskID) = some current
  visible : canView current principal = true
  allowed : mayUpdate current (svc.listRuns db (trimSpace taskID)) principal request = true
  sensitive : principal.agent = true → checkSensitive request principal = .ok ()
  capable : principal.agent = true → principal.hasCapability .taskUpdate = false →
    Leased svc env taskID request principal db current
  completes : principal.agent = true → principal.hasCapability .taskComplete = false →
    request.status = "done" → Leased svc env taskID request principal db current

section Inversion

theorem updateLeased_ok (h : (updateLeased svc env taskID request principal).exec db = (.ok true, db')) :
    ∃ current, db.task? (trimSpace taskID) = some current ∧
      Leased svc env taskID request principal db current := by
  unfold updateLeased at h
  split at h
  · simp at h
  · obtain ⟨seen, hseen, h⟩ := Call.exec_bind_quiet_ok (Call.quiet_attempt quiet_getForHidden) h
    rw [Call.exec_attempt, quiet_getForHidden.exec] at hseen
    simp only [Prod.mk.injEq, Except.ok.injEq, and_true] at hseen
    split at h
    · rename_i view
      obtain ⟨hfound, hruns, -, -⟩ := getForHidden_ok (Prod.ext hseen (quiet_getForHidden.exec db))
      simp only [Call.exec_pure, Prod.mk.injEq, Except.ok.injEq, Bool.and_eq_true] at h
      exact ⟨view.toTask, hfound, h.1.1, hruns ▸ h.1.2⟩
    · simp at h
    · simp at h
    · cases (Prod.mk.inj h).1

theorem checkUpdateCapabilities_ok {u : Unit}
    (h : (checkUpdateCapabilities svc env taskID request principal).exec db = (.ok u, db')) :
    ∃ leased : Bool,
      (leased = true → ∃ current, db.task? (trimSpace taskID) = some current ∧
        Leased svc env taskID request principal db current) ∧
      (principal.hasCapability .taskUpdate = false → leased = true) ∧
      (principal.hasCapability .taskComplete = false → request.status = "done" → leased = true) := by
  obtain ⟨leased, s, hleased, h⟩ := Call.exec_bind_ok h
  obtain ⟨_, hupdate, h⟩ := Call.exec_lift_bind_ok h
  simp only [Call.exec_lift, Prod.mk.injEq, refuse_ok_iff, and_true] at hupdate h
  refine ⟨leased, ?_, ?_, ?_⟩
  · rintro rfl
    exact updateLeased_ok hleased
  · intro hcapability
    simpa [hcapability] using hupdate
  · intro hcapability hdone
    simpa [hcapability, hdone] using h.1

/-- Nothing changes but handoffs and events. -/
def Trails (db db' : Db) : Prop :=
  ∃ handoffs events, db' = { db with handoffs, events }

instance : IsPreorder Db Trails where
  refl db := ⟨db.handoffs, db.events, rfl⟩
  trans _ _ _ h h' := by
    obtain ⟨_, _, rfl⟩ := h
    obtain ⟨handoffs, events, rfl⟩ := h'
    exact ⟨handoffs, events, rfl⟩

/-- The general update in all it does: its transaction, and behind it the handoff of the run that
it names. -/
def Commits (svc : Service) (env : Env) (taskID : String) (request : UpdateRequest)
    (actor : String) (db db' : Db) : Prop :=
  ∃ update hash status db1, validateUpdate svc (trimSpace taskID) request = .ok update ∧
    (updateTx svc env (trimSpace taskID) update actor hash).run db = .ok (status, db1) ∧
    Trails db1 db' ∧ (request.runID = "" → db' = db1)

theorem trails_ensureDerivedHandoff {itemID eventID : String} {kind : HandoffKind}:
    (ensureDerivedHandoff svc now itemID eventID taskID runID kind).Each Trails := by
  refine Call.each_bind (Call.quiet_look _).each fun _ => ?_
  refine Call.each_ite (Call.quiet_pure _).each ?_
  refine Call.each_bind quiet_getTask.each fun task => ?_
  refine Call.each_bind (Call.quiet_look _).each fun references => ?_
  refine Call.each_tx fun _ _ => Tx.Each.run ?_
  exact Tx.each_bind (Table.each_insert fun db => ⟨_, db.events, rfl⟩) fun _ =>
    Table.each_insert fun db => ⟨db.handoffs, _, rfl⟩

theorem trails_afterUpdate (db : Db) :
    Trails db ((afterUpdate svc env taskID runID status).exec db).2 := by
  refine Call.Each.exec (Call.each_bind quiet_getTask.each fun _ => ?_) db
  refine Call.each_bind (Call.each_ite ?_ (Call.quiet_pure _).each) fun _ => (Call.quiet_pure _).each
  exact Call.each_bind (Call.each_attempt trails_ensureDerivedHandoff) fun _ =>
    (Call.quiet_pure _).each

theorem quiet_afterUpdate (hrun : runID = "") :
    (afterUpdate svc env taskID runID status).Quiet := by
  refine Call.quiet_bind quiet_getTask fun _ => ?_
  rw [if_neg fun h => h.1 hrun]
  exact Call.quiet_bind (Call.quiet_pure _) fun _ => Call.quiet_pure _

theorem atMost_updateAllowed_seen :
    (updateAllowed svc env taskID request principal hash).AtMost fun db db' =>
      (∃ current, db.task? (trimSpace taskID) = some current ∧ canView current principal = true ∧
        mayUpdate current (svc.listRuns db (trimSpace taskID)) principal request = true) ∧
      Updates svc env taskID request principal.id db db' ∧
      Commits svc env taskID request principal.id db db' := by
  refine Call.atMost_bind_seen quiet_getForHidden (fun _ _ => getForHidden_ok) fun view => ?_
  refine Call.atMost_lift_bind fun _ hcheck => ?_
  refine Call.atMost_bind_quiet quiet_checkDuplicateTarget fun _ => ?_
  refine Call.atMost_lift_bind fun update hvalid => ?_
  refine Call.atMost_tx_bind fun db status db1 hrun hseen => ?_
  obtain ⟨hfound, hruns, -, hvisible⟩ := hseen
  simp only [checkUpdate, Except.bind_ok_iff, refuse_ok_iff] at hcheck
  obtain ⟨_, -, _, hmay, -⟩ := hcheck
  refine ⟨⟨view.toTask, hfound, hvisible, ?_⟩, ⟨update, hash, status, db1, hvalid, hrun,
    each_afterUpdate.exec db1⟩, update, hash, status, db1, hvalid, hrun,
    trails_afterUpdate db1, fun hempty => ?_⟩
  · rw [← hruns]
    simpa using hmay
  · exact (quiet_afterUpdate ((validateUpdate_ok hvalid).2.1.trans hempty)).exec db1

/-- **An update run alone** leaves the database alone, or has been granted what it does. -/
theorem atMost_updateFor_granted :
    (updateFor svc env taskID request principal).AtMost fun db db' =>
      (∃ current, UpdateAuthority svc env taskID request principal db current) ∧
      Updates svc env taskID request principal.id db db' ∧
      Commits svc env taskID request principal.id db db' := by
  unfold updateFor
  split
  · rename_i hagent
    refine Call.atMost_lift_bind fun _ hsensitive => ?_
    refine atMost_keyed (fun _ => quiet_getForHidden) ?_
    refine Call.atMost_bind_seen quiet_checkUpdateCapabilities
      (fun _ _ => checkUpdateCapabilities_ok) fun _ => ?_
    refine atMost_updateAllowed_seen.mono fun db db' hdone hcapable => ?_
    obtain ⟨⟨current, hfound, hvisible, hmay⟩, hupdates⟩ := hdone
    obtain ⟨leased, hleased, hupdate, hcomplete⟩ := hcapable
    have hlease : leased = true → Leased svc env taskID request principal db current := by
      intro htrue
      obtain ⟨other, hother, hlease⟩ := hleased htrue
      obtain rfl : other = current := Option.some_inj.mp (hother.symm.trans hfound)
      exact hlease
    exact ⟨⟨current, hfound, hvisible, hmay, fun _ => hsensitive,
      fun _ hcapability => hlease (hupdate hcapability),
      fun _ hcapability hdone => hlease (hcomplete hcapability hdone)⟩, hupdates⟩
  · rename_i hperson
    refine Call.atMost_lift_bind fun _ _ => ?_
    refine atMost_updateAllowed_seen.mono fun db db' hdone => ?_
    obtain ⟨⟨current, hfound, hvisible, hmay⟩, hupdates⟩ := hdone
    exact ⟨⟨current, hfound, hvisible, hmay, fun hagent => absurd hagent hperson,
      fun hagent => absurd hagent hperson, fun hagent => absurd hagent hperson⟩, hupdates⟩

/-- An update that changed something has been granted it. -/
theorem granted_of_step (hne : (Op.update env taskID request principal).step svc db ≠ db) :
    (∃ current, UpdateAuthority svc env taskID request principal db current) ∧
      Updates svc env taskID request principal.id db
        ((Op.update env taskID request principal).step svc db) ∧
      Commits svc env taskID request principal.id db
        ((Op.update env taskID request principal).step svc db) :=
  (Call.atMost_then_quiet atMost_updateFor_granted (fun _ => Call.quiet_pure _) db).resolve_left hne

end Inversion

/-- An update that asks for nothing but wording, priority, the note and cancellation. -/
structure TaskUpdate.Narrow (update : TaskUpdate) : Prop where
  runID : update.runID = ""
  status : update.status = none ∨ update.status = some .cancelled
  type : update.type = none
  visibility : update.visibility = none
  owner : update.owner = none
  «section» : update.section = none
  project : update.project = none
  repository : update.repository = none
  dueDate : update.dueDate = none
  deferUntil : update.deferUntil = none
  recurrence : update.recurrence = none
  reviewed : update.reviewed = false
  checklist : update.checklist = none
  currentItemID : update.currentItemID = ""
  completeItemIDs : update.completeItemIDs = []
  skipItemIDs : update.skipItemIDs = []
  addItems : update.addItems = []
  duplicateOf : update.duplicateOf = none

theorem limited_ok {text : String} {limit : Nat} {value result : Option String}
    (h : limited text limit value = .ok result) : result = value := by
  simp only [limited, Except.bind_ok_iff] at h
  obtain ⟨_, -, h⟩ := h
  cases h
  rfl

theorem narrow_of_producerFieldsOnly (hfields : producerFieldsOnly request = true)
    (h : validateUpdate svc taskID request = .ok update) :
    update.Narrow ∧ (request.status = "" ∧ update.status = none ∨
      request.status = "cancelled" ∧ update.status = some .cancelled) := by
  simp only [producerFieldsOnly, Bool.and_eq_true, Bool.or_eq_true, decide_eq_true_eq,
    Option.isNone_iff_eq_none, Bool.not_eq_true', List.isEmpty_iff] at hfields
  obtain ⟨⟨⟨⟨⟨⟨⟨⟨⟨⟨⟨⟨⟨⟨⟨⟨⟨⟨⟨hrun, hstatus⟩, htype⟩, hvisibility⟩, howner⟩, hsection⟩, hproject⟩,
    hrepository⟩, hdue⟩, hdefer⟩, hrecurrence⟩, hreviewed⟩, hchecklist⟩, -⟩, -⟩, hcurrent⟩,
    hcomplete⟩, hskip⟩, hadd⟩, hduplicate⟩ := hfields
  simp only [validateUpdate, hchecklist, Except.bind_ok_iff] at h
  obtain ⟨_, -, status, hasked, _, -, type, htyped, visibility, hvisible, _, -, _, -, _, -, _, -,
    checklist, hlabels, owner, hlimit, «section», hlimit1, _, -, summary, -, project, hlimit2,
    repository, hlimit3, priority, -, h⟩ := h
  cases h
  have hcancel : request.status = "" ∧ status = none ∨
      request.status = "cancelled" ∧ status = some .cancelled := by
    simp only [requestedStatus, hduplicate, Except.bind_ok_iff] at hasked
    obtain ⟨_, -, hasked⟩ := hasked
    rcases hstatus with hstatus | hstatus
    · simp [hstatus] at hasked
      cases hasked
      exact Or.inl ⟨hstatus, rfl⟩
    · simp [hstatus, namedOption, named, TaskStatus.ofString?] at hasked
      cases hasked
      exact Or.inr ⟨hstatus, rfl⟩
  have htype' : type = none := by
    simp [htype, namedOption] at htyped
    exact htyped.symm
  have hvisibility' : visibility = none := by
    simp [hvisibility, namedOption] at hvisible
    exact hvisible.symm
  cases hlabels
  refine ⟨⟨hrun, hcancel.imp And.right And.right, htype', hvisibility', (limited_ok hlimit).trans (by rw [howner]; rfl),
    (limited_ok hlimit1).trans (by rw [hsection]; rfl),
    (limited_ok hlimit2).trans (by rw [hproject]; rfl),
    (limited_ok hlimit3).trans (by rw [hrepository]; rfl), by simp [hdue], by simp [hdefer],
    by simp [hrecurrence], hreviewed, rfl, hcurrent, hcomplete, hskip, hadd, by simp [hduplicate]⟩, hcancel⟩

section Narrow

variable {actor : String} {current : Task}

theorem TaskUpdate.Narrow.getD_status (h : update.Narrow) (was : TaskStatus) :
    update.status.getD was = was ∨ update.status.getD was = .cancelled := by
  rcases h.status with hstatus | hstatus
  · exact Or.inl (by rw [hstatus]; rfl)
  · exact Or.inr (by rw [hstatus]; rfl)

theorem TaskUpdate.Narrow.editItems_ok (h : update.Narrow) {completed : List String}
    (hrun : (editItems env taskID update current).run db = .ok (completed, db')) : db' = db := by
  simp only [editItems, replaceChecklist, h.checklist, h.completeItemIDs, h.skipItemIDs,
    h.currentItemID, h.addItems, setCurrentItem, if_true, unique, List.foldl_nil, completeItems,
    skipItems, Taskboard.addItems, Tx.run_pure_bind, Tx.run_select_bind_ok, Tx.run_pure_ok] at hrun
  exact hrun.2

/-- **A narrow update** rewrites one row of `tasks`, adds one event, and does nothing else. -/
theorem updateTx_narrow (hnarrow : update.Narrow)
    (h : (updateTx svc env taskID update actor hash).run db = .ok (status, db')) :
    ∃ current event, db.task? taskID = some current ∧ current.version = update.expectedVersion ∧
      (db.tasks.filter (bumps taskID update.expectedVersion fun _ => true)).length = 1 ∧
      db' = { db with
        tasks := mapWhere (bumps taskID update.expectedVersion fun _ => true)
          (·.rewritten (updatedTask update current (update.status.getD current.status)
            current.sortOrder none (defaultActor actor current.createdBy) env.now)) db.tasks
        events := db.events ++ [event] } := by
  simp only [updateTx, run_loadTask_bind_ok] at h
  obtain ⟨current, hcurrent, h⟩ := h
  have hstatus := hnarrow.getD_status current.status
  obtain ⟨_, checked, hcheck, h⟩ := Tx.run_bind_ok.mp h
  obtain ⟨hversion, hsame⟩ := checkVersion_ok hcheck
  obtain rfl : db = checked := hsame.symm
  obtain ⟨_, _, hassign, h⟩ := Tx.run_bind_ok.mp h
  obtain rfl := (each_checkAssignment (R := Eq)).run hassign
  obtain ⟨completed, edited, hitems, h⟩ := Tx.run_bind_ok.mp h
  obtain rfl : db = edited := (hnarrow.editItems_ok hitems).symm
  obtain ⟨kept, found, hkept, h⟩ := Tx.run_bind_ok.mp h
  simp only [findKept, hnarrow.duplicateOf, Tx.run_pure_ok] at hkept
  obtain ⟨rfl, hsame⟩ := hkept
  obtain rfl : db = found := hsame.symm
  obtain ⟨_, ready, hready, h⟩ := Tx.run_bind_ok.mp h
  obtain ⟨hsame, -⟩ := checkDone_ok hready
  obtain rfl : db = ready := hsame.symm
  -- A task that was not active does not become so.
  have hidle : ¬ (update.status.getD current.status = .active ∧ current.status ≠ .active ∧
      update.currentItemID = "") := by
    rintro ⟨hactive, hne, -⟩
    rcases hstatus with hkeeps | hcancels
    · exact hne (hkeeps ▸ hactive)
    · simp [hcancels] at hactive
  rw [if_neg hidle, hnarrow.section] at h
  simp only [Option.getD_none, ne_eq, not_true_eq_false, if_false] at h
  rw [Tx.run_pure_bind, Tx.run_select_bind_ok] at h
  obtain ⟨_, _, hwrite, h⟩ := Tx.run_bind_ok.mp h
  obtain ⟨hone, rfl⟩ := writeTask_ok hwrite
  obtain ⟨_, linked, hlink, h⟩ := Tx.run_bind_ok.mp h
  have hkeeps : ¬ (update.duplicateOf.isSome = true ∨
      (current.status = .cancelled ∧ update.status.getD current.status ≠ .cancelled)) := by
    rw [hnarrow.duplicateOf]
    rintro (hsome | ⟨hwas, hne⟩)
    · cases hsome
    · rcases hstatus with hkeeps | hcancels
      · exact hne (hkeeps.trans hwas)
      · exact hne hcancels
  obtain ⟨hclears, -⟩ | ⟨-, hlink⟩ := Tx.run_ite_ok.mp hlink
  · exact absurd hclears hkeeps
  obtain rfl := (Tx.run_pure_ok.mp hlink).2.symm
  obtain ⟨defaulted, _, hdefault, h⟩ := Tx.run_bind_ok.mp h
  obtain ⟨⟨hmoves, -⟩, -⟩ | ⟨-, hdefault⟩ := Tx.run_ite_ok.mp hdefault
  · simp [hnarrow.visibility] at hmoves
  obtain rfl := (Tx.run_pure_ok.mp hdefault).2.symm
  obtain ⟨_, _, hrecur, h⟩ := Tx.run_bind_ok.mp h
  have honce : ¬ (update.status.getD current.status = .done ∧ current.status ≠ .done ∧
      update.recurrence.getD current.recurrence ≠ "") := by
    rintro ⟨hdone, hne, -⟩
    rcases hstatus with hkeeps | hcancels
    · exact hne (hkeeps ▸ hdone)
    · simp [hcancels] at hdone
  obtain ⟨hrecurs, -⟩ | ⟨-, hrecur⟩ := Tx.run_ite_ok.mp hrecur
  · exact absurd hrecurs honce
  obtain rfl := (Tx.run_pure_ok.mp hrecur).2.symm
  obtain ⟨_, _, hrun, h⟩ := Tx.run_bind_ok.mp h
  obtain ⟨hnamed, -⟩ | ⟨-, hrun⟩ := (Tx.run_ite_ok.mp hrun).symm
  · exact absurd hnarrow.runID hnamed
  obtain rfl := (Tx.run_pure_ok.mp hrun).2.symm
  obtain ⟨_, noted, hinsert, h⟩ := Tx.run_bind_ok.mp h
  obtain ⟨-, -, rfl⟩ := run_insertEvent_ok.mp hinsert
  obtain ⟨-, rfl⟩ := Tx.run_pure_ok.mp h
  exact ⟨current, _, hcurrent, hversion, hone, rfl⟩

/-- The row after an edit of its wording, its priority and its note, or after its
cancellation with such an edit. -/
def Task.Reworded (cancels : Prop) (task task' : Task) : Prop :=
  ∃ title summary priority currentNote lastEditedBy version updatedAt,
    task' = { task with title, summary, priority, currentNote, lastEditedBy, version, updatedAt } ∨
    cancels ∧ ∃ completedAt, task' = { task with
      title, summary, priority, currentNote, lastEditedBy, version, updatedAt, completedAt
      status := .cancelled }

/-- The row under another note. -/
def Task.Noted (task task' : Task) : Prop :=
  ∃ currentNote lastEditedBy version updatedAt,
    task' = { task with currentNote, lastEditedBy, version, updatedAt }

/-- The row that a narrow update writes, where the task was in order and queued or stale. -/
theorem TaskUpdate.Narrow.rewritten (h : update.Narrow) (hproper : current.Proper)
    (hclaimable : current.status.claimable = true)
    (hstatus : status = current.status ∨ status = .cancelled) :
    current.rewritten (updatedTask update current status current.sortOrder none editor now) =
      { current with
        title := update.title.getD current.title
        summary := update.summary.getD current.summary
        priority := update.priority.getD current.priority
        currentNote := update.currentNote.elim current.currentNote fun note => clipped note 1000
        lastEditedBy := editor
        version := current.version + 1
        updatedAt := now
        status := status
        completedAt := if status = .cancelled then some now else none } := by
  have hkind : current.status = .queued ∨ current.status = .stale := by
    simpa [TaskStatus.claimable] using hclaimable
  have hopen : current.status.terminal = false := by
    rcases hkind with hkind | hkind <;> rw [hkind] <;> rfl
  have hblocker : current.blocker = "" :=
    hproper.blocker (by rcases hkind with hkind | hkind <;> rw [hkind] <;> decide)
  have hwaiting : current.waitingFor = "" :=
    hproper.waitingFor (by rcases hkind with hkind | hkind <;> rw [hkind] <;> decide)
  have hfree : status ≠ .blocked ∧ status ≠ .waiting := by
    rcases hstatus with rfl | rfl
    · rcases hkind with hkind | hkind <;> rw [hkind] <;> decide
    · decide
  have hcompleted : (if !status.terminal then none else if !current.status.terminal then some now
      else current.completedAt) = if status = .cancelled then some now else none := by
    rcases hstatus with rfl | rfl
    · rcases hkind with hkind | hkind <;> rw [hkind] <;> rfl
    · rw [hopen]
      rfl
  have hnote : updatedNote update current none =
      update.currentNote.elim current.currentNote fun note => clipped note 1000 := by
    unfold updatedNote
    cases update.currentNote <;> rfl
  have howner : updatedOwner update current = current.owner := by
    simp [updatedOwner, h.owner, h.visibility]
  simp only [Task.rewritten, updatedTask, h.type, h.visibility, h.section, h.project, h.repository,
    h.dueDate, h.deferUntil, h.recurrence, h.reviewed, Option.getD_none, hnote, howner, hcompleted,
    if_pos hfree.1, if_pos hfree.2, Bool.false_eq_true, if_false, hblocker, hwaiting]

end Narrow

theorem runID_of_producerFieldsOnly
    (h : producerFieldsOnly request = true) : request.runID = "" := by
  simp only [producerFieldsOnly, Bool.and_eq_true, decide_eq_true_eq] at h
  obtain ⟨⟨⟨⟨⟨⟨⟨⟨⟨⟨⟨⟨⟨⟨⟨⟨⟨⟨⟨hrun, -⟩, -⟩, -⟩, -⟩, -⟩, -⟩, -⟩, -⟩, -⟩, -⟩, -⟩, -⟩, -⟩, -⟩, -⟩, -⟩, -⟩,
    -⟩, -⟩ := h
  exact hrun

/-- Where an agent that neither owns the task nor works for a person may update it all the
same: it raised the task or can claim it, and asks for no more than either rule names. -/
theorem narrow_of_mayUpdate {runs : List AgentRun}
    (hagent : principal.agent = true) (hoperator : principal.operator = "")
    (howner : task.owner ≠ principal.id) (h : mayUpdate task runs principal request = true) :
    producerFieldsOnly request = true ∧ task.status.claimable = true ∧
      (task.createdBy ≠ principal.id → request.title = none ∧ request.summary = none ∧
        request.priority = none ∧ request.status = "") := by
  have hfixed : canMutate task principal = false := by
    simp [canMutate, hagent, hoperator, howner]
  simp only [mayUpdate, hfixed, Bool.false_or, Bool.or_eq_true, Bool.and_eq_true] at h
  rcases h with ⟨hproducer, hfields⟩ | hrunner
  · simp only [producerMayUpdate, Bool.and_eq_true, decide_eq_true_eq] at hproducer
    obtain ⟨⟨⟨⟨-, hcreated⟩, -⟩, hqueued⟩, -⟩ := hproducer
    exact ⟨hfields, by simp [TaskStatus.claimable, hqueued], fun hne => absurd hcreated hne⟩
  · simp only [pickupRunnerMayNote, Bool.and_eq_true, Bool.or_eq_true, decide_eq_true_eq,
      Option.isNone_iff_eq_none] at hrunner
    obtain ⟨⟨⟨⟨⟨⟨⟨⟨-, hclaimable⟩, -⟩, -⟩, hstatus⟩, htitle⟩, hsummary⟩, hpriority⟩, hfields⟩ := hrunner
    exact ⟨hfields, by simpa [TaskStatus.claimable] using hclaimable,
      fun _ => ⟨htitle, hsummary, hpriority, hstatus⟩⟩

theorem validateUpdate_wording (h : validateUpdate svc taskID request = .ok update):
    (request.title = none → update.title = none) ∧ (request.summary = none → update.summary = none) ∧
      (request.priority = none → update.priority = none) := by
  simp only [validateUpdate, Except.bind_ok_iff] at h
  obtain ⟨_, -, _, -, _, -, _, -, _, -, _, -, _, -, _, -, _, -, h⟩ := h
  split at h
  all_goals
    simp only [Except.bind_ok_iff] at h
    obtain ⟨_, -, _, -, _, -, _, -, _, hsummary, _, -, _, -, _, -, h⟩ := h
    cases h
    refine ⟨fun hnone => by simp [hnone], fun hnone => ?_, fun hnone => by simp [hnone]⟩
    simpa [hnone] using limited_ok hsummary

/-- What an agent does to a row of `tasks` by updating a task that it does not own. -/
structure Task.EditedBy (agent taskID : String) (cancels : Prop) (task task' : Task) : Prop where
  other : task.id ≠ taskID → task' = task
  reworded : task.Reworded cancels task'
  noted : task.createdBy ≠ agent → task.Noted task'

instance {agent taskID : String} {cancels : Prop} : Std.Refl (Task.EditedBy agent taskID cancels) where
  refl _ := ⟨fun _ => rfl, ⟨_, _, _, _, _, _, _, Or.inl rfl⟩, fun _ => ⟨_, _, _, _, rfl⟩⟩

/-- The row that is written is the row that was read, but for what the two rules name. -/
theorem edited_of_narrow (hvalid : validateUpdate svc taskID request = .ok update)
    (hfields : producerFieldsOnly request = true) (hid : task.id = taskID) (hproper : task.Proper)
    (hclaimable : task.status.claimable = true)
    (hnoted : task.createdBy ≠ principal.id → request.title = none ∧ request.summary = none ∧
      request.priority = none ∧ request.status = "") :
    task.EditedBy principal.id taskID (request.status = "cancelled")
      (task.rewritten (updatedTask update task (update.status.getD task.status) task.sortOrder none
        editor now)) := by
  obtain ⟨hnarrow, hstatus⟩ := narrow_of_producerFieldsOnly hfields hvalid
  have hkind : task.status = .queued ∨ task.status = .stale := by
    simpa [TaskStatus.claimable] using hclaimable
  have hstay : task.status ≠ .cancelled := by
    rcases hkind with hkind | hkind <;> rw [hkind] <;> decide
  have hopen : task.completedAt = none :=
    hproper.completedAt (by rcases hkind with hkind | hkind <;> rw [hkind] <;> rfl)
  rw [hnarrow.rewritten hproper hclaimable (hnarrow.getD_status task.status)]
  rcases hstatus with ⟨hempty, hstatus⟩ | ⟨hcancels, hstatus⟩
  · rw [hstatus, Option.getD_none, if_neg hstay, ← hopen]
    refine ⟨fun hne => absurd hid hne, ⟨_, _, _, _, _, _, _, Or.inl rfl⟩, fun hne => ?_⟩
    obtain ⟨htitle, hsummary, hpriority, -⟩ := hnoted hne
    obtain ⟨htitle', hsummary', hpriority'⟩ := validateUpdate_wording hvalid
    rw [htitle' htitle, hsummary' hsummary, hpriority' hpriority]
    exact ⟨_, _, _, _, rfl⟩
  · rw [hstatus, Option.getD_some, if_pos rfl]
    refine ⟨fun hne => absurd hid hne, ⟨_, _, _, _, _, _, _, Or.inr ⟨hcancels, _, rfl⟩⟩,
      fun hne => ?_⟩
    rw [(hnoted hne).2.2.2] at hcancels
    exact absurd hcancels (by decide)

/-- **What an agent changes of a task that it does not own.** Unless it works for a person, an
agent that updates such a task, run alone, changes the wording, the priority and the note, and
may cancel it; only the note where it did not raise the task. Nothing else on the board
changes but for the events. -/
theorem unowned_update_is_narrow {svc : Service} {db db' : Db}
    (h : Develops svc (fun _ _ => True) db) {env : Env} {taskID : String} {request : UpdateRequest}
    {principal : Principal} (hagent : principal.agent = true) (hoperator : principal.operator = "")
    {current : Task} (hcurrent : db.task? (trimSpace taskID) = some current)
    (howner : current.owner ≠ principal.id) {view : TaskView}
    (hrun : (updateFor svc env taskID request principal).exec db = (.ok view, db')) :
    db' = { db with tasks := db'.tasks, events := db'.events } ∧
      List.Forall₂ (Task.EditedBy principal.id (trimSpace taskID) (request.status = "cancelled"))
        db.tasks db'.tasks := by
  rcases atMost_updateFor_granted.of_exec hrun with rfl | ⟨⟨found, hauthority⟩, -, hcommits⟩
  · exact ⟨rfl, List.forall₂_refl _⟩
  · obtain rfl : found = current := Option.some_inj.mp (hauthority.found.symm.trans hcurrent)
    obtain ⟨hfields, hclaimable, hnoted⟩ :=
      narrow_of_mayUpdate hagent hoperator howner hauthority.allowed
    obtain ⟨update, hash, status, db1, hvalid, htx, -, halone⟩ := hcommits
    obtain rfl : db' = db1 := halone (runID_of_producerFieldsOnly hfields)
    obtain ⟨hnarrow, -⟩ := narrow_of_producerFieldsOnly hfields hvalid
    obtain ⟨row, event, hrow, hversion, hone, rfl⟩ := updateTx_narrow hnarrow htx
    obtain rfl : row = found := Option.some_inj.mp (hrow.symm.trans hcurrent)
    obtain ⟨hmem, hid⟩ := mem_of_task? hcurrent
    refine ⟨rfl, forall₂_mapWhere fun task htask hbumps => ?_⟩
    obtain rfl := eq_of_filter_length_one hone htask hbumps hmem (by simp [bumps, hid, hversion])
    exact edited_of_narrow hvalid hfields hid (h.proper task htask) hclaimable hnoted

/-- An agent raises a task for other agents to pick up. -/
def raiseOp : Op :=
  .create (.numbered 1 0) { title := "Write it down", visibility := "agent" } (sampleAgent "scout")

/-- The agent that raised the task rewords it, and its checklist and runs stay as they are. -/
theorem producer_rewords :
    ∃ view db', (updateFor .ascii (.numbered 2 100) "0100"
        { expectedVersion := 1, title := some "Write it up" } (sampleAgent "scout")).exec
        (raiseOp.step .ascii {}) = (.ok view, db') ∧
      (raiseOp.step .ascii {}).tasks.map (·.title) = ["Write it down"] ∧
      db'.tasks.map (·.title) = ["Write it up"] ∧
      db' = { raiseOp.step .ascii {} with tasks := db'.tasks, events := db'.events } ∧
      List.Forall₂ (Task.EditedBy "scout" "0100" ("" = "cancelled"))
        (raiseOp.step .ascii {}).tasks db'.tasks := by
  have hdevelops : Develops .ascii (fun _ _ => True) (raiseOp.step .ascii {}) :=
    Develops.empty.change (.operation raiseOp) trivial
  have hok : ((updateFor .ascii (.numbered 2 100) "0100"
      { expectedVersion := 1, title := some "Write it up" } (sampleAgent "scout")).exec
      (raiseOp.step .ascii {})).1.isOk = true := by
    decide +kernel
  have htitle : ((updateFor .ascii (.numbered 2 100) "0100"
      { expectedVersion := 1, title := some "Write it up" } (sampleAgent "scout")).exec
      (raiseOp.step .ascii {})).2.tasks.map (·.title) = ["Write it up"] := by
    decide +kernel
  obtain ⟨current, hcurrent, howner⟩ : ∃ current,
      (raiseOp.step .ascii {}).task? (trimSpace "0100") = some current ∧
        current.owner ≠ (sampleAgent "scout").id :=
    ⟨((raiseOp.step .ascii {}).task? (trimSpace "0100")).get (by decide +kernel),
      by simp, by decide +kernel⟩
  rcases hexec : (updateFor .ascii (.numbered 2 100) "0100"
      { expectedVersion := 1, title := some "Write it up" } (sampleAgent "scout")).exec
      (raiseOp.step .ascii {}) with ⟨_ | view, db'⟩
  · simp [hexec, Except.isOk, Except.toBool] at hok
  · rw [hexec] at htitle
    exact ⟨view, db', rfl, by decide +kernel, htitle,
      unowned_update_is_narrow hdevelops rfl rfl hcurrent howner hexec⟩

end Taskboard
