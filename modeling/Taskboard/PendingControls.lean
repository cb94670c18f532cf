import Taskboard.Inbox
import Taskboard.Rows
import Taskboard.RunLife

/-!
# The controls that reach a run

A heartbeat answers with the controls that wait for the run, and an inbox with those of the runs
that it names. Both take a page of the open controls of the agent, oldest first, and pick from
this page. So a control is handed out exactly when fewer open ones of the same agent than the page
holds are older than it, whichever of the agent's runs those are for
(`controls_reach_their_run`).
-/

namespace Taskboard

variable {rows : List RunControlRequest} {kind : RunControlKind} {row : RunControlRequest}
  {note : String} {u : Unit} {request : UpdateRunControlRequest}

variable {run : AgentRun} {now : Instant} {newID : Nat → String} {item : RunControlRequest}
  {controlID runID taskID : String}

/-- `RunProgress`. -/
structure RunProgress where
  lastChangedAt : Instant
  ageSeconds : Int
  staleAfterSeconds : Int
  stale : Bool
  currentItemID : String := ""
  completedItems : Nat
  totalItems : Nat
  hint : String := ""

/-- `HeartbeatResult`. -/
structure HeartbeatResult where
  run : AgentRun
  progress : RunProgress
  pendingMessages : List TaskMessage
  pendingControls : List RunControlRequest

/-- `runProgress`: the last change of an item, and whether it is too long ago. -/
def Service.runProgress (svc : Service) (now : Instant) (task : TaskView) (run : AgentRun) :
    RunProgress :=
  let lastChanged := task.items.foldl (fun last item => max last item.updatedAt) run.startedAt
  let staleAfter := max (3 * svc.leaseDuration) (10 * minute)
  let age := max (now - lastChanged) 0
  let stale : Bool := 0 < task.items.length ∧ staleAfter ≤ age
  { lastChangedAt := lastChanged
    ageSeconds := age / second
    staleAfterSeconds := staleAfter / second
    stale := stale
    currentItemID := task.items.foldl (fun id item => if item.status = .active then item.id else id) ""
    completedItems := (task.items.filter fun item =>
      item.status = .done || item.status = .skipped).length
    totalItems := task.items.length
    hint := if stale then "Checklist progress is stale. Record each completed item now; " ++
      "heartbeat renewal never changes checklist state." else "" }

/-- `ListPendingRunControlsFor`. -/
def listPendingRunControlsFor (svc : Service) (env : Env) (limit : Int) (principal : Principal) :
    CallM (List RunControlRequest) := do
  refuse (!principal.agent || !principal.hasCapability .taskControl) ErrForbidden
  expireRunControls svc env.now env.newID
  Call.look fun db => db.listAgentRunControls principal.id limit

/-- The messages of a heartbeat. -/
def heartbeatMessages (leased : Bool) (taskID runID : String) (principal : Principal) :
    CallM (List TaskMessage) :=
  if leased || principal.hasCapability .taskMessage then
    listPendingTaskMessages taskID runID principal.id 50
  else pure []

/-- The controls of a heartbeat. -/
def heartbeatControls (svc : Service) (env : Env) (taskID runID : String) (principal : Principal) :
    CallM (List RunControlRequest) :=
  if principal.hasCapability .taskControl then do
    let items ← listPendingRunControlsFor svc env 100 principal
    pure (items.filter fun item => item.taskID = taskID && item.targetRunID = runID)
  else pure []

/-- `HeartbeatFor` with its whole answer. -/
def heartbeatResultFor (svc : Service) (env : Env) (taskID runID : String)
    (principal : Principal) : CallM HeartbeatResult := do
  refuse (!principal.agent) ErrForbidden
  let task ← getForHidden svc env.checked taskID principal
  refuse (!canMutate task.toTask principal) ErrForbidden
  refuse (!holdsLease task.runs runID principal env.checked &&
      !principal.hasCapability .taskUpdate)
    (missingCapability "task:update" "heartbeat a run whose lease has lapsed")
  match task.runs.find? fun run => run.id = trimSpace runID ∧ run.agent = principal.id with
  | none => Call.fail .notFound
  | some run => do
      refuse (0 < principal.policy.maxRunDuration ∧
          principal.policy.maxRunDuration ≤ env.checked - run.startedAt)
        (ServiceError.rateLimit "maximum run duration is %s" principal.policy.maxRunDuration)
      let updated ← heartbeat svc env taskID runID
      let messages ← heartbeatMessages (holdsLease task.runs runID principal env.checked)
        taskID runID principal
      let controls ← heartbeatControls svc env taskID runID principal
      pure
        { run := updated
          progress := svc.runProgress env.now task updated
          pendingMessages := messages
          pendingControls := controls }

theorem quiet_heartbeatMessages {leased : Bool} {principal : Principal} :
    (heartbeatMessages leased taskID runID principal).Quiet :=
  Call.quiet_ite quiet_listPendingTaskMessages (Call.quiet_pure _)

section Expiry

variable {svc : Service} {now : Instant} {db db' : Db}

/-- The time of an open control has passed, for the service and for the database. -/
def Service.lapses (svc : Service) (now : Instant) (row : RunControlRequest) : Bool :=
  row.status.isOpen && !decide (now < row.expiresAt) && !svc.before now row.expiresAt

/-- The controls that are open and stay so when those whose time has passed expire. -/
def Service.pending (svc : Service) (now : Instant) (row : RunControlRequest) : Bool :=
  row.status.isOpen && !svc.lapses now row

theorem Service.pending_of_lt (hopen : row.status.isOpen = true)
    (htime : now < row.expiresAt) : svc.pending now row = true := by
  simp [Service.pending, Service.lapses, hopen, htime]

theorem filter_open_congr {p q : RunControlRequest → Bool}
    (h : ∀ row ∈ rows, row.status.isOpen = true → p row = q row) :
    (rows.filter fun row => row.status.isOpen && p row) =
      rows.filter fun row => row.status.isOpen && q row := by
  refine List.filter_congr fun row hrow => ?_
  cases hopen : row.status.isOpen with
  | false => rfl
  | true => rw [h row hrow hopen]

/-- The transaction for one control closes it if its time has passed. -/
theorem expireControlTx_open {eventID : String}
    (h : (expireControlTx svc now eventID item).run db = .ok (u, db')) :
    db'.controls.filter (·.status.isOpen) = db.controls.filter fun row =>
      row.status.isOpen && !(row.id = item.id && row.status.isOpen &&
        !svc.before now row.expiresAt) := by
  have hcontrols : db'.controls = mapWhere (fun row => row.id = item.id && row.status.isOpen &&
      !svc.before now row.expiresAt)
      (fun row => { row with status := .expired, updatedAt := now, decidedAt := some now })
      db.controls := by
    simp only [expireControlTx, Tx.run_bind_ok, Table.run_updateWhere_ok, Tx.run_ite_ok,
      run_insertEvent_ok, Tx.run_pure_ok, controlTable] at h
    obtain ⟨_, _, ⟨-, rfl⟩, ⟨-, -, -, rfl⟩ | ⟨-, -, rfl⟩⟩ := h
    · rfl
    · rfl
  rw [hcontrols, filter_mapWhere_of_out fun _ _ => rfl]

/-- **The loop of `expireRunControls`:** of the listed controls, those whose time has passed are
no longer open. -/
theorem yields_expireControls (newID : Nat → String) (index : Nat) (db : Db)
    (items : List RunControlRequest)
    (hitems : ∀ item ∈ items, ∀ row ∈ db.controls, row.id = item.id →
      row.status.isOpen = true → row = item) :
    (expireControls svc now newID index items).Yields db
      (fun _ db' => db'.controls.filter (·.status.isOpen) = db.controls.filter fun row =>
        row.status.isOpen && !(decide (row.id ∈ items.map (·.id)) && svc.lapses now row))
      fun _ => True := by
  induction items generalizing index db with
  | nil => exact Call.yields_pure (by simp)
  | cons item rest ih =>
      -- What one turn leaves open: `item` is still the row that was listed.
      have hone : (if now < item.expiresAt ∨ !item.status.isOpen then pure ()
          else Call.tx (expireControlTx svc now (newID index) item) : CallM Unit).Yields db
          (fun _ db1 => db1.controls.filter (·.status.isOpen) = db.controls.filter fun row =>
            row.status.isOpen && !(row.id = item.id && svc.lapses now row)) fun _ => True := by
        refine Call.yields_ite (fun hskip => ?_) fun hlapsed => ?_
        · have hnone : ∀ row ∈ db.controls, row.status.isOpen = true →
              (!(decide (row.id = item.id) && svc.lapses now row)) = true := by
            intro row hrow hopen
            by_cases hid : row.id = item.id
            · obtain rfl := hitems item List.mem_cons_self row hrow hid hopen
              have htime : now < row.expiresAt := by simpa [hopen] using hskip
              simp [Service.lapses, htime]
            · simp [hid]
          apply Call.yields_pure
          rw [filter_open_congr hnone]
          simp
        · refine Call.yields_tx trivial fun _ db1 hrun => ?_
          rw [expireControlTx_open hrun]
          refine filter_open_congr fun row hrow hopen => ?_
          by_cases hid : row.id = item.id
          · obtain rfl := hitems item List.mem_cons_self row hrow hid hopen
            have htime : ¬ now < row.expiresAt := fun h => hlapsed (Or.inl h)
            simp [Service.lapses, htime]
          · simp [hid]
      refine Call.yields_bind (hone.mono (fun _ db1 hdb1 => ?_) fun _ h => h)
      have hopen {row : RunControlRequest} (hrow : row ∈ db1.controls)
          (ho : row.status.isOpen = true) : row ∈ db.controls :=
        (List.mem_filter.mp (hdb1 ▸ List.mem_filter.mpr ⟨hrow, ho⟩)).1
      refine (ih (index + 1) db1 fun other hother row hrow hid ho =>
        hitems other (List.mem_cons_of_mem _ hother) row (hopen hrow ho) hid ho).mono
        (fun _ db2 hdb2 => ?_) fun _ h => h
      have hsplit (rows : List RunControlRequest) (p : RunControlRequest → Bool) :
          (rows.filter fun row => row.status.isOpen && p row) =
            (rows.filter (·.status.isOpen)).filter p := by
        rw [List.filter_filter]
        exact List.filter_congr fun row _ => Bool.and_comm _ _
      rw [hdb2, hsplit, hdb1, hsplit, hsplit, List.filter_filter]
      refine List.filter_congr fun row _ => ?_
      cases svc.lapses now row with
      | false => simp
      | true => by_cases hid : row.id = item.id <;> simp [hid]

/-- **Expiring the controls** leaves those open that were open and whose time has not passed. -/
theorem expireRunControls_open (hnames : (db.controls.map (·.id)).Nodup)
    (h : (expireRunControls svc now newID).exec db = (.ok u, db')) :
    db'.controls.filter (·.status.isOpen) = db.controls.filter (svc.pending now) := by
  obtain ⟨items, hlook, hloop⟩ := Call.exec_bind_quiet_ok (Call.quiet_look _) h
  have hitems : ∀ row, row ∈ items ↔ row ∈ db.controls := by
    intro row
    cases hlook
    exact mem_sortBy
  have hyields := (yields_expireControls newID 0 db items fun item hitem row hrow hid _ =>
    List.inj_on_of_nodup_map hnames hrow ((hitems item).mp hitem) hid).of_exec hloop
  rw [hyields]
  refine List.filter_congr fun row hrow => ?_
  have hlisted : row.id ∈ items.map (·.id) := List.mem_map_of_mem ((hitems row).mpr hrow)
  simp [Service.pending, hlisted]

/-- The open controls of the same agent that are older than the control and stay open. -/
def Db.controlsAhead (db : Db) (svc : Service) (now : Instant) (item : RunControlRequest) :
    List RunControlRequest :=
  db.controls.filter fun row =>
    row.targetAgent = item.targetAgent && svc.pending now row && row.id < item.id

/-- Whether a control that stays open is on the page of its agent. -/
theorem mem_listAgentRunControls {agent : String} {limit : Int}
    (hnames : (db.controls.map (·.id)).Nodup)
    (hopen : db'.controls.filter (·.status.isOpen) = db.controls.filter (svc.pending now))
    (hitem : item ∈ db.controls) (hpending : svc.pending now item = true)
    (hagent : item.targetAgent = agent) (hlimit : 0 < limit ∧ limit ≤ 200) :
    item ∈ db'.listAgentRunControls agent limit ↔
      (db.controlsAhead svc now item).length < limit.toNat := by
  subst hagent
  have hrows : (db'.controls.filter fun row =>
      row.targetAgent = item.targetAgent && row.status.isOpen) = db.controls.filter fun row =>
      row.targetAgent = item.targetAgent && svc.pending now row := by
    rw [← List.filter_filter, hopen, List.filter_filter]
  have hpage : ¬ (limit ≤ 0 ∨ 200 < limit) := by omega
  rw [Db.listAgentRunControls, if_neg hpage, hrows, mem_take_sortBy hnames hitem]
  simp [hpending, Db.controlsAhead]

end Expiry

/-- The control is for the agent of the run that it targets. -/
def RunControlRequest.For (row : RunControlRequest) (run : AgentRun) : Prop :=
  run.id = row.targetRunID ∧ run.taskID = row.taskID ∧ run.agent = row.targetAgent

/-- Every control has a name of its own, and is for the agent whose run it targets. -/
structure Db.ControlsAimed (db : Db) : Prop where
  named : (db.controls.map (·.id)).Nodup
  aimed : ∀ row ∈ db.controls, ∃ run ∈ db.runs, row.For run

section Aimed

variable {svc : Service} {env : Env} {principal : Principal} {db db' : Db}

/-- What a control never changes. -/
def RunControlRequest.target (row : RunControlRequest) : String × String × String × String :=
  (row.id, row.taskID, row.targetRunID, row.targetAgent)

/-- The controls stay what they are, or one for a run of the board is added. -/
def Db.Aims (db db' : Db) : Prop :=
  db'.controls.map (·.target) = db.controls.map (·.target) ∨
    ∃ row : RunControlRequest, (∃ run ∈ db'.runs, row.For run) ∧ (∀ other ∈ db.controls, other.id ≠ row.id) ∧
      db'.controls.map (·.target) = db.controls.map (·.target) ++ [row.target]

/-- The controls are the same ones. -/
def Db.SameTargets (db db' : Db) : Prop :=
  db'.controls.map (·.target) = db.controls.map (·.target)

instance : IsPreorder Db Db.SameTargets where
  refl _ := rfl
  trans _ _ _ h h' := Eq.trans h' h

theorem sameTargets_updateControls {p : Db → RunControlRequest → Bool}
    {f : RunControlRequest → RunControlRequest}
    {hf : ∀ row, controlTable.key (f row) = controlTable.key row}
    (h : ∀ row, (f row).target = row.target) :
    (controlTable.updateWhere p f hf : TxM Nat).Each Db.SameTargets :=
  Table.each_updateWhere fun _ => map_mapWhere h

theorem RunControlRequest.target_moved {status : RunControlStatus}
    : (item.moved status note now).target = item.target := by
  cases status <;> rfl

section ControlSteps

/-! Three calls change controls that are there. A relation holds across them as soon as it holds
where the controls stay as they are and across each statement on them. -/

variable {R : Db → Db → Prop} [IsPreorder Db R]
  (hkeep : ∀ db db' : Db, db'.controls = db.controls → R db db')

include hkeep

theorem each_expireRunControls_by (hexpire : ∀ p, (controlTable.updateWhere p fun row =>
      { row with status := .expired, updatedAt := now, decidedAt := some now } : TxM Nat).Each R) :
    (expireRunControls svc now newID).Each R := by
  have hloop (items : List RunControlRequest) (index : Nat) :
      (expireControls svc now newID index items).Each R := by
    induction items generalizing index with
    | nil => exact (Call.quiet_pure _).each
    | cons item rest ih =>
        refine Call.each_bind (Call.each_ite (Call.quiet_pure _).each
          (Call.each_tx fun _ _ => Tx.Each.run ?_)) fun _ => ih (index + 1)
        refine Tx.each_bind (hexpire _) fun _ => ?_
        exact Tx.each_ite (Table.each_insert fun _ => hkeep _ _ rfl) (Tx.each_pure _)
  exact Call.each_bind (Call.quiet_look _).each fun items => hloop items 0

omit [IsPreorder Db R] in
theorem each_heartbeatFor_by (hexpire : ∀ newID, (expireRunControls svc env.now newID).Each R):
    (heartbeatFor svc env taskID runID principal).Each R := by
  have hbeat : (heartbeat svc env taskID runID).Each R := by
    have hframe : (heartbeat svc env taskID runID).Each
        (Footprint [] Eq (List.Forall₂ AgentRun.Follows) Event.Unkeyed) := each_heartbeat
    exact hframe.mono fun _ _ h => hkeep _ _ (h.sameControls List.not_mem_nil)
  refine Call.each_lift_bind fun _ _ => ?_
  refine Call.each_bind quiet_getForHidden.each fun task => ?_
  refine Call.each_lift_bind fun _ _ => ?_
  refine Call.each_lift_bind fun _ _ => ?_
  split
  · exact (Call.quiet_fail _).each
  · refine Call.each_lift_bind fun _ _ => ?_
    refine Call.each_bind hbeat fun _ => ?_
    exact Call.each_bind (Call.each_ite (hexpire _) (Call.quiet_pure _).each)
      fun _ => (Call.quiet_pure _).each

theorem updateRunControlTx_by
    (hmove : ∀ (item : RunControlRequest) status, validControlTransition item.status status = true →
      (controlTable.updateWhere (fun _ row => row.id = item.id && row.status = item.status)
        (fun row => row.moved status request.outcomeNote env.now)
        fun _ => congrArg RowKey.control RunControlRequest.moved_id : TxM Nat).Each R)
    (h : (updateRunControlTx env controlID request principal).run db = .ok (item, db')) :
    R db db' := by
  have hcomplete {task : Task} {item : RunControlRequest} {note : String} :
      (completeRunControl env.now task item note).Each R := by
    have hframe : (completeRunControl env.now task item note).Each (Steady [] Event.Unkeyed) :=
      each_completeRunControl
    exact hframe.mono fun _ _ h => hkeep _ _ (h.sameControls List.not_mem_nil)
  simp only [updateRunControlTx, Tx.run_bind_ok, Tx.run_selectOr_ok, Tx.run_lift_ok] at h
  obtain ⟨found, _, ⟨-, rfl⟩, _, _, ⟨-, rfl⟩, h⟩ := h
  split at h
  · rename_i status _
    rw [Tx.run_refuse_bind_ok] at h
    obtain ⟨hvalid, h⟩ := h
    refine Tx.Each.run (R := R) ?_ h
    refine Tx.each_lift_bind fun _ => ?_
    refine Tx.each_lift_bind fun _ => ?_
    refine Tx.each_selectOr_bind fun current => ?_
    refine Tx.each_bind (Tx.each_ite
      (Tx.each_lift_bind fun _ => hcomplete) (Tx.each_pure _)) fun _ => ?_
    refine Tx.each_bind (each_oneRow (hmove found status (by simpa using hvalid))) fun _ => ?_
    exact Tx.each_bind (Table.each_insert fun _ => hkeep _ _ rfl) fun _ => Tx.each_pure _
  · cases h

end ControlSteps

theorem sameTargets_of_controls (h : db'.controls = db.controls) :
    db.SameTargets db' :=
  congrArg (List.map _) h

theorem sameTargets_expireRunControls :
    (expireRunControls svc now newID).Each Db.SameTargets :=
  each_expireRunControls_by (fun _ _ => sameTargets_of_controls) fun _ =>
    sameTargets_updateControls fun _ => rfl

theorem sameTargets_heartbeatFor :
    (heartbeatFor svc env taskID runID principal).Each Db.SameTargets :=
  each_heartbeatFor_by (fun _ _ => sameTargets_of_controls) fun _ => sameTargets_expireRunControls

theorem sameTargets_updateRunControlTx
    (h : (updateRunControlTx env controlID request principal).run db = .ok (item, db')) :
    db.SameTargets db' :=
  updateRunControlTx_by (fun _ _ => sameTargets_of_controls)
    (fun _ _ _ => sameTargets_updateControls fun _ => RunControlRequest.target_moved) h

/-- A control that is created is for the run that was checked. -/
theorem aims_createRunControlTx {request : CreateRunControlRequest}
    (hrun : ∃ row ∈ db.runs, row.id = run.id ∧ row.taskID = taskID ∧ row.agent = run.agent)
    (h : (createRunControlTx env taskID kind run request principal).run db = .ok (item, db')) :
    db.Aims db' := by
  simp only [createRunControlTx, insertRunControl, Tx.run_bind_ok, run_loadTask_ok,
    Tx.run_lift_ok, Tx.run_select_ok, Table.run_insert_ok, run_insertEvent_ok, Tx.run_pure_ok,
    controlTable] at h
  obtain ⟨current, _, ⟨-, rfl⟩, _, _, ⟨-, rfl⟩, _, _, ⟨-, rfl⟩, _, _, ⟨-, rfl⟩, _, _,
    ⟨-, hfresh, rfl⟩, _, _, ⟨-, -, rfl⟩, rfl, rfl⟩ := h
  right
  refine ⟨_, ?_, ?_, List.map_append⟩
  · exact hrun
  · simpa using hfresh

theorem aims_createRunControlFor {request : CreateRunControlRequest} :
    (createRunControlFor svc env taskID request principal).AtMost Db.Aims := by
  unfold createRunControlFor
  dsimp only
  refine Call.atMost_bind_seen (P := fun db seen => ∃ row ∈ db.runs, row.id = seen.2.id ∧
    row.taskID = trimSpace taskID ∧ row.agent = seen.2.agent) quiet_mayCreateControl ?_ ?_
  · intro db seen hseen
    obtain ⟨_, -, hseen⟩ := Call.exec_lift_bind_ok hseen
    obtain ⟨_, -, hseen⟩ := Call.exec_lift_bind_ok hseen
    obtain ⟨view, hview, hseen⟩ := Call.exec_bind_quiet_ok quiet_getForHidden hseen
    obtain ⟨run, hchecked, hseen⟩ := Call.exec_lift_bind_ok hseen
    cases hseen
    rw [Call.exec_lift] at hchecked
    have hlisted := (checkControl_ok (Prod.mk.inj hchecked).1).1
    obtain ⟨-, hruns, -, -⟩ := getForHidden_ok hview
    rw [hruns, mem_listRuns, trimSpace_idem] at hlisted
    obtain ⟨row, hrow, hof, rfl⟩ := hlisted
    obtain ⟨callsign, hcallsign⟩ := withCallsign_eq db row
    rw [hcallsign]
    exact ⟨row, hrow, rfl, hof, rfl⟩
  · rintro ⟨kind, run⟩
    refine atMost_keyed (fun _ => Call.quiet_lookOr _) ((Call.atMost_tx _).mono ?_)
    rintro db db' ⟨item, hrun⟩ hseen
    exact aims_createRunControlTx hseen hrun

theorem aims_completeReviewControl {current : Task}
    (h : (completeReviewControl env current run kind note principal).run db =
      .ok (controlID, db'))
    (hrun : ∃ row ∈ db.runs, row.id = run.id ∧ row.taskID = current.id ∧ row.agent = run.agent) :
    db.Aims db' := by
  simp only [completeReviewControl, Tx.run_bind_ok, Tx.run_select_ok] at h
  obtain ⟨existing, _, ⟨-, rfl⟩, h⟩ := h
  cases existing with
  | none =>
      simp only [Tx.run_bind_ok, insertRunControl, Table.run_insert_ok, Tx.run_pure_ok,
        controlTable] at h
      obtain ⟨_, _, ⟨-, hfresh, rfl⟩, -, rfl⟩ := h
      right
      refine ⟨_, ?_, ?_, List.map_append⟩
      · exact hrun
      · simpa using hfresh
  | some item =>
      simp only [Tx.run_bind_ok, run_oneRow_ok, Table.run_updateWhere_ok, Tx.run_pure_ok,
        controlTable] at h
      obtain ⟨_, _, ⟨-, rfl⟩, -, rfl⟩ := h
      left
      exact map_mapWhere fun _ => rfl

theorem aims_reviewAndRequeueTx {request : ReviewRequeueRequest}
    (h : (reviewAndRequeueTx svc env taskID request principal).run db = .ok (controlID, db')) :
    db.Aims db' := by
  simp only [reviewAndRequeueTx, Tx.run_bind_ok, run_loadTask_ok, Tx.run_selectOr_ok,
    Tx.run_lift_ok, refuse_ok_iff, run_oneRow_ok, run_bumpTask_ok,
    run_insertEvent_ok, Tx.run_pure_ok] at h
  obtain ⟨current, _, ⟨hcurrent, rfl⟩, _, _, ⟨-, rfl⟩, _, _, ⟨-, rfl⟩, _, _, ⟨-, rfl⟩,
    run, _, ⟨hrun, rfl⟩, kind, _, hrecover, _, _, ⟨-, rfl⟩, _, _, hcontrol, _, _, ⟨-, -, rfl⟩,
    rfl, rfl⟩ := h
  obtain ⟨runs, hruns, rfl, -⟩ := recoverRun_ok hrecover
  obtain ⟨-, rfl⟩ := mem_of_task? hcurrent
  split at hrun
  · rename_i found hfound
    obtain rfl := Except.ok.inj hrun
    have hmem := List.mem_of_find?_eq_some hfound
    have hof : found.taskID = current.id := by
      have hfits := List.find?_some hfound
      simp only [decide_eq_true_eq] at hfits
      exact hfits.2
    -- The run is still there once it has been ended.
    obtain ⟨row, hrow, hfollows⟩ := exists_of_forall₂ hruns.flip hmem
    have haims := aims_completeReviewControl hcontrol
      ⟨row, hrow, hfollows.id, hfollows.taskID.trans hof, hfollows.agent⟩
    exact haims
  · cases hrun

/-- **What one operation does to the controls.** -/
theorem aims_step (op : Op) (db : Db) : db.Aims (op.step svc db) := by
  by_cases hledger : Ledger.controls ∈ op.ledgers
  · cases op with
    | heartbeat env taskID runID principal =>
        left
        rw [Op.step, Op.call, Call.exec_bind_pure_snd]
        exact sameTargets_heartbeatFor.exec db
    | createControl env taskID request principal =>
        rw [Op.step, Op.call, Call.exec_bind_pure_snd]
        rcases aims_createRunControlFor db with hsame | haims
        · exact Or.inl (congrArg (fun db : Db => db.controls.map (·.target)) hsame)
        · exact haims
    | updateControl env controlID request principal =>
        left
        rw [Op.step, Op.call, Call.exec_bind_pure_snd]
        rcases atMost_updateRunControlFor db with hsame | ⟨_, _, -, -, -, hrun⟩
        · exact congrArg (fun db : Db => db.controls.map (·.target)) hsame
        · exact sameTargets_updateRunControlTx hrun
    | expireControls env =>
        left
        rw [Op.step, Op.call, Call.exec_bind_pure_snd]
        exact sameTargets_expireRunControls.exec db
    | reviewAndRequeue env taskID request principal =>
        rw [Op.step, Op.call, Call.exec_bind_pure_snd]
        rcases atMost_reviewAndRequeueFor db with hsame | ⟨_, hrun⟩
        · exact Or.inl (congrArg (fun db : Db => db.controls.map (·.target)) hsame)
        · exact aims_reviewAndRequeueTx hrun
    | _ => exact absurd hledger (by simp [Op.ledgers])
  · exact Or.inl (congrArg (List.map _) ((loose_step op db).sameControls hledger))

theorem RunControlRequest.For.of_target {row' : RunControlRequest}
    (h : row.For run) (htarget : row'.target = row.target) : row'.For run := by
  simp only [RunControlRequest.target, Prod.mk.injEq] at htarget
  obtain ⟨-, htask, hrun, hagent⟩ := htarget
  exact ⟨h.1.trans hrun.symm, h.2.1.trans htask.symm, h.2.2.trans hagent.symm⟩

theorem map_id_of_target {rows' : List RunControlRequest}
    (h : rows'.map (·.target) = rows.map (·.target)) : rows'.map (·.id) = rows.map (·.id) := by
  have hids (rows : List RunControlRequest) :
      rows.map (·.id) = (rows.map (·.target)).map Prod.fst := by
    rw [List.map_map]
    rfl
  rw [hids, h, ← hids]

/-- **One operation** leaves every control for the agent of its run. -/
theorem controlsAimed_step (op : Op) (db : Db) (h : db.ControlsAimed) :
    (op.step svc db).ControlsAimed := by
  have hloose : Loose op.ledgers (Event.Under op.operation) db (op.step svc db) := loose_step op db
  have hkept (row : RunControlRequest) (hrow : ∃ run ∈ db.runs, row.For run) :
      ∃ run ∈ (op.step svc db).runs, row.For run := by
    obtain ⟨run, hrun, hid, hof, hagent⟩ := hrow
    obtain ⟨kept, added, hruns, hkept, -⟩ := hloose.runs
    obtain ⟨run', hrun', hsame⟩ := exists_of_forall₂ hkept.flip hrun
    simp only [Prod.mk.injEq] at hsame
    obtain ⟨hid', hof', hagent', -⟩ := hsame
    refine ⟨run', ?_, hid'.trans hid, hof'.trans hof, hagent'.trans hagent⟩
    rw [hruns]
    exact List.mem_append_left _ hrun'
  have hold {row' : RunControlRequest} (hrow' : row'.target ∈ db.controls.map (·.target)) :
      ∃ run ∈ (op.step svc db).runs, row'.For run := by
    obtain ⟨row, hrow, htarget⟩ := List.mem_map.mp hrow'
    obtain ⟨run, hrun, hfor⟩ := hkept row (h.aimed row hrow)
    exact ⟨run, hrun, hfor.of_target htarget.symm⟩
  rcases (aims_step op db : db.Aims (op.step svc db)) with hsame | ⟨row, hrow, hfresh, hadded⟩
  · constructor
    · rw [map_id_of_target hsame]
      exact h.named
    · intro row' hrow'
      exact hold (hsame ▸ List.mem_map_of_mem hrow')
  · constructor
    · have hids : (op.step svc db).controls.map (·.id) = (db.controls ++ [row]).map (·.id) :=
        map_id_of_target (by rw [hadded, List.map_append, List.map_singleton])
      rw [hids, List.map_append, List.map_singleton, List.nodup_append]
      refine ⟨h.named, List.nodup_singleton _, ?_⟩
      intro id hid id' hid' hsame
      obtain ⟨other, hother, rfl⟩ := List.mem_map.mp hid
      exact hfresh other hother (hsame.trans (List.mem_singleton.mp hid'))
    · intro row' hrow'
      have hmem := List.mem_map_of_mem (f := fun row : RunControlRequest => row.target) hrow'
      rw [hadded] at hmem
      rcases List.mem_append.mp hmem with hmem | hmem
      · exact hold hmem
      · obtain ⟨run, hrun, hfor⟩ := hrow
        exact ⟨run, hrun, hfor.of_target (List.mem_singleton.mp hmem)⟩

theorem controlsAimed_deletes (hdeletes : Deletes db db') (h : db.ControlsAimed) :
    db'.ControlsAimed := by
  obtain ⟨gone, sessions, rfl⟩ := hdeletes
  refine ⟨h.named.sublist (List.filter_sublist.map _), fun row hrow => ?_⟩
  obtain ⟨hmem, hkept⟩ := List.mem_filter.mp hrow
  obtain ⟨run, hrun, hfor⟩ := h.aimed row hmem
  refine ⟨run, List.mem_filter.mpr ⟨hrun, ?_⟩, hfor⟩
  rw [hfor.2.1]
  exact hkept

/-- **Every control of a board is for the agent whose run it targets.** -/
theorem Develops.controlsAimed {ok : Change → Db → Prop} (h : Develops svc ok db) :
    db.ControlsAimed :=
  h.invariant ⟨List.nodup_nil, List.forall_mem_nil _⟩ (fun op db _ => controlsAimed_step op db)
    fun _ _ => controlsAimed_deletes

end Aimed

section Reach

variable {svc : Service} {env : Env} {principal : Principal} {db db' : Db}
  {item : RunControlRequest} {result : HeartbeatResult}

/-- The agent of a control is that of the run it targets. -/
theorem Db.ControlsAimed.agent (haimed : db.ControlsAimed) (hruns : db.RunsNamed)
    (hitem : item ∈ db.controls) (hrun : run ∈ db.runs)
    (hid : run.id = item.targetRunID) : item.targetAgent = run.agent := by
  obtain ⟨target, htarget, htargetID, -, hagent⟩ := haimed.aimed item hitem
  rw [← hagent, hruns.eq_of_id htarget hrun (htargetID.trans hid.symm)]

/-- A control of a run that the inbox names. -/
theorem mem_inbox_controls {hash : String → String} {request : InboxRequest} {inbox : Inbox}
    (haimed : db.ControlsAimed) (hruns : db.RunsNamed)
    (hread : (readInbox hash svc env request principal).exec db = (.ok inbox, db'))
    (hcapable : principal.hasCapability .taskControl = true)
    (hitem : item ∈ db.controls) (hpending : svc.pending env.now item = true)
    (hnamed : item.targetRunID ∈ request.runs.map fun entry => trimSpace entry.runID) :
    item ∈ inbox.controls ↔ (db.controlsAhead svc env.now item).length < 200 := by
  obtain ⟨scope, db1, db2, hscope, hcontrols, -⟩ := readInbox_ok hread
  obtain ⟨hnames, -, howned⟩ := readInboxRuns_ok hscope
  have hmem : item.targetRunID ∈ scope.runs := (hnames _).mpr (Or.inr hnamed)
  have hagent : item.targetAgent = principal.id := by
    rcases howned _ hmem with hnone | ⟨run, hrun, hid, -⟩
    · cases hnone
    · rw [haimed.agent hruns hitem hrun.mem hid, hrun.agent]
  rw [inboxControls, if_pos hcapable] at hcontrols
  obtain ⟨_, db3, hexpire, hpage⟩ := Call.exec_bind_ok hcontrols
  have hlist : _ = inbox.controls := Except.ok.inj (Prod.mk.inj hpage).1
  rw [← hlist, List.mem_filter, mem_listAgentRunControls haimed.named (expireRunControls_open haimed.named
    hexpire) hitem hpending hagent (by decide)]
  simp [hmem]

/-- What a heartbeat that succeeds has read: a run of the agent, then the controls once its lease
is renewed. -/
theorem heartbeatResultFor_ok
    (h : (heartbeatResultFor svc env taskID runID principal).exec db = (.ok result, db')) :
    (∃ run ∈ db.runs, run.id = trimSpace runID ∧ run.agent = principal.id) ∧
      ∃ db1, (heartbeat svc env taskID runID).exec db = (.ok result.run, db1) ∧
        (heartbeatControls svc env taskID runID principal).exec db1 =
          (.ok result.pendingControls, db') := by
  unfold heartbeatResultFor at h
  obtain ⟨_, -, h⟩ := Call.exec_lift_bind_ok h
  obtain ⟨view, hview, h⟩ := Call.exec_bind_quiet_ok quiet_getForHidden h
  obtain ⟨_, -, h⟩ := Call.exec_lift_bind_ok h
  obtain ⟨_, -, h⟩ := Call.exec_lift_bind_ok h
  split at h
  · cases h
  · rename_i shown hshown
    obtain ⟨_, -, h⟩ := Call.exec_lift_bind_ok h
    obtain ⟨updated, db1, hrenew, h⟩ := Call.exec_bind_ok h
    obtain ⟨messages, -, h⟩ := Call.exec_bind_quiet_ok quiet_heartbeatMessages h
    obtain ⟨controls, db2, hcontrols, h⟩ := Call.exec_bind_ok h
    cases h
    refine ⟨?_, db1, hrenew, hcontrols⟩
    obtain ⟨-, hruns, -, -⟩ := getForHidden_ok hview
    have hlisted := List.mem_of_find?_eq_some hshown
    rw [hruns, mem_listRuns] at hlisted
    obtain ⟨run, hrun, -, rfl⟩ := hlisted
    obtain ⟨callsign, hcallsign⟩ := withCallsign_eq db run
    have hfound := List.find?_some hshown
    rw [hcallsign] at hfound
    exact ⟨run, hrun, of_decide_eq_true hfound⟩

/-- A control of the run that a heartbeat is for. -/
theorem mem_heartbeat_controls
    (haimed : db.ControlsAimed) (hruns : db.RunsNamed)
    (hbeat : (heartbeatResultFor svc env taskID runID principal).exec db = (.ok result, db'))
    (hcapable : principal.hasCapability .taskControl = true)
    (hitem : item ∈ db.controls) (hpending : svc.pending env.now item = true)
    (htask : item.taskID = taskID) (hrun : item.targetRunID = runID) :
    item ∈ result.pendingControls ↔ (db.controlsAhead svc env.now item).length < 100 := by
  obtain ⟨⟨own, hown, hid, hagent⟩, db1, hrenew, hcontrols⟩ := heartbeatResultFor_ok hbeat
  -- The run is named as it is stored, so the control is for the caller.
  have htarget : item.targetAgent = principal.id := by
    obtain ⟨target, htarget, htargetID, -, -⟩ := haimed.aimed item hitem
    have htrimmed := hruns.trimmed target htarget
    rw [htargetID, hrun] at htrimmed
    rw [haimed.agent hruns hitem hown (by rw [hid, htrimmed, hrun]), hagent]
  -- Renewing the lease leaves the controls alone.
  have hsame : db1.controls = db.controls := by
    have hframe : Footprint [] Eq (List.Forall₂ AgentRun.Follows) Event.Unkeyed db
      ((heartbeat svc env taskID runID).exec db).2 := each_heartbeat.exec db
    rw [hrenew] at hframe
    exact hframe.sameControls List.not_mem_nil
  rw [heartbeatControls, if_pos hcapable] at hcontrols
  obtain ⟨page, db2, hpage, hpicked⟩ := Call.exec_bind_ok hcontrols
  obtain ⟨_, -, hpage⟩ := Call.exec_lift_bind_ok hpage
  obtain ⟨_, db3, hexpire, hpage⟩ := Call.exec_bind_ok hpage
  cases hpage
  have hlist : _ = result.pendingControls := Except.ok.inj (Prod.mk.inj hpicked).1
  have hopen := expireRunControls_open (hsame ▸ haimed.named) hexpire
  rw [hsame] at hopen
  rw [← hlist, List.mem_filter, mem_listAgentRunControls haimed.named hopen hitem hpending htarget
    (by decide)]
  simp [htask, hrun]

/-- **Which controls reach their run.** An open control whose time has not passed is in the answer
to a heartbeat of its run exactly when fewer than a hundred open ones of the agent are older, and
in an inbox that names the run exactly when fewer than two hundred are. -/
theorem controls_reach_their_run {hash : String → String} (haimed : db.ControlsAimed)
    (hruns : db.RunsNamed) (hcapable : principal.hasCapability .taskControl = true)
    (hitem : item ∈ db.controls) (hopen : item.status.isOpen = true)
    (htime : env.now < item.expiresAt) :
    (∀ result db',
      (heartbeatResultFor svc env item.taskID item.targetRunID principal).exec db =
        (.ok result, db') →
      (item ∈ result.pendingControls ↔ (db.controlsAhead svc env.now item).length < 100)) ∧
    ∀ request inbox db',
      (readInbox hash svc env request principal).exec db = (.ok inbox, db') →
      item.targetRunID ∈ request.runs.map (fun entry => trimSpace entry.runID) →
      (item ∈ inbox.controls ↔ (db.controlsAhead svc env.now item).length < 200) := by
  have hpending : svc.pending env.now item = true := Service.pending_of_lt hopen htime
  constructor
  · intro result db' hbeat
    exact mem_heartbeat_controls haimed hruns hbeat hcapable hitem hpending rfl rfl
  · intro request inbox db' hread hnamed
    exact mem_inbox_controls haimed hruns hread hcapable hitem hpending hnamed

/-- The answer of a heartbeat aside, it is `heartbeatFor`. -/
theorem exec_heartbeatFor :
    (heartbeatFor svc env taskID runID principal).exec db =
      (heartbeatResultFor svc env taskID runID principal >>= fun result =>
        pure result.run).exec db := by
  unfold heartbeatFor heartbeatResultFor
  rw [Call.exec_bind_assoc]
  refine Call.exec_bind_congr _ fun _ db1 hagent => ?_
  have hagent : principal.agent = true := by
    rw [Call.exec_lift, Prod.mk.injEq, refuse_ok_iff] at hagent
    simpa using hagent.1
  rw [Call.exec_bind_assoc]
  refine Call.exec_bind_congr _ fun view db2 _ => ?_
  rw [Call.exec_bind_assoc]
  refine Call.exec_bind_congr _ fun _ db3 _ => ?_
  rw [Call.exec_bind_assoc]
  refine Call.exec_bind_congr _ fun _ db4 _ => ?_
  cases view.runs.find? fun run => run.id = trimSpace runID ∧ run.agent = principal.id with
  | none => rfl
  | some run =>
    dsimp only
    rw [Call.exec_bind_assoc]
    refine Call.exec_bind_congr _ fun _ db5 _ => ?_
    rw [Call.exec_bind_assoc]
    refine Call.exec_bind_congr _ fun updated db6 _ => ?_
    rw [Call.exec_bind_assoc]
    obtain ⟨messages, hmessages⟩ : ∃ messages, (heartbeatMessages
        (holdsLease view.runs runID principal env.checked) taskID runID principal).exec db6 =
          (.ok messages, db6) := by
      unfold heartbeatMessages
      split
      · exact ⟨_, rfl⟩
      · exact ⟨_, rfl⟩
    rw [Call.exec_bind_of_ok hmessages, Call.exec_bind_assoc]
    cases hcapable : principal.hasCapability .taskControl with
    | false =>
        simp only [heartbeatControls, hcapable, Bool.false_eq_true, if_false]
        rfl
    | true =>
        have hmay : refuse (!principal.agent || !principal.hasCapability .taskControl)
            ErrForbidden = .ok () := by simp [refuse, hagent, hcapable]
        unfold heartbeatControls listPendingRunControlsFor
        rw [if_pos rfl, if_pos hcapable, hmay, Call.exec_bind_assoc, Call.exec_bind_assoc,
          Call.exec_bind_of_ok (Call.exec_lift _ _), Call.exec_bind_assoc]
        exact Call.exec_bind_congr _ fun _ _ _ => rfl

end Reach

section Samples

instance (row : RunControlRequest) (run : AgentRun) : Decidable (row.For run) :=
  inferInstanceAs (Decidable (_ ∧ _ ∧ _))

/-- Someone asks the agent to pause. -/
def controlledBoard : Db :=
  Op.run .ascii [startOp, .createControl (.numbered 9 100) "0100"
    { targetRunID := "0101", kind := "pause", expectedVersion := 1 } (humanPrincipal "ann" .owner)] {}

/-- The pause is for the agent that works on the task. -/
theorem pause_is_aimed : controlledBoard.controls.length = 1 ∧ controlledBoard.ControlsAimed := by
  have hdevelops : Develops .ascii (fun _ _ => True) controlledBoard :=
    (Develops.empty.change (.operation _) trivial).change (.operation _) trivial
  exact ⟨by decide +kernel, hdevelops.controlsAimed⟩

/-- The control that is the last in the table. -/
def lastControl (db : Db) : RunControlRequest :=
  db.controls.getLastD
    { id := "", taskID := "", targetRunID := "", targetAgent := "", kind := .pause,
      status := .requested, requestedBy := "", reason := "", taskVersion := 1, createdAt := 0,
      updatedAt := 0, expiresAt := 0 }

/-- Another run of the agent has a hundred older ones. -/
def crowdedBoard : Db :=
  { controlledBoard with
    runs := controlledBoard.runs ++ controlledBoard.runs.map fun run =>
      { run with id := "0102", status := .waiting, endedAt := some 50 }
    controls := (List.range 100).map (fun n =>
      { lastControl controlledBoard with
        id := String.ofList (digits 4 n), targetRunID := "0102", kind := .resume }) ++
      controlledBoard.controls }

/-- The agent of the run renews its lease. -/
def beat : CallM HeartbeatResult :=
  heartbeatResultFor .ascii (.numbered 10 200) "0100" "0101" (sampleAgent "builder")

/-- The pause is in the answer to a heartbeat. -/
theorem pause_reaches_its_run :
    ∃ result db', beat.exec controlledBoard = (.ok result, db') ∧
      lastControl controlledBoard ∈ result.pendingControls := by
  obtain ⟨result, db', hbeat⟩ :=
    Call.exec_of_isOk (c := beat) (s := controlledBoard) (by decide +kernel)
  refine ⟨result, db', hbeat, ?_⟩
  have haimed : controlledBoard.ControlsAimed := ⟨by decide +kernel, by decide +kernel⟩
  have hruns : controlledBoard.RunsNamed := ⟨by decide +kernel, by decide +kernel⟩
  have hreach := @controls_reach_their_run .ascii (.numbered 10 200) (sampleAgent "builder")
    controlledBoard (lastControl controlledBoard) id haimed hruns (by decide +kernel)
    (by decide +kernel) (by decide +kernel) (by decide +kernel)
  exact (hreach.1 result db' hbeat).mpr (by decide +kernel)

/-- With a hundred older controls for another run of the agent, the pause is not in the answer to
a heartbeat of its run. -/
theorem pause_lost_in_the_crowd :
    crowdedBoard.ControlsAimed ∧ crowdedBoard.RunsNamed ∧
      (lastControl crowdedBoard).status = .requested ∧
      200 < (lastControl crowdedBoard).expiresAt ∧
      (lastControl crowdedBoard).taskID = "0100" ∧
      (lastControl crowdedBoard).targetRunID = "0101" ∧
      (beat.exec crowdedBoard).1.toOption.map (·.pendingControls) = some [] := by
  refine ⟨⟨by decide +kernel, by decide +kernel⟩, ⟨by decide +kernel, by decide +kernel⟩, ?_⟩
  decide +kernel

end Samples

end Taskboard
