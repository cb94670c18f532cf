import Taskboard.Transitions

/-!
# What operations do to leases

A run is live while it is active, has not ended and its lease lies in the future. Of all the
operations only two give a run that is there more time: the heartbeat and the general update,
and each does so to the run it names. A start and a claim open one run. Everything else leaves
a run as it is or ends it (`AgentRun.Wanes`).
-/

namespace Taskboard

variable {f : AgentRun → AgentRun} {p : Db → AgentRun → Bool} {agent : String}
  {principal : Principal}

variable {run run' : AgentRun} {db db' : Db} {now : Instant} {hash : Option Digest}
  {item : RunControlRequest} {svc : Service} {request : StartRequest}
  {actor controlID runID taskID : String} {status : TaskStatus} {u : Unit}

variable {lg : List Ledger}

/-- A live run: active, not ended, its lease in the future. -/
def AgentRun.live (now : Instant) (run : AgentRun) : Bool :=
  run.status = .active && run.endedAt.isNone && now < run.leaseExpires

theorem AgentRun.live_iff :
    run.live now = true ↔ run.status = .active ∧ run.endedAt = none ∧ now < run.leaseExpires := by
  simp only [live, Bool.and_eq_true, decide_eq_true_eq, Option.isNone_iff_eq_none, and_assoc]

/-- The run behind a lease that is held. -/
theorem holdsLease_ok (h : holdsLease (svc.listRuns db taskID) runID principal now = true):
    ∃ run ∈ db.runs, run.id = trimSpace runID ∧ run.id ≠ "" ∧ run.taskID = taskID ∧
      run.agent = principal.id ∧ run.live now = true := by
  simp only [holdsLease, Bool.and_eq_true] at h
  obtain ⟨-, h⟩ := h
  split at h
  · rename_i found hfound
    simp only [activeOwnedRun, Option.filter_eq_some_iff, decide_eq_true_eq] at hfound
    obtain ⟨hactive, hagent⟩ := hfound
    obtain ⟨run, hrun, htask, rfl⟩ := mem_listRuns.mp (List.mem_of_find?_eq_some hactive)
    obtain ⟨callsign, hsame⟩ := withCallsign_eq db run
    have hfields := List.find?_some hactive
    rw [hsame] at hfields hagent h
    simp only [decide_eq_true_eq, Bool.and_eq_true] at hfields h
    exact ⟨run, hrun, hfields.1, h.1, htask, hagent, AgentRun.live_iff.mpr ⟨hfields.2.1, hfields.2.2, h.2⟩⟩
  · cases h

/-- A run that is live was live before. -/
theorem AgentRun.live_of_le {later : Instant} (h : run.live later = true)
    (hle : now ≤ later) : run.live now = true := by
  rw [live_iff] at h ⊢
  exact ⟨h.1, h.2.1, lt_of_le_of_lt hle h.2.2⟩

/-- The same run with the same lease, or one that ends; its lease then ends too, or stays. -/
structure AgentRun.Wanes (now : Instant) (run run' : AgentRun) : Prop where
  id : run'.id = run.id
  taskID : run'.taskID = run.taskID
  agent : run'.agent = run.agent
  startedAt : run'.startedAt = run.startedAt
  life : (run'.status = run.status ∧ run'.endedAt = run.endedAt ∧
      run'.leaseExpires = run.leaseExpires) ∨
    (run.endedAt = none ∧ run'.endedAt ≠ none ∧
      (run'.leaseExpires = run.leaseExpires ∨ run'.leaseExpires = now))

instance (now : Instant) : IsPreorder AgentRun (AgentRun.Wanes now) where
  refl _ := ⟨rfl, rfl, rfl, rfl, Or.inl ⟨rfl, rfl, rfl⟩⟩
  trans _ _ _ h h' := by
    refine ⟨h'.id.trans h.id, h'.taskID.trans h.taskID, h'.agent.trans h.agent,
      h'.startedAt.trans h.startedAt, ?_⟩
    rcases h.life with ⟨hs, he, hl⟩ | ⟨hopen, hended, hl⟩
    · rw [← hs, ← he, ← hl]
      exact h'.life
    · rcases h'.life with ⟨-, he', hl'⟩ | ⟨hopen', -⟩
      · rw [he', hl']
        exact Or.inr ⟨hopen, hended, hl⟩
      · exact absurd hopen' hended

theorem AgentRun.SameLease.wanes (h : run.SameLease run') :
    run.Wanes now run' := by
  obtain ⟨_, rfl⟩ := h
  exact ⟨rfl, rfl, rfl, rfl, Or.inl ⟨rfl, rfl, rfl⟩⟩

/-- What is live afterwards was live before, under the same lease. -/
theorem AgentRun.Wanes.live {t : Instant} (h : run.Wanes now run')
    (hlive : run'.live t = true) : run.live t = true := by
  rw [live_iff] at hlive ⊢
  rcases h.life with ⟨hs, he, hl⟩ | ⟨-, hended, -⟩
  · rw [hs, he, hl] at hlive
    exact hlive
  · exact absurd hlive.2.1 hended

/-- Tasks stay, and runs change as `rn` says. -/
abbrev Keeping (lg : List Ledger) (rn : List AgentRun → List AgentRun → Prop) : Db → Db → Prop :=
  Footprint lg (List.Forall₂ (SameKey Task.id)) rn fun _ => True

/-- Tasks stay, and runs stay as they are or end. -/
abbrev Waning (lg : List Ledger) (now : Instant) (ev : Event → Prop) : Db → Db → Prop :=
  Footprint lg (List.Forall₂ (SameKey Task.id)) (List.Forall₂ (AgentRun.Wanes now)) ev

section Waning

variable {env : Env} {ev : Event → Prop} {rn : List AgentRun → List AgentRun → Prop}
  [IsPreorder _ rn]

/-- A statement that ends runs, as long as it sets no lease but to `now`. -/
theorem waning_endRuns {hf : ∀ run, runTable.key (f run) = runTable.key run}
    (h : ∀ db run, p db run = true → run.Wanes now (f run)) :
    (runTable.updateWhere p f hf : TxM Nat).Each (Waning lg now ev) :=
  Table.each_updateWhere fun db => { refl_of (Waning lg now ev) db with
    runs := forall₂_mapWhere fun run _ hrun => h db run hrun }

theorem waning_endActiveRun {also : AgentRun → Bool} :
    (endActiveRun runID also status now).Each (Waning lg now ev) := by
  refine waning_endRuns fun _ run hrun => ?_
  simp only [Bool.and_eq_true, Option.isNone_iff_eq_none] at hrun
  exact ⟨rfl, rfl, rfl, rfl, Or.inr ⟨hrun.2, Option.some_ne_none _, Or.inr rfl⟩⟩

/-- What an escalation changes, by what the statement that ends the run does. -/
theorem each_createEscalationTx_of {request : CreateEscalationRequest}
    (hend : request.blocking = true →
      (endActiveRun request.runID (fun run => run.taskID = taskID) .waiting env.now).Each
        (Keeping [.escalations] rn)) :
    (createEscalationTx env taskID request principal).Each (Keeping [.escalations] rn) := by
  refine Tx.each_selectOr_bind fun _ => ?_
  refine Tx.each_lift_bind fun _ => ?_
  refine Tx.each_select_bind fun _ => ?_
  refine Tx.each_lift_bind fun _ => ?_
  refine Tx.each_bind each_insertTaskMessage fun _ => ?_
  refine Tx.each_bind each_insertTaskEscalation fun _ => ?_
  refine Tx.each_bind ?_ fun _ =>
    Tx.each_bind (Footprint.each_insertEvent trivial) fun _ => Tx.each_pure _
  split
  · rename_i hblocking
    refine Tx.each_bind (hend hblocking) fun _ => ?_
    refine Tx.each_lift_bind fun _ => ?_
    exact Tx.each_bind (Footprint.each_bumpTask fun _ => rfl) fun _ => Tx.each_lift _
  · exact Tx.each_pure _

theorem waning_createEscalationTx {request : CreateEscalationRequest} :
    (createEscalationTx env taskID request principal).Each
      (Waning [.escalations] env.now fun _ => True) :=
  each_createEscalationTx_of fun _ => waning_endActiveRun

/-- What completing a control changes, by what the statement that ends the run does. Only a pause
and a cancellation have it. -/
theorem each_completeRunControl_of {task : Task} {note : String}
    (hend : item.kind = .pause ∨ item.kind = .cancel → ∀ status,
      (endActiveRun item.targetRunID (fun _ => true) status now).Each (Keeping lg rn)) :
    (completeRunControl now task item note).Each (Keeping lg rn) := by
  refine Tx.each_selectOr_bind fun run => ?_
  split
  case h_1 hkind | h_2 hkind =>
    refine Tx.each_lift_bind fun _ => ?_
    refine Tx.each_bind (each_oneRow (hend (by simp [hkind]) _)) fun _ => ?_
    exact each_oneRow (Footprint.each_bumpTask fun _ => rfl)
  case h_3 | h_4 =>
    refine Tx.each_lift_bind fun _ => ?_
    exact each_oneRow (Footprint.each_bumpTask fun _ => rfl)

/-- What a step of a control changes, by what the statement that ends the run does. -/
theorem updateRunControlTx_of {request : UpdateRunControlRequest}
    (hend : ∀ item, (db.controls.find? fun row => row.id = controlID) = some item →
      RunControlStatus.ofString? request.status = some .completed →
      item.kind = .pause ∨ item.kind = .cancel → ∀ status,
      (endActiveRun item.targetRunID (fun _ => true) status env.now).Each
        (Keeping [.controls] rn))
    (h : (updateRunControlTx env controlID request principal).run db = .ok (item, db')) :
    Keeping [.controls] rn db db' := by
  simp only [updateRunControlTx, Tx.run_bind_ok, Tx.run_selectOr_ok, found_ok_iff,
    Tx.run_lift_ok] at h
  obtain ⟨found, _, ⟨hfound, rfl⟩, _, _, ⟨-, rfl⟩, h⟩ := h
  split at h
  · rename_i status hstatus
    refine Tx.Each.run (R := Keeping [.controls] rn) ?_ h
    refine Tx.each_lift_bind fun _ => ?_
    refine Tx.each_lift_bind fun _ => ?_
    refine Tx.each_lift_bind fun _ => ?_
    refine Tx.each_selectOr_bind fun current => ?_
    refine Tx.each_bind ?_ fun _ => ?_
    · split
      · rename_i hcompleted
        exact Tx.each_lift_bind fun _ =>
          each_completeRunControl_of (hend found hfound (hcompleted ▸ hstatus))
      · exact Tx.each_pure _
    · refine Tx.each_bind (each_oneRow (each_updateControls fun _ => RunControlRequest.moved_id))
        fun _ => ?_
      exact Tx.each_bind (Footprint.each_insertEvent trivial) fun _ => Tx.each_pure _
  · cases h

theorem waning_updateRunControlTx {request : UpdateRunControlRequest}
    (h : (updateRunControlTx env controlID request principal).run db = .ok (item, db')) :
    Waning [.controls] env.now (fun _ => True) db db' :=
  updateRunControlTx_of (fun _ _ _ _ _ => waning_endActiveRun) h

/-- What a review changes, by what the statement that ends the run does. -/
theorem reviewAndRequeueTx_of {request : ReviewRequeueRequest} (hend : (runTable.updateWhere
      (fun _ row => row.id = request.targetRunID && row.taskID = taskID && row.endedAt.isNone)
      fun row => { row with endedAt := some env.now } : TxM Nat).Each (Keeping [.controls] rn))
    (h : (reviewAndRequeueTx svc env taskID request principal).run db = .ok (controlID, db')) :
    Keeping [.controls] rn db db' := by
  simp only [reviewAndRequeueTx, run_loadTask_bind_ok, Tx.run_refuse_bind_ok] at h
  obtain ⟨current, hcurrent, -, -, -, h⟩ := h
  obtain ⟨run, found, hfound, hrest⟩ := Tx.run_bind_ok.mp h
  simp only [Tx.run_selectOr_ok] at hfound
  obtain ⟨hrow, rfl⟩ := hfound
  have hid : current.id = taskID := (mem_of_task? hcurrent).2
  have hrun : run.id = request.targetRunID := by
    split at hrow
    · rename_i row hmem
      obtain rfl := Except.ok.inj hrow
      exact (by simpa using List.find?_some hmem : _ ∧ _).1
    · cases hrow
  rw [← hid, ← hrun] at hend
  refine Tx.Each.run (R := Keeping [.controls] rn) ?_ hrest
  refine Tx.each_bind (Tx.each_ite (Tx.each_lift_bind fun _ => Tx.each_pure _) ?_)
    fun kind => ?_
  · refine Tx.each_select_bind fun _ => ?_
    refine Tx.each_lift_bind fun _ => ?_
    exact Tx.each_bind (Tx.each_ite (each_oneRow hend) (Tx.each_pure _))
      fun _ => Tx.each_pure _
  · refine Tx.each_bind (each_oneRow (Footprint.each_bumpTask fun _ => rfl)) fun _ => ?_
    refine Tx.each_bind each_completeReviewControl fun _ => ?_
    exact Tx.each_bind (Footprint.each_insertEvent trivial) fun _ => Tx.each_pure _

end Waning

section Update

variable {env : Env} {update : TaskUpdate} {current row : Task}

/-- What the general update does to a run that it does not name: it may end it, and leaves its
lease. -/
structure AgentRun.LeftBy (taskID runID : String) (now : Instant) (run run' : AgentRun) : Prop where
  id : run'.id = run.id
  task : run'.taskID = run.taskID
  other : run.isNamed taskID runID = false →
    run.Wanes now run' ∧ run'.leaseExpires = run.leaseExpires

instance : IsPreorder AgentRun (AgentRun.LeftBy taskID runID now) where
  refl _ := ⟨rfl, rfl, fun _ => ⟨refl_of (AgentRun.Wanes now) _, rfl⟩⟩
  trans run run' _ h h' := by
    refine ⟨h'.id.trans h.id, h'.task.trans h.task, fun hother => ?_⟩
    have hother' : run'.isNamed taskID runID = false := by
      rw [AgentRun.isNamed, h.id, h.task]
      exact hother
    obtain ⟨hwanes, hlease⟩ := h.other hother
    obtain ⟨hwanes', hlease'⟩ := h'.other hother'
    exact ⟨trans_of (AgentRun.Wanes now) hwanes hwanes', hlease'.trans hlease⟩

/-- The runs that an update does not name stay as they are or end. -/
def RunsLeft (taskID runID : String) (now : Instant) (db db' : Db) : Prop :=
  List.Forall₂ (AgentRun.LeftBy taskID runID now) db.runs db'.runs

instance : IsPreorder Db (RunsLeft taskID runID now) where
  refl db := List.forall₂_refl db.runs
  trans _ _ _ h h' := forall₂_trans h h'

theorem RunsLeft.of_eq (h : db'.runs = db.runs) : RunsLeft taskID runID now db db' := by
  unfold RunsLeft
  rw [h]
  exact List.forall₂_refl _

theorem runsLeft_linkDuplicate {kept : Option Task} :
    (linkDuplicate env taskID actor update current row kept).Each
      (RunsLeft taskID update.runID env.now) := by
  unfold linkDuplicate
  cases kept with
  | some kept =>
      refine Tx.each_bind (Table.each_updateWhere fun db => .of_eq rfl) fun _ => ?_
      refine Tx.each_bind (Table.each_updateWhere fun db =>
        forall₂_mapWhere fun run _ hrun => ⟨rfl, rfl, fun _ => ?_⟩) fun _ =>
          Table.each_insert fun db => .of_eq rfl
      simp only [Bool.and_eq_true, Option.isNone_iff_eq_none] at hrun
      exact ⟨⟨rfl, rfl, rfl, rfl, Or.inr ⟨hrun.2, Option.some_ne_none _, Or.inl rfl⟩⟩, rfl⟩
  | none =>
      exact Tx.each_ite (Tx.each_bind (Table.each_updateWhere fun db => .of_eq rfl) fun _ =>
        Tx.each_pure _) (Tx.each_pure _)

theorem runsLeft_writeRun :
    (writeRun svc now taskID runID status).Each (RunsLeft taskID runID now) := by
  unfold writeRun
  split
  · exact Tx.each_pure _
  · rename_i hne
    refine Tx.each_bind (Table.each_updateWhere fun db =>
      forall₂_mapWhere fun run _ hrun => ⟨rfl, rfl, fun hother => ?_⟩) fun _ => Tx.each_lift _
    simp only [Bool.and_eq_true, decide_eq_true_eq] at hrun
    simp [AgentRun.isNamed, hne, hrun] at hother

/-- The general update leaves the runs that it does not name, or ends them. -/
theorem runsLeft_updateTx
    (h : (updateTx svc env taskID update actor hash).run db = .ok (status, db')) :
    RunsLeft taskID update.runID env.now db db' := by
  refine triple_updateTx (R := RunsLeft taskID update.runID env.now) ?_ ?_ ?_
    (fun _ _ _ _ => runsLeft_linkDuplicate) (fun _ => runsLeft_writeRun) ?_ db status db'
    (refl_of (RunsLeft _ _ _) db) h
  · rintro db _ ⟨_, _, _, _, rfl⟩
    exact .of_eq rfl
  · exact fun _ => Table.each_insert fun _ => .of_eq rfl
  · exact fun _ => Tx.each_bind (Table.each_updateWhere fun _ => .of_eq rfl) fun _ =>
      Tx.each_ite (Tx.each_selectOr _) (Tx.each_pure _)
  · exact fun _ _ _ _ => Table.each_insert fun _ => .of_eq rfl

end Update

/-- What the general update does to the runs: the one it names is written from the status it
leaves the task in, and the others stay as they are or end. -/
structure AgentRun.Amended (svc : Service) (now : Instant) (taskID runID : String)
    (status : TaskStatus) (run run' : AgentRun) : Prop where
  named : run.isNamed taskID runID = true → (run.updated svc status now).SameLease run'
  other : run.isNamed taskID runID = false → run.Wanes now run'
  lease : run.isNamed taskID runID = false → run'.leaseExpires = run.leaseExpires

theorem Updates.amended {env : Env}
    {request : UpdateRequest} (h : Updates svc env taskID request actor db db') :
    ∃ current, db.task? (trimSpace taskID) = some current ∧
      current.version = request.expectedVersion ∧
      List.Forall₂ (AgentRun.Amended svc env.now (trimSpace taskID) request.runID
        (request.nextStatus current.status)) db.runs db'.runs := by
  obtain ⟨current, hcurrent, hversion, hwritten⟩ := h.written
  refine ⟨current, hcurrent, hversion, ?_⟩
  obtain ⟨update, hash, status, db1, hvalid, hrun, hplain⟩ := h
  have hleft : List.Forall₂ (AgentRun.LeftBy (trimSpace taskID) request.runID env.now) db.runs
      db1.runs := (validateUpdate_ok hvalid).2.1 ▸ runsLeft_updateTx hrun
  refine (forall₂_both hwritten (forall₂_comp hleft hplain.runs)).imp ?_
  rintro run run' ⟨⟨mid, hmid, hlease⟩, left, hother, hsame⟩
  refine ⟨fun hnamed => ?_, fun hne => ?_, fun hne => ?_⟩
  · obtain rfl := hmid.named hnamed
    exact hlease
  · exact trans_of (AgentRun.Wanes env.now) (hother.other hne).1 hsame.wanes
  · obtain ⟨_, rfl⟩ := hsame
    exact (hother.other hne).2

section Heartbeat

variable {env : Env}

/-- The run that a heartbeat renews. -/
def AgentRun.beats (taskID runID : String) (run : AgentRun) : Bool :=
  run.id = runID && run.taskID = taskID && run.endedAt.isNone && run.status = .active

/-- A run under a new lease. -/
def AgentRun.renewed (svc : Service) (now : Instant) (run : AgentRun) : AgentRun :=
  { run with leaseExpires := now + svc.leaseDuration, lastHeartbeat := now }

/-- What a heartbeat has found, and what it does to the runs. -/
structure Heartbeats (svc : Service) (env : Env) (taskID runID : String) (principal : Principal)
    (db db' : Db) : Prop where
  agent : principal.agent = true
  mutates : ∃ current, db.task? (trimSpace taskID) = some current ∧
    canMutate current principal = true
  holds : holdsLease (svc.listRuns db (trimSpace taskID)) runID principal env.checked = true ∨
    principal.hasCapability .taskUpdate = true
  young : ∃ run ∈ db.runs, run.id = trimSpace runID ∧ run.taskID = trimSpace taskID ∧
    run.agent = principal.id ∧ ¬ (0 < principal.policy.maxRunDuration ∧
      principal.policy.maxRunDuration ≤ env.checked - run.startedAt)
  runs : db'.runs = mapWhere (AgentRun.beats (trimSpace taskID) (trimSpace runID))
    (AgentRun.renewed svc env.now) db.runs

theorem exec_updateRuns {hf : ∀ run, runTable.key (f run) = runTable.key run} (db : Db):
    (Call.tx (runTable.updateWhere p f hf) : CallM Nat).exec db =
      (.ok (db.runs.filter (p db)).length, { db with runs := mapWhere (p db) f db.runs }) := by
  have hrun : (runTable.updateWhere p f hf : TxM Nat).run db =
      .ok ((db.runs.filter (p db)).length, { db with runs := mapWhere (p db) f db.runs }) :=
    Table.run_updateWhere_ok.mpr ⟨rfl, rfl⟩
  rw [Call.exec_tx, hrun]

/-- The statement of a heartbeat always goes through, and nothing after it writes. -/
theorem exec_heartbeat (db : Db) :
    ((heartbeat svc env taskID runID).exec db).2 = { db with
      runs := mapWhere (AgentRun.beats (trimSpace taskID) (trimSpace runID))
        (AgentRun.renewed svc env.now) db.runs } := by
  unfold heartbeat
  refine (congrArg Prod.snd (Call.exec_bind_of_ok (exec_updateRuns db))).trans ?_
  refine Call.Quiet.exec (Call.quiet_lift_bind fun _ =>
    Call.quiet_bind quiet_getTask fun task => ?_) _
  split
  · exact Call.quiet_pure _
  · exact Call.quiet_fail _

/-- **A heartbeat run alone** leaves the database alone, or renews the run that it names and
expires controls. -/
theorem atMost_heartbeatFor :
    (heartbeatFor svc env taskID runID principal).AtMost
      (Heartbeats svc env taskID runID principal) := by
  refine Call.atMost_lift_bind fun _ hagent => ?_
  refine Call.atMost_bind_seen quiet_getForHidden (fun _ _ => getForHidden_ok) fun view => ?_
  refine Call.atMost_lift_bind fun _ hmutates => ?_
  refine Call.atMost_lift_bind fun _ hholds => ?_
  split
  · exact Call.atMost_of_quiet (Call.quiet_fail _)
  · rename_i run hfound
    refine Call.atMost_lift_bind fun _ hyoung => ?_
    intro db
    refine Or.inr ?_
    rintro ⟨htask, hruns, -, -⟩
    simp only [refuse_ok_iff, Bool.not_eq_true', Bool.not_eq_false, Bool.and_eq_true,
      not_and] at hagent hmutates hholds hyoung
    obtain ⟨row, hrow, hof, rfl⟩ := mem_listRuns.mp (hruns ▸ List.mem_of_find?_eq_some hfound)
    obtain ⟨callsign, hsame⟩ := withCallsign_eq db row
    have hfields := List.find?_some hfound
    rw [hsame] at hfields hyoung
    simp only [decide_eq_true_eq] at hfields
    have hafter : Footprint [.controls] Eq Eq Event.Unkeyed
        ((heartbeat svc env taskID runID).exec db).2
        ((do
          let updated ← heartbeat svc env taskID runID
          (if principal.hasCapability .taskControl then expireRunControls svc env.now env.newID
          else pure ())
          pure updated : CallM AgentRun).exec db).2 :=
      Call.exec_bind_each (fun updated => Call.each_bind (Call.each_ite
        (each_expireRunControls fun _ h => h) (Call.quiet_pure _).each) fun _ =>
          (Call.quiet_pure updated).each) db
    refine ⟨hagent, ⟨view.toTask, htask, hmutates⟩, ?_, ⟨row, hrow, hfields.1, hof, hfields.2, ?_⟩,
      ?_⟩
    · rw [← hruns]
      cases hholds' : holdsLease view.runs runID principal env.checked with
      | true => exact Or.inl rfl
      | false => exact Or.inr (by simpa using hholds hholds')
    · rintro ⟨hlimit, hold⟩
      exact hyoung hlimit hold
    · rw [← hafter.runs, exec_heartbeat]

end Heartbeat

section Opening

variable {env : Env}

/-- The principal's policy allows it one more run in this state. -/
structure WithinLimits (svc : Service) (principal : Principal) (now : Instant) (db : Db) : Prop where
  concurrent : 0 < principal.policy.maxConcurrentRuns →
    ((db.runs.filter fun run => run.agent = principal.id && svc.liveAt now run).length : Int) <
      principal.policy.maxConcurrentRuns
  pickups : 0 < principal.policy.maxPickupsPerMinute →
    ((db.runs.filter fun run =>
      run.agent = principal.id && !svc.before run.startedAt (now - minute)).length : Int) <
      principal.policy.maxPickupsPerMinute

theorem enforceAgentPickupLimits_ok (hagent : principal.agent = true)
    (h : (enforceAgentPickupLimits svc principal now).exec db = (.ok u, db')) :
    WithinLimits svc principal now db := by
  unfold enforceAgentPickupLimits at h
  rw [if_pos hagent] at h
  obtain ⟨_, hconcurrent, h⟩ := Call.exec_bind_quiet_ok (Call.quiet_ite (Call.quiet_bind
    (Call.quiet_look _) fun _ => Call.quiet_lift _) (Call.quiet_pure _)) h
  refine ⟨fun hlimit => ?_, fun hlimit => ?_⟩
  · rw [if_pos hlimit] at hconcurrent
    obtain ⟨count, hcount, hrefuse⟩ := Call.exec_bind_quiet_ok (Call.quiet_look _) hconcurrent
    simp only [Call.exec_look, Call.exec_lift, Prod.mk.injEq, Except.ok.injEq, refuse_ok_iff,
      and_true, not_le] at hcount hrefuse
    rw [hcount]
    exact hrefuse
  · rw [if_pos hlimit] at h
    obtain ⟨count, hcount, hrefuse⟩ := Call.exec_bind_quiet_ok (Call.quiet_look _) h
    simp only [Call.exec_look, Call.exec_lift, Prod.mk.injEq, Except.ok.injEq, refuse_ok_iff,
      and_true, not_le] at hcount hrefuse
    rw [hcount]
    exact hrefuse.1

/-- A run that has just been opened. -/
structure AgentRun.Opened (svc : Service) (env : Env) (run : AgentRun) : Prop where
  trimmed : trimSpace run.id = run.id
  status : run.status = .active
  endedAt : run.endedAt = none
  leaseExpires : run.leaseExpires = env.now + svc.leaseDuration
  startedAt : run.startedAt = env.now

/-- The run that a start or a claim opens. An agent opens runs of its own, within its limits. -/
structure Opens (svc : Service) (env : Env) (principal : Principal) (db : Db) (run : AgentRun) :
    Prop where
  opened : run.Opened svc env
  fresh : ∀ row ∈ db.runs, row.id ≠ run.id
  own : principal.agent = true → run.agent = principal.id
  limits : principal.agent = true → WithinLimits svc principal env.checked db

theorem opened_newRun {client sessionID callsign : String} (hid : trimSpace runID = runID):
    { newRun svc env runID taskID agent client with sessionID, callsign }.Opened svc env :=
  ⟨hid, rfl, rfl, rfl, rfl⟩

theorem startTx_opens {item : NewTask} {overridden : List String}
    (h : (startTx svc env item request actor hash overridden).run db = .ok (u, db')) :
    ∃ run, run.Opened svc env ∧ (∀ row ∈ db.runs, row.id ≠ run.id) ∧
      run.agent = startAgent request.agent actor ∧ db'.runs = db.runs ++ [run] := by
  obtain ⟨sortOrder, sessionID, callsign, event, -, hfresh, -, -, -, -, haside⟩ := startTx_ok h
  obtain ⟨_, _, _, _, rfl⟩ := haside
  refine ⟨{ newRun svc env (env.newID 1) (env.newID 0) (startAgent request.agent actor)
    request.client with sessionID, callsign }, opened_newRun (env.trimSpace_newID 1), ?_, rfl, rfl⟩
  exact hfresh

theorem claimTx_opens {request : ClaimRequest}
    (h : (claimTx svc env taskID request agent hash).run db = .ok (u, db')) :
    ∃ run, run.Opened svc env ∧ (∀ row ∈ db.runs, row.id ≠ run.id) ∧ run.agent = agent ∧
      db'.runs = db.runs ++ [run] := by
  obtain ⟨current, sessionID, callsign, event, -, -, -, -, hfresh, -, -, -, -, haside⟩ := claimTx_ok h
  obtain ⟨_, _, _, _, rfl⟩ := haside
  refine ⟨{ newRun svc env (env.newID 0) taskID agent request.client with sessionID, callsign },
    opened_newRun (env.trimSpace_newID 0), ?_, rfl, rfl⟩
  exact hfresh

theorem startAgent_own {checked : StartRequest}
    (hagent : principal.agent = true) (h : startRequestOf request principal = .ok checked) :
    startAgent checked.agent actor = principal.id := by
  simp only [startRequestOf, Except.bind_ok_iff] at h
  obtain ⟨_, -, _, -, _, -, h⟩ := h
  cases h
  simp only [startAgent, principal.trimmed]
  exact if_pos (principal.named hagent)

theorem atMost_startFor_opens :
    (startFor svc env request principal).AtMost fun db db' =>
      ∃ run, Opens svc env principal db run ∧ db'.runs = db.runs ++ [run] := by
  refine Call.atMost_lift_bind fun _ _ => ?_
  split
  · rename_i hagent
    refine Call.atMost_lift_bind fun checked hchecked => ?_
    refine Call.atMost_holding (atMost_keyed (fun _ => quiet_replayedRun) ?_)
    refine Call.atMost_bind_seen quiet_enforceAgentPickupLimits
      (fun _ _ => enforceAgentPickupLimits_ok hagent) fun _ => ?_
    refine Call.atMost_bind_quiet quiet_checkDuplicates fun overridden => ?_
    refine atMost_start.mono fun db db' ⟨item, u, h⟩ hlimits => ?_
    obtain ⟨run, hopened, hfresh, hrun, hruns⟩ := startTx_opens h
    exact ⟨run, ⟨hopened, hfresh, fun _ => hrun.trans (startAgent_own hagent hchecked),
      fun _ => hlimits⟩, hruns⟩
  · rename_i hperson
    refine atMost_start.mono fun db db' ⟨item, u, h⟩ => ?_
    obtain ⟨run, hopened, hfresh, hrun, hruns⟩ := startTx_opens h
    exact ⟨run, ⟨hopened, hfresh, fun hagent => absurd hagent hperson,
      fun hagent => absurd hagent hperson⟩, hruns⟩

theorem atMost_claimFor_opens {request : ClaimRequest} :
    (claimFor svc env taskID request principal).AtMost fun db db' =>
      ∃ run, Opens svc env principal db run ∧ db'.runs = db.runs ++ [run] := by
  refine Call.atMost_lift_bind fun _ hcapable => Call.atMost_holding ?_
  have hagent : principal.agent = true := by
    simp only [refuse_ok_iff, Identity.hasCapability, Bool.not_eq_true', Bool.not_eq_false,
      Bool.and_eq_true] at hcapable
    exact hcapable.1
  refine atMost_keyed (fun _ => quiet_replayedRun) ?_
  refine Call.atMost_bind_quiet quiet_getForHidden fun task => ?_
  refine Call.atMost_lift_bind fun _ _ => ?_
  refine Call.atMost_bind_quiet quiet_checkWorker fun _ => ?_
  refine Call.atMost_bind_seen quiet_enforceAgentPickupLimits
    (fun _ _ => enforceAgentPickupLimits_ok hagent) fun _ => ?_
  refine Call.atMost_lift_bind fun _ _ => ?_
  refine Call.atMost_lift_bind fun _ _ => ?_
  refine Call.atMost_then_quiet ((Call.atMost_tx _).mono ?_) fun _ => ?_
  · rintro db db' ⟨u, h⟩ hlimits
    obtain ⟨run, hopened, hfresh, hrun, hruns⟩ := claimTx_opens h
    refine ⟨run, ⟨hopened, hfresh, fun _ => hrun.trans ?_, fun _ => hlimits⟩, hruns⟩
    simp only [principal.trimmed]
    exact if_neg (principal.named hagent)
  · refine Call.quiet_bind quiet_getTask fun task => ?_
    split
    · exact Call.quiet_pure _
    · exact Call.quiet_fail _

end Opening

/-- What the call draws. -/
def Op.env : Op → Env
  | .start env .. | .create env .. | .fireSchedule env .. | .claim env .. | .update env ..
  | .heartbeat env .. | .sweep env | .escalate env .. | .resolve env .. | .createControl env ..
  | .updateControl env .. | .expireControls env | .reviewAndRequeue env .. | .addMessage env ..
  | .recordReceipts env ..
  | .addReference env .. | .addHandoff env .. | .recordUsage env .. | .createRequirement env ..
  | .submitEvidence env .. | .reviewCompletion env .. | .startDiscussion env ..
  | .addDiscussionMessage env .. | .updateDiscussion env .. | .move env .. | .renameRun env ..
  | .addDependency env .. | .removeDependency env .. | .setRequirements env .. | .advertise env .. =>
      env

/-- What one operation does to the leases of the board. -/
inductive Op.LeaseEffect (svc : Service) (op : Op) (db db' : Db) : Prop
  /-- Every run stays as it is, or ends. -/
  | wane (runs : List.Forall₂ (AgentRun.Wanes op.env.now) db.runs db'.runs)
  /-- One run is opened. -/
  | opens (principal : Principal) (run : AgentRun)
      (call : (∃ request, op = .start op.env request principal) ∨
        ∃ taskID request, op = .claim op.env taskID request principal)
      (opens : Opens svc op.env principal db run) (runs : db'.runs = db.runs ++ [run])
  /-- A heartbeat renews one run. -/
  | heartbeat (taskID runID : String) (principal : Principal)
      (call : op = .heartbeat op.env taskID runID principal)
      (beats : Heartbeats svc op.env taskID runID principal db db')
  /-- The general update writes one run. -/
  | update (taskID : String) (request : UpdateRequest) (principal : Principal) (current : Task)
      (call : op = .update op.env taskID request principal) (changed : db' ≠ db)
      (found : db.task? (trimSpace taskID) = some current)
      (version : current.version = request.expectedVersion)
      (runs : List.Forall₂ (AgentRun.Amended svc op.env.now (trimSpace taskID) request.runID
        (request.nextStatus current.status)) db.runs db'.runs)

section Effect

variable {op : Op}

theorem Op.LeaseEffect.of_eq (h : db'.runs = db.runs) : op.LeaseEffect svc db db' := by
  refine .wane ?_
  rw [h]
  exact List.forall₂_refl _

theorem leaseEffect_create {env : Env} {queued : QueuedTask}
    (h : (insertQueuedTask env.newID queued env.now).run db = .ok (u, db')) :
    op.LeaseEffect svc db db' := by
  obtain ⟨sortOrder, event, base, -, -, -, -, -, haside⟩ := insertQueuedTask_ok h
  obtain ⟨_, _, _, _, rfl⟩ := haside
  exact .of_eq rfl

theorem leaseEffect_sweep {env : Env} :
    (Op.sweep env).LeaseEffect svc db ((Op.sweep env).step svc db) := by
  have hswept : Footprint [.handoffs] Eq Eq Event.Unkeyed (svc.swept env.now db)
      ((sweepStale svc env).exec db).2 := exec_sweepStale db
  have hstep : (Op.sweep env).step svc db = ((sweepStale svc env).exec db).2 :=
    Call.exec_bind_pure_snd _ _ db
  refine .wane ?_
  rw [hstep, ← hswept.runs]
  refine forall₂_mapWhere fun run _ hrun => ?_
  simp only [Service.expiredAt, Bool.and_eq_true, Option.isNone_iff_eq_none] at hrun
  exact ⟨rfl, rfl, rfl, rfl, Or.inr ⟨hrun.1.1, Option.some_ne_none _, Or.inl rfl⟩⟩

end Effect

/-- **One operation, and what it does to leases.** -/
theorem Op.leaseEffect (op : Op) (db : Db) :
    op.LeaseEffect svc db (op.step svc db) := by
  cases hplain : op.plain with
  | true => exact .wane ((plain_step hplain db).runs.imp fun _ _ h => h.wanes)
  | false =>
      cases op with
      | start env request principal =>
          rcases Call.atMost_then_quiet atMost_startFor_opens (fun _ => Call.quiet_pure _) db with
            h | ⟨run, hopens, hruns⟩
          · exact .of_eq (congrArg Db.runs h)
          · exact .opens principal run (Or.inl ⟨request, rfl⟩) hopens hruns
      | claim env taskID request principal =>
          rcases Call.atMost_then_quiet atMost_claimFor_opens (fun _ => Call.quiet_pure _) db with
            h | ⟨run, hopens, hruns⟩
          · exact .of_eq (congrArg Db.runs h)
          · exact .opens principal run (Or.inr ⟨taskID, request, rfl⟩) hopens hruns
      | create env request principal =>
          rcases Call.atMost_then_quiet atMost_createFor (fun _ => Call.quiet_pure _) db with
            h | ⟨_, _, h⟩
          · exact .of_eq (congrArg Db.runs h)
          · exact leaseEffect_create h
      | fireSchedule env schedule scheduledFor runBy =>
          rcases Call.atMost_then_quiet atMost_fireSchedule (fun _ => Call.quiet_pure _) db with
            h | ⟨_, _, h⟩
          · exact .of_eq (congrArg Db.runs h)
          · exact leaseEffect_create h
      | update env taskID request principal =>
          rcases eq_or_ne ((Op.update env taskID request principal).step svc db) db with hsame | hne
          · exact .of_eq (congrArg Db.runs hsame)
          · obtain ⟨current, hcurrent, hversion, hruns⟩ := (step_update.resolve_left hne).amended
            exact .update taskID request principal current rfl hne hcurrent hversion hruns
      | heartbeat env taskID runID principal =>
          rcases Call.atMost_then_quiet atMost_heartbeatFor (fun _ => Call.quiet_pure _) db with
            h | h
          · exact .of_eq (congrArg Db.runs h)
          · exact .heartbeat taskID runID principal rfl h
      | sweep env => exact leaseEffect_sweep
      | escalate env taskID request principal =>
          rcases Call.atMost_then_quiet atMost_createEscalationFor (fun _ => Call.quiet_pure _) db
            with h | ⟨_, _, -, h⟩
          · exact .of_eq (congrArg Db.runs h)
          · exact .wane (waning_createEscalationTx.run h).runs
      | resolve env taskID escalationID request principal delegatedBy =>
          rcases Call.atMost_then_quiet atMost_resolveEscalation (fun _ => Call.quiet_pure _) db
            with h | ⟨_, _, _, h⟩
          · exact .of_eq (congrArg Db.runs h)
          · obtain ⟨_, _, -, -, -, -, hruns, -⟩ := resolveEscalationTx_ok h
            exact .of_eq hruns
      | updateControl env controlID request principal =>
          rcases Call.atMost_then_quiet atMost_updateRunControlFor (fun _ => Call.quiet_pure _) db
            with h | ⟨_, _, -, -, -, h⟩
          · exact .of_eq (congrArg Db.runs h)
          · exact .wane (waning_updateRunControlTx h).runs
      | reviewAndRequeue env taskID request principal =>
          rcases Call.atMost_then_quiet atMost_reviewAndRequeueFor (fun _ => Call.quiet_pure _) db
            with h | ⟨_, h⟩
          · exact .of_eq (congrArg Db.runs h)
          · refine .wane (reviewAndRequeueTx_of ?_ h).runs
            exact waning_endRuns fun _ row hrow => by
              simp only [Bool.and_eq_true, Option.isNone_iff_eq_none] at hrow
              exact ⟨rfl, rfl, rfl, rfl, Or.inr ⟨hrow.2, Option.some_ne_none _, Or.inl rfl⟩⟩
      | _ => exact Bool.noConfusion hplain

theorem AgentRun.Amended.id
    (h : run.Amended svc now taskID runID status run') : run'.id = run.id := by
  cases hnamed : run.isNamed taskID runID with
  | true =>
      obtain ⟨_, rfl⟩ := h.named hnamed
      rfl
  | false => exact (h.other hnamed).id

/-- The runs keep their names, and at most one comes to them. -/
theorem Op.LeaseEffect.ids {op : Op} (h : op.LeaseEffect svc db db') :
    db'.runs.map AgentRun.id = db.runs.map AgentRun.id ∨
      ∃ run, trimSpace run.id = run.id ∧ (∀ row ∈ db.runs, row.id ≠ run.id) ∧
        db'.runs = db.runs ++ [run] := by
  cases h with
  | wane hruns => exact Or.inl (map_eq_of_forall₂ (fun _ _ h => h.id) hruns)
  | opens principal run call hopens hruns =>
      exact Or.inr ⟨run, hopens.opened.trimmed, hopens.fresh, hruns⟩
  | heartbeat taskID runID principal call hbeats =>
      refine Or.inl ?_
      rw [hbeats.runs, mapWhere, List.map_map]
      refine List.map_congr_left fun run _ => ?_
      simp only [Function.comp_apply]
      split <;> rfl
  | update taskID request principal current call hchanged hfound hversion hruns =>
      exact Or.inl (map_eq_of_forall₂ (fun _ _ h => h.id) hruns)

end Taskboard
