import Taskboard.Lib.ReadCommitted
import Taskboard.RunLife

/-!
# One open control of a kind for a run

Whether a run is already asked to pause is counted in the transaction that asks it: the open
controls of this kind are read, and the new one is inserted behind them. Neither statement
touches a row that another such transaction writes. So two of them that are under way together
both count none, and both are committed (`two_open_controls`).

Among the transactions of the calls that write controls, the other ones never open a control:
what they make of rows is decided when the statement is carried out, from rows that are open then
(`Db.Closes`). What remains is that no two transactions are under way that ask the same of one
run (`one_open_control`).
-/

namespace Taskboard

variable {db' : Db} {event : Event} {controlID note : String} {current : Task} {env : Env}
  {svc : Service}

variable {run : AgentRun} {request : CreateRunControlRequest} {db : Db} {principal : Principal}
  {kind : RunControlKind} {item : RunControlRequest} {taskID : String}

/-- What a control asks for, and of which run. -/
structure ControlAim where
  taskID : String
  runID : String
  kind : RunControlKind
  deriving DecidableEq

/-- The open controls with this aim. -/
def Db.openControls (db : Db) (aim : ControlAim) : List RunControlRequest :=
  db.controls.filter fun row => row.openOf aim.taskID aim.runID aim.kind

def RunControlRequest.aim (item : RunControlRequest) : ControlAim where
  taskID := item.taskID
  runID := item.targetRunID
  kind := item.kind

/-- The calls that write controls. -/
inductive ControlCall where
  | create (env : Env) (taskID : String) (request : CreateRunControlRequest)
      (principal : Principal)
  | update (env : Env) (controlID : String) (request : UpdateRunControlRequest)
      (principal : Principal)
  | expire (now : Instant) (newID : Nat → String)
  | review (env : Env) (taskID : String) (request : ReviewRequeueRequest) (principal : Principal)

/-- The transaction is one that the call may make. -/
def ControlCall.Makes (svc : Service) (t : TxM Unit) : ControlCall → Prop
  | .create env taskID request principal =>
      (createRunControlFor svc env taskID request principal).Makes t
  | .update env controlID request principal =>
      (updateRunControlFor svc env controlID request principal).Makes t
  | .expire now newID => (expireRunControls svc now newID).Makes t
  | .review env taskID request principal =>
      (reviewAndRequeueFor svc env taskID request principal).Makes t

/-- What the control is to ask for that the call creates. -/
def ControlCall.aim : ControlCall → Option ControlAim
  | .create _ taskID request _ =>
      (RunControlKind.ofString? request.kind).map fun kind =>
        { taskID := trimSpace taskID, runID := trimSpace request.targetRunID, kind }
  | _ => none

/-- A transaction of one of the calls. -/
structure ControlTx (svc : Service) where
  call : ControlCall
  tx : TxM Unit
  made : call.Makes svc tx

section Closes

/-- No control is opened. -/
def Db.Closes (db db' : Db) : Prop :=
  ∀ aim, (db'.openControls aim).length ≤ (db.openControls aim).length

instance : IsPreorder Db Db.Closes where
  refl _ _ := Nat.le_refl _
  trans _ _ _ h h' aim := Nat.le_trans (h' aim) (h aim)

theorem Db.Closes.of_controls (h : db'.controls = db.controls) : db.Closes db' := by
  intro aim
  rw [Db.openControls, Db.openControls, h]

variable {now : Instant}

theorem issues_oneRow {E : Db → Db → Prop} {statement : TxM Nat} (h : statement.Issues E) :
    (oneRow statement).Issues E :=
  Tx.issues_bind h fun _ => Tx.issues_lift _

theorem issues_insertEvent : (insertEvent event).Issues Db.Closes :=
  Tx.issues_insert fun _ => .of_controls rfl

theorem issues_bumpTask {expected : Int} {also : Task → Bool} {f : Task → Task}
    {hf : ∀ task, (f task).id = task.id} :
    (bumpTask taskID expected also f hf).Issues Db.Closes :=
  Tx.issues_updateWhere fun _ _ _ => .of_controls rfl

theorem issues_updateRuns {p : Db → AgentRun → Bool} {f : AgentRun → AgentRun}
    {hf : ∀ run, runTable.key (f run) = runTable.key run} :
    (runTable.updateWhere p f hf : TxM Nat).Issues Db.Closes :=
  Tx.issues_updateWhere fun _ _ _ => .of_controls rfl

/-- An update of controls that takes open ones only, and leaves alone what they aim at. -/
theorem issues_updateControls {p : Db → RunControlRequest → Bool}
    {f : RunControlRequest → RunControlRequest}
    {hf : ∀ row, controlTable.key (f row) = controlTable.key row}
    (h : ∀ db row, p db row = true → ∀ taskID runID kind,
      (f row).openOf taskID runID kind = true → row.openOf taskID runID kind = true) :
    (controlTable.updateWhere p f hf : TxM Nat).Issues Db.Closes := by
  apply Tx.issues_updateWhere
  intro db hit db' aim
  -- Every open row afterwards was an open row with the same aim.
  have hrows : List.Forall₂
      (fun row row' : RunControlRequest => row'.openOf aim.taskID aim.runID aim.kind = true →
        row.openOf aim.taskID aim.runID aim.kind = true)
      db'.controls (mapWhere (fun row => p db row && hit row) f db'.controls) := by
    rw [mapWhere, List.forall₂_map_right_iff, List.forall₂_same]
    intro row _
    split
    · rename_i hp
      exact h db row (Bool.and_eq_true_iff.mp hp).1 _ _ _
    · exact id
  exact length_filter_le_of_forall₂ hrows fun _ _ hopen => hopen

theorem issues_expireControlTx {eventID : String} :
    (expireControlTx svc now eventID item).Issues Db.Closes := by
  apply Tx.issues_bind
  · apply issues_updateControls
    intro db row _ taskID runID kind hopen
    simp [RunControlRequest.openOf, RunControlStatus.isOpen] at hopen
  · exact fun _ => Tx.issues_ite issues_insertEvent (Tx.issues_pure _)

theorem issues_completeRunControl {task : Task} :
    (completeRunControl now task item note).Issues Db.Closes := by
  apply Tx.issues_bind (Tx.issues_selectOr _)
  intro run
  have hrun {also : AgentRun → Bool} {status : TaskStatus} :
      (endActiveRun item.targetRunID also status now).Issues Db.Closes :=
    issues_updateRuns
  cases item.kind with
  | pause =>
      apply Tx.issues_bind (Tx.issues_lift _)
      intro _
      exact Tx.issues_bind (issues_oneRow hrun) fun _ => issues_oneRow issues_bumpTask
  | cancel =>
      apply Tx.issues_bind (Tx.issues_lift _)
      intro _
      exact Tx.issues_bind (issues_oneRow hrun) fun _ => issues_oneRow issues_bumpTask
  | resume => exact Tx.issues_bind (Tx.issues_lift _) fun _ => issues_oneRow issues_bumpTask
  | retry => exact Tx.issues_bind (Tx.issues_lift _) fun _ => issues_oneRow issues_bumpTask

/-- A step of a control changes its row only from the status that the step was allowed for, which
is an open one. -/
theorem issues_updateRunControlTx {request : UpdateRunControlRequest} :
    (updateRunControlTx env controlID request principal).Issues Db.Closes := by
  apply Tx.issues_bind (Tx.issues_selectOr _)
  intro item
  apply Tx.issues_bind (Tx.issues_lift _)
  intro _
  dsimp only
  split
  · rename_i status _
    apply Tx.issues_lift_bind
    intro _ hvalid
    apply Tx.issues_bind (Tx.issues_lift _)
    intro _
    apply Tx.issues_bind (Tx.issues_lift _)
    intro _
    apply Tx.issues_bind (Tx.issues_selectOr _)
    intro current
    apply Tx.issues_bind
    · exact Tx.issues_ite (Tx.issues_bind (Tx.issues_lift _) fun _ => issues_completeRunControl)
        (Tx.issues_pure _)
    intro _
    apply Tx.issues_bind
    · apply issues_oneRow
      apply issues_updateControls
      intro db row hrow taskID runID kind hopen
      simp only [Bool.and_eq_true, decide_eq_true_eq] at hrow
      have hfrom : row.status.isOpen = true := by
        rw [refuse_ok_iff] at hvalid
        rw [hrow.2]
        generalize item.status = source at hvalid
        revert hvalid
        cases source <;> cases status <;> decide
      have hmoved : (row.moved status request.outcomeNote env.now).taskID = row.taskID ∧
          (row.moved status request.outcomeNote env.now).targetRunID = row.targetRunID ∧
          (row.moved status request.outcomeNote env.now).kind = row.kind := by
        cases status <;> exact ⟨rfl, rfl, rfl⟩
      simp only [RunControlRequest.openOf, Bool.and_eq_true, hmoved.1, hmoved.2.1, hmoved.2.2]
        at hopen ⊢
      exact ⟨hopen.1, hfrom⟩
    · intro _
      exact Tx.issues_bind issues_insertEvent fun _ => Tx.issues_pure _
  · exact Tx.issues_fail _

theorem issues_recoverRun :
    (recoverRun svc now current run).Issues Db.Closes := by
  unfold recoverRun
  apply Tx.issues_ite
  · exact Tx.issues_bind (Tx.issues_lift _) fun _ => Tx.issues_pure _
  · apply Tx.issues_bind (Tx.issues_select _)
    intro _
    apply Tx.issues_bind (Tx.issues_lift _)
    intro _
    apply Tx.issues_bind
    · exact Tx.issues_ite (issues_oneRow issues_updateRuns) (Tx.issues_pure _)
    · exact fun _ => Tx.issues_pure _

/-- The control of a review is completed at once. -/
theorem issues_completeReviewControl:
    (completeReviewControl env current run kind note principal).Issues Db.Closes := by
  apply Tx.issues_bind (Tx.issues_select _)
  intro existing
  cases existing with
  | some item =>
      apply Tx.issues_bind
      · apply issues_oneRow
        apply issues_updateControls
        intro db row _ taskID runID kind hopen
        simp [RunControlRequest.openOf, RunControlStatus.isOpen] at hopen
      · exact fun _ => Tx.issues_pure _
  | none =>
      apply Tx.issues_bind
      · apply Tx.issues_insert
        intro db aim
        simp [Db.openControls, controlTable, RunControlRequest.openOf, RunControlStatus.isOpen]
      · exact fun _ => Tx.issues_pure _

theorem issues_reviewAndRequeueTx {request : ReviewRequeueRequest} :
    (reviewAndRequeueTx svc env taskID request principal).Issues Db.Closes := by
  apply Tx.issues_bind (Tx.issues_selectOr _)
  intro current
  apply Tx.issues_bind (Tx.issues_lift _)
  intro _
  apply Tx.issues_bind (Tx.issues_lift _)
  intro _
  apply Tx.issues_bind (Tx.issues_lift _)
  intro _
  apply Tx.issues_bind (Tx.issues_selectOr _)
  intro run
  apply Tx.issues_bind issues_recoverRun
  intro kind
  apply Tx.issues_bind (issues_oneRow issues_bumpTask)
  intro _
  apply Tx.issues_bind issues_completeReviewControl
  intro controlID
  exact Tx.issues_bind issues_insertEvent fun _ => Tx.issues_pure _

end Closes

section Made

variable {t : TxM Unit}

theorem makes_updateRunControlFor {request : UpdateRunControlRequest}
    (h : (updateRunControlFor svc env controlID request principal).Makes t) :
    ∃ controlID request, t = (updateRunControlTx env controlID request principal).void := by
  obtain ⟨_, -, h⟩ := Call.makes_lift_bind h
  obtain ⟨_, -, h⟩ := Call.makes_lift_bind h
  obtain ⟨_, -, h⟩ := Call.makes_lift_bind h
  obtain ⟨_, -, h⟩ := Call.makes_lift_bind h
  have hproceed := makes_keyed (fun _ => Call.quiet_lookOr _) h
  rcases Call.makes_bind Call.returns_true hproceed with htx | ⟨_, -, hlater⟩
  · exact ⟨_, _, Call.makes_tx htx⟩
  · exact absurd hlater (Call.quiet_lookOr _).not_makes

theorem makes_expireControls {now : Instant} {newID : Nat → String} {index : Nat}
    {items : List RunControlRequest} (h : (expireControls svc now newID index items).Makes t) :
    ∃ eventID item, t = (expireControlTx svc now eventID item).void := by
  induction items generalizing index with
  | nil => exact absurd h id
  | cons item rest ih =>
      rcases Call.makes_bind Call.returns_true h with hfirst | ⟨_, -, hrest⟩
      · split at hfirst
        · exact absurd hfirst id
        · exact ⟨_, _, Call.makes_tx hfirst⟩
      · exact ih hrest

theorem makes_reviewAndRequeueFor {request : ReviewRequeueRequest}
    (h : (reviewAndRequeueFor svc env taskID request principal).Makes t) :
    ∃ taskID request, t = (reviewAndRequeueTx svc env taskID request principal).void := by
  obtain ⟨_, -, h⟩ := Call.makes_lift_bind h
  obtain ⟨_, -, h⟩ := Call.makes_lift_bind h
  obtain ⟨_, -, h⟩ := Call.makes_lift_bind h
  obtain ⟨_, -, h⟩ := Call.makes_quiet_bind quiet_getForHidden Call.returns_true h
  rcases Call.makes_bind Call.returns_true h with htx | ⟨_, -, hlater⟩
  · exact ⟨_, _, Call.makes_tx htx⟩
  · refine absurd hlater (Call.Quiet.not_makes ?_)
    exact Call.quiet_bind quiet_getTask fun _ =>
      Call.quiet_bind (Call.quiet_lookOr _) fun _ => Call.quiet_pure _

theorem validateControl_kind (h : validateControl taskID request = .ok kind):
    RunControlKind.ofString? request.kind = some kind := by
  obtain ⟨_, -, h⟩ := Except.bind_ok_iff.mp h
  split at h
  · rename_i named hnamed
    obtain ⟨_, -, h⟩ := Except.bind_ok_iff.mp h
    rw [hnamed]
    cases h
    rfl
  · cases h

/-- The transaction that creates a control does so for the run that the request names, with the
kind that it names. -/
theorem makes_createRunControlFor
    (h : (createRunControlFor svc env taskID request principal).Makes t) :
    ∃ kind run, RunControlKind.ofString? request.kind = some kind ∧
      run.id = trimSpace request.targetRunID ∧
      t = (createRunControlTx env (trimSpace taskID) kind run request.clean principal).void := by
  have hmay : (mayCreateControl svc env (trimSpace taskID) request.clean principal).Returns
      fun target => RunControlKind.ofString? request.clean.kind = some target.1 ∧
        target.2.id = request.clean.targetRunID := by
    apply Call.returns_then
    intro _
    apply Call.returns_lift_bind
    intro kind hkind
    apply Call.returns_then
    intro task
    apply Call.returns_lift_bind
    intro run hrun
    exact Call.returns_pure ⟨validateControl_kind hkind, (checkControl_ok hrun).2⟩
  obtain ⟨⟨kind, run⟩, ⟨hkind, hrun⟩, h⟩ := Call.makes_quiet_bind quiet_mayCreateControl hmay h
  have hproceed := makes_keyed (fun _ => Call.quiet_lookOr _) h
  have hclean : request.clean.kind = request.kind := rfl
  rw [hclean] at hkind
  exact ⟨kind, run, hkind, hrun, Call.makes_tx hproceed⟩

end Made

section OneOpen

/-- What the transaction relies on: while the control that it creates is not there, no other of
its kind comes. -/
def ControlTx.Relies (op : ControlTx svc) (_ : List RowKey)
    (p p' : Past Db (ControlTx svc × Unit)) : Prop :=
  ∀ aim, op.call.aim = some aim → p.committed.openControls aim = [] →
    p'.committed.openControls aim = []

instance (op : ControlTx svc) (keys : List RowKey) : IsPreorder _ (op.Relies keys) where
  refl _ _ _ h := h
  trans _ _ _ h h' aim haim hnone := h' aim haim (h aim haim hnone)

/-- What the transaction has come to: one that creates a control adds it where there is none, any
other opens none. -/
def ControlTx.Comes (op : ControlTx svc) (log : List (Write Db RowKey)) (_ : Unit)
    (p : Past Db (ControlTx svc × Unit)) : Prop :=
  match op.call.aim with
  | some aim => p.committed.openControls aim = [] ∧
      ∃ item : RunControlRequest, item.aim = aim ∧
        ∀ db, (replay log db).controls = db.controls ++ [item]
  | none => ∀ db, Db.Closes db (replay log db)

def AtMostOneOpen (db : Db) : Prop :=
  ∀ aim, (db.openControls aim).length ≤ 1

theorem controls_replay_created :
    (replay ([] ++ [controlTable.add item] ++ [eventTable.add event]) db).controls =
      db.controls ++ [item] :=
  rfl

theorem keeps_createRunControlTx {I : Past Db (ControlTx svc × Unit) → Prop} {op : ControlTx svc}
    {p : Past Db (ControlTx svc × Unit)}
    (haim : op.call.aim = some ⟨taskID, run.id, kind⟩) (hrun : run.id = request.targetRunID) :
    (createRunControlTx env taskID kind run request principal).Keeps I op.Relies
      (fun log _ p => op.Comes log () p) [] p := by
  apply Tx.keeps_selectOr_bind
  intro p1 current _ _
  apply Tx.keeps_lift_bind
  intro _ _
  apply Tx.keeps_select_bind
  intro p2 _
  apply Tx.keeps_lift_bind
  intro _ hcount
  have hnone : p2.committed.openControls ⟨taskID, run.id, kind⟩ = [] := by
    rw [refuse_ok_iff, Nat.not_lt, Nat.le_zero, List.length_eq_zero_iff] at hcount
    rw [Db.openControls, hrun]
    exact hcount
  apply Tx.keeps_insert_bind
  intro p3 hp3 _ _
  apply Tx.keeps_insert_bind
  intro p4 hp4 _ _
  apply Tx.keeps_pure
  intro p5 hp5
  have hnone5 := hp5.rely _ haim (hp4.rely _ haim (hp3.rely _ haim hnone))
  rw [ControlTx.Comes, haim]
  refine ⟨hnone5, _, ?_, fun _ => controls_replay_created⟩
  rfl

theorem keeps_controlTx (op : ControlTx svc) (p : Past Db (ControlTx svc × Unit))
    (hinv : AtMostOneOpen p.committed) :
    op.tx.Keeps (fun p => AtMostOneOpen p.committed) op.Relies op.Comes [] p := by
  have hother {α : Type} {t : TxM α} (hnone : op.call.aim = none) (ht : t.Issues Db.Closes)
      (hop : op.tx = t.void) :
      op.tx.Keeps (fun p => AtMostOneOpen p.committed) op.Relies op.Comes [] p := by
    rw [hop]
    apply Tx.keeps_void _ hinv
    apply Tx.keeps_issues ht
    · exact fun db => refl_of Db.Closes db
    · intro log a p' hlog
      rw [ControlTx.Comes, hnone]
      exact hlog
  obtain ⟨call, t, hmade⟩ := op
  cases call with
  | create env taskID request principal =>
      obtain ⟨kind, run, hkind, hrun, rfl⟩ := makes_createRunControlFor hmade
      apply Tx.keeps_void _ hinv
      apply keeps_createRunControlTx _ hrun
      simp [ControlCall.aim, hkind, hrun]
  | update env controlID request principal =>
      obtain ⟨controlID, request, rfl⟩ := makes_updateRunControlFor hmade
      exact hother rfl issues_updateRunControlTx rfl
  | expire now newID =>
      obtain ⟨items, -, hloop⟩ := Call.makes_quiet_bind (Call.quiet_look _) Call.returns_true hmade
      obtain ⟨eventID, item, rfl⟩ := makes_expireControls hloop
      exact hother rfl issues_expireControlTx rfl
  | review env taskID request principal =>
      obtain ⟨taskID, request, rfl⟩ := makes_reviewAndRequeueFor hmade
      exact hother rfl issues_reviewAndRequeueTx rfl

/-- When a transaction is committed that creates a control, no other is under way that creates
one with the same aim. -/
def CreatesAlone (server server' : Server Db RowKey ServiceError Unit (ControlTx svc)) : Prop :=
  ∀ x u others, server.Commits server' x u others → ∀ aim, x.op.call.aim = some aim →
    ∀ y ∈ others, y.op.call.aim ≠ some aim

/-- A further control matters only to those with its aim. -/
theorem openControls_append {aim : ControlAim}
    (h : db'.controls = db.controls ++ [item]) (hother : item.aim ≠ aim) :
    db'.openControls aim = db.openControls aim := by
  have hclosed : item.openOf aim.taskID aim.runID aim.kind = false := by
    cases hopen : item.openOf aim.taskID aim.runID aim.kind with
    | false => rfl
    | true =>
        simp only [RunControlRequest.openOf, Bool.and_eq_true, decide_eq_true_eq] at hopen
        obtain ⟨⟨⟨htask, hrun⟩, hkind⟩, -⟩ := hopen
        refine absurd ?_ hother
        rw [RunControlRequest.aim, htask, hrun, hkind]
  rw [Db.openControls, h, List.filter_append, List.filter_cons_of_neg (by simp [hclosed]),
    List.filter_nil, List.append_nil, Db.openControls]

variable {x y : ControlTx svc} {log : List (Write Db RowKey)} {u : Unit}
  {p p' : Past Db (ControlTx svc × Unit)}

/-- What was committed leaves one open control at most. -/
theorem ControlTx.Comes.atMostOne (h : x.Comes log u p) (hinv : AtMostOneOpen p.committed) :
    AtMostOneOpen (replay log p.committed) := by
  intro aim'
  unfold ControlTx.Comes at h
  split at h
  · rename_i aim _
    obtain ⟨hnone, item, rfl, hlog⟩ := h
    by_cases haim : item.aim = aim'
    · subst haim
      have hlength : ((replay log p.committed).openControls item.aim).length =
          ((p.committed.openControls item.aim) ++
            [item].filter fun row => row.openOf item.aim.taskID item.aim.runID item.aim.kind).length := by
        rw [Db.openControls, hlog, List.filter_append, Db.openControls]
      rw [hlength, hnone, List.nil_append]
      exact List.length_filter_le _ _
    · rw [openControls_append (hlog _) haim]
      exact hinv aim'
  · exact Nat.le_trans (h p.committed aim') (hinv aim')

/-- And it is what a transaction relies on that creates a control with another aim. -/
theorem ControlTx.Comes.relies (h : x.Comes log u p)
    (hother : ∀ aim, x.call.aim = some aim → y.call.aim ≠ some aim)
    (hcommit : p'.committed = replay log p.committed) (keys : List RowKey) :
    y.Relies keys p p' := by
  intro aim' haim' hnone
  rw [hcommit]
  unfold ControlTx.Comes at h
  split at h
  · rename_i aim haim
    obtain ⟨-, item, rfl, hlog⟩ := h
    rw [openControls_append (hlog _), hnone]
    rintro rfl
    exact hother _ haim haim'
  · have hless := h p.committed aim'
    rw [hnone] at hless
    exact List.length_eq_zero_iff.mp (Nat.le_zero.mp hless)

/-- **One open control.** -/
theorem one_open_control {start : Db} {server : Server Db RowKey ServiceError Unit (ControlTx svc)}
    (hstart : AtMostOneOpen start) (h : Runs ControlTx.tx CreatesAlone start server) :
    AtMostOneOpen server.past.committed := by
  have hkept : Kept (fun p => AtMostOneOpen p.committed) ControlTx.Relies ControlTx.Comes server :=
    h.keeps hstart keeps_controlTx fun _ _ _ _ _ hok hcommits hinv hcomes =>
      ⟨hcomes.atMostOne hinv, fun y hy _ => hcomes.relies (fun aim haim =>
        hok _ _ _ hcommits aim haim y hy) rfl _⟩
  exact hkept.inv

/-- A database with a task in work, and no controls. -/
def startedDb : Db :=
  Op.run .ascii [startOp] {}

/-- Someone asks the run to pause. -/
def pauseCall (call : Nat) : ControlCall :=
  .create (.numbered call 100) "0100"
    { targetRunID := "0101", kind := "pause", expectedVersion := 1 } (humanPrincipal "ann" .owner)

/-- The first transaction of a call that sees this database. -/
def ControlCall.firstTx (svc : Service) (db : Db) : ControlCall → Option (TxM Unit)
  | .create env taskID request principal =>
      (createRunControlFor svc env taskID request principal).firstTx db
  | .update env controlID request principal =>
      (updateRunControlFor svc env controlID request principal).firstTx db
  | .expire now newID => (expireRunControls svc now newID).firstTx db
  | .review env taskID request principal =>
      (reviewAndRequeueFor svc env taskID request principal).firstTx db

theorem ControlCall.makes_firstTx {call : ControlCall} {t : TxM Unit}
    (h : call.firstTx svc db = some t) : call.Makes svc t := by
  cases call <;> exact Call.makes_firstTx h

/-- The transaction that the call comes to where its reads see this database. -/
def ControlCall.onSeeing (call : ControlCall) (db : Db) (h : (call.firstTx svc db).isSome) :
    ControlTx svc where
  call := call
  tx := (call.firstTx svc db).get h
  made := ControlCall.makes_firstTx (Option.some_get h).symm

def firstPause : ControlTx .ascii :=
  (pauseCall 2).onSeeing startedDb (by decide +kernel)

def secondPause : ControlTx .ascii :=
  (pauseCall 3).onSeeing startedDb (by decide +kernel)

theorem atMostOneOpen_startedDb : AtMostOneOpen startedDb := by
  have hnone : startedDb.controls = [] := by decide +kernel
  intro aim
  simp [Db.openControls, hnone]

theorem createsAlone_of_single {server server' : Server Db RowKey ServiceError Unit (ControlTx svc)}
    (h : server.sessions.length ≤ 1) : CreatesAlone server server' := by
  rintro x u others ⟨before, after, -, hserver, rfl, -⟩ aim haim y hy
  rw [hserver] at h
  simp only [List.length_append, List.length_cons] at h
  have hlength := List.length_pos_of_mem hy
  rw [List.length_append] at hlength
  omega

/-- One request after the other: the second is refused. -/
theorem pausing_again_is_refused :
    ∃ server : Server Db RowKey ServiceError Unit (ControlTx .ascii),
      server.past.committed.controls.length = 1 ∧ server.sessions = [] ∧
        AtMostOneOpen server.past.committed := by
  have hrun : ∃ server, Runs ControlTx.tx CreatesAlone startedDb server ∧
      decide (server.past.committed.controls.length = 1 ∧ server.sessions.length = 0) = true :=
    exists_run (fun server _ => server.sessions.length ≤ 1)
      [.start firstPause, .next 0, .next 0, .next 0, .next 0, .next 0,
        .start secondPause, .next 0, .next 0, .next 0]
      (fun _ _ h => createsAlone_of_single (of_decide_eq_true h)) (by decide +kernel)
  obtain ⟨server, hruns, hstate⟩ := hrun
  obtain ⟨hcontrols, hsessions⟩ := of_decide_eq_true hstate
  exact ⟨server, hcontrols, List.length_eq_zero_iff.mp hsessions,
    one_open_control atMostOneOpen_startedDb hruns⟩

/-- Two people ask a run to pause, and each transaction counts before the other is committed. -/
theorem two_open_controls :
    AtMostOneOpen startedDb ∧
      ∃ server : Server Db RowKey ServiceError Unit (ControlTx .ascii),
        Runs ControlTx.tx (fun _ _ => True) startedDb server ∧
          ¬ AtMostOneOpen server.past.committed := by
  refine ⟨atMostOneOpen_startedDb, ?_⟩
  have hrun : ∃ server, Runs ControlTx.tx (fun _ _ => True) startedDb server ∧
      decide ((server.past.committed.openControls ⟨"0100", "0101", .pause⟩).length = 2) = true :=
    exists_run (fun _ _ => true)
      [.start firstPause, .start secondPause, .next 0, .next 0, .next 1, .next 1,
        .next 0, .next 0, .next 0, .next 0, .next 0, .next 0]
      (fun _ _ _ => trivial) (by decide +kernel)
  obtain ⟨server, hruns, htwo⟩ := hrun
  refine ⟨server, hruns, fun hone => ?_⟩
  have := hone ⟨"0100", "0101", .pause⟩
  rw [of_decide_eq_true htwo] at this
  omega

end OneOpen

end Taskboard
