import Taskboard.Store

/-!
# Reading tasks

`getTask` puts a task together from one query for each of its parts; `getFor` and
`getForHidden` show it to a principal. None of them writes, and run alone they return the
parts as they stand (`getForHidden_ok`).
-/

namespace Taskboard

variable {principal : Principal} {task : Task}

variable {db db' : Db} {now : Instant} {svc : Service} {id : String}

/-- One link to another task, as a response shows it. -/
structure TaskLink where
  taskID : String
  title : String := ""
  status : Option TaskStatus := none
  hidden : Bool := false
  deriving DecidableEq

/-- One blocker of a task, as a response shows it. -/
structure DependencyView where
  taskID : String
  blockedByTaskID : String
  blockedByTitle : String := ""
  blockedByStatus : Option TaskStatus := none
  satisfied : Bool
  hidden : Bool := false
  createdBy : String
  createdAt : Instant
  deriving DecidableEq

/-- A task with what belongs to it, as `GetTask` returns it. -/
structure TaskView extends Task where
  items : List ChecklistItem
  runs : List AgentRun
  dependencies : List DependencyView
  requirements : List String
  ready : Bool
  deferred : Bool
  duplicateLink : Option TaskLink
  duplicates : List TaskLink
  deriving DecidableEq

/-- `listItems`. -/
def Db.listItems (db : Db) (taskID : String) : List ChecklistItem :=
  sortBy (fun a b => a.position < b.position) (db.items.filter fun item => item.taskID = taskID)

/-- The runs of a task, in no particular order. -/
def Db.runsOf (db : Db) (taskID : String) : List AgentRun :=
  db.runs.filter fun run => run.taskID = taskID

/-- A run under the callsign of its session, where it has one. -/
def Db.withCallsign (db : Db) (run : AgentRun) : AgentRun :=
  match db.sessions.find? fun session => session.id = run.sessionID with
  | some session => { run with callsign := session.callsign }
  | none => run

/-- `listRuns`: the latest first. -/
def Service.listRuns (svc : Service) (db : Db) (taskID : String) : List AgentRun :=
  sortBy (fun a b => svc.before b.startedAt a.startedAt)
    ((db.runsOf taskID).map db.withCallsign)

/-- `ListTaskDependencies`. -/
def Service.listTaskDependencies (svc : Service) (db : Db) (taskID : String) :
    List DependencyView :=
  let rows := sortBy
    (fun a b => svc.before a.createdAt b.createdAt ||
      (a.createdAt = b.createdAt && a.blockedByTaskID < b.blockedByTaskID))
    (db.dependencies.filter fun row => row.taskID = taskID)
  rows.filterMap fun row =>
    (db.task? row.blockedByTaskID).map fun blocker =>
      { taskID := row.taskID
        blockedByTaskID := row.blockedByTaskID
        blockedByTitle := blocker.title
        blockedByStatus := some blocker.status
        satisfied := blocker.status = .done
        createdBy := row.createdBy
        createdAt := row.createdAt }

/-- `ListTaskRequirements`. -/
def Db.listTaskRequirements (db : Db) (taskID : String) : List String :=
  sortBy (fun a b => a < b)
    ((db.requirements.filter fun row => row.taskID = taskID).map (·.requirement))

/-- The link to the task that `id` was cancelled as a duplicate of. -/
def Db.duplicateLink (db : Db) (id : String) : Except ServiceError (Option TaskLink) := do
  let task ← match db.task? id with
    | some task => .ok task
    | none => .error (.database "sql: no rows in result set")
  match task.duplicateOf with
  | none => pure none
  | some keptID =>
      if keptID = "" then pure none
      else
        let kept := db.task? keptID
        pure (some
          { taskID := keptID
            title := kept.elim "" (·.title)
            status := kept.map (·.status) })

/-- The tasks cancelled as duplicates of `id`. -/
def Service.duplicatesOf (svc : Service) (db : Db) (id : String) : List TaskLink :=
  let rows := sortBy
    (fun a b => svc.before a.createdAt b.createdAt ||
      (a.createdAt = b.createdAt && a.id < b.id))
    (db.tasks.filter fun task => task.duplicateOf = some id)
  rows.map fun task => { taskID := task.id, title := task.title, status := some task.status }

/-- `DeferStart`: when a deferral ends. -/
def Service.deferStart (svc : Service) (value : String) : Option Instant :=
  if value = "" then none
  else (parseDate value).elim (svc.parseTime value) fun date => some (svc.midnight date)

/-- `DeferActive`. -/
def Service.deferActive (svc : Service) (value : String) (now : Instant) : Bool :=
  (svc.deferStart value).any fun start => now < start

/-- `GetTask`: a task and what belongs to it, each read by a query of its own. -/
def getTask (svc : Service) (now : Instant) (id : String) : CallM TaskView := do
  let task ← Call.lookOr fun db => found (db.task? id)
  let items ← Call.look fun db => db.listItems id
  let runs ← Call.look fun db => svc.listRuns db id
  let dependencies ← Call.look fun db => svc.listTaskDependencies db id
  let deferred := svc.deferActive task.deferUntil now
  let requirements ← Call.look fun db => db.listTaskRequirements id
  let duplicateLink ← Call.lookOr fun db => db.duplicateLink id
  let duplicates ← Call.look fun db => svc.duplicatesOf db id
  pure
    { task with
      items, runs, dependencies, requirements, duplicateLink, duplicates, deferred
      ready := !deferred && dependencies.all (·.satisfied) }

/-- `getFor`: a task the principal may see. -/
def getFor (svc : Service) (now : Instant) (id : String) (principal : Principal) :
    CallM TaskView := do
  refuse (!principal.can .taskRead) ErrForbidden
  let task ← getTask svc now (trimSpace id)
  refuse (!canView task.toTask principal) ServiceError.notFound
  pure task

/-- Whether the principal may see the task behind a link. -/
def canSee (principal : Principal) (id : String) : CallM Bool :=
  Call.look fun db => (db.task? id).any fun task => canView task principal

/-- The blockers, those the principal may not see reduced to their identifiers. -/
def hideDependencies (principal : Principal) : List DependencyView → CallM (List DependencyView)
  | [] => pure []
  | dependency :: rest => do
      let ok ← canSee principal dependency.blockedByTaskID
      let rest ← hideDependencies principal rest
      let shown := if ok then dependency else
        { dependency with blockedByTitle := "", blockedByStatus := none, hidden := true }
      pure (shown :: rest)

/-- The duplicates the principal may see. -/
def hideDuplicates (principal : Principal) : List TaskLink → CallM (List TaskLink)
  | [] => pure []
  | link :: rest => do
      let ok ← canSee principal link.taskID
      let rest ← hideDuplicates principal rest
      pure (if ok then link :: rest else rest)

/-- The link to the kept task, without its title where the principal may not see it. -/
def hideKept (principal : Principal) : Option TaskLink → CallM (Option TaskLink)
  | none => pure none
  | some link => do
      let ok ← canSee principal link.taskID
      pure (some (if ok then link else { taskID := link.taskID, hidden := true }))

/-- `hideLinks`. -/
def hideLinks (principal : Principal) (task : TaskView) : CallM TaskView := do
  let dependencies ← hideDependencies principal task.dependencies
  let duplicateLink ← hideKept principal task.duplicateLink
  let duplicates ← hideDuplicates principal task.duplicates
  pure { task with dependencies, duplicateLink, duplicates }

/-- `GetFor`: `getFor` with the links hidden. -/
def getForHidden (svc : Service) (now : Instant) (id : String) (principal : Principal) :
    CallM TaskView := do
  let task ← getFor svc now id principal
  hideLinks principal task

section Quiet

/-- A task that was read is the one that was asked for, in whatever states it was read. -/
theorem returns_getTask : (getTask svc now id).Returns fun view => view.id = id := by
  refine Call.returns_bind (P := fun task => task.id = id) (Call.returns_lookOr fun db task h => ?_)
    fun task htask => ?_
  · simpa using List.find?_some (found_ok_iff.mp h)
  · refine Call.returns_then fun _ => Call.returns_then fun _ => Call.returns_then fun _ => ?_
    refine Call.returns_then fun _ => Call.returns_then fun _ => Call.returns_then fun _ => ?_
    exact Call.returns_pure htask

theorem returns_getForHidden :
    (getForHidden svc now id principal).Returns fun view => view.id = trimSpace id := by
  have hgetFor : (getFor svc now id principal).Returns fun view => view.id = trimSpace id := by
    refine Call.returns_then fun _ => Call.returns_bind returns_getTask fun view hview => ?_
    exact Call.returns_then fun _ => Call.returns_pure hview
  refine Call.returns_bind hgetFor fun view hview => ?_
  refine Call.returns_then fun _ => Call.returns_then fun _ => Call.returns_then fun _ => ?_
  exact Call.returns_pure hview

theorem quiet_getTask : (getTask svc now id).Quiet :=
  Call.quiet_bind (Call.quiet_lookOr _) fun _ =>
    Call.quiet_bind (Call.quiet_look _) fun _ =>
      Call.quiet_bind (Call.quiet_look _) fun _ =>
        Call.quiet_bind (Call.quiet_look _) fun _ =>
          Call.quiet_bind (Call.quiet_look _) fun _ =>
            Call.quiet_bind (Call.quiet_lookOr _) fun _ =>
              Call.quiet_bind (Call.quiet_look _) fun _ => Call.quiet_pure _

theorem quiet_getFor : (getFor svc now id principal).Quiet :=
  Call.quiet_lift_bind fun _ =>
    Call.quiet_bind quiet_getTask fun _ =>
      Call.quiet_lift_bind fun _ => Call.quiet_pure _

theorem quiet_hideDependencies (links : List DependencyView) :
    (hideDependencies principal links).Quiet := by
  induction links with
  | nil => exact Call.quiet_pure _
  | cons link rest ih =>
      exact Call.quiet_bind (Call.quiet_look _) fun _ =>
        Call.quiet_bind ih fun _ => Call.quiet_pure _

theorem quiet_hideDuplicates (links : List TaskLink) :
    (hideDuplicates principal links).Quiet := by
  induction links with
  | nil => exact Call.quiet_pure _
  | cons link rest ih =>
      exact Call.quiet_bind (Call.quiet_look _) fun _ =>
        Call.quiet_bind ih fun _ => Call.quiet_pure _

theorem quiet_hideKept (link : Option TaskLink) : (hideKept principal link).Quiet := by
  cases link with
  | none => exact Call.quiet_pure _
  | some link => exact Call.quiet_bind (Call.quiet_look _) fun _ => Call.quiet_pure _

theorem quiet_hideLinks (task : TaskView) : (hideLinks principal task).Quiet :=
  Call.quiet_bind (quiet_hideDependencies _) fun _ =>
    Call.quiet_bind (quiet_hideKept _) fun _ =>
      Call.quiet_bind (quiet_hideDuplicates _) fun _ => Call.quiet_pure _

theorem quiet_getForHidden : (getForHidden svc now id principal).Quiet :=
  Call.quiet_bind quiet_getFor fun _ => quiet_hideLinks _

end Quiet

/-- A run keeps everything but its callsign when it is listed. -/
theorem withCallsign_eq (db : Db) (run : AgentRun) :
    ∃ callsign, db.withCallsign run = { run with callsign } := by
  unfold Db.withCallsign
  split
  · exact ⟨_, rfl⟩
  · exact ⟨run.callsign, rfl⟩

@[simp] theorem withCallsign_id (db : Db) (run : AgentRun) :
    (db.withCallsign run).id = run.id := by
  obtain ⟨callsign, h⟩ := withCallsign_eq db run
  rw [h]

theorem mem_sortBy {α : Type} {lt : α → α → Bool} {rows : List α} {a : α} :
    a ∈ sortBy lt rows ↔ a ∈ rows := by
  simp [sortBy]

theorem mem_listRuns {taskID : String} {run : AgentRun} :
    run ∈ svc.listRuns db taskID ↔
      ∃ row ∈ db.runs, row.taskID = taskID ∧ run = db.withCallsign row := by
  simp only [Service.listRuns, mem_sortBy, List.mem_map, Db.runsOf, List.mem_filter,
    decide_eq_true_eq]
  constructor
  · rintro ⟨row, ⟨hrow, htask⟩, rfl⟩
    exact ⟨row, hrow, htask, rfl⟩
  · rintro ⟨row, hrow, htask, rfl⟩
    exact ⟨row, ⟨hrow, htask⟩, rfl⟩

/-- The parts of a task that are read for a decision: its row, and its runs. -/
theorem getTask_ok {view : TaskView} (h : (getTask svc now id).exec db = (.ok view, db')):
    db.task? id = some view.toTask ∧ view.runs = svc.listRuns db id ∧
      view.requirements = db.listTaskRequirements id := by
  unfold getTask at h
  simp only [Call.exec_bind, Call.exec_lookOr, Call.exec_look, Call.exec_pure] at h
  cases htask : db.task? id with
  | none => simp [htask, found] at h
  | some task =>
      simp only [htask, found] at h
      cases hlink : db.duplicateLink id with
      | error e => simp [hlink] at h
      | ok link =>
          simp only [hlink, Prod.mk.injEq, Except.ok.injEq] at h
          obtain ⟨rfl, -⟩ := h
          exact ⟨rfl, rfl, rfl⟩

theorem hideLinks_ok {task view : TaskView}
    (h : (hideLinks principal task).exec db = (.ok view, db')) :
    view.toTask = task.toTask ∧ view.runs = task.runs ∧
      view.requirements = task.requirements := by
  unfold hideLinks at h
  obtain ⟨a, db1, -, h⟩ := Call.exec_bind_ok h
  obtain ⟨b, db2, -, h⟩ := Call.exec_bind_ok h
  obtain ⟨c, db3, -, h⟩ := Call.exec_bind_ok h
  simp only [Call.exec_pure, Prod.mk.injEq, Except.ok.injEq] at h
  obtain ⟨rfl, -⟩ := h
  exact ⟨rfl, rfl, rfl⟩

/-- **Reading a task for a principal.** What comes back is the row and the runs as they
stand, and the principal may see it. -/
theorem getForHidden_ok {view : TaskView}
    (h : (getForHidden svc now id principal).exec db = (.ok view, db')) :
    db.task? (trimSpace id) = some view.toTask ∧
      view.runs = svc.listRuns db (trimSpace id) ∧
      view.requirements = db.listTaskRequirements (trimSpace id) ∧
      canView view.toTask principal = true := by
  unfold getForHidden getFor at h
  obtain ⟨task, db1, hget, hhide⟩ := Call.exec_bind_ok h
  obtain ⟨u1, db2, hcan, hrest⟩ := Call.exec_bind_ok hget
  obtain ⟨task1, db3, htask, hlast⟩ := Call.exec_bind_ok hrest
  obtain ⟨u2, db4, hview, hpure⟩ := Call.exec_bind_ok hlast
  simp only [Call.exec_lift, Prod.mk.injEq, refuse_ok_iff] at hcan hview
  simp only [Call.exec_pure, Prod.mk.injEq, Except.ok.injEq] at hpure
  rw [← hcan.2] at htask
  rw [hpure.1] at hview htask
  obtain ⟨hrow, hruns, hreq⟩ := getTask_ok htask
  obtain ⟨ht, hr, hq⟩ := hideLinks_ok hhide
  rw [ht, hr, hq]
  exact ⟨hrow, hruns, hreq, by simpa using hview.1⟩

/-- A task as a reader sees it who reads all of it at once. -/
def Service.view (svc : Service) (db : Db) (now : Instant) (task : Task) : TaskView :=
  let dependencies := svc.listTaskDependencies db task.id
  let deferred := svc.deferActive task.deferUntil now
  { task with
    dependencies, deferred
    items := db.listItems task.id
    runs := svc.listRuns db task.id
    requirements := db.listTaskRequirements task.id
    duplicateLink := (task.duplicateOf.filter (· ≠ "")).map fun keptID =>
      { taskID := keptID
        title := (db.task? keptID).elim "" (·.title)
        status := (db.task? keptID).map (·.status) }
    duplicates := svc.duplicatesOf db task.id
    ready := !deferred && dependencies.all (·.satisfied) }

theorem duplicateLink_ok (svc : Service) (now : Instant) (h : db.task? task.id = some task):
    db.duplicateLink task.id = .ok (svc.view db now task).duplicateLink := by
  cases hlink : task.duplicateOf with
  | none => simp [Db.duplicateLink, h, Service.view, hlink, bind, Except.bind, pure, Except.pure]
  | some keptID =>
      by_cases hempty : keptID = "" <;>
        simp [Db.duplicateLink, h, Service.view, hlink, hempty, bind, Except.bind, pure,
          Except.pure]

/-- **Reading a task** that is there succeeds. -/
theorem exec_getTask (h : db.task? task.id = some task):
    (getTask svc now task.id).exec db = (.ok (svc.view db now task), db) := by
  simp only [getTask, Call.exec_bind, Call.exec_look, Call.exec_lookOr, Call.exec_pure, h, found,
    duplicateLink_ok svc now h]
  rfl

section Hidden

/-- Whether the principal sees the task behind an identifier. -/
def Db.shows (db : Db) (principal : Principal) (id : String) : Bool :=
  (db.task? id).any fun task => canView task principal

theorem exec_hideDependencies (links : List DependencyView) :
    (hideDependencies principal links).exec db =
      (.ok (links.map fun dependency =>
        if db.shows principal dependency.blockedByTaskID then dependency else
          { dependency with blockedByTitle := "", blockedByStatus := none, hidden := true }), db) := by
  induction links with
  | nil => rfl
  | cons link rest ih =>
      simp only [hideDependencies, canSee, Call.exec_bind, Call.exec_look, ih, Call.exec_pure,
        List.map_cons, Db.shows]
      rfl

theorem exec_hideDuplicates (links : List TaskLink) :
    (hideDuplicates principal links).exec db =
      (.ok (links.filter fun link => db.shows principal link.taskID), db) := by
  induction links with
  | nil => rfl
  | cons link rest ih =>
      simp only [hideDuplicates, canSee, Call.exec_bind, Call.exec_look, ih, Call.exec_pure,
        List.filter_cons, Db.shows]

/-- **Reading a task for a principal** who may see it succeeds. -/
theorem exec_getForHidden (svc : Service) (now : Instant)
    (hid : trimSpace id = task.id) (h : db.task? task.id = some task)
    (hview : canView task principal = true) :
    ∃ view, (getForHidden svc now id principal).exec db = (.ok view, db) ∧
      view.toTask = task ∧ view.requirements = db.listTaskRequirements task.id ∧
      ((svc.view db now task).duplicateLink = none → view.duplicateLink = none) := by
  have hread : principal.can .taskRead = true := (Bool.and_eq_true_iff.mp hview).1
  have hrow : (svc.view db now task).toTask = task := rfl
  have hkept (link : Option TaskLink) : ∃ shown, (hideKept principal link).exec db = (.ok shown, db) ∧
      (link = none → shown = none) := by
    cases link with
    | none => exact ⟨none, rfl, fun _ => rfl⟩
    | some link => exact ⟨_, rfl, nofun⟩
  obtain ⟨shown, hshown, hnone⟩ := hkept (svc.view db now task).duplicateLink
  simp only [getForHidden, getFor, hideLinks, Call.exec_bind, Call.exec_lift, refuse, hread, hid,
    exec_getTask h, hrow, hview, exec_hideDependencies, hshown, exec_hideDuplicates, Call.exec_pure,
    Bool.not_true, Bool.false_eq_true, if_false]
  exact ⟨_, rfl, rfl, rfl, hnone⟩

end Hidden

end Taskboard
