import Taskboard.Discussions

/-!
# Smaller edits of a task

Reordering a task, renaming its run, and changing its dependencies and requirements. Each
reads the task, compares the version it was sent and moves the version with a conditional
update. Three of them do not look at how many rows that update changed. At the end, what
workers advertise of themselves, which requirements are matched against.
-/

namespace Taskboard

variable {db db' : Db} {ev : Event → Prop} {actor : String}

variable {lg : List Ledger}

/-- What every edit of this file checks first: a person who may change the task. -/
def checkEditor (svc : Service) (env : Env) (taskID : String) (principal : Principal) :
    CallM Unit := do
  let task ← getForHidden svc env.checked taskID principal
  refuse (!canMutate task.toTask principal) ErrForbidden

/-- The open task next to `current` in its section, in the direction it moves. -/
def Service.neighbor (svc : Service) (db : Db) (current : Task) (down : Bool) : Option Task :=
  let others := db.tasks.filter fun task =>
    task.section = current.section && task.id ≠ current.id && !task.status.terminal &&
      if down then current.sortOrder < task.sortOrder else task.sortOrder < current.sortOrder
  let ahead (a b : Task) := a.sortOrder < b.sortOrder ||
    (a.sortOrder = b.sortOrder && svc.before a.updatedAt b.updatedAt)
  (sortBy (fun a b => if down then ahead a b else ahead b a) others).head?

/-- The transaction of `Move`; the result is the task where it has no neighbour. -/
def moveTx (svc : Service) (env : Env) (taskID direction : String) (expected : Int)
    (actor : String) : TxM (Option Task) := do
  let current ← loadTask taskID
  refuse (current.version ≠ expected) (versionConflict current expected false)
  refuse current.status.terminal (ErrValidation "terminal tasks cannot be reordered")
  let neighbor ← Tx.select fun db => svc.neighbor db current (direction = "down")
  match neighbor with
  | none => pure (some current)
  | some neighbor => do
      let _ ← taskTable.updateWhere (fun _ task => task.id = neighbor.id) fun task =>
        { task with sortOrder := current.sortOrder, updatedAt := env.now }
      oneRow (bumpTask taskID expected (fun _ => true) fun task =>
        { task with sortOrder := neighbor.sortOrder, updatedAt := env.now })
      insertEvent
        { id := env.newID 0
          taskID := taskID
          kind := "task.moved"
          actor := defaultActor actor current.owner
          message := direction
          payload := [("version", .number (expected + 1))]
          createdAt := env.now }
      insertEvent
        { id := env.newID 1
          taskID := neighbor.id
          kind := "task.moved"
          actor := defaultActor actor current.owner
          message := if direction = "down" then "up" else "down"
          createdAt := env.now }
      pure none

/-- `moveFor` and `Move`. Without a neighbour the task is returned as it was read. -/
def moveFor (svc : Service) (env : Env) (taskID : String) (request : MoveRequest)
    (principal : Principal) : CallM Task := do
  refuse (principal.agent || !principal.can .taskWrite) ErrForbidden
  checkEditor svc env taskID principal
  let taskID := trimSpace taskID
  let direction := svc.unicode.lower (trimSpace request.direction)
  refuse (taskID = "" ∨ request.expectedVersion < 1 ∨ (direction ≠ "up" ∧ direction ≠ "down"))
    (ErrValidation "task_id, expected_version, and direction up or down are required")
  let unmoved ← Call.tx
    (moveTx svc env taskID direction request.expectedVersion principal.id)
  match unmoved with
  | some task => pure task
  | none => do
      let task ← getTask svc env.now taskID
      pure task.toTask

/-- `strings.Fields`: the words between spaces. -/
def fields (value : String) : List (List Char) :=
  (value.toList.splitOnP isSpace).filter fun word => word ≠ []

/-- `Normalize` of `agentidentity`. -/
def Service.normalizeCallsign (svc : Service) (value : String) : Option String :=
  let value := [' '].intercalate (fields value)
  if value = [] ∨ 32 < value.length then none
  else if value.all fun c =>
      svc.unicode.isLetter c || svc.unicode.isDigit c || c = ' ' || c = '-' || c = '\x27' then
    some (String.ofList value)
  else none

/-- The transaction of `renameRun`. -/
def renameRunTx (svc : Service) (env : Env) (taskID runID callsign : String) (expected : Int)
    (actor : String) : TxM Unit := do
  let current ← loadTask taskID
  refuse (current.version ≠ expected) (versionConflict current expected false)
  let (previous, sessionID) ← Tx.selectOr fun db =>
    match db.runs.find? fun run => run.id = runID ∧ run.taskID = taskID with
    | some run => .ok ((db.withCallsign run).callsign, run.sessionID)
    | none => .error ServiceError.notFound
  (if sessionID ≠ "" then do
    -- The unique index on callsigns refuses the statement.
    let taken ← Tx.select fun db => db.sessions.any fun session =>
      session.id ≠ sessionID && svc.unicode.lower session.callsign = svc.unicode.lower callsign
    refuse taken
      (ServiceError.conflict "callsign is already used by another agent session")
    let _ ← sessionTable.updateWhere (fun _ session => session.id = sessionID)
      fun session => { session with callsign, updatedAt := env.now }
    pure ()
  else do
    let _ ← runTable.updateWhere (fun _ run => run.id = runID && run.taskID = taskID)
      fun run => { run with callsign }
    pure ())
  oneRow (bumpTask taskID expected (fun _ => true) fun task =>
    { task with updatedAt := env.now })
  insertEvent
    { id := env.newID 0
      taskID := taskID
      runID := runID
      kind := "run.callsign_updated"
      actor := actor
      message := "Agent callsign renamed"
      payload := [("previous_callsign", .text previous), ("callsign", .text callsign),
        ("session_id", .text sessionID), ("version", .number (expected + 1)),
        ("reload", .flag true)]
      createdAt := env.now }

/-- `renameRunFor` and `renameRun`. -/
def renameRunFor (svc : Service) (env : Env) (taskID runID : String)
    (request : RenameRunRequest) (principal : Principal) : CallM TaskView := do
  refuse (principal.agent || !principal.can .taskWrite) ErrForbidden
  checkEditor svc env taskID principal
  let taskID := trimSpace taskID
  let runID := trimSpace runID
  let required := ErrValidation
    "task_id, run_id, expected_version, and a 1-32 character callsign are required"
  refuse (taskID = "" ∨ runID = "" ∨ request.expectedVersion < 1) required
  let some callsign := svc.normalizeCallsign request.callsign | Call.fail required
  Call.tx (renameRunTx svc env taskID runID callsign request.expectedVersion principal.id)
  getTask svc env.now taskID

/-- The tasks that `ids` wait for, directly or through others; `fuel` bounds the rounds. -/
def Db.chain (db : Db) : Nat → List String → List String
  | 0, ids => ids
  | fuel + 1, ids =>
      let next := db.dependencies.filter fun row =>
        row.taskID ∈ ids && row.blockedByTaskID ∉ ids
      db.chain fuel (ids ++ (next.map (·.blockedByTaskID)).dedup)

/-- Whether `blockedBy` already waits for `taskID`. -/
def Db.wouldCycle (db : Db) (taskID blockedBy : String) : Bool :=
  let direct := db.dependencies.filter fun row => row.taskID = blockedBy
  taskID ∈ db.chain db.dependencies.length (direct.map (·.blockedByTaskID))

/-- The transaction of `addTaskDependencyFor`. -/
def addDependencyTx (env : Env) (taskID blockedBy : String) (expected : Int)
    (principal : Principal) : TxM Unit := do
  let current ← loadTask taskID
  refuse (current.version ≠ expected) ErrConflict
  let cycle ← Tx.select fun db => db.wouldCycle taskID blockedBy
  refuse cycle (ErrValidation "dependency would create a cycle")
  let count ← dependencyTable.insertUnless
    { taskID := taskID
      blockedByTaskID := blockedBy
      createdBy := principal.id
      createdAt := env.now }
    (fun _ => false)
    (fun db => (db.task? taskID).isSome && (db.task? blockedBy).isSome && taskID ≠ blockedBy)
    (.database "insert dependency")
  refuse (count ≠ 1) (ErrValidation "dependency already exists")
  let _ ← touchTask taskID expected principal.id env.now
  insertEvent
    { id := env.newID 0
      taskID := taskID
      kind := "task.dependency_added"
      actor := principal.id
      message := "Task dependency added"
      payload := [("blocked_by_task_id", .text blockedBy), ("version", .number (expected + 1))]
      createdAt := env.now }

/-- `addTaskDependencyFor`. -/
def addTaskDependencyFor (svc : Service) (env : Env) (taskID : String)
    (request : AddTaskDependencyRequest) (principal : Principal) : CallM TaskView := do
  refuse (principal.agent || !principal.can .taskWrite) ErrForbidden
  let taskID := trimSpace taskID
  let blockedBy := trimSpace request.blockedByTaskID
  refuse (taskID = "" ∨ blockedBy = "" ∨ taskID = blockedBy ∨ request.expectedVersion < 1)
    (ErrValidation "distinct task IDs and expected_version are required")
  checkEditor svc env taskID principal
  let _ ← getForHidden svc env.checked blockedBy principal
  Call.tx (addDependencyTx env taskID blockedBy request.expectedVersion principal)
  getTask svc env.now taskID

/-- The transaction of `removeTaskDependencyFor`. -/
def removeDependencyTx (env : Env) (taskID blockedBy : String) (expected : Int)
    (principal : Principal) : TxM Unit := do
  let current ← loadTask taskID
  refuse (current.version ≠ expected) ErrConflict
  let count ← dependencyTable.deleteWhere fun _ row =>
    row.taskID = taskID && row.blockedByTaskID = blockedBy
  refuse (count ≠ 1) ServiceError.notFound
  let _ ← touchTask taskID expected principal.id env.now
  insertEvent
    { id := env.newID 0
      taskID := taskID
      kind := "task.dependency_removed"
      actor := principal.id
      message := "Task dependency removed"
      payload := [("blocked_by_task_id", .text blockedBy), ("version", .number (expected + 1))]
      createdAt := env.now }

/-- `removeTaskDependencyFor`. -/
def removeTaskDependencyFor (svc : Service) (env : Env) (taskID blockedBy : String)
    (expected : Int) (principal : Principal) : CallM TaskView := do
  refuse (principal.agent || !principal.can .taskWrite) ErrForbidden
  checkEditor svc env taskID principal
  Call.tx (removeDependencyTx env taskID blockedBy expected principal)
  getTask svc env.now taskID

/-- The transaction of `setTaskRequirementsFor`. -/
def setRequirementsTx (env : Env) (taskID : String) (items : List String) (expected : Int)
    (principal : Principal) : TxM Unit := do
  let current ← loadTask taskID
  refuse (current.version ≠ expected) ErrConflict
  let _ ← requirementTable.deleteWhere fun _ row => row.taskID = taskID
  insertRequirements taskID items principal.id env.now
  let _ ← touchTask taskID expected principal.id env.now
  insertEvent
    { id := env.newID 0
      taskID := taskID
      kind := "task.requirements_updated"
      actor := principal.id
      message := "Operational requirements updated"
      payload := [("requirements", .texts items), ("version", .number (expected + 1))]
      createdAt := env.now }

/-- `setTaskRequirementsFor`. -/
def setTaskRequirementsFor (svc : Service) (env : Env) (taskID : String)
    (request : SetTaskRequirementsRequest) (principal : Principal) : CallM TaskView := do
  refuse (principal.agent || !principal.can .taskWrite) ErrForbidden
  let items ← svc.normalizeRequirements request.requirements
  refuse (request.expectedVersion < 1) (ErrValidation "expected_version is required")
  checkEditor svc env taskID principal
  Call.tx (setRequirementsTx env taskID items request.expectedVersion principal)
  getTask svc env.now taskID

/-- `normalizeDescriptions`: the words of each description, under the capability it is
about. -/
def Service.normalizeDescriptions (svc : Service) (capabilities : List String) :
    List (String × String) → List (String × String) →
      Except ServiceError (List (String × String))
  | [], items => pure items
  | (key, value) :: rest, items => do
      let key := svc.unicode.lower (trimSpace key)
      refuse (key ∉ capabilities)
        (ErrValidation "descriptions may only name advertised capabilities")
      let value := [' '].intercalate (fields value)
      refuse (300 < value.length)
        (ErrValidation "capability descriptions are limited to 300 characters")
      svc.normalizeDescriptions capabilities rest
        (if value = [] then items
        else (items.filter fun item => item.1 ≠ key) ++ [(key, String.ofList value)])

/-- The time an advertisement lives: the product of `time.Duration` wraps around. -/
def advertisementTTL (seconds : Int) : Duration :=
  let ttl := (seconds * second).bmod (2 ^ 64)
  if ttl = 0 then 5 * minute else ttl

/-- `AdvertiseWorkerFor`. -/
def advertiseWorkerFor (svc : Service) (env : Env) (request : AdvertiseWorkerRequest)
    (principal : Principal) : CallM WorkerAdvertisement := do
  refuse (!principal.agent || !principal.hasCapability .workerAdvertise) ErrForbidden
  let capabilities ← svc.normalizeRequirements request.capabilities
  let descriptions ← svc.normalizeDescriptions capabilities request.descriptions []
  refuse (request.capacity < 0 ∨ 100 < request.capacity) (ErrValidation "capacity must be 0-100")
  let ttl := advertisementTTL request.ttlSeconds
  refuse (ttl < 30 * second ∨ hour < ttl) (ErrValidation "ttl_seconds must be 30-3600")
  let item : WorkerAdvertisement :=
    { principal := principal.id
      capabilities := capabilities
      descriptions := descriptions
      capacity := request.capacity
      updatedAt := env.now
      expiresAt := env.now + ttl }
  let _ ← Call.tx (advertisementTable.upsert item)
  pure item

section Footprints

variable {svc : Service} {env : Env} {taskID blockedBy runID callsign : String} {expected : Int}
  {principal : Principal}

theorem quiet_checkEditor : (checkEditor svc env taskID principal).Quiet :=
  Call.quiet_bind quiet_getForHidden fun _ => Call.quiet_lift _

theorem Nearby.plain (h : Nearby db db') : Plain lg ev db db' :=
  h.footprint

theorem Beside.plain (h : Beside db db') :
    Plain [.taskRequirements] ev db db' :=
  h.footprint List.mem_cons_self

theorem plain_moveTx {direction : String} :
    (moveTx svc env taskID direction expected actor).Each (Plain [.posts] Event.Unkeyed) := by
  refine Tx.each_selectOr_bind fun _ => ?_
  refine Tx.each_lift_bind fun _ => ?_
  refine Tx.each_lift_bind fun _ => ?_
  refine Tx.each_select_bind fun neighbor => ?_
  cases neighbor with
  | none => exact Tx.each_pure _
  | some neighbor =>
      refine Tx.each_bind (Table.each_updateWhere fun db =>
        { refl_of (Plain [.posts] Event.Unkeyed) db with
          tasks := forall₂_mapWhere fun _ _ _ =>
            ⟨rfl, rfl, rfl, rfl, rfl, rfl, rfl, rfl, rfl, le_rfl⟩
          samePosts := fun hl => absurd List.mem_cons_self hl }) fun _ => ?_
      refine Tx.each_bind (each_oneRow (Footprint.each_bumpTask (fun _ =>
        ⟨rfl, rfl, rfl, rfl, rfl, rfl, rfl, rfl, rfl, Int.le.intro 1 rfl⟩)
        fun hl => absurd List.mem_cons_self hl)) fun _ => ?_
      refine Tx.each_bind (Footprint.each_insertEvent rfl) fun _ => ?_
      exact Tx.each_bind (Footprint.each_insertEvent rfl) fun _ => Tx.each_pure _

theorem plain_moveFor {request : MoveRequest} :
    (moveFor svc env taskID request principal).Each (Plain [.posts] Event.Unkeyed) := by
  refine Call.each_lift_bind fun _ _ => ?_
  refine Call.each_bind quiet_checkEditor.each fun _ => ?_
  refine Call.each_lift_bind fun _ _ => ?_
  refine Call.each_bind (Call.each_tx fun _ _ => plain_moveTx.run) fun unmoved => ?_
  cases unmoved with
  | some task => exact (Call.quiet_pure _).each
  | none => exact Call.each_bind quiet_getTask.each fun _ => (Call.quiet_pure _).each

theorem plain_renameRunTx :
    (renameRunTx svc env taskID runID callsign expected actor).Each (Plain lg Event.Unkeyed) := by
  refine Tx.each_selectOr_bind fun _ => ?_
  refine Tx.each_lift_bind fun _ => ?_
  refine Tx.each_selectOr_bind fun _ => ?_
  refine Tx.each_bind (Tx.each_ite ?_ ?_) fun _ => ?_
  · refine Tx.each_select_bind fun _ => ?_
    refine Tx.each_lift_bind fun _ => ?_
    exact Tx.each_bind (Table.each_updateWhere fun db =>
      Nearby.plain ⟨_, _, rfl⟩) fun _ => Tx.each_pure _
  · exact Tx.each_bind (Table.each_updateWhere fun db =>
      { refl_of (Plain lg Event.Unkeyed) db with
        runs := forall₂_mapWhere fun _ _ _ => ⟨_, rfl⟩ })
        fun _ => Tx.each_pure _
  · refine Tx.each_bind (each_oneRow (Footprint.each_bumpTask fun _ =>
      ⟨rfl, rfl, rfl, rfl, rfl, rfl, rfl, rfl, rfl, Int.le.intro 1 rfl⟩)) fun _ => ?_
    exact Footprint.each_insertEvent rfl

theorem plain_renameRunFor {request : RenameRunRequest} :
    (renameRunFor svc env taskID runID request principal).Each (Plain lg Event.Unkeyed) := by
  refine Call.each_lift_bind fun _ _ => ?_
  refine Call.each_bind quiet_checkEditor.each fun _ => ?_
  refine Call.each_lift_bind fun _ _ => ?_
  split
  · exact Call.each_bind (Call.each_tx fun _ _ => plain_renameRunTx.run) fun _ =>
      quiet_getTask.each
  · exact (Call.quiet_fail _).each

theorem changes_dependencies (db : Db) (dependencies : List TaskDependency) :
    Plain [.dependencies] ev db { db with dependencies } :=
  { refl_of (Plain [.dependencies] ev) db with
    sameDependencies := fun hl => absurd (List.mem_singleton.mpr rfl) hl }

theorem plain_addDependencyTx :
    (addDependencyTx env taskID blockedBy expected principal).Each
      (Plain [.dependencies] Event.Unkeyed) := by
  refine Tx.each_selectOr_bind fun _ => ?_
  refine Tx.each_lift_bind fun _ => ?_
  refine Tx.each_select_bind fun _ => ?_
  refine Tx.each_lift_bind fun _ => ?_
  refine Tx.each_bind (Table.each_insertUnless fun db => changes_dependencies db _) fun _ => ?_
  refine Tx.each_lift_bind fun _ => ?_
  exact Tx.each_bind plain_touchTask fun _ => Footprint.each_insertEvent rfl

theorem plain_addTaskDependencyFor {request : AddTaskDependencyRequest} :
    (addTaskDependencyFor svc env taskID request principal).Each
      (Plain [.dependencies] Event.Unkeyed) := by
  refine Call.each_lift_bind fun _ _ => ?_
  refine Call.each_lift_bind fun _ _ => ?_
  refine Call.each_bind quiet_checkEditor.each fun _ => ?_
  refine Call.each_bind quiet_getForHidden.each fun _ => ?_
  exact Call.each_bind (Call.each_tx fun _ _ => plain_addDependencyTx.run) fun _ =>
    quiet_getTask.each

theorem plain_removeDependencyTx :
    (removeDependencyTx env taskID blockedBy expected principal).Each
      (Plain [.dependencies] Event.Unkeyed) := by
  refine Tx.each_selectOr_bind fun _ => ?_
  refine Tx.each_lift_bind fun _ => ?_
  refine Tx.each_bind (Table.each_deleteWhere fun db => changes_dependencies db _) fun _ => ?_
  refine Tx.each_lift_bind fun _ => ?_
  exact Tx.each_bind plain_touchTask fun _ => Footprint.each_insertEvent rfl

theorem plain_removeTaskDependencyFor :
    (removeTaskDependencyFor svc env taskID blockedBy expected principal).Each
      (Plain [.dependencies] Event.Unkeyed) := by
  refine Call.each_lift_bind fun _ _ => ?_
  refine Call.each_bind quiet_checkEditor.each fun _ => ?_
  exact Call.each_bind (Call.each_tx fun _ _ => plain_removeDependencyTx.run) fun _ =>
    quiet_getTask.each

theorem plain_setRequirementsTx {items : List String} :
    (setRequirementsTx env taskID items expected principal).Each
      (Plain [.taskRequirements] Event.Unkeyed) := by
  refine Tx.each_selectOr_bind fun _ => ?_
  refine Tx.each_lift_bind fun _ => ?_
  refine Tx.each_bind (Table.each_deleteWhere fun _ => Beside.plain ⟨_, _, _, rfl⟩)
    fun _ => ?_
  refine Tx.each_bind ((beside_insertRequirements _).mono fun _ _ => Beside.plain) fun _ => ?_
  exact Tx.each_bind plain_touchTask fun _ => Footprint.each_insertEvent rfl

theorem plain_setTaskRequirementsFor {request : SetTaskRequirementsRequest} :
    (setTaskRequirementsFor svc env taskID request principal).Each
      (Plain [.taskRequirements] Event.Unkeyed) := by
  refine Call.each_lift_bind fun _ _ => ?_
  refine Call.each_lift_bind fun _ _ => ?_
  refine Call.each_lift_bind fun _ _ => ?_
  refine Call.each_bind quiet_checkEditor.each fun _ => ?_
  exact Call.each_bind (Call.each_tx fun _ _ => plain_setRequirementsTx.run) fun _ =>
    quiet_getTask.each

theorem nearby_advertiseWorkerFor {request : AdvertiseWorkerRequest} :
    (advertiseWorkerFor svc env request principal).Each Nearby := by
  refine Call.each_lift_bind fun _ _ => ?_
  refine Call.each_lift_bind fun _ _ => ?_
  refine Call.each_lift_bind fun _ _ => ?_
  refine Call.each_lift_bind fun _ _ => ?_
  refine Call.each_lift_bind fun _ _ => ?_
  refine Call.each_bind (Call.each_tx fun _ _ => Tx.Each.run ?_) fun _ => (Call.quiet_pure _).each
  exact Table.each_upsert fun _ => ⟨_, _, rfl⟩

end Footprints

end Taskboard
