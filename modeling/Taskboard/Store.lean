import Mathlib.Data.List.Sort
import Taskboard.Lib.Call
import Taskboard.Lib.Table
import Taskboard.Calendar
import Taskboard.Principal

/-!
# The database

`Db` is the database: one list of rows for each table. The statements that most
transactions share are here: loading a task, writing an event, and moving a task's version
with a conditional update.

How two stored times compare in SQL is a parameter of the service (`Service.before`):
the code compares the text of the times, and results below that do not depend on it hold
for that order and for the order of the instants alike. Times that Go compares are
instants.
-/

namespace Taskboard

variable {task : Task} {also : Task → Bool} {f : Task → Task}

variable {expected : Int} {id taskID : String} {db db' : Db} {α : Type}
  {hf : ∀ task, (f task).id = task.id} {r : α × Db}

/-- The name of a row. -/
inductive RowKey where
  | task (id : String)
  | item (id : String)
  | run (id : String)
  | session (id : String)
  | event (id : String)
  | dependency (taskID blockedByTaskID : String)
  | requirement (taskID requirement : String)
  | advertisement (principal : String)
  | message (id : String)
  | escalation (id : String)
  | control (id : String)
  | reference (id : String)
  | handoff (id : String)
  | completionRequirement (id : String)
  | evidence (id : String)
  | usage (id : String)
  | discussion (id : String)
  | discussionMessage (id : String)
  | receipt (messageID runID : String)
  | bridgeRequest (id : String)
  | schedule (id : String)
  deriving DecidableEq

/-- The database. -/
structure Db where
  tasks : List Task := []
  items : List ChecklistItem := []
  runs : List AgentRun := []
  sessions : List AgentSession := []
  events : List Event := []
  dependencies : List TaskDependency := []
  requirements : List TaskRequirement := []
  advertisements : List WorkerAdvertisement := []
  messages : List TaskMessage := []
  escalations : List TaskEscalation := []
  controls : List RunControlRequest := []
  references : List TaskReference := []
  handoffs : List RunHandoff := []
  completionRequirements : List CompletionRequirement := []
  evidence : List CompletionEvidence := []
  usage : List UsageRecord := []
  discussions : List TaskDiscussion := []
  discussionMessages : List DiscussionMessage := []
  receipts : List MessageReceipt := []
  bridgeRequests : List SessionBridgeRequest := []
  schedules : List TaskSchedule := []
  deriving DecidableEq

/-- The process mutexes of the service. -/
inductive Mutex where
  | idempotency | pickup
  deriving DecidableEq

/-- What the database holds under a key: the rows that have it. -/
def Db.part (k : RowKey) (db : Db) : Db where
  tasks := db.tasks.filter fun row => RowKey.task row.id = k
  items := db.items.filter fun row => RowKey.item row.id = k
  runs := db.runs.filter fun row => RowKey.run row.id = k
  sessions := db.sessions.filter fun row => RowKey.session row.id = k
  events := db.events.filter fun row => RowKey.event row.id = k
  dependencies := db.dependencies.filter fun row => RowKey.dependency row.taskID row.blockedByTaskID = k
  requirements := db.requirements.filter fun row => RowKey.requirement row.taskID row.requirement = k
  advertisements := db.advertisements.filter fun row => RowKey.advertisement row.principal = k
  messages := db.messages.filter fun row => RowKey.message row.id = k
  escalations := db.escalations.filter fun row => RowKey.escalation row.id = k
  controls := db.controls.filter fun row => RowKey.control row.id = k
  references := db.references.filter fun row => RowKey.reference row.id = k
  handoffs := db.handoffs.filter fun row => RowKey.handoff row.id = k
  completionRequirements := db.completionRequirements.filter fun row => RowKey.completionRequirement row.id = k
  evidence := db.evidence.filter fun row => RowKey.evidence row.id = k
  usage := db.usage.filter fun row => RowKey.usage row.id = k
  discussions := db.discussions.filter fun row => RowKey.discussion row.id = k
  discussionMessages := db.discussionMessages.filter fun row => RowKey.discussionMessage row.id = k
  receipts := db.receipts.filter fun row => RowKey.receipt row.messageID row.runID = k
  bridgeRequests := db.bridgeRequests.filter fun row => RowKey.bridgeRequest row.id = k
  schedules := db.schedules.filter fun row => RowKey.schedule row.id = k

instance : Parts Db RowKey where
  part := Db.part

/-- A transaction of the service. -/
abbrev TxM := Tx Db RowKey ServiceError

/-- A call of the service. -/
abbrev CallM := Call Db RowKey ServiceError Mutex

def taskTable : Table Db RowKey Task where
  rows := Db.tasks
  put rows db := { db with tasks := rows }
  key row := .task row.id
  put_rows _ := rfl
  part_rows h := congrArg Db.tasks h
  part_put := congrArg₂ fun (db : Db) rows => { db with tasks := rows }

def itemTable : Table Db RowKey ChecklistItem where
  rows := Db.items
  put rows db := { db with items := rows }
  key row := .item row.id
  put_rows _ := rfl
  part_rows h := congrArg Db.items h
  part_put := congrArg₂ fun (db : Db) rows => { db with items := rows }

def runTable : Table Db RowKey AgentRun where
  rows := Db.runs
  put rows db := { db with runs := rows }
  key row := .run row.id
  put_rows _ := rfl
  part_rows h := congrArg Db.runs h
  part_put := congrArg₂ fun (db : Db) rows => { db with runs := rows }

def sessionTable : Table Db RowKey AgentSession where
  rows := Db.sessions
  put rows db := { db with sessions := rows }
  key row := .session row.id
  put_rows _ := rfl
  part_rows h := congrArg Db.sessions h
  part_put := congrArg₂ fun (db : Db) rows => { db with sessions := rows }

def eventTable : Table Db RowKey Event where
  rows := Db.events
  put rows db := { db with events := rows }
  key row := .event row.id
  put_rows _ := rfl
  part_rows h := congrArg Db.events h
  part_put := congrArg₂ fun (db : Db) rows => { db with events := rows }

def dependencyTable : Table Db RowKey TaskDependency where
  rows := Db.dependencies
  put rows db := { db with dependencies := rows }
  key row := .dependency row.taskID row.blockedByTaskID
  put_rows _ := rfl
  part_rows h := congrArg Db.dependencies h
  part_put := congrArg₂ fun (db : Db) rows => { db with dependencies := rows }

def requirementTable : Table Db RowKey TaskRequirement where
  rows := Db.requirements
  put rows db := { db with requirements := rows }
  key row := .requirement row.taskID row.requirement
  put_rows _ := rfl
  part_rows h := congrArg Db.requirements h
  part_put := congrArg₂ fun (db : Db) rows => { db with requirements := rows }

def advertisementTable : Table Db RowKey WorkerAdvertisement where
  rows := Db.advertisements
  put rows db := { db with advertisements := rows }
  key row := .advertisement row.principal
  put_rows _ := rfl
  part_rows h := congrArg Db.advertisements h
  part_put := congrArg₂ fun (db : Db) rows => { db with advertisements := rows }

def messageTable : Table Db RowKey TaskMessage where
  rows := Db.messages
  put rows db := { db with messages := rows }
  key row := .message row.id
  put_rows _ := rfl
  part_rows h := congrArg Db.messages h
  part_put := congrArg₂ fun (db : Db) rows => { db with messages := rows }

def escalationTable : Table Db RowKey TaskEscalation where
  rows := Db.escalations
  put rows db := { db with escalations := rows }
  key row := .escalation row.id
  put_rows _ := rfl
  part_rows h := congrArg Db.escalations h
  part_put := congrArg₂ fun (db : Db) rows => { db with escalations := rows }

def controlTable : Table Db RowKey RunControlRequest where
  rows := Db.controls
  put rows db := { db with controls := rows }
  key row := .control row.id
  put_rows _ := rfl
  part_rows h := congrArg Db.controls h
  part_put := congrArg₂ fun (db : Db) rows => { db with controls := rows }

def referenceTable : Table Db RowKey TaskReference where
  rows := Db.references
  put rows db := { db with references := rows }
  key row := .reference row.id
  put_rows _ := rfl
  part_rows h := congrArg Db.references h
  part_put := congrArg₂ fun (db : Db) rows => { db with references := rows }

def handoffTable : Table Db RowKey RunHandoff where
  rows := Db.handoffs
  put rows db := { db with handoffs := rows }
  key row := .handoff row.id
  put_rows _ := rfl
  part_rows h := congrArg Db.handoffs h
  part_put := congrArg₂ fun (db : Db) rows => { db with handoffs := rows }

def completionRequirementTable : Table Db RowKey CompletionRequirement where
  rows := Db.completionRequirements
  put rows db := { db with completionRequirements := rows }
  key row := .completionRequirement row.id
  put_rows _ := rfl
  part_rows h := congrArg Db.completionRequirements h
  part_put := congrArg₂ fun (db : Db) rows => { db with completionRequirements := rows }

def evidenceTable : Table Db RowKey CompletionEvidence where
  rows := Db.evidence
  put rows db := { db with evidence := rows }
  key row := .evidence row.id
  put_rows _ := rfl
  part_rows h := congrArg Db.evidence h
  part_put := congrArg₂ fun (db : Db) rows => { db with evidence := rows }

def usageTable : Table Db RowKey UsageRecord where
  rows := Db.usage
  put rows db := { db with usage := rows }
  key row := .usage row.id
  put_rows _ := rfl
  part_rows h := congrArg Db.usage h
  part_put := congrArg₂ fun (db : Db) rows => { db with usage := rows }

def discussionTable : Table Db RowKey TaskDiscussion where
  rows := Db.discussions
  put rows db := { db with discussions := rows }
  key row := .discussion row.id
  put_rows _ := rfl
  part_rows h := congrArg Db.discussions h
  part_put := congrArg₂ fun (db : Db) rows => { db with discussions := rows }

def discussionMessageTable : Table Db RowKey DiscussionMessage where
  rows := Db.discussionMessages
  put rows db := { db with discussionMessages := rows }
  key row := .discussionMessage row.id
  put_rows _ := rfl
  part_rows h := congrArg Db.discussionMessages h
  part_put := congrArg₂ fun (db : Db) rows => { db with discussionMessages := rows }

def receiptTable : Table Db RowKey MessageReceipt where
  rows := Db.receipts
  put rows db := { db with receipts := rows }
  key row := .receipt row.messageID row.runID
  put_rows _ := rfl
  part_rows h := congrArg Db.receipts h
  part_put := congrArg₂ fun (db : Db) rows => { db with receipts := rows }

def bridgeRequestTable : Table Db RowKey SessionBridgeRequest where
  rows := Db.bridgeRequests
  put rows db := { db with bridgeRequests := rows }
  key row := .bridgeRequest row.id
  put_rows _ := rfl
  part_rows h := congrArg Db.bridgeRequests h
  part_put := congrArg₂ fun (db : Db) rows => { db with bridgeRequests := rows }

/-- The settings of the service and what it takes from its surroundings. -/
structure Service where
  leaseDuration : Duration
  fixedType : Option TaskType := none
  defaultRequirements : List String := []
  /-- `<` of SQL on two stored times. -/
  before : Instant → Instant → Bool
  /-- The Unicode tables of the language. -/
  unicode : Unicode
  /-- `time.Parse` with the layout `time.RFC3339`. -/
  parseTime : String → Option Instant
  /-- Midnight of a date in the location of deferrals. -/
  midnight : Date → Instant
  /-- `url.Parse` accepts the text as HTTPS with a host and without credentials. -/
  isHTTPS : String → Bool

/-- What one call reads from the clock and the source of identifiers: the time its
checks read, the time its transaction writes, and the identifiers it draws, which are not
empty and hold no space. -/
structure Env where
  checked : Instant
  now : Instant
  newID : Nat → String
  newID_ne (n : Nat) : newID n ≠ ""
  newID_plain (n : Nat) : ∀ c ∈ (newID n).toList, isSpace c = false

theorem Env.trimSpace_newID (env : Env) (n : Nat) : trimSpace (env.newID n) = env.newID n :=
  trimSpace_of_plain (env.newID_plain n)

/-- The database systems that the store runs on. -/
inductive Dialect where
  | sqlite | postgres
  deriving DecidableEq

/-- The rows in the order of `lt`, equal ones as they stood. -/
def sortBy {α : Type} (lt : α → α → Bool) (rows : List α) : List α :=
  rows.insertionSort fun a b => lt b a = false

/-- What a query for one row returns. -/
def found {ρ : Type} : Option ρ → Except ServiceError ρ
  | some row => .ok row
  | none => .error .notFound

@[simp] theorem found_ok_iff {ρ : Type} {row? : Option ρ} {row : ρ} :
    found row? = .ok row ↔ row? = some row := by
  cases row? <;> simp [found]

/-- The row of a task. -/
def Db.task? (db : Db) (id : String) : Option Task :=
  db.tasks.find? fun task => task.id = id

/-- `LoadTask` inside a transaction. -/
def loadTask (id : String) : TxM Task :=
  Tx.selectOr fun db => found (db.task? id)

@[simp] theorem run_loadTask_ok :
    (loadTask id).run db = .ok (task, db') ↔ db.task? id = some task ∧ db' = db := by
  simp [loadTask]

theorem run_loadTask_bind_ok {f : Task → TxM α} :
    (loadTask id >>= f).run db = .ok r ↔
      ∃ task, db.task? id = some task ∧ (f task).run db = .ok r := by
  rw [Tx.run_bind_ok]
  simp

theorem mem_of_task? (h : db.task? id = some task) :
    task ∈ db.tasks ∧ task.id = id :=
  ⟨List.mem_of_find?_eq_some h, by simpa using List.find?_some h⟩

/-- `InsertEvent`. An event belongs to a task. -/
def insertEvent (event : Event) : TxM Unit :=
  eventTable.insert event (fun db => (db.task? event.taskID).isSome)
    (.database "insert event")

/-- **Writing an event.** It is appended, under a new identifier and for a task that
exists; nothing else changes. -/
@[simp] theorem run_insertEvent_ok {event : Event} {u : Unit} :
    (insertEvent event).run db = .ok (u, db') ↔
      (db.task? event.taskID).isSome = true ∧ (∀ e ∈ db.events, e.id ≠ event.id) ∧
        db' = { db with events := db.events ++ [event] } := by
  simp [insertEvent, eventTable]

/-- `UPDATE tasks SET f, version=version+1 WHERE id=? AND version=?` with a further
condition on the row. -/
def bumpTask (taskID : String) (expected : Int) (also : Task → Bool) (f : Task → Task)
    (hf : ∀ task, (f task).id = task.id := by intro; rfl) : TxM Nat :=
  taskTable.updateWhere
    (fun _ task => task.id = taskID && task.version = expected && also task)
    (fun task => { f task with version := task.version + 1 })
    fun task => congrArg RowKey.task (hf task)

/-- The rows that `bumpTask` changes. -/
def bumps (taskID : String) (expected : Int) (also : Task → Bool) (task : Task) : Bool :=
  task.id = taskID && task.version = expected && also task

@[simp] theorem run_bumpTask_ok {n : Nat}:
    (bumpTask taskID expected also f hf).run db = .ok (n, db') ↔
      n = (db.tasks.filter (bumps taskID expected also)).length ∧
        db' = { db with
          tasks := mapWhere (bumps taskID expected also)
            (fun task => { f task with version := task.version + 1 }) db.tasks } := by
  simp only [bumpTask, Table.run_updateWhere_ok, taskTable]
  rfl

theorem run_bumpTask_bind_ok
    {g : Nat → TxM α}
    :
    (bumpTask taskID expected also f hf >>= g).run db = .ok r ↔
      (g (db.tasks.filter (bumps taskID expected also)).length).run { db with
        tasks := mapWhere (bumps taskID expected also)
          (fun task => { f task with version := task.version + 1 }) db.tasks } = .ok r := by
  rw [Tx.run_bind_ok]
  simp

/-- `versionConflict`. -/
def versionConflict (current : Task) (expected : Int) (runEnded : Bool) : ServiceError :=
  .versionConflict current.version expected
    (if current.status = .stale then
      "its run lease expired, so the task is stale; claim it again with task_claim (using the current version) and retry with the new run"
    else if runEnded then
      "your run has ended; claim the task again with task_claim and retry with the new run"
    else
      "retry with the current version, re-reading the task with task_get first if someone else may have changed it")

/-- `lostVersionRace`: why a conditional write matched no row. -/
def lostVersionRace {α : Type} (taskID : String) (expected : Int) : TxM α :=
  Tx.selectOr fun db =>
    match db.task? taskID with
    | none => .error ErrConflict
    | some current =>
        if current.version = expected then .error ErrConflict
        else .error (versionConflict current expected false)

@[simp] theorem run_lostVersionRace_ok:
    (lostVersionRace taskID expected : TxM α).run db = .ok r ↔ False := by
  obtain ⟨a, db'⟩ := r
  simp only [lostVersionRace, Tx.run_selectOr_ok, iff_false]
  rintro ⟨h, -⟩
  split at h
  · simp at h
  · split at h <;> simp at h

end Taskboard
