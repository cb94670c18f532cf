import Taskboard.Footprint
import Taskboard.Reads

/-!
# Planning fields, requirements and duplicates

How the service cleans and checks the fields of a task before it writes them: section,
priority, dates and recurrence; the operational requirements that route work to workers;
and the search for open tasks that look like the one about to be recorded.
-/

namespace Taskboard

variable {db db' : Db} {R : Db → Db → Prop} {now : Instant} {fuel : Nat} {svc : Service}
  {actor id taskID text value : String} {task : Task} {α : Type} {parse : String → Option α}

/-- The value a string names, or a validation error. -/
def named {α : Type} (parse : String → Option α) (text value : String) :
    Except ServiceError α :=
  match parse value with
  | some a => .ok a
  | none => .error (ErrValidation text)

theorem named_ok_iff {a : α} :
    named parse text value = .ok a ↔ parse value = some a := by
  unfold named
  cases parse value <;> simp

/-- `named` of a field that may be left out. -/
def namedOption {α : Type} (parse : String → Option α) (text : String) :
    Option String → Except ServiceError (Option α)
  | none => .ok none
  | some value => (named parse text value).map some

theorem namedOption_some_ok_iff
    {result : Option α} :
    namedOption parse text (some value) = .ok result ↔ ∃ a, parse value = some a ∧ result = some a := by
  simp only [namedOption, named]
  cases hparse : parse value with
  | none => simp [Except.map]
  | some a => simp [Except.map, eq_comm]

/-- `normalizedSection`. -/
def normalizedSection (value : String) : String :=
  if trimSpace value ≠ "" then trimSpace value else "General"

/-- The trimmed lower-case value, or `fallback` where it is empty. -/
def Service.normalized (svc : Service) (value fallback : String) : String :=
  let value := svc.unicode.lower (trimSpace value)
  if value = "" then fallback else value

/-- `normalizedPriority`. -/
def Service.normalizedPriority (svc : Service) (value : String) : String :=
  svc.normalized value "normal"

/-- `normalizedTaskType`. -/
def Service.normalizedTaskType (svc : Service) (value : String) : String :=
  svc.normalized value "personal"

/-- `normalizedVisibility`. -/
def Service.normalizedVisibility (svc : Service) (value fallback : String) : String :=
  svc.normalized value fallback

/-- `normalizedRecurrence`. -/
def Service.normalizedRecurrence (svc : Service) (value : String) : String :=
  svc.normalized value ""

/-- `taskType` of a request: the fixed type of the instance if it has one, otherwise the
type the request names. -/
def Service.taskType (svc : Service) (value : String) : Except ServiceError TaskType :=
  match svc.fixedType with
  | some type => .ok type
  | none => named TaskType.ofString? "type must be personal or work" (svc.normalizedTaskType value)

/-- `NormalizeDeferUntil`. -/
def Service.normalizeDeferUntil (svc : Service) (value : String) :
    Except ServiceError String :=
  if value = "" then .ok ""
  else if (parseDate value).isSome then .ok value
  else
    match svc.parseTime value with
    | some parsed => .ok (String.ofList (dateTimeText parsed ++ ['Z']))
    | none => .error (ErrValidation "defer_until must use YYYY-MM-DD or an RFC 3339 timestamp")

/-- `normalizedDeferUntil`: a value that does not parse is left for the validation. -/
def Service.normalizedDeferUntil (svc : Service) (value : String) : String :=
  let value := trimSpace value
  match svc.normalizeDeferUntil value with
  | .ok normalized => normalized
  | .error _ => value

/-- `validatePlanning`; the result is the priority that was named. -/
def Service.validatePlanning (svc : Service) (priority dueDate deferUntil recurrence : String) :
    Except ServiceError Priority := do
  let some priority := Priority.ofString? priority
    | .error (ErrValidation "priority must be low, normal, high, or urgent")
  refuse (dueDate ≠ "" ∧ parseDate dueDate = none)
    (ErrValidation "due_date must use YYYY-MM-DD")
  let _ ← svc.normalizeDeferUntil deferUntil
  refuse (recurrence ≠ "" ∧ recurrence ≠ "daily" ∧ recurrence ≠ "weekly" ∧
      recurrence ≠ "monthly")
    (ErrValidation "recurrence must be daily, weekly, monthly, or empty")
  pure priority

/-- `nextSortOrder`: `COALESCE(MAX(sort_order), 0) + 1024` over a section. -/
def Db.nextSortOrder (db : Db) («section» : String) : Int :=
  let orders := (db.tasks.filter fun task => task.section = «section»).map (·.sortOrder)
  match orders with
  | [] => 1024
  | order :: rest => rest.foldl max order + 1024

theorem le_foldl_max (orders : List Int) (order : Int) :
    order ≤ orders.foldl max order ∧ ∀ other ∈ orders, other ≤ orders.foldl max order := by
  induction orders generalizing order with
  | nil => simp
  | cons first rest ih =>
      obtain ⟨hmax, hrest⟩ := ih (max order first)
      refine ⟨(le_max_left order first).trans hmax, ?_⟩
      rw [List.forall_mem_cons]
      exact ⟨(le_max_right order first).trans hmax, hrest⟩

/-- `nextRecurringDate`. -/
def nextRecurringDate (dueDate recurrence : String) (now : Instant) :
    Except ServiceError String := do
  let base ←
    if dueDate = "" then pure (dateOf now)
    else
      match parseDate dueDate with
      | some date => pure date
      | none => .error (.database "parsing time")
  match recurrence with
  | "daily" => pure (formatDate (base.addDays 1))
  | "weekly" => pure (formatDate (base.addDays 7))
  | "monthly" => pure (formatDate base.addMonth)
  | _ => .error (ErrValidation "unknown recurrence")

/-- The checklist labels, at most 100 of them, trimmed, each of 1 to 300 bytes. -/
def cleanChecklist (labels : List String) : Except ServiceError (List String) := do
  refuse (100 < labels.length) (ErrValidation "checklist is limited to 100 items")
  let labels := labels.map trimSpace
  refuse (∃ label ∈ labels, label = "" ∨ 300 < byteLen label)
    (ErrValidation "checklist items must contain 1-300 characters")
  pure labels

/-- `requirementTokenPattern`: a name, and behind a colon a value where there is one. -/
def requirementPattern (value : List Char) : Bool :=
  let name := value.takeWhile (· ≠ ':')
  let rest := value.dropWhile (· ≠ ':')
  let letter (c : Char) := 'a' ≤ c && c ≤ 'z'
  let digit (c : Char) := '0' ≤ c && c ≤ '9'
  name.head?.any letter &&
    (name.all fun c => letter c || digit c || c = '_' || c = '-') &&
    match rest with
    | [] => true
    | _ :: tail =>
        !tail.isEmpty &&
          tail.all fun c => letter c || digit c || c = '.' || c = '_' || c = '/' || c = '-'

/-- `IsRequirementToken`. -/
def isRequirementToken (value : String) : Bool :=
  byteLen value ≤ 100 && requirementPattern value.toList

/-- `normalizeRequirements`: the tokens in order, each once. -/
def Service.normalizeRequirements (svc : Service) (values : List String) :
    Except ServiceError (List String) := do
  refuse (50 < values.length) (ErrValidation "requirements are limited to 50")
  let items := values.map fun value => svc.unicode.lower (trimSpace value)
  refuse (∃ item ∈ items, isRequirementToken item = false)
    (ErrValidation "requirements must be lowercase namespace:value tokens")
  pure (sortBy (fun a b => a < b) items.dedup)

/-- `workerMatches`. -/
def workerMatches (requirements capabilities : List String) : Bool :=
  requirements.all fun item => item ∈ capabilities

/-- `insertRequirements`. -/
def insertRequirements (taskID : String) (items : List String) (actor : String)
    (now : Instant) : TxM Unit :=
  match items with
  | [] => pure ()
  | item :: rest => do
      requirementTable.insert
        { taskID, requirement := item, createdBy := actor, createdAt := now }
        (fun db => (db.task? taskID).isSome) (.database "insert requirement")
      insertRequirements taskID rest actor now

theorem each_insertRequirements
    (h : ∀ db requirements, R db { db with requirements }) (items : List String) :
    (insertRequirements taskID items actor now).Each R := by
  induction items with
  | nil => exact Tx.each_pure _
  | cons item rest ih => exact Tx.each_bind (Table.each_insert fun db => h db _) fun _ => ih

theorem beside_insertRequirements (items : List String) :
    (insertRequirements taskID items actor now).Each Beside :=
  each_insertRequirements (fun _ _ => ⟨_, _, _, rfl⟩) items

/-- `applyDefaultRequirements`. -/
def applyDefaultRequirements (svc : Service) (taskID actor : String) (now : Instant) :
    TxM (List String) := do
  if svc.defaultRequirements.isEmpty then pure []
  else
    let existing ← Tx.select fun db => db.requirements.any fun row => row.taskID = taskID
    if existing then pure []
    else
      insertRequirements taskID svc.defaultRequirements actor now
      pure svc.defaultRequirements

/-- Default requirements touch the requirements of the task alone. -/
theorem each_applyDefaultRequirements (h : ∀ db requirements, R db { db with requirements }):
    (applyDefaultRequirements svc taskID actor now).Each R := by
  unfold applyDefaultRequirements
  refine Tx.each_ite (Tx.each_pure _) ?_
  refine Tx.each_select_bind fun _ => ?_
  refine Tx.each_ite (Tx.each_pure _) ?_
  exact Tx.each_bind (each_insertRequirements h _) fun _ => Tx.each_pure _

theorem beside_applyDefaultRequirements
    : (applyDefaultRequirements svc taskID actor now).Each Beside :=
  each_applyDefaultRequirements fun _ _ => ⟨_, _, _, rfl⟩

/-- The dependencies of a task whose blocker is not done. -/
def Db.unmetDependencies (db : Db) (taskID : String) : Nat :=
  (db.dependencies.filter fun row => row.taskID = taskID &&
    (db.task? row.blockedByTaskID).any fun blocker => blocker.status ≠ .done).length

/-- The statement that makes the first open item active where none is. -/
def activateFirstItem (taskID : String) (now : Instant) : TxM Unit := do
  let _ ← itemTable.updateWhere
    (fun db item =>
      ((db.listItems taskID).find? fun first => first.status = .todo).any
        (fun first => item.id = first.id) &&
      db.items.all fun other => other.taskID ≠ taskID || other.status ≠ .active)
    fun item => { item with status := .active, updatedAt := now }
  pure ()

theorem onItems_activateFirstItem :
    (activateFirstItem taskID now).Each OnItems :=
  Tx.each_bind (Table.each_updateWhere fun _ => ⟨_, rfl⟩) fun _ => Tx.each_pure _

/-- The statement that inserts one checklist item. -/
def insertItem (id taskID label : String) (status : ItemStatus) (position : Int)
    (required : Bool) (now : Instant) : TxM Unit :=
  itemTable.insert
    { id, taskID, label, status, position, required, updatedAt := now }
    (fun db => (db.task? taskID).isSome) (.database "insert checklist item")

/-- The loop that inserts a checklist from position `index` on. `newID` gives the
identifier at a position. -/
def insertItems (newID : Nat → String) (taskID : String) (now : Instant)
    (status : Nat → ItemStatus) : Nat → List (String × Bool) → TxM Unit
  | _, [] => pure ()
  | index, (label, required) :: rest => do
      insertItem (newID index) taskID label (status index) index required now
      insertItems newID taskID now status (index + 1) rest

theorem onItems_insertItems {newID : Nat → String}
    {status : Nat → ItemStatus} {index : Nat} (items : List (String × Bool)) :
    (insertItems newID taskID now status index items).Each OnItems := by
  induction items generalizing index with
  | nil => exact Tx.each_pure _
  | cons item rest ih =>
      exact Tx.each_bind (Table.each_insert fun _ => ⟨_, rfl⟩) fun _ => ih

/-- `GetWorkerAdvertisement`: what a worker advertises, until it expires. -/
def Db.getWorkerAdvertisement (db : Db) (principal : String) (now : Instant) :
    Option WorkerAdvertisement :=
  (db.advertisements.find? fun row => row.principal = principal).filter
    fun row => now ≤ row.expiresAt

/-- `titleStopWords`. -/
def titleStopWords : List String :=
  ["a", "an", "and", "are", "as", "at", "be", "by", "for", "from", "in", "into", "is", "it",
    "of", "on", "or", "the", "to", "via", "with"]

/-- `titleTokens`: the words of a title that carry meaning, each once. -/
def Service.titleTokens (svc : Service) (title : String) : List String :=
  let isSeparator (c : Char) := !svc.unicode.isLetter c && !svc.unicode.isDigit c
  let words := (svc.unicode.lower title).toList.splitOnP isSeparator
  let kept := words.filter fun word =>
    !word.isEmpty && String.ofList word ∉ titleStopWords &&
      !(byteLen (String.ofList word) < 2 && !(word.head?.any svc.unicode.isDigit))
  (kept.map String.ofList).dedup

/-- `titleSimilarity`: the shared words and all words, where they are alike enough. -/
def titleSimilarity (left right : List String) : Option (Nat × Nat) :=
  if left.isEmpty ∨ right.isEmpty then none
  else
    let shared := (left.filter (· ∈ right)).length
    let union := left.length + right.length - shared
    let smaller := min left.length right.length
    let similar :=
      if smaller < 2 then shared = union
      else 65 * union ≤ 100 * shared ∨
        (3 ≤ shared ∧ 8 * smaller ≤ 10 * shared ∧ 3 * union ≤ 10 * shared)
    if similar then some (shared, union) else none

/-- The text without `suffix` where it ends in it. -/
def trimSuffix (value suffix : List Char) : List Char :=
  if suffix.isSuffixOf value then value.take (value.length - suffix.length) else value

/-- `scopeName`: the last part of a repository path, without `.git`. -/
def Service.scopeName (svc : Service) (value : String) : List Char :=
  let value := (svc.unicode.lower (trimSpace value)).toList
  let value := trimSuffix (trimSuffix value ['/']) ['.', 'g', 'i', 't']
  value.rtakeWhile (· ≠ '/')

/-- `sameScope`. -/
def Service.sameScope (svc : Service) (left right : String) : Bool :=
  svc.scopeName left = [] || svc.scopeName right = [] ||
    svc.scopeName left = svc.scopeName right

/-- `ListOpenTaskHeads`. -/
def Service.listOpenTaskHeads (svc : Service) (db : Db) (limit : Nat) : List Task :=
  (sortBy
    (fun a b => svc.before b.updatedAt a.updatedAt ||
      (a.updatedAt = b.updatedAt && a.id < b.id))
    (db.tasks.filter fun task => !task.status.terminal && task.duplicateOf.isNone)).take limit

/-- `findDuplicateCandidates`. -/
def Service.findDuplicateCandidates (svc : Service) (db : Db) (principal : Principal)
    (title project repository : String) : List DuplicateCandidate :=
  let wanted := svc.titleTokens title
  if wanted.isEmpty then []
  else
    let matching := (svc.listOpenTaskHeads db 2000).filterMap fun head =>
      if !canView head principal || !svc.sameScope project head.project ||
          !svc.sameScope repository head.repository then none
      else (titleSimilarity wanted (svc.titleTokens head.title)).map fun score => (head, score)
    -- A higher share of common words comes first.
    let ranked := sortBy
      (fun a b : Task × Nat × Nat => b.2.1 * a.2.2 < a.2.1 * b.2.2) matching
    (ranked.take 5).map fun entry =>
      { taskID := entry.1.id
        title := entry.1.title
        status := entry.1.status
        owner := entry.1.owner
        repository := entry.1.repository
        version := entry.1.version }

/-- `checkDuplicates`: the tasks that a forced request goes past. -/
def checkDuplicates (svc : Service) (principal : Principal) (force : Bool)
    (title project repository : String) : CallM (List String) := do
  let candidates ← Call.look fun db =>
    svc.findDuplicateCandidates db principal title project repository
  refuse (candidates ≠ [] ∧ !force) (ServiceError.duplicateCandidates candidates)
  pure (candidates.map (·.taskID))

theorem quiet_checkDuplicates {principal : Principal} {force : Bool}
    {title project repository : String} :
    (checkDuplicates svc principal force title project repository).Quiet := by
  refine Call.quiet_bind (Call.quiet_look _) fun _ => ?_
  exact Call.quiet_lift_bind fun _ => Call.quiet_pure _

/-- `overriddenDuplicatesPayload`. -/
def overriddenDuplicatesPayload (ids : List String) : Payload :=
  if ids.isEmpty then [] else [("overridden_duplicates", .texts ids)]

/-- A walk along duplicate links, one query for each of at most `fuel` of them. -/
def resolveDuplicate (taskID : String) : Nat → String → TxM Task
  | 0, _ => Tx.fail (ErrValidation "duplicate links are too deep")
  | fuel + 1, id => do
      refuse (id = taskID) (ErrValidation "a task cannot be a duplicate of itself")
      let task ← Tx.selectOr fun db =>
        match db.task? id with
        | some task => .ok task
        | none => .error (ErrValidation "duplicate_of task not found")
      let next := task.duplicateOf.getD ""
      if next = "" then pure task else resolveDuplicate taskID fuel next

theorem each_resolveDuplicate (fuel : Nat) :
    (resolveDuplicate taskID fuel id).Each R := by
  induction fuel generalizing id with
  | zero => exact Tx.each_fail _
  | succ fuel ih =>
      refine Tx.each_lift_bind fun _ => ?_
      exact Tx.each_selectOr_bind fun _ => Tx.each_ite (Tx.each_pure _) ih

/-- One round of the loop. -/
theorem run_resolveDuplicate (taskID id : String) (fuel : Nat) (db : Db) :
    (resolveDuplicate taskID (fuel + 1) id).run db =
      if id = taskID then .error (ErrValidation "a task cannot be a duplicate of itself")
      else
        match db.task? id with
        | none => .error (ErrValidation "duplicate_of task not found")
        | some row =>
            if row.duplicateOf.getD "" = "" then .ok (row, db)
            else (resolveDuplicate taskID fuel (row.duplicateOf.getD "")).run db := by
  rw [resolveDuplicate, Tx.run_refuse_bind, Tx.run_selectOr_bind]
  cases db.task? id with
  | none => rfl
  | some row =>
      dsimp only
      congr 1
      split <;> rfl

theorem run_resolveDuplicate_ok :
    (resolveDuplicate taskID (fuel + 1) id).run db = .ok (task, db') ↔
      id ≠ taskID ∧ ∃ row, db.task? id = some row ∧
        ((row.duplicateOf.getD "" = "" ∧ task = row ∧ db' = db) ∨
          (row.duplicateOf.getD "" ≠ "" ∧
            (resolveDuplicate taskID fuel (row.duplicateOf.getD "")).run db = .ok (task, db'))) := by
  rw [run_resolveDuplicate]
  by_cases hself : id = taskID
  · simp [hself]
  · cases hrow : db.task? id with
    | none => simp [hself]
    | some row =>
        by_cases hroot : row.duplicateOf.getD "" = ""
        · simp only [if_neg hself, if_pos hroot, Option.some.injEq, Except.ok.injEq, Prod.mk.injEq]
          constructor
          · rintro ⟨rfl, rfl⟩
            exact ⟨hself, row, rfl, Or.inl ⟨hroot, rfl, rfl⟩⟩
          · rintro ⟨-, _, rfl, ⟨-, rfl, rfl⟩ | ⟨hlink, -⟩⟩
            · exact ⟨rfl, rfl⟩
            · exact absurd hroot hlink
        · simp [hself, hroot]

/-- The loop looks at tasks and at nothing else. -/
theorem resolveDuplicate_of_tasks {db1 : Db} (htasks : db1.tasks = db.tasks)
    (h : (resolveDuplicate taskID fuel id).run db1 = .ok (task, db1)) :
    (resolveDuplicate taskID fuel id).run db = .ok (task, db) := by
  induction fuel generalizing id with
  | zero => exact absurd h (by simp [resolveDuplicate, Tx.run])
  | succ fuel ih =>
      obtain ⟨hne, row, hrow, hrest⟩ := run_resolveDuplicate_ok.mp h
      refine run_resolveDuplicate_ok.mpr ⟨hne, row, ?_, ?_⟩
      · rw [← hrow, Db.task?, Db.task?, htasks]
      · exact hrest.imp (fun h => ⟨h.1, h.2.1, rfl⟩) fun h => ⟨h.1, ih h.2⟩

/-- The root is a task of its own with no link further on. -/
theorem resolveDuplicate_ok
    (h : (resolveDuplicate taskID fuel id).run db = .ok (task, db')) (hid : id ≠ "") :
    task ∈ db.tasks ∧ task.id ≠ taskID ∧ task.id ≠ "" ∧ task.duplicateOf.getD "" = "" := by
  induction fuel generalizing id with
  | zero => exact absurd h (by simp [resolveDuplicate, Tx.run])
  | succ fuel ih =>
      obtain ⟨hne, row, hrow, ⟨hroot, rfl, rfl⟩ | ⟨hlink, hrest⟩⟩ := run_resolveDuplicate_ok.mp h
      · obtain ⟨hmem, rfl⟩ := mem_of_task? hrow
        exact ⟨hmem, hne, hid, hroot⟩
      · exact ih hrest hlink

/-- `resolveDuplicateRoot`: the task that was kept. -/
def resolveDuplicateRoot (targetID taskID : String) : TxM Task :=
  resolveDuplicate taskID 20 targetID

/-- `duplicateClaimError`. -/
def duplicateClaimError (keptID : String) : ServiceError :=
  .validation "task is a duplicate of %s; claim that task instead" [keptID]

example : requirementPattern "runner:k8s-job".toList = true ∧
    requirementPattern "Runner".toList = false := by decide

end Taskboard
