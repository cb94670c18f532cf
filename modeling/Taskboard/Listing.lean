import Mathlib.Data.String.Basic
import Taskboard.Lib.Keyset
import Taskboard.Deletion

/-!
# Listing tasks

A listing goes through the tasks in one order (rank of the status, section, place, the latest
first, identifier) and in pages. The query behind a page selects by visibility, by the filters of
the request and by the key of the last row that was looked at; an agent's listing then leaves out
pickup work that the agent could not run, and fills the page from further queries until it is
full, the rows have run out or the budget of the call is spent.

* `clause_iff_canView`: the SQL clause that stands for `CanView`, and where the two part ways.
* `pages_list_each_task_once`: following the cursors lists what passes, each task once, in order.
-/

namespace Taskboard

variable {back front rows : List Task} {task : Task} {db : Db} {now : Instant}
  {statuses : List TaskStatus} {request : ListTasksRequest} {list : Lister}
  {visibility : Option TaskVisibility} {principal : Principal} {svc : Service}

structure ListTasksRequest where
  statuses : List String := []
  visibility : String := ""
  limit : Int := 0
  cursor : String := ""
  deriving DecidableEq

structure TaskPage where
  tasks : List TaskView
  nextCursor : String := ""
  deriving DecidableEq

/-- The full sort key of a listed task. -/
structure TaskCursor where
  rank : Int
  «section» : String
  sortOrder : Int
  updatedAt : Instant
  id : String
  deriving DecidableEq

/-- `TaskStatusRank`. -/
def TaskStatus.rank : TaskStatus → Int
  | .blocked => 0
  | .active => 1
  | .waiting => 2
  | .queued => 3
  | _ => 4

/-- The cursor of a row. -/
def Task.cursor (task : Task) : TaskCursor :=
  { rank := task.status.rank
    «section» := task.section
    sortOrder := task.sortOrder
    updatedAt := task.updatedAt
    id := task.id }

/-- What a listing takes from its surroundings: the order of texts in the database, the encoding
of cursors, which can be read back, and the number of rows that one call looks at. -/
structure Lister where
  maxListScan : Nat
  /-- `<` of SQL on two texts. -/
  textBefore : String → String → Bool
  textOrder : IsStrictTotalOrder String fun a b => textBefore a b = true
  /-- The base64 text of a cursor's JSON. -/
  encodeTaskCursor : TaskCursor → String
  /-- The cursor in a text, where there is one. -/
  parseCursor : String → Option TaskCursor
  encode_ne (cursor : TaskCursor) : encodeTaskCursor cursor ≠ ""
  parse_encode (cursor : TaskCursor) : parseCursor (encodeTaskCursor cursor) = some cursor

/-- The query behind a page. No visibility selects them all, and so do no statuses. -/
structure TaskQuery where
  statuses : List TaskStatus
  visibility : Option TaskVisibility
  limit : Nat
  after : Option TaskCursor := none

/-- The row of `b` comes behind the row of `a`, as `ORDER BY` sorts them and as the condition on
the cursor has it. -/
def TaskCursor.before (list : Lister) (svc : Service) (a b : TaskCursor) : Bool :=
  a.rank < b.rank || (a.rank = b.rank &&
    (list.textBefore a.section b.section || (a.section = b.section &&
      (a.sortOrder < b.sortOrder || (a.sortOrder = b.sortOrder &&
        (svc.before b.updatedAt a.updatedAt || (a.updatedAt = b.updatedAt &&
          list.textBefore a.id b.id)))))))

/-- The visibility clause that `ListVisibleTasks` picks for a viewer. -/
def visibilityClause (operator viewer : String) (agent : Bool) (task : Task) : Bool :=
  if agent && operator ≠ "" then
    task.visibility = .agent || task.visibility = .team ||
      (task.visibility = .private && task.createdBy = operator)
  else if agent then
    task.visibility = .agent ||
      (task.visibility = .team && (task.owner = "" || task.owner = viewer))
  else
    task.visibility = .team || task.visibility = .agent ||
      (task.visibility = .private && task.createdBy = viewer)

/-- The filters of the request. -/
def TaskQuery.matches (query : TaskQuery) (task : Task) : Bool :=
  query.visibility.all (fun visibility => task.visibility = visibility) &&
    (query.statuses.isEmpty || task.status ∈ query.statuses)

/-- What belongs to a row, read by one query each. -/
def loadView (svc : Service) (now : Instant) (task : Task) : CallM TaskView := do
  let items ← Call.look fun db => db.listItems task.id
  let runs ← Call.look fun db => svc.listRuns db task.id
  let dependencies ← Call.look fun db => svc.listTaskDependencies db task.id
  let deferred := svc.deferActive task.deferUntil now
  let requirements ← Call.look fun db => db.listTaskRequirements task.id
  let duplicateLink ← Call.lookOr fun db => db.duplicateLink task.id
  let duplicates ← Call.look fun db => svc.duplicatesOf db task.id
  pure
    { task with
      items, runs, dependencies, requirements, duplicateLink, duplicates, deferred
      ready := !deferred && dependencies.all (·.satisfied) }

/-- The rows of a page with what belongs to them, and their cursors. -/
def loadViews (svc : Service) (now : Instant) : List Task → CallM (List (TaskView × TaskCursor))
  | [] => pure []
  | task :: rest => do
      let view ← loadView svc now task
      let views ← loadViews svc now rest
      pure ((view, task.cursor) :: views)

/-- `listTasks`. -/
def listTasks (list : Lister) (svc : Service) (now : Instant) (query : TaskQuery)
    (clause : Task → Bool) : CallM (List (TaskView × TaskCursor)) := do
  let rows ← Call.look fun db =>
    (sortByKey (TaskCursor.before list svc) Task.cursor
      (db.tasks.filter fun task => clause task && query.matches task &&
        query.after.all fun after => after.before list svc task.cursor)).take query.limit
  loadViews svc now rows

/-- Where the loop of a listing stands. -/
structure Scan where
  tasks : List TaskView := []
  after : Option TaskCursor
  scanned : Nat := 0

/-- The inner loop of `listFor`, over the rows of one query of which there were `total`: the page
where it is full, or where the loop stands behind them. -/
def fillPage (list : Lister) (limit total : Nat) (skips : TaskView → Bool) :
    List (TaskView × TaskCursor) → Scan → TaskPage ⊕ Scan
  | [], scan => .inr scan
  | (item, cursor) :: rest, scan =>
      let scan := { scan with after := some cursor, scanned := scan.scanned + 1 }
      if skips item then fillPage list limit total skips rest scan
      else
        let tasks := scan.tasks ++ [item]
        if tasks.length = limit then
          .inl
            { tasks
              nextCursor := if rest ≠ [] ∨ total = limit then list.encodeTaskCursor cursor else "" }
        else fillPage list limit total skips rest { scan with tasks }

/-- The outer loop of `listFor`. A round that is followed by another one has scanned a row, so
that one round more than the budget has rows is never reached. -/
def fillRounds (list : Lister) (svc : Service) (now : Instant) (query : TaskQuery)
    (clause : Task → Bool) (skips : TaskView → Bool) : Nat → Scan → CallM TaskPage
  | 0, scan => pure { tasks := scan.tasks }
  | fuel + 1, scan => do
      let items ← listTasks list svc now { query with after := scan.after } clause
      match fillPage list query.limit items.length skips items scan with
      | .inl page => pure page
      | .inr scan =>
          if items.length < query.limit then pure { tasks := scan.tasks }
          else if list.maxListScan ≤ scan.scanned then
            pure { tasks := scan.tasks, nextCursor := scan.after.elim "" list.encodeTaskCursor }
          else fillRounds list svc now query clause skips fuel scan

/-- `decodeTaskCursor`. -/
def decodeTaskCursor (list : Lister) (value : String) :
    Except ServiceError (Option TaskCursor) :=
  if value = "" then .ok none
  else
    match list.parseCursor value with
    | some cursor =>
        if cursor.id = "" then .error (ErrValidation "invalid cursor") else .ok (some cursor)
    | none => .error (ErrValidation "invalid cursor")

/-- The statuses of a request. -/
def listedStatuses : List String → Except ServiceError (List TaskStatus)
  | [] => .ok []
  | status :: rest =>
      match TaskStatus.ofString? status with
      | some known => (listedStatuses rest).map (known :: ·)
      | none => .error (ServiceError.validation "unknown status %q" [status])

/-- The visibility of a request. -/
def listedVisibility (visibility : String) : Except ServiceError (Option TaskVisibility) :=
  if visibility = "" then .ok none
  else
    match TaskVisibility.ofString? visibility with
    | some known => .ok (some known)
    | none => .error (ServiceError.validation "unknown visibility %q" [visibility])

/-- The number of tasks on a page. -/
def pageLimit (limit : Int) : Nat :=
  if limit ≤ 0 ∨ 200 < limit then 100 else limit.toNat

/-- Pickup work that an agent's listing leaves out: the agent could not run it. -/
def skipsPickup (principal : Principal) (visibility : Option TaskVisibility)
    (capabilities : List String) (item : TaskView) : Bool :=
  principal.agent && (principal.operator = "" || visibility = some .agent) &&
    (item.status = .queued || item.status = .stale) &&
    !(item.ready && workerMatches item.requirements capabilities)

/-- What the agent advertises that it can do. -/
def advertisedCapabilities (principal : Principal) (now : Instant) (db : Db) : List String :=
  (db.getWorkerAdvertisement principal.id now).elim [] (·.capabilities)

/-- `listFor`. -/
def listFor (list : Lister) (svc : Service) (now : Instant) (request : ListTasksRequest)
    (principal : Principal) : CallM TaskPage := do
  refuse (!principal.can .taskRead) ErrForbidden
  let statuses ← listedStatuses request.statuses
  let visibility ← listedVisibility request.visibility
  let after ← decodeTaskCursor list request.cursor
  let capabilities ←
    if principal.agent then Call.look fun db => advertisedCapabilities principal now db
    else pure []
  fillRounds list svc now { statuses, visibility, limit := pageLimit request.limit }
    (visibilityClause principal.operator principal.id principal.agent)
    (skipsPickup principal visibility capabilities) (list.maxListScan + 1) { after }

section Visibility

/-- The agent works for the person who created the task. -/
def ActsForCreator (principal : Principal) (task : Task) : Prop :=
  ∃ person, principal.onBehalfOf = some person ∧ task.createdBy = person.id

/-- **The clause and `CanView`** let the same tasks through, but for the private tasks of a person
who is not the operator: an agent that works for that person may see them and is not shown them. -/
theorem clause_iff_canView (hread : principal.can .taskRead = true)
    (hcreated : task.createdBy ≠ "") :
    visibilityClause principal.operator principal.id principal.agent task = canView task principal ↔
      ¬ (principal.agent = true ∧ task.visibility = .private ∧ ActsForCreator principal task ∧
        task.createdBy ≠ principal.operator) := by
  unfold visibilityClause canView ActsForCreator
  cases hagent : principal.agent with
  | false => cases hvisibility : task.visibility <;> simp [hread, hcreated]
  | true =>
      by_cases hoperator : principal.operator = ""
      · cases hvisibility : task.visibility with
        | «private» => cases hperson : principal.onBehalfOf <;> simp [hread, hoperator, hcreated]
        | team => simp [hread, hoperator]
        | agent => simp [hread, hoperator]
      · cases hvisibility : task.visibility with
        | «private» =>
            by_cases hmine : task.createdBy = principal.operator
            · simp [hread, hoperator, hmine]
            · cases hperson : principal.onBehalfOf <;> simp [hread, hoperator, hcreated, hmine]
        | team => simp [hread, hoperator]
        | agent => simp [hread, hoperator]

end Visibility

/-- An agent that works for ann. -/
def annsAgent : Principal :=
  { sampleAgent "builder" with onBehalfOf := some (humanPrincipal "ann" .member).toIdentity }

/-- A person wrote down a task. -/
def loneBoard (visibility : String) : Db :=
  Op.run .ascii [.create (.numbered 1 10) { title := "Fix the login", visibility }
    (humanPrincipal "ann" .member)] {}

/-- A task for the team is listed to an agent that may see it. -/
theorem team_task_is_listed : (loneBoard "team").tasks.length = 1 ∧
    ∀ task ∈ (loneBoard "team").tasks, visibilityClause annsAgent.operator annsAgent.id
      annsAgent.agent task = canView task annsAgent := by
  have hread : annsAgent.can .taskRead = true := by decide +kernel
  have hcreated : ∀ task ∈ (loneBoard "team").tasks, task.createdBy ≠ "" := by decide +kernel
  have hteam : ∀ task ∈ (loneBoard "team").tasks, task.visibility ≠ .private := by decide +kernel
  refine ⟨by decide +kernel, fun task htask => ?_⟩
  exact (clause_iff_canView hread (hcreated task htask)).mpr fun h => hteam task htask h.2.1

/-- The private task of a person is not listed to an agent that works for them and may see it. -/
theorem private_task_is_not_listed : annsAgent.can .taskRead = true ∧
    (loneBoard "private").tasks.length = 1 ∧ ∀ task ∈ (loneBoard "private").tasks,
      task.createdBy ≠ "" ∧ visibilityClause annsAgent.operator annsAgent.id annsAgent.agent task =
        false ∧ canView task annsAgent = true := by decide +kernel


section Order

/-- The order of listings is a strict total order of the cursors. -/
theorem cursorOrder (list : Lister)
    (hbefore : IsStrictTotalOrder Instant fun a b => svc.before a b = true) :
    IsStrictTotalOrder TaskCursor fun a b => TaskCursor.before list svc a b = true := by
  have htext := list.textOrder
  have hlatest : IsStrictTotalOrder Instant (Function.swap fun a b => svc.before a b = true) :=
    inferInstance
  let key (cursor : TaskCursor) : Int × String × Int × Instant × String :=
    (cursor.rank, cursor.section, cursor.sortOrder, cursor.updatedAt, cursor.id)
  let text (a b : String) : Prop := list.textBefore a b = true
  let order := Prod.Lex ((· < ·) : Int → Int → Prop) (Prod.Lex text (Prod.Lex
    ((· < ·) : Int → Int → Prop) (Prod.Lex (Function.swap fun a b => svc.before a b = true) text)))
  have horder : IsStrictTotalOrder (Int × String × Int × Instant × String) order := inferInstance
  have hkey : Function.Injective key := by
    rintro ⟨_, _, _, _, _⟩ ⟨_, _, _, _, _⟩ h
    simpa [key] using h
  have hsame (a b : TaskCursor) :
      order (key a) (key b) ↔ TaskCursor.before list svc a b = true := by
    simp [order, key, text, Prod.lex_def, TaskCursor.before, Function.swap]
  exact RelEmbedding.isStrictTotalOrder ⟨⟨key, hkey⟩, fun {a b} => hsame a b⟩

end Order

section Pages

theorem exec_loadView (h : db.task? task.id = some task) :
    (loadView svc now task).exec db = (.ok (svc.view db now task), db) := by
  simp only [loadView, Call.exec_bind, Call.exec_look, Call.exec_lookOr, Call.exec_pure,
    duplicateLink_ok svc now h]
  rfl

theorem exec_loadViews (h : ∀ task ∈ rows, db.task? task.id = some task) :
    (loadViews svc now rows).exec db =
      (.ok (rows.map fun task => (svc.view db now task, task.cursor)), db) := by
  induction rows with
  | nil => rfl
  | cons task rest ih =>
      obtain ⟨htask, hrest⟩ := List.forall_mem_cons.mp h
      simp only [loadViews, Call.exec_bind, exec_loadView htask, ih hrest, Call.exec_pure,
        List.map_cons]

/-- The tasks that the query selects, whatever its cursor, in the order of listings. -/
def listedTasks (list : Lister) (svc : Service) (query : TaskQuery) (clause : Task → Bool)
    (db : Db) : List Task :=
  sortByKey (TaskCursor.before list svc) Task.cursor
    (db.tasks.filter fun task => clause task && query.matches task)

/-- The cursor of the last of some tasks. -/
def lastCursor (rows : List Task) : Option TaskCursor :=
  rows.getLast?.map Task.cursor

variable {query : TaskQuery} {clause : Task → Bool}

theorem mem_of_listed :
    task ∈ listedTasks list svc query clause db ↔
      task ∈ db.tasks ∧ clause task = true ∧ query.matches task = true := by
  rw [listedTasks, mem_sortByKey, List.mem_filter, Bool.and_eq_true]

theorem nodup_cursors (hunique : db.Unique) (p : Task → Bool) :
    ((db.tasks.filter p).map Task.cursor).Nodup := by
  have hids : ((db.tasks.filter p).map Task.id).Nodup :=
    hunique.sublist (List.filter_sublist.map Task.id)
  refine List.Nodup.of_map TaskCursor.id ?_
  rw [List.map_map]
  exact hids

/-- **The query behind a page** returns the tasks behind those that were looked at. -/
theorem exec_listTasks (hbefore : IsStrictTotalOrder Instant fun a b => svc.before a b = true)
    (hunique : db.Unique)
    (hrows : front ++ back = listedTasks list svc query clause db) :
    (listTasks list svc now { query with after := lastCursor front } clause).exec db =
      (.ok ((back.take query.limit).map fun task => (svc.view db now task, task.cursor)), db) := by
  have horder := cursorOrder list hbefore
  have hback : sortByKey (TaskCursor.before list svc) Task.cursor (db.tasks.filter fun task =>
      clause task && query.matches task &&
        (lastCursor front).all fun after => after.before list svc task.cursor) = back := by
    have hfilter : (db.tasks.filter fun task => clause task && query.matches task &&
        (lastCursor front).all fun after => after.before list svc task.cursor) =
        (db.tasks.filter fun task => clause task && query.matches task).filter fun task =>
          (lastCursor front).all fun after => after.before list svc task.cursor := by
      rw [List.filter_filter]
      exact List.filter_congr fun task _ => Bool.and_comm _ _
    have hsorted : (listedTasks list svc query clause db).Pairwise fun a b =>
        a.cursor.before list svc b.cursor = true := pairwise_sortByKey (nodup_cursors hunique _)
    rw [hfilter, sortByKey_filter (nodup_cursors hunique _)]
    change (listedTasks list svc query clause db).filter _ = back
    rw [← hrows]
    rcases List.eq_nil_or_concat' front with rfl | ⟨init, last, rfl⟩
    · simp [lastCursor]
    · have hlast : lastCursor (init ++ [last]) = some last.cursor := by simp [lastCursor]
      rw [← hrows, List.append_assoc] at hsorted
      rw [hlast, List.append_assoc]
      exact filter_behind hsorted
  have hfound : ∀ task ∈ back.take query.limit, db.task? task.id = some task := by
    intro task htask
    have hmem : task ∈ listedTasks list svc query clause db := by
      rw [← hrows]
      exact List.mem_append_right _ (List.mem_of_mem_take htask)
    exact hunique.task? (mem_of_listed.mp hmem).1
  simp only [listTasks, Call.exec_bind, Call.exec_look, TaskQuery.matches] at hback ⊢
  rw [hback]
  exact exec_loadViews hfound

/-- What a listing shows of a row. -/
def shown (svc : Service) (db : Db) (now : Instant) (skips : TaskView → Bool) (task : Task) :
    Option TaskView :=
  if skips (svc.view db now task) then none else some (svc.view db now task)

variable {limit total : Nat} {skips : TaskView → Bool}

/-- What the inner loop has done with the rows of a query: the page is full behind some of them,
or the loop has gone through them all. -/
def Filled (list : Lister) (limit total : Nat) (show? : Task → Option TaskView) (rows : List Task)
    (scan : Scan) : TaskPage ⊕ Scan → Prop
  | .inl page => ∃ seen rest, rows = seen ++ rest ∧ seen ≠ [] ∧
      page.tasks = scan.tasks ++ seen.filterMap show? ∧
      page.nextCursor = if rest ≠ [] ∨ total = limit then
        (lastCursor seen).elim "" list.encodeTaskCursor else ""
  | .inr later => later.tasks = scan.tasks ++ rows.filterMap show? ∧
      later.after = (lastCursor rows).or scan.after ∧
      later.scanned = scan.scanned + rows.length

theorem lastCursor_cons (h : rows ≠ []) :
    lastCursor (task :: rows) = lastCursor rows := by
  rw [lastCursor, List.getLast?_cons_of_ne_nil h, lastCursor]

/-- One row more at the front, behind which the loop stands as `mid` says. -/
theorem Filled.cons {show? : Task → Option TaskView}
    {scan mid : Scan} {result : TaskPage ⊕ Scan} (h : Filled list limit total show? rows mid result)
    (htasks : mid.tasks = scan.tasks ++ [task].filterMap show?)
    (hafter : mid.after = some task.cursor) (hscanned : mid.scanned = scan.scanned + 1) :
    Filled list limit total show? (task :: rows) scan result := by
  have happend (rows : List Task) : (task :: rows).filterMap show? =
      [task].filterMap show? ++ rows.filterMap show? := by
    rw [← List.filterMap_append, List.singleton_append]
  cases result with
  | inl page =>
      obtain ⟨seen, rest, rfl, hseen, hpage, hnext⟩ := h
      refine ⟨task :: seen, rest, rfl, List.cons_ne_nil _ _, ?_, ?_⟩
      · rw [hpage, htasks, List.append_assoc, ← happend]
      · rw [hnext, lastCursor_cons hseen]
  | inr later =>
      obtain ⟨hlater, hstands, hcount⟩ := h
      refine ⟨?_, ?_, ?_⟩
      · rw [hlater, htasks, List.append_assoc, ← happend]
      · rw [hstands, hafter]
        rcases eq_or_ne rows [] with rfl | hne
        · rfl
        · rw [lastCursor_cons hne]
          simp [lastCursor, List.getLast?_eq_some_getLast hne]
      · rw [hcount, hscanned, List.length_cons]
        omega

theorem fillPage_spec (rows : List Task) (scan : Scan) :
    Filled list limit total (shown svc db now skips) rows scan
      (fillPage list limit total skips
        (rows.map fun task => (svc.view db now task, task.cursor)) scan) := by
  induction rows generalizing scan with
  | nil => exact ⟨by simp, by simp [lastCursor], by simp⟩
  | cons task rows ih =>
      simp only [List.map_cons, fillPage]
      by_cases hskips : skips (svc.view db now task) = true
      · rw [if_pos hskips]
        exact (ih _).cons (by simp [shown, hskips]) rfl rfl
      · rw [if_neg hskips]
        split
        · refine ⟨[task], rows, rfl, List.cons_ne_nil _ _, by simp [shown, hskips], ?_⟩
          simp [lastCursor]
        · exact (ih _).cons (by simp [shown, hskips]) rfl rfl

theorem lastCursor_append (front : List Task) {seen : List Task} (h : seen ≠ []) :
    lastCursor (front ++ seen) = lastCursor seen := by
  rw [lastCursor, List.getLast?_append_of_ne_nil _ h, lastCursor]

theorem lastCursor_of_ne (h : rows ≠ []) :
    lastCursor rows = some (rows.getLast h).cursor := by
  rw [lastCursor, List.getLast?_eq_some_getLast h, Option.map_some]

/-- What a call has listed behind the tasks of `front`, on a page that showed `tasks` before. -/
def Lists (list : Lister) (show? : Task → Option TaskView) (front back : List Task)
    (tasks : List TaskView) (page : TaskPage) : Prop :=
  ∃ seen rest, back = seen ++ rest ∧ page.tasks = tasks ++ seen.filterMap show? ∧
    (page.nextCursor = "" ∧ rest = [] ∨ seen ≠ [] ∧ ∃ cursor,
      lastCursor (front ++ seen) = some cursor ∧ page.nextCursor = list.encodeTaskCursor cursor)

/-- A page that the inner loop filled from the first rows of `back`. -/
theorem lists_of_filled {show? : Task → Option TaskView} {scan : Scan} {page : TaskPage}
    (h : Filled list limit (back.take limit).length show? (back.take limit) scan (.inl page)) :
    Lists list show? front back scan.tasks page := by
  obtain ⟨seen, rest, htake, hseen, hpage, hnext⟩ := h
  refine ⟨seen, rest ++ back.drop limit, ?_, hpage, ?_⟩
  · rw [← List.append_assoc, ← htake, List.take_append_drop]
  · by_cases hmore : rest ≠ [] ∨ (back.take limit).length = limit
    · rw [if_pos hmore, lastCursor_of_ne hseen] at hnext
      exact Or.inr ⟨hseen, _, (lastCursor_append front hseen).trans (lastCursor_of_ne hseen), hnext⟩
    · obtain ⟨hrest, hshort⟩ := not_or.mp hmore
      rw [if_neg hmore] at hnext
      refine Or.inl ⟨hnext, ?_⟩
      rw [not_not.mp hrest, List.nil_append, List.drop_eq_nil_iff]
      rw [List.length_take] at hshort
      omega

/-- **The outer loop** lists the tasks behind its cursor, up to the one that its new cursor is
of, or all of them. -/
theorem fillRounds_spec (now : Instant) (skips : TaskView → Bool)
    (hbefore : IsStrictTotalOrder Instant fun a b => svc.before a b = true)
    (hunique : db.Unique) (hlimit : 0 < query.limit) (fuel : Nat) :
    ∀ (front back : List Task) (scan : Scan), front ++ back = listedTasks list svc query clause db →
      scan.after = lastCursor front → scan.scanned ≤ list.maxListScan →
      list.maxListScan < fuel + scan.scanned →
      ∃ page, (fillRounds list svc now query clause skips fuel scan).exec db = (.ok page, db) ∧
        Lists list (shown svc db now skips) front back scan.tasks page := by
  induction fuel with
  | zero =>
      intro front back scan _ _ hscanned hfuel
      omega
  | succ fuel ih =>
      intro front back scan hrows hafter hscanned hfuel
      have hitems : (listTasks list svc now { query with after := lastCursor front } clause).exec
          db = (.ok ((back.take query.limit).map fun task =>
            (svc.view db now task, task.cursor)), db) := exec_listTasks hbefore hunique hrows
      have hfilled : Filled list query.limit (back.take query.limit).length
          (shown svc db now skips) (back.take query.limit) scan _ := fillPage_spec _ scan
      simp only [fillRounds, Call.exec_bind, hafter, hitems, List.length_map]
      generalize fillPage list query.limit (back.take query.limit).length skips
        ((back.take query.limit).map fun task => (svc.view db now task, task.cursor)) scan =
        result at hfilled ⊢
      cases result with
      | inl page => exact ⟨page, rfl, lists_of_filled hfilled⟩
      | inr later =>
          obtain ⟨htasks, hstands, hcount⟩ := hfilled
          dsimp only
          by_cases hshort : (back.take query.limit).length < query.limit
          · rw [if_pos hshort]
            refine ⟨_, rfl, back, [], (List.append_nil _).symm, ?_, Or.inl ⟨rfl, rfl⟩⟩
            rw [List.length_take] at hshort
            rw [List.take_of_length_le (by omega)] at htasks
            exact htasks
          · have hfull : (back.take query.limit).length = query.limit := by
              have hle := List.length_take_le query.limit back
              omega
            have hne : back.take query.limit ≠ [] := by
              intro hnil
              rw [hnil] at hfull
              exact absurd hfull hlimit.ne
            have hlater : later.after = lastCursor (front ++ back.take query.limit) := by
              rw [hstands, lastCursor_append front hne, lastCursor_of_ne hne]
              rfl
            rw [if_neg hshort]
            by_cases hspent : list.maxListScan ≤ later.scanned
            · rw [if_pos hspent]
              have hlast := (lastCursor_append front hne).trans (lastCursor_of_ne hne)
              refine ⟨_, rfl, back.take query.limit, back.drop query.limit,
                (List.take_append_drop _ _).symm, htasks, Or.inr ⟨hne, _, hlast, ?_⟩⟩
              rw [hlater, hlast]
              rfl
            · rw [if_neg hspent]
              obtain ⟨page, hpage, seen, rest, hback, hshown, hnext⟩ :=
                ih (front ++ back.take query.limit) (back.drop query.limit) later
                  (by rw [List.append_assoc, List.take_append_drop, hrows]) hlater (by omega)
                  (by omega)
              refine ⟨page, hpage, back.take query.limit ++ seen, rest, ?_, ?_, ?_⟩
              · rw [List.append_assoc, ← hback, List.take_append_drop]
              · rw [hshown, htasks, List.filterMap_append, List.append_assoc]
              · refine hnext.imp_right fun ⟨_, cursor, hlast, hcursor⟩ => ?_
                rw [List.append_assoc] at hlast
                exact ⟨List.append_ne_nil_of_left_ne_nil hne _, cursor, hlast, hcursor⟩

/-- The cursor stands behind the tasks of `front`. -/
def StandsBehind (list : Lister) (front : List Task) (cursor : String) : Prop :=
  front = [] ∧ cursor = "" ∨
    ∃ last, lastCursor front = some last ∧ cursor = list.encodeTaskCursor last

theorem decodeTaskCursor_ok (hnamed : ∀ task ∈ db.tasks, task.id ≠ "")
    (hfront : ∀ task ∈ front, task ∈ db.tasks) {cursor : String}
    (h : StandsBehind list front cursor) :
    decodeTaskCursor list cursor = .ok (lastCursor front) := by
  rcases h with ⟨rfl, rfl⟩ | ⟨last, hlast, rfl⟩
  · rfl
  · obtain ⟨task, htask, rfl⟩ := Option.map_eq_some_iff.mp hlast
    have hid : task.cursor.id ≠ "" := hnamed task (hfront task (List.mem_of_getLast? htask))
    rw [decodeTaskCursor, if_neg (list.encode_ne _), list.parse_encode]
    simp only [if_neg hid, hlast]

theorem skipsPickup_person (h : principal.agent = false) (capabilities : List String) :
    skipsPickup principal visibility capabilities = fun _ => false := by
  funext item
  simp [skipsPickup, h]

/-- One page behind the tasks of `front`. -/
theorem exec_listFor (now : Instant)
    (hbefore : IsStrictTotalOrder Instant fun a b => svc.before a b = true)
    (hunique : db.Unique) (hnamed : ∀ task ∈ db.tasks, task.id ≠ "")
    (hread : principal.can .taskRead = true)
    (hstatuses : listedStatuses request.statuses = .ok statuses)
    (hvisibility : listedVisibility request.visibility = .ok visibility)
    (hrows : front ++ back = listedTasks list svc
      { statuses, visibility, limit := pageLimit request.limit }
      (visibilityClause principal.operator principal.id principal.agent) db)
    {cursor : String} (hcursor : StandsBehind list front cursor) :
    ∃ page, (listFor list svc now { request with cursor } principal).exec db = (.ok page, db) ∧
      Lists list (shown svc db now (skipsPickup principal visibility
        (advertisedCapabilities principal now db))) front back [] page := by
  have hfront : ∀ task ∈ front, task ∈ db.tasks := by
    intro task htask
    have hmem := hrows ▸ List.mem_append_left back htask
    exact (mem_of_listed.mp hmem).1
  have hlimit : 0 < pageLimit request.limit := by
    unfold pageLimit
    split <;> omega
  obtain ⟨page, hpage, hlists⟩ := fillRounds_spec now
    (skipsPickup principal visibility (advertisedCapabilities principal now db)) hbefore hunique
    hlimit (list.maxListScan + 1) front back { after := lastCursor front } hrows rfl
    (Nat.zero_le _) (Nat.lt_succ_self _)
  refine ⟨page, ?_, hlists⟩
  have hdecoded := decodeTaskCursor_ok hnamed hfront hcursor
  simp only [listFor, Call.exec_bind, Call.exec_lift, hread, hstatuses, hvisibility, hdecoded]
  cases hagent : principal.agent with
  | true =>
      rw [hagent] at hpage
      simpa [refuse, Call.exec_bind] using hpage
  | false =>
      rw [hagent, skipsPickup_person hagent] at hpage
      simpa [refuse, Call.exec_bind, skipsPickup_person hagent] using hpage

end Pages

/-- All pages of a listing, followed from the first one. -/
def listPages (list : Lister) (svc : Service) (now : Instant) (request : ListTasksRequest)
    (principal : Principal) (db : Db) (fuel : Nat) : Option (List TaskView) :=
  follow (fun cursor =>
    match ((listFor list svc now { request with cursor } principal).exec db).1 with
    | .ok page => some (page.tasks, if page.nextCursor = "" then none else some page.nextCursor)
    | .error _ => none) fuel ""

section Complete

/-- The tasks that a listing lists. -/
def offeredTasks (list : Lister) (svc : Service) (now : Instant) (query : TaskQuery)
    (principal : Principal) (db : Db) : List Task :=
  (listedTasks list svc query
    (visibilityClause principal.operator principal.id principal.agent) db).filter fun task =>
      !skipsPickup principal query.visibility (advertisedCapabilities principal now db)
        (svc.view db now task)

theorem filterMap_shown {skips : TaskView → Bool} (rows : List Task) :
    rows.filterMap (shown svc db now skips) =
      (rows.filter fun task => !skips (svc.view db now task)).map (svc.view db now) := by
  induction rows with
  | nil => rfl
  | cons task rows ih =>
      cases hskips : skips (svc.view db now task) <;> simp [shown, hskips, ih]

/-- Following the cursors from the first page on lists the tasks, with as many calls as there are
tasks and one. -/
theorem listPages_eq (hbefore : IsStrictTotalOrder Instant fun a b => svc.before a b = true)
    (hunique : db.Unique) (hnamed : ∀ task ∈ db.tasks, task.id ≠ "")
    (hread : principal.can .taskRead = true)
    (hstatuses : listedStatuses request.statuses = .ok statuses)
    (hvisibility : listedVisibility request.visibility = .ok visibility) {fuel : Nat}
    (hfuel : db.tasks.length < fuel) :
    listPages list svc now request principal db fuel =
      some ((offeredTasks list svc now { statuses, visibility, limit := pageLimit request.limit }
        principal db).map (svc.view db now)) := by
  rw [offeredTasks, ← filterMap_shown]
  refine follow_pages (StandsBehind list) ?_ fuel [] _ "" rfl (Or.inl ⟨rfl, rfl⟩) ?_
  · intro front back cursor hrows hcursor
    obtain ⟨page, hpage, seen, rest, hback, hshown, hnext⟩ := exec_listFor now hbefore hunique
      hnamed hread hstatuses hvisibility hrows hcursor
    refine ⟨page.tasks, if page.nextCursor = "" then none else some page.nextCursor, ?_, seen, rest,
      hback, hshown, ?_⟩
    · rw [hpage]
    · rcases hnext with ⟨hempty, hrest⟩ | ⟨hseen, last, hlast, hnext⟩
      · exact Or.inl ⟨if_pos hempty, hrest⟩
      · have hne : page.nextCursor ≠ "" := hnext ▸ list.encode_ne last
        exact Or.inr ⟨page.nextCursor, if_neg hne, hseen, Or.inr ⟨last, hlast, hnext⟩⟩
  · have hle : (listedTasks list svc { statuses, visibility, limit := pageLimit request.limit }
        (visibilityClause principal.operator principal.id principal.agent) db).length ≤
        db.tasks.length := by
      rw [listedTasks, (perm_sortByKey _).length_eq]
      exact List.length_filter_le _ _
    omega

theorem mem_offeredTasks {query : TaskQuery} :
    task ∈ offeredTasks list svc now query principal db ↔ task ∈ db.tasks ∧
      visibilityClause principal.operator principal.id principal.agent task = true ∧
      query.matches task = true ∧ skipsPickup principal query.visibility
        (advertisedCapabilities principal now db) (svc.view db now task) = false := by
  rw [offeredTasks, List.mem_filter, mem_of_listed, Bool.not_eq_true', and_assoc, and_assoc]

theorem pairwise_offeredTasks
    (hbefore : IsStrictTotalOrder Instant fun a b => svc.before a b = true) (hunique : db.Unique)
    {query : TaskQuery} :
    (offeredTasks list svc now query principal db).Pairwise fun a b =>
      a.cursor.before list svc b.cursor = true := by
  have horder := cursorOrder list hbefore
  exact (pairwise_sortByKey (nodup_cursors hunique _)).filter _

end Complete

/-- **Paging is complete.** Following the cursors of a listing from its first page on comes to an
end, and the pages together are the tasks that pass the clause, the filters and the pickup filter,
each once, in the order of listings. -/
theorem pages_list_each_task_once {list : Lister} {svc : Service}
    (hbefore : IsStrictTotalOrder Instant fun a b => svc.before a b = true) {db : Db}
    (hunique : db.Unique) (hnamed : ∀ task ∈ db.tasks, task.id ≠ "") {principal : Principal}
    (hread : principal.can .taskRead = true) {request : ListTasksRequest}
    {statuses : List TaskStatus} (hstatuses : listedStatuses request.statuses = .ok statuses)
    {visibility : Option TaskVisibility}
    (hvisibility : listedVisibility request.visibility = .ok visibility) (now : Instant) :
    ∃ tasks : List Task,
      (∀ fuel, db.tasks.length < fuel → listPages list svc now request principal db fuel =
        some (tasks.map (svc.view db now))) ∧
      tasks.Nodup ∧
      tasks.Pairwise (fun a b => a.cursor.before list svc b.cursor = true) ∧
      ∀ task, task ∈ tasks ↔ task ∈ db.tasks ∧
        visibilityClause principal.operator principal.id principal.agent task = true ∧
        (∀ wanted ∈ visibility, task.visibility = wanted) ∧
        (statuses = [] ∨ task.status ∈ statuses) ∧
        skipsPickup principal visibility (advertisedCapabilities principal now db)
          (svc.view db now task) = false := by
  have horder := cursorOrder list hbefore
  refine ⟨offeredTasks list svc now { statuses, visibility, limit := pageLimit request.limit }
    principal db, fun fuel => listPages_eq hbefore hunique hnamed hread hstatuses hvisibility, ?_,
    ?_, fun task => ?_⟩
  · refine (pairwise_offeredTasks hbefore hunique).imp ?_
    rintro task _ hlt rfl
    exact irrefl_of (fun a b => TaskCursor.before list svc a b = true) _ hlt
  · exact pairwise_offeredTasks hbefore hunique
  · rw [mem_offeredTasks]
    simp [TaskQuery.matches, and_assoc, Option.all_eq_true]

/-- A text, spelled so that its end can be found. -/
def spellText : List Char → List Char
  | [] => [';']
  | c :: rest => '.' :: c :: spellText rest

def readText : List Char → Option (List Char × List Char)
  | '.' :: c :: rest => (readText rest).map fun (text, rest) => (c :: text, rest)
  | ';' :: rest => some ([], rest)
  | _ => none

@[simp] theorem readText_spellText (text rest : List Char) :
    readText (spellText text ++ rest) = some (text, rest) := by
  induction text with
  | nil => rfl
  | cons c text ih => simp [spellText, readText, ih]

/-- A number, in strokes. -/
def spellInt (n : Int) : List Char :=
  (if n < 0 then '-' else '+') :: spellText (List.replicate n.natAbs '1')

def readInt : List Char → Option (Int × List Char)
  | sign :: rest => (readText rest).map fun (strokes, rest) =>
      (if sign = '-' then -(strokes.length : Int) else strokes.length, rest)
  | [] => none

@[simp] theorem readInt_spellInt (n : Int) (rest : List Char) :
    readInt (spellInt n ++ rest) = some (n, rest) := by
  by_cases hneg : n < 0
  · have habs : -(n.natAbs : Int) = n := by omega
    simp only [spellInt, readInt, if_pos hneg, List.cons_append, readText_spellText,
      Option.map_some, List.length_replicate, if_true, habs]
  · have habs : (n.natAbs : Int) = n := by omega
    have hplus : '+' ≠ '-' := by decide
    simp only [spellInt, readInt, if_neg hneg, List.cons_append, readText_spellText,
      Option.map_some, List.length_replicate, if_neg hplus, habs]

/-- The fields of a cursor, one behind the other. -/
def spellCursor (cursor : TaskCursor) : List Char :=
  spellInt cursor.rank ++ (spellText cursor.section.toList ++ (spellInt cursor.sortOrder ++
    (spellInt cursor.updatedAt ++ (spellText cursor.id.toList ++ []))))

def readCursor (text : List Char) : Option TaskCursor := do
  let (rank, text) ← readInt text
  let («section», text) ← readText text
  let (sortOrder, text) ← readInt text
  let (updatedAt, text) ← readInt text
  let (id, _) ← readText text
  pure { rank, «section» := String.ofList «section», sortOrder, updatedAt, id := String.ofList id }

theorem readCursor_spellCursor (cursor : TaskCursor) :
    readCursor (spellCursor cursor) = some cursor := by
  simp [readCursor, spellCursor, -List.append_nil]

/-- Texts in the order of their characters, and cursors that are spelled out. -/
def Lister.spelled (maxListScan : Nat) : Lister where
  maxListScan := maxListScan
  textBefore a b := a < b
  textOrder := isStrictTotalOrder_text
  encodeTaskCursor cursor := String.ofList (spellCursor cursor)
  parseCursor text := readCursor text.toList
  encode_ne cursor h := by simp [spellCursor, spellInt] at h
  parse_encode cursor := by simpa using readCursor_spellCursor cursor

/-- Two people wrote down a task each, for the team. -/
def pairBoard : Db :=
  Op.run .ascii
    [.create (.numbered 1 10) { title := "Fix the login", visibility := "team" }
      (humanPrincipal "ann" .member),
    .create (.numbered 2 20) { title := "Fix the logout", visibility := "team" }
      (humanPrincipal "bob" .member)] {}

theorem ascii_before_order :
    IsStrictTotalOrder Instant fun a b => Service.ascii.before a b = true := by
  simpa [Service.ascii] using (inferInstance : IsStrictTotalOrder Int (· < ·))

/-- Both tasks are listed to an agent, one on a page. -/
theorem both_tasks_are_listed :
    ∃ tasks : List Task,
      listPages (.spelled 1) .ascii 30 { limit := 1 } (sampleAgent "builder") pairBoard 3 =
        some (tasks.map (Service.ascii.view pairBoard 30)) ∧
      tasks.Nodup ∧ ∀ task, task ∈ tasks ↔ task ∈ pairBoard.tasks := by
  have hunique : pairBoard.Unique := by
    unfold Db.Unique
    decide +kernel
  have hnamed : ∀ task ∈ pairBoard.tasks, task.id ≠ "" := by decide +kernel
  have hoffered : ∀ task ∈ pairBoard.tasks, visibilityClause "" "builder" true task = true ∧
      skipsPickup (sampleAgent "builder") none
        (advertisedCapabilities (sampleAgent "builder") 30 pairBoard)
        (Service.ascii.view pairBoard 30 task) = false := by decide +kernel
  have hread : (sampleAgent "builder").can .taskRead = true := by decide +kernel
  obtain ⟨tasks, hpages, hnodup, -, hmem⟩ := pages_list_each_task_once ascii_before_order hunique
    hnamed hread (rfl : listedStatuses ({ limit := 1 } : ListTasksRequest).statuses = .ok [])
    (rfl : listedVisibility ({ limit := 1 } : ListTasksRequest).visibility = .ok none) 30
  refine ⟨tasks, hpages 3 (by decide +kernel), hnodup, fun task => ?_⟩
  rw [hmem]
  constructor
  · exact fun h => h.1
  · intro htask
    obtain ⟨hclause, hskips⟩ := hoffered task htask
    exact ⟨htask, hclause, by simp, Or.inl rfl, hskips⟩

end Taskboard
