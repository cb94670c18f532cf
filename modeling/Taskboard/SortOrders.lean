import Taskboard.Lib.Keyset
import Taskboard.Unseen

/-!
# The order of tasks in a section

Tasks stand in their section in the order of `sort_order`. A task that comes into a section goes
behind all others (`Db.nextSortOrder`), whichever way it comes; moving a task swaps it with the
open task next to it. So no two tasks of a section ever share a place (`Db.PlacesApart`), the task
next to another is the one that the query finds, and moving back undoes a move.
-/

namespace Taskboard

variable {later env : Env} {hash : Option Digest} {unmoved : Option Task}
  {current row neighbor : Task} {db db' : Db} {now : Instant} {request : MoveRequest}
  {principal : Principal} {svc : Service} {taskID : String}

variable {expected : Int} {direction : String} {task : Task} {u : Unit}

/-- The place of a task. -/
def Task.place (task : Task) : String × Int :=
  (task.section, task.sortOrder)

/-- No two tasks of a section stand in one place. -/
def Db.PlacesApart (db : Db) : Prop :=
  (db.tasks.map Task.place).Nodup

section Next

variable {«section» : String}

/-- The next place of a section is behind all of its tasks. -/
theorem lt_nextSortOrder (hmem : task ∈ db.tasks) :
    task.sortOrder < db.nextSortOrder task.section := by
  have hlisted : task.sortOrder ∈
      (db.tasks.filter fun other => other.section = task.section).map (·.sortOrder) :=
    List.mem_map_of_mem (List.mem_filter.mpr ⟨hmem, by simp⟩)
  unfold Db.nextSortOrder
  cases horders : (db.tasks.filter fun other => other.section = task.section).map (·.sortOrder) with
  | nil =>
      rw [horders] at hlisted
      cases hlisted
  | cons first rest =>
      rw [horders] at hlisted
      obtain ⟨hfirst, hrest⟩ := le_foldl_max rest first
      have hle : task.sortOrder ≤ rest.foldl max first := by
        rcases List.mem_cons.mp hlisted with hself | hother
        · exact hself ▸ hfirst
        · exact hrest _ hother
      show task.sortOrder < rest.foldl max first + 1024
      omega

theorem place_ne_next (hmem : task ∈ db.tasks) :
    task.place ≠ («section», db.nextSortOrder «section») := by
  intro hplace
  obtain ⟨rfl, horder⟩ := Prod.mk.inj hplace
  exact absurd horder (lt_nextSortOrder hmem).ne

/-- A task that comes in at the next place of its section. -/
theorem placesApart_append {tasks : List Task} (h : db.PlacesApart)
    (htasks : tasks.map Task.place = db.tasks.map Task.place)
    (hplace : task.place = (task.section, db.nextSortOrder task.section)) :
    ((tasks ++ [task]).map Task.place).Nodup := by
  rw [List.map_append, htasks, List.map_singleton, List.nodup_append]
  refine ⟨h, List.nodup_singleton _, ?_⟩
  intro place hold place' hnew hsame
  obtain ⟨other, hother, rfl⟩ := List.mem_map.mp hold
  rw [List.mem_singleton.mp hnew, hplace] at hsame
  exact place_ne_next hother hsame

end Next

section Steps

variable {actor : String}

theorem Db.PlacesApart.of_posts (h : db.PlacesApart)
    (hposts : db'.tasks.map Task.post = db.tasks.map Task.post) : db'.PlacesApart := by
  have hplaces (tasks : List Task) : tasks.map Task.place =
      (tasks.map Task.post).map fun post => (post.2.1, post.2.2.1) := by
    rw [List.map_map]
    rfl
  rw [Db.PlacesApart, hplaces, hposts, ← hplaces]
  exact h

theorem Db.PlacesApart.of_tasks (h : db.PlacesApart) (htasks : db'.tasks = db.tasks) :
    db'.PlacesApart :=
  h.of_posts (congrArg (List.map Task.post) htasks)

theorem placesApart_startTx {item : NewTask} {request : StartRequest}
    {overridden : List String} (h : db.PlacesApart)
    (hrun : (startTx svc env item request actor hash overridden).run db = .ok (u, db')) :
    db'.PlacesApart := by
  simp only [startTx, insertTask, Tx.run_select_bind_ok, Table.run_insert_bind_ok, taskTable] at hrun
  obtain ⟨-, -, hrun⟩ := hrun
  obtain ⟨_, db1, hitems, hrun⟩ := Tx.run_bind_ok.mp hrun
  obtain ⟨_, rfl⟩ := (onItems_insertItems _).run hitems
  obtain ⟨_, db2, hopen, hrun⟩ := Tx.run_bind_ok.mp hrun
  obtain ⟨_, _, -, -, _, _, rfl⟩ := insertAgentRun_ok hopen
  obtain ⟨-, -, rfl⟩ := run_insertEvent_ok.mp hrun
  exact placesApart_append h rfl rfl

theorem placesApart_insertQueuedTask {newID : Nat → String} {queued : QueuedTask}
    (h : db.PlacesApart) (hrun : (insertQueuedTask newID queued now).run db = .ok (u, db')) :
    db'.PlacesApart := by
  simp only [insertQueuedTask, insertTask, Tx.run_select_bind_ok, Table.run_insert_bind_ok,
    taskTable] at hrun
  obtain ⟨-, -, hrun⟩ := hrun
  obtain ⟨_, db1, hitems, hrun⟩ := Tx.run_bind_ok.mp hrun
  obtain ⟨_, rfl⟩ := (onItems_insertItems _).run hitems
  obtain ⟨_, db2, hrequirements, hrun⟩ := Tx.run_bind_ok.mp hrun
  obtain ⟨_, _, _, rfl⟩ := (beside_insertRequirements _).run hrequirements
  obtain ⟨-, -, rfl⟩ := run_insertEvent_ok.mp hrun
  exact placesApart_append h rfl rfl

theorem placesApart_createRecurrence (h : db.PlacesApart)
    (hrun : (createRecurrence svc env taskID actor current row).run db = .ok (u, db')) :
    db'.PlacesApart := by
  have hrows := createRecurrence_tasks hrun
  split at hrows
  · obtain ⟨due, -, -, htasks⟩ := hrows
    rw [Db.PlacesApart, htasks]
    exact placesApart_append h rfl rfl
  · rw [hrows]
    exact h

/-- The row that the general update writes stays where it is, or goes behind the tasks of its new
section. -/
theorem placesApart_written (h : db.PlacesApart) (hmem : current ∈ db.tasks)
    (hhit : bumps taskID expected (fun _ => true) current = true)
    (hone : (db.tasks.filter (bumps taskID expected fun _ => true)).length = 1)
    (hplace : row.place = current.place ∨
      row.place = (row.section, db.nextSortOrder row.section)) :
    ((mapWhere (bumps taskID expected fun _ => true) (·.rewritten row) db.tasks).map
      Task.place).Nodup := by
  have hinj {a b : Task} (ha : a ∈ db.tasks) (hb : b ∈ db.tasks) (hsame : a.place = b.place) :
      a = b := List.inj_on_of_nodup_map h ha hb hsame
  have hcurrent {task : Task} (htask : task ∈ db.tasks)
      (hit : bumps taskID expected (fun _ => true) task = true) : task = current :=
    eq_of_filter_length_one hone htask hit hmem hhit
  -- A row that is not written is not in the place of the row that is.
  have hapart {task : Task} (htask : task ∈ db.tasks)
      (hmiss : ¬ bumps taskID expected (fun _ => true) task = true) : row.place ≠ task.place := by
    intro hsame
    rcases hplace with hstay | hnext
    · exact hmiss (hinj hmem htask (hstay.symm.trans hsame) ▸ hhit)
    · exact place_ne_next htask (hsame.symm.trans hnext)
  rw [mapWhere, List.map_map]
  refine List.Nodup.map_on ?_ (List.Nodup.of_map Task.place h)
  intro a ha b hb hsame
  simp only [Function.comp_apply] at hsame
  by_cases hita : bumps taskID expected (fun _ => true) a = true
  · by_cases hitb : bumps taskID expected (fun _ => true) b = true
    · rw [hcurrent ha hita, hcurrent hb hitb]
    · rw [if_pos hita, if_neg hitb] at hsame
      exact absurd hsame (hapart hb hitb)
  · by_cases hitb : bumps taskID expected (fun _ => true) b = true
    · rw [if_neg hita, if_pos hitb] at hsame
      exact absurd hsame.symm (hapart ha hita)
    · rw [if_neg hita, if_neg hitb] at hsame
      exact hinj ha hb hsame

theorem post_relinked (taskID : String) (kept : Option Task) (unlinks : Bool) (task : Task) :
    (task.relinked taskID kept unlinks).post = task.post := by
  obtain ⟨_, hlink⟩ := task.relinked_spec taskID kept unlinks
  rw [hlink]
  rfl

/-- **The general update** keeps the places of a section apart. -/
theorem placesApart_updateTx {update : TaskUpdate} {status : TaskStatus} (h : db.PlacesApart)
    (hrun : (updateTx svc env taskID update actor hash).run db = .ok (status, db')) :
    db'.PlacesApart := by
  obtain ⟨current, kept, active, row, linked, defaulted, moved, recurring, hcurrent, hversion,
    hactive, hrow, hone, hlink, hdefault, hrecur, htasks, -⟩ := updateTx_steps hrun
  obtain ⟨_, rfl⟩ := hactive
  obtain ⟨hmem, hid⟩ := mem_of_task? hcurrent
  have hhit : bumps taskID update.expectedVersion (fun _ => true) current = true := by
    simp [bumps, hid, hversion]
  have hplace : row.place = current.place ∨
      row.place = (row.section, db.nextSortOrder row.section) := by
    by_cases hsection : update.section.getD current.section = current.section
    · left
      rw [hrow, if_neg (not_not.mpr hsection)]
      exact Prod.ext hsection rfl
    · right
      rw [hrow, if_pos hsection]
      rfl
  obtain ⟨_, _, -, -, rfl⟩ := linkDuplicate_ok hlink
  obtain ⟨_, _, _, rfl⟩ := beside_defaultOnMove.run hdefault
  refine Db.PlacesApart.of_tasks (placesApart_createRecurrence ?_ hrecur) htasks
  have hwritten := placesApart_written h hmem hhit hone hplace
  rw [Db.PlacesApart, List.map_map]
  have hsame : Task.place ∘ Task.relinked taskID kept (update.unlinks current.status row.status) =
      Task.place := by
    funext task
    have hpost := post_relinked taskID kept (update.unlinks current.status row.status) task
    simp only [Task.post, Prod.mk.injEq] at hpost
    exact Prod.ext hpost.2.1 hpost.2.2.1
  rw [hsame]
  exact hwritten

end Steps

/-! ## Moving -/

/-- How far along a task stands in a direction. -/
def Task.rank (down : Bool) (task : Task) : Int :=
  if down then task.sortOrder else -task.sortOrder

/-- An open task of the section that stands further along than `current`. -/
structure Task.Ahead (down : Bool) (current task : Task) : Prop where
  «section» : task.section = current.section
  other : task.id ≠ current.id
  «open» : task.status.terminal = false
  further : current.rank down < task.rank down

section Neighbors

variable {down : Bool}

theorem Task.rank_inj {a b : Task} (h : a.rank down = b.rank down) : a.sortOrder = b.sortOrder := by
  cases down with
  | true => exact h
  | false => exact Int.neg_inj.mp h

theorem mem_ahead :
    (task ∈ db.tasks.filter fun task =>
      task.section = current.section && task.id ≠ current.id && !task.status.terminal &&
        if down then current.sortOrder < task.sortOrder else task.sortOrder < current.sortOrder) ↔
      task ∈ db.tasks ∧ current.Ahead down task := by
  have hfurther : (if down then decide (current.sortOrder < task.sortOrder)
      else decide (task.sortOrder < current.sortOrder)) = true ↔
      current.rank down < task.rank down := by
    cases down with
    | true => exact decide_eq_true_iff
    | false => simp [Task.rank]
  rw [List.mem_filter]
  simp only [Bool.and_eq_true, decide_eq_true_eq, Bool.not_eq_true', hfurther]
  constructor
  · rintro ⟨hmem, ⟨⟨hsection, hother⟩, hopen⟩, hahead⟩
    exact ⟨hmem, hsection, hother, hopen, hahead⟩
  · rintro ⟨hmem, hsection, hother, hopen, hahead⟩
    exact ⟨hmem, ⟨⟨hsection, hother⟩, hopen⟩, hahead⟩

/-- **The neighbour** that the query finds is the nearest open task in the direction. -/
theorem neighbor_eq_some_iff (h : db.PlacesApart) :
    svc.neighbor db current down = some neighbor ↔
      neighbor ∈ db.tasks ∧ current.Ahead down neighbor ∧
        ∀ other ∈ db.tasks, current.Ahead down other → neighbor.rank down ≤ other.rank down := by
  set others := db.tasks.filter fun task =>
    task.section = current.section && task.id ≠ current.id && !task.status.terminal &&
      if down then current.sortOrder < task.sortOrder else task.sortOrder < current.sortOrder
    with hothers
  have hmem (task : Task) : task ∈ others ↔ task ∈ db.tasks ∧ current.Ahead down task := mem_ahead
  have hinj : ∀ a ∈ others, ∀ b ∈ others, a.sortOrder = b.sortOrder → a = b := by
    intro a ha b hb horder
    have hsection : a.section = b.section := by
      rw [((hmem a).mp ha).2.section, ((hmem b).mp hb).2.section]
    exact List.inj_on_of_nodup_map h ((hmem a).mp ha).1 ((hmem b).mp hb).1
      (Prod.ext hsection horder)
  have hnodup : others.Nodup := (List.Nodup.of_map Task.place h).filter _
  have hkeys : (others.map (Task.rank down)).Nodup :=
    hnodup.map_on fun a ha b hb hrank => hinj a ha b hb (Task.rank_inj hrank)
  -- Where two tasks stand in different places, the times of their updates do not matter.
  have hplaces : others.Pairwise fun a b =>
      (if down then
        decide (b.sortOrder < a.sortOrder) ||
          (decide (b.sortOrder = a.sortOrder) && svc.before b.updatedAt a.updatedAt)
      else
        decide (a.sortOrder < b.sortOrder) ||
          (decide (a.sortOrder = b.sortOrder) && svc.before a.updatedAt b.updatedAt)) = false ↔
        a.rank down < b.rank down := by
    refine hnodup.pairwise_of_forall_ne fun a ha b hb hne => ?_
    have horder : a.sortOrder ≠ b.sortOrder := fun hsame => hne (hinj a ha b hb hsame)
    cases down with
    | true =>
        simp only [if_true, horder.symm, decide_false, Bool.false_and, Bool.or_false,
          decide_eq_false_iff_not, Task.rank]
        omega
    | false =>
        simp only [Bool.false_eq_true, if_false, horder, decide_false, Bool.false_and,
          Bool.or_false, decide_eq_false_iff_not, Task.rank]
        omega
  have hhead : svc.neighbor db current down = some neighbor ↔ _ :=
    head?_insertionSort_iff hplaces hkeys
  simp only [hhead, hmem, and_assoc, and_imp]

end Neighbors

/-- A task after `current` and `neighbor` have changed places. -/
def Task.swapped (current neighbor : Task) (now : Instant) (task : Task) : Task :=
  if task.id = current.id then
    { task with sortOrder := neighbor.sortOrder, version := task.version + 1, updatedAt := now }
  else if task.id = neighbor.id then
    { task with sortOrder := current.sortOrder, updatedAt := now }
  else task

/-- Two open tasks of a section with no open task of it between them. -/
structure Db.Adjacent (db : Db) (a b : Task) : Prop where
  left : a ∈ db.tasks
  right : b ∈ db.tasks
  apart : a.id ≠ b.id
  «section» : a.section = b.section
  leftOpen : a.status.terminal = false
  rightOpen : b.status.terminal = false
  between : ∀ task ∈ db.tasks, task.section = a.section → task.status.terminal = false →
    ¬ (a.sortOrder < task.sortOrder ∧ task.sortOrder < b.sortOrder) ∧
      ¬ (b.sortOrder < task.sortOrder ∧ task.sortOrder < a.sortOrder)

section Swap

theorem adjacent_neighbor {down : Bool} (hapart : db.PlacesApart) (hunique : db.Unique)
    (hcurrent : current ∈ db.tasks) (hopen : current.status.terminal = false)
    (h : svc.neighbor db current down = some neighbor) : db.Adjacent current neighbor := by
  obtain ⟨hmem, hahead, hnearest⟩ := (neighbor_eq_some_iff hapart).mp h
  refine ⟨hcurrent, hmem, hahead.other.symm, hahead.section.symm, hopen, hahead.open, ?_⟩
  intro task htask hsection htaskOpen
  have hnear (hfurther : current.rank down < task.rank down) :
      neighbor.rank down ≤ task.rank down := by
    refine hnearest task htask ⟨hsection, ?_, htaskOpen, hfurther⟩
    intro hid
    rw [hunique.eq_of_id htask hcurrent hid] at hfurther
    exact absurd hfurther (lt_irrefl _)
  have hfar := hahead.further
  cases down with
  | true =>
      simp only [Task.rank, if_true] at hnear hfar
      omega
  | false =>
      simp only [Task.rank, Bool.false_eq_true, if_false] at hnear hfar
      omega

@[simp] theorem Task.swapped_id (task : Task) : (Task.swapped current neighbor now task).id = task.id := by
  unfold Task.swapped
  split
  · rfl
  · split <;> rfl

@[simp] theorem Task.swapped_section (task : Task) :
    (Task.swapped current neighbor now task).section = task.section := by
  unfold Task.swapped
  split
  · rfl
  · split <;> rfl

@[simp] theorem Task.swapped_status (task : Task) :
    (Task.swapped current neighbor now task).status = task.status := by
  unfold Task.swapped
  split
  · rfl
  · split <;> rfl

theorem Task.swapped_sortOrder (task : Task) : (Task.swapped current neighbor now task).sortOrder =
    if task.id = current.id then neighbor.sortOrder
    else if task.id = neighbor.id then current.sortOrder else task.sortOrder := by
  unfold Task.swapped
  split
  · rfl
  · split <;> rfl

/-- The transaction that finds a neighbour swaps the two. -/
theorem moveTx_swaps (hunique : db.Unique) (hload : db.task? taskID = some current)
    (hneighbor : svc.neighbor db current (direction = "down") = some neighbor)
    (h : (moveTx svc env taskID direction expected actor).run db = .ok (unmoved, db')) :
    current.version = expected ∧ current.status.terminal = false ∧
      db'.tasks = db.tasks.map (Task.swapped current neighbor env.now) := by
  simp only [moveTx, run_loadTask_bind_ok, Tx.run_refuse_bind_ok, Tx.run_select_bind_ok] at h
  obtain ⟨loaded, hloaded, hversion, hopen, h⟩ := h
  obtain rfl := Option.some_inj.mp (hload.symm.trans hloaded)
  simp only [hneighbor] at h
  obtain ⟨_, _, hfirst, h⟩ := Tx.run_bind_ok.mp h
  obtain ⟨-, rfl⟩ := Table.run_updateWhere_ok.mp hfirst
  obtain ⟨_, _, hsecond, h⟩ := Tx.run_bind_ok.mp h
  obtain ⟨-, rfl⟩ := run_bumpTask_ok.mp (run_oneRow_ok.mp hsecond)
  obtain ⟨_, _, hevent, h⟩ := Tx.run_bind_ok.mp h
  obtain ⟨-, -, rfl⟩ := run_insertEvent_ok.mp hevent
  obtain ⟨_, _, hevent', h⟩ := Tx.run_bind_ok.mp h
  obtain ⟨-, -, rfl⟩ := run_insertEvent_ok.mp hevent'
  obtain ⟨-, rfl⟩ := Tx.run_pure_ok.mp h
  refine ⟨not_not.mp hversion, Bool.eq_false_iff.mpr hopen, ?_⟩
  show mapWhere _ _ (mapWhere _ _ db.tasks) = _
  unfold mapWhere
  rw [List.map_map]
  apply List.map_congr_left
  intro task htask
  obtain ⟨hmem, rfl⟩ := mem_of_task? hload
  have hother : neighbor.id ≠ current.id := (mem_of_neighbor hneighbor).2.1
  simp only [Function.comp_apply, Task.swapped, decide_eq_true_eq]
  by_cases hself : task.id = current.id
  · obtain rfl := hunique.eq_of_id htask hmem hself
    simp [hother.symm, bumps, not_not.mp hversion]
  · by_cases hnear : task.id = neighbor.id
    · simp [hnear, bumps, hother]
    · simp [hself, hnear, bumps]

/-- The task in whose place a task stands after the swap. -/
def Task.standsFor (current neighbor task : Task) : Task :=
  if task.id = current.id then neighbor else if task.id = neighbor.id then current else task

theorem place_swapped (hunique : db.Unique) (hadjacent : db.Adjacent current neighbor)
    (htask : task ∈ db.tasks) : (Task.swapped current neighbor now task).place =
      (Task.standsFor current neighbor task).place := by
  refine Prod.ext ?_ ?_
  · show (Task.swapped current neighbor now task).section = _
    rw [Task.swapped_section]
    unfold Task.standsFor Task.place
    split
    · rename_i hself
      rw [hunique.eq_of_id htask hadjacent.left hself]
      exact hadjacent.section
    · split
      · rename_i hnear
        rw [hunique.eq_of_id htask hadjacent.right hnear]
        exact hadjacent.section.symm
      · rfl
  · show (Task.swapped current neighbor now task).sortOrder = _
    rw [Task.swapped_sortOrder]
    unfold Task.standsFor Task.place
    split
    · rfl
    · split <;> rfl

theorem Task.standsFor_mem (hadjacent : db.Adjacent current neighbor)
    (htask : task ∈ db.tasks) : Task.standsFor current neighbor task ∈ db.tasks := by
  unfold Task.standsFor
  split
  · exact hadjacent.right
  · split
    · exact hadjacent.left
    · exact htask

/-- Standing for one another is its own inverse. -/
theorem Task.standsFor_standsFor (hunique : db.Unique) (hadjacent : db.Adjacent current neighbor)
    (htask : task ∈ db.tasks) :
    Task.standsFor current neighbor (Task.standsFor current neighbor task) = task := by
  by_cases hself : task.id = current.id
  · obtain rfl := hunique.eq_of_id htask hadjacent.left hself
    simp [Task.standsFor, hadjacent.apart.symm]
  · by_cases hnear : task.id = neighbor.id
    · obtain rfl := hunique.eq_of_id htask hadjacent.right hnear
      simp [Task.standsFor, hself]
    · simp [Task.standsFor, hself, hnear]

/-- **A swap** keeps the places of a section apart. -/
theorem placesApart_swap (hapart : db.PlacesApart) (hunique : db.Unique)
    (hadjacent : db.Adjacent current neighbor)
    (h : db'.tasks = db.tasks.map (Task.swapped current neighbor now)) : db'.PlacesApart := by
  rw [Db.PlacesApart, h, List.map_map]
  refine List.Nodup.map_on ?_ (List.Nodup.of_map Task.place hapart)
  intro a ha b hb hsame
  simp only [Function.comp_apply, place_swapped hunique hadjacent ha,
    place_swapped hunique hadjacent hb] at hsame
  have hstands : Task.standsFor current neighbor a = Task.standsFor current neighbor b :=
    List.inj_on_of_nodup_map hapart (Task.standsFor_mem hadjacent ha)
      (Task.standsFor_mem hadjacent hb) hsame
  rw [← Task.standsFor_standsFor hunique hadjacent ha, hstands,
    Task.standsFor_standsFor hunique hadjacent hb]

theorem unique_swap (hunique : db.Unique)
    (h : db'.tasks = db.tasks.map (Task.swapped current neighbor now)) : db'.Unique := by
  have hids : Task.id ∘ Task.swapped current neighbor now = Task.id := by
    funext task
    exact Task.swapped_id task
  rw [Db.Unique, h, List.map_map, hids]
  exact hunique

/-- The neighbour in the other direction, once the two are swapped. -/
theorem neighbor_swap {down : Bool} (hapart : db.PlacesApart) (hunique : db.Unique)
    (hcurrent : current ∈ db.tasks) (hopen : current.status.terminal = false)
    (hneighbor : svc.neighbor db current down = some neighbor)
    (h : db'.tasks = db.tasks.map (Task.swapped current neighbor now)) :
    svc.neighbor db' (Task.swapped current neighbor now current) (!down) =
      some (Task.swapped current neighbor now neighbor) := by
  have hadjacent := adjacent_neighbor hapart hunique hcurrent hopen hneighbor
  obtain ⟨hmem, hahead, hnearest⟩ := (neighbor_eq_some_iff hapart).mp hneighbor
  rw [neighbor_eq_some_iff (placesApart_swap hapart hunique hadjacent h), h]
  have hself : (Task.swapped current neighbor now current).sortOrder = neighbor.sortOrder := by
    simp [Task.swapped_sortOrder]
  have hnear : (Task.swapped current neighbor now neighbor).sortOrder = current.sortOrder := by
    simp [Task.swapped_sortOrder, hadjacent.apart.symm]
  have hfar := hahead.further
  refine ⟨List.mem_map_of_mem hmem, ⟨?_, ?_, ?_, ?_⟩, ?_⟩
  · simpa using hahead.section
  · simpa using hahead.other
  · simpa using hahead.open
  · simp only [Task.rank, hself, hnear] at hfar ⊢
    cases down <;> simp at hfar ⊢ <;> omega
  · intro other' hother' hahead'
    obtain ⟨other, hother, rfl⟩ := List.mem_map.mp hother'
    have hdifferent : other.id ≠ current.id := by simpa using hahead'.other
    by_cases hid : other.id = neighbor.id
    · rw [hunique.eq_of_id hother hmem hid]
    · have hplace : (Task.swapped current neighbor now other).sortOrder = other.sortOrder := by
        simp [Task.swapped_sortOrder, hdifferent, hid]
      have hbeyond := hahead'.further
      have hclose (hlt : current.rank down < other.rank down) :
          neighbor.rank down ≤ other.rank down :=
        hnearest other hother ⟨by simpa using hahead'.section, hdifferent, by
          simpa using hahead'.open, hlt⟩
      simp only [Task.rank, hself, hnear, hplace] at hfar hbeyond hclose ⊢
      cases down <;> simp at hfar hbeyond hclose ⊢ <;> omega

end Swap

section Runs

theorem atMost_moveFor :
    (moveFor svc env taskID request principal).AtMost fun db db' => ∃ unmoved,
      (moveTx svc env (trimSpace taskID) (svc.unicode.lower (trimSpace request.direction))
        request.expectedVersion principal.id).run db = .ok (unmoved, db') := by
  refine Call.atMost_lift_bind fun _ _ => ?_
  refine Call.atMost_bind_quiet quiet_checkEditor fun _ => ?_
  refine Call.atMost_lift_bind fun _ _ => ?_
  refine Call.atMost_then_quiet (Call.atMost_tx _) fun unmoved => ?_
  cases unmoved with
  | some task => exact Call.quiet_pure _
  | none => exact Call.quiet_bind quiet_getTask fun _ => Call.quiet_pure _

theorem placesApart_moveTx (hunique : db.Unique) (hapart : db.PlacesApart)
    (h : (moveTx svc env taskID direction expected actor).run db = .ok (unmoved, db')) :
    db'.PlacesApart := by
  obtain ⟨current, hload, ⟨-, rfl⟩ | ⟨neighbor, hneighbor, -⟩⟩ := moveTx_ok h
  · exact hapart
  · obtain ⟨-, hopen, htasks⟩ := moveTx_swaps hunique hload hneighbor h
    have hadjacent := adjacent_neighbor hapart hunique (mem_of_task? hload).1 hopen hneighbor
    exact placesApart_swap hapart hunique hadjacent htasks

/-- **One operation** keeps the places of every section apart. -/
theorem placesApart_step (op : Op) (db : Db) (hunique : db.Unique) (h : db.PlacesApart) :
    (op.step svc db).PlacesApart := by
  by_cases hposts : Ledger.posts ∈ op.ledgers
  · cases op with
    | start env request principal =>
        rcases Call.atMost_then_quiet atMost_startFor (fun _ => Call.quiet_pure _) db with
          hsame | ⟨_, _, _, _, _, _, hrun⟩
        · exact h.of_tasks (congrArg Db.tasks hsame)
        · exact placesApart_startTx h hrun
    | create env request principal =>
        rcases Call.atMost_then_quiet atMost_createFor (fun _ => Call.quiet_pure _) db with
          hsame | ⟨_, _, hrun⟩
        · exact h.of_tasks (congrArg Db.tasks hsame)
        · exact placesApart_insertQueuedTask h hrun
    | fireSchedule env schedule scheduledFor runBy =>
        rcases Call.atMost_then_quiet atMost_fireSchedule (fun _ => Call.quiet_pure _) db with
          hsame | ⟨_, _, hrun⟩
        · exact h.of_tasks (congrArg Db.tasks hsame)
        · exact placesApart_insertQueuedTask h hrun
    | update env taskID request principal =>
        rcases Call.atMost_then_quiet atMost_updateFor (fun _ => Call.quiet_pure _) db with
          hsame | ⟨_, _, _, _, -, hrun, hafter⟩
        · exact h.of_tasks (congrArg Db.tasks hsame)
        · exact (placesApart_updateTx h hrun).of_posts (hafter.samePosts (by simp))
    | move env taskID request principal =>
        rcases Call.atMost_then_quiet atMost_moveFor (fun _ => Call.quiet_pure _) db with
          hsame | ⟨_, hrun⟩
        · exact h.of_tasks (congrArg Db.tasks hsame)
        · exact placesApart_moveTx hunique h hrun
    | _ => simp [Op.ledgers] at hposts
  · exact h.of_posts ((loose_step op db).samePosts hposts)

theorem placesApart_deletes (hdeletes : Deletes db db') (h : db.PlacesApart) :
    db'.PlacesApart := by
  obtain ⟨gone, sessions, rfl⟩ := hdeletes
  unfold Db.PlacesApart
  simp only [Db.without, List.map_map]
  exact h.sublist (List.filter_sublist.map _)

/-- **Every run** keeps the places of every section apart. -/
theorem Develops.placesApart {ok : Change → Db → Prop} (h : Develops svc ok db) :
    db.PlacesApart := by
  have hboth : db.Unique ∧ db.PlacesApart := by
    refine h.invariant (P := fun db => db.Unique ∧ db.PlacesApart)
      ⟨List.nodup_nil, List.nodup_nil⟩ ?_ ?_
    · intro op db _ ⟨hunique, hapart⟩
      exact ⟨unique_step op db hunique, placesApart_step op db hunique hapart⟩
    · intro db db' hdeletes ⟨hunique, hapart⟩
      exact ⟨unique_deletes hdeletes hunique, placesApart_deletes hdeletes hapart⟩
  exact hboth.2

end Runs

/-- The request that moves a task back. -/
structure Service.Undoes (svc : Service) (back request : MoveRequest) : Prop where
  direction : svc.unicode.lower (trimSpace back.direction) =
    if svc.unicode.lower (trimSpace request.direction) = "down" then "up" else "down"
  version : back.expectedVersion = request.expectedVersion + 1

section Back

variable {db'' : Db} {back : MoveRequest}

theorem Service.Undoes.down (h : svc.Undoes back request) :
    decide (svc.unicode.lower (trimSpace back.direction) = "down") =
      !decide (svc.unicode.lower (trimSpace request.direction) = "down") := by
  rw [h.direction]
  split
  · rename_i hdown
    simp [hdown]
  · rename_i hup
    simp [hup]

theorem Service.Undoes.either (h : svc.Undoes back request) :
    svc.unicode.lower (trimSpace back.direction) = "up" ∨
      svc.unicode.lower (trimSpace back.direction) = "down" := by
  rw [h.direction]
  split
  · exact Or.inl rfl
  · exact Or.inr rfl

/-- Where a task stands on the board. -/
def Task.order (task : Task) : String × Int :=
  (task.id, task.sortOrder)

/-- **A swap undone** gives every task the place that it had. -/
theorem order_swap_swap {later : Instant} (hunique : db.Unique)
    (hadjacent : db.Adjacent current neighbor)
    (h : db'.tasks = db.tasks.map (Task.swapped current neighbor now))
    (hback : db''.tasks = db'.tasks.map (Task.swapped (Task.swapped current neighbor now current)
      (Task.swapped current neighbor now neighbor) later)) :
    db''.tasks.map Task.order = db.tasks.map Task.order := by
  rw [hback, h, List.map_map, List.map_map]
  apply List.map_congr_left
  intro task htask
  refine Prod.ext ?_ ?_
  · simp [Task.order]
  · simp only [Function.comp_apply, Task.order, Task.swapped_sortOrder, Task.swapped_id, if_true,
      hadjacent.apart.symm, if_false]
    by_cases hself : task.id = current.id
    · rw [if_pos hself, hunique.eq_of_id htask hadjacent.left hself]
    · by_cases hnear : task.id = neighbor.id
      · rw [if_neg hself, if_pos hnear, hunique.eq_of_id htask hadjacent.right hnear]
      · simp [hself, hnear]

theorem task?_swap (hunique : db.Unique) (hmem : current ∈ db.tasks)
    (h : db'.tasks = db.tasks.map (Task.swapped current neighbor now)) :
    db'.task? current.id = some (Task.swapped current neighbor now current) := by
  have hin : Task.swapped current neighbor now current ∈ db'.tasks :=
    h ▸ List.mem_map_of_mem hmem
  have hfound := (unique_swap hunique h).task? hin
  rwa [Task.swapped_id] at hfound

theorem canMutate_swapped (task : Task) :
    canMutate (Task.swapped current neighbor now task) principal = canMutate task principal := by
  unfold Task.swapped
  split
  · rfl
  · split <;> rfl

/-- The transaction of a move succeeds where its checks pass and the two events are new. -/
theorem succeeds_moveTx (env : Env) (actor : String) (hunique : db.Unique)
    (hmem : current ∈ db.tasks) (hopen : current.status.terminal = false)
    (hneighbor : svc.neighbor db current (direction = "down") = some neighbor)
    (hfirst : ∀ event ∈ db.events, event.id ≠ env.newID 0)
    (hsecond : ∀ event ∈ db.events, event.id ≠ env.newID 1)
    (hdistinct : env.newID 0 ≠ env.newID 1) :
    ∃ r, (moveTx svc env current.id direction current.version actor).run db = .ok r := by
  obtain ⟨hnear, hother, -⟩ := mem_of_neighbor hneighbor
  refine Tx.succeeds_bind (run_loadTask_ok.mpr ⟨hunique.task? hmem, rfl⟩) ?_
  refine Tx.succeeds_refuse_bind (by simp) ?_
  refine Tx.succeeds_refuse_bind (by simp [hopen]) ?_
  refine Tx.succeeds_bind (Tx.run_select_ok.mpr ⟨rfl, rfl⟩) ?_
  simp only [hneighbor]
  refine Tx.succeeds_bind (Table.run_updateWhere_ok.mpr ⟨rfl, rfl⟩) ?_
  set placed : Db := { db with
    tasks := mapWhere (fun task => decide (task.id = neighbor.id))
      (fun task => { task with sortOrder := current.sortOrder, updatedAt := env.now })
      db.tasks }
  have hids : placed.tasks.map Task.id = db.tasks.map Task.id := by
    exact map_mapWhere fun _ => rfl
  have hplaced : placed.Unique := by
    rw [Db.Unique, hids]
    exact hunique
  have hkept : current ∈ placed.tasks :=
    mem_mapWhere.mpr ⟨current, hmem, by simp [hother.symm]⟩
  have hone := length_filter_bumps hplaced hkept
  refine Tx.succeeds_bind (a := ()) (run_oneRow_ok.mpr (run_bumpTask_ok.mpr ⟨hone.symm, rfl⟩)) ?_
  have hpresent {db' : Db} (hids' : db'.tasks.map Task.id = placed.tasks.map Task.id) {task : Task}
      (htask : task ∈ db.tasks) : (db'.task? task.id).isSome = true := by
    rw [isSome_task?_iff, hids', hids]
    exact List.mem_map_of_mem htask
  refine Tx.succeeds_bind (a := ()) (run_insertEvent_ok.mpr
    ⟨hpresent (map_mapWhere (by intro; rfl)) hmem, hfirst, rfl⟩) ?_
  refine Tx.succeeds_bind (a := ()) (run_insertEvent_ok.mpr
    ⟨hpresent (map_mapWhere (by intro; rfl)) hnear, ?_, rfl⟩) ⟨_, Tx.run_pure_ok.mpr ⟨rfl, rfl⟩⟩
  intro event hevent
  rcases List.mem_append.mp hevent with hold | hnew
  · exact hsecond event hold
  · rw [List.mem_singleton.mp hnew]
    exact hdistinct

theorem checkEditor_ok (h : (checkEditor svc env taskID principal).exec db = (.ok u, db')):
    ∃ task, db.task? (trimSpace taskID) = some task ∧ canMutate task principal = true := by
  obtain ⟨view, hview, h⟩ := Call.exec_bind_quiet_ok quiet_getForHidden h
  rw [Call.exec_lift] at h
  have hmutate := refuse_ok_iff.mp (Prod.mk.inj h).1
  exact ⟨view.toTask, (getForHidden_ok hview).1, by simpa using hmutate⟩

theorem exec_checkEditor (hid : trimSpace taskID = task.id)
    (hload : db.task? task.id = some task) (hmutate : canMutate task principal = true) :
    (checkEditor svc env taskID principal).exec db = (.ok (), db) := by
  have hview : canView task principal = true := (Bool.and_eq_true_iff.mp hmutate).1
  obtain ⟨view, hexec, hrow, -, -⟩ := exec_getForHidden svc env.checked hid hload hview
  unfold checkEditor
  rw [Call.exec_bind_of_ok hexec, Call.exec_lift, hrow, refuse, if_neg (by simp [hmutate])]

/-- **Moving back succeeds** for whoever moved the task. -/
theorem succeeds_moveBack (hunique : db.Unique) (hapart : db.PlacesApart)
    (h : (moveFor svc env taskID request principal).exec db = (.ok task, db'))
    (hload : db.task? (trimSpace taskID) = some current)
    (hneighbor : svc.neighbor db current
      (svc.unicode.lower (trimSpace request.direction) = "down") = some neighbor)
    (hback : svc.Undoes back request)
    (hfirst : ∀ event ∈ db'.events, event.id ≠ later.newID 0)
    (hsecond : ∀ event ∈ db'.events, event.id ≠ later.newID 1)
    (hdistinct : later.newID 0 ≠ later.newID 1) :
    ∃ task db'', (moveFor svc later taskID back principal).exec db' = (.ok task, db'') := by
  obtain ⟨hmem, hid⟩ := mem_of_task? hload
  obtain ⟨_, unmoved, hrun⟩ := moveFor_ok h
  obtain ⟨hversion, hopen, htasks⟩ := moveTx_swaps hunique hload hneighbor hrun
  obtain ⟨_, hperson, h⟩ := Call.exec_lift_bind_ok h
  obtain ⟨_, hcheck, h⟩ := Call.exec_bind_quiet_ok quiet_checkEditor h
  obtain ⟨_, hvalid, -⟩ := Call.exec_lift_bind_ok h
  rw [Call.exec_lift] at hperson hvalid
  have hnamed := refuse_ok_iff.mp (Prod.mk.inj hvalid).1
  obtain ⟨seen, hseen, hmutate⟩ := checkEditor_ok hcheck
  obtain rfl := Option.some_inj.mp (hseen.symm.trans hload)
  set swapped := Task.swapped seen neighbor env.now seen with hswapped
  have hloaded : db'.task? seen.id = some swapped := task?_swap hunique hmem htasks
  have hid' : swapped.id = seen.id := Task.swapped_id seen
  refine Call.succeeds_refuse_bind (refuse_ok_iff.mp (Prod.mk.inj hperson).1) ?_
  refine Call.succeeds_bind (exec_checkEditor (hid.symm.trans hid'.symm) (hid' ▸ hloaded)
    ((canMutate_swapped seen).trans hmutate)) ?_
  have hpositive : 1 ≤ request.expectedVersion := by omega
  refine Call.succeeds_refuse_bind ?_ ?_
  · rintro (hempty | hlow | ⟨hup, hdown⟩)
    · exact hnamed (Or.inl hempty)
    · rw [hback.version] at hlow
      omega
    · exact hback.either.elim hup hdown
  have hneighbor' : svc.neighbor db' swapped
      (svc.unicode.lower (trimSpace back.direction) = "down") =
        some (Task.swapped seen neighbor env.now neighbor) := by
    rw [hback.down]
    exact neighbor_swap hapart hunique hmem hopen hneighbor htasks
  have hopen' : swapped.status.terminal = false := by
    rw [hswapped, Task.swapped_status]
    exact hopen
  have hversion' : swapped.version = back.expectedVersion := by
    rw [hback.version, ← hversion, hswapped]
    simp [Task.swapped]
  obtain ⟨⟨unmoved', db''⟩, hrun'⟩ := succeeds_moveTx later principal.id
    (unique_swap hunique htasks) (mem_of_task? hloaded).1 hopen' hneighbor' hfirst hsecond hdistinct
  rw [hid', hid, hversion'] at hrun'
  refine Call.succeeds_bind (by rw [Call.exec_tx, hrun']) ?_
  cases unmoved' with
  | some row => exact ⟨row, _, rfl⟩
  | none =>
      have hloaded' : db'.task? (trimSpace taskID) = some swapped := hid ▸ hloaded
      obtain ⟨-, -, htasks'⟩ :=
        moveTx_swaps (unique_swap hunique htasks) hloaded' hneighbor' hrun'
      obtain ⟨row, hfound⟩ : ∃ row, db''.task? (trimSpace taskID) = some row := by
        rw [← hid, ← hid']
        exact ⟨_, task?_swap (unique_swap hunique htasks) (mem_of_task? hloaded).1 htasks'⟩
      have hname := (mem_of_task? hfound).2
      refine Call.succeeds_bind (hname ▸ exec_getTask (hname.symm ▸ hfound)) ?_
      exact ⟨_, _, rfl⟩

/-- **Moving back** restores the place of every task, whoever moves the task back. -/
theorem moveBack_order {other : Principal} (hunique : db.Unique)
    (hapart : db.PlacesApart) (hmem : current ∈ db.tasks) (hid : current.id = trimSpace taskID)
    (hopen : current.status.terminal = false)
    (hneighbor : svc.neighbor db current
      (svc.unicode.lower (trimSpace request.direction) = "down") = some neighbor)
    (htasks : db'.tasks = db.tasks.map (Task.swapped current neighbor now))
    (hback : svc.Undoes back request)
    (h : (moveFor svc later taskID back other).exec db' = (.ok task, db'')) :
    db''.tasks.map Task.order = db.tasks.map Task.order := by
  obtain ⟨-, unmoved, hrun⟩ := moveFor_ok h
  have hloaded : db'.task? (trimSpace taskID) = some (Task.swapped current neighbor now current) :=
    hid ▸ task?_swap hunique hmem htasks
  have hneighbor' : svc.neighbor db' (Task.swapped current neighbor now current)
      (svc.unicode.lower (trimSpace back.direction) = "down") =
        some (Task.swapped current neighbor now neighbor) := by
    rw [hback.down]
    exact neighbor_swap hapart hunique hmem hopen hneighbor htasks
  obtain ⟨-, -, htasks'⟩ := moveTx_swaps (unique_swap hunique htasks) hloaded hneighbor' hrun
  have hadjacent := adjacent_neighbor hapart hunique hmem hopen hneighbor
  exact order_swap_swap hunique hadjacent htasks htasks'

end Back

/-- **Places are apart and a move is a swap that can be undone**, in every state that is
reached. -/
theorem moves_are_reversible_swaps {svc : Service} {ok : Change → Db → Prop} {db : Db}
    (h : Develops svc ok db) :
    (∀ a ∈ db.tasks, ∀ b ∈ db.tasks, a.id ≠ b.id → a.section = b.section →
      a.sortOrder ≠ b.sortOrder) ∧
    ∀ env taskID request principal task db' current neighbor,
      (moveFor svc env taskID request principal).exec db = (.ok task, db') →
      db.task? (trimSpace taskID) = some current →
      svc.neighbor db current (svc.unicode.lower (trimSpace request.direction) = "down") =
        some neighbor →
      db.Adjacent current neighbor ∧
      db'.tasks = db.tasks.map (Task.swapped current neighbor env.now) ∧
      ∀ back later, svc.Undoes back request →
        (∀ other task' db'', (moveFor svc later taskID back other).exec db' = (.ok task', db'') →
          db''.tasks.map Task.order = db.tasks.map Task.order) ∧
        ((∀ event ∈ db'.events, event.id ≠ later.newID 0) →
          (∀ event ∈ db'.events, event.id ≠ later.newID 1) → later.newID 0 ≠ later.newID 1 →
          ∃ task' db'', (moveFor svc later taskID back principal).exec db' = (.ok task', db'')) := by
  have hunique := h.unique
  have hapart := h.placesApart
  refine ⟨?_, ?_⟩
  · intro a ha b hb hdifferent hsection horder
    have hsame : a = b := List.inj_on_of_nodup_map hapart ha hb (Prod.ext hsection horder)
    exact hdifferent (congrArg Task.id hsame)
  · intro env taskID request principal task db' current neighbor hmove hload hneighbor
    obtain ⟨hmem, hid⟩ := mem_of_task? hload
    obtain ⟨-, unmoved, hrun⟩ := moveFor_ok hmove
    obtain ⟨-, hopen, htasks⟩ := moveTx_swaps hunique hload hneighbor hrun
    refine ⟨adjacent_neighbor hapart hunique hmem hopen hneighbor, htasks, ?_⟩
    intro back later hback
    refine ⟨?_, ?_⟩
    · intro other task' db'' hmoved
      exact moveBack_order hunique hapart hmem hid hopen hneighbor htasks hback hmoved
    · intro hfirst hsecond hdistinct
      exact succeeds_moveBack hunique hapart hmove hload hneighbor hback hfirst hsecond hdistinct

/-- The second person moves their task to the front. -/
def moveUp : CallM Task :=
  moveFor .ascii (.numbered 3 3) "0200" { expectedVersion := 1, direction := "up" }
    (humanPrincipal "bob" .member)

/-- And back to where it was. -/
def moveDown : CallM Task :=
  moveFor .ascii (.numbered 4 4) "0200" { expectedVersion := 2, direction := "down" }
    (humanPrincipal "bob" .member)

/-- A task is moved to the front and back again. -/
theorem moved_up_and_down :
    (moveUp.exec (notesBoard "team")).2.tasks.map Task.order = [("0100", 2048), ("0200", 1024)] ∧
      ∃ task db'', moveDown.exec (moveUp.exec (notesBoard "team")).2 = (.ok task, db'') ∧
        db''.tasks.map Task.order = [("0100", 1024), ("0200", 2048)] := by
  refine ⟨by decide +kernel, ?_⟩
  obtain ⟨task, db', hup⟩ :=
    Call.exec_of_isOk (c := moveUp) (s := notesBoard "team") (by decide +kernel)
  have hloaded : ((notesBoard "team").task? "0200").isSome = true := by decide +kernel
  obtain ⟨current, hload⟩ := Option.isSome_iff_exists.mp hloaded
  have hfound : (((notesBoard "team").task? "0200").bind fun current =>
      Service.neighbor .ascii (notesBoard "team") current false).isSome = true := by
    decide +kernel
  obtain ⟨neighbor, hneighbor⟩ := Option.isSome_iff_exists.mp hfound
  rw [hload, Option.bind_some] at hneighbor
  have hmoves := (moves_are_reversible_swaps (develops_notesBoard "team")).2 (.numbered 3 3) "0200"
    { expectedVersion := 1, direction := "up" } (humanPrincipal "bob" .member) task db' current
    neighbor hup hload hneighbor
  have hback : Service.Undoes .ascii { expectedVersion := 2, direction := "down" }
      { expectedVersion := 1, direction := "up" } := ⟨by decide +kernel, rfl⟩
  obtain ⟨horder, hsucceeds⟩ := hmoves.2.2 _ (.numbered 4 4) hback
  have hevents : db'.events = (moveUp.exec (notesBoard "team")).2.events := by rw [hup]
  obtain ⟨task', db'', hdown⟩ := hsucceeds (by rw [hevents]; decide +kernel)
    (by rw [hevents]; decide +kernel) (by decide +kernel)
  refine ⟨task', db'', by rw [hup]; exact hdown, ?_⟩
  rw [horder _ task' db'' hdown]
  decide +kernel

end Taskboard
