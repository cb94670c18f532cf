import Taskboard.Rows

/-!
# Checklists

The checklist of a task has at most one active item, its items stand at places of their own, and
a task that is done has no required item left to do. The first two are kept by every part of an
operation that writes items (`Editing`). The third is not: an update may add items to a task that
is done, and is refused when it looks at the status that it leaves the task in.
-/

namespace Taskboard

variable {item : ChecklistItem} {env : Env} {now : Instant} {row : Task} {u : Unit} {db start : Db}
  {taskID : String}

variable {position : Int} {newID : Nat → String} {hash : Option Digest} {actor : String}
  {current task : Task} {status : TaskStatus}

/-- Items have identifiers of their own and belong to tasks; in each task at most one is active,
and no two stand at the same place. -/
structure Db.Tidy (db : Db) : Prop where
  ids : (db.items.map ChecklistItem.id).Nodup
  owned : ∀ item ∈ db.items, ∃ task ∈ db.tasks, task.id = item.taskID
  active : ∀ a ∈ db.items, ∀ b ∈ db.items, a.taskID = b.taskID → a.status = .active →
    b.status = .active → a = b
  positions : ∀ a ∈ db.items, ∀ b ∈ db.items, a.taskID = b.taskID → a.position = b.position →
    a = b

/-- No required item of the task is left to do. -/
def Db.Settled (db : Db) (taskID : String) : Prop :=
  ∀ item ∈ db.items, item.taskID = taskID → item.required = true →
    item.status ≠ .todo ∧ item.status ≠ .active

/-- The checklists of a board are in order. -/
structure Db.Checklists (db : Db) : Prop where
  tidy : db.Tidy
  settled : ∀ task ∈ db.tasks, task.status = .done → db.Settled task.id

/-- The checklist of one task has been edited since `start`, and is in order. -/
structure Editing (taskID : String) (start db : Db) : Prop where
  tidy : db.Tidy
  elsewhere : ∀ item, item.taskID ≠ taskID → (item ∈ db.items ↔ item ∈ start.items)
  tasks : db.tasks = start.tasks

/-- The items of the task stand before this place. -/
def Db.Below (db : Db) (taskID : String) (position : Int) : Prop :=
  ∀ item ∈ db.items, item.taskID = taskID → item.position < position

/-- No item of the task is active. -/
def Db.Idle (db : Db) (taskID : String) : Prop :=
  ∀ item ∈ db.items, item.taskID = taskID → item.status ≠ .active

section Items

variable {p : ChecklistItem → Bool} {f : ChecklistItem → ChecklistItem}

theorem Db.Tidy.eq_of_id (h : db.Tidy) {a b : ChecklistItem} (ha : a ∈ db.items)
    (hb : b ∈ db.items) (hid : a.id = b.id) : a = b :=
  List.inj_on_of_nodup_map h.ids ha hb hid

/-- Items that are changed where they stand. One that becomes active is the only one of its task
that does, and none of the others is. -/
theorem Db.Tidy.update (h : db.Tidy)
    (hf : ∀ item, (f item).id = item.id ∧ (f item).taskID = item.taskID ∧
      (f item).position = item.position)
    (hactive : ∀ a ∈ db.items, p a = true → (f a).status = .active → ∀ b ∈ db.items,
      b.taskID = a.taskID → (p b = true → b = a) ∧ (p b = false → b.status ≠ .active)) :
    { db with items := mapWhere p f db.items }.Tidy := by
  have hrow (item : ChecklistItem) : (if p item then f item else item).id = item.id ∧
      (if p item then f item else item).taskID = item.taskID ∧
      (if p item then f item else item).position = item.position := by
    split
    · exact hf item
    · exact ⟨rfl, rfl, rfl⟩
  -- The one that becomes active meets no other.
  have hone : ∀ a ∈ db.items, ∀ b ∈ db.items, p a = true → b.taskID = a.taskID →
      (f a).status = .active → (if p b then f b else b).status = .active → a = b := by
    intro a ha b hb hpa htask hact hact'
    obtain ⟨hsame, hidle⟩ := hactive a ha hpa hact b hb htask
    cases hpb : p b with
    | true => exact (hsame hpb).symm
    | false =>
        rw [hpb] at hact'
        exact absurd hact' (hidle hpb)
  refine ⟨?_, ?_, ?_, ?_⟩
  · have hids : (mapWhere p f db.items).map ChecklistItem.id = db.items.map ChecklistItem.id := by
      rw [mapWhere, List.map_map]
      exact List.map_congr_left fun item _ => (hrow item).1
    exact hids ▸ h.ids
  · intro item hitem
    obtain ⟨old, hold, rfl⟩ := mem_mapWhere.mp hitem
    rw [(hrow old).2.1]
    exact h.owned old hold
  · intro a ha b hb htask hact hact'
    obtain ⟨a, hma, rfl⟩ := mem_mapWhere.mp ha
    obtain ⟨b, hmb, rfl⟩ := mem_mapWhere.mp hb
    rw [(hrow a).2.1, (hrow b).2.1] at htask
    suffices hsame : a = b by rw [hsame]
    by_cases hpa : p a = true
    · rw [if_pos hpa] at hact
      exact hone a hma b hmb hpa htask.symm hact hact'
    · by_cases hpb : p b = true
      · rw [if_pos hpb] at hact'
        exact (hone b hmb a hma hpb htask hact' hact).symm
      · rw [if_neg hpa] at hact
        rw [if_neg hpb] at hact'
        exact h.active a hma b hmb htask hact hact'
  · intro a ha b hb htask hplace
    obtain ⟨a, hma, rfl⟩ := mem_mapWhere.mp ha
    obtain ⟨b, hmb, rfl⟩ := mem_mapWhere.mp hb
    rw [(hrow a).2.1, (hrow b).2.1] at htask
    rw [(hrow a).2.2, (hrow b).2.2] at hplace
    rw [h.positions a hma b hmb htask hplace]

theorem Editing.refl (h : db.Tidy) : Editing taskID db db :=
  ⟨h, fun _ _ => Iff.rfl, rfl⟩

theorem Editing.update (h : Editing taskID start db)
    (hp : ∀ item ∈ db.items, p item = true → item.taskID = taskID)
    (hf : ∀ item, (f item).id = item.id ∧ (f item).taskID = item.taskID ∧
      (f item).position = item.position)
    (hactive : ∀ a ∈ db.items, p a = true → (f a).status = .active → ∀ b ∈ db.items,
      b.taskID = a.taskID → (p b = true → b = a) ∧ (p b = false → b.status ≠ .active)) :
    Editing taskID start { db with items := mapWhere p f db.items } where
  tidy := h.tidy.update hf hactive
  elsewhere := by
    intro item hother
    rw [← h.elsewhere item hother]
    constructor
    · intro hitem
      obtain ⟨old, hold, rfl⟩ := mem_mapWhere.mp hitem
      cases hpo : p old with
      | true =>
          rw [hpo, if_pos rfl, (hf old).2.1] at hother
          exact absurd (hp old hold hpo) hother
      | false => exact hold
    · intro hitem
      refine mem_mapWhere.mpr ⟨item, hitem, ?_⟩
      rw [if_neg fun hpi => hother (hp item hitem hpi)]
  tasks := h.tasks

/-- Items that are changed and do not become active. -/
theorem Editing.close (h : Editing taskID start db)
    (hp : ∀ item ∈ db.items, p item = true → item.taskID = taskID)
    (hf : ∀ item, (f item).id = item.id ∧ (f item).taskID = item.taskID ∧
      (f item).position = item.position) (hidle : ∀ item, (f item).status ≠ .active) :
    Editing taskID start { db with items := mapWhere p f db.items } :=
  h.update hp hf fun a _ _ hactive => absurd hactive (hidle a)

theorem Editing.clear (h : Editing taskID start db) :
    Editing taskID start { db with items := db.items.filter fun item => !(item.taskID = taskID) } where
  tidy := by
    have hsub : ∀ item ∈ db.items.filter fun item => !(item.taskID = taskID), item ∈ db.items :=
      fun _ => List.mem_of_mem_filter
    exact ⟨h.tidy.ids.sublist (List.filter_sublist.map _),
      fun item hitem => h.tidy.owned item (hsub item hitem),
      fun a ha b hb => h.tidy.active a (hsub a ha) b (hsub b hb),
      fun a ha b hb => h.tidy.positions a (hsub a ha) b (hsub b hb)⟩
  elsewhere item hother := by
    rw [← h.elsewhere item hother]
    simp [hother]
  tasks := h.tasks

/-- An item behind the others; it is active only where none is. -/
theorem Editing.add (h : Editing taskID start db)
    (htask : item.taskID = taskID) (howned : (db.task? taskID).isSome = true)
    (hfresh : ∀ other ∈ db.items, other.id ≠ item.id) (hbelow : db.Below taskID item.position)
    (hidle : item.status = .active → db.Idle taskID) :
    Editing taskID start { db with items := db.items ++ [item] } := by
  have hnew : ∀ other ∈ db.items, other.taskID = item.taskID →
      other.position ≠ item.position ∧ ¬ (other.status = .active ∧ item.status = .active) := by
    intro other hother hsame
    refine ⟨(hbelow other hother (hsame.trans htask)).ne, ?_⟩
    rintro ⟨hact, hact'⟩
    exact hidle hact' other hother (hsame.trans htask) hact
  refine ⟨⟨?_, ?_, ?_, ?_⟩, ?_, h.tasks⟩
  · simp only [List.map_append, List.map_cons, List.map_nil]
    refine List.nodup_append.mpr ⟨h.tidy.ids, List.nodup_singleton _, ?_⟩
    intro id hid id' hid' hsame
    obtain ⟨other, hother, rfl⟩ := List.mem_map.mp hid
    exact hfresh other hother (hsame.trans (List.mem_singleton.mp hid'))
  · intro other hother
    rcases List.mem_append.mp hother with hold | hnew
    · exact h.tidy.owned other hold
    · obtain ⟨task, htask'⟩ := Option.isSome_iff_exists.mp howned
      obtain ⟨hmem, hid⟩ := mem_of_task? htask'
      exact ⟨task, hmem, by rw [List.mem_singleton.mp hnew, hid, htask]⟩
  · intro a ha b hb hsame hact hact'
    rcases List.mem_append.mp ha with hma | hma
    · rcases List.mem_append.mp hb with hmb | hmb
      · exact h.tidy.active a hma b hmb hsame hact hact'
      · obtain rfl := List.mem_singleton.mp hmb
        exact absurd ⟨hact, hact'⟩ (hnew a hma hsame).2
    · obtain rfl := List.mem_singleton.mp hma
      rcases List.mem_append.mp hb with hmb | hmb
      · exact absurd ⟨hact', hact⟩ (hnew b hmb hsame.symm).2
      · exact (List.mem_singleton.mp hmb).symm
  · intro a ha b hb hsame hplace
    rcases List.mem_append.mp ha with hma | hma
    · rcases List.mem_append.mp hb with hmb | hmb
      · exact h.tidy.positions a hma b hmb hsame hplace
      · obtain rfl := List.mem_singleton.mp hmb
        exact absurd hplace (hnew a hma hsame).1
    · obtain rfl := List.mem_singleton.mp hma
      rcases List.mem_append.mp hb with hmb | hmb
      · exact absurd hplace.symm (hnew b hmb hsame.symm).1
      · exact (List.mem_singleton.mp hmb).symm
  · intro other hother
    rw [← h.elsewhere other hother]
    simp only [List.mem_append, List.mem_singleton, or_iff_left_iff_imp]
    rintro rfl
    exact absurd htask hother

theorem Db.Below.add (h : db.Below taskID position) (hplace : item.position = position):
    { db with items := db.items ++ [item] }.Below taskID (position + 1) := by
  intro other hother htask
  rcases List.mem_append.mp hother with hold | hnew
  · exact (h other hold htask).trans (Int.lt_succ position)
  · rw [List.mem_singleton.mp hnew, hplace]
    exact Int.lt_succ position

end Items

section Parts

theorem triple_insertItem {id label : String} {status : ItemStatus} {required : Bool}:
    Tx.Triple (fun db => Editing taskID start db ∧ db.Below taskID position ∧
        (status = .active → db.Idle taskID))
      (insertItem id taskID label status position required now)
      (fun _ db => Editing taskID start db ∧ db.Below taskID (position + 1)) := by
  refine Table.triple_insert ?_
  rintro db ⟨hediting, hbelow, hidle⟩ howned hfresh
  refine ⟨hediting.add rfl howned (fun other hother hid => ?_) hbelow hidle, hbelow.add rfl⟩
  exact hfresh other hother (congrArg RowKey.item hid)

/-- The loop of a new checklist: from the second item on, none is active. -/
theorem triple_insertItems (status : Nat → ItemStatus)
    (hstatus : ∀ n, 0 < n → status n ≠ .active) (index : Nat) (items : List (String × Bool)) :
    Tx.Triple (fun db => Editing taskID start db ∧ db.Below taskID index ∧
        (index = 0 → db.Idle taskID))
      (insertItems newID taskID now status index items) (fun _ => Editing taskID start) := by
  induction items generalizing index with
  | nil => exact Tx.triple_pure fun db h => h.1
  | cons item rest ih =>
      refine Tx.triple_bind (Q := fun _ db => Editing taskID start db ∧
        db.Below taskID (index + 1 : Nat) ∧ (index + 1 = 0 → db.Idle taskID)) ?_ fun _ => ih (index + 1)
      intro db u db' ⟨hediting, hbelow, hidle⟩ hrun
      have hfirst : status index = .active → db.Idle taskID := by
        intro hactive
        rcases Nat.eq_zero_or_pos index with hzero | hpos
        · exact hidle hzero
        · exact absurd hactive (hstatus index hpos)
      obtain ⟨hediting', hbelow'⟩ := triple_insertItem db u db' ⟨hediting, hbelow, hfirst⟩ hrun
      exact ⟨hediting', hbelow', fun hzero => absurd hzero (Nat.succ_ne_zero index)⟩

theorem triple_replaceChecklist {update : TaskUpdate} :
    Tx.Triple (Editing taskID start) (replaceChecklist env taskID update current)
      (fun _ => Editing taskID start) := by
  unfold replaceChecklist
  split
  · exact Tx.triple_pure fun db h => h
  · refine Tx.triple_bind (Tx.triple_select (Q := fun _ => Editing taskID start) fun _ h => h)
      fun _ => ?_
    refine Tx.triple_bind (Tx.triple_lift (Q := fun _ => Editing taskID start) fun _ _ h _ => h)
      fun _ => ?_
    refine Tx.triple_bind (Table.triple_deleteWhere fun db h => ?_) fun _ =>
      triple_insertItems (fun _ => .todo) (fun _ _ => nofun) 0 _
    -- No item of the task is left.
    have hnone : ∀ item ∈ db.items.filter (fun item => !(decide (item.taskID = taskID))),
        item.taskID ≠ taskID := by
      intro item hitem
      simpa using (List.mem_filter.mp hitem).2
    exact ⟨h.clear, fun item hitem htask => absurd htask (hnone item hitem),
      fun _ item hitem htask => absurd htask (hnone item hitem)⟩

theorem triple_completeItems (ids : List String) :
    Tx.Triple (Editing taskID start) (completeItems taskID now ids)
      (fun _ => Editing taskID start) := by
  induction ids with
  | nil => exact Tx.triple_pure fun db h => h
  | cons id rest ih =>
      refine Tx.triple_bind (Q := fun _ => Editing taskID start)
        (Table.triple_updateWhere fun db h => ?_) fun _ => ?_
      · refine h.close (fun item _ hp => ?_) (fun _ => ⟨rfl, rfl, rfl⟩) fun _ => nofun
        simp only [Bool.and_eq_true, decide_eq_true_eq] at hp
        exact hp.1.2
      · refine Tx.triple_ite (fun _ => ?_) fun _ => ?_
        · exact Tx.triple_bind ih fun _ => Tx.triple_pure fun _ h => h
        · refine Tx.triple_bind (Tx.triple_select (Q := fun _ => Editing taskID start) fun _ h => h)
            fun _ => ?_
          exact Tx.triple_bind (Tx.triple_lift (Q := fun _ => Editing taskID start)
            fun _ _ h _ => h) fun _ => ih

theorem triple_skipItems {reason : String} (ids : List String) :
    Tx.Triple (Editing taskID start) (skipItems taskID reason now ids)
      (fun _ => Editing taskID start) := by
  induction ids with
  | nil => exact Tx.triple_pure fun db h => h
  | cons id rest ih =>
      refine Tx.triple_bind (Q := fun _ => Editing taskID start)
        (Table.triple_updateWhere fun db h => ?_) fun _ => ?_
      · refine h.close (fun item _ hp => ?_) (fun _ => ⟨rfl, rfl, rfl⟩) fun _ => nofun
        simp only [Bool.and_eq_true, decide_eq_true_eq] at hp
        exact hp.2
      · exact Tx.triple_bind (Tx.triple_lift (Q := fun _ => Editing taskID start)
          fun _ _ h _ => h) fun _ => ih

/-- The item that becomes the current one finds no other active. -/
theorem triple_setCurrentItem {itemID : String} :
    Tx.Triple (Editing taskID start) (setCurrentItem taskID itemID now)
      (fun _ => Editing taskID start) := by
  unfold setCurrentItem
  refine Tx.triple_ite (fun _ => Tx.triple_pure fun db h => h) fun _ => ?_
  refine Tx.triple_bind (Q := fun _ db => Editing taskID start db ∧ db.Idle taskID)
    (Table.triple_updateWhere fun db h => ⟨?_, ?_⟩) fun _ => ?_
  · refine h.close (fun item _ hp => ?_) (fun _ => ⟨rfl, rfl, rfl⟩) fun _ => nofun
    simp only [Bool.and_eq_true, decide_eq_true_eq] at hp
    exact hp.1
  · intro item hitem htask hactive
    obtain ⟨old, hold, rfl⟩ := mem_mapWhere.mp hitem
    split at hactive
    · cases hactive
    · rename_i hp
      rw [if_neg hp] at htask
      exact hp (by simp [htask, hactive])
  · refine Tx.triple_bind (Q := fun _ => Editing taskID start)
      (Table.triple_updateWhere fun db h => ?_) fun _ => Tx.triple_lift fun _ _ h _ => h
    have hp : ∀ item : ChecklistItem, (item.id = itemID && item.taskID = taskID &&
        item.status ≠ .done && item.status ≠ .skipped) = true →
        item.id = itemID ∧ item.taskID = taskID := by
      intro item hitem
      simp only [Bool.and_eq_true, decide_eq_true_eq] at hitem
      exact hitem.1.1
    refine h.1.update (fun item _ hitem => (hp item hitem).2) (fun _ => ⟨rfl, rfl, rfl⟩) ?_
    intro a ha hpa _ b hb htask
    refine ⟨fun hpb => ?_, fun _ => h.2 b hb (htask.trans (hp a hpa).2)⟩
    exact h.1.tidy.eq_of_id hb ha ((hp b hpb).1.trans (hp a hpa).1.symm)

/-- The place behind the last item is behind all of them. -/
theorem below_nextPosition (db : Db) (taskID : String) : db.Below taskID (db.nextPosition taskID) := by
  intro item hitem htask
  refine Int.lt_add_one_of_le ((le_foldl_max _ _).2 _ (List.mem_map_of_mem ?_))
  exact List.mem_filter.mpr ⟨hitem, by simpa using htask⟩

theorem triple_addItems (index : Nat) (labels : List String):
    Tx.Triple (fun db => Editing taskID start db ∧ db.Below taskID (position + index))
      (addItems newID taskID now position index labels) (fun _ => Editing taskID start) := by
  induction labels generalizing index with
  | nil => exact Tx.triple_pure fun db h => h.1
  | cons label rest ih =>
      refine Tx.triple_bind (Tx.triple_lift (Q := fun _ db => Editing taskID start db ∧
        db.Below taskID (position + index)) fun _ _ h _ => h) fun _ => ?_
      refine Tx.triple_bind ?_ fun _ => ih (index + 1)
      intro db u db' ⟨hediting, hbelow⟩ hrun
      have hidle : ItemStatus.todo = .active → db.Idle taskID := nofun
      obtain ⟨hediting', hbelow'⟩ := triple_insertItem db u db' ⟨hediting, hbelow, hidle⟩ hrun
      exact ⟨hediting', by simpa [Int.add_assoc] using hbelow'⟩

/-- **All that an update does to a checklist** leaves it in order, whatever the request names. -/
theorem triple_editItems {update : TaskUpdate} :
    Tx.Triple (Editing taskID start) (editItems env taskID update current)
      (fun _ => Editing taskID start) := by
  refine Tx.triple_bind triple_replaceChecklist fun _ => ?_
  refine Tx.triple_bind (triple_completeItems _) fun _ => ?_
  refine Tx.triple_bind (triple_skipItems _) fun _ => ?_
  refine Tx.triple_bind triple_setCurrentItem fun _ => ?_
  refine Tx.triple_bind (Tx.triple_select (Q := fun position db => Editing taskID start db ∧
    db.Below taskID (position + (0 : Nat))) fun db h => ⟨h, ?_⟩) fun position => ?_
  · simpa using below_nextPosition db taskID
  · exact Tx.triple_bind (triple_addItems 0 _) fun _ => Tx.triple_pure fun _ h => h

/-- The first item that is to do becomes active where none is. -/
theorem triple_activateFirstItem :
    Tx.Triple (Editing taskID start) (activateFirstItem taskID now)
      (fun _ => Editing taskID start) := by
  refine Tx.triple_bind (Q := fun _ => Editing taskID start)
    (Table.triple_updateWhere fun db h => ?_) fun _ => Tx.triple_pure fun _ h => h
  generalize hfirst : (db.listItems taskID).find? (fun first => first.status = .todo) = first?
  cases first? with
  | none => exact h.update (fun _ _ hp => by simp at hp) (fun _ => ⟨rfl, rfl, rfl⟩) (by simp)
  | some first =>
      obtain ⟨hmem, htask⟩ := List.mem_filter.mp (mem_sortBy.mp (List.mem_of_find?_eq_some hfirst))
      have hp : ∀ item ∈ db.items, (Option.any (fun first => item.id = first.id) (some first) &&
          db.items.all fun other => other.taskID ≠ taskID || other.status ≠ .active) = true →
          item = first ∧ db.Idle taskID := by
        intro item hitem hselected
        simp only [Option.any_some, Bool.and_eq_true, decide_eq_true_eq, List.all_eq_true,
          Bool.or_eq_true] at hselected
        refine ⟨h.tidy.eq_of_id hitem hmem hselected.1, fun other hother hof hactive => ?_⟩
        rcases hselected.2 other hother with hne | hne
        · exact hne hof
        · exact hne hactive
      refine h.update (fun item hitem hselected => ?_) (fun _ => ⟨rfl, rfl, rfl⟩) ?_
      · rw [(hp item hitem hselected).1]
        simpa using htask
      · intro a ha hpa _ b hb hsame
        obtain ⟨rfl, hidle⟩ := hp a ha hpa
        exact ⟨fun hpb => (hp b hb hpb).1,
          fun _ => hidle b hb (hsame.trans (by simpa using htask))⟩

end Parts

section Board

variable {svc : Service} {db' : Db}

/-- The task keeps its name and does not become done. -/
def Task.StaysUndone (task task' : Task) : Prop :=
  task'.id = task.id ∧ (task'.status = .done → task.status = .done)

instance : Std.Refl Task.StaysUndone where
  refl _ := ⟨rfl, id⟩

theorem Db.Checklists.of_rows (h : db.Checklists) (hitems : db'.items = db.items)
    (htasks : List.Forall₂ Task.StaysUndone db.tasks db'.tasks) : db'.Checklists where
  tidy := by
    refine ⟨hitems ▸ h.tidy.ids, fun item hitem => ?_, hitems ▸ h.tidy.active,
      hitems ▸ h.tidy.positions⟩
    obtain ⟨task, hmem, hid⟩ := h.tidy.owned item (hitems ▸ hitem)
    obtain ⟨task', hmem', hsame⟩ := exists_next_of_forall₂ htasks hmem
    exact ⟨task', hmem', hsame.1.trans hid⟩
  settled := by
    intro task' hmem' hdone
    obtain ⟨task, hmem, hid, hwas⟩ := exists_of_forall₂ htasks hmem'
    intro item hitem hof
    rw [hitems] at hitem
    exact h.settled task hmem (hwas hdone) item hitem (hof.trans hid)

theorem Db.Checklists.of_same (h : db.Checklists) (hitems : db'.items = db.items)
    (htasks : db'.tasks = db.tasks) : db'.Checklists := by
  refine h.of_rows hitems ?_
  rw [htasks]
  exact List.forall₂_refl _

theorem Db.Checklists.record (h : db.Checklists) (hstatus : task.status ≠ .done)
    (hitems : db'.items = db.items) (htasks : db'.tasks = db.tasks ++ [task]) :
    db'.Checklists where
  tidy := by
    refine ⟨hitems ▸ h.tidy.ids, fun item hitem => ?_, hitems ▸ h.tidy.active,
      hitems ▸ h.tidy.positions⟩
    obtain ⟨row, hrow, hid⟩ := h.tidy.owned item (hitems ▸ hitem)
    exact ⟨row, htasks ▸ List.mem_append_left _ hrow, hid⟩
  settled := by
    intro row hrow hdone
    rw [htasks] at hrow
    rcases List.mem_append.mp hrow with hold | hlast
    · exact fun item hitem => h.settled row hold hdone item (hitems ▸ hitem)
    · rw [List.mem_singleton.mp hlast] at hdone
      exact absurd hdone hstatus

/-- The checklist of a task that is not done has been edited. -/
theorem Editing.checklists (h : Editing taskID db db') (hstart : db.Checklists)
    (hopen : ∀ task ∈ db.tasks, task.id = taskID → task.status ≠ .done) : db'.Checklists where
  tidy := h.tidy
  settled := by
    intro task hmem hdone item hitem hof
    rw [h.tasks] at hmem
    have hother : item.taskID ≠ taskID := fun hsame =>
      hopen task hmem (hof.symm.trans hsame) hdone
    exact hstart.settled task hmem hdone item ((h.elsewhere item hother).mp hitem) hof

/-- A task that is not done has no items yet. -/
structure Unfilled (taskID : String) (db : Db) : Prop where
  checklists : db.Checklists
  empty : ∀ item ∈ db.items, item.taskID ≠ taskID
  undone : ∀ task ∈ db.tasks, task.id = taskID → task.status ≠ .done

theorem triple_insertTask (hstatus : task.status ≠ .done) :
    Tx.Triple Db.Checklists (insertTask task) (fun _ => Unfilled task.id) := by
  refine Table.triple_insert fun db h _ hfresh => ?_
  have hnew : ∀ row ∈ db.tasks, row.id ≠ task.id := fun row hrow hid =>
    hfresh row hrow (congrArg RowKey.task hid)
  -- An item of the new task would be an item of none before.
  have hempty : ∀ item ∈ db.items, item.taskID ≠ task.id := by
    intro item hitem hof
    obtain ⟨row, hrow, hid⟩ := h.tidy.owned item hitem
    exact hnew row hrow (hid.trans hof)
  refine ⟨h.record hstatus rfl rfl, hempty, fun row hrow hid => ?_⟩
  rcases List.mem_append.mp hrow with hold | hlast
  · exact absurd hid (hnew row hold)
  · rwa [List.mem_singleton.mp hlast]

/-- The checklist of a new task. -/
theorem triple_fillChecklist (status : Nat → ItemStatus)
    (hstatus : ∀ n, 0 < n → status n ≠ .active) (items : List (String × Bool)) :
    Tx.Triple (Unfilled taskID) (insertItems newID taskID now status 0 items)
      (fun _ => Db.Checklists) := by
  intro db u db' h hrun
  refine Editing.checklists (triple_insertItems status hstatus 0 items db u db' ⟨?_, ?_, ?_⟩ hrun)
    h.checklists h.undone
  · exact .refl h.checklists.tidy
  · exact fun item hitem hof => absurd hof (h.empty item hitem)
  · exact fun _ item hitem hof => absurd hof (h.empty item hitem)

theorem triple_insertEvent {event : Event} :
    Tx.Triple Db.Checklists (insertEvent event) (fun _ => Db.Checklists) :=
  Table.triple_insert fun _ h _ _ => h.of_same rfl rfl

theorem triple_beside {α : Type} {t : TxM α} (ht : t.Each Beside) :
    Tx.Triple Db.Checklists t (fun _ => Db.Checklists) := by
  refine Tx.triple_each ht ?_
  rintro db _ db' h ⟨_, _, _, rfl⟩
  exact h.of_same rfl rfl

theorem triple_insertAgentRun {run : AgentRun} {sessionKey newSessionID : String} :
    Tx.Triple Db.Checklists (insertAgentRun svc run sessionKey newSessionID)
      (fun _ => Db.Checklists) := by
  intro db u db' h hrun
  obtain ⟨_, _, -, -, _, _, rfl⟩ := insertAgentRun_ok hrun
  exact h.of_same rfl rfl

theorem triple_startTx {item : NewTask} {request : StartRequest} {overridden : List String}:
    Tx.Triple Db.Checklists (startTx svc env item request actor hash overridden)
      (fun _ => Db.Checklists) := by
  refine Tx.triple_bind (Tx.triple_select (Q := fun _ => Db.Checklists) fun _ h => h) fun _ => ?_
  refine Tx.triple_bind (triple_insertTask nofun) fun _ => ?_
  refine Tx.triple_bind (triple_fillChecklist _ (fun n hpos => ?_) _) fun _ => ?_
  · simp [hpos.ne']
  · exact Tx.triple_bind triple_insertAgentRun fun _ => triple_insertEvent

theorem triple_insertQueuedTask {queued : QueuedTask} :
    Tx.Triple Db.Checklists (insertQueuedTask newID queued now) (fun _ => Db.Checklists) := by
  refine Tx.triple_bind (Tx.triple_select (Q := fun _ => Db.Checklists) fun _ h => h) fun _ => ?_
  refine Tx.triple_bind (triple_insertTask nofun) fun _ => ?_
  refine Tx.triple_bind (triple_fillChecklist (fun _ => .todo) (fun _ _ => nofun) _) fun _ => ?_
  exact Tx.triple_bind (triple_beside (beside_insertRequirements _)) fun _ => triple_insertEvent

theorem triple_createRecurrence :
    Tx.Triple Db.Checklists (createRecurrence svc env taskID actor current row)
      (fun _ => Db.Checklists) := by
  refine Tx.triple_ite (fun _ => ?_) fun _ => Tx.triple_pure fun _ h => h
  refine Tx.triple_bind (Tx.triple_lift (Q := fun _ => Db.Checklists) fun _ _ h _ => h)
    fun _ => ?_
  refine Tx.triple_bind (Tx.triple_select (Q := fun _ => Db.Checklists) fun _ h => h) fun _ => ?_
  refine Tx.triple_bind (triple_insertTask nofun) fun _ => ?_
  refine Tx.triple_bind (Tx.triple_select (Q := fun _ => Unfilled (env.newID 2)) fun _ h => h)
    fun _ => ?_
  refine Tx.triple_bind (triple_fillChecklist (fun _ => .todo) (fun _ _ => nofun) _) fun _ => ?_
  refine Tx.triple_bind (Tx.triple_select (Q := fun _ => Db.Checklists) fun _ h => h) fun _ => ?_
  refine Tx.triple_bind (triple_beside (beside_copyRequirements _)) fun _ => ?_
  refine Tx.triple_bind (Q := fun _ => Db.Checklists) ?_ fun _ => triple_insertEvent
  refine Tx.triple_ite (fun _ => ?_) fun _ => Tx.triple_pure fun _ h => h
  exact Tx.triple_bind (triple_beside beside_applyDefaultRequirements)
    fun _ => Tx.triple_pure fun _ h => h

/-- A claim makes an item of the task active, and the task with it. -/
theorem checklists_claimTx {request : ClaimRequest} {agent : String}
    (hunique : db.Unique) (h : db.Checklists)
    (hrun : (claimTx svc env taskID request agent hash).run db = .ok (u, db')) : db'.Checklists := by
  simp only [claimTx, run_loadTask_bind_ok, Tx.run_refuse_bind_ok, Tx.run_select_bind_ok] at hrun
  obtain ⟨current, hcurrent, -, -, hterminal, -, -, hrun⟩ := hrun
  obtain ⟨_, db1, hitem, hrun⟩ := Tx.run_bind_ok.mp hrun
  obtain ⟨hmem, hid⟩ := mem_of_task? hcurrent
  have hactive : db1.Checklists := by
    refine (triple_activateFirstItem db _ db1 (.refl h.tidy) hitem).checklists h ?_
    intro task htask hsame hdone
    obtain rfl := hunique.eq_of_id htask hmem (hsame.trans hid.symm)
    exact hterminal (by rw [hdone]; rfl)
  obtain ⟨_, db2, hinsert, hrun⟩ := Tx.run_bind_ok.mp hrun
  have hstarted := triple_insertAgentRun db1 _ db2 hactive hinsert
  rw [run_bumpTask_bind_ok, Tx.run_bind_ok] at hrun
  obtain ⟨_, db3, hcount, hrun⟩ := hrun
  simp only [Tx.run_ite_ok, run_lostVersionRace_ok, Tx.run_pure_ok, and_false, false_or] at hcount
  obtain ⟨-, -, rfl⟩ := hcount
  refine triple_insertEvent _ _ _ ?_ hrun
  exact hstarted.of_rows rfl (forall₂_mapWhere fun _ _ _ => ⟨rfl, fun hdone => by cases hdone⟩)

theorem settled_of_openRequiredItemIDs (h : db.openRequiredItemIDs taskID = []) :
    db.Settled taskID := by
  intro item hitem hof hrequired
  have hlisted : item ∈ db.listItems taskID :=
    mem_sortBy.mpr (List.mem_filter.mpr ⟨hitem, by simpa using hof⟩)
  have hclosed := List.filter_eq_nil_iff.mp (List.map_eq_nil_iff.mp h) item hlisted
  simp only [hrequired, Bool.true_and, Bool.and_eq_true, decide_eq_true_eq] at hclosed
  constructor
  all_goals
    intro hstatus
    simp [hstatus] at hclosed

/-- The row of the task is written with the status that its checklist was edited for. -/
theorem Editing.write (h : Editing taskID db db') (hunique : db.Unique) (hstart : db.Checklists)
    {expected : Int} {written : Db}
    (hdone : row.status = .done → db'.Settled taskID)
    (hrun : (writeTask taskID expected row).run db' = .ok (u, written)) : written.Checklists := by
  obtain ⟨hone, rfl⟩ := writeTask_ok hrun
  refine ⟨⟨h.tidy.ids, fun item hitem => ?_, h.tidy.active, h.tidy.positions⟩, ?_⟩
  · obtain ⟨task, hmem, hid⟩ := h.tidy.owned item hitem
    refine ⟨_, mem_mapWhere.mpr ⟨task, hmem, rfl⟩, ?_⟩
    split
    · exact hid
    · exact hid
  · intro task' hmem' hdone'
    obtain ⟨task, hmem, rfl⟩ := mem_mapWhere.mp hmem'
    split at hdone'
    · rename_i hbumps
      rw [if_pos hbumps]
      simp only [bumps, Bool.and_eq_true, decide_eq_true_eq] at hbumps
      show Db.Settled db' task.id
      rw [hbumps.1.1]
      exact hdone hdone'
    · rename_i hbumps
      rw [if_neg hbumps]
      rw [h.tasks] at hmem hone
      -- Another task; the statement finds the one of this name.
      have hother : task.id ≠ taskID := by
        intro hid
        obtain ⟨hit, hhit⟩ := List.length_eq_one_iff.mp hone
        obtain ⟨hmem', hbumps'⟩ := List.mem_filter.mp (hhit ▸ List.mem_singleton_self hit)
        have hsame : task = hit := by
          refine hunique.eq_of_id hmem hmem' (hid.trans ?_)
          simp only [bumps, Bool.and_eq_true, decide_eq_true_eq] at hbumps'
          exact hbumps'.1.1.symm
        exact hbumps (hsame ▸ hbumps')
      intro item hitem hof
      have helse : item.taskID ≠ taskID := fun hsame => hother (hof.symm.trans hsame)
      exact hstart.settled task hmem hdone' item ((h.elsewhere item helse).mp hitem) hof

/-- **The general update** edits the checklist, and is refused where it would leave a required
item of a task that is done. -/
theorem checklists_updateTx {update : TaskUpdate} (hunique : db.Unique) (hstart : db.Checklists)
    (h : (updateTx svc env taskID update actor hash).run db = .ok (status, db')) :
    db'.Checklists := by
  simp only [updateTx, run_loadTask_bind_ok] at h
  obtain ⟨current, -, h⟩ := h
  obtain ⟨_, checked, hcheck, h⟩ := Tx.run_bind_ok.mp h
  obtain rfl : db = checked := (checkVersion_ok hcheck).2.symm
  obtain ⟨_, _, hassign, h⟩ := Tx.run_bind_ok.mp h
  obtain rfl := (each_checkAssignment (R := Eq)).run hassign
  obtain ⟨completed, edited, hitems, h⟩ := Tx.run_bind_ok.mp h
  have hediting : Editing taskID db edited :=
    triple_editItems db completed edited (.refl hstart.tidy) hitems
  obtain ⟨kept, found, hkept, h⟩ := Tx.run_bind_ok.mp h
  obtain rfl : edited = found := (findKept_ok hkept).1.symm
  obtain ⟨_, ready, hready, h⟩ := Tx.run_bind_ok.mp h
  obtain ⟨hsame, hdone⟩ := checkDone_ok hready
  obtain rfl : edited = ready := hsame.symm
  obtain ⟨_, active, hactivate, h⟩ := Tx.run_bind_ok.mp h
  -- Only a task that becomes active has an item activated.
  have hactive : Editing taskID db active ∧
      (update.status.getD current.status = .done → active.Settled taskID) := by
    rcases Tx.run_ite_ok.mp hactivate with ⟨⟨hstatus, -⟩, hitem⟩ | ⟨-, hsame⟩
    · refine ⟨triple_activateFirstItem _ _ _ hediting hitem, fun hover => ?_⟩
      rw [hstatus] at hover
      cases hover
    · obtain ⟨-, rfl⟩ := Tx.run_pure_ok.mp hsame
      exact ⟨hediting, fun hover => settled_of_openRequiredItemIDs (hdone hover).1⟩
  obtain ⟨sortOrder, placed, horder, h⟩ := Tx.run_bind_ok.mp h
  obtain rfl : active = placed := (Tx.run_select_ok.mp horder).2.symm
  obtain ⟨_, written, hwrite, h⟩ := Tx.run_bind_ok.mp h
  have hwritten : written.Checklists := hactive.1.write hunique hstart hactive.2 hwrite
  obtain ⟨_, _, hlink, h⟩ := Tx.run_bind_ok.mp h
  obtain ⟨runs, links, -, -, rfl⟩ := linkDuplicate_ok hlink
  refine Tx.triple_bind (R := fun _ => Db.Checklists) (triple_beside beside_defaultOnMove)
    (fun _ => ?_) _ _ _ ?_ h
  · refine Tx.triple_bind triple_createRecurrence fun _ => ?_
    refine Tx.triple_bind (Q := fun _ => Db.Checklists) ?_ fun _ =>
      Tx.triple_bind triple_insertEvent fun _ => Tx.triple_pure fun _ hlists => hlists
    intro before u after hlists hrun
    obtain ⟨-, rfl⟩ := writeRun_ok hrun
    exact hlists.of_same rfl rfl
  · refine hwritten.of_rows rfl
      (List.forall₂_map_right_iff.mpr (List.forall₂_same.mpr fun task _ => ?_))
    obtain ⟨link, hlink⟩ := task.relinked_spec taskID kept _
    rw [hlink]
    exact ⟨rfl, id⟩

theorem Task.Shifts.staysUndone {task' : Task}
    (hstatus : status ≠ .done) (h : current.Shifts status task task') : task.StaysUndone task' := by
  refine ⟨h.id, fun hdone => ?_⟩
  by_cases hcurrent : task = current
  · exact absurd ((h.hit hcurrent).1.symm.trans hdone) hstatus
  · rwa [h.miss hcurrent] at hdone

/-- A status that an operation moves a task to is not done. -/
theorem Op.Moves.ne_done {op : Op} (h : op.Moves db current status): status ≠ .done := by
  rintro rfl
  cases op with
  | escalate env taskID request principal => exact absurd h.2.2.1 nofun
  | resolve env taskID escalationID request principal delegatedBy => exact absurd h.2.2.1 nofun
  | updateControl env controlID request principal =>
      obtain ⟨item, -, -, -, hmoves⟩ := h
      cases hkind : item.kind with
      | pause | cancel | resume | retry =>
          rw [hkind] at hmoves
          exact absurd hmoves.2 nofun
  | reviewAndRequeue env taskID request principal => exact absurd h.2.2 nofun
  | _ => exact False.elim h

/-- What an operation that writes no items does to the tasks. -/
theorem checklists_of_sameItems (op : Op) (h : db.Checklists) (hitems : Ledger.items ∉ op.ledgers) :
    (op.step svc db).Checklists := by
  have hsame : (op.step svc db).items = db.items := (loose_step op db).sameItems hitems
  cases (op.effect db : op.Effect svc db (op.step svc db)) with
  | still htasks =>
      exact h.of_rows hsame (htasks.imp fun _ _ hwork => ⟨hwork.id, fun hdone => hwork.status ▸ hdone⟩)
  | move current status hmoves htasks =>
      exact h.of_rows hsame (htasks.imp fun _ _ => Task.Shifts.staysUndone hmoves.ne_done)
  | claim current run hmem hclaimable htasks =>
      have hactive : TaskStatus.active ≠ .done := nofun
      exact h.of_rows hsame (htasks.imp fun _ _ => Task.Shifts.staysUndone hactive)
  | record task added hfresh hlink htasks hruns hstatus =>
      refine h.record ?_ hsame htasks
      rcases hstatus with ⟨hqueued, -⟩ | ⟨hactive, -⟩
      · simp [hqueued]
      · simp [hactive]
  | sweep env hop htasks =>
      refine h.of_rows hsame ?_
      rw [htasks]
      exact forall₂_mapWhere fun _ _ _ => ⟨rfl, fun hdone => by cases hdone⟩
  | update env taskID request principal hop =>
      exact absurd (hop ▸ List.mem_cons_self) hitems

theorem checklists_atMost {α : Type} {call : CallM α} {E : Db → Db → Prop} (hcall : call.AtMost E)
    (hE : ∀ db', E db db' → db'.Checklists) (h : db.Checklists) : (call.exec db).2.Checklists := by
  rcases hcall db with hsame | hdone
  · rw [hsame]
    exact h
  · exact hE _ hdone

/-- **One operation** leaves the checklists of a board in order. -/
theorem checklists_step (op : Op) (hunique : db.Unique) (h : db.Checklists) :
    (op.step svc db).Checklists := by
  cases op with
  | start env request principal =>
      refine checklists_atMost (Call.atMost_then_quiet atMost_startFor fun _ => Call.quiet_pure _)
        ?_ h
      rintro db' ⟨_, _, _, _, _, _, hrun⟩
      exact triple_startTx _ _ _ h hrun
  | create env request principal =>
      refine checklists_atMost (Call.atMost_then_quiet atMost_createFor fun _ => Call.quiet_pure _)
        ?_ h
      rintro db' ⟨_, _, hrun⟩
      exact triple_insertQueuedTask _ _ _ h hrun
  | fireSchedule env schedule scheduledFor runBy =>
      refine checklists_atMost
        (Call.atMost_then_quiet atMost_fireSchedule fun _ => Call.quiet_pure _) ?_ h
      rintro db' ⟨_, _, hrun⟩
      exact triple_insertQueuedTask _ _ _ h hrun
  | claim env taskID request principal =>
      refine checklists_atMost (Call.atMost_then_quiet atMost_claimFor fun _ => Call.quiet_pure _)
        ?_ h
      rintro db' ⟨_, _, _, _, _, -, -, hrun⟩
      exact checklists_claimTx hunique h hrun
  | update env taskID request principal =>
      rcases step_update with hsame | ⟨_, _, _, _, -, hrun, hplain⟩
      · exact hsame.symm ▸ h
      · exact (checklists_updateTx hunique h hrun).of_rows (hplain.sameItems (by simp))
          (hplain.tasks.imp fun _ _ hwork => ⟨hwork.id, fun hdone => hwork.status ▸ hdone⟩)
  | _ => exact checklists_of_sameItems _ h (by simp [Op.ledgers])

theorem checklists_deletes (hdeletes : Deletes db db') (h : db.Checklists) : db'.Checklists := by
  obtain ⟨gone, sessions, rfl⟩ := hdeletes
  have hsub : ∀ item ∈ db.items.filter (fun row => !gone row.taskID), item ∈ db.items :=
    fun _ => List.mem_of_mem_filter
  refine ⟨⟨h.tidy.ids.sublist (List.filter_sublist.map _), fun item hitem => ?_,
    fun a ha b hb => h.tidy.active a (hsub a ha) b (hsub b hb),
    fun a ha b hb => h.tidy.positions a (hsub a ha) b (hsub b hb)⟩, ?_⟩
  · obtain ⟨hmem, hkept⟩ := List.mem_filter.mp hitem
    obtain ⟨task, htask, hid⟩ := h.tidy.owned item hmem
    exact ⟨_, List.mem_map_of_mem (List.mem_filter.mpr ⟨htask, by rw [hid]; exact hkept⟩), hid⟩
  · intro task' hmem' hdone item hitem
    obtain ⟨task, hmem, rfl⟩ := List.mem_map.mp hmem'
    exact h.settled task (List.mem_of_mem_filter hmem) hdone item (hsub item hitem)

/-- **The checklists of every board are in order.** -/
theorem Develops.checklists {ok : Change → Db → Prop} (h : Develops svc ok db) :
    db.Checklists := by
  have hempty : Db.Checklists {} :=
    ⟨⟨List.nodup_nil, List.forall_mem_nil _, List.forall_mem_nil _, List.forall_mem_nil _⟩,
      List.forall_mem_nil _⟩
  have hboth : db.Unique ∧ db.Checklists := by
    refine h.invariant (P := fun db => db.Unique ∧ db.Checklists) ⟨List.nodup_nil, hempty⟩ ?_ ?_
    · intro op db _ hdb
      exact ⟨unique_step op db hdb.1, checklists_step op hdb.1 hdb.2⟩
    · intro db db' hdeletes hdb
      exact ⟨unique_deletes hdeletes hdb.1, checklists_deletes hdeletes hdb.2⟩
  exact hboth.2

/-- **Checklists.** In every state of a board a task has at most one active item, its items
stand at places of their own, and none that is required is left to do where the task is done. -/
theorem checklists_in_order (h : Develops svc (fun _ _ => True) db) : ∀ task ∈ db.tasks,
    (db.items.filter fun item => item.taskID = task.id ∧ item.status = .active).length ≤ 1 ∧
      ((db.items.filter fun item => item.taskID = task.id).map (·.position)).Nodup ∧
      (task.status = .done → ∀ item ∈ db.items, item.taskID = task.id → item.required = true →
        item.status ≠ .todo ∧ item.status ≠ .active) := by
  intro task hmem
  obtain ⟨htidy, hsettled⟩ := h.checklists
  have hnodup : db.items.Nodup := htidy.ids.of_map _
  refine ⟨length_le_one_of_nodup (hnodup.filter _) ?_, ?_, hsettled task hmem⟩
  · intro a ha b hb
    obtain ⟨ha, hactive⟩ := List.mem_filter.mp ha
    obtain ⟨hb, hactive'⟩ := List.mem_filter.mp hb
    rw [decide_eq_true_eq] at hactive hactive'
    exact htidy.active a ha b hb (hactive.1.trans hactive'.1.symm) hactive.2 hactive'.2
  · refine (hnodup.filter _).map_on ?_
    intro a ha b hb hplace
    obtain ⟨ha, hof⟩ := List.mem_filter.mp ha
    obtain ⟨hb, hof'⟩ := List.mem_filter.mp hb
    rw [decide_eq_true_eq] at hof hof'
    exact htidy.positions a ha b hb (hof.trans hof'.symm) hplace

end Board

/-- A task of two items is started; the first is completed, named twice, the second becomes the
current one, and a third comes behind them. -/
def checklistOps : List Op :=
  [.start (.numbered 1 0) { title := "Fix the login", checklist := ["Find it", "Mend it"] }
      (sampleAgent "builder"),
    .update (.numbered 2 100) "0100"
      { expectedVersion := 1
        completeItemIDs := ["0104", "0104"]
        currentItemID := "0105"
        addItems := ["Tell them"] }
      (sampleAgent "builder")]

theorem edited_checklist_in_order :
    (Op.run .ascii checklistOps {}).items.map (fun item => (item.taskID, item.position, item.status)) =
        [("0100", 0, .done), ("0100", 1, .active), ("0100", 2, .todo)] ∧
      ∀ task ∈ (Op.run .ascii checklistOps {}).tasks,
        ((Op.run .ascii checklistOps {}).items.filter fun item =>
          item.taskID = task.id ∧ item.status = .active).length ≤ 1 := by
  have hdevelops : Develops .ascii (fun _ _ => True) (Op.run .ascii checklistOps {}) :=
    (Develops.empty.change (.operation _) trivial).change (.operation _) trivial
  exact ⟨by decide +kernel, fun task hmem => (checklists_in_order hdevelops task hmem).1⟩

end Taskboard
