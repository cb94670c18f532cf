import Taskboard.Lib.Links
import Taskboard.Deletion

/-!
# Duplicate tasks

Marking a task a duplicate cancels it and links it to the task that is kept. The task that is
kept is found by following links, and the duplicates of the new duplicate are linked to it in
the same transaction, so that links stay one level deep (`links_are_flat`).

A duplicate is a cancelled task, and the general update clears the link of a task that leaves
that status. A control that retries cancelled work does not
(`retried_duplicate_is_queued`): duplicates stay cancelled where no control is completed that
retries a duplicate (`duplicates_are_cancelled`).
-/

namespace Taskboard

variable {db db' : Db} {svc : Service}

/-- The identifier of a task and the task it is linked to. -/
def Task.link (task : Task) : String × Option String :=
  (task.id, task.duplicateOf)

/-- The links of the board. -/
def Db.links (db : Db) : List (String × Option String) :=
  db.tasks.map Task.link

/-- What a general update does to a row of links. -/
def relinkLink (taskID : String) (kept : Option String) (unlinks : Bool) :
    String × Option String → String × Option String :=
  match kept with
  | some kept => mergeLink taskID kept
  | none => if unlinks then cutLink taskID else id

section Links

variable {env : Env} {actor target taskID : String} {task : Task} {request : UpdateRequest}

theorem Task.link_relinked (taskID : String) (kept : Option Task) (unlinks : Bool) (task : Task) :
    (task.relinked taskID kept unlinks).link =
      relinkLink taskID (kept.map Task.id) unlinks task.link := by
  cases kept with
  | some kept =>
      simp only [relinked, relinkLink, Option.map_some, mergeLink]
      by_cases hmerged : task.id = taskID ∨ task.duplicateOf = some taskID
      · rw [if_pos hmerged]
        exact (if_pos hmerged).symm
      · rw [if_neg hmerged]
        exact (if_neg hmerged).symm
  | none =>
      cases unlinks with
      | false => simp [relinked, relinkLink]
      | true =>
          simp only [relinked, relinkLink, Option.map_none, if_true, true_and, cutLink, link]
          by_cases hcut : task.id = taskID
          · simp only [if_pos hcut]
          · simp only [if_neg hcut]

theorem links_of_forall₂ {keep : Task → Task → Prop}
    (hkeep : ∀ task task', keep task task' → task'.id = task.id ∧
      task'.duplicateOf = task.duplicateOf)
    (h : List.Forall₂ keep db.tasks db'.tasks) : db'.links = db.links :=
  map_eq_of_forall₂ (fun task task' hrow => Prod.ext (hkeep task task' hrow).1
    (hkeep task task' hrow).2) h

theorem mem_links {row : String × Option String} :
    row ∈ db.links ↔ ∃ task ∈ db.tasks, task.link = row :=
  List.mem_map

/-- **What a general update does to the links.** Where the request names a task, the root of
that task takes over the updated one and its duplicates. -/
theorem Updates.links
    (h : Updates svc env taskID request actor db db') :
    ∃ (current : Task) (kept : Option Task) (added : List Task),
      db.task? (trimSpace taskID) = some current ∧
      (∀ task, kept = some task → ∃ target, request.duplicateOf.map trimSpace = some target ∧
        target ≠ "" ∧ (resolveDuplicateRoot target (trimSpace taskID)).run db = .ok (task, db)) ∧
      (kept = none → ∀ target, request.duplicateOf.map trimSpace = some target → target = "") ∧
      added.length ≤ 1 ∧ (request.nextStatus current.status ≠ .done → added = []) ∧
      (∀ task ∈ added, task.duplicateOf = none ∧ ∀ other ∈ db.tasks, other.id ≠ task.id) ∧
      db'.links = db.links.map (relinkLink (trimSpace taskID) (kept.map Task.id)
        (request.duplicateOf.isSome ||
          (current.status = .cancelled && request.nextStatus current.status ≠ .cancelled))) ++
        added.map Task.link := by
  obtain ⟨update, hash, status, db1, hvalid, hrun, hplain⟩ := h
  obtain ⟨-, -, -, hlink, hnext⟩ := validateUpdate_ok hvalid
  obtain ⟨current, kept, edited, sortOrder, added, runs, notes, event, base, hchecks, hstatus,
    -, hlength, hnone, hadded, -, -, -, -, -, -, -, haside⟩ := updateTx_rows hrun
  have hsame : db'.links = db1.links :=
    links_of_forall₂ (fun _ _ h => ⟨h.id, h.duplicateOf⟩) hplain.tasks
  have hedited : edited.tasks = db.tasks := by
    obtain ⟨_, _, _, _, rfl⟩ := hchecks.aside
    rfl
  rw [hnext] at hstatus
  refine ⟨current, kept, added, hchecks.found, ?_, ?_, hlength, hstatus ▸ hnone,
    fun task htask => ⟨(hadded task htask).linkless, (hadded task htask).fresh⟩, ?_⟩
  · intro task htask
    obtain ⟨target, htarget, hne, hroot⟩ := hchecks.merged task htask
    exact ⟨target, hlink ▸ htarget, hne, resolveDuplicate_of_tasks hedited hroot⟩
  · exact hlink ▸ hchecks.unmerged
  · obtain ⟨_, _, _, _, rfl⟩ := haside
    rw [hsame, Db.links, List.map_append, List.map_map, Db.links, List.map_map, mapWhere,
      List.map_map]
    congr 1
    refine List.map_congr_left fun task _ => ?_
    have hrewritten (row : Task) : (task.rewritten row).link = task.link := rfl
    have hunlinks : update.unlinks current.status status = (request.duplicateOf.isSome ||
        (current.status = .cancelled && request.nextStatus current.status ≠ .cancelled)) := by
      rw [TaskUpdate.unlinks, hlink, Option.isSome_map, hstatus]
    simp only [Function.comp_apply, Task.link_relinked, hunlinks]
    congr 1
    split
    · exact hrewritten _
    · rfl

/-- Links of the board are flat, and none is empty. -/
structure Db.Linked (db : Db) : Prop where
  flat : Flat db.links
  named : ∀ row ∈ db.links, row.2 ≠ some ""

theorem Db.Linked.eq_of_id (h : db.Linked) {a b : Task} (ha : a ∈ db.tasks) (hb : b ∈ db.tasks)
    (hid : a.id = b.id) : a = b := by
  have hunique : db.Unique := by
    have hkeys := h.flat.unique
    rwa [Db.links, List.map_map] at hkeys
  exact hunique.eq_of_id ha hb hid

theorem Db.Linked.of_links (h : db.Linked) (hlinks : db'.links = db.links) : db'.Linked :=
  ⟨hlinks ▸ h.flat, hlinks ▸ h.named⟩

/-- The task that is kept has no link. -/
theorem Db.Linked.root (h : db.Linked)
    (hroot : (resolveDuplicateRoot target taskID).run db = .ok (task, db)) (hne : target ≠ "") :
    (task.id, none) ∈ db.links ∧ task.id ≠ taskID ∧ task.id ≠ "" := by
  obtain ⟨hmem, haway, hnamed, hlink⟩ := resolveDuplicate_ok hroot hne
  refine ⟨mem_links.mpr ⟨task, hmem, Prod.ext rfl ?_⟩, haway, hnamed⟩
  cases hsome : task.duplicateOf with
  | none => exact hsome
  | some link =>
      rw [hsome, Option.getD_some] at hlink
      exact absurd (hlink ▸ hsome) (h.named task.link (mem_links.mpr ⟨task, hmem, rfl⟩))

/-- A board with at most one more task, which has no link, on which the links are flat
otherwise. -/
theorem linked_add {added : List Task} (hfew : added.length ≤ 1)
    (hadded : ∀ task ∈ added, task.duplicateOf = none ∧ ∀ other ∈ db.tasks, other.id ≠ task.id)
    {links : List (String × Option String)} (hflat : Flat links)
    (hnamed : ∀ row ∈ links, row.2 ≠ some "") (hkeys : links.map Prod.fst = db.links.map Prod.fst)
    (hlinks : db'.links = links ++ added.map Task.link) : db'.Linked := by
  cases added with
  | nil =>
      rw [List.map_nil, List.append_nil] at hlinks
      exact ⟨hlinks ▸ hflat, hlinks ▸ hnamed⟩
  | cons task rest =>
      obtain rfl : rest = [] := by simpa using hfew
      obtain ⟨hnone, hfresh⟩ := hadded task List.mem_cons_self
      have hnew : ∀ row ∈ links, row.1 ≠ task.id := by
        intro row hrow hid
        have hkey : row.1 ∈ db.links.map Prod.fst := hkeys ▸ List.mem_map_of_mem hrow
        obtain ⟨old, hold, hsame⟩ := List.mem_map.mp hkey
        obtain ⟨other, hother, rfl⟩ := mem_links.mp hold
        exact hfresh other hother (hsame.trans hid)
      have hlink : task.link = (task.id, none) := Prod.ext rfl hnone
      rw [List.map_cons, List.map_nil, hlink] at hlinks
      refine ⟨hlinks ▸ hflat.add hnew, hlinks ▸ List.forall_mem_append.mpr ⟨hnamed, ?_⟩⟩
      simp

theorem keys_relinkLink (taskID : String) (kept : Option String) (unlinks : Bool)
    (links : List (String × Option String)) :
    (links.map (relinkLink taskID kept unlinks)).map Prod.fst = links.map Prod.fst := by
  rw [List.map_map]
  refine List.map_congr_left fun row _ => ?_
  cases kept with
  | some kept => exact mergeLink_fst taskID kept row
  | none =>
      cases unlinks with
      | false => rfl
      | true => exact cutLink_fst taskID row

theorem linked_update
    (h : db.Linked) (hupdates : Updates svc env taskID request actor db db') : db'.Linked := by
  obtain ⟨current, kept, added, -, hmerged, -, hfew, -, hadded, hlinks⟩ := hupdates.links
  refine linked_add hfew hadded ?_ ?_ (keys_relinkLink _ _ _ _) hlinks
  · cases kept with
    | some task =>
        obtain ⟨target, -, hne, hroot⟩ := hmerged task rfl
        obtain ⟨hmem, haway, -⟩ := h.root hroot hne
        exact h.flat.merge hmem haway
    | none =>
        simp only [relinkLink, Option.map_none]
        split
        · exact h.flat.cut
        · rw [List.map_id]
          exact h.flat
  · rw [List.forall_mem_map]
    intro row hrow hempty
    cases kept with
    | some task =>
        obtain ⟨target, -, hne, hroot⟩ := hmerged task rfl
        obtain ⟨-, -, hnamed⟩ := h.root hroot hne
        rcases mergeLink_snd (trimSpace taskID) task.id row with hsame | hkept
        · exact h.named row hrow (hsame.symm.trans hempty)
        · exact hnamed (Option.some_inj.mp (hkept.symm.trans hempty))
    | none =>
        simp only [relinkLink, Option.map_none] at hempty
        split at hempty
        · rcases cutLink_snd (trimSpace taskID) row with hsame | hcut
          · exact h.named row hrow (hsame.symm.trans hempty)
          · exact absurd (hcut.symm.trans hempty) (by simp)
        · exact h.named row hrow hempty

theorem linked_step (op : Op) (db : Db) (h : db.Linked) : (op.step svc db).Linked := by
  cases (op.effect db : op.Effect svc db (op.step svc db)) with
  | still htasks hruns => exact h.of_links (links_of_forall₂ (fun _ _ h => ⟨h.id, h.duplicateOf⟩) htasks)
  | move current status hmoves htasks hruns =>
      exact h.of_links (links_of_forall₂ (fun _ _ h => ⟨h.id, h.duplicateOf⟩) htasks)
  | claim current run hmem hclaimable htasks htask hruns =>
      exact h.of_links (links_of_forall₂ (fun _ _ h => ⟨h.id, h.duplicateOf⟩) htasks)
  | record task added hfresh hlink htasks hruns hstatus =>
      have hlinks : (op.step svc db).links = db.links ++ [task].map Task.link := by
        rw [Db.links, htasks, List.map_append, Db.links]
      exact linked_add le_rfl (List.forall_mem_singleton.mpr ⟨hlink, hfresh⟩) h.flat h.named rfl
        hlinks
  | sweep env hop htasks hruns =>
      have hkeys : List.Forall₂ (SameKey Task.link) db.tasks (op.step svc db).tasks := by
        rw [htasks]
        exact forall₂_mapWhere fun _ _ _ => rfl
      exact h.of_links (links_of_forall₂ (fun _ _ h => Prod.mk.inj h) hkeys)
  | update env taskID request principal hsame hupdates => exact linked_update h hupdates

theorem linked_deletes (h : db.Linked) (hdeletes : Deletes db db') : db'.Linked := by
  obtain ⟨gone, sessions, rfl⟩ := hdeletes
  have hlinks : Db.links { db.without gone with sessions } = dropLinks gone db.links := by
    simp only [Db.links, Db.without, dropLinks, List.filter_map, List.map_map]
    rfl
  refine ⟨hlinks ▸ h.flat.drop gone, hlinks ▸ ?_⟩
  simp only [dropLinks, List.forall_mem_map]
  intro row hrow hempty
  exact h.named row (List.mem_of_mem_filter hrow) (Option.eq_some_of_filter_eq_some hempty)

theorem linked_of_develops {ok : Change → Db → Prop} (h : Develops svc ok db) : db.Linked :=
  h.invariant (P := Db.Linked) ⟨Flat.nil, by simp [Db.links]⟩ (fun op db _ => linked_step op db)
    fun _ _ hdeletes h => linked_deletes h hdeletes

/-- A link leads to a task that has none. -/
theorem Db.Linked.stops (h : db.Linked) {row kept : Task}
    (hrow : db.task? target = some row) (hlink : row.duplicateOf.getD "" ≠ "")
    (hkept : db.task? (row.duplicateOf.getD "") = some kept) : kept.duplicateOf = none := by
  obtain ⟨hmem, -⟩ := mem_of_task? hrow
  obtain ⟨hmem', hid⟩ := mem_of_task? hkept
  refine h.flat.flat row.link (mem_links.mpr ⟨row, hmem, rfl⟩) kept.link
    (mem_links.mpr ⟨kept, hmem', rfl⟩) ?_
  show row.duplicateOf = some kept.id
  cases hsome : row.duplicateOf with
  | none => exact absurd (by rw [hsome, Option.getD_none]) hlink
  | some link => rw [hid, hsome, Option.getD_some]

/-- Where the loop comes to a task without a link, it stops there. -/
theorem run_resolveDuplicate_last {id : String} (fuel : Nat)
    (hlast : ∀ kept, db.task? id = some kept → kept.duplicateOf = none) :
    (resolveDuplicate taskID (fuel + 1) id).run db =
      if id = taskID then .error (ErrValidation "a task cannot be a duplicate of itself")
      else
        match db.task? id with
        | none => .error (ErrValidation "duplicate_of task not found")
        | some kept => .ok (kept, db) := by
  rw [run_resolveDuplicate]
  cases hkept : db.task? id with
  | none => rfl
  | some kept => simp [hlast kept hkept]

/-- **Two rounds of the loop are enough.** -/
theorem Db.Linked.resolves (h : db.Linked) (taskID target : String) :
    (∀ more, (resolveDuplicate taskID (more + 2) target).run db =
        (resolveDuplicate taskID 2 target).run db) ∧
      (resolveDuplicate taskID 2 target).run db ≠
        .error (ErrValidation "duplicate links are too deep") := by
  rw [run_resolveDuplicate taskID target 1]
  cases hrow : db.task? target with
  | none =>
      refine ⟨fun more => by rw [run_resolveDuplicate, hrow], ?_⟩
      split <;> simp [ErrValidation]
  | some row =>
      by_cases hroot : row.duplicateOf.getD "" = ""
      · refine ⟨fun more => ?_, ?_⟩
        · rw [run_resolveDuplicate, hrow]
          simp only [if_pos hroot]
        · simp only [if_pos hroot]
          split <;> simp [ErrValidation]
      · have hstops : ∀ kept, db.task? (row.duplicateOf.getD "") = some kept →
            kept.duplicateOf = none := fun _ => h.stops hrow hroot
        have hlast (fuel : Nat) := @run_resolveDuplicate_last db taskID _ fuel hstops
        refine ⟨fun more => ?_, ?_⟩
        · rw [run_resolveDuplicate, hrow]
          simp only [if_neg hroot, hlast more, hlast 0]
        · simp only [if_neg hroot, hlast 0]
          split
          · simp [ErrValidation]
          · split
            · simp [ErrValidation]
            · split <;> simp [ErrValidation]

/-- The task that is kept is the one the target is linked to, or the target itself. -/
theorem Db.Linked.root_eq (h : db.Linked)
    (hroot : (resolveDuplicateRoot target taskID).run db = .ok (task, db)) :
    ∃ row, db.task? target = some row ∧ task.id = row.duplicateOf.getD target := by
  obtain ⟨-, row, hrow, ⟨hlink, rfl, -⟩ | ⟨hlink, hrest⟩⟩ := run_resolveDuplicate_ok.mp hroot
  · refine ⟨task, hrow, ?_⟩
    obtain ⟨hmem, rfl⟩ := mem_of_task? hrow
    cases hsome : task.duplicateOf with
    | none => rfl
    | some link =>
        rw [hsome, Option.getD_some] at hlink
        exact absurd (hlink ▸ hsome) (h.named task.link (mem_links.mpr ⟨task, hmem, rfl⟩))
  · refine ⟨row, hrow, ?_⟩
    obtain ⟨-, kept, hkept, ⟨-, rfl, -⟩ | ⟨hlink', -⟩⟩ := run_resolveDuplicate_ok.mp hrest
    · rw [(mem_of_task? hkept).2]
      cases hsome : row.duplicateOf with
      | none => exact absurd (by rw [hsome, Option.getD_none]) hlink
      | some link => rfl
    · exact absurd (by rw [h.stops hrow hlink hkept, Option.getD_none]) hlink'

end Links

/-- **Duplicate links stay one level deep.** In every state that operations and deletions lead
to, no task is linked to itself, a task that is linked to has no link, two rounds of
`resolveDuplicateRoot` are enough, and marking a task moves it and its duplicates, and no
others, to the root of the task the request names. -/
theorem links_are_flat {svc : Service} {db : Db} (h : Develops svc (fun _ _ => True) db) :
    (∀ task ∈ db.tasks, task.duplicateOf ≠ some task.id) ∧
    (∀ task ∈ db.tasks, ∀ kept ∈ db.tasks, task.duplicateOf = some kept.id →
      kept.duplicateOf = none) ∧
    (∀ taskID target, (∀ more, (resolveDuplicate taskID (more + 2) target).run db =
        (resolveDuplicate taskID 2 target).run db) ∧
      (resolveDuplicateRoot target taskID).run db ≠
        .error (ErrValidation "duplicate links are too deep")) ∧
    ∀ env taskID request principal view db' target,
      (updateFor svc env taskID request principal).exec db = (.ok view, db') →
      request.duplicateOf.map trimSpace = some target → target ≠ "" →
        (db' = db ∧ principal.agent = true ∧ ∃ event, svc.findReplay db principal.id "task_update"
          request.idempotencyKey (.update taskID request) = .ok (some event)) ∨
        ∃ row, db.task? target = some row ∧ row.duplicateOf.getD target ≠ trimSpace taskID ∧
          db'.links =
            db.links.map (mergeLink (trimSpace taskID) (row.duplicateOf.getD target)) := by
  have hlinked := linked_of_develops h
  refine ⟨?_, ?_, ?_, ?_⟩
  · intro task htask
    exact hlinked.flat.away task.link (mem_links.mpr ⟨task, htask, rfl⟩)
  · intro task htask kept hkept
    exact hlinked.flat.flat task.link (mem_links.mpr ⟨task, htask, rfl⟩) kept.link
      (mem_links.mpr ⟨kept, hkept, rfl⟩)
  · intro taskID target
    obtain ⟨hsame, hdeep⟩ := hlinked.resolves taskID target
    exact ⟨hsame, hsame 18 ▸ hdeep⟩
  · intro env taskID request principal view db' target hexec htarget hne
    refine (updateFor_ok hexec).imp_right fun hupdates => ?_
    obtain ⟨current, kept, added, -, hmerged, hunmerged, -, hdone, -, hlinks⟩ := hupdates.links
    cases kept with
    | none => exact absurd (hunmerged rfl target htarget) hne
    | some root =>
        obtain ⟨target', htarget', -, hroot⟩ := hmerged root rfl
        obtain rfl : target = target' := Option.some_inj.mp (htarget.symm.trans htarget')
        obtain ⟨row, hrow, hid⟩ := hlinked.root_eq hroot
        obtain ⟨-, haway, -⟩ := hlinked.root hroot hne
        have hcancels : request.nextStatus current.status = .cancelled := by
          obtain ⟨named, hnamed, rfl⟩ := Option.map_eq_some_iff.mp htarget
          simp [UpdateRequest.nextStatus, hnamed, hne]
        obtain rfl := hdone (by rw [hcancels]; decide)
        refine ⟨row, hrow, hid ▸ haway, ?_⟩
        rw [hlinks, List.map_nil, List.append_nil, Option.map_some, hid]
        rfl

/-- A person records the same work once more. -/
def recordOp (call : Nat) : Op :=
  .create (.numbered call 100) { title := "Repair the login", visibility := "team" }
    (humanPrincipal "ann" .owner)

/-- The person marks the task of the agent a duplicate, and ends its run. -/
def markOp : Op :=
  .update (.numbered 3 200) "0100"
    { expectedVersion := 1, runID := "0101", duplicateOf := some "0200" }
    (humanPrincipal "ann" .owner)

/-- The second task is marked a duplicate of a third one, and the first one goes along. -/
theorem remarked_links_are_flat :
    (Op.run .ascii [startOp, recordOp 2, markOp, recordOp 8] {}).links =
        [("0100", some "0200"), ("0200", none), ("0800", none)] ∧
      ∃ view db' row, (updateFor .ascii (.numbered 9 500) "0200"
          { expectedVersion := 1, duplicateOf := some "0800" } (humanPrincipal "ann" .owner)).exec
          (Op.run .ascii [startOp, recordOp 2, markOp, recordOp 8] {}) = (.ok view, db') ∧
        (Op.run .ascii [startOp, recordOp 2, markOp, recordOp 8] {}).task? "0800" = some row ∧
        db'.links = (Op.run .ascii [startOp, recordOp 2, markOp, recordOp 8] {}).links.map
          (mergeLink (trimSpace "0200") (row.duplicateOf.getD "0800")) := by
  have hdevelops : Develops .ascii (fun _ _ => True)
      (Op.run .ascii [startOp, recordOp 2, markOp, recordOp 8] {}) :=
    (((Develops.empty.change (.operation startOp) trivial).change (.operation (recordOp 2))
      trivial).change (.operation markOp) trivial).change (.operation (recordOp 8)) trivial
  have hok : ((updateFor .ascii (.numbered 9 500) "0200"
      { expectedVersion := 1, duplicateOf := some "0800" } (humanPrincipal "ann" .owner)).exec
      (Op.run .ascii [startOp, recordOp 2, markOp, recordOp 8] {})).1.isOk = true := by
    decide +kernel
  refine ⟨by decide +kernel, ?_⟩
  rcases hexec : (updateFor .ascii (.numbered 9 500) "0200"
      { expectedVersion := 1, duplicateOf := some "0800" } (humanPrincipal "ann" .owner)).exec
      (Op.run .ascii [startOp, recordOp 2, markOp, recordOp 8] {}) with ⟨r, db'⟩
  rw [hexec] at hok
  cases r with
  | error e => exact Bool.noConfusion hok
  | ok view =>
      rcases (links_are_flat hdevelops).2.2.2 _ _ _ _ view db' "0800" hexec (by decide) (by decide)
        with ⟨-, hagent, -⟩ | ⟨row, hrow, -, hlinks⟩
      · exact Bool.noConfusion hagent
      · exact ⟨view, db', row, rfl, hrow, hlinks⟩

/-- A control that retries work is completed on a task that is no duplicate. -/
def Change.RetriesUnlinked (change : Change) (db : Db) : Prop :=
  match change with
  | .operation (.updateControl _ controlID request _) =>
      ∀ item, (db.controls.find? fun row => row.id = trimSpace controlID) = some item →
        item.kind = .retry → RunControlStatus.ofString? request.status = some .completed →
          ∀ task, db.task? item.taskID = some task → task.duplicateOf = none
  | _ => True

/-- Duplicates are cancelled. -/
def Db.DuplicatesCancelled (db : Db) : Prop :=
  ∀ task ∈ db.tasks, task.duplicateOf ≠ none → task.status = .cancelled

section Cancelled

variable {taskID : String} {current : Task} {status : TaskStatus}

/-- Where one task moves, it is enough that it is no duplicate, if it is not cancelled by
this. -/
theorem cancelled_shifts (h : db.DuplicatesCancelled)
    (htasks : List.Forall₂ (Task.Shifts current status) db.tasks db'.tasks)
    (hcurrent : current.duplicateOf = none) : db'.DuplicatesCancelled := by
  intro task' htask' hlink
  obtain ⟨task, htask, hshift⟩ := exists_of_forall₂ htasks htask'
  by_cases hsame : task = current
  · rw [hshift.duplicateOf, hsame, hcurrent] at hlink
    exact absurd rfl hlink
  · obtain rfl := hshift.miss hsame
    exact h _ htask hlink

/-- A task that an operation other than the general update moves is no duplicate. -/
theorem unlinked_of_moves {op : Op}
    (h : db.DuplicatesCancelled) (hop : (Change.operation op).RetriesUnlinked db)
    (hmoves : op.Moves db current status) : current.duplicateOf = none := by
  by_contra hlink
  have hcancelled {id : String} (hcurrent : db.task? id = some current) :
      current.status = .cancelled := h current (mem_of_task? hcurrent).1 hlink
  cases op with
  | escalate env taskID request principal =>
      obtain ⟨hcurrent, hactive, -⟩ := hmoves
      simp [hcancelled hcurrent] at hactive
  | resolve env taskID escalationID request principal delegatedBy =>
      obtain ⟨hcurrent, hwaiting, -⟩ := hmoves
      simp [hcancelled hcurrent] at hwaiting
  | updateControl env controlID request principal =>
      obtain ⟨item, hitem, hcompleted, hcurrent, hkind⟩ := hmoves
      cases hk : item.kind with
      | retry => exact hlink (hop item hitem hk hcompleted current hcurrent)
      | pause | cancel | resume => simp [hk, RunControlKind.Moves, hcancelled hcurrent] at hkind
  | reviewAndRequeue env taskID request principal =>
      obtain ⟨hcurrent, hstatus, -⟩ := hmoves
      simp [hcancelled hcurrent] at hstatus
  | _ => exact hmoves.elim

/-- The row after relinking is a duplicate where it was one before, or where it is merged. -/
theorem linked_before {kept : Option Task} {unlinks : Bool} {task : Task}
    (h : (task.relinked taskID kept unlinks).duplicateOf ≠ none) :
    task.duplicateOf ≠ none ∧ (kept = none → task.id = taskID → unlinks = false) ∨
      task.id = taskID ∧ kept ≠ none := by
  cases kept with
  | some kept =>
      simp only [Task.relinked] at h
      split at h
      · next hmerged =>
          rcases hmerged with hid | hlink
          · exact Or.inr ⟨hid, by simp⟩
          · exact Or.inl ⟨by simp [hlink], by simp⟩
      · exact Or.inl ⟨h, by simp⟩
  | none =>
      simp only [Task.relinked] at h
      split at h
      · exact absurd rfl h
      · next hkept =>
          refine Or.inl ⟨h, fun _ hid => ?_⟩
          cases unlinks with
          | false => rfl
          | true => exact absurd ⟨rfl, hid⟩ hkept

theorem cancelled_update {env : Env} {actor : String} {request : UpdateRequest}
    (hlinked : db.Linked) (h : db.DuplicatesCancelled)
    (hupdates : Updates svc env taskID request actor db db') : db'.DuplicatesCancelled := by
  obtain ⟨update, hash, status, db1, hvalid, hrun, hplain⟩ := hupdates
  obtain ⟨-, -, -, hmarks, hnext⟩ := validateUpdate_ok hvalid
  obtain ⟨current, kept, edited, sortOrder, added, runs, notes, event, base, hchecks, hstatus,
    -, -, -, hadded, -, -, -, -, -, -, -, haside⟩ := updateTx_rows hrun
  obtain ⟨hmem, hid⟩ := mem_of_task? hchecks.found
  rw [hnext] at hstatus
  have hcurrent : ∀ task ∈ db.tasks, task.id = trimSpace taskID → task = current :=
    fun task htask htaskID => hlinked.eq_of_id htask hmem (htaskID.trans hid.symm)
  -- A task merged into another is cancelled by the same update.
  have hmerged : kept ≠ none → status = .cancelled := by
    intro hkept
    obtain ⟨root, hroot⟩ := Option.ne_none_iff_exists'.mp hkept
    obtain ⟨target, htarget, hne, -⟩ := hchecks.merged root hroot
    rw [hmarks] at htarget
    obtain ⟨named, hnamed, rfl⟩ := Option.map_eq_some_iff.mp htarget
    rw [hstatus]
    simp [UpdateRequest.nextStatus, hnamed, hne]
  have hrows : db1.DuplicatesCancelled := by
    obtain ⟨_, _, _, _, rfl⟩ := haside
    intro task' htask' hlink
    rcases List.mem_append.mp htask' with hold | hnew
    · obtain ⟨mid, hmid, rfl⟩ := List.mem_map.mp hold
      obtain ⟨task, htask, rfl⟩ := mem_mapWhere.mp hmid
      obtain ⟨_, hrelinked⟩ := Task.relinked_spec (trimSpace taskID) kept
        (update.unlinks current.status status) (if bumps (trimSpace taskID) update.expectedVersion
          (fun _ => true) task = true then task.rewritten (updatedTask update current status
            sortOrder kept (defaultActor actor current.createdBy) env.now) else task)
      have hbefore := linked_before hlink
      rw [hrelinked]
      by_cases hhit : bumps (trimSpace taskID) update.expectedVersion (fun _ => true) task = true
      · simp only [if_pos hhit] at hbefore ⊢
        show status = .cancelled
        rcases hbefore with ⟨hlink', hkeeps⟩ | ⟨-, hkept⟩
        · by_cases hkept : kept = none
          · have htaskID : task.id = trimSpace taskID := by
              simp only [bumps, Bool.and_eq_true, decide_eq_true_eq] at hhit
              exact hhit.1.1
            obtain rfl := hcurrent task htask htaskID
            have hunlinks := hkeeps hkept hid
            by_contra hne
            simp [TaskUpdate.unlinks, h task htask hlink', hne] at hunlinks
          · exact hmerged hkept
        · exact hmerged hkept
      · simp only [if_neg hhit] at hbefore ⊢
        show task.status = .cancelled
        rcases hbefore with ⟨hlink', -⟩ | ⟨htaskID, -⟩
        · exact h task htask hlink'
        · obtain rfl := hcurrent task htask htaskID
          exact absurd (by simp [bumps, hid, hchecks.version]) hhit
    · exact absurd (hadded task' hnew).linkless hlink
  intro task' htask' hlink
  obtain ⟨task, htask, hsame⟩ := exists_of_forall₂ hplain.tasks htask'
  rw [hsame.status]
  exact hrows task htask (hsame.duplicateOf ▸ hlink)

theorem cancelled_step (op : Op) (db : Db) (hop : (Change.operation op).RetriesUnlinked db)
    (hlinked : db.Linked) (h : db.DuplicatesCancelled) : (op.step svc db).DuplicatesCancelled := by
  cases (op.effect db : op.Effect svc db (op.step svc db)) with
  | still htasks hruns =>
      intro task' htask' hlink
      obtain ⟨task, htask, hsame⟩ := exists_of_forall₂ htasks htask'
      rw [hsame.status]
      exact h task htask (hsame.duplicateOf ▸ hlink)
  | move current status hmoves htasks hruns =>
      exact cancelled_shifts h htasks (unlinked_of_moves h hop hmoves)
  | claim current run hmem hclaimable htasks htask hruns =>
      refine cancelled_shifts h htasks ?_
      by_contra hlink
      rw [h current hmem hlink] at hclaimable
      exact Bool.noConfusion hclaimable
  | record task added hfresh hlink htasks hruns hstatus =>
      intro task' htask'
      rw [htasks] at htask'
      rcases List.mem_append.mp htask' with hold | hnew
      · exact h task' hold
      · obtain rfl := List.mem_singleton.mp hnew
        exact fun hne => absurd hlink hne
  | sweep env hop htasks hruns =>
      intro task' htask' hlink
      rw [htasks] at htask'
      obtain ⟨task, htask, rfl⟩ := mem_mapWhere.mp htask'
      by_cases hsweeps : svc.sweepsTask env.now (svc.lapsed env.now db) task = true
      · -- Only an active task goes stale, and a duplicate is none.
        rw [if_pos hsweeps] at hlink
        have hcancelled := h task htask hlink
        simp [Service.sweepsTask, hcancelled] at hsweeps
      · rw [if_neg hsweeps] at hlink ⊢
        exact h task htask hlink
  | update env taskID request principal hsame hupdates => exact cancelled_update hlinked h hupdates

theorem cancelled_deletes (h : db.DuplicatesCancelled) (hdeletes : Deletes db db') :
    db'.DuplicatesCancelled := by
  obtain ⟨gone, sessions, rfl⟩ := hdeletes
  intro task' htask' hlink
  obtain ⟨task, htask, rfl⟩ := List.mem_map.mp htask'
  refine h task (List.mem_of_mem_filter htask) fun hnone => hlink ?_
  show task.duplicateOf.filter _ = none
  rw [hnone, Option.filter_none]

end Cancelled

/-- **A duplicate is a cancelled task**, in every state that is reached while no control is
completed that retries a duplicate. -/
theorem duplicates_are_cancelled {svc : Service} {db : Db}
    (h : Develops svc Change.RetriesUnlinked db) :
    ∀ task ∈ db.tasks, task.duplicateOf ≠ none → task.status = .cancelled := by
  refine (h.invariant (P := fun db => db.Linked ∧ db.DuplicatesCancelled) ?_ ?_ ?_).2
  · exact ⟨⟨Flat.nil, by simp [Db.links]⟩, by simp [Db.DuplicatesCancelled]⟩
  · intro op db hop ⟨hlinked, hcancelled⟩
    exact ⟨linked_step op db hlinked, cancelled_step op db hop hlinked hcancelled⟩
  · intro db db' hdeletes ⟨hlinked, hcancelled⟩
    exact ⟨linked_deletes hlinked hdeletes, cancelled_deletes hcancelled hdeletes⟩

theorem marked_task_is_cancelled :
    ((Op.run .ascii [startOp, recordOp 2, markOp] {}).task? "0100").map
        (fun task => (task.duplicateOf, task.status)) = some (some "0200", .cancelled) ∧
      ∀ task ∈ (Op.run .ascii [startOp, recordOp 2, markOp] {}).tasks, task.duplicateOf ≠ none →
        task.status = .cancelled := by
  have hdevelops : Develops .ascii Change.RetriesUnlinked
      (Op.run .ascii [startOp, recordOp 2, markOp] {}) :=
    ((Develops.empty.change (.operation startOp) trivial).change (.operation (recordOp 2))
      trivial).change (.operation markOp) trivial
  exact ⟨by decide +kernel, duplicates_are_cancelled hdevelops⟩

/-- The person asks for the cancelled work to be retried. -/
def retryOp : Op :=
  .createControl (.numbered 4 300) "0100"
    { targetRunID := "0101", kind := "retry", expectedVersion := 2 } (humanPrincipal "ann" .owner)

/-- The agent of the run takes the control one step further. -/
def controlOp (call : Nat) (status : String) : Op :=
  .updateControl (.numbered call 400) "0400"
    { status := status, expectedVersion := 2, idempotencyKey := status } (sampleAgent "builder")

/-- The task is back in the queue, and still linked to the task it is a duplicate of. -/
theorem retried_duplicate_is_queued :
    Reachable .ascii (fun _ _ => True) (Op.run .ascii [startOp, recordOp 2, markOp, retryOp,
      controlOp 5 "acknowledged", controlOp 6 "accepted", controlOp 7 "completed"] {}) ∧
    ((Op.run .ascii [startOp, recordOp 2, markOp, retryOp, controlOp 5 "acknowledged",
      controlOp 6 "accepted", controlOp 7 "completed"] {}).task? "0100").map
        (fun task => (task.duplicateOf, task.status)) = some (some "0200", .queued) :=
  ⟨reachable_run _ _, by decide +kernel⟩

end Taskboard
