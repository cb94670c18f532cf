import Taskboard.Lib.StaleReads
import Taskboard.RunLife

/-!
# The life of discussions among other calls

Every call that writes a discussion reads it first, decides what becomes of it, and writes the
whole record back in a transaction of its own. Nothing keeps another call from ending the
discussion in between, or from starting a second one. What holds all the same is said of the runs
in which a call commits only while nobody else has changed the statuses of the discussions that it
is about (`Timely`).
-/

namespace Taskboard

variable {db db' : Db} {done rest : List TaskDiscussion} {extra : Payload}
  {body controller eventID role : String} {request : UpdateDiscussionRequest} {svc : Service}
  {ι : Type}

variable {all : Bool} {env : Env} {now : Instant} {items : List TaskDiscussion}
  {principal : Principal} {id message taskID : String} {item item' row : TaskDiscussion}

/-- A call that discussions may come from or end by: an operation, or one of the queries that end
the discussions which have been idle. -/
inductive Talk where
  | operation (op : Op)
  | get (env : Env) (discussionID after : String) (principal : Principal)
  | listOfTask (env : Env) (taskID : String) (principal : Principal)
  | listOfController (env : Env) (principal : Principal)

def Talk.call (svc : Service) : Talk → CallM Unit
  | .operation op => do
      let _ ← op.call svc
      pure ()
  | .get env discussionID after principal => do
      let _ ← getDiscussionFor svc env discussionID after principal
      pure ()
  | .listOfTask env taskID principal => do
      let _ ← listTaskDiscussionsFor svc env taskID principal
      pure ()
  | .listOfController env principal => do
      let _ ← listControllerDiscussionsFor svc env principal
      pure ()

/-- The discussions that a call is about. -/
def Talk.concerns : Talk → TaskDiscussion → Bool
  | .operation (.startDiscussion _ taskID _ _), row => row.taskID = trimSpace taskID
  | .operation (.addDiscussionMessage _ id _ _), row => row.id = trimSpace id
  | .operation (.updateDiscussion _ id _ _), row => row.id = trimSpace id
  | .operation _, _ => false
  | .get _ id _ _, row => row.id = trimSpace id
  | .listOfTask _ taskID _, row => row.taskID = trimSpace taskID
  | .listOfController _ principal, row => row.controller = principal.id

/-- Which discussion it is, and how far it has got. -/
def TaskDiscussion.phase (row : TaskDiscussion) : String × DiscussionStatus :=
  (row.id, row.status)

/-- What a call knows of the discussions that it is about. -/
def Talk.view (talk : Talk) (db : Db) : List (String × DiscussionStatus) :=
  (db.discussions.filter talk.concerns).map TaskDiscussion.phase

/-- A discussion is requested, then active, then ended; it may be ended without being active. -/
def DiscussionStatus.Precedes : DiscussionStatus → DiscussionStatus → Prop
  | .requested, _ => True
  | .active, next => next ≠ .requested
  | .ended, next => next = .ended

/-- One more stretch of a discussion's life; when it has ended, it stays as it ended. -/
structure TaskDiscussion.Progress (row row' : TaskDiscussion) : Prop where
  id : row'.id = row.id
  taskID : row'.taskID = row.taskID
  status : row.status.Precedes row'.status
  ended : row.status = .ended → row'.endedAt = row.endedAt

theorem DiscussionStatus.Precedes.refl (status : DiscussionStatus) : status.Precedes status := by
  cases status with
  | requested => trivial
  | active => exact nofun
  | ended => rfl

theorem DiscussionStatus.Precedes.trans {a b c : DiscussionStatus} (h : a.Precedes b)
    (h' : b.Precedes c) : a.Precedes c := by
  cases a with
  | requested => trivial
  | active =>
      cases b with
      | requested => exact absurd rfl h
      | active => exact h'
      | ended =>
          obtain rfl : c = .ended := h'
          exact nofun
  | ended =>
      obtain rfl : b = .ended := h
      exact h'

theorem TaskDiscussion.Progress.stays_ended {row' : TaskDiscussion} (h : row.Progress row')
    (hended : row.status = .ended) : row'.status = .ended := by
  have hstatus := h.status
  rw [hended] at hstatus
  exact hstatus

instance : IsPreorder TaskDiscussion TaskDiscussion.Progress where
  refl _ := ⟨rfl, rfl, .refl _, fun _ => rfl⟩
  trans _ _ _ h h' :=
    ⟨h'.id.trans h.id, h'.taskID.trans h.taskID, h.status.trans h'.status, fun hended =>
      (h'.ended (h.stays_ended hended)).trans (h.ended hended)⟩

/-- The messages of a discussion. -/
def Db.messagesOf (db : Db) (discussionID : String) : List DiscussionMessage :=
  db.discussionMessages.filter fun row => row.discussionID = discussionID

/-- Discussions go through their lives, and get no message when they have ended. -/
structure Progresses (db db' : Db) : Prop where
  rows : Evolves TaskDiscussion.Progress (fun _ => True) db.discussions db'.discussions
  closed : ∀ row ∈ db.discussions, row.status = .ended →
    db'.messagesOf row.id = db.messagesOf row.id

theorem Progresses.refl (db : Db) : Progresses db db :=
  ⟨.of_forall₂ (List.forall₂_refl _), fun _ _ _ => rfl⟩

theorem Progresses.trans {db' db'' : Db} (h : Progresses db db') (h' : Progresses db' db'') :
    Progresses db db'' := by
  refine ⟨h.rows.trans (fun _ _ _ _ => trivial) h'.rows, fun row hrow hended => ?_⟩
  obtain ⟨kept, added, hrows, hkept, -⟩ := h.rows
  obtain ⟨row', hrow', hnext⟩ := exists_next_of_forall₂ hkept hrow
  have hlater := h'.closed row' (hrows ▸ List.mem_append_left _ hrow') (hnext.stays_ended hended)
  rw [hnext.id] at hlater
  exact hlater.trans (h.closed row hrow hended)

/-- A discussion that is open is the latest of its task. -/
def Db.NewestOpen (db : Db) : Prop :=
  ∀ row ∈ db.discussions, row.status ≠ .ended → ∀ other ∈ db.discussions,
    other.taskID = row.taskID → other.id ≤ row.id

/-- A call that starts a discussion draws a name for it that comes behind those of the task's
discussions. -/
def Talk.NamesNewest (talk : Talk) (db : Db) : Prop :=
  match talk with
  | .operation (.startDiscussion env taskID _ _) =>
      ∀ row ∈ db.discussions, row.taskID = trimSpace taskID → row.id < env.newID 0
  | _ => True

instance (talk : Talk) (db : Db) : Decidable (talk.NamesNewest db) := by
  unfold Talk.NamesNewest
  split <;> infer_instance

section Written

variable {talk : Talk}

/-- One discussion is written back, and no other gets a message. -/
structure Writes (item : TaskDiscussion) (db db' : Db) : Prop where
  rows : db'.discussions =
    mapWhere (fun row => row.id = item.id) (·.rewritten item) db.discussions
  messages : ∀ id, id ≠ item.id → db'.messagesOf id = db.messagesOf id

theorem ids_of_writes (h : Writes item db db') :
    db'.discussions.map (·.id) = db.discussions.map (·.id) := by
  rw [h.rows, mapWhere, List.map_map]
  refine List.map_congr_left fun row _ => ?_
  simp only [Function.comp_apply]
  split <;> rfl

/-- What the call sees of a write of one of its discussions. -/
theorem view_of_writes (h : Writes item db db') :
    talk.view db' = (talk.view db).map fun p => if p.1 = item.id then item.phase else p := by
  have hconcerns (row : TaskDiscussion) : talk.concerns (row.rewritten item) = talk.concerns row := by
    cases talk with
    | operation op => cases op <;> rfl
    | _ => rfl
  unfold Talk.view
  rw [h.rows, filter_mapWhere hconcerns, mapWhere, List.map_map, List.map_map]
  refine List.map_congr_left fun row _ => ?_
  simp only [Function.comp_apply, TaskDiscussion.phase, decide_eq_true_eq]
  by_cases hid : row.id = item.id
  · simp [TaskDiscussion.rewritten, hid]
  · simp [hid]

/-- The discussion that a call knows of is as the call knows it. -/
theorem status_of_view (hkeys : (db.discussions.map (·.id)).Nodup)
    (hmem : item.phase ∈ talk.view db) (hrow : row ∈ db.discussions)
    (hid : row.id = item.id) : row.status = item.status := by
  obtain ⟨other, hother, hphase⟩ := List.mem_map.mp hmem
  obtain ⟨hid', hstatus⟩ := Prod.mk.inj hphase
  obtain rfl := List.inj_on_of_nodup_map hkeys (List.mem_of_mem_filter hother) hrow
    (hid'.trans hid.symm)
  exact hstatus

theorem progresses_of_writes (h : Writes item' db db') (hkeys : (db.discussions.map (·.id)).Nodup)
    (hmem : item.phase ∈ talk.view db) (hid : item'.id = item.id) (hopen : item.status ≠ .ended)
    (hstatus : item.status.Precedes item'.status) : Progresses db db' := by
  have hrow {row : TaskDiscussion} (hrow : row ∈ db.discussions) (hsame : row.id = item'.id) :
      row.status = item.status := status_of_view hkeys hmem hrow (hsame.trans hid)
  constructor
  · rw [h.rows]
    refine .of_forall₂ (forall₂_mapWhere fun row hmem hhit => ?_)
    have hsame := hrow hmem (of_decide_eq_true hhit)
    refine ⟨rfl, rfl, ?_, fun hended => absurd (hsame.symm.trans hended) hopen⟩
    rw [hsame]
    exact hstatus
  · intro row hmem hended
    refine h.messages row.id fun hsame => hopen ?_
    rw [← hrow hmem hsame]
    exact hended

theorem newestOpen_of_writes (h : Writes item' db db')
    (hkeys : (db.discussions.map (·.id)).Nodup) (hmem : item.phase ∈ talk.view db)
    (hid : item'.id = item.id) (hopen : item.status ≠ .ended) (hnewest : db.NewestOpen) :
    db'.NewestOpen := by
  have hback : ∀ row' ∈ db'.discussions, ∃ row ∈ db.discussions, row'.id = row.id ∧
      row'.taskID = row.taskID ∧ (row'.status ≠ .ended → row.status ≠ .ended) := by
    intro row' hrow'
    rw [h.rows] at hrow'
    obtain ⟨row, hrow, rfl⟩ := mem_mapWhere.mp hrow'
    refine ⟨row, hrow, ?_⟩
    split
    · rename_i hhit
      refine ⟨rfl, rfl, fun _ => ?_⟩
      rw [status_of_view hkeys hmem hrow ((of_decide_eq_true hhit).trans hid)]
      exact hopen
    · exact ⟨rfl, rfl, fun hstill => hstill⟩
  intro row' hrow' hopen' other' hother' htask
  obtain ⟨row, hrow, hrowID, hrowTask, hstill⟩ := hback row' hrow'
  obtain ⟨other, hother, hotherID, hotherTask, -⟩ := hback other' hother'
  rw [hrowID, hotherID]
  exact hnewest row hrow (hstill hopen') other hother
    (hotherTask.symm.trans (htask.trans hrowTask))

end Written

/-- What a call knows: the discussions `items` of its own as they are, and, where it has looked
for `all` of them, that none but these is open. -/
structure Holds (all : Bool) (items : List TaskDiscussion) (view : List (String × DiscussionStatus)) :
    Prop where
  known : ∀ item ∈ items, item.phase ∈ view
  opened : all = true → ∀ p ∈ view, p.2 ≠ .ended → ∃ item ∈ items, item.id = p.1

theorem Holds.write
    {view : List (String × DiscussionStatus)} (h : Holds all (done ++ item :: rest) view)
    (hids : ((done ++ item :: rest).map (·.id)).Nodup) (hid : item'.id = item.id) :
    Holds all (done ++ item' :: rest)
      (view.map fun p => if p.1 = item'.id then item'.phase else p) := by
  have hother : ∀ x ∈ done ++ rest, x.id ≠ item.id ∧ x ∈ done ++ item :: rest := by
    intro x hx
    rw [List.map_append, List.map_cons, List.nodup_middle, List.nodup_cons, ← List.map_append] at hids
    refine ⟨fun hsame => hids.1 (hsame ▸ List.mem_map_of_mem hx), ?_⟩
    rw [List.mem_append, List.mem_cons]
    exact (List.mem_append.mp hx).imp_right Or.inr
  constructor
  · intro x hx
    rw [List.mem_map]
    by_cases hnew : x = item'
    · exact ⟨item.phase, h.known item (by simp), by rw [hnew]; exact if_pos hid.symm⟩
    · have hx : x ∈ done ++ rest := by
        simp only [List.mem_append, List.mem_cons, hnew, false_or] at hx
        exact List.mem_append.mpr hx
      obtain ⟨hne, hmem⟩ := hother x hx
      exact ⟨x.phase, h.known x hmem, if_neg fun hsame => hne (hsame.trans hid)⟩
  · intro hall p' hp' hopen
    obtain ⟨p, hp, rfl⟩ := List.mem_map.mp hp'
    by_cases hsame : p.1 = item'.id
    · rw [if_pos hsame]
      exact ⟨item', by simp, rfl⟩
    · rw [if_neg hsame] at hopen ⊢
      obtain ⟨x, hx, hxid⟩ := h.opened hall p hp hopen
      refine ⟨x, ?_, hxid⟩
      have hne : x ≠ item := fun heq => hsame (by rw [← hxid, heq, hid])
      simp only [List.mem_append, List.mem_cons, hne, false_or] at hx ⊢
      exact hx.imp_right Or.inr

section Agreement

variable (talks : ι → Talk) (starts : ι → Nat) (newest : Bool)

/-- Call `i` starts behind `starts i` commits: it reads nothing before. It commits only where since
then no other call has changed the statuses of the discussions that it is about; and where `newest`
is asked for, it draws the names of discussions in order. -/
def Timely : Act ι Mutex → Scene ι Db → Prop
  | .sees i, s => starts i ≤ s.commits.length
  | .takes _ _, _ => True
  | .commits i, s => s.Undisturbed (talks i).view i (starts i) ∧
      (newest = true → (talks i).NamesNewest s.state)

instance [DecidableEq ι] (act : Act ι Mutex) (s : Scene ι Db) :
    Decidable (Timely talks starts newest act s) := by
  unfold Timely
  split <;> infer_instance

/-- What holds of the discussions in every run. -/
structure Orderly (s : Scene ι Db) : Prop where
  keys : (s.state.discussions.map (·.id)).Nodup
  commits : ∀ c ∈ s.commits, Progresses c.before c.after ∧ Progresses c.after s.state
  newestOpen : newest = true → s.state.NewestOpen

/-- What calls about discussions agree on: each of them commits what keeps them orderly, and relies
on nothing but the order of commits. -/
def talkAgreement : Agreement ι Db Mutex where
  ok := Timely talks starts newest
  mutex := .idempotency
  inv := Orderly newest
  rely i _ := Scene.Grows i
  guar i _ s s' := (∃ after, s' = s.commit i after) ∧ Orderly newest s'
  refl _ _ _ := Relation.ReflTransGen.refl
  trans h h' := Relation.ReflTransGen.trans h h'
  keeps_inv _ h := h.2
  compat := by
    intro i j _ _ s s' hne _ _ hguar
    obtain ⟨after, rfl⟩ := hguar.1
    exact Relation.ReflTransGen.single ⟨j, after, hne.symm, rfl⟩

variable {talks starts newest} {i : ι} {s : Scene ι Db} {after : Db}

theorem Orderly.commit (h : Orderly newest s) (hkeys : (after.discussions.map (·.id)).Nodup)
    (hprogress : Progresses s.state after) (hnewest : newest = true → after.NewestOpen) :
    Orderly newest (s.commit i after) := by
  refine ⟨hkeys, fun c hc => ?_, hnewest⟩
  rcases List.mem_cons.mp hc with rfl | hc
  · exact ⟨hprogress, .refl after⟩
  · exact ⟨(h.commits c hc).1, (h.commits c hc).2.trans hprogress⟩

theorem Orderly.writes {talk : Talk} (h : Orderly newest s)
    (hwrites : Writes item' s.state after) (hmem : item.phase ∈ talk.view s.state)
    (hid : item'.id = item.id) (hopen : item.status ≠ .ended)
    (hstatus : item.status.Precedes item'.status) : Orderly newest (s.commit i after) := by
  refine h.commit ?_ (progresses_of_writes hwrites h.keys hmem hid hopen hstatus) fun hasked =>
    newestOpen_of_writes hwrites h.keys hmem hid hopen (h.newestOpen hasked)
  rw [ids_of_writes hwrites]
  exact h.keys

/-- A call that is about no discussion leaves them as they are. -/
theorem Orderly.same (h : Orderly newest s) (hrows : after.discussions = s.state.discussions)
    (hmessages : after.discussionMessages = s.state.discussionMessages) :
    Orderly newest (s.commit i after) := by
  refine h.commit (by rw [hrows]; exact h.keys) ⟨?_, fun row _ _ => ?_⟩ fun hasked => ?_
  · rw [hrows]
    exact .of_forall₂ (List.forall₂_refl _)
  · unfold Db.messagesOf
    rw [hmessages]
  · unfold Db.NewestOpen
    rw [hrows]
    exact h.newestOpen hasked

/-- A transaction that writes back a discussion which the call knows. -/
theorem keeps_writes {β : Type} {t : TxM β} {held : Bool}
    (hknows : s.Knows (talks i).view i (starts i) (Holds all items)) (hmem : item ∈ items)
    (hopen : item.status ≠ .ended) (hid : item'.id = item.id)
    (hstatus : item.status.Precedes item'.status)
    (ht : ∀ db b after, t.run db = .ok (b, after) → Writes item' db after) :
    (Call.tx t : CallM β).Keeps (talkAgreement talks starts newest) i (fun _ _ _ => True) held s := by
  refine Call.keeps_tx fun s1 b after hrely hinv hrun hok => ?_
  have hview := ((hknows.grows hrely).known hok.1).known item hmem
  exact ⟨⟨⟨after, rfl⟩, Orderly.writes hinv (ht _ _ _ hrun) hview hid hopen hstatus⟩,
    fun _ _ _ => trivial⟩

end Agreement

theorem DiscussionStatus.Precedes.of_open {status : DiscussionStatus} (h : status ≠ .ended) :
    status.Precedes .ended := by
  cases status with
  | requested => trivial
  | active => exact nofun
  | ended => exact absurd rfl h

section Transactions

variable {u : Unit}

theorem writes_addDiscussionMessageTx {message : DiscussionMessage}
    (h : (addDiscussionMessageTx env item principal role body extra).run db = .ok (message, db')) :
    Writes (item.messaged role env.now) db db' := by
  obtain ⟨hof, event, rfl⟩ := addDiscussionMessageTx_ok h
  refine ⟨rfl, fun id hne => ?_⟩
  have hother : message.discussionID ≠ id := fun hsame => hne (hsame.symm.trans hof)
  simp [Db.messagesOf, List.filter_append, hother]

theorem writes_updateDiscussionTx (h : (updateDiscussionTx env item principal).run db = .ok (u, db')) :
    Writes item db db' := by
  obtain ⟨_, _, hupdate, hevent⟩ := Tx.run_bind_ok.mp h
  obtain rfl := updateDiscussion_ok hupdate
  obtain ⟨-, -, rfl⟩ := run_insertEvent_ok.mp hevent
  exact ⟨rfl, fun _ _ => rfl⟩

theorem writes_expireDiscussionTx (h : (expireDiscussionTx now eventID item).run db = .ok (u, db')):
    Writes (item.expired now) db db' := by
  obtain ⟨_, _, hupdate, hevent⟩ := Tx.run_bind_ok.mp h
  obtain rfl := updateDiscussion_ok hupdate
  obtain ⟨-, -, rfl⟩ := run_insertEvent_ok.mp hevent
  exact ⟨rfl, fun _ _ => rfl⟩

/-- A discussion that is started is a new one, and what is said in it comes with it. -/
theorem startDiscussionTx_ok
    (h : (startDiscussionTx env taskID controller message principal).run db = .ok (u, db')) :
    (∀ row ∈ db.discussions, row.id ≠ env.newID 0) ∧
      db'.discussions = db.discussions ++ [requestedDiscussion env taskID controller principal] ∧
      ∀ id, id ≠ env.newID 0 → db'.messagesOf id = db.messagesOf id := by
  obtain ⟨_, db1, hinsert, hrest⟩ := Tx.run_bind_ok.mp h
  obtain ⟨_, db2, hmessage, hevent⟩ := Tx.run_bind_ok.mp hrest
  obtain ⟨-, hfresh, rfl⟩ := Table.run_insert_ok.mp hinsert
  obtain ⟨-, -, rfl⟩ := run_insertEvent_ok.mp hevent
  refine ⟨fun row hrow hsame => hfresh row hrow (congrArg RowKey.discussion hsame), ?_⟩
  split at hmessage
  · obtain ⟨-, -, rfl⟩ := Table.run_insert_ok.mp hmessage
    refine ⟨rfl, fun id hne => ?_⟩
    simp [Db.messagesOf, discussionMessageTable, discussionTable, requestedDiscussion,
      List.filter_append, hne.symm]
  · obtain ⟨-, rfl⟩ := Tx.run_pure_ok.mp hmessage
    exact ⟨rfl, fun _ _ => rfl⟩

/-- What an update leaves of a discussion that was open. -/
theorem updatedDiscussion_ok (h : updatedDiscussion item request principal now = .ok item')
    (hopen : item.status ≠ .ended) :
    item'.id = item.id ∧ item.status.Precedes item'.status := by
  simp only [updatedDiscussion, pure_bind] at h
  split at h
  · obtain ⟨_, -, hlast⟩ := Except.bind_ok_iff.mp h
    cases hlast
    exact ⟨rfl, .refl _⟩
  · obtain ⟨_, -, hlast⟩ := Except.bind_ok_iff.mp h
    cases hlast
    by_cases hrequested : item.status = .requested
    · simp [hrequested, DiscussionStatus.Precedes]
    · simp [hrequested, DiscussionStatus.Precedes.refl]
  · obtain ⟨_, -, hlast⟩ := Except.bind_ok_iff.mp h
    cases hlast
    exact ⟨rfl, .of_open hopen⟩
  · cases h

end Transactions

section Calls

variable {talks : ι → Talk} {starts : ι → Nat} {newest : Bool} {i : ι} {s : Scene ι Db}
  {held : Bool}

/-- One turn of the loop that ends idle discussions. -/
theorem keeps_expireIdleDiscussion
    (hknows : s.Knows (talks i).view i (starts i) (Holds all (done ++ item :: rest)))
    (hids : ((done ++ item :: rest).map (·.id)).Nodup) :
    (expireIdleDiscussion now eventID item).Keeps (talkAgreement talks starts newest) i
      (fun _ item' s => item'.id = item.id ∧
        s.Knows (talks i).view i (starts i) (Holds all (done ++ item' :: rest))) held s := by
  refine Call.keeps_ite (fun hidle => ?_) fun _ =>
    Call.keeps_pure fun s1 hrely _ => ⟨rfl, hknows.grows hrely⟩
  have hopen : item.status ≠ .ended := (of_decide_eq_true hidle).1
  refine Call.keeps_attempt_bind (fun s1 _ after hrely hinv hrun hok => ?_) fun s1 e hrely _ => ?_
  · have hknows1 := hknows.grows hrely
    have hholds := hknows1.known hok.1
    have hwrites := writes_expireDiscussionTx hrun
    constructor
    · exact ⟨⟨after, rfl⟩, Orderly.writes hinv hwrites (hholds.known item (by simp)) rfl hopen
        (.of_open hopen)⟩
    · refine Call.keeps_pure fun s2 hrely2 _ => ⟨rfl, Scene.Knows.grows (hknows1.own ?_) hrely2⟩
      rw [view_of_writes hwrites]
      exact hholds.write hids rfl
  · have hknows1 := hknows.grows hrely
    split
    · rename_i heq
      cases heq
    · exact Call.keeps_pure fun s2 hrely2 _ => ⟨rfl, hknows1.grows hrely2⟩
    · exact Call.keeps_fail _

/-- The loop that ends idle discussions: what the call knows it still knows of what is left. -/
theorem keeps_expireIdleDiscussions {newID : Nat → String}
    (done : List TaskDiscussion) (index : Nat) (items : List TaskDiscussion)
    (hinv : Orderly newest s)
    (hknows : s.Knows (talks i).view i (starts i) (Holds all (done ++ items)))
    (hids : ((done ++ items).map (·.id)).Nodup) :
    (expireIdleDiscussions now newID index items).Keeps (talkAgreement talks starts newest) i
      (fun _ items' s => s.Knows (talks i).view i (starts i) (Holds all (done ++ items'))) held s := by
  induction items generalizing index done s held with
  | nil => exact Call.keeps_pure fun s1 hrely _ => hknows.grows hrely
  | cons item rest ih =>
      refine Call.keeps_bind ((keeps_expireIdleDiscussion hknows hids).mono
        fun held1 item' s1 hinv1 hpost => ?_) hinv
      obtain ⟨hid, hknows1⟩ := hpost
      have hids1 : (((done ++ [item']) ++ rest).map (·.id)).Nodup := by
        simpa [hid] using hids
      refine Call.keeps_bind ((ih (done ++ [item']) _ hinv1 (by simpa using hknows1)
        hids1).mono fun held2 others s2 _ hknows2 => ?_) hinv1
      exact Call.keeps_pure fun s3 hrely _ => by simpa using hknows2.grows hrely

/-- Adding a message to a discussion that the call knows. -/
theorem keeps_addDiscussionMessage
    (hknows : s.Knows (talks i).view i (starts i) (Holds all items)) (hmem : item ∈ items) :
    (addDiscussionMessage env item principal role body extra).Keeps
      (talkAgreement talks starts newest) i (fun _ _ _ => True) held s := by
  refine Call.keeps_lift_bind fun _ hcheck => ?_
  have hopen : item.status ≠ .ended := fun hended => refuse_ok_iff.mp hcheck (Or.inl hended)
  refine keeps_writes hknows hmem hopen ?_ ?_ fun _ _ _ => writes_addDiscussionMessageTx
  · rfl
  · exact .refl _

/-- A call that has read one discussion knows it. -/
theorem keeps_getDiscussion_bind {α : Type} {f : TaskDiscussion → CallM α}
    {post : Bool → α → Scene ι Db → Prop} (hconcerns : ∀ row, row.id = id → (talks i).concerns row)
    (h : ∀ s1 item, Orderly newest s1 →
      s1.Knows (talks i).view i (starts i) (Holds false [item]) →
      (f item).Keeps (talkAgreement talks starts newest) i post held s1) :
    (getDiscussion id >>= f).Keeps (talkAgreement talks starts newest) i post held s := by
  refine Call.keeps_lookOr_bind fun s1 item _ hinv hstarted hfound => h s1 item hinv ?_
  have hfound := found_ok_iff.mp hfound
  refine .of_read hstarted ⟨List.forall_mem_singleton.mpr ?_, nofun⟩
  have hid : item.id = id := by simpa using List.find?_some hfound
  exact List.mem_map_of_mem (List.mem_filter.mpr ⟨List.mem_of_find?_eq_some hfound, hconcerns item hid⟩)

theorem keeps_authorizedDiscussion_bind {α : Type}
    {f : TaskDiscussion → CallM α} {post : Bool → α → Scene ι Db → Prop}
    (hconcerns : ∀ row, row.id = trimSpace id → (talks i).concerns row)
    (h : ∀ s1 item, Orderly newest s1 →
      s1.Knows (talks i).view i (starts i) (Holds false [item]) →
      (f item).Keeps (talkAgreement talks starts newest) i post held s1) (hinv : Orderly newest s) :
    (authorizedDiscussion svc env id principal >>= f).Keeps (talkAgreement talks starts newest) i
      post held s := by
  refine Call.keeps_bind ?_ hinv
  refine keeps_getDiscussion_bind hconcerns fun s1 item hinv1 hknows => ?_
  refine Call.keeps_lift_bind fun _ _ => ?_
  refine Call.keeps_quiet_bind quiet_getForHidden (fun _ s2 hrely2 hinv2 => ?_) hinv1
  refine Call.keeps_lift_bind fun _ _ => ?_
  exact Call.keeps_pure fun s3 hrely3 hinv3 =>
    h s3 item hinv3 ((hknows.grows hrely2).grows hrely3)

theorem keeps_addDiscussionMessageFor {request : DiscussionMessageRequest}
    (hconcerns : ∀ row, row.id = trimSpace id → (talks i).concerns row)
    (hinv : Orderly newest s) :
    (addDiscussionMessageFor svc env id request principal).Keeps (talkAgreement talks starts newest) i
      (fun _ _ _ => True) held s := by
  refine Call.keeps_bind ?_ hinv
  refine keeps_authorizedDiscussion_bind hconcerns (fun s1 item hinv1 hknows => ?_) hinv
  refine Call.keeps_lift_bind fun _ _ => Call.keeps_pure fun s2 hrely2 hinv2 => ?_
  refine keeps_keyedAs hinv2 (fun _ _ _ _ _ _ _ => trivial) fun s3 s4 s5 hrely3 _ hrely4 _ hrely5 _ => ?_
  constructor
  · exact fun _ _ _ => Call.keeps_quiet (Call.quiet_lookOr _) fun _ _ _ _ => trivial
  · intro _
    have hknows5 := (((hknows.grows hrely2).grows hrely3).grows hrely4).grows hrely5
    exact keeps_addDiscussionMessage hknows5 (List.mem_singleton_self item)

theorem keeps_updateDiscussionFor
    (hconcerns : ∀ row, row.id = trimSpace id → (talks i).concerns row)
    (hinv : Orderly newest s) :
    (updateDiscussionFor svc env id request principal).Keeps (talkAgreement talks starts newest) i
      (fun _ _ _ => True) held s := by
  refine keeps_authorizedDiscussion_bind hconcerns (fun s1 item hinv1 hknows => ?_) hinv
  refine Call.keeps_lift_bind fun _ _ => Call.keeps_ite (fun _ => ?_) fun hopen => ?_
  · exact Call.keeps_lift_bind fun _ _ => Call.keeps_pure fun _ _ _ => trivial
  · refine Call.keeps_lift_bind fun item' hupdated => ?_
    obtain ⟨hid, hstatus⟩ := updatedDiscussion_ok hupdated hopen
    refine Call.keeps_bind ((keeps_writes hknows (List.mem_singleton_self item) hopen hid hstatus
      fun _ _ _ => writes_updateDiscussionTx).mono fun _ _ _ _ _ => ?_) hinv1
    exact Call.keeps_pure fun _ _ _ => trivial

theorem quiet_discussionsWithMessages (items : List TaskDiscussion) :
    (discussionsWithMessages items).Quiet := by
  induction items with
  | nil => exact Call.quiet_pure _
  | cons item rest ih =>
      exact Call.quiet_bind (Call.quiet_look _) fun _ => Call.quiet_bind ih fun _ =>
        Call.quiet_pure _

theorem keeps_getDiscussionFor {after : String}
    (hconcerns : ∀ row, row.id = trimSpace id → (talks i).concerns row) (hinv : Orderly newest s) :
    (getDiscussionFor svc env id after principal).Keeps (talkAgreement talks starts newest) i
      (fun _ _ _ => True) held s := by
  refine keeps_authorizedDiscussion_bind hconcerns (fun s1 item hinv1 hknows => ?_) hinv
  refine Call.keeps_bind ((keeps_expireIdleDiscussions [] 0 [item] hinv1 hknows
    (List.nodup_singleton _)).mono fun _ _ _ _ _ => ?_) hinv1
  exact Call.keeps_quiet (Call.quiet_bind (Call.quiet_look _) fun _ => Call.quiet_pure _)
    fun _ _ _ _ => trivial

section Listed

variable {lt : TaskDiscussion → TaskDiscussion → Bool} {p : TaskDiscussion → Bool} {n : Nat}

theorem nodup_listed (hkeys : (db.discussions.map (·.id)).Nodup) :
    (((sortBy lt (db.discussions.filter p)).take n).map (·.id)).Nodup := by
  have hsorted : ((sortBy lt (db.discussions.filter p)).map (·.id)).Nodup :=
    (((List.perm_insertionSort _ _).map _).nodup_iff).mpr (hkeys.sublist (List.filter_sublist.map _))
  exact hsorted.sublist ((List.take_sublist n _).map _)

theorem mem_listed (h : item ∈ (sortBy lt (db.discussions.filter p)).take n) :
    item ∈ db.discussions ∧ p item = true :=
  List.mem_filter.mp (mem_sortBy.mp (List.mem_of_mem_take h))

/-- The discussion with the greatest name stands first. -/
theorem newest_listed (hkeys : (db.discussions.map (·.id)).Nodup) (hrow : row ∈ db.discussions)
    (htask : row.taskID = taskID)
    (hnewest : ∀ other ∈ db.discussions, other.taskID = row.taskID → other.id ≤ row.id) :
    row ∈ db.listTaskDiscussions taskID 5 := by
  let later (a b : TaskDiscussion) : Prop := decide (a.id < b.id) = false
  have : Std.Total later := ⟨fun a b => by
    simp only [later, decide_eq_false_iff_not]
    exact (String.le_total b.id a.id).imp String.not_lt.mpr String.not_lt.mpr⟩
  have : IsTrans TaskDiscussion later := ⟨fun a b c hab hbc => by
    simp only [later, decide_eq_false_iff_not, String.not_lt] at hab hbc ⊢
    exact String.le_trans hbc hab⟩
  have hsorted := List.pairwise_insertionSort later (db.discussions.filter fun row => row.taskID = taskID)
  have hmem : row ∈ List.insertionSort later (db.discussions.filter fun row => row.taskID = taskID) := by
    simp [hrow, htask]
  have hsub : ∀ a ∈ List.insertionSort later (db.discussions.filter fun row => row.taskID = taskID),
      a ∈ db.discussions ∧ a.taskID = row.taskID := by
    simp [htask]
  show row ∈ (List.insertionSort later (db.discussions.filter fun row => row.taskID = taskID)).take 5
  generalize List.insertionSort later _ = rows at hsorted hmem hsub ⊢
  cases rows with
  | nil => simp at hmem
  | cons first rest =>
      rw [List.take_succ_cons, List.mem_cons]
      refine Or.inl ?_
      rcases List.mem_cons.mp hmem with hfirst | hrest
      · exact hfirst
      · -- nothing comes before the greatest name
        have hle := (List.pairwise_cons.mp hsorted).1 row hrest
        simp only [later, decide_eq_false_iff_not, String.not_lt] at hle
        obtain ⟨hin, hof⟩ := hsub first (by simp)
        exact List.inj_on_of_nodup_map hkeys hrow hin
          (String.le_antisymm hle (hnewest first hin hof))

end Listed

/-- A call that has read a list of discussions, all of which it is about, knows them. -/
theorem Holds.of_listed {talk : Talk}
    (h : ∀ item ∈ items, item ∈ db.discussions ∧ talk.concerns item = true) :
    Holds false items (talk.view db) :=
  ⟨fun item hitem => List.mem_map_of_mem (List.mem_filter.mpr (h item hitem)), nofun⟩

theorem keeps_listTaskDiscussionsFor
    (htalk : talks i = .listOfTask env taskID principal) (hinv : Orderly newest s) :
    (listTaskDiscussionsFor svc env taskID principal).Keeps (talkAgreement talks starts newest) i
      (fun _ _ _ => True) held s := by
  refine Call.keeps_bind (Call.keeps_returns quiet_getForHidden returns_getForHidden
    fun view s1 hid _ hinv1 => ?_) hinv
  refine Call.keeps_look_bind fun s2 _ hinv2 hstarted => ?_
  have hholds : Holds false (s2.state.listTaskDiscussions view.id 5) ((talks i).view s2.state) := by
    refine .of_listed fun item hitem => (mem_listed hitem).imp_right fun hof => ?_
    rw [htalk, Talk.concerns, ← hid]
    exact hof
  refine Call.keeps_bind ((keeps_expireIdleDiscussions [] 0 _ hinv2
    (.of_read hstarted hholds) (nodup_listed hinv2.keys)).mono fun _ _ _ _ _ => ?_) hinv2
  exact Call.keeps_quiet (quiet_discussionsWithMessages _) fun _ _ _ _ => trivial

theorem keeps_listControllerDiscussionsFor (htalk : talks i = .listOfController env principal):
    (listControllerDiscussionsFor svc env principal).Keeps (talkAgreement talks starts newest) i
      (fun _ _ _ => True) held s := by
  refine Call.keeps_lift_bind fun _ _ => ?_
  refine Call.keeps_look_bind fun s1 _ hinv1 hstarted => ?_
  have hholds : Holds false (s1.state.listControllerDiscussions principal.id 100)
      ((talks i).view s1.state) := by
    refine .of_listed fun item hitem => (mem_listed hitem).imp_right fun hof => ?_
    rw [htalk]
    exact (Bool.and_eq_true_iff.mp hof).1
  refine Call.keeps_bind ((keeps_expireIdleDiscussions [] 0 _ hinv1
    (.of_read hstarted hholds) (nodup_listed hinv1.keys)).mono fun _ _ _ _ _ => ?_) hinv1
  exact Call.keeps_quiet (quiet_discussionsOpenTo _) fun _ _ _ _ => trivial

/-- A discussion is started where the call has found none open, under the greatest name. -/
theorem Orderly.started {u : Unit} {after : Db} (h : Orderly newest s)
    (hrun : (startDiscussionTx env taskID controller message principal).run s.state =
      .ok (u, after))
    (hnone : newest = true → ∀ row ∈ s.state.discussions, row.taskID = taskID → row.status = .ended)
    (hnames : newest = true → ∀ row ∈ s.state.discussions, row.taskID = taskID →
      row.id < env.newID 0) : Orderly newest (s.commit i after) := by
  obtain ⟨hfresh, hrows, hmessages⟩ := startDiscussionTx_ok hrun
  refine h.commit ?_ ⟨?_, fun row hrow _ => hmessages row.id (hfresh row hrow)⟩ fun hasked => ?_
  · rw [hrows, List.map_append, List.nodup_append]
    refine ⟨h.keys, List.nodup_singleton _, fun a ha b hb hsame => ?_⟩
    obtain ⟨row, hrow, rfl⟩ := List.mem_map.mp ha
    obtain rfl := List.mem_singleton.mp hb
    exact hfresh row hrow hsame
  · rw [hrows]
    exact evolves_append trivial
  · intro row hrow hopen other hother htask
    rw [hrows] at hrow hother
    rcases List.mem_append.mp hrow with hold | hnew
    · rcases List.mem_append.mp hother with hold' | hnew'
      · exact h.newestOpen hasked row hold hopen other hold' htask
      · -- the task of an open discussion gets no other
        obtain rfl := List.mem_singleton.mp hnew'
        exact absurd (hnone hasked row hold htask.symm) hopen
    · obtain rfl := List.mem_singleton.mp hnew
      rcases List.mem_append.mp hother with hold' | hnew'
      · exact String.not_lt.mp (String.lt_asymm (hnames hasked other hold' htask))
      · obtain rfl := List.mem_singleton.mp hnew'
        exact String.le_refl _

theorem keeps_startDiscussionFor
    (htalk : talks i = .operation (.startDiscussion env taskID message principal))
    (hinv : Orderly newest s) :
    (startDiscussionFor svc env taskID message principal).Keeps (talkAgreement talks starts newest) i
      (fun _ _ _ => True) held s := by
  have hconcerns (row : TaskDiscussion) :
      (talks i).concerns row = decide (row.taskID = trimSpace taskID) := by
    rw [htalk]
    rfl
  refine Call.keeps_lift_bind fun _ _ => Call.keeps_lift_bind fun _ _ => ?_
  refine Call.keeps_bind (Call.keeps_returns quiet_getForHidden returns_getForHidden
    fun view s1 hid _ hinv1 => ?_) hinv
  refine Call.keeps_quiet_bind (Call.quiet_lookOr _) (fun controller s2 _ hinv2 => ?_) hinv1
  refine Call.keeps_look_bind fun s3 _ hinv3 hstarted => ?_
  have hholds : Holds newest (s3.state.listTaskDiscussions view.id 5) ((talks i).view s3.state) := by
    constructor
    · intro item hitem
      obtain ⟨hmem, hof⟩ := mem_listed hitem
      refine List.mem_map_of_mem (List.mem_filter.mpr ⟨hmem, ?_⟩)
      rw [hconcerns, ← hid]
      exact hof
    · intro hasked p hp hopen
      obtain ⟨row, hrow, rfl⟩ := List.mem_map.mp hp
      obtain ⟨hmem, hof⟩ := List.mem_filter.mp hrow
      rw [hconcerns, ← hid] at hof
      exact ⟨row, newest_listed hinv3.keys hmem (of_decide_eq_true hof)
        (hinv3.newestOpen hasked row hmem hopen), rfl⟩
  refine Call.keeps_bind ((keeps_expireIdleDiscussions [] 0 _ hinv3
    (.of_read hstarted hholds) (nodup_listed hinv3.keys)).mono
    fun held4 items s4 hinv4 hknows => ?_) hinv3
  split
  · rename_i item hfind
    refine Call.keeps_bind (Call.keeps_ite (fun _ => ?_) fun _ => ?_) hinv4
    · refine Call.keeps_bind ((keeps_addDiscussionMessage hknows
        (List.mem_of_find?_eq_some hfind)).mono fun _ _ _ _ _ => ?_) hinv4
      exact Call.keeps_pure fun _ _ _ => Call.keeps_quiet (Call.quiet_lookOr _) fun _ _ _ _ => trivial
    · exact Call.keeps_pure fun _ _ _ => Call.keeps_quiet (Call.quiet_lookOr _) fun _ _ _ _ => trivial
  · rename_i hfind
    refine Call.keeps_tx_bind fun s5 u after hrely hinv5 hrun hok => ?_
    refine ⟨⟨⟨after, rfl⟩, hinv5.started hrun (fun hasked row hrow hof => ?_) fun hasked => ?_⟩,
      Call.keeps_quiet (Call.quiet_lookOr _) fun _ _ _ _ => trivial⟩
    · by_contra hopen
      have hholds5 := (hknows.grows hrely).known hok.1
      have hview : row.phase ∈ (talks i).view s5.state := by
        refine List.mem_map_of_mem (List.mem_filter.mpr ⟨hrow, ?_⟩)
        rw [hconcerns, ← hid]
        exact decide_eq_true hof
      obtain ⟨item, hitem, hsame⟩ := hholds5.opened hasked _ hview hopen
      have hended : item.status = .ended := by
        simpa using List.find?_eq_none.mp hfind item hitem
      exact hopen ((status_of_view hinv5.keys (hholds5.known item hitem) hrow hsame.symm).trans hended)
    · have hnames := hok.2 hasked
      rw [htalk] at hnames
      rw [hid]
      exact hnames

/-- Every call keeps its part: those about discussions since they commit in time, all others since
they leave the discussions as they are. -/
theorem keeps_talk (hinv : Orderly newest s) :
    ((talks i).call svc).Keeps (talkAgreement talks starts newest) i (fun _ _ _ => True) held s := by
  have ends {α : Type} {c : CallM α} (hc : c.Keeps (talkAgreement talks starts newest) i
      (fun _ _ _ => True) held s) {γ : Type} {last : α → γ} :
      (c >>= fun a => pure (last a)).Keeps (talkAgreement talks starts newest) i
        (fun _ _ _ => True) held s :=
    Call.keeps_bind (hc.mono fun _ _ _ _ _ => Call.keeps_pure fun _ _ _ => trivial) hinv
  have other {op : Op} (hlg : Ledger.discussions ∉ op.ledgers) :
      (op.call svc).Keeps (talkAgreement talks starts newest) i (fun _ _ _ => True) held s := by
    refine Call.keeps_each (loose_call op) fun _ s1 after hinv1 hafter => ?_
    obtain ⟨hrows, hmessages⟩ := hafter.sameDiscussions hlg
    exact ⟨⟨after, rfl⟩, Orderly.same hinv1 hrows hmessages⟩
  cases htalk : talks i with
  | operation op =>
      refine ends ?_
      cases op with
      | startDiscussion => exact ends (keeps_startDiscussionFor htalk hinv)
      | addDiscussionMessage =>
          exact ends (keeps_addDiscussionMessageFor (fun row hid => by simp [htalk, Talk.concerns, hid])
            hinv)
      | updateDiscussion =>
          exact ends (keeps_updateDiscussionFor (fun row hid => by simp [htalk, Talk.concerns, hid])
            hinv)
      | _ => exact other (by simp [Op.ledgers])
  | get => exact ends (keeps_getDiscussionFor (fun row hid => by simp [htalk, Talk.concerns, hid]) hinv)
  | listOfTask => exact ends (keeps_listTaskDiscussionsFor htalk hinv)
  | listOfController => exact ends (keeps_listControllerDiscussionsFor htalk)

end Calls

section Runs

variable [DecidableEq ι] {talks : ι → Talk} {starts : ι → Nat} {newest : Bool}
  {process : Process ι Db RowKey ServiceError Mutex Unit}

theorem orderly_of_reaches (hkeys : (db.discussions.map (·.id)).Nodup)
    (hnewest : newest = true → db.NewestOpen)
    (h : process.Reaches (Timely talks starts newest) (fun i => (talks i).call svc) db) :
    Orderly newest process.scene := by
  have hinit : Orderly newest { state := db : Scene ι Db } :=
    ⟨hkeys, List.forall_mem_nil _, hnewest⟩
  have hkept : process.Kept (talkAgreement talks starts newest) fun _ _ _ _ => True :=
    Process.Reaches.kept h hinit fun i => keeps_talk hinit
  exact hkept.inv

/-- **Ended discussions stay ended.** However calls interleave, where each of them commits only
while no other has changed the statuses of the discussions that it is about: every commit takes
discussions on in their lives, and what has ended stays as it ended in all that comes later, with
no further message. -/
theorem ended_discussions_stay_ended (hkeys : (db.discussions.map (·.id)).Nodup)
    (h : process.Reaches (Timely talks starts false) (fun i => (talks i).call svc) db) :
    ∀ c ∈ process.scene.commits,
      Progresses c.before c.after ∧ Progresses c.after process.scene.state :=
  (orderly_of_reaches hkeys (fun hasked => Bool.noConfusion hasked) h).commits

/-- **One open discussion.** Where the open discussions of a board are the latest of their tasks,
and calls commit in time and name new discussions in order, no task ever has two that are open. -/
theorem one_open_discussion (hkeys : (db.discussions.map (·.id)).Nodup) (hnewest : db.NewestOpen)
    (h : process.Reaches (Timely talks starts true) (fun i => (talks i).call svc) db)
    (taskID : String) :
    (process.scene.state.discussions.filter fun row =>
      row.taskID = taskID ∧ row.status ≠ .ended).length ≤ 1 := by
  have horderly := orderly_of_reaches hkeys (fun _ => hnewest) h
  have hnodup : process.scene.state.discussions.Nodup := horderly.keys.of_map _
  refine length_le_one_of_nodup (hnodup.filter _) fun a ha b hb => ?_
  simp only [List.mem_filter, decide_eq_true_eq] at ha hb
  have htask : b.taskID = a.taskID := hb.2.1.trans ha.2.1.symm
  have hle := horderly.newestOpen rfl a ha.1 ha.2.2 b hb.1 htask
  have hge := horderly.newestOpen rfl b hb.1 hb.2.2 a ha.1 htask.symm
  exact List.inj_on_of_nodup_map horderly.keys ha.1 hb.1 (String.le_antisymm hge hle)

end Runs

section Samples

/-- An agent at work says that it accepts discussions. -/
def advertiseOp : Op :=
  .advertise (.numbered 4 0) { capabilities := ["discussion"] } (sampleAgent "builder")

/-- A person asks for a discussion of the agent's task. -/
def askOp (call : Nat) (name : String) : Op :=
  .startDiscussion (.numbered call 200) "0100" "" (humanPrincipal name .owner)

/-- The agent writes the status of a discussion. -/
def answerOp (call : Nat) (status : String) : Op :=
  .updateDiscussion (.numbered call 300) "0500" { status } (sampleAgent "builder")

def sayOp (call : Nat) (principal : Principal) : Op :=
  .addDiscussionMessage (.numbered call 400) "0500" { body := "Hello?" } principal

def talkBoard : Db :=
  Op.run .ascii [startOp, advertiseOp] {}

/-- A board with a discussion under way. -/
def activeBoard : Db :=
  Op.run .ascii [askOp 5 "ann", answerOp 6 "active"] talkBoard

/-- The calls take these turns. -/
def talking {ι : Type} [DecidableEq ι] (ok : Act ι Mutex → Scene ι Db → Prop)
    [∀ act scene, Decidable (ok act scene)] (ops : ι → Op) (db : Db) (turns : List ι) :
    Process ι Db RowKey ServiceError Mutex Unit :=
  Process.schedule ok
    { scene := { state := db }, pending := fun i => (Talk.operation (ops i)).call .ascii } turns

/-- A person says something while the agent ends the discussion. -/
def partingOps : Fin 2 → Op
  | 0 => sayOp 7 (humanPrincipal "ann" .owner)
  | 1 => answerOp 8 "ended"

/-- The person's call has read the discussion when the agent ends it, and writes it back as it was:
the ended discussion is active again, with a new message. -/
theorem ended_discussion_reopens :
    (talking (fun _ _ => True) partingOps activeBoard
        (List.replicate 1 0 ++ List.replicate 60 1 ++ List.replicate 60 0)).Reaches
          (fun _ _ => True) (fun i => (Talk.operation (partingOps i)).call .ascii) activeBoard ∧
      ∃ c ∈ (talking (fun _ _ => True) partingOps activeBoard
          (List.replicate 1 0 ++ List.replicate 60 1 ++ List.replicate 60 0)).scene.commits,
        c.before.discussions.map TaskDiscussion.phase = [("0500", .ended)] ∧
          c.after.discussions.map TaskDiscussion.phase = [("0500", .active)] ∧
          (c.before.messagesOf "0500").length = 0 ∧ (c.after.messagesOf "0500").length = 1 :=
  ⟨Process.Reaches.start.schedule _, by decide +kernel⟩

/-- Both say something at once, and then the agent ends the discussion. -/
def chattingOps : Fin 3 → Op
  | 0 => sayOp 7 (humanPrincipal "ann" .owner)
  | 1 => sayOp 8 (sampleAgent "builder")
  | 2 => answerOp 9 "ended"

/-- The last call starts when the messages are there. -/
def chattingStarts (i : Fin 3) : Nat :=
  if i.val = 2 then 2 else 0

/-- The two messages do not get in each other's way, and the discussion ends for good. -/
theorem discussion_ends_for_good :
    let process := talking (Timely (fun i => .operation (chattingOps i)) chattingStarts false) chattingOps
      activeBoard ((List.replicate 60 [0, 1]).flatten ++ List.replicate 60 2)
    process.scene.state.discussions.map TaskDiscussion.phase = [("0500", .ended)] ∧
      (process.scene.state.messagesOf "0500").length = 2 ∧ process.scene.commits.length = 3 ∧
      ∀ c ∈ process.scene.commits,
        Progresses c.before c.after ∧ Progresses c.after process.scene.state := by
  intro process
  have hreaches : process.Reaches (Timely (fun i => .operation (chattingOps i)) chattingStarts false)
      (fun i => (Talk.operation (chattingOps i)).call .ascii) activeBoard :=
    Process.Reaches.start.schedule _
  refine ⟨by decide +kernel, by decide +kernel, by decide +kernel, ?_⟩
  exact ended_discussions_stay_ended (by decide +kernel) hreaches

/-- Two people ask at once. -/
def askingOps : Fin 2 → Op
  | 0 => askOp 5 "ann"
  | 1 => askOp 6 "bob"

/-- Both calls find no discussion of the task, and both start one. -/
theorem two_open_discussions :
    (talking (fun _ _ => True) askingOps talkBoard
        (List.replicate 9 0 ++ List.replicate 60 1 ++ List.replicate 60 0)).Reaches
          (fun _ _ => True) (fun i => (Talk.operation (askingOps i)).call .ascii) talkBoard ∧
      ((talking (fun _ _ => True) askingOps talkBoard
        (List.replicate 9 0 ++ List.replicate 60 1 ++ List.replicate 60 0)).scene.state.discussions.filter
          fun row => row.taskID = "0100" ∧ row.status ≠ .ended).length = 2 :=
  ⟨Process.Reaches.start.schedule _, by decide +kernel⟩

/-- One asks, the agent ends the discussion, and another asks. -/
def againOps : Fin 3 → Op
  | 0 => askOp 5 "ann"
  | 1 => answerOp 6 "ended"
  | 2 => askOp 7 "bob"

theorem asking_again_opens_one :
    let process := talking (Timely (fun i => .operation (againOps i)) (fun i => i) true) againOps
      talkBoard (List.replicate 60 0 ++ List.replicate 60 1 ++ List.replicate 60 2)
    process.scene.state.discussions.map TaskDiscussion.phase =
        [("0500", .ended), ("0700", .requested)] ∧
      (process.scene.state.discussions.filter fun row =>
        row.taskID = "0100" ∧ row.status ≠ .ended).length ≤ 1 := by
  intro process
  have hnone : talkBoard.discussions = [] := by decide +kernel
  have hreaches : process.Reaches (Timely (fun i => .operation (againOps i)) (fun i => i) true)
      (fun i => (Talk.operation (againOps i)).call .ascii) talkBoard :=
    Process.Reaches.start.schedule _
  refine ⟨by decide +kernel, ?_⟩
  exact one_open_discussion (by simp [hnone]) (by simp [Db.NewestOpen, hnone]) hreaches "0100"

end Samples

end Taskboard
