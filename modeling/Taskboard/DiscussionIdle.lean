import Taskboard.DiscussionLife
import Taskboard.LeaseTimes

/-!
# Idle discussions

A discussion in which nothing has happened for half an hour is over, even where nobody has ended it
yet: the queries end what they come upon, and a message is refused. Only the general update of a
discussion does not look at the time. With it a controller takes up a discussion that has been idle
(`idle_discussion_is_prolonged`). Where it does not, an idle discussion stays as it is until it is
ended, whatever calls come one after another (`idle_discussions_only_end`).
-/

namespace Taskboard

variable {db2 db db' : Db} {now clock : Instant} {item' : TaskDiscussion}
  {request : UpdateDiscussionRequest} {svc : Service}

variable {discussionID : String} {item : TaskDiscussion}

/-- What the call draws. -/
def Talk.env : Talk → Env
  | .operation op => op.env
  | .get env .. | .listOfTask env .. | .listOfController env .. => env

/-- The database after the call ran alone. -/
def Talk.step (svc : Service) (talk : Talk) (db : Db) : Db :=
  ((talk.call svc).exec db).2

/-- The discussion has been ended, by one of the two or for being idle; nothing else has changed. -/
def TaskDiscussion.Ends (row row' : TaskDiscussion) : Prop :=
  row.status ≠ .ended ∧ ∃ reason last at', row' =
    { row with
      status := .ended
      agentStatus := ""
      endReason := reason
      lastActivityAt := last
      endedAt := some at' }

/-- Half an hour has passed since anything happened. -/
def TaskDiscussion.Lapsed (row : TaskDiscussion) (clock : Instant) : Prop :=
  discussionIdle ≤ clock - row.lastActivityAt

instance (row : TaskDiscussion) (clock : Instant) : Decidable (row.Lapsed clock) :=
  inferInstanceAs (Decidable (discussionIdle ≤ clock - row.lastActivityAt))

/-- An update of a discussion ends it, or the discussion has not been idle. -/
def Talk.Awake (talk : Talk) (db : Db) : Prop :=
  match talk with
  | .operation (.updateDiscussion env discussionID request _) =>
      request.status = "ended" ∨
        ∀ row ∈ db.discussions, row.id = trimSpace discussionID → row.idle env.now = false
  | _ => True

/-- One call that `ok` allows, at times that do not go back. -/
def TalkStep (svc : Service) (ok : Talk → Db → Prop) (s s' : Instant × Db) : Prop :=
  ∃ talk : Talk, ok talk s.2 ∧ s.1 ≤ talk.env.checked ∧ talk.env.checked ≤ talk.env.now ∧
    s' = (talk.env.now, talk.step svc s.2)

/-- What has ended, or has been idle at this time, stays as it is or ends, with no further
message. -/
structure Lapses (clock : Instant) (db db' : Db) : Prop where
  rows : ∀ row ∈ db.discussions, row.status = .ended ∨ row.Lapsed clock →
    row ∈ db'.discussions ∨ ∃ row' ∈ db'.discussions, row.Ends row'
  messages : ∀ row ∈ db.discussions, row.status = .ended ∨ row.Lapsed clock →
    db'.messagesOf row.id = db.messagesOf row.id

section Lapses

variable {db'' : Db}

theorem Lapses.refl (clock : Instant) (db : Db) : Lapses clock db db :=
  ⟨fun _ hrow _ => Or.inl hrow, fun _ _ _ => rfl⟩

theorem Lapses.trans (h : Lapses clock db db') (h' : Lapses clock db' db'') :
    Lapses clock db db'' := by
  constructor
  · intro row hrow hover
    rcases h.rows row hrow hover with hsame | ⟨row', hrow', hends⟩
    · exact h'.rows row hsame hover
    · obtain ⟨reason, last, at', rfl⟩ := hends.2
      rcases h'.rows _ hrow' (Or.inl rfl) with hsame | ⟨row'', -, hagain⟩
      · exact Or.inr ⟨_, hsame, hends⟩
      · exact absurd rfl hagain.1
  · intro row hrow hover
    rcases h.rows row hrow hover with hsame | ⟨row', hrow', hends⟩
    · exact (h'.messages row hsame hover).trans (h.messages row hrow hover)
    · obtain ⟨reason, last, at', rfl⟩ := hends.2
      exact (h'.messages _ hrow' (Or.inl rfl)).trans (h.messages row hrow hover)

theorem Lapses.of_eq (hrows : db'.discussions = db.discussions)
    (hmessages : db'.discussionMessages = db.discussionMessages) : Lapses clock db db' := by
  constructor
  · intro row hrow _
    rw [hrows]
    exact Or.inl hrow
  · intro row _ _
    rw [Db.messagesOf, hmessages, Db.messagesOf]

/-- A discussion that is open is written back: where it has been idle, it is ended. -/
theorem Lapses.of_writes (h : Writes item' db db') (hkeys : (db.discussions.map (·.id)).Nodup)
    (hmem : item ∈ db.discussions) (hid : item'.id = item.id) (hopen : item.status ≠ .ended)
    (hlapsed : item.Lapsed clock → item.Ends (item.rewritten item') ∧
      db'.discussionMessages = db.discussionMessages) : Lapses clock db db' := by
  have hself : ∀ row ∈ db.discussions, row.id = item'.id → row = item := by
    intro row hrow hsame
    exact List.inj_on_of_nodup_map hkeys hrow hmem (hsame.trans hid)
  constructor
  · intro row hrow hover
    by_cases hsame : row.id = item'.id
    · obtain rfl := hself row hrow hsame
      refine Or.inr ⟨_, ?_, (hlapsed (hover.resolve_left hopen)).1⟩
      rw [h.rows, mem_mapWhere]
      exact ⟨row, hrow, by simp [hsame]⟩
    · refine Or.inl ?_
      rw [h.rows, mem_mapWhere]
      exact ⟨row, hrow, by simp [hsame]⟩
  · intro row hrow hover
    by_cases hsame : row.id = item'.id
    · obtain rfl := hself row hrow hsame
      rw [Db.messagesOf, (hlapsed (hover.resolve_left hopen)).2, Db.messagesOf]
    · exact h.messages row.id hsame

end Lapses

/-- What every call keeps: identifiers are unique, and what is over is over. -/
def KeepsLapsed (clock : Instant) (db db' : Db) : Prop :=
  (db'.discussions.map (·.id)).Nodup ∧ Lapses clock db db'

section Calls

variable {env : Env} {db1 : Db} {principal : Principal}

theorem KeepsLapsed.trans (h : KeepsLapsed clock db db1) (h' : KeepsLapsed clock db1 db2) :
    KeepsLapsed clock db db2 :=
  ⟨h'.1, h.2.trans h'.2⟩

theorem KeepsLapsed.writes (h : KeepsLapsed clock db db1)
    (hwrites : Writes item' db1 db2) (hmem : item ∈ db1.discussions) (hid : item'.id = item.id)
    (hopen : item.status ≠ .ended)
    (hlapsed : item.Lapsed clock → item.Ends (item.rewritten item') ∧
      db2.discussionMessages = db1.discussionMessages) : KeepsLapsed clock db db2 := by
  refine h.trans ⟨?_, .of_writes hwrites h.1 hmem hid hopen hlapsed⟩
  rw [ids_of_writes hwrites]
  exact h.1

theorem TaskDiscussion.ends_expired (hopen : item.status ≠ .ended)
    (now : Instant) : item.Ends (item.rewritten (item.expired now)) :=
  ⟨hopen, _, _, now, rfl⟩

theorem messages_of_updateDiscussion {event : Event} {u : Unit}
    (h : (updateDiscussion item >>= fun _ => insertEvent event).run db = .ok (u, db1)) :
    db1.discussionMessages = db.discussionMessages := by
  obtain ⟨_, _, hupdate, hevent⟩ := Tx.run_bind_ok.mp h
  obtain rfl := updateDiscussion_ok hupdate
  obtain ⟨-, -, rfl⟩ := run_insertEvent_ok.mp hevent
  rfl

/-- One turn of the loop that ends idle discussions. -/
theorem yields_expireIdleDiscussion {eventID : String}
    (h : KeepsLapsed clock db db1) (hmem : item ∈ db1.discussions) :
    (expireIdleDiscussion now eventID item).Yields db1
      (fun item' db2 => KeepsLapsed clock db db2 ∧ item' ∈ db2.discussions ∧ item'.id = item.id ∧
        ∀ row ∈ db1.discussions, row.id ≠ item.id → row ∈ db2.discussions)
      (KeepsLapsed clock db) := by
  refine Call.yields_ite (fun hidle => ?_) fun _ =>
    Call.yields_pure ⟨h, hmem, rfl, fun _ hrow _ => hrow⟩
  have hopen : item.status ≠ .ended := (of_decide_eq_true hidle).1
  refine Call.yields_attempt_bind (fun _ db2 hrun => ?_) fun e => ?_
  · have hwrites := writes_expireDiscussionTx hrun
    refine Call.yields_pure ⟨?_, ?_, rfl, fun row hrow hne => ?_⟩
    · exact h.writes hwrites hmem rfl hopen fun _ =>
        ⟨TaskDiscussion.ends_expired hopen now, messages_of_updateDiscussion hrun⟩
    · rw [hwrites.rows, mem_mapWhere]
      exact ⟨item, hmem, by simp [TaskDiscussion.expired, TaskDiscussion.rewritten]⟩
    · rw [hwrites.rows, mem_mapWhere]
      exact ⟨row, hrow, by simp [TaskDiscussion.expired, hne]⟩
  · split
    next heq => cases heq
    next => exact Call.yields_pure ⟨h, hmem, rfl, fun _ hrow _ => hrow⟩
    next => exact Call.yields_fail h

/-- The loop that ends idle discussions: those that it returns are as they stand. -/
theorem yields_expireIdleDiscussions (now : Instant) (newID : Nat → String) (index : Nat)
    (items : List TaskDiscussion) (h : KeepsLapsed clock db db1)
    (hmem : ∀ item ∈ items, item ∈ db1.discussions) (hids : (items.map (·.id)).Nodup) :
    (expireIdleDiscussions now newID index items).Yields db1
      (fun items' db2 => KeepsLapsed clock db db2 ∧ (∀ item ∈ items', item ∈ db2.discussions) ∧
        ∀ row ∈ db1.discussions, row.id ∉ items.map (·.id) → row ∈ db2.discussions)
      (KeepsLapsed clock db) := by
  induction items generalizing index db1 with
  | nil => exact Call.yields_pure ⟨h, fun _ hnone => absurd hnone List.not_mem_nil, fun _ hrow _ => hrow⟩
  | cons item rest ih =>
      rw [List.map_cons, List.nodup_cons] at hids
      refine Call.yields_bind ((yields_expireIdleDiscussion h (hmem item List.mem_cons_self)).mono
        (fun item' db2 hturn => ?_) fun _ hfails => hfails)
      obtain ⟨hkept, hitem', hid, hothers⟩ := hturn
      have hrest : ∀ other ∈ rest, other ∈ db2.discussions := by
        intro other hother
        refine hothers other (hmem other (List.mem_cons_of_mem _ hother)) fun hsame => hids.1 ?_
        rw [← hsame]
        exact List.mem_map_of_mem hother
      refine Call.yields_bind ((ih (index + 1) hkept hrest hids.2).mono (fun others db3 hloop => ?_)
        fun _ hfails => hfails)
      obtain ⟨hkept', hothers', hframe⟩ := hloop
      refine Call.yields_pure ⟨hkept', ?_, ?_⟩
      · intro other hother
        rcases List.mem_cons.mp hother with rfl | hother
        · exact hframe _ hitem' (hid ▸ hids.1)
        · exact hothers' other hother
      · intro row hrow hnot
        rw [List.map_cons, List.mem_cons, not_or] at hnot
        exact hframe row (hothers row hrow hnot.1) hnot.2

theorem exec_authorizedDiscussion_ok
    (h : (authorizedDiscussion svc env discussionID principal).exec db = (.ok item, db)) :
    item ∈ db.discussions ∧ item.id = trimSpace discussionID := by
  obtain ⟨found, hfound, hrest⟩ := Call.exec_bind_quiet_ok (Call.quiet_lookOr _) h
  obtain ⟨_, -, hrest⟩ := Call.exec_lift_bind_ok hrest
  obtain ⟨_, -, hrest⟩ := Call.exec_bind_quiet_ok quiet_getForHidden hrest
  obtain ⟨_, -, hrest⟩ := Call.exec_lift_bind_ok hrest
  cases hrest
  rw [Call.exec_lookOr, Prod.mk.injEq, found_ok_iff] at hfound
  exact ⟨List.mem_of_find?_eq_some hfound.1, by simpa using List.find?_some hfound.1⟩

/-- A message is refused where the discussion has been idle. -/
theorem yields_addDiscussionMessage {role body : String} {extra : Payload}
    (hclock : clock ≤ env.now) (h : KeepsLapsed clock db db1) (hmem : item ∈ db1.discussions) :
    (addDiscussionMessage env item principal role body extra).Yields db1
      (fun _ => KeepsLapsed clock db) (KeepsLapsed clock db) := by
  refine Call.yields_lift_bind h fun _ hcheck => ?_
  have hlive := refuse_ok_iff.mp hcheck
  refine Call.yields_tx h fun message db2 hrun => ?_
  have hwrites := writes_addDiscussionMessageTx hrun
  refine h.writes hwrites hmem rfl (fun hended => hlive (Or.inl hended)) fun hlapsed => ?_
  refine absurd (Or.inr ?_) hlive
  unfold TaskDiscussion.Lapsed at hlapsed
  exact Int.le_trans hlapsed (Int.sub_le_sub_right hclock _)

theorem yields_addDiscussionMessageFor {request : DiscussionMessageRequest}
    (hclock : clock ≤ env.now) (h : KeepsLapsed clock db db) :
    (addDiscussionMessageFor svc env discussionID request principal).Yields db
      (fun _ => KeepsLapsed clock db) (KeepsLapsed clock db) := by
  refine Call.yields_quiet_bind quiet_mayAddDiscussionMessage h fun item hitem => ?_
  obtain ⟨item', hitem', hrest⟩ := Call.exec_bind_quiet_ok quiet_authorizedDiscussion hitem
  obtain ⟨_, -, hrest⟩ := Call.exec_lift_bind_ok hrest
  cases hrest
  refine yields_keyedAs h (fun event => ?_) ?_
  · exact Call.yields_quiet (Call.quiet_lookOr _) h fun _ _ => h
  · exact yields_addDiscussionMessage hclock h (exec_authorizedDiscussion_ok hitem').1

/-- An update that ends the discussion. -/
theorem updatedDiscussion_ended (h : updatedDiscussion item request principal now = .ok item')
    (hended : request.status = "ended") (hopen : item.status ≠ .ended) :
    item.Ends (item.rewritten item') := by
  simp only [updatedDiscussion, hended, pure_bind] at h
  obtain ⟨_, -, hlast⟩ := Except.bind_ok_iff.mp h
  cases hlast
  have hagent : (if request.agentStatus ≠ "" ∧ DiscussionStatus.ended = .active then
      request.agentStatus else "") = "" := by simp
  exact ⟨hopen, _, _, _, by rw [TaskDiscussion.rewritten, hagent]⟩

theorem yields_updateDiscussionFor (hclock : clock ≤ env.now) (h : KeepsLapsed clock db db)
    (hawake : (Talk.operation (.updateDiscussion env discussionID request principal)).Awake db) :
    (updateDiscussionFor svc env discussionID request principal).Yields db
      (fun _ => KeepsLapsed clock db) (KeepsLapsed clock db) := by
  refine Call.yields_quiet_bind quiet_authorizedDiscussion h fun item hitem => ?_
  obtain ⟨hmem, hid⟩ := exec_authorizedDiscussion_ok hitem
  refine Call.yields_lift_bind h fun _ _ => ?_
  refine Call.yields_ite (fun _ => Call.yields_lift_bind h fun _ _ => Call.yields_pure h)
    fun hopen => ?_
  refine Call.yields_lift_bind h fun item' hupdated => ?_
  refine Call.yields_bind (Call.yields_tx h fun _ db2 hrun => Call.yields_pure ?_)
  refine h.writes (writes_updateDiscussionTx hrun) hmem (updatedDiscussion_ok hupdated hopen).1 hopen
    fun hlapsed => ?_
  have hidle : item.idle env.now = true := by
    unfold TaskDiscussion.Lapsed at hlapsed
    exact decide_eq_true ⟨hopen, Int.le_trans hlapsed (Int.sub_le_sub_right hclock _)⟩
  rcases hawake with hended | hlive
  · exact ⟨updatedDiscussion_ended hupdated hended hopen, messages_of_updateDiscussion hrun⟩
  · exact absurd hidle (by rw [hlive item hmem hid]; exact Bool.false_ne_true)

theorem yields_startDiscussionFor {taskID message : String} (hclock : clock ≤ env.now)
    (h : KeepsLapsed clock db db) :
    (startDiscussionFor svc env taskID message principal).Yields db
      (fun _ => KeepsLapsed clock db) (KeepsLapsed clock db) := by
  have hget {db2 : Db} (hkept : KeepsLapsed clock db db2) (id : String) :
      (getDiscussion id).Yields db2 (fun _ => KeepsLapsed clock db) (KeepsLapsed clock db) :=
    Call.yields_quiet (Call.quiet_lookOr _) hkept fun _ _ => hkept
  refine Call.yields_lift_bind h fun _ _ => ?_
  refine Call.yields_lift_bind h fun _ _ => ?_
  refine Call.yields_quiet_bind quiet_getForHidden h fun task _ => ?_
  refine Call.yields_quiet_bind (Call.quiet_lookOr _) h fun controller _ => ?_
  have hkeys := h.1
  refine Call.yields_quiet_bind (Call.quiet_look _) h fun existing hexisting => ?_
  rw [Call.exec_look, Prod.mk.injEq, Except.ok.injEq] at hexisting
  obtain ⟨rfl, -⟩ := hexisting
  have hloop := yields_expireIdleDiscussions env.checked (fun index => env.newID (3 + index)) 0
    (db.listTaskDiscussions task.id 5) h
    (fun _ hitem => (mem_listed hitem).1) (nodup_listed hkeys)
  refine Call.yields_bind (hloop.mono (fun existing db2 hlisted => ?_) fun _ hfails => hfails)
  obtain ⟨hkept, hcurrent, -⟩ := hlisted
  split
  next item hitem =>
    refine Call.yields_bind (Call.yields_ite (fun _ => ?_) fun _ => Call.yields_pure (hget hkept _))
    have hmem := hcurrent item (List.mem_of_find?_eq_some hitem)
    exact Call.yields_bind ((yields_addDiscussionMessage hclock hkept hmem).mono
      (fun _ _ hkept' => Call.yields_pure (hget hkept' _)) fun _ hfails => hfails)
  next =>
    refine Call.yields_bind (Call.yields_tx hkept fun _ db3 hrun => hget ?_ _)
    obtain ⟨hfresh, hrows, hmessages⟩ := startDiscussionTx_ok hrun
    refine hkept.trans ⟨?_, ?_, ?_⟩
    · rw [hrows, List.map_append, List.nodup_append]
      refine ⟨hkept.1, List.nodup_singleton _, fun a ha b hb hsame => ?_⟩
      obtain ⟨row, hrow, rfl⟩ := List.mem_map.mp ha
      obtain rfl := List.mem_singleton.mp hb
      exact hfresh row hrow hsame
    · intro row hrow _
      rw [hrows]
      exact Or.inl (List.mem_append_left _ hrow)
    · exact fun row hrow _ => hmessages row.id (hfresh row hrow)

/-- **One call.** -/
theorem keepsLapsed_step {talk : Talk} (hkeys : (db.discussions.map (·.id)).Nodup)
    (hclock : clock ≤ talk.env.now) (hawake : talk.Awake db) :
    KeepsLapsed clock db (talk.step svc db) := by
  have h : KeepsLapsed clock db db := ⟨hkeys, .refl clock db⟩
  have expire {α : Type} {items : List TaskDiscussion} {f : List TaskDiscussion → CallM α}
      (now : Instant) (newID : Nat → String) (hmem : ∀ item ∈ items, item ∈ db.discussions)
      (hids : (items.map (·.id)).Nodup) (hf : ∀ items, (f items).Quiet) :
      (expireIdleDiscussions now newID 0 items >>= f).Yields db (fun _ => KeepsLapsed clock db)
        (KeepsLapsed clock db) :=
    Call.yields_bind ((yields_expireIdleDiscussions now newID 0 items h hmem hids).mono
      (fun _ _ hpost => Call.yields_quiet (hf _) hpost.1 fun _ _ => hpost.1) fun _ hfails => hfails)
  have ends {α β : Type} {c : CallM α} {last : α → β}
      (hc : c.Yields db (fun _ => KeepsLapsed clock db) (KeepsLapsed clock db)) :
      (c >>= fun a => pure (last a)).Yields db (fun _ => KeepsLapsed clock db)
        (KeepsLapsed clock db) :=
    Call.yields_bind (hc.mono (fun _ _ hpost => Call.yields_pure hpost) fun _ hfails => hfails)
  have other {op : Op} (hlg : Ledger.discussions ∉ op.ledgers) :
      (op.call svc).Yields db (fun _ => KeepsLapsed clock db) (KeepsLapsed clock db) := by
    obtain ⟨hrows, hmessages⟩ := ((loose_call op).exec db).sameDiscussions hlg
    exact Call.yields_of_exec ⟨hrows ▸ hkeys, .of_eq hrows hmessages⟩
  refine Call.Yields.exec ?_
  cases talk with
  | operation op =>
      refine ends ?_
      cases op with
      | startDiscussion => exact ends (yields_startDiscussionFor hclock h)
      | addDiscussionMessage => exact ends (yields_addDiscussionMessageFor hclock h)
      | updateDiscussion => exact ends (yields_updateDiscussionFor hclock h hawake)
      | _ => exact other (by simp [Op.ledgers])
  | get env discussionID after principal =>
      refine ends (Call.yields_quiet_bind quiet_authorizedDiscussion h fun item hitem => ?_)
      refine expire _ _ ?_ (List.nodup_singleton _) fun _ => ?_
      · exact List.forall_mem_singleton.mpr (exec_authorizedDiscussion_ok hitem).1
      · exact Call.quiet_bind (Call.quiet_look _) fun _ => Call.quiet_pure _
  | listOfTask env taskID principal =>
      refine ends (Call.yields_quiet_bind quiet_getForHidden h fun task _ => ?_)
      refine Call.yields_quiet_bind (Call.quiet_look _) h fun items hitems => ?_
      rw [Call.exec_look, Prod.mk.injEq, Except.ok.injEq] at hitems
      obtain ⟨rfl, -⟩ := hitems
      exact expire _ _ (fun _ hitem => (mem_listed hitem).1) (nodup_listed hkeys)
        quiet_discussionsWithMessages
  | listOfController env principal =>
      refine ends (Call.yields_lift_bind h fun _ _ => ?_)
      refine Call.yields_quiet_bind (Call.quiet_look _) h fun items hitems => ?_
      rw [Call.exec_look, Prod.mk.injEq, Except.ok.injEq] at hitems
      obtain ⟨rfl, -⟩ := hitems
      exact expire _ _ (fun _ hitem => (mem_listed hitem).1) (nodup_listed hkeys)
        quiet_discussionsOpenTo

end Calls

section Runs

variable {clock' : Instant}

theorem keepsLapsed_of_run (hkeys : (db.discussions.map (·.id)).Nodup)
    (h : Relation.ReflTransGen (TalkStep svc Talk.Awake) (clock, db) (clock', db')) :
    clock ≤ clock' ∧ KeepsLapsed clock db db' := by
  suffices hrun : ∀ s : Instant × Db,
      Relation.ReflTransGen (TalkStep svc Talk.Awake) (clock, db) s →
      clock ≤ s.1 ∧ KeepsLapsed clock db s.2 from hrun _ h
  intro s hs
  induction hs with
  | refl => exact ⟨Int.le_refl _, hkeys, .refl clock db⟩
  | tail _ hstep ih =>
      obtain ⟨talk, hawake, hchecked, hnow, rfl⟩ := hstep
      obtain ⟨hclock, hkept⟩ := ih
      have hlater : clock ≤ talk.env.now := Int.le_trans hclock (Int.le_trans hchecked hnow)
      exact ⟨hlater, hkept.trans (keepsLapsed_step hkept.1 hlater hawake)⟩

/-- **An idle discussion can only end.** Once half an hour has passed since anything happened in a
discussion, it stays as it is or is ended, and gets no further message, whatever calls come one
after another, none of which updates a discussion that has been idle but to end it. -/
theorem idle_discussions_only_end (hkeys : (db.discussions.map (·.id)).Nodup)
    (h : Relation.ReflTransGen (TalkStep svc Talk.Awake) (clock, db) (clock', db'))
    {row : TaskDiscussion} (hrow : row ∈ db.discussions) (hlapsed : row.Lapsed clock) :
    (row ∈ db'.discussions ∨ ∃ row' ∈ db'.discussions, row.Ends row') ∧
      db'.messagesOf row.id = db.messagesOf row.id := by
  obtain ⟨-, -, hlapses⟩ := keepsLapsed_of_run hkeys h
  exact ⟨hlapses.rows row hrow (Or.inr hlapsed), hlapses.messages row hrow (Or.inr hlapsed)⟩

end Runs

section Samples

/-- A board with a discussion that a person has asked for. -/
def askedBoard : Db :=
  Op.run .ascii [askOp 5 "ann"] talkBoard

/-- The discussion of this board. -/
def askedRow : TaskDiscussion :=
  requestedDiscussion (.numbered 5 200) "0100" "builder" (humanPrincipal "ann" .owner)

/-- A person says something half an hour later. -/
def lateMessage : Talk :=
  .operation (.addDiscussionMessage (.numbered 6 (31 * minute)) "0500" { body := "Hello?" }
    (humanPrincipal "ann" .owner))

/-- The agent looks at its discussions. -/
def lateList : Talk :=
  .listOfController (.numbered 7 (32 * minute)) (sampleAgent "builder")

/-- The agent takes the discussion up. -/
def lateAnswer : Talk :=
  .operation (.updateDiscussion (.numbered 6 (31 * minute)) "0500" { status := "active" }
    (sampleAgent "builder"))

/-- The message is refused, and the query ends the discussion. -/
theorem idle_discussion_ends :
    (lateList.step .ascii (lateMessage.step .ascii askedBoard)).discussions.map
        TaskDiscussion.phase = [("0500", .ended)] ∧
      (askedRow ∈ (lateList.step .ascii (lateMessage.step .ascii askedBoard)).discussions ∨
        ∃ row' ∈ (lateList.step .ascii (lateMessage.step .ascii askedBoard)).discussions,
          askedRow.Ends row') ∧
      (lateList.step .ascii (lateMessage.step .ascii askedBoard)).messagesOf askedRow.id =
        askedBoard.messagesOf askedRow.id := by
  have hmessage : TalkStep .ascii Talk.Awake (31 * minute, askedBoard)
      (31 * minute, lateMessage.step .ascii askedBoard) :=
    ⟨lateMessage, trivial, by decide, by decide, rfl⟩
  have hlist : TalkStep .ascii Talk.Awake (31 * minute, lateMessage.step .ascii askedBoard)
      (32 * minute, lateList.step .ascii (lateMessage.step .ascii askedBoard)) :=
    ⟨lateList, trivial, by decide, by decide, rfl⟩
  refine ⟨by decide +kernel, ?_⟩
  exact idle_discussions_only_end (by decide +kernel) ((Relation.ReflTransGen.single hmessage).tail hlist)
    (by decide +kernel) (by decide +kernel)

/-- Half an hour after it was asked for, the controller takes the discussion up: it becomes active,
and its time starts anew. -/
theorem idle_discussion_is_prolonged :
    TalkStep .ascii (fun _ _ => True) (31 * minute, askedBoard)
        (31 * minute, lateAnswer.step .ascii askedBoard) ∧
      askedRow ∈ askedBoard.discussions ∧ askedRow.Lapsed (31 * minute) ∧
      (lateAnswer.step .ascii askedBoard).discussions.map
          (fun row => (row.id, row.status, row.lastActivityAt)) =
        [(askedRow.id, .active, 31 * minute)] :=
  ⟨⟨lateAnswer, trivial, by decide, by decide, rfl⟩, by decide +kernel, by decide +kernel,
    by decide +kernel⟩

end Samples

end Taskboard
