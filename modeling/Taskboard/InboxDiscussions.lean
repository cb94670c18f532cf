import Mathlib.Data.List.DropRight
import Taskboard.Inbox
import Taskboard.DiscussionIdle
import Taskboard.Rows

/-!
# Discussions in the inbox

The inbox shows a discussion where it is requested or where people have written since the last
reply, with what they have written. It looks at the oldest hundred discussions of the controller
and, in each, at the oldest two hundred messages: what lies behind is missed
(`inbox_shows_unanswered`).
-/

namespace Taskboard

variable {item : TaskDiscussion} {db db' : Db} {env : Env} {inbox : Inbox} {request : InboxRequest}
  {principal : Principal} {svc : Service} {hash : String → String}

/-- The message is from a person. -/
def DiscussionMessage.fromPerson (message : DiscussionMessage) : Bool :=
  message.role = "person"

/-- All messages of a discussion, the oldest first. -/
def Db.thread (db : Db) (discussionID : String) : List DiscussionMessage :=
  sortBy (fun a b => a.id < b.id) (db.discussionMessages.filter fun row =>
    row.discussionID = discussionID)

section Unanswered

variable {messages : List DiscussionMessage}

/-- The loop returns what follows the last message that is from nobody. -/
theorem unansweredFrom_append (front back : List DiscussionMessage) :
    unansweredFrom (front ++ back) front.length =
      front.rtakeWhile DiscussionMessage.fromPerson ++ back := by
  induction front using List.reverseRecOn generalizing back with
  | nil => rfl
  | append_singleton front message ih =>
      have hat : (front ++ [message] ++ back)[front.length]? = some message := by simp
      rw [List.length_append, List.length_singleton, unansweredFrom, hat]
      by_cases hperson : message.fromPerson = true
      · have hrole : message.role = "person" := of_decide_eq_true hperson
        rw [List.rtakeWhile_concat_pos _ _ _ hperson, List.append_assoc, List.append_assoc,
          ← ih ([message] ++ back)]
        simp [hrole]
      · have hrole : message.role ≠ "person" := of_decide_eq_false (Bool.eq_false_iff.mpr hperson)
        rw [List.rtakeWhile_concat_neg _ _ _ hperson]
        simp [hrole]

/-- **What is unanswered:** the messages of people at the end. -/
theorem unansweredDiscussionMessages_eq (messages : List DiscussionMessage) :
    unansweredDiscussionMessages messages = messages.rtakeWhile DiscussionMessage.fromPerson := by
  have h := unansweredFrom_append messages []
  rwa [List.append_nil, List.append_nil] at h

end Unanswered

/-- What reading makes of a discussion: one that has been idle may have been ended. -/
def TaskDiscussion.Tidied (now : Instant) (item item' : TaskDiscussion) : Prop :=
  item' = item ∨ item.idle now = true ∧ item' = item.expired now

section Reading

variable {now : Instant} {items items' : List TaskDiscussion}

theorem expireDiscussionTx_frame {eventID : String} {u : Unit}
    (h : (expireDiscussionTx now eventID item).run db = .ok (u, db')) :
    db'.tasks = db.tasks ∧ db'.discussionMessages = db.discussionMessages := by
  obtain ⟨_, _, hupdate, hevent⟩ := Tx.run_bind_ok.mp h
  obtain rfl := updateDiscussion_ok hupdate
  obtain ⟨-, -, rfl⟩ := run_insertEvent_ok.mp hevent
  exact ⟨rfl, rfl⟩

/-- The loop that ends idle discussions touches neither tasks nor messages. -/
theorem yields_expireIdle (newID : Nat → String) (index : Nat) (db : Db)
    (items : List TaskDiscussion) :
    (expireIdleDiscussions now newID index items).Yields db
      (fun items' db' => List.Forall₂ (TaskDiscussion.Tidied now) items items' ∧
        db'.tasks = db.tasks ∧ db'.discussionMessages = db.discussionMessages) fun _ => True := by
  induction items generalizing index db with
  | nil => exact Call.yields_pure ⟨.nil, rfl, rfl⟩
  | cons item rest ih =>
      have hone : (expireIdleDiscussion now (newID index) item).Yields db
          (fun item' db' => item.Tidied now item' ∧ db'.tasks = db.tasks ∧
            db'.discussionMessages = db.discussionMessages) fun _ => True := by
        refine Call.yields_ite (fun hidle => ?_) fun _ => Call.yields_pure ⟨Or.inl rfl, rfl, rfl⟩
        refine Call.yields_attempt_bind (fun _ db1 hrun => ?_) fun e => ?_
        · exact Call.yields_pure ⟨Or.inr ⟨hidle, rfl⟩, expireDiscussionTx_frame hrun⟩
        · split
          next heq => cases heq
          next => exact Call.yields_pure ⟨Or.inl rfl, rfl, rfl⟩
          next => exact Call.yields_fail trivial
      refine Call.yields_bind (hone.mono (fun item' db1 hitem => ?_) fun _ h => h)
      refine Call.yields_bind ((ih (index + 1) db1).mono (fun others db2 hothers => ?_) fun _ h => h)
      obtain ⟨hitem, htasks, hmessages⟩ := hitem
      obtain ⟨hothers, htasks', hmessages'⟩ := hothers
      exact Call.yields_pure ⟨.cons hitem hothers, htasks'.trans htasks, hmessages'.trans hmessages⟩

/-- The discussion is open and the agent may discuss the task. -/
def Db.DiscussionOpen (db : Db) (principal : Principal) (item : TaskDiscussion) : Prop :=
  item.status ≠ .ended ∧ ∃ task, db.task? (trimSpace item.taskID) = some task ∧
    canView task principal = true ∧ controllerMayDiscuss task principal = true

theorem discussionOpenTo_ok {opened : Bool}
    (h : (discussionOpenTo svc env principal item).exec db = (.ok opened, db')) :
    opened = true ↔ db.DiscussionOpen principal item := by
  unfold discussionOpenTo at h
  split at h
  · rename_i hended
    cases h
    exact ⟨nofun, fun hopen => absurd hended hopen.1⟩
  · rename_i hopen
    obtain ⟨seen, hseen, h⟩ := Call.exec_bind_quiet_ok (Call.quiet_attempt quiet_getForHidden) h
    rw [Call.exec_attempt, quiet_getForHidden.exec] at hseen
    obtain rfl := Except.ok.inj (Prod.mk.inj hseen).1
    cases hget : (getForHidden svc env.checked item.taskID principal).exec db with
    | mk result db1 =>
      rw [hget] at h
      cases result with
      | ok view =>
          cases h
          obtain ⟨htask, -, -, hvisible⟩ := getForHidden_ok hget
          constructor
          · exact fun hmay => ⟨hopen, view.toTask, htask, hvisible, hmay⟩
          · rintro ⟨-, task, htask', -, hmay⟩
            obtain rfl := Option.some.inj (htask.symm.trans htask')
            exact hmay
      | error e =>
          dsimp only at h
          split at h
          · cases h
            refine ⟨nofun, ?_⟩
            rintro ⟨-, task, htask, hvisible, -⟩
            obtain ⟨-, hid⟩ := mem_of_task? htask
            obtain ⟨view, hview, -⟩ := exec_getForHidden svc env.checked hid.symm (hid ▸ htask) hvisible
            rw [hget] at hview
            cases hview
          · cases h

/-- Those that are open, in their order. -/
theorem discussionsOpenTo_ok
    (h : (discussionsOpenTo svc env principal items).exec db = (.ok items', db')) :
    ∀ item, item ∈ items' ↔ item ∈ items ∧ db.DiscussionOpen principal item := by
  induction items generalizing items' with
  | nil =>
      cases h
      simp
  | cons first rest ih =>
      obtain ⟨opened, hopened, h⟩ := Call.exec_bind_quiet_ok (quiet_discussionOpenTo first) h
      obtain ⟨others, hothers, h⟩ := Call.exec_bind_quiet_ok (quiet_discussionsOpenTo rest) h
      cases h
      have hfirst := discussionOpenTo_ok hopened
      intro item
      have hrest := ih hothers item
      cases opened with
      | true =>
          simp only [if_true, List.mem_cons, hrest]
          constructor
          · rintro (rfl | ⟨hmem, hopen⟩)
            · exact ⟨Or.inl rfl, hfirst.mp rfl⟩
            · exact ⟨Or.inr hmem, hopen⟩
          · rintro ⟨rfl | hmem, hopen⟩
            · exact Or.inl rfl
            · exact Or.inr ⟨hmem, hopen⟩
      | false =>
          simp only [Bool.false_eq_true, if_false, List.mem_cons, hrest]
          constructor
          · exact fun hmem => ⟨Or.inr hmem.1, hmem.2⟩
          · rintro ⟨rfl | hmem, hopen⟩
            · exact absurd (hfirst.mpr hopen) Bool.false_ne_true
            · exact ⟨hmem, hopen⟩

/-- The loop over the discussions: each that is on one of the tasks, with what is unanswered of
the messages that it reads. -/
theorem unansweredDiscussions_ok {tasks : List String}
    {entries : List (TaskDiscussion × List DiscussionMessage)}
    (h : (unansweredDiscussions tasks items).exec db = (.ok entries, db')) :
    ∀ item messages, (item, messages) ∈ entries ↔ item ∈ items ∧ item.taskID ∈ tasks ∧
      messages = unansweredDiscussionMessages (db.listDiscussionMessages item.id) ∧
      (item.status = .requested ∨ messages ≠ []) := by
  have hquiet (items : List TaskDiscussion) : (unansweredDiscussions tasks items).Quiet := by
    induction items with
    | nil => exact Call.quiet_pure _
    | cons item rest ih =>
        refine Call.quiet_ite ?_ ih
        exact Call.quiet_bind (Call.quiet_look _) fun _ => Call.quiet_bind ih fun _ => Call.quiet_pure _
  induction items generalizing entries with
  | nil =>
      cases h
      simp
  | cons first rest ih =>
      intro item messages
      unfold unansweredDiscussions at h
      split at h
      · rename_i htask
        obtain ⟨read, hread, h⟩ := Call.exec_bind_quiet_ok (Call.quiet_look _) h
        obtain ⟨others, hothers, h⟩ := Call.exec_bind_quiet_ok (hquiet rest) h
        cases hread
        cases h
        have hrest := ih hothers item messages
        split
        · rename_i hshown
          rw [List.mem_cons, Prod.mk.injEq, hrest, List.mem_cons]
          constructor
          · rintro (⟨rfl, rfl⟩ | ⟨hmem, hshow⟩)
            · exact ⟨Or.inl rfl, htask, rfl, hshown⟩
            · exact ⟨Or.inr hmem, hshow⟩
          · rintro ⟨rfl | hmem, hof, hunanswered, hshow⟩
            · exact Or.inl ⟨rfl, hunanswered⟩
            · exact Or.inr ⟨hmem, hof, hunanswered, hshow⟩
        · rename_i hhidden
          rw [hrest, List.mem_cons]
          constructor
          · exact fun hmem => ⟨Or.inr hmem.1, hmem.2⟩
          · rintro ⟨rfl | hmem, hof, rfl, hshow⟩
            · exact absurd hshow hhidden
            · exact ⟨hmem, hof, rfl, hshow⟩
      · rename_i hother
        rw [ih h item messages, List.mem_cons]
        constructor
        · exact fun hmem => ⟨Or.inr hmem.1, hmem.2⟩
        · rintro ⟨rfl | hmem, hof, hrest⟩
          · exact absurd hof hother
          · exact ⟨hmem, hof, hrest⟩

end Reading

/-- A discussion that has not been idle is in the list that the loop returns just as it was in the
list before. -/
theorem mem_tidied {now : Instant} {items items' : List TaskDiscussion}
    (hkeys : (db.discussions.map (·.id)).Nodup)
    (h : List.Forall₂ (TaskDiscussion.Tidied now) items items')
    (hitems : ∀ row ∈ items, row ∈ db.discussions) (hitem : item ∈ db.discussions)
    (hidle : item.idle now = false) (found : TaskDiscussion) :
    found ∈ items' ∧ found.id = item.id ↔ found = item ∧ item ∈ items := by
  have hsame {row : TaskDiscussion} (htidied : item.Tidied now row) : row = item := by
    rcases htidied with hsame | ⟨hover, -⟩
    · exact hsame
    · exact absurd hover (by simp [hidle])
  constructor
  · rintro ⟨hfound, hid⟩
    obtain ⟨old, hold, htidied⟩ := exists_of_forall₂ h hfound
    have hname : old.id = found.id := by
      rcases htidied with rfl | ⟨-, rfl⟩
      · rfl
      · rfl
    obtain rfl := List.inj_on_of_nodup_map hkeys (hitems old hold) hitem (hname.trans hid)
    exact ⟨hsame htidied, hold⟩
  · rintro ⟨rfl, hlisted⟩
    obtain ⟨row, hrow, htidied⟩ := exists_of_forall₂ h.flip hlisted
    exact ⟨hsame htidied ▸ hrow, rfl⟩

/-- Discussions and their messages have names of their own, and messages no empty ones. -/
structure Db.TalksNamed (db : Db) : Prop where
  discussions : (db.discussions.map (·.id)).Nodup
  messages : (db.discussionMessages.map (·.id)).Nodup
  named : ∀ message ∈ db.discussionMessages, message.id ≠ ""

/-- The discussion is among those that the query for a controller returns. -/
def Db.Reaches (db : Db) (controller : String) (item : TaskDiscussion) : Prop :=
  item ∈ db.listControllerDiscussions controller 100

section Inbox

/-- The messages that the query returns are the oldest of the thread. -/
theorem listDiscussionMessages_eq (hnamed : ∀ message ∈ db.discussionMessages, message.id ≠ "")
    (id : String) : db.listDiscussionMessages id = (db.thread id).take discussionMessageLimit := by
  have hfilter : (db.discussionMessages.filter fun row => row.discussionID = id && "" < row.id) =
      db.discussionMessages.filter fun row => row.discussionID = id := by
    apply List.filter_congr
    intro row hrow
    have hpos : "" < row.id := by
      rw [String.lt_iff]
      cases hchars : row.id.toList with
      | nil => exact absurd (String.toList_eq_nil_iff.mp hchars) (hnamed row hrow)
      | cons c rest => exact List.nil_lt_cons c rest
    simp [hpos]
  rw [Db.listDiscussionMessages, hfilter, Db.thread]

/-- **What the inbox says of a discussion** of the controller that has not been idle, on the task
of a run that was named. -/
theorem mem_inbox_discussions (hnamed : db.TalksNamed) (hruns : db.RunsNamed)
    (hread : (readInbox hash svc env request principal).exec db = (.ok inbox, db'))
    (hitem : item ∈ db.discussions) (hidle : item.idle env.now = false) {run : AgentRun}
    (hrun : run ∈ db.runs) (htask : run.taskID = item.taskID)
    (hrequest : run.id ∈ request.runs.map fun entry => trimSpace entry.runID)
    (hmay : ∃ task, db.task? item.taskID = some task ∧ controllerMayDiscuss task principal = true)
    (entry : TaskDiscussion × List DiscussionMessage) :
    entry ∈ inbox.discussions ∧ entry.1.id = item.id ↔
      entry.1 = item ∧ db.Reaches principal.id item ∧
        entry.2 = ((db.thread item.id).take discussionMessageLimit).rtakeWhile
          DiscussionMessage.fromPerson ∧
        (item.status = .requested ∨ entry.2 ≠ []) := by
  obtain ⟨scope, db1, db2, hscope, hcontrols, hdiscussions⟩ := readInbox_ok hread
  -- the task of the run is looked at, and the agent may see it
  obtain ⟨hnames, -, howned⟩ := readInboxRuns_ok hscope
  obtain ⟨run', hrun', hid, htasks⟩ := (howned run.id ((hnames run.id).mpr (Or.inr hrequest))).resolve_left
    List.not_mem_nil
  obtain rfl := hruns.eq_of_id hrun'.mem hrun hid
  rw [htask] at htasks
  have htrimmed : trimSpace item.taskID = item.taskID := htask ▸ hrun'.trimmed
  obtain ⟨task, hfound, hmay⟩ := hmay
  obtain ⟨seen, hseen, hvisible⟩ := hrun'.visible
  rw [htask, hfound, Option.some.injEq] at hseen
  subst hseen
  -- neither the controls nor the discussions that are over change the tasks or the messages
  have hfirst : db1.discussions = db.discussions ∧ db1.discussionMessages = db.discussionMessages ∧
      db1.tasks = db.tasks := by
    have hprint : Footprint [.controls] Eq Eq Event.Unkeyed db db1 := by
      refine Call.Each.of_exec (Call.each_ite ?_ (Call.quiet_pure _).each) hcontrols
      refine Call.each_bind (each_expireRunControls fun _ h => h) fun _ => ?_
      exact (Call.quiet_bind (Call.quiet_look _) fun _ => Call.quiet_pure _).each
    have htalks := hprint.sameDiscussions (by simp)
    exact ⟨htalks.1, htalks.2, hprint.tasks.symm⟩
  obtain ⟨opened, db3, hlist, hshown⟩ := Call.exec_bind_ok hdiscussions
  obtain ⟨_, -, hlist⟩ := Call.exec_lift_bind_ok hlist
  obtain ⟨listed, hlisted, hlist⟩ := Call.exec_bind_quiet_ok (Call.quiet_look _) hlist
  obtain ⟨items, db4, hexpire, hopen⟩ := Call.exec_bind_ok hlist
  obtain rfl := (quiet_discussionsOpenTo items).of_exec hopen
  obtain ⟨htidied, htasks', hmessages'⟩ := (yields_expireIdle _ _ _ _).of_exec hexpire
  have hlisted : listed = db.listControllerDiscussions principal.id 100 := by
    rw [Call.exec_look, Prod.mk.injEq, Except.ok.injEq] at hlisted
    rw [← hlisted.1, Db.listControllerDiscussions, hfirst.1, Db.listControllerDiscussions]
  subst hlisted
  have hmem := mem_tidied hnamed.discussions htidied (fun row hrow => (mem_listed hrow).1) hitem
    hidle entry.1
  have hthread : unansweredDiscussionMessages (db3.listDiscussionMessages item.id) =
      ((db.thread item.id).take discussionMessageLimit).rtakeWhile DiscussionMessage.fromPerson := by
    rw [unansweredDiscussionMessages_eq, ← listDiscussionMessages_eq hnamed.named,
      Db.listDiscussionMessages, hmessages', hfirst.2.1, Db.listDiscussionMessages]
  have hopened (hreaches : db.Reaches principal.id item) : db3.DiscussionOpen principal item := by
    have hstatus := (mem_listed hreaches).2
    refine ⟨fun hended => by simp [hended] at hstatus, task, ?_, hvisible, hmay⟩
    rw [htrimmed, Db.task?, htasks', hfirst.2.2]
    exact hfound
  rw [show entry ∈ inbox.discussions ↔ _ from unansweredDiscussions_ok hshown entry.1 entry.2,
    discussionsOpenTo_ok hopen entry.1]
  constructor
  · rintro ⟨⟨⟨hin, -⟩, -, hunanswered, hshow⟩, hid⟩
    obtain ⟨hsame, hreaches⟩ := hmem.mp ⟨hin, hid⟩
    rw [hsame] at hunanswered hshow
    exact ⟨hsame, hreaches, hunanswered.trans hthread, hshow⟩
  · rintro ⟨hsame, hreaches, hunanswered, hshow⟩
    obtain ⟨hin, hid⟩ := hmem.mpr ⟨hsame, hreaches⟩
    rw [hsame] at hin ⊢
    exact ⟨⟨⟨hin, hopened hreaches⟩, htasks, hunanswered.trans hthread.symm, hshow⟩, rfl⟩

end Inbox

section Suffix

variable {α : Type} {p : α → Bool} {l : List α} {n : Nat}

/-- What satisfies `p` at the end of a list is at the end of a shorter start of it only where both
are empty. -/
theorem rtakeWhile_take_eq_iff (hnodup : l.Nodup) :
    (l.take n).rtakeWhile p = l.rtakeWhile p ↔
      l.length ≤ n ∨ (l.take n).rtakeWhile p = [] ∧ l.rtakeWhile p = [] := by
  constructor
  · intro hsame
    by_cases hshort : l.length ≤ n
    · exact Or.inl hshort
    · right
      have hnil : l.rtakeWhile p = [] := by
        rcases List.eq_nil_or_concat' l with rfl | ⟨front, last, rfl⟩
        · rfl
        · by_cases hlast : p last = true
          · -- the last one does not stand in the start
            have hmem : last ∈ ((front ++ [last]).take n).rtakeWhile p := by
              rw [hsame, List.rtakeWhile_concat_pos _ _ _ hlast]
              simp
            have hfront : last ∈ front := by
              have hstart := (List.rtakeWhile_suffix p _).subset hmem
              rw [List.take_append_of_le_length (by simp at hshort; omega)] at hstart
              exact List.mem_of_mem_take hstart
            exact absurd hfront (List.disjoint_right.mp (List.disjoint_of_nodup_append hnodup)
              (by simp))
          · exact List.rtakeWhile_concat_neg _ _ _ hlast
      exact ⟨hsame.trans hnil, hnil⟩
  · rintro (hshort | ⟨hstart, hall⟩)
    · rw [List.take_of_length_le hshort]
    · rw [hstart, hall]

end Suffix

/-- The newest message is from a person. -/
def Db.AwaitsReply (db : Db) (item : TaskDiscussion) : Prop :=
  (db.thread item.id).getLast?.any DiscussionMessage.fromPerson = true

/-- The inbox shows the discussion if it is requested or awaits a reply, and with it what has been
written after the newest message that is not from a person. -/
def Inbox.ShowsUnanswered (inbox : Inbox) (db : Db) (item : TaskDiscussion) : Prop :=
  ((∃ entry ∈ inbox.discussions, entry.1.id = item.id) ↔
      item.status = .requested ∨ db.AwaitsReply item) ∧
    ∀ entry ∈ inbox.discussions, entry.1.id = item.id →
      entry.2 = (db.thread item.id).rtakeWhile DiscussionMessage.fromPerson

/-- The discussion is open, and fewer than a hundred other open ones of its controller are older. -/
def Db.AmongOldest (db : Db) (item : TaskDiscussion) : Prop :=
  item.status ≠ .ended ∧ (db.discussions.filter fun other => other.controller = item.controller &&
    other.status ≠ .ended && other.id < item.id).length < 100

/-- The discussion lies within what the inbox looks at, or there is nothing to show: it is among
the oldest of its controller and has at most two hundred messages, or neither the two hundredth nor
the newest of them is from a person; or it is not among the oldest, and neither requested nor
awaiting a reply. -/
def Db.WithinInbox (db : Db) (item : TaskDiscussion) : Prop :=
  (db.AmongOldest item →
    (db.thread item.id).length ≤ 200 ∨
      (db.thread item.id)[199]?.any DiscussionMessage.fromPerson = false ∧ ¬ db.AwaitsReply item) ∧
  (¬ db.AmongOldest item → item.status ≠ .requested ∧ ¬ db.AwaitsReply item)

section Shows

theorem reaches_iff (hkeys : (db.discussions.map (·.id)).Nodup) (hitem : item ∈ db.discussions) :
    db.Reaches item.controller item ↔ db.AmongOldest item := by
  have hopen (row : TaskDiscussion) :
      (row.status = .requested || row.status = .active : Bool) = decide (row.status ≠ .ended) := by
    cases row.status <;> rfl
  rw [Db.Reaches, Db.listControllerDiscussions, mem_take_sortBy hkeys hitem, Db.AmongOldest]
  simp only [hopen, decide_true, Bool.true_and, decide_eq_true_eq]

theorem rtakeWhile_eq_nil_iff_getLast? {l : List DiscussionMessage} :
    l.rtakeWhile DiscussionMessage.fromPerson = [] ↔
      ¬ l.getLast?.any DiscussionMessage.fromPerson = true := by
  rw [List.rtakeWhile_eq_nil_iff]
  cases hl : l.getLast? with
  | none =>
      rw [List.getLast?_eq_none_iff] at hl
      simp [hl]
  | some last =>
      have hne : l ≠ [] := by
        rintro rfl
        cases hl
      rw [List.getLast?_eq_some_getLast hne, Option.some.injEq] at hl
      simp [hne, hl]

theorem nodup_thread (hkeys : (db.discussionMessages.map (·.id)).Nodup) (id : String) :
    (db.thread id).Nodup := by
  have hfilter : (db.discussionMessages.filter fun row => row.discussionID = id).Nodup :=
    hkeys.of_map.sublist List.filter_sublist
  exact (List.perm_insertionSort _ _).nodup_iff.mpr hfilter

/-- What is unanswered of the first two hundred messages is what is unanswered of all of them where
there are no more, or where neither ends with a message of a person. -/
theorem unanswered_take_iff (hkeys : (db.discussionMessages.map (·.id)).Nodup) :
    ((db.thread item.id).take discussionMessageLimit).rtakeWhile DiscussionMessage.fromPerson =
        (db.thread item.id).rtakeWhile DiscussionMessage.fromPerson ↔
      (db.thread item.id).length ≤ 200 ∨
        (db.thread item.id)[199]?.any DiscussionMessage.fromPerson = false ∧
          ¬ db.AwaitsReply item := by
  rw [rtakeWhile_take_eq_iff (nodup_thread hkeys item.id), rtakeWhile_eq_nil_iff_getLast?,
    rtakeWhile_eq_nil_iff_getLast?, Db.AwaitsReply, discussionMessageLimit]
  by_cases hshort : (db.thread item.id).length ≤ 200
  · exact iff_of_true (Or.inl hshort) (Or.inl hshort)
  · have hlast : ((db.thread item.id).take 200).getLast? = (db.thread item.id)[199]? := by
      rw [List.getLast?_take, if_neg (by decide),
        List.getElem?_eq_getElem (show 200 - 1 < (db.thread item.id).length by omega), Option.some_or]
    rw [hlast, Bool.not_eq_true]

/-- **The inbox shows the unanswered part of a discussion** exactly where the discussion lies within
what it looks at. -/
theorem inbox_shows_unanswered (hnamed : db.TalksNamed) (hruns : db.RunsNamed)
    (hread : (readInbox hash svc env request principal).exec db = (.ok inbox, db'))
    (hitem : item ∈ db.discussions) (hcontroller : item.controller = principal.id)
    (hidle : item.idle env.now = false) {run : AgentRun} (hrun : run ∈ db.runs)
    (htask : run.taskID = item.taskID)
    (hrequest : run.id ∈ request.runs.map fun entry => trimSpace entry.runID)
    (hmay : ∃ task, db.task? item.taskID = some task ∧ controllerMayDiscuss task principal = true) :
    inbox.ShowsUnanswered db item ↔ db.WithinInbox item := by
  have hmem := mem_inbox_discussions hnamed hruns hread hitem hidle hrun htask hrequest hmay
  rw [← hcontroller] at hmem
  simp only [reaches_iff hnamed.discussions hitem] at hmem
  have hreply : db.AwaitsReply item ↔
      (db.thread item.id).rtakeWhile DiscussionMessage.fromPerson ≠ [] := by
    rw [Ne, rtakeWhile_eq_nil_iff_getLast?, not_not, Db.AwaitsReply]
  rw [Inbox.ShowsUnanswered, Db.WithinInbox, ← unanswered_take_iff hnamed.messages]
  generalize ((db.thread item.id).take discussionMessageLimit).rtakeWhile
    DiscussionMessage.fromPerson = carried at hmem ⊢
  generalize (db.thread item.id).rtakeWhile DiscussionMessage.fromPerson = unanswered at hreply ⊢
  have hlists : (∃ entry ∈ inbox.discussions, entry.1.id = item.id) ↔
      db.AmongOldest item ∧ (item.status = .requested ∨ carried ≠ []) := by
    constructor
    · rintro ⟨entry, hentry, hid⟩
      obtain ⟨-, holdest, hcarried, hshown⟩ := (hmem entry).mp ⟨hentry, hid⟩
      exact ⟨holdest, hcarried ▸ hshown⟩
    · rintro ⟨holdest, hshown⟩
      obtain ⟨hentry, hid⟩ := (hmem (item, carried)).mpr ⟨rfl, holdest, rfl, hshown⟩
      exact ⟨_, hentry, hid⟩
  rw [hlists, hreply]
  constructor
  · rintro ⟨hlisted, hcarries⟩
    constructor
    · intro holdest
      by_cases hshown : item.status = .requested ∨ carried ≠ []
      · obtain ⟨hentry, hid⟩ := (hmem (item, carried)).mpr ⟨rfl, holdest, rfl, hshown⟩
        exact hcarries _ hentry hid
      · have hnone := (not_congr hlisted).mp fun h => hshown h.2
        simp only [not_or, ne_eq, not_not] at hshown hnone
        rw [hshown.2, hnone.2]
    · intro hfar
      have hnone := (not_congr hlisted).mp fun h => hfar h.1
      exact not_or.mp hnone
  · rintro ⟨hnear, hfar⟩
    by_cases holdest : db.AmongOldest item
    · obtain rfl := hnear holdest
      refine ⟨⟨And.right, fun h => ⟨holdest, h⟩⟩, fun entry hentry hid => ?_⟩
      exact ((hmem entry).mp ⟨hentry, hid⟩).2.2.1
    · obtain ⟨hstatus, hnone⟩ := hfar holdest
      refine ⟨⟨fun h => absurd h.1 holdest, ?_⟩, fun entry hentry hid => ?_⟩
      · rintro (hrequested | hreply)
        · exact absurd hrequested hstatus
        · exact absurd hreply hnone
      · exact absurd ((hmem entry).mp ⟨hentry, hid⟩).2.1 holdest

end Shows

section Samples

instance (db : Db) (item : TaskDiscussion) : Decidable (db.AwaitsReply item) :=
  inferInstanceAs (Decidable (_ = true))

instance (db : Db) (item : TaskDiscussion) : Decidable (db.AmongOldest item) :=
  inferInstanceAs (Decidable (_ ∧ _))

instance (db : Db) (item : TaskDiscussion) : Decidable (db.WithinInbox item) :=
  inferInstanceAs (Decidable ((_ → _) ∧ (_ → _)))

/-- A discussion under way in which a person has just asked something. -/
def askingBoard : Db :=
  Op.run .ascii [sayOp 7 (humanPrincipal "ann" .owner)] activeBoard

/-- The same discussion after two hundred messages of a person and a reply. -/
def longBoard : Db :=
  { activeBoard with
    discussionMessages := (List.range 201).map fun n =>
      { id := String.ofList (digits 4 n)
        discussionID := "0500"
        taskID := "0100"
        author := if n < 200 then "ann" else "builder"
        role := if n < 200 then "person" else "agent"
        body := "Hello"
        createdAt := 300 + n } }

/-- The agent reads its inbox. -/
def inboxRead : CallM Inbox :=
  readInbox id .ascii (.numbered 9 600) { runs := [{ taskID := "0100", runID := "0101" }] }
    (sampleAgent "builder")

/-- The discussion of both boards. -/
def talkRow (db : Db) : TaskDiscussion :=
  db.discussions.headD askedRow

/-- The question is in the inbox, and nothing else of the discussion. -/
theorem question_is_shown :
    ∃ inbox db', inboxRead.exec askingBoard = (.ok inbox, db') ∧
      askingBoard.AwaitsReply (talkRow askingBoard) ∧
      inbox.ShowsUnanswered askingBoard (talkRow askingBoard) := by
  obtain ⟨inbox, db', hread⟩ := Call.exec_of_isOk (c := inboxRead) (s := askingBoard) (by decide +kernel)
  obtain ⟨run, hrun, hnamed, htask⟩ : ∃ run ∈ askingBoard.runs,
      run.id ∈ [trimSpace "0101"] ∧ run.taskID = (talkRow askingBoard).taskID := by decide +kernel
  have hmay : (askingBoard.task? (talkRow askingBoard).taskID).any
      (fun task => controllerMayDiscuss task (sampleAgent "builder")) = true := by decide +kernel
  refine ⟨inbox, db', hread, by decide +kernel, ?_⟩
  exact (inbox_shows_unanswered
    ⟨by decide +kernel, by decide +kernel, by decide +kernel⟩ ⟨by decide +kernel, by decide +kernel⟩
    hread (by decide +kernel) (by decide +kernel) (by decide +kernel) hrun htask hnamed
    (by simpa [Option.any_eq_true] using hmay)).mpr (by decide +kernel)

/-- The agent has replied to everything, but its reply is the two hundred and first message: the
inbox shows all the others as unanswered. -/
theorem answered_discussion_is_shown :
    ∃ inbox db', inboxRead.exec longBoard = (.ok inbox, db') ∧
      talkRow longBoard ∈ longBoard.discussions ∧
      (talkRow longBoard).status = .active ∧ ¬ longBoard.AwaitsReply (talkRow longBoard) ∧
      inbox.discussions.map (fun entry => (entry.1.id, entry.2.length)) =
        [((talkRow longBoard).id, 200)] := by
  obtain ⟨inbox, db', hread⟩ := Call.exec_of_isOk (c := inboxRead) (s := longBoard) (by decide +kernel)
  refine ⟨inbox, db', hread, by decide +kernel, by decide +kernel, by decide +kernel, ?_⟩
  have hshown : (inboxRead.exec longBoard).1.toOption.map
      (fun inbox => inbox.discussions.map fun entry => (entry.1.id, entry.2.length)) =
        some [((talkRow longBoard).id, 200)] := by decide +kernel
  rw [hread] at hshown
  exact Option.some.inj hshown

end Samples

end Taskboard
