import Mathlib.Data.String.Basic
import Taskboard.Lib.Keyset
import Taskboard.Operations

/-!
# The fan-out of events

A replica passes the events of the database on to its clients. It remembers how far it has come as
a cursor, the time of creation and the identifier of the last event that it passed on, and reads
on from there in batches: after it has started, and whenever it is told that there is more.

An event has its time of creation from before its transaction, and the events become visible in
the order in which the transactions are committed. Where an event is committed with an older time
than one that was passed on already, or than one that has been read already, the cursor has left
it behind (`late_event_is_lost`). Where none is, nothing is lost (`fanout_loses_nothing`).

The database compares times in whole microseconds. A time in a row is rounded, a time that is sent
along with a query is cut off: so a query may come upon the last event once more, but it does not
pass over one.
-/

namespace Taskboard

/-- `eventCatchUpBatchSize`. -/
def eventCatchUpBatchSize : Nat := 256

structure EventCursor where
  createdAt : Instant
  id : String
  deriving DecidableEq

/-- How the database compares what the fan-out asks for. -/
structure EventOrder where
  /-- `created_at::timestamptz`, in microseconds. -/
  stored : Instant → Int
  /-- A time that is sent with a query, in microseconds. -/
  sent : Instant → Int
  sent_le (t : Instant) : sent t ≤ stored t
  /-- `<` of SQL on two texts. -/
  textBefore : String → String → Bool
  textOrder : IsStrictTotalOrder String fun a b => textBefore a b = true

/-- What events are ordered by. -/
abbrev EventKey := Int × String

namespace EventOrder

variable (order : EventOrder)

/-- The order of `created_at::timestamptz,id`. -/
def before (a b : EventKey) : Bool :=
  a.1 < b.1 || (a.1 = b.1 && order.textBefore a.2 b.2)

def key (event : Event) : EventKey :=
  (order.stored event.createdAt, event.id)

/-- Where a query with this cursor goes on. -/
def position (cursor : EventCursor) : EventKey :=
  (order.sent cursor.createdAt, cursor.id)

end EventOrder

def Event.cursor (event : Event) : EventCursor where
  createdAt := event.createdAt
  id := event.id

section Model

variable (order : EventOrder)

/-- The events in the order in which they are passed on. -/
def orderedEvents (events : List Event) : List Event :=
  sortByKey order.before order.key events

/-- `latestEventCursor`. -/
def latestEventCursor (events : List Event) : EventCursor :=
  match (orderedEvents order events).getLast? with
  | some event => event.cursor
  | none => { createdAt := zeroTime, id := "" }

/-- The query of `catchUpEvents`. -/
def eventsBehind (cursor : EventCursor) (events : List Event) : List Event :=
  (orderedEvents order (events.filter fun event =>
    order.before (order.position cursor) (order.key event))).take eventCatchUpBatchSize

/-- How far a call of `catchUpEvents` is: which events were committed when its query started, the
rows that are still to be passed on, and the number of those that were. -/
inductive CatchUp where
  | idle
  | reading (asOf rest : List Event) (count : Nat)
  deriving DecidableEq

/-- The events that are committed, and what the fan-out has made of them. -/
structure Fanout where
  events : List Event
  cursor : EventCursor
  delivered : List Event := []
  call : CatchUp := .idle
  deriving DecidableEq

/-- `RunEventFanout` where it starts. -/
def Fanout.start (events : List Event) : Fanout where
  events := events
  cursor := latestEventCursor order events

/-- What happens next: a transaction is committed with its events; or `catchUpEvents` sends a
query, passes on the next row, returns, or fails. -/
inductive FanoutAction where
  | commit (added : List Event)
  | query
  | deliver
  | finish
  | fail

/-- The fan-out after an action; `none` where it is not the turn of the action. The identifiers of
events are unique. -/
def Fanout.act (s : Fanout) : FanoutAction → Option Fanout
  | .commit added =>
      if ((s.events ++ added).map Event.id).Nodup then some { s with events := s.events ++ added }
      else none
  | .query =>
      let asked := { s with call := .reading s.events (eventsBehind order s.cursor s.events) 0 }
      match s.call with
      | .idle => some asked
      | .reading _ [] count => if count < eventCatchUpBatchSize then none else some asked
      | .reading _ (_ :: _) _ => none
  | .deliver =>
      match s.call with
      | .reading asOf (event :: rest) count =>
          some
            { s with
              delivered := s.delivered ++ [event]
              cursor := event.cursor
              call := .reading asOf rest (count + 1) }
      | _ => none
  | .finish =>
      match s.call with
      | .reading _ [] count =>
          if count < eventCatchUpBatchSize then some { s with call := .idle } else none
      | _ => none
  | .fail =>
      match s.call with
      | .idle => none
      | .reading _ _ _ => some { s with call := .idle }

/-- The rows that the running query has read and that are still to be passed on. -/
def Fanout.rest (s : Fanout) : List Event :=
  match s.call with
  | .idle => []
  | .reading _ rest _ => rest

/-- The cursor as it is, and as the rows that have been read will leave it. -/
def Fanout.ahead (s : Fanout) : List EventCursor :=
  s.cursor :: s.rest.map Event.cursor

/-- The states that actions which `ok` allows lead to. -/
def Fanout.Reaches (ok : Fanout → FanoutAction → Prop) : Fanout → Fanout → Prop :=
  Relation.ReflTransGen fun s s' => ∃ action, ok s action ∧ s.act order action = some s'

/-- Every event is committed behind the cursor, and behind what the running query has read. -/
def Fanout.InOrder (s : Fanout) : FanoutAction → Prop
  | .commit added => ∀ event ∈ added, ∀ cursor ∈ s.ahead,
      order.before (order.position cursor) (order.key event) = true
  | _ => True

/-- When a call returns without an error, the events that were committed when its last query
started have been passed on, apart from those that were there from the start and that the cursor
of the start stands behind. -/
def Fanout.Lossless (start : List Event) (s : Fanout) : Prop :=
  ∀ asOf count, s.call = .reading asOf [] count → count < eventCatchUpBatchSize →
    ∀ event ∈ asOf, event ∈ s.delivered ∨
      (event ∈ start ∧ ∃ last ∈ start, last.cursor = latestEventCursor order start ∧
        order.before (order.key last) (order.key event) = false)

end Model

section Order

variable (order : EventOrder)

instance EventOrder.isStrictTotalOrder :
    IsStrictTotalOrder EventKey fun a b => order.before a b = true := by
  have htext := order.textOrder
  have hlex : (fun a b => order.before a b = true) =
      Prod.Lex ((· < ·) : Int → Int → Prop) fun a b => order.textBefore a b = true := by
    funext a b
    simp [EventOrder.before, Prod.lex_def]
  rw [hlex]
  infer_instance

variable {order} {event other : Event} {k : EventKey} {events : List Event}

/-- What is behind an event is behind the cursor at it. -/
theorem EventOrder.before_of_position (h : order.before (order.key event) k = true) :
    order.before (order.position event.cursor) k = true := by
  have hle := order.sent_le event.createdAt
  simp only [EventOrder.before, EventOrder.key, EventOrder.position, Event.cursor,
    Bool.or_eq_true, Bool.and_eq_true] at h ⊢
  rcases h with hlt | ⟨heq, htext⟩
  · exact Or.inl (decide_eq_true (Int.lt_of_le_of_lt hle (of_decide_eq_true hlt)))
  · rw [of_decide_eq_true heq] at hle
    rcases Int.lt_or_eq_of_le hle with hlt | hsame
    · exact Or.inl (decide_eq_true hlt)
    · exact Or.inr ⟨decide_eq_true hsame, htext⟩

theorem nodup_keys (h : (events.map Event.id).Nodup) : (events.map order.key).Nodup := by
  have hid : events.map Event.id = (events.map order.key).map Prod.snd := by
    rw [List.map_map]
    rfl
  rw [hid] at h
  exact h.of_map

theorem pairwise_orderedEvents (order : EventOrder) (h : (events.map Event.id).Nodup) :
    (orderedEvents order events).Pairwise fun a b => order.before (order.key a) (order.key b) = true :=
  pairwise_sortByKey (nodup_keys h)

theorem mem_orderedEvents (order : EventOrder) : event ∈ orderedEvents order events ↔ event ∈ events :=
  mem_sortByKey

/-- An operation of the service that runs alone is one commit. -/
theorem Fanout.act_commit_step {svc : Service} (op : Op) {db : Db} {s : Fanout}
    (hs : s.events = db.events) (hids : ((op.step svc db).events.map Event.id).Nodup) :
    ∃ added, s.act order (.commit added) = some { s with events := (op.step svc db).events } := by
  have hstep : Loose op.ledgers (Event.Under op.operation) db (op.step svc db) := loose_step op db
  obtain ⟨kept, added, hevents, hkept, -⟩ := hstep.events
  rw [List.forall₂_eq_eq_eq] at hkept
  subst hkept
  refine ⟨added, ?_⟩
  rw [Fanout.act, hs, ← hevents, if_pos hids]

/-- The first cursor stands at an event that none comes behind. -/
theorem latestEventCursor_last (h : (events.map Event.id).Nodup) (hevent : event ∈ events) :
    ∃ last ∈ events, last.cursor = latestEventCursor order events ∧
      order.before (order.key last) (order.key event) = false := by
  have hsorted : (orderedEvents order events).Pairwise _ := pairwise_orderedEvents order h
  rw [← mem_orderedEvents order] at hevent
  rcases List.eq_nil_or_concat (orderedEvents order events) with hnil | ⟨front, last, hlast⟩
  · rw [hnil] at hevent
    cases hevent
  · rw [List.concat_eq_append] at hlast
    refine ⟨last, ?_, ?_, ?_⟩
    · rw [← mem_orderedEvents order, hlast]
      simp
    · rw [latestEventCursor, hlast, List.getLast?_append]
      rfl
    · rw [hlast] at hsorted hevent
      rw [Bool.eq_false_iff]
      rcases List.mem_append.mp hevent with hfront | hself
      · have hbefore := (List.pairwise_append.mp hsorted).2.2 event hfront last (by simp)
        exact asymm_of (fun a b => order.before a b = true) hbefore
      · rw [List.mem_singleton.mp hself]
        exact irrefl_of (fun a b => order.before a b = true) _

end Order

section Lossless

variable {order : EventOrder} {start : List Event} {s s' : Fanout} {action : FanoutAction}

/-- What holds of the fan-out at all times: an event that was not passed on is about to be, or is
behind everything that the cursor will have reached by then. -/
structure Fanout.Sound (order : EventOrder) (start : List Event) (s : Fanout) : Prop where
  ids : (s.events.map Event.id).Nodup
  kept : ∀ event ∈ s.events, event ∈ start ∨ event ∈ s.delivered ∨ event ∈ s.rest ∨
    ∀ cursor ∈ s.ahead, order.before (order.position cursor) (order.key event) = true
  behind : ∀ event ∈ s.rest, order.before (order.position s.cursor) (order.key event) = true
  sorted : s.rest.Pairwise fun a b => order.before (order.key a) (order.key b) = true
  last : ∀ asOf rest count, s.call = .reading asOf rest count →
    count + rest.length < eventCatchUpBatchSize →
    ∀ event ∈ asOf, event ∈ start ∨ event ∈ s.delivered ∨ event ∈ rest

theorem Fanout.sound_start (h : (start.map Event.id).Nodup) :
    (Fanout.start order start).Sound order start where
  ids := h
  kept _ hevent := Or.inl hevent
  behind _ hevent := absurd hevent List.not_mem_nil
  sorted := List.Pairwise.nil
  last _ _ _ hcall := by cases hcall

/-- The rows that a query reads, in front of those that it leaves for the next one. -/
theorem eventsBehind_append (order : EventOrder) (cursor : EventCursor) (events : List Event) :
    ∃ later, orderedEvents order (events.filter fun event =>
        order.before (order.position cursor) (order.key event)) =
      eventsBehind order cursor events ++ later ∧
      ((eventsBehind order cursor events).length < eventCatchUpBatchSize → later = []) := by
  refine ⟨_, (List.take_append_drop eventCatchUpBatchSize _).symm, fun hshort => ?_⟩
  rw [eventsBehind, List.length_take] at hshort
  exact List.drop_eq_nil_of_le (by omega)

namespace Fanout.Sound

theorem commit {added : List Event} (h : s.Sound order start)
    (hids : ((s.events ++ added).map Event.id).Nodup) (hok : s.InOrder order (.commit added)) :
    Fanout.Sound order start { s with events := s.events ++ added } where
  ids := hids
  kept event hevent := by
    rcases List.mem_append.mp hevent with hold | hnew
    · exact h.kept event hold
    · exact Or.inr (Or.inr (Or.inr (hok event hnew)))
  behind := h.behind
  sorted := h.sorted
  last := h.last

/-- A query comes when the rows of the last one are passed on. -/
theorem query (h : s.Sound order start) (hrest : s.rest = []) :
    Fanout.Sound order start
      { s with call := .reading s.events (eventsBehind order s.cursor s.events) 0 } := by
  obtain ⟨later, hlater, hall⟩ := eventsBehind_append order s.cursor s.events
  have hids : ((s.events.filter fun event =>
      order.before (order.position s.cursor) (order.key event)).map Event.id).Nodup :=
    h.ids.sublist (List.filter_sublist.map _)
  have hsorted := pairwise_orderedEvents order hids
  rw [hlater] at hsorted
  obtain ⟨hrows, -, hbetween⟩ := List.pairwise_append.mp hsorted
  -- An event that is still to come was read, or the next query will read it.
  have hread : ∀ event ∈ s.events, event ∈ start ∨ event ∈ s.delivered ∨
      event ∈ eventsBehind order s.cursor s.events ∨
      (event ∈ later ∧ order.before (order.position s.cursor) (order.key event) = true) := by
    intro event hevent
    have hkept := h.kept event hevent
    rw [hrest] at hkept
    rcases hkept with hstart | hdelivered | hnone | hahead
    · exact Or.inl hstart
    · exact Or.inr (Or.inl hdelivered)
    · cases hnone
    · have hbehind := hahead s.cursor List.mem_cons_self
      have hmem : event ∈ eventsBehind order s.cursor s.events ++ later := by
        rw [← hlater, mem_orderedEvents, List.mem_filter]
        exact ⟨hevent, hbehind⟩
      rcases List.mem_append.mp hmem with hnow | hlater
      · exact Or.inr (Or.inr (Or.inl hnow))
      · exact Or.inr (Or.inr (Or.inr ⟨hlater, hbehind⟩))
  refine ⟨h.ids, ?_, ?_, hrows, ?_⟩
  · intro event hevent
    refine (hread event hevent).imp_right (Or.imp_right (Or.imp_right ?_))
    rintro ⟨hlate, hbehind⟩ cursor hcursor
    rcases List.mem_cons.mp hcursor with rfl | hcursor
    · exact hbehind
    · obtain ⟨row, hrow, rfl⟩ := List.mem_map.mp hcursor
      exact EventOrder.before_of_position (hbetween row hrow event hlate)
  · intro event hevent
    have hmem : event ∈ eventsBehind order s.cursor s.events ++ later :=
      List.mem_append_left _ hevent
    rw [← hlater, mem_orderedEvents, List.mem_filter] at hmem
    exact hmem.2
  · intro asOf rest count hcall hshort event hevent
    cases hcall
    rw [Nat.zero_add] at hshort
    refine (hread event hevent).imp_right (Or.imp_right ?_)
    rw [hall hshort]
    rintro (hnow | ⟨hnone, -⟩)
    · exact hnow
    · cases hnone

theorem deliver {asOf rest : List Event} {event : Event} {count : Nat} (h : s.Sound order start)
    (hcall : s.call = .reading asOf (event :: rest) count) :
    Fanout.Sound order start
      { s with
        delivered := s.delivered ++ [event]
        cursor := event.cursor
        call := .reading asOf rest (count + 1) } := by
  have hrest : s.rest = event :: rest := by rw [Fanout.rest, hcall]
  have hsorted := h.sorted
  rw [hrest, List.pairwise_cons] at hsorted
  refine ⟨h.ids, ?_, ?_, hsorted.2, ?_⟩
  · intro other hother
    have hkept := h.kept other hother
    rw [Fanout.ahead, hrest] at hkept
    rcases hkept with hstart | hdelivered | hread | hahead
    · exact Or.inl hstart
    · exact Or.inr (Or.inl (List.mem_append_left _ hdelivered))
    · rcases List.mem_cons.mp hread with rfl | hread
      · exact Or.inr (Or.inl (List.mem_append_right _ (List.mem_singleton_self _)))
      · exact Or.inr (Or.inr (Or.inl hread))
    · exact Or.inr (Or.inr (Or.inr fun cursor hcursor =>
        hahead cursor (List.mem_cons_of_mem _ hcursor)))
  · intro other hother
    exact EventOrder.before_of_position (hsorted.1 other hother)
  · intro asOf' rest' count' hcall' hshort other hother
    cases hcall'
    have hlast := h.last asOf (event :: rest) count hcall
      (by rw [List.length_cons]; omega) other hother
    rcases hlast with hstart | hdelivered | hread
    · exact Or.inl hstart
    · exact Or.inr (Or.inl (List.mem_append_left _ hdelivered))
    · rcases List.mem_cons.mp hread with rfl | hread
      · exact Or.inr (Or.inl (List.mem_append_right _ (List.mem_singleton_self _)))
      · exact Or.inr (Or.inr hread)

/-- A call may end wherever it is: what it has read and not passed on is read again. -/
theorem stop (h : s.Sound order start) : Fanout.Sound order start { s with call := .idle } where
  ids := h.ids
  kept event hevent := by
    rcases h.kept event hevent with hstart | hdelivered | hread | hahead
    · exact Or.inl hstart
    · exact Or.inr (Or.inl hdelivered)
    · refine Or.inr (Or.inr (Or.inr fun cursor hcursor => ?_))
      rw [List.mem_singleton.mp hcursor]
      exact h.behind event hread
    · refine Or.inr (Or.inr (Or.inr fun cursor hcursor => ?_))
      rw [List.mem_singleton.mp hcursor]
      exact hahead s.cursor List.mem_cons_self
  behind _ hevent := absurd hevent List.not_mem_nil
  sorted := List.Pairwise.nil
  last _ _ _ hcall := by cases hcall

/-- **One action.** -/
theorem act (h : s.Sound order start) (hok : s.InOrder order action)
    (hact : s.act order action = some s') : s'.Sound order start := by
  cases action with
  | commit added =>
      simp only [Fanout.act] at hact
      split at hact
      · cases hact
        exact h.commit ‹_› hok
      · cases hact
  | query =>
      simp only [Fanout.act] at hact
      split at hact
      · rename_i hcall
        cases hact
        exact h.query (by rw [Fanout.rest, hcall])
      · rename_i hcall
        split at hact
        · cases hact
        · cases hact
          exact h.query (by rw [Fanout.rest, hcall])
      · cases hact
  | deliver =>
      simp only [Fanout.act] at hact
      split at hact
      · rename_i hcall
        cases hact
        exact h.deliver hcall
      · cases hact
  | finish =>
      simp only [Fanout.act] at hact
      split at hact
      · split at hact
        · cases hact
          exact h.stop
        · cases hact
      · cases hact
  | fail =>
      simp only [Fanout.act] at hact
      split at hact
      · cases hact
      · cases hact
        exact h.stop

end Fanout.Sound

/-- **Nothing is lost** where the events are committed in order. -/
theorem fanout_loses_nothing (hstart : (start.map Event.id).Nodup)
    (h : Fanout.Reaches order (Fanout.InOrder order) (Fanout.start order start) s) :
    s.Lossless order start := by
  have hsound : s.Sound order start := by
    induction h with
    | refl => exact Fanout.sound_start hstart
    | tail _ hstep ih =>
        obtain ⟨action, hok, hact⟩ := hstep
        exact ih.act hok hact
  intro asOf count hcall hshort event hevent
  rcases hsound.last asOf [] count hcall hshort event hevent with hold | hdelivered | hnone
  · exact Or.inr ⟨hold, latestEventCursor_last hstart hold⟩
  · exact Or.inl hdelivered
  · cases hnone

/-- Times that are cut off to whole microseconds either way, and texts in the order of their
characters. -/
def EventOrder.cutOff : EventOrder where
  stored t := t / 1000
  sent t := t / 1000
  sent_le _ := Int.le_refl _
  textBefore a b := a < b
  textOrder := isStrictTotalOrder_text

def noteAt (id : String) (createdAt : Instant) : Event where
  id := id
  taskID := "task"
  kind := "task.progress"
  actor := "agent:builder"
  createdAt := createdAt

instance (s : Fanout) (action : FanoutAction) : Decidable (s.InOrder order action) :=
  match action with
  | .commit added => inferInstanceAs (Decidable (∀ event ∈ added, ∀ cursor ∈ s.ahead,
      order.before (order.position cursor) (order.key event) = true))
  | .query | .deliver | .finish | .fail => .isTrue trivial

/-- The fan-out after these actions, as far as `allows` lets them through. -/
def Fanout.run (order : EventOrder) (allows : Fanout → FanoutAction → Bool) :
    List FanoutAction → Fanout → Option Fanout
  | [], s => some s
  | action :: actions, s =>
      if allows s action then (s.act order action).bind (Fanout.run order allows actions) else none

theorem Fanout.reaches_run {ok : Fanout → FanoutAction → Prop}
    {allows : Fanout → FanoutAction → Bool} (hok : ∀ s action, allows s action = true → ok s action)
    {actions : List FanoutAction} {first : Fanout} (hfirst : Fanout.Reaches order ok first s)
    (h : Fanout.run order allows actions s = some s') : Fanout.Reaches order ok first s' := by
  induction actions generalizing s with
  | nil =>
      cases h
      exact hfirst
  | cons action actions ih =>
      rw [Fanout.run] at h
      split at h
      · obtain ⟨next, hnext, hrest⟩ := Option.bind_eq_some_iff.mp h
        exact ih (hfirst.tail ⟨action, hok _ _ ‹_›, hnext⟩) hrest
      · cases h

/-- The fan-out when it has come to the end of what its query has read. -/
def caughtUp (asOf delivered : List Event) (cursor : EventCursor) (count : Nat) : Fanout where
  events := asOf
  cursor := cursor
  delivered := delivered
  call := .reading asOf [] count

/-- Two events that are committed in the order of their times are both passed on. -/
theorem events_in_order_are_delivered :
    Fanout.Lossless .cutOff []
      (caughtUp [noteAt "1" 1000, noteAt "2" 2000] [noteAt "1" 1000, noteAt "2" 2000]
        (noteAt "2" 2000).cursor 1) := by
  have hrun : Fanout.run .cutOff (fun s action => s.InOrder .cutOff action)
      [.commit [noteAt "1" 1000], .query, .deliver, .finish, .commit [noteAt "2" 2000], .query,
        .deliver] (Fanout.start .cutOff []) =
      some (caughtUp [noteAt "1" 1000, noteAt "2" 2000] [noteAt "1" 1000, noteAt "2" 2000]
        (noteAt "2" 2000).cursor 1) := by
    decide +kernel
  exact fanout_loses_nothing List.nodup_nil
    (Fanout.reaches_run (fun _ _ h => of_decide_eq_true h) .refl hrun)

/-- The first event has taken its time before the second one, and is committed after the second one
was passed on. -/
theorem late_event_is_lost :
    ∃ s : Fanout, Fanout.Reaches .cutOff (fun _ _ => True) (Fanout.start .cutOff []) s ∧
      ¬ s.Lossless .cutOff [] := by
  have hrun : Fanout.run .cutOff (fun _ _ => true)
      [.commit [noteAt "2" 2000], .query, .deliver, .finish, .commit [noteAt "1" 1000], .query]
      (Fanout.start .cutOff []) =
      some (caughtUp [noteAt "2" 2000, noteAt "1" 1000] [noteAt "2" 2000]
        (noteAt "2" 2000).cursor 0) := by
    decide +kernel
  refine ⟨_, Fanout.reaches_run (fun _ _ _ => trivial) .refl hrun, fun hlossless => ?_⟩
  have hlost := hlossless [noteAt "2" 2000, noteAt "1" 1000] 0 rfl (by decide) (noteAt "1" 1000)
    (by simp)
  rcases hlost with hdelivered | ⟨hold, -⟩
  · exact absurd hdelivered (by decide)
  · cases hold

end Lossless

end Taskboard
