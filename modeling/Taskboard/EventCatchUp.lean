import Taskboard.EventFanout

/-!
# One call of the event catch-up

`catchUpEvents` reads batch after batch behind the cursor until one is not full. It is taken alone
here, with nothing committed meanwhile: does it end, has it passed on the events behind the cursor
in the order of time and identifier, each once, and is there nothing left for the next call?

The cursor is a time in nanoseconds. The database rounds the time of a row to microseconds and the
driver cuts the time in the query off, so that a query from the cursor at an event finds this event
again if its time was rounded up. Where this happens at the end of a batch, the event is passed on
once more; and a batch of which every row was rounded up within one microsecond is read again for
ever (`catchUp_never_ends`). `catchUp_delivers_once` says exactly when the call is right.
-/

namespace Taskboard

variable {cursor next : EventCursor} {passed : List Event} {queries : Nat}

/-- What an event is ordered by, to the nanosecond. -/
def Event.exactKey (event : Event) : EventKey :=
  (event.createdAt, event.id)

def EventCursor.exactKey (cursor : EventCursor) : EventKey :=
  (cursor.createdAt, cursor.id)

/-- The cursor behind these rows. -/
def EventCursor.after (cursor : EventCursor) (rows : List Event) : EventCursor :=
  match rows.getLast? with
  | some event => event.cursor
  | none => cursor

section Model

variable (order : EventOrder) (events : List Event)

/-- `catchUpEvents` where these events are committed and no other ones: what it passes on, and the
cursor that it leaves. `none` where it has not ended after this number of queries. -/
def catchUpEvents : Nat → EventCursor → Option (List Event × EventCursor)
  | 0, _ => none
  | queries + 1, cursor =>
      let batch := eventsBehind order cursor events
      if batch.length < eventCatchUpBatchSize then some (batch, cursor.after batch)
      else (catchUpEvents queries (cursor.after batch)).map fun (rest, next) => (batch ++ rest, next)

/-- The events behind the cursor in the order of their times, to the nanosecond, and identifiers. -/
def eventsAfter (cursor : EventCursor) : List Event :=
  sortByKey order.before Event.exactKey
    (events.filter fun event => order.before cursor.exactKey event.exactKey)

/-- The call ends and has passed on the events behind the cursor, in order and each once; the next
call passes on nothing. -/
def DeliversOnce (cursor : EventCursor) : Prop :=
  ∃ queries next, catchUpEvents order events queries cursor =
      some (eventsAfter order events cursor, next) ∧
    ∃ queries', catchUpEvents order events queries' next = some ([], next)

/-- The time of the event is the same in a row as in a query. -/
def EventOrder.Exact (event : Event) : Prop :=
  order.sent event.createdAt = order.stored event.createdAt

/-- The last event of every full batch, and the last one of all, have an exact time. -/
def EndsExact (rows : List Event) : Prop :=
  ∀ index event, rows[index]? = some event →
    eventCatchUpBatchSize ∣ index + 1 ∨ index + 1 = rows.length → order.Exact event

/-- What the rounding must leave as it is: which events are behind the cursor, how these are
ordered, and the times at which a query goes on. -/
structure RoundsEvenly (cursor : EventCursor) : Prop where
  start : ∀ event ∈ events,
    order.before (order.position cursor) (order.key event) =
      order.before cursor.exactKey event.exactKey
  sorted : ∀ a ∈ eventsAfter order events cursor, ∀ b ∈ eventsAfter order events cursor,
    order.before (order.key a) (order.key b) = order.before a.exactKey b.exactKey
  ends : EndsExact order (eventsAfter order events cursor)

/-- The rows of which the query reads the first ones. -/
def allBehind (cursor : EventCursor) : List Event :=
  orderedEvents order (events.filter fun event =>
    order.before (order.position cursor) (order.key event))

end Model

section Batches

variable {order : EventOrder} {events : List Event} {event last : Event}

theorem nodup_exactKeys (h : (events.map Event.id).Nodup) : (events.map Event.exactKey).Nodup := by
  have hid : events.map Event.id = (events.map Event.exactKey).map Prod.snd := by
    rw [List.map_map]
    rfl
  rw [hid] at h
  exact h.of_map

theorem pairwise_eventsAfter (h : (events.map Event.id).Nodup) :
    (eventsAfter order events cursor).Pairwise fun a b =>
      order.before a.exactKey b.exactKey = true :=
  pairwise_sortByKey (nodup_exactKeys (h.sublist (List.filter_sublist.map _)))

theorem mem_eventsAfter : event ∈ eventsAfter order events cursor ↔
    event ∈ events ∧ order.before cursor.exactKey event.exactKey = true := by
  rw [eventsAfter, mem_sortByKey, List.mem_filter]

theorem pairwise_allBehind (order : EventOrder) (cursor : EventCursor)
    (h : (events.map Event.id).Nodup) :
    (allBehind order events cursor).Pairwise fun a b =>
      order.before (order.key a) (order.key b) = true :=
  pairwise_orderedEvents order (h.sublist (List.filter_sublist.map _))

theorem mem_allBehind : event ∈ allBehind order events cursor ↔
    event ∈ events ∧ order.before (order.position cursor) (order.key event) = true := by
  rw [allBehind, mem_orderedEvents, List.mem_filter]

theorem EventOrder.Exact.position (h : order.Exact event) :
    order.position event.cursor = order.key event := by
  rw [EventOrder.position, EventOrder.key, Event.cursor, h]

/-- An event that the cursor at it does not find again has an exact time. -/
theorem EventOrder.exact_of_passed
    (h : ¬ order.before (order.position event.cursor) (order.key event) = true) :
    order.Exact event := by
  rcases Int.lt_or_eq_of_le (order.sent_le event.createdAt) with hlt | heq
  · refine absurd ?_ h
    simp [EventOrder.before, EventOrder.position, EventOrder.key, Event.cursor, hlt]
  · exact heq

/-- From an event with an exact time the query goes on behind it. -/
theorem allBehind_last {front back : List Event} (hids : (events.map Event.id).Nodup)
    (h : allBehind order events cursor = front ++ last :: back) (hexact : order.Exact last) :
    allBehind order events last.cursor = back := by
  have hkeys : (events.map order.key).Nodup := nodup_keys hids
  have hlast : last ∈ allBehind order events cursor := by
    rw [h]
    simp
  have hcursor := (mem_allBehind.mp hlast).2
  have hnarrow : allBehind order events last.cursor =
      (allBehind order events cursor).filter
        fun event => order.before (order.key last) (order.key event) := by
    rw [allBehind, allBehind, orderedEvents, orderedEvents, sortByKey_filter hkeys,
      sortByKey_filter hkeys, List.filter_filter, hexact.position]
    refine List.filter_congr fun event _ => ?_
    cases hbehind : order.before (order.key last) (order.key event) with
    | false => rfl
    | true => exact (trans_of (fun a b => order.before a b = true) hcursor hbehind).symm
  have hsorted := pairwise_allBehind order cursor hids
  rw [h] at hnarrow hsorted
  rw [hnarrow]
  exact filter_behind hsorted

theorem eventsBehind_eq : eventsBehind order cursor events =
    (allBehind order events cursor).take eventCatchUpBatchSize :=
  rfl

/-- What the query leaves, of a full batch whose last row has an exact time, is behind the cursor
at this row. -/
theorem allBehind_full (hids : (events.map Event.id).Nodup)
    (hfull : ¬ (eventsBehind order cursor events).length < eventCatchUpBatchSize) :
    ∃ front last, eventsBehind order cursor events = front ++ [last] ∧
      front.length + 1 = eventCatchUpBatchSize ∧
      cursor.after (eventsBehind order cursor events) = last.cursor ∧
      (order.Exact last → allBehind order events cursor =
        eventsBehind order cursor events ++ allBehind order events last.cursor) := by
  rcases List.eq_nil_or_concat (eventsBehind order cursor events) with hnil | ⟨front, last, hbatch⟩
  · rw [hnil] at hfull
    exact absurd (by decide) hfull
  · rw [List.concat_eq_append] at hbatch
    have hlength : (eventsBehind order cursor events).length ≤ eventCatchUpBatchSize := by
      rw [eventsBehind_eq, List.length_take]
      omega
    refine ⟨front, last, hbatch, ?_, ?_, ?_⟩
    · rw [hbatch, List.length_append, List.length_singleton] at hlength hfull
      omega
    · rw [EventCursor.after, hbatch, List.getLast?_concat]
    · intro hexact
      obtain ⟨later, hall, -⟩ := eventsBehind_append order cursor events
      have hsplit : allBehind order events cursor = front ++ last :: later := by
        rw [allBehind, hall, hbatch, List.append_assoc]
        rfl
      rw [allBehind_last hids hsplit hexact]
      exact hall

theorem allBehind_short (hshort : (eventsBehind order cursor events).length < eventCatchUpBatchSize) :
    eventsBehind order cursor events = allBehind order events cursor := by
  obtain ⟨later, hall, hnone⟩ := eventsBehind_append order cursor events
  rw [allBehind, hall, hnone hshort, List.append_nil]

/-- The end of a full batch, and the ends behind it. -/
theorem endsExact_append {front rest : List Event} (hfull : front.length + 1 = eventCatchUpBatchSize) :
    EndsExact order (front ++ [last] ++ rest) ↔ order.Exact last ∧ EndsExact order rest := by
  have hlength : (front ++ [last]).length = eventCatchUpBatchSize := by simpa using hfull
  constructor
  · intro h
    constructor
    · refine h front.length last ?_ (Or.inl ⟨1, by omega⟩)
      rw [List.append_assoc, List.getElem?_append_right (Nat.le_refl _), Nat.sub_self]
      rfl
    · intro index event hevent hend
      refine h (eventCatchUpBatchSize + index) event ?_ ?_
      · rw [List.getElem?_append_right (by omega), hlength, Nat.add_sub_cancel_left]
        exact hevent
      · rcases hend with hbatch | hlast
        · exact Or.inl ((Nat.dvd_add_right (Nat.dvd_refl _)).mpr hbatch)
        · refine Or.inr ?_
          rw [List.length_append, hlength]
          omega
  · rintro ⟨hlast, hrest⟩ index event hevent hend
    rcases Nat.lt_or_ge index eventCatchUpBatchSize with hlow | hhigh
    · rw [List.getElem?_append_left (by omega)] at hevent
      have hindex : index = front.length := by
        rcases hend with hbatch | hend
        · have := Nat.le_of_dvd (by omega) hbatch
          omega
        · rw [List.length_append, hlength] at hend
          omega
      rw [hindex, List.getElem?_append_right (Nat.le_refl _), Nat.sub_self] at hevent
      cases hevent
      exact hlast
    · rw [List.getElem?_append_right (by omega), hlength] at hevent
      refine hrest _ event hevent ?_
      rcases hend with hbatch | hend
      · have hsplit : index + 1 = eventCatchUpBatchSize + (index - eventCatchUpBatchSize + 1) := by
          omega
        rw [hsplit] at hbatch
        exact Or.inl ((Nat.dvd_add_right (Nat.dvd_refl _)).mp hbatch)
      · rw [List.length_append, hlength] at hend
        exact Or.inr (by omega)

/-- The only end of rows that do not fill a batch is the last one. -/
theorem endsExact_short (hshort : passed.length < eventCatchUpBatchSize) :
    EndsExact order passed ↔ ∀ event, passed.getLast? = some event → order.Exact event := by
  constructor
  · intro h event hevent
    rw [List.getLast?_eq_getElem?] at hevent
    have hpos := (List.getElem?_eq_some_iff.mp hevent).1
    exact h _ event hevent (Or.inr (by omega))
  · intro h index event hevent hend
    have hpos := (List.getElem?_eq_some_iff.mp hevent).1
    have hlast : index + 1 = passed.length := by
      rcases hend with hbatch | hlast
      · have := Nat.le_of_dvd (by omega) hbatch
        omega
      · exact hlast
    refine h event ?_
    rw [List.getLast?_eq_getElem?, ← hlast]
    exact hevent

/-- A call that ends has passed on everything behind the cursor. -/
theorem mem_of_catchUp (hids : (events.map Event.id).Nodup)
    (h : catchUpEvents order events queries cursor = some (passed, next))
    (hevent : event ∈ allBehind order events cursor) : event ∈ passed := by
  induction queries generalizing cursor passed with
  | zero => cases h
  | succ queries ih =>
      simp only [catchUpEvents] at h
      split at h
      next hshort =>
        cases h
        rw [allBehind_short hshort]
        exact hevent
      next hfull =>
        obtain ⟨⟨rest, next'⟩, hrest, hpassed⟩ := Option.map_eq_some_iff.mp h
        cases hpassed
        obtain ⟨front, last, hbatch, -, hafter, -⟩ := allBehind_full hids hfull
        rw [hafter] at hrest
        obtain ⟨later, hall, -⟩ := eventsBehind_append order cursor events
        have hsorted := pairwise_allBehind order cursor hids
        rw [allBehind, hall] at hevent hsorted
        rcases List.mem_append.mp hevent with hnow | hlater
        · exact List.mem_append_left _ hnow
        · -- The row is behind the last one of the batch, so the next query finds it.
          refine List.mem_append_right _ (ih hrest ?_)
          have hbetween := (List.pairwise_append.mp hsorted).2.2 last (by rw [hbatch]; simp) event hlater
          refine mem_allBehind.mpr ⟨?_, EventOrder.before_of_position hbetween⟩
          have hmem : event ∈ allBehind order events cursor := by
            rw [allBehind, hall]
            exact List.mem_append_right _ hlater
          exact (mem_allBehind.mp hmem).1

/-- Where the ends of the batches have exact times, the call ends and has passed on the rows behind
the cursor. -/
theorem catchUp_of_endsExact (hids : (events.map Event.id).Nodup) :
    ∀ (size : Nat) (cursor : EventCursor), (allBehind order events cursor).length ≤ size →
      EndsExact order (allBehind order events cursor) →
      ∃ queries next, catchUpEvents order events queries cursor =
        some (allBehind order events cursor, next) ∧ allBehind order events next = [] := by
  intro size
  induction size using Nat.strongRecOn with
  | ind size ih =>
      intro cursor hsize hends
      by_cases hshort : (eventsBehind order cursor events).length < eventCatchUpBatchSize
      · have hall := allBehind_short hshort
        rw [hall] at hshort
        refine ⟨1, cursor.after (allBehind order events cursor), ?_, ?_⟩
        · simp only [catchUpEvents, hall, if_pos hshort]
        · rw [endsExact_short hshort] at hends
          rcases List.eq_nil_or_concat (allBehind order events cursor) with hnil | ⟨front, last, hlast⟩
          · rw [hnil]
            exact hnil
          · rw [List.concat_eq_append] at hlast
            have hexact := hends last (by rw [hlast, List.getLast?_concat])
            rw [EventCursor.after, hlast, List.getLast?_concat]
            exact allBehind_last hids hlast hexact
      · obtain ⟨front, last, hbatch, hfull, hafter, hsplit⟩ := allBehind_full hids hshort
        have hexact : order.Exact last := by
          obtain ⟨later, hall, -⟩ := eventsBehind_append order cursor events
          rw [allBehind, hall, hbatch, endsExact_append hfull] at hends
          exact hends.1
        rw [hsplit hexact, hbatch, endsExact_append hfull] at hends
        have hrest : (allBehind order events last.cursor).length < size := by
          have hlength := congrArg List.length (hsplit hexact)
          rw [List.length_append, hbatch, List.length_append, List.length_singleton] at hlength
          have hpos : 0 < eventCatchUpBatchSize := by decide
          omega
        obtain ⟨queries, next, hcall, hnone⟩ :=
          ih _ hrest last.cursor (Nat.le_refl _) hends.2
        refine ⟨queries + 1, next, ?_, hnone⟩
        simp only [catchUpEvents, if_neg hshort, hafter, hcall, Option.map_some, hsplit hexact]

/-- A call that passes on nothing twice, and leaves nothing for the next one, has passed on the
rows behind the cursor and found exact times at the ends of its batches. -/
theorem endsExact_of_catchUp (hids : (events.map Event.id).Nodup)
    (h : catchUpEvents order events queries cursor = some (passed, next)) (honce : passed.Nodup)
    (hnone : allBehind order events next = []) :
    passed = allBehind order events cursor ∧ EndsExact order passed := by
  induction queries generalizing cursor passed with
  | zero => cases h
  | succ queries ih =>
      simp only [catchUpEvents] at h
      split at h
      next hshort =>
        cases h
        refine ⟨allBehind_short hshort, (endsExact_short hshort).mpr fun last hlast => ?_⟩
        rw [EventCursor.after, hlast] at hnone
        refine EventOrder.exact_of_passed fun hfound => ?_
        have hmem : last ∈ allBehind order events cursor := by
          rw [← allBehind_short hshort]
          exact List.mem_of_getLast? hlast
        have hagain : last ∈ allBehind order events last.cursor :=
          mem_allBehind.mpr ⟨(mem_allBehind.mp hmem).1, hfound⟩
        rw [hnone] at hagain
        cases hagain
      next hfull =>
        obtain ⟨⟨rest, next'⟩, hrest, hpassed⟩ := Option.map_eq_some_iff.mp h
        cases hpassed
        obtain ⟨front, last, hbatch, hsize, hafter, hsplit⟩ := allBehind_full hids hfull
        rw [hafter] at hrest
        obtain ⟨-, honce', hapart⟩ := List.nodup_append.mp honce
        obtain ⟨rfl, hends⟩ := ih hrest honce'
        -- Were the last row found again, it would be passed on twice.
        have hlast : last ∈ eventsBehind order cursor events := by
          rw [hbatch]
          simp
        have hexact : order.Exact last := by
          refine EventOrder.exact_of_passed fun hfound => ?_
          have hmem : last ∈ allBehind order events cursor := by
            rw [eventsBehind_eq] at hlast
            exact List.mem_of_mem_take hlast
          exact hapart last hlast last
            (mem_allBehind.mpr ⟨(mem_allBehind.mp hmem).1, hfound⟩) rfl
        refine ⟨(hsplit hexact).symm, ?_⟩
        rw [hbatch, endsExact_append hsize]
        exact ⟨hexact, hends⟩

end Batches

section Once

variable {order : EventOrder} {events : List Event}

theorem nodup_eventsAfter (hids : (events.map Event.id).Nodup) :
    (eventsAfter order events cursor).Nodup := by
  have hirrefl : ∀ a b : Event, order.before a.exactKey b.exactKey = true → a ≠ b := by
    rintro a _ h rfl
    exact irrefl_of (fun a b => order.before a b = true) _ h
  exact (pairwise_eventsAfter hids).imp (hirrefl _ _)

/-- Where the rounding is even, the rows behind the cursor are the events behind it. -/
theorem RoundsEvenly.allBehind_eq (h : RoundsEvenly order events cursor)
    (hids : (events.map Event.id).Nodup) :
    allBehind order events cursor = eventsAfter order events cursor := by
  have hmem : ∀ event, event ∈ allBehind order events cursor ↔
      event ∈ eventsAfter order events cursor := by
    intro event
    rw [mem_allBehind, mem_eventsAfter]
    constructor
    · rintro ⟨hevent, hbehind⟩
      exact ⟨hevent, (h.start event hevent).symm.trans hbehind⟩
    · rintro ⟨hevent, hbehind⟩
      exact ⟨hevent, (h.start event hevent).trans hbehind⟩
  have hsorted : (allBehind order events cursor).Pairwise fun a b =>
      order.before a.exactKey b.exactKey = true := by
    refine (pairwise_allBehind order cursor hids).imp_of_mem ?_
    intro a b ha hb hbefore
    exact (h.sorted a ((hmem a).mp ha) b ((hmem b).mp hb)).symm.trans hbefore
  have hnodup : (allBehind order events cursor).Nodup := by
    refine hsorted.imp ?_
    rintro a _ hbefore rfl
    exact irrefl_of (fun a b => order.before a b = true) _ hbefore
  refine List.Perm.eq_of_pairwise ?_ hsorted (pairwise_eventsAfter hids)
    ((List.perm_ext_iff_of_nodup hnodup (nodup_eventsAfter hids)).mpr hmem)
  intro a b _ _ hab hba
  exact absurd hba (asymm_of (fun a b => order.before a b = true) hab)

/-- Rows that stand in two strict orders compare alike in both. -/
theorem before_eq_of_pairwise {rows : List Event} {key key' : Event → EventKey}
    (h : rows.Pairwise fun a b => order.before (key a) (key b) = true)
    (h' : rows.Pairwise fun a b => order.before (key' a) (key' b) = true) {a b : Event}
    (ha : a ∈ rows) (hb : b ∈ rows) :
    order.before (key a) (key b) = order.before (key' a) (key' b) := by
  have hirrefl : ∀ k, order.before k k = false := by
    intro k
    rw [Bool.eq_false_iff]
    exact irrefl_of (fun a b => order.before a b = true) k
  have hback : ∀ {k k'}, order.before k k' = true → order.before k' k = false := by
    intro k k' hbefore
    rw [Bool.eq_false_iff]
    exact asymm_of (fun a b => order.before a b = true) hbefore
  have hboth := h.and h'
  induction rows with
  | nil => cases ha
  | cons row rows ih =>
      obtain ⟨hrow, hrows⟩ := List.pairwise_cons.mp hboth
      rcases List.mem_cons.mp ha with rfl | hrest
      · rcases List.mem_cons.mp hb with rfl | hlater
        · rw [hirrefl, hirrefl]
        · rw [(hrow b hlater).1, (hrow b hlater).2]
      · rcases List.mem_cons.mp hb with rfl | hlater
        · rw [hback (hrow a hrest).1, hback (hrow a hrest).2]
        · exact ih h.of_cons h'.of_cons hrest hlater hrows

/-- **The catch-up delivers each event once, in order, and stops** exactly where the rounding of
times is even. -/
theorem catchUp_delivers_once (order : EventOrder) (cursor : EventCursor)
    (hids : (events.map Event.id).Nodup) :
    DeliversOnce order events cursor ↔ RoundsEvenly order events cursor := by
  constructor
  · rintro ⟨queries, next, hcall, queries', hagain⟩
    have hnone : allBehind order events next = [] := by
      rw [List.eq_nil_iff_forall_not_mem]
      intro event hevent
      exact List.not_mem_nil (mem_of_catchUp hids hagain hevent)
    obtain ⟨hall, hends⟩ := endsExact_of_catchUp hids hcall (nodup_eventsAfter hids) hnone
    refine ⟨?_, ?_, hends⟩
    · intro event hevent
      have hmem : event ∈ allBehind order events cursor ↔
          event ∈ eventsAfter order events cursor := by rw [hall]
      rw [mem_allBehind, mem_eventsAfter] at hmem
      simp only [hevent, true_and] at hmem
      exact Bool.eq_iff_iff.mpr hmem
    · intro a ha b hb
      have hsorted := pairwise_allBehind order cursor hids
      rw [← hall] at hsorted
      exact before_eq_of_pairwise hsorted (pairwise_eventsAfter hids) ha hb
  · intro heven
    have hall := heven.allBehind_eq hids
    have hends := heven.ends
    rw [← hall] at hends
    obtain ⟨queries, next, hcall, hnone⟩ :=
      catchUp_of_endsExact hids _ cursor (Nat.le_refl _) hends
    rw [hall] at hcall
    refine ⟨queries, next, hcall, 1, ?_⟩
    have hempty : eventsBehind order next events = [] := by
      rw [eventsBehind_eq, hnone, List.take_nil]
    simp only [catchUpEvents, hempty]
    rfl

theorem EventCursor.after_cons (cursor : EventCursor) (row : Event) (rows : List Event) :
    cursor.after (row :: rows) = row.cursor.after rows := by
  rw [EventCursor.after, EventCursor.after, List.getLast?_cons]
  cases rows.getLast? <;> rfl

/-- The rows of a batch are passed on one by one. -/
theorem Fanout.reaches_deliver (rows asOf : List Event) :
    ∀ (s : Fanout) (count : Nat), s.call = .reading asOf rows count →
      Fanout.Reaches order (fun _ _ => True) s
        { s with
          delivered := s.delivered ++ rows
          cursor := s.cursor.after rows
          call := .reading asOf [] (count + rows.length) } := by
  induction rows with
  | nil =>
      intro s count hcall
      simp only [List.append_nil, List.length_nil, Nat.add_zero, ← hcall]
      exact .refl
  | cons row rows ih =>
      intro s count hcall
      have hstep : s.act order .deliver = some
          { s with
            delivered := s.delivered ++ [row]
            cursor := row.cursor
            call := .reading asOf rows (count + 1) } := by
        rw [Fanout.act, hcall]
      have hrest := ih
        { s with
          delivered := s.delivered ++ [row]
          cursor := row.cursor
          call := .reading asOf rows (count + 1) } (count + 1) rfl
      simp only [List.append_assoc, List.singleton_append] at hrest
      rw [EventCursor.after_cons, List.length_cons, Nat.add_comm rows.length, ← Nat.add_assoc]
      exact hrest.head ⟨.deliver, trivial, hstep⟩

/-- The fan-out is about to send a query: a call starts, or it is behind a full batch. -/
def Fanout.Asks (s : Fanout) : Prop :=
  s.call = .idle ∨ ∃ asOf count, s.call = .reading asOf [] count ∧ eventCatchUpBatchSize ≤ count

/-- **A call is one run of the fan-out**: queries, rows passed on one by one, and the return. -/
theorem Fanout.reaches_catchUp {s : Fanout} (hasks : s.Asks)
    (h : catchUpEvents order s.events queries s.cursor = some (passed, next)) :
    Fanout.Reaches order (fun _ _ => True) s
      { s with delivered := s.delivered ++ passed, cursor := next, call := .idle } := by
  induction queries generalizing s passed with
  | zero => cases h
  | succ queries ih =>
      have hquery : s.act order .query = some
          { s with call := .reading s.events (eventsBehind order s.cursor s.events) 0 } := by
        rcases hasks with hidle | ⟨asOf, count, hreading, hcount⟩
        · rw [Fanout.act, hidle]
        · simp only [Fanout.act, hreading, if_neg (Nat.not_lt.mpr hcount)]
      have hbatch := (Fanout.reaches_deliver (eventsBehind order s.cursor s.events) s.events
        { s with call := .reading s.events (eventsBehind order s.cursor s.events) 0 } 0
        rfl).head ⟨.query, trivial, hquery⟩
      rw [Nat.zero_add] at hbatch
      simp only [catchUpEvents] at h
      split at h
      next hshort =>
        cases h
        refine hbatch.tail ⟨.finish, trivial, ?_⟩
        simp only [Fanout.act, if_pos hshort]
      next hfull =>
        obtain ⟨⟨rest, next'⟩, hrest, hpassed⟩ := Option.map_eq_some_iff.mp h
        cases hpassed
        let later : Fanout :=
          { s with
            delivered := s.delivered ++ eventsBehind order s.cursor s.events
            cursor := s.cursor.after (eventsBehind order s.cursor s.events)
            call := .reading s.events [] (eventsBehind order s.cursor s.events).length }
        have hasks' : later.Asks := Or.inr ⟨_, _, rfl, Nat.not_lt.mp hfull⟩
        have hlater := ih hasks' hrest
        simp only [later, List.append_assoc] at hlater
        exact hbatch.trans hlater

/-- **A call that never ends.** A full batch of events that are all rounded up to one microsecond is
read again and again, from any cursor before it. -/
theorem catchUp_never_ends {rounded : Int} (hup : ∀ event ∈ events,
      order.stored event.createdAt = rounded ∧ order.sent event.createdAt < rounded)
    (hmany : eventCatchUpBatchSize ≤ events.length)
    (hcursor : order.sent cursor.createdAt < rounded) (queries : Nat) :
    catchUpEvents order events queries cursor = none := by
  induction queries generalizing cursor with
  | zero => rfl
  | succ queries ih =>
      have hall : (events.filter fun event =>
          order.before (order.position cursor) (order.key event)) = events := by
        refine List.filter_eq_self.mpr fun event hevent => ?_
        simp [EventOrder.before, EventOrder.position, EventOrder.key, (hup event hevent).1, hcursor]
      have hlength : (eventsBehind order cursor events).length = eventCatchUpBatchSize := by
        have hordered : (orderedEvents order events).length = events.length :=
          (perm_sortByKey events).length_eq
        rw [eventsBehind, hall, List.length_take, hordered]
        omega
      have hafter : order.sent (cursor.after (eventsBehind order cursor events)).createdAt <
          rounded := by
        rcases List.eq_nil_or_concat (eventsBehind order cursor events) with hnil | ⟨front, last, hlast⟩
        · rw [hnil] at hlength
          exact absurd hlength (by decide)
        · rw [List.concat_eq_append] at hlast
          have hmem : last ∈ eventsBehind order cursor events := by
            rw [hlast]
            simp
          have hevent : last ∈ events := by
            rw [eventsBehind, hall] at hmem
            exact (mem_orderedEvents order).mp (List.mem_of_mem_take hmem)
          rw [EventCursor.after, hlast, List.getLast?_concat]
          exact (hup last hevent).2
      have hfull : ¬ (eventsBehind order cursor events).length < eventCatchUpBatchSize := by
        omega
      simp only [catchUpEvents, if_neg hfull, ih hafter, Option.map_none]

end Once

section Postgres

/-- The database rounds the time of a row to the nearest microsecond, a half to the even one, and
the driver cuts the time in a query off. -/
def EventOrder.postgres : EventOrder where
  stored (t : Int) :=
    if 500 < t % 1000 ∨ t % 1000 = 500 ∧ t / 1000 % 2 = 1 then t / 1000 + 1 else t / 1000
  sent (t : Int) := t / 1000
  sent_le (t : Int) := by split <;> omega
  textBefore a b := a < b
  textOrder := isStrictTotalOrder_text

variable {events : List Event}

theorem EventOrder.postgres_stored_whole {t : Int} (h : t % 1000 = 0) :
    EventOrder.postgres.stored t = t / 1000 := by
  simp only [EventOrder.postgres]
  split <;> omega

/-- Times in whole microseconds compare as they are. -/
theorem EventOrder.postgres_before_whole {a b : Int} (ha : a % 1000 = 0) (hb : b % 1000 = 0)
    (x y : String) :
    EventOrder.postgres.before (a / 1000, x) (b / 1000, y) =
      EventOrder.postgres.before (a, x) (b, y) := by
  have hlt : a / 1000 < b / 1000 ↔ a < b := by omega
  have heq : a / 1000 = b / 1000 ↔ a = b := by omega
  simp only [EventOrder.before, hlt, heq]

/-- Times in whole microseconds are not rounded. -/
theorem roundsEvenly_of_whole (hcursor : cursor.createdAt % 1000 = 0)
    (hevents : ∀ event ∈ events, event.createdAt % 1000 = 0) :
    RoundsEvenly .postgres events cursor where
  start event hevent := by
    rw [EventOrder.key, EventOrder.postgres_stored_whole (hevents event hevent)]
    exact EventOrder.postgres_before_whole hcursor (hevents event hevent) _ _
  sorted a ha b hb := by
    have hwhole := hevents a (mem_eventsAfter.mp ha).1
    have hwhole' := hevents b (mem_eventsAfter.mp hb).1
    rw [EventOrder.key, EventOrder.key, EventOrder.postgres_stored_whole hwhole,
      EventOrder.postgres_stored_whole hwhole']
    exact EventOrder.postgres_before_whole hwhole hwhole' _ _
  ends index event hevent _ := by
    have hmem := List.mem_of_getElem? hevent
    exact (EventOrder.postgres_stored_whole (hevents event (mem_eventsAfter.mp hmem).1)).symm

/-- Two events in whole microseconds, from an empty cursor. -/
theorem whole_microseconds_are_delivered_once :
    DeliversOnce .postgres [noteAt "2" 2000, noteAt "1" 1000] { createdAt := zeroTime, id := "" } :=
  (catchUp_delivers_once .postgres _ (by decide)).mpr
    (roundsEvenly_of_whole (by decide) (by decide))

/-- An event at 1600 ns is stored at 2 µs and asked for from 1 µs: the next call passes it on again. -/
theorem rounded_up_event_is_delivered_again :
    ¬ DeliversOnce .postgres [noteAt "1" 1600] { createdAt := zeroTime, id := "" } := by
  have hfound : ∀ cursor ∈ [⟨zeroTime, ""⟩, (noteAt "1" 1600).cursor],
      eventsBehind .postgres cursor [noteAt "1" 1600] = [noteAt "1" 1600] := by
    decide +kernel
  have hcall : ∀ cursor ∈ [⟨zeroTime, ""⟩, (noteAt "1" 1600).cursor], ∀ queries,
      catchUpEvents .postgres [noteAt "1" 1600] (queries + 1) cursor =
        some ([noteAt "1" 1600], (noteAt "1" 1600).cursor) := by
    intro cursor hcursor queries
    simp only [catchUpEvents, hfound cursor hcursor]
    rfl
  rintro ⟨queries, next, hfirst, queries', hsecond⟩
  cases queries with
  | zero => cases hfirst
  | succ queries =>
      rw [hcall _ (by simp)] at hfirst
      cases hfirst
      cases queries' with
      | zero => cases hsecond
      | succ queries' =>
          rw [hcall _ (by simp)] at hsecond
          cases hsecond

/-- A full batch at 1600 ns, which is stored at 2 µs. -/
theorem rounded_up_batch_is_read_for_ever :
    let events := (List.range 256).map fun n => noteAt (toString n) 1600
    catchUpEvents .postgres events 9 { createdAt := zeroTime, id := "" } = none := by
  intro events
  have hup : ∀ event ∈ events, EventOrder.postgres.stored event.createdAt = 2 ∧
      EventOrder.postgres.sent event.createdAt < 2 := by
    simp [events, noteAt, EventOrder.postgres]
  exact catchUp_never_ends hup (by simp [events, eventCatchUpBatchSize]) (by decide) 9

/-- Two events in whole microseconds are passed on by one run of the fan-out. -/
theorem two_events_are_one_run :
    let events := [noteAt "2" 2000, noteAt "1" 1000]
    Fanout.Reaches .postgres (fun _ _ => True) { events, cursor := { createdAt := zeroTime, id := "" } }
      { events, cursor := { createdAt := 2000, id := "2" }
        delivered := [noteAt "1" 1000, noteAt "2" 2000] } := by
  intro events
  have hcall : catchUpEvents .postgres events 1 { createdAt := zeroTime, id := "" } =
      some ([noteAt "1" 1000, noteAt "2" 2000], { createdAt := 2000, id := "2" }) := by decide +kernel
  exact Fanout.reaches_catchUp (Or.inl rfl) hcall

end Postgres

end Taskboard
