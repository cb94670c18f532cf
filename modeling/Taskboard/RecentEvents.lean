import Mathlib.Data.List.AList
import Mathlib.Data.List.Induction
import Mathlib.Data.Set.Finite.Lattice
import Taskboard.Requests

/-!
# Events seen before

An event reaches a server from its own transactions and again from the database, and is passed to
the subscribers once. `markEventSeen` remembers the identifiers in a map and in a queue by time,
and drops the oldest ones once there are too many or they are too old.

The queue is always the end of the list of all that was ever remembered. `RecentEvents.Tracks` says
so, and for every event that is no longer in the queue why: enough others came after it, or its
time is over.
-/

namespace Taskboard

/-- `recentEvent`. -/
structure RecentEvent where
  id : String
  seen : Instant

/-- The map `recentEvents` of the service, and its queue `recentOrder`. -/
structure RecentEvents where
  recentEvents : AList (fun _ : String => Instant) := ∅
  recentOrder : List RecentEvent := []

/-- The loop of `markEventSeen`. Each round takes the oldest event from the queue. -/
def evictRecent (cutoff : Instant) :
    AList (fun _ : String => Instant) → List RecentEvent → RecentEvents
  | events, [] => { recentEvents := events }
  | events, oldest :: order =>
      if 4096 < (oldest :: order).length ∨ oldest.seen < cutoff then
        evictRecent cutoff
          (if events.lookup oldest.id = some oldest.seen then events.erase oldest.id else events)
          order
      else { recentEvents := events, recentOrder := oldest :: order }

/-- `markEventSeen`: whether the event is new, and what is remembered then. -/
def RecentEvents.markEventSeen (s : RecentEvents) (now : Instant) (id : String) :
    Bool × RecentEvents :=
  if (s.recentEvents.lookup id).isSome then (false, s)
  else (true, evictRecent (now - 10 * minute) (s.recentEvents.insert id now)
    (s.recentOrder ++ [{ id, seen := now }]))

/-- `publish`: whether the event is passed to the subscribers, and what is remembered then. -/
def RecentEvents.publish (s : RecentEvents) (now : Instant) (event : Event) : Bool × RecentEvents :=
  if event.id ≠ "" then s.markEventSeen now event.id else (true, s)

/-- What is remembered after these calls of `markEventSeen`. -/
def markAll (calls : List (Instant × String)) : RecentEvents :=
  calls.foldl (fun s call => (s.markEventSeen call.1 call.2).2) {}

/-- What is remembered, and the events that were passed to the subscribers, with the times. -/
structure Feed where
  recent : RecentEvents := {}
  passed : List (Instant × Event) := []

/-- The events that were passed on and have an identifier. -/
def Feed.marked (feed : Feed) : List RecentEvent :=
  (feed.passed.filter fun call => call.2.id ≠ "").map fun call => { id := call.2.id, seen := call.1 }

def Feed.publish (feed : Feed) (call : Instant × Event) : Feed where
  recent := (feed.recent.publish call.1 call.2).2
  passed := if (feed.recent.publish call.1 call.2).1 then feed.passed ++ [call] else feed.passed

/-- The feed after these calls of `publish`. -/
def publishAll (calls : List (Instant × Event)) : Feed :=
  calls.foldl Feed.publish {}

/-- At least 4096 events follow `first`, and the first of them are different from it and from each
other. -/
def Outrun (first : RecentEvent) (later : List RecentEvent) : Prop :=
  4096 ≤ later.length ∧ ((first :: later.take 4096).map (·.id)).Nodup

/-- What is remembered of the events in `marked`, in their order, at a time. -/
structure RecentEvents.Tracks (s : RecentEvents) (marked : List RecentEvent) (now : Instant) :
    Prop where
  /-- The queue is the end of the list. -/
  suffix : s.recentOrder <:+ marked
  named : (s.recentOrder.map (·.id)).Nodup
  /-- The map holds what is in the queue. -/
  held : ∀ id seen, s.recentEvents.lookup id = some seen ↔ ⟨id, seen⟩ ∈ s.recentOrder
  bounded : s.recentOrder.length ≤ 4096
  sorted : marked.Pairwise (·.seen ≤ ·.seen)
  past : ∀ event ∈ marked, event.seen ≤ now
  /-- An event is in the queue still, or many came after it, or its time is over. -/
  gone : ∀ event later, event :: later <:+ marked → event :: later <:+ s.recentOrder ∨
    Outrun event later ∨ event.seen + 10 * minute < now
  /-- An event that was marked again within ten minutes had been outrun. -/
  apart : ∀ before again, before ++ [again] <+: marked → ∀ event later,
    event :: later <:+ before → event.id = again.id → again.seen ≤ event.seen + 10 * minute →
      Outrun event later

section Evict

variable {cutoff : Instant} {events : AList fun _ : String => Instant} {order : List RecentEvent}

/-- The map holds what is in the queue once the oldest is taken from both. -/
theorem held_erase {oldest : RecentEvent} (hnamed : ((oldest :: order).map (·.id)).Nodup)
    (hheld : ∀ id seen, events.lookup id = some seen ↔ ⟨id, seen⟩ ∈ oldest :: order)
    (id : String) (seen : Instant) :
    (events.erase oldest.id).lookup id = some seen ↔ ⟨id, seen⟩ ∈ order := by
  have hfresh : oldest.id ∉ order.map (·.id) := (List.nodup_cons.mp hnamed).1
  by_cases hid : id = oldest.id
  · subst hid
    rw [AList.lookup_erase]
    refine iff_of_false (by simp) fun hmem => hfresh (List.mem_map.mpr ⟨_, hmem, rfl⟩)
  · rw [AList.lookup_erase_ne hid, hheld, List.mem_cons]
    refine or_iff_right fun hsame => hid (congrArg RecentEvent.id hsame)

/-- **What the loop leaves.** It ends, since it goes through the queue once. -/
theorem evictRecent_spec (hnamed : (order.map (·.id)).Nodup)
    (hheld : ∀ id seen, events.lookup id = some seen ↔ ⟨id, seen⟩ ∈ order) :
    (evictRecent cutoff events order).recentOrder <:+ order ∧
      (∀ id seen, (evictRecent cutoff events order).recentEvents.lookup id = some seen ↔
        ⟨id, seen⟩ ∈ (evictRecent cutoff events order).recentOrder) ∧
      (evictRecent cutoff events order).recentOrder.length ≤ 4096 ∧
      ∀ event later, event :: later <:+ order →
        event :: later <:+ (evictRecent cutoff events order).recentOrder ∨
          4096 ≤ later.length ∨ event.seen < cutoff := by
  induction order generalizing events with
  | nil => exact ⟨List.suffix_rfl, hheld, Nat.zero_le _, fun _ _ h => Or.inl h⟩
  | cons oldest order ih =>
      rw [evictRecent]
      split
      · next hguard =>
          have hseen : events.lookup oldest.id = some oldest.seen :=
            (hheld _ _).mpr List.mem_cons_self
          obtain ⟨hsuffix, hkept, hlength, hgone⟩ :=
            ih (List.nodup_cons.mp hnamed).2 (held_erase hnamed hheld)
          rw [if_pos hseen]
          refine ⟨hsuffix.trans (List.suffix_cons _ _), hkept, hlength, ?_⟩
          intro event later h
          rcases List.suffix_cons_iff.mp h with hself | hrest
          · obtain ⟨rfl, rfl⟩ := List.cons.inj hself
            rw [List.length_cons] at hguard
            exact Or.inr (hguard.imp_left fun hlong => by omega)
          · exact hgone event later hrest
      · next hguard =>
          exact ⟨List.suffix_rfl, hheld, Nat.not_lt.mp (not_or.mp hguard).1, fun _ _ h => Or.inl h⟩

end Evict

section Marks

variable {s : RecentEvents} {marked : List RecentEvent} {now now' : Instant} {new : RecentEvent}
  {calls : List (Instant × Event)}

theorem tracks_empty : RecentEvents.Tracks {} [] now where
  suffix := List.suffix_rfl
  named := List.nodup_nil
  held id seen := by simp
  bounded := Nat.zero_le _
  sorted := List.Pairwise.nil
  past event hevent := absurd hevent List.not_mem_nil
  gone event later h := by simp at h
  apart before again h := by simp at h

namespace RecentEvents.Tracks

/-- Time passes. -/
theorem later (h : s.Tracks marked now) (hnow : now ≤ now') : s.Tracks marked now' where
  suffix := h.suffix
  named := h.named
  held := h.held
  bounded := h.bounded
  sorted := h.sorted
  past event hevent := Int.le_trans (h.past event hevent) hnow
  gone event later hlater :=
    (h.gone event later hlater).imp_right (Or.imp_right fun hold => Int.lt_of_lt_of_le hold hnow)
  apart := h.apart

/-- An event that is in the queue is retained. -/
theorem lookup_of_suffix (h : s.Tracks marked now) {event : RecentEvent} {later : List RecentEvent}
    (hlater : event :: later <:+ s.recentOrder) :
    s.recentEvents.lookup event.id = some event.seen :=
  (h.held _ _).mpr (hlater.mem List.mem_cons_self)

/-- A further event. -/
theorem mark (h : s.Tracks marked now) (hnow : now ≤ new.seen)
    (hfresh : s.recentEvents.lookup new.id = none) :
    (evictRecent (new.seen - 10 * minute) (s.recentEvents.insert new.id new.seen)
      (s.recentOrder ++ [new])).Tracks (marked ++ [new]) new.seen := by
  have hnew : new.id ∉ s.recentOrder.map (·.id) := by
    intro hmem
    obtain ⟨event, hevent, hid⟩ := List.mem_map.mp hmem
    rw [← hid, (h.held _ _).mpr hevent] at hfresh
    cases hfresh
  have hnamed : ((s.recentOrder ++ [new]).map (·.id)).Nodup := by
    rw [List.map_append, List.map_singleton, ← List.concat_eq_append]
    exact h.named.concat hnew
  have hheld (other : String) (seen : Instant) :
      (s.recentEvents.insert new.id new.seen).lookup other = some seen ↔
        ⟨other, seen⟩ ∈ s.recentOrder ++ [new] := by
    obtain ⟨id, now'⟩ := new
    by_cases hother : other = id
    · subst hother
      have hnone : ⟨other, seen⟩ ∉ s.recentOrder := fun hmem =>
        hnew (List.mem_map.mpr ⟨_, hmem, rfl⟩)
      simp [AList.lookup_insert, hnone, eq_comm]
    · simp [AList.lookup_insert_ne hother, h.held, hother]
  obtain ⟨hsuffix, hkept, hlength, hgone⟩ := evictRecent_spec hnamed hheld
  obtain ⟨dropped, hdropped⟩ := h.suffix
  refine ⟨hsuffix.trans ⟨dropped, by rw [← hdropped, List.append_assoc]⟩,
    hnamed.sublist (hsuffix.sublist.map _), hkept, hlength, ?_, ?_, ?_, ?_⟩
  · refine List.pairwise_append.mpr ⟨h.sorted, List.pairwise_singleton _ _, ?_⟩
    intro event hevent last hlast
    obtain rfl := List.mem_singleton.mp hlast
    exact Int.le_trans (h.past event hevent) hnow
  · intro event hevent
    rcases List.mem_append.mp hevent with hold | hlast
    · exact Int.le_trans (h.past event hold) hnow
    · obtain rfl := List.mem_singleton.mp hlast
      exact Int.le_refl _
  · intro event later hlater
    -- What is still in the queue was dropped by the loop, if at all.
    have hqueued (hqueue : event :: later <:+ s.recentOrder ++ [new]) :
        event :: later <:+ (evictRecent (new.seen - 10 * minute)
            (s.recentEvents.insert new.id new.seen) (s.recentOrder ++ [new])).recentOrder ∨
          Outrun event later ∨ event.seen + 10 * minute < new.seen := by
      rcases hgone event later hqueue with hkept | hlong | hold
      · exact Or.inl hkept
      · refine Or.inr (Or.inl ⟨hlong, hnamed.sublist (List.Sublist.map _ ?_)⟩)
        exact ((List.take_sublist _ _).cons_cons _).trans hqueue.sublist
      · exact Or.inr (Or.inr (Int.add_lt_of_lt_sub_right hold))
    rcases List.suffix_concat_iff.mp hlater with hnil | ⟨front, hfront, hmarked⟩
    · cases hnil
    · cases front with
      | nil =>
          obtain ⟨rfl, rfl⟩ := List.cons.inj hfront
          exact hqueued (List.suffix_append _ _)
      | cons first front =>
          rw [List.cons_append] at hfront
          obtain ⟨rfl, rfl⟩ := List.cons.inj hfront
          rcases h.gone event front hmarked with hqueue | ⟨hlong, hdistinct⟩ | hold
          · obtain ⟨earlier, hearlier⟩ := hqueue
            exact hqueued ⟨earlier, by rw [← hearlier, List.append_assoc]; rfl⟩
          · refine Or.inr (Or.inl ⟨Nat.le_trans hlong (by simp), ?_⟩)
            rwa [List.take_append_of_le_length hlong]
          · exact Or.inr (Or.inr (Int.lt_of_lt_of_le hold hnow))
  · intro before again hagain event later hlater hid hsoon
    rcases List.prefix_concat_iff.mp hagain with hlast | hbefore
    · obtain ⟨rfl, hsingle⟩ := List.append_inj' hlast rfl
      obtain rfl := List.singleton_inj.mp hsingle
      rcases h.gone event later hlater with hqueue | hmany | hold
      · rw [← hid, h.lookup_of_suffix hqueue] at hfresh
        cases hfresh
      · exact hmany
      · exact absurd hsoon (Int.not_le.mpr (Int.lt_of_lt_of_le hold hnow))
    · exact h.apart before again hbefore event later hlater hid hsoon

/-- **One call.** -/
theorem step (h : s.Tracks marked now) (hnow : now ≤ now') (id : String) :
    (s.markEventSeen now' id).2.Tracks
      (if (s.markEventSeen now' id).1 then marked ++ [{ id, seen := now' }] else marked) now' := by
  unfold markEventSeen
  by_cases hseen : (s.recentEvents.lookup id).isSome = true
  · simp only [if_pos hseen, Bool.false_eq_true, if_false]
    exact h.later hnow
  · simp only [if_neg hseen, if_true]
    have hfresh : s.recentEvents.lookup (⟨id, now'⟩ : RecentEvent).id = none :=
      Option.not_isSome_iff_eq_none.mp hseen
    exact h.mark hnow hfresh

end RecentEvents.Tracks

theorem markEventSeen_eq_false_iff {id : String} :
    (s.markEventSeen now id).1 = false ↔ id ∈ s.recentEvents := by
  rw [← AList.lookup_isSome, RecentEvents.markEventSeen]
  split <;> simp_all

/-- The keys of the map are the identifiers in the queue. -/
theorem RecentEvents.Tracks.keys_perm (h : s.Tracks marked now) :
    s.recentEvents.keys.Perm (s.recentOrder.map (·.id)) := by
  rw [List.perm_ext_iff_of_nodup s.recentEvents.keys_nodup h.named]
  intro id
  rw [← AList.mem_keys, ← AList.lookup_isSome, Option.isSome_iff_exists, List.mem_map]
  constructor
  · rintro ⟨seen, hseen⟩
    exact ⟨⟨id, seen⟩, (h.held id seen).mp hseen, rfl⟩
  · rintro ⟨event, hevent, rfl⟩
    exact ⟨event.seen, (h.held _ _).mpr hevent⟩

/-- **Any sequence of calls**, as it stands at a time that is not before any of them. -/
theorem tracks_markAll {calls : List (Instant × String)} (hclock : calls.Pairwise (·.1 ≤ ·.1)) :
    ∃ marked, ∀ now, (∀ call ∈ calls, call.1 ≤ now) → (markAll calls).Tracks marked now := by
  induction calls using List.reverseRecOn with
  | nil => exact ⟨[], fun now _ => tracks_empty⟩
  | append_singleton calls call ih =>
      obtain ⟨hcalls, -, hlast⟩ := List.pairwise_append.mp hclock
      obtain ⟨marked, hmarked⟩ := ih hcalls
      have hbefore := hmarked call.1 fun earlier hearlier => hlast earlier hearlier call (by simp)
      have hrun : markAll (calls ++ [call]) = ((markAll calls).markEventSeen call.1 call.2).2 := by
        rw [markAll, List.foldl_append]
        rfl
      rw [hrun]
      exact ⟨_, fun now hnow => (hbefore.step (Int.le_refl _) call.2).later (hnow call (by simp))⟩

theorem tracks_publish {feed : Feed} {call : Instant × Event}
    (h : feed.recent.Tracks feed.marked call.1) :
    (feed.publish call).recent.Tracks (feed.publish call).marked call.1 := by
  by_cases hid : call.2.id = ""
  · have hmarked : (feed.publish call).marked = feed.marked := by
      simp [Feed.marked, Feed.publish, RecentEvents.publish, hid]
    have hrecent : (feed.publish call).recent = feed.recent := by
      simp [Feed.publish, RecentEvents.publish, hid]
    rw [hmarked, hrecent]
    exact h
  · have hpublish : feed.recent.publish call.1 call.2 = feed.recent.markEventSeen call.1 call.2.id :=
      if_pos hid
    have hmarked : (feed.publish call).marked =
        if (feed.recent.markEventSeen call.1 call.2.id).1 then
          feed.marked ++ [{ id := call.2.id, seen := call.1 }]
        else feed.marked := by
      rw [Feed.marked, Feed.publish, hpublish]
      split <;> simp [Feed.marked, hid]
    rw [hmarked, Feed.publish, hpublish]
    exact h.step (Int.le_refl _) call.2.id

theorem tracks_publishAll (hclock : calls.Pairwise (·.1 ≤ ·.1)) :
    ∀ now, (∀ call ∈ calls, call.1 ≤ now) →
      (publishAll calls).recent.Tracks (publishAll calls).marked now := by
  induction calls using List.reverseRecOn with
  | nil => exact fun now _ => tracks_empty
  | append_singleton calls call ih =>
      intro now hnow
      obtain ⟨hcalls, -, hlast⟩ := List.pairwise_append.mp hclock
      have hbefore := ih hcalls call.1 fun earlier hearlier => hlast earlier hearlier call (by simp)
      rw [publishAll, List.foldl_append]
      exact (tracks_publish hbefore).later (hnow call (by simp))

theorem exists_clock {α : Type} (calls : List (Instant × α)) :
    ∃ now, ∀ call ∈ calls, call.1 ≤ now := by
  obtain ⟨now, hnow⟩ := (calls.map Prod.fst).finite_toSet.bddAbove
  exact ⟨now, fun call hcall => hnow (List.mem_map_of_mem hcall)⟩

/-- An event that the subscribers were passed twice within ten minutes was outrun in between. -/
theorem outrun_of_passed_again
    (hclock : calls.Pairwise (·.1 ≤ ·.1)) {before between after : List (Instant × Event)}
    {first again : Instant × Event}
    (hpassed : (publishAll calls).passed = before ++ first :: (between ++ again :: after))
    (hid : first.2.id ≠ "") (hsame : again.2.id = first.2.id)
    (hsoon : again.1 ≤ first.1 + 10 * minute) :
    ∃ others, others.Sublist between ∧ others.length = 4096 ∧
      ((first :: others).map (·.2.id)).Nodup := by
  obtain ⟨now, hnow⟩ := exists_clock calls
  have htracks := tracks_publishAll hclock now hnow
  let marks (passed : List (Instant × Event)) : List RecentEvent := Feed.marked { passed }
  have hmarked : (publishAll calls).marked =
      (marks before ++ ⟨first.2.id, first.1⟩ :: marks between) ++
        ⟨again.2.id, again.1⟩ :: marks after := by
    have hagain : again.2.id ≠ "" := hsame ▸ hid
    simp [Feed.marked, marks, hpassed, hid, hagain]
  obtain ⟨hlong, hdistinct⟩ := htracks.apart (marks before ++ ⟨first.2.id, first.1⟩ :: marks between)
    ⟨again.2.id, again.1⟩ ⟨marks after, by rw [hmarked, List.append_assoc]; rfl⟩ _ _
    (List.suffix_append _ _) hsame.symm hsoon
  refine ⟨(between.filter fun call => call.2.id ≠ "").take 4096,
    (List.take_sublist _ _).trans List.filter_sublist, ?_, ?_⟩
  · rw [List.length_take, Nat.min_eq_left]
    simpa [marks, Feed.marked] using hlong
  · simpa [marks, Feed.marked, ← List.map_take, Function.comp_def] using hdistinct

end Marks

/-- **The filter is a bounded exact memory.** Whatever calls of `markEventSeen` there were, at times
that do not go back: the keys of the map are the identifiers in the queue, each of them once and at
most 4096, the queue is sorted by time, and the next call returns false exactly when its event is
among them. So an event that is passed to the subscribers twice within ten minutes has 4096 other
ones in between, all different. -/
theorem recent_events_are_remembered :
    (∀ calls : List (Instant × String), calls.Pairwise (·.1 ≤ ·.1) →
      (markAll calls).recentEvents.keys.Perm ((markAll calls).recentOrder.map (·.id)) ∧
        ((markAll calls).recentOrder.map (·.id)).Nodup ∧
        (markAll calls).recentOrder.length ≤ 4096 ∧
        (markAll calls).recentOrder.Pairwise (·.seen ≤ ·.seen) ∧
        ∀ now id, ((markAll calls).markEventSeen now id).1 = false ↔
          id ∈ (markAll calls).recentEvents) ∧
    ∀ calls : List (Instant × Event), calls.Pairwise (·.1 ≤ ·.1) →
      ∀ before first between again after,
        (publishAll calls).passed = before ++ first :: (between ++ again :: after) →
        first.2.id ≠ "" → again.2.id = first.2.id → again.1 ≤ first.1 + 10 * minute →
        ∃ others, others.Sublist between ∧ others.length = 4096 ∧
          ((first :: others).map (·.2.id)).Nodup := by
  constructor
  · intro calls hclock
    obtain ⟨marked, hmarked⟩ := tracks_markAll hclock
    obtain ⟨now, hnow⟩ := exists_clock calls
    have h := hmarked now hnow
    exact ⟨h.keys_perm, h.named, h.bounded, h.sorted.sublist h.suffix.sublist,
      fun _ _ => markEventSeen_eq_false_iff⟩
  · intro calls hclock before first between again after hpassed hid hsame hsoon
    exact outrun_of_passed_again hclock hpassed hid hsame hsoon

end Taskboard
