import Mathlib.Data.List.Induction
import Mathlib.Data.List.Nodup
import Taskboard.Model

/-!
# The Codex adapter

The adapter reads the inbox of the runs that a Codex thread has started or claimed and delivers what
is new there to the thread. It remembers the keys it has delivered while the inbox lists them, 500
at most, and drops the runs whose tasks are finished. Of the items only the keys matter here.

While the loop of `attach` waits it may learn of further runs, which changes none of the keys. So
one turn of the loop is one step: what was read, and whether a delivery lands.
-/

namespace Taskboard

/-- A run that the adapter watches. -/
structure WatchedRun where
  taskID : String
  runID : String
  server : String
  inboxTool : String

/-- What the adapter reads of an inbox: the runs with the statuses of their tasks, and the keys that
`inboxItems` gives to the items. -/
structure InboxRead where
  runs : List (String × TaskStatus)
  items : List String

/-- `addRun`. -/
def addRun (runs : List WatchedRun) (run : WatchedRun) : List WatchedRun :=
  let runs := runs.filter (·.runID ≠ run.runID) ++ [run]
  runs.drop (runs.length - 20)

/-- `openRuns`. -/
def openRuns (runs : List WatchedRun) (inbox : InboxRead) : List WatchedRun :=
  let finished := (inbox.runs.filter (·.2.terminal)).map (·.1)
  runs.filter (·.runID ∉ finished)

/-- What `pendingItems` returns: the delivered keys that are still listed, all that have not been
delivered, and those of them that may be delivered now. -/
structure PendingItems where
  kept : List String
  pending : List String
  fresh : List String

/-- `SEEN_LIMIT`. -/
def seenLimit : Nat := 500

/-- `pendingItems`. -/
def pendingItems (seen items : List String) : PendingItems :=
  let kept := seen.filter (· ∈ items)
  let pending := items.filter (· ∉ kept)
  { kept, pending, fresh := pending.take (seenLimit - kept.length) }

/-- What the adapter stores for its thread. -/
structure Adapter where
  runs : List WatchedRun := []
  seen : List String := []

inductive AdapterEvent where
  /-- `remember`. -/
  | remember (run : WatchedRun)
  /-- A turn of the loop. Where there is something to deliver, the delivery lands or fails. -/
  | read (inbox : InboxRead) (lands : Bool)

/-- Something is delivered, and lands. -/
def PendingItems.delivered (items : PendingItems) (lands : Bool) : Bool :=
  0 < items.fresh.length && lands

/-- The keys that an event delivers to the thread. -/
def Adapter.batch (s : Adapter) : AdapterEvent → List String
  | .remember _ => []
  | .read inbox lands =>
      let items := pendingItems s.seen inbox.items
      if items.delivered lands then items.fresh else []

def Adapter.step (s : Adapter) : AdapterEvent → Adapter
  | .remember run => { s with runs := addRun s.runs run }
  | .read inbox lands =>
      let items := pendingItems s.seen inbox.items
      { seen := items.kept ++ if items.delivered lands then items.fresh else []
        runs :=
          if items.pending.length = 0 ∨
              items.delivered lands ∧ items.fresh.length = items.pending.length then
            openRuns s.runs inbox
          else s.runs }

/-- The adapter once this has happened, where it had delivered nothing before. -/
def adapterAfter (runs : List WatchedRun) (events : List AdapterEvent) : Adapter :=
  events.foldl Adapter.step { runs }

/-- The key was part of a delivery that landed. -/
def Delivered (runs : List WatchedRun) (events : List AdapterEvent) (key : String) : Prop :=
  ∃ before event later, events = before ++ event :: later ∧
    key ∈ (adapterAfter runs before).batch event

section Turn

variable {s : Adapter} {event : AdapterEvent} {inbox : InboxRead} {lands : Bool} {key : String}
  {seen items : List String} {runs : List WatchedRun} {run new : WatchedRun}
  {events : List AdapterEvent}

theorem mem_pending : key ∈ (pendingItems seen items).pending ↔ key ∈ items ∧ key ∉ seen := by
  simp only [pendingItems, List.mem_filter, decide_eq_true_eq]
  tauto

/-- What is delivered now was not remembered, and is remembered then. -/
theorem mem_batch (h : key ∈ s.batch event) : key ∉ s.seen ∧ key ∈ (s.step event).seen := by
  cases event with
  | remember run => cases h
  | read inbox lands =>
      refine ⟨?_, List.mem_append_right _ h⟩
      simp only [Adapter.batch] at h
      split at h
      · exact (mem_pending.mp (List.mem_of_mem_take h)).2
      · cases h

/-- What is remembered was delivered now, or was remembered before. -/
theorem mem_seen_of_step (h : key ∈ (s.step event).seen) : key ∈ s.seen ∨ key ∈ s.batch event := by
  cases event with
  | remember run => exact Or.inl h
  | read inbox lands => exact (List.mem_append.mp h).imp_left fun h => (List.mem_filter.mp h).1

/-- A key stays remembered as long as every inbox lists it. -/
theorem mem_seen_foldl (hkey : key ∈ s.seen)
    (hlisted : ∀ inbox lands, .read inbox lands ∈ events → key ∈ inbox.items) :
    key ∈ (events.foldl Adapter.step s).seen := by
  induction events generalizing s with
  | nil => exact hkey
  | cons event events ih =>
      apply ih _ fun inbox lands h => hlisted inbox lands (List.mem_cons_of_mem _ h)
      cases event with
      | remember run => exact hkey
      | read inbox lands =>
          have hlists := hlisted inbox lands List.mem_cons_self
          exact List.mem_append_left _ (List.mem_filter.mpr ⟨hkey, decide_eq_true hlists⟩)

/-- There is room for what may be delivered now, which is everything or fills the room. -/
theorem pendingItems_room (items : List String) (h : seen.length ≤ seenLimit) :
    let p := pendingItems seen items
    p.kept.length + p.fresh.length ≤ seenLimit ∧
      (p.fresh = p.pending ∨ p.kept.length + p.fresh.length = seenLimit) := by
  intro p
  have hkept : p.kept.length ≤ seen.length := List.length_filter_le _ _
  have hfresh : p.fresh.length = min (seenLimit - p.kept.length) p.pending.length :=
    List.length_take
  refine ⟨by omega, ?_⟩
  by_cases hroom : p.pending.length ≤ seenLimit - p.kept.length
  · exact Or.inl (List.take_of_length_le hroom)
  · exact Or.inr (by omega)

theorem length_seen_step (h : s.seen.length ≤ seenLimit) : (s.step event).seen.length ≤ seenLimit := by
  cases event with
  | remember run => exact h
  | read inbox lands =>
      have hroom := (pendingItems_room inbox.items h).1
      simp only [Adapter.step, List.length_append]
      split
      · exact hroom
      · exact Nat.le_trans (Nat.le_add_right _ _) hroom

/-- A turn that delivers all that is pending remembers every key that the inbox lists. -/
theorem mem_seen_of_all {p : PendingItems} (hp : pendingItems s.seen inbox.items = p)
    (hall : p.fresh = p.pending) (hlands : p.pending ≠ [] → lands = true) (hkey : key ∈ inbox.items) :
    key ∈ (s.step (.read inbox lands)).seen := by
  subst hp
  by_cases hseen : key ∈ s.seen
  · exact List.mem_append_left _ (List.mem_filter.mpr ⟨hseen, decide_eq_true hkey⟩)
  · have hpending := mem_pending.mpr ⟨hkey, hseen⟩
    have hsome := List.length_pos_of_mem hpending
    refine List.mem_append_right _ ?_
    rw [PendingItems.delivered, hall, hlands (List.ne_nil_of_mem hpending), decide_eq_true hsome]
    exact hpending

/-- A delivery that lands leaves nothing out, unless 500 keys are outstanding then. -/
theorem mem_seen_or_full (h : s.seen.length ≤ seenLimit) (hkey : key ∈ inbox.items) :
    key ∈ (s.step (.read inbox true)).seen ∨ (s.step (.read inbox true)).seen.length = seenLimit := by
  obtain ⟨-, hall | hfull⟩ := pendingItems_room inbox.items h
  · exact Or.inl (mem_seen_of_all rfl hall (fun _ => rfl) hkey)
  · right
    simp only [Adapter.step, PendingItems.delivered, Bool.and_true, decide_eq_true_eq,
      List.length_append]
    split
    · exact hfull
    · rw [List.length_nil]
      omega

/-- A turn that drops a run remembers every key that the inbox lists. -/
theorem listed_seen_of_dropped (hrun : run ∈ s.runs)
    (hgone : run ∉ (s.step (.read inbox lands)).runs) (hkey : key ∈ inbox.items) :
    key ∈ (s.step (.read inbox lands)).seen := by
  simp only [Adapter.step] at hgone
  split at hgone
  · rename_i hall
    rcases hall with hnone | ⟨hdelivered, hlength⟩
    · have hnil := List.eq_nil_of_length_eq_zero hnone
      refine mem_seen_of_all rfl ?_ (fun hsome => absurd hnil hsome) hkey
      exact (congrArg (List.take _) hnil).trans (List.take_nil.trans hnil.symm)
    · have hfresh := (List.take_prefix _ _).eq_of_length hlength
      exact mem_seen_of_all rfl hfresh (fun _ => (Bool.and_eq_true_iff.mp hdelivered).2) hkey
  · exact absurd hrun hgone

/-- A turn drops only runs whose tasks are finished. -/
theorem finished_of_dropped (hrun : run ∈ s.runs)
    (hgone : run ∉ (s.step (.read inbox lands)).runs) :
    ∃ status, (run.runID, status) ∈ inbox.runs ∧ status.terminal = true := by
  simp only [Adapter.step] at hgone
  split at hgone
  · simpa [openRuns, hrun] using hgone
  · exact absurd hrun hgone

theorem adapterAfter_append (event : AdapterEvent) :
    adapterAfter runs (events ++ [event]) = (adapterAfter runs events).step event := by
  rw [adapterAfter, List.foldl_append]
  rfl

theorem length_seen_le : (adapterAfter runs events).seen.length ≤ seenLimit := by
  induction events using List.reverseRecOn with
  | nil => exact Nat.zero_le _
  | append_singleton events event ih =>
      rw [adapterAfter_append]
      exact length_seen_step ih

theorem delivered_of_mem_seen (h : key ∈ (adapterAfter runs events).seen) :
    Delivered runs events key := by
  induction events using List.reverseRecOn with
  | nil => cases h
  | append_singleton events event ih =>
      rw [adapterAfter_append] at h
      rcases mem_seen_of_step h with hbefore | hnow
      · obtain ⟨before, earlier, later, rfl, hbatch⟩ := ih hbefore
        exact ⟨before, earlier, later ++ [event], by simp, hbatch⟩
      · exact ⟨events, event, [], rfl, hnow⟩

theorem nodup_addRun (h : (runs.map (·.runID)).Nodup) : ((addRun runs new).map (·.runID)).Nodup := by
  have hothers := h.sublist ((List.filter_sublist (p := (·.runID ≠ new.runID))).map _)
  refine List.Nodup.sublist ((List.drop_sublist _ _).map _) ?_
  rw [List.map_append, List.map_singleton, ← List.concat_eq_append]
  refine hothers.concat fun hmem => ?_
  obtain ⟨run, hrun, hid⟩ := List.mem_map.mp hmem
  exact of_decide_eq_true (List.mem_filter.mp hrun).2 hid

/-- A run is pushed out by one of the same name, or where 20 later ones are watched. -/
theorem pushed_out_of_addRun (hrun : run ∈ runs) (hgone : run ∉ addRun runs new) :
    run.runID = new.runID ∨ (addRun runs new).length = 20 := by
  by_contra hother
  push Not at hother
  obtain ⟨hid, hlength⟩ := hother
  have hmem : run ∈ runs.filter (·.runID ≠ new.runID) ++ [new] :=
    List.mem_append_left _ (List.mem_filter.mpr ⟨hrun, decide_eq_true hid⟩)
  apply hgone
  rw [addRun, List.length_drop] at hlength
  rwa [addRun, Nat.sub_eq_zero_of_le (by omega), List.drop_zero]

theorem watched_step (h : (s.runs.map (·.runID)).Nodup ∧ s.runs.length ≤ 20) :
    ((s.step event).runs.map (·.runID)).Nodup ∧ (s.step event).runs.length ≤ 20 := by
  cases event with
  | remember run =>
      refine ⟨nodup_addRun h.1, ?_⟩
      simp only [Adapter.step, addRun, List.length_drop]
      omega
  | read inbox lands =>
      simp only [Adapter.step]
      split
      · exact ⟨h.1.sublist (List.filter_sublist.map _), Nat.le_trans (List.length_filter_le _ _) h.2⟩
      · exact h

end Turn

/-- **Each item is delivered once, and none is lost.** Whatever is read and whichever deliveries
land, at most 500 keys are remembered and all of them were delivered. Between two deliveries of a
key some inbox did not list it. A delivery that lands leaves a listed key out only if 500 others are
outstanding. A turn drops a run only if its task is finished and every key that the inbox lists has
been delivered. -/
theorem adapter_delivers_once (runs : List WatchedRun) :
    (∀ events, (adapterAfter runs events).seen.length ≤ seenLimit ∧
      ∀ key ∈ (adapterAfter runs events).seen, Delivered runs events key) ∧
    (∀ before first between again key, key ∈ (adapterAfter runs before).batch first →
      key ∈ (adapterAfter runs (before ++ first :: between)).batch again →
      ∃ inbox lands, .read inbox lands ∈ between ∧ key ∉ inbox.items) ∧
    (∀ before inbox, ∀ key ∈ inbox.items,
      key ∈ (adapterAfter runs (before ++ [.read inbox true])).seen ∨
        (adapterAfter runs (before ++ [.read inbox true])).seen.length = seenLimit) ∧
    ∀ before inbox lands, ∀ run ∈ (adapterAfter runs before).runs,
      run ∉ (adapterAfter runs (before ++ [.read inbox lands])).runs →
      (∃ status, (run.runID, status) ∈ inbox.runs ∧ status.terminal = true) ∧
        ∀ key ∈ inbox.items, Delivered runs (before ++ [.read inbox lands]) key := by
  refine ⟨fun events => ⟨length_seen_le, fun key => delivered_of_mem_seen⟩, ?_, ?_, ?_⟩
  · intro before first between again key hfirst hagain
    by_contra hlisted
    push Not at hlisted
    have hafter : adapterAfter runs (before ++ first :: between) =
        between.foldl Adapter.step ((adapterAfter runs before).step first) := by
      rw [adapterAfter, List.foldl_append]
      rfl
    apply (mem_batch hagain).1
    rw [hafter]
    exact mem_seen_foldl (mem_batch hfirst).2 hlisted
  · intro before inbox key hkey
    rw [adapterAfter_append]
    exact mem_seen_or_full length_seen_le hkey
  · intro before inbox lands run hrun hgone
    rw [adapterAfter_append] at hgone
    refine ⟨finished_of_dropped hrun hgone, fun key hkey => delivered_of_mem_seen ?_⟩
    rw [adapterAfter_append]
    exact listed_seen_of_dropped hrun hgone hkey

/-- **No run is lost.** Each run is watched once, 20 at most; and whatever happens, a run that is
watched is watched afterwards, unless its task is finished, the same run has been learnt again, or
20 others are watched. -/
theorem adapter_loses_no_run (events : List AdapterEvent) :
    ((adapterAfter [] events).runs.map (·.runID)).Nodup ∧ (adapterAfter [] events).runs.length ≤ 20 ∧
      ∀ event, ∀ run ∈ (adapterAfter [] events).runs,
        run ∉ (adapterAfter [] (events ++ [event])).runs →
          (∃ inbox lands status, event = .read inbox lands ∧ (run.runID, status) ∈ inbox.runs ∧
            status.terminal = true) ∨
          ∃ new, event = .remember new ∧ (run.runID = new.runID ∨
            (adapterAfter [] (events ++ [event])).runs.length = 20) := by
  have hwatched : ((adapterAfter [] events).runs.map (·.runID)).Nodup ∧
      (adapterAfter [] events).runs.length ≤ 20 := by
    induction events using List.reverseRecOn with
    | nil => exact ⟨List.nodup_nil, Nat.zero_le _⟩
    | append_singleton events event ih =>
        rw [adapterAfter_append]
        exact watched_step ih
  refine ⟨hwatched.1, hwatched.2, ?_⟩
  intro event run hrun hgone
  rw [adapterAfter_append] at hgone ⊢
  cases event with
  | remember new => exact Or.inr ⟨new, rfl, pushed_out_of_addRun hrun hgone⟩
  | read inbox lands =>
      obtain ⟨status, hstatus⟩ := finished_of_dropped hrun hgone
      exact Or.inl ⟨inbox, lands, status, rfl, hstatus⟩

end Taskboard
