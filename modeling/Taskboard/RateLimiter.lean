import Mathlib.Data.List.AList
import Mathlib.Data.List.Induction
import Taskboard.Model

/-!
# The limiter of requests

The server counts the requests of every remote address in windows of fixed length
(`requestRateLimiter`). The table of windows is bounded: an address that finds it full first
drops the windows that are over, and where none is it shares one overflow window with all other
addresses that have no window of their own.

The results are about the whole history of calls. A window is opened by the call that finds none,
and the count in it is the number of calls that were allowed since (`RateLimiter.Counts`).
-/

namespace Taskboard

variable {allowed shared : Bool} {window : Duration} {limit maxEntries : Nat} {key : String}
  {call : RateCall} {l : RateLimiter} {entry : RateWindow}

/-- `rateWindow`. -/
structure RateWindow where
  count : Nat := 0
  reset : Instant := zeroTime
  deriving DecidableEq

/-- The windows by key: a map of the source. -/
abbrev RateTable := AList fun _ : String => RateWindow

/-- The number of keys in the table. -/
def RateTable.size (table : RateTable) : Nat :=
  table.entries.length

/-- The loop that deletes the windows that are over. -/
def RateTable.unexpired (table : RateTable) (now : Instant) : RateTable where
  entries := table.entries.filter fun entry => now < entry.2.reset
  nodupKeys := table.nodupKeys.sublist List.filter_sublist

/-- `requestRateLimiter`. -/
structure RateLimiter where
  limit : Nat
  window : Duration
  maxEntries : Nat
  entries : RateTable := ∅
  overflow : RateWindow := {}

/-- A request: the key of its sender and what the clock shows, which is not before the zero
value of the type. -/
structure RateCall where
  key : String
  now : Instant
  clock : zeroTime ≤ now

/-- The key that a call is counted under. -/
def RateCall.rateKey (call : RateCall) : String :=
  if call.key = "" then "unknown" else call.key

namespace RateLimiter

/-- The call has no window of its own and finds the table full. -/
def crowded (l : RateLimiter) (call : RateCall) : Bool :=
  (l.entries.lookup call.rateKey).isNone && l.maxEntries ≤ l.entries.size

/-- The table once such a call has deleted the windows that are over. -/
def swept (l : RateLimiter) (call : RateCall) : RateTable :=
  if l.crowded call then l.entries.unexpired call.now else l.entries

/-- The call shares the overflow window. -/
def overflows (l : RateLimiter) (call : RateCall) : Bool :=
  l.crowded call && l.maxEntries ≤ (l.swept call).size

/-- The window that the call finds. -/
def found (l : RateLimiter) (call : RateCall) : Option RateWindow :=
  if l.overflows call then
    if l.overflow.reset = zeroTime then none else some l.overflow
  else l.entries.lookup call.rateKey

/-- The window that the call is counted in: the one it finds, or a new one where that is over. -/
def current (l : RateLimiter) (call : RateCall) : RateWindow :=
  match l.found call with
  | some entry => if call.now < entry.reset then entry else { reset := call.now + l.window }
  | none => { reset := call.now + l.window }

/-- `allow`: whether the call is allowed. -/
def allows (l : RateLimiter) (call : RateCall) : Bool :=
  (l.current call).count < l.limit

/-- The window after the call. -/
def counted (l : RateLimiter) (call : RateCall) : RateWindow :=
  if l.allows call then { l.current call with count := (l.current call).count + 1 }
  else l.current call

/-- `allow`: the limiter after the call. -/
def allow (l : RateLimiter) (call : RateCall) : RateLimiter :=
  if l.overflows call then
    { l with entries := l.swept call, overflow := l.counted call }
  else { l with entries := (l.swept call).insert call.rateKey (l.counted call) }

end RateLimiter

/-- What became of a call: whether it shared the overflow window, and whether it was allowed. -/
structure RateOutcome where
  call : RateCall
  shared : Bool
  allowed : Bool

namespace RateLimiter

/-- The limiter after a sequence of calls. -/
def run (l : RateLimiter) (calls : List RateCall) : RateLimiter :=
  calls.foldl allow l

/-- What became of the calls of a sequence, one after another. -/
def outcomes (l : RateLimiter) : List RateCall → List RateOutcome
  | [] => []
  | call :: rest =>
      { call, shared := l.overflows call, allowed := l.allows call } :: (l.allow call).outcomes rest

theorem run_append (l : RateLimiter) (calls more : List RateCall) :
    l.run (calls ++ more) = (l.run calls).run more :=
  List.foldl_append

theorem outcomes_append (l : RateLimiter) (calls more : List RateCall) :
    l.outcomes (calls ++ more) = l.outcomes calls ++ (l.run calls).outcomes more := by
  induction calls generalizing l with
  | nil => rfl
  | cons call rest ih => exact congrArg (_ :: ·) (ih (l.allow call))

end RateLimiter

section Table

variable {table : RateTable} {now : Instant} {other : String}

theorem RateTable.lookup_unexpired :
    (table.unexpired now).lookup key = some entry ↔
      table.lookup key = some entry ∧ now < entry.reset := by
  have hmem (t : RateTable) : t.lookup key = some entry ↔ ⟨key, entry⟩ ∈ t.entries :=
    AList.mem_lookup_iff
  simp only [hmem, RateTable.unexpired, List.mem_filter, decide_eq_true_eq]

theorem RateTable.size_unexpired_le : (table.unexpired now).size ≤ table.size :=
  List.length_filter_le _ _

/-- A table from which nothing is deleted stays as it is. -/
theorem RateTable.unexpired_eq_self (h : ∀ key entry, table.lookup key = some entry →
    now < entry.reset) : table.unexpired now = table := by
  apply AList.ext
  apply List.filter_eq_self.mpr
  intro pair hpair
  have hentry : table.lookup pair.1 = some pair.2 := AList.mem_lookup_iff.mpr hpair
  exact decide_eq_true (h pair.1 pair.2 hentry)

theorem RateTable.size_insert :
    RateTable.size (table.insert key entry) =
      if (table.lookup key).isSome then table.size else table.size + 1 := by
  have hkeys (t : RateTable) : t.size = t.keys.length := (List.length_map _).symm
  rw [hkeys, hkeys, AList.keys_insert, List.length_cons]
  by_cases hmem : key ∈ table
  · rw [if_pos (AList.lookup_isSome.mpr hmem), List.length_erase_of_mem hmem]
    have hpos := List.length_pos_of_mem (AList.mem_keys.mp hmem)
    omega
  · rw [if_neg (fun h => hmem (AList.lookup_isSome.mp h)), List.erase_of_not_mem hmem]

end Table

namespace RateLimiter

section Step

theorem crowded_eq_true_iff : l.crowded call = true ↔
    l.entries.lookup call.rateKey = none ∧ l.maxEntries ≤ l.entries.size := by
  simp [crowded]

theorem overflows_eq_true_iff : l.overflows call = true ↔
    l.entries.lookup call.rateKey = none ∧ l.maxEntries ≤ l.entries.size ∧
      l.maxEntries ≤ (l.entries.unexpired call.now).size := by
  by_cases hcrowded : l.crowded call = true
  · obtain ⟨hnone, hfull⟩ := crowded_eq_true_iff.mp hcrowded
    simp [overflows, swept, hcrowded, hnone, hfull]
  · have hroom : ¬ (l.entries.lookup call.rateKey = none ∧ l.maxEntries ≤ l.entries.size) :=
      fun h => hcrowded (crowded_eq_true_iff.mpr h)
    simp only [overflows, hcrowded, Bool.false_and, Bool.false_eq_true, false_iff]
    exact fun h => hroom ⟨h.1, h.2.1⟩

theorem lookup_of_swept (h : (l.swept call).lookup key = some entry) :
    l.entries.lookup key = some entry := by
  unfold swept at h
  split at h
  · exact (RateTable.lookup_unexpired.mp h).1
  · exact h

/-- A window that is not over is not deleted. -/
theorem lookup_swept (h : l.entries.lookup key = some entry) (hopen : call.now < entry.reset) :
    (l.swept call).lookup key = some entry := by
  unfold swept
  split
  · exact RateTable.lookup_unexpired.mpr ⟨h, hopen⟩
  · exact h

theorem size_swept_le : (l.swept call).size ≤ l.entries.size := by
  unfold swept
  split
  · exact RateTable.size_unexpired_le
  · exact le_rfl

/-- The table has room for a new window of a call that does not overflow. -/
theorem size_swept_lt (hover : l.overflows call = false)
    (hnone : l.entries.lookup call.rateKey = none) : (l.swept call).size < l.maxEntries := by
  unfold overflows at hover
  by_cases hcrowded : l.crowded call = true
  · simpa [hcrowded] using hover
  · have hroom : l.entries.size < l.maxEntries := by
      by_contra hfull
      exact hcrowded (crowded_eq_true_iff.mpr ⟨hnone, not_lt.mp hfull⟩)
    exact lt_of_le_of_lt size_swept_le hroom

/-- The windows of the table after a call. -/
theorem lookup_allow : (l.allow call).entries.lookup key =
    if l.overflows call = false ∧ key = call.rateKey then some (l.counted call)
    else (l.swept call).lookup key := by
  unfold allow
  cases hover : l.overflows call with
  | true => simp
  | false =>
      by_cases hkey : key = call.rateKey
      · subst hkey
        simp
      · simp [hkey, AList.lookup_insert_ne hkey]

/-- **The window of a call** is the one it finds, or a new one. -/
theorem current_cases (l : RateLimiter) (call : RateCall) :
    (∃ entry, l.found call = some entry ∧ call.now < entry.reset ∧ l.current call = entry) ∨
      (∀ entry, l.found call = some entry → entry.reset ≤ call.now) ∧
        l.current call = { reset := call.now + l.window } := by
  unfold current
  cases hfound : l.found call with
  | none => exact Or.inr ⟨nofun, rfl⟩
  | some entry =>
      by_cases hopen : call.now < entry.reset
      · exact Or.inl ⟨entry, rfl, hopen, by simp [hopen]⟩
      · refine Or.inr ⟨?_, by simp [hopen]⟩
        intro other hother
        obtain rfl := Option.some_inj.mp hother
        exact Int.not_lt.mp hopen

theorem counted_count : (l.counted call).count =
    (l.current call).count + if l.allows call then 1 else 0 := by
  unfold counted
  split <;> simp [*]

theorem counted_reset : (l.counted call).reset = (l.current call).reset := by
  unfold counted
  split <;> rfl

theorem counted_count_le (h : (l.current call).count ≤ l.limit) :
    (l.counted call).count ≤ l.limit := by
  rw [counted_count]
  split
  · rename_i hallows
    exact of_decide_eq_true hallows
  · exact h

end Step

end RateLimiter

/-- How many of the calls that `p` selects were allowed from `start` on. -/
def allowedSince (outcomes : List RateOutcome) (p : RateOutcome → Bool) (start : Instant) : Nat :=
  outcomes.countP fun outcome => outcome.allowed && p outcome && start ≤ outcome.call.now

section Counting

variable {outcomes : List RateOutcome} {p : RateOutcome → Bool} {start : Instant}

theorem allowedSince_append {outcome : RateOutcome} :
    allowedSince (outcomes ++ [outcome]) p start = allowedSince outcomes p start +
      if outcome.allowed && p outcome && start ≤ outcome.call.now then 1 else 0 := by
  unfold allowedSince
  rw [List.countP_append, List.countP_singleton]

theorem allowedSince_eq_zero
    (h : ∀ outcome ∈ outcomes, p outcome = true → outcome.call.now < start) :
    allowedSince outcomes p start = 0 := by
  unfold allowedSince
  rw [List.countP_eq_zero]
  intro outcome houtcome hcounts
  simp only [Bool.and_eq_true, decide_eq_true_eq] at hcounts
  exact absurd (h outcome houtcome hcounts.1.2) (Int.not_lt.mpr hcounts.2)

end Counting

/-- The calls of a key. -/
def RateOutcome.byKey (key : String) (outcome : RateOutcome) : Bool :=
  outcome.call.rateKey = key

namespace RateLimiter

/-- **What a limiter counts**: every window holds the number of calls allowed in it. Calls made
at the time of the last one have left a window that is not over, and a full table where they
shared the overflow window. -/
structure Counts (l : RateLimiter) (outcomes : List RateOutcome) (last : Instant) : Prop where
  bounded : l.entries.size ≤ l.maxEntries
  clock : zeroTime ≤ last
  past : ∀ outcome ∈ outcomes, outcome.call.now ≤ last
  opened : ∀ key entry, l.entries.lookup key = some entry → entry.reset ≤ last + l.window
  counts : ∀ key entry, l.entries.lookup key = some entry →
    entry.count = allowedSince outcomes (RateOutcome.byKey key) (entry.reset - l.window)
  own : ∀ outcome ∈ outcomes, outcome.shared = false → outcome.call.now = last →
    ∃ entry, l.entries.lookup outcome.call.rateKey = some entry ∧ last < entry.reset
  full : ∀ outcome ∈ outcomes, outcome.shared = true → outcome.call.now = last →
    l.maxEntries ≤ l.entries.size ∧
      ∀ key entry, l.entries.lookup key = some entry → last < entry.reset
  overflowOpened : l.overflow.reset ≤ last + l.window
  overflowCounts : l.overflow.count =
    allowedSince outcomes RateOutcome.shared (l.overflow.reset - l.window)
  overflowWithin : l.overflow.count ≤ l.limit
  overflowOpen : ∀ outcome ∈ outcomes, outcome.shared = true → outcome.call.now = last →
    l.overflow.reset ≠ zeroTime ∧ last < l.overflow.reset

section Run

variable {outcomes : List RateOutcome} {last : Instant} {outcome : RateOutcome}

/-- A call that opens a window of its own is the first of its key at its time. -/
theorem Counts.before_opening (h : l.Counts outcomes last) (hlast : last ≤ call.now)
    (hover : l.overflows call = false)
    (hexpired : ∀ entry, l.entries.lookup call.rateKey = some entry → entry.reset ≤ call.now) :
    ∀ outcome ∈ outcomes, outcome.byKey call.rateKey = true → outcome.call.now < call.now := by
  intro outcome houtcome hkey
  have hle := h.past outcome houtcome
  by_contra hnot
  have hnow : outcome.call.now = last := by lia
  have hlast' : last = call.now := by lia
  have hkey' : outcome.call.rateKey = call.rateKey := of_decide_eq_true hkey
  cases hshared : outcome.shared with
  | false =>
      obtain ⟨entry, hentry, hopen⟩ := h.own outcome houtcome hshared hnow
      have hreset := hexpired entry (hkey' ▸ hentry)
      lia
  | true =>
      obtain ⟨hfull, hopen⟩ := h.full outcome houtcome hshared hnow
      have hnone : l.entries.lookup call.rateKey = none := by
        cases hentry : l.entries.lookup call.rateKey with
        | none => rfl
        | some entry =>
            have hreset := hexpired entry hentry
            have hafter := hopen call.rateKey entry hentry
            lia
      have hsame : l.entries.unexpired call.now = l.entries :=
        RateTable.unexpired_eq_self fun key entry hentry => hlast' ▸ hopen key entry hentry
      have htrue := overflows_eq_true_iff.mpr ⟨hnone, hfull, hsame.symm ▸ hfull⟩
      rw [hover] at htrue
      cases htrue

/-- The window that a call of its own is counted in. -/
theorem Counts.current_own (h : l.Counts outcomes last) (hwindow : 0 < l.window)
    (hlast : last ≤ call.now) (hover : l.overflows call = false) :
    (l.current call).count = allowedSince outcomes (RateOutcome.byKey call.rateKey)
        ((l.current call).reset - l.window) ∧
      (l.current call).reset ≤ call.now + l.window ∧ call.now < (l.current call).reset := by
  have hfound : l.found call = l.entries.lookup call.rateKey := by simp [found, hover]
  rcases l.current_cases call with ⟨entry, hentry, hopen, hcurrent⟩ | ⟨hexpired, hcurrent⟩
  · rw [hfound] at hentry
    have hopened := h.opened _ entry hentry
    rw [hcurrent]
    exact ⟨h.counts _ entry hentry, by lia, hopen⟩
  · rw [hfound] at hexpired
    rw [hcurrent]
    refine ⟨(allowedSince_eq_zero ?_).symm, Int.le_refl _, by lia⟩
    intro outcome houtcome hkey
    have hbefore := h.before_opening hlast hover hexpired outcome houtcome hkey
    lia

/-- The shared window that a call is counted in. -/
theorem Counts.current_shared (h : l.Counts outcomes last) (hwindow : 0 < l.window)
    (hlast : last ≤ call.now) (hover : l.overflows call = true) :
    (l.current call).count = allowedSince outcomes RateOutcome.shared
        ((l.current call).reset - l.window) ∧
      (l.current call).count ≤ l.limit ∧ (l.current call).reset ≠ zeroTime ∧
      (l.current call).reset ≤ call.now + l.window ∧ call.now < (l.current call).reset := by
  have hclock := h.clock
  have hfound : l.found call =
      if l.overflow.reset = zeroTime then none else some l.overflow := by simp [found, hover]
  rcases l.current_cases call with ⟨entry, hentry, hopen, hcurrent⟩ | ⟨hexpired, hcurrent⟩
  · rw [hfound] at hentry
    split at hentry
    · cases hentry
    · rename_i hset
      obtain rfl := Option.some_inj.mp hentry
      have hopened := h.overflowOpened
      rw [hcurrent]
      exact ⟨h.overflowCounts, h.overflowWithin, hset, by lia, hopen⟩
  · rw [hcurrent]
    refine ⟨(allowedSince_eq_zero ?_).symm, Nat.zero_le _, by lia, Int.le_refl _, by lia⟩
    -- A shared call at this very time would have left a shared window that is not over.
    intro outcome houtcome hshared
    have hle := h.past outcome houtcome
    by_contra hnot
    obtain ⟨hset, hopen⟩ := h.overflowOpen outcome houtcome hshared (by lia)
    have hreset := hexpired l.overflow (by rw [hfound, if_neg hset])
    lia

theorem swept_of_lookup
    (h : l.entries.lookup call.rateKey = some entry) : l.swept call = l.entries := by
  unfold swept crowded
  simp [h]

theorem Counts.bounded_allow_own (h : l.Counts outcomes last) (hover : l.overflows call = false) :
    RateTable.size ((l.swept call).insert call.rateKey (l.counted call)) ≤ l.maxEntries := by
  rw [RateTable.size_insert]
  cases hentry : l.entries.lookup call.rateKey with
  | none =>
      have hroom := size_swept_lt hover hentry
      split <;> omega
  | some entry =>
      rw [swept_of_lookup hentry, hentry]
      exact h.bounded

/-- Where calls have shared the overflow window at this time, the table stays full. -/
theorem Counts.swept_of_full (h : l.Counts outcomes last)
    (houtcome : outcome ∈ outcomes) (hshared : outcome.shared = true)
    (hnow : outcome.call.now = last) (hlast : last = call.now) : l.swept call = l.entries := by
  obtain ⟨-, hopen⟩ := h.full outcome houtcome hshared hnow
  unfold swept
  split
  · exact RateTable.unexpired_eq_self fun key entry hentry => hlast ▸ hopen key entry hentry
  · rfl

theorem Counts.past_append (h : l.Counts outcomes last) (hlast : last ≤ call.now) :
    ∀ outcome ∈ outcomes ++ [⟨call, shared, allowed⟩], outcome.call.now ≤ call.now := by
  intro outcome houtcome
  rcases List.mem_append.mp houtcome with hbefore | hnew
  · exact Int.le_trans (h.past outcome hbefore) hlast
  · obtain rfl := List.mem_singleton.mp hnew
    exact Int.le_refl _

/-- A call at the time of this one is one at the time of the last. -/
theorem Counts.now_eq (h : l.Counts outcomes last) (hlast : last ≤ call.now)
    (houtcome : outcome ∈ outcomes)
    (hnow : outcome.call.now = call.now) : outcome.call.now = last ∧ last = call.now := by
  have hle := h.past outcome houtcome
  lia

theorem Counts.opened_swept (h : l.Counts outcomes last) (hlast : last ≤ call.now)
    (hentry : (l.swept call).lookup key = some entry) :
    entry.reset ≤ call.now + l.window := by
  have hbound := h.opened key entry (lookup_of_swept hentry)
  lia

/-- The windows of other keys count what they counted. -/
theorem Counts.counts_swept (h : l.Counts outcomes last) (hkey : key ≠ call.rateKey)
    (hentry : (l.swept call).lookup key = some entry) :
    entry.count = allowedSince (outcomes ++ [⟨call, shared, allowed⟩]) (RateOutcome.byKey key)
      (entry.reset - l.window) := by
  rw [allowedSince_append, h.counts key entry (lookup_of_swept hentry)]
  simp [RateOutcome.byKey, hkey.symm]

/-- The windows that calls of this time have left are still there. -/
theorem Counts.own_swept (h : l.Counts outcomes last) (hlast : last ≤ call.now)
    (houtcome : outcome ∈ outcomes) (hown : outcome.shared = false)
    (hnow : outcome.call.now = call.now) : ∃ entry,
      (l.swept call).lookup outcome.call.rateKey = some entry ∧ call.now < entry.reset := by
  obtain ⟨hsame, hlast'⟩ := h.now_eq hlast houtcome hnow
  obtain ⟨entry, hentry, hafter⟩ := h.own outcome houtcome hown hsame
  rw [hlast'] at hafter
  exact ⟨entry, lookup_swept hentry hafter, hafter⟩

/-- **One call, counted in a window of its own.** -/
theorem Counts.allow_own (h : l.Counts outcomes last) (hwindow : 0 < l.window)
    (hlast : last ≤ call.now) (hover : l.overflows call = false) :
    (l.allow call).Counts (outcomes ++ [⟨call, false, l.allows call⟩]) call.now := by
  obtain ⟨hcount, hopened, hopen⟩ := h.current_own hwindow hlast hover
  rw [← counted_reset] at hopened hopen hcount
  have hallow : l.allow call =
      { l with entries := (l.swept call).insert call.rateKey (l.counted call) } := by
    simp [allow, hover]
  have hlookup (key : String) : (l.allow call).entries.lookup key =
      if key = call.rateKey then some (l.counted call) else (l.swept call).lookup key := by
    simp [lookup_allow, hover]
  -- A shared call of the past at this time; the call itself is not one.
  have hshared {outcome : RateOutcome}
      (houtcome : outcome ∈ outcomes ++ [⟨call, false, l.allows call⟩])
      (hshared : outcome.shared = true) : outcome ∈ outcomes := by
    rcases List.mem_append.mp houtcome with hbefore | hnew
    · exact hbefore
    · rw [List.mem_singleton.mp hnew] at hshared
      cases hshared
  refine ⟨?_, call.clock, h.past_append hlast, ?_, ?_, ?_, ?_, ?_, ?_, ?_, ?_⟩
  · rw [hallow]
    exact h.bounded_allow_own hover
  · intro key entry hentry
    rw [hlookup] at hentry
    rw [hallow]
    split at hentry
    · rw [← Option.some_inj.mp hentry]
      exact hopened
    · exact h.opened_swept hlast hentry
  · intro key entry hentry
    rw [hlookup] at hentry
    rw [hallow]
    split at hentry
    · rename_i hkey
      obtain rfl := Option.some_inj.mp hentry
      have hstart : (l.counted call).reset - l.window ≤ call.now := by lia
      rw [allowedSince_append, counted_count, hcount, hkey]
      simp [RateOutcome.byKey, hstart]
    · rename_i hkey
      exact h.counts_swept hkey hentry
  · intro outcome houtcome hown hnow
    rw [hlookup]
    split
    · exact ⟨_, rfl, hopen⟩
    · rename_i hkey
      rcases List.mem_append.mp houtcome with hbefore | hnew
      · exact h.own_swept hlast hbefore hown hnow
      · rw [List.mem_singleton.mp hnew] at hkey
        exact absurd rfl hkey
  · intro outcome houtcome hother hnow
    have hbefore := hshared houtcome hother
    obtain ⟨hsame, hlast'⟩ := h.now_eq hlast hbefore hnow
    obtain ⟨hfull, hafter⟩ := h.full outcome hbefore hother hsame
    refine ⟨?_, ?_⟩
    · rw [hallow]
      show l.maxEntries ≤ RateTable.size _
      rw [RateTable.size_insert, h.swept_of_full hbefore hother hsame hlast']
      split <;> omega
    · intro key entry hentry
      rw [hlookup] at hentry
      split at hentry
      · rw [← Option.some_inj.mp hentry]
        exact hopen
      · rw [← hlast']
        exact hafter key entry (lookup_of_swept hentry)
  · rw [hallow]
    have hbound := h.overflowOpened
    show l.overflow.reset ≤ call.now + l.window
    lia
  · rw [allowedSince_append, hallow]
    simpa using h.overflowCounts
  · rw [hallow]
    exact h.overflowWithin
  · intro outcome houtcome hother hnow
    have hbefore := hshared houtcome hother
    obtain ⟨hsame, hlast'⟩ := h.now_eq hlast hbefore hnow
    rw [hallow, ← hlast']
    exact h.overflowOpen outcome hbefore hother hsame

/-- **One call in the overflow window.** -/
theorem Counts.allow_shared (h : l.Counts outcomes last) (hwindow : 0 < l.window)
    (hlast : last ≤ call.now) (hover : l.overflows call = true) :
    (l.allow call).Counts (outcomes ++ [⟨call, true, l.allows call⟩]) call.now := by
  obtain ⟨hcount, hwithin, hset, hopened, hopen⟩ := h.current_shared hwindow hlast hover
  rw [← counted_reset] at hopened hopen hcount hset
  obtain ⟨hnone, hfull, hstill⟩ := overflows_eq_true_iff.mp hover
  have hswept : l.swept call = l.entries.unexpired call.now :=
    if_pos (crowded_eq_true_iff.mpr ⟨hnone, hfull⟩)
  have hallow : l.allow call = { l with entries := l.swept call, overflow := l.counted call } := by
    simp [allow, hover]
  have hkey {key : String} {entry : RateWindow}
      (hentry : (l.swept call).lookup key = some entry) : key ≠ call.rateKey := by
    rintro rfl
    rw [lookup_of_swept hentry] at hnone
    cases hnone
  rw [hallow]
  refine ⟨?_, call.clock, h.past_append hlast, ?_, ?_, ?_, ?_, hopened, ?_, ?_, ?_⟩
  · exact le_trans size_swept_le h.bounded
  · intro key entry hentry
    exact h.opened_swept hlast hentry
  · intro key entry hentry
    exact h.counts_swept (hkey hentry) hentry
  · intro outcome houtcome hown hnow
    rcases List.mem_append.mp houtcome with hbefore | hnew
    · exact h.own_swept hlast hbefore hown hnow
    · rw [List.mem_singleton.mp hnew] at hown
      cases hown
  · intro outcome houtcome hshared hnow
    refine ⟨?_, ?_⟩
    · show l.maxEntries ≤ (l.swept call).size
      rw [hswept]
      exact hstill
    · intro key entry hentry
      rw [hswept] at hentry
      exact (RateTable.lookup_unexpired.mp hentry).2
  · have hstart : (l.counted call).reset - l.window ≤ call.now := by lia
    rw [allowedSince_append, counted_count, hcount]
    simp [hstart]
  · exact counted_count_le hwithin
  · intro outcome houtcome hshared hnow
    exact ⟨hset, hopen⟩

/-- **One call** keeps the counts. -/
theorem Counts.allow (h : l.Counts outcomes last) (hwindow : 0 < l.window)
    (hlast : last ≤ call.now) :
    (l.allow call).Counts (outcomes ++ [⟨call, l.overflows call, l.allows call⟩]) call.now := by
  cases hover : l.overflows call with
  | false => exact h.allow_own hwindow hlast hover
  | true => exact h.allow_shared hwindow hlast hover

theorem allow_window : (l.allow call).window = l.window := by
  unfold RateLimiter.allow
  split <;> rfl

theorem allow_limits :
    (l.allow call).limit = l.limit ∧ (l.allow call).maxEntries = l.maxEntries := by
  unfold RateLimiter.allow
  split <;> exact ⟨rfl, rfl⟩

end Run

/-- A limiter that has not been asked yet, as `newRequestRateLimiter` makes it. -/
def new (limit : Nat) (window : Duration) (maxEntries : Nat) : RateLimiter where
  limit := limit
  window := window
  maxEntries := maxEntries

theorem counts_new (hwindow : 0 < window) :
    (new limit window maxEntries).Counts [] zeroTime := by
  have hnone (key : String) (entry : RateWindow) : ¬ (∅ : RateTable).lookup key = some entry := by
    rw [AList.lookup_empty]
    exact nofun
  refine ⟨Nat.zero_le _, Int.le_refl _, by simp, ?_, ?_, by simp, by simp, ?_, rfl, Nat.zero_le _,
    by simp⟩
  · exact fun key entry h => absurd h (hnone key entry)
  · exact fun key entry h => absurd h (hnone key entry)
  · show zeroTime ≤ zeroTime + window
    lia

/-- **Every run** keeps the counts. -/
theorem counts_run (hwindow : 0 < window)
    {calls : List RateCall} (hsorted : calls.Pairwise fun a b => a.now ≤ b.now) :
    ((new limit window maxEntries).run calls).Counts ((new limit window maxEntries).outcomes calls)
        (calls.getLast?.elim zeroTime RateCall.now) ∧
      ((new limit window maxEntries).run calls).window = window ∧
      ((new limit window maxEntries).run calls).limit = limit ∧
      ((new limit window maxEntries).run calls).maxEntries = maxEntries := by
  induction calls using List.reverseRecOn with
  | nil => exact ⟨counts_new hwindow, rfl, rfl, rfl⟩
  | append_singleton calls call ih =>
      obtain ⟨hbefore, -, hlast⟩ := List.pairwise_append.mp hsorted
      obtain ⟨hcounts, hw, hl, hm⟩ := ih hbefore
      have hle : calls.getLast?.elim zeroTime RateCall.now ≤ call.now := by
        cases hget : calls.getLast? with
        | none => exact call.clock
        | some earlier => exact hlast earlier (List.mem_of_getLast? hget) call (by simp)
      rw [run_append, outcomes_append, List.getLast?_concat]
      refine ⟨hcounts.allow (hw.symm ▸ hwindow) hle, ?_, ?_, ?_⟩
      · exact allow_window.trans hw
      · exact allow_limits.1.trans hl
      · exact allow_limits.2.trans hm

/-- A call in a window that is not over is allowed by what that window counts. -/
theorem allows_iff
    (hentry : l.entries.lookup call.rateKey = some entry) (hopen : call.now < entry.reset) :
    l.allows call = true ↔ entry.count < l.limit := by
  have hover : l.overflows call = false := by
    rw [Bool.eq_false_iff]
    intro htrue
    rw [(overflows_eq_true_iff.mp htrue).1] at hentry
    cases hentry
  have hcurrent : l.current call = entry := by
    simp [current, found, hover, hentry, hopen]
  rw [allows, hcurrent, decide_eq_true_eq]

/-- **Windows last**: a call leaves every window that is not over in the table, until its
reset. -/
theorem lookup_allow_of_open (hentry : l.entries.lookup key = some entry)
    (hopen : call.now < entry.reset) :
    ∃ entry', (l.allow call).entries.lookup key = some entry' ∧ entry'.reset = entry.reset := by
  rw [lookup_allow]
  split
  · rename_i hkey
    obtain ⟨hover, rfl⟩ := hkey
    have hcurrent : l.current call = entry := by
      simp [current, found, hover, hentry, hopen]
    exact ⟨_, rfl, by rw [counted_reset, hcurrent]⟩
  · exact ⟨entry, lookup_swept hentry hopen, rfl⟩

end RateLimiter

/-- **The limiter is bounded and keeps its keys apart.** After any calls the table holds at most
`maxEntries` keys. A key whose window is not over is allowed its calls exactly until it has been
allowed `limit` of them in that window, and keeps the window whatever call comes next. The calls
that shared the overflow window were together allowed at most `limit` times in it. -/
theorem limiter_bounds_and_isolates {limit maxEntries : Nat} {window : Duration}
    (hwindow : 0 < window) {calls : List RateCall}
    (hsorted : calls.Pairwise fun a b => a.now ≤ b.now) :
    let start := RateLimiter.new limit window maxEntries
    let l := start.run calls
    l.entries.size ≤ maxEntries ∧
    (∀ call entry, l.entries.lookup call.rateKey = some entry → call.now < entry.reset →
      (l.allows call = true ↔
        allowedSince (start.outcomes calls) (RateOutcome.byKey call.rateKey)
          (entry.reset - window) < limit)) ∧
    (∀ call key entry, l.entries.lookup key = some entry → call.now < entry.reset →
      ∃ entry', (l.allow call).entries.lookup key = some entry' ∧ entry'.reset = entry.reset) ∧
    allowedSince (start.outcomes calls) RateOutcome.shared (l.overflow.reset - window) ≤ limit := by
  intro start l
  obtain ⟨hcounts, hw, hl, hm⟩ : l.Counts (start.outcomes calls) _ ∧ l.window = window ∧
      l.limit = limit ∧ l.maxEntries = maxEntries := RateLimiter.counts_run hwindow hsorted
  refine ⟨?_, ?_, ?_, ?_⟩
  · rw [← hm]
    exact hcounts.bounded
  · intro call entry hentry hopen
    rw [RateLimiter.allows_iff hentry hopen, hcounts.counts _ entry hentry, hw, hl]
  · intro call key entry hentry hopen
    exact RateLimiter.lookup_allow_of_open hentry hopen
  · have hwithin := hcounts.overflowWithin
    rw [hcounts.overflowCounts, hw, hl] at hwithin
    exact hwithin

/-- Two calls of one address and one of another, with room for one address and one call each. -/
def crowd : List RateCall :=
  [⟨"10.0.0.1", 0, by decide⟩, ⟨"10.0.0.1", 1, by decide⟩, ⟨"10.0.0.2", 2, by decide⟩]

/-- The next call of the first address is refused, and the other address has used up the
overflow window. -/
theorem crowd_is_limited :
    ((RateLimiter.new 1 minute 1).run crowd).entries.size ≤ 1 ∧
      ((RateLimiter.new 1 minute 1).run crowd).allows ⟨"10.0.0.1", 3, by decide⟩ = false ∧
      allowedSince ((RateLimiter.new 1 minute 1).outcomes crowd) RateOutcome.shared 2 ≤ 1 := by
  obtain ⟨hsize, hallows, -, hshared⟩ :=
    @limiter_bounds_and_isolates 1 1 minute (by decide) crowd (by decide)
  refine ⟨hsize, ?_, hshared⟩
  have hiff := hallows ⟨"10.0.0.1", 3, by decide⟩ { count := 1, reset := minute } (by decide)
    (by decide)
  rw [Bool.eq_false_iff]
  intro hallowed
  exact absurd (hiff.mp hallowed) (by decide)

end Taskboard
