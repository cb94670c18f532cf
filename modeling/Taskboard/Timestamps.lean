import Taskboard.Dates
import Taskboard.Deletion

/-!
# Stored times

Times are stored as text in the layout `time.RFC3339Nano` and compared as text in SQL. The
layout writes the date and the time of day in fields of fixed width, whose order is that of
the instants, and a fraction of a second without its trailing zeros, whose order is not:
`Z` comes after every digit and after the decimal point. Two stored times are in the order
of their instants exactly if neither instant is the other one cut off at a decimal place.
-/

namespace Taskboard

section Stamps

variable {a b : Instant} {s : Int} {f m n : Nat}

/-- Nanoseconds since the last full second. -/
def nanosecond (t : Instant) : Nat :=
  (t % second).toNat

/-- The layout `.999999999`: no trailing zeros, and no point if nothing is left. -/
def fractionText (nanos : Nat) : List Char :=
  if nanos = 0 then [] else '.' :: trimmed '0' (digits 9 nanos)

/-- `stamp` and the store's `formatTime`: the layout `time.RFC3339Nano`, in UTC. -/
def stamp (t : Instant) : String :=
  String.ofList (dateTimeText t ++ (fractionText (nanosecond t) ++ ['Z']))

/-- The years 0 to 9999, which have four digits. -/
def Instant.FourDigitYear (t : Instant) : Prop :=
  0 ≤ t / (24 * hour) + 719528 ∧ (dateOf t).year < 10000

/-- The instant `a` is `b` cut off at a decimal place of its seconds, `k` digits short of
all nine. -/
def Instant.CutOf (a b : Instant) : Prop :=
  ∃ k ≤ 9, a = b / 10 ^ k * 10 ^ k

theorem secondOfDay_lt (t : Instant) : secondOfDay t < 86400 := by
  have := Int.emod_lt_of_pos (t / second) (show (0 : Int) < 86400 by decide)
  unfold secondOfDay
  omega

/-- Full seconds are in the order of the dates and the seconds of the day. -/
theorem div_second_lt_iff (ha : a.FourDigitYear) (hb : b.FourDigitYear) :
    a / second < b / second ↔
      (a / (24 * hour) + 719528).toNat < (b / (24 * hour) + 719528).toNat ∨
        (a / (24 * hour) + 719528).toNat = (b / (24 * hour) + 719528).toNat ∧
          secondOfDay a < secondOfDay b := by
  have hday (t : Instant) : t / (24 * hour) = t / second / 86400 := by
    rw [Int.ediv_ediv_of_nonneg (by decide)]
    rfl
  have hsplit (s s' : Int) (h : 0 ≤ s / 86400 + 719528) (h' : 0 ≤ s' / 86400 + 719528) :
      s < s' ↔ (s / 86400 + 719528).toNat < (s' / 86400 + 719528).toNat ∨
        (s / 86400 + 719528).toNat = (s' / 86400 + 719528).toNat ∧
          (s % 86400).toNat < (s' % 86400).toNat := by
    omega
  rw [hday, hday]
  exact hsplit _ _ (hday a ▸ ha.1) (hday b ▸ hb.1)

/-- The date and the time of day are written in fields whose order is that of the full
seconds; what follows them only matters within one second. -/
theorem dateTimeText_append_lt_iff {rest rest' : List Char} (ha : a.FourDigitYear)
    (hb : b.FourDigitYear) :
    dateTimeText a ++ rest < dateTimeText b ++ rest' ↔
      a / second < b / second ∨ a / second = b / second ∧ rest < rest' := by
  have hday := div_second_lt_iff ha hb
  have hday' := div_second_lt_iff hb ha
  have hclock := secondOfDay_lt a
  have hclock' := secondOfDay_lt b
  have hdate : (dateOf a).Valid := Date.valid_ofDay _
  have hdate' : (dateOf b).Valid := Date.valid_ofDay _
  have hsame : a / second = b / second ↔ ¬a / second < b / second ∧ ¬b / second < a / second := by
    simp only [not_lt, le_antisymm_iff, and_comm]
  simp only [dateTimeText, List.append_assoc, List.cons_append]
  rw [formatDate_append_lt_iff hdate hdate' ha.2 hb.2, List.cons_lt_cons_iff,
    digits_sep_lt_iff (by omega) (by omega), digits_sep_lt_iff (by omega) (by omega),
    digits_append_lt_iff (by omega) (by omega), hsame, hday, hday']
  simp only [dateOf, Date.number_ofDay]
  by_cases hrest : rest < rest' <;>
    simp only [hrest, and_true, and_false, or_false, lt_irrefl, false_or, true_and] <;> omega

/-- What is left of a fraction starts another one exactly if it is that one cut off. -/
theorem trimmed_digits_prefix_iff (hm : m < 10 ^ 9) (hn : n < 10 ^ 9) :
    trimmed '0' (digits 9 m) <+: trimmed '0' (digits 9 n) ↔
      ∃ k ≤ 9, m = n / 10 ^ k * 10 ^ k := by
  rw [trimmed_prefix_iff (by simp), length_digits]
  refine exists_congr fun k => and_congr_right fun hk => ?_
  obtain ⟨w, hw⟩ := Nat.exists_eq_add_of_le' hk
  have hcut : digits 9 (n / 10 ^ k * 10 ^ k) =
      (digits 9 n).take (9 - k) ++ List.replicate k '0' := by
    rw [hw, Nat.add_sub_cancel, digits_add, digits_add, digits_mul_pow,
      Nat.mul_div_cancel _ (Nat.pow_pos (by decide)),
      List.take_append_of_le_length (by simp), List.take_of_length_le (by simp)]
  rw [← hcut, digits_inj hm ((Nat.div_mul_le_self n (10 ^ k)).trans_lt hn)]

/-- Fractions are in the order of their texts, with the mark of UTC behind them, exactly if
they are equal or neither is the other one cut off. -/
theorem fractionText_lt_iff (hm : m < 10 ^ 9) (hn : n < 10 ^ 9) :
    ((fractionText m ++ ['Z'] < fractionText n ++ ['Z']) ↔ m < n) ↔
      m = n ∨ ¬(∃ k ≤ 9, m = n / 10 ^ k * 10 ^ k) ∧ ¬∃ k ≤ 9, n = m / 10 ^ k * 10 ^ k := by
  -- A fraction of zero is every other one, cut off at the seconds.
  have hzero (n : Nat) (hn : n < 10 ^ 9) : ∃ k ≤ 9, 0 = n / 10 ^ k * 10 ^ k :=
    ⟨9, le_rfl, by rw [Nat.div_eq_of_lt hn, Nat.zero_mul]⟩
  rcases Nat.eq_zero_or_pos m with rfl | hm0
  · rcases Nat.eq_zero_or_pos n with rfl | hn0
    · simp
    · have hZ : ¬ 'Z' < '.' := by decide
      have hless : ¬((fractionText 0 ++ ['Z'] < fractionText n ++ ['Z']) ↔ 0 < n) := by
        simp [fractionText, hn0, hn0.ne', List.cons_lt_cons_iff, hZ]
      refine iff_of_false hless ?_
      rintro (hsame | ⟨hcut, -⟩)
      · exact hn0.ne hsame
      · exact hcut (hzero n hn)
  · rcases Nat.eq_zero_or_pos n with rfl | hn0
    · have hdot : '.' < 'Z' := by decide
      have hless : ¬((fractionText m ++ ['Z'] < fractionText 0 ++ ['Z']) ↔ m < 0) := by
        simp [fractionText, hm0.ne', List.cons_lt_cons_iff, hdot]
      refine iff_of_false hless ?_
      rintro (hsame | ⟨-, hcut⟩)
      · exact hm0.ne' hsame
      · exact hcut (hzero m hm)
    · have htrimmed := trimmed_lt_iff (z := '0') (e := 'Z')
        (show (digits 9 m).length = (digits 9 n).length by simp)
        (fun _ => bounds_of_mem_digits) (fun _ => bounds_of_mem_digits)
      rw [trimmed_digits_prefix_iff hm hn, trimmed_digits_prefix_iff hn hm, digits_lt_iff hm hn,
        digits_inj hm hn] at htrimmed
      simpa [fractionText, hm0.ne', hn0.ne', List.cons_lt_cons_iff] using htrimmed

theorem nanosecond_lt (t : Instant) : nanosecond t < 10 ^ 9 := by
  have := Int.emod_lt_of_pos t (show (0 : Int) < second by decide)
  unfold nanosecond
  simp only [second] at *
  omega

theorem div_second_add_nanosecond (t : Instant) : t / second * 10 ^ 9 + nanosecond t = t := by
  have hpos := Int.emod_nonneg t (show second ≠ 0 by decide)
  have := Int.ediv_mul_add_emod t second
  rw [nanosecond, Int.toNat_of_nonneg hpos]
  exact this

theorem parts_lt_iff {s' : Int} {f' : Nat} (hf : f < 10 ^ 9) (hf' : f' < 10 ^ 9) :
    s * 10 ^ 9 + f < s' * 10 ^ 9 + f' ↔ s < s' ∨ s = s' ∧ f < f' := by
  omega

theorem eq_second_add_iff (hf : f < 10 ^ 9) :
    a = s * 10 ^ 9 + f ↔ a / second = s ∧ nanosecond a = f := by
  have hparts (s' : Int) (f' : Nat) (hf' : f' < 10 ^ 9) :
      s' * 10 ^ 9 + f' = s * 10 ^ 9 + f ↔ s' = s ∧ f' = f := by
    omega
  rw [← hparts _ _ (nanosecond_lt a), div_second_add_nanosecond]

theorem cut_eq {k : Nat} (hk : k ≤ 9) (t : Instant) :
    t / 10 ^ k * 10 ^ k =
      t / second * 10 ^ 9 + ((nanosecond t / 10 ^ k * 10 ^ k : Nat) : Int) := by
  obtain ⟨w, hw⟩ := Nat.exists_eq_add_of_le' hk
  have hpow : (10 : Int) ^ 9 = 10 ^ w * 10 ^ k := by rw [hw, Int.pow_add]
  have hne : (10 : Int) ^ k ≠ 0 := (Int.pow_pos (by decide)).ne'
  calc
    t / 10 ^ k * 10 ^ k
        = (t / second * 10 ^ w * 10 ^ k + nanosecond t) / 10 ^ k * 10 ^ k := by
          rw [Int.mul_assoc, ← hpow, div_second_add_nanosecond]
    _ = (t / second * 10 ^ w + nanosecond t / 10 ^ k) * 10 ^ k := by
          rw [Int.add_comm, Int.add_mul_ediv_right _ _ hne, Int.add_comm]
    _ = t / second * 10 ^ 9 + ((nanosecond t / 10 ^ k * 10 ^ k : Nat) : Int) := by
          rw [Int.add_mul, Int.mul_assoc, ← hpow]
          simp

/-- Cutting off an instant keeps its second. -/
theorem cutOf_iff :
    a.CutOf b ↔ a / second = b / second ∧
      ∃ k ≤ 9, nanosecond a = nanosecond b / 10 ^ k * 10 ^ k := by
  have hk (k : Nat) (hk : k ≤ 9) : a = b / 10 ^ k * 10 ^ k ↔
      a / second = b / second ∧ nanosecond a = nanosecond b / 10 ^ k * 10 ^ k := by
    rw [cut_eq hk, eq_second_add_iff]
    exact (Nat.div_mul_le_self _ _).trans_lt (nanosecond_lt b)
  constructor
  · rintro ⟨k, hle, h⟩
    exact ⟨((hk k hle).mp h).1, k, hle, ((hk k hle).mp h).2⟩
  · rintro ⟨hsec, k, hle, h⟩
    exact ⟨k, hle, (hk k hle).mpr ⟨hsec, h⟩⟩

/-- Two times are in the order of their texts exactly if they are equal or neither is the
other one cut off. -/
theorem stamp_lt_stamp_iff (ha : a.FourDigitYear) (hb : b.FourDigitYear) :
    (stamp a < stamp b ↔ a < b) ↔ a = b ∨ ¬a.CutOf b ∧ ¬b.CutOf a := by
  have hsame : a = b ↔ a / second = b / second ∧ nanosecond a = nanosecond b := by
    rw [← eq_second_add_iff (nanosecond_lt b), div_second_add_nanosecond]
  have hlt : a < b ↔ a / second < b / second ∨
      a / second = b / second ∧ nanosecond a < nanosecond b := by
    rw [← parts_lt_iff (nanosecond_lt a) (nanosecond_lt b), div_second_add_nanosecond,
      div_second_add_nanosecond]
  rw [String.lt_iff, stamp, stamp, String.toList_ofList, String.toList_ofList,
    dateTimeText_append_lt_iff ha hb, hsame, hlt, cutOf_iff, cutOf_iff]
  by_cases hsec : a / second = b / second
  · simpa [hsec] using fractionText_lt_iff (nanosecond_lt a) (nanosecond_lt b)
  · simp [hsec, Ne.symm hsec]

/-- Stored times compare as their texts do. -/
def Service.ComparesStamps (svc : Service) : Prop :=
  ∀ a b, svc.before a b = decide (stamp a < stamp b)

/-- The test of `NextWebhookDelivery`, `next_attempt_at<=?`. -/
def Service.webhookDue (svc : Service) (now nextAttempt : Instant) : Bool :=
  !svc.before now nextAttempt

/-- **Stored times order like time** exactly where they are equal or neither is the other one
cut off at a decimal place; so do the lease tests, the due times and the retention cutoff. -/
theorem stored_times_order_iff {svc : Service} (hsvc : svc.ComparesStamps)
    (ha : a.FourDigitYear) (hb : b.FourDigitYear) :
    ((stamp a < stamp b ↔ a < b) ↔ a = b ∨ ¬a.CutOf b ∧ ¬b.CutOf a) ∧
      ((svc.before a b = true ↔ a < b) ↔ a = b ∨ ¬a.CutOf b ∧ ¬b.CutOf a) ∧
      ((svc.webhookDue a b = true ↔ b ≤ a) ↔ a = b ∨ ¬a.CutOf b ∧ ¬b.CutOf a) ∧
      (∀ run : AgentRun, run.endedAt = none → run.status = .active → run.leaseExpires = a →
        ((svc.expiredAt b run = true ↔ a < b) ↔ a = b ∨ ¬a.CutOf b ∧ ¬b.CutOf a) ∧
          ((svc.liveAt b run = true ↔ b ≤ a) ↔ a = b ∨ ¬a.CutOf b ∧ ¬b.CutOf a)) ∧
      ∀ task : Task, task.status = .done ∨ task.status = .cancelled →
        task.completedAt = some a →
          ((svc.retired b task = true ↔ a < b) ↔ a = b ∨ ¬a.CutOf b ∧ ¬b.CutOf a) := by
  have hstamp := stamp_lt_stamp_iff ha hb
  have hbefore : (svc.before a b = true ↔ a < b) ↔ a = b ∨ ¬a.CutOf b ∧ ¬b.CutOf a := by
    rw [hsvc, decide_eq_true_iff]
    exact hstamp
  have hnot : (¬svc.before a b = true ↔ b ≤ a) ↔ a = b ∨ ¬a.CutOf b ∧ ¬b.CutOf a := by
    rw [← hbefore, ← not_lt, not_iff_not]
  refine ⟨hstamp, hbefore, ?_, fun run hopen hactive hlease => ⟨?_, ?_⟩,
    fun task hstatus hcompleted => ?_⟩
  · simpa [Service.webhookDue] using hnot
  · simpa [Service.expiredAt, hopen, hactive, hlease] using hbefore
  · simpa [Service.liveAt, hopen, hactive, hlease] using hnot
  · simpa [Service.retired, hstatus, hcompleted] using hbefore

end Stamps

/-- The service that stores stamps. -/
def Service.stamped : Service :=
  { Service.ascii with before := fun a b => decide (stamp a < stamp b) }

theorem tenth_before_half_second :
    Instant.FourDigitYear 100000000 ∧ Instant.FourDigitYear 500000000 ∧
      (stamp 100000000 < stamp 500000000 ↔ (100000000 : Instant) < 500000000) := by
  have hten : Instant.FourDigitYear 100000000 := ⟨by decide +kernel, by decide +kernel⟩
  have hhalf : Instant.FourDigitYear 500000000 := ⟨by decide +kernel, by decide +kernel⟩
  have hsvc : Service.stamped.ComparesStamps := fun _ _ => by rw [Service.stamped]
  refine ⟨hten, hhalf, (stored_times_order_iff hsvc hten hhalf).1.mpr (Or.inr ⟨?_, ?_⟩)⟩
  · rintro ⟨k, hk, h⟩
    revert h
    revert k
    decide
  · rintro ⟨k, hk, h⟩
    revert h
    revert k
    decide

/-- A lease that ends with a full second is not expired half a second later. -/
theorem full_second_after_half_second :
    Instant.FourDigitYear 0 ∧ Instant.FourDigitYear 500000000 ∧
      stamp 0 = "1970-01-01T00:00:00Z" ∧ stamp 500000000 = "1970-01-01T00:00:00.5Z" ∧
      (0 : Instant) < 500000000 ∧ ¬stamp 0 < stamp 500000000 := by
  refine ⟨⟨by decide +kernel, by decide +kernel⟩, ⟨by decide, by decide +kernel⟩, by decide +kernel, by decide +kernel,
    by decide, by decide +kernel⟩

end Taskboard
