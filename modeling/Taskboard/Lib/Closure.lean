import Mathlib.Data.List.Dedup
import Mathlib.Logic.Relation

/-!
# Recursive queries and acyclic relations

A recursive query (`WITH RECURSIVE ... UNION ...`) starts from some keys and adds, round by
round, the keys that rows lead to from those it knows. Over a finite table it ends: every
round that adds something uses up a row. What it ends with are the keys that can be reached
from where it started (`mem_rounds_iff`), which is the least set that holds these and is
closed under the rows.

A relation is acyclic where nothing leads back to itself. One more pair keeps it so unless
its second element already leads to its first: `Acyclic.insert_iff`.
-/

section Rounds

variable {ι ρ : Type} (src dst : ρ → ι) (rows : List ρ)

/-- Some row leads from `a` to `b`. -/
def Leads (a b : ι) : Prop :=
  ∃ row ∈ rows, src row = a ∧ dst row = b

section Leads

variable {src dst rows} {a b : ι}

theorem Leads.mono {rows' : List ρ} (h : rows' ⊆ rows) (hab : Leads src dst rows' a b) :
    Leads src dst rows a b := by
  obtain ⟨row, hrow, hkeys⟩ := hab
  exact ⟨row, h hrow, hkeys⟩

theorem leads_append_singleton {row : ρ} :
    Leads src dst (rows ++ [row]) a b ↔ Leads src dst rows a b ∨ (a = src row ∧ b = dst row) := by
  simp only [Leads, List.mem_append, List.mem_singleton, or_and_right, exists_or, exists_eq_left]
  rw [eq_comm, @eq_comm _ (dst row)]

end Leads

variable [DecidableEq ι]

/-- The keys that one more round adds. -/
def newKeys (known : List ι) : List ι :=
  ((rows.filter fun row => src row ∈ known && dst row ∉ known).map dst).dedup

/-- What the query knows after some rounds. -/
def rounds : Nat → List ι → List ι
  | 0, known => known
  | fuel + 1, known => rounds fuel (known ++ newKeys src dst rows known)

/-- How many rows lead to keys that are not known. -/
def unseen (known : List ι) : Nat :=
  rows.countP fun row => dst row ∉ known

variable {src dst rows} {known : List ι} {fuel : Nat} {b : ι}

theorem mem_newKeys :
    b ∈ newKeys src dst rows known ↔ (∃ a ∈ known, Leads src dst rows a b) ∧ b ∉ known := by
  simp only [newKeys, List.mem_dedup, List.mem_map, List.mem_filter, Bool.and_eq_true,
    decide_eq_true_eq]
  constructor
  · rintro ⟨row, ⟨hrow, hsrc, hdst⟩, rfl⟩
    exact ⟨⟨src row, hsrc, row, hrow, rfl, rfl⟩, hdst⟩
  · rintro ⟨⟨_, ha, row, hrow, rfl, rfl⟩, hb⟩
    exact ⟨row, ⟨hrow, ha, hb⟩, rfl⟩

/-- A round that adds nothing is the last one. -/
theorem rounds_of_newKeys_nil (h : newKeys src dst rows known = []) (fuel : Nat) :
    rounds src dst rows fuel known = known := by
  induction fuel with
  | zero => rfl
  | succ fuel ih =>
      rw [rounds, h, List.append_nil]
      exact ih

/-- A round that adds something uses up a row. -/
theorem unseen_lt (h : newKeys src dst rows known ≠ []) :
    unseen dst rows (known ++ newKeys src dst rows known) < unseen dst rows known := by
  obtain ⟨b, hb⟩ := List.exists_mem_of_ne_nil _ h
  obtain ⟨⟨a, -, row, hrow, -, rfl⟩, hfresh⟩ := mem_newKeys.mp hb
  simp only [unseen, List.countP_eq_length_filter]
  -- The rows that are still unseen are among those that were, and `row` no longer is.
  have hsub : (rows.filter fun row => dst row ∉ known ++ newKeys src dst rows known).Sublist
      (rows.filter fun row => dst row ∉ known) := by
    apply List.monotone_filter_right
    intro row hrow
    simp only [List.mem_append, not_or, decide_eq_true_eq] at hrow ⊢
    exact hrow.1
  apply Nat.lt_of_le_of_ne hsub.length_le
  intro hlength
  have hmem : row ∈ rows.filter fun row => dst row ∉ known :=
    List.mem_filter.mpr ⟨hrow, by simpa using hfresh⟩
  rw [← hsub.eq_of_length hlength] at hmem
  simp [hb] at hmem

/-- **The query ends.** As many rounds as there are rows to unseen keys are enough. -/
theorem newKeys_rounds (h : unseen dst rows known ≤ fuel) :
    newKeys src dst rows (rounds src dst rows fuel known) = [] := by
  induction fuel generalizing known with
  | zero =>
      by_contra hne
      have := unseen_lt hne
      simp only [rounds] at this
      omega
  | succ fuel ih =>
      by_cases hnil : newKeys src dst rows known = []
      · rw [rounds_of_newKeys_nil hnil]
        exact hnil
      · apply ih
        have := unseen_lt hnil
        omega

theorem unseen_le_length : unseen dst rows known ≤ rows.length :=
  List.countP_le_length

theorem subset_rounds (fuel : Nat) (known : List ι) : known ⊆ rounds src dst rows fuel known := by
  induction fuel generalizing known with
  | zero => exact List.Subset.refl _
  | succ fuel ih => exact List.Subset.trans (List.subset_append_left _ _) (ih _)

/-- Everything that the query knows can be reached from where it started. -/
theorem reached_of_mem_rounds
    (h : b ∈ rounds src dst rows fuel known) :
    ∃ a ∈ known, Relation.ReflTransGen (Leads src dst rows) a b := by
  induction fuel generalizing known with
  | zero => exact ⟨b, h, .refl⟩
  | succ fuel ih =>
      obtain ⟨c, hc, hcb⟩ := ih h
      rcases List.mem_append.mp hc with hknown | hnew
      · exact ⟨c, hknown, hcb⟩
      · obtain ⟨⟨a, ha, hac⟩, -⟩ := mem_newKeys.mp hnew
        exact ⟨a, ha, .head hac hcb⟩

/-- **The query is exact.** After as many rounds as there are rows it knows the keys that can
be reached, and no others. -/
theorem mem_rounds_iff (h : rows.length ≤ fuel) :
    b ∈ rounds src dst rows fuel known ↔
      ∃ a ∈ known, Relation.ReflTransGen (Leads src dst rows) a b := by
  constructor
  · exact reached_of_mem_rounds
  · rintro ⟨a, ha, hab⟩
    induction hab with
    | refl => exact subset_rounds fuel known ha
    | @tail b c _ hbc ih =>
        by_contra hc
        have hnew : c ∈ newKeys src dst rows (rounds src dst rows fuel known) :=
          mem_newKeys.mpr ⟨⟨b, ih, hbc⟩, hc⟩
        rw [newKeys_rounds (Nat.le_trans unseen_le_length h)] at hnew
        exact absurd hnew List.not_mem_nil

/-- Further rounds add nothing. -/
theorem rounds_of_length_le (h : rows.length ≤ fuel) :
    rounds src dst rows fuel known = rounds src dst rows rows.length known := by
  have hadd (m n : Nat) (known : List ι) : rounds src dst rows (m + n) known =
      rounds src dst rows n (rounds src dst rows m known) := by
    induction m generalizing known with
    | zero => rw [Nat.zero_add, rounds]
    | succ m ih => rw [Nat.succ_add, rounds, rounds, ih]
  obtain ⟨extra, rfl⟩ := Nat.exists_eq_add_of_le h
  rw [hadd, rounds_of_newKeys_nil (newKeys_rounds unseen_le_length)]

end Rounds

section Acyclic

variable {ι : Type} {r s : ι → ι → Prop} {a b : ι}

/-- Nothing leads back to itself. -/
def Acyclic (r : ι → ι → Prop) : Prop :=
  ∀ a, ¬ Relation.TransGen r a a

theorem Acyclic.mono (h : Acyclic r) (hsub : ∀ a b, s a b → r a b) : Acyclic s :=
  fun a hcycle => h a (Relation.TransGen.mono hsub a a hcycle)

/-- A path with one more pair either does without it or goes through it. -/
theorem transGen_insert {x y : ι}
    (h : Relation.TransGen (fun u v => r u v ∨ (u = a ∧ v = b)) x y) :
    Relation.TransGen r x y ∨ (Relation.ReflTransGen r x a ∧ Relation.ReflTransGen r b y) := by
  induction h with
  | single hstep =>
      rcases hstep with hr | ⟨rfl, rfl⟩
      · exact Or.inl (.single hr)
      · exact Or.inr ⟨.refl, .refl⟩
  | tail _ hstep ih =>
      rcases hstep with hr | ⟨rfl, rfl⟩
      · rcases ih with hpath | ⟨hxa, hby⟩
        · exact Or.inl (hpath.tail hr)
        · exact Or.inr ⟨hxa, hby.tail hr⟩
      · rcases ih with hpath | ⟨hxa, -⟩
        · exact Or.inr ⟨hpath.to_reflTransGen, .refl⟩
        · exact Or.inr ⟨hxa, .refl⟩

/-- **One more pair** keeps a relation acyclic just when its second element does not already
lead to its first. -/
theorem Acyclic.insert_iff (h : Acyclic r) :
    Acyclic (fun u v => r u v ∨ (u = a ∧ v = b)) ↔ ¬ Relation.ReflTransGen r b a := by
  constructor
  · intro hacyclic hba
    have hback : Relation.ReflTransGen (fun u v => r u v ∨ (u = a ∧ v = b)) b a :=
      Relation.ReflTransGen.mono (fun _ _ => Or.inl) b a hba
    exact hacyclic a (.head' (Or.inr ⟨rfl, rfl⟩) hback)
  · intro hba x hcycle
    rcases transGen_insert hcycle with hpath | ⟨hxa, hbx⟩
    · exact h x hpath
    · exact hba (hbx.trans hxa)

end Acyclic
