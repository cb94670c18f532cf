import Mathlib.Data.List.DropRight
import Mathlib.Data.List.Lex
import Mathlib.Data.List.Infix
import Mathlib.Order.Lattice

/-!
# Lexicographic order and dropped trailing digits

Two texts of equal length compare like the numbers they write. Once the trailing zeros of a
fraction are dropped and a mark that is greater than every digit closes it, this holds just
as long as neither of the two is the start of the other: `trimmed_lt_iff`.
-/

section Append

variable {α : Type} [LinearOrder α]

theorem append_lt_append_iff {a b c d : List α} (h : a.length = c.length) :
    a ++ b < c ++ d ↔ a < c ∨ a = c ∧ b < d := by
  induction a generalizing c with
  | nil =>
      obtain rfl : c = [] := List.length_eq_zero_iff.mp h.symm
      simp
  | cons x a ih =>
      cases c with
      | nil => simp at h
      | cons y c =>
          simp only [List.cons_append, List.cons_lt_cons_iff, ih (by simpa using h),
            List.cons.injEq]
          tauto

end Append

section Trimmed

variable {α : Type} [LinearOrder α] {z e : α} {x y : List α}

/-- The list without the zeros at its end. -/
def trimmed (z : α) (l : List α) : List α :=
  l.rdropWhile (· = z)

theorem trimmed_eq_nil : trimmed z x = [] ↔ ∀ a ∈ x, a = z := by
  simp [trimmed, List.rdropWhile_eq_nil_iff]

theorem trimmed_append (a b : List α) :
    trimmed z (a ++ b) = if trimmed z b = [] then trimmed z a else a ++ trimmed z b := by
  simp only [trimmed, List.rdropWhile, List.reverse_append, List.dropWhile_append,
    List.isEmpty_iff, List.reverse_eq_nil_iff]
  split <;> simp

theorem trimmed_cons_of_ne {a : α} (h : trimmed z (a :: x) ≠ []) :
    trimmed z (a :: x) = a :: trimmed z x := by
  have happ : trimmed z (a :: x) = if trimmed z x = [] then trimmed z [a] else a :: trimmed z x :=
    trimmed_append [a] x
  rw [happ] at h ⊢
  split
  · rename_i hnil
    rw [if_pos hnil] at h
    have ha : a ≠ z := fun ha => h (trimmed_eq_nil.mpr (by simpa using ha))
    rw [hnil]
    simp [trimmed, List.rdropWhile_singleton, ha]
  · rfl

/-- Zeros are less than any other digits of the same length. -/
theorem lt_of_trimmed_eq_nil (hlen : x.length = y.length) (hz : ∀ a ∈ y, z ≤ a)
    (hx : trimmed z x = []) (hy : trimmed z y ≠ []) : x < y := by
  rw [trimmed_eq_nil] at hx
  rw [ne_eq, trimmed_eq_nil] at hy
  induction x generalizing y with
  | nil =>
      obtain rfl : y = [] := List.length_eq_zero_iff.mp hlen.symm
      simp at hy
  | cons a x ih =>
      cases y with
      | nil => simp at hlen
      | cons b y =>
          obtain rfl : a = z := hx a List.mem_cons_self
          rw [List.cons_lt_cons_iff]
          rcases (hz b List.mem_cons_self).lt_or_eq with hlt | rfl
          · exact Or.inl hlt
          · refine Or.inr ⟨rfl, ih (by simpa using hlen) (fun c hc => hz c (by simp [hc]))
              (fun c hc => hx c (by simp [hc])) ?_⟩
            simpa using hy

/-- **Dropped zeros.** With their trailing zeros dropped and a last mark behind them, two
lists of digits compare as they did, exactly if they are equal or neither starts with the
other. -/
theorem trimmed_lt_iff (hlen : x.length = y.length) (hx : ∀ a ∈ x, z ≤ a ∧ a < e)
    (hy : ∀ a ∈ y, z ≤ a ∧ a < e) :
    ((trimmed z x ++ [e] < trimmed z y ++ [e]) ↔ x < y) ↔
      x = y ∨ ¬trimmed z x <+: trimmed z y ∧ ¬trimmed z y <+: trimmed z x := by
  induction x generalizing y with
  | nil =>
      obtain rfl : y = [] := List.length_eq_zero_iff.mp hlen.symm
      simp
  | cons a x ih =>
      cases y with
      | nil => simp at hlen
      | cons b y =>
          have ha := (hx a List.mem_cons_self).2
          have hb := (hy b List.mem_cons_self).2
          by_cases hxz : trimmed z (a :: x) = []
          · by_cases hyz : trimmed z (b :: y) = []
            · have heq : a :: x = b :: y := by
                rw [List.eq_replicate_of_mem (trimmed_eq_nil.mp hxz),
                  List.eq_replicate_of_mem (trimmed_eq_nil.mp hyz), hlen]
              simp [heq]
            · have hlt := lt_of_trimmed_eq_nil hlen (fun c hc => (hy c hc).1) hxz hyz
              rw [hxz, trimmed_cons_of_ne hyz]
              simp [hlt, hlt.ne, List.cons_lt_cons_iff, hb.le, hb.ne']
          · by_cases hyz : trimmed z (b :: y) = []
            · have hlt := lt_of_trimmed_eq_nil hlen.symm (fun c hc => (hx c hc).1) hyz hxz
              rw [hyz, trimmed_cons_of_ne hxz]
              simp [hlt.not_gt, hlt.ne', List.cons_lt_cons_iff, ha]
            · rw [trimmed_cons_of_ne hxz, trimmed_cons_of_ne hyz]
              have htails := ih (y := y) (by simpa using hlen) (fun c hc => hx c (by simp [hc]))
                (fun c hc => hy c (by simp [hc]))
              rcases eq_or_ne a b with rfl | hne
              · simpa [List.cons_lt_cons_iff, List.cons_prefix_cons] using htails
              · simp [List.cons_lt_cons_iff, List.cons_prefix_cons, hne, hne.symm]

/-- A list is what is left of it, with the zeros that were dropped. -/
theorem exists_trimmed_append (z : α) (x : List α) :
    ∃ k, x = trimmed z x ++ List.replicate k z := by
  have hzeros : ∀ a ∈ x.rtakeWhile (· = z), a = z := fun a ha => by
    simpa using List.mem_rtakeWhile_imp ha
  refine ⟨(x.rtakeWhile (· = z)).length, ?_⟩
  rw [← List.eq_replicate_of_mem hzeros, trimmed, List.rdropWhile_append_rtakeWhile]

theorem trimmed_prefix_append (a b : List α) : trimmed z a <+: trimmed z (a ++ b) := by
  rw [trimmed_append]
  split
  · exact List.prefix_rfl
  · exact ( List.rdropWhile_prefix _ _).trans (List.prefix_append _ _)

/-- Without its zeros a list starts another one, exactly if it is the start of that one with
zeros behind. -/
theorem trimmed_prefix_iff (hlen : x.length = y.length) :
    trimmed z x <+: trimmed z y ↔
      ∃ k ≤ y.length, x = y.take (y.length - k) ++ List.replicate k z := by
  constructor
  · intro hpre
    obtain ⟨k, hk⟩ := exists_trimmed_append z x
    have hcount : x.length = (trimmed z x).length + k := by
      conv_lhs => rw [hk]
      simp
    have htake : y.take (y.length - k) = trimmed z x := by
      have hy := List.prefix_iff_eq_take.mp (hpre.trans ( List.rdropWhile_prefix _ _))
      rw [← hlen, hcount, Nat.add_sub_cancel]
      exact hy.symm
    exact ⟨k, by omega, htake ▸ hk⟩
  · rintro ⟨k, -, rfl⟩
    have hzeros : trimmed z (List.replicate k z) = [] :=
      trimmed_eq_nil.mpr fun a ha => List.eq_of_mem_replicate ha
    rw [trimmed_append, if_pos hzeros]
    conv_rhs => rw [← List.take_append_drop (y.length - k) y]
    exact trimmed_prefix_append _ _

end Trimmed
