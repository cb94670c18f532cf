import Mathlib.Data.List.Induction

/-!
# Texts between quotes

A text between quotes is spelled with each of its own quotes doubled. What stands behind the
opening quote is such a spelling, and then nothing, or a quote that is not doubled and whatever
follows. There is exactly one way to read it like that (`exists_doubled` and `doubled_inj`).
-/

variable {α : Type} [DecidableEq α]

/-- The spelling of a text between quotes `q`. -/
def doubled (q : α) : List α → List α
  | [] => []
  | c :: text => if c = q then q :: q :: doubled q text else c :: doubled q text

/-- What stands behind the text: nothing, or the closing quote and the rest. -/
def closing (q : α) : Option (List α) → List α
  | none => []
  | some rest => q :: rest

/-- The quote that closes a text is not doubled. -/
def Closes (q : α) (rest : Option (List α)) : Prop :=
  ∀ tail ∈ rest, tail.head? ≠ some q

variable {q c : α} {text text' body : List α} {rest rest' : Option (List α)}

omit [DecidableEq α] in
theorem closes_none : Closes q none := fun _ htail => by cases htail

theorem doubled_cons_quote : doubled q (q :: text) = q :: q :: doubled q text := if_pos rfl

theorem doubled_cons_of_ne (h : c ≠ q) : doubled q (c :: text) = c :: doubled q text := if_neg h

/-- Whatever stands behind an opening quote can be read. -/
theorem exists_doubled (q : α) (body : List α) :
    ∃ text rest, Closes q rest ∧ body = doubled q text ++ closing q rest := by
  induction body using List.twoStepInduction with
  | nil => exact ⟨[], none, closes_none, rfl⟩
  | singleton c =>
      by_cases hc : c = q
      · subst hc
        refine ⟨[], some [], ?_, rfl⟩
        intro tail htail
        cases htail
        simp
      · refine ⟨[c], none, closes_none, ?_⟩
        rw [doubled_cons_of_ne hc]
        rfl
  | cons_cons c d body ih ihd =>
      by_cases hc : c = q
      · subst hc
        by_cases hd : d = c
        · subst hd
          obtain ⟨text, rest, hrest, rfl⟩ := ih
          refine ⟨d :: text, rest, hrest, ?_⟩
          rw [doubled_cons_quote]
          rfl
        · refine ⟨[], some (d :: body), ?_, rfl⟩
          intro tail htail
          cases htail
          simpa using hd
      · obtain ⟨text, rest, hrest, hbody⟩ := ihd d
        refine ⟨c :: text, rest, hrest, ?_⟩
        rw [doubled_cons_of_ne hc, hbody]
        rfl

/-- What closes a text does not start as a text that goes on. -/
theorem closing_ne_doubled_cons (hrest : Closes q rest) :
    closing q rest ≠ doubled q (c :: text) ++ body := by
  intro h
  cases rest with
  | none =>
      by_cases hc : c = q
      · subst hc
        rw [doubled_cons_quote] at h
        cases h
      · rw [doubled_cons_of_ne hc] at h
        cases h
  | some tail =>
      by_cases hc : c = q
      · subst hc
        rw [doubled_cons_quote] at h
        obtain ⟨-, rfl⟩ := List.cons.inj h
        exact hrest _ rfl rfl
      · rw [doubled_cons_of_ne hc] at h
        exact hc (List.cons.inj h).1.symm

/-- **There is one way to read it.** -/
theorem doubled_inj (hrest : Closes q rest) (hrest' : Closes q rest')
    (h : doubled q text ++ closing q rest = doubled q text' ++ closing q rest') :
    text = text' ∧ rest = rest' := by
  induction text generalizing text' with
  | nil =>
      cases text' with
      | nil =>
          refine ⟨rfl, ?_⟩
          cases rest <;> cases rest' <;> simp_all [doubled, closing]
      | cons c text' => exact absurd h (closing_ne_doubled_cons hrest)
  | cons c text ih =>
      cases text' with
      | nil => exact absurd h.symm (closing_ne_doubled_cons hrest')
      | cons d text' =>
          -- Both go on with the same character, doubled or not.
          have hsame : c = d ∧
              doubled q text ++ closing q rest = doubled q text' ++ closing q rest' := by
            by_cases hc : c = q <;> by_cases hd : d = q <;> simp_all [doubled]
          obtain ⟨rfl, rfl⟩ := ih hsame.2
          exact ⟨by rw [hsame.1], rfl⟩
