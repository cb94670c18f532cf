import Mathlib.Data.List.Sort

/-!
# Texts put together with a separator

Fields that do not contain the separator can be read back from the text they are joined to, as
long as there is at least one (`intercalate_inj`). Sorting forgets nothing but the order
(`insertionSort_eq_iff`).
-/

section Separated

variable {sep : Char} {fields fields' : List String}

/-- Joined fields are read back by splitting the text at the separator. -/
theorem splitOn_toList_intercalate (hne : fields ≠ []) (h : ∀ field ∈ fields, sep ∉ field.toList) :
    ((String.singleton sep).intercalate fields).toList.splitOn sep = fields.map String.toList := by
  rw [String.toList_intercalate, String.toList_singleton]
  apply List.splitOn_intercalate
  · intro chars hchars
    obtain ⟨field, hfield, rfl⟩ := List.mem_map.mp hchars
    exact h field hfield
  · simpa using hne

theorem intercalate_inj (hne : fields ≠ []) (hne' : fields' ≠ [])
    (h : ∀ field ∈ fields, sep ∉ field.toList) (h' : ∀ field ∈ fields', sep ∉ field.toList)
    (hsame : (String.singleton sep).intercalate fields =
      (String.singleton sep).intercalate fields') : fields = fields' := by
  have hmap : fields.map String.toList = fields'.map String.toList := by
    rw [← splitOn_toList_intercalate hne h, hsame, splitOn_toList_intercalate hne' h']
  exact List.map_injective_iff.mpr (fun _ _ => String.toList_inj.mp) hmap

/-- Where no field is empty, even their number need not be known. -/
theorem intercalate_inj_of_ne_empty
    (h : ∀ field ∈ fields, field ≠ "" ∧ sep ∉ field.toList)
    (h' : ∀ field ∈ fields', field ≠ "" ∧ sep ∉ field.toList)
    (hsame : (String.singleton sep).intercalate fields =
      (String.singleton sep).intercalate fields') : fields = fields' := by
  -- the empty text is that of no field, or of an empty one
  have hnil {fields : List String} (hfields : ∀ field ∈ fields, field ≠ "" ∧ sep ∉ field.toList)
      (hempty : (String.singleton sep).intercalate fields = "") : fields = [] := by
    by_contra hne
    have hone : fields = [""] := by
      apply intercalate_inj hne (by simp) (fun field hfield => (hfields field hfield).2)
      · simp
      · rw [hempty]
        rfl
    exact (hfields "" (by simp [hone])).1 rfl
  by_cases hne : fields = []
  · subst hne
    exact (hnil h' hsame.symm).symm
  · by_cases hne' : fields' = []
    · subst hne'
      exact hnil h hsame
    · exact intercalate_inj hne hne' (fun field hfield => (h field hfield).2)
        (fun field hfield => (h' field hfield).2) hsame

/-- A character of a joined text is the separator or in one of the fields. -/
theorem mem_toList_intercalate {c : Char}
    (h : c ∈ ((String.singleton sep).intercalate fields).toList) :
    c = sep ∨ ∃ field ∈ fields, c ∈ field.toList := by
  induction fields with
  | nil => simp at h
  | cons field rest ih =>
      cases rest with
      | nil =>
          right
          exact ⟨field, List.mem_cons_self, by simpa using h⟩
      | cons next others =>
          rw [String.intercalate_cons_cons] at h
          simp only [String.toList_append, String.toList_singleton, List.mem_append,
            List.mem_singleton] at h
          rcases h with (hfield | hsep) | hrest
          · exact Or.inr ⟨field, List.mem_cons_self, hfield⟩
          · exact Or.inl hsep
          · rcases ih hrest with hsep | ⟨other, hother, hc⟩
            · exact Or.inl hsep
            · exact Or.inr ⟨other, List.mem_cons_of_mem _ hother, hc⟩

end Separated

/-- Two lists sort to the same one exactly when they hold the same elements, each as often. -/
theorem insertionSort_eq_iff {α : Type} {r : α → α → Prop} [DecidableRel r] [Std.Total r]
    [IsTrans α r] [Std.Antisymm r] {l l' : List α} :
    l.insertionSort r = l'.insertionSort r ↔ l.Perm l' := by
  constructor
  · intro hsame
    exact (List.perm_insertionSort r l).symm.trans (hsame ▸ List.perm_insertionSort r l')
  · intro hperm
    have hsorted : (l.insertionSort r).Perm (l'.insertionSort r) :=
      (List.perm_insertionSort r l).trans (hperm.trans (List.perm_insertionSort r l').symm)
    exact hsorted.eq_of_pairwise' (List.pairwise_insertionSort r l) (List.pairwise_insertionSort r l')
