import Mathlib.Data.List.Nodup

/-!
# Links one level deep

A table of links gives every key at most one key it is linked to. The links are flat where no
key that is linked to has a link of its own. They stay flat when one key is merged into
another that has no link, provided that those linked to the first come along, and when a link
is cut, a key is added or keys are removed.
-/

section Links

variable {ι : Type} {links : List (ι × Option ι)} {a k : ι}

/-- Every key has one row, none is linked to itself, and those that are linked to have no
link. -/
structure Flat (links : List (ι × Option ι)) : Prop where
  unique : (links.map Prod.fst).Nodup
  away : ∀ row ∈ links, row.2 ≠ some row.1
  flat : ∀ row ∈ links, ∀ kept ∈ links, row.2 = some kept.1 → kept.2 = none

/-- `a` and those linked to it are linked to `k`. -/
def mergeLink [DecidableEq ι] (a k : ι) (row : ι × Option ι) : ι × Option ι :=
  if row.1 = a ∨ row.2 = some a then (row.1, some k) else row

/-- `a` is linked to nothing. -/
def cutLink [DecidableEq ι] (a : ι) (row : ι × Option ι) : ι × Option ι :=
  if row.1 = a then (row.1, none) else row

/-- The rows that are left without some keys, with the links to these cut. -/
def dropLinks (gone : ι → Bool) (links : List (ι × Option ι)) : List (ι × Option ι) :=
  (links.filter fun row => !gone row.1).map fun row => (row.1, row.2.filter fun id => !gone id)

section Rows

variable [DecidableEq ι] (a k : ι) (row : ι × Option ι)

@[simp] theorem mergeLink_fst : (mergeLink a k row).1 = row.1 := by
  unfold mergeLink
  split <;> rfl

@[simp] theorem cutLink_fst : (cutLink a row).1 = row.1 := by
  unfold cutLink
  split <;> rfl

theorem mergeLink_snd : (mergeLink a k row).2 = row.2 ∨ (mergeLink a k row).2 = some k := by
  unfold mergeLink
  split
  · exact Or.inr rfl
  · exact Or.inl rfl

theorem cutLink_snd : (cutLink a row).2 = row.2 ∨ (cutLink a row).2 = none := by
  unfold cutLink
  split
  · exact Or.inr rfl
  · exact Or.inl rfl

end Rows

theorem Flat.nil : Flat ([] : List (ι × Option ι)) :=
  ⟨List.nodup_nil, by simp, by simp⟩

theorem Flat.eq_of_key (h : Flat links) {row row' : ι × Option ι} (hrow : row ∈ links)
    (hrow' : row' ∈ links) (hkey : row.1 = row'.1) : row = row' :=
  List.inj_on_of_nodup_map h.unique hrow hrow' hkey

/-- A change that keeps the keys and only ever cuts links keeps them flat. -/
theorem Flat.map_of_cut (h : Flat links) {f : ι × Option ι → ι × Option ι}
    (hkey : ∀ row, (f row).1 = row.1) (hcut : ∀ row, (f row).2 = row.2 ∨ (f row).2 = none) :
    Flat (links.map f) where
  unique := by
    have hkeys : Prod.fst ∘ f = (Prod.fst : ι × Option ι → ι) := funext hkey
    rw [List.map_map, hkeys]
    exact h.unique
  away := by
    rw [List.forall_mem_map]
    intro row hrow hself
    rcases hcut row with hsame | hnone
    · exact h.away row hrow (by rw [← hsame, hself, hkey])
    · rw [hnone] at hself
      cases hself
  flat := by
    rw [List.forall_mem_map]
    intro row hrow
    rw [List.forall_mem_map]
    intro kept hkept hlink
    rcases hcut row with hsame | hnone
    · have hroot := h.flat row hrow kept hkept (by rw [← hsame, hlink, hkey])
      rcases hcut kept with hsame' | hnone'
      · rw [hsame', hroot]
      · exact hnone'
    · rw [hnone] at hlink
      cases hlink

theorem Flat.cut [DecidableEq ι] (h : Flat links) : Flat (links.map (cutLink a)) :=
  h.map_of_cut (cutLink_fst a) (cutLink_snd a)

theorem Flat.drop (h : Flat links) (gone : ι → Bool) : Flat (dropLinks gone links) := by
  have hrest : Flat (links.filter fun row => !gone row.1) :=
    ⟨h.unique.sublist (List.filter_sublist.map _),
      fun row hrow => h.away row (List.mem_of_mem_filter hrow),
      fun row hrow kept hkept => h.flat row (List.mem_of_mem_filter hrow) kept
        (List.mem_of_mem_filter hkept)⟩
  refine hrest.map_of_cut (fun _ => rfl) fun row => ?_
  rcases row with ⟨id, _ | link⟩
  · exact Or.inr rfl
  · by_cases hgone : gone link = true
    · exact Or.inr (by simp [hgone])
    · exact Or.inl (by simp [hgone])

theorem Flat.add (h : Flat links) (hnew : ∀ row ∈ links, row.1 ≠ a) :
    Flat (links ++ [(a, none)]) where
  unique := by
    rw [List.map_append, List.nodup_append]
    refine ⟨h.unique, List.nodup_singleton _, fun id hid id' hid' hsame => ?_⟩
    obtain ⟨row, hrow, rfl⟩ := List.mem_map.mp hid
    exact hnew row hrow (hsame.trans (List.mem_singleton.mp hid'))
  away := List.forall_mem_append.mpr ⟨h.away, by simp⟩
  flat := by
    intro row hrow kept hkept hlink
    rcases List.mem_append.mp hrow with hrow | hrow
    · rcases List.mem_append.mp hkept with hkept | hkept
      · exact h.flat row hrow kept hkept hlink
      · rw [List.mem_singleton.mp hkept]
    · rw [List.mem_singleton.mp hrow] at hlink
      cases hlink

/-- **Merging keeps links flat.** The root `k` has no link, so it is not among the rows that
change; and nothing is linked to `a` any more. -/
theorem Flat.merge [DecidableEq ι] (h : Flat links) (hk : (k, none) ∈ links) (hne : k ≠ a) :
    Flat (links.map (mergeLink a k)) where
  unique := by
    have hkeys : Prod.fst ∘ mergeLink a k = (Prod.fst : ι × Option ι → ι) :=
      funext (mergeLink_fst a k)
    rw [List.map_map, hkeys]
    exact h.unique
  away := by
    rw [List.forall_mem_map]
    intro row hrow
    unfold mergeLink
    split
    · intro hself
      have hkey : (k, none) = row := h.eq_of_key hk hrow (Option.some_inj.mp hself)
      subst hkey
      next hmerged => simp [hne] at hmerged
    · exact h.away row hrow
  flat := by
    rw [List.forall_mem_map]
    intro row hrow
    rw [List.forall_mem_map]
    intro kept hkept hlink
    rw [mergeLink_fst] at hlink
    have hroot : kept.1 ≠ a ∧ kept.2 = none := by
      unfold mergeLink at hlink
      split at hlink
      · have hsame : (k, none) = kept := h.eq_of_key hk hkept (Option.some_inj.mp hlink)
        subst hsame
        exact ⟨hne, rfl⟩
      · next hrest =>
          refine ⟨fun hkept' => hrest (Or.inr (hkept' ▸ hlink)), h.flat row hrow kept hkept hlink⟩
    rw [mergeLink, if_neg (by simp [hroot])]
    exact hroot.2

end Links
