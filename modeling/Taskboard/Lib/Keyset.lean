import Mathlib.Data.List.Sort
import Mathlib.Data.String.Basic

/-!
# Keyset paging

Rows stand in the order of their keys, and a page goes on behind the key of the last row that the
page before it looked at.

* `sortByKey_filter`: rows that are selected and then sorted are the sorted rows, selected.
* `filter_behind`: the rows behind the key of a row are the rest of the list.
* `follow_pages`: where each page shows what it lets through of a stretch of rows, and tells where
  that stretch ended, following the pages shows all rows that are let through, each once and in
  order.
-/

instance isStrictTotalOrder_lex {α β : Type} {r : α → α → Prop} {s : β → β → Prop} [IsStrictTotalOrder α r]
    [IsStrictTotalOrder β s] : IsStrictTotalOrder (α × β) (Prod.Lex r s) where

/-- Texts in the order of their characters. -/
instance isStrictTotalOrder_text : IsStrictTotalOrder String fun a b => decide (a < b) = true := by
  simpa using (inferInstance : IsStrictTotalOrder String (· < ·))

/-- The head of a sorted list is the row with the least key. The relation need only tell the rows
apart as the keys do. -/
theorem head?_insertionSort_iff {ρ κ : Type} [LinearOrder κ] {key : ρ → κ} {r : ρ → ρ → Prop}
    [DecidableRel r] {rows : List ρ} (hr : rows.Pairwise fun a b => r a b ↔ key a < key b)
    (hkeys : (rows.map key).Nodup) {row : ρ} :
    (rows.insertionSort r).head? = some row ↔ row ∈ rows ∧ ∀ other ∈ rows, key row ≤ key other := by
  induction rows generalizing row with
  | nil => simp
  | cons first rest ih =>
      obtain ⟨hfirst, hrest⟩ := List.pairwise_cons.mp hr
      obtain ⟨hfresh, hkeys⟩ := List.nodup_cons.mp hkeys
      have hne {other : ρ} (hother : other ∈ rest) : key first ≠ key other :=
        fun hsame => hfresh (hsame ▸ List.mem_map_of_mem hother)
      have hleast (least : ρ) : (rest.insertionSort r).head? = some least ↔ _ := ih hrest hkeys
      rw [List.insertionSort_cons, List.forall_mem_cons, List.mem_cons]
      cases hsorted : rest.insertionSort r with
      | nil =>
          obtain rfl : rest = [] := List.length_eq_zero_iff.mp (by
            rw [← List.length_insertionSort r rest, hsorted, List.length_nil])
          simp only [List.orderedInsert_nil, List.head?_cons, Option.some.injEq, List.not_mem_nil,
            or_false, false_implies, implies_true, and_true]
          constructor
          · rintro rfl
            exact ⟨rfl, le_rfl⟩
          · exact fun h => h.1.symm
      | cons least others =>
          simp only [hsorted, List.head?_cons] at hleast
          obtain ⟨hmem, hmin⟩ := (hleast least).mp rfl
          rw [List.orderedInsert_cons]
          split
          · -- The first row comes before all others.
            rename_i hbefore
            have hlt : key first < key least := (hfirst least hmem).mp hbefore
            rw [List.head?_cons, Option.some.injEq]
            constructor
            · rintro rfl
              exact ⟨Or.inl rfl, le_rfl, fun other hother => (hlt.trans_le (hmin other hother)).le⟩
            · rintro ⟨rfl | hrow, hle, -⟩
              · rfl
              · exact absurd (hlt.trans_le (hmin row hrow)) hle.not_gt
          · rename_i hafter
            have hlt : key least < key first :=
              lt_of_le_of_ne (not_lt.mp fun h => hafter ((hfirst least hmem).mpr h)) (hne hmem).symm
            rw [List.head?_cons, hleast]
            constructor
            · rintro ⟨hrow, hmin'⟩
              exact ⟨Or.inr hrow, (hmin' least hmem).trans hlt.le, hmin'⟩
            · rintro ⟨rfl | hrow, -, hmin'⟩
              · exact absurd (hmin' least hmem) hlt.not_ge
              · exact ⟨hrow, hmin'⟩

section Sorting

variable {ρ κ : Type} {lt : κ → κ → Bool} {key : ρ → κ} {rows : List ρ}

variable (lt key) in
/-- The rows in the order of their keys. -/
def sortByKey (rows : List ρ) : List ρ :=
  rows.insertionSort fun a b => lt (key b) (key a) = false

theorem perm_sortByKey (rows : List ρ) : (sortByKey lt key rows).Perm rows :=
  List.perm_insertionSort _ rows

theorem mem_sortByKey {r : ρ} : r ∈ sortByKey lt key rows ↔ r ∈ rows :=
  List.mem_insertionSort _

variable [IsStrictTotalOrder κ fun a b => lt a b = true]

theorem pairwise_sortByKey (hkeys : (rows.map key).Nodup) :
    (sortByKey lt key rows).Pairwise fun a b => lt (key a) (key b) = true := by
  let le (a b : ρ) : Prop := lt (key b) (key a) = false
  have hless {a b : κ} : lt a b = false ↔ ¬ lt a b = true := Bool.eq_false_iff
  have htotal : Std.Total le := by
    refine ⟨fun a b => ?_⟩
    by_cases hab : lt (key b) (key a) = true
    · exact Or.inr (hless.mpr (asymm_of (fun a b => lt a b = true) hab))
    · exact Or.inl (hless.mpr hab)
  have htrans : IsTrans ρ le := by
    refine ⟨fun a b c hab hbc => hless.mpr fun hca => ?_⟩
    rcases trichotomous_of (fun a b => lt a b = true) (key a) (key b) with h | h | h
    · exact hless.mp hbc (trans_of (fun a b => lt a b = true) hca h)
    · rw [h] at hca
      exact hless.mp hbc hca
    · exact hless.mp hab h
  have hsorted : (sortByKey lt key rows).Pairwise le := List.pairwise_insertionSort le rows
  have hdistinct : (sortByKey lt key rows).Pairwise fun a b => key a ≠ key b := by
    rw [← List.pairwise_map]
    exact ((perm_sortByKey rows).map key).nodup_iff.mpr hkeys
  refine (hsorted.and hdistinct).imp fun {a b} ⟨hle, hne⟩ => ?_
  rcases trichotomous_of (fun a b => lt a b = true) (key a) (key b) with h | h | h
  · exact h
  · exact absurd h hne
  · exact absurd h (hless.mp hle)

theorem sortByKey_filter (hkeys : (rows.map key).Nodup) (p : ρ → Bool) :
    sortByKey lt key (rows.filter p) = (sortByKey lt key rows).filter p := by
  have hkept : ((rows.filter p).map key).Nodup :=
    hkeys.sublist (List.filter_sublist.map key)
  refine List.Perm.eq_of_pairwise ?_ (pairwise_sortByKey hkept)
    ((pairwise_sortByKey hkeys).filter p) ?_
  · intro a b _ _ hab hba
    exact absurd hba (asymm_of (fun a b => lt a b = true) hab)
  · exact (perm_sortByKey _).trans ((perm_sortByKey rows).filter p).symm

/-- The rows behind the key of a row are those that come after it. -/
theorem filter_behind {front back : List ρ} {last : ρ}
    (h : (front ++ last :: back).Pairwise fun a b => lt (key a) (key b) = true) :
    (front ++ last :: back).filter (fun row => lt (key last) (key row)) = back := by
  obtain ⟨-, hrest, hfront⟩ := List.pairwise_append.mp h
  have hback := (List.pairwise_cons.mp hrest).1
  have hself : ¬ lt (key last) (key last) = true := irrefl_of (fun a b => lt a b = true) _
  have hdropped : front.filter (fun row => lt (key last) (key row)) = [] := by
    rw [List.filter_eq_nil_iff]
    intro row hrow
    exact asymm_of (fun a b => lt a b = true) (hfront row hrow last List.mem_cons_self)
  have hkept : (last :: back).filter (fun row => lt (key last) (key row)) = back := by
    simp only [List.filter_cons, hself]
    exact List.filter_eq_self.mpr hback
  rw [List.filter_append, hdropped, hkept, List.nil_append]

/-- A row is among the first `n` exactly when fewer than `n` have a smaller key. -/
theorem mem_take_sortByKey (hkeys : (rows.map key).Nodup) {row : ρ}
    (hrow : row ∈ rows) (n : Nat) :
    row ∈ (sortByKey lt key rows).take n ↔
      (rows.filter fun other => lt (key other) (key row)).length < n := by
  have hsorted : (sortByKey lt key rows).Pairwise fun a b => lt (key a) (key b) = true :=
    pairwise_sortByKey hkeys
  have hperm : (sortByKey lt key rows).Perm rows := perm_sortByKey rows
  have hmem : row ∈ sortByKey lt key rows := mem_sortByKey.mpr hrow
  rw [← (hperm.filter _).length_eq]
  obtain ⟨front, back, hsplit⟩ := List.append_of_mem hmem
  rw [hsplit] at hsorted ⊢
  obtain ⟨-, hrest, hfront⟩ := List.pairwise_append.mp hsorted
  have hself : ¬ lt (key row) (key row) = true := irrefl_of (fun a b => lt a b = true) _
  have hless : front.filter (fun other => lt (key other) (key row)) = front :=
    List.filter_eq_self.mpr fun other hother => hfront other hother row List.mem_cons_self
  have hback : (row :: back).filter (fun other => lt (key other) (key row)) = [] := by
    rw [List.filter_eq_nil_iff]
    intro other hother
    rcases List.mem_cons.mp hother with rfl | hother
    · exact hself
    · exact asymm_of (fun a b => lt a b = true) ((List.pairwise_cons.mp hrest).1 other hother)
  rw [List.filter_append, hless, hback, List.append_nil]
  constructor
  · intro htake
    by_contra hlong
    rw [List.take_append_of_le_length (Nat.le_of_not_lt hlong)] at htake
    exact hself (hfront row (List.mem_of_mem_take htake) row List.mem_cons_self)
  · intro hshort
    rw [List.take_append, List.mem_append]
    right
    rw [List.take_cons (by omega)]
    exact List.mem_cons_self

end Sorting

section Follow

variable {ρ β γ : Type}

/-- The pages from a cursor on, followed until one has no cursor behind it; `none` where a page is
refused or the fuel does not last. -/
def follow (fetch : γ → Option (List β × Option γ)) : Nat → γ → Option (List β)
  | 0, _ => none
  | fuel + 1, cursor =>
      match fetch cursor with
      | none => none
      | some (page, none) => some page
      | some (page, some next) => (follow fetch fuel next).map (page ++ ·)

/-- A page that stands behind the rows of `front`: it shows what is let through of a stretch of
the rows that come next, and either that was the last one or the next page stands behind it. -/
def PageOf (emit : ρ → Option β) (stands : List ρ → γ → Prop) (front back : List ρ)
    (page : List β) (next : Option γ) : Prop :=
  ∃ seen rest, back = seen ++ rest ∧ page = seen.filterMap emit ∧
    (next = none ∧ rest = [] ∨ ∃ cursor, next = some cursor ∧ seen ≠ [] ∧
      stands (front ++ seen) cursor)

/-- **Following the pages** shows every row that is let through, each once and in order. -/
theorem follow_pages {fetch : γ → Option (List β × Option γ)} {emit : ρ → Option β}
    (stands : List ρ → γ → Prop) {rows : List ρ}
    (hfetch : ∀ front back cursor, front ++ back = rows → stands front cursor →
      ∃ page next, fetch cursor = some (page, next) ∧ PageOf emit stands front back page next) :
    ∀ fuel front back cursor, front ++ back = rows → stands front cursor → back.length < fuel →
      follow fetch fuel cursor = some (back.filterMap emit) := by
  intro fuel
  induction fuel with
  | zero =>
      intro front back cursor _ _ hfuel
      exact absurd hfuel (Nat.not_lt_zero _)
  | succ fuel ih =>
      intro front back cursor hrows hstands hfuel
      obtain ⟨page, next, hpage, seen, rest, rfl, rfl, hnext⟩ :=
        hfetch front back cursor hrows hstands
      rcases hnext with ⟨rfl, rfl⟩ | ⟨later, rfl, hseen, hlater⟩
      · simp only [follow, hpage, List.append_nil]
      · have hshorter : rest.length < fuel := by
          have hpos := List.length_pos_iff.mpr hseen
          rw [List.length_append] at hfuel
          omega
        have hrest := ih (front ++ seen) rest later (by rw [← hrows, List.append_assoc]) hlater
          hshorter
        simp only [follow, hpage, hrest, Option.map_some, List.filterMap_append]

end Follow
