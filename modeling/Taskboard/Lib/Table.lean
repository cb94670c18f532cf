import Mathlib.Data.List.Forall2
import Mathlib.Data.List.Nodup
import Taskboard.Lib.Transaction

/-!
# Tables and the statements that write them

A table is a list of rows inside the database, each with a key. The statements are the
ones of SQL: `UPDATE ... WHERE`, `DELETE ... WHERE`, `INSERT`, and `INSERT ... ON CONFLICT
DO NOTHING`.

A statement decides which rows it writes from the state it executes in and carries their
keys; its change only touches rows with those keys. Run alone this is the plain update
(`run_updateWhere_ok` and its companions); among other transactions it is what keeps a
statement from writing rows it never saw.

`Evolves` describes what may happen to a table over any number of statements: rows change
in place, and further rows come behind them.
-/

/-- Apply `f` to the rows that satisfy `p`. -/
def mapWhere {ρ : Type} (p : ρ → Bool) (f : ρ → ρ) (rows : List ρ) : List ρ :=
  rows.map fun r => if p r then f r else r

section MapWhere

variable {ρ : Type} {p q : ρ → Bool} {f : ρ → ρ} {rows : List ρ} {r : ρ}

theorem mem_mapWhere :
    r ∈ mapWhere p f rows ↔ ∃ q ∈ rows, r = if p q then f q else q := by
  simp only [mapWhere, List.mem_map, eq_comm]

/-- Where no row matches, nothing changes. -/
theorem mapWhere_of_none (h : ∀ r ∈ rows, p r = false) : mapWhere p f rows = rows := by
  calc mapWhere p f rows
      = rows.map id := List.map_congr_left fun r hr => by simp [h r hr]
    _ = rows := List.map_id rows

theorem mapWhere_congr (h : ∀ r ∈ rows, p r = q r) :
    mapWhere p f rows = mapWhere q f rows :=
  List.map_congr_left fun r hr => by rw [h r hr]

/-- An update that keeps what a selection looks at commutes with it. -/
theorem filter_mapWhere (hq : ∀ r, q (f r) = q r) :
    (mapWhere p f rows).filter q = mapWhere p f (rows.filter q) := by
  simp only [mapWhere, List.filter_map]
  congr 1
  apply List.filter_congr
  intro r _
  simp only [Function.comp_apply]
  split <;> simp [hq]

/-- An update that keeps what is read of a row. -/
theorem map_mapWhere {β : Type} {g : ρ → β} (hg : ∀ r, g (f r) = g r) :
    (mapWhere p f rows).map g = rows.map g := by
  unfold mapWhere
  rw [List.map_map]
  apply List.map_congr_left
  intro r _
  simp only [Function.comp_apply]
  split
  · exact hg r
  · rfl

/-- An update that takes rows out of a selection. -/
theorem filter_mapWhere_of_out (hq : ∀ r, p r = true → q (f r) = false) :
    (mapWhere p f rows).filter q = rows.filter fun r => q r && !p r := by
  induction rows with
  | nil => rfl
  | cons r rows ih =>
      have hcons : mapWhere p f (r :: rows) = (if p r then f r else r) :: mapWhere p f rows := rfl
      rw [hcons, List.filter_cons, List.filter_cons, ih]
      by_cases hp : p r = true
      · simp [hp, hq r hp]
      · simp [hp]

/-- An update that keeps what a lookup looks at commutes with the lookup. -/
theorem find?_mapWhere (hq : ∀ r, q (f r) = q r) :
    (mapWhere p f rows).find? q = (rows.find? q).map fun r => if p r then f r else r := by
  induction rows with
  | nil => rfl
  | cons r rows ih =>
      have hr : q (if p r then f r else r) = q r := by split <;> simp [hq]
      cases hqr : q r with
      | true => simp [mapWhere, hr, hqr]
      | false => simpa [mapWhere, hr, hqr] using ih

/-- Two rows that a condition selects are one, where it selects one. -/
theorem eq_of_filter_length_one {a b : ρ}
    (h : (rows.filter p).length = 1) (ha : a ∈ rows) (hpa : p a = true) (hb : b ∈ rows)
    (hpb : p b = true) : a = b := by
  obtain ⟨c, hc⟩ := List.length_eq_one_iff.mp h
  have hac : a ∈ rows.filter p := List.mem_filter.mpr ⟨ha, hpa⟩
  have hbc : b ∈ rows.filter p := List.mem_filter.mpr ⟨hb, hpb⟩
  rw [hc, List.mem_singleton] at hac hbc
  exact hac.trans hbc.symm

/-- The first row that satisfies a condition is also the first to satisfy a stronger one, if it
does. -/
theorem find?_of_imp (h : rows.find? p = some r) (hq : q r = true)
    (himp : ∀ b, q b = true → p b = true) : rows.find? q = some r := by
  obtain ⟨-, front, back, rfl, hfront⟩ := List.find?_eq_some_iff_append.mp h
  refine List.find?_eq_some_iff_append.mpr ⟨hq, front, back, rfl, ?_⟩
  intro b hb
  have hnot := hfront b hb
  cases hqb : q b with
  | false => rfl
  | true => simp [himp b hqb] at hnot

theorem nodup_of_length_le_one (h : rows.length ≤ 1) : rows.Nodup := by
  cases rows with
  | nil => exact List.nodup_nil
  | cons r rows =>
      obtain rfl : rows = [] := by simpa using h
      simp

theorem length_le_one_of_nodup (hnodup : rows.Nodup) (hone : ∀ a ∈ rows, ∀ b ∈ rows, a = b) :
    rows.length ≤ 1 := by
  match rows with
  | [] => simp
  | [_] => simp
  | a :: b :: rest =>
      obtain ⟨hfirst, -⟩ := List.nodup_cons.mp hnodup
      obtain rfl : a = b := hone a (by simp) b (by simp)
      exact absurd (by simp) hfirst

end MapWhere

/-- Where rows have keys of their own, a selection by the key of a row hits this row alone. -/
theorem length_filter_of_unique {ρ κ : Type} {key : ρ → κ} {rows : List ρ} {row : ρ}
    {p : ρ → Bool} (hkeys : (rows.map key).Nodup) (hmem : row ∈ rows) (hrow : p row = true)
    (hp : ∀ r, p r = true → key r = key row) : (rows.filter p).length = 1 := by
  have hnodup : (rows.filter p).Nodup := (List.Nodup.of_map key hkeys).filter p
  have hall : ∀ r ∈ rows.filter p, r = row := by
    intro r hr
    obtain ⟨hr, hhit⟩ := List.mem_filter.mp hr
    exact List.inj_on_of_nodup_map hkeys hr hmem (hp r hhit)
  have hpos := List.length_pos_of_mem (List.mem_filter.mpr ⟨hmem, hrow⟩)
  rw [List.eq_replicate_of_mem hall, List.nodup_replicate] at hnodup
  omega


/-- Rows change in place as `keep` allows, and rows that satisfy `fresh` come behind them. -/
def Evolves {ρ : Type} (keep : ρ → ρ → Prop) (fresh : ρ → Prop) (rows rows' : List ρ) : Prop :=
  ∃ kept added, rows' = kept ++ added ∧ List.Forall₂ keep rows kept ∧ ∀ r ∈ added, fresh r

section Evolves

variable {ρ : Type} {keep keep' : ρ → ρ → Prop} {fresh : ρ → Prop} {rows rows' rows'' : List ρ}
  {p q : ρ → Bool} {f : ρ → ρ} {r : ρ}

theorem forall₂_mapWhere [Std.Refl keep] (h : ∀ r ∈ rows, p r = true → keep r (f r)) :
    List.Forall₂ keep rows (mapWhere p f rows) := by
  rw [mapWhere, List.forall₂_map_right_iff, List.forall₂_same]
  intro r hr
  split
  · exact h r hr ‹_›
  · exact refl_of keep r

theorem Evolves.of_forall₂ (h : List.Forall₂ keep rows rows') : Evolves keep fresh rows rows' :=
  ⟨rows', [], by simp, h, by simp⟩

theorem evolves_append [Std.Refl keep] (hr : fresh r) :
    Evolves keep fresh rows (rows ++ [r]) :=
  ⟨rows, [r], rfl, List.forall₂_refl rows, by simpa using hr⟩

/-- Two changes in a row, row by row. -/
theorem forall₂_comp (h : List.Forall₂ keep rows rows')
    (h' : List.Forall₂ keep' rows' rows'') :
    List.Forall₂ (fun r r'' => ∃ r', keep r r' ∧ keep' r' r'') rows rows'' := by
  induction h generalizing rows'' with
  | nil =>
      cases h' with
      | nil => exact .nil
  | cons hab _ ih =>
      cases h' with
      | cons hbc hrest => exact .cons ⟨_, hab, hbc⟩ (ih hrest)

theorem forall₂_trans [IsTrans ρ keep] (h : List.Forall₂ keep rows rows')
    (h' : List.Forall₂ keep rows' rows'') : List.Forall₂ keep rows rows'' :=
  (forall₂_comp h h').imp fun _ _ ⟨_, hab, hbc⟩ => trans_of keep hab hbc

theorem forall₂_imp_mem (h : List.Forall₂ keep rows rows')
    (himp : ∀ r ∈ rows, ∀ r', keep r r' → keep' r r') : List.Forall₂ keep' rows rows' := by
  induction h with
  | nil => exact .nil
  | cons hab _ ih =>
      exact .cons (himp _ List.mem_cons_self _ hab)
        (ih fun r hr => himp r (List.mem_cons_of_mem _ hr))

/-- Two things about one change, row by row. -/
theorem forall₂_both (h : List.Forall₂ keep rows rows')
    (h' : List.Forall₂ keep' rows rows') :
    List.Forall₂ (fun r r' => keep r r' ∧ keep' r r') rows rows' := by
  induction h with
  | nil => exact .nil
  | cons hab _ ih =>
      cases h' with
      | cons hab' hrest => exact .cons ⟨hab, hab'⟩ (ih hrest)

/-- Where every row that `q` selects afterwards comes from one that `p` selects, there are no more
of them. -/
theorem length_filter_le_of_forall₂ (h : List.Forall₂ keep rows rows')
    (himp : ∀ r r', keep r r' → q r' = true → p r = true) :
    (rows'.filter q).length ≤ (rows.filter p).length := by
  induction h with
  | nil => exact Nat.le_refl _
  | @cons r r' _ _ hab _ ih =>
      have hhead := himp r r' hab
      cases hq : q r' with
      | false =>
          rw [List.filter_cons_of_neg (by simp [hq])]
          exact Nat.le_trans ih (List.Sublist.length_le (List.Sublist.filter p (List.sublist_cons_self _ _)))
      | true =>
          rw [List.filter_cons_of_pos hq, List.filter_cons_of_pos (hhead hq)]
          simpa using ih

theorem length_filter_or_le (rows : List ρ) :
    (rows.filter fun r => p r || q r).length ≤ (rows.filter p).length + (rows.filter q).length := by
  induction rows with
  | nil => simp
  | cons r rows ih => cases hp : p r <;> cases hq : q r <;> simp [hp, hq] <;> omega

/-- A row after the change has a row it comes from. -/
theorem exists_of_forall₂ (h : List.Forall₂ keep rows rows') {r' : ρ} (hr : r' ∈ rows') :
    ∃ r ∈ rows, keep r r' := by
  induction h with
  | nil => simp at hr
  | @cons a b as bs hab _ ih =>
      rcases List.mem_cons.mp hr with rfl | hr
      · exact ⟨a, List.mem_cons_self, hab⟩
      · obtain ⟨r, hmem, hk⟩ := ih hr
        exact ⟨r, List.mem_cons_of_mem _ hmem, hk⟩

theorem exists_next_of_forall₂ (h : List.Forall₂ keep rows rows') (hr : r ∈ rows) :
    ∃ r' ∈ rows', keep r r' :=
  exists_of_forall₂ (List.Forall₂.flip h) hr

/-- What every row keeps, the rows keep together. -/
theorem map_eq_of_forall₂ {κ : Type} {key : ρ → κ} (hkey : ∀ r r', keep r r' → key r' = key r)
    (h : List.Forall₂ keep rows rows') : rows'.map key = rows.map key := by
  induction h with
  | nil => rfl
  | cons hab _ ih => rw [List.map_cons, List.map_cons, hkey _ _ hab, ih]

/-- Changes compose where a new row stays one that `fresh` describes. -/
theorem Evolves.trans [IsTrans ρ keep] (hstable : ∀ r r', keep r r' → fresh r → fresh r')
    (h : Evolves keep fresh rows rows')
    (h' : Evolves keep fresh rows' rows'') : Evolves keep fresh rows rows'' := by
  obtain ⟨kept, added, rfl, hkept, hadded⟩ := h
  obtain ⟨kept', added', rfl, hkept', hadded'⟩ := h'
  have hfront := List.forall₂_take kept.length hkept'
  have hback := List.forall₂_drop kept.length hkept'
  rw [List.take_left] at hfront
  rw [List.drop_left] at hback
  refine ⟨kept'.take kept.length, kept'.drop kept.length ++ added', ?_,
    forall₂_trans hkept hfront, ?_⟩
  · rw [← List.append_assoc, List.take_append_drop]
  intro r hr
  rcases List.mem_append.mp hr with hr | hr
  · obtain ⟨r0, hr0, hk⟩ := exists_of_forall₂ hback hr
    exact hstable r0 r hk (hadded r0 hr0)
  · exact hadded' r hr

instance refl_forall₂ [Std.Refl keep] : Std.Refl (List.Forall₂ keep) where
  refl rows := List.forall₂_refl rows

instance isPreorder_forall₂ [IsPreorder ρ keep] : IsPreorder (List ρ) (List.Forall₂ keep) where
  trans _ _ _ h h' := forall₂_trans h h'

instance [IsPreorder ρ keep] : IsPreorder (List ρ) (Evolves keep fun _ => True) where
  refl rows := .of_forall₂ (List.forall₂_refl rows)
  trans _ _ _ h h' := h.trans (fun _ _ _ hr => hr) h'

instance : IsPreorder (List ρ) (Evolves Eq fresh) where
  refl rows := .of_forall₂ (List.forall₂_refl rows)
  trans _ _ _ h h' := h.trans (fun _ _ hr hf => hr ▸ hf) h'

/-- A row that a lookup found is still found, as it has become. -/
theorem Evolves.find? (h : Evolves keep fresh rows rows')
    (hq : ∀ r r', keep r r' → q r' = q r) (hr : rows.find? q = some r) :
    ∃ r', rows'.find? q = some r' ∧ keep r r' := by
  obtain ⟨kept, added, rfl, hkept, -⟩ := h
  rw [List.find?_append]
  induction hkept with
  | nil => simp at hr
  | @cons a b as bs hab _ ih =>
      cases hqa : q a with
      | true =>
          simp only [List.find?_cons, hqa, Option.some.injEq] at hr
          exact ⟨b, by simp [hq a b hab, hqa], hr ▸ hab⟩
      | false =>
          obtain ⟨r', hr', hk⟩ := ih (by simpa [hqa] using hr)
          exact ⟨r', by simpa [List.find?_cons, hq a b hab, hqa] using hr', hk⟩

end Evolves

section Appends

variable {ρ κ : Type} {key : ρ → κ} {rows rows' : List ρ}

/-- Rows are only added, and unique keys stay unique. -/
def Appends (key : ρ → κ) (rows rows' : List ρ) : Prop :=
  rows <+: rows' ∧ ((rows.map key).Nodup → (rows'.map key).Nodup)

instance : IsPreorder (List ρ) (Appends key) where
  refl _ := ⟨List.prefix_rfl, fun h => h⟩
  trans _ _ _ h h' := ⟨h.1.trans h'.1, fun hn => h'.2 (h.2 hn)⟩

theorem appends_row {row : ρ} (hfresh : ∀ r ∈ rows, key r ≠ key row) :
    Appends key rows (rows ++ [row]) := by
  refine ⟨List.prefix_append _ _, fun hn => ?_⟩
  rw [List.map_append, List.map_singleton, List.nodup_append]
  refine ⟨hn, List.pairwise_singleton _ _, ?_⟩
  simpa using hfresh

/-- A row that a lookup found is still the one it finds. -/
theorem Appends.find? (h : Appends key rows rows') {q : ρ → Bool} {r : ρ}
    (hr : rows.find? q = some r) : rows'.find? q = some r := by
  obtain ⟨added, rfl⟩ := h.1
  rw [List.find?_append, hr, Option.some_or]

end Appends

instance isPreorder_true {α : Type} : IsPreorder α fun _ _ => True where
  refl _ := trivial
  trans _ _ _ _ _ := trivial

/-- A table of rows `ρ` in the database `σ`. What the database holds under a key is the rows
of the table that have the key, besides what other tables hold. -/
structure Table (σ κ ρ : Type) [DecidableEq κ] [Parts σ κ] where
  rows : σ → List ρ
  put : List ρ → σ → σ
  key : ρ → κ
  put_rows (s : σ) : put (rows s) s = s
  part_rows {k : κ} {s s' : σ} : part k s = part k s' →
    (rows s).filter (fun r => key r = k) = (rows s').filter fun r => key r = k
  part_put {k : κ} {rs rs' : List ρ} {s s' : σ} : part k s = part k s' →
    (rs.filter fun r => key r = k) = (rs'.filter fun r => key r = k) →
    part k (put rs s) = part k (put rs' s')

namespace Table

variable {σ κ ρ ε : Type} [DecidableEq κ] [Parts σ κ] {row : ρ} {holds : σ → Bool} {e : ε}
  {q conflict : ρ → Bool}

/-- Writing rows of a table leaves alone what is held under a key where they are the same. -/
theorem part_put_same (T : Table σ κ ρ) {k : κ} {rs : List ρ} {s : σ}
    (h : (rs.filter fun r => T.key r = k) = (T.rows s).filter fun r => T.key r = k) :
    part k (T.put rs s) = part k s := by
  calc part k (T.put rs s)
      = part k (T.put (T.rows s) s) := T.part_put rfl h
    _ = part k s := by rw [T.put_rows]

/-- Rows written over other rows of the table, all of them under `keys`. -/
def change (T : Table σ κ ρ) (keys : List κ) (g : List ρ → List ρ)
    (hfilter : ∀ k rs, (g rs).filter (fun r => T.key r = k) = g (rs.filter fun r => T.key r = k))
    (hkeys : ∀ rs, (∀ r ∈ rs, T.key r ∉ keys) → g rs = rs) : Write σ κ where
  rows := keys
  apply s := T.put (g (T.rows s)) s
  elsewhere s k hk := by
    apply T.part_put_same
    rw [hfilter]
    apply hkeys
    intro r hr hmem
    rw [List.mem_filter, decide_eq_true_eq] at hr
    exact hk (hr.2 ▸ hmem)
  within s s' k h := by
    apply T.part_put h
    rw [hfilter, hfilter, T.part_rows h]

section Change

variable {T : Table σ κ ρ} {keys : List κ} {g : List ρ → List ρ}
  {hfilter : ∀ k rs, (g rs).filter (fun r => T.key r = k) = g (rs.filter fun r => T.key r = k)}
  {hkeys : ∀ rs, (∀ r ∈ rs, T.key r ∉ keys) → g rs = rs}

@[simp] theorem change_rows : (T.change keys g hfilter hkeys).rows = keys := rfl

@[simp] theorem change_apply (s : σ) :
    (T.change keys g hfilter hkeys).apply s = T.put (g (T.rows s)) s := rfl

end Change

/-- A row written behind the others of the table. -/
def add (T : Table σ κ ρ) (row : ρ) : Write σ κ where
  rows := [T.key row]
  apply s := T.put (T.rows s ++ [row]) s
  elsewhere s k hk := by
    have hne : T.key row ≠ k := fun h => hk (List.mem_singleton.mpr h.symm)
    apply T.part_put_same
    rw [List.filter_append, List.filter_cons_of_neg (by simp [hne]), List.filter_nil,
      List.append_nil]
  within s s' k h := by
    apply T.part_put h
    rw [List.filter_append, List.filter_append, T.part_rows h]

@[simp] theorem add_rows (T : Table σ κ ρ) (row : ρ) : (T.add row).rows = [T.key row] := rfl

@[simp] theorem add_apply (T : Table σ κ ρ) (row : ρ) (s : σ) :
    (T.add row).apply s = T.put (T.rows s ++ [row]) s := rfl

/-- A row written in place of those under its key. -/
def replace (T : Table σ κ ρ) (row : ρ) : Write σ κ where
  rows := [T.key row]
  apply s := T.put ((T.rows s).filter (fun r => T.key r ≠ T.key row) ++ [row]) s
  elsewhere s k hk := by
    have hne : T.key row ≠ k := fun h => hk (List.mem_singleton.mpr h.symm)
    apply T.part_put_same
    rw [List.filter_append, List.filter_cons_of_neg (by simp [hne]), List.filter_nil,
      List.append_nil, List.filter_filter]
    apply List.filter_congr
    intro r _
    by_cases hr : T.key r = k
    · simp [hr, hne.symm]
    · simp [hr]
  within s s' k h := by
    apply T.part_put h
    have hcomm (rs : List ρ) :
        (rs.filter fun r => T.key r ≠ T.key row).filter (fun r => T.key r = k) =
          (rs.filter fun r => T.key r = k).filter fun r => T.key r ≠ T.key row := by
      rw [List.filter_filter, List.filter_filter]
      simp only [Bool.and_comm]
    rw [List.filter_append, List.filter_append, hcomm, hcomm, T.part_rows h]

/-- The rows of `T` that satisfy `p`, by key. -/
def hit (T : Table σ κ ρ) (p : ρ → Bool) (s : σ) : List κ :=
  ((T.rows s).filter p).map T.key

/-- `UPDATE T SET f WHERE p`; the condition may read the whole database, and the key of a row
stays. -/
def updateWhere (T : Table σ κ ρ) (p : σ → ρ → Bool) (f : ρ → ρ)
    (hf : ∀ r, T.key (f r) = T.key r := by intro; rfl) : Tx σ κ ε Nat :=
  Tx.write fun s =>
    let keys := T.hit (p s) s
    .ok (T.change keys (mapWhere (fun r => p s r && decide (T.key r ∈ keys)) f)
      (fun k rs => filter_mapWhere fun r => by rw [hf])
      fun rs hrs => mapWhere_of_none fun r hr => by simp [hrs r hr])

/-- `DELETE FROM T WHERE p`. -/
def deleteWhere (T : Table σ κ ρ) (p : σ → ρ → Bool) : Tx σ κ ε Nat :=
  Tx.write fun s =>
    let keys := T.hit (p s) s
    .ok (T.change keys (fun rs => rs.filter fun r => !(p s r && decide (T.key r ∈ keys)))
      (fun k rs => by rw [List.filter_filter, List.filter_filter]; simp only [Bool.and_comm])
      fun rs hrs => List.filter_eq_self.mpr fun r hr => by simp [hrs r hr])

/-- `INSERT INTO T`, which fails with `e` when the key is taken or a constraint on the
state does not hold. -/
def insert (T : Table σ κ ρ) (row : ρ) (holds : σ → Bool) (e : ε) : Tx σ κ ε Unit := do
  let _ ← Tx.write fun s =>
    if holds s && (T.rows s).all fun r => T.key r ≠ T.key row then
      .ok (T.add row)
    else .error e
  pure ()

/-- `INSERT INTO T ... ON CONFLICT DO NOTHING`: nothing is written when the key is taken
or a row of the table conflicts. -/
def insertUnless (T : Table σ κ ρ) (row : ρ) (conflict : ρ → Bool) (holds : σ → Bool)
    (e : ε) : Tx σ κ ε Nat :=
  Tx.write fun s =>
    if (T.rows s).any fun r => T.key r = T.key row || conflict r then
      .ok Write.nothing
    else if holds s then .ok (T.add row)
    else .error e

/-- `INSERT INTO T ... ON CONFLICT DO UPDATE`: the row under the key is the new one. -/
def upsert (T : Table σ κ ρ) (row : ρ) : Tx σ κ ε Nat :=
  Tx.write fun _ => .ok (T.replace row)

variable {T : Table σ κ ρ} {p : σ → ρ → Bool} {f : ρ → ρ} {hf : ∀ r, T.key (f r) = T.key r}
  {s s' : σ} {n : Nat} {α : Type} {g : Nat → Tx σ κ ε α} {r : α × σ}

/-- Restricting an update to the keys it hit is no restriction in the state it
executes in. -/
theorem mapWhere_hit (q : ρ → Bool) :
    mapWhere (fun r => q r && decide (T.key r ∈ T.hit q s)) f (T.rows s) =
      mapWhere q f (T.rows s) := by
  unfold mapWhere
  apply List.map_congr_left
  intro r hr
  by_cases hq : q r
  · have hk : T.key r ∈ T.hit q s :=
      List.mem_map_of_mem (List.mem_filter.mpr ⟨hr, hq⟩)
    simp [hq, hk]
  · simp [hq]

theorem filter_hit (q : ρ → Bool) :
    (T.rows s).filter (fun r => !(q r && decide (T.key r ∈ T.hit q s))) =
      (T.rows s).filter fun r => !q r := by
  apply List.filter_congr
  intro r hr
  by_cases hq : q r
  · have hk : T.key r ∈ T.hit q s :=
      List.mem_map_of_mem (List.mem_filter.mpr ⟨hr, hq⟩)
    simp [hq, hk]
  · simp [hq]

@[simp] theorem run_updateWhere_ok :
    (T.updateWhere p f hf : Tx σ κ ε Nat).run s = .ok (n, s') ↔
      n = ((T.rows s).filter (p s)).length ∧ s' = T.put (mapWhere (p s) f (T.rows s)) s := by
  rw [updateWhere, Tx.run_write_ok]
  simp only [Except.ok.injEq, exists_eq_left', change_rows, change_apply, mapWhere_hit]
  simp only [hit, List.length_map]

theorem run_updateWhere_bind_ok :
    ((T.updateWhere p f hf : Tx σ κ ε Nat) >>= g).run s = .ok r ↔
      (g ((T.rows s).filter (p s)).length).run (T.put (mapWhere (p s) f (T.rows s)) s) =
        .ok r := by
  rw [Tx.run_bind_ok]
  simp

@[simp] theorem run_deleteWhere_ok :
    (T.deleteWhere p : Tx σ κ ε Nat).run s = .ok (n, s') ↔
      n = ((T.rows s).filter (p s)).length ∧
        s' = T.put ((T.rows s).filter fun r => !p s r) s := by
  rw [deleteWhere, Tx.run_write_ok]
  simp only [Except.ok.injEq, exists_eq_left', change_rows, change_apply, filter_hit]
  simp only [hit, List.length_map]

theorem run_deleteWhere_bind_ok :
    ((T.deleteWhere p : Tx σ κ ε Nat) >>= g).run s = .ok r ↔
      (g ((T.rows s).filter (p s)).length).run (T.put ((T.rows s).filter fun r => !p s r) s) =
        .ok r := by
  rw [Tx.run_bind_ok]
  simp

@[simp] theorem run_insert_ok {u : Unit} :
    (T.insert row holds e).run s = .ok (u, s') ↔
      holds s = true ∧ (∀ r ∈ T.rows s, T.key r ≠ T.key row) ∧
        s' = T.put (T.rows s ++ [row]) s := by
  simp only [insert, Tx.run_bind_ok, Tx.run_write_ok, Tx.run_pure_ok, true_and]
  split
  · rename_i h
    simp only [Bool.and_eq_true, List.all_eq_true, decide_eq_true_eq] at h
    simp [h.1, eq_true h.2]
  · rename_i h
    simp only [Bool.and_eq_true, List.all_eq_true, decide_eq_true_eq, not_and] at h
    simp only [reduceCtorEq, false_and, exists_false, false_iff]
    rintro ⟨h1, h2, -⟩
    exact h h1 h2

theorem run_insert_bind_ok {g : Unit → Tx σ κ ε α} :
    (T.insert row holds e >>= g).run s = .ok r ↔
      holds s = true ∧ (∀ r ∈ T.rows s, T.key r ≠ T.key row) ∧
        (g ()).run (T.put (T.rows s ++ [row]) s) = .ok r := by
  rw [Tx.run_bind_ok]
  constructor
  · rintro ⟨_, _, h, hg⟩
    obtain ⟨hholds, hfresh, rfl⟩ := run_insert_ok.mp h
    exact ⟨hholds, hfresh, hg⟩
  · rintro ⟨hholds, hfresh, hg⟩
    exact ⟨(), _, run_insert_ok.mpr ⟨hholds, hfresh, rfl⟩, hg⟩

theorem run_insertUnless :
    (T.insertUnless row conflict holds e).run s =
      if (T.rows s).any fun r => T.key r = T.key row || conflict r then .ok (0, s)
      else if holds s then .ok (1, T.put (T.rows s ++ [row]) s)
      else .error e := by
  by_cases hany : ((T.rows s).any fun r => T.key r = T.key row || conflict r) = true
  · rw [if_pos hany, insertUnless, Tx.run_write_ok]
    exact ⟨_, if_pos hany, rfl, rfl⟩
  · rw [if_neg hany]
    by_cases hholds : holds s = true
    · rw [if_pos hholds, insertUnless, Tx.run_write_ok]
      exact ⟨_, by rw [if_neg hany, if_pos hholds], rfl, rfl⟩
    · rw [if_neg hholds]
      simp only [insertUnless, Tx.write, Tx.run, if_neg hany, if_neg hholds]

/-- Either a row conflicted and nothing was written, or the row is new. -/
theorem run_insertUnless_ok (h : (T.insertUnless row conflict holds e).run s = .ok (n, s')) :
    (n = 0 ∧ s' = s) ∨
      (n = 1 ∧ holds s = true ∧
        (∀ r ∈ T.rows s, T.key r ≠ T.key row ∧ conflict r = false) ∧
        s' = T.put (T.rows s ++ [row]) s) := by
  rw [run_insertUnless] at h
  split at h
  · cases h
    exact Or.inl ⟨rfl, rfl⟩
  · rename_i hfree
    split at h
    · rename_i hholds
      cases h
      simp only [List.any_eq_true, Bool.or_eq_true, decide_eq_true_eq, not_exists, not_and,
        not_or, Bool.not_eq_true] at hfree
      exact Or.inr ⟨rfl, hholds, hfree, rfl⟩
    · cases h

theorem run_insertUnless_new
    (hnew : ∀ r ∈ T.rows s, T.key r ≠ T.key row ∧ conflict r = false) (hholds : holds s = true) :
    (T.insertUnless row conflict holds e).run s = .ok (1, T.put (T.rows s ++ [row]) s) := by
  have hfree : ¬ ((T.rows s).any fun r => T.key r = T.key row || conflict r) = true := by
    simp only [List.any_eq_true, Bool.or_eq_true, decide_eq_true_eq, not_exists, not_and, not_or,
      Bool.not_eq_true]
    exact hnew
  rw [run_insertUnless, if_neg hfree, if_pos hholds]

theorem run_insertUnless_taken {r : ρ}
    (hr : r ∈ T.rows s) (htaken : T.key r = T.key row ∨ conflict r = true) :
    (T.insertUnless row conflict holds e).run s = .ok (0, s) := by
  have hany : ((T.rows s).any fun r => T.key r = T.key row || conflict r) = true :=
    List.any_eq_true.mpr ⟨r, hr, by simpa using htaken⟩
  rw [run_insertUnless, if_pos hany]

section Triple

variable {P : σ → Prop} {Q : Nat → σ → Prop}

theorem triple_updateWhere
    (h : ∀ s, P s → Q ((T.rows s).filter (p s)).length (T.put (mapWhere (p s) f (T.rows s)) s)) :
    Tx.Triple P (T.updateWhere p f hf : Tx σ κ ε Nat) Q := by
  intro s n s' hs hrun
  obtain ⟨rfl, rfl⟩ := run_updateWhere_ok.mp hrun
  exact h s hs

theorem triple_deleteWhere
    (h : ∀ s, P s →
      Q ((T.rows s).filter (p s)).length (T.put ((T.rows s).filter fun r => !p s r) s)) :
    Tx.Triple P (T.deleteWhere p : Tx σ κ ε Nat) Q := by
  intro s n s' hs hrun
  obtain ⟨rfl, rfl⟩ := run_deleteWhere_ok.mp hrun
  exact h s hs

theorem triple_insert {Q : Unit → σ → Prop}
    (h : ∀ s, P s → holds s = true → (∀ r ∈ T.rows s, T.key r ≠ T.key row) →
      Q () (T.put (T.rows s ++ [row]) s)) : Tx.Triple P (T.insert row holds e) Q := by
  intro s u s' hs hrun
  obtain ⟨hholds, hfresh, rfl⟩ := run_insert_ok.mp hrun
  exact h s hs hholds hfresh

end Triple

section Each

variable {R : σ → σ → Prop}

theorem each_updateWhere (h : ∀ s, R s (T.put (mapWhere (p s) f (T.rows s)) s)) :
    (T.updateWhere p f hf : Tx σ κ ε Nat).Each R :=
  Tx.each_write fun s v hv => by
    cases hv
    simpa only [change_apply, mapWhere_hit] using h s

theorem each_deleteWhere (h : ∀ s, R s (T.put ((T.rows s).filter fun r => !p s r) s)) :
    (T.deleteWhere p : Tx σ κ ε Nat).Each R :=
  Tx.each_write fun s v hv => by
    cases hv
    simpa only [change_apply, filter_hit] using h s

theorem each_insertFresh
    (h : ∀ s, (∀ r ∈ T.rows s, T.key r ≠ T.key row) → R s (T.put (T.rows s ++ [row]) s)) :
    (T.insert row holds e).Each R := by
  refine Tx.each_bind (Tx.each_write fun s v hv => ?_) fun _ => Tx.each_pure _
  split at hv
  · rename_i hfree
    cases hv
    rw [Bool.and_eq_true, List.all_eq_true] at hfree
    exact h s fun r hr => of_decide_eq_true (hfree.2 r hr)
  · cases hv

theorem each_insert (h : ∀ s, R s (T.put (T.rows s ++ [row]) s)) : (T.insert row holds e).Each R :=
  each_insertFresh fun s _ => h s

theorem each_insertUnless [Std.Refl R] (h : ∀ s, R s (T.put (T.rows s ++ [row]) s)) :
    (T.insertUnless row conflict holds e).Each R :=
  Tx.each_write fun s v hv => by
    split at hv
    · cases hv
      exact refl_of R s
    · split at hv
      · cases hv
        exact h s
      · cases hv

theorem each_upsert
    (h : ∀ s, R s (T.put ((T.rows s).filter (fun r => T.key r ≠ T.key row) ++ [row]) s)) :
    (T.upsert row : Tx σ κ ε Nat).Each R :=
  Tx.each_write fun s v hv => by
    cases hv
    exact h s

end Each

end Table
