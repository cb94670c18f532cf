import Mathlib.Order.Defs.Unbundled

/-!
# Transactions as sequences of statements

A transaction is a program over a database `σ`: it reads with queries, writes with
statements that name the rows they change, and ends in a result or in an error. The
program is kept as syntax, so that it can be given two meanings: run alone
(`Tx.run`, below), and run statement by statement among other transactions
(`ReadCommitted`).

* `Write` is what one statement does: the rows it changes and the change itself. The
  number of rows is what the driver reports as affected. A write changes no other row, and
  what it makes of a row depends on that row alone, so that it can be carried over to
  another state that holds the same rows.
* `Tx.run` commits the result of the whole program or, on an error, nothing.
* `run_bind_ok` and its companions invert a run that committed, one statement at a
  time; proofs about a program peel it with them and never unfold `Tx.run`. A guard or a
  query in front comes off without a state of its own (`run_refuse_bind_ok`).
* `Tx.Each R` says that every single statement of a program changes the database as `R`
  allows, whatever state it executes in. Its rules follow the shape of the program, and
  where `R` is a preorder the whole program changes the database as `R` allows.
-/

/-- A database `σ` whose rows have names `κ`: `part k s` is what `s` holds under `k`. -/
class Parts (σ κ : Type) where
  part : κ → σ → σ

export Parts (part)

/-- What one write statement does: the rows it changes, and the change. -/
structure Write (σ κ : Type) [Parts σ κ] where
  rows : List κ
  apply : σ → σ
  elsewhere (s : σ) (k : κ) : k ∉ rows → part k (apply s) = part k s
  within (s s' : σ) (k : κ) : part k s = part k s' → part k (apply s) = part k (apply s')

/-- A statement that changes nothing. -/
def Write.nothing {σ κ : Type} [Parts σ κ] : Write σ κ where
  rows := []
  apply := id
  elsewhere _ _ _ := rfl
  within _ _ _ h := h

/-- A transaction over the database `σ` with rows named by `κ` and errors `ε`. -/
inductive Tx (σ κ : Type) [Parts σ κ] (ε α : Type) where
  | done (a : α)
  | fail (e : ε)
  | query (k : σ → Tx σ κ ε α)
  | exec (w : σ → Except ε (Write σ κ)) (k : Nat → Tx σ κ ε α)

/-- Refuse with `e` when `c` holds. -/
def refuse {ε : Type} (c : Prop) [Decidable c] (e : ε) : Except ε Unit :=
  if c then .error e else .ok ()

@[simp] theorem refuse_ok_iff {ε : Type} {c : Prop} [Decidable c] {e : ε} {u : Unit} :
    refuse c e = .ok u ↔ ¬ c := by
  unfold refuse
  split <;> simp_all

theorem refuse_of_not {ε : Type} {c : Prop} [Decidable c] {e : ε} (hc : ¬ c) :
    refuse c e = .ok () := by
  simp [hc]

/-- A composite that succeeded had both its parts succeed. -/
theorem Except.bind_ok_iff {ε α β : Type} {x : Except ε α} {f : α → Except ε β} {b : β} :
    (x >>= f) = .ok b ↔ ∃ a, x = .ok a ∧ f a = .ok b := by
  cases x with
  | error e => simp [Bind.bind, Except.bind]
  | ok a => simp [Bind.bind, Except.bind]

namespace Tx

variable {σ κ ε α β : Type} [Parts σ κ] {t u : Tx σ κ ε α} {f : α → Tx σ κ ε β} {x : Except ε α}
  {s s' : σ} {a : α} {e : ε} {c : Prop} {r : β × σ} {g : σ → Except ε α}

/-- Sequencing: the second program starts where the first one ends. -/
def bind : Tx σ κ ε α → (α → Tx σ κ ε β) → Tx σ κ ε β
  | done a, f => f a
  | fail e, _ => fail e
  | query k, f => query fun s => (k s).bind f
  | exec w k, f => exec w fun n => (k n).bind f

instance : Monad (Tx σ κ ε) where
  pure := done
  bind := bind

/-- A computation that touches no database. -/
def ofExcept : Except ε α → Tx σ κ ε α
  | .ok a => done a
  | .error e => fail e

instance : MonadLift (Except ε) (Tx σ κ ε) where
  monadLift := ofExcept

/-- One query. -/
def select (f : σ → α) : Tx σ κ ε α :=
  query fun s => done (f s)

/-- One query that fails when it finds nothing usable. -/
def selectOr (f : σ → Except ε α) : Tx σ κ ε α :=
  query fun s => ofExcept (f s)

/-- One write statement; the result is the number of rows it changed. -/
def write (w : σ → Except ε (Write σ κ)) : Tx σ κ ε Nat :=
  exec w done

/-- The transaction with its result left aside. -/
def void (t : Tx σ κ ε α) : Tx σ κ ε Unit :=
  t >>= fun _ => pure ()

/-- The program run alone: all of it is committed, or nothing. -/
def run : Tx σ κ ε α → σ → Except ε (α × σ)
  | done a, s => .ok (a, s)
  | fail e, _ => .error e
  | query k, s => (k s).run s
  | exec w k, s =>
      match w s with
      | .error e => .error e
      | .ok v => (k v.rows.length).run (v.apply s)

theorem run_bind (t : Tx σ κ ε α) (f : α → Tx σ κ ε β) (s : σ) :
    (t >>= f).run s = t.run s >>= fun r => (f r.1).run r.2 := by
  show (t.bind f).run s = _
  induction t generalizing s with
  | done a => rfl
  | fail e => rfl
  | query k ih => exact ih s s
  | exec w k ih =>
      simp only [bind, run]
      cases w s with
      | error e => rfl
      | ok v => exact ih _ _

/-- **Inversion of sequencing.** A committed composite is a committed first part
followed by a committed second part. -/
theorem run_bind_ok :
    (t >>= f).run s = .ok r ↔
      ∃ a s', t.run s = .ok (a, s') ∧ (f a).run s' = .ok r := by
  rw [run_bind, Except.bind_ok_iff]
  constructor
  · rintro ⟨⟨a, s'⟩, ht, hf⟩
    exact ⟨a, s', ht, hf⟩
  · rintro ⟨a, s', ht, hf⟩
    exact ⟨(a, s'), ht, hf⟩

/-- A transaction succeeds where its first part does and the rest from there. -/
theorem succeeds_bind (h : t.run s = .ok (a, s')) (hf : ∃ r, (f a).run s' = .ok r) :
    ∃ r, (t >>= f).run s = .ok r := by
  rw [run_bind, h]
  exact hf

@[simp] theorem run_pure (a : α) (s : σ) :
    (pure a : Tx σ κ ε α).run s = .ok (a, s) := rfl

@[simp] theorem run_pure_ok {b : α} :
    (pure a : Tx σ κ ε α).run s = .ok (b, s') ↔ b = a ∧ s' = s := by
  simp only [run_pure, Except.ok.injEq, Prod.mk.injEq, eq_comm]

@[simp] theorem run_fail_ok {r : α × σ} :
    (fail e : Tx σ κ ε α).run s = .ok r ↔ False := by
  simp [run]

@[simp] theorem run_select_ok {f : σ → α} :
    (select f : Tx σ κ ε α).run s = .ok (a, s') ↔ a = f s ∧ s' = s := by
  simp only [select, run, Except.ok.injEq, Prod.mk.injEq, eq_comm]

@[simp] theorem run_ofExcept_ok :
    (ofExcept x : Tx σ κ ε α).run s = .ok (a, s') ↔ x = .ok a ∧ s' = s := by
  cases x with
  | error e => simp [ofExcept, run]
  | ok b => simp [ofExcept, run, eq_comm]

@[simp] theorem run_lift_ok :
    (liftM x : Tx σ κ ε α).run s = .ok (a, s') ↔ x = .ok a ∧ s' = s :=
  run_ofExcept_ok

@[simp] theorem run_selectOr_ok {f : σ → Except ε α} :
    (selectOr f : Tx σ κ ε α).run s = .ok (a, s') ↔ f s = .ok a ∧ s' = s :=
  run_ofExcept_ok (x := f s)

theorem run_write_ok {w : σ → Except ε (Write σ κ)} {n : Nat} :
    (write w).run s = .ok (n, s') ↔
      ∃ v, w s = .ok v ∧ n = v.rows.length ∧ s' = v.apply s := by
  simp only [write, run]
  cases w s with
  | error e => simp
  | ok v => simp [eq_comm]

/-- A guard in front. -/
theorem run_refuse_bind [Decidable c] {f : Unit → Tx σ κ ε β} :
    ((liftM (refuse c e) : Tx σ κ ε Unit) >>= f).run s =
      if c then .error e else (f ()).run s := by
  rw [run_bind]
  unfold refuse
  split <;> rfl

theorem run_refuse_bind_ok [Decidable c] {f : Unit → Tx σ κ ε β} :
    ((liftM (refuse c e) : Tx σ κ ε Unit) >>= f).run s = .ok r ↔ ¬c ∧ (f ()).run s = .ok r := by
  rw [run_refuse_bind]
  split <;> simp_all

theorem succeeds_refuse_bind [Decidable c] {f : Unit → Tx σ κ ε β}
    (hc : ¬c) (hf : ∃ r, (f ()).run s = .ok r) :
    ∃ r, ((liftM (refuse c e) : Tx σ κ ε Unit) >>= f).run s = .ok r :=
  hf.imp fun _ h => run_refuse_bind_ok.mpr ⟨hc, h⟩

theorem run_pure_bind :
    ((pure a : Tx σ κ ε α) >>= f).run s = (f a).run s :=
  rfl

/-- A query in front. -/
theorem run_select_bind_ok {g : σ → α} :
    ((select g : Tx σ κ ε α) >>= f).run s = .ok r ↔ (f (g s)).run s = .ok r :=
  Iff.rfl

theorem run_selectOr_bind :
    ((selectOr g : Tx σ κ ε α) >>= f).run s =
      match g s with
      | .error e => .error e
      | .ok a => (f a).run s := by
  rw [run_bind]
  show (ofExcept (g s)).run s >>= _ = _
  cases g s <;> rfl

theorem run_selectOr_bind_ok :
    ((selectOr g : Tx σ κ ε α) >>= f).run s = .ok r ↔
      ∃ a, g s = .ok a ∧ (f a).run s = .ok r := by
  rw [run_selectOr_bind]
  cases g s <;> simp

/-- A statement skipped or executed, as a condition of the request decides. -/
theorem run_ite_ok [Decidable c] {r : α × σ} :
    (if c then t else u).run s = .ok r ↔
      (c ∧ t.run s = .ok r) ∨ (¬ c ∧ u.run s = .ok r) := by
  split <;> simp_all

/-- Every statement of the program, in whatever state it executes, changes the database
as `R` allows. -/
def Each (R : σ → σ → Prop) : Tx σ κ ε α → Prop
  | done _ => True
  | fail _ => True
  | query k => ∀ s, (k s).Each R
  | exec w k => (∀ s v, w s = .ok v → R s (v.apply s)) ∧ ∀ n, (k n).Each R

section Each

variable {R R' : σ → σ → Prop}

theorem each_pure (a : α) : (pure a : Tx σ κ ε α).Each R :=
  trivial

theorem each_fail (e : ε) : (fail e : Tx σ κ ε α).Each R :=
  trivial

theorem each_bind (ht : t.Each R) (hf : ∀ a, (f a).Each R) : (t >>= f).Each R := by
  show (t.bind f).Each R
  induction t with
  | done a => exact hf a
  | fail e => exact trivial
  | query k ih => exact fun s => ih s (ht s)
  | exec w k ih => exact ⟨ht.1, fun n => ih n (ht.2 n)⟩

theorem each_ofExcept (x : Except ε α) : (ofExcept x : Tx σ κ ε α).Each R := by
  cases x <;> exact trivial

theorem each_lift (x : Except ε α) : (liftM x : Tx σ κ ε α).Each R :=
  each_ofExcept x

theorem each_select (f : σ → α) : (select f : Tx σ κ ε α).Each R :=
  fun _ => trivial

theorem each_selectOr (f : σ → Except ε α) : (selectOr f : Tx σ κ ε α).Each R :=
  fun s => each_ofExcept (f s)

theorem each_lift_bind {x : Except ε β} {f : β → Tx σ κ ε α} (hf : ∀ b, (f b).Each R) :
    ((liftM x : Tx σ κ ε β) >>= f).Each R :=
  each_bind (each_lift x) hf

theorem each_select_bind {q : σ → β} {f : β → Tx σ κ ε α} (hf : ∀ b, (f b).Each R) :
    ((select q : Tx σ κ ε β) >>= f).Each R :=
  each_bind (each_select q) hf

theorem each_selectOr_bind {q : σ → Except ε β} {f : β → Tx σ κ ε α} (hf : ∀ b, (f b).Each R) :
    ((selectOr q : Tx σ κ ε β) >>= f).Each R :=
  each_bind (each_selectOr q) hf

theorem each_write {w : σ → Except ε (Write σ κ)}
    (hw : ∀ s v, w s = .ok v → R s (v.apply s)) : (write w).Each R :=
  ⟨hw, fun _ => trivial⟩

theorem each_ite [Decidable c] (ht : t.Each R) (hu : u.Each R) :
    (if c then t else u).Each R := by
  split
  · exact ht
  · exact hu

theorem Each.mono (ht : t.Each R) (h : ∀ s s', R s s' → R' s s') : t.Each R' := by
  induction t with
  | done a => exact trivial
  | fail e => exact trivial
  | query k ih => exact fun s => ih s (ht s)
  | exec w k ih => exact ⟨fun s v hv => h _ _ (ht.1 s v hv), fun n => ih n (ht.2 n)⟩

/-- **From statements to the program.** Where the allowed changes compose, a committed run
is an allowed change. -/
theorem Each.run [IsPreorder σ R] (ht : t.Each R) {r : α × σ} (h : t.run s = .ok r) : R s r.2 := by
  induction t generalizing s with
  | done a => cases h; exact refl_of R s
  | fail e => cases h
  | query k ih => exact ih s (ht s) h
  | exec w k ih =>
      simp only [Tx.run] at h
      cases hw : w s with
      | error e => simp [hw] at h
      | ok v =>
          rw [hw] at h
          exact trans_of R (ht.1 s v hw) (ih _ (ht.2 _) h)

end Each

/-- Every error that the program can end with satisfies `P`. -/
def Raises (P : ε → Prop) (t : Tx σ κ ε α) : Prop :=
  ∀ s e, t.run s = .error e → P e

section Raises

variable {P : ε → Prop}

theorem raises_bind (ht : t.Raises P) (hf : ∀ a, (f a).Raises P) : (t >>= f).Raises P := by
  intro s e h
  rw [run_bind] at h
  cases hrun : t.run s with
  | error e' =>
      rw [hrun] at h
      cases h
      exact ht s e hrun
  | ok r =>
      rw [hrun] at h
      exact hf r.1 r.2 e h

theorem raises_refuse [Decidable c] (h : P e) :
    (liftM (refuse c e) : Tx σ κ ε Unit).Raises P := by
  intro s e' herror
  unfold refuse at herror
  split at herror
  · cases herror
    exact h
  · cases herror

theorem raises_write {w : σ → Except ε (Write σ κ)} (h : ∀ s e, w s = .error e → P e) :
    (write w : Tx σ κ ε Nat).Raises P := by
  intro s e herror
  simp only [write, run] at herror
  cases hw : w s with
  | error e' =>
      rw [hw] at herror
      cases herror
      exact h s e hw
  | ok v =>
      rw [hw] at herror
      cases herror

end Raises

/-- A program that starts where `P` holds and ends with a result ends where `Q` holds of it. -/
def Triple (P : σ → Prop) (t : Tx σ κ ε α) (Q : α → σ → Prop) : Prop :=
  ∀ s a s', P s → t.run s = .ok (a, s') → Q a s'

section Triple

variable {P : σ → Prop} {Q : α → σ → Prop} {R : σ → σ → Prop}

theorem triple_pure (h : ∀ s, P s → Q a s) : Triple P (pure a : Tx σ κ ε α) Q := by
  intro s b s' hs hrun
  obtain ⟨rfl, rfl⟩ := run_pure_ok.mp hrun
  exact h _ hs

theorem triple_bind {R : β → σ → Prop} (ht : Triple P t Q)
    (hf : ∀ a, Triple (Q a) (f a) R) : Triple P (t >>= f) R := by
  intro s b s' hs hrun
  obtain ⟨a, mid, hfirst, hrest⟩ := run_bind_ok.mp hrun
  exact hf a mid b s' (ht s a mid hs hfirst) hrest

theorem triple_select {f : σ → α} (h : ∀ s, P s → Q (f s) s) :
    Triple P (select f : Tx σ κ ε α) Q := by
  intro s a s' hs hrun
  obtain ⟨rfl, rfl⟩ := run_select_ok.mp hrun
  exact h _ hs

theorem triple_lift (h : ∀ s a, P s → x = .ok a → Q a s) :
    Triple P (liftM x : Tx σ κ ε α) Q := by
  intro s a s' hs hrun
  obtain ⟨ha, rfl⟩ := run_lift_ok.mp hrun
  exact h _ a hs ha

theorem triple_ite [Decidable c] (ht : c → Triple P t Q) (hu : ¬ c → Triple P u Q) :
    Triple P (if c then t else u) Q := by
  split
  · exact ht ‹_›
  · exact hu ‹_›

/-- Statements of which it is only known what each of them changes. -/
theorem triple_each [IsPreorder σ R] (ht : t.Each R)
    (h : ∀ s a s', P s → R s s' → Q a s') : Triple P t Q :=
  fun s a s' hs hrun => h s a s' hs (ht.run hrun)

/-- What each statement changes leads on from where the transaction has come from. -/
theorem triple_trail [IsPreorder σ R] {start : σ} (ht : t.Each R) :
    Triple (R start) t (fun _ => R start) :=
  triple_each ht fun _ _ _ hs hchange => trans_of R hs hchange

end Triple

-- From here on the rules are used, not the recursion: elaborating one must not run the
-- program it is about.
attribute [irreducible] Each

end Tx
