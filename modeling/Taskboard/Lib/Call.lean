import Taskboard.Lib.Transaction

/-!
# Calls: reads, transactions and mutexes in sequence

A service call is more than its transaction: it reads the database before it, may
hold process mutexes, and may read again afterwards. `Call` keeps that structure, so
that one definition of an operation serves both when it runs alone (`Call.exec`) and
when its steps interleave with the steps of other calls (`Interleaving`).

* Every `read` is one separate step that sees the whole committed database.
* Every `atomic` step is one transaction, committed or rolled back as a whole.
* `Call.Quiet` says that a part of a call only reads; `exec_bind_quiet` peels such a part
  off the front, with no case analysis on why it may have failed.
* `Call.Each E` says that every transaction of a call makes a change that `E` describes,
  in whatever state it starts; this survives any interleaving.
* `Call.AtMost E` says that a call leaves the database alone or changes it as `E`
  describes; its rules follow the way calls are put together.
* `Call.Yields` says what a call that runs alone from a given state ends with.
-/

/-- A service call over the database `σ`, with mutexes named by `μ`. -/
inductive Call (σ κ : Type) [Parts σ κ] (ε μ α : Type) : Type 1 where
  | done (a : α)
  | fail (e : ε)
  | read (k : σ → Call σ κ ε μ α)
  | atomic {β : Type} (t : Tx σ κ ε β) (k : Except ε β → Call σ κ ε μ α)
  | lock (m : μ) (k : Call σ κ ε μ α)
  | unlock (m : μ) (k : Call σ κ ε μ α)

namespace Call

variable {σ κ ε μ α β : Type} [Parts σ κ] {c d : Call σ κ ε μ α} {f : α → Call σ κ ε μ β}
  {t : Tx σ κ ε α} {x r : Except ε α} {s s' : σ} {m : μ} {a : α} {b : β}

/-- Sequencing of calls. -/
def bind : Call σ κ ε μ α → (α → Call σ κ ε μ β) → Call σ κ ε μ β
  | done a, f => f a
  | fail e, _ => fail e
  | read k, f => read fun s => (k s).bind f
  | atomic t k, f => atomic t fun r => (k r).bind f
  | lock m k, f => lock m (k.bind f)
  | unlock m k, f => unlock m (k.bind f)

instance : Monad (Call σ κ ε μ) where
  pure := done
  bind := bind

/-- A computation that touches no database. -/
def ofExcept : Except ε α → Call σ κ ε μ α
  | .ok a => done a
  | .error e => fail e

instance : MonadLift (Except ε) (Call σ κ ε μ) where
  monadLift := ofExcept

/-- One read outside a transaction. -/
def look (f : σ → α) : Call σ κ ε μ α :=
  read fun s => done (f s)

/-- One read outside a transaction that may refuse. -/
def lookOr (f : σ → Except ε α) : Call σ κ ε μ α :=
  read fun s => ofExcept (f s)

/-- One transaction. -/
def tx (t : Tx σ κ ε α) : Call σ κ ε μ α :=
  atomic t ofExcept

/-- Release the mutex `m` where the call ends, whether it succeeds or fails. -/
def releasing (m : μ) : Call σ κ ε μ α → Call σ κ ε μ α
  | done a => unlock m (done a)
  | fail e => unlock m (fail e)
  | read k => read fun s => (k s).releasing m
  | atomic t k => atomic t fun r => (k r).releasing m
  | lock m' k => lock m' (k.releasing m)
  | unlock m' k => unlock m' (k.releasing m)

/-- The call with the mutex `m` held throughout. -/
def holding (m : μ) (c : Call σ κ ε μ α) : Call σ κ ε μ α :=
  lock m (c.releasing m)

/-- The call with its error as a result, for a caller that goes on either way. -/
def attempt : Call σ κ ε μ α → Call σ κ ε μ (Except ε α)
  | done a => done (.ok a)
  | fail e => done (.error e)
  | read k => read fun s => (k s).attempt
  | atomic t k => atomic t fun r => (k r).attempt
  | lock m k => lock m k.attempt
  | unlock m k => unlock m k.attempt

/-- The call run alone: its result and the database it leaves. -/
def exec : Call σ κ ε μ α → σ → Except ε α × σ
  | done a, s => (.ok a, s)
  | fail e, s => (.error e, s)
  | read k, s => (k s).exec s
  | atomic t k, s =>
      match t.run s with
      | .ok (b, s') => (k (.ok b)).exec s'
      | .error e => (k (.error e)).exec s
  | lock _ k, s => k.exec s
  | unlock _ k, s => k.exec s

theorem exec_bind (c : Call σ κ ε μ α) (f : α → Call σ κ ε μ β) (s : σ) :
    (c >>= f).exec s =
      match c.exec s with
      | (.ok a, s') => (f a).exec s'
      | (.error e, s') => (.error e, s') := by
  show (c.bind f).exec s = _
  induction c generalizing s with
  | done a => rfl
  | fail e => rfl
  | read k ih => exact ih s s
  | atomic t k ih =>
      simp only [bind, exec]
      cases t.run s with
      | error e => exact ih _ _
      | ok r => exact ih _ _
  | lock m k ih => exact ih s
  | unlock m k ih => exact ih s

@[simp] theorem exec_pure (a : α) (s : σ) :
    (pure a : Call σ κ ε μ α).exec s = (.ok a, s) := rfl

@[simp] theorem exec_ofExcept (x : Except ε α) (s : σ) :
    (ofExcept x : Call σ κ ε μ α).exec s = (x, s) := by
  cases x <;> rfl

@[simp] theorem exec_lift (x : Except ε α) (s : σ) :
    (liftM x : Call σ κ ε μ α).exec s = (x, s) :=
  exec_ofExcept x s

@[simp] theorem exec_look (f : σ → α) (s : σ) :
    (look f : Call σ κ ε μ α).exec s = (.ok (f s), s) := rfl

@[simp] theorem exec_lookOr (f : σ → Except ε α) (s : σ) :
    (lookOr f : Call σ κ ε μ α).exec s = (f s, s) :=
  exec_ofExcept (f s) s

@[simp] theorem exec_releasing (m : μ) (c : Call σ κ ε μ α) (s : σ) :
    (c.releasing m).exec s = c.exec s := by
  induction c generalizing s with
  | done a => rfl
  | fail e => rfl
  | read k ih => exact ih s s
  | atomic t k ih =>
      simp only [releasing, exec]
      cases t.run s with
      | error e => exact ih _ _
      | ok r => exact ih _ _
  | lock m k ih => exact ih s
  | unlock m k ih => exact ih s

@[simp] theorem exec_holding (m : μ) (c : Call σ κ ε μ α) (s : σ) :
    (c.holding m).exec s = c.exec s :=
  exec_releasing m c s

@[simp] theorem exec_attempt (c : Call σ κ ε μ α) (s : σ) :
    c.attempt.exec s = (.ok (c.exec s).1, (c.exec s).2) := by
  induction c generalizing s with
  | done a => rfl
  | fail e => rfl
  | read k ih => exact ih s s
  | atomic t k ih =>
      simp only [attempt, exec]
      cases t.run s with
      | error e => exact ih _ _
      | ok r => exact ih _ _
  | lock m k ih => exact ih s
  | unlock m k ih => exact ih s

theorem exec_tx (t : Tx σ κ ε α) (s : σ) :
    (tx t : Call σ κ ε μ α).exec s =
      match t.run s with
      | .ok (a, s') => (.ok a, s')
      | .error e => (.error e, s) := by
  simp only [tx, exec]
  cases t.run s with
  | error e => rfl
  | ok r => rfl

/-- **A transaction as a call.** Either it committed and its result is returned, or
the database is as it was. -/
theorem exec_tx_cases (h : (tx t : Call σ κ ε μ α).exec s = (r, s')) :
    (∃ a, t.run s = .ok (a, s') ∧ r = .ok a) ∨
      (∃ e, t.run s = .error e ∧ r = .error e ∧ s' = s) := by
  rw [exec_tx] at h
  cases ht : t.run s with
  | error e =>
      simp only [ht, Prod.mk.injEq] at h
      exact Or.inr ⟨e, rfl, h.1.symm, h.2.symm⟩
  | ok p =>
      obtain ⟨a, s1⟩ := p
      simp only [ht, Prod.mk.injEq] at h
      obtain ⟨rfl, rfl⟩ := h
      exact Or.inl ⟨a, rfl, rfl⟩

/-- The call only reads: it runs no transaction and takes no mutex. -/
def Quiet : Call σ κ ε μ α → Prop
  | done _ => True
  | fail _ => True
  | read k => ∀ s, (k s).Quiet
  | atomic _ _ => False
  | lock _ _ => False
  | unlock _ _ => False

section Quiet

theorem quiet_pure (a : α) : Quiet (pure a : Call σ κ ε μ α) :=
  trivial

theorem quiet_read {k : σ → Call σ κ ε μ α} : (read k).Quiet ↔ ∀ s, (k s).Quiet :=
  Iff.rfl

theorem not_quiet_atomic {t : Tx σ κ ε β} {k : Except ε β → Call σ κ ε μ α} :
    ¬ (atomic t k).Quiet :=
  id

theorem not_quiet_lock : ¬ (lock m c).Quiet :=
  id

theorem not_quiet_unlock : ¬ (unlock m c).Quiet :=
  id

theorem quiet_fail (e : ε) : Quiet (fail e : Call σ κ ε μ α) :=
  trivial

theorem quiet_ofExcept (x : Except ε α) : Quiet (ofExcept x : Call σ κ ε μ α) := by
  cases x <;> exact trivial

theorem quiet_lift (x : Except ε α) : Quiet (liftM x : Call σ κ ε μ α) :=
  quiet_ofExcept x

theorem quiet_look (f : σ → α) : Quiet (look f : Call σ κ ε μ α) :=
  fun _ => trivial

theorem quiet_lookOr (f : σ → Except ε α) : Quiet (lookOr f : Call σ κ ε μ α) :=
  fun s => quiet_ofExcept (f s)

theorem quiet_bind (hc : c.Quiet) (hf : ∀ a, (f a).Quiet) : (c >>= f).Quiet := by
  show (c.bind f).Quiet
  induction c with
  | done a => exact hf a
  | fail e => exact trivial
  | read k ih => exact fun s => ih s (hc s)
  | atomic t k ih => exact hc.elim
  | lock m k ih => exact hc.elim
  | unlock m k ih => exact hc.elim

theorem quiet_lift_bind (hf : ∀ a, (f a).Quiet) :
    ((liftM x : Call σ κ ε μ α) >>= f).Quiet :=
  quiet_bind (quiet_lift x) hf

theorem quiet_ite {p : Prop} [Decidable p] (hc : c.Quiet) (hd : d.Quiet) :
    (if p then c else d).Quiet := by
  split
  · exact hc
  · exact hd

theorem quiet_attempt (hc : c.Quiet) : c.attempt.Quiet := by
  induction c with
  | done a => exact trivial
  | fail e => exact trivial
  | read k ih => exact fun s => ih s (hc s)
  | atomic t k ih => exact hc.elim
  | lock m k ih => exact hc.elim
  | unlock m k ih => exact hc.elim

/-- A quiet call leaves the database as it is, whatever its result. -/
theorem Quiet.exec (hc : c.Quiet) (s : σ) : (c.exec s).2 = s := by
  induction c with
  | done a => rfl
  | fail e => rfl
  | read k ih => exact ih s (hc s)
  | atomic t k ih => exact hc.elim
  | lock m k ih => exact hc.elim
  | unlock m k ih => exact hc.elim

end Quiet

/-- **Peeling a quiet part.** When a quiet part comes first, the call left the database
alone or it went on from the same database with the part's result. -/
theorem exec_bind_quiet {r : Except ε β} (hc : c.Quiet) (h : (c >>= f).exec s = (r, s')) :
    s' = s ∨ ∃ a, c.exec s = (.ok a, s) ∧ (f a).exec s = (r, s') := by
  rw [exec_bind] at h
  have hs := hc.exec s
  rcases hr : c.exec s with ⟨x, s1⟩
  rw [hr] at h hs
  simp only at hs
  subst hs
  cases x with
  | error e => exact Or.inl (Prod.mk.inj h).2.symm
  | ok a => exact Or.inr ⟨a, rfl, h⟩

/-- Peeling any first part off a call that succeeded. -/
theorem exec_bind_ok (h : (c >>= f).exec s = (.ok b, s')) :
    ∃ a s1, c.exec s = (.ok a, s1) ∧ (f a).exec s1 = (.ok b, s') := by
  rw [exec_bind] at h
  rcases hr : c.exec s with ⟨x, s1⟩
  rw [hr] at h
  cases x with
  | error e => exact absurd (Prod.mk.inj h).1 (by simp)
  | ok a => exact ⟨a, s1, rfl, h⟩

theorem Quiet.of_exec (hc : c.Quiet) (h : c.exec s = (r, s')) : s' = s := by
  have hs := hc.exec s
  rwa [h] at hs

/-- Peeling a quiet part off a call that succeeded. -/
theorem exec_bind_quiet_ok (hc : c.Quiet) (h : (c >>= f).exec s = (.ok b, s')) :
    ∃ a, c.exec s = (.ok a, s) ∧ (f a).exec s = (.ok b, s') := by
  obtain ⟨a, s1, ha, hf⟩ := exec_bind_ok h
  obtain rfl : s1 = s := hc.of_exec ha
  exact ⟨a, ha, hf⟩

theorem exec_lift_bind_ok (h : ((liftM x : Call σ κ ε μ α) >>= f).exec s = (.ok b, s')) :
    ∃ a, (liftM x : Call σ κ ε μ α).exec s = (.ok a, s) ∧ (f a).exec s = (.ok b, s') :=
  exec_bind_quiet_ok (quiet_lift x) h

theorem exec_of_isOk (h : (c.exec s).1.isOk = true) :
    ∃ a s', c.exec s = (.ok a, s') := by
  rcases hc : c.exec s with ⟨r, s'⟩
  rw [hc] at h
  cases r with
  | ok a => exact ⟨a, s', rfl⟩
  | error e => cases h

theorem exec_bind_assoc {γ : Type} (c : Call σ κ ε μ α) (f : α → Call σ κ ε μ β)
    (g : β → Call σ κ ε μ γ) (s : σ) : (c >>= f >>= g).exec s = (c >>= fun a => f a >>= g).exec s := by
  rw [exec_bind, exec_bind, exec_bind]
  rcases c.exec s with ⟨r, s'⟩
  cases r with
  | ok a => exact (exec_bind (f a) g s').symm
  | error e => rfl

theorem exec_bind_congr (c : Call σ κ ε μ α) {g : α → Call σ κ ε μ β}
    (h : ∀ a s', c.exec s = (.ok a, s') → (f a).exec s' = (g a).exec s') :
    (c >>= f).exec s = (c >>= g).exec s := by
  rw [exec_bind, exec_bind]
  split
  next hc => exact h _ _ hc
  next => rfl

/-- Going on after a first part that is known to succeed. -/
theorem exec_bind_of_ok {s1 : σ}
    (h : c.exec s = (.ok a, s1)) : (c >>= f).exec s = (f a).exec s1 := by
  rw [exec_bind, h]

theorem succeeds_bind {s1 : σ}
    (h : c.exec s = (.ok a, s1)) (hf : ∃ b s', (f a).exec s1 = (.ok b, s')) :
    ∃ b s', (c >>= f).exec s = (.ok b, s') := by
  rwa [exec_bind_of_ok h]

theorem succeeds_refuse_bind {c : Prop} [Decidable c] {e : ε} {f : Unit → Call σ κ ε μ β}
    (hc : ¬c) (hf : ∃ b s', (f ()).exec s = (.ok b, s')) :
    ∃ b s', ((liftM (refuse c e) : Call σ κ ε μ Unit) >>= f).exec s = (.ok b, s') :=
  succeeds_bind (by rw [exec_lift, refuse, if_neg hc]) hf

/-- A result that is only looked at leaves the database to the call. -/
theorem exec_bind_pure_snd (c : Call σ κ ε μ α) (f : α → β) (s : σ) :
    ((c >>= fun a => pure (f a)).exec s).2 = (c.exec s).2 := by
  rw [exec_bind]
  rcases c.exec s with ⟨r, s'⟩
  cases r with
  | error e => rfl
  | ok a => rfl

/-- Whatever states its reads see, and whatever its transactions come to, the call returns only
what `P` says. -/
def Returns (P : α → Prop) : Call σ κ ε μ α → Prop
  | done a => P a
  | fail _ => True
  | read k => ∀ s, (k s).Returns P
  | atomic _ k => ∀ r, (k r).Returns P
  | lock _ k => k.Returns P
  | unlock _ k => k.Returns P

section Returns

variable {P : α → Prop} {Q : β → Prop}

theorem returns_pure (h : P a) : (pure a : Call σ κ ε μ α).Returns P :=
  h

theorem returns_lookOr {g : σ → Except ε α} (h : ∀ s a, g s = .ok a → P a) :
    (lookOr g : Call σ κ ε μ α).Returns P := by
  intro s
  show (ofExcept (g s)).Returns P
  cases hg : g s with
  | error e => trivial
  | ok a => exact h s a hg

theorem returns_bind (hc : c.Returns P) (hf : ∀ a, P a → (f a).Returns Q) :
    (c >>= f).Returns Q := by
  show (c.bind f).Returns Q
  induction c with
  | done a => exact hf a hc
  | fail e => trivial
  | read k ih => exact fun s => ih s (hc s)
  | atomic t k ih => exact fun r => ih r (hc r)
  | lock m k ih => exact ih hc
  | unlock m k ih => exact ih hc

theorem returns_lift_bind (hf : ∀ a, x = .ok a → (f a).Returns Q) :
    ((liftM x : Call σ κ ε μ α) >>= f).Returns Q := by
  cases x with
  | error e => trivial
  | ok a => exact hf a rfl

theorem returns_true : c.Returns fun _ => True := by
  induction c with
  | done a => trivial
  | fail e => trivial
  | read k ih => exact ih
  | atomic t k ih => exact ih
  | lock m k ih => exact ih
  | unlock m k ih => exact ih

theorem returns_then (hf : ∀ a, (f a).Returns Q) : (c >>= f).Returns Q :=
  returns_bind returns_true fun a _ => hf a

end Returns

/-- The transaction, its result left aside, is one that the call may make: with its reads and its
earlier transactions as they may turn out. -/
def Makes (t : Tx σ κ ε Unit) : Call σ κ ε μ α → Prop
  | done _ => False
  | fail _ => False
  | read k => ∃ s, (k s).Makes t
  | atomic u k => t = u.void ∨ ∃ r, (k r).Makes t
  | lock _ k => k.Makes t
  | unlock _ k => k.Makes t

/-- The first transaction that the call comes to while its reads see `s`. -/
def firstTx (s : σ) : Call σ κ ε μ α → Option (Tx σ κ ε Unit)
  | done _ => none
  | fail _ => none
  | read k => (k s).firstTx s
  | atomic t _ => some t.void
  | lock _ k => k.firstTx s
  | unlock _ k => k.firstTx s

section Makes

variable {t : Tx σ κ ε Unit} {P : α → Prop}

theorem makes_firstTx (h : c.firstTx s = some t) : c.Makes t := by
  induction c with
  | done a => cases h
  | fail e => cases h
  | read k ih => exact ⟨s, ih s h⟩
  | atomic u k => exact Or.inl (Option.some.inj h).symm
  | lock m k ih => exact ih h
  | unlock m k ih => exact ih h

theorem Quiet.not_makes (hc : c.Quiet) : ¬ c.Makes t := by
  induction c with
  | done a => exact id
  | fail e => exact id
  | read k ih => exact fun ⟨s, h⟩ => ih s (quiet_read.mp hc s) h
  | atomic u k => exact absurd hc not_quiet_atomic
  | lock m k => exact absurd hc not_quiet_lock
  | unlock m k => exact absurd hc not_quiet_unlock

theorem makes_tx {u : Tx σ κ ε α} (h : (tx u : Call σ κ ε μ α).Makes t) : t = u.void := by
  rcases h with h | ⟨r, h⟩
  · exact h
  · exact absurd h (quiet_ofExcept r).not_makes

/-- A transaction of two calls in sequence is one of the first, or of the second with what the
first returns. -/
theorem makes_bind (hc : c.Returns P) (h : (c >>= f).Makes t) :
    c.Makes t ∨ ∃ a, P a ∧ (f a).Makes t := by
  change (c.bind f).Makes t at h
  induction c with
  | done a => exact Or.inr ⟨a, hc, h⟩
  | fail e => exact absurd h id
  | read k ih =>
      obtain ⟨s, h⟩ := h
      exact (ih s (hc s) h).imp_left fun h => ⟨s, h⟩
  | atomic u k ih =>
      rcases h with h | ⟨r, h⟩
      · exact Or.inl (Or.inl h)
      · exact (ih r (hc r) h).imp_left fun h => Or.inr ⟨r, h⟩
  | lock m k ih => exact ih hc h
  | unlock m k ih => exact ih hc h

theorem makes_quiet_bind (hquiet : c.Quiet) (hc : c.Returns P) (h : (c >>= f).Makes t) :
    ∃ a, P a ∧ (f a).Makes t :=
  (makes_bind hc h).resolve_left hquiet.not_makes

theorem makes_lift_bind (h : ((liftM x : Call σ κ ε μ α) >>= f).Makes t) :
    ∃ a, x = .ok a ∧ (f a).Makes t := by
  cases x with
  | error e => exact absurd h id
  | ok a => exact ⟨a, rfl, h⟩

theorem makes_holding (h : (c.holding m).Makes t) : c.Makes t := by
  change (c.releasing m).Makes t at h
  induction c with
  | done a => exact h
  | fail e => exact h
  | read k ih => exact h.imp fun s h => ih s h
  | atomic u k ih => exact h.imp_right fun ⟨r, h⟩ => ⟨r, ih r h⟩
  | lock m' k ih => exact ih h
  | unlock m' k ih => exact ih h

end Makes

/-- Every transaction of the call, from whatever state it starts, changes the database as
`E` says. -/
def Each (E : σ → σ → Prop) : Call σ κ ε μ α → Prop
  | done _ => True
  | fail _ => True
  | read k => ∀ s, (k s).Each E
  | atomic t k => (∀ s r, t.run s = .ok r → E s r.2) ∧ ∀ r, (k r).Each E
  | lock _ k => k.Each E
  | unlock _ k => k.Each E

section Each

variable {E : σ → σ → Prop}

theorem each_read {k : σ → Call σ κ ε μ α} : (read k).Each E ↔ ∀ s, (k s).Each E :=
  Iff.rfl

theorem each_atomic {t : Tx σ κ ε β} {k : Except ε β → Call σ κ ε μ α} :
    (atomic t k).Each E ↔ (∀ s r, t.run s = .ok r → E s r.2) ∧ ∀ r, (k r).Each E :=
  Iff.rfl

theorem each_lock : (lock m c).Each E ↔ c.Each E :=
  Iff.rfl

theorem each_unlock : (unlock m c).Each E ↔ c.Each E :=
  Iff.rfl

theorem Quiet.each (hc : c.Quiet) : c.Each E := by
  induction c with
  | done a => exact trivial
  | fail e => exact trivial
  | read k ih => exact fun s => ih s (hc s)
  | atomic t k ih => exact hc.elim
  | lock m k ih => exact hc.elim
  | unlock m k ih => exact hc.elim

theorem each_ofExcept (x : Except ε α) : (ofExcept x : Call σ κ ε μ α).Each E :=
  (quiet_ofExcept x).each

theorem each_tx (ht : ∀ s r, t.run s = .ok r → E s r.2) :
    (tx t : Call σ κ ε μ α).Each E :=
  ⟨ht, fun r => each_ofExcept r⟩

theorem each_bind (hc : c.Each E) (hf : ∀ a, (f a).Each E) : (c >>= f).Each E := by
  show (c.bind f).Each E
  induction c with
  | done a => exact hf a
  | fail e => exact trivial
  | read k ih => exact fun s => ih s (hc s)
  | atomic t k ih => exact ⟨hc.1, fun r => ih r (hc.2 r)⟩
  | lock m k ih => exact ih hc
  | unlock m k ih => exact ih hc

/-- Going on after a check, with what it returned. -/
theorem each_lift_bind (hf : ∀ a, x = .ok a → (f a).Each E) :
    ((liftM x : Call σ κ ε μ α) >>= f).Each E := by
  cases x with
  | error e => exact trivial
  | ok a => exact hf a rfl

theorem each_ite {p : Prop} [Decidable p] (hc : c.Each E) (hd : d.Each E) :
    (if p then c else d).Each E := by
  split
  · exact hc
  · exact hd

theorem each_attempt (hc : c.Each E) : c.attempt.Each E := by
  induction c with
  | done a => exact trivial
  | fail e => exact trivial
  | read k ih => exact fun s => ih s (hc s)
  | atomic t k ih => exact ⟨hc.1, fun r => ih r (hc.2 r)⟩
  | lock m k ih => exact ih hc
  | unlock m k ih => exact ih hc

theorem each_holding (hc : c.Each E) : (c.holding m).Each E := by
  show (c.releasing m).Each E
  induction c with
  | done a => exact trivial
  | fail e => exact trivial
  | read k ih => exact fun s => ih s (hc s)
  | atomic t k ih => exact ⟨hc.1, fun r => ih r (hc.2 r)⟩
  | lock m k ih => exact ih hc
  | unlock m k ih => exact ih hc

theorem Each.mono {F : σ → σ → Prop} (hc : c.Each E) (h : ∀ s s', E s s' → F s s') :
    c.Each F := by
  induction c with
  | done a => exact trivial
  | fail e => exact trivial
  | read k ih => exact fun s => ih s (hc s)
  | atomic t k ih => exact ⟨fun s r hr => h s r.2 (hc.1 s r hr), fun r => ih r (hc.2 r)⟩
  | lock m k ih => exact ih hc
  | unlock m k ih => exact ih hc

/-- **From transactions to the call.** Where the changes compose, a call that runs alone
makes such a change. -/
theorem Each.exec [IsPreorder σ E] (hc : c.Each E) (s : σ) : E s (c.exec s).2 := by
  induction c generalizing s with
  | done a => exact refl_of E s
  | fail e => exact refl_of E s
  | read k ih => exact ih s (hc s) s
  | atomic t k ih =>
      simp only [Call.exec]
      cases ht : t.run s with
      | error e => exact ih _ (hc.2 _) s
      | ok r => exact trans_of E (hc.1 s r ht) (ih _ (hc.2 _) r.2)
  | lock m k ih => exact ih hc s
  | unlock m k ih => exact ih hc s

theorem Each.of_exec [IsPreorder σ E] (hc : c.Each E) (h : c.exec s = (r, s')) : E s s' := by
  have hs := hc.exec s
  rwa [h] at hs

/-- What a call does after its first part, whether or not it comes to it. -/
theorem exec_bind_each [IsPreorder σ E]
    (hf : ∀ a, (f a).Each E) (s : σ) : E (c.exec s).2 ((c >>= f).exec s).2 := by
  rw [exec_bind]
  rcases c.exec s with ⟨r, s'⟩
  cases r with
  | error e => exact refl_of E s'
  | ok a => exact (hf a).exec s'

end Each

/-- Every error that the call can end with satisfies `P`. -/
def Raises (P : ε → Prop) (c : Call σ κ ε μ α) : Prop :=
  ∀ s e s', c.exec s = (.error e, s') → P e

section Raises

variable {P : ε → Prop}

theorem raises_pure (a : α) : (pure a : Call σ κ ε μ α).Raises P := by
  intro s e s' h
  cases h

theorem raises_look (g : σ → α) : (look g : Call σ κ ε μ α).Raises P := by
  intro s e s' h
  cases h

theorem raises_lookOr {g : σ → Except ε α} (h : ∀ s e, g s = .error e → P e) :
    (lookOr g : Call σ κ ε μ α).Raises P := by
  intro s e s' herror
  rw [exec_lookOr] at herror
  exact h s e (Prod.mk.inj herror).1

theorem raises_tx (h : t.Raises P) : (tx t : Call σ κ ε μ α).Raises P := by
  intro s e s' herror
  rcases exec_tx_cases herror with ⟨a, -, hok⟩ | ⟨e', hrun, hsame, -⟩
  · cases hok
  · cases hsame
    exact h s e hrun

theorem raises_bind (hc : c.Raises P) (hf : ∀ a, (f a).Raises P) : (c >>= f).Raises P := by
  intro s e s' h
  rw [exec_bind] at h
  rcases hexec : c.exec s with ⟨r, s1⟩
  rw [hexec] at h
  cases r with
  | error e' =>
      cases h
      exact hc s e s' hexec
  | ok a => exact hf a s1 e s' h

end Raises

/-- The call leaves the database alone or changes it as `E` says. -/
def AtMost (E : σ → σ → Prop) (c : Call σ κ ε μ α) : Prop :=
  ∀ s, (c.exec s).2 = s ∨ E s (c.exec s).2

section AtMost

variable {E F : σ → σ → Prop}

theorem AtMost.of_exec (h : c.AtMost E) (hexec : c.exec s = (r, s')) :
    s' = s ∨ E s s' := by
  have hs := h s
  rw [hexec] at hs
  exact hs

theorem atMost_of_quiet (hc : c.Quiet) : c.AtMost E :=
  fun s => Or.inl (hc.exec s)

theorem AtMost.mono (hc : c.AtMost E) (h : ∀ s s', E s s' → F s s') : c.AtMost F :=
  fun s => (hc s).imp_right (h s _)

/-- A transaction changes the database as its run does. -/
theorem atMost_tx (t : Tx σ κ ε α) :
    (tx t : Call σ κ ε μ α).AtMost fun s s' => ∃ a, t.run s = .ok (a, s') := by
  intro s
  rcases exec_tx_cases (μ := μ) (t := t) (s := s) rfl with ⟨a, ht, -⟩ | ⟨e, -, -, hs⟩
  · exact Or.inr ⟨a, ht⟩
  · exact Or.inl hs

/-- A transaction, and what comes after it has committed. -/
theorem atMost_tx_bind (hf : ∀ s a s', t.run s = .ok (a, s') → E s ((f a).exec s').2) :
    ((tx t : Call σ κ ε μ α) >>= f).AtMost E := by
  intro s
  rw [exec_bind, exec_tx]
  cases ht : t.run s with
  | error e => exact Or.inl rfl
  | ok r => exact Or.inr (hf s r.1 r.2 ht)

/-- A check may come first, and what follows knows its result. -/
theorem atMost_lift_bind (hf : ∀ a, x = .ok a → (f a).AtMost E) :
    ((liftM x : Call σ κ ε μ α) >>= f).AtMost E := by
  cases x with
  | error e => exact fun s => Or.inl rfl
  | ok a => exact hf a rfl

/-- A quiet part may come first. -/
theorem atMost_bind_quiet (hc : c.Quiet) (hf : ∀ a, (f a).AtMost E) : (c >>= f).AtMost E := by
  intro s
  rcases exec_bind_quiet (s := s) hc rfl with hs | ⟨a, -, hfa⟩
  · exact Or.inl hs
  · have hs := hf a s
    rw [hfa] at hs
    exact hs

/-- A quiet part may come first, and what follows may rely on what it saw. -/
theorem atMost_bind_seen {P : σ → α → Prop} (hc : c.Quiet)
    (hP : ∀ s a, c.exec s = (.ok a, s) → P s a)
    (hf : ∀ a, (f a).AtMost fun s s' => P s a → E s s') : (c >>= f).AtMost E := by
  intro s
  rcases exec_bind_quiet (s := s) hc rfl with hs | ⟨a, ha, hfa⟩
  · exact Or.inl hs
  · have hs := hf a s
    rw [hfa] at hs
    exact hs.imp_right fun h => h (hP s a ha)

/-- A quiet part may come last. -/
theorem atMost_then_quiet (hc : c.AtMost E) (hf : ∀ a, (f a).Quiet) : (c >>= f).AtMost E := by
  intro s
  have hs := hc s
  rw [exec_bind]
  rcases hr : c.exec s with ⟨r, s1⟩
  rw [hr] at hs
  cases r with
  | error e => exact hs
  | ok a => rw [(hf a).exec s1]; exact hs

theorem atMost_ite {p : Prop} [Decidable p]
    (hc : c.AtMost E) (hd : d.AtMost E) : (if p then c else d).AtMost E := by
  split
  · exact hc
  · exact hd

theorem atMost_holding (hc : c.AtMost E) : (c.holding m).AtMost E :=
  fun s => by simpa using hc s

end AtMost

/-- Run alone from `s`, the call ends with a result and in a state of which `post` holds, or with
an error in a state of which `fails` holds. -/
def Yields (c : Call σ κ ε μ α) (s : σ) (post : α → σ → Prop) (fails : σ → Prop) : Prop :=
  match c.exec s with
  | (.ok a, s') => post a s'
  | (.error _, s') => fails s'

section Yields

variable {post : β → σ → Prop}
  {mid : α → σ → Prop} {fails : σ → Prop}

theorem yields_pure (h : post b s) : (pure b : Call σ κ ε μ β).Yields s post fails :=
  h

theorem yields_fail {e : ε} (h : fails s) : (fail e : Call σ κ ε μ β).Yields s post fails :=
  h

theorem Yields.mono {mid' : α → σ → Prop} {fails' : σ → Prop} (h : c.Yields s mid fails)
    (hpost : ∀ a s', mid a s' → mid' a s') (hfails : ∀ s', fails s' → fails' s') :
    c.Yields s mid' fails' := by
  unfold Yields at h ⊢
  split
  next hexec =>
    rw [hexec] at h
    exact hpost _ _ h
  next hexec =>
    rw [hexec] at h
    exact hfails _ h

theorem yields_bind (h : c.Yields s (fun a s' => (f a).Yields s' post fails) fails) :
    (c >>= f).Yields s post fails := by
  unfold Yields at h ⊢
  rw [exec_bind]
  rcases hexec : c.exec s with ⟨r, s'⟩
  rw [hexec] at h
  cases r with
  | error e => exact h
  | ok a => exact h

theorem yields_quiet (hc : c.Quiet) (hfails : fails s)
    (h : ∀ a, c.exec s = (.ok a, s) → mid a s) : c.Yields s mid fails := by
  unfold Yields
  rcases hexec : c.exec s with ⟨r, s'⟩
  obtain rfl := hc.of_exec hexec
  cases r with
  | error e => exact hfails
  | ok a => exact h a hexec

theorem yields_quiet_bind (hc : c.Quiet) (hfails : fails s)
    (h : ∀ a, c.exec s = (.ok a, s) → (f a).Yields s post fails) : (c >>= f).Yields s post fails := by
  apply yields_bind
  exact yields_quiet hc hfails h

theorem yields_lift_bind (hfails : fails s) (h : ∀ a, x = .ok a → (f a).Yields s post fails) :
    ((liftM x : Call σ κ ε μ α) >>= f).Yields s post fails :=
  yields_quiet_bind (quiet_lift x) hfails fun a hexec => h a (by simpa using hexec)

theorem yields_tx {t : Tx σ κ ε β} (hfails : fails s)
    (h : ∀ b s', t.run s = .ok (b, s') → post b s') :
    (tx t : Call σ κ ε μ β).Yields s post fails := by
  unfold Yields
  rw [exec_tx]
  cases ht : t.run s with
  | error e => exact hfails
  | ok r => exact h r.1 r.2 ht

/-- A transaction after which the call goes on either way. -/
theorem yields_attempt_bind {g : Except ε α → Call σ κ ε μ β}
    (h : ∀ a s', t.run s = .ok (a, s') → (g (.ok a)).Yields s' post fails)
    (herror : ∀ e, (g (.error e)).Yields s post fails) :
    ((tx t : Call σ κ ε μ α).attempt >>= g).Yields s post fails := by
  apply yields_bind
  unfold Yields
  rw [exec_attempt, exec_tx]
  cases ht : t.run s with
  | error e => exact herror e
  | ok r => exact h r.1 r.2 ht

theorem yields_ite {p : Prop} [Decidable p] (hc : p → c.Yields s mid fails)
    (hd : ¬ p → d.Yields s mid fails) : (if p then c else d).Yields s mid fails := by
  split
  next hp => exact hc hp
  next hp => exact hd hp

theorem yields_holding (h : c.Yields s mid fails) : (c.holding m).Yields s mid fails := by
  unfold Yields at h ⊢
  rwa [exec_holding]

theorem yields_of_exec (h : fails (c.exec s).2) : c.Yields s (fun _ => fails) fails := by
  unfold Yields
  split
  next hexec =>
    rw [hexec] at h
    exact h
  next hexec =>
    rw [hexec] at h
    exact h

theorem Yields.of_exec (h : c.Yields s mid fails) (hexec : c.exec s = (.ok a, s')) : mid a s' := by
  unfold Yields at h
  rw [hexec] at h
  exact h

/-- Where nothing is said of the result, the state that the call leaves is as both say. -/
theorem Yields.exec (h : c.Yields s (fun _ => fails) fails) : fails (c.exec s).2 := by
  unfold Yields at h
  split at h
  next hexec =>
    rw [hexec]
    exact h
  next hexec =>
    rw [hexec]
    exact h

end Yields

-- As for transactions, the rules stand in for the recursion.
attribute [irreducible] Quiet Each Yields

end Call
