import Mathlib.Data.List.Induction
import Mathlib.Logic.Relation
import Taskboard.Lib.Table

/-!
# Transactions under READ COMMITTED

Several transactions are under way at a server, and execute one statement at a time in any
order. A statement sees what has been committed before it, and what its own transaction has
written. It waits while a row that it would change has been changed by another transaction
that is still under way; what it changes is decided when it executes. A transaction that ends
with a result is committed: its writes are carried out on the committed state. One that ends
with an error leaves nothing behind.

* `Server.act` is the server as a function: what it does next is chosen from outside.
  `Step` says the same as a relation, and `act_step` connects the two.
* `Tx.Keeps` says what one transaction comes to, whatever the others commit between its
  statements as long as they leave alone the rows that it has changed and do what it relies on;
  its rules follow the shape of the program.
* `Runs.keeps` puts the transactions together: where each of them commits what the others rely
  on, the invariant holds at all times and every transaction keeps to its part.
-/

section ReadCommitted

variable {σ κ ε α β ο η : Type} [Parts σ κ] {log : List (Write σ κ)} {k : κ}

/-- The state that these writes lead to, one after the other. -/
def replay (log : List (Write σ κ)) (s : σ) : σ :=
  log.foldl (fun s write => write.apply s) s

/-- The rows that these writes have changed. -/
def lockedBy (log : List (Write σ κ)) : List κ :=
  log.flatMap fun write => write.rows

@[simp] theorem replay_nil (s : σ) : replay ([] : List (Write σ κ)) s = s := rfl

@[simp] theorem replay_append (log log' : List (Write σ κ)) (s : σ) :
    replay (log ++ log') s = replay log' (replay log s) :=
  List.foldl_append

@[simp] theorem replay_cons (write : Write σ κ) (log : List (Write σ κ)) (s : σ) :
    replay (write :: log) s = replay log (write.apply s) := rfl

@[simp] theorem lockedBy_append (log log' : List (Write σ κ)) :
    lockedBy (log ++ log') = lockedBy log ++ lockedBy log' :=
  List.flatMap_append

theorem mem_lockedBy :
    k ∈ lockedBy log ↔ ∃ write ∈ log, k ∈ write.rows :=
  List.mem_flatMap

/-- Writes leave alone what they have not locked. -/
theorem part_replay_of_not_locked (h : k ∉ lockedBy log) (s : σ) :
    part k (replay log s) = part k s := by
  induction log generalizing s with
  | nil => rfl
  | cons write log ih =>
      rw [mem_lockedBy] at h
      have hwrite : k ∉ write.rows := fun hk => h ⟨write, List.mem_cons_self, hk⟩
      have hlog : k ∉ lockedBy log := by
        rw [mem_lockedBy]
        rintro ⟨other, hmem, hk⟩
        exact h ⟨other, List.mem_cons_of_mem _ hmem, hk⟩
      rw [replay_cons, ih hlog, write.elsewhere s k hwrite]

/-- What has been committed: the state, which transactions were, with their results, and the states
that they were committed on. -/
structure Past (σ η : Type) where
  committed : σ
  history : List η := []
  trail : List σ := []

/-- One more transaction is committed. -/
def Past.append (p : Past σ η) (e : η) (s : σ) : Past σ η where
  committed := s
  history := p.history ++ [e]
  trail := p.trail ++ [p.committed]

/-- What was there at an earlier time. -/
inductive Past.Earlier (p : Past σ η) : Past σ η → Prop
  | refl : p.Earlier p
  | append {q : Past σ η} (h : p.Earlier q) (e : η) (s : σ) : p.Earlier (q.append e s)

namespace Past

variable {p q r : Past σ η}

theorem Earlier.trans (h : p.Earlier q) (h' : q.Earlier r) : p.Earlier r := by
  induction h' with
  | refl => exact h
  | append _ e s ih => exact ih.append e s

end Past

section InTurn

/-- Everything in the history was as the law says when it came, behind what was there before. -/
def InTurn (law : List η → η → Prop) (history : List η) : Prop :=
  ∀ before e after, history = before ++ e :: after → law before e

variable {law : List η → η → Prop} {history : List η} {e : η}

theorem inTurn_nil : InTurn law [] := by
  intro before e after h
  simp at h

theorem InTurn.snoc (h : InTurn law history) (he : law history e) :
    InTurn law (history ++ [e]) := by
  intro before e' after hsplit
  rcases List.eq_nil_or_concat after with rfl | ⟨after, last, rfl⟩
  · obtain ⟨rfl, hlast⟩ := List.append_inj' hsplit rfl
    obtain rfl := List.singleton_inj.mp hlast
    exact he
  · rw [List.concat_eq_append, ← List.cons_append, ← List.append_assoc] at hsplit
    obtain ⟨hfront, -⟩ := List.append_inj' hsplit rfl
    exact h before e' after hfront

/-- Of two entries one was first. -/
theorem mem_before_or {before after before' after' : List η} {e' : η}
    (h : before ++ e :: after = before' ++ e' :: after') : e = e' ∨ e ∈ before' ∨ e' ∈ before := by
  rcases List.append_eq_append_iff.mp h with ⟨mid, rfl, hmid⟩ | ⟨mid, rfl, hmid⟩
  · cases mid with
    | nil => exact Or.inl (List.cons.inj hmid).1
    | cons first mid =>
        obtain ⟨rfl, -⟩ := List.cons.inj hmid
        exact Or.inr (Or.inl (by simp))
  · cases mid with
    | nil => exact Or.inl (List.cons.inj hmid).1.symm
    | cons first mid =>
        obtain ⟨rfl, -⟩ := List.cons.inj hmid
        exact Or.inr (Or.inr (by simp))

/-- What the law does not allow twice happens once. -/
theorem InTurn.length_filter_le_one {q : η → Bool} (h : InTurn law history)
    (honce : ∀ before e, law before e → q e = true → ∀ e' ∈ before, q e' = false) :
    (history.filter q).length ≤ 1 := by
  induction history using List.reverseRecOn with
  | nil => simp
  | append_singleton history e ih =>
      have hfront : InTurn law history := by
        intro before e' after hsplit
        apply h before e' (after ++ [e])
        rw [hsplit, List.append_assoc, List.cons_append]
      rw [List.filter_append]
      by_cases he : q e = true
      · have hnone : history.filter q = [] := by
          rw [List.filter_eq_nil_iff]
          intro e' he'
          simp [honce history e (h history e [] rfl) he e' he']
        rw [hnone, List.nil_append]
        exact List.length_filter_le _ _
      · rw [List.filter_cons_of_neg he, List.filter_nil, List.append_nil]
        exact ih hfront

end InTurn

section OneTransaction

/-- What may have become of the committed state while a transaction is under way that has made
these writes: the invariant holds, the others have done what it relies on for the rows that it
has written, and these are as they were. -/
structure Stable (I : Past σ η → Prop) (R : List κ → Past σ η → Past σ η → Prop)
    (log : List (Write σ κ)) (p p' : Past σ η) : Prop where
  inv : I p'
  later : p.Earlier p'
  rely : R (lockedBy log) p p'
  held : ∀ k ∈ lockedBy log, part k p'.committed = part k p.committed

/-- The rows of a table that have a locked key. -/
theorem Stable.rows {ρ : Type} [DecidableEq κ] (T : Table σ κ ρ) {I : Past σ η → Prop}
    {R : List κ → Past σ η → Past σ η → Prop} {p p' : Past σ η}
    (h : Stable I R log p p') (hk : k ∈ lockedBy log) :
    ((T.rows p'.committed).filter fun r => T.key r = k) =
      (T.rows p.committed).filter fun r => T.key r = k :=
  T.part_rows (h.held k hk)

namespace Tx

/-- Whatever others commit before each of its statements, as far as it is `Stable`, the writes of
the transaction and its result satisfy `post` when it is through. -/
def Keeps (I : Past σ η → Prop) (R : List κ → Past σ η → Past σ η → Prop)
    (post : List (Write σ κ) → α → Past σ η → Prop) :
    Tx σ κ ε α → List (Write σ κ) → Past σ η → Prop
  | done a, log, p => ∀ p', Stable I R log p p' → post log a p'
  | fail _, _, _ => True
  | query k, log, p => ∀ p', Stable I R log p p' →
      (k (replay log p'.committed)).Keeps I R post log p'
  | exec w k, log, p => ∀ p' v, Stable I R log p p' → w (replay log p'.committed) = .ok v →
      (k v.rows.length).Keeps I R post (log ++ [v]) p'

variable {I : Past σ η → Prop} {R : List κ → Past σ η → Past σ η → Prop}
  {post post' : List (Write σ κ) → α → Past σ η → Prop} {t : Tx σ κ ε α} {f : α → Tx σ κ ε β}
  {p p' : Past σ η}

theorem stable_refl [∀ keys, Std.Refl (R keys)] (h : I p) : Stable I R log p p :=
  ⟨h, .refl, refl_of (R _) p, fun _ _ => rfl⟩

/-- What was stable stays so. -/
theorem Keeps.stable [∀ keys, IsTrans _ (R keys)] (h : t.Keeps I R post log p) (hstable : Stable I R log p p') :
    t.Keeps I R post log p' := by
  have hlater {p''} (h' : Stable I R log p' p'') : Stable I R log p p'' :=
    ⟨h'.inv, hstable.later.trans h'.later, trans_of (R _) hstable.rely h'.rely,
      fun k hk => (h'.held k hk).trans (hstable.held k hk)⟩
  cases t with
  | done a => exact fun p'' h' => h p'' (hlater h')
  | fail e => trivial
  | query k => exact fun p'' h' => h p'' (hlater h')
  | exec w k => exact fun p'' v h' => h p'' v (hlater h')

theorem keeps_pure {a : α} (h : ∀ p', Stable I R log p p' → post log a p') :
    (pure a : Tx σ κ ε α).Keeps I R post log p :=
  h

section Bind

variable {γ : Type} {post : List (Write σ κ) → β → Past σ η → Prop}

theorem keeps_select_bind {g : σ → γ} {f : γ → Tx σ κ ε β}
    (h : ∀ p', Stable I R log p p' → (f (g (replay log p'.committed))).Keeps I R post log p') :
    ((select g : Tx σ κ ε γ) >>= f).Keeps I R post log p :=
  h

theorem keeps_lift_bind {x : Except ε γ} {f : γ → Tx σ κ ε β}
    (h : ∀ a, x = .ok a → (f a).Keeps I R post log p) :
    ((liftM x : Tx σ κ ε γ) >>= f).Keeps I R post log p := by
  cases hx : x with
  | error e => trivial
  | ok a => exact h a hx

theorem keeps_selectOr_bind {g : σ → Except ε γ} {f : γ → Tx σ κ ε β}
    (h : ∀ p' a, Stable I R log p p' → g (replay log p'.committed) = .ok a →
      (f a).Keeps I R post log p') :
    ((selectOr g : Tx σ κ ε γ) >>= f).Keeps I R post log p := by
  intro p' hstable
  show ((ofExcept (g (replay log p'.committed))).bind f).Keeps I R post log p'
  cases hg : g (replay log p'.committed) with
  | error e => trivial
  | ok a => exact h p' a hstable hg

variable {ρ : Type} [DecidableEq κ] {T : Table σ κ ρ} {q : σ → ρ → Bool}

theorem keeps_insert_bind {row : ρ} {holds : σ → Bool} {e : ε} {f : Unit → Tx σ κ ε β}
    (h : ∀ p', Stable I R log p p' → holds (replay log p'.committed) = true →
      (∀ r ∈ T.rows (replay log p'.committed), T.key r ≠ T.key row) →
      (f ()).Keeps I R post (log ++ [T.add row]) p') :
    (T.insert row holds e >>= f).Keeps I R post log p := by
  intro p' v hstable hv
  dsimp only at hv
  split at hv
  · rename_i hcond
    cases hv
    simp only [Bool.and_eq_true, List.all_eq_true, decide_eq_true_eq] at hcond
    exact h p' hstable hcond.1 hcond.2
  · cases hv

theorem keeps_updateWhere_bind {g : ρ → ρ}
    {hg : ∀ r, T.key (g r) = T.key r} {f : Nat → Tx σ κ ε β}
    (h : ∀ p' v, Stable I R log p p' →
      v.rows = T.hit (q (replay log p'.committed)) (replay log p'.committed) →
      (∀ s, v.apply s = T.put (mapWhere
        (fun r => q (replay log p'.committed) r && decide (T.key r ∈ v.rows)) g (T.rows s)) s) →
      (f v.rows.length).Keeps I R post (log ++ [v]) p') :
    (T.updateWhere q g hg >>= f).Keeps I R post log p := by
  intro p' v hstable hv
  cases hv
  exact h p' _ hstable rfl fun _ => rfl

theorem keeps_deleteWhere_bind {f : Nat → Tx σ κ ε β}
    (h : ∀ p' v, Stable I R log p p' →
      v.rows = T.hit (q (replay log p'.committed)) (replay log p'.committed) →
      (∀ s, v.apply s = T.put ((T.rows s).filter fun r =>
        !(q (replay log p'.committed) r && decide (T.key r ∈ v.rows))) s) →
      (f v.rows.length).Keeps I R post (log ++ [v]) p') :
    (T.deleteWhere q >>= f).Keeps I R post log p := by
  intro p' v hstable hv
  cases hv
  exact h p' _ hstable rfl fun _ => rfl

end Bind

theorem keeps_ite {c : Prop} [Decidable c] {u : Tx σ κ ε α} (ht : c → t.Keeps I R post log p)
    (hu : ¬ c → u.Keeps I R post log p) : (if c then t else u).Keeps I R post log p := by
  split
  · exact ht ‹_›
  · exact hu ‹_›

theorem keeps_void [∀ keys, Std.Refl (R keys)] {post : List (Write σ κ) → Unit → Past σ η → Prop}
    (h : t.Keeps I R (fun log _ p => post log () p) log p) (hinv : I p) :
    t.void.Keeps I R post log p := by
  induction t generalizing log p with
  | done a => exact h
  | fail e => trivial
  | query k ih => exact fun p' hstable => ih _ (h p' hstable) hstable.inv
  | exec w k ih => exact fun p' v hstable hw => ih _ (h p' v hstable hw) hstable.inv

/-- Every write that a statement of the program may make takes any state to one that `E` says,
not only the state that it was made for. -/
def Issues (E : σ → σ → Prop) : Tx σ κ ε α → Prop
  | done _ => True
  | fail _ => True
  | query k => ∀ s, (k s).Issues E
  | exec w k => (∀ s v, w s = .ok v → ∀ s', E s' (v.apply s')) ∧ ∀ n, (k n).Issues E

/-- Of a program it may be enough to know what its writes are like. -/
theorem keeps_issues {E : σ → σ → Prop} [IsPreorder σ E] (ht : t.Issues E)
    (hlog : ∀ s, E s (replay log s))
    (h : ∀ log a p', (∀ s, E s (replay log s)) → post log a p') : t.Keeps I R post log p := by
  induction t generalizing log p with
  | done a => exact fun p' _ => h log a p' hlog
  | fail e => trivial
  | query k ih => exact fun p' _ => ih _ (ht _) hlog
  | exec w k ih =>
      intro p' v _ hw
      apply ih _ (ht.2 _)
      intro s
      rw [replay_append]
      exact trans_of E (hlog s) (ht.1 _ v hw _)

section Issues

variable {E : σ → σ → Prop}

theorem issues_bind (ht : t.Issues E) (hf : ∀ a, (f a).Issues E) : (t >>= f).Issues E := by
  show (t.bind f).Issues E
  induction t with
  | done a => exact hf a
  | fail e => trivial
  | query k ih => exact fun s => ih s (ht s)
  | exec w k ih => exact ⟨ht.1, fun n => ih n (ht.2 n)⟩

theorem issues_pure (a : α) : (pure a : Tx σ κ ε α).Issues E :=
  trivial

theorem issues_fail (e : ε) : (fail e : Tx σ κ ε α).Issues E :=
  trivial

theorem issues_ofExcept (x : Except ε α) : (ofExcept x : Tx σ κ ε α).Issues E := by
  cases x with
  | error e => trivial
  | ok a => trivial

theorem issues_lift (x : Except ε α) : (liftM x : Tx σ κ ε α).Issues E :=
  issues_ofExcept x

theorem issues_select (g : σ → α) : (select g : Tx σ κ ε α).Issues E :=
  fun _ => trivial

theorem issues_selectOr (g : σ → Except ε α) : (selectOr g : Tx σ κ ε α).Issues E :=
  fun s => issues_ofExcept (g s)

/-- What is checked before is known behind it. -/
theorem issues_lift_bind {γ : Type} {x : Except ε γ} {f : γ → Tx σ κ ε α}
    (h : ∀ a, x = .ok a → (f a).Issues E) : ((liftM x : Tx σ κ ε γ) >>= f).Issues E := by
  cases hx : x with
  | error e => trivial
  | ok a => exact h a hx

theorem issues_write {w : σ → Except ε (Write σ κ)}
    (h : ∀ s v, w s = .ok v → ∀ s', E s' (v.apply s')) : (write w : Tx σ κ ε Nat).Issues E :=
  ⟨h, fun _ => trivial⟩

theorem issues_ite {c : Prop} [Decidable c] {u : Tx σ κ ε α} (ht : t.Issues E)
    (hu : u.Issues E) : (if c then t else u).Issues E := by
  split
  · exact ht
  · exact hu

variable {ρ : Type} [DecidableEq κ] {T : Table σ κ ρ} {q : σ → ρ → Bool} {g : ρ → ρ}
  {hg : ∀ r, T.key (g r) = T.key r}

/-- An update changes rows that satisfy its condition when it is carried out, whatever they were
when it was made. -/
theorem issues_updateWhere
    (h : ∀ s (hit : ρ → Bool) s',
      E s' (T.put (mapWhere (fun r => q s r && hit r) g (T.rows s')) s')) :
    (T.updateWhere q g hg : Tx σ κ ε Nat).Issues E := by
  apply issues_write
  intro s v hv s'
  cases hv
  exact h s _ s'

theorem issues_insert {row : ρ} {holds : σ → Bool} {e : ε}
    (h : ∀ s', E s' (T.put (T.rows s' ++ [row]) s')) :
    (T.insert row holds e : Tx σ κ ε Unit).Issues E := by
  apply issues_bind
  · apply issues_write
    intro s v hv s'
    split at hv
    · cases hv
      exact h s'
    · cases hv
  · exact fun _ => issues_pure _

end Issues

end Tx

end OneTransaction

section Server

/-- A transaction under way: what it is, what is left of it, and what it has written. -/
structure Session (σ κ : Type) [Parts σ κ] (ε α ο : Type) where
  op : ο
  rest : Tx σ κ ε α
  log : List (Write σ κ) := []

/-- A server with what has been committed and the transactions under way. -/
structure Server (σ κ : Type) [Parts σ κ] (ε α ο : Type) where
  past : Past σ (ο × α)
  sessions : List (Session σ κ ε α ο) := []

/-- What the session sees. -/
def Session.view (x : Session σ κ ε α ο) (c : σ) : σ :=
  replay x.log c

/-- What has been committed once the session is, with this result. -/
def Session.commit (x : Session σ κ ε α ο) (a : α) (p : Past σ (ο × α)) : Past σ (ο × α) :=
  p.append (x.op, a) (x.view p.committed)

/-- What can be asked of the server: a further transaction, the next statement of one, and to
break one off. -/
inductive Server.Action (ο : Type) where
  | start (op : ο)
  | next (n : Nat)
  | abort (n : Nat)

/-- The row is changed by one of these transactions. -/
def Held (k : κ) (sessions : List (Session σ κ ε α ο)) : Prop :=
  ∃ y ∈ sessions, k ∈ lockedBy y.log

instance [DecidableEq κ] (k : κ) (sessions : List (Session σ κ ε α ο)) :
    Decidable (Held k sessions) :=
  inferInstanceAs (Decidable (∃ y ∈ sessions, k ∈ lockedBy y.log))

/-- The server after an action; `none` where there is no such transaction, or where its
statement has to wait. -/
def Server.act [DecidableEq κ] (prog : ο → Tx σ κ ε α) (server : Server σ κ ε α ο) :
    Server.Action ο → Option (Server σ κ ε α ο)
  | .start op => some { server with sessions := server.sessions ++ [{ op, rest := prog op }] }
  | .abort n =>
      match server.sessions.drop n with
      | [] => none
      | _ :: after => some { server with sessions := server.sessions.take n ++ after }
  | .next n =>
      match server.sessions.drop n with
      | [] => none
      | x :: after =>
          let before := server.sessions.take n
          match x.rest with
          | .done a => some { past := x.commit a server.past, sessions := before ++ after }
          | .fail _ => some { server with sessions := before ++ after }
          | .query k =>
              let rest := k (x.view server.past.committed)
              some { server with sessions := before ++ { x with rest } :: after }
          | .exec w k =>
              match w (x.view server.past.committed) with
              | .error _ => some { server with sessions := before ++ after }
              | .ok v =>
                  if ∀ key ∈ v.rows, ¬ Held key (before ++ after) then
                    some
                      { server with
                        sessions := before ++
                          { x with rest := k v.rows.length, log := x.log ++ [v] } :: after }
                  else none

/-- What the server may do next. -/
inductive Step (prog : ο → Tx σ κ ε α) :
    Server σ κ ε α ο → Server σ κ ε α ο → Prop
  | start (server : Server σ κ ε α ο) (op : ο) :
      Step prog server { server with sessions := server.sessions ++ [{ op, rest := prog op }] }
  | quit {p : Past σ (ο × α)} {before after : List (Session σ κ ε α ο)} {x : Session σ κ ε α ο} :
      Step prog ⟨p, before ++ x :: after⟩ ⟨p, before ++ after⟩
  | query {p : Past σ (ο × α)} {before after : List (Session σ κ ε α ο)} {x : Session σ κ ε α ο}
      {k : σ → Tx σ κ ε α} (hrest : x.rest = .query k) :
      Step prog ⟨p, before ++ x :: after⟩
        ⟨p, before ++ { x with rest := k (x.view p.committed) } :: after⟩
  | exec {p : Past σ (ο × α)} {before after : List (Session σ κ ε α ο)} {x : Session σ κ ε α ο}
      {w : σ → Except ε (Write σ κ)} {k : Nat → Tx σ κ ε α} {v : Write σ κ}
      (hrest : x.rest = .exec w k) (hw : w (x.view p.committed) = .ok v)
      (hfree : ∀ key ∈ v.rows, ¬ Held key (before ++ after)) :
      Step prog ⟨p, before ++ x :: after⟩
        ⟨p, before ++ { x with rest := k v.rows.length, log := x.log ++ [v] } :: after⟩
  | commit {p : Past σ (ο × α)} {before after : List (Session σ κ ε α ο)} {x : Session σ κ ε α ο}
      {a : α} (hrest : x.rest = .done a) :
      Step prog ⟨p, before ++ x :: after⟩ ⟨x.commit a p, before ++ after⟩

variable {prog : ο → Tx σ κ ε α} {server server' : Server σ κ ε α ο}

theorem Server.split_drop {n : Nat} {x : Session σ κ ε α ο} {after : List (Session σ κ ε α ο)}
    (h : server.sessions.drop n = x :: after) :
    server = ⟨server.past, server.sessions.take n ++ x :: after⟩ := by
  cases server with
  | mk p sessions =>
      simp only at h ⊢
      rw [← h, List.take_append_drop]

/-- **The function and the relation.** -/
theorem act_step [DecidableEq κ] {action : Server.Action ο} (h : server.act prog action = some server') :
    Step prog server server' := by
  cases action with
  | start op =>
      cases h
      exact .start server op
  | abort n =>
      simp only [Server.act] at h
      split at h
      · cases h
      · rename_i x after hdrop
        cases h
        conv => arg 2; rw [Server.split_drop hdrop]
        exact .quit
  | next n =>
      simp only [Server.act] at h
      split at h
      · cases h
      · rename_i x after hdrop
        have hsplit := Server.split_drop hdrop
        generalize server.sessions.take n = before at h hsplit
        split at h
        · rename_i a hrest
          cases h
          conv => arg 2; rw [hsplit]
          exact .commit hrest
        · cases h
          conv => arg 2; rw [hsplit]
          exact .quit
        · rename_i k hrest
          cases h
          conv => arg 2; rw [hsplit]
          exact .query hrest
        · rename_i w k hrest
          split at h
          · cases h
            conv => arg 2; rw [hsplit]
            exact .quit
          · rename_i v hw
            split at h
            · rename_i hfree
              cases h
              conv => arg 2; rw [hsplit]
              exact .exec hrest hw hfree
            · cases h

/-- No two transactions under way have changed the same row. -/
def Apart (sessions : List (Session σ κ ε α ο)) : Prop :=
  sessions.Pairwise fun x y => (lockedBy x.log).Disjoint (lockedBy y.log)

section Apart

variable {before after : List (Session σ κ ε α ο)} {x y z : Session σ κ ε α ο}

theorem mem_around (h : z ∈ before ++ after) : z ∈ before ++ x :: after := by
  rcases List.mem_append.mp h with h | h
  · exact List.mem_append_left _ h
  · exact List.mem_append_right _ (List.mem_cons_of_mem _ h)

theorem mem_middle (h : z ∈ before ++ x :: after) :
    z = x ∨ z ∈ before ++ after := by
  rcases List.mem_append.mp h with h | h
  · exact Or.inr (List.mem_append_left _ h)
  · rcases List.mem_cons.mp h with h | h
    · exact Or.inl h
    · exact Or.inr (List.mem_append_right _ h)

/-- A row that a transaction has changed is changed by no other. -/
theorem Apart.not_held (h : Apart (before ++ x :: after)) (hk : k ∈ lockedBy x.log) :
    ¬ Held k (before ++ after) := by
  rw [Apart, List.pairwise_append, List.pairwise_cons] at h
  obtain ⟨-, ⟨hafter, -⟩, hbefore⟩ := h
  rintro ⟨y, hy, hlocked⟩
  rcases List.mem_append.mp hy with hy | hy
  · exact hbefore y hy x List.mem_cons_self hlocked hk
  · exact hafter y hy hk hlocked

theorem Apart.disjoint (h : Apart (before ++ x :: after)) (hy : y ∈ before ++ after) :
    (lockedBy x.log).Disjoint (lockedBy y.log) :=
  fun _ hx hk => h.not_held hx ⟨y, hy, hk⟩

/-- What a transaction writes leaves alone what another has locked. -/
theorem Apart.part_view (h : Apart (before ++ x :: after)) (hy : y ∈ before ++ after)
    (hk : k ∈ lockedBy y.log) (c : σ) : part k (x.view c) = part k c := by
  apply part_replay_of_not_locked
  intro hlocked
  exact h.not_held hlocked ⟨y, hy, hk⟩

theorem Apart.quit (h : Apart (before ++ x :: after)) : Apart (before ++ after) :=
  h.sublist (List.Sublist.append_left (List.sublist_cons_self _ _) _)

/-- The next statement of a transaction; what it changes is held by no other. -/
theorem Apart.proceed (h : Apart (before ++ x :: after))
    (hlocks : ∀ k ∈ lockedBy y.log, k ∉ lockedBy x.log → ¬ Held k (before ++ after)) :
    Apart (before ++ y :: after) := by
  have hfree : ∀ k ∈ lockedBy y.log, ¬ Held k (before ++ after) := by
    intro k hk
    by_cases hx : k ∈ lockedBy x.log
    · exact h.not_held hx
    · exact hlocks k hk hx
  rw [Apart, List.pairwise_append, List.pairwise_cons] at h ⊢
  obtain ⟨hb, ⟨-, ha⟩, hba⟩ := h
  refine ⟨hb, ⟨?_, ha⟩, ?_⟩
  · intro z hz k hky hkz
    exact hfree k hky ⟨z, List.mem_append_right _ hz, hkz⟩
  · intro z hz w hw
    rcases List.mem_cons.mp hw with rfl | hw
    · intro k hkz hkw
      exact hfree k hkw ⟨z, List.mem_append_left _ hz, hkz⟩
    · exact hba z hz w (List.mem_cons_of_mem _ hw)

end Apart

/-- The step commits the transaction `x` with the result `a` while these others are under way. -/
def Server.Commits (server server' : Server σ κ ε α ο) (x : Session σ κ ε α ο) (a : α)
    (others : List (Session σ κ ε α ο)) : Prop :=
  ∃ before after, x.rest = .done a ∧ server = ⟨server.past, before ++ x :: after⟩ ∧
    others = before ++ after ∧ server' = ⟨x.commit a server.past, others⟩

/-- The servers that steps which `ok` allows lead to, with `c` committed at first. -/
def Runs (prog : ο → Tx σ κ ε α) (ok : Server σ κ ε α ο → Server σ κ ε α ο → Prop) (c : σ)
    (server : Server σ κ ε α ο) : Prop :=
  Relation.ReflTransGen (fun server server' => Step prog server server' ∧ ok server server')
    ⟨{ committed := c }, []⟩ server

section Runs

variable {ok : Server σ κ ε α ο → Server σ κ ε α ο → Prop} {c : σ}

/-- What holds at all times: the invariant, and that every transaction under way keeps to its
part. -/
structure Kept (I : Past σ (ο × α) → Prop) (R : ο → List κ → Past σ (ο × α) → Past σ (ο × α) → Prop)
    (post : ο → List (Write σ κ) → α → Past σ (ο × α) → Prop) (server : Server σ κ ε α ο) :
    Prop where
  inv : I server.past
  apart : Apart server.sessions
  parts : ∀ x ∈ server.sessions, x.rest.Keeps I (R x.op) (post x.op) x.log server.past

variable {I : Past σ (ο × α) → Prop} {R : ο → List κ → Past σ (ο × α) → Past σ (ο × α) → Prop}
  {post : ο → List (Write σ κ) → α → Past σ (ο × α) → Prop}

theorem Kept.step [∀ op keys, IsPreorder _ (R op keys)] (h : Kept I R post server)
    (hkeeps : ∀ op p, I p → (prog op).Keeps I (R op) (post op) [] p)
    (hcommit : ∀ server server' x a others, ok server server' → server.Commits server' x a others →
      I server.past → post x.op x.log a server.past →
      I (x.commit a server.past) ∧
        ∀ y ∈ others, (lockedBy x.log).Disjoint (lockedBy y.log) →
          R y.op (lockedBy y.log) server.past (x.commit a server.past))
    (hstep : Step prog server server') (hok : ok server server') : Kept I R post server' := by
  cases hstep with
  | start _ op =>
      refine ⟨h.inv, ?_, fun x hx => ?_⟩
      · rw [Apart, List.pairwise_append]
        refine ⟨h.apart, List.pairwise_singleton _ _, fun x _ y hy => ?_⟩
        obtain rfl := List.mem_singleton.mp hy
        exact fun k _ hk => absurd hk List.not_mem_nil
      · rcases List.mem_append.mp hx with hx | hx
        · exact h.parts x hx
        · obtain rfl := List.mem_singleton.mp hx
          exact hkeeps op _ h.inv
  | quit => exact ⟨h.inv, h.apart.quit, fun x hx => h.parts x (mem_around hx)⟩
  | @query p before after x k hrest =>
      refine ⟨h.inv, h.apart.proceed fun _ hk hnot => absurd hk hnot, fun z hz => ?_⟩
      rcases mem_middle hz with rfl | hz
      · have hpart := h.parts x (by simp)
        rw [hrest] at hpart
        exact hpart p (Tx.stable_refl h.inv)
      · exact h.parts z (mem_around hz)
  | @exec p before after x w k v hrest hw hfree =>
      refine ⟨h.inv, h.apart.proceed fun key hkey hnot => ?_, fun z hz => ?_⟩
      · rw [lockedBy_append, List.mem_append] at hkey
        rcases hkey with hkey | hkey
        · exact absurd hkey hnot
        · exact hfree key (by simpa [lockedBy] using hkey)
      · rcases mem_middle hz with rfl | hz
        · have hpart := h.parts x (by simp)
          rw [hrest] at hpart
          exact hpart p v (Tx.stable_refl h.inv) hw
        · exact h.parts z (mem_around hz)
  | @commit p before after x a hrest =>
      have hpart := h.parts x (by simp)
      rw [hrest] at hpart
      obtain ⟨hinv, hrely⟩ := hcommit _ _ x a _ hok ⟨before, after, hrest, rfl, rfl, rfl⟩ h.inv
        (hpart p (Tx.stable_refl h.inv))
      refine ⟨hinv, h.apart.quit, fun y hy => (h.parts y (mem_around hy)).stable ?_⟩
      exact ⟨hinv, .append .refl _ _, hrely y hy (h.apart.disjoint hy),
        fun k hk => h.apart.part_view hy hk p.committed⟩

/-- **Transactions that keep to their parts.** -/
theorem Runs.keeps [∀ op keys, IsPreorder _ (R op keys)] (h : Runs prog ok c server)
    (hinit : I { committed := c })
    (hkeeps : ∀ op p, I p → (prog op).Keeps I (R op) (post op) [] p)
    (hcommit : ∀ server server' x a others, ok server server' → server.Commits server' x a others →
      I server.past → post x.op x.log a server.past →
      I (x.commit a server.past) ∧
        ∀ y ∈ others, (lockedBy x.log).Disjoint (lockedBy y.log) →
          R y.op (lockedBy y.log) server.past (x.commit a server.past)) :
    Kept I R post server := by
  induction h with
  | refl => exact ⟨hinit, List.Pairwise.nil, by simp⟩
  | tail _ hlast ih => exact ih.step hkeeps hcommit hlast.1 hlast.2

/-- The server after these actions, each of them as `guard` allows. -/
def Server.acts [DecidableEq κ] (prog : ο → Tx σ κ ε α)
    (guard : Server σ κ ε α ο → Server σ κ ε α ο → Bool) :
    List (Server.Action ο) → Server σ κ ε α ο → Option (Server σ κ ε α ο)
  | [], server => some server
  | action :: actions, server =>
      ((server.act prog action).filter (guard server)).bind (Server.acts prog guard actions)

theorem Runs.acts [DecidableEq κ] {guard : Server σ κ ε α ο → Server σ κ ε α ο → Bool}
    (hguard : ∀ server server', guard server server' = true → ok server server')
    {actions : List (Server.Action ο)} {start : Server σ κ ε α ο} (hstart : Runs prog ok c start)
    (h : start.acts prog guard actions = some server) : Runs prog ok c server := by
  induction actions generalizing start with
  | nil =>
      cases h
      exact hstart
  | cons action actions ih =>
      obtain ⟨next, hnext, hrest⟩ := Option.bind_eq_some_iff.mp h
      rw [Option.filter_eq_some_iff] at hnext
      exact ih (hstart.tail ⟨act_step hnext.1, hguard _ _ hnext.2⟩) hrest

/-- A run in which these actions are taken, and what can be seen where it ends. -/
theorem exists_run [DecidableEq κ] (guard : Server σ κ ε α ο → Server σ κ ε α ο → Bool)
    (actions : List (Server.Action ο)) {q : Server σ κ ε α ο → Bool}
    (hguard : ∀ server server', guard server server' = true → ok server server')
    (h : (Server.acts prog guard actions ⟨{ committed := c }, []⟩).any q = true) :
    ∃ server, Runs prog ok c server ∧ q server = true := by
  cases hserver : Server.acts prog guard actions ⟨{ committed := c }, []⟩ with
  | none => simp [hserver] at h
  | some server =>
      rw [hserver, Option.any_some] at h
      exact ⟨server, Runs.acts hguard .refl hserver, h⟩

end Runs

end Server

attribute [irreducible] Tx.Keeps

end ReadCommitted
