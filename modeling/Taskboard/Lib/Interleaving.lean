import Mathlib.Logic.Function.Basic
import Taskboard.Lib.Call

/-!
# Calls whose steps interleave

Several calls are under way in one process. Each read, each transaction and each step at a mutex
is one step of one call, and the steps come in any order that the mutexes allow.

* `Process.Step` is one step, and `Process.Reaches` whole runs. `ok` restricts the runs that are
  looked at: what a call is about to do is seen together with what has been committed so far.
* `Agreement` is what the calls agree on: an invariant, what each of them commits (`guar`) and what
  each of them relies on (`rely`), which depends on whether it holds the mutex that they share.
* `Call.Keeps` says that a call keeps its part of an agreement; its rules follow the way calls are
  put together. Calls that all keep their parts keep the agreement (`Process.Reaches.kept`).
* `Process.schedule` runs calls in turns that are chosen from outside, as a function.
-/

section Interleaving

variable {ι σ κ ε μ α β : Type} [Parts σ κ]

/-- A transaction of a call that was committed. -/
structure Commit (ι σ : Type) where
  thread : ι
  before : σ
  after : σ

/-- The state of the database, and what was committed on the way there, the latest first. -/
structure Scene (ι σ : Type) where
  state : σ
  commits : List (Commit ι σ) := []

def Scene.commit (s : Scene ι σ) (thread : ι) (after : σ) : Scene ι σ where
  state := after
  commits := { thread, before := s.state, after } :: s.commits

/-- What a call is about to do. -/
inductive Act (ι μ : Type) where
  | sees (thread : ι)
  | takes (thread : ι) (m : μ)
  | commits (thread : ι)

/-- The calls that are under way, and who holds the mutexes. -/
structure Process (ι σ κ : Type) [Parts σ κ] (ε μ α : Type) where
  scene : Scene ι σ
  owner : μ → Option ι := fun _ => none
  pending : ι → Call σ κ ε μ α

namespace Process

variable [DecidableEq ι] [DecidableEq μ]

/-- One step of one call. A mutex is taken when nobody has it, and given back by who has it. -/
inductive Step (ok : Act ι μ → Scene ι σ → Prop) (p : Process ι σ κ ε μ α) :
    Process ι σ κ ε μ α → Prop
  | look {i : ι} {k : σ → Call σ κ ε μ α} (h : p.pending i = .read k)
      (hok : ok (.sees i) p.scene) :
      Step ok p { p with pending := Function.update p.pending i (k p.scene.state) }
  | commit {i : ι} {γ : Type} {t : Tx σ κ ε γ} {k : Except ε γ → Call σ κ ε μ α} {a : γ}
      {after : σ} (h : p.pending i = .atomic t k) (hrun : t.run p.scene.state = .ok (a, after))
      (hok : ok (.commits i) p.scene) :
      Step ok p { p with
        scene := p.scene.commit i after
        pending := Function.update p.pending i (k (.ok a)) }
  | abort {i : ι} {γ : Type} {t : Tx σ κ ε γ} {k : Except ε γ → Call σ κ ε μ α} {e : ε}
      (h : p.pending i = .atomic t k) (hrun : t.run p.scene.state = .error e) :
      Step ok p { p with pending := Function.update p.pending i (k (.error e)) }
  | take {i : ι} {m : μ} {k : Call σ κ ε μ α} (h : p.pending i = .lock m k)
      (hfree : p.owner m = none) (hok : ok (.takes i m) p.scene) :
      Step ok p { p with
        owner := Function.update p.owner m (some i)
        pending := Function.update p.pending i k }
  | give {i : ι} {m : μ} {k : Call σ κ ε μ α} (h : p.pending i = .unlock m k)
      (hown : p.owner m = some i) :
      Step ok p { p with
        owner := Function.update p.owner m none
        pending := Function.update p.pending i k }

/-- The processes that a run of the calls leads to. -/
inductive Reaches (ok : Act ι μ → Scene ι σ → Prop) (calls : ι → Call σ κ ε μ α) (start : σ) :
    Process ι σ κ ε μ α → Prop
  | start : Reaches ok calls start { scene := { state := start }, pending := calls }
  | step {p p' : Process ι σ κ ε μ α} (h : Reaches ok calls start p) (hstep : Step ok p p') :
      Reaches ok calls start p'

end Process

/-- What calls agree on that share a mutex: an invariant of the scene, what each call does to it,
and what it relies on while it does not hold the mutex and while it does. What one call does, the
others rely on, unless both held the mutex. -/
structure Agreement (ι σ μ : Type) where
  ok : Act ι μ → Scene ι σ → Prop
  mutex : μ
  inv : Scene ι σ → Prop
  rely : ι → Bool → Scene ι σ → Scene ι σ → Prop
  guar : ι → Bool → Scene ι σ → Scene ι σ → Prop
  refl (i : ι) (held : Bool) (s : Scene ι σ) : rely i held s s
  trans {i : ι} {held : Bool} {s s' s'' : Scene ι σ} :
    rely i held s s' → rely i held s' s'' → rely i held s s''
  keeps_inv {i : ι} {held : Bool} {s s' : Scene ι σ} : inv s → guar i held s s' → inv s'
  compat {i j : ι} {held held' : Bool} {s s' : Scene ι σ} : i ≠ j → (held && held') = false →
    inv s → guar j held' s s' → rely i held s s'

namespace Call

variable [DecidableEq μ] (A : Agreement ι σ μ)

/-- The call keeps its part of an agreement from a scene on, and ends as `post` says: whatever
the others did before each of its steps, as far as it relies on them. -/
def Keeps (i : ι) (post : Bool → α → Scene ι σ → Prop) : Bool → Call σ κ ε μ α → Scene ι σ → Prop
  | held, done a, s => ∀ s', A.rely i held s s' → A.inv s' → post held a s'
  | _, fail _, _ => True
  | held, read k, s => ∀ s', A.rely i held s s' → A.inv s' → A.ok (.sees i) s' →
      Keeps i post held (k s'.state) s'
  | held, atomic t k, s => ∀ s', A.rely i held s s' → A.inv s' →
      (∀ a after, t.run s'.state = .ok (a, after) → A.ok (.commits i) s' →
        A.guar i held s' (s'.commit i after) ∧ Keeps i post held (k (.ok a)) (s'.commit i after)) ∧
      ∀ e, t.run s'.state = .error e → Keeps i post held (k (.error e)) s'
  | held, lock m k, s => ∀ s', A.rely i held s s' → A.inv s' → A.ok (.takes i m) s' →
      Keeps i post (held || m = A.mutex) k s'
  | held, unlock m k, s => ∀ s', A.rely i held s s' → A.inv s' →
      Keeps i post (held && m ≠ A.mutex) k s'

variable {A} {i : ι} {post : Bool → α → Scene ι σ → Prop} {held : Bool} {c : Call σ κ ε μ α}
  {s s' : Scene ι σ}

/-- What a call relies on does not keep it from its part. -/
theorem Keeps.rely (h : c.Keeps A i post held s) (hrely : A.rely i held s s') :
    c.Keeps A i post held s' := by
  cases c with
  | done a => exact fun _ hlater => h _ (A.trans hrely hlater)
  | fail e => trivial
  | read k => exact fun _ hlater => h _ (A.trans hrely hlater)
  | atomic t k => exact fun _ hlater => h _ (A.trans hrely hlater)
  | lock m k => exact fun _ hlater => h _ (A.trans hrely hlater)
  | unlock m k => exact fun _ hlater => h _ (A.trans hrely hlater)

section Rules

variable {t : Tx σ κ ε β} {f : β → Call σ κ ε μ α} {m : μ}

theorem keeps_pure {a : α} (h : ∀ s', A.rely i held s s' → A.inv s' → post held a s') :
    (pure a : Call σ κ ε μ α).Keeps A i post held s :=
  h

theorem keeps_fail (e : ε) : (fail e : Call σ κ ε μ α).Keeps A i post held s :=
  trivial

/-- Calls one after the other: the second keeps its part from where the first may end. -/
theorem keeps_bind {f : α → Call σ κ ε μ β} {post : Bool → β → Scene ι σ → Prop}
    (h : c.Keeps A i (fun held a s => (f a).Keeps A i post held s) held s) (hinv : A.inv s) :
    (c >>= f).Keeps A i post held s := by
  show (c.bind f).Keeps A i post held s
  induction c generalizing held s with
  | done a => exact h s (A.refl i held s) hinv
  | fail e => trivial
  | read k ih => exact fun s' hrely hinv' hok => ih _ (h s' hrely hinv' hok) hinv'
  | atomic t k ih =>
      intro s' hrely hinv'
      obtain ⟨hcommit, habort⟩ := h s' hrely hinv'
      constructor
      · intro a after hrun hok
        obtain ⟨hguar, hrest⟩ := hcommit a after hrun hok
        exact ⟨hguar, ih _ hrest (A.keeps_inv hinv' hguar)⟩
      · exact fun e hrun => ih _ (habort e hrun) hinv'
  | lock m k ih => exact fun s' hrely hinv' hok => ih (h s' hrely hinv' hok) hinv'
  | unlock m k ih => exact fun s' hrely hinv' => ih (h s' hrely hinv') hinv'

theorem Keeps.mono {post' : Bool → α → Scene ι σ → Prop} (h : c.Keeps A i post held s)
    (hpost : ∀ held a s, A.inv s → post held a s → post' held a s) :
    c.Keeps A i post' held s := by
  induction c generalizing held s with
  | done a => exact fun s' hrely hinv => hpost _ _ _ hinv (h s' hrely hinv)
  | fail e => trivial
  | read k ih => exact fun s' hrely hinv hok => ih _ (h s' hrely hinv hok)
  | atomic t k ih =>
      intro s' hrely hinv
      obtain ⟨hcommit, habort⟩ := h s' hrely hinv
      constructor
      · exact fun a after hrun hok => (hcommit a after hrun hok).imp_right fun hrest => ih _ hrest
      · exact fun e hrun => ih _ (habort e hrun)
  | lock m k ih => exact fun s' hrely hinv hok => ih (h s' hrely hinv hok)
  | unlock m k ih => exact fun s' hrely hinv => ih (h s' hrely hinv)

theorem keeps_lift {x : Except ε α}
    (h : ∀ a, x = .ok a → ∀ s', A.rely i held s s' → A.inv s' → post held a s') :
    (liftM x : Call σ κ ε μ α).Keeps A i post held s := by
  cases hx : x with
  | error e => trivial
  | ok a => exact h a hx

theorem keeps_lift_bind {x : Except ε β}
    (h : ∀ b, x = .ok b → (f b).Keeps A i post held s) :
    ((liftM x : Call σ κ ε μ β) >>= f).Keeps A i post held s := by
  cases hx : x with
  | error e => trivial
  | ok b => exact h b hx

/-- A part that only reads is gone through while the others go on; behind it is known what it
returns in whatever states. -/
theorem keeps_returns {P : α → Prop} (hc : c.Quiet) (hP : c.Returns P)
    (h : ∀ a s', P a → A.rely i held s s' → A.inv s' → post held a s') :
    c.Keeps A i post held s := by
  induction c generalizing s with
  | done a => exact fun s' => h a s' hP
  | fail e => trivial
  | read k ih =>
      intro s' hrely _ _
      exact ih _ (quiet_read.mp hc _) (hP _) fun a s'' ha hlater => h a s'' ha (A.trans hrely hlater)
  | atomic t k => exact absurd hc not_quiet_atomic
  | lock m k => exact absurd hc not_quiet_lock
  | unlock m k => exact absurd hc not_quiet_unlock

theorem keeps_quiet (hc : c.Quiet)
    (h : ∀ a s', A.rely i held s s' → A.inv s' → post held a s') :
    c.Keeps A i post held s :=
  keeps_returns hc returns_true fun a s' _ => h a s'

theorem keeps_quiet_bind {c : Call σ κ ε μ β} (hc : c.Quiet)
    (h : ∀ b s', A.rely i held s s' → A.inv s' → (f b).Keeps A i post held s') (hinv : A.inv s) :
    (c >>= f).Keeps A i post held s :=
  keeps_bind (keeps_quiet hc h) hinv

/-- A read sees the state of its moment. -/
theorem keeps_look_bind {g : σ → β}
    (h : ∀ s', A.rely i held s s' → A.inv s' → A.ok (.sees i) s' →
      (f (g s'.state)).Keeps A i post held s') :
    ((look g : Call σ κ ε μ β) >>= f).Keeps A i post held s :=
  h

theorem keeps_lookOr {g : σ → Except ε α}
    (h : ∀ s' a, A.rely i held s s' → A.inv s' → A.ok (.sees i) s' → g s'.state = .ok a →
      ∀ s'', A.rely i held s' s'' → A.inv s'' → post held a s'') :
    (lookOr g : Call σ κ ε μ α).Keeps A i post held s := by
  intro s' hrely hinv hok
  show (ofExcept (g s'.state)).Keeps A i post held s'
  cases ha : g s'.state with
  | error e => trivial
  | ok a => exact h s' a hrely hinv hok ha

theorem keeps_lookOr_bind {g : σ → Except ε β}
    (h : ∀ s' b, A.rely i held s s' → A.inv s' → A.ok (.sees i) s' → g s'.state = .ok b →
      (f b).Keeps A i post held s') :
    ((lookOr g : Call σ κ ε μ β) >>= f).Keeps A i post held s := by
  intro s' hrely hinv hok
  show ((ofExcept (g s'.state)).bind f).Keeps A i post held s'
  cases hb : g s'.state with
  | error e => trivial
  | ok b => exact h s' b hrely hinv hok hb

theorem keeps_tx {t : Tx σ κ ε α}
    (h : ∀ s' a after, A.rely i held s s' → A.inv s' → t.run s'.state = .ok (a, after) →
      A.ok (.commits i) s' → A.guar i held s' (s'.commit i after) ∧
        ∀ s'', A.rely i held (s'.commit i after) s'' → A.inv s'' → post held a s'') :
    (tx t : Call σ κ ε μ α).Keeps A i post held s := by
  intro s' hrely hinv
  constructor
  · exact fun a after hrun hok => h s' a after hrely hinv hrun hok
  · exact fun e _ => trivial

theorem keeps_tx_bind
    (h : ∀ s' b after, A.rely i held s s' → A.inv s' → t.run s'.state = .ok (b, after) →
      A.ok (.commits i) s' →
      A.guar i held s' (s'.commit i after) ∧ (f b).Keeps A i post held (s'.commit i after)) :
    ((tx t : Call σ κ ε μ β) >>= f).Keeps A i post held s := by
  intro s' hrely hinv
  constructor
  · exact fun b after hrun hok => h s' b after hrely hinv hrun hok
  · exact fun e _ => trivial

/-- A transaction whose error is looked at. -/
theorem keeps_attempt_bind {f : Except ε β → Call σ κ ε μ α}
    (h : ∀ s' b after, A.rely i held s s' → A.inv s' → t.run s'.state = .ok (b, after) →
      A.ok (.commits i) s' →
      A.guar i held s' (s'.commit i after) ∧ (f (.ok b)).Keeps A i post held (s'.commit i after))
    (herror : ∀ s' e, A.rely i held s s' → A.inv s' → (f (.error e)).Keeps A i post held s') :
    ((tx t : Call σ κ ε μ β).attempt >>= f).Keeps A i post held s := by
  intro s' hrely hinv
  constructor
  · exact fun b after hrun hok => h s' b after hrely hinv hrun hok
  · exact fun e _ => herror s' e hrely hinv

theorem keeps_ite {p : Prop} [Decidable p] {d : Call σ κ ε μ α}
    (hc : p → c.Keeps A i post held s) (hd : ¬p → d.Keeps A i post held s) :
    (if p then c else d).Keeps A i post held s := by
  split
  · exact hc ‹_›
  · exact hd ‹_›

/-- A call that ends well under a mutex ends well when it has given it back. -/
theorem keeps_releasing {post : α → Scene ι σ → Prop}
    (hstable : ∀ a s s' held, post a s → A.rely i held s s' → A.inv s' → post a s')
    (h : c.Keeps A i (fun _ => post) held s) :
    (c.releasing m).Keeps A i (fun _ => post) held s := by
  induction c generalizing held s with
  | done a =>
      intro s' hrely hinv s'' hlater hinv'
      exact hstable a s' s'' _ (h s' hrely hinv) hlater hinv'
  | fail e => exact fun _ _ _ => trivial
  | read k ih => exact fun s' hrely hinv hok => ih _ (h s' hrely hinv hok)
  | atomic t k ih =>
      intro s' hrely hinv
      obtain ⟨hcommit, habort⟩ := h s' hrely hinv
      constructor
      · exact fun a after hrun hok => (hcommit a after hrun hok).imp_right fun hrest => ih _ hrest
      · exact fun e hrun => ih _ (habort e hrun)
  | lock n k ih => exact fun s' hrely hinv hok => ih (h s' hrely hinv hok)
  | unlock n k ih => exact fun s' hrely hinv => ih (h s' hrely hinv)

theorem keeps_holding {post : α → Scene ι σ → Prop}
    (hstable : ∀ a s s' held, post a s → A.rely i held s s' → A.inv s' → post a s')
    (h : ∀ s', A.rely i held s s' → A.inv s' → A.ok (.takes i m) s' →
      c.Keeps A i (fun _ => post) (held || m = A.mutex) s') :
    (c.holding m).Keeps A i (fun _ => post) held s :=
  fun s' hrely hinv hok => keeps_releasing hstable (h s' hrely hinv hok)

/-- A call keeps its part when each of its transactions does, in whatever scene. -/
theorem keeps_each {E : σ → σ → Prop} (hc : c.Each E)
    (hE : ∀ held s after, A.inv s → E s.state after → A.guar i held s (s.commit i after)) :
    c.Keeps A i (fun _ _ _ => True) held s := by
  induction c generalizing held s with
  | done a => exact fun _ _ _ => trivial
  | fail e => trivial
  | read k ih => exact fun s' _ _ _ => ih _ (each_read.mp hc _)
  | atomic t k ih =>
      intro s' _ hinv
      obtain ⟨hrun, hrest⟩ := each_atomic.mp hc
      constructor
      · exact fun a after ha _ => ⟨hE held s' after hinv (hrun _ _ ha), ih _ (hrest _)⟩
      · exact fun e _ => ih _ (hrest _)
  | lock m k ih => exact fun s' _ _ _ => ih (each_lock.mp hc)
  | unlock m k ih => exact fun s' _ _ => ih (each_unlock.mp hc)

end Rules

end Call

namespace Process

variable [DecidableEq ι] [DecidableEq μ] {A : Agreement ι σ μ} {calls : ι → Call σ κ ε μ α}
  {start : σ} {post : ι → Bool → α → Scene ι σ → Prop} {p p' : Process ι σ κ ε μ α}
  {ok : Act ι μ → Scene ι σ → Prop} {i : ι}

/-- The agreement is kept: the invariant holds, and every call keeps its part from now on. -/
structure Kept (A : Agreement ι σ μ) (post : ι → Bool → α → Scene ι σ → Prop)
    (p : Process ι σ κ ε μ α) : Prop where
  inv : A.inv p.scene
  parts (i : ι) : (p.pending i).Keeps A i (post i) (p.owner A.mutex = some i) p.scene

/-- A step of one call within its part, after which the others still rely on what was done. -/
theorem Kept.next (h : p.Kept A post) {c : Call σ κ ε μ α} {scene : Scene ι σ}
    {owner : μ → Option ι} (hinv : A.inv scene)
    (hown : c.Keeps A i (post i) (owner A.mutex = some i) scene)
    (hrely : ∀ j, j ≠ i → A.rely j (p.owner A.mutex = some j) p.scene scene)
    (howner : ∀ j, j ≠ i → (owner A.mutex = some j ↔ p.owner A.mutex = some j)) :
    Kept A post { scene, owner, pending := Function.update p.pending i c } := by
  refine ⟨hinv, fun j => ?_⟩
  rcases eq_or_ne j i with rfl | hne
  · simpa using hown
  · have hpart := (h.parts j).rely (hrely j hne)
    simpa [Function.update_of_ne hne, howner j hne] using hpart

theorem Kept.step (h : p.Kept A post) (hstep : Step A.ok p p') : p'.Kept A post := by
  cases hstep with
  | @look i k hpending hok =>
      have hpart := h.parts i
      rw [hpending] at hpart
      exact h.next h.inv (hpart _ (A.refl _ _ _) h.inv hok) (fun _ _ => A.refl _ _ _)
        fun _ _ => Iff.rfl
  | @commit i _ t k a after hpending hrun hok =>
      have hpart := h.parts i
      rw [hpending] at hpart
      obtain ⟨hguar, hrest⟩ := (hpart _ (A.refl _ _ _) h.inv).1 a after hrun hok
      refine h.next (A.keeps_inv h.inv hguar) hrest (fun j hne => ?_) fun _ _ => Iff.rfl
      -- Not both of the calls hold the mutex.
      refine A.compat hne ?_ h.inv hguar
      by_cases hj : p.owner A.mutex = some j
      · simp [hj, hne]
      · simp [hj]
  | @abort i _ t k e hpending hrun =>
      have hpart := h.parts i
      rw [hpending] at hpart
      exact h.next h.inv ((hpart _ (A.refl _ _ _) h.inv).2 e hrun) (fun _ _ => A.refl _ _ _)
        fun _ _ => Iff.rfl
  | @take i m k hpending hfree hok =>
      have hpart := h.parts i
      rw [hpending] at hpart
      have hrest := hpart _ (A.refl _ _ _) h.inv hok
      by_cases hm : m = A.mutex
      · subst hm
        refine h.next h.inv (by simpa [hfree] using hrest) (fun _ _ => A.refl _ _ _) fun j hne => ?_
        simp [hfree, hne.symm]
      · refine h.next h.inv ?_ (fun _ _ => A.refl _ _ _) fun j hne => ?_
        · simpa [hm, Function.update_of_ne (Ne.symm hm)] using hrest
        · rw [Function.update_of_ne (Ne.symm hm)]
  | @give i m k hpending hown =>
      have hpart := h.parts i
      rw [hpending] at hpart
      have hrest := hpart _ (A.refl _ _ _) h.inv
      by_cases hm : m = A.mutex
      · subst hm
        refine h.next h.inv (by simpa using hrest) (fun _ _ => A.refl _ _ _) fun j hne => ?_
        simp [hown, hne.symm]
      · refine h.next h.inv ?_ (fun _ _ => A.refl _ _ _) fun j hne => ?_
        · simpa [hm, Function.update_of_ne (Ne.symm hm)] using hrest
        · rw [Function.update_of_ne (Ne.symm hm)]

/-- Calls that keep their parts from the start keep the agreement in every run. -/
theorem Reaches.kept (h : Reaches A.ok calls start p) (hinv : A.inv { state := start })
    (hcalls : ∀ i, (calls i).Keeps A i (post i) false { state := start }) : p.Kept A post := by
  induction h with
  | start => exact ⟨hinv, fun i => by simpa using hcalls i⟩
  | step _ hstep ih => exact ih.step hstep

/-- The next step of one call, where there is one and `ok` allows it. -/
def act (ok : Act ι μ → Scene ι σ → Prop) [∀ act scene, Decidable (ok act scene)]
    (p : Process ι σ κ ε μ α) (i : ι) : Option (Process ι σ κ ε μ α) :=
  match p.pending i with
  | .done _ | .fail _ => none
  | .read k =>
      if ok (.sees i) p.scene then
        some { p with pending := Function.update p.pending i (k p.scene.state) }
      else none
  | .atomic t k =>
      match t.run p.scene.state with
      | .ok (a, after) =>
          if ok (.commits i) p.scene then
            some { p with
              scene := p.scene.commit i after
              pending := Function.update p.pending i (k (.ok a)) }
          else none
      | .error e => some { p with pending := Function.update p.pending i (k (.error e)) }
  | .lock m k =>
      if p.owner m = none ∧ ok (.takes i m) p.scene then
        some { p with
          owner := Function.update p.owner m (some i)
          pending := Function.update p.pending i k }
      else none
  | .unlock m k =>
      if p.owner m = some i then
        some { p with
          owner := Function.update p.owner m none
          pending := Function.update p.pending i k }
      else none

theorem act_step [∀ act scene, Decidable (ok act scene)]
    (h : p.act ok i = some p') : Step ok p p' := by
  unfold act at h
  split at h
  · cases h
  · cases h
  · rename_i k hpending
    obtain ⟨hok, hp⟩ := Option.ite_none_right_eq_some.mp h
    exact Option.some.inj hp ▸ .look hpending hok
  · rename_i t k hpending
    split at h
    · rename_i a after hrun
      obtain ⟨hok, hp⟩ := Option.ite_none_right_eq_some.mp h
      exact Option.some.inj hp ▸ .commit hpending hrun hok
    · rename_i e hrun
      cases h
      exact .abort hpending hrun
  · rename_i m k hpending
    obtain ⟨⟨hfree, hok⟩, hp⟩ := Option.ite_none_right_eq_some.mp h
    exact Option.some.inj hp ▸ .take hpending hfree hok
  · rename_i m k hpending
    obtain ⟨hown, hp⟩ := Option.ite_none_right_eq_some.mp h
    exact Option.some.inj hp ▸ .give hpending hown

/-- The calls take turns; one that cannot go on misses its turn. -/
def schedule (ok : Act ι μ → Scene ι σ → Prop) [∀ act scene, Decidable (ok act scene)]
    (p : Process ι σ κ ε μ α) (turns : List ι) : Process ι σ κ ε μ α :=
  turns.foldl (fun p i => (p.act ok i).getD p) p

theorem Reaches.schedule [∀ act scene, Decidable (ok act scene)]
        (h : Reaches ok calls start p) (turns : List ι) : Reaches ok calls start (p.schedule ok turns) := by
  induction turns generalizing p with
  | nil => exact h
  | cons i turns ih =>
      refine ih (p := (p.act ok i).getD p) ?_
      cases hact : p.act ok i with
      | none => exact h
      | some p' => exact h.step (act_step hact)

end Process

attribute [irreducible] Call.Keeps

end Interleaving
