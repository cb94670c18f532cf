import Mathlib.Logic.Relation
import Taskboard.Lib.Interleaving

/-!
# What a call has read and still knows

A call that reads first and commits later may write what it has read long ago. `Scene.Undisturbed`
says that no other call has committed a change of a part of the state since this call started, and
`Scene.Knows` is what the call knows of that part as long as this is so.
-/

section StaleReads

variable {ι σ ν : Type}

namespace Scene

variable {view : σ → ν} {i j : ι} {n : Nat} {s s' : Scene ι σ} {after : σ} {known : ν → Prop}

/-- What was committed since there had been `n` commits, the latest first. -/
def since (s : Scene ι σ) (n : Nat) : List (Commit ι σ) :=
  s.commits.take (s.commits.length - n)

theorem since_commit (h : n ≤ s.commits.length) :
    (s.commit j after).since n = { thread := j, before := s.state, after } :: s.since n := by
  have hlength : s.commits.length + 1 - n = s.commits.length - n + 1 := by omega
  simp [since, commit, hlength]

/-- No other call has changed this part of the state since then. -/
def Undisturbed (view : σ → ν) (i : ι) (n : Nat) (s : Scene ι σ) : Prop :=
  ∀ c ∈ s.since n, c.thread ≠ i → view c.after = view c.before

instance [DecidableEq ι] [DecidableEq ν] : Decidable (s.Undisturbed view i n) :=
  inferInstanceAs (Decidable (∀ c ∈ s.since n, _))

/-- Other calls have gone on. -/
def Grows (i : ι) : Scene ι σ → Scene ι σ → Prop :=
  Relation.ReflTransGen fun s s' => ∃ j after, j ≠ i ∧ s' = s.commit j after

/-- A call that started behind `n` commits knows this of a part of the state, as long as no other
call changes that part. -/
structure Knows (view : σ → ν) (i : ι) (n : Nat) (known : ν → Prop) (s : Scene ι σ) : Prop where
  started : n ≤ s.commits.length
  known : s.Undisturbed view i n → known (view s.state)

theorem Knows.of_read (hstarted : n ≤ s.commits.length) (h : known (view s.state)) :
    s.Knows view i n known :=
  ⟨hstarted, fun _ => h⟩

/-- What a call knows it still knows when others have gone on. -/
theorem Knows.grows (h : s.Knows view i n known) (hgrows : Grows i s s') :
    s'.Knows view i n known := by
  induction hgrows with
  | refl => exact h
  | tail _ hlast ih =>
      obtain ⟨j, after, hne, rfl⟩ := hlast
      refine ⟨Nat.le_succ_of_le ih.started, fun hcalm => ?_⟩
      rw [Undisturbed, since_commit ih.started] at hcalm
      obtain ⟨hlast, hbefore⟩ := List.forall_mem_cons.mp hcalm
      have hsame : view after = view _ := hlast hne
      show known (view after)
      rw [hsame]
      exact ih.known hbefore

/-- A call knows what it has just committed itself. -/
theorem Knows.own (h : s.Knows view i n known) {known' : ν → Prop} (hown : known' (view after)) :
    (s.commit i after).Knows view i n known' :=
  ⟨Nat.le_succ_of_le h.started, fun _ => hown⟩

end Scene

end StaleReads
