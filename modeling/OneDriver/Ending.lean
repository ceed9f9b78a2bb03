import OneDriver.Pool
import Mathlib.Logic.Hydra

set_option autoImplicit false

namespace OneDriver

variable {ℓ σ φ α : Type}

namespace Pool

-- What an action leaves of a program.
inductive Remains : Prog ℓ σ φ α → Prog ℓ σ φ α → Prop where
  | act (label : ℓ) (ready : σ → Bool) (effect : σ → σ) (next : σ → Prog ℓ σ φ α) (s : σ) :
      Remains (next s) (.act label ready effect next)

theorem remains_wf : WellFounded (Remains (ℓ := ℓ) (σ := σ) (φ := φ) (α := α)) := by
  refine ⟨fun p => ?_⟩
  induction p with
  | ret a => exact ⟨_, fun q left => by cases left⟩
  | crash f => exact ⟨_, fun q left => by cases left⟩
  | act label ready effect next ih =>
      refine ⟨_, fun q left => ?_⟩
      cases left with
      | act _ _ _ _ s => exact ih s

theorem set_cut {γ : Type} (r : γ → γ → Prop) (items : List γ) (i : Nat) (old new : γ) (found : items[i]? = some old)
    (less : r new old) : Relation.CutExpand r (items.set i new : Multiset γ) (items : Multiset γ) := by
  induction items generalizing i with
  | nil => cases found
  | cons x rest ih =>
      cases i with
      | zero =>
          obtain rfl := Option.some.inj found
          exact Relation.cutExpand_single_add less rest
      | succ i => exact (Relation.cutExpand_add_left {x}).mpr (ih i found)

-- No pool takes steps for ever.
theorem steps_wf : WellFounded fun next pool : Pool ℓ σ φ α => ∃ i, pool.step i = some next := by
  let left : Pool ℓ σ φ α → Multiset (Prog ℓ σ φ α) := fun pool => (pool.threads.map Thread.prog : List _)
  apply Subrelation.wf _ (InvImage.wf left remains_wf.cutExpand)
  rintro next pool ⟨i, stepped⟩
  obtain ⟨thread, moved, s, found, moves, rfl⟩ := (step_some_iff pool next i).mp stepped
  obtain ⟨label, ready, effect, rest, prog, can, rfl, rfl⟩ := (thread_step_some_iff thread moved pool.shared s).mp moves
  have listed : (pool.threads.map Thread.prog)[i]? = some (.act label ready effect rest) := by simp [found, prog]
  simp only [InvImage, left, List.map_set]
  exact set_cut Remains _ i _ _ listed (.act label ready effect rest pool.shared)

theorem step_of_ready (pool : Pool ℓ σ φ α) (i : Nat) (thread : Thread ℓ σ φ α) (label : ℓ) (ready : σ → Bool)
    (effect : σ → σ) (next : σ → Prog ℓ σ φ α) (found : pool.threads[i]? = some thread)
    (prog : thread.prog = .act label ready effect next) (can : ready pool.shared = true) :
    ∃ moved, pool.step i = some moved := by
  simp [step, found, Thread.step, prog, can]

-- Where one thread at most is in charge, it or any that has not returned.
theorem someone_to_go (pool : Pool ℓ σ φ α) (owner : Option Nat)
    (present : ∀ i, owner = some i → i < pool.threads.length) (unfinished : ¬ pool.finished = true) :
    ∃ (i : Nat) (thread : Thread ℓ σ φ α), pool.threads[i]? = some thread ∧
      (owner = some i ∨ owner = none ∧ thread.value.isSome = false) := by
  cases owner with
  | none =>
      obtain ⟨thread, member, going⟩ : ∃ thread ∈ pool.threads, thread.value.isSome = false := by
        simpa [Pool.finished] using unfinished
      obtain ⟨i, found⟩ := List.getElem?_of_mem member
      exact ⟨i, thread, found, .inr ⟨rfl, going⟩⟩
  | some i => exact ⟨i, _, List.getElem?_eq_getElem (present i rfl), .inl rfl⟩

-- A pool that is never stuck can always be run to its end.
theorem finishes (invariant : Pool ℓ σ φ α → Prop)
    (preserved : ∀ pool next i, invariant pool → pool.step i = some next → invariant next)
    (progress : ∀ pool, invariant pool → pool.finished = true ∨ ∃ i next, pool.step i = some next)
    (pool : Pool ℓ σ φ α) (holds : invariant pool) :
    ∃ schedule last, pool.exec schedule = some last ∧ last.finished = true := by
  induction pool using steps_wf.induction with
  | _ pool ih =>
      rcases progress pool holds with finished | ⟨i, next, stepped⟩
      · exact ⟨[], pool, rfl, finished⟩
      · obtain ⟨schedule, last, ran, finished⟩ := ih next ⟨i, stepped⟩ (preserved pool next i holds stepped)
        exact ⟨i :: schedule, last, by simp [exec, stepped, ran], finished⟩

end Pool

end OneDriver
