import OneDriver.Ending
import OneDriver.Part

set_option autoImplicit false

namespace OneDriver

-- A lock: the states that are free for whoever takes it, those that somebody has,
-- the actions that try for it, and what holds before each action of the one who has it.
structure Lock (ℓ σ : Type) where
  free : σ → Prop
  taken : σ → Prop
  locks : ℓ → Prop
  before : ℓ → σ → Prop

variable {ℓ σ φ α β γ : Type}

namespace Prog

theorem act_then (label : ℓ) (ready : σ → Bool) (effect : σ → σ) (next : σ → Prog ℓ σ φ α) (rest : α → Prog ℓ σ φ β) :
    (act label ready effect next >>= rest) = act label ready effect fun s => next s >>= rest := rfl

-- With the lock a thread goes on by itself until it has given it back. Without it,
-- it only tries for it, and a try that fails leaves the state as it is.
def Disciplined (k : Lock ℓ σ) (post : α → Prop) : Prog ℓ σ φ α → Bool → σ → Prop
  | .ret a, inside, _ => inside = false ∧ post a
  | .crash _, _, _ => False
  | .act label ready effect next, true, s =>
      ¬ k.locks label ∧ k.before label s ∧ ready s = true ∧
        (k.taken (effect s) ∧ (next s).Disciplined k post true (effect s) ∨
          k.free (effect s) ∧ (next s).Disciplined k post false (effect s))
  | .act label ready effect next, false, _ =>
      k.locks label ∧ ∀ t,
        (k.free t → ready t = true ∧
          (k.taken (effect t) ∧ (next t).Disciplined k post true (effect t) ∨
            k.free (effect t) ∧ (next t).Disciplined k post false (effect t))) ∧
        (k.taken t → ready t = true → effect t = t ∧ (next t).Disciplined k post false t)

section Disciplined

variable (k : Lock ℓ σ) (post : α → Prop)

theorem disciplined_bind (mid : γ → Prop) (p : Prog ℓ σ φ γ) (rest : γ → Prog ℓ σ φ α) (inside : Bool) (s : σ)
    (first : p.Disciplined k mid inside s) (later : ∀ a t, mid a → (rest a).Disciplined k post false t) :
    (p >>= rest).Disciplined k post inside s := by
  change (p.bind rest).Disciplined k post inside s
  induction p generalizing inside s with
  | ret a =>
      obtain ⟨rfl, holds⟩ := first
      exact later a s holds
  | crash f => exact first
  | act label ready effect next ih =>
      cases inside with
      | true =>
          obtain ⟨apart, before, can, goes⟩ := first
          exact ⟨apart, before, can, goes.imp (And.imp_right (ih s true _)) (And.imp_right (ih s false _))⟩
      | false =>
          refine ⟨first.1, fun t => ⟨fun here => ?_, fun held can => ?_⟩⟩
          · obtain ⟨can, goes⟩ := (first.2 t).1 here
            exact ⟨can, goes.imp (And.imp_right (ih t true _)) (And.imp_right (ih t false _))⟩
          · obtain ⟨same, goes⟩ := (first.2 t).2 held can
            exact ⟨same, ih t false t goes⟩

theorem disciplined_series (call : γ → Prog ℓ σ φ α) (calls : List γ)
    (each : ∀ x ∈ calls, ∀ s, (call x).Disciplined k post false s) (s : σ) :
    (series call calls).Disciplined k (fun results => ∀ a ∈ results, post a) false s := by
  induction calls generalizing s with
  | nil => exact ⟨rfl, by simp⟩
  | cons x rest ih =>
      refine disciplined_bind k _ post _ _ false s (each x (by simp) s) fun a t first => ?_
      refine disciplined_bind k _ _ _ _ false t (ih (fun y member => each y (by simp [member])) t) ?_
      exact fun results u later => ⟨rfl, List.forall_mem_cons.mpr ⟨first, later⟩⟩

end Disciplined

end Prog

namespace Pool

variable (k : Lock ℓ σ) (post : Nat → α → Prop)

structure Orderly (pool : Pool ℓ σ φ α) (owner : Option Nat) : Prop where
  unowned : owner = none → k.free pool.shared
  owned : ∀ i, owner = some i → k.taken pool.shared ∧ i < pool.threads.length
  each : ∀ (i : Nat) (thread : Thread ℓ σ φ α), pool.threads[i]? = some thread →
    thread.prog.Disciplined k (post i) (owner == some i) pool.shared

section Orderly

variable (pool : Pool ℓ σ φ α) (owner : Option Nat)

end Orderly

end Pool

namespace Prog

variable {κ ψ : Type}

end Prog

end OneDriver
