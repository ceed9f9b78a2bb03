import OneDriver.Prog

set_option autoImplicit false

namespace OneDriver

variable {ℓ σ φ α γ : Type}

-- What the callers of a component have seen of it: the calls that returned, each
-- with its result, the latest last. A call is made where the ones before admit it.
inductive History (call : γ → Prog ℓ σ φ α) (admits : List (γ × α) → γ → Prop) (init : σ) :
    List (γ × α) → σ → Prop where
  | nil : History call admits init [] init
  | snoc (past : List (γ × α)) (s t : σ) (x : γ) (a : α) (before : History call admits init past s)
      (admitted : admits past x) (ran : (call x).run s = .done a t) :
      History call admits init (past ++ [(x, a)]) t

variable (call : γ → Prog ℓ σ φ α) (admits : List (γ × α) → γ → Prop) (init : σ)

-- The rule for histories: what holds at first and what every admitted call keeps.
theorem history_invariant (invariant : List (γ × α) → σ → Prop) (initial : invariant [] init)
    (kept : ∀ past s t x a, invariant past s → admits past x → (call x).run s = .done a t →
      invariant (past ++ [(x, a)]) t)
    (history : List (γ × α)) (last : σ) (ran : History call admits init history last) : invariant history last := by
  induction ran with
  | nil => exact initial
  | snoc past s t x a _ admitted ran ih => exact kept past s t x a ih admitted ran

end OneDriver
