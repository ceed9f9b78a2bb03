import Mathlib.Data.List.Basic

set_option autoImplicit false

namespace OneDriver

section Machines

variable {σ γ ε : Type} (step : σ → ε → Option σ) (spec : γ → ε → Option γ) (abs : σ → γ) (inv : σ → Prop)
  (allowed : ε → Prop)

-- A step of the machine is a step of its specification, which ends where the machine ends.
def Simulates : Prop :=
  ∀ s e, inv s → allowed e → (step s e).map abs = spec (abs s) e ∧ ∀ t, step s e = some t → inv t

theorem fold_refines (simulates : Simulates step spec abs inv allowed) (events : List ε) (s : σ) (holds : inv s)
    (all : ∀ e ∈ events, allowed e) :
    (events.foldlM step s).map abs = events.foldlM spec (abs s) ∧ ∀ t, events.foldlM step s = some t → inv t := by
  induction events generalizing s with
  | nil => exact ⟨rfl, fun t same => Option.some.inj same ▸ holds⟩
  | cons e rest ih =>
      obtain ⟨same, kept⟩ := simulates s e holds (all e List.mem_cons_self)
      have later : ∀ e ∈ rest, allowed e := fun e listed => all e (List.mem_cons_of_mem _ listed)
      simp only [List.foldlM_cons, ← same]
      cases moves : step s e with
      | none => exact ⟨rfl, fun t ran => by cases ran⟩
      | some next => exact ih next (kept next moves) later

-- The machine goes on just as long as its specification.
theorem fold_refines_none (simulates : Simulates step spec abs inv allowed) (events : List ε) (s : σ) (holds : inv s)
    (all : ∀ e ∈ events, allowed e) : events.foldlM step s = none ↔ events.foldlM spec (abs s) = none := by
  rw [← (fold_refines step spec abs inv allowed simulates events s holds all).1, Option.map_eq_none_iff]

end Machines

end OneDriver
