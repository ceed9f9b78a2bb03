import OneDriver.Part
import Mathlib.Data.Multiset.AddSub

set_option autoImplicit false

namespace OneDriver

-- What is held of a kernel's resources, as a part of a driver's state. To release
-- NULL, or what is not held, is a misuse.
inductive Misuse where
  | null | notHeld
deriving DecidableEq, Repr

variable {ℓ σ φ ρ : Type} (ledger : Part σ (Multiset ρ))

namespace Prog

def acquire (label : ℓ) (r : ρ) : Prog ℓ σ φ Unit := .modify label fun s => ledger.set (r ::ₘ ledger.get s) s

-- A call of the kernel's that hands out a resource when its result is 0.
theorem run_acquire_if (label : ℓ) (r : ρ) (result : Int) (s : σ) :
    (do
      if result = 0 then acquire ledger label r else pure ()
      pure result : Prog ℓ σ φ Int).run s =
        .done result (if result = 0 then ledger.set (r ::ₘ ledger.get s) s else s) := by
  split <;> rfl

variable [DecidableEq ρ]

def returned (misuse : Misuse → φ) (r : Option ρ) (s : σ) : Except φ (Unit × σ) :=
  match r with
  | none => .error (misuse .null)
  | some r => if r ∈ ledger.get s then .ok ((), ledger.set ((ledger.get s).erase r) s) else .error (misuse .notHeld)

def release (label : ℓ) (misuse : Misuse → φ) (r : Option ρ) : Prog ℓ σ φ Unit := .access label (returned ledger misuse r)

theorem run_release_held (label : ℓ) (misuse : Misuse → φ) (r : ρ) (rest : Multiset ρ) (s : σ)
    (held : ledger.get s = r ::ₘ rest) :
    (release ledger label misuse (some r)).run s = .done () (ledger.set rest s) := by
  simp [release, run_access, returned, held]

theorem run_release_missing (label : ℓ) (misuse : Misuse → φ) (r : ρ) (s : σ) (missing : r ∉ ledger.get s) :
    (release ledger label misuse (some r)).run s = .crashed (misuse .notHeld) s := by
  simp [release, run_access, returned, missing]

@[simp] theorem run_release_null (label : ℓ) (misuse : Misuse → φ) (s : σ) :
    (release ledger label misuse none).run s = .crashed (misuse .null) s := rfl

theorem wp_release_empty (label : ℓ) (misuse : Misuse → φ) (r : Option ρ) (s : σ) (post : Unit → σ → Prop)
    (empty : ledger.get s = 0) : (release ledger label misuse r).wpUpTo (fun _ => True) post s := by
  cases r with
  | none => exact wp_of_crash _ _ _ s s _ (run_release_null ledger label misuse s) trivial
  | some r => exact wp_of_crash _ _ _ s s _ (run_release_missing ledger label misuse r s (by simp [empty])) trivial

-- Whatever is released, another resource stays held.
theorem wp_release_other (label : ℓ) (misuse : Misuse → φ) (r : Option ρ) (other : ρ) (s : σ) (post : Unit → σ → Prop)
    (different : r ≠ some other) (held : other ∈ ledger.get s)
    (kept : ∀ rest, other ∈ rest → post () (ledger.set rest s)) :
    (release ledger label misuse r).wpUpTo (fun _ => True) post s := by
  cases r with
  | none => exact wp_of_crash _ _ _ s s _ (run_release_null ledger label misuse s) trivial
  | some r =>
      by_cases member : r ∈ ledger.get s
      · obtain ⟨rest, split⟩ := Multiset.exists_cons_of_mem member
        refine wp_of_run _ _ _ s _ () (run_release_held ledger label misuse r rest s split) (kept rest ?_)
        rw [split, Multiset.mem_cons] at held
        exact held.resolve_left fun same => different (congrArg some same.symm)
      · exact wp_of_crash _ _ _ s s _ (run_release_missing ledger label misuse r s member) trivial

end Prog

end OneDriver
