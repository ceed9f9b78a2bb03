import Mathlib.Tactic.Common

set_option autoImplicit false

namespace OneDriver

-- A copy to or from user space moves bytes in order until it meets a missing
-- page; `fault` is the first byte it cannot reach, if any.
def copied (count : Nat) : Option Nat → Nat
  | none => count
  | some k => min k count

def copyFails (count : Nat) (fault : Option Nat) : Bool := copied count fault < count

@[simp] theorem copied_le (count : Nat) (fault : Option Nat) : copied count fault ≤ count := by
  cases fault with
  | none => exact Nat.le_refl count
  | some k => exact Nat.min_le_right k count

theorem copied_of_succeeds (count : Nat) (fault : Option Nat) (succeeds : copyFails count fault = false) :
    copied count fault = count := by
  have bounded := copied_le count fault
  have reached := of_decide_eq_false succeeds
  omega

theorem copy_fails_iff (count : Nat) (fault : Option Nat) :
    copyFails count fault = true ↔ ∃ k, fault = some k ∧ k < count := by
  rw [copyFails, decide_eq_true_iff]
  cases fault with
  | none => simp [copied]
  | some k =>
      simp only [copied, Option.some.injEq, exists_eq_left']
      omega

-- What copy_from_user leaves in the kernel: the bytes it could not reach are zeros.
def fetched (data : List UInt8) (fault : Option Nat) : List UInt8 :=
  data.take (copied data.length fault) ++ List.replicate (data.length - copied data.length fault) 0

theorem fetched_of_succeeds (data : List UInt8) (fault : Option Nat)
    (succeeds : copyFails data.length fault = false) : fetched data fault = data := by
  simp [fetched, copied_of_succeeds data.length fault succeeds]

@[simp] theorem fetched_length (data : List UInt8) (fault : Option Nat) :
    (fetched data fault).length = data.length := by
  have bounded := copied_le data.length fault
  simp only [fetched, List.length_append, List.length_take, List.length_replicate]
  omega

end OneDriver
