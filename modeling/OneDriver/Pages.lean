import Mathlib.Tactic.Common

set_option autoImplicit false

namespace OneDriver

-- A page table sends page numbers to page frames, each with its attributes.
abbrev PageTable (κ : Type) := Nat → Option (Nat × κ)

variable {κ : Type}

namespace PageTable

-- `count` pages from `first` on go to as many frames from `frame` on.
def install (table : PageTable κ) (first frame count : Nat) (attr : κ) : PageTable κ :=
  fun page => if first ≤ page ∧ page < first + count then some (frame + (page - first), attr) else table page

def clear (table : PageTable κ) (first count : Nat) : PageTable κ :=
  fun page => if first ≤ page ∧ page < first + count then none else table page

def Vacant (table : PageTable κ) (first count : Nat) : Prop :=
  ∀ page, first ≤ page → page < first + count → table page = none

-- Where a byte address goes, in pages of `size` bytes.
def reaches (table : PageTable κ) (size a : Nat) : Option (Nat × κ) :=
  (table (a / size)).map fun entry => (entry.1 * size + a % size, entry.2)

-- What was installed of an area that was vacant is gone once the area is cleared.
theorem clear_install (table : PageTable κ) (first frame part count : Nat) (attr : κ)
    (vacant : table.Vacant first count) (within : part ≤ count) :
    (table.install first frame part attr).clear first count = table := by
  funext page
  by_cases inside : first ≤ page ∧ page < first + count
  · rw [clear, if_pos inside, vacant page inside.1 inside.2]
  · have outside : ¬ (first ≤ page ∧ page < first + part) := fun held => inside ⟨held.1, by omega⟩
    rw [clear, if_neg inside, install, if_neg outside]

theorem install_keeps (table : PageTable κ) (first frame count : Nat) (attr : κ) (page : Nat) (entry : Nat × κ)
    (vacant : table.Vacant first count) (held : table page = some entry) :
    table.install first frame count attr page = some entry := by
  have outside : ¬ (first ≤ page ∧ page < first + count) := by
    intro inside
    rw [vacant page inside.1 inside.2] at held
    cases held
  rw [install, if_neg outside, held]

theorem install_cases (table : PageTable κ) (first frame count : Nat) (attr : κ) (page : Nat) (entry : Nat × κ)
    (held : table.install first frame count attr page = some entry) :
    table page = some entry ∨ (first ≤ page ∧ page < first + count) ∧ entry = (frame + (page - first), attr) := by
  by_cases inside : first ≤ page ∧ page < first + count
  · rw [install, if_pos inside] at held
    exact .inr ⟨inside, (Option.some.inj held).symm⟩
  · rw [install, if_neg inside] at held
    exact .inl held

theorem reaches_keeps (table : PageTable κ) (first frame count : Nat) (attr : κ) (size a : Nat) (target : Nat × κ)
    (vacant : table.Vacant first count) (held : table.reaches size a = some target) :
    (table.install first frame count attr).reaches size a = some target := by
  obtain ⟨entry, found, same⟩ := Option.map_eq_some_iff.mp held
  rw [reaches, install_keeps table first frame count attr _ entry vacant found, Option.map_some, same]

-- Byte for byte the installed pages are the frames.
theorem reaches_install (table : PageTable κ) (first frame count : Nat) (attr : κ) (size offset : Nat)
    (positive : 0 < size) (inside : offset < count * size) :
    (table.install first frame count attr).reaches size (first * size + offset) =
      some (frame * size + offset, attr) := by
  have page : (first * size + offset) / size = first + offset / size := by
    rw [Nat.mul_comm, Nat.mul_add_div positive]
  have below : offset / size < count := Nat.div_lt_of_lt_mul (by rwa [Nat.mul_comm] at inside)
  have split : offset / size * size + offset % size = offset := Nat.div_add_mod' offset size
  have rest : (first * size + offset) % size = offset % size := Nat.mul_add_mod' first size offset
  rw [reaches, page, install, if_pos ⟨Nat.le_add_right _ _, by omega⟩, Option.map_some, Nat.add_sub_cancel_left, rest]
  simp only [Nat.add_mul, Nat.add_assoc, split]

end PageTable

end OneDriver
