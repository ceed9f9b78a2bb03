import Mathlib.Logic.Function.Basic
import Mathlib.Tactic.Common

set_option autoImplicit false

namespace OneDriver

variable {α : Type}

-- A memory is total in its addresses; which of them belong to an object is for
-- the owner of the object to say.
def overlay (mem : Nat → α) (base : Nat) (data : List α) : Nat → α :=
  fun i => if base ≤ i then (data[i - base]?).getD (mem i) else mem i

def slice (mem : Nat → α) (base count : Nat) : List α := (List.range count).map fun i => mem (base + i)

theorem overlay_inside (mem : Nat → α) (base : Nat) (data : List α) (j : Nat) (inside : j < data.length) :
    overlay mem base data (base + j) = data[j] := by
  simp [overlay, inside]

theorem overlay_outside (mem : Nat → α) (base : Nat) (data : List α) (i : Nat)
    (outside : i < base ∨ base + data.length ≤ i) : overlay mem base data i = mem i := by
  by_cases before : base ≤ i
  · have past : data.length ≤ i - base := by omega
    simp [overlay, before, past]
  · simp [overlay, before]

theorem overlay_update_outside (mem : Nat → α) (base : Nat) (data : List α) (i : Nat) (c : α)
    (outside : ¬ (base ≤ i ∧ i < base + data.length)) :
    overlay (Function.update mem i c) base data = Function.update (overlay mem base data) i c := by
  funext j
  by_cases same : j = i
  · subst same
    rw [Function.update_self, overlay_outside _ _ _ _ (by omega), Function.update_self]
  · rw [Function.update_of_ne same]
    by_cases inside : base ≤ j ∧ j < base + data.length
    · obtain ⟨k, rfl⟩ : ∃ k, j = base + k := ⟨j - base, by omega⟩
      rw [overlay_inside _ _ _ _ (by omega), overlay_inside _ _ _ _ (by omega)]
    · rw [overlay_outside _ _ _ _ (by omega), overlay_outside _ _ _ _ (by omega), Function.update_of_ne same]

theorem overlay_nil (mem : Nat → α) (base : Nat) : overlay mem base [] = mem := by
  funext i
  simp [overlay]

theorem overlay_cons (mem : Nat → α) (base : Nat) (first : α) (rest : List α) :
    overlay mem base (first :: rest) = overlay (Function.update mem base first) (base + 1) rest := by
  funext i
  by_cases here : i = base
  · subst here
    rw [overlay_outside _ _ rest _ (Or.inl (by omega))]
    simp [overlay]
  · by_cases before : base ≤ i
    · obtain ⟨k, rfl⟩ : ∃ k, i = base + 1 + k := ⟨i - (base + 1), by omega⟩
      have index : base + 1 + k - base = k + 1 := by omega
      simp [overlay, before, index, here]
    · have past : ¬ base + 1 ≤ i := by omega
      simp [overlay, before, past, here]

@[simp] theorem slice_length (mem : Nat → α) (base count : Nat) : (slice mem base count).length = count := by
  simp [slice]

theorem slice_get (mem : Nat → α) (base count j : Nat) (inside : j < (slice mem base count).length) :
    (slice mem base count)[j] = mem (base + j) := by
  simp [slice]

theorem slice_congr (mem other : Nat → α) (base count : Nat)
    (same : ∀ j, j < count → mem (base + j) = other (base + j)) : slice mem base count = slice other base count := by
  apply List.map_congr_left
  intro j member
  exact same j (List.mem_range.mp member)

theorem slice_append (mem : Nat → α) (base first second : Nat) :
    slice mem base (first + second) = slice mem base first ++ slice mem (base + first) second := by
  simp [slice, List.range_add, Nat.add_assoc, Function.comp_def]

theorem slice_overlay_same (mem : Nat → α) (base count : Nat) (data : List α) (fits : count ≤ data.length) :
    slice (overlay mem base data) base count = data.take count := by
  apply List.ext_getElem
  · simp [fits]
  · intro j inside _
    have short : j < count := by simpa using inside
    rw [slice_get, overlay_inside mem base data j (by omega), List.getElem_take]

theorem slice_overlay_apart (mem : Nat → α) (base count start : Nat) (data : List α)
    (apart : base + count ≤ start ∨ start + data.length ≤ base) :
    slice (overlay mem start data) base count = slice mem base count := by
  apply slice_congr
  intro j inside
  exact overlay_outside mem start data _ (by omega)

end OneDriver
