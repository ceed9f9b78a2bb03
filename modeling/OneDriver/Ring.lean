import OneDriver.Memory

set_option autoImplicit false

namespace OneDriver

variable {α : Type}

-- The cells of a ring of `cap` from `head` on hold the queue, oldest first.
structure RingHolds (cap : Nat) (mem : Nat → α) (head : Nat) (queue : List α) : Prop where
  fits : queue.length ≤ cap
  cells : ∀ j (inside : j < queue.length), mem ((head + j) % cap) = queue[j]

theorem ring_index (cap head offset : Nat) (within : head < cap) (short : offset ≤ cap) :
    (head + offset) % cap = if head + offset < cap then head + offset else head + offset - cap := by
  split
  · exact Nat.mod_eq_of_lt ‹_›
  · rw [Nat.mod_eq_sub_mod (by omega)]
    exact Nat.mod_eq_of_lt (by omega)

theorem ring_empty (cap : Nat) (mem : Nat → α) (head : Nat) : RingHolds cap mem head [] where
  fits := Nat.zero_le _
  cells := by simp

theorem ring_prefix (cap : Nat) (mem : Nat → α) (head : Nat) (queue rest : List α)
    (holds : RingHolds cap mem head (queue ++ rest)) : RingHolds cap mem head queue where
  fits := by
    have := holds.fits
    simp only [List.length_append] at this
    omega
  cells := fun j inside => by
    rw [holds.cells j (by simp only [List.length_append]; omega), List.getElem_append_left inside]

theorem ring_push (cap : Nat) (mem : Nat → α) (head tail : Nat) (queue data : List α) (within : head < cap)
    (holds : RingHolds cap mem head queue) (behind : tail = (head + queue.length) % cap)
    (straight : tail + data.length ≤ cap) (room : queue.length + data.length ≤ cap) :
    RingHolds cap (overlay mem tail data) head (queue ++ data) where
  fits := by simpa using room
  cells := fun j inside => by
    simp only [List.length_append] at inside
    by_cases old : j < queue.length
    · rw [List.getElem_append_left old, ← holds.cells j old]
      apply overlay_outside
      rw [ring_index cap head j within (by omega)]
      rw [ring_index cap head queue.length within holds.fits] at behind
      split at behind <;> split <;> omega
    · obtain ⟨k, rfl⟩ : ∃ k, j = queue.length + k := ⟨j - queue.length, by omega⟩
      have short : k < data.length := by omega
      have landed : (head + (queue.length + k)) % cap = tail + k := by
        rw [← Nat.add_assoc, ← Nat.mod_add_mod, ← behind]
        exact Nat.mod_eq_of_lt (by omega)
      rw [landed, overlay_inside mem tail data k short]
      simp

theorem ring_pop (cap : Nat) (mem : Nat → α) (head count : Nat) (queue : List α)
    (holds : RingHolds cap mem head queue) : RingHolds cap mem ((head + count) % cap) (queue.drop count) where
  fits := by
    have := holds.fits
    simp only [List.length_drop]
    omega
  cells := fun j inside => by
    simp only [List.length_drop] at inside
    rw [Nat.mod_add_mod, Nat.add_assoc, holds.cells (count + j) (by omega), List.getElem_drop]

theorem ring_peek (cap : Nat) (mem : Nat → α) (head count : Nat) (queue : List α)
    (holds : RingHolds cap mem head queue) (straight : head + count ≤ cap) (stored : count ≤ queue.length) :
    slice mem head count = queue.take count := by
  apply List.ext_getElem
  · simp [stored]
  · intro j inside _
    have short : j < count := by simpa using inside
    rw [slice_get, List.getElem_take, ← holds.cells j (by omega), Nat.mod_eq_of_lt (by omega)]

end OneDriver
