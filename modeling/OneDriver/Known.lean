import OneDriver.Memory
import Mathlib.Data.List.Forall2

set_option autoImplicit false

namespace OneDriver

variable {α : Type}

-- What is known of a value: the value itself, or only that its source admits it.
def Shown (admits : α → Prop) : Option α → α → Prop
  | some known, a => a = known
  | none, a => admits a

section Shown

variable (admits : α → Prop)

theorem shown_overlay (view : Nat → Option α) (mem : Nat → α) (base : Nat) (data : List α)
    (shown : ∀ j, Shown admits (view j) (mem j)) (j : Nat) :
    Shown admits (overlay view base (data.map some) j) (overlay mem base data j) := by
  by_cases inside : base ≤ j ∧ j < base + data.length
  · obtain ⟨k, rfl⟩ : ∃ k, j = base + k := ⟨j - base, by omega⟩
    have short : k < data.length := by omega
    rw [overlay_inside mem base data k short, overlay_inside view base _ k (by simpa using short), List.getElem_map]
    rfl
  · rw [overlay_outside mem base data j (by omega), overlay_outside view base _ j (by simpa using (by omega))]
    exact shown j

theorem shown_slice (view : Nat → Option α) (mem : Nat → α) (base count : Nat)
    (shown : ∀ j, Shown admits (view j) (mem j)) :
    List.Forall₂ (Shown admits) (slice view base count) (slice mem base count) := by
  simp only [slice, List.forall₂_map_left_iff, List.forall₂_map_right_iff]
  exact List.forall₂_same.mpr fun j _ => shown (base + j)

-- Where everything is known there is one reading of it.
theorem shown_known (view : List (Option α)) (values : List α) (shown : List.Forall₂ (Shown admits) view values)
    (known : ∀ v ∈ view, v.isSome = true) : values.map some = view := by
  induction shown with
  | nil => rfl
  | @cons v a view values head _ ih =>
      obtain ⟨b, rfl⟩ := Option.isSome_iff_exists.mp (known v (by simp))
      rw [List.map_cons, ih fun w member => known w (by simp [member])]
      exact congrArg (fun x => some x :: view) head

end Shown

-- Two sources that share no value tell the same only of what is known.
theorem known_of_same (view : List (Option α)) (values : List α) (a b : α) (differ : a ≠ b)
    (first : List.Forall₂ (Shown (· = a)) view values) (second : List.Forall₂ (Shown (· = b)) view values) :
    ∀ v ∈ view, v.isSome = true := by
  induction first with
  | nil => simp
  | @cons v x view values head _ ih =>
      obtain ⟨head', rest'⟩ := List.forall₂_cons.mp second
      intro w member
      rcases List.mem_cons.mp member with rfl | later
      · cases w with
        | some known => rfl
        | none => exact absurd (head.symm.trans head') differ
      · exact ih rest' w later

end OneDriver
