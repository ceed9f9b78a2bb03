import Mathlib.Data.List.Perm.Subperm
import Mathlib.Data.List.Nodup
import Mathlib.Tactic.Common

set_option autoImplicit false

namespace OneDriver

-- An address names one allocation for good: a freed cell stays empty, so a
-- pointer that outlives its object is seen.
structure Heap (κ : Type) where
  cells : List (Option κ)

variable {κ : Type}

namespace Heap

def cell (heap : Heap κ) (a : Nat) : Option κ := (heap.cells[a]?).join

def fresh (heap : Heap κ) : Nat := heap.cells.length

def alloc (heap : Heap κ) (c : κ) : Heap κ := ⟨heap.cells ++ [some c]⟩

def put (heap : Heap κ) (a : Nat) (c : κ) : Heap κ := ⟨heap.cells.set a (some c)⟩

def free (heap : Heap κ) (a : Nat) : Heap κ := ⟨heap.cells.set a none⟩

def freeAll (heap : Heap κ) (addresses : List Nat) : Heap κ := addresses.foldl Heap.free heap

theorem cell_lt (heap : Heap κ) (a : Nat) (c : κ) (live : heap.cell a = some c) : a < heap.fresh := by
  by_cases bound : a < heap.cells.length
  · exact bound
  · simp [cell, List.getElem?_eq_none (Nat.le_of_not_gt bound)] at live

@[simp] theorem cell_fresh (heap : Heap κ) : heap.cell heap.fresh = none := by
  simp [cell, fresh]

@[simp] theorem alloc_cell_fresh (heap : Heap κ) (c : κ) : (heap.alloc c).cell heap.fresh = some c := by
  simp [cell, alloc, fresh]

theorem alloc_cell (heap : Heap κ) (c : κ) (a : Nat) (old : a ≠ heap.fresh) :
    (heap.alloc c).cell a = heap.cell a := by
  by_cases bound : a < heap.cells.length
  · simp [cell, alloc, List.getElem?_append_left bound]
  · have beyond : heap.cells.length < a := Nat.lt_of_le_of_ne (Nat.le_of_not_gt bound) (Ne.symm old)
    have past : (heap.cells ++ [some c])[a]? = none := List.getElem?_eq_none (by simpa using Nat.succ_le_of_lt beyond)
    simp [cell, alloc, past, List.getElem?_eq_none (Nat.le_of_lt beyond)]

theorem put_cell_same (heap : Heap κ) (a : Nat) (c old : κ) (live : heap.cell a = some old) :
    (heap.put a c).cell a = some c := by
  have bound : a < heap.cells.length := heap.cell_lt a old live
  simp [cell, put, bound]

theorem put_cell_other (heap : Heap κ) (a b : Nat) (c : κ) (other : b ≠ a) :
    (heap.put a c).cell b = heap.cell b := by
  simp [cell, put, List.getElem?_set_ne (Ne.symm other)]

@[simp] theorem free_cell_same (heap : Heap κ) (a : Nat) : (heap.free a).cell a = none := by
  by_cases bound : a < heap.cells.length
  · simp [cell, free, bound]
  · simp [cell, free, bound]

theorem free_cell_other (heap : Heap κ) (a b : Nat) (other : b ≠ a) : (heap.free a).cell b = heap.cell b := by
  simp [cell, free, List.getElem?_set_ne (Ne.symm other)]

@[simp] theorem free_put (heap : Heap κ) (a : Nat) (c : κ) : (heap.put a c).free a = heap.free a := by
  simp [put, free]

@[simp] theorem free_all_nil (heap : Heap κ) : heap.freeAll [] = heap := rfl

@[simp] theorem free_all_cons (heap : Heap κ) (a : Nat) (rest : List Nat) :
    heap.freeAll (a :: rest) = (heap.free a).freeAll rest := rfl

theorem free_all_append (heap : Heap κ) (first second : List Nat) :
    heap.freeAll (first ++ second) = (heap.freeAll first).freeAll second := List.foldl_append

theorem free_all_cell_other (heap : Heap κ) (addresses : List Nat) (a : Nat) (other : a ∉ addresses) :
    (heap.freeAll addresses).cell a = heap.cell a := by
  induction addresses generalizing heap with
  | nil => rfl
  | cons b rest ih =>
      simp only [List.mem_cons, not_or] at other
      rw [free_all_cons, ih (heap.free b) other.2, free_cell_other heap b a other.1]

end Heap

-- The heap is the live cells at `owned`, each listed once, beside `outside`.
structure Owns (outside : Nat → Option κ) (heap : Heap κ) (owned : List Nat) : Prop where
  nodup : owned.Nodup
  live : ∀ a ∈ owned, heap.cell a ≠ none
  apart : ∀ a ∈ owned, outside a = none
  rest : ∀ a, a ∉ owned → heap.cell a = outside a

theorem owns_perm (outside : Nat → Option κ) (heap : Heap κ) (owned other : List Nat)
    (owns : Owns outside heap owned) (same : owned.Perm other) : Owns outside heap other where
  nodup := same.nodup_iff.mp owns.nodup
  live := fun a member => owns.live a (same.mem_iff.mpr member)
  apart := fun a member => owns.apart a (same.mem_iff.mpr member)
  rest := fun a absent => owns.rest a fun member => absent (same.mem_iff.mp member)

theorem fresh_not_owned (outside : Nat → Option κ) (heap : Heap κ) (owned : List Nat)
    (owns : Owns outside heap owned) : heap.fresh ∉ owned :=
  fun member => owns.live _ member heap.cell_fresh

theorem owns_alloc (outside : Nat → Option κ) (heap : Heap κ) (owned : List Nat) (c : κ)
    (owns : Owns outside heap owned) : Owns outside (heap.alloc c) (heap.fresh :: owned) := by
  have unowned := fresh_not_owned outside heap owned owns
  refine ⟨List.nodup_cons.mpr ⟨unowned, owns.nodup⟩, ?_, ?_, ?_⟩
  · intro a member
    cases List.mem_cons.mp member with
    | inl same => simp [same]
    | inr old =>
        rw [Heap.alloc_cell heap c a fun same => unowned (same ▸ old)]
        exact owns.live a old
  · intro a member
    cases List.mem_cons.mp member with
    | inl same => rw [same, ← owns.rest _ unowned, Heap.cell_fresh]
    | inr old => exact owns.apart a old
  · intro a absent
    simp only [List.mem_cons, not_or] at absent
    rw [Heap.alloc_cell heap c a absent.1, owns.rest a absent.2]

theorem owns_put (outside : Nat → Option κ) (heap : Heap κ) (owned : List Nat) (a : Nat) (c : κ)
    (owns : Owns outside heap owned) (member : a ∈ owned) : Owns outside (heap.put a c) owned := by
  obtain ⟨old, live⟩ := Option.ne_none_iff_exists'.mp (owns.live a member)
  refine ⟨owns.nodup, ?_, owns.apart, ?_⟩
  · intro b listed
    by_cases same : b = a
    · rw [same, Heap.put_cell_same heap a c old live]
      exact Option.some_ne_none c
    · rw [Heap.put_cell_other heap a b c same]
      exact owns.live b listed
  · intro b absent
    rw [Heap.put_cell_other heap a b c fun same => absent (same ▸ member)]
    exact owns.rest b absent

theorem owns_free (outside : Nat → Option κ) (heap : Heap κ) (a : Nat) (owned : List Nat)
    (owns : Owns outside heap (a :: owned)) : Owns outside (heap.free a) owned := by
  obtain ⟨gone, kept⟩ := List.nodup_cons.mp owns.nodup
  refine ⟨kept, ?_, fun b member => owns.apart b (by simp [member]), ?_⟩
  · intro b member
    rw [Heap.free_cell_other heap a b fun same => gone (same ▸ member)]
    exact owns.live b (by simp [member])
  · intro b absent
    by_cases same : b = a
    · rw [same, Heap.free_cell_same, owns.apart a (by simp)]
    · rw [Heap.free_cell_other heap a b same]
      exact owns.rest b (by simp [same, absent])

theorem owns_free_all (outside : Nat → Option κ) (heap : Heap κ) (addresses owned : List Nat)
    (owns : Owns outside heap (addresses ++ owned)) : Owns outside (heap.freeAll addresses) owned := by
  induction addresses generalizing heap with
  | nil => exact owns
  | cons a rest ih => exact ih (heap.free a) (owns_free outside heap a (rest ++ owned) owns)

theorem owned_length_le (outside : Nat → Option κ) (heap : Heap κ) (owned : List Nat)
    (owns : Owns outside heap owned) : owned.length ≤ heap.fresh := by
  have inside : owned ⊆ List.range heap.fresh := by
    intro a member
    obtain ⟨c, live⟩ := Option.ne_none_iff_exists'.mp (owns.live a member)
    exact List.mem_range.mpr (heap.cell_lt a c live)
  simpa using (List.subperm_of_subset owns.nodup inside).length_le

end OneDriver
