import Mathlib.Data.List.Perm.Subperm
import Mathlib.Data.List.Nodup
import Mathlib.Tactic.Common

set_option autoImplicit false

namespace OneDriver

variable {α : Type}

-- The nodes met from `start` on, to the null that ends the chain; `next a` is the
-- link of the node at `a`, where there is a node.
def Linked (next : α → Option (Option α)) : Option α → List α → Prop
  | start, [] => start = none
  | start, a :: rest => start = some a ∧ ∃ link, next a = some link ∧ Linked next link rest

theorem linked_unique (next : α → Option (Option α)) (start : Option α) (nodes others : List α)
    (linked : Linked next start nodes) (again : Linked next start others) : nodes = others := by
  induction nodes generalizing start others with
  | nil =>
      cases others with
      | nil => rfl
      | cons b rest => exact absurd (linked.symm.trans again.1) (by simp)
  | cons a rest ih =>
      obtain ⟨here, link, found, later⟩ := linked
      cases others with
      | nil => exact absurd (here.symm.trans again) (by simp)
      | cons b rest' =>
          obtain ⟨here', link', found', later'⟩ := again
          obtain rfl := Option.some.inj (here.symm.trans here')
          obtain rfl := Option.some.inj (found.symm.trans found')
          rw [ih link rest' later later']

theorem linked_from (next : α → Option (Option α)) (start : Option α) (front back : List α) (a : α)
    (linked : Linked next start (front ++ a :: back)) : Linked next (some a) (a :: back) := by
  induction front generalizing start with
  | nil => exact ⟨rfl, linked.2⟩
  | cons b rest ih =>
      obtain ⟨-, link, -, later⟩ := linked
      exact ih link later

-- A node met twice would go on in the same way for ever.
theorem linked_nodup (next : α → Option (Option α)) (start : Option α) (nodes : List α)
    (linked : Linked next start nodes) : nodes.Nodup := by
  induction nodes generalizing start with
  | nil => exact List.nodup_nil
  | cons a rest ih =>
      obtain ⟨-, link, found, later⟩ := linked
      refine List.nodup_cons.mpr ⟨?_, ih link later⟩
      intro member
      obtain ⟨front, back, rfl⟩ := List.append_of_mem member
      have shorter := linked_unique next (some a) (a :: (front ++ a :: back)) (a :: back)
        ⟨rfl, link, found, later⟩ (linked_from next link front back a later)
      have lengths := congrArg List.length shorter
      simp only [List.length_cons, List.length_append] at lengths
      omega

theorem linked_live (next : α → Option (Option α)) (start : Option α) (nodes : List α)
    (linked : Linked next start nodes) (a : α) (member : a ∈ nodes) : ∃ link, next a = some link := by
  obtain ⟨front, back, rfl⟩ := List.append_of_mem member
  obtain ⟨-, link, found, -⟩ := linked_from next start front back a linked
  exact ⟨link, found⟩

theorem linked_length_le (next : Nat → Option (Option Nat)) (bound : Nat) (start : Option Nat) (nodes : List Nat)
    (below : ∀ a link, next a = some link → a < bound) (linked : Linked next start nodes) : nodes.length ≤ bound := by
  have inside : nodes ⊆ List.range bound := by
    intro a member
    obtain ⟨link, found⟩ := linked_live next start nodes linked a member
    exact List.mem_range.mpr (below a link found)
  simpa using ((linked_nodup next start nodes linked).subperm inside).length_le

end OneDriver
