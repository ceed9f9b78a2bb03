import Mathlib.Data.List.SplitLengths
import Mathlib.Tactic.Common

set_option autoImplicit false

namespace OneDriver

variable {α : Type}

-- What a reader has put together when it meets the first empty piece.
def untilEmpty (pieces : List (List α)) : List α := (pieces.takeWhile fun piece => !piece.isEmpty).flatten

theorem split_of_nil (sizes : List Nat) (piece : List α) (member : piece ∈ sizes.splitLengths []) : piece = [] := by
  induction sizes with
  | nil => simp at member
  | cons size rest ih =>
      simp only [List.splitLengths_cons, List.take_nil, List.drop_nil, List.mem_cons] at member
      cases member with
      | inl same => exact same
      | inr later => exact ih later

theorem split_piece_le (sizes : List Nat) (whole : List α) (piece : List α) (member : piece ∈ sizes.splitLengths whole) :
    piece.length ≤ whole.length := by
  induction sizes generalizing whole with
  | nil => simp at member
  | cons size rest ih =>
      simp only [List.splitLengths_cons, List.mem_cons] at member
      cases member with
      | inl same =>
          rw [same]
          exact List.length_take_le' _ _
      | inr later =>
          have short := ih (whole.drop size) later
          rw [List.length_drop] at short
          omega

-- Pieces of sizes that ask for something run dry once: the rest is empty too.
theorem until_empty_split (read : List α → List α) (same : ∀ piece, read piece = [] ↔ piece = []) (sizes : List Nat)
    (whole : List α) (positive : ∀ size ∈ sizes, 0 < size) :
    untilEmpty ((sizes.splitLengths whole).map read) = ((sizes.splitLengths whole).map read).flatten := by
  induction sizes generalizing whole with
  | nil => rfl
  | cons size rest ih =>
      have asks := positive size (by simp)
      have later := ih (whole.drop size) fun n member => positive n (by simp [member])
      by_cases dry : whole = []
      · have nothing : ∀ piece ∈ ((size :: rest).splitLengths whole).map read, piece = [] := by
          intro piece member
          obtain ⟨part, split, rfl⟩ := List.mem_map.mp member
          rw [dry] at split
          exact (same part).mpr (split_of_nil _ part split)
        have first := (same (whole.take size)).mpr (by simp [dry])
        rw [List.flatten_eq_nil_iff.mpr nothing]
        simp [untilEmpty, first]
      · have first : read (whole.take size) ≠ [] := by
          rw [Ne, same, List.take_eq_nil_iff]
          exact not_or.mpr ⟨Nat.ne_of_gt asks, dry⟩
        rw [untilEmpty] at later ⊢
        simp [first, later]

-- Reading every piece from the start instead of from where the last one ended
-- goes unnoticed just when each piece is what the whole begins with.
theorem heads_flatten_iff (whole : List α) (parts : List (List α)) (short : ∀ part ∈ parts, part.length ≤ whole.length) :
    (parts.map fun part => whole.take part.length).flatten = parts.flatten ↔ ∀ part ∈ parts, part <+: whole := by
  have lengths : (parts.map fun part => whole.take part.length).map List.length = parts.map List.length := by
    rw [List.map_map]
    apply List.map_congr_left
    intro part member
    simp [short part member]
  constructor
  · intro joined part member
    have pieces := List.eq_iff_flatten_eq.mpr ⟨joined, lengths⟩
    have fixed := List.map_eq_map_iff.mp (pieces.trans (List.map_id parts).symm) part member
    exact List.prefix_iff_eq_take.mpr fixed.symm
  · intro heads
    congr 1
    conv_rhs => rw [← List.map_id parts]
    apply List.map_congr_left
    intro part member
    exact (List.prefix_iff_eq_take.mp (heads part member)).symm

end OneDriver
