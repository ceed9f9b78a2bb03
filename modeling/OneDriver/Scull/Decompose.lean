import OneDriver.Scull.Calls

set_option autoImplicit false

namespace OneDriver.Scull

-- The position taken apart: which qset, which of its slots, which byte of the
-- quantum, and how far a clamped copy goes from there.
structure Decomposes (abi : Abi) (quantum qset fPos : Int) (pos : Position) : Prop where
  whole : pos.item * quantum * qset + pos.sPos * quantum + pos.qPos = fPos
  item : 0 ≤ pos.item
  slot : 0 ≤ pos.sPos ∧ pos.sPos < qset
  byte : 0 ≤ pos.qPos ∧ pos.qPos < quantum
  copy : ∀ count, pos.qPos + clampToQuantum abi quantum pos.qPos count ≤ quantum

-- A long of 32 bits cuts the position, one of 64 leaves only item to be cut.
def positionLimit (quantum qset : Int) : Abi → Int
  | .ilp32 => 2 ^ 31
  | .lp64 => 2 ^ 31 * (quantum * qset)

theorem digits_sum (quantum rest : Int) : rest.tdiv quantum * quantum + rest.tmod quantum = rest := by
  have split := Int.mul_tdiv_add_tmod rest quantum
  rwa [Int.mul_comm] at split

theorem int32_fixed_iff (x : Int) (nonneg : 0 ≤ x) : int32 x = x ↔ x < 2 ^ 31 := by
  constructor
  · intro same
    have below := Int.bmod_lt (x := x) (m := 2 ^ 32) (by decide)
    rw [← int32, same] at below
    exact below
  · intro below
    exact int32_eq x (by omega) below

theorem tdiv_below_iff (fPos n : Int) (low : 0 ≤ fPos) (positive : 0 < n) : fPos.tdiv n < 2 ^ 31 ↔ fPos < 2 ^ 31 * n := by
  rw [Int.tdiv_eq_ediv_of_nonneg low]
  exact Int.ediv_lt_iff_lt_mul positive

theorem position_sum (abi : Abi) (quantum qset fPos : Int) :
    abi.long fPos + ((position abi quantum qset fPos).item - (abi.long fPos).tdiv (quantum * qset)) * (quantum * qset) =
      (position abi quantum qset fPos).item * quantum * qset + (position abi quantum qset fPos).sPos * quantum +
        (position abi quantum qset fPos).qPos := by
  have outer := digits_sum (quantum * qset) (abi.long fPos)
  have inner := digits_sum quantum ((abi.long fPos).tmod (quantum * qset))
  rw [Int.sub_mul, Int.mul_assoc, Int.add_assoc]
  change _ = _ + (((abi.long fPos).tmod (quantum * qset)).tdiv quantum * quantum +
    ((abi.long fPos).tmod (quantum * qset)).tmod quantum)
  rw [inner]
  omega

theorem whole_iff (abi : Abi) (quantum qset fPos : Int) (geometry : Geometry quantum qset) (low : 0 ≤ fPos)
    (high : fPos < 2 ^ 63) :
    (position abi quantum qset fPos).item * quantum * qset + (position abi quantum qset fPos).sPos * quantum +
        (position abi quantum qset fPos).qPos = fPos ↔ fPos < positionLimit quantum qset abi := by
  have positive := itemsize_pos quantum qset geometry
  rw [← position_sum]
  cases abi with
  | ilp32 =>
      have cut : -2 ^ 31 ≤ int32 fPos ∧ int32 fPos < 2 ^ 31 :=
        ⟨Int.le_bmod (by decide), Int.bmod_lt (by decide)⟩
      have shrinks := Int.natAbs_tdiv_le_natAbs (int32 fPos) (quantum * qset)
      have small : (int32 fPos).tdiv (quantum * qset) < 2 ^ 31 := by
        by_cases sign : 0 ≤ int32 fPos
        · omega
        · have negative := Int.tdiv_nonneg (show 0 ≤ -int32 fPos by omega) (Int.le_of_lt positive)
          rw [Int.neg_tdiv] at negative
          omega
      have item : (position .ilp32 quantum qset fPos).item = (int32 fPos).tdiv (quantum * qset) := by
        change int32 ((int32 fPos).tdiv (quantum * qset)) = _
        exact int32_eq _ (by omega) small
      rw [item, Abi.long, Int.sub_self, Int.zero_mul, Int.add_zero, int32_fixed_iff fPos low, positionLimit]
  | lp64 =>
      have long : Abi.lp64.long fPos = fPos := int64_eq fPos (by omega) high
      have quotient : 0 ≤ fPos.tdiv (quantum * qset) := Int.tdiv_nonneg low (Int.le_of_lt positive)
      have item : (position .lp64 quantum qset fPos).item = int32 (fPos.tdiv (quantum * qset)) := by
        rw [position, long]
      rw [item, long, positionLimit, ← tdiv_below_iff fPos _ low positive, ← int32_fixed_iff _ quotient]
      constructor
      · intro sum
        have vanishes : (int32 (fPos.tdiv (quantum * qset)) - fPos.tdiv (quantum * qset)) * (quantum * qset) = 0 := by
          omega
        cases Int.mul_eq_zero.mp vanishes with
        | inl same => omega
        | inr zero => omega
      · intro same
        rw [same, Int.sub_self, Int.zero_mul, Int.add_zero]

theorem long_below_limit (abi : Abi) (quantum qset fPos : Int) (low : 0 ≤ fPos) (high : fPos < 2 ^ 63)
    (below : fPos < positionLimit quantum qset abi) : abi.long fPos = fPos := by
  cases abi with
  | ilp32 => exact int32_eq fPos (by omega) below
  | lp64 => exact int64_eq fPos (by omega) high

theorem item_nonneg (abi : Abi) (quantum qset fPos : Int) (geometry : Geometry quantum qset) (low : 0 ≤ fPos)
    (high : fPos < 2 ^ 63) (below : fPos < positionLimit quantum qset abi) :
    0 ≤ (position abi quantum qset fPos).item := by
  have positive := itemsize_pos quantum qset geometry
  have quotient : 0 ≤ fPos.tdiv (quantum * qset) := Int.tdiv_nonneg low (Int.le_of_lt positive)
  have small : fPos.tdiv (quantum * qset) < 2 ^ 31 := by
    cases abi with
    | ilp32 =>
        have shrinks := Int.natAbs_tdiv_le_natAbs fPos (quantum * qset)
        simp only [positionLimit] at below
        omega
    | lp64 => exact (tdiv_below_iff fPos _ low positive).mpr below
  simp only [position, long_below_limit abi quantum qset fPos low high below]
  rw [int32_eq _ (by omega) small]
  exact quotient

theorem clamped_copy_fits (abi : Abi) (quantum qset qPos : Int) (count : Nat) (geometry : Geometry quantum qset)
    (low : 0 ≤ qPos) (high : qPos < quantum) : qPos + clampToQuantum abi quantum qPos count ≤ quantum := by
  have covered := covers_clamped abi quantum qset qPos count geometry low high
  simp only [covers, Bool.or_eq_true, Bool.and_eq_true, decide_eq_true_eq] at covered
  omega

theorem decomposes_iff (abi : Abi) (quantum qset fPos : Int) (geometry : Geometry quantum qset) (low : 0 ≤ fPos)
    (high : fPos < 2 ^ 63) (s : ScullState) :
    (∃ pos t, (locate abi quantum qset fPos).run s = .done pos t ∧ Decomposes abi quantum qset fPos pos) ↔
      fPos < positionLimit quantum qset abi := by
  have ran := run_locate abi quantum qset fPos s geometry
  rw [Prog.run_exists_iff _ _ _ _ (fun pos _ => Decomposes abi quantum qset fPos pos) ran]
  constructor
  · exact fun parts => (whole_iff abi quantum qset fPos geometry low high).mp parts.whole
  · intro below
    have exactly := long_below_limit abi quantum qset fPos low high below
    have rest : 0 ≤ fPos.tmod (quantum * qset) := Int.tmod_nonneg _ low
    have slot : 0 ≤ (position abi quantum qset fPos).sPos := by
      simp only [position, exactly]
      exact Int.tdiv_nonneg rest (Int.le_of_lt geometry.quantumPos)
    have byte : 0 ≤ (position abi quantum qset fPos).qPos := by
      simp only [position, exactly]
      exact Int.tmod_nonneg _ rest
    have upper := position_below abi quantum qset fPos geometry
    refine ⟨(whole_iff abi quantum qset fPos geometry low high).mpr below,
      item_nonneg abi quantum qset fPos geometry low high below, ⟨slot, upper.slot⟩, ⟨byte, upper.byte⟩, ?_⟩
    intro count
    exact clamped_copy_fits abi quantum qset _ count geometry byte upper.byte

theorem last_int_position_decomposes :
    Geometry 1000 1000 ∧
      ∃ pos t, (locate .ilp32 1000 1000 (2 ^ 31 - 1)).run scullLoaded = .done pos t ∧
        Decomposes .ilp32 1000 1000 (2 ^ 31 - 1) pos := by
  have geometry : Geometry 1000 1000 := ⟨by decide, by decide, by decide⟩
  exact ⟨geometry, (decomposes_iff .ilp32 1000 1000 (2 ^ 31 - 1) geometry (by decide) (by decide) scullLoaded).mpr (by decide)⟩

-- A 32-bit long makes the position negative, and with it the slot; a 64-bit one
-- leaves an item that does not fit its int.
theorem far_positions_fall_apart :
    ((locate .ilp32 1000 1000 (2 ^ 32 - 1000)).run scullLoaded = .done ⟨0, -1, 0⟩ scullLoaded ∧
      ¬ Decomposes .ilp32 1000 1000 (2 ^ 32 - 1000) ⟨0, -1, 0⟩) ∧
    ((locate .lp64 1 1 (2 ^ 31)).run scullLoaded = .done ⟨-2 ^ 31, 0, 0⟩ scullLoaded ∧
      ¬ Decomposes .lp64 1 1 (2 ^ 31) ⟨-2 ^ 31, 0, 0⟩) := by
  refine ⟨⟨rfl, ?_⟩, rfl, ?_⟩
  · intro parts
    exact absurd parts.slot.1 (by decide)
  · intro parts
    exact absurd parts.item (by decide)

end OneDriver.Scull
