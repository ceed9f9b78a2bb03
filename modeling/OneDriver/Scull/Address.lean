import OneDriver.Scull.Follow

set_option autoImplicit false

namespace OneDriver.Scull

-- What locate computes when the product of quantum and qset is a positive int.
def position (abi : Abi) (quantum qset fPos : Int) : Position where
  item := int32 ((abi.long fPos).tdiv (quantum * qset))
  sPos := ((abi.long fPos).tmod (quantum * qset)).tdiv quantum
  qPos := ((abi.long fPos).tmod (quantum * qset)).tmod quantum

-- A negative remainder leads to slots and bytes before the start of their array.
def Position.inRange (pos : Position) : Prop := 0 ≤ pos.sPos ∧ 0 ≤ pos.qPos

structure Position.Below (pos : Position) (quantum qset : Int) : Prop where
  slot : pos.sPos < qset
  byte : pos.qPos < quantum

theorem itemsize_pos (quantum qset : Int) (geometry : Geometry quantum qset) : 0 < quantum * qset :=
  Int.mul_pos geometry.quantumPos geometry.qsetPos

theorem rest_bounds (n x : Int) (positive : 0 < n) : -n < x.tmod n ∧ x.tmod n < n := by
  constructor
  · exact Int.neg_lt_of_neg_lt (by simpa using Int.tmod_lt_of_pos (-x) positive)
  · exact Int.tmod_lt_of_pos x positive

theorem run_locate (abi : Abi) (quantum qset fPos : Int) (s : ScullState) (geometry : Geometry quantum qset) :
    (locate abi quantum qset fPos).run s = .done (position abi quantum qset fPos) s := by
  have positive := itemsize_pos quantum qset geometry
  have product := geometry.product
  have item : int32 (quantum * qset) = quantum * qset := int32_eq _ (by omega) product
  obtain ⟨low, high⟩ := rest_bounds (quantum * qset) (abi.long fPos) positive
  have rest : int32 ((abi.long fPos).tmod (quantum * qset)) = (abi.long fPos).tmod (quantum * qset) :=
    int32_eq _ (by omega) (by omega)
  have divides : quantum * qset ≠ 0 := by omega
  have nonzero : quantum ≠ 0 := Int.ne_of_gt geometry.quantumPos
  simp only [locate, item, Prog.run_bind, cdiv_of_ne _ _ _ divides, cmod_of_ne _ _ _ divides,
    cdiv_of_ne _ _ _ nonzero, cmod_of_ne _ _ _ nonzero, Prog.run_pure, outcome_bind_done, rest, position]

theorem position_below (abi : Abi) (quantum qset fPos : Int) (geometry : Geometry quantum qset) :
    (position abi quantum qset fPos).Below quantum qset := by
  have positive := geometry.quantumPos
  obtain ⟨-, high⟩ := rest_bounds (quantum * qset) (abi.long fPos) (itemsize_pos quantum qset geometry)
  refine ⟨?_, Int.tmod_lt_of_pos _ positive⟩
  by_cases sign : 0 ≤ (abi.long fPos).tmod (quantum * qset)
  · simp only [position]
    rw [Int.tdiv_eq_ediv_of_nonneg sign]
    exact Int.ediv_lt_of_lt_mul positive (Int.mul_comm quantum qset ▸ high)
  · have mirrored := Int.tdiv_nonneg (show 0 ≤ -(abi.long fPos).tmod (quantum * qset) by omega) (Int.le_of_lt positive)
    have slots := geometry.qsetPos
    rw [Int.neg_tdiv] at mirrored
    simp only [position]
    omega

theorem position_in_range (abi : Abi) (quantum qset fPos : Int) (geometry : Geometry quantum qset)
    (low : 0 ≤ fPos) (high : fPos < 2 ^ 31) : (position abi quantum qset fPos).inRange := by
  have exactly : abi.long fPos = fPos := long_eq abi fPos (by omega) high
  have rest : 0 ≤ fPos.tmod (quantum * qset) := Int.tmod_nonneg _ low
  simp only [Position.inRange, position, exactly]
  exact ⟨Int.tdiv_nonneg rest (Int.le_of_lt geometry.quantumPos), Int.tmod_nonneg _ rest⟩

end OneDriver.Scull
