import OneDriver.Echo.Write
import OneDriver.Pieces

set_option autoImplicit false

namespace OneDriver.Echo

-- What read(2) hands down; where the buffer cannot be written uio_offset stops
-- after whole segments, and up to `stray` more bytes have reached the user.
structure ReadRequest where
  uioOffset : Int
  uioResid : Nat
  fault : Option Nat
  stray : Nat
deriving DecidableEq, Repr

def loadMsg (base : Int) (count : Nat) : EchoProg (List UInt8) :=
  Prog.access .msg fun s =>
    if 0 ≤ base ∧ base + count ≤ bufferSize + 1 then .ok (slice s.msg base.toNat count, s) else .error .outOfBounds

-- uiomove(9) towards the user: its count is an int, and a negative one moves nothing.
def uiomoveOut (base : Int) (amt : Nat) (request : ReadRequest) : EchoProg (Int × Nat × List UInt8) := do
  let moveable := min (int32 amt).toNat request.uioResid
  let k := copied moveable request.fault
  let bytes ← loadMsg base (min moveable (k + request.stray))
  pure (if copyFails moveable request.fault then efault else 0, k, bytes)

-- amt is a size_t, the minimum it is set to a 64-bit signed one.
def readAmount (abi : Abi) (len uioOffset : Int) (uioResid : Nat) : Nat :=
  abi.ulong (min (uioResid : Int) (if int32 (len + 1) ≤ uioOffset then 0 else int64 (int32 (len + 1) - uioOffset)))

-- The reply, and the bytes that reached the user's buffer.
def echoRead (abi : Abi) (request : ReadRequest) : EchoProg (EchoReply × List UInt8) := do
  let len ← Prog.look .len EchoState.len
  let move ← uiomoveOut 0 (readAmount abi len request.uioOffset request.uioResid) request
  pure (⟨move.1, int64 (request.uioOffset + move.2.1), request.uioResid - move.2.1⟩, move.2.2)

-- One reader's calls: each goes on from the uio_offset the last one left.
def echoReads (abi : Abi) : Int → List Nat → EchoProg (List (List UInt8))
  | _, [] => pure []
  | uioOffset, size :: rest => do
      let r ← echoRead abi ⟨uioOffset, size, none, 0⟩
      let pieces ← echoReads abi r.1.uioOffset rest
      pure (r.2 :: pieces)

def EchoState.terminated (s : EchoState) : List UInt8 := s.message ++ [0]

theorem terminated_slice (s : EchoState) (holds : EchoInvariant s) : s.terminated = slice s.msg 0 (s.len.toNat + 1) := by
  rw [EchoState.terminated, EchoState.message, slice_append, Nat.zero_add]
  simp [slice, holds.terminated]

theorem terminated_length (s : EchoState) : s.terminated.length = s.len.toNat + 1 := by
  simp [EchoState.terminated, EchoState.message]

theorem len_succ (s : EchoState) (holds : EchoInvariant s) : int32 (s.len + 1) = s.len + 1 := by
  have low := holds.nonneg
  have high := holds.bounded
  simp only [bufferSize] at high
  apply int32_eq <;> omega

theorem run_load_msg (count : Nat) (s : EchoState) (within : count ≤ bufferSize + 1) :
    (loadMsg 0 count).run s = .done (slice s.msg 0 count) s := by
  have bound : (count : Int) ≤ (bufferSize : Int) + 1 := by omega
  simp [loadMsg, Prog.run_access, bound]

theorem read_amount_ahead (abi : Abi) (s : EchoState) (offset size : Nat) (holds : EchoInvariant s)
    (within : offset ≤ s.len.toNat + 1) : readAmount abi s.len offset size = min size (s.len.toNat + 1 - offset) := by
  have low := holds.nonneg
  have high := holds.bounded
  simp only [bufferSize] at high
  have left : (if int32 (s.len + 1) ≤ (offset : Int) then 0 else int64 (int32 (s.len + 1) - offset)) =
      s.len + 1 - offset := by
    rw [len_succ s holds]
    split
    · omega
    · rw [int64_eq] <;> omega
  have exactly := ulong_eq abi (min (size : Int) (s.len + 1 - offset)) (by omega) (by omega)
  rw [readAmount, left]
  omega

theorem run_echo_read (abi : Abi) (s : EchoState) (offset size : Nat) (holds : EchoInvariant s)
    (within : offset ≤ s.len.toNat + 1) :
    (echoRead abi ⟨offset, size, none, 0⟩).run s =
      .done (⟨0, (offset + min size (s.len.toNat + 1 - offset) : Nat), size - min size (s.len.toNat + 1 - offset)⟩,
        s.terminated.take (min size (s.len.toNat + 1 - offset))) s := by
  have high := holds.bounded
  simp only [bufferSize] at high
  have amount := read_amount_ahead abi s offset size holds within
  obtain ⟨amt, counted⟩ : ∃ amt, min size (s.len.toNat + 1 - offset) = amt := ⟨_, rfl⟩
  have short : amt ≤ s.len.toNat + 1 := by omega
  have small : amt ≤ size ∧ amt ≤ 256 ∧ offset ≤ 256 := by omega
  obtain ⟨rest, total⟩ := Nat.exists_eq_add_of_le short
  rw [counted] at amount ⊢
  clear counted high within
  have asInt : int32 (amt : Int) = amt := by
    apply int32_eq <;> omega
  have moved : min (int32 (amt : Int)).toNat size = amt := by
    rw [asInt, Int.toNat_natCast]
    exact Nat.min_eq_left small.1
  have offsets : int64 ((offset : Int) + amt) = (offset + amt : Nat) := by
    rw [int64_eq] <;> omega
  have loads := run_load_msg amt s small.2.1
  have bytes : slice s.msg 0 amt = s.terminated.take amt := by
    simp [terminated_slice s holds, total, slice_append]
  simp [echoRead, uiomoveOut, amount, moved, copied, copyFails, loads, offsets, bytes]

theorem run_echo_reads (abi : Abi) (s : EchoState) (holds : EchoInvariant s) (sizes : List Nat) (offset : Nat)
    (within : offset ≤ s.len.toNat + 1) :
    (echoReads abi offset sizes).run s =
      .done ((sizes.splitLengths (s.terminated.drop offset)).map fun piece => s.terminated.take piece.length) s := by
  induction sizes generalizing offset with
  | nil => rfl
  | cons size rest ih =>
      have piece : ((s.terminated.drop offset).take size).length = min size (s.len.toNat + 1 - offset) := by
        simp [terminated_length]
      have next := ih (offset + min size (s.len.toNat + 1 - offset)) (by omega)
      have dropped : s.terminated.drop (offset + min size (s.len.toNat + 1 - offset)) =
          (s.terminated.drop offset).drop size := by
        rw [List.drop_drop]
        by_cases inside : size ≤ s.len.toNat + 1 - offset
        · rw [Nat.min_eq_left inside]
        · rw [List.drop_eq_nil_of_le, List.drop_eq_nil_of_le] <;> rw [terminated_length] <;> omega
      rw [dropped] at next
      simp only [echoReads, Prog.run_bind, run_echo_read abi s offset size holds within, outcome_bind_done, next,
        Prog.run_pure, List.splitLengths_cons, List.map_cons, piece]

theorem delivered_iff (abi : Abi) (s : EchoState) (holds : EchoInvariant s) (sizes : List Nat)
    (positive : ∀ size ∈ sizes, 0 < size) (whole : s.len + 1 ≤ sizes.sum) :
    (∃ pieces t, (echoReads abi 0 sizes).run s = .done pieces t ∧ untilEmpty pieces = s.terminated) ↔
      ∀ piece ∈ sizes.splitLengths s.terminated, piece <+: s.terminated := by
  have ran := run_echo_reads abi s holds sizes 0 (Nat.zero_le _)
  have low := holds.nonneg
  simp only [List.drop_zero, Nat.cast_zero] at ran
  have some_left : s.terminated ≠ [] := by simp [EchoState.terminated]
  have same : ∀ piece : List UInt8, s.terminated.take piece.length = [] ↔ piece = [] := by
    intro piece
    simp [some_left]
  have enough : s.terminated.length ≤ sizes.sum := by
    rw [terminated_length]
    omega
  rw [Prog.run_exists_iff _ _ _ _ (fun pieces _ => untilEmpty pieces = s.terminated) ran,
    until_empty_split (fun piece => s.terminated.take piece.length) same sizes _ positive,
    ← heads_flatten_iff s.terminated _ (split_piece_le sizes s.terminated), List.flatten_splitLengths _ _ enough]

-- Two chunks that are both what the message begins with.
theorem delivered_in_chunks :
    EchoInvariant (echoLoaded.after ⟨0, [65, 0, 65], none, 0⟩ 0) ∧
      ∃ pieces t, (echoReads .lp64 0 [2, 2, 2]).run (echoLoaded.after ⟨0, [65, 0, 65], none, 0⟩ 0) = .done pieces t ∧
        untilEmpty pieces = [65, 0, 65, 0] := by
  have holds := after_invariant echoLoaded ⟨0, [65, 0, 65], none, 0⟩ 0 (Nat.zero_le _)
  refine ⟨holds, ?_⟩
  have message : (echoLoaded.after ⟨0, [65, 0, 65], none, 0⟩ 0).terminated = [65, 0, 65, 0] := by decide
  rw [← message]
  apply (delivered_iff .lp64 _ holds [2, 2, 2] (by decide) (by decide)).mpr
  rw [message]
  decide

-- The offset says how much is left, and the copy starts at msg[0] again.
theorem second_byte_never_read :
    ∃ s, (∃ reply, (echoWrite .lp64 ⟨0, [65, 66], none, 0⟩).run echoLoaded = .done reply s) ∧
      ∃ pieces t, (echoReads .lp64 0 [1, 1, 1, 1]).run s = .done pieces t ∧ pieces = [[65], [65], [65], []] ∧
        s.terminated = [65, 66, 0] ∧ untilEmpty pieces ≠ s.terminated :=
  ⟨_, ⟨_, rfl⟩, _, _, rfl, by decide, by decide, by decide⟩

theorem int64_wrapped (x : Int) (low : 2 ^ 63 ≤ x) (high : x < 2 ^ 64) : int64 x = x - 2 ^ 64 := by
  simp only [int64, Int.bmod_def]
  omega

theorem read_amount_past (abi : Abi) (s : EchoState) (uioOffset : Int) (uioResid : Nat) (holds : EchoInvariant s)
    (past : s.len + 1 ≤ uioOffset) : readAmount abi s.len uioOffset uioResid = 0 := by
  rw [readAmount, len_succ s holds, if_pos past, Int.min_eq_right (Int.natCast_nonneg _)]
  cases abi <;> rfl

theorem read_amount_exact (abi : Abi) (s : EchoState) (uioOffset : Int) (uioResid : Nat) (holds : EchoInvariant s)
    (before : uioOffset < s.len + 1) (near : s.len + 1 - uioOffset < 2 ^ 63)
    (counted : uioResid < 2 ^ (abi.wordBits - 1)) :
    (readAmount abi s.len uioOffset uioResid : Int) = min (uioResid : Int) (s.len + 1 - uioOffset) := by
  have left : int64 (s.len + 1 - uioOffset) = s.len + 1 - uioOffset := by
    rw [int64_eq] <;> omega
  rw [readAmount, len_succ s holds, if_neg (by omega), left]
  cases abi with
  | ilp32 =>
      simp only [Abi.wordBits] at counted
      exact ulong_of_lt .ilp32 _ (by omega) (by simp only [Abi.wordBits]; omega)
  | lp64 =>
      simp only [Abi.wordBits] at counted
      exact ulong_of_lt .lp64 _ (by omega) (by simp only [Abi.wordBits]; omega)

-- The difference wraps to a negative one, which the size_t reads as a large count;
-- a 32-bit size_t keeps of it what lies past the wrap.
theorem read_amount_wrapped (abi : Abi) (s : EchoState) (uioOffset : Int) (uioResid : Nat) (holds : EchoInvariant s)
    (low : -2 ^ 63 ≤ uioOffset) (far : 2 ^ 63 ≤ s.len + 1 - uioOffset) :
    (readAmount abi s.len uioOffset uioResid : Int) =
      match abi with
      | .ilp32 => s.len + 1 - uioOffset - 2 ^ 63
      | .lp64 => s.len + 1 - uioOffset := by
  have high := holds.bounded
  simp only [bufferSize] at high
  have left := int64_wrapped (s.len + 1 - uioOffset) far (by omega)
  rw [readAmount, len_succ s holds, if_neg (by omega), left, Int.min_eq_right (by omega)]
  cases abi with
  | ilp32 =>
      simp only [Abi.ulong, Abi.wordBits]
      omega
  | lp64 =>
      simp only [Abi.ulong, Abi.wordBits]
      omega

theorem range_within_iff (abi : Abi) (s : EchoState) (uioOffset : Int) (uioResid : Nat) (holds : EchoInvariant s)
    (low : -2 ^ 63 ≤ uioOffset) (counted : uioResid < 2 ^ (abi.wordBits - 1)) :
    readAmount abi s.len uioOffset uioResid ≤ bufferSize + 1 ∧ (readAmount abi s.len uioOffset uioResid : Int) ≤ s.len + 1 ↔
      0 ≤ uioOffset ∨ s.len + 1 - uioOffset < 2 ^ 63 ∧ (uioResid : Int) ≤ s.len + 1 ∨
        abi = .ilp32 ∧ 2 ^ 63 ≤ s.len + 1 - uioOffset := by
  have nonneg := holds.nonneg
  have high := holds.bounded
  simp only [bufferSize] at high ⊢
  by_cases past : s.len + 1 ≤ uioOffset
  · rw [read_amount_past abi s uioOffset uioResid holds past]
    omega
  · by_cases near : s.len + 1 - uioOffset < 2 ^ 63
    · have exactly := read_amount_exact abi s uioOffset uioResid holds (by omega) near counted
      omega
    · have wrapped := read_amount_wrapped abi s uioOffset uioResid holds low (by omega)
      cases abi with
      | ilp32 =>
          dsimp only at wrapped
          simp only [true_and]
          omega
      | lp64 =>
          dsimp only at wrapped
          simp only [reduceCtorEq, false_and, or_false]
          omega

theorem range_within_the_message :
    EchoInvariant echoLoaded ∧ (0 : Nat) < 2 ^ (Abi.lp64.wordBits - 1) ∧
      readAmount .lp64 echoLoaded.len (-4096) 1 ≤ bufferSize + 1 :=
  ⟨loaded_invariant, by decide,
    ((range_within_iff .lp64 echoLoaded (-4096) 1 loaded_invariant (by decide) (by decide)).mpr
      (Or.inr (Or.inl (by decide)))).1⟩

theorem run_load_outside (count : Nat) (s : EchoState) (outside : bufferSize + 1 < count) :
    (loadMsg 0 count).run s = .crashed .outOfBounds s := by
  have refused : ¬ ((0 : Int) ≤ 0 ∧ (0 : Int) + count ≤ bufferSize + 1) := by omega
  rw [loadMsg, Prog.run_access, if_neg refused]

-- What uiomove was handed past the array it also moves, as far as an int counts.
theorem run_echo_read_outside (abi : Abi) (s : EchoState) (uioOffset : Int) (uioResid amt : Nat)
    (amount : readAmount abi s.len uioOffset uioResid = amt) (counted : amt < 2 ^ 31) (asked : amt ≤ uioResid)
    (outside : bufferSize + 1 < amt) :
    (echoRead abi ⟨uioOffset, uioResid, none, 0⟩).run s = .crashed .outOfBounds s := by
  have asInt : int32 (amt : Int) = amt := by
    apply int32_eq <;> omega
  have moved : min (int32 (amt : Int)).toNat uioResid = amt := by
    rw [asInt, Int.toNat_natCast]
    exact Nat.min_eq_left asked
  simp [echoRead, uiomoveOut, amount, moved, copied, run_load_outside amt s outside]

theorem negative_offset_reads_past_the_array :
    (echoRead .lp64 ⟨-4096, 4096, none, 0⟩).run echoLoaded = .crashed .outOfBounds echoLoaded ∧
      ¬ (readAmount .lp64 echoLoaded.len (-4096) 4096 ≤ bufferSize + 1 ∧
        (readAmount .lp64 echoLoaded.len (-4096) 4096 : Int) ≤ echoLoaded.len + 1) := by
  constructor
  · apply run_echo_read_outside .lp64 echoLoaded (-4096) 4096 4096 <;> decide
  · decide

end OneDriver.Echo
