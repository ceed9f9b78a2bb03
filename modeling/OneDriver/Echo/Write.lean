import OneDriver.Echo.Device

set_option autoImplicit false

namespace OneDriver.Echo

structure EchoInvariant (s : EchoState) : Prop where
  nonneg : 0 ≤ s.len
  bounded : s.len ≤ bufferSize
  terminated : s.msg s.len.toNat = 0

def EchoState.message (s : EchoState) : List UInt8 := slice s.msg 0 s.len.toNat

def EchoRequest.Accepted (request : EchoRequest) (s : EchoState) : Prop :=
  request.uioOffset = 0 ∨ request.uioOffset = s.len

-- How far uio_offset moves when the write lands at `base`.
def EchoRequest.consumed (request : EchoRequest) (base : Nat) : Nat := moved (bufferSize - base) request

def EchoRequest.stored (request : EchoRequest) (base : Nat) : List UInt8 :=
  (request.data.take (moveable (bufferSize - base) request)).take (request.consumed base + request.stray)

def EchoState.after (s : EchoState) (request : EchoRequest) (base : Nat) : EchoState where
  msg := overlay (overlay s.msg base (request.stored base)) (base + request.consumed base) [0]
  len := (base + request.consumed base : Nat)

theorem consumed_le (request : EchoRequest) (base : Nat) : request.consumed base ≤ bufferSize - base :=
  Nat.le_trans (copied_le _ _) (Nat.min_le_left _ _)

theorem stored_length_le (request : EchoRequest) (base : Nat) :
    (request.stored base).length ≤ bufferSize - base := by
  simp only [EchoRequest.stored, moveable, List.length_take]
  omega

theorem stored_take_consumed (request : EchoRequest) (base : Nat) :
    (request.stored base).take (request.consumed base) = request.data.take (request.consumed base) := by
  have reach : request.consumed base ≤ moveable (bufferSize - base) request := copied_le _ _
  simp only [EchoRequest.stored, List.take_take]
  congr 1
  omega

theorem consumed_le_stored (request : EchoRequest) (base : Nat) :
    request.consumed base ≤ (request.stored base).length := by
  have reach : request.consumed base ≤ moveable (bufferSize - base) request := copied_le _ _
  simp only [EchoRequest.stored, List.length_take]
  simp only [moveable] at reach ⊢
  omega

theorem run_store_msg (base : Nat) (bytes : List UInt8) (s : EchoState) (within : base + bytes.length ≤ bufferSize + 1) :
    (storeMsg base bytes).run s = .done () { s with msg := overlay s.msg base bytes } := by
  have bound : (base : Int) + (bytes.length : Int) ≤ (bufferSize : Int) + 1 := by omega
  simp [storeMsg, Prog.run_access, bound]

theorem run_uiomove (base : Nat) (request : EchoRequest) (s : EchoState) (within : base ≤ bufferSize) :
    (uiomove base (bufferSize - base) request).run s =
      .done (if copyFails (moveable (bufferSize - base) request) request.fault then efault else 0, request.consumed base)
        { s with msg := overlay s.msg base (request.stored base) } := by
  have short := stored_length_le request base
  have stores := run_store_msg base (request.stored base) s (by omega)
  simp only [uiomove, Prog.run_bind]
  unfold EchoRequest.stored EchoRequest.consumed at stores
  rw [stores]
  rfl

theorem run_reset_len (base : Nat) (s : EchoState) (accepted : (base : Int) = 0 ∨ (base : Int) = s.len) :
    (resetLen base).run s = .done () { s with len := base } := by
  by_cases restart : base = 0
  · simp [resetLen, restart]
  · have append : (base : Int) = s.len := accepted.resolve_left (by omega)
    have kept : ¬ s.len = 0 := by omega
    simp [resetLen, append, kept]

theorem capacity_left (abi : Abi) (base resid : Nat) (within : base ≤ bufferSize) :
    abi.ulong (min (resid : Int) (bufferSize - (base : Int))) = min resid (bufferSize - base) := by
  have exactly := ulong_eq abi (min (resid : Int) (bufferSize - (base : Int)))
  simp only [bufferSize] at *
  omega

theorem uiomove_clamped (base amt : Nat) (request : EchoRequest) :
    uiomove base (min request.data.length amt) request = uiomove base amt request := by
  have same : moveable (min request.data.length amt) request = moveable amt request := by
    simp only [moveable]
    omega
  simp only [uiomove, moved, same]

theorem run_record_len (last : Nat) (s : EchoState) (within : last ≤ bufferSize) :
    (recordLen last).run s = .done last { msg := overlay s.msg last [0], len := last } := by
  have narrowed : int32 (last : Int) = last := by
    simp only [bufferSize] at within
    apply int32_eq <;> omega
  have stores := run_store_msg last [0] { s with len := last } (Nat.succ_le_succ within)
  simp only [recordLen, Prog.run_bind, Prog.run_modify, outcome_bind_done, Prog.run_look, narrowed, stores,
    Prog.run_pure]

theorem run_echo_write (abi : Abi) (request : EchoRequest) (s : EchoState) (base : Nat)
    (lands : request.uioOffset = base) (within : base ≤ bufferSize) (accepted : request.Accepted s) :
    (echoWrite abi request).run s =
      .done ⟨if copyFails (moveable (bufferSize - base) request) request.fault then efault else 0,
          (base + request.consumed base : Nat), request.data.length - request.consumed base⟩
        (s.after request base) := by
  have landed : (base : Int) = 0 ∨ (base : Int) = s.len := lands ▸ accepted
  have gate : ¬ ((base : Int) ≠ 0 ∧ (base : Int) ≠ s.len) := fun both => landed.elim both.1 both.2
  have room := consumed_le request base
  have offset : int64 ((base : Int) + request.consumed base) = (base + request.consumed base : Nat) := by
    simp only [bufferSize] at *
    rw [int64_eq] <;> omega
  simp only [echoWrite, lands, Prog.run_bind, Prog.run_look, outcome_bind_done, if_neg gate,
    run_reset_len base s landed, capacity_left abi base _ within, uiomove_clamped, run_uiomove base request _ within]
  rw [offset, run_record_len _ _ (by omega)]
  rfl

theorem refused_write (abi : Abi) (request : EchoRequest) (s : EchoState) (refused : ¬ request.Accepted s) :
    (echoWrite abi request).run s = .done ⟨einval, request.uioOffset, request.data.length⟩ s := by
  simp only [EchoRequest.Accepted, not_or] at refused
  simp [echoWrite, refused]

theorem after_invariant (s : EchoState) (request : EchoRequest) (base : Nat) (within : base ≤ bufferSize) :
    EchoInvariant (s.after request base) := by
  have room := consumed_le request base
  refine ⟨Int.natCast_nonneg _, ?_, ?_⟩
  · simp only [EchoState.after]
    omega
  · exact overlay_inside _ (base + request.consumed base) [0] 0 (by decide)

theorem after_message (s : EchoState) (request : EchoRequest) (base : Nat) :
    (s.after request base).message = slice s.msg 0 base ++ request.data.take (request.consumed base) := by
  have stored := consumed_le_stored request base
  change slice (overlay (overlay s.msg base (request.stored base)) (base + request.consumed base) [0]) 0
    (base + request.consumed base) = _
  rw [slice_overlay_apart _ _ _ _ _ (Or.inl (by omega)), slice_append, Nat.zero_add,
    slice_overlay_apart s.msg 0 base base _ (Or.inl (by omega)), slice_overlay_same _ _ _ _ stored, stored_take_consumed]

theorem message_take (s : EchoState) (base : Nat) (short : (base : Int) ≤ s.len) :
    s.message.take base = slice s.msg 0 base := by
  obtain ⟨rest, total⟩ : ∃ rest, s.len.toNat = base + rest := ⟨s.len.toNat - base, by omega⟩
  simp [EchoState.message, total, slice_append]

theorem accepted_base (request : EchoRequest) (s : EchoState) (holds : EchoInvariant s)
    (accepted : request.Accepted s) :
    ∃ base : Nat, request.uioOffset = base ∧ base ≤ bufferSize ∧ (base : Int) ≤ s.len := by
  have low := holds.nonneg
  have high := holds.bounded
  cases accepted with
  | inl zero => exact ⟨0, zero, Nat.zero_le _, low⟩
  | inr same => exact ⟨s.len.toNat, by omega, by omega, by omega⟩

theorem write_keeps_invariant (abi : Abi) (request : EchoRequest) (s : EchoState) (holds : EchoInvariant s) :
    (echoWrite abi request).wp (fun _ t => EchoInvariant t) s := by
  apply (Prog.wp_iff_run _ _ _).mpr
  by_cases accepted : request.Accepted s
  · obtain ⟨base, lands, within, _⟩ := accepted_base request s holds accepted
    exact ⟨_, _, run_echo_write abi request s base lands within accepted, after_invariant s request base within⟩
  · exact ⟨_, _, refused_write abi request s accepted, holds⟩

-- The transfer of an accepted write at `base` meets memory it cannot read.
def EchoRequest.Faults (request : EchoRequest) (base : Nat) : Prop :=
  copyFails (moveable (bufferSize - base) request) request.fault = true

instance (request : EchoRequest) (base : Nat) : Decidable (request.Faults base) :=
  inferInstanceAs (Decidable (_ = true))

theorem faults_iff (request : EchoRequest) (base : Nat) :
    request.Faults base ↔ ∃ k, request.fault = some k ∧ k < request.data.length ∧ base + k < bufferSize := by
  unfold EchoRequest.Faults
  rw [copy_fails_iff]
  refine exists_congr fun k => and_congr_right fun _ => ?_
  simp only [moveable]
  omega

-- uiomove meets a byte it cannot read before it has moved what there is or what fits
-- behind uio_offset.
def EchoRequest.CutShort (request : EchoRequest) : Prop :=
  ∃ k : Nat, request.fault = some k ∧ (k : Int) < min (request.data.length : Int) (bufferSize - request.uioOffset)

-- `k` bytes are kept: all that were to be moved, or those before the fault.
def EchoWriteLaw (s : EchoState) (request : EchoRequest) (reply : EchoReply) (t : EchoState) : Prop :=
  if request.uioOffset ≠ 0 ∧ request.uioOffset ≠ s.len then
    reply = ⟨einval, request.uioOffset, request.data.length⟩ ∧ t = s
  else
    ∃ k : Nat, t.message = s.message.take request.uioOffset.toNat ++ request.data.take k ∧
      reply.uioOffset = request.uioOffset + k ∧ reply.uioResid = request.data.length - k ∧
      (reply.error = 0 ↔ ¬ request.CutShort) ∧
      (reply.error = 0 → (k : Int) = min (request.data.length : Int) (bufferSize - request.uioOffset)) ∧
      (reply.error ≠ 0 → reply.error = efault ∧ request.fault = some k)

theorem cut_short_iff (request : EchoRequest) (base : Nat) (lands : request.uioOffset = base) :
    request.CutShort ↔ request.Faults base := by
  rw [faults_iff, EchoRequest.CutShort, lands]
  refine exists_congr fun k => and_congr_right fun _ => ?_
  omega

theorem consumed_of_fault (request : EchoRequest) (base : Nat)
    (faults : request.Faults base) : request.fault = some (request.consumed base) := by
  obtain ⟨k, fault, before⟩ := (copy_fails_iff _ _).mp faults
  simp only [EchoRequest.consumed, moved, fault, copied]
  congr 1
  omega

theorem write_obeys_law (abi : Abi) (request : EchoRequest) (s : EchoState) (holds : EchoInvariant s) :
    (echoWrite abi request).wp (EchoWriteLaw s request) s := by
  apply (Prog.wp_iff_run _ _ _).mpr
  by_cases accepted : request.Accepted s
  · obtain ⟨base, lands, within, short⟩ := accepted_base request s holds accepted
    refine ⟨_, _, run_echo_write abi request s base lands within accepted, ?_⟩
    have unrefused : ¬ (request.uioOffset ≠ 0 ∧ request.uioOffset ≠ s.len) := fun both => by
      cases accepted with
      | inl zero => exact both.1 zero
      | inr same => exact both.2 same
    rw [EchoWriteLaw, if_neg unrefused]
    refine ⟨request.consumed base, ?_, by simp [lands], rfl, ?_⟩
    · rw [after_message, lands, Int.toNat_natCast, message_take s base short]
    · rw [cut_short_iff request base lands, EchoRequest.Faults]
      cases fails : copyFails (moveable (bufferSize - base) request) request.fault with
      | false =>
          have all := copied_of_succeeds _ _ fails
          refine ⟨by simp, fun _ => ?_, fun failed => absurd rfl failed⟩
          rw [EchoRequest.consumed, moved, all, moveable, lands]
          omega
      | true => exact ⟨by simp [efault], fun succeeded => by simp [efault] at succeeded,
          fun _ => ⟨rfl, consumed_of_fault request base fails⟩⟩
  · refine ⟨_, _, refused_write abi request s accepted, ?_⟩
    simp only [EchoRequest.Accepted, not_or] at accepted
    simp [EchoWriteLaw, accepted]

theorem loaded_invariant : EchoInvariant echoLoaded := ⟨Int.le_refl 0, by decide, rfl⟩

theorem run_echo_writes (abi : Abi) (requests : List EchoRequest) :
    ∃ replies s, (Prog.series (echoWrite abi) requests).run echoLoaded = .done replies s ∧ EchoInvariant s :=
  (Prog.wp_iff_run _ _ _).mp <| series_invariant (echoWrite abi) (fun _ _ => ()) (fun _ _ => True)
    (fun _ s => EchoInvariant s) (fun _ request s holds _ => write_keeps_invariant abi request s holds) requests ()
    echoLoaded loaded_invariant (follows_of_forall _ _ _ _ fun _ _ _ => trivial)

-- `done` says that no store left the array: one outside it crashes.
theorem echo_write_semantics (abi : Abi) (requests : List EchoRequest) :
    ∃ replies s, (Prog.series (echoWrite abi) requests).run echoLoaded = .done replies s ∧ EchoInvariant s ∧
      ∀ request, ∃ reply t, (echoWrite abi request).run s = .done reply t ∧ EchoWriteLaw s request reply t := by
  obtain ⟨replies, s, ran, holds⟩ := run_echo_writes abi requests
  exact ⟨replies, s, ran, holds, fun request => (Prog.wp_iff_run _ _ _).mp (write_obeys_law abi request s holds)⟩

-- "AB" is written; an append of "CD" is cut off before its second byte.
theorem append_cut_short :
    ∃ s reply t, (Prog.series (echoWrite .ilp32) [⟨0, [65, 66], none, 0⟩]).run echoLoaded = .done [⟨0, 2, 0⟩] s ∧
      (echoWrite .ilp32 ⟨2, [67, 68], some 1, 0⟩).run s = .done reply t ∧ reply.error = efault ∧ reply.uioOffset = 3 ∧
        t.message = [65, 66, 67] := by
  obtain ⟨replies, s, ran, -, each⟩ := echo_write_semantics .ilp32 [⟨0, [65, 66], none, 0⟩]
  obtain ⟨u, first, len, written⟩ : ∃ u,
      (Prog.series (echoWrite .ilp32) [⟨0, [65, 66], none, 0⟩]).run echoLoaded = .done [⟨0, 2, 0⟩] u ∧ u.len = 2 ∧
        u.message = [65, 66] := ⟨_, rfl, rfl, rfl⟩
  obtain ⟨rfl, rfl⟩ := Prog.run_unique first ran
  obtain ⟨reply, t, wrote, law⟩ := each ⟨2, [67, 68], some 1, 0⟩
  have short : EchoRequest.CutShort ⟨2, [67, 68], some 1, 0⟩ := ⟨1, rfl, by decide⟩
  rw [EchoWriteLaw, if_neg (by simp [len])] at law
  obtain ⟨k, message, offset, -, error, -, failed⟩ := law
  obtain ⟨fault, stops⟩ := failed fun zero => error.mp zero short
  obtain rfl : 1 = k := Option.some.inj stops
  rw [written] at message
  exact ⟨u, reply, t, first, wrote, fault, offset, message⟩

end OneDriver.Echo
