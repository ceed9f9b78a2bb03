import OneDriver.Scull.Contents
import OneDriver.Scull.Decompose
import OneDriver.Scull.Sections

set_option autoImplicit false

namespace OneDriver.Scull

def SameSize (s t : ScullState) : Prop := t.size = s.size

theorem size_loose : Loose SameSize := ⟨fun _ => rfl, fun _ _ => rfl⟩

theorem size_kept {α : Type} (p : ScullProg α) (s t : ScullState) (a : α) (held : p.Steady SameSize .inside)
    (ran : p.run s = .done a t) : t.size = s.size :=
  Prog.steady_run SameSize .inside p s t a (fun _ => rfl) (fun _ _ _ first second => second.trans first) held ran

-- How a write leaves the function once it has the semaphore: refused with the
-- offset and the size as they were, or past the copy of `count` bytes.
structure Refused (call : WriteCall) (s t : ScullState) (reply : ScullReply) : Prop where
  retval : reply.retval = -einval ∨ reply.retval = -efault
  fPos : reply.fPos = call.fPos
  size : t.size = s.size

structure Written (abi : Abi) (call : WriteCall) (count : Nat) (s t : ScullState) (reply : ScullReply) : Prop where
  retval : reply.retval = int32 count
  fPos : reply.fPos = int64 (call.fPos + count)
  size : t.size = grown abi (int64 (call.fPos + count)) s.size

theorem refused_from (call : WriteCall) (s t u : ScullState) (reply : ScullReply) (same : t.size = s.size)
    (refused : Refused call t u reply) : Refused call s u reply :=
  ⟨refused.retval, refused.fPos, refused.size.trans same⟩

theorem copy_in_exits (cfg : ScullConfig) (quantum qset : Int) (pos : Position) (call : WriteCall) (dptr : Nat)
    (s t : ScullState) (reply : ScullReply) (ran : (copyIn cfg quantum qset pos call dptr).run s = .done reply t) :
    Refused call s t reply ∨
      Written cfg.abi call (clampToQuantum cfg.abi quantum pos.qPos call.data.length) s t reply := by
  obtain ⟨slot, u, reads, ran⟩ := Prog.run_bind_done ran
  obtain ⟨block, v, points, ran⟩ := Prog.run_bind_done ran
  obtain ⟨_, w, copies, ran⟩ := Prog.run_bind_done ran
  have first := size_kept _ s u slot (slot_of_steady SameSize .inside size_loose _ dptr pos.sPos) reads
  have second := size_kept _ u v block (deref_steady SameSize .inside slot) points
  have third := size_kept _ v w () (copy_from_user_steady SameSize size_loose block _ _ _) copies
  have size : w.size = s.size := third.trans (second.trans first)
  split at ran
  · cases ran
    exact .inl ⟨.inr rfl, rfl, size⟩
  · rw [Prog.run_bind, run_grow_size, outcome_bind_done, Prog.run_pure, Outcome.done.injEq] at ran
    obtain ⟨rfl, rfl⟩ := ran
    refine .inr ⟨?_, ?_, ?_⟩
    · dsimp only
    · dsimp only
    · rw [← size]

theorem write_found_exits (cfg : ScullConfig) (quantum qset : Int) (pos : Position) (call : WriteCall)
    (dptr : Option Nat) (s t : ScullState) (reply : ScullReply)
    (ran : (writeFound cfg quantum qset pos call dptr).run s = .done reply t) :
    Refused call s t reply ∨
      Written cfg.abi call (clampToQuantum cfg.abi quantum pos.qPos call.data.length) s t reply := by
  cases dptr with
  | none =>
      cases ran
      exact .inl ⟨.inl rfl, rfl, rfl⟩
  | some node =>
      obtain ⟨hasArray, u, arrays, ran⟩ := Prog.run_bind_done ran
      have first := size_kept _ s u hasArray (ensure_array_steady SameSize size_loose cfg quantum qset call node) arrays
      split at ran
      · obtain ⟨hasBlock, v, blocks, ran⟩ := Prog.run_bind_done ran
        have second := size_kept _ u v hasBlock (ensure_block_steady SameSize size_loose cfg quantum qset pos call node)
          blocks
        have size : v.size = s.size := second.trans first
        split at ran
        · cases copy_in_exits cfg quantum qset pos call node v t reply ran with
          | inl refused => exact .inl (refused_from call s v t reply size refused)
          | inr written => exact .inr ⟨written.retval, written.fPos, by rw [written.size, size]⟩
        · cases ran
          exact .inl ⟨.inl rfl, rfl, size⟩
      · cases ran
        exact .inl ⟨.inl rfl, rfl, first⟩

-- The byte a slot of the first node holds, where it has a quantum.
def byteAt (heap : Heap Cell) (e : Entry) (index : Int) (j : Nat) : Option UInt8 :=
  (quantumAt heap (e.slot index)).bind fun stored => stored j

def storedByte (s : ScullState) (chain : List Entry) (pos : Position) : Option UInt8 :=
  if 0 < pos.item then none else chain.head?.bind fun e => byteAt s.heap e pos.sPos pos.qPos.toNat

theorem byte_at_iff (heap : Heap Cell) (e : Entry) (index : Int) (j : Nat) (byte : UInt8) :
    byteAt heap e index j = some byte ↔
      ∃ b size bytes, e.slot index = some b ∧ heap.cell b = some (.block size bytes) ∧ bytes j = byte := by
  constructor
  · intro stored
    cases slot : e.slot index with
    | none => simp [byteAt, slot, quantumAt] at stored
    | some b =>
        simp only [byteAt, slot, quantumAt] at stored
        split at stored
        · next size bytes found => exact ⟨b, size, bytes, rfl, found, by simpa using stored⟩
        · simp at stored
  · intro stored
    obtain ⟨b, size, bytes, slot, found, value⟩ := stored
    simp [byteAt, slot, quantumAt, found, value]

theorem clamp_one (abi : Abi) (quantum qset qPos : Int) (geometry : Geometry quantum qset) (low : 0 ≤ qPos)
    (high : qPos < quantum) : clampToQuantum abi quantum qPos 1 = 1 := by
  have bounded := quantum_lt quantum qset geometry
  have exactly : int32 (quantum - qPos) = quantum - qPos := int32_eq _ (by omega) (by omega)
  have rest := ulong_eq abi (quantum - qPos) (by omega) (by omega)
  rw [clampToQuantum, exactly]
  omega

section OneByte

variable (cfg : ScullConfig) (pos : Position) (outside : Nat → Option Cell) (s : ScullState) (back : List Entry)
  (e : Entry) (fPos : Int)

theorem run_read_out_byte (b : Nat) (holds : DeviceHolds outside s (e :: back)) (slot : e.slot pos.sPos = some b)
    (inRange : pos.inRange) (below : pos.Below s.quantum s.qset) :
    ∃ reply, (readOut cfg s.quantum s.qset pos 1 ⟨1, fPos, false, none⟩ e.node).run s = .done reply s ∧
      reply.bytes = (byteAt s.heap e pos.sPos pos.qPos.toNat).toList := by
  have entry := focus_entry outside s [] back e holds
  have reads := run_entry_slot .inside s e _ pos.sPos entry (slot_has_array e pos.sPos (by simp [slot])) inRange.1 below.slot
  obtain ⟨bytes, found⟩ := entry.blocks b (slot_mem_blocks e pos.sPos b slot)
  have covered := covers_clamped cfg.abi s.quantum s.qset pos.qPos 1 holds.geometry inRange.2 below.byte
  have copies := run_copy_to_user s b s.quantum.toNat bytes pos.qPos 1 none found
  rw [clamp_one cfg.abi s.quantum s.qset pos.qPos holds.geometry inRange.2 below.byte] at covered
  rw [if_pos covered] at copies
  refine ⟨⟨cfg.abi.long (1 : Nat), int64 (fPos + (1 : Nat)), slice bytes pos.qPos.toNat (copied 1 none)⟩, ?_, ?_⟩
  · simp only [readOut, Prog.run_bind, reads, outcome_bind_done, slot, deref, Prog.run_pure, copies]
    rfl
  · simp [byteAt, slot, quantumAt, found, copied, slice]

theorem run_read_node_byte (holds : DeviceHolds outside s (e :: back)) (inRange : pos.inRange)
    (below : pos.Below s.quantum s.qset) :
    ∃ reply, (readNode cfg s.quantum s.qset pos 1 ⟨1, fPos, false, none⟩ e.node).run s = .done reply s ∧
      reply.bytes = (byteAt s.heap e pos.sPos pos.qPos.toNat).toList := by
  have entry := focus_entry outside s [] back e holds
  have look := run_read_data .inside s e.node _ _ entry.node
  cases array : e.array with
  | none =>
      refine ⟨⟨0, fPos, []⟩, ?_, by simp [byteAt, Entry.slot, array, quantumAt]⟩
      simp [readNode, look, Entry.data, array]
  | some pair =>
      have data : e.data.isNone = false := by simp [Entry.data, array]
      have reads := run_entry_slot .inside s e _ pos.sPos entry (by simp [array]) inRange.1 below.slot
      simp only [readNode, Prog.run_bind, look, outcome_bind_done, data, Bool.false_eq_true, if_false, reads]
      cases slot : e.slot pos.sPos with
      | none => exact ⟨⟨0, fPos, []⟩, rfl, by simp [byteAt, slot, quantumAt]⟩
      | some b =>
          rw [clamp_one cfg.abi s.quantum s.qset pos.qPos holds.geometry inRange.2 below.byte]
          exact run_read_out_byte cfg pos outside s back e fPos b holds slot inRange below

end OneByte

theorem run_read_body_byte (cfg : ScullConfig) (outside : Nat → Option Cell) (s : ScullState) (chain : List Entry)
    (fPos : Int) (holds : DeviceHolds outside s chain) (low : 0 ≤ fPos) (high : fPos < 2 ^ 31) (inside : fPos < s.size) :
    ∃ reply, (readBody cfg ⟨1, fPos, false, none⟩ s.quantum s.qset).run s = .done reply s ∧
      reply.bytes = (storedByte s chain (position cfg.abi s.quantum s.qset fPos)).toList := by
  have exactly := mixed_eq cfg.abi fPos low (by omega)
  have next := mixed_eq cfg.abi (fPos + (1 : Nat)) (by omega) (by omega)
  have within : ¬ cfg.abi.mixed fPos ≥ s.size := by omega
  have one : clamped cfg.abi fPos 1 s.size = 1 := if_neg (by omega)
  have geometry := holds.geometry
  have locates := run_locate cfg.abi s.quantum s.qset fPos s geometry
  have inRange := position_in_range cfg.abi s.quantum s.qset fPos geometry low high
  have below := position_below cfg.abi s.quantum s.qset fPos geometry
  generalize position cfg.abi s.quantum s.qset fPos = pos at locates inRange below ⊢
  have follows := run_scull_follow outside pos.item s chain holds
  simp only [readBody, Prog.run_bind, Prog.run_look, outcome_bind_done, if_neg within, run_clamp, one, locates, follows]
  by_cases far : 0 < pos.item
  · simp [far, readFound, storedByte]
  · rw [if_neg far, storedByte, if_neg far]
    cases chain with
    | nil => simp [headOf, readFound]
    | cons e back => exact run_read_node_byte cfg pos outside s back e fPos holds inRange below

-- The byte a one-byte read at an offset gives.
def ReadsByte (cfg : ScullConfig) (s : ScullState) (fPos : Int) (byte : UInt8) : Prop :=
  ∃ reply t, (scullRead cfg ⟨1, fPos, false, none⟩).run s = .done reply t ∧ reply.bytes = [byte]

theorem reads_byte_iff (cfg : ScullConfig) (outside : Nat → Option Cell) (s : ScullState) (chain : List Entry)
    (fPos : Int) (byte : UInt8) (holds : DeviceHolds outside s chain) (idle : s.sem = 1) (low : 0 ≤ fPos)
    (high : fPos < 2 ^ 31) (inside : fPos < s.size) :
    ReadsByte cfg s fPos byte ↔ storedByte s chain (position cfg.abi s.quantum s.qset fPos) = some byte := by
  obtain ⟨reply, ran, bytes⟩ := run_read_body_byte cfg outside s.held chain fPos (device_sem outside s chain 0 holds) low
    high inside
  have whole : (scullRead cfg ⟨1, fPos, false, none⟩).run s = .done reply s.held.upped := by
    simp only [scullRead, sampled, Prog.run_bind, Prog.run_look, outcome_bind_done, run_locked _ _ s idle]
    exact congrArg (fun o => Outcome.bind o _) ran
  rw [ReadsByte, Prog.run_exists_iff _ _ _ _ (fun reply _ => reply.bytes = [byte]) whole, bytes]
  change (storedByte s chain (position cfg.abi s.quantum s.qset fPos)).toList = [byte] ↔ _
  cases storedByte s chain (position cfg.abi s.quantum s.qset fPos) <;> simp

-- Every byte of the node's quanta outside the ones touched is there afterwards.
def KeepsBytes (touched : Int → Nat → Prop) (qset : Int) (heap other : Heap Cell) (e e' : Entry) : Prop :=
  ∀ index j byte, 0 ≤ index → index < qset → ¬ touched index j → byteAt heap e index j = some byte →
    byteAt other e' index j = some byte

-- The bytes copy_from_user stores into: `count` of them from the position on.
def Position.covers (pos : Position) (count : Nat) (index : Int) (j : Nat) : Prop :=
  index = pos.sPos ∧ pos.qPos.toNat ≤ j ∧ j < pos.qPos.toNat + count

theorem keeps_bytes_trans (touched : Int → Nat → Prop) (qset : Int) (heap other last : Heap Cell) (e e' e'' : Entry)
    (first : KeepsBytes touched qset heap other e e') (second : KeepsBytes touched qset other last e' e'') :
    KeepsBytes touched qset heap last e e'' := by
  intro index j byte low high apart stored
  exact second index j byte low high apart (first index j byte low high apart stored)

theorem keeps_bytes_slots (touched : Int → Nat → Prop) (qset : Int) (heap other : Heap Cell) (e e' : Entry)
    (slots : ∀ index b, 0 ≤ index → e.slot index = some b → e'.slot index = some b)
    (cells : ∀ b ∈ e.blocks, other.cell b = heap.cell b) : KeepsBytes touched qset heap other e e' := by
  intro index j byte low _ _ stored
  obtain ⟨b, size, bytes, slot, found, value⟩ := (byte_at_iff heap e index j byte).mp stored
  have same := cells b (slot_mem_blocks e index b slot)
  exact (byte_at_iff other e' index j byte).mpr ⟨b, size, bytes, slots index b low slot, same.trans found, value⟩

theorem count_is_int (abi : Abi) (quantum qset qPos : Int) (count : Nat) (geometry : Geometry quantum qset)
    (low : 0 ≤ qPos) (high : qPos < quantum) :
    int32 (clampToQuantum abi quantum qPos count) = clampToQuantum abi quantum qPos count := by
  have fits := clamped_copy_fits abi quantum qset qPos count geometry low high
  have bounded := quantum_lt quantum qset geometry
  apply int32_eq <;> omega

section Store

variable (cfg : ScullConfig) (pos : Position) (outside : Nat → Option Cell) (s : ScullState) (back : List Entry)
  (e : Entry) (call : WriteCall)

theorem copied_heap_keeps (b : Nat) (bytes : Nat → UInt8) (holds : DeviceHolds outside s (e :: back))
    (slot : e.slot pos.sPos = some b) (found : s.heap.cell b = some (.block s.quantum.toNat bytes)) (low : 0 ≤ pos.sPos) :
    KeepsBytes (pos.covers (clampToQuantum cfg.abi s.quantum pos.qPos call.data.length)) s.qset s.heap
      (copiedHeap cfg pos s call b bytes) e e := by
  intro index j byte low' _ apart stored
  obtain ⟨c, size, stored', slot', found', value⟩ := (byte_at_iff s.heap e index j byte).mp stored
  apply (byte_at_iff _ e index j byte).mpr
  by_cases here : index = pos.sPos
  · subst here
    obtain rfl := Option.some.inj (slot.symm.trans slot')
    obtain ⟨rfl, rfl⟩ : s.quantum.toNat = size ∧ bytes = stored' := by simpa using found.symm.trans found'
    refine ⟨b, _, _, slot, Heap.put_cell_same _ _ _ _ found, ?_⟩
    rw [← value]
    apply overlay_outside
    have short : (call.data.take (clampToQuantum cfg.abi s.quantum pos.qPos call.data.length)).length =
        clampToQuantum cfg.abi s.quantum pos.qPos call.data.length := List.length_take_of_le (Nat.min_le_left _ _)
    rw [fetched_length, short]
    simp only [Position.covers, true_and, not_and, Nat.not_lt] at apart
    omega
  · refine ⟨c, size, stored', slot', ?_, value⟩
    rw [copiedHeap, Heap.put_cell_other _ _ _ _ ?_, found']
    intro same
    exact here (slot_injective e index pos.sPos c (focus_nodup outside s [] back e holds) low' low slot' (same ▸ slot))

theorem copy_in_keeps_bytes (t : ScullState) (reply : ScullReply) (holds : DeviceHolds outside s (e :: back))
    (filled : (e.slot pos.sPos).isSome = true) (inRange : pos.inRange) (below : pos.Below s.quantum s.qset)
    (ran : (copyIn cfg s.quantum s.qset pos call e.node).run s = .done reply t) :
    DeviceHolds outside t (e :: back) ∧ Frame s t ∧ reply.retval ≠ -einval ∧
      KeepsBytes (pos.covers (clampToQuantum cfg.abi s.quantum pos.qPos call.data.length)) s.qset s.heap t.heap e e := by
  obtain ⟨b, slot⟩ := Option.isSome_iff_exists.mp filled
  obtain ⟨bytes, found⟩ := (focus_entry outside s [] back e holds).blocks b (slot_mem_blocks e pos.sPos b slot)
  have stored := device_copied cfg pos outside s back e call b bytes holds slot
  have keeps := copied_heap_keeps cfg pos outside s back e call b bytes holds slot found inRange.1
  have counted := count_is_int cfg.abi s.quantum s.qset pos.qPos call.data.length holds.geometry inRange.2 below.byte
  rw [run_copy_in cfg pos outside s back e call b bytes holds slot found inRange below, counted] at ran
  split at ran
  · rw [Outcome.done.injEq] at ran
    obtain ⟨rfl, rfl⟩ := ran
    exact ⟨stored, frame_heap s _, by simp [efault, einval], keeps⟩
  · rw [Outcome.done.injEq] at ran
    obtain ⟨rfl, rfl⟩ := ran
    refine ⟨device_resize outside _ _ _ stored, ⟨rfl, rfl, rfl, rfl, rfl⟩, ?_, keeps⟩
    simp only [einval]
    omega

theorem ensure_block_keeps_bytes (holds : DeviceHolds outside s (e :: back)) (has : e.array.isSome = true)
    (low : 0 ≤ pos.sPos) (high : pos.sPos < s.qset) :
    ∃ ok heap e', (ensureBlock cfg s.quantum s.qset pos call e.node).run s = .done ok { s with heap := heap } ∧
      DeviceHolds outside { s with heap := heap } (e' :: back) ∧ e'.node = e.node ∧
      (ok = true → (e'.slot pos.sPos).isSome = true) ∧ ∀ touched, KeepsBytes touched s.qset s.heap heap e e' := by
  obtain ⟨heap, e', blocks, holds', node, -, slots, cells, filled, fresh⟩ :=
    ensure_block_slots cfg pos call outside s [] back e holds has low high
  refine ⟨_, heap, e', blocks, holds', node, ?_, ?_⟩
  · intro ok
    exact slot_ensured e e' pos.sPos _ heap _ ok filled fresh
  · intro touched
    apply keeps_bytes_slots touched s.qset s.heap heap e e' _ cells
    intro index b low' slot
    by_cases here : index = pos.sPos
    · subst here
      rw [filled (.inl (by simp [slot])), slot]
    · rw [slots index low' here, slot]

theorem write_node_keeps_bytes (t : ScullState) (reply : ScullReply) (holds : DeviceHolds outside s (e :: back))
    (has : e.array.isSome = true) (inRange : pos.inRange) (below : pos.Below s.quantum s.qset)
    (ran : (writeNode cfg s.quantum s.qset pos call e.node).run s = .done reply t) :
    ∃ e', DeviceHolds outside t (e' :: back) ∧ Frame s t ∧
      (reply.retval = -einval → KeepsBytes (fun _ _ => False) s.qset s.heap t.heap e e') ∧
      KeepsBytes (pos.covers (clampToQuantum cfg.abi s.quantum pos.qPos call.data.length)) s.qset s.heap t.heap e e' := by
  have data : e.data.isSome = true := by
    obtain ⟨pair, array⟩ := Option.isSome_iff_exists.mp has
    simp [Entry.data, array]
  have look := run_read_data .inside s e.node _ _ (focus_entry outside s [] back e holds).node
  have arrays : (ensureArray cfg s.quantum s.qset call e.node).run s = .done true s := by
    simp [ensureArray, look, data]
  obtain ⟨ok, heap, e', blocks, holds', node, block, attached⟩ :=
    ensure_block_keeps_bytes cfg pos outside s back e call holds has inRange.1 below.slot
  simp only [writeNode, Prog.run_bind, arrays, outcome_bind_done, if_true, blocks] at ran
  split at ran
  · next filled =>
      rw [← node] at ran
      obtain ⟨last, frame, copied', keeps⟩ := copy_in_keeps_bytes cfg pos outside { s with heap := heap } back e' call t
        reply holds' (block filled) inRange below ran
      refine ⟨e', last, frame_trans s _ t (frame_heap s heap) frame, ?_,
        keeps_bytes_trans _ s.qset s.heap heap t.heap e e' e' (attached _) keeps⟩
      exact fun refused => absurd refused copied'
  · cases ran
    exact ⟨e', holds', frame_heap s heap, fun _ => attached _, attached _⟩

end Store

-- The bytes a write at its offset can store: up to the end of that quantum.
def WriteCall.reach (call : WriteCall) (quantum : Int) : Int := min call.data.length (quantum - call.fPos % quantum)

-- An offset that leads to the first node, the only one a walk finds.
structure InFirst (abi : Abi) (quantum qset fPos : Int) : Prop where
  low : 0 ≤ fPos
  high : fPos < 2 ^ 31
  item : ¬ 0 < (position abi quantum qset fPos).item

theorem position_offset (abi : Abi) (quantum qset fPos : Int) (geometry : Geometry quantum qset)
    (near : InFirst abi quantum qset fPos) :
    (position abi quantum qset fPos).sPos * quantum + (position abi quantum qset fPos).qPos = fPos := by
  obtain ⟨low, high, item⟩ := near
  have below : fPos < positionLimit quantum qset abi := by
    cases abi with
    | ilp32 => exact high
    | lp64 =>
        have positive := itemsize_pos quantum qset geometry
        simp only [positionLimit]
        omega
  have whole := (whole_iff abi quantum qset fPos geometry low (by omega)).mpr below
  have nonneg := item_nonneg abi quantum qset fPos geometry low (by omega) below
  have zero : (position abi quantum qset fPos).item = 0 := by omega
  rw [zero, Int.zero_mul, Int.zero_mul, Int.zero_add] at whole
  exact whole

theorem position_byte (abi : Abi) (quantum qset fPos : Int) (low : 0 ≤ fPos) (high : fPos < 2 ^ 31) :
    (position abi quantum qset fPos).qPos = fPos.tmod quantum := by
  simp only [position, long_eq abi fPos (by omega) high]
  rw [Int.tmod_tmod_of_dvd fPos (Int.dvd_mul_right quantum qset)]

theorem reach_eq (abi : Abi) (quantum qset : Int) (call : WriteCall) (geometry : Geometry quantum qset)
    (low : 0 ≤ call.fPos) (high : call.fPos < 2 ^ 31) :
    (clampToQuantum abi quantum (position abi quantum qset call.fPos).qPos call.data.length : Int) = call.reach quantum := by
  have positive := geometry.quantumPos
  have bounded := quantum_lt quantum qset geometry
  have least := Int.emod_nonneg call.fPos (Int.ne_of_gt positive)
  have most := Int.emod_lt_of_pos call.fPos positive
  rw [position_byte abi quantum qset call.fPos low high, Int.tmod_eq_emod_of_nonneg low, clampToQuantum,
    int32_eq (quantum - call.fPos % quantum) (by omega) (by omega), WriteCall.reach]
  have rest := ulong_eq abi (quantum - call.fPos % quantum) (by omega) (by omega)
  omega

-- What a write that returns zero or an error leaves: an overwritten quantum is not
-- undone, and the size a zero-length write beyond it leaves is not said.
structure WriteLeaves (cfg : ScullConfig) (s : ScullState) (call : WriteCall) (reply : ScullReply) (t : ScullState) :
    Prop where
  fPos : reply.fPos = call.fPos
  size : call.data ≠ [] ∨ call.fPos ≤ s.size → t.size = s.size
  bytes : ∀ (offset : Int) (byte : UInt8), 0 ≤ offset → offset < 2 ^ 31 → offset < s.size → ReadsByte cfg s offset byte →
    (reply.retval = -efault → offset < call.fPos ∨ call.fPos + call.reach s.quantum ≤ offset) →
    ReadsByte cfg t offset byte

theorem write_leaves_same (cfg : ScullConfig) (s : ScullState) (call : WriteCall) (reply : ScullReply)
    (fPos : reply.fPos = call.fPos) : WriteLeaves cfg s call reply s :=
  ⟨fPos, fun _ => rfl, fun _ _ _ _ _ reads _ => reads⟩

theorem grown_of_le (abi : Abi) (fPos : Int) (size : Nat) (low : 0 ≤ fPos) (high : fPos < 2 ^ 31)
    (short : fPos ≤ size) : grown abi fPos size = size := by
  have exactly := mixed_eq abi fPos low (by omega)
  exact if_neg (by omega)

theorem le_grown (abi : Abi) (fPos : Int) (size : Nat) (low : 0 ≤ fPos) (high : fPos < 2 ^ 31) :
    size ≤ grown abi fPos size := by
  have exactly := mixed_eq abi fPos low (by omega)
  have value := ulong_eq abi fPos low (by omega)
  rw [grown, exactly]
  split <;> omega

section Returns

variable (cfg : ScullConfig) (outside : Nat → Option Cell) (s : ScullState) (chain : List Entry) (call : WriteCall)
  (reply : ScullReply)

-- A write that stored nothing returned zero because it was asked for nothing.
theorem written_nothing (t : ScullState) (geometry : Geometry s.quantum s.qset) (low : 0 ≤ call.fPos)
    (high : call.fPos < 2 ^ 31)
    (written : Written cfg.abi call (clampToQuantum cfg.abi s.quantum (position cfg.abi s.quantum s.qset call.fPos).qPos
      call.data.length) s t reply) (failed : reply.retval ≤ 0) :
    clampToQuantum cfg.abi s.quantum (position cfg.abi s.quantum s.qset call.fPos).qPos call.data.length = 0 ∧
      call.data = [] ∧ reply.fPos = call.fPos ∧ t.size = grown cfg.abi call.fPos s.size := by
  have inRange := position_in_range cfg.abi s.quantum s.qset call.fPos geometry low high
  have below := position_below cfg.abi s.quantum s.qset call.fPos geometry
  have counted := count_is_int cfg.abi s.quantum s.qset _ call.data.length geometry inRange.2 below.byte
  have none' : clampToQuantum cfg.abi s.quantum (position cfg.abi s.quantum s.qset call.fPos).qPos call.data.length = 0 := by
    have value := written.retval
    rw [counted] at value
    omega
  have empty : call.data = [] := by
    have most := Int.emod_lt_of_pos call.fPos geometry.quantumPos
    have reach := reach_eq cfg.abi s.quantum s.qset call geometry low high
    rw [none', WriteCall.reach] at reach
    exact List.length_eq_zero_iff.mp (by omega)
  have offset : int64 (call.fPos + (0 : Nat)) = call.fPos := by
    rw [Nat.cast_zero, Int.add_zero]
    exact int64_eq call.fPos (by omega) (by omega)
  have advanced := written.fPos
  have size := written.size
  rw [none', offset] at advanced size
  exact ⟨none', empty, advanced, size⟩

theorem stored_byte_cases (pos : Position) (byte : UInt8) (stored : storedByte s chain pos = some byte) :
    ¬ 0 < pos.item ∧ ∃ e back, chain = e :: back ∧ byteAt s.heap e pos.sPos pos.qPos.toNat = some byte := by
  rw [storedByte] at stored
  split at stored
  · cases stored
  · next near =>
      cases chain with
      | nil => cases stored
      | cons e back => exact ⟨near, e, back, rfl, stored⟩

-- A byte at an offset the copy did not reach is none of those the copy stored.
theorem offset_not_covered (abi : Abi) (quantum qset offset fPos : Int) (count : Nat) (geometry : Geometry quantum qset)
    (here : InFirst abi quantum qset offset) (there : InFirst abi quantum qset fPos)
    (apart : offset < fPos ∨ fPos + count ≤ offset) :
    ¬ (position abi quantum qset fPos).covers count (position abi quantum qset offset).sPos
      (position abi quantum qset offset).qPos.toNat := by
  intro covered
  obtain ⟨slot, start, stop⟩ := covered
  have parts := position_offset abi quantum qset offset geometry here
  have parts' := position_offset abi quantum qset fPos geometry there
  have byte := (position_in_range abi quantum qset offset geometry here.low here.high).2
  have byte' := (position_in_range abi quantum qset fPos geometry there.low there.high).2
  rw [slot] at parts
  omega

theorem write_node_keeps_byte (u : ScullState) (e : Entry) (back : List Entry) (offset : Int) (byte : UInt8)
    (holds : DeviceHolds outside s (e :: back)) (near : InFirst cfg.abi s.quantum s.qset call.fPos)
    (failed : reply.retval ≤ 0)
    (ran : (writeNode cfg s.quantum s.qset (position cfg.abi s.quantum s.qset call.fPos) call e.node).run s.held =
      .done reply u)
    (there : InFirst cfg.abi s.quantum s.qset offset)
    (stored : byteAt s.heap e (position cfg.abi s.quantum s.qset offset).sPos
      (position cfg.abi s.quantum s.qset offset).qPos.toNat = some byte)
    (apart : reply.retval = -efault → offset < call.fPos ∨ call.fPos + call.reach s.quantum ≤ offset) :
    ∃ e', DeviceHolds outside u (e' :: back) ∧ Frame s.held u ∧
      byteAt u.heap e' (position cfg.abi s.quantum s.qset offset).sPos
        (position cfg.abi s.quantum s.qset offset).qPos.toNat = some byte := by
  have geometry := holds.geometry
  have inRange := position_in_range cfg.abi s.quantum s.qset call.fPos geometry near.low near.high
  have below := position_below cfg.abi s.quantum s.qset call.fPos geometry
  have slot := (position_in_range cfg.abi s.quantum s.qset offset geometry there.low there.high).1
  have slot' := (position_below cfg.abi s.quantum s.qset offset geometry).slot
  have has : e.array.isSome = true := by
    obtain ⟨b, _, _, filled, _⟩ := (byte_at_iff _ _ _ _ _).mp stored
    exact slot_has_array e (position cfg.abi s.quantum s.qset offset).sPos (by simp [filled])
  obtain ⟨e', holds', frame, quiet, keeps⟩ := write_node_keeps_bytes cfg _ outside s.held back e call u reply
    (device_sem outside s _ 0 holds) has inRange below ran
  refine ⟨e', holds', frame, ?_⟩
  have reach := reach_eq cfg.abi s.quantum s.qset call geometry near.low near.high
  have spared := offset_not_covered cfg.abi s.quantum s.qset offset call.fPos (clampToQuantum cfg.abi s.quantum
    (position cfg.abi s.quantum s.qset call.fPos).qPos call.data.length) geometry there near
  cases write_found_exits cfg s.quantum s.qset _ call (some e.node) s.held u reply ran with
  | inl refused =>
      cases refused.retval with
      | inl unasked => exact quiet unasked _ _ byte slot slot' id stored
      | inr faulted => exact keeps _ _ byte slot slot' (spared (by rw [reach]; exact apart faulted)) stored
  | inr written =>
      have nothing := (written_nothing cfg s.held call reply u geometry near.low near.high written failed).1
      apply keeps _ _ byte slot slot' (spared ?_) stored
      change clampToQuantum cfg.abi s.quantum (position cfg.abi s.quantum s.qset call.fPos).qPos call.data.length = 0
        at nothing
      omega

theorem failed_exit (t : ScullState) (geometry : Geometry s.quantum s.qset) (low : 0 ≤ call.fPos)
    (high : call.fPos < 2 ^ 31) (failed : reply.retval ≤ 0)
    (exits : Refused call s t reply ∨ Written cfg.abi call (clampToQuantum cfg.abi s.quantum
      (position cfg.abi s.quantum s.qset call.fPos).qPos call.data.length) s t reply) :
    reply.fPos = call.fPos ∧ (t.size = s.size ∨ call.data = [] ∧ t.size = grown cfg.abi call.fPos s.size) := by
  cases exits with
  | inl refused => exact ⟨refused.fPos, .inl refused.size⟩
  | inr written =>
      obtain ⟨-, empty, offset, size⟩ := written_nothing cfg s call reply t geometry low high written failed
      exact ⟨offset, .inr ⟨empty, size⟩⟩

theorem write_found_keeps_byte (u : ScullState) (offset : Int) (byte : UInt8) (holds : WellFormed cfg outside s chain)
    (low : 0 ≤ call.fPos) (high : call.fPos < 2 ^ 31) (failed : reply.retval ≤ 0)
    (ran : (writeFound cfg s.quantum s.qset (position cfg.abi s.quantum s.qset call.fPos) call
      (if 0 < (position cfg.abi s.quantum s.qset call.fPos).item then none else headOf chain)).run s.held = .done reply u)
    (low' : 0 ≤ offset) (high' : offset < 2 ^ 31) (inside : offset < s.size) (inside' : offset < u.size)
    (reads : ReadsByte cfg s offset byte)
    (apart : reply.retval = -efault → offset < call.fPos ∨ call.fPos + call.reach s.quantum ≤ offset) :
    ReadsByte cfg u.upped offset byte := by
  have stored := (reads_byte_iff cfg outside s chain offset byte holds.device holds.idle low' high' inside).mp reads
  obtain ⟨first, e, back, rfl, here⟩ := stored_byte_cases s chain _ byte stored
  by_cases far : 0 < (position cfg.abi s.quantum s.qset call.fPos).item
  · rw [if_pos far] at ran
    cases ran
    rw [held_upped s holds.idle]
    exact reads
  · rw [if_neg far] at ran
    obtain ⟨e', holds', frame, kept⟩ := write_node_keeps_byte cfg outside s call reply u e back offset byte holds.device
      ⟨low, high, far⟩ failed ran ⟨low', high', first⟩ here apart
    have quantum : u.upped.quantum = s.quantum := frame.quantum
    have qset : u.upped.qset = s.qset := frame.qset
    have sem : u.upped.sem = 1 := congrArg (· + 1) frame.sem
    rw [reads_byte_iff cfg outside u.upped (e' :: back) offset byte (device_sem outside u _ _ holds') sem low' high'
      inside', quantum, qset, storedByte, if_neg first]
    exact kept

theorem write_found_leaves (u : ScullState) (holds : WellFormed cfg outside s chain) (low : 0 ≤ call.fPos)
    (high : call.fPos < 2 ^ 31) (failed : reply.retval ≤ 0)
    (ran : (writeFound cfg s.quantum s.qset (position cfg.abi s.quantum s.qset call.fPos) call
      (if 0 < (position cfg.abi s.quantum s.qset call.fPos).item then none else headOf chain)).run s.held = .done reply u) :
    WriteLeaves cfg s call reply u.upped := by
  have exits := write_found_exits cfg s.quantum s.qset _ call _ s.held u reply ran
  obtain ⟨moved, sized⟩ := failed_exit cfg s.held call reply u holds.device.geometry low high failed exits
  have larger : s.size ≤ u.size := by
    cases sized with
    | inl same => exact Nat.le_of_eq same.symm
    | inr grew =>
        rw [grew.2]
        exact le_grown cfg.abi call.fPos s.size low high
  refine ⟨moved, ?_, ?_⟩
  · intro kept
    cases sized with
    | inl same => exact same
    | inr grew =>
        have short := kept.resolve_left fun some' => some' grew.1
        exact grew.2.trans (grown_of_le cfg.abi call.fPos s.size low high short)
  · intro offset byte low' high' inside reads apart
    have inside' : offset < u.size := Int.lt_of_lt_of_le inside (Int.ofNat_le.mpr larger)
    exact write_found_keeps_byte cfg outside s chain call reply u offset byte holds low high failed ran low' high' inside
      inside' reads apart

theorem locked_done (interrupted : Bool) (fPos : Int) (body : ScullProg ScullReply) (t : ScullState) (idle : s.sem = 1)
    (ran : (locked interrupted fPos body).run s = .done reply t) :
    reply = ⟨-erestartsys, fPos, []⟩ ∧ t = s ∨ ∃ u, body.run s.held = .done reply u ∧ t = u.upped := by
  cases interrupted with
  | true =>
      cases ran
      exact .inl ⟨rfl, rfl⟩
  | false =>
      rw [run_locked fPos body s idle] at ran
      cases first : body.run s.held with
      | done r u =>
          rw [first, outcome_bind_done, Outcome.done.injEq] at ran
          obtain ⟨rfl, rfl⟩ := ran
          exact .inr ⟨u, rfl, rfl⟩
      | crashed f u => simp [first] at ran
      | blocked u => simp [first] at ran

theorem scull_write_leaves (t : ScullState) (holds : WellFormed cfg outside s chain) (low : 0 ≤ call.fPos)
    (high : call.fPos < 2 ^ 31) (ran : (scullWrite cfg call).run s = .done reply t) (failed : reply.retval ≤ 0) :
    WriteLeaves cfg s call reply t := by
  simp only [scullWrite, sampled, Prog.run_bind, Prog.run_look, outcome_bind_done] at ran
  cases locked_done s reply call.interrupted call.fPos _ t holds.idle ran with
  | inl gone =>
      obtain ⟨rfl, rfl⟩ := gone
      exact write_leaves_same cfg t call _ rfl
  | inr entered =>
      obtain ⟨u, body, rfl⟩ := entered
      have device := device_sem outside s chain 0 holds.device
      have locates := run_locate cfg.abi s.quantum s.qset call.fPos s.held holds.device.geometry
      have follows := run_scull_follow outside (position cfg.abi s.quantum s.qset call.fPos).item s.held chain device
      simp only [writeBody, Prog.run_bind, locates, outcome_bind_done, follows] at body
      exact write_found_leaves cfg outside s chain call reply u holds low high failed body

end Returns

theorem read_node_offset (cfg : ScullConfig) (quantum qset : Int) (pos : Position) (count : Nat) (call : ReadCall)
    (dptr : Nat) (s t : ScullState) (reply : ScullReply)
    (ran : (readNode cfg quantum qset pos count call dptr).run s = .done reply t) :
    reply.fPos = call.fPos ∨ reply.retval = cfg.abi.long (clampToQuantum cfg.abi quantum pos.qPos count) ∧
      reply.fPos = int64 (call.fPos + clampToQuantum cfg.abi quantum pos.qPos count) := by
  obtain ⟨data, u, _, ran⟩ := Prog.run_bind_done ran
  split at ran
  · cases ran
    exact .inl rfl
  · obtain ⟨slot, v, _, ran⟩ := Prog.run_bind_done ran
    split at ran
    · cases ran
      exact .inl rfl
    · obtain ⟨slot', w, _, ran⟩ := Prog.run_bind_done ran
      obtain ⟨block, x, _, ran⟩ := Prog.run_bind_done ran
      obtain ⟨bytes, y, _, ran⟩ := Prog.run_bind_done ran
      split at ran
      · cases ran
        exact .inl rfl
      · rw [Prog.run_pure, Outcome.done.injEq] at ran
        obtain ⟨rfl, rfl⟩ := ran
        refine .inr ⟨?_, ?_⟩ <;> dsimp only

theorem read_body_offset (cfg : ScullConfig) (call : ReadCall) (s t : ScullState) (reply : ScullReply)
    (geometry : Geometry s.quantum s.qset) (low : 0 ≤ call.fPos) (high : call.fPos < 2 ^ 31)
    (ran : (readBody cfg call s.quantum s.qset).run s = .done reply t) (failed : reply.retval ≤ 0) :
    reply.fPos = call.fPos := by
  have inRange := position_in_range cfg.abi s.quantum s.qset call.fPos geometry low high
  have below := position_below cfg.abi s.quantum s.qset call.fPos geometry
  obtain ⟨size, v, looked, ran⟩ := Prog.run_bind_done ran
  split at ran
  · cases ran
    rfl
  · obtain ⟨count, w, clamped', ran⟩ := Prog.run_bind_done ran
    obtain ⟨pos, x, located, ran⟩ := Prog.run_bind_done ran
    obtain ⟨rfl, rfl⟩ := Prog.run_unique (run_locate cfg.abi s.quantum s.qset call.fPos w geometry) located
    obtain ⟨dptr, y, followed, ran⟩ := Prog.run_bind_done ran
    cases dptr with
    | none =>
        cases ran
        rfl
    | some node =>
        cases read_node_offset cfg s.quantum s.qset _ count call node y t reply ran with
        | inl stays => exact stays
        | inr moved =>
            obtain ⟨value, offset⟩ := moved
            have fits := clamped_copy_fits cfg.abi s.quantum s.qset _ count geometry inRange.2 below.byte
            have bounded := quantum_lt s.quantum s.qset geometry
            have nonneg := inRange.2
            rw [long_eq cfg.abi _ (by omega) (by omega)] at value
            rw [offset, int64_eq _ (by omega) (by omega)]
            omega

theorem scull_read_leaves (cfg : ScullConfig) (outside : Nat → Option Cell) (s t : ScullState) (chain : List Entry)
    (call : ReadCall) (reply : ScullReply) (holds : WellFormed cfg outside s chain) (low : 0 ≤ call.fPos)
    (high : call.fPos < 2 ^ 31) (ran : (scullRead cfg call).run s = .done reply t) (failed : reply.retval ≤ 0) :
    reply.fPos = call.fPos ∧ t = s := by
  simp only [scullRead, sampled, Prog.run_bind, Prog.run_look, outcome_bind_done] at ran
  cases locked_done s reply call.interrupted call.fPos _ t holds.idle ran with
  | inl gone =>
      obtain ⟨rfl, rfl⟩ := gone
      exact ⟨rfl, rfl⟩
  | inr entered =>
      obtain ⟨u, body, rfl⟩ := entered
      have device := device_sem outside s chain 0 holds.device
      have same : u = s.held := Prog.post_of_run _ _ _ s.held u reply
        (read_body_keeps cfg call outside s.held chain device) body
      subst same
      exact ⟨read_body_offset cfg call s.held s.held reply holds.device.geometry low high body failed,
        held_upped s holds.idle⟩

theorem unsuccessful_transfer_leaves (cfg : ScullConfig) (outside : Nat → Option Cell) (s : ScullState)
    (chain : List Entry) (holds : WellFormed cfg outside s chain) :
    (∀ call : WriteCall, 0 ≤ call.fPos → call.fPos < 2 ^ 31 → ∀ reply t, (scullWrite cfg call).run s = .done reply t →
      reply.retval ≤ 0 → WriteLeaves cfg s call reply t) ∧
    ∀ call : ReadCall, 0 ≤ call.fPos → call.fPos < 2 ^ 31 → ∀ reply t, (scullRead cfg call).run s = .done reply t →
      reply.retval ≤ 0 → reply.fPos = call.fPos ∧ t = s := by
  constructor
  · intro call low high reply t ran failed
    exact scull_write_leaves cfg outside s chain call reply t holds low high ran failed
  · intro call low high reply t ran failed
    exact scull_read_leaves cfg outside s t chain call reply holds low high ran failed

def shortOfMemory : WriteCall := ⟨[65], 0, false, none, none, none⟩

theorem write_without_memory_leaves :
    WellFormed ⟨.ilp32, 4, 2⟩ (fun _ => none) (bareDevice 4 2) [⟨0, none⟩] ∧
      ∃ reply t, (scullWrite ⟨.ilp32, 4, 2⟩ shortOfMemory).run (bareDevice 4 2) = .done reply t ∧
        reply.retval = -einval ∧ WriteLeaves ⟨.ilp32, 4, 2⟩ (bareDevice 4 2) shortOfMemory reply t := by
  have holds := bare_device_well_formed ⟨.ilp32, 4, 2⟩ 4 2 ⟨by decide, by decide, by decide⟩
    ⟨by decide, by decide, by decide⟩
  refine ⟨holds, ⟨-einval, 0, []⟩, _, rfl, rfl, ?_⟩
  exact (unsuccessful_transfer_leaves ⟨.ilp32, 4, 2⟩ (fun _ => none) (bareDevice 4 2) [⟨0, none⟩] holds).1 shortOfMemory
    (by decide) (by decide) _ _ rfl (by decide)

-- A device with a message, and a write over it of which only the first byte can be read.
def messageDevice : ScullState :=
  { bareDevice 4 2 with
    size := 2
    heap := ⟨[some (.node (some 1) none), some (.array 4 2 [some 2, none]), some (.block 4 fun j => if j = 0 then 65 else 66)]⟩ }

def faultingMessage : WriteCall := ⟨[67, 68], 0, false, some 1, none, none⟩

theorem message_device_well_formed :
    WellFormed ⟨.ilp32, 4, 2⟩ (fun _ => none) messageDevice [⟨0, some (1, [some 2, none])⟩] := by
  refine ⟨⟨⟨by decide, by decide, by decide⟩, rfl, ⟨⟨rfl, ?_, ?_⟩, trivial⟩, ?_⟩, ⟨by decide, by decide, by decide⟩, rfl⟩
  · intro a slots same
    cases same
    exact ⟨rfl, rfl⟩
  · intro b member
    obtain rfl : b = 2 := by simpa [Entry.blocks] using member
    exact ⟨_, rfl⟩
  · refine ⟨by decide, ?_, fun _ _ => rfl, ?_⟩
    · intro a member
      have below : a = 2 ∨ a = 1 ∨ a = 0 := by simpa [Entry.footprint, Entry.blocks, Entry.data] using member
      rcases below with rfl | rfl | rfl <;> simp [messageDevice, Heap.cell]
    · intro a absent
      have beyond : a ≠ 2 ∧ a ≠ 1 ∧ a ≠ 0 := by simpa [Entry.footprint, Entry.blocks, Entry.data] using absent
      have past : 3 ≤ a := by omega
      simp [messageDevice, Heap.cell, past]

theorem reads_byte_unique (cfg : ScullConfig) (s : ScullState) (fPos : Int) (byte other : UInt8)
    (reads : ReadsByte cfg s fPos byte) (again : ReadsByte cfg s fPos other) : byte = other := by
  obtain ⟨reply, t, ran, bytes⟩ := reads
  obtain ⟨reply', t', ran', bytes'⟩ := again
  obtain ⟨rfl, -⟩ := Prog.run_unique ran ran'
  simpa using bytes.symm.trans bytes'

theorem faulting_write_spoils_bytes :
    WellFormed ⟨.ilp32, 4, 2⟩ (fun _ => none) messageDevice [⟨0, some (1, [some 2, none])⟩] ∧
      ∃ reply t, (scullWrite ⟨.ilp32, 4, 2⟩ faultingMessage).run messageDevice = .done reply t ∧ reply.retval ≤ 0 ∧
        ReadsByte ⟨.ilp32, 4, 2⟩ messageDevice 0 65 ∧ ReadsByte ⟨.ilp32, 4, 2⟩ t 0 67 ∧
        ¬ ReadsByte ⟨.ilp32, 4, 2⟩ t 0 65 := by
  refine ⟨message_device_well_formed, _, _, rfl, by decide, ⟨_, _, rfl, by decide⟩, ⟨_, _, rfl, by decide⟩, ?_⟩
  intro kept
  exact absurd (reads_byte_unique _ _ 0 65 67 kept ⟨_, _, rfl, by decide⟩) (by decide)

end OneDriver.Scull
