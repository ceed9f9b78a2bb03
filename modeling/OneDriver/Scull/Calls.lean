import OneDriver.Scull.Transfer
import OneDriver.Scull.Trim

set_option autoImplicit false

namespace OneDriver.Scull

-- What a read or a write leaves alone, however it ends.
structure Frame (s t : ScullState) : Prop where
  data : t.data = s.data
  quantum : t.quantum = s.quantum
  qset : t.qset = s.qset
  sem : t.sem = s.sem
  freed : t.freed = s.freed

theorem frame_refl (s : ScullState) : Frame s s := ⟨rfl, rfl, rfl, rfl, rfl⟩

theorem frame_heap (s : ScullState) (heap : Heap Cell) : Frame s { s with heap := heap } := ⟨rfl, rfl, rfl, rfl, rfl⟩

theorem frame_trans (s t u : ScullState) (first : Frame s t) (second : Frame t u) : Frame s u where
  data := second.data.trans first.data
  quantum := second.quantum.trans first.quantum
  qset := second.qset.trans first.qset
  sem := second.sem.trans first.sem
  freed := second.freed.trans first.freed

-- The only fault of a call on a sound device: an index below zero, which no
-- position in range has.
def stray (pos : Position) (fault : ScullFault) : Prop := fault = .outOfBounds ∧ ¬ pos.inRange

theorem device_resize (outside : Nat → Option Cell) (s : ScullState) (chain : List Entry) (size : Nat)
    (holds : DeviceHolds outside s chain) : DeviceHolds outside { s with size := size } chain :=
  ⟨holds.geometry, holds.head, holds.linked, holds.owns⟩

theorem covers_clamped (abi : Abi) (quantum qset qPos : Int) (count : Nat) (geometry : Geometry quantum qset)
    (low : 0 ≤ qPos) (high : qPos < quantum) :
    covers quantum.toNat qPos (clampToQuantum abi quantum qPos count) = true := by
  have bounded := quantum_lt quantum qset geometry
  have exactly : int32 (quantum - qPos) = quantum - qPos := int32_eq _ (by omega) (by omega)
  have rest := ulong_eq abi (quantum - qPos) (by omega) (by omega)
  simp only [covers, clampToQuantum, exactly, Bool.or_eq_true, Bool.and_eq_true, decide_eq_true_eq]
  omega

theorem entry_put_block (heap : Heap Cell) (quantum qset : Int) (e : Entry) (next : Option Nat) (b : Nat)
    (bytes : Nat → UInt8) (holds : EntryHolds heap quantum qset e next) (nodup : e.footprint.Nodup) (member : b ∈ e.blocks) :
    EntryHolds (heap.put b (.block quantum.toNat bytes)) quantum qset e next := by
  obtain ⟨old, found⟩ := holds.blocks b member
  have has : ∃ a slots, e.array = some (a, slots) := by
    cases array : e.array with
    | none => simp [Entry.blocks, array] at member
    | some pair => exact ⟨pair.1, pair.2, rfl⟩
  obtain ⟨a, slots, array⟩ := has
  obtain ⟨-, apart⟩ := entry_distinct e a slots nodup array
  refine ⟨?_, ?_, ?_⟩
  · rw [Heap.put_cell_other _ _ _ _ (apart b member).2.symm, holds.node]
  · intro a' slots' same
    obtain ⟨rfl, rfl⟩ : a = a' ∧ slots = slots' := by simpa [array] using same
    rw [Heap.put_cell_other _ _ _ _ (apart b member).1.symm]
    exact holds.array a slots array
  · intro c listed
    by_cases same : c = b
    · exact ⟨bytes, by rw [same, Heap.put_cell_same _ _ _ _ found]⟩
    · rw [Heap.put_cell_other _ _ _ _ same]
      exact holds.blocks c listed

theorem slot_has_array (e : Entry) (index : Int) (filled : (e.slot index).isSome = true) : e.array.isSome = true := by
  cases array : e.array with
  | none => simp [Entry.slot, array] at filled
  | some pair => rfl

theorem run_entry_slot_before (label : ScullLabel) (s : ScullState) (e : Entry) (next : Option Nat) (index : Int)
    (holds : EntryHolds s.heap s.quantum s.qset e next) (has : e.array.isSome = true) (negative : index < 0) :
    (slotOf label (sameGeometry s.quantum s.qset) e.node index).run s = .crashed .outOfBounds s := by
  obtain ⟨⟨a, slots⟩, array⟩ := Option.isSome_iff_exists.mp has
  obtain ⟨stored, -⟩ := holds.array a slots array
  have here : s.heap.cell e.node = some (.node (some a) next) := by
    simpa [Entry.data, array] using holds.node
  apply run_slot_before label s _ e.node a index s.quantum s.qset next slots here stored (same_geometry_self _ _)
  simp only [inBounds, Bool.and_eq_false_iff, decide_eq_false_iff_not]
  omega

theorem grow_size_keeps (tolerates : ScullFault → Prop) (abi : Abi) (fPos : Int) (outside : Nat → Option Cell)
    (s : ScullState) (chain : List Entry) (holds : DeviceHolds outside s chain) :
    (growSize abi fPos).wpUpTo tolerates (fun _ t => DeviceHolds outside t chain ∧ Frame s t) s := by
  simp only [growSize, Prog.wp_bind, Prog.wp_look]
  split
  · rw [Prog.wp_modify]
    exact ⟨device_resize outside s chain _ holds, ⟨rfl, rfl, rfl, rfl, rfl⟩⟩
  · exact ⟨holds, frame_refl s⟩

section Body

variable (cfg : ScullConfig) (pos : Position) (outside : Nat → Option Cell) (s : ScullState) (front back : List Entry)
  (e : Entry)

theorem copy_in_keeps (call : WriteCall) (holds : DeviceHolds outside s (front ++ e :: back))
    (filled : (e.slot pos.sPos).isSome = true) (low : 0 ≤ pos.sPos) (below : pos.Below s.quantum s.qset) :
    (copyIn cfg s.quantum s.qset pos call e.node).wpUpTo (stray pos)
      (fun _ t => DeviceHolds outside t (front ++ e :: back) ∧ Frame s t) s := by
  have entry := focus_entry outside s front back e holds
  obtain ⟨b, slot⟩ := Option.isSome_iff_exists.mp filled
  have reads := run_entry_slot .inside s e _ pos.sPos entry (slot_has_array e _ filled) low below.slot
  have member := slot_mem_blocks e pos.sPos b slot
  obtain ⟨bytes, found⟩ := entry.blocks b member
  have short : (call.data.take (clampToQuantum cfg.abi s.quantum pos.qPos call.data.length)).length =
      clampToQuantum cfg.abi s.quantum pos.qPos call.data.length := List.length_take_of_le (Nat.min_le_left _ _)
  have copies := run_copy_from_user s b s.quantum.toNat bytes pos.qPos
    (call.data.take (clampToQuantum cfg.abi s.quantum pos.qPos call.data.length)) call.fault found
  rw [short] at copies
  simp only [copyIn, Prog.wp_bind]
  apply Prog.wp_of_run _ _ _ s s _ reads
  rw [slot]
  simp only [deref, Prog.wp_pure]
  by_cases within : covers s.quantum.toNat pos.qPos (clampToQuantum cfg.abi s.quantum pos.qPos call.data.length) = true
  · rw [if_pos within] at copies
    apply Prog.wp_of_run _ _ _ s _ () copies
    have kept := fun bytes' => entry_put_block s.heap s.quantum s.qset e _ b bytes' entry
      (focus_nodup outside s front back e holds) member
    have stored := fun bytes' => focus_put outside s front back e b _ holds (block_mem_footprint e b member) (kept bytes')
    split
    · exact ⟨stored _, frame_heap s _⟩
    · simp only [Prog.wp_bind]
      apply Prog.wp_mono _ _ _ _ _ (grow_size_keeps _ cfg.abi _ outside _ _ (stored _))
      intro _ t grown
      exact ⟨grown.1, frame_trans s _ t (frame_heap s _) grown.2⟩
  · rw [if_neg within] at copies
    apply Prog.wp_of_crash _ _ _ s s .outOfBounds copies
    exact ⟨rfl, fun inside => within (covers_clamped cfg.abi _ _ _ _ holds.geometry inside.2 below.byte)⟩

theorem write_node_keeps (call : WriteCall) (holds : DeviceHolds outside s (front ++ e :: back))
    (fit : e.array = none → SlotsFit cfg.abi s.qset) (below : pos.Below s.quantum s.qset) :
    (writeNode cfg s.quantum s.qset pos call e.node).wpUpTo (stray pos)
      (fun _ t => (∃ e', DeviceHolds outside t (front ++ e' :: back) ∧ (e'.array = none → e.array = none)) ∧
        Frame s t) s := by
  obtain ⟨hasArray, heap, e', ran, holds', node, array, bare⟩ := run_ensure_array cfg call outside s front back e holds fit
  simp only [writeNode, Prog.wp_bind]
  apply Prog.wp_of_run _ _ _ s _ _ ran
  cases hasArray with
  | false => exact ⟨⟨e', holds', bare⟩, frame_heap s heap⟩
  | true =>
      rw [if_pos rfl, ← node, Prog.wp_bind]
      by_cases low : 0 ≤ pos.sPos
      · obtain ⟨hasBlock, heap', e'', ran', holds'', node', kept, block⟩ := run_ensure_block cfg pos call outside _ front back
          e' holds' (array rfl) low below.slot
        have attached : e''.array = none → e.array = none := fun absent => absurd kept (by simp [absent])
        apply Prog.wp_of_run _ _ _ _ _ _ ran'
        cases hasBlock with
        | false => exact ⟨⟨e'', holds'', attached⟩, frame_heap s heap'⟩
        | true =>
            rw [if_pos rfl, ← node']
            apply Prog.wp_mono _ _ _ _ _ (copy_in_keeps cfg pos outside _ front back e'' call holds'' (block rfl) low below)
            intro _ t kept
            exact ⟨⟨e'', kept.1, attached⟩, frame_trans s _ t (frame_heap s heap') kept.2⟩
      · simp only [ensureBlock, Prog.wp_bind]
        have stops := run_entry_slot_before .inside { s with heap := heap } e' _ pos.sPos
          (focus_entry outside _ front back e' holds') (array rfl) (Int.lt_of_not_ge low)
        exact Prog.wp_of_crash _ _ _ _ _ .outOfBounds stops ⟨rfl, fun inside => low inside.1⟩

theorem read_out_keeps (count : Nat) (call : ReadCall) (holds : DeviceHolds outside s (front ++ e :: back))
    (filled : (e.slot pos.sPos).isSome = true) (low : 0 ≤ pos.sPos) (below : pos.Below s.quantum s.qset) :
    (readOut cfg s.quantum s.qset pos (clampToQuantum cfg.abi s.quantum pos.qPos count) call e.node).wpUpTo (stray pos)
      (fun _ t => t = s) s := by
  have entry := focus_entry outside s front back e holds
  obtain ⟨b, slot⟩ := Option.isSome_iff_exists.mp filled
  have reads := run_entry_slot .inside s e _ pos.sPos entry (slot_has_array e _ filled) low below.slot
  obtain ⟨bytes, found⟩ := entry.blocks b (slot_mem_blocks e pos.sPos b slot)
  have copies := run_copy_to_user s b s.quantum.toNat bytes pos.qPos
    (clampToQuantum cfg.abi s.quantum pos.qPos count) call.fault found
  simp only [readOut, Prog.wp_bind]
  apply Prog.wp_of_run _ _ _ s s _ reads
  rw [slot]
  simp only [deref, Prog.wp_pure]
  by_cases within : covers s.quantum.toNat pos.qPos (clampToQuantum cfg.abi s.quantum pos.qPos count) = true
  · rw [if_pos within] at copies
    apply Prog.wp_of_run _ _ _ s s _ copies
    split <;> rfl
  · rw [if_neg within] at copies
    apply Prog.wp_of_crash _ _ _ s s .outOfBounds copies
    exact ⟨rfl, fun inside => within (covers_clamped cfg.abi _ _ _ _ holds.geometry inside.2 below.byte)⟩

theorem read_node_keeps (count : Nat) (call : ReadCall) (holds : DeviceHolds outside s (front ++ e :: back))
    (below : pos.Below s.quantum s.qset) :
    (readNode cfg s.quantum s.qset pos count call e.node).wpUpTo (stray pos) (fun _ t => t = s) s := by
  have entry := focus_entry outside s front back e holds
  simp only [readNode, Prog.wp_bind]
  apply Prog.wp_of_run _ _ _ s s _ (run_read_data .inside s e.node _ _ entry.node)
  cases array : e.array with
  | none => simp [Entry.data, array]
  | some pair =>
      have has : e.array.isSome = true := by simp [array]
      have data : e.data.isNone = false := by simp [Entry.data, array]
      rw [data, if_neg Bool.false_ne_true, Prog.wp_bind]
      by_cases low : 0 ≤ pos.sPos
      · apply Prog.wp_of_run _ _ _ s s _ (run_entry_slot .inside s e _ pos.sPos entry has low below.slot)
        cases slot : e.slot pos.sPos with
        | none => rfl
        | some b =>
            exact read_out_keeps cfg pos outside s front back e count call holds (by simp [slot]) low below
      · exact Prog.wp_of_crash _ _ _ s s .outOfBounds (run_entry_slot_before .inside s e _ pos.sPos entry has
          (Int.lt_of_not_ge low)) ⟨rfl, fun inside => low inside.1⟩

end Body

-- scull_follow comes to no node but the first. While that has no data array, the size
-- of the one it is to get must not overflow.
def FirstArrayFits (abi : Abi) (qset : Int) (chain : List Entry) : Prop :=
  ∀ e ∈ chain.head?, e.array = none → SlotsFit abi qset

theorem first_array_fits_of (abi : Abi) (qset : Int) (e e' : Entry) (rest : List Entry)
    (fit : FirstArrayFits abi qset (e :: rest)) (bare : e'.array = none → e.array = none) :
    FirstArrayFits abi qset (e' :: rest) := by
  rintro f ⟨⟩ absent
  exact fit e rfl (bare absent)

structure Kept (abi : Abi) (outside : Nat → Option Cell) (s t : ScullState) : Prop where
  device : ∃ chain, DeviceHolds outside t chain ∧ FirstArrayFits abi t.qset chain
  frame : Frame s t

theorem write_found_keeps (cfg : ScullConfig) (pos : Position) (call : WriteCall) (outside : Nat → Option Cell)
    (s : ScullState) (chain : List Entry) (holds : DeviceHolds outside s chain) (fit : FirstArrayFits cfg.abi s.qset chain)
    (below : pos.Below s.quantum s.qset) :
    (writeFound cfg s.quantum s.qset pos call (if 0 < pos.item then none else headOf chain)).wpUpTo (stray pos)
      (fun _ t => Kept cfg.abi outside s t) s := by
  have idle : Kept cfg.abi outside s s := ⟨⟨chain, holds, fit⟩, frame_refl s⟩
  split
  · exact idle
  · cases chain with
    | nil => exact idle
    | cons e rest =>
        apply Prog.wp_mono _ _ _ _ _ (write_node_keeps cfg pos outside s [] rest e call holds (fit e rfl) below)
        intro _ t kept
        obtain ⟨⟨e', holds', bare⟩, frame⟩ := kept
        exact ⟨⟨e' :: rest, holds', frame.qset ▸ first_array_fits_of cfg.abi _ e e' rest fit bare⟩, frame⟩

theorem write_body_keeps (cfg : ScullConfig) (call : WriteCall) (outside : Nat → Option Cell) (s : ScullState)
    (chain : List Entry) (holds : DeviceHolds outside s chain) (fit : FirstArrayFits cfg.abi s.qset chain) :
    (writeBody cfg call s.quantum s.qset).wpUpTo (stray (position cfg.abi s.quantum s.qset call.fPos))
      (fun _ t => Kept cfg.abi outside s t) s := by
  simp only [writeBody, Prog.wp_bind]
  apply Prog.wp_of_run _ _ _ s s _ (run_locate cfg.abi s.quantum s.qset call.fPos s holds.geometry)
  apply Prog.wp_of_run _ _ _ s s _ (run_scull_follow outside _ s chain holds)
  exact write_found_keeps cfg _ call outside s chain holds fit (position_below _ _ _ _ holds.geometry)

theorem read_found_keeps (cfg : ScullConfig) (pos : Position) (count : Nat) (call : ReadCall)
    (outside : Nat → Option Cell) (s : ScullState) (chain : List Entry) (holds : DeviceHolds outside s chain)
    (below : pos.Below s.quantum s.qset) :
    (readFound cfg s.quantum s.qset pos count call (if 0 < pos.item then none else headOf chain)).wpUpTo (stray pos)
      (fun _ t => t = s) s := by
  split
  · rfl
  · cases chain with
    | nil => rfl
    | cons e rest => exact read_node_keeps cfg pos outside s [] rest e count call holds below

theorem clamp_to_size_keeps (tolerates : ScullFault → Prop) (abi : Abi) (fPos : Int) (count : Nat) (s : ScullState) :
    (clampToSize abi fPos count).wpUpTo tolerates (fun _ t => t = s) s := by
  simp only [clampToSize, Prog.wp_bind, Prog.wp_look]
  split <;> simp

theorem read_body_keeps (cfg : ScullConfig) (call : ReadCall) (outside : Nat → Option Cell) (s : ScullState)
    (chain : List Entry) (holds : DeviceHolds outside s chain) :
    (readBody cfg call s.quantum s.qset).wpUpTo (stray (position cfg.abi s.quantum s.qset call.fPos))
      (fun _ t => t = s) s := by
  simp only [readBody, Prog.wp_bind, Prog.wp_look]
  split
  · rfl
  · simp only [Prog.wp_bind]
    apply Prog.wp_mono _ _ _ _ s (clamp_to_size_keeps _ cfg.abi call.fPos call.count s)
    intro count t same
    subst same
    apply Prog.wp_of_run _ _ _ t t _ (run_locate cfg.abi t.quantum t.qset call.fPos t holds.geometry)
    apply Prog.wp_of_run _ _ _ t t _ (run_scull_follow outside _ t chain holds)
    exact read_found_keeps cfg _ count call outside t chain holds (position_below _ _ _ _ holds.geometry)

end OneDriver.Scull
