import OneDriver.Scull.Address

set_option autoImplicit false

namespace OneDriver.Scull

def others (front back : List Entry) : List Nat := footprint front ++ footprint back

theorem footprint_focus (front back : List Entry) (e : Entry) :
    (footprint (front ++ e :: back)).Perm (e.footprint ++ others front back) := by
  rw [footprint_append, footprint_cons, others, ← List.append_assoc, ← List.append_assoc]
  exact List.perm_append_comm.append_right _

section Focus

variable (outside : Nat → Option Cell) (s : ScullState) (front back : List Entry) (e : Entry)

theorem focus_owns (holds : DeviceHolds outside s (front ++ e :: back)) :
    Owns outside s.heap (e.footprint ++ others front back) :=
  owns_perm outside s.heap _ _ holds.owns (footprint_focus front back e)

theorem focus_apart (holds : DeviceHolds outside s (front ++ e :: back)) (a b : Nat) (here : a ∈ e.footprint)
    (there : b ∈ others front back) : b ≠ a := by
  have nodup := (focus_owns outside s front back e holds).nodup
  exact fun same => (List.nodup_append.mp nodup).2.2 a here b there same.symm

theorem focus_entry (holds : DeviceHolds outside s (front ++ e :: back)) :
    EntryHolds s.heap s.quantum s.qset e (headOf back) := chain_split s.heap s.quantum s.qset front back e holds.linked

theorem focus_nodup (holds : DeviceHolds outside s (front ++ e :: back)) : e.footprint.Nodup :=
  (List.nodup_append.mp (focus_owns outside s front back e holds).nodup).1

theorem focus_replace (heap : Heap Cell) (e' : Entry) (holds : DeviceHolds outside s (front ++ e :: back))
    (node : e'.node = e.node) (owns : Owns outside heap (e'.footprint ++ others front back))
    (same : ∀ b ∈ others front back, heap.cell b = s.heap.cell b)
    (replaced : EntryHolds heap s.quantum s.qset e' (headOf back)) :
    DeviceHolds outside { s with heap := heap } (front ++ e' :: back) where
  geometry := holds.geometry
  head := holds.head.trans (head_append front back e e' node).symm
  linked := chain_replace s.heap heap s.quantum s.qset front back e e' holds.linked node same replaced
  owns := owns_perm outside heap _ _ owns (footprint_focus front back e').symm

theorem focus_put (a : Nat) (c : Cell) (holds : DeviceHolds outside s (front ++ e :: back)) (here : a ∈ e.footprint)
    (kept : EntryHolds (s.heap.put a c) s.quantum s.qset e (headOf back)) :
    DeviceHolds outside { s with heap := s.heap.put a c } (front ++ e :: back) := by
  have owns := focus_owns outside s front back e holds
  apply focus_replace outside s front back e (s.heap.put a c) e holds rfl
  · exact owns_put outside s.heap _ a c owns (List.mem_append_left _ here)
  · exact fun b there => Heap.put_cell_other s.heap a b c (focus_apart outside s front back e holds a b here there)
  · exact kept

theorem focus_fresh (holds : DeviceHolds outside s (front ++ e :: back)) :
    (∀ a ∈ e.footprint, a ≠ s.heap.fresh) ∧ ∀ b ∈ others front back, b ≠ s.heap.fresh := by
  have unowned := fresh_not_owned outside s.heap _ (focus_owns outside s front back e holds)
  constructor
  · exact fun a here same => unowned (same ▸ List.mem_append_left _ here)
  · exact fun b there same => unowned (same ▸ List.mem_append_right _ there)

end Focus

def SlotsFit (abi : Abi) (qset : Int) : Prop := qset * sizeofPtr abi < 2 ^ abi.wordBits

theorem array_slots_fit (abi : Abi) (qset : Int) (positive : 0 < qset) (fit : SlotsFit abi qset) :
    (arraySlots abi qset : Int) = qset := by
  have size : 0 < sizeofPtr abi := by cases abi <;> decide
  have bytes := ulong_of_lt abi (qset * sizeofPtr abi) (Int.le_of_lt (Int.mul_pos positive size)) fit
  rw [arraySlots, Int.natCast_ediv, bytes]
  exact Int.mul_ediv_cancel qset (Int.ne_of_gt size)

-- kmalloc, the store of the pointer and the memset, seen as one change of the heap.
def attachArray (heap : Heap Cell) (node : Nat) (next : Option Nat) (quantum qset : Int) (garbage : List (Option Nat)) :
    Heap Cell :=
  ((heap.alloc (.array quantum qset garbage)).put node (.node (some heap.fresh) next)).put heap.fresh
    (.array quantum qset (List.replicate garbage.length none))

theorem pointed_cells (heap : Heap Cell) (node : Nat) (data next : Option Nat) (array : Cell)
    (found : heap.cell node = some (.node data next)) :
    node ≠ heap.fresh ∧ (heap.alloc array).cell node = some (.node data next) ∧
      ((heap.alloc array).put node (.node (some heap.fresh) next)).cell heap.fresh = some array := by
  have old : node ≠ heap.fresh := fun same => by simp [same] at found
  refine ⟨old, (heap.alloc_cell _ node old).trans found, ?_⟩
  rw [Heap.put_cell_other _ _ _ _ (Ne.symm old), Heap.alloc_cell_fresh]

theorem attach_array_cells (heap : Heap Cell) (node : Nat) (data next : Option Nat) (quantum qset : Int)
    (garbage : List (Option Nat)) (found : heap.cell node = some (.node data next)) :
    (attachArray heap node next quantum qset garbage).cell node = some (.node (some heap.fresh) next) ∧
      (attachArray heap node next quantum qset garbage).cell heap.fresh =
        some (.array quantum qset (List.replicate garbage.length none)) ∧
      ∀ b, b ≠ node → b ≠ heap.fresh → (attachArray heap node next quantum qset garbage).cell b = heap.cell b := by
  obtain ⟨old, grown, pointed⟩ := pointed_cells heap node data next (.array quantum qset garbage) found
  refine ⟨?_, Heap.put_cell_same _ _ _ _ pointed, ?_⟩
  · rw [attachArray, Heap.put_cell_other _ _ _ _ old, Heap.put_cell_same _ _ _ _ grown]
  · intro b apart beyond
    rw [attachArray, Heap.put_cell_other _ _ _ _ beyond, Heap.put_cell_other _ _ _ _ apart, Heap.alloc_cell _ _ _ beyond]

theorem run_attach_array (s : ScullState) (node : Nat) (data next : Option Nat) (quantum qset : Int)
    (garbage : List (Option Nat)) (found : s.heap.cell node = some (.node data next)) :
    (do let array ← kmalloc .inside (.array quantum qset garbage)
        writeData .inside node (some array)
        clearArray node
        pure true : ScullProg Bool).run s =
      .done true { s with heap := attachArray s.heap node next quantum qset garbage } := by
  obtain ⟨_, grown, pointed⟩ := pointed_cells s.heap node data next (.array quantum qset garbage) found
  have named := Heap.put_cell_same _ node (.node (some s.heap.fresh) next) _ grown
  rw [Prog.run_bind, run_kmalloc, outcome_bind_done, Prog.run_bind, run_write_data .inside _ node data next _ grown,
    outcome_bind_done, Prog.run_bind, run_clear_array _ node s.heap.fresh quantum qset next garbage named pointed]
  rfl

theorem device_attach_array (outside : Nat → Option Cell) (s : ScullState) (front back : List Entry) (e : Entry)
    (garbage : List (Option Nat)) (holds : DeviceHolds outside s (front ++ e :: back)) (bare : e.array = none)
    (count : (garbage.length : Int) = s.qset) :
    DeviceHolds outside { s with heap := attachArray s.heap e.node (headOf back) s.quantum s.qset garbage }
      (front ++ ⟨e.node, some (s.heap.fresh, List.replicate garbage.length none)⟩ :: back) := by
  have here : s.heap.cell e.node = some (.node none (headOf back)) := by
    simpa [Entry.data, bare] using (focus_entry outside s front back e holds).node
  obtain ⟨named, stored, rest⟩ := attach_array_cells s.heap e.node none (headOf back) s.quantum s.qset garbage here
  have old := focus_fresh outside s front back e holds
  let e' : Entry := ⟨e.node, some (s.heap.fresh, List.replicate garbage.length none)⟩
  apply focus_replace outside s front back e _ e' holds rfl
  · have whole : e'.footprint ++ others front back = s.heap.fresh :: (e.footprint ++ others front back) := by
      simp [e', Entry.footprint, Entry.blocks, Entry.data, bare]
    rw [whole]
    have owns := owns_alloc outside s.heap _ (.array s.quantum s.qset garbage)
      (focus_owns outside s front back e holds)
    apply owns_put _ _ _ _ _ (owns_put _ _ _ _ _ owns _)
    · exact List.mem_cons_self
    · exact List.mem_cons_of_mem _ (List.mem_append_left _ (node_mem_footprint e))
  · intro b there
    exact rest b (focus_apart outside s front back e holds e.node b (node_mem_footprint e) there) (old.2 b there)
  · refine ⟨named, ?_, by simp [e', Entry.blocks]⟩
    intro a slots same
    cases same
    exact ⟨stored, by simpa using count⟩

def Entry.slot (e : Entry) (index : Int) : Option Nat :=
  match e.array with
  | none => none
  | some (_, slots) => (slots[index.toNat]?).join

-- The data array is there or is allocated, and holds what it held.
theorem ensure_array_slots (cfg : ScullConfig) (call : WriteCall) (outside : Nat → Option Cell) (s : ScullState)
    (front back : List Entry) (e : Entry) (holds : DeviceHolds outside s (front ++ e :: back))
    (fit : e.array = none → SlotsFit cfg.abi s.qset) :
    ∃ heap e', (ensureArray cfg s.quantum s.qset call e.node).run s =
        .done (e.array.isSome || call.arrayMemory.isSome) { s with heap := heap } ∧
      DeviceHolds outside { s with heap := heap } (front ++ e' :: back) ∧ e'.node = e.node ∧
      e'.array.isSome = (e.array.isSome || call.arrayMemory.isSome) ∧ (∀ index, e'.slot index = e.slot index) ∧
      ∀ b ∈ e.blocks, heap.cell b = s.heap.cell b := by
  have entry := focus_entry outside s front back e holds
  cases has : e.array with
  | some array =>
      have data : e.data = some array.1 := by simp [Entry.data, has]
      refine ⟨s.heap, e, ?_, holds, rfl, by simp [has], fun _ => rfl, fun _ _ => rfl⟩
      simp [ensureArray, run_read_data .inside s e.node _ _ entry.node, data]
  | none =>
      have data : e.data = none := by simp [Entry.data, has]
      have bare : ∀ b, b ∉ e.blocks := by simp [Entry.blocks, has]
      have here : s.heap.cell e.node = some (.node none (headOf back)) := data ▸ entry.node
      cases memory : call.arrayMemory with
      | none =>
          refine ⟨s.heap.put e.node (.node none (headOf back)), e, ?_, ?_, rfl, by simp [has], fun _ => rfl,
            fun b listed => absurd listed (bare b)⟩
          · simp [ensureArray, run_read_data .inside s e.node _ _ here, memory,
              run_write_data .inside s e.node _ _ none here]
          · apply focus_put outside s front back e e.node _ holds (node_mem_footprint e)
            refine ⟨?_, by simp [has], by simp [Entry.blocks, has]⟩
            rw [data]
            exact Heap.put_cell_same _ _ _ _ here
      | some memory' =>
          let garbage := (List.range (arraySlots cfg.abi s.qset)).map memory'
          have count : (garbage.length : Int) = s.qset := by
            simpa [garbage] using array_slots_fit cfg.abi s.qset holds.geometry.qsetPos (fit has)
          refine ⟨attachArray s.heap e.node (headOf back) s.quantum s.qset garbage, _, ?_,
            device_attach_array outside s front back e garbage holds has count, rfl, rfl, ?_,
            fun b listed => absurd listed (bare b)⟩
          · have attaches := run_attach_array s e.node none (headOf back) s.quantum s.qset garbage here
            simpa [ensureArray, run_read_data .inside s e.node _ _ here, memory] using attaches
          · intro index
            simp only [Entry.slot, has, List.getElem?_replicate]
            split <;> rfl

theorem run_ensure_array (cfg : ScullConfig) (call : WriteCall) (outside : Nat → Option Cell) (s : ScullState)
    (front back : List Entry) (e : Entry) (holds : DeviceHolds outside s (front ++ e :: back))
    (fit : e.array = none → SlotsFit cfg.abi s.qset) :
    ∃ ok heap e', (ensureArray cfg s.quantum s.qset call e.node).run s = .done ok { s with heap := heap } ∧
      DeviceHolds outside { s with heap := heap } (front ++ e' :: back) ∧ e'.node = e.node ∧
      (ok = true → e'.array.isSome = true) ∧ (e'.array = none → e.array = none) := by
  obtain ⟨heap, e', ran, kept, node, has, -, -⟩ := ensure_array_slots cfg call outside s front back e holds fit
  refine ⟨_, heap, e', ran, kept, node, fun ok => has.trans ok, fun absent => ?_⟩
  rw [absent, Option.isSome_none, eq_comm, Bool.or_eq_false_iff] at has
  exact Option.isSome_eq_false_iff.mp has.1 |> Option.isNone_iff_eq_none.mp

theorem reduce_option_set (slots : List (Option Nat)) (i b : Nat) (empty : slots[i]? = some none) :
    (slots.set i (some b)).reduceOption.Perm (b :: slots.reduceOption) := by
  induction slots generalizing i with
  | nil => simp at empty
  | cons slot rest ih =>
      cases i with
      | zero =>
          obtain rfl : slot = none := by simpa using empty
          simp
      | succ i =>
          have later := ih i (by simpa using empty)
          cases slot with
          | none => simpa using later
          | some c =>
              simp only [List.set_cons_succ, List.reduceOption_cons_of_some]
              exact (later.cons c).trans (List.Perm.swap b c _)

theorem set_empty_slot (slots : List (Option Nat)) (i : Nat) (empty : slots[i]? = some none) :
    slots.set i none = slots := by
  obtain ⟨bound, value⟩ := List.getElem?_eq_some_iff.mp empty
  exact value ▸ List.set_getElem_self bound

theorem in_bounds_of (index qset : Int) (slots : List (Option Nat)) (low : 0 ≤ index) (high : index < qset)
    (count : (slots.length : Int) = qset) : inBounds index slots = true := by
  simp only [inBounds, Bool.and_eq_true, decide_eq_true_eq]
  omega

theorem same_geometry_self (quantum qset : Int) : sameGeometry quantum qset quantum qset = true := by
  simp [sameGeometry]

theorem run_entry_slot (label : ScullLabel) (s : ScullState) (e : Entry) (next : Option Nat) (index : Int)
    (holds : EntryHolds s.heap s.quantum s.qset e next) (has : e.array.isSome = true) (low : 0 ≤ index)
    (high : index < s.qset) :
    (slotOf label (sameGeometry s.quantum s.qset) e.node index).run s = .done (e.slot index) s := by
  obtain ⟨⟨a, slots⟩, array⟩ := Option.isSome_iff_exists.mp has
  obtain ⟨stored, count⟩ := holds.array a slots array
  have here : s.heap.cell e.node = some (.node (some a) next) := by
    simpa [Entry.data, array] using holds.node
  rw [run_slot_of label s _ e.node a index s.quantum s.qset next slots here stored (same_geometry_self _ _)
    (in_bounds_of index s.qset slots low high count)]
  simp [Entry.slot, array]

theorem slot_mem_blocks (e : Entry) (index : Int) (b : Nat) (found : e.slot index = some b) : b ∈ e.blocks := by
  cases has : e.array with
  | none => simp [Entry.slot, has] at found
  | some array =>
      simp only [Entry.slot, has, Option.join_eq_some_iff] at found
      simp only [Entry.blocks, has, List.reduceOption_mem_iff]
      exact List.mem_of_getElem? found

def attachBlock (heap : Heap Cell) (a : Nat) (quantum qset : Int) (slots : List (Option Nat)) (i size : Nat)
    (bytes : Nat → UInt8) : Heap Cell :=
  (heap.alloc (.block size bytes)).put a (.array quantum qset (slots.set i (some heap.fresh)))

theorem attach_block_cells (heap : Heap Cell) (a i size : Nat) (quantum qset : Int) (slots : List (Option Nat))
    (bytes : Nat → UInt8) (found : heap.cell a = some (.array quantum qset slots)) :
    (attachBlock heap a quantum qset slots i size bytes).cell a =
        some (.array quantum qset (slots.set i (some heap.fresh))) ∧
      (attachBlock heap a quantum qset slots i size bytes).cell heap.fresh = some (.block size bytes) ∧
      ∀ b, b ≠ a → b ≠ heap.fresh → (attachBlock heap a quantum qset slots i size bytes).cell b = heap.cell b := by
  have old : a ≠ heap.fresh := fun same => by simp [same] at found
  have grown : (heap.alloc (.block size bytes)).cell a = some (.array quantum qset slots) :=
    (heap.alloc_cell _ a old).trans found
  refine ⟨Heap.put_cell_same _ _ _ _ grown, ?_, ?_⟩
  · rw [attachBlock, Heap.put_cell_other _ _ _ _ (Ne.symm old), Heap.alloc_cell_fresh]
  · intro b apart beyond
    rw [attachBlock, Heap.put_cell_other _ _ _ _ apart, Heap.alloc_cell _ _ _ beyond]

theorem run_attach_block (s : ScullState) (node a : Nat) (index quantum qset : Int) (next : Option Nat)
    (slots : List (Option Nat)) (size : Nat) (bytes : Nat → UInt8)
    (here : s.heap.cell node = some (.node (some a) next))
    (stored : s.heap.cell a = some (.array quantum qset slots)) (within : inBounds index slots = true) :
    (do let block ← kmalloc .inside (.block size bytes)
        setSlotOf .inside (sameGeometry quantum qset) node index (some block)
        pure true : ScullProg Bool).run s =
      .done true { s with heap := attachBlock s.heap a quantum qset slots index.toNat size bytes } := by
  have oldNode : node ≠ s.heap.fresh := fun same => by simp [same] at here
  have oldArray : a ≠ s.heap.fresh := fun same => by simp [same] at stored
  rw [Prog.run_bind, run_kmalloc, outcome_bind_done, Prog.run_bind,
    run_set_slot_of .inside _ _ node a index quantum qset next (some s.heap.fresh) slots
      ((s.heap.alloc_cell _ node oldNode).trans here) ((s.heap.alloc_cell _ a oldArray).trans stored)
      (same_geometry_self _ _) within]
  rfl

theorem quantum_lt (quantum qset : Int) (geometry : Geometry quantum qset) : quantum < 2 ^ 31 := by
  have product := geometry.product
  have scaled := Int.mul_le_mul_of_nonneg_left (Int.add_one_le_of_lt geometry.qsetPos) (Int.le_of_lt geometry.quantumPos)
  omega

theorem block_size (abi : Abi) (quantum qset : Int) (geometry : Geometry quantum qset) :
    abi.ulong quantum = quantum.toNat := by
  have positive := geometry.quantumPos
  have bounded := quantum_lt quantum qset geometry
  have exactly := ulong_eq abi quantum (Int.le_of_lt positive) (by omega)
  omega

theorem device_attach_block (outside : Nat → Option Cell) (s : ScullState) (front back : List Entry) (e : Entry)
    (a i : Nat) (slots : List (Option Nat)) (bytes : Nat → UInt8) (holds : DeviceHolds outside s (front ++ e :: back))
    (array : e.array = some (a, slots)) (empty : slots[i]? = some none) :
    DeviceHolds outside { s with heap := attachBlock s.heap a s.quantum s.qset slots i s.quantum.toNat bytes }
      (front ++ ⟨e.node, some (a, slots.set i (some s.heap.fresh))⟩ :: back) := by
  have entry := focus_entry outside s front back e holds
  obtain ⟨stored, count⟩ := entry.array a slots array
  obtain ⟨nodeArray, apart⟩ := entry_distinct e a slots (focus_nodup outside s front back e holds) array
  have arrayHere := array_mem_footprint e a slots array
  have relisting := reduce_option_set slots i s.heap.fresh empty
  obtain ⟨relisted, fresh, rest⟩ := attach_block_cells s.heap a i s.quantum.toNat s.quantum s.qset slots bytes stored
  have old := focus_fresh outside s front back e holds
  have keeps : ∀ b ∈ e.footprint, b ≠ a →
      (attachBlock s.heap a s.quantum s.qset slots i s.quantum.toNat bytes).cell b = s.heap.cell b :=
    fun b member other => rest b other (old.1 b member)
  let e' : Entry := ⟨e.node, some (a, slots.set i (some s.heap.fresh))⟩
  apply focus_replace outside s front back e _ e' holds rfl
  · have perm : e'.footprint.Perm (s.heap.fresh :: e.footprint) := by
      simp only [e', Entry.footprint, Entry.blocks, Entry.data, array, Option.map_some]
      exact (relisting.append_right _).append_right _
    have owns := owns_alloc outside s.heap _ (.block s.quantum.toNat bytes) (focus_owns outside s front back e holds)
    apply owns_perm _ _ _ _ (owns_put _ _ _ _ _ owns _)
    · exact (perm.append_right (others front back)).symm
    · exact List.mem_cons_of_mem _ (List.mem_append_left _ arrayHere)
  · intro b there
    exact rest b (focus_apart outside s front back e holds a b arrayHere there) (old.2 b there)
  · refine ⟨?_, ?_, ?_⟩
    · rw [keeps e.node (node_mem_footprint e) nodeArray]
      simpa [Entry.data, e', array] using entry.node
    · intro a' slots' same
      cases same
      exact ⟨relisted, by simpa using count⟩
    · intro b member
      cases List.mem_cons.mp (relisting.mem_iff.mp member) with
      | inl same => exact ⟨bytes, by rw [same, fresh]⟩
      | inr before =>
          have member : b ∈ e.blocks := by simpa [Entry.blocks, array] using before
          obtain ⟨bytes', found⟩ := entry.blocks b member
          exact ⟨bytes', by rw [keeps b (block_mem_footprint e b member) (apart b member).1, found]⟩

-- The slot is filled or gets a fresh quantum; every other slot and quantum stays.
theorem ensure_block_slots (cfg : ScullConfig) (pos : Position) (call : WriteCall) (outside : Nat → Option Cell)
    (s : ScullState) (front back : List Entry) (e : Entry) (holds : DeviceHolds outside s (front ++ e :: back))
    (has : e.array.isSome = true) (low : 0 ≤ pos.sPos) (high : pos.sPos < s.qset) :
    ∃ heap e', (ensureBlock cfg s.quantum s.qset pos call e.node).run s =
        .done ((e.slot pos.sPos).isSome || call.blockMemory.isSome) { s with heap := heap } ∧
      DeviceHolds outside { s with heap := heap } (front ++ e' :: back) ∧ e'.node = e.node ∧ e'.array.isSome = true ∧
      (∀ index, 0 ≤ index → index ≠ pos.sPos → e'.slot index = e.slot index) ∧
      (∀ b ∈ e.blocks, heap.cell b = s.heap.cell b) ∧
      ((e.slot pos.sPos).isSome = true ∨ call.blockMemory = none → e'.slot pos.sPos = e.slot pos.sPos) ∧
      ∀ bytes, e.slot pos.sPos = none → call.blockMemory = some bytes →
        ∃ b, e'.slot pos.sPos = some b ∧ heap.cell b = some (.block s.quantum.toNat bytes) := by
  have entry := focus_entry outside s front back e holds
  have reads := run_entry_slot .inside s e (headOf back) pos.sPos entry has low high
  obtain ⟨⟨a, slots⟩, array⟩ := Option.isSome_iff_exists.mp has
  obtain ⟨stored, count⟩ := entry.array a slots array
  have here : s.heap.cell e.node = some (.node (some a) (headOf back)) := by
    simpa [Entry.data, array] using entry.node
  have within := in_bounds_of pos.sPos s.qset slots low high count
  cases filled : e.slot pos.sPos with
  | some b =>
      refine ⟨s.heap, e, ?_, holds, rfl, has, fun _ _ _ => rfl, fun _ _ => rfl, fun _ => filled, by simp⟩
      simp [ensureBlock, reads, filled]
  | none =>
      have bound : pos.sPos.toNat < slots.length := by omega
      have empty : slots[pos.sPos.toNat]? = some none := by
        simpa [Entry.slot, array, bound] using filled
      cases memory : call.blockMemory with
      | none =>
          have clears := run_set_slot_of .inside s _ e.node a pos.sPos s.quantum s.qset (headOf back) none slots here
            stored (same_geometry_self _ _) within
          rw [set_empty_slot slots _ empty] at clears
          have same : ∀ b, (s.heap.put a (.array s.quantum s.qset slots)).cell b = s.heap.cell b := by
            intro b
            by_cases same : b = a
            · rw [same, Heap.put_cell_same _ _ _ _ stored, stored]
            · exact Heap.put_cell_other _ _ _ _ same
          refine ⟨s.heap.put a (.array s.quantum s.qset slots), e, ?_, ?_, rfl, has, fun _ _ _ => rfl,
            fun b _ => same b, fun _ => filled, by simp⟩
          · simp [ensureBlock, reads, filled, memory, clears]
          · apply focus_put outside s front back e a _ holds (array_mem_footprint e a slots array)
            exact entry_frame s.heap _ s.quantum s.qset e _ entry fun b _ => same b
      | some bytes =>
          obtain ⟨-, fresh, rest⟩ := attach_block_cells s.heap a pos.sPos.toNat s.quantum.toNat s.quantum s.qset slots
            bytes stored
          have old := focus_fresh outside s front back e holds
          have apart := (entry_distinct e a slots (focus_nodup outside s front back e holds) array).2
          refine ⟨attachBlock s.heap a s.quantum s.qset slots pos.sPos.toNat s.quantum.toNat bytes, _, ?_,
            device_attach_block outside s front back e a _ slots bytes holds array empty, rfl, rfl, ?_, ?_, by simp, ?_⟩
          · have stores := run_attach_block s e.node a pos.sPos s.quantum s.qset (headOf back) slots
              s.quantum.toNat bytes here stored within
            simpa [ensureBlock, reads, filled, memory, block_size cfg.abi s.quantum s.qset holds.geometry] using stores
          · intro index below other
            have apart : pos.sPos.toNat ≠ index.toNat := by omega
            simp [Entry.slot, array, List.getElem?_set_ne apart]
          · intro b listed
            exact rest b (apart b listed).1 (old.1 b (block_mem_footprint e b listed))
          · intro bytes' _ same
            obtain rfl := Option.some.inj same
            exact ⟨s.heap.fresh, by simp [Entry.slot, bound], fresh⟩

theorem slot_ensured (e e' : Entry) (index : Int) (memory : Option (Nat → UInt8)) (heap : Heap Cell) (size : Nat)
    (ok : ((e.slot index).isSome || memory.isSome) = true)
    (filled : (e.slot index).isSome = true ∨ memory = none → e'.slot index = e.slot index)
    (fresh : ∀ bytes, e.slot index = none → memory = some bytes →
      ∃ b, e'.slot index = some b ∧ heap.cell b = some (.block size bytes)) : (e'.slot index).isSome = true := by
  cases slot : e.slot index with
  | some b => rw [filled (.inl (by simp [slot])), slot, Option.isSome_some]
  | none =>
      obtain ⟨bytes, given⟩ := Option.isSome_iff_exists.mp (by simpa [slot] using ok)
      obtain ⟨b, found, -⟩ := fresh bytes slot given
      rw [found, Option.isSome_some]

theorem run_ensure_block (cfg : ScullConfig) (pos : Position) (call : WriteCall) (outside : Nat → Option Cell)
    (s : ScullState) (front back : List Entry) (e : Entry) (holds : DeviceHolds outside s (front ++ e :: back))
    (has : e.array.isSome = true) (low : 0 ≤ pos.sPos) (high : pos.sPos < s.qset) :
    ∃ ok heap e', (ensureBlock cfg s.quantum s.qset pos call e.node).run s = .done ok { s with heap := heap } ∧
      DeviceHolds outside { s with heap := heap } (front ++ e' :: back) ∧ e'.node = e.node ∧
      e'.array.isSome = true ∧ (ok = true → (e'.slot pos.sPos).isSome = true) := by
  obtain ⟨heap, e', ran, kept, node, has', -, -, filled, fresh⟩ :=
    ensure_block_slots cfg pos call outside s front back e holds has low high
  exact ⟨_, heap, e', ran, kept, node, has', fun ok => slot_ensured e e' pos.sPos _ heap _ ok filled fresh⟩

end OneDriver.Scull
