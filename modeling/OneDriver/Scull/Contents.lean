import OneDriver.Known
import OneDriver.Scull.Ownership
import Mathlib.Logic.Function.Basic

set_option autoImplicit false

namespace OneDriver.Scull

-- What a device holds, as far as its calls decide it: scull_follow reaches the
-- first node only, and a byte of a fresh quantum is known once a write covers it.
abbrev Quantum := Nat → Option UInt8

structure FirstNode where
  array : Bool
  quanta : Int → Option Quantum

structure Contents where
  size : Nat
  first : Option FirstNode

structure Answer where
  retval : Int
  fPos : Int
  bytes : List (Option UInt8)
deriving DecidableEq, Repr

inductive Transfer where
  | read (call : ReadCall)
  | write (call : WriteCall)

def Transfer.prog (cfg : ScullConfig) : Transfer → ScullProg ScullReply
  | .read call => scullRead cfg call
  | .write call => scullWrite cfg call

def Transfer.fPos : Transfer → Int
  | .read call => call.fPos
  | .write call => call.fPos

def Transfer.InRange (transfer : Transfer) : Prop := 0 ≤ transfer.fPos ∧ transfer.fPos < 2 ^ 31

def FirstNode.allocated (node : FirstNode) (index : Int) : FirstNode :=
  ⟨node.array, Function.update node.quanta index (some ((node.quanta index).getD fun _ => none))⟩

def FirstNode.stored (node : FirstNode) (pos : Position) (data : List UInt8) : FirstNode :=
  ⟨node.array, Function.update node.quanta pos.sPos
    ((node.quanta pos.sPos).map fun stored => overlay stored pos.qPos.toNat (data.map some))⟩

def grown (abi : Abi) (fPos : Int) (size : Nat) : Nat := if size < abi.mixed fPos then abi.ulong fPos else size

def clamped (abi : Abi) (fPos : Int) (count size : Nat) : Nat :=
  if abi.mixed (fPos + count) > size then abi.ulong (size - fPos) else count

def FirstNode.copyIn (abi : Abi) (quantum : Int) (pos : Position) (call : WriteCall) (size : Nat) (node : FirstNode) :
    Answer × Contents :=
  let count := clampToQuantum abi quantum pos.qPos call.data.length
  let after := node.stored pos (fetched (call.data.take count) call.fault)
  if copyFails count call.fault then (⟨-efault, call.fPos, []⟩, ⟨size, some after⟩)
  else (⟨int32 count, int64 (call.fPos + count), []⟩, ⟨grown abi (int64 (call.fPos + count)) size, some after⟩)

def FirstNode.write (abi : Abi) (quantum : Int) (pos : Position) (call : WriteCall) (size : Nat) (node : FirstNode) :
    Answer × Contents :=
  let attached : FirstNode := { node with array := node.array || call.arrayMemory.isSome }
  if attached.array = false then (⟨-einval, call.fPos, []⟩, ⟨size, some attached⟩)
  else if ((node.quanta pos.sPos).isSome || call.blockMemory.isSome) = false then
    (⟨-einval, call.fPos, []⟩, ⟨size, some attached⟩)
  else (attached.allocated pos.sPos).copyIn abi quantum pos call size

def FirstNode.read (abi : Abi) (quantum : Int) (pos : Position) (count : Nat) (call : ReadCall) (node : FirstNode) :
    Answer :=
  match node.quanta pos.sPos with
  | none => ⟨0, call.fPos, []⟩
  | some stored =>
      let n := clampToQuantum abi quantum pos.qPos count
      let bytes := slice stored pos.qPos.toNat (copied n call.fault)
      if copyFails n call.fault then ⟨-efault, call.fPos, bytes⟩ else ⟨abi.long n, int64 (call.fPos + n), bytes⟩

def Contents.reached (c : Contents) (pos : Position) : Option FirstNode := if 0 < pos.item then none else c.first

def Contents.write (abi : Abi) (quantum qset : Int) (call : WriteCall) (c : Contents) : Answer × Contents :=
  if call.interrupted then (⟨-erestartsys, call.fPos, []⟩, c)
  else
    let pos := position abi quantum qset call.fPos
    match c.reached pos with
    | none => (⟨-einval, call.fPos, []⟩, c)
    | some node => node.write abi quantum pos call c.size

def Contents.read (abi : Abi) (quantum qset : Int) (call : ReadCall) (c : Contents) : Answer :=
  if call.interrupted then ⟨-erestartsys, call.fPos, []⟩
  else if abi.mixed call.fPos ≥ c.size then ⟨0, call.fPos, []⟩
  else
    let pos := position abi quantum qset call.fPos
    match c.reached pos with
    | none => ⟨0, call.fPos, []⟩
    | some node => node.read abi quantum pos (clamped abi call.fPos call.count c.size) call

def Contents.transfer (abi : Abi) (quantum qset : Int) (c : Contents) : Transfer → Answer × Contents
  | .read call => (c.read abi quantum qset call, c)
  | .write call => c.write abi quantum qset call

-- Which contents a device may have, where a byte nothing has written may be any
-- that `admits` allows.
section Shows

variable (admits : UInt8 → Prop)

inductive QuantumShows (heap : Heap Cell) (size : Nat) : Option Nat → Option Quantum → Prop where
  | absent : QuantumShows heap size none none
  | held (b : Nat) (bytes : Nat → UInt8) (stored : Quantum) (found : heap.cell b = some (.block size bytes))
      (shown : ∀ j, Shown admits (stored j) (bytes j)) : QuantumShows heap size (some b) (some stored)

structure NodeShows (heap : Heap Cell) (quantum qset : Int) (e : Entry) (node : FirstNode) : Prop where
  array : node.array = e.array.isSome
  quanta : ∀ index, 0 ≤ index → index < qset →
    QuantumShows admits heap quantum.toNat (e.slot index) (node.quanta index)

def FirstShows (heap : Heap Cell) (quantum qset : Int) : List Entry → Option FirstNode → Prop
  | [], none => True
  | e :: _, some node => NodeShows admits heap quantum qset e node
  | _, _ => False

structure Shows (abi : Abi) (outside : Nat → Option Cell) (s : ScullState) (chain : List Entry) (c : Contents) :
    Prop where
  device : DeviceHolds outside s chain
  fit : FirstArrayFits abi s.qset chain
  size : s.size = c.size
  first : FirstShows admits s.heap s.quantum s.qset chain c.first

structure AnswerShows (answer : Answer) (reply : ScullReply) : Prop where
  retval : reply.retval = answer.retval
  fPos : reply.fPos = answer.fPos
  bytes : List.Forall₂ (Shown admits) answer.bytes reply.bytes

theorem quantum_shows_frame (heap other : Heap Cell) (size : Nat) (slot : Option Nat) (stored : Option Quantum)
    (shows' : QuantumShows admits heap size slot stored) (same : ∀ b, slot = some b → other.cell b = heap.cell b) :
    QuantumShows admits other size slot stored := by
  cases shows' with
  | absent => exact .absent
  | held b bytes stored found shown => exact .held b bytes stored ((same b rfl).trans found) shown

theorem quantum_shows_slot (heap : Heap Cell) (size : Nat) (slot : Option Nat) (stored : Option Quantum)
    (shows' : QuantumShows admits heap size slot stored) : stored.isSome = slot.isSome := by
  cases shows' <;> rfl

theorem answer_without_bytes (retval fPos : Int) : AnswerShows admits ⟨retval, fPos, []⟩ ⟨retval, fPos, []⟩ :=
  ⟨rfl, rfl, .nil⟩

end Shows

theorem slots_injective (slots : List (Option Nat)) (i j b : Nat) (nodup : slots.reduceOption.Nodup)
    (first : slots[i]? = some (some b)) (second : slots[j]? = some (some b)) : i = j := by
  induction slots generalizing i j with
  | nil => simp at first
  | cons slot rest ih =>
      cases slot with
      | none =>
          cases i with
          | zero => simp at first
          | succ i =>
              cases j with
              | zero => simp at second
              | succ j => exact congrArg Nat.succ (ih i j nodup (by simpa using first) (by simpa using second))
      | some c =>
          rw [List.reduceOption_cons_of_some, List.nodup_cons] at nodup
          have later : ∀ k : Nat, rest[k]? = some (some b) → c ≠ b := by
            rintro k found rfl
            exact nodup.1 (List.reduceOption_mem_iff.mpr (List.mem_of_getElem? found))
          cases i with
          | zero =>
              cases j with
              | zero => rfl
              | succ j => exact absurd (by simpa using first) (later j (by simpa using second))
          | succ i =>
              cases j with
              | zero => exact absurd (by simpa using second) (later i (by simpa using first))
              | succ j => exact congrArg Nat.succ (ih i j nodup.2 (by simpa using first) (by simpa using second))

theorem slot_injective (e : Entry) (i j : Int) (b : Nat) (nodup : e.footprint.Nodup) (low : 0 ≤ i) (low' : 0 ≤ j)
    (first : e.slot i = some b) (second : e.slot j = some b) : i = j := by
  cases array : e.array with
  | none => simp [Entry.slot, array] at first
  | some pair =>
      simp only [Entry.slot, array, Option.join_eq_some_iff] at first second
      simp only [Entry.footprint, Entry.blocks, array, List.append_assoc] at nodup
      have same := slots_injective pair.2 _ _ b (List.nodup_append.mp nodup).1 first second
      omega

section Node

variable (admits : UInt8 → Prop) (heap other : Heap Cell) (quantum qset : Int) (e e' : Entry) (node : FirstNode)

theorem quanta_slot (index : Int) (shows' : NodeShows admits heap quantum qset e node) (low : 0 ≤ index)
    (high : index < qset) : (node.quanta index).isSome = (e.slot index).isSome :=
  quantum_shows_slot admits heap _ _ _ (shows'.quanta index low high)

theorem node_shows_attached (shows' : NodeShows admits heap quantum qset e node)
    (slots : ∀ index, e'.slot index = e.slot index) (same : ∀ b ∈ e.blocks, other.cell b = heap.cell b) :
    NodeShows admits other quantum qset e' { node with array := e'.array.isSome } where
  array := rfl
  quanta := fun index low high => by
    rw [slots index]
    apply quantum_shows_frame admits heap other _ _ _ (shows'.quanta index low high)
    exact fun b slot => same b (slot_mem_blocks e index b slot)

theorem node_shows_allocated (at' : Int) (memory : Option (Nat → UInt8))
    (shows' : NodeShows admits heap quantum qset e node) (low : 0 ≤ at') (high : at' < qset) (array : e'.array.isSome = e.array.isSome)
    (some' : ((node.quanta at').isSome || memory.isSome) = true)
    (slots : ∀ index, 0 ≤ index → index ≠ at' → e'.slot index = e.slot index)
    (same : ∀ b ∈ e.blocks, other.cell b = heap.cell b)
    (filled : (e.slot at').isSome = true ∨ memory = none → e'.slot at' = e.slot at')
    (fresh : ∀ bytes, e.slot at' = none → memory = some bytes →
      ∃ b, e'.slot at' = some b ∧ other.cell b = some (.block quantum.toNat bytes))
    (admitted : ∀ bytes, memory = some bytes → ∀ j, admits (bytes j)) :
    NodeShows admits other quantum qset e' (node.allocated at') where
  array := shows'.array.trans array.symm
  quanta := fun index low' high' => by
    by_cases here : index = at'
    · subst here
      simp only [FirstNode.allocated, Function.update_self]
      have old := shows'.quanta index low high
      have kept := quantum_shows_frame admits heap other _ _ _ old fun b slot => same b (slot_mem_blocks e index b slot)
      cases stored : node.quanta index with
      | some view =>
          have has := quanta_slot admits heap quantum qset e node index shows' low high
          rw [stored, Option.isSome_some] at has
          rw [filled (.inl has.symm), Option.getD_some, ← stored]
          exact kept
      | none =>
          rw [stored] at old some'
          obtain ⟨bytes, memory'⟩ := Option.isSome_iff_exists.mp (by simpa using some')
          have empty : e.slot index = none := by
            cases slot : e.slot index with
            | none => rfl
            | some b => rw [slot] at old; cases old
          obtain ⟨b, slot, found⟩ := fresh bytes empty memory'
          rw [slot, Option.getD_none]
          exact .held b bytes _ found fun j => admitted bytes memory' j
    · simp only [FirstNode.allocated, Function.update_of_ne here]
      rw [slots index low' here]
      apply quantum_shows_frame admits heap other _ _ _ (shows'.quanta index low' high')
      exact fun b slot => same b (slot_mem_blocks e index b slot)

theorem node_shows_stored (pos : Position) (b : Nat) (bytes : Nat → UInt8) (data : List UInt8)
    (shows' : NodeShows admits heap quantum qset e node) (nodup : e.footprint.Nodup) (low : 0 ≤ pos.sPos)
    (high : pos.sPos < qset) (slot : e.slot pos.sPos = some b)
    (found : heap.cell b = some (.block quantum.toNat bytes)) :
    NodeShows admits (heap.put b (.block quantum.toNat (overlay bytes pos.qPos.toNat data))) quantum qset e
      (node.stored pos data) where
  array := shows'.array
  quanta := fun index low' high' => by
    by_cases here : index = pos.sPos
    · subst here
      simp only [FirstNode.stored, Function.update_self]
      have old := shows'.quanta pos.sPos low high
      rw [slot] at old ⊢
      cases view : node.quanta pos.sPos with
      | none => rw [view] at old; cases old
      | some stored =>
          rw [view] at old
          cases old with
          | held _ bytes' _ found' shown =>
              obtain rfl : bytes = bytes' := by simpa using found.symm.trans found'
              exact .held b _ _ (Heap.put_cell_same _ _ _ _ found) (shown_overlay admits stored bytes _ data shown)
    · simp only [FirstNode.stored, Function.update_of_ne here]
      apply quantum_shows_frame admits heap _ _ _ _ (shows'.quanta index low' high')
      intro c there
      apply Heap.put_cell_other
      rintro rfl
      exact here (slot_injective e index pos.sPos c nodup low' low there slot)

end Node

-- A program that answers, and leaves contents, as `result` says.
def Refines (admits : UInt8 → Prop) (abi : Abi) (outside : Nat → Option Cell) (s : ScullState)
    (program : ScullProg ScullReply) (result : Answer × Contents) : Prop :=
  ∃ reply t chain, program.run s = .done reply t ∧ Shows admits abi outside t chain result.2 ∧ Frame s t ∧
    AnswerShows admits result.1 reply

theorem run_grow_size (abi : Abi) (fPos : Int) (s : ScullState) :
    (growSize abi fPos).run s = .done () { s with size := grown abi fPos s.size } := by
  simp only [growSize, grown, Prog.run_bind, Prog.run_look, outcome_bind_done]
  split <;> rfl

theorem run_clamp (abi : Abi) (fPos : Int) (count : Nat) (s : ScullState) :
    (clampToSize abi fPos count).run s = .done (clamped abi fPos count s.size) s := by
  simp only [clampToSize, clamped, Prog.run_bind, Prog.run_look, outcome_bind_done]
  split <;> rfl

-- The heap when copy_from_user is through with its part of the quantum.
def copiedHeap (cfg : ScullConfig) (pos : Position) (s : ScullState) (call : WriteCall) (b : Nat) (bytes : Nat → UInt8) :
    Heap Cell :=
  s.heap.put b (.block s.quantum.toNat (overlay bytes pos.qPos.toNat
    (fetched (call.data.take (clampToQuantum cfg.abi s.quantum pos.qPos call.data.length)) call.fault)))

section Body

variable (admits : UInt8 → Prop) (cfg : ScullConfig) (pos : Position) (outside : Nat → Option Cell) (s : ScullState)
  (back : List Entry) (e : Entry) (node : FirstNode)

theorem refuse_refines (retval fPos : Int) (heap : Heap Cell) (chain : List Entry) (c : Contents)
    (program : ScullProg ScullReply) (ran : program.run s = .done ⟨retval, fPos, []⟩ { s with heap := heap })
    (shows' : Shows admits cfg.abi outside { s with heap := heap } chain c) :
    Refines admits cfg.abi outside s program (⟨retval, fPos, []⟩, c) :=
  ⟨_, _, chain, ran, shows', frame_heap s heap, answer_without_bytes admits retval fPos⟩

theorem run_copy_in (call : WriteCall) (b : Nat) (bytes : Nat → UInt8) (holds : DeviceHolds outside s (e :: back))
    (slot : e.slot pos.sPos = some b) (found : s.heap.cell b = some (.block s.quantum.toNat bytes))
    (inRange : pos.inRange) (below : pos.Below s.quantum s.qset) :
    (copyIn cfg s.quantum s.qset pos call e.node).run s =
      if copyFails (clampToQuantum cfg.abi s.quantum pos.qPos call.data.length) call.fault then
        .done ⟨-efault, call.fPos, []⟩ { s with heap := copiedHeap cfg pos s call b bytes }
      else
        .done ⟨int32 (clampToQuantum cfg.abi s.quantum pos.qPos call.data.length),
            int64 (call.fPos + clampToQuantum cfg.abi s.quantum pos.qPos call.data.length), []⟩
          { s with
            heap := copiedHeap cfg pos s call b bytes
            size := grown cfg.abi (int64 (call.fPos + clampToQuantum cfg.abi s.quantum pos.qPos call.data.length)) s.size } := by
  have entry := focus_entry outside s [] back e holds
  have reads := run_entry_slot .inside s e _ pos.sPos entry (slot_has_array e pos.sPos (by simp [slot])) inRange.1 below.slot
  have covered := covers_clamped cfg.abi s.quantum s.qset pos.qPos call.data.length holds.geometry inRange.2 below.byte
  have short : (call.data.take (clampToQuantum cfg.abi s.quantum pos.qPos call.data.length)).length =
      clampToQuantum cfg.abi s.quantum pos.qPos call.data.length := List.length_take_of_le (Nat.min_le_left _ _)
  have copies := run_copy_from_user s b s.quantum.toNat bytes pos.qPos
    (call.data.take (clampToQuantum cfg.abi s.quantum pos.qPos call.data.length)) call.fault found
  rw [short, if_pos covered] at copies
  simp only [copyIn, Prog.run_bind, reads, outcome_bind_done, slot, deref, Prog.run_pure, copies]
  split
  · rfl
  · simp only [Prog.run_bind, run_grow_size, outcome_bind_done, Prog.run_pure, copiedHeap]

theorem device_copied (call : WriteCall) (b : Nat) (bytes : Nat → UInt8) (holds : DeviceHolds outside s (e :: back))
    (slot : e.slot pos.sPos = some b) :
    DeviceHolds outside { s with heap := copiedHeap cfg pos s call b bytes } (e :: back) := by
  have member := slot_mem_blocks e pos.sPos b slot
  exact focus_put outside s [] back e b _ holds (block_mem_footprint e b member)
    (entry_put_block s.heap s.quantum s.qset e _ b _ (focus_entry outside s [] back e holds)
      (focus_nodup outside s [] back e holds) member)

theorem copy_in_refines (call : WriteCall)
    (shows' : Shows admits cfg.abi outside s (e :: back) ⟨s.size, some node⟩)
    (filled : (node.quanta pos.sPos).isSome = true) (inRange : pos.inRange) (below : pos.Below s.quantum s.qset) :
    Refines admits cfg.abi outside s (copyIn cfg s.quantum s.qset pos call e.node)
      (node.copyIn cfg.abi s.quantum pos call s.size) := by
  have holds := shows'.device
  have first : NodeShows admits s.heap s.quantum s.qset e node := shows'.first
  have nodup := focus_nodup outside s [] back e holds
  rw [quanta_slot admits s.heap s.quantum s.qset e node pos.sPos first inRange.1 below.slot] at filled
  obtain ⟨b, slot⟩ := Option.isSome_iff_exists.mp filled
  obtain ⟨bytes, found⟩ := (focus_entry outside s [] back e holds).blocks b (slot_mem_blocks e pos.sPos b slot)
  have stored := device_copied cfg pos outside s back e call b bytes holds slot
  have ran := run_copy_in cfg pos outside s back e call b bytes holds slot found inRange below
  have after : NodeShows admits (copiedHeap cfg pos s call b bytes) s.quantum s.qset e (node.stored pos
      (fetched (call.data.take (clampToQuantum cfg.abi s.quantum pos.qPos call.data.length)) call.fault)) :=
    node_shows_stored admits s.heap s.quantum s.qset e node pos b bytes _ first nodup inRange.1 below.slot slot found
  simp only [FirstNode.copyIn]
  by_cases fails : copyFails (clampToQuantum cfg.abi s.quantum pos.qPos call.data.length) call.fault = true
  · rw [if_pos fails] at ran ⊢
    exact refuse_refines admits cfg outside s _ _ _ (e :: back) _ _ ran ⟨stored, shows'.fit, rfl, after⟩
  · rw [if_neg fails] at ran ⊢
    refine ⟨_, _, e :: back, ran, ⟨?_, shows'.fit, rfl, after⟩, ⟨rfl, rfl, rfl, rfl, rfl⟩, answer_without_bytes _ _ _⟩
    exact device_resize outside _ _ _ stored

theorem refines_from (t : ScullState) (program rest : ScullProg ScullReply) (result : Answer × Contents)
    (moved : program.run s = rest.run t) (frame : Frame s t) (refines : Refines admits cfg.abi outside t rest result) :
    Refines admits cfg.abi outside s program result := by
  obtain ⟨reply, u, chain, ran, kept, framed, answers⟩ := refines
  exact ⟨reply, u, chain, moved.trans ran, kept, frame_trans s t u frame framed, answers⟩

theorem write_block_refines (call : WriteCall)
    (shows' : Shows admits cfg.abi outside s (e :: back) ⟨s.size, some node⟩) (has : e.array.isSome = true)
    (admitted : ∀ bytes, call.blockMemory = some bytes → ∀ j, admits (bytes j)) (inRange : pos.inRange)
    (below : pos.Below s.quantum s.qset) :
    Refines admits cfg.abi outside s
      (do let hasBlock ← ensureBlock cfg s.quantum s.qset pos call e.node
          if hasBlock then copyIn cfg s.quantum s.qset pos call e.node else pure ⟨-einval, call.fPos, []⟩)
      (if ((node.quanta pos.sPos).isSome || call.blockMemory.isSome) = false then
        (⟨-einval, call.fPos, []⟩, ⟨s.size, some node⟩)
      else (node.allocated pos.sPos).copyIn cfg.abi s.quantum pos call s.size) := by
  have first : NodeShows admits s.heap s.quantum s.qset e node := shows'.first
  obtain ⟨heap, e', ran, kept, same, has', slots, cells, filled, fresh⟩ :=
    ensure_block_slots cfg pos call outside s [] back e shows'.device has inRange.1 below.slot
  have fit : FirstArrayFits cfg.abi s.qset (e' :: back) :=
    first_array_fits_of cfg.abi s.qset e e' back shows'.fit fun absent => by simp [absent] at has'
  rw [← quanta_slot admits s.heap s.quantum s.qset e node pos.sPos first inRange.1 below.slot] at ran
  by_cases ok : ((node.quanta pos.sPos).isSome || call.blockMemory.isSome) = true
  · rw [if_neg (by simp [ok])]
    have after : NodeShows admits heap s.quantum s.qset e' (node.allocated pos.sPos) :=
      node_shows_allocated admits s.heap heap s.quantum s.qset e e' node pos.sPos call.blockMemory first inRange.1
        below.slot (has'.trans has.symm) ok slots cells filled fresh admitted
    apply refines_from admits cfg outside s { s with heap := heap } _
      (copyIn cfg s.quantum s.qset pos call e'.node) _ _ (frame_heap s heap)
    · exact copy_in_refines admits cfg pos outside { s with heap := heap } back e' (node.allocated pos.sPos) call
        ⟨kept, fit, rfl, after⟩ (by simp [FirstNode.allocated]) inRange below
    · rw [Prog.run_bind, ran, ok, outcome_bind_done, if_pos rfl, same]
  · have no : ((node.quanta pos.sPos).isSome || call.blockMemory.isSome) = false := by simpa using ok
    rw [if_pos no]
    have empty : call.blockMemory = none := by
      have := (Bool.or_eq_false_iff.mp no).2
      simpa using this
    have still : ∀ index, 0 ≤ index → e'.slot index = e.slot index := by
      intro index low
      by_cases here : index = pos.sPos
      · rw [here, filled (.inr empty)]
      · exact slots index low here
    have after : NodeShows admits heap s.quantum s.qset e' node := by
      refine ⟨first.array.trans (has.trans has'.symm), fun index low high => ?_⟩
      rw [still index low]
      apply quantum_shows_frame admits s.heap heap _ _ _ (first.quanta index low high)
      exact fun b slot => cells b (slot_mem_blocks e index b slot)
    have shown : Shows admits cfg.abi outside { s with heap := heap } (e' :: back) ⟨s.size, some node⟩ :=
      ⟨kept, fit, rfl, after⟩
    apply refuse_refines admits cfg outside s _ _ heap (e' :: back) _ _ _ shown
    rw [Prog.run_bind, ran, no, outcome_bind_done, if_neg Bool.false_ne_true, Prog.run_pure]

theorem write_node_refines (call : WriteCall)
    (shows' : Shows admits cfg.abi outside s (e :: back) ⟨s.size, some node⟩)
    (admitted : ∀ bytes, call.blockMemory = some bytes → ∀ j, admits (bytes j)) (inRange : pos.inRange)
    (below : pos.Below s.quantum s.qset) :
    Refines admits cfg.abi outside s (writeNode cfg s.quantum s.qset pos call e.node)
      (node.write cfg.abi s.quantum pos call s.size) := by
  have first : NodeShows admits s.heap s.quantum s.qset e node := shows'.first
  obtain ⟨heap, e', ran, kept, same, has, slots, cells⟩ := ensure_array_slots cfg call outside s [] back e shows'.device
    (shows'.fit e rfl)
  have fit : FirstArrayFits cfg.abi s.qset (e' :: back) := by
    refine first_array_fits_of cfg.abi s.qset e e' back shows'.fit fun absent => ?_
    rw [absent, Option.isSome_none, eq_comm, Bool.or_eq_false_iff] at has
    simpa using has.1
  have after := node_shows_attached admits s.heap heap s.quantum s.qset e e' node first slots cells
  have shown : Shows admits cfg.abi outside { s with heap := heap } (e' :: back)
      ⟨s.size, some { node with array := e'.array.isSome }⟩ := ⟨kept, fit, rfl, after⟩
  rw [FirstNode.write, first.array, ← has]
  rw [← has] at ran
  by_cases array : e'.array.isSome = true
  · rw [if_neg (by simp [array])]
    apply refines_from admits cfg outside s { s with heap := heap } _ _ _ _ (frame_heap s heap)
      (write_block_refines admits cfg pos outside { s with heap := heap } back e' _ call shown array admitted inRange
        below)
    rw [writeNode, Prog.run_bind, ran, array, outcome_bind_done, if_pos rfl, same]
  · have bare : e'.array.isSome = false := by simpa using array
    rw [if_pos bare]
    apply refuse_refines admits cfg outside s _ _ heap (e' :: back) _ _ _ shown
    rw [writeNode, Prog.run_bind, ran, bare, outcome_bind_done, if_neg Bool.false_ne_true, Prog.run_pure]

theorem read_out_refines (count : Nat) (call : ReadCall) (b : Nat) (bytes : Nat → UInt8) (stored : Quantum)
    (shows' : Shows admits cfg.abi outside s (e :: back) ⟨s.size, some node⟩) (slot : e.slot pos.sPos = some b)
    (view : node.quanta pos.sPos = some stored) (found : s.heap.cell b = some (.block s.quantum.toNat bytes))
    (shown : ∀ j, Shown admits (stored j) (bytes j)) (inRange : pos.inRange) (below : pos.Below s.quantum s.qset) :
    Refines admits cfg.abi outside s
      (readOut cfg s.quantum s.qset pos (clampToQuantum cfg.abi s.quantum pos.qPos count) call e.node)
      (node.read cfg.abi s.quantum pos count call, ⟨s.size, some node⟩) := by
  have entry := focus_entry outside s [] back e shows'.device
  have has := slot_has_array e pos.sPos (by simp [slot])
  have reads := run_entry_slot .inside s e _ pos.sPos entry has inRange.1 below.slot
  have covered := covers_clamped cfg.abi s.quantum s.qset pos.qPos count shows'.device.geometry inRange.2 below.byte
  simp only [FirstNode.read, view]
  generalize clampToQuantum cfg.abi s.quantum pos.qPos count = n at covered ⊢
  have copies := run_copy_to_user s b s.quantum.toNat bytes pos.qPos n call.fault found
  rw [if_pos covered] at copies
  have same := shown_slice admits stored bytes pos.qPos.toNat (copied n call.fault) shown
  have ran : (readOut cfg s.quantum s.qset pos n call e.node).run s =
      if copyFails n call.fault then
        .done ⟨-efault, call.fPos, slice bytes pos.qPos.toNat (copied n call.fault)⟩ s
      else .done ⟨cfg.abi.long n, int64 (call.fPos + n), slice bytes pos.qPos.toNat (copied n call.fault)⟩ s := by
    simp only [readOut, Prog.run_bind, reads, outcome_bind_done, slot, deref, Prog.run_pure, copies]
    split <;> rfl
  by_cases fails : copyFails n call.fault = true
  · rw [if_pos fails] at ran ⊢
    exact ⟨_, s, e :: back, ran, shows', frame_refl s, ⟨rfl, rfl, same⟩⟩
  · rw [if_neg fails] at ran ⊢
    exact ⟨_, s, e :: back, ran, shows', frame_refl s, ⟨rfl, rfl, same⟩⟩

theorem read_node_refines (count : Nat) (call : ReadCall)
    (shows' : Shows admits cfg.abi outside s (e :: back) ⟨s.size, some node⟩) (inRange : pos.inRange)
    (below : pos.Below s.quantum s.qset) :
    Refines admits cfg.abi outside s (readNode cfg s.quantum s.qset pos count call e.node)
      (node.read cfg.abi s.quantum pos count call, ⟨s.size, some node⟩) := by
  have first : NodeShows admits s.heap s.quantum s.qset e node := shows'.first
  have entry := focus_entry outside s [] back e shows'.device
  have look := run_read_data .inside s e.node _ _ entry.node
  have there := first.quanta pos.sPos inRange.1 below.slot
  have filled := quanta_slot admits s.heap s.quantum s.qset e node pos.sPos first inRange.1 below.slot
  by_cases slot : (e.slot pos.sPos).isSome = true
  · have has := slot_has_array e pos.sPos slot
    have reads := run_entry_slot .inside s e _ pos.sPos entry has inRange.1 below.slot
    obtain ⟨b, slot'⟩ := Option.isSome_iff_exists.mp slot
    obtain ⟨stored, view⟩ := Option.isSome_iff_exists.mp (filled.trans slot)
    have data : e.data.isNone = false := by
      obtain ⟨pair, array⟩ := Option.isSome_iff_exists.mp has
      simp [Entry.data, array]
    rw [slot', view] at there
    cases there with
    | held _ bytes _ found shown =>
        apply refines_from admits cfg outside s s _ _ _ _ (frame_refl s)
          (read_out_refines admits cfg pos outside s back e node count call b bytes stored shows' slot' view found shown
            inRange below)
        rw [readNode, Prog.run_bind, look, outcome_bind_done, data, if_neg Bool.false_ne_true, Prog.run_bind, reads,
          outcome_bind_done, slot']
        rfl
  · have none' : node.quanta pos.sPos = none := by
      rw [← Option.not_isSome_iff_eq_none, filled]
      exact slot
    simp only [FirstNode.read, none']
    apply refuse_refines admits cfg outside s _ _ s.heap (e :: back) _ _ _ shows'
    rw [readNode, Prog.run_bind, look, outcome_bind_done]
    cases array : e.array with
    | none => simp [Entry.data, array]
    | some pair =>
        have has : e.array.isSome = true := by simp [array]
        have reads := run_entry_slot .inside s e _ pos.sPos entry has inRange.1 below.slot
        rw [Option.not_isSome_iff_eq_none.mp slot] at reads
        simp [Entry.data, array, reads]

end Body

section Call

variable (admits : UInt8 → Prop) (cfg : ScullConfig) (outside : Nat → Option Cell) (s : ScullState)
  (chain : List Entry) (c : Contents)

theorem reached_shows (pos : Position) (shows' : Shows admits cfg.abi outside s chain c) :
    (if 0 < pos.item then none else headOf chain) = none ∧ c.reached pos = none ∨
      ∃ e back node, chain = e :: back ∧ c.first = some node ∧ c.reached pos = some node ∧
        (if 0 < pos.item then none else headOf chain) = some e.node := by
  by_cases far : 0 < pos.item
  · exact .inl ⟨if_pos far, if_pos far⟩
  · have first := shows'.first
    simp only [Contents.reached, if_neg far]
    cases chain with
    | nil =>
        cases stored : c.first with
        | none => exact .inl ⟨rfl, rfl⟩
        | some node => simp [stored, FirstShows] at first
    | cons e back =>
        cases stored : c.first with
        | none => simp [stored, FirstShows] at first
        | some node => exact .inr ⟨e, back, node, rfl, rfl, rfl, rfl⟩

-- What a call does with the node the walk ends at, in the memory and in the contents.
theorem found_refines (pos : Position) (body : ScullProg ScullReply) (found : Option Nat → ScullProg ScullReply)
    (retval fPos : Int) (result : FirstNode → Answer × Contents) (shows' : Shows admits cfg.abi outside s chain c)
    (ran : body.run s = (found (if 0 < pos.item then none else headOf chain)).run s)
    (missed : found none = pure ⟨retval, fPos, []⟩)
    (reaches : ∀ e back node, c = ⟨s.size, some node⟩ →
      Shows admits cfg.abi outside s (e :: back) ⟨s.size, some node⟩ →
      Refines admits cfg.abi outside s (found (some e.node)) (result node)) :
    Refines admits cfg.abi outside s body
      (match c.reached pos with
        | none => (⟨retval, fPos, []⟩, c)
        | some node => result node) := by
  rcases reached_shows admits cfg outside s chain c pos shows' with
    ⟨none', unreached⟩ | ⟨e, back, node, rfl, first, hit, head⟩
  · rw [unreached]
    rw [none', missed] at ran
    exact refuse_refines admits cfg outside s _ _ s.heap chain c _ ran shows'
  · rw [hit]
    rw [head] at ran
    obtain ⟨size, first'⟩ := c
    obtain rfl : s.size = size := shows'.size
    obtain rfl : first' = some node := first
    exact refines_from admits cfg outside s s _ _ _ ran (frame_refl s) (reaches e back node rfl shows')

theorem write_body_refines (call : WriteCall) (shows' : Shows admits cfg.abi outside s chain c)
    (admitted : ∀ bytes, call.blockMemory = some bytes → ∀ j, admits (bytes j)) (low : 0 ≤ call.fPos)
    (high : call.fPos < 2 ^ 31) :
    Refines admits cfg.abi outside s (writeBody cfg call s.quantum s.qset)
      (match c.reached (position cfg.abi s.quantum s.qset call.fPos) with
        | none => (⟨-einval, call.fPos, []⟩, c)
        | some node => node.write cfg.abi s.quantum (position cfg.abi s.quantum s.qset call.fPos) call c.size) := by
  have geometry := shows'.device.geometry
  have locates := run_locate cfg.abi s.quantum s.qset call.fPos s geometry
  have inRange := position_in_range cfg.abi s.quantum s.qset call.fPos geometry low high
  have below := position_below cfg.abi s.quantum s.qset call.fPos geometry
  generalize position cfg.abi s.quantum s.qset call.fPos = pos at locates inRange below ⊢
  have follows := run_scull_follow outside pos.item s chain shows'.device
  apply found_refines admits cfg outside s chain c pos _ (writeFound cfg s.quantum s.qset pos call) _ _ _ shows'
  · rw [writeBody, Prog.run_bind, locates, outcome_bind_done, Prog.run_bind, follows, outcome_bind_done]
  · rfl
  · intro e back node same shown
    rw [same]
    exact write_node_refines admits cfg pos outside s back e node call shown admitted inRange below

theorem read_body_refines (call : ReadCall) (shows' : Shows admits cfg.abi outside s chain c) (low : 0 ≤ call.fPos)
    (high : call.fPos < 2 ^ 31) :
    Refines admits cfg.abi outside s (readBody cfg call s.quantum s.qset)
      (if cfg.abi.mixed call.fPos ≥ c.size then ⟨0, call.fPos, []⟩
        else match c.reached (position cfg.abi s.quantum s.qset call.fPos) with
          | none => ⟨0, call.fPos, []⟩
          | some node => node.read cfg.abi s.quantum (position cfg.abi s.quantum s.qset call.fPos)
              (clamped cfg.abi call.fPos call.count c.size) call, c) := by
  have geometry := shows'.device.geometry
  have locates := run_locate cfg.abi s.quantum s.qset call.fPos s geometry
  have inRange := position_in_range cfg.abi s.quantum s.qset call.fPos geometry low high
  have below := position_below cfg.abi s.quantum s.qset call.fPos geometry
  generalize position cfg.abi s.quantum s.qset call.fPos = pos at locates inRange below ⊢
  have follows := run_scull_follow outside pos.item s chain shows'.device
  rw [← shows'.size]
  by_cases past : cfg.abi.mixed call.fPos ≥ s.size
  · rw [if_pos past]
    apply refuse_refines admits cfg outside s _ _ s.heap chain c _ _ shows'
    rw [readBody, Prog.run_bind, Prog.run_look, outcome_bind_done, if_pos past, Prog.run_pure]
  · rw [if_neg past]
    have refines := found_refines admits cfg outside s chain c pos (readBody cfg call s.quantum s.qset)
      (readFound cfg s.quantum s.qset pos (clamped cfg.abi call.fPos call.count s.size) call) 0 call.fPos
      (fun node => (node.read cfg.abi s.quantum pos (clamped cfg.abi call.fPos call.count s.size) call, c)) shows'
      (by rw [readBody, Prog.run_bind, Prog.run_look, outcome_bind_done, if_neg past, Prog.run_bind, run_clamp,
        outcome_bind_done, Prog.run_bind, locates, outcome_bind_done, Prog.run_bind, follows, outcome_bind_done])
      rfl
      (by
        intro e back node same shown
        rw [same]
        exact read_node_refines admits cfg pos outside s back e node _ call shown inRange below)
    cases reached : c.reached pos with
    | none => simpa only [reached] using refines
    | some node => simpa only [reached] using refines

theorem locked_refines (interrupted : Bool) (fPos : Int) (body : ScullProg ScullReply) (result : Answer × Contents)
    (idle : s.sem = 1) (shows' : Shows admits cfg.abi outside s chain c)
    (refines : Refines admits cfg.abi outside s.held body result) :
    Refines admits cfg.abi outside s (locked interrupted fPos body)
      (if interrupted then (⟨-erestartsys, fPos, []⟩, c) else result) := by
  cases interrupted with
  | true => exact refuse_refines admits cfg outside s _ _ s.heap chain c _ rfl shows'
  | false =>
      obtain ⟨reply, t, chain', ran, kept, frame, answers⟩ := refines
      rw [if_neg Bool.false_ne_true]
      refine ⟨reply, t.upped, chain', ?_, ?_, ?_, answers⟩
      · rw [run_locked fPos body s idle, ran, outcome_bind_done]
      · exact ⟨device_sem outside t chain' _ kept.device, kept.fit, kept.size, kept.first⟩
      · refine ⟨frame.data, frame.quantum, frame.qset, ?_, frame.freed⟩
        rw [ScullState.upped, idle, frame.sem]
        rfl

end Call

-- The memory a transfer finds where it allocates a quantum.
def Transfer.Admits (admits : UInt8 → Prop) : Transfer → Prop
  | .read _ => True
  | .write call => ∀ bytes, call.blockMemory = some bytes → ∀ j, admits (bytes j)

def Contents.after (abi : Abi) (quantum qset : Int) (c : Contents) (transfer : Transfer) : Contents :=
  (c.transfer abi quantum qset transfer).2

def Contents.answers (abi : Abi) (quantum qset : Int) : Contents → List Transfer → List Answer
  | _, [] => []
  | c, transfer :: rest =>
      (c.transfer abi quantum qset transfer).1 :: (c.after abi quantum qset transfer).answers abi quantum qset rest

section Run

variable (admits : UInt8 → Prop) (cfg : ScullConfig) (outside : Nat → Option Cell)

theorem transfer_refines (s : ScullState) (chain : List Entry) (c : Contents) (transfer : Transfer) (idle : s.sem = 1)
    (shows' : Shows admits cfg.abi outside s chain c) (inRange : transfer.InRange) (admitted : transfer.Admits admits) :
    Refines admits cfg.abi outside s (transfer.prog cfg) (c.transfer cfg.abi s.quantum s.qset transfer) := by
  have inside : Shows admits cfg.abi outside s.held chain c :=
    ⟨device_sem outside s chain 0 shows'.device, shows'.fit, shows'.size, shows'.first⟩
  cases transfer with
  | read call =>
      have body := read_body_refines admits cfg outside s.held chain c call inside inRange.1 inRange.2
      have locks := locked_refines admits cfg outside s chain c call.interrupted call.fPos _ _ idle shows' body
      have result : c.transfer cfg.abi s.quantum s.qset (.read call) =
          if call.interrupted then (⟨-erestartsys, call.fPos, []⟩, c)
          else (if cfg.abi.mixed call.fPos ≥ c.size then ⟨0, call.fPos, []⟩
            else match c.reached (position cfg.abi s.quantum s.qset call.fPos) with
              | none => ⟨0, call.fPos, []⟩
              | some node => node.read cfg.abi s.quantum (position cfg.abi s.quantum s.qset call.fPos)
                  (clamped cfg.abi call.fPos call.count c.size) call, c) := by
        simp only [Contents.transfer, Contents.read]
        split <;> rfl
      rw [result]
      exact refines_from admits cfg outside s s _ _ _ rfl (frame_refl s) locks
  | write call =>
      have body := write_body_refines admits cfg outside s.held chain c call inside admitted inRange.1 inRange.2
      have locks := locked_refines admits cfg outside s chain c call.interrupted call.fPos _ _ idle shows' body
      exact refines_from admits cfg outside s s _ _ _ rfl (frame_refl s) locks

theorem transfers_refine (transfers : List Transfer) (s : ScullState) (chain : List Entry) (c : Contents)
    (idle : s.sem = 1) (shows' : Shows admits cfg.abi outside s chain c)
    (inRange : ∀ transfer ∈ transfers, transfer.InRange) (admitted : ∀ transfer ∈ transfers, transfer.Admits admits) :
    ∃ replies t, (Prog.series (Transfer.prog cfg) transfers).run s = .done replies t ∧
      List.Forall₂ (AnswerShows admits) (c.answers cfg.abi s.quantum s.qset transfers) replies := by
  induction transfers generalizing s chain c with
  | nil => exact ⟨[], s, rfl, .nil⟩
  | cons transfer rest ih =>
      obtain ⟨reply, t, chain', ran, kept, frame, answers⟩ := transfer_refines admits cfg outside s chain c transfer idle
        shows' (inRange transfer (by simp)) (admitted transfer (by simp))
      obtain ⟨replies, u, ran', answers'⟩ := ih t chain' _ (frame.sem.trans idle) kept
        (fun later member => inRange later (by simp [member])) fun later member => admitted later (by simp [member])
      rw [frame.quantum, frame.qset] at answers'
      refine ⟨reply :: replies, u, ?_, .cons answers answers'⟩
      rw [Prog.run_series_cons, ran, outcome_bind_done, ran', outcome_bind_done]

end Run

-- A device as it stands, with every byte of its quanta known.
def quantumAt (heap : Heap Cell) : Option Nat → Option Quantum
  | none => none
  | some b => match heap.cell b with
      | some (.block _ bytes) => some fun j => some (bytes j)
      | _ => none

def contentsOf (s : ScullState) : List Entry → Contents
  | [] => ⟨s.size, none⟩
  | e :: _ => ⟨s.size, some ⟨e.array.isSome, fun index => quantumAt s.heap (e.slot index)⟩⟩

theorem quantum_at_shows (admits : UInt8 → Prop) (heap : Heap Cell) (size : Nat) (slot : Option Nat)
    (live : ∀ b, slot = some b → ∃ bytes, heap.cell b = some (.block size bytes)) :
    QuantumShows admits heap size slot (quantumAt heap slot) := by
  cases slot with
  | none => exact .absent
  | some b =>
      obtain ⟨bytes, found⟩ := live b rfl
      have known : quantumAt heap (some b) = some fun j => some (bytes j) := by simp only [quantumAt, found]
      rw [known]
      exact .held b bytes _ found fun _ => rfl

theorem contents_shown (admits : UInt8 → Prop) (abi : Abi) (outside : Nat → Option Cell) (s : ScullState)
    (chain : List Entry) (holds : DeviceHolds outside s chain) (fit : FirstArrayFits abi s.qset chain) :
    Shows admits abi outside s chain (contentsOf s chain) := by
  cases chain with
  | nil => exact ⟨holds, fit, rfl, trivial⟩
  | cons e back =>
      have entry := focus_entry outside s [] back e holds
      refine ⟨holds, fit, rfl, ⟨rfl, fun index _ _ => ?_⟩⟩
      apply quantum_at_shows
      exact fun b slot => entry.blocks b (slot_mem_blocks e index b slot)

end OneDriver.Scull
