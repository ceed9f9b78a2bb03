import OneDriver.Scull.Device
import Mathlib.Data.List.ReduceOption

set_option autoImplicit false

namespace OneDriver.Scull

-- The list of qsets as a value: the address of each node, and of its data array
-- with the slots the array holds.
structure Entry where
  node : Nat
  array : Option (Nat × List (Option Nat))
deriving DecidableEq, Repr

def Entry.data (e : Entry) : Option Nat := e.array.map Prod.fst

def Entry.blocks (e : Entry) : List Nat :=
  match e.array with
  | none => []
  | some (_, slots) => slots.reduceOption

-- In the order in which scull_trim frees them.
def Entry.footprint (e : Entry) : List Nat := e.blocks ++ e.data.toList ++ [e.node]

def footprint (chain : List Entry) : List Nat := chain.flatMap Entry.footprint

def headOf : List Entry → Option Nat
  | [] => none
  | e :: _ => some e.node

structure EntryHolds (heap : Heap Cell) (quantum qset : Int) (e : Entry) (next : Option Nat) : Prop where
  node : heap.cell e.node = some (.node e.data next)
  array : ∀ a slots, e.array = some (a, slots) → heap.cell a = some (.array quantum qset slots) ∧ (slots.length : Int) = qset
  blocks : ∀ b ∈ e.blocks, ∃ bytes, heap.cell b = some (.block quantum.toNat bytes)

def ChainHolds (heap : Heap Cell) (quantum qset : Int) : List Entry → Prop
  | [] => True
  | e :: rest => EntryHolds heap quantum qset e (headOf rest) ∧ ChainHolds heap quantum qset rest

structure Geometry (quantum qset : Int) : Prop where
  quantumPos : 0 < quantum
  qsetPos : 0 < qset
  product : quantum * qset < 2 ^ 31

-- The device owns exactly the cells of its chain, each once, and `outside` is what
-- the heap holds besides.
structure DeviceHolds (outside : Nat → Option Cell) (s : ScullState) (chain : List Entry) : Prop where
  geometry : Geometry s.quantum s.qset
  head : s.data = headOf chain
  linked : ChainHolds s.heap s.quantum s.qset chain
  owns : Owns outside s.heap (footprint chain)

structure WellFormed (cfg : ScullConfig) (outside : Nat → Option Cell) (s : ScullState) (chain : List Entry) : Prop where
  device : DeviceHolds outside s chain
  params : Geometry cfg.scullQuantum cfg.scullQset
  idle : s.sem = 1

@[simp] theorem footprint_nil : footprint [] = [] := rfl

@[simp] theorem footprint_cons (e : Entry) (rest : List Entry) :
    footprint (e :: rest) = e.footprint ++ footprint rest := List.flatMap_cons

theorem footprint_append (front back : List Entry) : footprint (front ++ back) = footprint front ++ footprint back :=
  List.flatMap_append

theorem node_mem_footprint (e : Entry) : e.node ∈ e.footprint := by
  simp [Entry.footprint]

theorem array_mem_footprint (e : Entry) (a : Nat) (slots : List (Option Nat)) (has : e.array = some (a, slots)) :
    a ∈ e.footprint := by
  simp [Entry.footprint, Entry.data, has]

theorem block_mem_footprint (e : Entry) (b : Nat) (member : b ∈ e.blocks) : b ∈ e.footprint := by
  simp [Entry.footprint, member]

theorem entry_distinct (e : Entry) (a : Nat) (slots : List (Option Nat)) (nodup : e.footprint.Nodup)
    (has : e.array = some (a, slots)) : e.node ≠ a ∧ ∀ b ∈ e.blocks, b ≠ a ∧ b ≠ e.node := by
  simp only [Entry.footprint, Entry.data, has, Option.map_some, Option.toList_some] at nodup
  obtain ⟨first, -, node⟩ := List.nodup_append.mp nodup
  obtain ⟨-, -, array⟩ := List.nodup_append.mp first
  refine ⟨fun same => node a (by simp) e.node (by simp) same.symm, fun b member => ⟨?_, ?_⟩⟩
  · exact array b member a (by simp)
  · exact node b (by simp [member]) e.node (by simp)

theorem chain_length_le (chain : List Entry) : chain.length ≤ (footprint chain).length := by
  induction chain with
  | nil => exact Nat.le_refl 0
  | cons e rest ih =>
      simp only [footprint_cons, List.length_append, List.length_cons, Entry.footprint, List.length_nil]
      omega

theorem entry_frame (heap other : Heap Cell) (quantum qset : Int) (e : Entry) (next : Option Nat)
    (holds : EntryHolds heap quantum qset e next) (same : ∀ a ∈ e.footprint, other.cell a = heap.cell a) :
    EntryHolds other quantum qset e next where
  node := (same e.node (node_mem_footprint e)).trans holds.node
  array := fun a slots has => by
    rw [same a (array_mem_footprint e a slots has)]
    exact holds.array a slots has
  blocks := fun b member => by
    rw [same b (block_mem_footprint e b member)]
    exact holds.blocks b member

theorem chain_frame (heap other : Heap Cell) (quantum qset : Int) (chain : List Entry)
    (holds : ChainHolds heap quantum qset chain) (same : ∀ a ∈ footprint chain, other.cell a = heap.cell a) :
    ChainHolds other quantum qset chain := by
  induction chain with
  | nil => trivial
  | cons e rest ih =>
      simp only [footprint_cons, List.mem_append] at same
      exact ⟨entry_frame heap other quantum qset e _ holds.1 fun a member => same a (.inl member),
        ih holds.2 fun a member => same a (.inr member)⟩

theorem head_append (front back : List Entry) (e e' : Entry) (same : e'.node = e.node) :
    headOf (front ++ e' :: back) = headOf (front ++ e :: back) := by
  cases front with
  | nil => simp [headOf, same]
  | cons first rest => rfl

theorem chain_split (heap : Heap Cell) (quantum qset : Int) (front back : List Entry) (e : Entry)
    (holds : ChainHolds heap quantum qset (front ++ e :: back)) : EntryHolds heap quantum qset e (headOf back) := by
  induction front with
  | nil => exact holds.1
  | cons first rest ih => exact ih holds.2

-- One entry is replaced by another at the same node, in a heap that differs from
-- the old one in no cell of the other entries.
theorem chain_replace (heap other : Heap Cell) (quantum qset : Int) (front back : List Entry) (e e' : Entry)
    (holds : ChainHolds heap quantum qset (front ++ e :: back)) (node : e'.node = e.node)
    (same : ∀ a ∈ footprint front ++ footprint back, other.cell a = heap.cell a)
    (replaced : EntryHolds other quantum qset e' (headOf back)) :
    ChainHolds other quantum qset (front ++ e' :: back) := by
  induction front with
  | nil => exact ⟨replaced, chain_frame heap other quantum qset back holds.2 fun a member => same a (by simp [member])⟩
  | cons first rest ih =>
      refine ⟨?_, ih holds.2 fun a member => same a ?_⟩
      · change EntryHolds other quantum qset first (headOf (rest ++ e' :: back))
        rw [head_append rest back e e' node]
        exact entry_frame heap other quantum qset first _ holds.1 fun a member => same a (by simp [member])
      · simp only [footprint_cons, List.mem_append] at member ⊢
        cases member with
        | inl inFront => exact .inl (.inr inFront)
        | inr inBack => exact .inr inBack

end OneDriver.Scull
