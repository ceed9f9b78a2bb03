import OneDriver.CInt
import OneDriver.Heap
import OneDriver.Memory
import OneDriver.UserCopy

set_option autoImplicit false

namespace OneDriver.Scull

-- What kmalloc hands out: a struct scull_qset, a data array or a quantum. An array
-- remembers the quantum and qset it was allocated for.
inductive Cell where
  | node (data next : Option Nat)
  | array (quantum qset : Int) (slots : List (Option Nat))
  | block (size : Nat) (bytes : Nat → UInt8)

-- struct scull_dev, the heap, and every address kfree was given, in order.
structure ScullState where
  data : Option Nat
  quantum : Int
  qset : Int
  size : Nat
  sem : Nat
  heap : Heap Cell
  freed : List Nat

structure ScullConfig where
  abi : Abi
  scullQuantum : Int
  scullQset : Int
deriving DecidableEq, Repr

-- `static struct scull_dev dev`, with init_MUTEX(&dev.sem).
def scullLoaded : ScullState where
  data := none
  quantum := 0
  qset := 0
  size := 0
  sem := 1
  heap := ⟨[]⟩
  freed := []

-- Where a process stands: sampling the geometry, between down and up, or in a trim.
inductive ScullLabel where
  | geometry
  | down
  | inside
  | up
  | trim
  | trimmed
deriving DecidableEq, Repr

inductive ScullFault where
  | divideByZero
  | outOfBounds
  | nullPointer
  | useAfterFree
  | doubleFree
  | wrongGeometry
  | endlessWalk
deriving DecidableEq, Repr

abbrev ScullProg := Prog ScullLabel ScullState ScullFault

def readData (label : ScullLabel) (node : Nat) : ScullProg (Option Nat) :=
  Prog.access label fun s => match s.heap.cell node with
    | some (.node data _) => .ok (data, s)
    | _ => .error .useAfterFree

def readNext (label : ScullLabel) (node : Nat) : ScullProg (Option Nat) :=
  Prog.access label fun s => match s.heap.cell node with
    | some (.node _ next) => .ok (next, s)
    | _ => .error .useAfterFree

def writeData (label : ScullLabel) (node : Nat) (data : Option Nat) : ScullProg Unit :=
  Prog.access label fun s => match s.heap.cell node with
    | some (.node _ next) => .ok ((), { s with heap := s.heap.put node (.node data next) })
    | _ => .error .useAfterFree

def inBounds (index : Int) (slots : List (Option Nat)) : Bool := 0 ≤ index && index < slots.length

def readSlot (label : ScullLabel) (fits : Int → Int → Bool) (array : Nat) (index : Int) : ScullProg (Option Nat) :=
  Prog.access label fun s => match s.heap.cell array with
    | some (.array quantum qset slots) =>
        if fits quantum qset = false then .error .wrongGeometry
        else if inBounds index slots then .ok ((slots[index.toNat]?).join, s)
        else .error .outOfBounds
    | _ => .error .useAfterFree

def writeSlot (label : ScullLabel) (fits : Int → Int → Bool) (array : Nat) (index : Int) (slot : Option Nat) :
    ScullProg Unit :=
  Prog.access label fun s => match s.heap.cell array with
    | some (.array quantum qset slots) =>
        if fits quantum qset = false then .error .wrongGeometry
        else if inBounds index slots then
          .ok ((), { s with heap := s.heap.put array (.array quantum qset (slots.set index.toNat slot)) })
        else .error .outOfBounds
    | _ => .error .useAfterFree

def deref : Option Nat → ScullProg Nat
  | some address => pure address
  | none => .crash .nullPointer

-- `dptr->data[index]`, which loads dptr->data anew each time.
def slotOf (label : ScullLabel) (fits : Int → Int → Bool) (node : Nat) (index : Int) : ScullProg (Option Nat) := do
  let data ← readData label node
  let array ← deref data
  readSlot label fits array index

def setSlotOf (label : ScullLabel) (fits : Int → Int → Bool) (node : Nat) (index : Int) (slot : Option Nat) :
    ScullProg Unit := do
  let data ← readData label node
  let array ← deref data
  writeSlot label fits array index slot

def kmalloc (label : ScullLabel) (cell : Cell) : ScullProg Nat :=
  Prog.access label fun s => .ok (s.heap.fresh, { s with heap := s.heap.alloc cell })

def kfree (label : ScullLabel) : Option Nat → ScullProg Unit
  | none => pure ()
  | some address =>
      Prog.access label fun s => match s.heap.cell address with
        | some _ => .ok ((), { s with heap := s.heap.free address, freed := s.freed ++ [address] })
        | none => .error .doubleFree

-- The accesses below are by a caller that took the array to be of this geometry.
def sameGeometry (quantum qset : Int) : Int → Int → Bool :=
  fun quantum' qset' => quantum' = quantum && qset' = qset

def sameQset (qset : Int) : Int → Int → Bool := fun _ qset' => qset' = qset

def covers (size : Nat) (qPos : Int) (count : Nat) : Bool := count = 0 || (0 ≤ qPos && qPos + count ≤ size)

def copyToUser (block : Nat) (qPos : Int) (count : Nat) (fault : Option Nat) : ScullProg (List UInt8) :=
  Prog.access .inside fun s => match s.heap.cell block with
    | some (.block size bytes) =>
        if covers size qPos count then .ok (slice bytes qPos.toNat (copied count fault), s) else .error .outOfBounds
    | _ => .error .useAfterFree

def copyFromUser (block : Nat) (qPos : Int) (data : List UInt8) (fault : Option Nat) : ScullProg Unit :=
  Prog.access .inside fun s => match s.heap.cell block with
    | some (.block size bytes) =>
        if covers size qPos data.length then
          .ok ((), { s with heap := s.heap.put block (.block size (overlay bytes qPos.toNat (fetched data fault))) })
        else .error .outOfBounds
    | _ => .error .useAfterFree

def clearArray (dptr : Nat) : ScullProg Unit := do
  let data ← readData .inside dptr
  let array ← deref data
  Prog.access .inside fun s => match s.heap.cell array with
    | some (.array quantum qset slots) =>
        .ok ((), { s with heap := s.heap.put array (.array quantum qset (List.replicate slots.length none)) })
    | _ => .error .useAfterFree

section

variable (label : ScullLabel) (s : ScullState)

theorem run_read_data (node : Nat) (data next : Option Nat) (found : s.heap.cell node = some (.node data next)) :
    (readData label node).run s = .done data s := by
  simp [readData, Prog.run_access, found]

theorem run_read_next (node : Nat) (data next : Option Nat) (found : s.heap.cell node = some (.node data next)) :
    (readNext label node).run s = .done next s := by
  simp [readNext, Prog.run_access, found]

theorem run_write_data (node : Nat) (data next fresh : Option Nat)
    (found : s.heap.cell node = some (.node data next)) :
    (writeData label node fresh).run s = .done () { s with heap := s.heap.put node (.node fresh next) } := by
  simp [writeData, Prog.run_access, found]

theorem run_slot_of (fits : Int → Int → Bool) (node array : Nat) (index quantum qset : Int) (next : Option Nat)
    (slots : List (Option Nat)) (found : s.heap.cell node = some (.node (some array) next))
    (stored : s.heap.cell array = some (.array quantum qset slots)) (fit : fits quantum qset = true)
    (within : inBounds index slots = true) :
    (slotOf label fits node index).run s = .done (slots[index.toNat]?).join s := by
  simp [slotOf, run_read_data label s node _ next found, deref, readSlot, Prog.run_access, stored, fit, within]

theorem run_set_slot_of (fits : Int → Int → Bool) (node array : Nat) (index quantum qset : Int)
    (next slot : Option Nat) (slots : List (Option Nat)) (found : s.heap.cell node = some (.node (some array) next))
    (stored : s.heap.cell array = some (.array quantum qset slots)) (fit : fits quantum qset = true)
    (within : inBounds index slots = true) :
    (setSlotOf label fits node index slot).run s =
      .done () { s with heap := s.heap.put array (.array quantum qset (slots.set index.toNat slot)) } := by
  simp [setSlotOf, run_read_data label s node _ next found, deref, writeSlot, Prog.run_access, stored, fit, within]

theorem run_kmalloc (cell : Cell) :
    (kmalloc label cell).run s = .done s.heap.fresh { s with heap := s.heap.alloc cell } := rfl

theorem run_kfree (address : Nat) (live : s.heap.cell address ≠ none) :
    (kfree label (some address)).run s =
      .done () { s with heap := s.heap.free address, freed := s.freed ++ [address] } := by
  obtain ⟨cell, found⟩ := Option.ne_none_iff_exists'.mp live
  simp [kfree, Prog.run_access, found]

theorem run_clear_array (node array : Nat) (quantum qset : Int) (next : Option Nat) (slots : List (Option Nat))
    (found : s.heap.cell node = some (.node (some array) next))
    (stored : s.heap.cell array = some (.array quantum qset slots)) :
    (clearArray node).run s = .done ()
      { s with heap := s.heap.put array (.array quantum qset (List.replicate slots.length none)) } := by
  simp [clearArray, run_read_data .inside s node _ next found, deref, Prog.run_access, stored]

theorem run_copy_to_user (block size : Nat) (bytes : Nat → UInt8) (qPos : Int) (count : Nat) (fault : Option Nat)
    (found : s.heap.cell block = some (.block size bytes)) :
    (copyToUser block qPos count fault).run s =
      if covers size qPos count then .done (slice bytes qPos.toNat (copied count fault)) s
      else .crashed .outOfBounds s := by
  by_cases within : covers size qPos count = true <;> simp [copyToUser, Prog.run_access, found, within]

theorem run_copy_from_user (block size : Nat) (bytes : Nat → UInt8) (qPos : Int) (data : List UInt8)
    (fault : Option Nat) (found : s.heap.cell block = some (.block size bytes)) :
    (copyFromUser block qPos data fault).run s =
      if covers size qPos data.length then
        .done () { s with heap := s.heap.put block (.block size (overlay bytes qPos.toNat (fetched data fault))) }
      else .crashed .outOfBounds s := by
  by_cases within : covers size qPos data.length = true <;> simp [copyFromUser, Prog.run_access, found, within]

theorem run_slot_before (fits : Int → Int → Bool) (node array : Nat) (index quantum qset : Int) (next : Option Nat)
    (slots : List (Option Nat)) (found : s.heap.cell node = some (.node (some array) next))
    (stored : s.heap.cell array = some (.array quantum qset slots)) (fit : fits quantum qset = true)
    (outside : inBounds index slots = false) :
    (slotOf label fits node index).run s = .crashed .outOfBounds s := by
  simp [slotOf, run_read_data label s node _ next found, deref, readSlot, Prog.run_access, stored, fit, outside]

end

end OneDriver.Scull
