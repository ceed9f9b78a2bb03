import OneDriver.Scull.Cells

set_option autoImplicit false

namespace OneDriver.Scull

def trimSlots (node : Nat) (qset : Int) : Nat → Int → ScullProg Unit
  | 0, _ => pure ()
  | left + 1, i => do
      let slot ← slotOf .trim (sameQset qset) node i
      kfree .trim slot
      trimSlots node qset left (i + 1)

def trimArray (qset : Int) (node : Nat) : ScullProg Unit := do
  let data ← readData .trim node
  if data.isSome then do
    trimSlots node qset qset.toNat 0
    let data ← readData .trim node
    kfree .trim data
    writeData .trim node none
  else pure ()

-- A walk over more nodes than were ever allocated has gone round a cycle.
def trimChain (qset : Int) : Nat → Option Nat → ScullProg Unit
  | _, none => pure ()
  | 0, some _ => .crash .endlessWalk
  | fuel + 1, some dptr => do
      trimArray qset dptr
      let next ← readNext .trim dptr
      kfree .trim (some dptr)
      trimChain qset fuel next

def scullTrim (cfg : ScullConfig) : ScullProg Int := do
  let qset ← Prog.look .trim ScullState.qset
  let start ← Prog.look .trim fun s => (s.data, s.heap.fresh)
  trimChain qset start.2 start.1
  Prog.modify .trim fun s => { s with size := 0 }
  Prog.modify .trim fun s => { s with quantum := cfg.scullQuantum }
  Prog.modify .trim fun s => { s with qset := cfg.scullQset }
  Prog.modify .trimmed fun s => { s with data := none }
  pure 0

-- O_WRONLY under O_ACCMODE.
def writeOnly (flags : Nat) : Bool := flags &&& 3 = 1

def scullOpen (cfg : ScullConfig) (flags : Nat) : ScullProg Int :=
  if writeOnly flags then do
    let _ ← scullTrim cfg
    pure 0
  else pure 0

def scullRelease : ScullProg Int := pure 0

-- `i` is 0 throughout: the loop of scull_follow never counts.
def followFrom (i item : Int) : Nat → Option Nat → ScullProg (Option Nat)
  | _, none => pure none
  | 0, some dptr => if i < item then .crash .endlessWalk else pure (some dptr)
  | fuel + 1, some dptr =>
      if i < item then do
        let next ← readNext .inside dptr
        followFrom i item fuel next
      else pure (some dptr)

def scullFollow (item : Int) : ScullProg (Option Nat) := do
  let start ← Prog.look .inside fun s => (s.data, s.heap.fresh)
  followFrom 0 item start.2 start.1

structure Position where
  item : Int
  sPos : Int
  qPos : Int
deriving DecidableEq, Repr

def locate (abi : Abi) (quantum qset fPos : Int) : ScullProg Position := do
  let itemsize := int32 (quantum * qset)
  let item ← cdiv .divideByZero (abi.long fPos) itemsize
  let rest ← cmod .divideByZero (abi.long fPos) itemsize
  let sPos ← cdiv .divideByZero (int32 rest) quantum
  let qPos ← cmod .divideByZero (int32 rest) quantum
  pure ⟨int32 item, sPos, qPos⟩

-- A call as the user and the kernel around it make it: whether a signal ends the
-- wait for the semaphore, where the user's buffer faults, and for a write what each
-- kmalloc returns, with the contents of the fresh memory.
structure ReadCall where
  count : Nat
  fPos : Int
  interrupted : Bool
  fault : Option Nat
deriving DecidableEq, Repr

structure WriteCall where
  data : List UInt8
  fPos : Int
  interrupted : Bool
  fault : Option Nat
  arrayMemory : Option (Nat → Option Nat)
  blockMemory : Option (Nat → UInt8)

structure ScullReply where
  retval : Int
  fPos : Int
  bytes : List UInt8
deriving DecidableEq, Repr

def locked (interrupted : Bool) (fPos : Int) (body : ScullProg ScullReply) : ScullProg ScullReply :=
  if interrupted then pure ⟨-erestartsys, fPos, []⟩
  else do
    Prog.await .down (fun s => decide (0 < s.sem)) fun s => { s with sem := s.sem - 1 }
    let reply ← body
    Prog.modify .up fun s => { s with sem := s.sem + 1 }
    pure reply

def sampled (body : Int → Int → ScullProg ScullReply) : ScullProg ScullReply := do
  let quantum ← Prog.look .geometry ScullState.quantum
  let qset ← Prog.look .geometry ScullState.qset
  body quantum qset

def clampToQuantum (abi : Abi) (quantum qPos : Int) (count : Nat) : Nat :=
  min count (abi.ulong (int32 (quantum - qPos)))

def clampToSize (abi : Abi) (fPos : Int) (count : Nat) : ScullProg Nat := do
  let size ← Prog.look .inside ScullState.size
  if abi.mixed (fPos + count) > size then do
    let size ← Prog.look .inside ScullState.size
    pure (abi.ulong (size - fPos))
  else pure count

def readOut (cfg : ScullConfig) (quantum qset : Int) (pos : Position) (count : Nat) (call : ReadCall) (dptr : Nat) :
    ScullProg ScullReply := do
  let slot ← slotOf .inside (sameGeometry quantum qset) dptr pos.sPos
  let block ← deref slot
  let bytes ← copyToUser block pos.qPos count call.fault
  if copyFails count call.fault then pure ⟨-efault, call.fPos, bytes⟩
  else pure ⟨cfg.abi.long count, int64 (call.fPos + count), bytes⟩

def readNode (cfg : ScullConfig) (quantum qset : Int) (pos : Position) (count : Nat) (call : ReadCall) (dptr : Nat) :
    ScullProg ScullReply := do
  let data ← readData .inside dptr
  if data.isNone then pure ⟨0, call.fPos, []⟩
  else do
    let slot ← slotOf .inside (sameGeometry quantum qset) dptr pos.sPos
    if slot.isNone then pure ⟨0, call.fPos, []⟩
    else readOut cfg quantum qset pos (clampToQuantum cfg.abi quantum pos.qPos count) call dptr

def readFound (cfg : ScullConfig) (quantum qset : Int) (pos : Position) (count : Nat) (call : ReadCall) :
    Option Nat → ScullProg ScullReply
  | none => pure ⟨0, call.fPos, []⟩
  | some dptr => readNode cfg quantum qset pos count call dptr

def readBody (cfg : ScullConfig) (call : ReadCall) (quantum qset : Int) : ScullProg ScullReply := do
  let size ← Prog.look .inside ScullState.size
  if cfg.abi.mixed call.fPos ≥ size then pure ⟨0, call.fPos, []⟩
  else do
    let count ← clampToSize cfg.abi call.fPos call.count
    let pos ← locate cfg.abi quantum qset call.fPos
    let dptr ← scullFollow pos.item
    readFound cfg quantum qset pos count call dptr

def scullRead (cfg : ScullConfig) (call : ReadCall) : ScullProg ScullReply :=
  sampled fun quantum qset => locked call.interrupted call.fPos (readBody cfg call quantum qset)

def sizeofPtr (abi : Abi) : Int := abi.pointerSize

-- kmalloc(qset * sizeof(char *)): the product is a size_t.
def arraySlots (abi : Abi) (qset : Int) : Nat := abi.ulong (qset * sizeofPtr abi) / abi.pointerSize

-- Whether dptr has a data array once this is done.
def ensureArray (cfg : ScullConfig) (quantum qset : Int) (call : WriteCall) (dptr : Nat) : ScullProg Bool := do
  let data ← readData .inside dptr
  if data.isSome then pure true
  else match call.arrayMemory with
    | none => do
        writeData .inside dptr none
        pure false
    | some memory => do
        let array ← kmalloc .inside (.array quantum qset ((List.range (arraySlots cfg.abi qset)).map memory))
        writeData .inside dptr (some array)
        clearArray dptr
        pure true

def ensureBlock (cfg : ScullConfig) (quantum qset : Int) (pos : Position) (call : WriteCall) (dptr : Nat) :
    ScullProg Bool := do
  let slot ← slotOf .inside (sameGeometry quantum qset) dptr pos.sPos
  if slot.isSome then pure true
  else match call.blockMemory with
    | none => do
        setSlotOf .inside (sameGeometry quantum qset) dptr pos.sPos none
        pure false
    | some memory => do
        let block ← kmalloc .inside (.block (cfg.abi.ulong quantum) memory)
        setSlotOf .inside (sameGeometry quantum qset) dptr pos.sPos (some block)
        pure true

def growSize (abi : Abi) (fPos : Int) : ScullProg Unit := do
  let size ← Prog.look .inside ScullState.size
  if size < abi.mixed fPos then Prog.modify .inside fun s => { s with size := abi.ulong fPos }
  else pure ()

def copyIn (cfg : ScullConfig) (quantum qset : Int) (pos : Position) (call : WriteCall) (dptr : Nat) :
    ScullProg ScullReply := do
  let count := clampToQuantum cfg.abi quantum pos.qPos call.data.length
  let slot ← slotOf .inside (sameGeometry quantum qset) dptr pos.sPos
  let block ← deref slot
  copyFromUser block pos.qPos (call.data.take count) call.fault
  if copyFails count call.fault then pure ⟨-efault, call.fPos, []⟩
  else do
    growSize cfg.abi (int64 (call.fPos + count))
    pure ⟨int32 count, int64 (call.fPos + count), []⟩

def writeNode (cfg : ScullConfig) (quantum qset : Int) (pos : Position) (call : WriteCall) (dptr : Nat) :
    ScullProg ScullReply := do
  let hasArray ← ensureArray cfg quantum qset call dptr
  if hasArray then do
    let hasBlock ← ensureBlock cfg quantum qset pos call dptr
    if hasBlock then copyIn cfg quantum qset pos call dptr
    else pure ⟨-einval, call.fPos, []⟩
  else pure ⟨-einval, call.fPos, []⟩

def writeFound (cfg : ScullConfig) (quantum qset : Int) (pos : Position) (call : WriteCall) :
    Option Nat → ScullProg ScullReply
  | none => pure ⟨-einval, call.fPos, []⟩
  | some dptr => writeNode cfg quantum qset pos call dptr

def writeBody (cfg : ScullConfig) (call : WriteCall) (quantum qset : Int) : ScullProg ScullReply := do
  let pos ← locate cfg.abi quantum qset call.fPos
  let dptr ← scullFollow pos.item
  writeFound cfg quantum qset pos call dptr

def scullWrite (cfg : ScullConfig) (call : WriteCall) : ScullProg ScullReply :=
  sampled fun quantum qset => locked call.interrupted call.fPos (writeBody cfg call quantum qset)

inductive ScullCall where
  | opening (flags : Nat)
  | read (call : ReadCall)
  | write (call : WriteCall)
  | release

def ScullCall.prog (cfg : ScullConfig) : ScullCall → ScullProg ScullReply
  | .opening flags => do
      let r ← scullOpen cfg flags
      pure ⟨r, 0, []⟩
  | .read call => scullRead cfg call
  | .write call => scullWrite cfg call
  | .release => do
      let r ← scullRelease
      pure ⟨r, 0, []⟩

def ScullCall.trims : ScullCall → Bool
  | .opening flags => writeOnly flags
  | _ => false

end OneDriver.Scull
