import OneDriver.CInt
import OneDriver.Memory
import OneDriver.UserCopy

set_option autoImplicit false

namespace OneDriver.Echo

def bufferSize : Nat := 255

structure EchoState where
  msg : Nat → UInt8
  len : Int

-- malloc(..., M_ZERO) in echo_loader.
def echoLoaded : EchoState := ⟨fun _ => 0, 0⟩

inductive EchoLabel where
  | msg
  | len
deriving DecidableEq, Repr

-- A store outside msg[BUFFERSIZE + 1].
inductive EchoFault where
  | outOfBounds
deriving DecidableEq, Repr

abbrev EchoProg := Prog EchoLabel EchoState EchoFault

-- What the caller hands to write(2), uio_resid being the length of `data`, and
-- where the data cannot be read: uio_offset is then advanced over the bytes of the
-- segments before the fault, after which up to `stray` more reach the message.
structure EchoRequest where
  uioOffset : Int
  data : List UInt8
  fault : Option Nat
  stray : Nat
deriving DecidableEq, Repr

structure EchoReply where
  error : Int
  uioOffset : Int
  uioResid : Nat
deriving DecidableEq, Repr

def storeMsg (base : Int) (bytes : List UInt8) : EchoProg Unit :=
  Prog.access .msg fun s =>
    if 0 ≤ base ∧ base + bytes.length ≤ bufferSize + 1 then
      .ok ((), { s with msg := overlay s.msg base.toNat bytes })
    else .error .outOfBounds

def moveable (amt : Nat) (request : EchoRequest) : Nat := min amt request.data.length

def moved (amt : Nat) (request : EchoRequest) : Nat := copied (moveable amt request) request.fault

-- uiomove(9) towards the kernel: the error, and how far uio_offset moves.
def uiomove (base : Int) (amt : Nat) (request : EchoRequest) : EchoProg (Int × Nat) := do
  let k := moved amt request
  storeMsg base ((request.data.take (moveable amt request)).take (k + request.stray))
  pure (if copyFails (moveable amt request) request.fault then efault else 0, k)

def resetLen (uioOffset : Int) : EchoProg Unit :=
  if uioOffset = 0 then Prog.modify .len fun s => { s with len := 0 } else pure ()

-- "Now we need to null terminate and record the length."
def recordLen (uioOffset : Int) : EchoProg Int := do
  Prog.modify .len fun s => { s with len := int32 uioOffset }
  let len ← Prog.look .len EchoState.len
  storeMsg len [0]
  pure uioOffset

def echoWrite (abi : Abi) (request : EchoRequest) : EchoProg EchoReply := do
  let len ← Prog.look .len EchoState.len
  if request.uioOffset ≠ 0 ∧ request.uioOffset ≠ len then
    pure ⟨einval, request.uioOffset, request.data.length⟩
  else do
    resetLen request.uioOffset
    let len ← Prog.look .len EchoState.len
    let move ← uiomove request.uioOffset (abi.ulong (min (request.data.length : Int) (bufferSize - len))) request
    let uioOffset ← recordLen (int64 (request.uioOffset + move.2))
    pure ⟨move.1, uioOffset, request.data.length - move.2⟩

end OneDriver.Echo
