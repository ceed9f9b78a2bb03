import OneDriver.Prog
import OneDriver.CInt
import OneDriver.UserCopy
import Mathlib.Logic.Function.Basic
import Mathlib.Data.List.FinRange

set_option autoImplicit false

namespace OneDriver.Keys

-- `number` is an index of key_values, which has six cells.
structure ButtonIrqDesc where
  irq : Int
  pin : Nat
  pinSetting : Nat
  number : Fin 6
deriving DecidableEq, Repr

-- What irqs.h and regs-gpio.h give the driver: numbers of the external
-- interrupts and of the pins of port G, distinct ones for distinct arguments.
structure Board where
  irqEint : Nat → Int
  gpg : Nat → Nat
  gpgEint : Nat → Nat
  irqNonneg : ∀ n, 0 ≤ irqEint n
  irqInjective : Function.Injective irqEint
  gpgInjective : Function.Injective gpg

def buttonIrqs (board : Board) : List ButtonIrqDesc := [
  ⟨board.irqEint 8, board.gpg 0, board.gpgEint 0, 0⟩,
  ⟨board.irqEint 11, board.gpg 3, board.gpgEint 3, 1⟩,
  ⟨board.irqEint 13, board.gpg 5, board.gpgEint 5, 2⟩,
  ⟨board.irqEint 14, board.gpg 6, board.gpgEint 6, 3⟩,
  ⟨board.irqEint 15, board.gpg 7, board.gpgEint 7, 4⟩,
  ⟨board.irqEint 19, board.gpg 11, board.gpgEint 11, 5⟩]

def mini2440 : Board where
  irqEint := fun n => n + 44
  gpg := fun n => 192 + n
  gpgEint := fun n => 2 <<< (2 * n)
  irqNonneg := by omega
  irqInjective := fun a b same => by simpa using same
  gpgInjective := fun a b same => by simpa using same

-- Who a line's handler belongs to: the open session of a process, with the index
-- of the table entry it passed as dev_id, or another driver.
inductive Holder where
  | session (process entry : Nat)
  | foreign
deriving DecidableEq, Repr

-- `depth` is the kernel's disable depth: the line is enabled at zero.
structure IrqLine where
  action : Option Holder
  depth : Nat
deriving DecidableEq, Repr

-- `pins` are the levels the GPIO data register shows, `pending` the lines with an
-- edge the kernel has yet to serve, and `user` what was last delivered of each key.
structure KeysState where
  keyValues : Fin 6 → UInt8
  evPress : Int
  pins : Nat → Bool
  pinFunction : Nat → Nat
  lines : Int → IrqLine
  pending : Int → Bool
  signalPending : Bool
  user : Fin 6 → UInt8

inductive KeysStep where
  | getpin (pin : Nat)
  | cfgpin (pin : Nat)
  | keyValue (number : Fin 6)
  | evPress
  | interrupt (number : Fin 6)
  | requestIrq (irq : Int)
  | disableIrq (irq : Int)
  | freeIrq (irq : Int)
  | testEvPress
  | waitEvPress
  | clearEvPress
  | copyByte (number : Fin 6)
  | pollEvPress
  | world
deriving DecidableEq, Repr

inductive KeysFault where
  | notHolder
deriving DecidableEq, Repr

abbrev KeysProg := Prog KeysStep KeysState KeysFault

def keyChar (down : UInt8) : UInt8 := '0'.toUInt8 + down

def s3c2410GpioGetpin (pin : Nat) : KeysProg Bool := .look (.getpin pin) (·.pins pin)

def s3c2410GpioCfgpin (pin setting : Nat) : KeysProg Unit :=
  .modify (.cfgpin pin) fun s => { s with pinFunction := Function.update s.pinFunction pin setting }

def storeKey (number : Fin 6) (down : UInt8) : KeysProg Unit := do
  Prog.modify (.keyValue number) fun s => { s with keyValues := Function.update s.keyValues number (keyChar down) }
  Prog.modify .evPress fun s => { s with evPress := 1 }

-- A pin that is low is a key that is down. The wake-up is the condition the
-- reader waits for. Handlers run with interrupts off: one action.
def buttonsInterrupt (button : ButtonIrqDesc) : KeysProg Unit :=
  .atomic (.interrupt button.number) do
    let high ← s3c2410GpioGetpin button.pin
    let down := if high then 0 else 1
    let value ← Prog.look (.keyValue button.number) (·.keyValues button.number)
    if down ≠ value &&& 1 then storeKey button.number down else pure ()

-- request_irq without IRQF_SHARED, which every line held refuses; `outcome` is
-- what it would return for a free one.
def requestIrq (irq : Int) (holder : Holder) (outcome : Int) : KeysProg Int :=
  .act (.requestIrq irq) (fun _ => true)
    (fun s => if (s.lines irq).action = none ∧ outcome = 0 then
        { s with lines := Function.update s.lines irq ⟨some holder, 0⟩ }
      else s)
    (fun s => .ret (if (s.lines irq).action = none then outcome else -ebusy))

-- Only the holder of a line may disable or free it: anything else is a fault.
def disableIrq (irq : Int) (holder : Holder) : KeysProg Unit :=
  .access (.disableIrq irq) fun s =>
    if (s.lines irq).action = some holder then
      .ok ((), { s with lines := Function.update s.lines irq ⟨some holder, (s.lines irq).depth + 1⟩ })
    else .error .notHolder

-- A freed line has no handler, so an edge not yet served is dropped.
def freeIrq (irq : Int) (holder : Holder) : KeysProg Unit :=
  .access (.freeIrq irq) fun s =>
    if (s.lines irq).action = some holder then
      .ok ((), { s with
        lines := Function.update s.lines irq ⟨none, (s.lines irq).depth⟩
        pending := Function.update s.pending irq false })
    else .error .notHolder

-- The first loop of open: the error that ended it, and the index it stopped at.
def requestFrom (process : Nat) (outcome : Nat → Int) : List ButtonIrqDesc → Nat → KeysProg (Int × Nat)
  | [], i => pure (0, i)
  | button :: rest, i => do
      s3c2410GpioCfgpin button.pin button.pinSetting
      if button.irq < 0 then requestFrom process outcome rest (i + 1)
      else do
        let err ← requestIrq button.irq (.session process i) (outcome i)
        if err ≠ 0 then pure (err, i) else requestFrom process outcome rest (i + 1)

def releaseEntry (process i : Nat) (button : ButtonIrqDesc) : KeysProg Unit := do
  disableIrq button.irq (.session process i)
  freeIrq button.irq (.session process i)

-- for (i--; i >= 0; i--), over the entries below `i`, the highest first.
def unwindBelow (process : Nat) (table : List ButtonIrqDesc) : Nat → KeysProg Unit
  | 0 => pure ()
  | i + 1 => do
      (match table[i]? with
        | some button => if button.irq < 0 then pure () else releaseEntry process i button
        | none => pure ())
      unwindBelow process table i

def buttonsOpen (table : List ButtonIrqDesc) (process : Nat) (outcome : Nat → Int) : KeysProg Int := do
  let stop ← requestFrom process outcome table 0
  if stop.1 ≠ 0 then do
    unwindBelow process table stop.2
    pure (-ebusy)
  else pure 0

def freeFrom (process : Nat) : List ButtonIrqDesc → Nat → KeysProg Unit
  | [], _ => pure ()
  | button :: rest, i => do
      (if button.irq < 0 then pure () else freeIrq button.irq (.session process i))
      freeFrom process rest (i + 1)

def buttonsClose (table : List ButtonIrqDesc) (process : Nat) : KeysProg Int := do
  freeFrom process table 0
  pure 0

-- wait_event_interruptible ends with the condition or with a signal; the driver
-- does not look at which.
def waitEvPress : KeysProg Unit :=
  .await .waitEvPress (fun s => decide (s.evPress ≠ 0) || s.signalPending) id

def copyKeys : List (Fin 6) → KeysProg Unit
  | [] => pure ()
  | number :: rest => do
      Prog.modify (.copyByte number) fun s =>
        { s with user := Function.update s.user number (s.keyValues number) }
      copyKeys rest

structure ReadCall where
  count : Nat
  nonblock : Bool
  fault : Option Nat
deriving DecidableEq, Repr

def ReadCall.size (call : ReadCall) : Nat := min 6 call.count

def deliverKeys (call : ReadCall) : KeysProg Int := do
  Prog.modify .clearEvPress fun s => { s with evPress := 0 }
  copyKeys ((List.finRange 6).take (copied call.size call.fault))
  pure (if copyFails call.size call.fault then -efault else call.size)

def waitThenDeliver (call : ReadCall) : KeysProg Int := do
  waitEvPress
  deliverKeys call

def buttonsRead (call : ReadCall) : KeysProg Int := do
  let ev ← Prog.look .testEvPress (·.evPress)
  if ev = 0 then
    if call.nonblock then pure (-eagain) else waitThenDeliver call
  else deliverKeys call

def pollin : UInt32 := 0x0001
def pollrdnorm : UInt32 := 0x0040

def buttonsPoll : KeysProg UInt32 := do
  let ev ← Prog.look .pollEvPress (·.evPress)
  pure (if ev ≠ 0 then pollin ||| pollrdnorm else 0)

-- The statics of a freshly loaded module, over whatever the pins show and the
-- other drivers hold.
def loadedKeys (pins : Nat → Bool) (lines : Int → IrqLine) : KeysState where
  keyValues := fun _ => '0'.toUInt8
  evPress := 0
  pins := pins
  pinFunction := fun _ => 0
  lines := lines
  pending := fun _ => false
  signalPending := false
  user := fun _ => '0'.toUInt8

def KeysState.down (s : KeysState) (button : ButtonIrqDesc) : UInt8 := if s.pins button.pin then 0 else 1

def KeysState.serve (s : KeysState) (button : ButtonIrqDesc) : KeysState :=
  if s.down button ≠ s.keyValues button.number &&& 1 then
    { s with
      keyValues := Function.update s.keyValues button.number (keyChar (s.down button))
      evPress := 1 }
  else s

theorem buttons_interrupt_serves (button : ButtonIrqDesc) :
    buttonsInterrupt button = .modify (.interrupt button.number) (·.serve button) := by
  apply Prog.atomic_eq_modify
  intro s
  by_cases same : (if s.pins button.pin then 0 else 1) = s.keyValues button.number &&& 1
  · simp [s3c2410GpioGetpin, KeysState.serve, KeysState.down, same]
  · simp [s3c2410GpioGetpin, KeysState.serve, KeysState.down, same, storeKey]

theorem run_copy_keys (numbers : List (Fin 6)) (s : KeysState) :
    (copyKeys numbers).run s =
      .done () { s with user := fun n => if n ∈ numbers then s.keyValues n else s.user n } := by
  induction numbers generalizing s with
  | nil => simp [copyKeys]
  | cons number rest ih =>
      simp only [copyKeys, Prog.run_bind, Prog.run_modify, outcome_bind_done, ih]
      congr 2
      funext n
      by_cases same : n = number
      · simp [same]
      · simp [same]

theorem first_keys_iff (k : Nat) (n : Fin 6) : n ∈ (List.finRange 6).take k ↔ n.val < k := by
  simp only [List.mem_take_iff_getElem, List.length_finRange, List.getElem_finRange]
  constructor
  · intro found
    obtain ⟨i, inside, same⟩ := found
    rw [← same]
    simp only [Fin.val_cast]
    omega
  · intro below
    exact ⟨n.val, by omega, by simp⟩

theorem run_deliver_keys (call : ReadCall) (s : KeysState) :
    (deliverKeys call).run s =
      .done (if copyFails call.size call.fault then -efault else call.size)
        { s with
          evPress := 0
          user := fun n => if n.val < copied call.size call.fault then s.keyValues n else s.user n } := by
  simp only [deliverKeys, Prog.run_bind, Prog.run_modify, outcome_bind_done, run_copy_keys, first_keys_iff, Prog.run_pure]

end OneDriver.Keys
