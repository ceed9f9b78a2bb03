import OneDriver.Pool
import OneDriver.CInt
import OneDriver.UserCopy
import Mathlib.Logic.Function.Basic

set_option autoImplicit false

namespace OneDriver.Adc

-- What sprintf was given, the conversion that adc_data came from and the one the
-- same call started.
structure Formatted where
  value : Int
  source : Option Nat
  conversion : Option Nat
deriving DecidableEq, Repr

-- The statics of adc.c and the ADC registers. Conversions are numbered as they
-- start; `inflight` are those with their interrupt to come, `latched` the one whose
-- result ADCDAT0 shows. `wait` is the list of adcdev.wait, `queued` says that a
-- task's own entry is linked, `sleeping` that its state is TASK_INTERRUPTIBLE.
structure AdcState where
  adcLock : Option Nat
  ownAdc : Int
  evAdc : Int
  adcData : Int
  channel : BitVec 32
  prescale : BitVec 32
  adccon : BitVec 32
  adcdat0 : BitVec 32
  started : Nat
  inflight : List Nat
  latched : Option Nat
  dataFrom : Option Nat
  wait : List Nat
  queued : Nat → Bool
  sleeping : Nat → Bool
  signalled : Nat → Bool
  formatted : List Formatted

inductive AdcStep where
  | initWaitqueueHead
  | configure
  | downTrylock
  | ownAdc
  | readConfig
  | writeCon
  | readCon
  | startConversion
  | testEvAdc
  | prepareToWait
  | signalPending (task : Nat)
  | schedule (task : Nat)
  | finishWait
  | clearEvAdc
  | readData
  | up
  | format
  | interrupt (conversion : Nat)
  | signal
deriving DecidableEq, Repr

inductive AdcFault where
  | unfollowed
deriving DecidableEq, Repr

abbrev AdcProg := Prog AdcStep AdcState AdcFault

def prescaleEn : BitVec 32 := 1 <<< 14

def prscvl (x : BitVec 32) : BitVec 32 := x <<< 6

def adcInput (x : BitVec 32) : BitVec 32 := x <<< 3

def adcStart : BitVec 32 := 1 <<< 0

def sample (result : BitVec 32) : Int := (result &&& 0x3ff).toNat

def AdcState.wakeUp (s : AdcState) : AdcState := { s with
  wait := s.wait.filter fun task => !s.sleeping task
  queued := fun task => s.queued task && !(decide (task ∈ s.wait) && s.sleeping task)
  sleeping := fun task => s.sleeping task && !decide (task ∈ s.wait) }

def adcdoneIntHandler (s : AdcState) : AdcState :=
  if s.ownAdc ≠ 0 then
    { s with adcData := sample s.adcdat0, dataFrom := s.latched, evAdc := 1 }.wakeUp
  else s

-- A conversion ends: its result is in ADCDAT0 and its one interrupt is raised.
def AdcState.complete (result : Nat → BitVec 32) (conversion : Nat) (s : AdcState) : AdcState :=
  adcdoneIntHandler { s with
    inflight := s.inflight.erase conversion
    adcdat0 := result conversion
    latched := some conversion }

def downTrylock (task : Nat) : AdcProg Bool :=
  .act .downTrylock (fun _ => true) (fun s => if s.adcLock = none then { s with adcLock := some task } else s)
    fun s => .ret (s.adcLock = none)

def setOwnAdc (value : Int) : AdcProg Unit := .modify .ownAdc fun s => { s with ownAdc := value }

-- The store with ADC_START begins the conversion, whose number is the result.
def startConversion (con : BitVec 32) : AdcProg Nat :=
  .act .startConversion (fun _ => true)
    (fun s => { s with adccon := con ||| adcStart, started := s.started + 1, inflight := s.started :: s.inflight })
    fun s => .ret s.started

def startAdcAin : AdcProg Nat := do
  let config ← Prog.look .readConfig fun s => (s.channel, s.prescale)
  Prog.modify .writeCon fun s => { s with adccon := prescaleEn ||| prscvl config.2 ||| adcInput config.1 }
  let con ← Prog.look .readCon (·.adccon)
  startConversion con

-- An entry already linked is not linked again, wherever the list now is.
def prepareToWait (task : Nat) : AdcProg Unit :=
  .modify .prepareToWait fun s => { s with
    wait := if s.queued task then s.wait else task :: s.wait
    queued := Function.update s.queued task true
    sleeping := Function.update s.sleeping task true }

def finishWait (task : Nat) : AdcProg Unit :=
  .modify .finishWait fun s => { s with
    wait := s.wait.filter (· ≠ task)
    queued := Function.update s.queued task false
    sleeping := Function.update s.sleeping task false }

-- schedule() returns at once to a task that is running or has a signal.
def schedule (task : Nat) : AdcProg Unit :=
  .await (.schedule task) (fun s => !s.sleeping task || s.signalled task) fun s =>
    { s with sleeping := Function.update s.sleeping task false }

def waitLoop (task : Nat) : Nat → AdcProg Unit
  | 0 => .crash .unfollowed
  | rounds + 1 => do
      prepareToWait task
      let ev ← Prog.look .testEvAdc (·.evAdc)
      if ev ≠ 0 then pure ()
      else do
        let signalled ← Prog.look (.signalPending task) (·.signalled task)
        if signalled then pure ()
        else do
          schedule task
          waitLoop task rounds

def waitSlow (task rounds : Nat) : AdcProg Unit := do
  waitLoop task rounds
  finishWait task

-- wait_event_interruptible; adc_read drops its result.
def waitEventInterruptible (task rounds : Nat) : AdcProg Unit := do
  let ev ← Prog.look .testEvAdc (·.evAdc)
  if ev ≠ 0 then pure () else waitSlow task rounds

-- The user's buffer, and the first byte copy_to_user cannot reach.
structure ReadCall where
  count : Nat
  fault : Option Nat
deriving DecidableEq, Repr

-- A failed copy_to_user returns the number of bytes it left out.
def formatValue (call : ReadCall) (formatted : Formatted) : AdcProg Int := do
  Prog.modify .format fun s => { s with formatted := formatted :: s.formatted }
  let len := (toString formatted.value).length + 1
  pure (if len ≤ call.count then
      if copyFails len call.fault then len - copied len call.fault else len
    else -einval)

def readOwned (task rounds : Nat) (call : ReadCall) : AdcProg Int := do
  setOwnAdc 1
  let conversion ← startAdcAin
  waitEventInterruptible task rounds
  Prog.modify .clearEvAdc fun s => { s with evAdc := 0 }
  let value ← Prog.look .readData fun s => (s.adcData, s.dataFrom)
  setOwnAdc 0
  Prog.modify .up fun s => { s with adcLock := none }
  formatValue call ⟨value.1, value.2, some conversion⟩

def adcRead (task rounds : Nat) (call : ReadCall) : AdcProg Int := do
  let taken ← downTrylock task
  if taken then readOwned task rounds call else formatValue call ⟨-1, none, none⟩

def adcOpen : AdcProg Int := do
  Prog.modify .initWaitqueueHead fun s => { s with wait := [] }
  Prog.modify .configure fun s => { s with channel := 0 }
  Prog.modify .configure fun s => { s with prescale := 0xff }
  pure 0

inductive AdcCall where
  | opening
  | read (call : ReadCall)
deriving DecidableEq, Repr

def AdcCall.prog (task rounds : Nat) : AdcCall → AdcProg Int
  | .opening => adcOpen
  | .read call => adcRead task rounds call

-- Who acts: processes with their calls, the end of a conversion, a signal that
-- comes to a task or is taken by it.
inductive Actor where
  | process (calls : List AdcCall)
  | conversion (number : Nat)
  | signal (task : Nat) (pending : Bool)
deriving DecidableEq, Repr

def Actor.prog (result : Nat → BitVec 32) (rounds i : Nat) : Actor → AdcProg (List Int)
  | .process calls => Prog.series (AdcCall.prog i rounds) calls
  | .conversion number => do
      Prog.await (.interrupt number) (fun s => decide (number ∈ s.inflight)) (·.complete result number)
      pure []
  | .signal task pending => do
      Prog.modify .signal fun s => { s with signalled := Function.update s.signalled task pending }
      pure []

abbrev AdcPool := Pool AdcStep AdcState AdcFault (List Int)

-- The task of a process is its place among the actors.
def acting (result : Nat → BitVec 32) (rounds : Nat) (s : AdcState) (actors : List Actor) : AdcPool :=
  Pool.start s (actors.mapIdx fun i actor => actor.prog result rounds i)

def loadedAdc : AdcState where
  adcLock := none
  ownAdc := 0
  evAdc := 0
  adcData := 0
  channel := 0
  prescale := 0
  adccon := 0
  adcdat0 := 0
  started := 0
  inflight := []
  latched := none
  dataFrom := none
  wait := []
  queued := fun _ => false
  sleeping := fun _ => false
  signalled := fun _ => false
  formatted := []

end OneDriver.Adc
