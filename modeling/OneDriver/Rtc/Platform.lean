import OneDriver.Ledger
import OneDriver.Rtc.Wake

set_option autoImplicit false

namespace OneDriver.Rtc

-- Each grant of the kernel has a number of its own. request_mem_region gives a
-- region and the record that is its key.
inductive RtcResource where
  | region (id : Nat)
  | record (id : Nat)
  | mapping (id : Nat)
  | device (id : Nat)
deriving DecidableEq, Repr

inductive RtcHandler where
  | alarmirq
  | tickirq
deriving DecidableEq, Repr

-- `process` is whose open requested the line; the kernel only looks at dev_id.
structure IrqAction where
  handler : RtcHandler
  devId : Option Nat
  process : Nat
deriving DecidableEq, Repr

-- `lines` are the interrupt lines as this driver holds them, `updates` what it
-- has told the RTC core of interrupts.
structure BoundState where
  rtc : RtcState
  rtcMem : Option Nat
  rtcBase : Option Nat
  alarmno : Int
  tickno : Int
  drvdata : Option Nat
  lines : Int → Option IrqAction
  held : Multiset RtcResource
  grants : Nat
  updates : List (Nat × BitVec 8)

inductive BoundStep where
  | rtc (step : RtcStep)
  | static
  | drvdata
  | requestMemRegion | ioremap | rtcDeviceRegister
  | releaseResource | kfree | iounmap | rtcDeviceUnregister
  | requestIrq | freeIrq
  | rtcUpdateIrq
deriving DecidableEq, Repr

inductive BoundFault where
  | misuse (how : Misuse)
  | rtc (fault : RtcFault)
  | unmapped
  | notRequested
  | noDevice
deriving DecidableEq, Repr

abbrev BoundProg := Prog BoundStep BoundState BoundFault

def rtcPart : Part BoundState RtcState where
  get := BoundState.rtc
  set := fun rtc s => { s with rtc := rtc }
  get_set := fun _ _ => rfl
  set_get := fun _ => rfl
  set_set := fun _ _ _ => rfl

def heldPart : Part BoundState (Multiset RtcResource) where
  get := BoundState.held
  set := fun held s => { s with held := held }
  get_set := fun _ _ => rfl
  set_get := fun _ => rfl
  set_set := fun _ _ _ => rfl

def BoundState.mapped (s : BoundState) : Bool :=
  match s.rtcBase with
  | some base => decide (.mapping base ∈ s.held)
  | none => false

def touchesRegister : RtcStep → Bool
  | .readb _ | .writeb _ | .spinLockIrq => true
  | .ticntSave | .irqWake => false

def needsMapping (step : RtcStep) (s : BoundState) : Option BoundFault :=
  if touchesRegister step && !s.mapped then some .unmapped else none

-- What the driver does to the chip, through the mapping.
def onRtc {α : Type} (p : RtcProg α) : BoundProg α := p.within rtcPart .rtc .rtc needsMapping

def acquire (label : BoundStep) (r : RtcResource) : BoundProg Unit := .acquire heldPart label r

def release (label : BoundStep) (r : Option RtcResource) : BoundProg Unit := .release heldPart label .misuse r

def setMem (mem : Option Nat) : BoundProg Unit := .modify .static fun s => { s with rtcMem := mem }

def setBase (base : Option Nat) : BoundProg Unit := .modify .static fun s => { s with rtcBase := base }

def setAlarmno (irq : Int) : BoundProg Unit := .modify .static fun s => { s with alarmno := irq }

def setTickno (irq : Int) : BoundProg Unit := .modify .static fun s => { s with tickno := irq }

def platformSetDrvdata (data : Option Nat) : BoundProg Unit := .modify .drvdata fun s => { s with drvdata := data }

def newGrant (label : BoundStep) : BoundProg Nat :=
  .act label (fun _ => true) (fun s => { s with grants := s.grants + 1 }) fun s => .ret s.grants

def requestMemRegion (granted : Bool) : BoundProg (Option Nat) :=
  if granted then do
    let id ← newGrant .requestMemRegion
    acquire .requestMemRegion (.record id)
    acquire .requestMemRegion (.region id)
    pure (some id)
  else pure none

def ioremap (granted : Bool) : BoundProg (Option Nat) :=
  if granted then do
    let id ← newGrant .ioremap
    acquire .ioremap (.mapping id)
    pure (some id)
  else pure none

def rtcDeviceRegister : Option Errno → BoundProg ErrPtr
  | some errno => pure (.error errno)
  | none => do
      let id ← newGrant .rtcDeviceRegister
      acquire .rtcDeviceRegister (.device id)
      pure (.object id)

-- A line that is in use is refused; what else the kernel answers is `outcome`.
def requestIrq (irq : Int) (action : IrqAction) (outcome : Int) : BoundProg Int :=
  .act .requestIrq (fun _ => true)
    (fun s => if s.lines irq = none ∧ outcome = 0 then
        { s with lines := fun other => if other = irq then some action else s.lines other }
      else s)
    fun s => .ret (if s.lines irq = none then outcome else -ebusy)

def freeIrq (irq : Int) (devId : Option Nat) : BoundProg Unit :=
  .access .freeIrq fun s => match s.lines irq with
    | some action =>
        if action.devId = devId then
          .ok ((), { s with lines := fun other => if other = irq then none else s.lines other })
        else .error .notRequested
    | none => .error .notRequested

def releaseMem : BoundProg Unit := do
  let mem ← Prog.look .static (·.rtcMem)
  release .releaseResource (mem.map .region)

def iounmap : BoundProg Unit := do
  let base ← Prog.look .static (·.rtcBase)
  release .iounmap (base.map .mapping)

-- The labels of rtc_probe: the record of the region is not freed.
def errNomap (ret : Int) : BoundProg Int := do
  releaseMem
  pure ret

def errNortc (ret : Int) : BoundProg Int := do
  onRtc (rtcEnable 0)
  iounmap
  errNomap ret

structure RtcProbe where
  alarmIrq : Int
  tickIrq : Int
  memory : Bool
  region : Bool
  mapping : Bool
  registered : Option Errno

def probeDevice (abi : Abi) (o : RtcProbe) : BoundProg Int := do
  onRtc (rtcEnable 1)
  let _ ← onRtc (rtcSetfreq abi 1)
  let rtc ← rtcDeviceRegister o.registered
  match rtc with
  | .error errno => errNortc errno.value
  | .object id => do
      platformSetDrvdata (some id)
      pure 0
  | .null => .crash .noDevice

def probeMapping (abi : Abi) (o : RtcProbe) : BoundProg Int := do
  let base ← ioremap o.mapping
  setBase base
  if base = none then errNomap (-einval) else probeDevice abi o

def probeMemory (abi : Abi) (o : RtcProbe) : BoundProg Int :=
  if o.memory then do
    let mem ← requestMemRegion o.region
    setMem mem
    if mem = none then pure (-enoent) else probeMapping abi o
  else pure (-enoent)

-- rtc_probe
def probeRtc (abi : Abi) (o : RtcProbe) : BoundProg Int := do
  setAlarmno o.alarmIrq
  if o.alarmIrq < 0 then pure (-enoent)
  else do
    setTickno o.tickIrq
    if o.tickIrq < 0 then pure (-enoent) else probeMemory abi o

def rtcRemove : BoundProg Int := do
  let rtc ← Prog.look .drvdata (·.drvdata)
  platformSetDrvdata none
  release .rtcDeviceUnregister (rtc.map .device)
  let _ ← onRtc (rtcSetpie 0)
  onRtc (rtcSetaie 0)
  iounmap
  releaseMem
  let mem ← Prog.look .static (·.rtcMem)
  release .kfree (mem.map .record)
  pure 0

structure OpenOutcome where
  alarm : Int
  tick : Int
deriving DecidableEq, Repr

def requestTick (process : Nat) (rtcDev : Option Nat) (outcome : Int) : BoundProg Int := do
  let tickno ← Prog.look .static (·.tickno)
  let ret ← requestIrq tickno ⟨.tickirq, rtcDev, process⟩ outcome
  if ret ≠ 0 then do
    let alarmno ← Prog.look .static (·.alarmno)
    freeIrq alarmno rtcDev
    pure ret
  else pure ret

def rtcOpen (process : Nat) (o : OpenOutcome) : BoundProg Int := do
  let rtcDev ← Prog.look .drvdata (·.drvdata)
  let alarmno ← Prog.look .static (·.alarmno)
  let ret ← requestIrq alarmno ⟨.alarmirq, rtcDev, process⟩ o.alarm
  if ret ≠ 0 then pure ret else requestTick process rtcDev o.tick

def rtcRelease : BoundProg Unit := do
  let rtcDev ← Prog.look .drvdata (·.drvdata)
  let _ ← onRtc (rtcSetpie 0)
  let alarmno ← Prog.look .static (·.alarmno)
  freeIrq alarmno rtcDev
  let tickno ← Prog.look .static (·.tickno)
  freeIrq tickno rtcDev

def rtcAf : BitVec 8 := 0x20

def rtcPf : BitVec 8 := 0x40

def rtcIrqf : BitVec 8 := 0x80

-- rtc_update_irq follows its pointer to the device.
def rtcUpdateIrq (rtcDev : Option Nat) (events : BitVec 8) : BoundProg Unit :=
  .access .rtcUpdateIrq fun s => match rtcDev with
    | some id =>
        if .device id ∈ s.held then .ok ((), { s with updates := s.updates ++ [(id, events)] }) else .error .noDevice
    | none => .error .noDevice

def rtcAlarmirq (devId : Option Nat) : BoundProg Unit := rtcUpdateIrq devId (rtcAf ||| rtcIrqf)

def rtcTickirq (devId : Option Nat) : BoundProg Unit := rtcUpdateIrq devId (rtcPf ||| rtcIrqf)

-- The kernel runs the handler of a line that has one, with the dev_id it was given.
def interrupt (irq : Int) : BoundProg Unit := do
  let action ← Prog.look .static (·.lines irq)
  match action with
  | some ⟨.alarmirq, devId, _⟩ => rtcAlarmirq devId
  | some ⟨.tickirq, devId, _⟩ => rtcTickirq devId
  | none => pure ()

-- A freshly loaded module, over whatever the registers hold.
def unbound (regs : RtcReg → BitVec 8) : BoundState where
  rtc := rtcLoaded regs
  rtcMem := none
  rtcBase := none
  alarmno := -1
  tickno := -1
  drvdata := none
  lines := fun _ => none
  held := 0
  grants := 0
  updates := []

end OneDriver.Rtc
