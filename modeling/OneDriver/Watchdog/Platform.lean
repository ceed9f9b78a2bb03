import OneDriver.Ledger
import OneDriver.Watchdog.Heartbeat
import Mathlib.Data.Finset.Insert
import Mathlib.Data.Finset.Erase

set_option autoImplicit false

namespace OneDriver.Watchdog

-- Each grant of the kernel has a number of its own, which is the pointer it
-- returns. request_mem_region gives a region and the record that is its key.
inductive Resource where
  | region (id : Nat)
  | record (id : Nat)
  | mapping (id : Nat)
  | handler (irq : Nat)
  | clockRef (id : Nat)
  | clockOn (id : Nat)
  | miscdev
deriving DecidableEq, Repr

-- Who is in the driver: the sessions that are open, and by their number the
-- threads in an open, in a call on a session and in the interrupt handler.
structure Traffic where
  begun : Bool
  late : Bool
  files : Nat
  opening : Finset Nat
  calling : Finset Nat
  setting : Finset Nat
  handling : Finset Nat

def noTraffic : Traffic := ⟨false, false, 0, ∅, ∅, ∅, ∅⟩

structure PlatformState where
  timer : WdtState
  wdtMem : Option Nat
  wdtBase : Option Nat
  wdtIrq : Option Nat
  wdtClock : ErrPtr
  held : Multiset Resource
  grants : Nat
  traffic : Traffic

inductive PlatformStep where
  | timer (step : WdtStep)
  | static
  | requestMemRegion | ioremap | requestIrq | clkGet | clkEnable | clkGetRate | miscRegister
  | releaseResource | kfree | iounmap | freeIrq | synchronizeIrq | clkDisable | clkPut | miscDeregister
  | begin
  | miscOpen (thread : Nat)
  | opened (thread : Nat)
  | enter (thread : Nat) (sets : Bool)
  | leave (thread : Nat)
  | lastFput (thread : Nat)
  | irqEnter (thread : Nat)
  | irqExit (thread : Nat)
deriving DecidableEq, Repr

inductive PlatformFault where
  | misuse (how : Misuse)
  | unmapped
  | noClock
deriving DecidableEq, Repr

abbrev PlatformProg := Prog PlatformStep PlatformState PlatformFault

def timerPart : Part PlatformState WdtState where
  get := PlatformState.timer
  set := fun timer s => { s with timer := timer }
  get_set := fun _ _ => rfl
  set_get := fun _ => rfl
  set_set := fun _ _ _ => rfl

def heldPart : Part PlatformState (Multiset Resource) where
  get := PlatformState.held
  set := fun held s => { s with held := held }
  get_set := fun _ _ => rfl
  set_get := fun _ => rfl
  set_set := fun _ _ _ => rfl

def PlatformState.mapped (s : PlatformState) : Bool :=
  match s.wdtBase with
  | some base => decide (.mapping base ∈ s.held)
  | none => false

def PlatformState.clocked (s : PlatformState) : Bool :=
  match s.wdtClock with
  | .object clock => decide (.clockRef clock ∈ s.held)
  | _ => false

def touchesRegister : WdtStep → Bool
  | .readl _ | .writel _ | .wdtLock _ | .save => true
  | _ => false

def needsMapping (step : WdtStep) (s : PlatformState) : Option PlatformFault :=
  if touchesRegister step && !s.mapped then some .unmapped else none

-- What the driver does to its timer, through the mapping.
def onTimer {α : Type} (p : WdtProg α) : PlatformProg α := p.within timerPart .timer Empty.elim needsMapping

def clkGetRate : PlatformProg Unit :=
  .access .clkGetRate fun s => if s.clocked then .ok ((), s) else .error .noClock

def acquire (label : PlatformStep) (r : Resource) : PlatformProg Unit := .acquire heldPart label r

def release (label : PlatformStep) (r : Option Resource) : PlatformProg Unit := .release heldPart label .misuse r

def setMem (mem : Option Nat) : PlatformProg Unit := .modify .static fun s => { s with wdtMem := mem }

def setBase (base : Option Nat) : PlatformProg Unit := .modify .static fun s => { s with wdtBase := base }

def setIrq (irq : Option Nat) : PlatformProg Unit := .modify .static fun s => { s with wdtIrq := irq }

def setClock (clock : ErrPtr) : PlatformProg Unit := .modify .static fun s => { s with wdtClock := clock }

def newGrant (label : PlatformStep) : PlatformProg Nat :=
  .act label (fun _ => true) (fun s => { s with grants := s.grants + 1 }) fun s => .ret s.grants

def requestMemRegion (granted : Bool) : PlatformProg (Option Nat) :=
  if granted then do
    let id ← newGrant .requestMemRegion
    acquire .requestMemRegion (.record id)
    acquire .requestMemRegion (.region id)
    pure (some id)
  else pure none

def ioremap (granted : Bool) : PlatformProg (Option Nat) :=
  if granted then do
    let id ← newGrant .ioremap
    acquire .ioremap (.mapping id)
    pure (some id)
  else pure none

def requestIrq (irq : Nat) (result : Int) : PlatformProg Int := do
  if result = 0 then acquire .requestIrq (.handler irq) else pure ()
  pure result

def clkGet : Option Errno → PlatformProg ErrPtr
  | some errno => pure (.error errno)
  | none => do
      let id ← newGrant .clkGet
      acquire .clkGet (.clockRef id)
      pure (.object id)

def clkEnable (clock : ErrPtr) : PlatformProg Unit :=
  match clock with
  | .object id => acquire .clkEnable (.clockOn id)
  | _ => .crash .noClock

def miscRegister (result : Int) : PlatformProg Int := do
  if result = 0 then acquire .miscRegister .miscdev else pure ()
  pure result

def releaseMem : PlatformProg Unit := do
  let mem ← Prog.look .static (·.wdtMem)
  release .releaseResource (mem.map .region)
  release .kfree (mem.map .record)

-- free_irq takes the handler off its line and waits until it has returned.
def freeIrq : PlatformProg Unit := do
  let irq ← Prog.look .static (·.wdtIrq)
  release .freeIrq (irq.map .handler)
  Prog.await .synchronizeIrq (fun s => decide (s.traffic.handling = ∅)) id

def putClock : PlatformProg Unit := do
  let clock ← Prog.look .static (·.wdtClock)
  release .clkDisable (clock.resource .clockOn)
  release .clkPut (clock.resource .clockRef)

def iounmap : PlatformProg Unit := do
  let base ← Prog.look .static (·.wdtBase)
  release .iounmap (base.map .mapping)

-- The labels of watchdog_probe, each falling through to the next.
def errReq (ret : Int) : PlatformProg Int := do
  releaseMem
  pure ret

def errMap (ret : Int) : PlatformProg Int := do
  iounmap
  errReq ret

def errIrq (ret : Int) : PlatformProg Int := do
  freeIrq
  errMap ret

def errClk (ret : Int) : PlatformProg Int := do
  putClock
  errIrq ret

structure ProbeOutcome where
  memory : Bool
  region : Bool
  mapping : Bool
  irq : Option Nat
  requestIrq : Int
  clkGet : Option Errno
  registered : Int

def probeDevice (cfg : WdtConfig) (o : ProbeOutcome) : PlatformProg Int := do
  clkGetRate
  let started ← onTimer (initialHeartbeat cfg)
  let ret ← miscRegister o.registered
  if ret ≠ 0 then errClk ret
  else do
    onTimer (bootTimer cfg started)
    let _ ← onTimer (readl .wtcon)
    pure 0

def probeClock (cfg : WdtConfig) (o : ProbeOutcome) : PlatformProg Int := do
  let clock ← clkGet o.clkGet
  setClock clock
  match clock with
  | .error errno => errIrq errno.value
  | _ => do
      clkEnable clock
      probeDevice cfg o

def probeIrq (cfg : WdtConfig) (o : ProbeOutcome) : PlatformProg Int := do
  setIrq o.irq
  match o.irq with
  | none => errMap (-enoent)
  | some irq => do
      let ret ← requestIrq irq o.requestIrq
      if ret ≠ 0 then errMap ret else probeClock cfg o

def probeMapping (cfg : WdtConfig) (o : ProbeOutcome) : PlatformProg Int := do
  let base ← ioremap o.mapping
  setBase base
  if base = none then errReq (-einval) else probeIrq cfg o

def watchdogProbe (cfg : WdtConfig) (o : ProbeOutcome) : PlatformProg Int :=
  if o.memory then do
    let mem ← requestMemRegion o.region
    setMem mem
    if mem = none then errReq (-enoent) else probeMapping cfg o
  else pure (-enoent)

def watchdogRemove : PlatformProg Int := do
  releaseMem
  setMem none
  freeIrq
  setIrq none
  putClock
  setClock .null
  iounmap
  release .miscDeregister (some .miscdev)
  pure 0

def loadedPlatform (timer : WdtState) : PlatformState where
  timer := timer
  wdtMem := none
  wdtBase := none
  wdtIrq := none
  wdtClock := .null
  held := 0
  grants := 0
  traffic := noTraffic

end OneDriver.Watchdog
