import OneDriver.Watchdog.Timer
import Mathlib.Data.List.TakeWhile

set_option autoImplicit false

namespace OneDriver.Watchdog

def setExpectClose (value : Int) : WdtProg Unit := .modify .expectClose fun s => { s with expectClose := value }

def testAndSetOpenLock : WdtProg Bool :=
  .act .openLock (fun _ => true) (fun s => { s with openLock := true }) fun s => .ret s.openLock

def clearOpenLock : WdtProg Unit := .modify .openLock fun s => { s with openLock := false }

def watchdogOpen (cfg : WdtConfig) : WdtProg Int := do
  let busy ← testAndSetOpenLock
  if busy then pure (-ebusy)
  else do
    setExpectClose 0
    watchdogStart cfg
    pure 0

def watchdogRelease (cfg : WdtConfig) : WdtProg Int := do
  let expect ← Prog.look .expectClose (·.expectClose)
  (if expect = 42 then watchdogStop cfg else watchdogKeepalive)
  setExpectClose 0
  clearOpenLock
  pure 0

-- The user's bytes up to the first that get_user cannot read, which is `none`;
-- the result says whether there was one.
def scanMagic : List (Option UInt8) → WdtProg Bool
  | [] => pure false
  | none :: _ => pure true
  | some c :: rest => do
      (if c = 'V'.toUInt8 then setExpectClose 42 else pure ())
      scanMagic rest

def armMagic (cfg : WdtConfig) (data : List (Option UInt8)) : WdtProg Bool :=
  if cfg.nowayout = 0 then do
    setExpectClose 0
    scanMagic data
  else pure false

def watchdogWrite (cfg : WdtConfig) (data : List (Option UInt8)) : WdtProg Int :=
  if data = [] then pure 0
  else do
    let faulted ← armMagic cfg data
    if faulted then pure (-efault)
    else do
      watchdogKeepalive
      pure data.length

inductive WdtCmd where
  | getsupport | getstatus | getbootstatus | keepalive | settimeout | gettimeout
  | other (code : Nat)
deriving DecidableEq, Repr

-- The int the ioctl argument points to, and what user access to it allows.
structure UserInt where
  value : Int
  readable : Bool
  writable : Bool
deriving DecidableEq, Repr

def putUser (p : UserInt) (value : Int) : Int × Option Int := if p.writable then (0, some value) else (-efault, none)

-- The result, with what put_user stored through the argument.
def watchdogIoctl (cfg : WdtConfig) (cmd : WdtCmd) (p : UserInt) : WdtProg (Int × Option Int) :=
  match cmd with
  | .getsupport => pure (if p.writable then 0 else -efault, none)
  | .getstatus => pure (putUser p 0)
  | .getbootstatus => pure (putUser p 0)
  | .keepalive => do
      watchdogKeepalive
      pure (0, none)
  | .settimeout =>
      if p.readable then do
        let refused ← watchdogSetHeartbeat cfg p.value
        if refused ≠ 0 then pure (-einval, none)
        else do
          watchdogKeepalive
          let margin ← Prog.look .readMargin (·.tmrMargin)
          pure (putUser p margin)
      else pure (-efault, none)
  | .gettimeout => do
      let margin ← Prog.look .readMargin (·.tmrMargin)
      pure (putUser p margin)
  | .other _ => pure (-enotty, none)

def watchdogIrq : WdtProg Unit := watchdogKeepalive

def watchdogShutdown (cfg : WdtConfig) : WdtProg Unit := watchdogStop cfg

def watchdogSuspend (cfg : WdtConfig) : WdtProg Int := do
  let wtcon ← Prog.look .save (·.regs .wtcon)
  Prog.modify .save fun s => { s with wtconSave := wtcon }
  let wtdat ← Prog.look .save (·.regs .wtdat)
  Prog.modify .save fun s => { s with wtdatSave := wtdat }
  watchdogStop cfg
  pure 0

def defaultTime : Int := 15

-- watchdog_probe from the point where its clock is enabled: the heartbeat, the
-- registration of the device with the given outcome, and the boot-time start.
def initialHeartbeat (cfg : WdtConfig) : WdtProg Int := do
  let margin ← Prog.look .readMargin (·.tmrMargin)
  let refused ← watchdogSetHeartbeat cfg margin
  if refused ≠ 0 then watchdogSetHeartbeat cfg defaultTime else pure 0

def bootTimer (cfg : WdtConfig) (started : Int) : WdtProg Unit :=
  if cfg.tmrAtboot ≠ 0 ∧ started = 0 then watchdogStart cfg
  else if cfg.tmrAtboot = 0 then watchdogStop cfg
  else pure ()

def watchdogProbeTimer (cfg : WdtConfig) (registered : Int) : WdtProg Int := do
  let started ← initialHeartbeat cfg
  if registered ≠ 0 then pure registered
  else do
    bootTimer cfg started
    pure 0

-- The statics of a freshly loaded module, over whatever the registers hold.
def loadedWdt (margin : Int) (regs : WdtReg → BitVec 32) : WdtState where
  tmrMargin := margin
  openLock := false
  wdtCount := 0
  expectClose := 0
  regs := regs
  wtconSave := 0
  wtdatSave := 0

@[simp] theorem run_set_expect_close (value : Int) (s : WdtState) :
    (setExpectClose value).run s = .done () { s with expectClose := value } := rfl

@[simp] theorem run_test_and_set_open_lock (s : WdtState) :
    testAndSetOpenLock.run s = .done s.openLock { s with openLock := true } := rfl

@[simp] theorem run_watchdog_keepalive (s : WdtState) :
    watchdogKeepalive.run s = .done () (s.write .wtcnt (BitVec.ofNat 32 s.wdtCount)) := by
  simp [watchdogKeepalive]

@[simp] theorem run_watchdog_stop (cfg : WdtConfig) (s : WdtState) :
    (watchdogStop cfg).run s =
      .done () (s.write .wtcon (s.regs .wtcon &&& ~~~(enableBit cfg ||| rstenBit cfg))) := by
  simp [watchdogStop, watchdogStopLocked]

@[simp] theorem run_program_heartbeat (timeout : Int) (count divisor : Nat) (s : WdtState) :
    (programHeartbeat timeout count divisor).run s = .done 0
      (({ s with tmrMargin := timeout, wdtCount := count / divisor }.write .wtdat
        (BitVec.ofNat 32 (count / divisor))).write .wtcon
          (s.regs .wtcon &&& ~~~prescaleMask ||| prescale (divisor - 1))) := by
  simp [programHeartbeat]

theorem run_scan_faulting (data : List (Option UInt8)) (s : WdtState) :
    (scanMagic data).run s = .done (decide (none ∈ data)) { s with
      expectClose := if some 'V'.toUInt8 ∈ data.takeWhile Option.isSome then 42 else s.expectClose } := by
  induction data generalizing s with
  | nil => rfl
  | cons byte rest ih =>
      cases byte with
      | none => simp [scanMagic]
      | some c =>
          by_cases magic : c = 'V'.toUInt8
          · simp [scanMagic, magic, ih]
          · simp [scanMagic, magic, Ne.symm magic, ih]

theorem run_scan_magic (bytes : List UInt8) (s : WdtState) :
    (scanMagic (bytes.map some)).run s =
      .done false { s with expectClose := if 'V'.toUInt8 ∈ bytes then 42 else s.expectClose } := by
  have whole : (bytes.map some).takeWhile Option.isSome = bytes.map some := by
    simp [List.takeWhile_eq_self_iff]
  rw [run_scan_faulting, whole]
  simp

end OneDriver.Watchdog
