import OneDriver.CInt
import Mathlib.Logic.Function.Basic

set_option autoImplicit false

namespace OneDriver.Watchdog

-- regs-watchdog.h is a header of the kernel: what the driver relies on is that
-- the control bits of WTCON are distinct and lie below the prescaler field.
structure WtconLayout where
  rsten : Nat
  inten : Nat
  enable : Nat
  div128 : BitVec 32
  rstenLow : rsten < 8
  intenLow : inten < 8
  enableLow : enable < 8
  enableRsten : enable ≠ rsten
  enableInten : enable ≠ inten
  intenRsten : inten ≠ rsten

def s3c2410Wtcon : WtconLayout where
  rsten := 0
  inten := 2
  enable := 5
  div128 := 3 <<< 3
  rstenLow := by decide
  intenLow := by decide
  enableLow := by decide
  enableRsten := by decide
  enableInten := by decide
  intenRsten := by decide

def prescaleMask : BitVec 32 := 0xff00

def prescale (x : Nat) : BitVec 32 := BitVec.ofNat 32 x <<< 8

-- The module parameters that no function changes, and the rate of wdt_clock.
structure WdtConfig where
  layout : WtconLayout
  nowayout : Int
  softNoboot : Int
  tmrAtboot : Int
  rate : Nat

inductive WdtReg where
  | wtcon | wtdat | wtcnt
deriving DecidableEq, Repr

structure WdtState where
  tmrMargin : Int
  openLock : Bool
  wdtCount : Nat
  expectClose : Int
  regs : WdtReg → BitVec 32
  wtconSave : BitVec 32
  wtdatSave : BitVec 32

inductive WdtSection where
  | keepalive | stop | start
deriving DecidableEq, Repr

inductive WdtStep where
  | readMargin
  | setMargin
  | readCount
  | setCount
  | expectClose
  | openLock
  | save
  | readl (reg : WdtReg)
  | writel (reg : WdtReg)
  | wdtLock (critical : WdtSection)
deriving DecidableEq, Repr

abbrev WdtProg := Prog WdtStep WdtState Empty

def WdtState.write (s : WdtState) (reg : WdtReg) (value : BitVec 32) : WdtState :=
  { s with regs := Function.update s.regs reg value }

@[simp] theorem write_regs_same (s : WdtState) (reg : WdtReg) (value : BitVec 32) :
    (s.write reg value).regs reg = value := by
  simp [WdtState.write]

@[simp] theorem write_regs_other (s : WdtState) (reg other : WdtReg) (value : BitVec 32) (different : other ≠ reg) :
    (s.write reg value).regs other = s.regs other := by
  simp [WdtState.write, different]

@[simp] theorem write_tmr_margin (s : WdtState) (reg : WdtReg) (value : BitVec 32) :
    (s.write reg value).tmrMargin = s.tmrMargin := rfl

@[simp] theorem write_open_lock (s : WdtState) (reg : WdtReg) (value : BitVec 32) :
    (s.write reg value).openLock = s.openLock := rfl

@[simp] theorem write_wdt_count (s : WdtState) (reg : WdtReg) (value : BitVec 32) :
    (s.write reg value).wdtCount = s.wdtCount := rfl

@[simp] theorem write_expect_close (s : WdtState) (reg : WdtReg) (value : BitVec 32) :
    (s.write reg value).expectClose = s.expectClose := rfl

def readl (reg : WdtReg) : WdtProg (BitVec 32) := .look (.readl reg) (·.regs reg)

def writel (value : BitVec 32) (reg : WdtReg) : WdtProg Unit := .modify (.writel reg) (·.write reg value)

@[simp] theorem run_readl (reg : WdtReg) (s : WdtState) : (readl reg).run s = .done (s.regs reg) s := rfl

@[simp] theorem run_writel (value : BitVec 32) (reg : WdtReg) (s : WdtState) :
    (writel value reg).run s = .done () (s.write reg value) := rfl

def enableBit (cfg : WdtConfig) : BitVec 32 := .twoPow 32 cfg.layout.enable

def rstenBit (cfg : WdtConfig) : BitVec 32 := .twoPow 32 cfg.layout.rsten

def intenBit (cfg : WdtConfig) : BitVec 32 := .twoPow 32 cfg.layout.inten

-- The board has one processor and spin_lock keeps it from being preempted, so
-- what wdt_lock guards is one atomic action.
def watchdogKeepalive : WdtProg Unit :=
  .atomic (.wdtLock .keepalive) do
    let count ← Prog.look .readCount (·.wdtCount)
    writel (BitVec.ofNat 32 count) .wtcnt

-- __watchdog_stop, which its callers run under the lock.
def watchdogStopLocked (cfg : WdtConfig) : WdtProg Unit := do
  let wtcon ← readl .wtcon
  writel (wtcon &&& ~~~(enableBit cfg ||| rstenBit cfg)) .wtcon

def watchdogStop (cfg : WdtConfig) : WdtProg Unit :=
  .atomic (.wdtLock .stop) (watchdogStopLocked cfg)

def startControl (cfg : WdtConfig) (wtcon : BitVec 32) : BitVec 32 :=
  let wtcon := wtcon ||| (enableBit cfg ||| cfg.layout.div128)
  if cfg.softNoboot ≠ 0 then (wtcon ||| intenBit cfg) &&& ~~~rstenBit cfg
  else wtcon &&& ~~~intenBit cfg ||| rstenBit cfg

def watchdogStart (cfg : WdtConfig) : WdtProg Unit :=
  .atomic (.wdtLock .start) do
    watchdogStopLocked cfg
    let wtcon ← readl .wtcon
    let count ← Prog.look .readCount (·.wdtCount)
    writel (BitVec.ofNat 32 count) .wtdat
    writel (BitVec.ofNat 32 count) .wtcnt
    writel (startControl cfg wtcon) .wtcon

-- for (divisor = 1; divisor <= 0x100; divisor++), left early by the break.
def findDivisor (count : Nat) : Nat → Nat → Nat
  | 0, divisor => divisor
  | left + 1, divisor => if count / divisor < 0x10000 then divisor else findDivisor count left (divisor + 1)

-- The prescaler divisor for a tick count, or none where it is too big.
def divisorFor (count : Nat) : Option Nat :=
  if count ≥ 0x10000 then
    let divisor := findDivisor count 0x100 1
    if count / divisor ≥ 0x10000 then none else some divisor
  else some 1

def ticks (cfg : WdtConfig) (timeout : Int) : Nat := uint32 (timeout * (cfg.rate % 2 ^ 32 / 128 : Nat))

def programHeartbeat (timeout : Int) (count divisor : Nat) : WdtProg Int := do
  Prog.modify .setMargin fun s => { s with tmrMargin := timeout }
  Prog.modify .setCount fun s => { s with wdtCount := count / divisor }
  let wtcon ← readl .wtcon
  writel (BitVec.ofNat 32 (count / divisor)) .wtdat
  writel (wtcon &&& ~~~prescaleMask ||| prescale (divisor - 1)) .wtcon
  pure 0

def watchdogSetHeartbeat (cfg : WdtConfig) (timeout : Int) : WdtProg Int :=
  if timeout < 1 then pure (-einval)
  else match divisorFor (ticks cfg timeout) with
    | none => pure (-einval)
    | some divisor => programHeartbeat timeout (ticks cfg timeout) divisor

end OneDriver.Watchdog
