import OneDriver.Bcd
import Mathlib.Logic.Function.Basic

set_option autoImplicit false

namespace OneDriver.Rtc

inductive RtcReg where
  | rtccon | ticnt | rtcalm
  | almsec | almmin | almhour | almdate | almmon | almyear
  | rtcsec | rtcmin | rtchour | rtcdate | rtcmon | rtcyear
deriving DecidableEq, Repr

-- rtc.c uses these two register offsets as if they were bit masks.
def rtcconOffset : BitVec 8 := 0x40
def rtcalmOffset : BitVec 8 := 0x50

namespace Rtccon
def rtcen : BitVec 8 := 1 <<< 0
def cntsel : BitVec 8 := 1 <<< 2
def clkrst : BitVec 8 := 1 <<< 3
end Rtccon

namespace Ticnt
def enable : BitVec 8 := 1 <<< 7
end Ticnt

namespace Rtcalm
def almen : BitVec 8 := 1 <<< 6
def yearen : BitVec 8 := 1 <<< 5
def monen : BitVec 8 := 1 <<< 4
def dayen : BitVec 8 := 1 <<< 3
def houren : BitVec 8 := 1 <<< 2
def minen : BitVec 8 := 1 <<< 1
def secen : BitVec 8 := 1 <<< 0
end Rtcalm

-- The register bank and the statics of rtc.c. `alarmWake` is the kernel's
-- wake-up nesting depth of the alarm interrupt.
structure RtcState where
  regs : RtcReg → BitVec 8
  ticntSave : BitVec 8
  alarmWake : Int

inductive RtcStep where
  | readb (reg : RtcReg)
  | writeb (reg : RtcReg)
  | spinLockIrq
  | ticntSave
  | irqWake
deriving DecidableEq, Repr

inductive RtcFault where
  | divideByZero
deriving DecidableEq, Repr

abbrev RtcProg := Prog RtcStep RtcState RtcFault

def RtcState.write (s : RtcState) (reg : RtcReg) (value : BitVec 8) : RtcState :=
  { s with regs := Function.update s.regs reg value }

def bitIf (cond : Prop) [Decidable cond] (bit : BitVec 8) : BitVec 8 := if cond then bit else 0

def blankRtc : RtcState := ⟨fun _ => 0, 0, 0⟩

@[simp] theorem write_regs_same (s : RtcState) (reg : RtcReg) (value : BitVec 8) :
    (s.write reg value).regs reg = value := by
  simp [RtcState.write]

@[simp] theorem write_regs_other (s : RtcState) (reg other : RtcReg) (value : BitVec 8) (different : other ≠ reg) :
    (s.write reg value).regs other = s.regs other := by
  simp [RtcState.write, different]

@[simp] theorem write_write (s : RtcState) (reg : RtcReg) (first second : BitVec 8) :
    (s.write reg first).write reg second = s.write reg second := by
  simp [RtcState.write]

theorem write_self (s : RtcState) (reg : RtcReg) : s.write reg (s.regs reg) = s := by
  simp [RtcState.write]

@[simp] theorem write_ticnt_save (s : RtcState) (reg : RtcReg) (value : BitVec 8) :
    (s.write reg value).ticntSave = s.ticntSave := rfl

@[simp] theorem write_alarm_wake (s : RtcState) (reg : RtcReg) (value : BitVec 8) :
    (s.write reg value).alarmWake = s.alarmWake := rfl

-- writeb stores the low byte, so the drivers' unsigned int temporaries are
-- bytes here.
def readb (reg : RtcReg) : RtcProg (BitVec 8) := .look (.readb reg) (·.regs reg)

def writeb (value : BitVec 8) (reg : RtcReg) : RtcProg Unit := .modify (.writeb reg) (·.write reg value)

@[simp] theorem run_readb (reg : RtcReg) (s : RtcState) : (readb reg).run s = .done (s.regs reg) s := rfl

@[simp] theorem run_writeb (value : BitVec 8) (reg : RtcReg) (s : RtcState) :
    (writeb value reg).run s = .done () (s.write reg value) := rfl

end OneDriver.Rtc
