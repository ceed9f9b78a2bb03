import OneDriver.Lock
import OneDriver.Rtc.Sharing

set_option autoImplicit false

namespace OneDriver.Rtc

structure RtcPllInfo where
  pllCtrl : Int
  pllMax : Int
  pllMin : Int
  pllClock : Int
deriving DecidableEq, Repr

-- The commands of the test, with what they hand in. RTC_EPOCH_SET hands in a
-- pointer to its epoch.
inductive RtcIoctl where
  | aieOn | aieOff | uieOn | uieOff | pieOn | pieOff | wieOn | wieOff
  | almSet (rt : RtcTime)
  | almRead
  | rdTime
  | setTime (rt : RtcTime)
  | irqpRead
  | irqpSet (rate : Nat)
  | epochRead
  | epochSet (epoch : Nat)
  | wkalmSet (alarm : RtcWkalrm)
  | wkalmRd
  | pllGet
  | pllSet (pll : RtcPllInfo)
  | vlRead | vlClr
deriving DecidableEq, Repr

-- What the kernel answers request_irq of a free line, and what the RTC core, which is
-- not the driver's, does to the chip for a command: no errno is success.
structure TestBed where
  answers : OpenOutcome
  core : RtcIoctl → RtcProg (Option Errno)

-- A failed assert ends the process, `test` being its place in unit_test_entry.
inductive Verdict where
  | passed
  | failed (test : Nat)
deriving DecidableEq, Repr

def errOf : Option Errno → Int
  | some errno => -errno.value
  | none => 0

def TestBed.MayAnswer (bed : TestBed) (command : RtcIoctl) (err : Int) : Prop :=
  ∃ rtc answer t, (bed.core command).run rtc = .done answer t ∧ errOf answer = err

-- How a thread that goes through the commands from number `n` on may end: at the first
-- assert that an answer of the core fails, or past the last.
inductive Ends (bed : TestBed) : List (RtcIoctl × Int) → Nat → Verdict → Prop where
  | passed (n : Nat) : Ends bed [] n .passed
  | failed (command : RtcIoctl) (expected err : Int) (rest : List (RtcIoctl × Int)) (n : Nat)
      (answers : bed.MayAnswer command err) (differs : err ≠ expected) : Ends bed ((command, expected) :: rest) n (.failed n)
  | goes (command : RtcIoctl) (expected : Int) (rest : List (RtcIoctl × Int)) (n : Nat) (verdict : Verdict)
      (answers : bed.MayAnswer command expected) (later : Ends bed rest (n + 1) verdict) :
      Ends bed ((command, expected) :: rest) n verdict

end OneDriver.Rtc
