import OneDriver.Rtc.Alarm
import OneDriver.Rtc.Tick

set_option autoImplicit false

namespace OneDriver.Rtc

-- The statics of a freshly loaded module, over whatever the registers hold.
def rtcLoaded (regs : RtcReg → BitVec 8) : RtcState := ⟨regs, 0, 0⟩

def unwindProbe (registered : Int) : RtcProg Int :=
  if registered ≠ 0 then do
    rtcEnable 0
    pure registered
  else pure 0

-- rtc_probe once the registers are mapped, with the outcome of rtc_device_register.
def rtcProbe (abi : Abi) (registered : Int) : RtcProg Int := do
  rtcEnable 1
  let _ ← rtcSetfreq abi 1
  unwindProbe registered

-- After each call the nesting depth is the flag of that call.
def WakeLaw : RtcState → List RtcWkalrm → Prop
  | _, [] => True
  | s, alarm :: rest => ∃ t, (rtcSetalarm alarm).run s = .done 0 t ∧ 0 ≤ t.alarmWake ∧
      t.alarmWake = (if alarm.enabled ≠ 0 then 1 else 0) ∧ WakeLaw t rest

-- Each call asks for what the one before it did not; `was` is the flag before.
def Alternating : Bool → List RtcWkalrm → Prop
  | _, [] => True
  | was, alarm :: rest => decide (alarm.enabled ≠ 0) = !was ∧ Alternating (!was) rest

theorem run_rtc_probe (abi : Abi) (regs : RtcReg → BitVec 8) :
    ∃ s, (rtcProbe abi 0).run (rtcLoaded regs) = .done 0 s ∧ s.alarmWake = 0 := by
  obtain ⟨value, on⟩ := run_rtc_enable_on (rtcLoaded regs)
  have one : accepted abi 1 := ⟨0, by cases abi <;> decide⟩
  have freq := run_rtc_setfreq abi 1 ((rtcLoaded regs).write .rtccon value)
  rw [if_pos one] at freq
  exact ⟨_, by simp only [rtcProbe, Prog.run_bind, on, outcome_bind_done, freq, unwindProbe]; rfl, rfl⟩

-- A depth that is the last flag stays one only if the next flag is the other.
theorem wake_law_alternating (s : RtcState) (alarms : List RtcWkalrm) (was : Bool)
    (depth : s.alarmWake = if was then 1 else 0) : WakeLaw s alarms ↔ Alternating was alarms := by
  induction alarms generalizing s was with
  | nil => exact Iff.rfl
  | cons alarm rest ih =>
      obtain ⟨t, ran, -, -, -, -, wake⟩ := run_rtc_setalarm alarm s
      rw [depth] at wake
      constructor
      · intro law
        obtain ⟨u, again, -, flag, later⟩ := law
        obtain ⟨-, rfl⟩ := Prog.run_unique ran again
        have other : decide (alarm.enabled ≠ 0) = !was := by
          cases was <;> by_cases on : alarm.enabled = 0 <;> simp_all
        exact ⟨other, (ih t (!was) (by rw [flag, ← other]; simp)).mp later⟩
      · intro follows
        obtain ⟨other, later⟩ := follows
        have flag : t.alarmWake = if !was then 1 else 0 := by
          cases was <;> simp_all
        refine ⟨t, ran, ?_, ?_, (ih t (!was) flag).mpr later⟩
        · rw [flag]
          split <;> decide
        · rw [flag, ← other]
          simp

theorem alarm_wake_iff (abi : Abi) (regs : RtcReg → BitVec 8) (alarms : List RtcWkalrm) :
    ∃ s, (rtcProbe abi 0).run (rtcLoaded regs) = .done 0 s ∧ (WakeLaw s alarms ↔ Alternating false alarms) := by
  obtain ⟨s, probed, fresh⟩ := run_rtc_probe abi regs
  exact ⟨s, probed, wake_law_alternating s alarms false fresh⟩

-- Two alarms in a row nest: the second leaves a depth of two.
theorem second_alarm_nests :
    ∃ s, (rtcProbe .ilp32 0).run (rtcLoaded fun _ => 0) = .done 0 s ∧ ¬ WakeLaw s [testAlarm, testAlarm] := by
  obtain ⟨s, probed, fresh⟩ := run_rtc_probe .ilp32 fun _ => 0
  refine ⟨s, probed, fun law => ?_⟩
  have alternates := (wake_law_alternating s [testAlarm, testAlarm] false fresh).mp law
  exact absurd alternates.2.1 (by decide)

end OneDriver.Rtc
