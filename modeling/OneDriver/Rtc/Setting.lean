import OneDriver.Amid
import OneDriver.Odometer
import OneDriver.Rtc.Running

set_option autoImplicit false

namespace OneDriver.Rtc

def timeFields (tm : RtcTime) : List (RtcReg × Int) := [
  (.rtcsec, tm.tmSec), (.rtcmin, tm.tmMin), (.rtchour, tm.tmHour),
  (.rtcdate, tm.tmMday), (.rtcmon, tm.tmMon + 1), (.rtcyear, tm.tmYear - 100)]

def storeField (field : RtcReg × Int) : RtcStep × (RtcState → RtcState) :=
  (.writeb field.1, (·.write field.1 (bin2bcd field.2)))

def overwrite (fields : List (RtcReg × Int)) (tm : RtcTime) : RtcTime := fields.foldl (fun t f => t.store f.1 f.2) tm

-- At most one tick of the clock: the gap it comes in, or none at all.
def tickIn (hw : ClockHardware) : Option Nat → List (List (RtcState → RtcState))
  | none => []
  | some gap => List.replicate gap [] ++ [[hw.tick]]

theorem settime_updates (tm : RtcTime) (year : tm.inCentury) :
    ∃ tm', rtcSettime tm = Prog.updates ((timeFields tm).map storeField) >>= fun _ => pure (0, tm') := by
  have accepted : ¬ (tm.tmYear - 100 < 0 ∨ tm.tmYear - 100 ≥ 100) := by
    unfold RtcTime.inCentury at year
    omega
  exact ⟨_, by simp only [rtcSettime, if_neg accepted]; rfl⟩

theorem shown_moved (fields : List (RtcReg × Int)) (s : RtcState) (bounds : ∀ f ∈ fields, 0 ≤ f.2 ∧ f.2 < 100) :
    shown (moved ((fields.map storeField).map Prod.snd) s) = overwrite fields (shown s) := by
  induction fields generalizing s with
  | nil => rfl
  | cons field rest ih =>
      rw [List.forall_mem_cons] at bounds
      have stored := shown_write s field.1 field.2 bounds.1.1 bounds.1.2
      exact (ih _ bounds.2).trans (congrArg (overwrite rest) stored)

theorem fields_bounds (tm : RtcTime) (calendar : tm.InCalendar) (year : tm.inCentury) :
    ∀ f ∈ timeFields tm, 0 ≤ f.2 ∧ f.2 < 100 := by
  obtain ⟨sec, min, hour, mday, mon⟩ := calendar
  unfold RtcTime.inCentury at year
  simp only [timeFields, List.forall_mem_cons, List.not_mem_nil, false_implies, implies_true, and_true]
  omega

-- What a tick in a gap finds, and what is left of it when the call returns.
def foundAt (tm old : RtcTime) (gap : Nat) : RtcTime := overwrite ((timeFields tm).take gap) old

def leftOf (hw : ClockHardware) (tm old : RtcTime) (gap : Nat) : RtcTime :=
  overwrite ((timeFields tm).drop gap) (hw.advance (foundAt tm old gap))

theorem found_in_calendar (tm old : RtcTime) (gap : Nat) (new : tm.InCalendar) (newYear : tm.inCentury)
    (was : old.InCalendar) (wasYear : old.inCentury) :
    (foundAt tm old gap).InCalendar ∧ (foundAt tm old gap).inCentury := by
  have mon : 0 ≤ tm.tmMon + 1 - 1 ∧ tm.tmMon + 1 - 1 < 12 := by
    have bounds := new.mon
    omega
  have year : 100 ≤ tm.tmYear - 100 + 100 ∧ tm.tmYear - 100 + 100 < 200 := by
    unfold RtcTime.inCentury at newYear
    omega
  match gap with
  | 0 => exact ⟨was, wasYear⟩
  | 1 => exact ⟨⟨new.sec, was.min, was.hour, was.mday, was.mon⟩, wasYear⟩
  | 2 => exact ⟨⟨new.sec, new.min, was.hour, was.mday, was.mon⟩, wasYear⟩
  | 3 => exact ⟨⟨new.sec, new.min, new.hour, was.mday, was.mon⟩, wasYear⟩
  | 4 => exact ⟨⟨new.sec, new.min, new.hour, new.mday, was.mon⟩, wasYear⟩
  | 5 => exact ⟨⟨new.sec, new.min, new.hour, new.mday, mon⟩, wasYear⟩
  | n + 6 =>
      have all : (timeFields tm).take (n + 6) = timeFields tm := List.take_of_length_le (by simp [timeFields])
      rw [foundAt, all]
      exact ⟨⟨new.sec, new.min, new.hour, new.mday, mon⟩, year⟩

theorem settime_under_tick (hw : ClockHardware) (tm : RtcTime) (s : RtcState) (gap : Nat) (new : tm.InCalendar)
    (newYear : tm.inCentury) (was : (shown s).InCalendar) (wasYear : (shown s).inCentury) :
    ∃ tm' t, (rtcSettime tm).runAmid (tickIn hw (some gap)) s = .done (0, tm') t ∧
      shown t = leftOf hw tm (shown s) gap := by
  obtain ⟨tm', shape⟩ := settime_updates tm newYear
  have bounds := fields_bounds tm new newYear
  have found := found_in_calendar tm (shown s) gap new newYear was wasYear
  refine ⟨tm', _, by rw [shape, tickIn, Prog.amid_updates], ?_⟩
  rw [← List.map_drop, ← List.map_take, shown_moved _ _ fun f member => bounds f (List.mem_of_mem_drop member)]
  have before := shown_moved ((timeFields tm).take gap) s fun f member => bounds f (List.mem_of_mem_take member)
  rw [shown_tick hw _ (by rw [before]; exact found.1) (by rw [before]; exact found.2), before, leftOf, foundAt]

def timeDigits (tm : RtcTime) (dayEnds yearEnds : Bool) : List Digit := [
  ⟨tm.tmSec, decide (59 ≤ tm.tmSec), 0⟩, ⟨tm.tmMin, decide (59 ≤ tm.tmMin), 0⟩, ⟨tm.tmHour, decide (23 ≤ tm.tmHour), 0⟩,
  ⟨tm.tmMday, dayEnds, 1⟩, ⟨tm.tmMon, decide (11 ≤ tm.tmMon), 0⟩, ⟨tm.tmYear, yearEnds, 100⟩]

def timeValues (tm : RtcTime) : List Int := [tm.tmSec, tm.tmMin, tm.tmHour, tm.tmMday, tm.tmMon, tm.tmYear]

-- As the registers count, and as the calendar does, which has no last year.
def ClockHardware.digits (hw : ClockHardware) (tm : RtcTime) : List Digit :=
  timeDigits tm (hw.dayEnds tm.tmMday tm.tmMon tm.tmYear) (decide (199 ≤ tm.tmYear))

def calendarDigits (tm : RtcTime) : List Digit := timeDigits tm (lastDay tm) false

theorem values_injective (a b : RtcTime) : timeValues a = timeValues b ↔ a = b := by
  cases a
  cases b
  simp [timeValues]

-- A second either stays in the year or carries all the way up to it.
theorem next_second_cases (tm : RtcTime) (dayEnds : Bool) :
    ((nextSecond dayEnds tm).tmYear = tm.tmYear ∧
      ∀ yearEnds, countUp (timeDigits tm dayEnds yearEnds) = timeValues (nextSecond dayEnds tm)) ∨
    (nextSecond dayEnds tm = ⟨0, 0, 0, 1, 0, tm.tmYear + 1⟩ ∧ ∀ yearEnds,
      countUp (timeDigits tm dayEnds yearEnds) = [0, 0, 0, 1, 0, if yearEnds = true then 100 else tm.tmYear + 1]) := by
  have sec : 59 ≤ tm.tmSec ↔ ¬ tm.tmSec < 59 := Int.not_lt.symm
  have min : 59 ≤ tm.tmMin ↔ ¬ tm.tmMin < 59 := Int.not_lt.symm
  have hour : 23 ≤ tm.tmHour ↔ ¬ tm.tmHour < 23 := Int.not_lt.symm
  have mon : 11 ≤ tm.tmMon ↔ ¬ tm.tmMon < 11 := Int.not_lt.symm
  unfold nextSecond
  by_cases inSec : tm.tmSec < 59
  · left
    simp [timeDigits, timeValues, countUp, digitValues, sec, inSec]
  by_cases inMin : tm.tmMin < 59
  · left
    simp [timeDigits, timeValues, countUp, digitValues, sec, inSec, min, inMin]
  by_cases inHour : tm.tmHour < 23
  · left
    simp [timeDigits, timeValues, countUp, digitValues, sec, inSec, min, inMin, hour, inHour]
  cases dayEnds with
  | false =>
      left
      simp [timeDigits, timeValues, countUp, digitValues, sec, inSec, min, inMin, hour, inHour]
  | true =>
      by_cases inYear : tm.tmMon < 11
      · left
        simp [timeDigits, timeValues, countUp, digitValues, sec, inSec, min, inMin, hour, inHour, mon, inYear]
      · right
        simp only [if_neg inSec, if_neg inMin, if_neg inHour, if_neg inYear, Bool.true_eq_false, if_false, true_and]
        intro yearEnds
        cases yearEnds <;>
          simp [timeDigits, countUp, digitValues, sec, inSec, min, inMin, hour, inHour, mon, inYear]

theorem plus_second_values (tm : RtcTime) : timeValues (plusSecond tm) = countUp (calendarDigits tm) := by
  cases next_second_cases tm (lastDay tm) with
  | inl within => exact (within.2 false).symm
  | inr carried =>
      rw [plusSecond, carried.1, calendarDigits, carried.2 false]
      rfl

-- In the last year the carry out of the months goes back to 2000.
theorem advance_values (hw : ClockHardware) (tm : RtcTime) (year : tm.tmYear < 200) :
    timeValues (hw.advance tm) = countUp (hw.digits tm) := by
  cases next_second_cases tm (hw.dayEnds tm.tmMday tm.tmMon tm.tmYear) with
  | inl within => rw [ClockHardware.digits, within.2, ClockHardware.advance, wrap_inside _ (by omega)]
  | inr carried =>
      rw [ClockHardware.digits, carried.2, ClockHardware.advance, carried.1, wrapCentury]
      by_cases last : tm.tmYear = 199
      · simp [timeValues, last]
      · have before : ¬ 199 ≤ tm.tmYear := by omega
        have next : tm.tmYear + 1 ≠ 200 := by omega
        simp [timeValues, before, next]

theorem overwrite_drop (tm old : RtcTime) (gap : Nat) :
    timeValues (overwrite ((timeFields tm).drop gap) old) = (timeValues old).take gap ++ (timeValues tm).drop gap := by
  match gap with
  | 0 | 1 | 2 | 3 | 4 | 5 | n + 6 => simp [timeValues, timeFields, overwrite, RtcTime.store]

theorem found_shows (hw : ClockHardware) (tm old : RtcTime) (gap : Nat) :
    ShowsLow ((hw.digits (foundAt tm old gap)).take gap) (calendarDigits tm) := by
  match gap with
  | 0 | 1 | 2 | 3 | 4 | 5 | n + 6 =>
      simp [ClockHardware.digits, calendarDigits, timeDigits, ShowsLow, foundAt, timeFields, overwrite, RtcTime.store]

theorem calendar_digits_sound (tm : RtcTime) (valid : rtcValidTm tm) (century : tm.inCentury) : ∀ d ∈ calendarDigits tm, d.Sound := by
  obtain ⟨-, mon, mday, hour, min, sec⟩ := valid
  unfold RtcTime.inCentury at century
  have long : 28 ≤ daysIn tm.tmMon (tm.tmYear + 1900) := by
    unfold daysIn
    split <;> split <;> omega
  simp only [calendarDigits, timeDigits, List.forall_mem_cons, Digit.Sound, decide_eq_true_eq, lastDay]
  refine ⟨?_, ?_, ?_, ?_, ?_, ⟨by omega, nofun⟩, fun _ none => absurd none List.not_mem_nil⟩ <;> omega

-- The digits a tick in a gap counts up: those of the registers already stored.
def storedDigits (hw : ClockHardware) (tm old : RtcTime) (gap : Nat) : List Digit := (hw.digits (foundAt tm old gap)).take gap

-- The tick comes before the first store, or steps the registers already stored
-- as it would step the new time.
def HarmlessTick (hw : ClockHardware) (tm old : RtcTime) (gap : Nat) : Prop :=
  gap = 0 ∨ CarriesAlike (storedDigits hw tm old gap) (calendarDigits tm)

def Untorn (tm left : RtcTime) : Prop := left = tm ∨ left = plusSecond tm

theorem left_values (hw : ClockHardware) (tm old : RtcTime) (gap : Nat) (year : (foundAt tm old gap).tmYear < 200) :
    timeValues (leftOf hw tm old gap) = countUp (storedDigits hw tm old gap) ++
      digitValues ((calendarDigits tm).drop (storedDigits hw tm old gap).length) := by
  have length : (calendarDigits tm).drop (storedDigits hw tm old gap).length = (calendarDigits tm).drop gap := by
    rw [storedDigits, List.length_take]
    change (calendarDigits tm).drop (min gap (calendarDigits tm).length) = _
    rw [← List.drop_eq_drop_min]
  rw [length, leftOf, overwrite_drop, advance_values hw _ year, count_up_take, digitValues, List.map_drop]
  rfl

-- A stored time is never left as it is: the tick moves its seconds.
theorem left_changed (hw : ClockHardware) (tm old : RtcTime) (gap : Nat)
    (calendar : (foundAt tm old (gap + 1)).InCalendar) (year : (foundAt tm old (gap + 1)).tmYear < 200) :
    leftOf hw tm old (gap + 1) ≠ tm := by
  intro same
  have counted := left_values hw tm old (gap + 1) year
  rw [same] at counted
  have kept := shows_values _ _ (found_shows hw tm old (gap + 1))
  have unchanged := List.append_cancel_right (counted.symm.trans kept.symm)
  refine count_up_changes _ _ ⟨?_, ?_⟩ unchanged
  · have second := calendar.sec
    change 0 ≠ (foundAt tm old (gap + 1)).tmSec + 1
    omega
  · intro ends
    have last : 59 ≤ (foundAt tm old (gap + 1)).tmSec := of_decide_eq_true ends
    change 0 ≠ (foundAt tm old (gap + 1)).tmSec
    omega

theorem left_untorn_iff (hw : ClockHardware) (tm old : RtcTime) (gap : Nat) (valid : rtcValidTm tm)
    (century : tm.inCentury) (calendar : (foundAt tm old gap).InCalendar) (year : (foundAt tm old gap).tmYear < 200) :
    Untorn tm (leftOf hw tm old gap) ↔ HarmlessTick hw tm old gap := by
  cases gap with
  | zero =>
      have all := left_values hw tm old 0 year
      exact iff_of_true (.inl ((values_injective _ _).mp all)) (.inl rfl)
  | succ gap =>
      have changed := left_changed hw tm old gap calendar year
      have counted := low_step_iff _ _ (found_shows hw tm old (gap + 1)) (calendar_digits_sound tm valid century)
      rw [← storedDigits, ← left_values hw tm old (gap + 1) year, ← plus_second_values, values_injective] at counted
      simp only [Untorn, changed, false_or, HarmlessTick, Nat.add_eq_zero_iff, Nat.one_ne_zero, and_false]
      exact counted

theorem settime_untorn_iff (hw : ClockHardware) (tm : RtcTime) (s : RtcState) (tick : Option Nat) (valid : rtcValidTm tm)
    (century : tm.inCentury) (running : rtcValidTm (shown s)) (runningCentury : (shown s).inCentury) :
    ∃ tm' t, (rtcSettime tm).runAmid (tickIn hw tick) s = .done (0, tm') t ∧
      (Untorn tm (shown t) ↔ ∀ gap ∈ tick, HarmlessTick hw tm (shown s) gap) := by
  have new := rtc_valid_tm_checks tm valid
  have was := rtc_valid_tm_checks (shown s) running
  cases tick with
  | none =>
      obtain ⟨tm', stored⟩ := run_settime_stored tm s century
      refine ⟨tm', storedTime tm s, (Prog.amid_nothing _ s).trans stored, iff_of_true (.inl ?_) (by simp)⟩
      exact gettime_of_stored tm s new century
  | some gap =>
      obtain ⟨tm', t, ran, left'⟩ := settime_under_tick hw tm s gap new century was runningCentury
      obtain ⟨calendar, year⟩ := found_in_calendar tm (shown s) gap new century was runningCentury
      refine ⟨tm', t, ran, ?_⟩
      rw [left', left_untorn_iff hw tm (shown s) gap valid century calendar year.2]
      simp

theorem tick_before_stores_kept :
    ∃ tm' t, (rtcSettime testTime).runAmid (tickIn s3c2440Clock (some 0)) (storedTime testTime blankRtc) = .done (0, tm') t ∧
      (Untorn testTime (shown t) ↔
        ∀ gap ∈ some 0, HarmlessTick s3c2440Clock testTime (shown (storedTime testTime blankRtc)) gap) := by
  have same : shown (storedTime testTime blankRtc) = testTime := rfl
  have valid : rtcValidTm testTime := by
    unfold rtcValidTm
    decide
  have century : testTime.inCentury := ⟨by decide, by decide⟩
  exact settime_untorn_iff s3c2440Clock testTime _ (some 0) valid century (same ▸ valid) (same ▸ century)

-- 09:50:59 is set and the second comes before the minutes are stored: the carry
-- into them is lost.
def lastSecond : RtcTime := ⟨59, 50, 9, 13, 1, 117⟩

theorem carry_overwritten :
    rtcValidTm lastSecond ∧ lastSecond.inCentury ∧ rtcValidTm (shown (storedTime testTime blankRtc)) ∧
      ∃ tm' t, (rtcSettime lastSecond).runAmid (tickIn s3c2440Clock (some 1)) (storedTime testTime blankRtc) =
        .done (0, tm') t ∧ shown t = ⟨0, 50, 9, 13, 1, 117⟩ ∧ ¬ Untorn lastSecond (shown t) := by
  refine ⟨?_, ⟨by decide, by decide⟩, ?_, _, _, rfl, rfl, ?_⟩
  · unfold rtcValidTm
    decide
  · unfold rtcValidTm
    decide
  · unfold Untorn
    decide

end OneDriver.Rtc
