import OneDriver.Rtc.Clock

set_option autoImplicit false

namespace OneDriver.Rtc

def shown (s : RtcState) : RtcTime := decodeTime (rawClock s.regs)

-- The day counter goes by the date, month and year it finds. On a date of the
-- calendar it ends the month with its last day; on a date that the month does
-- not have the hardware is free.
structure ClockHardware where
  dayEnds : Int → Int → Int → Bool
  calendar : ∀ mday mon year, 1 ≤ mday → mday ≤ daysIn mon (year + 1900) →
    (dayEnds mday mon year = true ↔ mday = daysIn mon (year + 1900))

def s3c2440Clock : ClockHardware where
  dayEnds := fun mday mon year => decide (mday = daysIn mon (year + 1900))
  calendar := fun _ _ _ _ _ => decide_eq_true_iff

def midnight (s : RtcState) : RtcState :=
  ((s.write .rtcsec (bin2bcd 0)).write .rtcmin (bin2bcd 0)).write .rtchour (bin2bcd 0)

def firstOfMonth (s : RtcState) : RtcState := (midnight s).write .rtcdate (bin2bcd 1)

-- One second goes by. The year register has two digits and no carry.
def ClockHardware.tick (hw : ClockHardware) (s : RtcState) : RtcState :=
  let tm := shown s
  if tm.tmSec < 59 then s.write .rtcsec (bin2bcd (tm.tmSec + 1))
  else if tm.tmMin < 59 then (s.write .rtcsec (bin2bcd 0)).write .rtcmin (bin2bcd (tm.tmMin + 1))
  else if tm.tmHour < 23 then
    ((s.write .rtcsec (bin2bcd 0)).write .rtcmin (bin2bcd 0)).write .rtchour (bin2bcd (tm.tmHour + 1))
  else if hw.dayEnds tm.tmMday tm.tmMon tm.tmYear = false then (midnight s).write .rtcdate (bin2bcd (tm.tmMday + 1))
  else if tm.tmMon < 11 then (firstOfMonth s).write .rtcmon (bin2bcd (tm.tmMon + 2))
  else ((firstOfMonth s).write .rtcmon (bin2bcd 1)).write .rtcyear
    (bin2bcd (if tm.tmYear < 199 then tm.tmYear - 99 else 0))

-- The same second on the time itself, where the last day of the month is known.
def nextSecond (dayEnds : Bool) (tm : RtcTime) : RtcTime :=
  if tm.tmSec < 59 then { tm with tmSec := tm.tmSec + 1 }
  else if tm.tmMin < 59 then { tm with tmSec := 0, tmMin := tm.tmMin + 1 }
  else if tm.tmHour < 23 then { tm with tmSec := 0, tmMin := 0, tmHour := tm.tmHour + 1 }
  else if dayEnds = false then { tm with tmSec := 0, tmMin := 0, tmHour := 0, tmMday := tm.tmMday + 1 }
  else if tm.tmMon < 11 then { tm with tmSec := 0, tmMin := 0, tmHour := 0, tmMday := 1, tmMon := tm.tmMon + 1 }
  else ⟨0, 0, 0, 1, 0, tm.tmYear + 1⟩

def lastDay (tm : RtcTime) : Bool := decide (tm.tmMday = daysIn tm.tmMon (tm.tmYear + 1900))

def plusSecond (tm : RtcTime) : RtcTime := nextSecond (lastDay tm) tm

def wrapCentury (tm : RtcTime) : RtcTime := { tm with tmYear := if tm.tmYear = 200 then 100 else tm.tmYear }

def ClockHardware.advance (hw : ClockHardware) (tm : RtcTime) : RtcTime :=
  wrapCentury (nextSecond (hw.dayEnds tm.tmMday tm.tmMon tm.tmYear) tm)

-- What a value stored in a register makes of the time shown.
def RtcTime.store (tm : RtcTime) : RtcReg → Int → RtcTime
  | .rtcsec, value => { tm with tmSec := value }
  | .rtcmin, value => { tm with tmMin := value }
  | .rtchour, value => { tm with tmHour := value }
  | .rtcdate, value => { tm with tmMday := value }
  | .rtcmon, value => { tm with tmMon := value - 1 }
  | .rtcyear, value => { tm with tmYear := value + 100 }
  | _, _ => tm

theorem shown_write (s : RtcState) (reg : RtcReg) (value : Int) (low : 0 ≤ value) (high : value < 100) :
    shown (s.write reg (bin2bcd value)) = (shown s).store reg value := by
  have stored := bcd2bin_bin2bcd value low high
  cases reg <;> simp [shown, decodeTime, rawClock, decode_stored, RtcTime.store, stored]

theorem shown_midnight (s : RtcState) :
    shown (midnight s) = { shown s with tmSec := 0, tmMin := 0, tmHour := 0 } := by
  simp only [midnight, shown_write _ _ 0 (by decide) (by decide), RtcTime.store]

theorem shown_first_of_month (s : RtcState) :
    shown (firstOfMonth s) = { shown s with tmSec := 0, tmMin := 0, tmHour := 0, tmMday := 1 } := by
  simp only [firstOfMonth, shown_write _ _ 1 (by decide) (by decide), shown_midnight, RtcTime.store]

theorem wrap_inside (tm : RtcTime) (year : tm.tmYear < 200) : wrapCentury tm = tm := by
  rw [wrapCentury, if_neg (by omega)]

theorem shown_tick (hw : ClockHardware) (s : RtcState) (calendar : (shown s).InCalendar) (year : (shown s).inCentury) :
    shown (hw.tick s) = hw.advance (shown s) := by
  obtain ⟨sec, min, hour, mday, mon⟩ := calendar
  unfold RtcTime.inCentury at year
  unfold ClockHardware.tick ClockHardware.advance nextSecond
  by_cases inSec : (shown s).tmSec < 59
  · simp only [if_pos inSec]
    rw [wrap_inside _ (by exact year.2), shown_write _ _ _ (by omega) (by omega), RtcTime.store]
  by_cases inMin : (shown s).tmMin < 59
  · simp only [if_neg inSec, if_pos inMin]
    rw [wrap_inside _ (by exact year.2), shown_write _ _ _ (by omega) (by omega),
      shown_write _ _ 0 (by decide) (by decide), RtcTime.store, RtcTime.store]
  by_cases inHour : (shown s).tmHour < 23
  · simp only [if_neg inSec, if_neg inMin, if_pos inHour]
    rw [wrap_inside _ (by exact year.2), shown_write _ _ _ (by omega) (by omega),
      shown_write _ _ 0 (by decide) (by decide), shown_write _ _ 0 (by decide) (by decide)]
    rfl
  by_cases inMonth : hw.dayEnds (shown s).tmMday (shown s).tmMon (shown s).tmYear = false
  · simp only [if_neg inSec, if_neg inMin, if_neg inHour, if_pos inMonth]
    rw [wrap_inside _ (by exact year.2), shown_write _ _ _ (by omega) (by omega), shown_midnight, RtcTime.store]
  by_cases inYear : (shown s).tmMon < 11
  · simp only [if_neg inSec, if_neg inMin, if_neg inHour, if_neg inMonth, if_pos inYear]
    rw [wrap_inside _ (by exact year.2), shown_write _ _ _ (by omega) (by omega), shown_first_of_month, RtcTime.store]
    simp only [RtcTime.mk.injEq, true_and, and_true]
    omega
  · simp only [if_neg inSec, if_neg inMin, if_neg inHour, if_neg inMonth, if_neg inYear]
    have low : 0 ≤ if (shown s).tmYear < 199 then (shown s).tmYear - 99 else 0 := by split <;> omega
    have high : (if (shown s).tmYear < 199 then (shown s).tmYear - 99 else 0) < 100 := by split <;> omega
    rw [shown_write _ _ _ low high, shown_write _ _ 1 (by decide) (by decide), shown_first_of_month, RtcTime.store,
      RtcTime.store, wrapCentury]
    simp only [RtcTime.mk.injEq, true_and, Int.sub_self]
    split_ifs <;> omega

end OneDriver.Rtc
