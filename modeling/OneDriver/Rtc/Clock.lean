import OneDriver.Rtc.Alarm

set_option autoImplicit false

namespace OneDriver.Rtc

-- One pass over the six time registers, in the order of rtc_gettime.
def readClock : RtcProg RtcTime := do
  let min ← readb .rtcmin
  let hour ← readb .rtchour
  let mday ← readb .rtcdate
  let mon ← readb .rtcmon
  let year ← readb .rtcyear
  let sec ← readb .rtcsec
  pure {
    tmSec := sec.toNat
    tmMin := min.toNat
    tmHour := hour.toNat
    tmMday := mday.toNat
    tmMon := mon.toNat
    tmYear := year.toNat }

-- A zero second may have come with a carry between two reads: read once more.
def retryGetTime (raw : RtcTime) : RtcProg RtcTime := if raw.tmSec = 0 then readClock else pure raw

def decodeField (raw : Int) : Int := bcd2bin (BitVec.ofInt 8 raw)

def decodeTime (raw : RtcTime) : RtcTime where
  tmSec := decodeField raw.tmSec
  tmMin := decodeField raw.tmMin
  tmHour := decodeField raw.tmHour
  tmMday := decodeField raw.tmMday
  tmMon := decodeField raw.tmMon - 1
  tmYear := decodeField raw.tmYear + 100

def rtcGettime : RtcProg (Int × RtcTime) := do
  let raw ← readClock
  let raw ← retryGetTime raw
  pure (0, decodeTime raw)

-- The caller's struct is changed in place and not put back.
def rtcSettime (tm : RtcTime) : RtcProg (Int × RtcTime) :=
  let tm := { tm with tmYear := tm.tmYear - 100, tmMon := tm.tmMon + 1 }
  if tm.tmYear < 0 ∨ tm.tmYear ≥ 100 then pure (-einval, tm)
  else do
    writeb (bin2bcd tm.tmSec) .rtcsec
    writeb (bin2bcd tm.tmMin) .rtcmin
    writeb (bin2bcd tm.tmHour) .rtchour
    writeb (bin2bcd tm.tmMday) .rtcdate
    writeb (bin2bcd tm.tmMon) .rtcmon
    writeb (bin2bcd tm.tmYear) .rtcyear
    pure (0, tm)

def rawClock (regs : RtcReg → BitVec 8) : RtcTime where
  tmSec := (regs .rtcsec).toNat
  tmMin := (regs .rtcmin).toNat
  tmHour := (regs .rtchour).toNat
  tmMday := (regs .rtcdate).toNat
  tmMon := (regs .rtcmon).toNat
  tmYear := (regs .rtcyear).toNat

@[simp] theorem run_read_clock (s : RtcState) : readClock.run s = .done (rawClock s.regs) s := rfl

-- On a clock that stands still the second pass reads what the first one did.
theorem run_rtc_gettime (s : RtcState) : rtcGettime.run s = .done (0, decodeTime (rawClock s.regs)) s := by
  by_cases zero : (rawClock s.regs).tmSec = 0 <;> simp [rtcGettime, retryGetTime, zero]

theorem decode_stored (value : BitVec 8) : decodeField value.toNat = bcd2bin value := by
  have same : BitVec.ofInt 8 (value.toNat : Int) = value := by simp
  rw [decodeField, same]

def storedTime (tm : RtcTime) (s : RtcState) : RtcState :=
  (((((s.write .rtcsec (bin2bcd tm.tmSec)).write .rtcmin (bin2bcd tm.tmMin)).write .rtchour
    (bin2bcd tm.tmHour)).write .rtcdate (bin2bcd tm.tmMday)).write .rtcmon (bin2bcd (tm.tmMon + 1))).write .rtcyear
      (bin2bcd (tm.tmYear - 100))

def RtcTime.inCentury (tm : RtcTime) : Prop := 100 ≤ tm.tmYear ∧ tm.tmYear < 200

theorem run_settime_stored (tm : RtcTime) (s : RtcState) (year : tm.inCentury) :
    ∃ tm', (rtcSettime tm).run s = .done (0, tm') (storedTime tm s) := by
  have accepted : ¬ (tm.tmYear - 100 < 0 ∨ tm.tmYear - 100 ≥ 100) := by
    unfold RtcTime.inCentury at year
    omega
  exact ⟨_, by simp only [rtcSettime, if_neg accepted, Prog.run_bind, run_writeb, outcome_bind_done, Prog.run_pure]; rfl⟩

theorem run_settime_refused (tm : RtcTime) (s : RtcState) (year : ¬ tm.inCentury) :
    ∃ tm', (rtcSettime tm).run s = .done (-einval, tm') s := by
  have refused : tm.tmYear - 100 < 0 ∨ tm.tmYear - 100 ≥ 100 := by
    unfold RtcTime.inCentury at year
    omega
  exact ⟨_, by simp only [rtcSettime, if_pos refused, Prog.run_pure]; rfl⟩

-- What rtc_valid_tm checks of the fields that reach a register.
structure RtcTime.InCalendar (tm : RtcTime) : Prop where
  sec : 0 ≤ tm.tmSec ∧ tm.tmSec < 60
  min : 0 ≤ tm.tmMin ∧ tm.tmMin < 60
  hour : 0 ≤ tm.tmHour ∧ tm.tmHour < 24
  mday : 1 ≤ tm.tmMday ∧ tm.tmMday ≤ 31
  mon : 0 ≤ tm.tmMon ∧ tm.tmMon < 12

theorem gettime_of_stored (tm : RtcTime) (s : RtcState) (calendar : tm.InCalendar) (year : tm.inCentury) :
    decodeTime (rawClock (storedTime tm s).regs) = tm := by
  have field : ∀ value : Int, 0 ≤ value → value < 100 → bcd2bin (bin2bcd value) = value := bcd2bin_bin2bcd
  obtain ⟨sec, min, hour, mday, mon⟩ := calendar
  unfold RtcTime.inCentury at year
  have sec' := field tm.tmSec sec.1 (by omega)
  have min' := field tm.tmMin min.1 (by omega)
  have hour' := field tm.tmHour hour.1 (by omega)
  have mday' := field tm.tmMday (by omega) (by omega)
  have mon' := field (tm.tmMon + 1) (by omega) (by omega)
  have year' := field (tm.tmYear - 100) (by omega) (by omega)
  simp [decodeTime, rawClock, decode_stored, storedTime, sec', min', hour', mday', mon', year']

def ValidBcd (value : BitVec 8) : Prop := value.toNat % 16 < 10 ∧ value.toNat / 16 < 10

structure ClockBcd (regs : RtcReg → BitVec 8) : Prop where
  sec : ValidBcd (regs .rtcsec)
  min : ValidBcd (regs .rtcmin)
  hour : ValidBcd (regs .rtchour)
  mday : ValidBcd (regs .rtcdate)
  mon : ValidBcd (regs .rtcmon)
  year : ValidBcd (regs .rtcyear)

theorem bcd2bin_bound (value : BitVec 8) (digits : ValidBcd value) : 0 ≤ bcd2bin value ∧ bcd2bin value < 100 := by
  obtain ⟨low, high⟩ := digits
  unfold bcd2bin
  omega

theorem bin2bcd_bcd2bin (value : BitVec 8) (digits : ValidBcd value) : bin2bcd (bcd2bin value) = value := by
  obtain ⟨nonneg, bounded⟩ := bcd2bin_bound value digits
  obtain ⟨low, high⟩ := digits
  apply BitVec.eq_of_toNat_eq
  rw [bin2bcd_toNat (bcd2bin value) nonneg bounded]
  unfold bcd2bin
  omega

theorem stored_of_gettime (s : RtcState) (digits : ClockBcd s.regs) :
    storedTime (decodeTime (rawClock s.regs)) s = s := by
  have same := fun reg (valid : ValidBcd (s.regs reg)) => bin2bcd_bcd2bin (s.regs reg) valid
  simp only [storedTime, decodeTime, rawClock, decode_stored, Int.sub_add_cancel, Int.add_sub_cancel, same _ digits.sec,
    same _ digits.min, same _ digits.hour, same _ digits.mday, same _ digits.mon, same _ digits.year, write_self]

theorem clock_round_trip (validTm : RtcTime → Prop) (checks : ∀ tm, validTm tm → tm.InCalendar) :
    (∀ tm s, validTm tm →
      (tm.inCentury ∧ ∃ tm' t, (rtcSettime tm).run s = .done (0, tm') t ∧ rtcGettime.run t = .done (0, tm) t) ∨
      (¬ tm.inCentury ∧ ∃ tm', (rtcSettime tm).run s = .done (-einval, tm') s)) ∧
    ∀ s : RtcState, ClockBcd s.regs →
      ∃ tm tm', rtcGettime.run s = .done (0, tm) s ∧ (rtcSettime tm).run s = .done (0, tm') s := by
  constructor
  · intro tm s valid
    by_cases year : tm.inCentury
    · obtain ⟨tm', stored⟩ := run_settime_stored tm s year
      refine .inl ⟨year, tm', _, stored, ?_⟩
      rw [run_rtc_gettime, gettime_of_stored tm s (checks tm valid) year]
    · exact .inr ⟨year, run_settime_refused tm s year⟩
  · intro s digits
    have year : (decodeTime (rawClock s.regs)).inCentury := by
      have bound := bcd2bin_bound _ digits.year
      simp only [RtcTime.inCentury, decodeTime, rawClock, decode_stored]
      omega
    obtain ⟨tm', stored⟩ := run_settime_stored _ s year
    rw [stored_of_gettime s digits] at stored
    exact ⟨_, tm', run_rtc_gettime s, stored⟩

-- rtc_valid_tm of the rtc core, as its documentation has it.
def daysIn (mon year : Int) : Int :=
  if mon = 1 then if year % 4 = 0 ∧ year % 100 ≠ 0 ∨ year % 400 = 0 then 29 else 28
  else if mon = 3 ∨ mon = 5 ∨ mon = 8 ∨ mon = 10 then 30
  else 31

def rtcValidTm (tm : RtcTime) : Prop :=
  70 ≤ tm.tmYear ∧ (0 ≤ tm.tmMon ∧ tm.tmMon < 12) ∧ (1 ≤ tm.tmMday ∧ tm.tmMday ≤ daysIn tm.tmMon (tm.tmYear + 1900)) ∧
    (0 ≤ tm.tmHour ∧ tm.tmHour < 24) ∧ (0 ≤ tm.tmMin ∧ tm.tmMin < 60) ∧ 0 ≤ tm.tmSec ∧ tm.tmSec < 60

theorem rtc_valid_tm_checks (tm : RtcTime) (valid : rtcValidTm tm) : tm.InCalendar := by
  obtain ⟨-, mon, mday, hour, min, sec⟩ := valid
  refine ⟨sec, min, hour, ⟨mday.1, ?_⟩, mon⟩
  have short : daysIn tm.tmMon (tm.tmYear + 1900) ≤ 31 := by
    unfold daysIn
    split <;> split <;> omega
  omega

-- The time rtc_unit_test.c sets: 2017-02-13 09:50:04.
def testTime : RtcTime := ⟨4, 50, 9, 13, 1, 117⟩

theorem test_time_round_trip :
    ∃ tm' t, (rtcSettime testTime).run blankRtc = .done (0, tm') t ∧ rtcGettime.run t = .done (0, testTime) t := by
  have valid : rtcValidTm testTime := by
    unfold rtcValidTm
    decide
  cases (clock_round_trip rtcValidTm rtc_valid_tm_checks).1 testTime blankRtc valid with
  | inl kept => exact kept.2
  | inr refused => exact absurd ⟨by decide, by decide⟩ refused.1

end OneDriver.Rtc
