import OneDriver.Rtc.Clock

set_option autoImplicit false

namespace OneDriver.Rtc

-- The six bytes of a date in 2000..2099, in the time registers and in those of
-- the alarm, with every field of the alarm enabled.
structure SharedDate (regs : RtcReg → BitVec 8) : Prop where
  digits : ClockBcd regs
  valid : rtcValidTm (decodeTime (rawClock regs))
  sec : regs .almsec = regs .rtcsec
  min : regs .almmin = regs .rtcmin
  hour : regs .almhour = regs .rtchour
  mday : regs .almdate = regs .rtcdate
  mon : regs .almmon = regs .rtcmon
  year : regs .almyear = regs .rtcyear
  fields : ∀ bit ∈ [Rtcalm.secen, Rtcalm.minen, Rtcalm.houren, Rtcalm.dayen, Rtcalm.monen, Rtcalm.yearen],
    regs .rtcalm &&& bit ≠ 0

def DecodersAgree (s : RtcState) : Prop :=
  ∃ tm alarm, rtcGettime.run s = .done (0, tm) s ∧ rtcGetalarm.run s = .done (0, alarm) s ∧ alarm.time = tm

-- The alarm's year is not counted from 1900.
theorem alarm_time_shared (regs : RtcReg → BitVec 8) (shared : SharedDate regs) :
    (decodeAlarm regs).time =
      { decodeTime (rawClock regs) with tmYear := (decodeTime (rawClock regs)).tmYear - 100 } := by
  have sec := shared.fields Rtcalm.secen (by simp)
  have min := shared.fields Rtcalm.minen (by simp)
  have hour := shared.fields Rtcalm.houren (by simp)
  have mday := shared.fields Rtcalm.dayen (by simp)
  have mon := shared.fields Rtcalm.monen (by simp)
  have year := shared.fields Rtcalm.yearen (by simp)
  simp only [decodeAlarm, alarmField, if_pos sec, if_pos min, if_pos hour, if_pos mday, if_pos mon, if_pos year,
    decodeTime, rawClock, decode_stored, shared.sec, shared.min, shared.hour, shared.mday, shared.mon, shared.year,
    Int.add_sub_cancel]

theorem shared_years_differ (s : RtcState) (shared : SharedDate s.regs) : ¬ DecodersAgree s := by
  intro agree
  obtain ⟨tm, alarm, clock, almanac, same⟩ := agree
  rw [run_rtc_gettime, Outcome.done.injEq, Prod.mk.injEq] at clock
  rw [run_rtc_getalarm, Outcome.done.injEq, Prod.mk.injEq] at almanac
  obtain ⟨⟨-, rfl⟩, -⟩ := clock
  obtain ⟨⟨-, rfl⟩, -⟩ := almanac
  have year := congrArg RtcTime.tmYear ((alarm_time_shared s.regs shared).symm.trans same)
  dsimp only at year
  omega

theorem decoders_never_agree (s : RtcState) (shared : SharedDate s.regs) :
    ¬ DecodersAgree s ∧ ∃ tm alarm, rtcGettime.run s = .done (0, tm) s ∧ rtcGetalarm.run s = .done (0, alarm) s ∧
      alarm.time = { tm with tmYear := tm.tmYear - 100 } :=
  ⟨shared_years_differ s shared, _, _, run_rtc_gettime s, run_rtc_getalarm s, alarm_time_shared s.regs shared⟩

-- 2017-02-13 09:50:04 in both banks.
def sharedRegs : RtcReg → BitVec 8
  | .rtcsec => 0x04
  | .rtcmin => 0x50
  | .rtchour => 0x09
  | .rtcdate => 0x13
  | .rtcmon => 0x02
  | .rtcyear => 0x17
  | .almsec => 0x04
  | .almmin => 0x50
  | .almhour => 0x09
  | .almdate => 0x13
  | .almmon => 0x02
  | .almyear => 0x17
  | .rtcalm => 0x7f
  | .rtccon => 0
  | .ticnt => 0

theorem shared_regs_date : SharedDate sharedRegs where
  digits := by constructor <;> exact ⟨by decide, by decide⟩
  valid := by
    unfold rtcValidTm
    decide
  sec := rfl
  min := rfl
  hour := rfl
  mday := rfl
  mon := rfl
  year := rfl
  fields := by decide

theorem shared_date_read_twice :
    SharedDate sharedRegs ∧ ¬ DecodersAgree { blankRtc with regs := sharedRegs } :=
  ⟨shared_regs_date, (decoders_never_agree { blankRtc with regs := sharedRegs } shared_regs_date).1⟩

theorem alarm_of_2017_reads_1917 :
    ∃ tm alarm, rtcGettime.run { blankRtc with regs := sharedRegs } = .done (0, tm) { blankRtc with regs := sharedRegs } ∧
      rtcGetalarm.run { blankRtc with regs := sharedRegs } = .done (0, alarm) { blankRtc with regs := sharedRegs } ∧
      tm.tmYear = 117 ∧ alarm.time.tmYear = 17 ∧ SharedDate sharedRegs ∧
      ¬ DecodersAgree { blankRtc with regs := sharedRegs } :=
  ⟨_, _, run_rtc_gettime _, run_rtc_getalarm _, by decide, by decide, shared_regs_date,
    shared_years_differ _ shared_regs_date⟩

end OneDriver.Rtc
