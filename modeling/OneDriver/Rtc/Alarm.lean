import OneDriver.Rtc.Regs

set_option autoImplicit false

namespace OneDriver.Rtc

structure RtcTime where
  tmSec : Int
  tmMin : Int
  tmHour : Int
  tmMday : Int
  tmMon : Int
  tmYear : Int
deriving DecidableEq, Repr

structure RtcWkalrm where
  enabled : BitVec 8
  time : RtcTime
deriving DecidableEq, Repr

def rtcSetaie (flag : Int) : RtcProg Unit := do
  let tmp ← readb .rtcalm
  let tmp := tmp &&& ~~~Rtcalm.almen
  let tmp := if flag ≠ 0 then tmp ||| Rtcalm.almen else tmp
  writeb tmp .rtcalm

def enableIrqWake : RtcProg Unit := .modify .irqWake fun s => { s with alarmWake := s.alarmWake + 1 }

def disableIrqWake : RtcProg Unit := .modify .irqWake fun s => { s with alarmWake := s.alarmWake - 1 }

def setIrqWake (on : Bool) : RtcProg Unit := if on then enableIrqWake else disableIrqWake

def inRange (value bound : Int) : Prop := value < bound ∧ value ≥ 0

instance (value bound : Int) : Decidable (inRange value bound) := inferInstanceAs (Decidable (_ ∧ _))

-- One `if (in range)` block: the register is stored and its enable bit noted.
def storeIf (cond : Prop) [Decidable cond] (value : BitVec 8) (reg : RtcReg) (alarmEn bit : BitVec 8) :
    RtcProg (BitVec 8) :=
  if cond then do
    writeb value reg
    pure (alarmEn ||| bit)
  else pure alarmEn

-- The minute block is as the source has it: it sets SECEN and stores tm_sec.
def rtcSetalarm (alarm : RtcWkalrm) : RtcProg Int := do
  let tm := alarm.time
  let old ← readb .rtcalm
  writeb 0x00 .rtcalm
  let alarmEn ← storeIf (inRange tm.tmSec 60) (bin2bcd tm.tmSec) .almsec (old &&& Rtcalm.almen) Rtcalm.secen
  let alarmEn ← storeIf (inRange tm.tmMin 60) (bin2bcd tm.tmSec) .almmin alarmEn Rtcalm.secen
  let alarmEn ← storeIf (inRange tm.tmHour 24) (bin2bcd tm.tmHour) .almhour alarmEn Rtcalm.houren
  writeb alarmEn .rtcalm
  rtcSetaie alarm.enabled.toNat
  setIrqWake (alarm.enabled ≠ 0)
  pure 0

-- Each field is the register's BCD when its enable bit is set and a filler
-- otherwise; `enabled` tests the register's offset, not ALMEN.
def alarmField (alarmEn bit raw : BitVec 8) (filler : Int) : Int :=
  if alarmEn &&& bit ≠ 0 then bcd2bin raw else filler

def rtcGetalarm : RtcProg (Int × RtcWkalrm) := do
  let sec ← readb .almsec
  let min ← readb .almmin
  let hour ← readb .almhour
  let mon ← readb .almmon
  let mday ← readb .almdate
  let year ← readb .almyear
  let alarmEn ← readb .rtcalm
  pure (0, {
    enabled := if alarmEn &&& rtcalmOffset ≠ 0 then 1 else 0
    time := {
      tmSec := alarmField alarmEn Rtcalm.secen sec 0xff
      tmMin := alarmField alarmEn Rtcalm.minen min 0xff
      tmHour := alarmField alarmEn Rtcalm.houren hour 0xff
      tmMday := alarmField alarmEn Rtcalm.dayen mday 0xff
      tmMon := if alarmEn &&& Rtcalm.monen ≠ 0 then bcd2bin mon - 1 else 0xff
      tmYear := alarmField alarmEn Rtcalm.yearen year 0xffff } })

def decodeAlarm (regs : RtcReg → BitVec 8) : RtcWkalrm where
  enabled := if regs .rtcalm &&& rtcalmOffset ≠ 0 then 1 else 0
  time := {
    tmSec := alarmField (regs .rtcalm) Rtcalm.secen (regs .almsec) 0xff
    tmMin := alarmField (regs .rtcalm) Rtcalm.minen (regs .almmin) 0xff
    tmHour := alarmField (regs .rtcalm) Rtcalm.houren (regs .almhour) 0xff
    tmMday := alarmField (regs .rtcalm) Rtcalm.dayen (regs .almdate) 0xff
    tmMon := if regs .rtcalm &&& Rtcalm.monen ≠ 0 then bcd2bin (regs .almmon) - 1 else 0xff
    tmYear := alarmField (regs .rtcalm) Rtcalm.yearen (regs .almyear) 0xffff }

@[simp] theorem run_rtc_getalarm (s : RtcState) : rtcGetalarm.run s = .done (0, decodeAlarm s.regs) s := rfl

def alarmMask (alarm : RtcWkalrm) : BitVec 8 :=
  bitIf (alarm.enabled ≠ 0) Rtcalm.almen |||
    bitIf (inRange alarm.time.tmSec 60 ∨ inRange alarm.time.tmMin 60) Rtcalm.secen |||
    bitIf (inRange alarm.time.tmHour 24) Rtcalm.houren

def RtcState.writeIf (s : RtcState) (cond : Prop) [Decidable cond] (reg : RtcReg) (value : BitVec 8) : RtcState :=
  if cond then s.write reg value else s

@[simp] theorem write_if_regs (s : RtcState) (cond : Prop) [Decidable cond] (reg other : RtcReg) (value : BitVec 8) :
    (s.writeIf cond reg value).regs other = if cond ∧ other = reg then value else s.regs other := by
  by_cases holds : cond
  · by_cases same : other = reg <;> simp [RtcState.writeIf, holds, same]
  · simp [RtcState.writeIf, holds]

@[simp] theorem write_if_alarm_wake (s : RtcState) (cond : Prop) [Decidable cond] (reg : RtcReg) (value : BitVec 8) :
    (s.writeIf cond reg value).alarmWake = s.alarmWake := by
  unfold RtcState.writeIf
  split <;> rfl

@[simp] theorem run_store_if (cond : Prop) [Decidable cond] (reg : RtcReg) (value alarmEn bit : BitVec 8) (s : RtcState) :
    (storeIf cond value reg alarmEn bit).run s = .done (alarmEn ||| bitIf cond bit) (s.writeIf cond reg value) := by
  by_cases holds : cond <;> simp [storeIf, holds, bitIf, RtcState.writeIf]

@[simp] theorem run_set_irq_wake (on : Bool) (s : RtcState) :
    (setIrqWake on).run s = .done () { s with alarmWake := if on then s.alarmWake + 1 else s.alarmWake - 1 } := by
  cases on <;> rfl

@[simp] theorem run_rtc_setaie (flag : Int) (s : RtcState) :
    (rtcSetaie flag).run s = .done () (s.write .rtcalm
      (s.regs .rtcalm &&& ~~~Rtcalm.almen ||| bitIf (flag ≠ 0) Rtcalm.almen)) := by
  by_cases on : flag = 0 <;> simp [rtcSetaie, bitIf, on]

theorem bit_if_clear (cond : Prop) [Decidable cond] (bit : BitVec 8) (clear : bit &&& ~~~Rtcalm.almen = bit) :
    bitIf cond bit &&& ~~~Rtcalm.almen = bitIf cond bit := by
  unfold bitIf
  split
  · exact clear
  · exact BitVec.zero_and

theorem bit_if_or (left right : Prop) [Decidable left] [Decidable right] (bit : BitVec 8) :
    bitIf left bit ||| bitIf right bit = bitIf (left ∨ right) bit := by
  by_cases l : left <;> by_cases r : right <;> simp [bitIf, l, r]

theorem almen_replaced (old sec min hour on : BitVec 8) (secClear : sec &&& ~~~Rtcalm.almen = sec)
    (minClear : min &&& ~~~Rtcalm.almen = min) (hourClear : hour &&& ~~~Rtcalm.almen = hour) :
    (old &&& Rtcalm.almen ||| sec ||| min ||| hour) &&& ~~~Rtcalm.almen ||| on = on ||| (sec ||| min) ||| hour := by
  have cleared : old &&& Rtcalm.almen &&& ~~~Rtcalm.almen = 0#8 := by
    rw [BitVec.and_assoc]
    exact BitVec.and_zero
  simp only [BitVec.and_or_distrib_right, cleared, secClear, minClear, hourClear, BitVec.zero_or]
  rw [BitVec.or_comm _ on, BitVec.or_assoc on]

theorem run_rtc_setalarm (alarm : RtcWkalrm) (s : RtcState) :
    ∃ t, (rtcSetalarm alarm).run s = .done 0 t ∧ t.regs .rtcalm = alarmMask alarm ∧
      t.regs .almsec = (if inRange alarm.time.tmSec 60 then bin2bcd alarm.time.tmSec else s.regs .almsec) ∧
      t.regs .almmin = (if inRange alarm.time.tmMin 60 then bin2bcd alarm.time.tmSec else s.regs .almmin) ∧
      t.regs .almhour = (if inRange alarm.time.tmHour 24 then bin2bcd alarm.time.tmHour else s.regs .almhour) ∧
      t.alarmWake = (if alarm.enabled ≠ 0 then s.alarmWake + 1 else s.alarmWake - 1) := by
  have flag : bitIf ((alarm.enabled.toNat : Int) ≠ 0) Rtcalm.almen = bitIf (alarm.enabled ≠ 0) Rtcalm.almen := by
    simp [bitIf, BitVec.toNat_eq]
  refine ⟨_, by simp only [rtcSetalarm, Prog.run_bind, run_readb, run_writeb, run_store_if, run_rtc_setaie,
    run_set_irq_wake, Prog.run_pure, outcome_bind_done]; rfl, ?_, ?_, ?_, ?_, ?_⟩
  · simp only [write_regs_same, flag, alarmMask, ← bit_if_or]
    exact almen_replaced _ _ _ _ _ (bit_if_clear _ _ (by decide)) (bit_if_clear _ _ (by decide))
      (bit_if_clear _ _ (by decide))
  all_goals simp

-- What a read-back owes a request: each in-range field as it was set, the
-- filler for one that was out of range, and the enabled flag.
def ReadsBack (read request : RtcWkalrm) : Prop :=
  read.time.tmSec = (if inRange request.time.tmSec 60 then request.time.tmSec else 0xff) ∧
    read.time.tmMin = (if inRange request.time.tmMin 60 then request.time.tmMin else 0xff) ∧
    read.time.tmHour = (if inRange request.time.tmHour 24 then request.time.tmHour else 0xff) ∧
    read.enabled = request.enabled

def setThenGet (request : RtcWkalrm) : RtcProg (Int × RtcWkalrm) := do
  let _ ← rtcSetalarm request
  rtcGetalarm

def AlarmRoundTrip (request : RtcWkalrm) (s : RtcState) : Prop :=
  ∃ read t, (setThenGet request).run s = .done (0, read) t ∧ ReadsBack read request

theorem alarm_mask_sec (alarm : RtcWkalrm) :
    alarmMask alarm &&& Rtcalm.secen ≠ 0 ↔ inRange alarm.time.tmSec 60 ∨ inRange alarm.time.tmMin 60 := by
  unfold alarmMask bitIf
  split <;> split <;> split <;> simp_all <;> decide

theorem alarm_mask_min (alarm : RtcWkalrm) : alarmMask alarm &&& Rtcalm.minen = 0 := by
  unfold alarmMask bitIf
  split <;> split <;> split <;> decide

theorem alarm_mask_hour (alarm : RtcWkalrm) :
    alarmMask alarm &&& Rtcalm.houren ≠ 0 ↔ inRange alarm.time.tmHour 24 := by
  unfold alarmMask bitIf
  split <;> split <;> split <;> simp_all <;> decide

-- MONEN is never set, so testing the offset is testing ALMEN here.
theorem alarm_mask_enabled (alarm : RtcWkalrm) :
    alarmMask alarm &&& rtcalmOffset ≠ 0 ↔ alarm.enabled ≠ 0 := by
  unfold alarmMask bitIf
  split <;> split <;> split <;> simp_all <;> decide

theorem in_range_bcd (value bound : Int) (within : inRange value bound) (small : bound ≤ 100) :
    bcd2bin (bin2bcd value) = value := by
  obtain ⟨high, low⟩ := within
  exact bcd2bin_bin2bcd value low (by omega)

-- What is read back, whatever the request: tm_min is always the filler.
theorem run_set_then_get (request : RtcWkalrm) (s : RtcState) :
    ∃ read t, (setThenGet request).run s = .done (0, read) t ∧ read.time.tmMin = 0xff ∧
      (¬ inRange request.time.tmMin 60 →
        read.time.tmSec = if inRange request.time.tmSec 60 then request.time.tmSec else 0xff) ∧
      read.time.tmHour = (if inRange request.time.tmHour 24 then request.time.tmHour else 0xff) ∧
      read.enabled = if request.enabled ≠ 0 then 1 else 0 := by
  obtain ⟨t, ran, mask, almsec, -, almhour, -⟩ := run_rtc_setalarm request s
  refine ⟨decodeAlarm t.regs, t, by simp [setThenGet, ran], ?_, ?_, ?_, ?_⟩
  · simp [decodeAlarm, alarmField, mask, alarm_mask_min]
  · intro minOut
    by_cases sec : inRange request.time.tmSec 60
    · have set := (alarm_mask_sec request).mpr (.inl sec)
      simp only [decodeAlarm, alarmField, mask, if_pos set, almsec, if_pos sec]
      exact in_range_bcd _ 60 sec (by decide)
    · have clear := mt (alarm_mask_sec request).mp (not_or.mpr ⟨sec, minOut⟩)
      simp only [decodeAlarm, alarmField, mask, if_neg clear, if_neg sec]
  · by_cases hour : inRange request.time.tmHour 24
    · have set := (alarm_mask_hour request).mpr hour
      simp only [decodeAlarm, alarmField, mask, if_pos set, almhour, if_pos hour]
      exact in_range_bcd _ 24 hour (by decide)
    · have clear := mt (alarm_mask_hour request).mp hour
      simp only [decodeAlarm, alarmField, mask, if_neg clear, if_neg hour]
  · simp only [decodeAlarm, mask, alarm_mask_enabled]

theorem alarm_round_trip_iff (request : RtcWkalrm) (s : RtcState) (flag : request.enabled = 0 ∨ request.enabled = 1) :
    AlarmRoundTrip request s ↔ ¬ inRange request.time.tmMin 60 := by
  obtain ⟨read, t, ran, tmMin, tmSec, tmHour, enabled⟩ := run_set_then_get request s
  constructor
  · rintro ⟨other, u, again, back⟩ min
    obtain ⟨rfl, rfl⟩ : read = other ∧ t = u := by simpa [ran] using again
    have kept := back.2.1
    rw [tmMin, if_pos min] at kept
    exact absurd min.1 (by omega)
  · intro minOut
    refine ⟨read, t, ran, tmSec minOut, ?_, tmHour, ?_⟩
    · rw [tmMin, if_neg minOut]
    · rcases flag with off | on
      · simp [enabled, off]
      · simp [enabled, on]

-- The alarm that rtc_unit_test.c sets: 09:00:00.
def testAlarm : RtcWkalrm := ⟨1, ⟨0, 0, 9, 13, 1, 117⟩⟩

theorem alarm_round_trip_without_minutes :
    AlarmRoundTrip { testAlarm with time := { testAlarm.time with tmMin := 60 } } blankRtc :=
  (alarm_round_trip_iff _ blankRtc (.inr rfl)).mpr (by decide)

theorem test_alarm_loses_its_minute : ¬ AlarmRoundTrip testAlarm blankRtc := by
  intro law
  obtain ⟨read, t, ran, back⟩ := law
  obtain ⟨actual, u, again, tmMin, -⟩ := run_set_then_get testAlarm blankRtc
  obtain ⟨rfl, rfl⟩ : read = actual ∧ t = u := by simpa [again, eq_comm] using ran
  have kept := back.2.1
  rw [tmMin, if_pos (by decide)] at kept
  exact absurd kept (by decide)

end OneDriver.Rtc
