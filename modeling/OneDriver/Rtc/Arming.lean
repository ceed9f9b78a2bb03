import OneDriver.Rtc.Clock
import OneDriver.Trail

set_option autoImplicit false

namespace OneDriver.Rtc

inductive AlarmField where
  | sec | min | hour | mday | mon | year
deriving DecidableEq, Repr

namespace AlarmField

def bit : AlarmField → BitVec 8
  | sec => Rtcalm.secen
  | min => Rtcalm.minen
  | hour => Rtcalm.houren
  | mday => Rtcalm.dayen
  | mon => Rtcalm.monen
  | year => Rtcalm.yearen

def reg : AlarmField → RtcReg
  | sec => .almsec
  | min => .almmin
  | hour => .almhour
  | mday => .almdate
  | mon => .almmon
  | year => .almyear

-- As the registers count it: months from 1, years from 2000.
def requested (tm : RtcTime) : AlarmField → Int
  | sec => tm.tmSec
  | min => tm.tmMin
  | hour => tm.tmHour
  | mday => tm.tmMday
  | mon => tm.tmMon + 1
  | year => tm.tmYear - 100

end AlarmField

def IsBcdOf (stored : BitVec 8) (value : Int) : Prop := ValidBcd stored ∧ bcd2bin stored = value

-- Registers that would not raise an alarm nobody asked for.
def Unspurious (alarm : RtcWkalrm) (regs : RtcReg → BitVec 8) : Prop :=
  regs .rtcalm &&& Rtcalm.almen ≠ 0 → alarm.enabled ≠ 0 ∧
    ∀ field : AlarmField, regs .rtcalm &&& field.bit ≠ 0 → IsBcdOf (regs field.reg) (field.requested alarm.time)

def isWrite : RtcStep → Bool
  | .writeb _ => true
  | _ => false

-- The states after each register write but the last.
def UnspuriousBetweenWrites (alarm : RtcWkalrm) (s : RtcState) : Prop :=
  ∀ t ∈ ((rtcSetalarm alarm).trail isWrite s).dropLast, Unspurious alarm t.regs

def UnspuriousThroughout (alarm : RtcWkalrm) (s : RtcState) : Prop :=
  ∀ t ∈ (rtcSetalarm alarm).trail isWrite s, Unspurious alarm t.regs

-- SECEN is set for a minute in range too, when no second has been stored.
def SecondsServe (alarm : RtcWkalrm) (s : RtcState) : Prop :=
  inRange alarm.time.tmMin 60 → ¬ inRange alarm.time.tmSec 60 → IsBcdOf (s.regs .almsec) alarm.time.tmSec

def Disarmed (s : RtcState) : Prop := s.regs .rtcalm &&& Rtcalm.almen = 0

instance (s : RtcState) : Decidable (Disarmed s) := inferInstanceAs (Decidable (_ = _))

theorem trail_store_if (cond : Prop) [Decidable cond] (value : BitVec 8) (reg : RtcReg) (alarmEn bit : BitVec 8)
    (s : RtcState) :
    (storeIf cond value reg alarmEn bit).trail isWrite s = if cond then [s.writeIf cond reg value] else [] := by
  by_cases holds : cond
  · simp only [storeIf, if_pos holds, RtcState.writeIf]
    rfl
  · simp only [storeIf, if_neg holds]
    rfl

def secStored (alarm : RtcWkalrm) (s : RtcState) : RtcState :=
  (s.write .rtcalm 0).writeIf (inRange alarm.time.tmSec 60) .almsec (bin2bcd alarm.time.tmSec)

def minStored (alarm : RtcWkalrm) (s : RtcState) : RtcState :=
  (secStored alarm s).writeIf (inRange alarm.time.tmMin 60) .almmin (bin2bcd alarm.time.tmSec)

def fieldsStored (alarm : RtcWkalrm) (s : RtcState) : RtcState :=
  (minStored alarm s).writeIf (inRange alarm.time.tmHour 24) .almhour (bin2bcd alarm.time.tmHour)

def armedMask (armed : Prop) [Decidable armed] (alarm : RtcWkalrm) : BitVec 8 :=
  bitIf armed Rtcalm.almen |||
    bitIf (inRange alarm.time.tmSec 60 ∨ inRange alarm.time.tmMin 60) Rtcalm.secen |||
    bitIf (inRange alarm.time.tmHour 24) Rtcalm.houren

theorem old_almen (old : BitVec 8) : old &&& Rtcalm.almen = bitIf (old &&& Rtcalm.almen ≠ 0) Rtcalm.almen := by
  revert old
  decide

theorem trail_readb (reg : RtcReg) (s : RtcState) : (readb reg).trail isWrite s = [] := rfl

theorem trail_writeb (value : BitVec 8) (reg : RtcReg) (s : RtcState) :
    (writeb value reg).trail isWrite s = [s.write reg value] := rfl

theorem trail_set_irq_wake (on : Bool) (s : RtcState) : (setIrqWake on).trail isWrite s = [] := by
  cases on <;> rfl

theorem trail_rtc_setaie (flag : Int) (s : RtcState) :
    (rtcSetaie flag).trail isWrite s =
      [s.write .rtcalm (s.regs .rtcalm &&& ~~~Rtcalm.almen ||| bitIf (flag ≠ 0) Rtcalm.almen)] := by
  by_cases on : flag = 0 <;> simp [rtcSetaie, trail_bind, trail_readb, trail_writeb, bitIf, on]

theorem enabled_flag (alarm : RtcWkalrm) :
    bitIf ((alarm.enabled.toNat : Int) ≠ 0) Rtcalm.almen = bitIf (alarm.enabled ≠ 0) Rtcalm.almen := by
  simp [bitIf, BitVec.toNat_eq]

-- The mask that the blocks have gathered over the old ALMEN, and what rtc_setaie
-- makes of it.
theorem gathered_mask (alarm : RtcWkalrm) (s : RtcState) :
    s.regs .rtcalm &&& Rtcalm.almen ||| bitIf (inRange alarm.time.tmSec 60) Rtcalm.secen |||
        bitIf (inRange alarm.time.tmMin 60) Rtcalm.secen ||| bitIf (inRange alarm.time.tmHour 24) Rtcalm.houren =
      armedMask (¬ Disarmed s) alarm := by
  rw [old_almen, BitVec.or_assoc (bitIf _ Rtcalm.almen), bit_if_or]
  rfl

theorem mask_replaced (alarm : RtcWkalrm) (armed enabled : Prop) [Decidable armed] [Decidable enabled] :
    armedMask armed alarm &&& ~~~Rtcalm.almen ||| bitIf enabled Rtcalm.almen = armedMask enabled alarm := by
  unfold armedMask bitIf
  split <;> split <;> split <;> split <;> decide

-- The states up to the write-back of RTCALM, which until then enables nothing.
def quietStates (alarm : RtcWkalrm) (s : RtcState) : List RtcState :=
  s.write .rtcalm 0 :: ((if inRange alarm.time.tmSec 60 then [secStored alarm s] else []) ++
    (if inRange alarm.time.tmMin 60 then [minStored alarm s] else []) ++
    (if inRange alarm.time.tmHour 24 then [fieldsStored alarm s] else []))

theorem quiet_rtcalm (alarm : RtcWkalrm) (s t : RtcState) (member : t ∈ quietStates alarm s) : t.regs .rtcalm = 0 := by
  have cleared : (s.write .rtcalm 0).regs .rtcalm = 0 := write_regs_same s .rtcalm 0
  have sec : (secStored alarm s).regs .rtcalm = 0 := by simp [secStored]
  have min : (minStored alarm s).regs .rtcalm = 0 := by simp [minStored, sec]
  have hour : (fieldsStored alarm s).regs .rtcalm = 0 := by simp [fieldsStored, min]
  simp only [quietStates, List.mem_cons, List.mem_append, List.mem_ite_nil_right, List.not_mem_nil, or_false] at member
  rcases member with rfl | (⟨-, rfl⟩ | ⟨-, rfl⟩) | ⟨-, rfl⟩
  · exact cleared
  · exact sec
  · exact min
  · exact hour

theorem setalarm_trail (alarm : RtcWkalrm) (s : RtcState) :
    (rtcSetalarm alarm).trail isWrite s = quietStates alarm s ++
      [(fieldsStored alarm s).write .rtcalm (armedMask (¬ Disarmed s) alarm),
        (fieldsStored alarm s).write .rtcalm (armedMask (alarm.enabled ≠ 0) alarm)] := by
  simp only [rtcSetalarm, trail_bind, run_readb, run_writeb, run_store_if, run_rtc_setaie, run_set_irq_wake,
    outcome_onward_done, trail_readb, trail_writeb, trail_store_if, trail_rtc_setaie, trail_set_irq_wake, trail_pure,
    write_regs_same, write_write, gathered_mask, enabled_flag, mask_replaced]
  simp [quietStates, secStored, minStored, fieldsStored]

def AlarmField.gathered (alarm : RtcWkalrm) : AlarmField → Prop
  | .sec => inRange alarm.time.tmSec 60 ∨ inRange alarm.time.tmMin 60
  | .hour => inRange alarm.time.tmHour 24
  | .min => False
  | .mday => False
  | .mon => False
  | .year => False

theorem armed_mask_almen (alarm : RtcWkalrm) (armed : Prop) [Decidable armed] :
    armedMask armed alarm &&& Rtcalm.almen ≠ 0 ↔ armed := by
  unfold armedMask bitIf
  split <;> split <;> split <;> simp_all <;> decide

theorem armed_mask_field (alarm : RtcWkalrm) (armed : Prop) [Decidable armed] (field : AlarmField) :
    armedMask armed alarm &&& field.bit ≠ 0 ↔ field.gathered alarm := by
  unfold armedMask bitIf
  cases field <;> simp only [AlarmField.gathered, AlarmField.bit] <;> split <;> split <;> split <;> simp_all <;> decide

theorem bin2bcd_is_bcd (value bound : Int) (within : inRange value bound) (small : bound ≤ 100) :
    IsBcdOf (bin2bcd value) value := by
  refine ⟨?_, in_range_bcd value bound within small⟩
  obtain ⟨high, low⟩ := within
  have encoded := bin2bcd_toNat value low (by omega)
  unfold ValidBcd
  omega

theorem field_holds (alarm : RtcWkalrm) (s : RtcState) (field : AlarmField) (seconds : SecondsServe alarm s)
    (gathered : field.gathered alarm) :
    IsBcdOf ((fieldsStored alarm s).regs field.reg) (field.requested alarm.time) := by
  cases field with
  | sec =>
      by_cases sec : inRange alarm.time.tmSec 60
      · have stored : (fieldsStored alarm s).regs .almsec = bin2bcd alarm.time.tmSec := by
          simp [fieldsStored, minStored, secStored, sec]
        exact stored.symm ▸ bin2bcd_is_bcd _ 60 sec (by decide)
      · have kept : (fieldsStored alarm s).regs .almsec = s.regs .almsec := by
          simp [fieldsStored, minStored, secStored, sec]
        exact kept.symm ▸ seconds (gathered.resolve_left sec) sec
  | hour =>
      have hour : inRange alarm.time.tmHour 24 := gathered
      have stored : (fieldsStored alarm s).regs .almhour = bin2bcd alarm.time.tmHour := by simp [fieldsStored, hour]
      exact stored.symm ▸ bin2bcd_is_bcd _ 24 gathered (by decide)
  | min => exact gathered.elim
  | mday => exact gathered.elim
  | mon => exact gathered.elim
  | year => exact gathered.elim

theorem unspurious_armed (alarm : RtcWkalrm) (s : RtcState) (armed : Prop) [Decidable armed] :
    Unspurious alarm ((fieldsStored alarm s).write .rtcalm (armedMask armed alarm)).regs ↔
      (armed → alarm.enabled ≠ 0 ∧ SecondsServe alarm s) := by
  have same : ∀ field : AlarmField, ((fieldsStored alarm s).write .rtcalm (armedMask armed alarm)).regs field.reg =
      (fieldsStored alarm s).regs field.reg := by
    intro field
    cases field <;> exact write_regs_other _ _ _ _ (by decide)
  simp only [Unspurious, write_regs_same, armed_mask_almen, armed_mask_field, same]
  refine imp_congr_right fun _ => and_congr_right fun _ => ⟨?_, ?_⟩
  · intro holds min sec
    have kept : (fieldsStored alarm s).regs .almsec = s.regs .almsec := by
      simp [fieldsStored, minStored, secStored, sec]
    exact kept ▸ holds .sec (.inr min)
  · intro seconds field gathered
    exact field_holds alarm s field seconds gathered

theorem unspurious_quiet (alarm : RtcWkalrm) (regs : RtcReg → BitVec 8) (quiet : regs .rtcalm = 0) :
    Unspurious alarm regs := by
  intro armed
  rw [quiet] at armed
  exact absurd BitVec.zero_and armed

-- The state that counts is the one in which the fields are new and ALMEN is old.
theorem between_writes_written_back (alarm : RtcWkalrm) (s : RtcState) :
    UnspuriousBetweenWrites alarm s ↔
      Unspurious alarm ((fieldsStored alarm s).write .rtcalm (armedMask (¬ Disarmed s) alarm)).regs := by
  rw [UnspuriousBetweenWrites, setalarm_trail]
  constructor
  · intro between
    apply between
    simp
  · intro written t member
    simp only [List.dropLast_append_cons, List.dropLast_cons_cons, List.dropLast_singleton, List.mem_append,
      List.mem_singleton] at member
    cases member with
    | inl quiet => exact unspurious_quiet alarm t.regs (quiet_rtcalm alarm s t quiet)
    | inr last => exact last ▸ written

theorem unspurious_between_writes_iff (alarm : RtcWkalrm) (s : RtcState) :
    UnspuriousBetweenWrites alarm s ↔ (¬ Disarmed s → alarm.enabled ≠ 0 ∧ SecondsServe alarm s) :=
  (between_writes_written_back alarm s).trans (unspurious_armed alarm s (¬ Disarmed s))

-- The state after the last write is then the one that rtc_setaie leaves.
theorem unspurious_throughout_iff (alarm : RtcWkalrm) (s : RtcState) :
    UnspuriousThroughout alarm s ↔
      (¬ Disarmed s → alarm.enabled ≠ 0) ∧ (alarm.enabled ≠ 0 → SecondsServe alarm s) := by
  have written := unspurious_armed alarm s (¬ Disarmed s)
  have last := unspurious_armed alarm s (alarm.enabled ≠ 0)
  rw [UnspuriousThroughout, setalarm_trail]
  constructor
  · intro throughout
    have first := written.mp (throughout _ (by simp))
    have final := last.mp (throughout _ (by simp))
    exact ⟨fun armed => (first armed).1, fun enabled => (final enabled).2⟩
  · intro condition t member
    obtain ⟨asked, seconds⟩ := condition
    simp only [List.mem_append, List.mem_cons, List.not_mem_nil, or_false] at member
    rcases member with quiet | rfl | rfl
    · exact unspurious_quiet alarm t.regs (quiet_rtcalm alarm s t quiet)
    · exact written.mpr fun armed => ⟨asked armed, seconds (asked armed)⟩
    · exact last.mpr fun enabled => ⟨enabled, seconds enabled⟩

def armedRtc : RtcState := blankRtc.write .rtcalm Rtcalm.almen

-- Disabling an alarm that was on: for one write the new hour is armed.
theorem disabling_arms_the_new_time : ¬ UnspuriousBetweenWrites { testAlarm with enabled := 0 } armedRtc := by
  rw [between_writes_written_back, unspurious_armed]
  intro law
  exact (law (by decide)).1 rfl

end OneDriver.Rtc
