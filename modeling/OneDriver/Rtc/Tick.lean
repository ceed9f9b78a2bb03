import OneDriver.Rtc.Regs
import Mathlib.Tactic.IntervalCases

set_option autoImplicit false

namespace OneDriver.Rtc

def rewriteb (reg : RtcReg) (change : BitVec 8 → BitVec 8) : RtcProg Unit := do
  let tmp ← readb reg
  writeb (change tmp) reg

-- One `if` of rtc_enable: test RTCCON, and if it fails read it again and store.
def fixRtccon (wrong : BitVec 8 → Bool) (change : BitVec 8 → BitVec 8) : RtcProg Unit := do
  let tmp ← readb .rtccon
  if wrong tmp then rewriteb .rtccon change else pure ()

-- A set CNTSEL is met by clearing the register's offset, not its CNTSEL bit.
def rtcEnable (flag : Int) : RtcProg Unit :=
  if flag = 0 then do
    rewriteb .rtccon (· &&& ~~~Rtccon.rtcen)
    rewriteb .ticnt (· &&& ~~~Ticnt.enable)
  else do
    fixRtccon (fun tmp => tmp &&& Rtccon.rtcen = 0) (· ||| Rtccon.rtcen)
    fixRtccon (fun tmp => tmp &&& Rtccon.cntsel ≠ 0) (· &&& ~~~rtcconOffset)
    fixRtccon (fun tmp => tmp &&& Rtccon.clkrst ≠ 0) (· &&& ~~~Rtccon.clkrst)

-- is_power_of_2 takes an unsigned long, so the int is sign extended first.
def accepted (abi : Abi) (freq : BitVec 32) : Prop := (abi.ulong freq.toInt).isPowerOfTwo

instance (abi : Abi) (freq : BitVec 32) : Decidable (accepted abi freq) :=
  inferInstanceAs (Decidable (Nat.isPowerOfTwo _))

def rtcSetfreq (abi : Abi) (freq : BitVec 32) : RtcProg Int :=
  if ¬ accepted abi freq then pure (-einval)
  else .atomic .spinLockIrq do
    let tmp ← readb .ticnt
    let tmp := tmp &&& Ticnt.enable
    let rate ← cdiv .divideByZero 128 freq.toInt
    writeb (tmp ||| BitVec.ofInt 8 (rate - 1)) .ticnt
    pure 0

def rtcSetpie (flag : BitVec 32) : RtcProg Int :=
  .atomic .spinLockIrq do
    let tmp ← readb .ticnt
    let tmp := tmp &&& ~~~Ticnt.enable
    let tmp := if flag ≠ 0#32 then tmp ||| Ticnt.enable else tmp
    writeb tmp .ticnt
    pure 0

def rtcSuspend : RtcProg Int := do
  let ticnt ← readb .ticnt
  .modify .ticntSave fun s => { s with ticntSave := ticnt }
  rtcEnable 0
  pure 0

def rtcResume : RtcProg Int := do
  rtcEnable 1
  let saved ← Prog.look .ticntSave (·.ticntSave)
  writeb saved .ticnt
  pure 0

inductive TickOp where
  | setfreq (freq : BitVec 32)
  | setpie (flag : BitVec 32)
  | suspendResume
deriving DecidableEq, Repr

def TickOp.call (abi : Abi) : TickOp → RtcProg Int
  | .setfreq freq => rtcSetfreq abi freq
  | .setpie flag => rtcSetpie flag
  | .suspendResume => do
      let _ ← rtcSuspend
      rtcResume

-- A divisor of the 128 Hz clock, against an accepted frequency beyond it.
def dividesClock (freq : BitVec 32) : Prop := 1 ≤ freq.toInt ∧ freq.toInt ≤ 128

instance (freq : BitVec 32) : Decidable (dividesClock freq) := inferInstanceAs (Decidable (_ ∧ _))

-- What the callers have asked for so far: the last frequency accepted, the last
-- rtc_setpie flag, and whether a frequency beyond the clock came after it.
structure TickHistory where
  freq : Option (BitVec 32)
  flag : Option (BitVec 32)
  beyond : Bool
deriving DecidableEq, Repr

def TickHistory.next (abi : Abi) (h : TickHistory) : TickOp → TickHistory
  | .setfreq freq =>
      if accepted abi freq then { h with freq := some freq, beyond := h.beyond || !decide (dividesClock freq) }
      else h
  | .setpie flag => { h with flag := some flag, beyond := false }
  | .suspendResume => h

def tickHistory (abi : Abi) (ops : List TickOp) : TickHistory := ops.foldl (TickHistory.next abi) ⟨none, none, false⟩

def tickEnabled (s : RtcState) : Prop := s.regs .ticnt &&& Ticnt.enable ≠ 0#8

def tickCount (s : RtcState) : Nat := (s.regs .ticnt &&& 0x7f#8).toNat

def wanted (h : TickHistory) (initial : RtcState) : Prop :=
  match h.flag with
  | some flag => flag ≠ 0#32
  | none => tickEnabled initial

theorem accepted_ne_zero (abi : Abi) (freq : BitVec 32) (ok : accepted abi freq) : freq.toInt ≠ 0 := by
  intro zero
  obtain ⟨k, power⟩ := ok
  have positive := Nat.two_pow_pos k
  rw [← power, zero] at positive
  simp [Abi.ulong] at positive

theorem accepted_dividing (abi : Abi) (freq : BitVec 32) (ok : accepted abi freq) (divides : dividesClock freq) :
    freq.toInt ∈ [1, 2, 4, 8, 16, 32, 64, 128] := by
  obtain ⟨low, high⟩ := divides
  obtain ⟨k, power⟩ := ok
  have same := ulong_eq abi freq.toInt (by omega) (by omega)
  have bound : 2 ^ k < 2 ^ 8 := by omega
  have small : k < 8 := (Nat.pow_lt_pow_iff_right (by decide)).mp bound
  rw [← same, power]
  interval_cases k <;> simp

theorem no_power_between (n k : Nat) (low : 2 ^ n < 2 ^ k) (high : 2 ^ k < 2 ^ (n + 1)) : False := by
  have lower := (Nat.pow_lt_pow_iff_right (by decide : 1 < 2)).mp low
  have upper := (Nat.pow_lt_pow_iff_right (by decide : 1 < 2)).mp high
  omega

-- A negative int is accepted only as the word's top power of two.
theorem accepted_beyond (abi : Abi) (freq : BitVec 32) (ok : accepted abi freq) (beyond : ¬ dividesClock freq) :
    128 < freq.toInt ∨ freq.toInt < -128 := by
  have nonzero := accepted_ne_zero abi freq ok
  obtain ⟨k, power⟩ := ok
  unfold dividesClock at beyond
  have low := BitVec.le_toInt freq
  by_contra near
  have negative : -128 ≤ freq.toInt ∧ freq.toInt < 0 := by omega
  cases abi with
  | ilp32 =>
      simp only [Abi.ulong, Abi.wordBits] at power
      exact no_power_between 31 k (by omega) (by omega)
  | lp64 =>
      simp only [Abi.ulong, Abi.wordBits] at power
      exact no_power_between 63 k (by omega) (by omega)

def tickValue (freq : BitVec 32) : BitVec 8 := BitVec.ofInt 8 (Int.tdiv 128 freq.toInt - 1)

theorem tick_value_dividing (abi : Abi) (freq : BitVec 32) (ok : accepted abi freq) (divides : dividesClock freq) :
    tickValue freq &&& Ticnt.enable = 0#8 ∧ ((tickValue freq &&& 0x7f#8).toNat + 1 : Int) * freq.toInt = 128 := by
  have member := accepted_dividing abi freq ok divides
  simp only [List.mem_cons, List.not_mem_nil, or_false] at member
  unfold tickValue
  rcases member with f | f | f | f | f | f | f | f <;> rw [f] <;> decide

theorem tick_value_beyond (abi : Abi) (freq : BitVec 32) (ok : accepted abi freq) (beyond : ¬ dividesClock freq) :
    tickValue freq = 0xff#8 := by
  have none : Int.tdiv 128 freq.toInt = 0 := by
    rcases accepted_beyond abi freq ok beyond with high | low
    · exact Int.tdiv_eq_zero_of_lt (by decide) high
    · rw [← neg_neg freq.toInt, Int.tdiv_neg, Int.tdiv_eq_zero_of_lt (by decide) (by omega), neg_zero]
  rw [tickValue, none]
  decide

theorem run_rtc_setfreq (abi : Abi) (freq : BitVec 32) (s : RtcState) :
    (rtcSetfreq abi freq).run s = if accepted abi freq
      then .done 0 (s.write .ticnt (s.regs .ticnt &&& Ticnt.enable ||| tickValue freq)) else .done (-einval) s := by
  by_cases ok : accepted abi freq
  · have nonzero := accepted_ne_zero abi freq ok
    simp [rtcSetfreq, ok, cdiv, nonzero, tickValue]
  · simp [rtcSetfreq, ok]

@[simp] theorem run_rewriteb (reg : RtcReg) (change : BitVec 8 → BitVec 8) (s : RtcState) :
    (rewriteb reg change).run s = .done () (s.write reg (change (s.regs reg))) := by
  simp [rewriteb]

@[simp] theorem run_fix_rtccon (wrong : BitVec 8 → Bool) (change : BitVec 8 → BitVec 8) (s : RtcState) :
    (fixRtccon wrong change).run s =
      .done () (s.write .rtccon (if wrong (s.regs .rtccon) then change (s.regs .rtccon) else s.regs .rtccon)) := by
  by_cases bad : wrong (s.regs .rtccon) = true
  · simp [fixRtccon, bad]
  · simp [fixRtccon, bad, write_self]

theorem run_rtc_enable_on (s : RtcState) : ∃ value, (rtcEnable 1).run s = .done () (s.write .rtccon value) := by
  simp only [rtcEnable, if_neg (by decide : ¬ (1 : Int) = 0), Prog.run_bind, run_fix_rtccon, outcome_bind_done, write_write]
  exact ⟨_, rfl⟩

theorem run_suspend_resume (abi : Abi) (s : RtcState) :
    ∃ t, (TickOp.suspendResume.call abi).run s = .done 0 t ∧ t.regs .ticnt = s.regs .ticnt := by
  obtain ⟨suspended, off, kept⟩ : ∃ t, rtcSuspend.run s = .done 0 t ∧ t.ticntSave = s.regs .ticnt :=
    ⟨_, by simp only [rtcSuspend, rtcEnable, if_true, Prog.run_bind, run_readb, Prog.run_modify, run_rewriteb,
      outcome_bind_done, Prog.run_pure]; rfl, by simp⟩
  obtain ⟨value, on⟩ := run_rtc_enable_on suspended
  refine ⟨(suspended.write .rtccon value).write .ticnt (s.regs .ticnt), ?_, by simp⟩
  simp [TickOp.call, rtcResume, off, on, kept]

-- The enable bit is the callers' wish unless a frequency beyond the clock has
-- since set it, and the low bits are the last accepted frequency's.
def TickInvariant (abi : Abi) (initial : RtcState) (h : TickHistory) (s : RtcState) : Prop :=
  (tickEnabled s ↔ wanted h initial ∨ h.beyond = true) ∧
    ∀ freq, h.freq = some freq → accepted abi freq ∧
      if dividesClock freq then (tickCount s + 1 : Int) * freq.toInt = 128 else tickCount s = 127

theorem tick_enabled_write (s : RtcState) (value : BitVec 8) :
    tickEnabled (s.write .ticnt value) ↔ value &&& Ticnt.enable ≠ 0#8 := by
  simp [tickEnabled]

theorem tick_count_write (s : RtcState) (value : BitVec 8) :
    tickCount (s.write .ticnt value) = (value &&& 0x7f#8).toNat := by
  simp [tickCount]

theorem enable_bit_kept (old value : BitVec 8) (clear : value &&& Ticnt.enable = 0#8) :
    (old &&& Ticnt.enable ||| value) &&& Ticnt.enable = old &&& Ticnt.enable := by
  rw [BitVec.and_or_distrib_right, clear, BitVec.and_assoc, BitVec.and_self]
  exact BitVec.or_zero

theorem count_bits_replaced (old value : BitVec 8) :
    (old &&& Ticnt.enable ||| value) &&& 0x7f#8 = value &&& 0x7f#8 := by
  have apart : Ticnt.enable &&& 0x7f#8 = 0#8 := by decide
  rw [BitVec.and_or_distrib_right, BitVec.and_assoc, apart, BitVec.and_zero, BitVec.zero_or]

theorem run_rtc_setpie (flag : BitVec 32) (s : RtcState) :
    ∃ t, (rtcSetpie flag).run s = .done 0 t ∧ (tickEnabled t ↔ flag ≠ 0#32) ∧ tickCount t = tickCount s := by
  have cleared : s.regs .ticnt &&& ~~~Ticnt.enable &&& Ticnt.enable = 0#8 := by
    rw [BitVec.and_assoc]
    exact BitVec.and_zero
  have kept : s.regs .ticnt &&& ~~~Ticnt.enable &&& 0x7f#8 = s.regs .ticnt &&& 0x7f#8 := by
    rw [BitVec.and_assoc]
    rfl
  by_cases off : flag = 0#32
  · refine ⟨s.write .ticnt (s.regs .ticnt &&& ~~~Ticnt.enable), by simp [rtcSetpie, off], ?_, ?_⟩
    · rw [tick_enabled_write, cleared]
      simp [off]
    · rw [tick_count_write, kept, tickCount]
  · refine ⟨s.write .ticnt (s.regs .ticnt &&& ~~~Ticnt.enable ||| Ticnt.enable), by simp [rtcSetpie, off], ?_, ?_⟩
    · rw [tick_enabled_write, BitVec.and_or_distrib_right, cleared, BitVec.and_self]
      simp [off, Ticnt.enable]
    · rw [tick_count_write, BitVec.and_or_distrib_right, kept, tickCount]
      exact congrArg BitVec.toNat BitVec.or_zero

theorem setfreq_keeps (abi : Abi) (initial s : RtcState) (h : TickHistory) (freq : BitVec 32)
    (holds : TickInvariant abi initial h s) (ok : accepted abi freq) :
    TickInvariant abi initial (h.next abi (.setfreq freq))
      (s.write .ticnt (s.regs .ticnt &&& Ticnt.enable ||| tickValue freq)) := by
  simp only [TickHistory.next, if_pos ok]
  by_cases divides : dividesClock freq
  · obtain ⟨clear, count⟩ := tick_value_dividing abi freq ok divides
    refine ⟨?_, ?_⟩
    · rw [tick_enabled_write, enable_bit_kept _ _ clear]
      simpa [divides, wanted, tickEnabled] using holds.1
    · rintro _ ⟨⟩
      refine ⟨ok, ?_⟩
      rw [if_pos divides, tick_count_write, count_bits_replaced]
      exact count
  · have full := tick_value_beyond abi freq ok divides
    refine ⟨?_, ?_⟩
    · have on : (s.regs .ticnt &&& Ticnt.enable ||| 0xff#8) &&& Ticnt.enable = Ticnt.enable := by
        rw [BitVec.or_comm, show 0xff#8 = BitVec.allOnes 8 from rfl, BitVec.allOnes_or, BitVec.allOnes_and]
      rw [tick_enabled_write, full, on]
      simp [divides, Ticnt.enable]
    · rintro _ ⟨⟩
      refine ⟨ok, ?_⟩
      rw [if_neg divides, tick_count_write, count_bits_replaced, full]
      rfl

theorem tick_op_keeps (abi : Abi) (initial s : RtcState) (h : TickHistory) (op : TickOp)
    (holds : TickInvariant abi initial h s) :
    (op.call abi).wp (fun _ t => TickInvariant abi initial (h.next abi op) t) s := by
  cases op with
  | setfreq freq =>
      by_cases ok : accepted abi freq
      · exact (Prog.wp_iff_run _ _ _).mpr
          ⟨_, _, (run_rtc_setfreq abi freq s).trans (if_pos ok), setfreq_keeps abi initial s h freq holds ok⟩
      · refine (Prog.wp_iff_run _ _ _).mpr ⟨_, _, (run_rtc_setfreq abi freq s).trans (if_neg ok), ?_⟩
        simpa only [TickHistory.next, if_neg ok] using holds
  | setpie flag =>
      obtain ⟨t, ran, on, count⟩ := run_rtc_setpie flag s
      refine (Prog.wp_iff_run _ _ _).mpr ⟨0, t, ran, ?_, ?_⟩
      · simp [on, TickHistory.next, wanted]
      · simpa only [TickHistory.next, count] using holds.2
  | suspendResume =>
      obtain ⟨t, ran, ticnt⟩ := run_suspend_resume abi s
      refine (Prog.wp_iff_run _ _ _).mpr ⟨0, t, ran, ?_⟩
      simpa only [TickHistory.next, TickInvariant, tickEnabled, tickCount, ticnt] using holds

def TickLaw (abi : Abi) (ops : List TickOp) (initial : RtcState) : Prop :=
  ∃ results t, (Prog.series (TickOp.call abi) ops).run initial = .done results t ∧
    (tickEnabled t ↔ wanted (tickHistory abi ops) initial) ∧
    ∀ freq, (tickHistory abi ops).freq = some freq → (tickCount t + 1 : Int) * freq.toInt = 128

theorem tick_run (abi : Abi) (ops : List TickOp) (initial : RtcState) :
    ∃ results t, (Prog.series (TickOp.call abi) ops).run initial = .done results t ∧
      TickInvariant abi initial (tickHistory abi ops) t :=
  (Prog.wp_iff_run _ _ _).mp <| series_invariant (TickOp.call abi) (TickHistory.next abi) (fun _ _ => True)
    (TickInvariant abi initial) (fun h op s holds _ => tick_op_keeps abi initial s h op holds) ops
    ⟨none, none, false⟩ initial (by simp [TickInvariant, wanted]) (follows_of_forall _ _ ops _ (by simp))

theorem tick_law_iff (abi : Abi) (ops : List TickOp) (initial : RtcState) :
    (∃ results t, (Prog.series (TickOp.call abi) ops).run initial = .done results t) ∧
      (∀ freq s, ∃ r t, (rtcSetfreq abi freq).run s = .done r t ∧ (r = -einval → t = s)) ∧
      (TickLaw abi ops initial ↔
        (∀ freq, (tickHistory abi ops).freq = some freq → dividesClock freq) ∧
          ((tickHistory abi ops).beyond = true → wanted (tickHistory abi ops) initial)) := by
  obtain ⟨results, t, ran, enabled, count⟩ := tick_run abi ops initial
  refine ⟨⟨results, t, ran⟩, ?_, ?_, ?_⟩
  · intro freq s
    rw [run_rtc_setfreq]
    by_cases ok : accepted abi freq
    · exact ⟨0, _, if_pos ok, fun negative => absurd negative (by decide)⟩
    · exact ⟨-einval, s, if_neg ok, fun _ => rfl⟩
  · rintro ⟨_, _, again, wish, law⟩
    obtain ⟨rfl, rfl⟩ : results = _ ∧ t = _ := by simpa [ran] using again
    refine ⟨fun freq last => ?_, fun beyond => wish.mp (enabled.mpr (.inr beyond))⟩
    by_contra beyond
    obtain ⟨-, full⟩ := count freq last
    rw [if_neg beyond] at full
    have product := law freq last
    rw [full] at product
    unfold dividesClock at beyond
    omega
  · rintro ⟨divides, calm⟩
    refine ⟨results, t, ran, enabled.trans ⟨?_, .inl⟩, fun freq last => ?_⟩
    · rintro (wish | beyond)
      · exact wish
      · exact calm beyond
    · simpa only [if_pos (divides freq last)] using (count freq last).2

-- The rate rtc_unit_test.c asks for: 512 is accepted and sets the enable bit.
theorem test_rate_enables_tick : ¬ TickLaw .ilp32 [.setfreq 512] blankRtc := by
  intro law
  obtain ⟨results, t, ran, enabled, -⟩ := law
  have full : blankRtc.regs .ticnt &&& Ticnt.enable ||| tickValue 512 = 0xff#8 := by decide
  obtain ⟨rfl, rfl⟩ : [0] = results ∧ blankRtc.write .ticnt 0xff#8 = t := by
    rw [Prog.run_series_cons, TickOp.call, run_rtc_setfreq, if_pos (by decide), full] at ran
    simpa using ran
  have history : tickHistory .ilp32 [.setfreq 512] = ⟨some 512, none, true⟩ := by decide
  rw [tick_enabled_write, history] at enabled
  exact absurd (enabled.mp (by decide)) (by simp [wanted, tickEnabled, blankRtc])

end OneDriver.Rtc
