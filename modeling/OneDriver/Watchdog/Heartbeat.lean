import OneDriver.Watchdog.Device

set_option autoImplicit false

namespace OneDriver.Watchdog

-- The requested interval in ticks, without the wrap of the unsigned product.
def totalTicks (cfg : WdtConfig) (timeout : Int) : Int := timeout * (cfg.rate % 2 ^ 32 / 128 : Nat)

-- What the hardware divides by is one more than this field.
def prescalerField (wtcon : BitVec 32) : Nat := ((wtcon &&& prescaleMask) >>> 8).toNat

theorem find_divisor_bounds (count left divisor : Nat) :
    divisor ≤ findDivisor count left divisor ∧ findDivisor count left divisor ≤ divisor + left := by
  induction left generalizing divisor with
  | zero => exact ⟨Nat.le_refl divisor, Nat.le_refl divisor⟩
  | succ left ih =>
      have next := ih (divisor + 1)
      unfold findDivisor
      split <;> omega

theorem find_divisor_fits (count left divisor : Nat) (stopped : findDivisor count left divisor < divisor + left) :
    count / findDivisor count left divisor < 0x10000 := by
  induction left generalizing divisor with
  | zero => exact absurd stopped (Nat.lt_irrefl divisor)
  | succ left ih =>
      unfold findDivisor at stopped ⊢
      split
      · assumption
      · rename_i large
        rw [if_neg large] at stopped
        exact ih (divisor + 1) (by omega)

theorem find_divisor_exhausted (count left divisor : Nat) (exhausted : findDivisor count left divisor = divisor + left)
    (tried : Nat) (low : divisor ≤ tried) (high : tried < divisor + left) : 0x10000 ≤ count / tried := by
  induction left generalizing divisor with
  | zero => omega
  | succ left ih =>
      unfold findDivisor at exhausted
      split at exhausted
      · omega
      · rename_i large
        by_cases first : tried = divisor
        · rw [first]
          exact Nat.le_of_not_lt large
        · exact ih (divisor + 1) (by omega) (by omega) (by omega)

-- The divisor 257 is the loop's exit value; the re-check does not tell it apart.
inductive DivisorFound (count : Nat) : Option Nat → Prop where
  | fits (divisor : Nat) (low : 1 ≤ divisor) (high : divisor ≤ 256) (bound : count / divisor < 0x10000)
      (whole : count = 0 ∨ divisor ≤ count) (small : count < 2 ^ 24) : DivisorFound count (some divisor)
  | exit (large : 2 ^ 24 ≤ count) (bound : count < 257 * 2 ^ 16) : DivisorFound count (some 257)
  | refused (large : 257 * 2 ^ 16 ≤ count) : DivisorFound count none

theorem divisor_found (count : Nat) : DivisorFound count (divisorFor count) := by
  unfold divisorFor
  by_cases large : count ≥ 0x10000
  · obtain ⟨low, high⟩ := find_divisor_bounds count 0x100 1
    have fits := find_divisor_fits count 0x100 1
    have exhausted := find_divisor_exhausted count 0x100 1
    simp only [if_pos large]
    generalize findDivisor count 0x100 1 = divisor at *
    by_cases stopped : divisor < 1 + 0x100
    · have bound := fits stopped
      rw [if_neg (by omega)]
      refine .fits divisor low (by omega) bound (by omega) ?_
      have product := (Nat.div_lt_iff_lt_mul low).mp bound
      have most : 0x10000 * divisor ≤ 0x10000 * 256 := Nat.mul_le_mul_left _ (by omega)
      omega
    · obtain rfl : divisor = 257 := by omega
      have last := exhausted rfl 256 (by decide) (by decide)
      by_cases beyond : count / 257 ≥ 0x10000
      · rw [if_pos beyond]
        exact .refused (by omega)
      · rw [if_neg beyond]
        exact .exit (by omega) (by omega)
  · rw [if_neg large]
    exact .fits 1 (by decide) (by decide) (by omega) (by omega) (by omega)

theorem prescale_mask_bit (i : Nat) (bound : i < 32) : prescaleMask.getLsbD i = (decide (8 ≤ i) && decide (i < 16)) := by
  revert i
  decide

theorem prescale_bit (x i : Nat) (bound : i < 32) : (prescale x).getLsbD i = (decide (8 ≤ i) && x.testBit (i - 8)) := by
  have inside : i - 8 < 32 := by omega
  simp only [prescale, BitVec.getLsbD_shiftLeft, BitVec.getLsbD_ofNat, bound, inside, decide_true, Bool.true_and]
  by_cases low : i < 8
  · simp [low, Nat.not_le.mpr low]
  · simp [low, Nat.le_of_not_lt low]

theorem prescaled_outside (wtcon : BitVec 32) (x : Nat) (fits : x < 256) :
    (wtcon &&& ~~~prescaleMask ||| prescale x) &&& ~~~prescaleMask = wtcon &&& ~~~prescaleMask := by
  apply BitVec.eq_of_getLsbD_eq
  intro i bound
  have high : 16 ≤ i → x.testBit (i - 8) = false := fun above =>
    Nat.testBit_lt_two_pow (Nat.lt_of_lt_of_le fits (Nat.pow_le_pow_right (by decide : 2 > 0) (by omega : 8 ≤ i - 8)))
  simp only [BitVec.getLsbD_and, BitVec.getLsbD_or, BitVec.getLsbD_not, prescale_mask_bit i bound, prescale_bit x i bound]
  by_cases low : 8 ≤ i <;> by_cases inside : i < 16 <;> simp [low, inside, bound]
  exact fun set => by simp [high (by omega)] at set

theorem prescaled_field (wtcon : BitVec 32) (x : Nat) :
    prescalerField (wtcon &&& ~~~prescaleMask ||| prescale x) = x % 256 := by
  apply Nat.eq_of_testBit_eq
  intro i
  rw [prescalerField, BitVec.testBit_toNat, BitVec.getLsbD_ushiftRight, BitVec.getLsbD_and, Nat.testBit_mod_two_pow x 8 i]
  by_cases inside : i < 8
  · have bound : 8 + i < 32 := by omega
    have field : 8 + i < 16 := by omega
    simp [BitVec.getLsbD_or, BitVec.getLsbD_and, prescale_mask_bit (8 + i) bound, prescale_bit x (8 + i) bound, inside, field]
  · have clear : prescaleMask.getLsbD (8 + i) = false := by
      by_cases bound : 8 + i < 32
      · simp [prescale_mask_bit (8 + i) bound, show ¬ 8 + i < 16 by omega]
      · exact BitVec.getLsbD_of_ge _ _ (by omega)
    simp [clear, inside]

def programmed (timeout : Int) (count divisor : Nat) (s : WdtState) : WdtState :=
  ({ s with tmrMargin := timeout, wdtCount := count / divisor }.write .wtdat (BitVec.ofNat 32 (count / divisor))).write
    .wtcon (s.regs .wtcon &&& ~~~prescaleMask ||| prescale (divisor - 1))

theorem run_heartbeat_refused (cfg : WdtConfig) (timeout : Int) (s : WdtState)
    (refused : timeout < 1 ∨ divisorFor (ticks cfg timeout) = none) :
    (watchdogSetHeartbeat cfg timeout).run s = .done (-einval) s := by
  unfold watchdogSetHeartbeat
  by_cases low : timeout < 1
  · rw [if_pos low, Prog.run_pure]
  · rw [if_neg low, refused.resolve_left low, Prog.run_pure]

theorem run_heartbeat_accepted (cfg : WdtConfig) (timeout : Int) (divisor : Nat) (s : WdtState) (positive : 1 ≤ timeout)
    (found : divisorFor (ticks cfg timeout) = some divisor) :
    (watchdogSetHeartbeat cfg timeout).run s = .done 0 (programmed timeout (ticks cfg timeout) divisor s) := by
  rw [watchdogSetHeartbeat, if_neg (by omega), found]
  exact run_program_heartbeat timeout (ticks cfg timeout) divisor s

-- unsigned int arithmetic keeps the total modulo 2^32.
theorem ticks_total (cfg : WdtConfig) (timeout : Int) : (ticks cfg timeout : Int) = totalTicks cfg timeout % 2 ^ 32 :=
  Int.toNat_of_nonneg (Int.emod_nonneg _ (by decide))

-- What the programmed interval has to do with the requested one.
structure Programmed (cfg : WdtConfig) (timeout : Int) (s t : WdtState) : Prop where
  data : (t.regs .wtdat).toNat = t.wdtCount
  fits : t.wdtCount < 65536
  reached : ((t.regs .wtdat).toNat * (prescalerField (t.regs .wtcon) + 1) : Nat) ≤ totalTicks cfg timeout
  close : totalTicks cfg timeout < (((t.regs .wtdat).toNat + 1) * (prescalerField (t.regs .wtcon) + 1) : Nat)
  kept : t.regs .wtcon &&& ~~~prescaleMask = s.regs .wtcon &&& ~~~prescaleMask

theorem programmed_data (timeout : Int) (count divisor : Nat) (s : WdtState) (fits : count / divisor < 0x10000) :
    ((programmed timeout count divisor s).regs .wtdat).toNat = count / divisor := by
  simp only [programmed, write_regs_other _ _ _ _ (by decide : WdtReg.wtdat ≠ .wtcon), write_regs_same, BitVec.toNat_ofNat]
  exact Nat.mod_eq_of_lt (Nat.lt_trans fits (by decide))

theorem programmed_field (timeout : Int) (count divisor : Nat) (s : WdtState) :
    prescalerField ((programmed timeout count divisor s).regs .wtcon) = (divisor - 1) % 256 := by
  rw [programmed, write_regs_same, prescaled_field]

theorem programmed_interval (cfg : WdtConfig) (timeout : Int) (count divisor : Nat) (s : WdtState)
    (total : (count : Int) = totalTicks cfg timeout) (low : 1 ≤ divisor) (high : divisor ≤ 256)
    (fits : count / divisor < 0x10000) : Programmed cfg timeout s (programmed timeout count divisor s) := by
  have data := programmed_data timeout count divisor s fits
  have field : prescalerField ((programmed timeout count divisor s).regs .wtcon) + 1 = divisor := by
    rw [programmed_field]
    omega
  refine ⟨data, fits, ?_, ?_, ?_⟩
  · rw [data, field, ← total]
    exact Int.ofNat_le.mpr (Nat.div_mul_le_self count divisor)
  · rw [data, field, ← total, Nat.mul_comm]
    exact Int.ofNat_lt.mpr (Nat.lt_mul_div_succ count low)
  · rw [programmed, write_regs_same]
    exact prescaled_outside _ _ (by omega)

-- The field cannot hold 256: the hardware then divides by one.
theorem exit_divisor_interval (cfg : WdtConfig) (timeout : Int) (count : Nat) (s : WdtState)
    (total : (count : Int) = totalTicks cfg timeout) (large : 2 ^ 24 ≤ count) :
    ¬ Programmed cfg timeout s (programmed timeout count 257 s) := by
  intro right
  have close := right.close
  have fits := right.fits
  have data := right.data
  rw [programmed_field] at close
  omega

def IntervalLaw (cfg : WdtConfig) (timeout : Int) (s : WdtState) : Prop :=
  ∃ r t, (watchdogSetHeartbeat cfg timeout).run s = .done r t ∧ (r = 0 → Programmed cfg timeout s t)

theorem interval_law_iff (cfg : WdtConfig) (timeout : Int) (s : WdtState) (positive : 1 ≤ timeout)
    (below : totalTicks cfg timeout < 2 ^ 32) :
    IntervalLaw cfg timeout s ↔ totalTicks cfg timeout < 2 ^ 24 ∨ 257 * 2 ^ 16 ≤ totalTicks cfg timeout := by
  have nonneg : 0 ≤ totalTicks cfg timeout := Int.mul_nonneg (by omega) (Int.natCast_nonneg _)
  have total : (ticks cfg timeout : Int) = totalTicks cfg timeout := by
    rw [ticks_total, Int.emod_eq_of_lt nonneg below]
  have found := divisor_found (ticks cfg timeout)
  unfold IntervalLaw
  generalize shape : divisorFor (ticks cfg timeout) = result at found
  cases found with
  | fits divisor low high bound whole small =>
      refine iff_of_true ⟨0, _, run_heartbeat_accepted cfg timeout divisor s positive shape, fun _ => ?_⟩ (.inl (by omega))
      exact programmed_interval cfg timeout _ divisor s total low high bound
  | exit large bound =>
      refine iff_of_false ?_ (by omega)
      intro law
      obtain ⟨r, t, ran, right⟩ := law
      obtain ⟨rfl, rfl⟩ := Prog.run_unique (run_heartbeat_accepted cfg timeout 257 s positive shape) ran
      exact exit_divisor_interval cfg timeout _ s total large (right rfl)
  | refused large =>
      rw [run_heartbeat_refused cfg timeout s (.inr shape)]
      refine iff_of_true ⟨_, s, rfl, fun zero => absurd zero (by decide)⟩ (.inr (by omega))

def AcceptanceLaw (cfg : WdtConfig) (timeout : Int) (s : WdtState) : Prop :=
  ∃ r t, (watchdogSetHeartbeat cfg timeout).run s = .done r t ∧
    if 1 ≤ timeout ∧ totalTicks cfg timeout < 2 ^ 24 then r = 0 else r = -einval ∧ t = s

theorem accepted_law (cfg : WdtConfig) (timeout : Int) (s t : WdtState) (positive : 1 ≤ timeout)
    (ran : (watchdogSetHeartbeat cfg timeout).run s = .done 0 t) :
    AcceptanceLaw cfg timeout s ↔ totalTicks cfg timeout < 2 ^ 24 := by
  have law := Prog.run_exists_iff _ s t 0
    (fun r u => if 1 ≤ timeout ∧ totalTicks cfg timeout < 2 ^ 24 then r = 0 else r = -einval ∧ u = s) ran
  refine law.trans ?_
  by_cases inside : totalTicks cfg timeout < 2 ^ 24
  · rw [if_pos ⟨positive, inside⟩]
    exact iff_of_true rfl inside
  · rw [if_neg fun both => inside both.2]
    exact iff_of_false (fun both => absurd both.1 (by decide)) inside

theorem refused_law (cfg : WdtConfig) (timeout : Int) (s : WdtState)
    (ran : (watchdogSetHeartbeat cfg timeout).run s = .done (-einval) s)
    (outside : ¬ (1 ≤ timeout ∧ totalTicks cfg timeout < 2 ^ 24)) : AcceptanceLaw cfg timeout s := by
  refine ⟨-einval, s, ran, ?_⟩
  rw [if_neg outside]
  exact ⟨rfl, rfl⟩

theorem acceptance_law_iff (cfg : WdtConfig) (timeout : Int) (s : WdtState) :
    AcceptanceLaw cfg timeout s ↔
      timeout < 1 ∨ totalTicks cfg timeout < 2 ^ 24 ∨ 257 * 2 ^ 16 ≤ totalTicks cfg timeout % 2 ^ 32 := by
  by_cases low : timeout < 1
  · exact iff_of_true (refused_law cfg timeout s (run_heartbeat_refused cfg timeout s (.inl low)) (by omega)) (.inl low)
  have positive : 1 ≤ timeout := by omega
  have nonneg : 0 ≤ totalTicks cfg timeout := Int.mul_nonneg (by omega) (Int.natCast_nonneg _)
  have total := ticks_total cfg timeout
  have found := divisor_found (ticks cfg timeout)
  generalize shape : divisorFor (ticks cfg timeout) = result at found
  cases found with
  | fits divisor low' high bound whole small =>
      rw [accepted_law cfg timeout s _ positive (run_heartbeat_accepted cfg timeout divisor s positive shape)]
      omega
  | exit large bound =>
      rw [accepted_law cfg timeout s _ positive (run_heartbeat_accepted cfg timeout 257 s positive shape)]
      omega
  | refused large =>
      refine iff_of_true ?_ (.inr (.inr (by omega)))
      exact refused_law cfg timeout s (run_heartbeat_refused cfg timeout s (.inr shape)) (by omega)

def boardConfig : WdtConfig := ⟨s3c2410Wtcon, 0, 0, 0, 50000000⟩

theorem default_margin_programmed : IntervalLaw boardConfig 15 (loadedWdt 15 fun _ => 0) :=
  (interval_law_iff boardConfig 15 (loadedWdt 15 fun _ => 0) (by decide) (by decide)).mpr (.inl (by decide))

-- 43 s are 16796875 ticks: 257 is accepted as their divisor.
theorem window_timeout_misprogrammed : ¬ IntervalLaw boardConfig 43 (loadedWdt 15 fun _ => 0) := by
  intro law
  obtain ⟨r, t, ran, right⟩ := law
  have accepted := run_heartbeat_accepted boardConfig 43 257 (loadedWdt 15 fun _ => 0) (by decide) (by decide +kernel)
  obtain ⟨rfl, rfl⟩ := Prog.run_unique accepted ran
  exact exit_divisor_interval boardConfig 43 _ _ (by decide) (by decide) (right rfl)

-- 10996 s are 4295312500 ticks, of which the unsigned int keeps 345204.
theorem wrapped_timeout_accepted : ¬ AcceptanceLaw boardConfig 10996 (loadedWdt 15 fun _ => 0) := by
  rintro ⟨r, t, ran, law⟩
  have accepted := run_heartbeat_accepted boardConfig 10996 6 (loadedWdt 15 fun _ => 0) (by decide) (by decide)
  obtain ⟨rfl, rfl⟩ := Prog.run_unique accepted ran
  rw [if_neg (by decide)] at law
  exact absurd law.1 (by decide)

end OneDriver.Watchdog
