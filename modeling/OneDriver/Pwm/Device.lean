import OneDriver.CInt
import Mathlib.Logic.Function.Basic

set_option autoImplicit false

namespace OneDriver.Pwm

-- What regs-timer.h and regs-gpio.h give the driver: the fields of TCFG0 and
-- TCFG1 that timer 0 counts by, and the pin and its two settings.
structure PwmHeader where
  prescaler0Mask : BitVec 32
  mux0Mask : BitVec 32
  mux0Div16 : BitVec 32
  gpb0 : Nat
  gpb0Tout0 : Nat
  gpioOutput : Nat
  prescaleInField : 49 &&& prescaler0Mask = 49
  div16InField : mux0Div16 &&& mux0Mask = mux0Div16
  settingsApart : gpb0Tout0 ≠ gpioOutput

def s3c2440 : PwmHeader where
  prescaler0Mask := 255
  mux0Mask := 15
  mux0Div16 := 3
  gpb0 := 32
  gpb0Tout0 := 2
  gpioOutput := 1
  prescaleInField := by decide
  div16InField := by decide
  settingsApart := by decide

def pwmIoctlSetFreq : Nat := 1
def pwmIoctlStop : Nat := 0

inductive TimerReg where
  | tcfg0 | tcfg1 | tcon | tcntb0 | tcmpb0
deriving DecidableEq, Repr

-- `lock` is the count of the semaphore, `pins` the levels that were set.
structure PwmState where
  lock : Nat
  regs : TimerReg → BitVec 32
  pins : Nat → Bool
  pinFunction : Nat → Nat

inductive PwmStep where
  | downTrylock
  | up
  | readl (reg : TimerReg)
  | writel (reg : TimerReg)
  | cfgpin (pin : Nat)
  | setpin (pin : Nat)
deriving DecidableEq, Repr

inductive PwmFault where
  | divideByZero
deriving DecidableEq, Repr

abbrev PwmProg := Prog PwmStep PwmState PwmFault

def PwmState.write (s : PwmState) (reg : TimerReg) (value : BitVec 32) : PwmState :=
  { s with regs := Function.update s.regs reg value }

def rawReadl (reg : TimerReg) : PwmProg (BitVec 32) := .look (.readl reg) (·.regs reg)

def rawWritel (value : BitVec 32) (reg : TimerReg) : PwmProg Unit := .modify (.writel reg) (·.write reg value)

def s3c2410GpioCfgpin (pin setting : Nat) : PwmProg Unit :=
  .modify (.cfgpin pin) fun s => { s with pinFunction := Function.update s.pinFunction pin setting }

def s3c2410GpioSetpin (pin : Nat) (level : Bool) : PwmProg Unit :=
  .modify (.setpin pin) fun s => { s with pins := Function.update s.pins pin level }

def quotient (a b : Nat) : PwmProg Nat := if b = 0 then .crash .divideByZero else pure (a / b)

-- No unsigned long of these can overflow. `pclk` is what clk_get_rate returns.
def pwmSetFreq (header : PwmHeader) (pclk freq : Nat) : PwmProg Unit := do
  s3c2410GpioCfgpin header.gpb0 header.gpb0Tout0
  let tcon ← rawReadl .tcon
  let tcfg1 ← rawReadl .tcfg1
  let tcfg0 ← rawReadl .tcfg0
  let tcfg0 := tcfg0 &&& ~~~header.prescaler0Mask
  let tcfg0 := tcfg0 ||| (50 - 1)
  let tcfg1 := tcfg1 &&& ~~~header.mux0Mask
  let tcfg1 := tcfg1 ||| header.mux0Div16
  rawWritel tcfg1 .tcfg1
  rawWritel tcfg0 .tcfg0
  let tcnt ← quotient (pclk / 50 / 16) freq
  rawWritel (BitVec.ofNat 32 tcnt) .tcntb0
  rawWritel (BitVec.ofNat 32 (tcnt / 2)) .tcmpb0
  let tcon := tcon &&& ~~~0x1f
  let tcon := tcon ||| 0xb
  rawWritel tcon .tcon
  let tcon := tcon &&& ~~~2
  rawWritel tcon .tcon

def pwmStop (header : PwmHeader) : PwmProg Unit := do
  s3c2410GpioCfgpin header.gpb0 header.gpioOutput
  s3c2410GpioSetpin header.gpb0 false

-- down_trylock gives 0 when it has taken the semaphore.
def downTrylock : PwmProg Int :=
  .act .downTrylock (fun _ => true) (fun s => { s with lock := s.lock - 1 }) fun s => .ret (if s.lock = 0 then 1 else 0)

def pwmClose (header : PwmHeader) : PwmProg Int := do
  pwmStop header
  Prog.modify .up fun s => { s with lock := s.lock + 1 }
  pure 0

def pwmIoctl (header : PwmHeader) (pclk cmd arg : Nat) : PwmProg Int :=
  if cmd = pwmIoctlSetFreq then
    if arg = 0 then pure (-einval)
    else do
      pwmSetFreq header pclk arg
      pure 0
  else if cmd = pwmIoctlStop then do
    pwmStop header
    pure 0
  else pure (-einval)

def PwmState.count (s : PwmState) : Nat := (s.regs .tcntb0).toNat

-- Timer 0 counts at pclk/50/16, and its period is `freq` up to rounding.
structure Programmed (header : PwmHeader) (pclk freq : Nat) (s : PwmState) : Prop where
  prescaler : s.regs .tcfg0 &&& header.prescaler0Mask = 50 - 1
  mux : s.regs .tcfg1 &&& header.mux0Mask = header.mux0Div16
  positive : 1 ≤ s.count
  fits : s.count ≤ 65535
  low : s.count * freq ≤ pclk / 50 / 16
  high : pclk / 50 / 16 < (s.count + 1) * freq

-- The range of the comment above PWM_set_freq.
def InRange (pclk freq : Nat) : Prop := pclk / 50 / 16 / 65536 ≤ freq ∧ freq ≤ pclk / 50 / 16

def FreqLaw (header : PwmHeader) (pclk freq : Nat) (s : PwmState) : Prop :=
  ∃ r t, (pwmIoctl header pclk pwmIoctlSetFreq freq).run s = .done r t ∧
    (r = 0 → Programmed header pclk freq t) ∧ (¬ InRange pclk freq → r < 0 ∧ t = s)

-- No argument, or one whose count is neither zero nor too wide for the counter.
def Countable (pclk freq : Nat) : Prop := freq = 0 ∨ freq ≤ pclk / 50 / 16 ∧ pclk / 50 / 16 < 65536 * freq

def programmed (header : PwmHeader) (pclk freq : Nat) (s : PwmState) : PwmState where
  lock := s.lock
  pins := s.pins
  pinFunction := Function.update s.pinFunction header.gpb0 header.gpb0Tout0
  regs
    | .tcfg0 => s.regs .tcfg0 &&& ~~~header.prescaler0Mask ||| (50 - 1)
    | .tcfg1 => s.regs .tcfg1 &&& ~~~header.mux0Mask ||| header.mux0Div16
    | .tcon => (s.regs .tcon &&& ~~~0x1f ||| 0xb) &&& ~~~2
    | .tcntb0 => BitVec.ofNat 32 (pclk / 50 / 16 / freq)
    | .tcmpb0 => BitVec.ofNat 32 (pclk / 50 / 16 / freq / 2)

theorem run_pwm_set_freq (header : PwmHeader) (pclk freq : Nat) (s : PwmState) (asked : freq ≠ 0) :
    (pwmSetFreq header pclk freq).run s = .done () (programmed header pclk freq s) := by
  simp only [pwmSetFreq, s3c2410GpioCfgpin, rawReadl, rawWritel, quotient, asked, if_false, Prog.run_bind,
    Prog.run_modify, Prog.run_look, Prog.run_pure, outcome_bind_done, PwmState.write, programmed]
  congr 2
  funext reg
  cases reg <;> rfl

theorem run_ioctl_set_freq (header : PwmHeader) (pclk freq : Nat) (s : PwmState) :
    (pwmIoctl header pclk pwmIoctlSetFreq freq).run s =
      if freq = 0 then .done (-einval) s else .done 0 (programmed header pclk freq s) := by
  by_cases asked : freq = 0
  · simp [pwmIoctl, asked]
  · simp [pwmIoctl, asked, run_pwm_set_freq]

theorem field_set (value mask field : BitVec 32) (inside : field &&& mask = field) :
    (value &&& ~~~mask ||| field) &&& mask = field := by
  have apart : ~~~mask &&& mask = 0#32 := by
    rw [BitVec.and_comm, BitVec.and_not_self]
    rfl
  rw [BitVec.and_or_distrib_right, BitVec.and_assoc, apart, BitVec.and_zero, inside, BitVec.zero_or]

theorem programmed_count (header : PwmHeader) (pclk freq : Nat) (s : PwmState)
    (narrow : pclk / 50 / 16 < 65536 * freq) : (programmed header pclk freq s).count = pclk / 50 / 16 / freq := by
  have fits : pclk / 50 / 16 / freq < 65536 := Nat.div_lt_of_lt_mul (Nat.mul_comm 65536 freq ▸ narrow)
  exact Nat.mod_eq_of_lt (Nat.lt_trans fits (by decide))

-- Whatever is in the counter, its being right bounds the argument.
theorem countable_of_programmed (header : PwmHeader) (pclk freq : Nat) (s : PwmState)
    (right : Programmed header pclk freq s) : freq ≤ pclk / 50 / 16 ∧ pclk / 50 / 16 < 65536 * freq := by
  constructor
  · calc freq = 1 * freq := (Nat.one_mul freq).symm
      _ ≤ s.count * freq := Nat.mul_le_mul_right freq right.positive
      _ ≤ pclk / 50 / 16 := right.low
  · calc pclk / 50 / 16 < (s.count + 1) * freq := right.high
      _ ≤ 65536 * freq := Nat.mul_le_mul_right freq (Nat.succ_le_succ right.fits)

theorem programmed_of_countable (header : PwmHeader) (pclk freq : Nat) (s : PwmState) (asked : freq ≠ 0)
    (wide : freq ≤ pclk / 50 / 16) (narrow : pclk / 50 / 16 < 65536 * freq) :
    Programmed header pclk freq (programmed header pclk freq s) := by
  have count := programmed_count header pclk freq s narrow
  have positive := Nat.pos_of_ne_zero asked
  exact {
    prescaler := field_set _ _ _ header.prescaleInField
    mux := field_set _ _ _ header.div16InField
    positive := by rw [count]; exact Nat.div_pos wide positive
    fits := by rw [count]; exact Nat.le_of_lt_succ (Nat.div_lt_of_lt_mul (Nat.mul_comm 65536 freq ▸ narrow))
    low := by rw [count]; exact Nat.div_mul_le_self _ _
    high := by rw [count]; exact Nat.lt_mul_of_div_lt (Nat.lt_succ_self _) positive }

theorem in_range_of_countable (pclk freq : Nat) (wide : freq ≤ pclk / 50 / 16)
    (narrow : pclk / 50 / 16 < 65536 * freq) : InRange pclk freq :=
  ⟨Nat.le_of_lt (Nat.div_lt_of_lt_mul narrow), wide⟩

theorem accepted_law_iff (header : PwmHeader) (pclk freq : Nat) (s : PwmState) (asked : freq ≠ 0) :
    FreqLaw header pclk freq s ↔ Programmed header pclk freq (programmed header pclk freq s) ∧ InRange pclk freq := by
  have ran := run_ioctl_set_freq header pclk freq s
  rw [if_neg asked] at ran
  rw [FreqLaw, Prog.run_exists_iff _ s _ 0 _ ran]
  constructor
  · intro law
    have right := law.1 rfl
    obtain ⟨wide, narrow⟩ := countable_of_programmed header pclk freq _ right
    exact ⟨right, in_range_of_countable pclk freq wide narrow⟩
  · intro law
    exact ⟨fun _ => law.1, fun outside => absurd law.2 outside⟩

-- Zero is the one argument that is refused.
theorem freq_law_iff (header : PwmHeader) (pclk freq : Nat) (s : PwmState) :
    FreqLaw header pclk freq s ↔ Countable pclk freq := by
  by_cases asked : freq = 0
  · have ran := run_ioctl_set_freq header pclk freq s
    rw [if_pos asked] at ran
    have refused : -einval < 0 := by decide
    refine iff_of_true ⟨_, _, ran, ?_, fun _ => ⟨refused, rfl⟩⟩ (Or.inl asked)
    intro accepted
    omega
  · rw [accepted_law_iff header pclk freq s asked]
    constructor
    · intro law
      exact Or.inr (countable_of_programmed header pclk freq _ law.1)
    · intro countable
      obtain ⟨wide, narrow⟩ := countable.resolve_left asked
      have right := programmed_of_countable header pclk freq s asked wide narrow
      exact ⟨right, in_range_of_countable pclk freq wide narrow⟩

-- 100 kHz of a clock of 50 MHz, with which the comment ends at 62500 Hz.
theorem high_frequency_stops_the_counter :
    ∃ s t, (pwmIoctl s3c2440 50000000 pwmIoctlSetFreq 100000).run s = .done 0 t ∧ t.count = 0 ∧
      ¬ FreqLaw s3c2440 50000000 100000 s := by
  refine ⟨⟨1, fun _ => 0, fun _ => false, fun _ => 0⟩, _, run_ioctl_set_freq _ _ _ _, rfl, ?_⟩
  rw [accepted_law_iff _ _ _ _ (by decide)]
  intro law
  exact absurd law.2.2 (by decide)

inductive PwmCall where
  | openFile
  | closeFile
  | ioctl (pclk cmd arg : Nat)
deriving DecidableEq, Repr

-- What is to be heard: the last tone asked for, until it is stopped.
inductive Tone where
  | unset
  | silent
  | sounding (pclk freq : Nat)
deriving DecidableEq, Repr

def Tone.next (tone : Tone) : PwmCall → Tone
  | .openFile => tone
  | .closeFile => .silent
  | .ioctl pclk cmd arg =>
      if cmd = pwmIoctlSetFreq then if arg = 0 then tone else .sounding pclk arg
      else if cmd = pwmIoctlStop then .silent
      else tone

end OneDriver.Pwm
