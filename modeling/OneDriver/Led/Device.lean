import OneDriver.Prog
import OneDriver.CInt
import Mathlib.Logic.Function.Basic

set_option autoImplicit false

namespace OneDriver.Led

-- What regs-gpio.h gives the driver: the numbers of the pins of port B, distinct
-- ones for distinct arguments, and the setting that makes a pin an output.
structure GpioHeader where
  gpb : Nat → Nat
  output : Nat
  gpbInjective : Function.Injective gpb

def ledTable (gpio : GpioHeader) : List Nat := [gpio.gpb 5, gpio.gpb 6, gpio.gpb 7, gpio.gpb 8]

def ledCfgTable (gpio : GpioHeader) : List Nat := [gpio.output, gpio.output, gpio.output, gpio.output]

def mini2440 : GpioHeader where
  gpb := fun n => 32 + n
  output := 1
  gpbInjective := fun a b same => by simpa using same

structure LedState where
  pins : Nat → Bool
  pinFunction : Nat → Nat

inductive LedStep where
  | cfgpin (pin : Nat)
  | setpin (pin : Nat)
deriving DecidableEq, Repr

inductive LedFault where
  | outOfTable
deriving DecidableEq, Repr

abbrev LedProg := Prog LedStep LedState LedFault

def s3c2410GpioCfgpin (pin setting : Nat) : LedProg Unit :=
  .modify (.cfgpin pin) fun s => { s with pinFunction := Function.update s.pinFunction pin setting }

def s3c2410GpioSetpin (pin : Nat) (level : Bool) : LedProg Unit :=
  .modify (.setpin pin) fun s => { s with pins := Function.update s.pins pin level }

structure LedCall where
  cmd : Nat
  arg : Nat
deriving DecidableEq, Repr

-- A fifth entry of led_table would be whatever the linker put behind the four.
def setLed (gpio : GpioHeader) (call : LedCall) : LedProg Int :=
  match (ledTable gpio)[call.arg]? with
  | none => .crash .outOfTable
  | some pin => do
      s3c2410GpioSetpin pin (call.cmd = 0)
      pure 0

def s3c2440LedsIoctl (gpio : GpioHeader) (call : LedCall) : LedProg Int :=
  if call.cmd = 0 ∨ call.cmd = 1 then
    if call.arg > 4 then pure (-einval) else setLed gpio call
  else pure (-einval)

def initPins : List Nat → List Nat → LedProg Unit
  | pin :: pins, setting :: settings => do
      s3c2410GpioCfgpin pin setting
      s3c2410GpioSetpin pin false
      initPins pins settings
  | _, _ => pure ()

-- The result is misc_register's.
def s3c2440LedsModuleInit (gpio : GpioHeader) (registered : Int) : LedProg Int := do
  initPins (ledTable gpio) (ledCfgTable gpio)
  pure registered

def DrivesLed (gpio : GpioHeader) (label : LedStep) (_ _ : LedState) : Prop :=
  ∀ pin, label = .setpin pin → pin ∈ ledTable gpio

-- The levels that the accepted calls asked for.
def LedCall.shows (call : LedCall) (r : Int) (levels : Nat → Bool) : Nat → Bool :=
  if r = 0 then Function.update levels call.arg (call.cmd = 0) else levels

def Shows (gpio : GpioHeader) (levels : Nat → Bool) (s : LedState) : Prop :=
  ∀ n pin, (ledTable gpio)[n]? = some pin → s.pins pin = levels n

def LedLaw (gpio : GpioHeader) : (Nat → Bool) → LedState → List LedCall → Prop
  | _, _, [] => True
  | levels, s, call :: rest => (s3c2440LedsIoctl gpio call).along (DrivesLed gpio) s ∧
      ∃ r t, (s3c2440LedsIoctl gpio call).run s = .done r t ∧ (r ≠ 0 → t = s) ∧
        Shows gpio (call.shows r levels) t ∧ LedLaw gpio (call.shows r levels) t rest

theorem led_table_nodup (gpio : GpioHeader) : (ledTable gpio).Nodup := by
  have apart : ∀ m n, m ≠ n → gpio.gpb m ≠ gpio.gpb n := fun m n different same => different (gpio.gpbInjective same)
  simp [ledTable, apart]

-- A call that names no entry: an unknown command, or an argument above the table.
theorem refused_call (gpio : GpioHeader) (call : LedCall) (refused : 1 < call.cmd ∨ 4 < call.arg) :
    s3c2440LedsIoctl gpio call = pure (-einval) := by
  unfold s3c2440LedsIoctl
  by_cases known : call.cmd = 0 ∨ call.cmd = 1
  · rw [if_pos known, if_pos (by omega)]
  · rw [if_neg known]

theorem accepted_call (gpio : GpioHeader) (call : LedCall) (known : call.cmd ≤ 1) (named : call.arg ≤ 4) :
    s3c2440LedsIoctl gpio call = setLed gpio call := by
  rw [s3c2440LedsIoctl, if_pos (by omega), if_neg (by omega)]

theorem shows_set (gpio : GpioHeader) (levels : Nat → Bool) (s : LedState) (n pin : Nat) (level : Bool)
    (listed : (ledTable gpio)[n]? = some pin) (holds : Shows gpio levels s) :
    Shows gpio (Function.update levels n level) { s with pins := Function.update s.pins pin level } := by
  intro m other listed'
  by_cases same : m = n
  · subst same
    obtain rfl := Option.some.inj (listed.symm.trans listed')
    simp
  · have different : other ≠ pin := by
      rintro rfl
      have bound := (List.getElem?_eq_some_iff.mp listed').1
      exact same ((List.getElem?_inj bound (led_table_nodup gpio)).mp (listed'.trans listed.symm))
    simp [same, different, holds m other listed']

theorem run_init_pins (pins settings : List Nat) (s : LedState) (paired : pins.length = settings.length) :
    ∃ t, (initPins pins settings).run s = .done () t ∧
      ∀ pin, t.pins pin = if pin ∈ pins then false else s.pins pin := by
  induction pins generalizing settings s with
  | nil => exact ⟨s, rfl, fun pin => by simp⟩
  | cons first rest ih =>
      cases settings with
      | nil => contradiction
      | cons setting settings =>
          obtain ⟨t, ran, levels⟩ := ih settings
            ⟨Function.update s.pins first false, Function.update s.pinFunction first setting⟩ (by simpa using paired)
          refine ⟨t, ran, fun pin => ?_⟩
          rw [levels pin]
          by_cases same : pin = first
          · simp [same]
          · simp [same]

theorem init_shows (gpio : GpioHeader) (registered : Int) (s : LedState) :
    ∃ t, (s3c2440LedsModuleInit gpio registered).run s = .done registered t ∧ Shows gpio (fun _ => false) t := by
  obtain ⟨t, ran, levels⟩ := run_init_pins (ledTable gpio) (ledCfgTable gpio) s rfl
  refine ⟨t, ?_, fun n pin listed => ?_⟩
  · simp only [s3c2440LedsModuleInit, Prog.run_bind, ran, outcome_bind_done, Prog.run_pure]
  · rw [levels pin, if_pos (List.mem_of_getElem? listed)]

-- The bound lets one argument too many through.
def LedCall.overruns (call : LedCall) : Prop := call.cmd ≤ 1 ∧ call.arg = 4

theorem overrun_crashes (gpio : GpioHeader) (call : LedCall) (s : LedState) (beyond : call.overruns) :
    (s3c2440LedsIoctl gpio call).run s = .crashed .outOfTable s := by
  have outside : (ledTable gpio)[call.arg]? = none := by rw [beyond.2]; rfl
  rw [accepted_call gpio call beyond.1 (by rw [beyond.2]), setLed, outside, Prog.run_crash]

theorem led_call_obeys (gpio : GpioHeader) (levels : Nat → Bool) (call : LedCall) (s : LedState)
    (within : ¬ call.overruns) (holds : Shows gpio levels s) :
    (s3c2440LedsIoctl gpio call).along (DrivesLed gpio) s ∧
      ∃ r t, (s3c2440LedsIoctl gpio call).run s = .done r t ∧ (r ≠ 0 → t = s) ∧ Shows gpio (call.shows r levels) t := by
  by_cases refused : 1 < call.cmd ∨ 4 < call.arg
  · rw [refused_call gpio call refused]
    exact ⟨trivial, -einval, s, rfl, fun _ => rfl, holds⟩
  · unfold LedCall.overruns at within
    have named : call.arg < (ledTable gpio).length := by
      change call.arg < 4
      omega
    have listed : (ledTable gpio)[call.arg]? = some (ledTable gpio)[call.arg] := List.getElem?_eq_getElem named
    rw [accepted_call gpio call (by omega) (by omega), setLed, listed]
    refine ⟨?_, 0, _, rfl, fun error => absurd rfl error, shows_set gpio levels s call.arg _ _ listed holds⟩
    refine (Prog.along_bind _ _ _ _).mpr ⟨(Prog.along_modify _ _ _ _).mpr ?_, fun _ _ _ => trivial⟩
    rintro pin ⟨⟩
    exact List.mem_of_getElem? listed

theorem led_law_calls (gpio : GpioHeader) (levels : Nat → Bool) (s : LedState) (calls : List LedCall)
    (holds : Shows gpio levels s) : LedLaw gpio levels s calls ↔ ∀ call ∈ calls, ¬ call.overruns := by
  induction calls generalizing levels s with
  | nil => simp [LedLaw]
  | cons call rest ih =>
      rw [List.forall_mem_cons]
      constructor
      · intro law
        obtain ⟨-, r, t, ran, -, shown, later⟩ := law
        refine ⟨fun beyond => ?_, (ih _ t shown).mp later⟩
        rw [overrun_crashes gpio call s beyond] at ran
        contradiction
      · intro follows
        obtain ⟨within, later⟩ := follows
        obtain ⟨drives, r, t, ran, kept, shown⟩ := led_call_obeys gpio levels call s within holds
        exact ⟨drives, r, t, ran, kept, shown, (ih _ t shown).mpr later⟩

theorem led_runs_iff (gpio : GpioHeader) (calls : List LedCall) (s : LedState) :
    ∃ t, (s3c2440LedsModuleInit gpio 0).run s = .done 0 t ∧ Shows gpio (fun _ => false) t ∧
      (LedLaw gpio (fun _ => false) t calls ↔ ∀ call ∈ calls, ¬ call.overruns) := by
  obtain ⟨t, ran, shown⟩ := init_shows gpio 0 s
  exact ⟨t, ran, shown, led_law_calls gpio _ t calls shown⟩

theorem fifth_led_overruns :
    ∃ t, (s3c2440LedsModuleInit mini2440 0).run ⟨fun _ => true, fun _ => 0⟩ = .done 0 t ∧
      ¬ LedLaw mini2440 (fun _ => false) t [⟨1, 4⟩] := by
  obtain ⟨t, ran, -⟩ := init_shows mini2440 0 ⟨fun _ => true, fun _ => 0⟩
  refine ⟨t, ran, ?_⟩
  intro law
  obtain ⟨-, r, u, again, -⟩ := law
  rw [overrun_crashes mini2440 ⟨1, 4⟩ t ⟨by decide, rfl⟩] at again
  contradiction

end OneDriver.Led
