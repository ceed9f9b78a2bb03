import OneDriver.Lock
import OneDriver.Pwm.Device

set_option autoImplicit false

namespace OneDriver.Pwm

inductive AppStep where
  | driver (step : PwmStep)
  | getkey (freq : Int)
deriving DecidableEq, Repr

abbrev AppProg := Prog AppStep PwmState PwmFault

def wholePart : Part PwmState PwmState where
  get := id
  set := fun t _ => t
  get_set := fun _ _ => rfl
  set_get := fun _ => rfl
  set_set := fun _ _ _ => rfl

def onPwm {α : Type} (p : PwmProg α) : AppProg α := p.within wholePart .driver id fun _ _ => none

section Buzzer

variable (header : PwmHeader) (pclk : Nat)

def buzzerClose : AppProg Unit := do
  let _ ← onPwm (pwmIoctl header pclk pwmIoctlStop 0)
  let _ ← onPwm (pwmClose header)
  pure ()

-- exit, once buzzer_open has left buzzer_close to atexit.
def leave (status : Int) : AppProg Int := do
  buzzerClose header pclk
  pure status

end Buzzer

section Disciplined

variable (header : PwmHeader) (pclk : Nat) (found : PwmState) (post : Int → Prop)

variable (clock : 20000 ≤ pclk / 50 / 16 ∧ pclk / 50 / 16 < 655360)

include clock

end Disciplined

end OneDriver.Pwm
