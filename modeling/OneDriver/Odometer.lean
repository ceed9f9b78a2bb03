import Mathlib.Tactic.Common

set_option autoImplicit false

namespace OneDriver

-- A digit of a counter: whether its next step runs over, and what it then
-- restarts from.
structure Digit where
  value : Int
  ends : Bool
  restart : Int
deriving DecidableEq, Repr

-- A step that can be told from its overflow and from no step at all.
def Digit.Sound (d : Digit) : Prop := d.restart ≠ d.value + 1 ∧ (d.ends = true → d.restart ≠ d.value)

def digitValues (digits : List Digit) : List Int := digits.map Digit.value

-- One step of the counter, lowest digit first; the last carry is lost.
def countUp : List Digit → List Int
  | [] => []
  | d :: rest => if d.ends = true then d.restart :: countUp rest else (d.value + 1) :: digitValues rest

theorem count_up_changes (d : Digit) (rest : List Digit) (sound : d.Sound) : countUp (d :: rest) ≠ digitValues (d :: rest) := by
  intro same
  unfold countUp at same
  split at same
  · rename_i ends
    exact sound.2 ends (List.cons.inj same).1
  · have head : d.value + 1 = d.value := (List.cons.inj same).1
    omega

theorem count_up_take (digits : List Digit) (n : Nat) : (countUp digits).take n = countUp (digits.take n) := by
  induction digits generalizing n with
  | nil => simp [countUp]
  | cons d rest ih =>
      cases n with
      | zero => simp [countUp]
      | succ n =>
          rw [List.take_succ_cons, countUp, countUp]
          split
          · rw [List.take_succ_cons, ih]
          · rw [List.take_succ_cons, digitValues, digitValues, List.map_take]

-- The low digits of a counter, read off another counter that shows the same there
-- but may run over elsewhere.
def ShowsLow : List Digit → List Digit → Prop
  | [], _ => True
  | _ :: _, [] => False
  | a :: low, b :: own => a.value = b.value ∧ a.restart = b.restart ∧ ShowsLow low own

-- A step of the low digits is a step of the whole counter: the carry ends among
-- them, and up to there each runs over as the counter's own digit does.
def CarriesAlike : List Digit → List Digit → Prop
  | [], own => own = []
  | _ :: _, [] => False
  | a :: low, b :: own => a.ends = b.ends ∧ (a.ends = true → CarriesAlike low own)

theorem shows_values (low own : List Digit) (shows' : ShowsLow low own) :
    digitValues low ++ digitValues (own.drop low.length) = digitValues own := by
  induction low generalizing own with
  | nil => rfl
  | cons a low ih =>
      cases own with
      | nil => exact shows'.elim
      | cons b own =>
          obtain ⟨value, -, rest⟩ := shows'
          simpa [digitValues, value] using ih own rest

theorem low_step_iff (low own : List Digit) (shows' : ShowsLow low own) (sound : ∀ d ∈ own, d.Sound) :
    countUp low ++ digitValues (own.drop low.length) = countUp own ↔ CarriesAlike low own := by
  induction low generalizing own with
  | nil =>
      cases own with
      | nil => exact iff_of_true rfl rfl
      | cons b own =>
          refine iff_of_false (fun same => ?_) (by simp [CarriesAlike])
          exact count_up_changes b own (sound b (by simp)) same.symm
  | cons a low ih =>
      cases own with
      | nil => exact shows'.elim
      | cons b own =>
          obtain ⟨value, restart, rest⟩ := shows'
          have later := ih own rest fun d member => sound d (by simp [member])
          have apart := (sound b (by simp)).1
          have kept := shows_values low own rest
          rw [countUp, countUp, CarriesAlike]
          cases here : a.ends <;> cases there : b.ends
          · simp [value, kept]
          · simp [value, Ne.symm apart]
          · simp [restart, apart]
          · simp [restart, later]

end OneDriver
