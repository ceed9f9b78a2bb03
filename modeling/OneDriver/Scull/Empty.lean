import OneDriver.Scull.Device

set_option autoImplicit false

namespace OneDriver.Scull

-- A device with no qset at all, as a load or a trim leaves it.
structure Empty (s : ScullState) : Prop where
  data : s.data = none
  size : s.size = 0
  idle : s.sem = 1

def itemsizeOf (s : ScullState) : Int := int32 (s.quantum * s.qset)

theorem loaded_empty : Empty scullLoaded := ⟨rfl, rfl, rfl⟩

theorem run_trim_empty (cfg : ScullConfig) (s : ScullState) (data : s.data = none) :
    (scullTrim cfg).run s =
      .done 0 { s with size := 0, quantum := cfg.scullQuantum, qset := cfg.scullQset, data := none } := by
  have walks : ∀ fuel, trimChain s.qset fuel none = pure () := fun fuel => by cases fuel <;> rfl
  simp [scullTrim, data, walks]

theorem run_follow_empty (item : Int) (s : ScullState) (data : s.data = none) :
    (scullFollow item).run s = .done none s := by
  have walks : ∀ fuel, followFrom 0 item fuel none = pure none := fun fuel => by cases fuel <;> rfl
  simp [scullFollow, data, walks]

theorem run_locate_zero (abi : Abi) (quantum qset fPos : Int) (s : ScullState) (zero : int32 (quantum * qset) = 0) :
    (locate abi quantum qset fPos).run s = .crashed .divideByZero s := by
  simp [locate, cdiv, zero, Outcome.bind]

theorem run_locate_nonzero (abi : Abi) (quantum qset fPos : Int) (s : ScullState)
    (nonzero : int32 (quantum * qset) ≠ 0) : ∃ pos, (locate abi quantum qset fPos).run s = .done pos s := by
  have quantum' : quantum ≠ 0 := by
    intro zero
    exact nonzero (by simp [zero, int32])
  exact ⟨_, by
    simp only [locate, Prog.run_bind, cdiv_of_ne _ _ _ nonzero, cmod_of_ne _ _ _ nonzero, cdiv_of_ne _ _ _ quantum',
      cmod_of_ne _ _ _ quantum', Prog.run_pure, outcome_bind_done]; rfl⟩

-- The state between down and up.
def ScullState.held (s : ScullState) : ScullState := { s with sem := 0 }

def ScullState.upped (s : ScullState) : ScullState := { s with sem := s.sem + 1 }

@[simp] theorem held_size (s : ScullState) : s.held.size = s.size := rfl

theorem held_upped (s : ScullState) (idle : s.sem = 1) : s.held.upped = s := by
  cases s
  simp_all [ScullState.held, ScullState.upped]

theorem run_locked (fPos : Int) (body : ScullProg ScullReply) (s : ScullState) (idle : s.sem = 1) :
    (locked false fPos body).run s = (body.run s.held).bind fun reply t => .done reply t.upped := by
  simp only [locked, Bool.false_eq_true, if_false, Prog.run_bind, Prog.run_await, idle]
  rfl

theorem run_write_empty (cfg : ScullConfig) (call : WriteCall) (s : ScullState) (empty : Empty s)
    (waits : call.interrupted = false) :
    (scullWrite cfg call).run s =
      if itemsizeOf s = 0 then .crashed .divideByZero s.held else .done ⟨-einval, call.fPos, []⟩ s := by
  simp only [scullWrite, sampled, Prog.run_bind, Prog.run_look, outcome_bind_done, waits, run_locked _ _ s empty.idle,
    writeBody]
  by_cases zero : itemsizeOf s = 0
  · rw [run_locate_zero _ _ _ _ _ zero, if_pos zero]
    rfl
  · obtain ⟨pos, located⟩ := run_locate_nonzero cfg.abi s.quantum s.qset call.fPos s.held zero
    rw [located, outcome_bind_done, run_follow_empty _ s.held empty.data, if_neg zero]
    simp only [outcome_bind_done, writeFound, Prog.run_pure, held_upped s empty.idle]

theorem run_clamp_to_size (abi : Abi) (fPos : Int) (count : Nat) (s : ScullState) :
    ∃ clamped, (clampToSize abi fPos count).run s = .done clamped s := by
  by_cases past : abi.mixed (fPos + count) > s.size
  · exact ⟨_, by simp only [clampToSize, Prog.run_bind, Prog.run_look, outcome_bind_done, if_pos past]; rfl⟩
  · exact ⟨_, by simp only [clampToSize, Prog.run_bind, Prog.run_look, outcome_bind_done, if_neg past]; rfl⟩

theorem run_read_empty (cfg : ScullConfig) (call : ReadCall) (s : ScullState) (empty : Empty s)
    (waits : call.interrupted = false) :
    (scullRead cfg call).run s =
      if cfg.abi.mixed call.fPos < 0 ∧ itemsizeOf s = 0 then .crashed .divideByZero s.held
      else .done ⟨0, call.fPos, []⟩ s := by
  simp only [scullRead, sampled, Prog.run_bind, Prog.run_look, outcome_bind_done, waits, run_locked _ _ s empty.idle,
    readBody, held_size, empty.size]
  by_cases past : cfg.abi.mixed call.fPos ≥ ((0 : Nat) : Int)
  · have sign : ¬ (cfg.abi.mixed call.fPos < 0 ∧ itemsizeOf s = 0) := fun both => absurd past (Int.not_le.mpr both.1)
    rw [if_pos past, if_neg sign, Prog.run_pure, outcome_bind_done, held_upped s empty.idle]
  · obtain ⟨count, clamps⟩ := run_clamp_to_size cfg.abi call.fPos call.count s.held
    rw [if_neg past, Prog.run_bind, clamps, outcome_bind_done, Prog.run_bind]
    by_cases zero : itemsizeOf s = 0
    · rw [run_locate_zero _ _ _ _ _ zero, if_pos ⟨Int.not_le.mp past, zero⟩]
      rfl
    · obtain ⟨pos, located⟩ := run_locate_nonzero cfg.abi s.quantum s.qset call.fPos s.held zero
      rw [located, outcome_bind_done, Prog.run_bind, run_follow_empty _ s.held empty.data, if_neg fun both => zero both.2]
      simp only [outcome_bind_done, readFound, Prog.run_pure, held_upped s empty.idle]

-- A write of one byte that nothing interrupts or refuses.
def oneByte (fPos : Int) : WriteCall where
  data := [65]
  fPos := fPos
  interrupted := false
  fault := none
  arrayMemory := some fun _ => none
  blockMemory := some fun _ => 0

end OneDriver.Scull
