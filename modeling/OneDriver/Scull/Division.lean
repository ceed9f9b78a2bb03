import OneDriver.Scull.Empty

set_option autoImplicit false

namespace OneDriver.Scull

-- The calls that get to their divisions on a device of size 0. An offset below
-- zero passes the test against dev->size only where long has 32 bits.
def ReachesDivision (abi : Abi) : ScullCall → Prop
  | .write call => call.interrupted = false
  | .read call => call.interrupted = false ∧ abi.mixed call.fPos < 0
  | _ => False

-- A write-only open came before, and the product of the parameters is no multiple
-- of 2^32.
def Prepared (cfg : ScullConfig) (opened : Bool) (call : ScullCall) : Prop :=
  ReachesDivision cfg.abi call → opened = true ∧ ¬ (2 ^ 32 : Int) ∣ cfg.scullQuantum * cfg.scullQset

def openedAfter (opened : Bool) (call : ScullCall) : Bool := opened || call.trims

-- Nothing in the driver allocates a node, so a run from load only installs the
-- parameters, and no earlier than its first write-only open.
structure Unfilled (cfg : ScullConfig) (opened : Bool) (s : ScullState) : Prop where
  empty : Empty s
  quantum : s.quantum = if opened then cfg.scullQuantum else 0
  qset : s.qset = if opened then cfg.scullQset else 0

theorem int32_zero_iff (x : Int) : int32 x = 0 ↔ (2 ^ 32 : Int) ∣ x := by
  have divides := Int.dvd_iff_bmod_eq_zero (a := 2 ^ 32) (b := x)
  simpa [int32] using divides.symm

theorem itemsize_zero_iff (cfg : ScullConfig) (opened : Bool) (s : ScullState) (holds : Unfilled cfg opened s) :
    itemsizeOf s = 0 ↔ ¬ (opened = true ∧ ¬ (2 ^ 32 : Int) ∣ cfg.scullQuantum * cfg.scullQset) := by
  rw [itemsizeOf, int32_zero_iff, holds.quantum, holds.qset]
  cases opened <;> simp

theorem unfilled_open (cfg : ScullConfig) (opened : Bool) (s : ScullState) (flags : Nat)
    (holds : Unfilled cfg opened s) :
    ∃ reply t, ((ScullCall.opening flags).prog cfg).run s = .done reply t ∧
      Unfilled cfg (openedAfter opened (.opening flags)) t := by
  by_cases trims : writeOnly flags = true
  · refine ⟨⟨0, 0, []⟩, _, by simp only [ScullCall.prog, scullOpen, if_pos trims, Prog.run_bind,
      run_trim_empty cfg s holds.empty.data, outcome_bind_done, Prog.run_pure]; rfl, ?_⟩
    simp only [openedAfter, ScullCall.trims, trims, Bool.or_true]
    exact ⟨⟨rfl, rfl, holds.empty.idle⟩, rfl, rfl⟩
  · refine ⟨⟨0, 0, []⟩, s, by simp [ScullCall.prog, scullOpen, trims], ?_⟩
    simpa [openedAfter, ScullCall.trims, trims] using holds

theorem prepared_call (cfg : ScullConfig) (opened : Bool) (s : ScullState) (call : ScullCall)
    (holds : Unfilled cfg opened s) (prepared : Prepared cfg opened call) :
    ∃ reply t, (call.prog cfg).run s = .done reply t ∧ Unfilled cfg (openedAfter opened call) t := by
  have kept : ∀ call : ScullCall, call.trims = false → Unfilled cfg (openedAfter opened call) s := by
    intro call quiet
    simpa [openedAfter, quiet] using holds
  cases call with
  | opening flags => exact unfilled_open cfg opened s flags holds
  | release => exact ⟨⟨0, 0, []⟩, s, rfl, kept _ rfl⟩
  | write call =>
      cases waits : call.interrupted with
      | true => exact ⟨⟨-erestartsys, call.fPos, []⟩, s, by simp [ScullCall.prog, scullWrite, sampled, locked, waits], kept _ rfl⟩
      | false =>
          have nonzero := (itemsize_zero_iff cfg opened s holds).not_left.mpr (prepared waits)
          refine ⟨_, s, (run_write_empty cfg call s holds.empty waits).trans (if_neg nonzero), kept _ rfl⟩
  | read call =>
      cases waits : call.interrupted with
      | true => exact ⟨⟨-erestartsys, call.fPos, []⟩, s, by simp [ScullCall.prog, scullRead, sampled, locked, waits], kept _ rfl⟩
      | false =>
          refine ⟨_, s, (run_read_empty cfg call s holds.empty waits).trans (if_neg ?_), kept _ rfl⟩
          intro both
          exact (itemsize_zero_iff cfg opened s holds).not_left.mpr (prepared ⟨waits, both.1⟩) both.2

theorem unprepared_call (cfg : ScullConfig) (opened : Bool) (s : ScullState) (call : ScullCall)
    (holds : Unfilled cfg opened s) (unprepared : ¬ Prepared cfg opened call) :
    ∃ t, (call.prog cfg).run s = .crashed .divideByZero t := by
  simp only [Prepared, Classical.not_imp] at unprepared
  obtain ⟨reaches, faulty⟩ := unprepared
  have zero := (itemsize_zero_iff cfg opened s holds).mpr faulty
  cases call with
  | opening flags => exact reaches.elim
  | release => exact reaches.elim
  | write call => exact ⟨_, (run_write_empty cfg call s holds.empty reaches).trans (if_pos zero)⟩
  | read call => exact ⟨_, (run_read_empty cfg call s holds.empty reaches.1).trans (if_pos ⟨reaches.2, zero⟩)⟩

theorem divisions_of_run (cfg : ScullConfig) (calls : List ScullCall) (opened : Bool) (s : ScullState)
    (holds : Unfilled cfg opened s) :
    (∀ t, (Prog.series (ScullCall.prog cfg) calls).run s ≠ .crashed .divideByZero t) ↔
      Follows openedAfter (Prepared cfg) opened calls := by
  induction calls generalizing opened s with
  | nil => simp [Follows]
  | cons call rest ih =>
      by_cases prepared : Prepared cfg opened call
      · obtain ⟨reply, t, ran, holds'⟩ := prepared_call cfg opened s call holds prepared
        rw [Prog.run_series_cons, ran, outcome_bind_done, Follows, and_iff_right prepared, ← ih _ t holds']
        cases (Prog.series (ScullCall.prog cfg) rest).run t <;> simp [Outcome.bind]
      · obtain ⟨t, crashed⟩ := unprepared_call cfg opened s call holds prepared
        simp [crashed, Follows, prepared]

theorem loaded_unfilled (cfg : ScullConfig) : Unfilled cfg false scullLoaded := ⟨loaded_empty, rfl, rfl⟩

theorem never_divides_by_zero_iff (cfg : ScullConfig) (calls : List ScullCall) :
    (∀ t, (Prog.series (ScullCall.prog cfg) calls).run scullLoaded ≠ .crashed .divideByZero t) ↔
      Follows openedAfter (Prepared cfg) false calls :=
  divisions_of_run cfg calls false scullLoaded (loaded_unfilled cfg)

-- An O_RDWR open does not trim: the geometry is still that of the zeroed dev.
theorem first_write_divides_by_zero :
    ∃ t, (Prog.series (ScullCall.prog ⟨.ilp32, 1000, 1000⟩) [.opening 2, .write (oneByte 0)]).run scullLoaded =
      .crashed .divideByZero t := ⟨_, rfl⟩

end OneDriver.Scull
