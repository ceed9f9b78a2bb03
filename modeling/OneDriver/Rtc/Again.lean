import OneDriver.Rtc.Clock

set_option autoImplicit false

namespace OneDriver.Rtc

-- rtc_settime called in a row on one struct, with what each call returns and
-- leaves in it. The fields are exact integers: an int would wrap only after some
-- twenty million calls.
def settimes : Nat → RtcTime → RtcProg (List (Int × RtcTime))
  | 0, _ => pure []
  | n + 1, tm => do
      let call ← rtcSettime tm
      let later ← settimes n call.2
      pure (call :: later)

-- Calls that find the struct as the caller stored it, every one, and together do
-- to the registers what the first one did.
def KeepsArgument (tm : RtcTime) (s : RtcState) : Prop :=
  ∀ n, 1 ≤ n → ∃ r kept once calls t, (rtcSettime tm).run s = .done (r, kept) once ∧
    (settimes n tm).run s = .done calls t ∧ t.regs = once.regs ∧ ∀ call ∈ calls, call = (r, tm)

def RtcTime.shifted (tm : RtcTime) (calls : Nat) : RtcTime :=
  { tm with tmMon := tm.tmMon + calls, tmYear := tm.tmYear - 100 * calls }

theorem shifted_shifted (tm : RtcTime) (k : Nat) : (tm.shifted 1).shifted k = tm.shifted (k + 1) := by
  simp only [RtcTime.shifted, RtcTime.mk.injEq, true_and]
  omega

theorem shifted_ne (tm : RtcTime) (k : Nat) (called : 0 < k) : tm.shifted k ≠ tm := by
  intro same
  have mon := congrArg RtcTime.tmMon same
  simp only [RtcTime.shifted] at mon
  omega

theorem run_settime_shifts (tm : RtcTime) (s : RtcState) :
    ∃ r t, (rtcSettime tm).run s = .done (r, tm.shifted 1) t ∧ (tm.inCentury → r = 0 ∧ t = storedTime tm s) ∧
      (¬ tm.inCentury → r = -einval ∧ t = s) := by
  by_cases year : tm.inCentury
  · have accepted : ¬ (tm.tmYear - 100 < 0 ∨ tm.tmYear - 100 ≥ 100) := by
      unfold RtcTime.inCentury at year
      omega
    refine ⟨0, storedTime tm s, ?_, fun _ => ⟨rfl, rfl⟩, fun other => absurd year other⟩
    simp only [rtcSettime, if_neg accepted, Prog.run_bind, run_writeb, outcome_bind_done, Prog.run_pure]
    rfl
  · have refused : tm.tmYear - 100 < 0 ∨ tm.tmYear - 100 ≥ 100 := by
      unfold RtcTime.inCentury at year
      omega
    refine ⟨-einval, s, ?_, fun other => absurd other year, fun _ => ⟨rfl, rfl⟩⟩
    simp only [rtcSettime, if_pos refused, Prog.run_pure]
    rfl

-- Each call moves the struct on by a century and a month, whether it sets the
-- clock or not, and answers for the struct it finds.
theorem run_settimes (n : Nat) (tm : RtcTime) (s : RtcState) :
    ∃ calls t, (settimes n tm).run s = .done calls t ∧ calls.length = n ∧
      ∀ k call, calls[k]? = some call → call.2 = tm.shifted (k + 1) ∧ (call.1 = 0 ↔ (tm.shifted k).inCentury) := by
  induction n generalizing tm s with
  | zero => exact ⟨[], s, rfl, rfl, fun k call found => by simp at found⟩
  | succ n ih =>
      obtain ⟨r, u, first, accepted, refused⟩ := run_settime_shifts tm s
      obtain ⟨later, t, ran, counted, rest⟩ := ih (tm.shifted 1) u
      refine ⟨(r, tm.shifted 1) :: later, t, ?_, by simp [counted], ?_⟩
      · simp only [settimes, Prog.run_bind, first, outcome_bind_done, ran, Prog.run_pure]
      · intro k call found
        cases k with
        | zero =>
            obtain rfl : (r, tm.shifted 1) = call := by simpa using found
            have here : tm.shifted 0 = tm := by simp [RtcTime.shifted]
            refine ⟨rfl, ?_⟩
            rw [here]
            constructor
            · intro zero
              by_contra outside
              have failed : r = -einval := (refused outside).1
              have succeeded : r = 0 := zero
              rw [succeeded] at failed
              exact absurd failed (by decide)
            · exact fun year => (accepted year).1
        | succ k =>
            obtain ⟨struct, result⟩ := rest k call (by simpa using found)
            rw [shifted_shifted] at struct result
            exact ⟨struct, result⟩

-- So one call of the run at most sets the clock, and not always the first.
theorem accepted_once (n : Nat) (tm : RtcTime) (s : RtcState) :
    ∃ calls t, (settimes n tm).run s = .done calls t ∧
      ∀ (k : Nat) call, calls[k]? = some call → call.1 = 0 → (k : Int) + 1 = tm.tmYear / 100 := by
  obtain ⟨calls, t, ran, -, each⟩ := run_settimes n tm s
  refine ⟨calls, t, ran, fun k call found zero => ?_⟩
  have year := (each k call found).2.mp zero
  simp only [RtcTime.inCentury, RtcTime.shifted] at year
  omega

theorem not_keeps_argument (tm : RtcTime) (s : RtcState) : ¬ KeepsArgument tm s := by
  intro keeps
  obtain ⟨r, kept, once, calls, t, -, ran, -, same⟩ := keeps 1 (Nat.le_refl 1)
  obtain ⟨calls', t', ran', counted, each⟩ := run_settimes 1 tm s
  obtain ⟨rfl, rfl⟩ := Prog.run_unique ran ran'
  have called : 0 < calls.length := by omega
  have found : calls[0]? = some calls[0] := List.getElem?_eq_getElem called
  have struct := (each 0 _ found).1
  rw [same _ (List.mem_of_getElem? found)] at struct
  exact shifted_ne tm 1 (by decide) struct.symm

theorem settime_consumes_its_argument (tm : RtcTime) (s : RtcState) :
    ¬ KeepsArgument tm s ∧ ∀ n, ∃ calls t, (settimes n tm).run s = .done calls t ∧ calls.length = n ∧
      ∀ call ∈ calls, call.2 ≠ tm := by
  refine ⟨not_keeps_argument tm s, fun n => ?_⟩
  obtain ⟨calls, t, ran, counted, each⟩ := run_settimes n tm s
  refine ⟨calls, t, ran, counted, fun call member => ?_⟩
  obtain ⟨k, found⟩ := List.mem_iff_getElem?.mp member
  rw [(each k call found).1]
  exact shifted_ne tm (k + 1) (Nat.succ_pos k)

-- 2150 is refused, and what the refusal leaves is taken for 2050.
theorem refused_year_is_set_by_the_retry :
    ∃ tm' tm'' t, (rtcSettime ⟨0, 0, 0, 1, 0, 250⟩).run blankRtc = .done (-einval, tm') blankRtc ∧
      (rtcSettime tm').run blankRtc = .done (0, tm'') t ∧ t.regs .rtcyear = 0x50 ∧ tm'' = ⟨0, 0, 0, 1, 2, 50⟩ ∧
      ¬ KeepsArgument ⟨0, 0, 0, 1, 0, 250⟩ blankRtc :=
  ⟨⟨0, 0, 0, 1, 1, 150⟩, _, _, rfl, rfl, by decide, rfl, not_keeps_argument _ _⟩

end OneDriver.Rtc
