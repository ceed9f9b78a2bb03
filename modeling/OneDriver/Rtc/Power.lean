import OneDriver.Rtc.Wake

set_option autoImplicit false

namespace OneDriver.Rtc

-- What every probe and resume owes the register it finds.
def repaired (found : BitVec 8) : BitVec 8 := (found ||| Rtccon.rtcen) &&& ~~~Rtccon.cntsel &&& ~~~Rtccon.clkrst

def fixed (wrong : BitVec 8 → Bool) (change : BitVec 8 → BitVec 8) (found : BitVec 8) : BitVec 8 :=
  if wrong found then change found else found

def reenabled (found : BitVec 8) : BitVec 8 :=
  fixed (fun tmp => tmp &&& Rtccon.clkrst ≠ 0) (· &&& ~~~Rtccon.clkrst)
    (fixed (fun tmp => tmp &&& Rtccon.cntsel ≠ 0) (· &&& ~~~rtcconOffset)
      (fixed (fun tmp => tmp &&& Rtccon.rtcen = 0) (· ||| Rtccon.rtcen) found))

theorem run_rtc_reenable (s : RtcState) :
    (rtcEnable 1).run s = .done () (s.write .rtccon (reenabled (s.regs .rtccon))) := by
  simp only [rtcEnable, if_neg (by decide : ¬ (1 : Int) = 0), Prog.run_bind, run_fix_rtccon, outcome_bind_done,
    write_regs_same, write_write]
  rfl

theorem run_rtc_disable (s : RtcState) :
    (rtcEnable 0).run s = .done ()
      ((s.write .rtccon (s.regs .rtccon &&& ~~~Rtccon.rtcen)).write .ticnt (s.regs .ticnt &&& ~~~Ticnt.enable)) := by
  simp [rtcEnable]

theorem fixed_keeps (wrong : BitVec 8 → Bool) (change : BitVec 8 → BitVec 8) (found mask : BitVec 8)
    (keeps : change found &&& mask = found &&& mask) : fixed wrong change found &&& mask = found &&& mask := by
  unfold fixed
  split
  · exact keeps
  · rfl

-- Clearing what is clear already changes nothing, so the test does not matter.
theorem fixed_clear (bit found : BitVec 8) :
    fixed (fun tmp => tmp &&& bit ≠ 0) (· &&& ~~~bit) found = found &&& ~~~bit := by
  by_cases clear : found &&& bit = 0#8
  · have split : found &&& bit ||| found &&& ~~~bit = found := by
      rw [← BitVec.and_or_distrib_left, BitVec.or_not_self, BitVec.and_allOnes]
    rw [clear, BitVec.zero_or] at split
    simp [fixed, clear, split]
  · simp [fixed, clear]

theorem fixed_rtcen (found : BitVec 8) :
    fixed (fun tmp => tmp &&& Rtccon.rtcen = 0) (· ||| Rtccon.rtcen) found = found ||| Rtccon.rtcen := by
  have one : Rtccon.rtcen = BitVec.twoPow 8 0 := rfl
  by_cases set : found.getLsbD 0 = true
  · have whole : found &&& Rtccon.rtcen = Rtccon.rtcen := by rw [one, BitVec.and_twoPow, if_pos set]
    have nonzero : Rtccon.rtcen ≠ 0#8 := by decide
    have same : found ||| Rtccon.rtcen = found := by
      rw [← whole]
      ext i bound
      cases bit : found[i] <;> simp [bit]
    simp [fixed, whole, nonzero, same]
  · have clear : found &&& Rtccon.rtcen = 0#8 := by rw [one, BitVec.and_twoPow, if_neg set]
    simp [fixed, clear]

theorem reenabled_of_clear (found : BitVec 8) (clear : found &&& Rtccon.cntsel = 0#8) :
    reenabled found = repaired found := by
  have still : (found ||| Rtccon.rtcen) &&& Rtccon.cntsel = 0#8 := by
    rw [BitVec.and_or_distrib_right, clear]
    rfl
  have skipped := fixed_clear Rtccon.cntsel (found ||| Rtccon.rtcen)
  simp only [fixed, still] at skipped
  rw [reenabled, fixed_clear, fixed_rtcen, repaired, ← skipped]
  simp [fixed, still]

theorem clear_keeps_cntsel (wrong : BitVec 8 → Bool) (mask found : BitVec 8)
    (apart : ~~~mask &&& Rtccon.cntsel = Rtccon.cntsel) :
    fixed wrong (· &&& ~~~mask) found &&& Rtccon.cntsel = found &&& Rtccon.cntsel := by
  apply fixed_keeps
  rw [BitVec.and_assoc, apart]

-- The stage that means to clear CNTSEL clears bit 6.
theorem reenabled_keeps_cntsel (found : BitVec 8) : reenabled found &&& Rtccon.cntsel = found &&& Rtccon.cntsel := by
  rw [reenabled, clear_keeps_cntsel _ _ _ (by decide), clear_keeps_cntsel _ _ _ (by decide), fixed_rtcen,
    BitVec.and_or_distrib_right]
  exact BitVec.or_zero

theorem reenabled_repairs_iff (found : BitVec 8) : reenabled found = repaired found ↔ found &&& Rtccon.cntsel = 0#8 := by
  constructor
  · intro same
    have apart : ~~~Rtccon.cntsel &&& ~~~Rtccon.clkrst &&& Rtccon.cntsel = 0#8 := by decide
    rw [← reenabled_keeps_cntsel, same, repaired, BitVec.and_assoc, BitVec.and_assoc, ← BitVec.and_assoc (~~~Rtccon.cntsel),
      apart, BitVec.and_zero]
  · exact reenabled_of_clear found

-- What may happen between the calls of the driver: a probe over any content of
-- RTCCON, and a suspend during which the firmware leaves any content in it.
inductive PowerEvent where
  | probe (found : BitVec 8) (registered : Int)
  | sleep (found : BitVec 8)
deriving DecidableEq, Repr

def PowerEvent.found : PowerEvent → BitVec 8
  | .probe found _ => found
  | .sleep found => found

-- The registers a suspend may not lose: TICNT and those of the alarm.
def savedRegs : List RtcReg := [.ticnt, .rtcalm, .almsec, .almmin, .almhour, .almdate, .almmon, .almyear]

def PowerLaw (abi : Abi) : RtcState → List PowerEvent → Prop
  | _, [] => True
  | s, .probe found registered :: rest => ∃ on r t, (rtcEnable 1).run (s.write .rtccon found) = .done () on ∧
      on.regs .rtccon = repaired found ∧ (rtcProbe abi registered).run (s.write .rtccon found) = .done r t ∧
      PowerLaw abi t rest
  | s, .sleep found :: rest => ∃ off t, rtcSuspend.run s = .done 0 off ∧
      rtcResume.run (off.write .rtccon found) = .done 0 t ∧ t.regs .rtccon = repaired found ∧
      (∀ reg ∈ savedRegs, t.regs reg = s.regs reg) ∧ PowerLaw abi t rest

theorem run_probe_event (abi : Abi) (registered : Int) (s : RtcState) :
    ∃ r t, (rtcProbe abi registered).run s = .done r t := by
  have one : accepted abi 1 := ⟨0, by cases abi <;> decide⟩
  simp only [rtcProbe, Prog.run_bind, run_rtc_reenable, outcome_bind_done, run_rtc_setfreq, if_pos one, unwindProbe]
  by_cases failed : registered ≠ 0
  · simp only [if_pos failed, Prog.run_bind, run_rtc_disable, outcome_bind_done, Prog.run_pure]
    exact ⟨_, _, rfl⟩
  · simp only [if_neg failed, Prog.run_pure]
    exact ⟨_, _, rfl⟩

theorem run_rtc_suspend (s : RtcState) :
    ∃ off, rtcSuspend.run s = .done 0 off ∧ off.ticntSave = s.regs .ticnt ∧
      ∀ reg, reg ≠ .rtccon → reg ≠ .ticnt → off.regs reg = s.regs reg := by
  refine ⟨_, by simp only [rtcSuspend, Prog.run_bind, run_readb, Prog.run_modify, run_rtc_disable, outcome_bind_done,
    Prog.run_pure]; rfl, by simp, ?_⟩
  intro reg control tick
  simp [control, tick]

theorem run_rtc_resume (s : RtcState) :
    rtcResume.run s = .done 0 ((s.write .rtccon (reenabled (s.regs .rtccon))).write .ticnt s.ticntSave) := by
  simp [rtcResume, run_rtc_reenable]

theorem run_sleep_event (found : BitVec 8) (s : RtcState) :
    ∃ off t, rtcSuspend.run s = .done 0 off ∧ rtcResume.run (off.write .rtccon found) = .done 0 t ∧
      t.regs .rtccon = reenabled found ∧ ∀ reg ∈ savedRegs, t.regs reg = s.regs reg := by
  obtain ⟨off, ran, saved, kept⟩ := run_rtc_suspend s
  refine ⟨off, _, ran, run_rtc_resume _, by simp, fun reg member => ?_⟩
  by_cases tick : reg = .ticnt
  · simp [tick, saved]
  · have control : reg ≠ .rtccon := by
      rintro rfl
      exact absurd member (by decide)
    simp [tick, control, kept]

-- Whatever the event, the run goes on from one state.
theorem power_law_step (abi : Abi) (s : RtcState) (event : PowerEvent) (rest : List PowerEvent) :
    ∃ t, PowerLaw abi s (event :: rest) ↔ event.found &&& Rtccon.cntsel = 0#8 ∧ PowerLaw abi t rest := by
  cases event with
  | probe found registered =>
      obtain ⟨r, t, probed⟩ := run_probe_event abi registered (s.write .rtccon found)
      have on := run_rtc_reenable (s.write .rtccon found)
      rw [write_regs_same, write_write] at on
      refine ⟨t, ?_⟩
      constructor
      · intro law
        obtain ⟨u, _, _, again, right, probed', later⟩ := law
        obtain ⟨-, rfl⟩ := Prog.run_unique probed probed'
        rw [← (Prog.run_unique on again).2, write_regs_same] at right
        exact ⟨(reenabled_repairs_iff found).mp right, later⟩
      · intro clear
        refine ⟨_, r, t, on, ?_, probed, clear.2⟩
        rw [write_regs_same, reenabled_of_clear found clear.1]
  | sleep found =>
      obtain ⟨off, t, suspended, resumed, control, kept⟩ := run_sleep_event found s
      refine ⟨t, ?_⟩
      constructor
      · intro law
        obtain ⟨off', t', suspended', resumed', right, -, later⟩ := law
        obtain ⟨-, rfl⟩ := Prog.run_unique suspended suspended'
        obtain ⟨-, rfl⟩ := Prog.run_unique resumed resumed'
        exact ⟨(reenabled_repairs_iff found).mp (control.symm.trans right), later⟩
      · intro clear
        exact ⟨off, t, suspended, resumed, control.trans (reenabled_of_clear found clear.1), kept, clear.2⟩

theorem power_law_iff (abi : Abi) (events : List PowerEvent) (s : RtcState) :
    PowerLaw abi s events ↔ ∀ event ∈ events, event.found &&& Rtccon.cntsel = 0#8 := by
  induction events generalizing s with
  | nil => simp [PowerLaw]
  | cons event rest ih =>
      obtain ⟨t, step⟩ := power_law_step abi s event rest
      rw [step, ih t, List.forall_mem_cons]

-- The firmware comes back with CNTSEL set and the resume leaves it so.
theorem cntsel_survives_resume : ¬ PowerLaw .ilp32 blankRtc [.probe 0 0, .sleep 5] := by
  intro law
  obtain ⟨-, r, t, -, -, -, off, u, suspended, resumed, right, -⟩ := law
  rw [← (Prog.run_unique (run_rtc_resume _) resumed).2] at right
  simp only [write_regs_same, write_regs_other _ _ _ _ (by decide : RtcReg.rtccon ≠ .ticnt)] at right
  exact absurd right (by decide)

end OneDriver.Rtc
