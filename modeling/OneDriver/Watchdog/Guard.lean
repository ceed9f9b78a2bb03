import OneDriver.Refinement
import OneDriver.Watchdog.Count

set_option autoImplicit false

namespace OneDriver.Watchdog

-- What the watchdog is for: a machine that is not fed for `period` ticks is reset.
-- `left` is what remains of them while the watchdog runs.
structure Guard where
  period : Nat
  left : Option Nat
  session : Bool
  magic : Bool
deriving DecidableEq, Repr

def Guard.feed (g : Guard) : Guard := { g with left := g.left.map fun _ => g.period }

def Guard.wrote (cfg : WdtConfig) (g : Guard) (data : List (Option UInt8)) : Guard :=
  if cfg.nowayout = 0 then
    let g := { g with magic := (data.takeWhile Option.isSome).contains (some 'V'.toUInt8) }
    if data.contains none then g else g.feed
  else g.feed

def acceptedCount (cfg : WdtConfig) (p : UserInt) : Option Nat := if p.readable then heartbeat cfg p.value else none

def Guard.next (cfg : WdtConfig) (g : Guard) : WdtCall → Guard
  | .opening => if g.session then g else { g with session := true, magic := false, left := some g.period }
  | .write data => if data = [] then g else g.wrote cfg data
  | .ioctl .keepalive _ => g.feed
  | .ioctl .settimeout p => match acceptedCount cfg p with
      | some count => { g with period := count }.feed
      | none => g
  | .ioctl _ _ => g
  | .irq => g.feed
  | .release => { (if g.magic then { g with left := none } else g.feed) with magic := false, session := false }

-- `none` is a machine that was reset; with soft_noboot it is only told.
def Guard.tick (cfg : WdtConfig) (g : Guard) : Option Guard :=
  match g.left with
  | none => some g
  | some n => if 1 < n then some { g with left := some (n - 1) } else if cfg.softNoboot = 0 then none else some g.feed

inductive MachineEvent where
  | call (c : WdtCall)
  | tick
deriving DecidableEq, Repr

def guardStep (cfg : WdtConfig) (g : Guard) : MachineEvent → Option Guard
  | .call c => some (g.next cfg c)
  | .tick => g.tick cfg

instance (cfg : WdtConfig) (s : WdtState) : Decidable (enabled cfg s) := inferInstanceAs (Decidable (_ = true))

-- The timer of the chip at zero: a reset, or its interrupt, as WTCON says. It goes on from WTDAT.
def timerExpires (cfg : WdtConfig) (s : WdtState) : Option WdtState :=
  if (s.regs .wtcon).getLsbD cfg.layout.rsten then none
  else
    let s := s.write .wtcnt (s.regs .wtdat)
    some (if (s.regs .wtcon).getLsbD cfg.layout.inten then (watchdogIrq.run s).state else s)

def timerTick (cfg : WdtConfig) (s : WdtState) : Option WdtState :=
  if enabled cfg s then
    if 1 < (s.regs .wtcnt).toNat then some (s.write .wtcnt (s.regs .wtcnt - 1)) else timerExpires cfg s
  else some s

def machineStep (cfg : WdtConfig) (s : WdtState) : MachineEvent → Option WdtState
  | .call c => some ((c.prog cfg).run s).state
  | .tick => timerTick cfg s

def guardOf (cfg : WdtConfig) (s : WdtState) : Guard where
  period := s.wdtCount
  left := if enabled cfg s then some (s.regs .wtcnt).toNat else none
  session := s.openLock
  magic := s.expectClose == 42

-- A timer that runs does so as watchdog_start set it, on a count it was given.
structure Wired (cfg : WdtConfig) (s : WdtState) : Prop where
  counts : 0 < s.wdtCount
  fits : s.wdtCount < 0x10000
  control : enabled cfg s → (s.regs .wtcon).getLsbD cfg.layout.rsten = decide (cfg.softNoboot = 0) ∧
    (s.regs .wtcon).getLsbD cfg.layout.inten = decide (cfg.softNoboot ≠ 0)
  left : enabled cfg s → 0 < (s.regs .wtcnt).toNat ∧ (s.regs .wtcnt).toNat ≤ s.wdtCount

theorem count_to_nat (count : Nat) (fits : count < 0x10000) : (BitVec.ofNat 32 count).toNat = count := by
  rw [BitVec.toNat_ofNat]
  exact Nat.mod_eq_of_lt (Nat.lt_trans fits (by decide))

def WdtState.fed (s : WdtState) : WdtState := s.write .wtcnt (BitVec.ofNat 32 s.wdtCount)

section Calls

variable (cfg : WdtConfig) (s : WdtState)

theorem fed_feeds (fits : s.wdtCount < 0x10000) : guardOf cfg s.fed = (guardOf cfg s).feed := by
  by_cases on : enabled cfg s
  · simp [guardOf, WdtState.fed, Guard.feed, on, enabled_keepalive, count_to_nat _ fits]
  · simp [guardOf, WdtState.fed, Guard.feed, on, enabled_keepalive]

theorem fed_wired (counts : 0 < s.wdtCount) (fits : s.wdtCount < 0x10000)
    (control : enabled cfg s → (s.regs .wtcon).getLsbD cfg.layout.rsten = decide (cfg.softNoboot = 0) ∧
      (s.regs .wtcon).getLsbD cfg.layout.inten = decide (cfg.softNoboot ≠ 0)) : Wired cfg s.fed where
  counts := counts
  fits := fits
  control := fun on => by simpa [WdtState.fed] using control ((enabled_keepalive cfg s _).mp on)
  left := fun _ => by simp [WdtState.fed, count_to_nat _ fits, counts]

-- What does not touch the timer.
theorem wired_frame (t : WdtState) (wired : Wired cfg s) (count : t.wdtCount = s.wdtCount) (regs : t.regs = s.regs) :
    Wired cfg t := by
  obtain ⟨counts, fits, control, left⟩ := wired
  rw [enabled] at control left
  refine ⟨count ▸ counts, count ▸ fits, ?_, ?_⟩
  · rw [enabled, regs]
    exact control
  · rw [enabled, regs, count]
    exact left

def stoppedTimer : WdtState := s.write .wtcon (s.regs .wtcon &&& ~~~(enableBit cfg ||| rstenBit cfg))

theorem stopped_timer_off : ¬ enabled cfg (stoppedTimer cfg s) := by
  rw [enabled, stoppedTimer, write_regs_same, stop_disables]
  exact Bool.false_ne_true

theorem stopped_timer_wired (counts : 0 < s.wdtCount) (fits : s.wdtCount < 0x10000) : Wired cfg (stoppedTimer cfg s) where
  counts := counts
  fits := fits
  control := fun on => (stopped_timer_off cfg s on).elim
  left := fun on => (stopped_timer_off cfg s on).elim

def startedTimer : WdtState :=
  (((stoppedTimer cfg s).write .wtdat (BitVec.ofNat 32 s.wdtCount)).fed).write .wtcon
    (startControl cfg ((stoppedTimer cfg s).regs .wtcon))

theorem run_start : (watchdogStart cfg).run s = .done () (startedTimer cfg s) := by
  simp [watchdogStart, watchdogStopLocked, startedTimer, stoppedTimer, WdtState.fed]

theorem start_control_bits (wtcon : BitVec 32) :
    (startControl cfg wtcon).getLsbD cfg.layout.rsten = decide (cfg.softNoboot = 0) ∧
      (startControl cfg wtcon).getLsbD cfg.layout.inten = decide (cfg.softNoboot ≠ 0) := by
  have reset := cfg.layout.rstenLow
  have tells := cfg.layout.intenLow
  have apart := cfg.layout.intenRsten
  by_cases soft : cfg.softNoboot = 0
  · simp [startControl, soft, rstenBit, intenBit, BitVec.getLsbD_twoPow, apart.symm, show cfg.layout.rsten < 32 by omega]
  · simp [startControl, soft, rstenBit, intenBit, apart, show cfg.layout.inten < 32 by omega,
      show cfg.layout.rsten < 32 by omega]

theorem started_timer_guard (fits : s.wdtCount < 0x10000) :
    guardOf cfg (startedTimer cfg s) = { guardOf cfg s with left := some s.wdtCount } := by
  have on : enabled cfg (startedTimer cfg s) := by
    rw [enabled, startedTimer, write_regs_same]
    exact start_control_enabled cfg _
  simp [guardOf, on]
  simp [startedTimer, WdtState.fed, stoppedTimer, count_to_nat _ fits]

theorem started_timer_wired (counts : 0 < s.wdtCount) (fits : s.wdtCount < 0x10000) : Wired cfg (startedTimer cfg s) where
  counts := counts
  fits := fits
  control := fun _ => by
    rw [startedTimer, write_regs_same]
    exact start_control_bits cfg _
  left := fun _ => by simp [startedTimer, WdtState.fed, stoppedTimer, count_to_nat _ fits, counts]

theorem run_heartbeat_none (timeout : Int) (refused : heartbeat cfg timeout = none) :
    (watchdogSetHeartbeat cfg timeout).run s = .done (-einval) s := by
  apply run_heartbeat_refused
  by_cases low : timeout < 1
  · exact .inl low
  · simpa [heartbeat, low] using refused

theorem run_heartbeat_some (timeout : Int) (count : Nat) (accepted : heartbeat cfg timeout = some count) :
    ∃ divisor, (watchdogSetHeartbeat cfg timeout).run s = .done 0 (programmed timeout (ticks cfg timeout) divisor s) ∧
      ticks cfg timeout / divisor = count := by
  by_cases low : timeout < 1
  · simp [heartbeat, low] at accepted
  · simp only [heartbeat, if_neg low, Option.map_eq_some_iff] at accepted
    obtain ⟨divisor, found, quotient⟩ := accepted
    exact ⟨divisor, run_heartbeat_accepted cfg timeout divisor s (by omega) found, quotient⟩

variable (wired : Wired cfg s)

include wired

theorem opening_guarded : ∃ t, (WdtCall.opening.prog cfg).run s = .done () t ∧
    guardOf cfg t = (guardOf cfg s).next cfg .opening ∧ Wired cfg t := by
  by_cases busy : s.openLock = true
  · have same : { s with openLock := true } = s := by rw [← busy]
    have ran : (WdtCall.opening.prog cfg).run s = .done () s := by simp [WdtCall.prog, watchdogOpen, busy, same]
    exact ⟨s, ran, by simp [Guard.next, guardOf, busy], wired⟩
  · have taken := wired_frame cfg s { s with openLock := true, expectClose := 0 } wired rfl rfl
    have ran : (WdtCall.opening.prog cfg).run s =
        .done () (startedTimer cfg { s with openLock := true, expectClose := 0 }) := by
      simp [WdtCall.prog, watchdogOpen, busy, run_start]
    refine ⟨_, ran, ?_, started_timer_wired cfg _ taken.counts taken.fits⟩
    rw [started_timer_guard cfg _ taken.fits]
    simp [Guard.next, guardOf, busy]

theorem fed_guarded : guardOf cfg s.fed = (guardOf cfg s).feed ∧ Wired cfg s.fed :=
  ⟨fed_feeds cfg s wired.fits, fed_wired cfg s wired.counts wired.fits wired.control⟩

theorem write_guarded (data : List (Option UInt8)) : ∃ t, ((WdtCall.write data).prog cfg).run s = .done () t ∧
    guardOf cfg t = (guardOf cfg s).next cfg (.write data) ∧ Wired cfg t := by
  by_cases empty : data = []
  · exact ⟨s, by simp [WdtCall.prog, watchdogWrite, empty], by simp [Guard.next, empty], wired⟩
  · by_cases way : cfg.nowayout = 0
    · let scanned : WdtState :=
        { s with expectClose := if some 'V'.toUInt8 ∈ data.takeWhile Option.isSome then 42 else 0 }
      have kept := wired_frame cfg s scanned wired rfl rfl
      have magic : (scanned.expectClose == 42) = (data.takeWhile Option.isSome).contains (some 'V'.toUInt8) := by
        by_cases magic : some 'V'.toUInt8 ∈ data.takeWhile Option.isSome
        · simp [scanned, magic]
        · simp [scanned, magic]
      have marked := congrArg (Guard.mk s.wdtCount (guardOf cfg s).left s.openLock) magic
      change guardOf cfg scanned = { guardOf cfg s with
        magic := (data.takeWhile Option.isSome).contains (some 'V'.toUInt8) } at marked
      by_cases missing : none ∈ data
      · have ran : ((WdtCall.write data).prog cfg).run s = .done () scanned := by
          simp [WdtCall.prog, watchdogWrite, empty, armMagic, way, run_scan_faulting, missing, scanned]
        exact ⟨scanned, ran, by simp [Guard.next, Guard.wrote, empty, way, missing, marked], kept⟩
      · have ran : ((WdtCall.write data).prog cfg).run s = .done () scanned.fed := by
          simp [WdtCall.prog, watchdogWrite, empty, armMagic, way, run_scan_faulting, missing, scanned, WdtState.fed]
        obtain ⟨fed, still⟩ := fed_guarded cfg scanned kept
        exact ⟨scanned.fed, ran, by simp [Guard.next, Guard.wrote, empty, way, missing, fed, marked], still⟩
    · have ran : ((WdtCall.write data).prog cfg).run s = .done () s.fed := by
        simp [WdtCall.prog, watchdogWrite, empty, armMagic, way, WdtState.fed]
      obtain ⟨fed, still⟩ := fed_guarded cfg s wired
      exact ⟨s.fed, ran, by simp [Guard.next, Guard.wrote, empty, way, fed], still⟩

theorem keepalive_guarded (p : UserInt) : ∃ t, ((WdtCall.ioctl .keepalive p).prog cfg).run s = .done () t ∧
    guardOf cfg t = (guardOf cfg s).next cfg (.ioctl .keepalive p) ∧ Wired cfg t :=
  ⟨s.fed, by simp [WdtCall.prog, watchdogIoctl, WdtState.fed], fed_guarded cfg s wired⟩

-- The new count is loaded before the timer can see that the old one was larger.
theorem settimeout_guarded (p : UserInt) (counts : acceptedCount cfg p ≠ some 0) :
    ∃ t, ((WdtCall.ioctl .settimeout p).prog cfg).run s = .done () t ∧
      guardOf cfg t = (guardOf cfg s).next cfg (.ioctl .settimeout p) ∧ Wired cfg t := by
  by_cases readable : p.readable = true
  · cases accepted : heartbeat cfg p.value with
    | none =>
        have ran := run_heartbeat_none cfg s p.value accepted
        refine ⟨s, ?_, by simp [Guard.next, acceptedCount, readable, accepted], wired⟩
        simp [WdtCall.prog, watchdogIoctl, readable, ran, einval]
    | some count =>
        obtain ⟨divisor, ran, quotient⟩ := run_heartbeat_some cfg s p.value count accepted
        have fits := (heartbeat_count cfg p.value count accepted).1
        have positive : 0 < count := by
          rw [acceptedCount, if_pos readable, accepted] at counts
          exact Nat.pos_of_ne_zero fun zero => counts (congrArg some zero)
        let set := programmed p.value (ticks cfg p.value) divisor s
        have bits : ∀ i < 8, (set.regs .wtcon).getLsbD i = (s.regs .wtcon).getLsbD i := by
          intro i low
          simp only [set, programmed, write_regs_same]
          exact prescaled_control_bit _ _ _ low
        have still : enabled cfg set ↔ enabled cfg s := by rw [enabled, enabled, bits _ cfg.layout.enableLow]
        have counted : set.wdtCount = count := quotient
        have control : enabled cfg set → (set.regs .wtcon).getLsbD cfg.layout.rsten = decide (cfg.softNoboot = 0) ∧
            (set.regs .wtcon).getLsbD cfg.layout.inten = decide (cfg.softNoboot ≠ 0) := by
          rw [bits _ cfg.layout.rstenLow, bits _ cfg.layout.intenLow]
          exact fun on => wired.control (still.mp on)
        refine ⟨set.fed, ?_, ?_, fed_wired cfg set (counted ▸ positive) (counted ▸ fits) control⟩
        · simp [WdtCall.prog, watchdogIoctl, readable, ran, WdtState.fed, set]
        · rw [fed_feeds cfg set (counted ▸ fits)]
          simp only [Guard.next, acceptedCount, if_pos readable, accepted]
          have left : (guardOf cfg set).left.map (fun _ => count) = (guardOf cfg s).left.map fun _ => count := by
            by_cases on : enabled cfg s
            · simp [guardOf, on, still.mpr on]
            · simp [guardOf, on, mt still.mp on]
          have period : (guardOf cfg set).period = count := counted
          rw [Guard.feed, period, left]
          rfl
  · refine ⟨s, ?_, by simp [Guard.next, acceptedCount, readable], wired⟩
    simp [WdtCall.prog, watchdogIoctl, readable]

theorem ioctl_guarded (cmd : WdtCmd) (p : UserInt) (counts : cmd = .settimeout → acceptedCount cfg p ≠ some 0) :
    ∃ t, ((WdtCall.ioctl cmd p).prog cfg).run s = .done () t ∧
      guardOf cfg t = (guardOf cfg s).next cfg (.ioctl cmd p) ∧ Wired cfg t := by
  cases cmd with
  | keepalive => exact keepalive_guarded cfg s wired p
  | settimeout => exact settimeout_guarded cfg s wired p (counts rfl)
  | getsupport => exact ⟨s, rfl, rfl, wired⟩
  | getstatus => exact ⟨s, rfl, rfl, wired⟩
  | getbootstatus => exact ⟨s, rfl, rfl, wired⟩
  | gettimeout => exact ⟨s, rfl, rfl, wired⟩
  | other code => exact ⟨s, rfl, rfl, wired⟩

theorem release_guarded : ∃ t, (WdtCall.release.prog cfg).run s = .done () t ∧
    guardOf cfg t = (guardOf cfg s).next cfg .release ∧ Wired cfg t := by
  by_cases armed : s.expectClose = 42
  · have ran : (WdtCall.release.prog cfg).run s =
        .done () { stoppedTimer cfg s with expectClose := 0, openLock := false } := by
      simp [WdtCall.prog, watchdogRelease, armed, clearOpenLock, stoppedTimer]
    have off := stopped_timer_off cfg s
    refine ⟨_, ran, ?_, wired_frame cfg _ _ (stopped_timer_wired cfg s wired.counts wired.fits) rfl rfl⟩
    rw [enabled] at off
    simp [guardOf, Guard.next, armed, enabled, off]
    rfl
  · have ran : (WdtCall.release.prog cfg).run s = .done () { s.fed with expectClose := 0, openLock := false } := by
      simp [WdtCall.prog, watchdogRelease, armed, clearOpenLock, WdtState.fed]
    obtain ⟨fed, still⟩ := fed_guarded cfg s wired
    refine ⟨_, ran, ?_, wired_frame cfg _ _ still rfl rfl⟩
    have unarmed : (guardOf cfg s).magic = false := by simp [guardOf, armed]
    rw [Guard.next, unarmed, ← fed]
    rfl

theorem call_guarded (c : WdtCall) (counts : ∀ p, c = .ioctl .settimeout p → acceptedCount cfg p ≠ some 0) :
    ∃ t, (c.prog cfg).run s = .done () t ∧ guardOf cfg t = (guardOf cfg s).next cfg c ∧ Wired cfg t := by
  cases c with
  | opening => exact opening_guarded cfg s wired
  | write data => exact write_guarded cfg s wired data
  | ioctl cmd p => exact ioctl_guarded cfg s wired cmd p fun set => counts p (by rw [set])
  | irq => exact ⟨s.fed, by simp [WdtCall.prog, watchdogIrq, WdtState.fed], fed_guarded cfg s wired⟩
  | release => exact release_guarded cfg s wired

theorem tick_guarded : (timerTick cfg s).map (guardOf cfg) = (guardOf cfg s).tick cfg ∧
    ∀ t, timerTick cfg s = some t → Wired cfg t := by
  by_cases on : enabled cfg s
  · obtain ⟨reset, tells⟩ := wired.control on
    have bounded := wired.left on
    have left : (guardOf cfg s).left = some (s.regs .wtcnt).toNat := if_pos on
    by_cases more : 1 < (s.regs .wtcnt).toNat
    · have one_less : (s.regs .wtcnt - 1).toNat = (s.regs .wtcnt).toNat - 1 :=
        BitVec.toNat_sub_of_le (by rw [BitVec.le_def]; exact Nat.le_of_lt more)
      let next := s.write .wtcnt (s.regs .wtcnt - 1)
      have still : enabled cfg next := (enabled_keepalive cfg s _).mpr on
      have moves : timerTick cfg s = some next := by simp [timerTick, on, more, next]
      have kept : Wired cfg next := by
        refine ⟨wired.counts, wired.fits, fun _ => ?_, fun _ => ?_⟩
        · simpa [next] using wired.control on
        · simp only [next, write_regs_same, one_less, write_wdt_count]
          omega
      have next_left : (guardOf cfg next).left = some ((s.regs .wtcnt).toNat - 1) := by
        simp only [guardOf, if_pos still, next, write_regs_same, one_less]
      rw [moves, Guard.tick, left]
      simp only [if_pos more, ← next_left]
      exact ⟨rfl, fun t same => Option.some.inj same ▸ kept⟩
    · by_cases soft : cfg.softNoboot = 0
      · have resets : timerTick cfg s = none := by simp [timerTick, on, more, timerExpires, reset, soft]
        rw [resets, Guard.tick, left]
        exact ⟨by simp [more, soft], fun t same => by cases same⟩
      · obtain ⟨fed, kept⟩ := fed_guarded cfg s wired
        have again : timerTick cfg s = some s.fed := by
          simp [timerTick, on, more, timerExpires, reset, tells, soft, watchdogIrq, Outcome.state, WdtState.fed,
            WdtState.write]
        rw [again, Guard.tick, left]
        exact ⟨by simp [more, soft, fed], fun t same => Option.some.inj same ▸ kept⟩
  · simp [timerTick, on, Guard.tick, guardOf, wired]

end Calls

-- A heartbeat that is accepted with no ticks at all would start the timer on nothing.
def MachineEvent.Counts (cfg : WdtConfig) (e : MachineEvent) : Prop :=
  ∀ p, e = .call (.ioctl .settimeout p) → acceptedCount cfg p ≠ some 0

theorem machine_simulates (cfg : WdtConfig) :
    Simulates (machineStep cfg) (guardStep cfg) (guardOf cfg) (Wired cfg) (MachineEvent.Counts cfg) := by
  intro s e wired counts
  cases e with
  | tick => exact tick_guarded cfg s wired
  | call c =>
      obtain ⟨t, ran, guarded, kept⟩ := call_guarded cfg s wired c fun p same => counts p (by rw [same])
      simp only [machineStep, ran, Outcome.state, guardStep]
      exact ⟨congrArg some guarded, fun u same => Option.some.inj same ▸ kept⟩

section Ticks

variable (cfg : WdtConfig)

-- Left alone, the machine is reset when what is left is used up, and not before.
theorem guard_ticks (resets : cfg.softNoboot = 0) (k n : Nat) (g : Guard) (left : g.left = some n) (some_left : 0 < n) :
    (List.replicate k MachineEvent.tick).foldlM (guardStep cfg) g =
      if k < n then some { g with left := some (n - k) } else none := by
  induction k generalizing n g with
  | zero =>
      rw [if_pos some_left, Nat.sub_zero, ← left]
      rfl
  | succ k ih =>
      rw [List.replicate_succ, List.foldlM_cons, guardStep, Guard.tick, left]
      by_cases more : 1 < n
      · have later := ih (n - 1) { g with left := some (n - 1) } rfl (by omega)
        have shift : k < n - 1 ↔ k + 1 < n := by omega
        simp only [if_pos more, Option.bind_eq_bind, Option.bind_some, later, shift, Nat.sub_sub, Nat.add_comm 1 k]
      · simp only [if_neg more, if_pos resets, if_neg (show ¬ k + 1 < n by omega)]
        rfl

theorem guard_idle (k : Nat) (g : Guard) (off : g.left = none) :
    (List.replicate k MachineEvent.tick).foldlM (guardStep cfg) g = some g := by
  induction k with
  | zero => rfl
  | succ k ih =>
      rw [List.replicate_succ, List.foldlM_cons, guardStep, Guard.tick, off]
      exact ih

theorem guard_told (told : cfg.softNoboot ≠ 0) (events : List MachineEvent) (g : Guard) :
    events.foldlM (guardStep cfg) g ≠ none := by
  induction events generalizing g with
  | nil => exact Option.some_ne_none g
  | cons e rest ih =>
      have goes : ∃ next, guardStep cfg g e = some next := by
        cases e with
        | call c => exact ⟨_, rfl⟩
        | tick =>
            unfold guardStep Guard.tick
            cases g.left with
            | none => exact ⟨_, rfl⟩
            | some n =>
                by_cases more : 1 < n
                · exact ⟨_, if_pos more⟩
                · exact ⟨_, (if_neg more).trans (if_neg told)⟩
      obtain ⟨next, moves⟩ := goes
      rw [List.foldlM_cons, moves]
      exact ih next

end Ticks

-- The calls by which a daemon feeds the watchdog.
inductive Feeds (cfg : WdtConfig) : WdtCall → Prop where
  | keepalive (p : UserInt) : Feeds cfg (.ioctl .keepalive p)
  | write (data : List (Option UInt8)) (bytes : data ≠ []) (readable : cfg.nowayout = 0 → none ∉ data) :
      Feeds cfg (.write data)

theorem feeds_guard (cfg : WdtConfig) (c : WdtCall) (feeds : Feeds cfg c) (g : Guard) :
    (g.next cfg c).period = g.period ∧ (g.next cfg c).left = g.left.map fun _ => g.period := by
  cases feeds with
  | keepalive p => exact ⟨rfl, rfl⟩
  | write data bytes readable =>
      by_cases way : cfg.nowayout = 0
      · simp [Guard.next, bytes, Guard.wrote, way, readable way, Guard.feed]
      · simp [Guard.next, bytes, Guard.wrote, way, Guard.feed]

-- Each round of the daemon: a call, and the ticks until the next one.
def rounds (daemon : List (WdtCall × Nat)) : List MachineEvent :=
  daemon.flatMap fun round => .call round.1 :: List.replicate round.2 .tick

theorem guard_rounds (cfg : WdtConfig) (resets : cfg.softNoboot = 0) (daemon : List (WdtCall × Nat)) (g : Guard)
    (counts : 0 < g.period) (intime : ∀ round ∈ daemon, Feeds cfg round.1 ∧ round.2 < g.period) :
    (rounds daemon).foldlM (guardStep cfg) g ≠ none := by
  induction daemon generalizing g with
  | nil => exact Option.some_ne_none g
  | cons round rest ih =>
      obtain ⟨feeds, soon⟩ := intime round List.mem_cons_self
      obtain ⟨period, left⟩ := feeds_guard cfg round.1 feeds g
      have later : ∀ next : Guard, next.period = g.period → (rounds rest).foldlM (guardStep cfg) next ≠ none := by
        intro next same
        refine ih next (same ▸ counts) fun other listed => ?_
        rw [same]
        exact intime other (List.mem_cons_of_mem _ listed)
      simp only [rounds, List.flatMap_cons, List.cons_append, List.foldlM_cons, List.foldlM_append, guardStep]
      cases running : g.left with
      | none =>
          rw [running] at left
          simp only [Option.bind_eq_bind, Option.bind_some, guard_idle cfg round.2 _ left]
          exact later _ period
      | some n =>
          rw [running] at left
          simp only [Option.bind_eq_bind, Option.bind_some,
            guard_ticks cfg resets round.2 g.period _ left counts, if_pos soon]
          exact later _ period

-- The guard a probe sets up.
def probedGuard (cfg : WdtConfig) (count : Nat) : Guard where
  period := count
  left := if cfg.tmrAtboot ≠ 0 then some count else none
  session := false
  magic := false

theorem run_initial_heartbeat (cfg : WdtConfig) (timeout : Int) (count : Nat) (s : WdtState)
    (probed : probedTimeout cfg s.tmrMargin = some timeout) (counted : heartbeat cfg timeout = some count) :
    ∃ t, (initialHeartbeat cfg).run s = .done 0 t ∧ t.wdtCount = count ∧ t.openLock = s.openLock ∧
      t.expectClose = s.expectClose := by
  obtain ⟨divisor, ran, quotient⟩ := run_heartbeat_some cfg s timeout count counted
  refine ⟨programmed timeout (ticks cfg timeout) divisor s, ?_, quotient, rfl, rfl⟩
  cases margin : heartbeat cfg s.tmrMargin with
  | some first =>
      rw [probedTimeout, margin] at probed
      obtain rfl := Option.some.inj probed
      simp [initialHeartbeat, ran]
  | none =>
      have refused := run_heartbeat_none cfg s s.tmrMargin margin
      rw [probedTimeout, margin] at probed
      by_cases fallback : (heartbeat cfg defaultTime).isSome = true
      · simp only [fallback, if_true, Option.isSome_none, Bool.false_eq_true, if_false, Option.some.injEq] at probed
        subst probed
        simp [initialHeartbeat, refused, ran, einval]
      · simp [fallback] at probed

theorem run_probe (cfg : WdtConfig) (margin timeout : Int) (count : Nat) (regs : WdtReg → BitVec 32)
    (probed : probedTimeout cfg margin = some timeout) (counted : heartbeat cfg timeout = some count)
    (counts : 0 < count) : ∃ s, (watchdogProbeTimer cfg 0).run (loadedWdt margin regs) = .done 0 s ∧
      guardOf cfg s = probedGuard cfg count ∧ Wired cfg s := by
  obtain ⟨t, ran, rfl, lock, expect⟩ := run_initial_heartbeat cfg timeout count (loadedWdt margin regs) probed counted
  have fits := (heartbeat_count cfg timeout _ counted).1
  by_cases boots : cfg.tmrAtboot = 0
  · have off := stopped_timer_off cfg t
    refine ⟨stoppedTimer cfg t, ?_, ?_, stopped_timer_wired cfg t counts fits⟩
    · simp [watchdogProbeTimer, ran, bootTimer, boots, stoppedTimer]
    · simp [guardOf, probedGuard, off, boots]
      simp [stoppedTimer, lock, expect, loadedWdt]
  · refine ⟨startedTimer cfg t, ?_, ?_, started_timer_wired cfg t counts fits⟩
    · simp [watchdogProbeTimer, ran, bootTimer, boots, run_start]
    · rw [started_timer_guard cfg t fits]
      simp [guardOf, probedGuard, boots, lock, expect, loadedWdt]

theorem ticks_count (cfg : WdtConfig) (k : Nat) : ∀ e ∈ List.replicate k MachineEvent.tick, e.Counts cfg := by
  intro e listed p call
  rw [List.eq_of_mem_replicate listed] at call
  cases call

theorem rounds_count (cfg : WdtConfig) (daemon : List (WdtCall × Nat)) (feeds : ∀ round ∈ daemon, Feeds cfg round.1) :
    ∀ e ∈ rounds daemon, e.Counts cfg := by
  intro e listed
  obtain ⟨round, member, within⟩ := List.mem_flatMap.mp listed
  cases within with
  | head =>
      intro p call
      have fed := feeds round member
      rw [MachineEvent.call.inj call] at fed
      cases fed
  | tail _ ticking => exact ticks_count cfg round.2 e ticking

-- The driver on its chip is the guard. Left alone while it runs, the machine is reset at
-- the tick that WTCNT says and no earlier; a daemon whose calls come within wdt_count
-- ticks of one another keeps it up for ever; stopped, or told only, it stays up.
theorem machine_guarded (cfg : WdtConfig) (margin timeout : Int) (count : Nat) (regs : WdtReg → BitVec 32)
    (probed : probedTimeout cfg margin = some timeout) (counted : heartbeat cfg timeout = some count) (counts : 0 < count)
    (events : List MachineEvent) (all : ∀ e ∈ events, e.Counts cfg) :
    ∃ s, (watchdogProbeTimer cfg 0).run (loadedWdt margin regs) = .done 0 s ∧
      (events.foldlM (machineStep cfg) s).map (guardOf cfg) = events.foldlM (guardStep cfg) (probedGuard cfg count) ∧
      (cfg.softNoboot ≠ 0 → events.foldlM (machineStep cfg) s ≠ none) ∧
      ∀ t, events.foldlM (machineStep cfg) s = some t →
        (¬ enabled cfg t → ∀ k, (List.replicate k .tick).foldlM (machineStep cfg) t ≠ none) ∧
        (cfg.softNoboot = 0 → enabled cfg t → 0 < (t.regs .wtcnt).toNat ∧ (t.regs .wtcnt).toNat ≤ t.wdtCount ∧
          ∀ k, (List.replicate k .tick).foldlM (machineStep cfg) t = none ↔ (t.regs .wtcnt).toNat ≤ k) ∧
        (cfg.softNoboot = 0 → ∀ daemon : List (WdtCall × Nat),
          (∀ round ∈ daemon, Feeds cfg round.1 ∧ round.2 < t.wdtCount) →
            (rounds daemon).foldlM (machineStep cfg) t ≠ none) := by
  obtain ⟨s, ran, guarded, wired⟩ := run_probe cfg margin timeout count regs probed counted counts
  have simulates := machine_simulates cfg
  obtain ⟨same, kept⟩ := fold_refines _ _ _ _ _ simulates events s wired all
  rw [guarded] at same
  refine ⟨s, ran, same, fun told ended => ?_, fun t reached => ?_⟩
  · rw [ended] at same
    exact guard_told cfg told events _ same.symm
  · have wired' := kept t reached
    have ticking := fun k =>
      fold_refines_none _ _ _ _ _ simulates (List.replicate k .tick) t wired' (ticks_count cfg k)
    refine ⟨fun off k => ?_, fun resets on => ?_, fun resets daemon intime => ?_⟩
    · rw [Ne, ticking k, guard_idle cfg k _ (if_neg off)]
      exact Option.some_ne_none _
    · obtain ⟨some_left, most⟩ := wired'.left on
      refine ⟨some_left, most, fun k => ?_⟩
      rw [ticking k, guard_ticks cfg resets k _ _ (if_pos on) some_left]
      by_cases soon : k < (t.regs .wtcnt).toNat
      · simp [soon]
      · simpa [soon] using Nat.le_of_not_lt soon
    · have feeds := fun round listed => (intime round listed).1
      rw [Ne, fold_refines_none _ _ _ _ _ simulates (rounds daemon) t wired' (rounds_count cfg daemon feeds)]
      exact guard_rounds cfg resets daemon _ wired'.counts intime

-- At 50 MHz the default of 15 seconds is 65104 ticks.
theorem opened_watchdog_expires :
    ∃ s t, (watchdogProbeTimer bootConfig 0).run (loadedWdt 15 fun _ => 0) = .done 0 s ∧
      [MachineEvent.call .opening].foldlM (machineStep bootConfig) s = some t ∧
      ∀ k, (List.replicate k .tick).foldlM (machineStep bootConfig) t = none ↔ 65104 ≤ k := by
  have probed : probedTimeout bootConfig 15 = some 15 := by decide +kernel
  have counted : heartbeat bootConfig 15 = some 65104 := by decide +kernel
  obtain ⟨s, ran, same, -, later⟩ := machine_guarded bootConfig 15 15 65104 (fun _ => 0) probed counted (by decide)
    [.call .opening] (by simp [MachineEvent.Counts])
  obtain ⟨t, reached, guarded⟩ := Option.map_eq_some_iff.mp same
  have left : (if enabled bootConfig t then some (t.regs .wtcnt).toNat else none) = some 65104 :=
    congrArg Guard.left guarded
  have on : enabled bootConfig t ∧ (t.regs .wtcnt).toNat = 65104 := by simpa using left
  obtain ⟨-, resets, -⟩ := later t reached
  have expires := (resets rfl on.1).2.2
  rw [on.2] at expires
  exact ⟨s, t, ran, reached, expires⟩

end OneDriver.Watchdog
