import OneDriver.Watchdog.Platform
import Mathlib.Algebra.Order.Group.Multiset
import Mathlib.Tactic.Abel

set_option autoImplicit false

namespace OneDriver.Watchdog

theorem heartbeat_done (cfg : WdtConfig) (timeout : Int) (s : WdtState) :
    ∃ r t, (watchdogSetHeartbeat cfg timeout).run s = .done r t := by
  by_cases low : timeout < 1
  · exact ⟨_, _, run_heartbeat_refused cfg timeout s (.inl low)⟩
  cases found : divisorFor (ticks cfg timeout) with
  | none => exact ⟨_, _, run_heartbeat_refused cfg timeout s (.inr found)⟩
  | some divisor => exact ⟨_, _, run_heartbeat_accepted cfg timeout divisor s (by omega) found⟩

theorem initial_heartbeat_done (cfg : WdtConfig) (s : WdtState) :
    ∃ started t, (initialHeartbeat cfg).run s = .done started t := by
  obtain ⟨refused, t, first⟩ := heartbeat_done cfg s.tmrMargin s
  obtain ⟨again, u, second⟩ := heartbeat_done cfg defaultTime t
  by_cases fits : refused = 0
  · exact ⟨0, t, by simp [initialHeartbeat, first, fits]⟩
  · exact ⟨again, u, by simp [initialHeartbeat, first, fits, second]⟩

theorem boot_timer_done (cfg : WdtConfig) (started : Int) (s : WdtState) : ∃ t, (bootTimer cfg started).run s = .done () t := by
  unfold bootTimer
  split
  · exact ⟨_, by simp [watchdogStart, watchdogStopLocked]; rfl⟩
  split
  · exact ⟨_, run_watchdog_stop cfg s⟩
  · exact ⟨_, rfl⟩

theorem wp_on_timer {α : Type} (p : WdtProg α) (post : α → PlatformState → Prop) (s : PlatformState)
    (mapped : s.mapped = true) (ran : ∃ a t, p.run s.timer = .done a t ∧ post a { s with timer := t }) :
    (onTimer p).wp post s := by
  obtain ⟨a, t, ran, holds⟩ := ran
  have passes : ∀ step, needsMapping step s = none := fun step => by simp [needsMapping, mapped]
  refine Prog.wp_of_run _ _ post s { s with timer := t } a ?_ holds
  rw [onTimer, Prog.run_within _ _ _ _ p s (fun _ _ _ => rfl) passes]
  exact congrArg (Outcome.within timerPart Empty.elim s) ran

theorem run_release (label : PlatformStep) (r : Resource) (rest : Multiset Resource) (s : PlatformState)
    (held : s.held = r ::ₘ rest) : (release label (some r)).run s = .done () { s with held := rest } :=
  Prog.run_release_held heldPart label PlatformFault.misuse r rest s held

theorem run_release_mem (s : PlatformState) (mem : Nat) (rest : Multiset Resource) (named : s.wdtMem = some mem)
    (held : s.held = .region mem ::ₘ .record mem ::ₘ rest) : releaseMem.run s = .done () { s with held := rest } := by
  simp only [releaseMem, Prog.run_bind, Prog.run_look, outcome_bind_done, named, Option.map_some,
    run_release .releaseResource (.region mem) (.record mem ::ₘ rest) s held]
  exact run_release .kfree (.record mem) rest _ rfl

theorem run_iounmap (s : PlatformState) (base : Nat) (rest : Multiset Resource) (named : s.wdtBase = some base)
    (held : s.held = .mapping base ::ₘ rest) : iounmap.run s = .done () { s with held := rest } := by
  simp only [iounmap, Prog.run_bind, Prog.run_look, outcome_bind_done, named, Option.map_some,
    run_release .iounmap (.mapping base) rest s held]

theorem run_free_irq (s : PlatformState) (irq : Nat) (rest : Multiset Resource) (named : s.wdtIrq = some irq)
    (held : s.held = .handler irq ::ₘ rest) (quiet : s.traffic.handling = ∅) :
    freeIrq.run s = .done () { s with held := rest } := by
  simp only [freeIrq, Prog.run_bind, Prog.run_look, outcome_bind_done, named, Option.map_some,
    run_release .freeIrq (.handler irq) rest s held]
  simp [Prog.run_await, quiet]

theorem run_put_clock (s : PlatformState) (clock : Nat) (rest : Multiset Resource) (named : s.wdtClock = .object clock)
    (held : s.held = .clockOn clock ::ₘ .clockRef clock ::ₘ rest) : putClock.run s = .done () { s with held := rest } := by
  simp only [putClock, Prog.run_bind, Prog.run_look, outcome_bind_done, named, ErrPtr.resource,
    run_release .clkDisable (.clockOn clock) (.clockRef clock ::ₘ rest) s held]
  exact run_release .clkPut (.clockRef clock) rest _ rfl

theorem run_err_req (ret : Int) (s : PlatformState) (mem : Nat) (rest : Multiset Resource) (named : s.wdtMem = some mem)
    (held : s.held = .region mem ::ₘ .record mem ::ₘ rest) : (errReq ret).run s = .done ret { s with held := rest } := by
  simp only [errReq, Prog.run_bind, run_release_mem s mem rest named held, outcome_bind_done, Prog.run_pure]

theorem run_err_map (ret : Int) (s : PlatformState) (mem base : Nat) (rest : Multiset Resource) (mem' : s.wdtMem = some mem)
    (base' : s.wdtBase = some base) (held : s.held = .mapping base ::ₘ .region mem ::ₘ .record mem ::ₘ rest) :
    (errMap ret).run s = .done ret { s with held := rest } := by
  simp only [errMap, Prog.run_bind, run_iounmap s base _ base' held, outcome_bind_done]
  exact run_err_req ret _ mem rest mem' rfl

theorem run_err_irq (ret : Int) (s : PlatformState) (mem base irq : Nat) (rest : Multiset Resource)
    (mem' : s.wdtMem = some mem) (base' : s.wdtBase = some base) (irq' : s.wdtIrq = some irq)
    (quiet : s.traffic.handling = ∅)
    (held : s.held = .handler irq ::ₘ .mapping base ::ₘ .region mem ::ₘ .record mem ::ₘ rest) :
    (errIrq ret).run s = .done ret { s with held := rest } := by
  simp only [errIrq, Prog.run_bind, run_free_irq s irq _ irq' held quiet, outcome_bind_done]
  exact run_err_map ret _ mem base rest mem' base' rfl

structure Names (s : PlatformState) (mem base irq clock : Nat) : Prop where
  mem : s.wdtMem = some mem
  base : s.wdtBase = some base
  irq : s.wdtIrq = some irq
  clock : s.wdtClock = .object clock

-- In the order the probe acquires it, over what was held before.
def acquired (mem base irq clock : Nat) (before : Multiset Resource) : Multiset Resource :=
  .clockOn clock ::ₘ .clockRef clock ::ₘ .handler irq ::ₘ .mapping base ::ₘ .region mem ::ₘ .record mem ::ₘ before

theorem run_err_clk (ret : Int) (s : PlatformState) (mem base irq clock : Nat) (rest : Multiset Resource)
    (names : Names s mem base irq clock) (quiet : s.traffic.handling = ∅)
    (held : s.held = acquired mem base irq clock rest) : (errClk ret).run s = .done ret { s with held := rest } := by
  simp only [errClk, Prog.run_bind, run_put_clock s clock _ names.clock held, outcome_bind_done]
  exact run_err_irq ret _ mem base irq rest names.mem names.base names.irq quiet rfl

def ProbeOutcome.Succeeds (o : ProbeOutcome) : Prop :=
  o.memory = true ∧ o.region = true ∧ o.mapping = true ∧ o.irq ≠ none ∧ o.requestIrq = 0 ∧ o.clkGet = none ∧
    o.registered = 0

instance (o : ProbeOutcome) : Decidable o.Succeeds := inferInstanceAs (Decidable (_ ∧ _))

structure ProbeEnds (cfg : WdtConfig) (o : ProbeOutcome) (mem : Nat) (s : PlatformState) (before : Multiset Resource) (r : Int)
    (t : PlatformState) : Prop where
  region : t.wdtMem = some mem
  traffic : t.traffic = s.traffic
  grants : s.grants ≤ t.grants
  timer : o.Succeeds → (watchdogProbeTimer cfg o.registered).run s.timer = .done r t.timer
  bound : o.Succeeds → r = 0 ∧ ∃ base irq clock, Names t mem base irq clock ∧
    t.held = .miscdev ::ₘ acquired mem base irq clock before
  unwound : ¬ o.Succeeds → r ≠ 0 ∧ t.held = before

theorem unwound_ends (cfg : WdtConfig) (o : ProbeOutcome) (mem : Nat) (s t : PlatformState) (before : Multiset Resource) (r : Int)
    (failed : ¬ o.Succeeds) (named : t.wdtMem = some mem) (traffic : t.traffic = s.traffic) (grants : s.grants ≤ t.grants)
    (nonzero : r ≠ 0) (held : t.held = before) : ProbeEnds cfg o mem s before r t :=
  ⟨named, traffic, grants, fun succeeds => absurd succeeds failed, fun succeeds => absurd succeeds failed,
    fun _ => ⟨nonzero, held⟩⟩

theorem ends_earlier (cfg : WdtConfig) (o : ProbeOutcome) (mem : Nat) (s u t : PlatformState) (before : Multiset Resource)
    (r : Int) (ends : ProbeEnds cfg o mem u before r t) (timer : u.timer = s.timer) (traffic : u.traffic = s.traffic)
    (grants : s.grants ≤ u.grants) : ProbeEnds cfg o mem s before r t :=
  ⟨ends.region, ends.traffic.trans traffic, Nat.le_trans grants ends.grants, timer ▸ ends.timer, ends.bound, ends.unwound⟩

theorem names_mapped (s : PlatformState) (mem base irq clock : Nat) (before : Multiset Resource)
    (names : Names s mem base irq clock) (held : s.held = acquired mem base irq clock before) :
    s.mapped = true ∧ s.clocked = true := by
  simp [PlatformState.mapped, PlatformState.clocked, names.base, names.clock, held, acquired]

theorem run_clk_get_rate (s : PlatformState) (clocked : s.clocked = true) : clkGetRate.run s = .done () s := by
  simp [clkGetRate, Prog.run_access, clocked]

theorem run_request_mem_region (s : PlatformState) : (requestMemRegion true).run s = .done (some s.grants)
    { s with grants := s.grants + 1, held := .region s.grants ::ₘ .record s.grants ::ₘ s.held } := rfl

theorem run_ioremap (s : PlatformState) : (ioremap true).run s =
    .done (some s.grants) { s with grants := s.grants + 1, held := .mapping s.grants ::ₘ s.held } := rfl

theorem run_request_irq (irq : Nat) (result : Int) (s : PlatformState) : (requestIrq irq result).run s =
    .done result (if result = 0 then { s with held := .handler irq ::ₘ s.held } else s) :=
  Prog.run_acquire_if heldPart PlatformStep.requestIrq (.handler irq) result s

theorem run_clk_get (s : PlatformState) : (clkGet none).run s = .done (.object s.grants)
    { s with grants := s.grants + 1, held := .clockRef s.grants ::ₘ s.held } := rfl

theorem run_misc_register (result : Int) (s : PlatformState) : (miscRegister result).run s =
    .done result (if result = 0 then { s with held := .miscdev ::ₘ s.held } else s) :=
  Prog.run_acquire_if heldPart PlatformStep.miscRegister .miscdev result s

theorem probe_device_ends (cfg : WdtConfig) (o : ProbeOutcome) (s : PlatformState) (mem base irq clock : Nat)
    (before : Multiset Resource) (names : Names s mem base irq clock) (quiet : s.traffic.handling = ∅)
    (held : s.held = acquired mem base irq clock before) (far : o.Succeeds ↔ o.registered = 0) :
    (probeDevice cfg o).wp (ProbeEnds cfg o mem s before) s := by
  obtain ⟨mapped, clocked⟩ := names_mapped s mem base irq clock before names held
  obtain ⟨started, timer, initial⟩ := initial_heartbeat_done cfg s.timer
  simp only [probeDevice, Prog.wp_bind]
  refine Prog.wp_of_run _ _ _ s s () (run_clk_get_rate s clocked) (wp_on_timer _ _ s mapped ⟨started, timer, initial, ?_⟩)
  refine Prog.wp_of_run _ _ _ _ _ _ (run_misc_register o.registered _) ?_
  by_cases registered : o.registered = 0
  · obtain ⟨booted, boots⟩ := boot_timer_done cfg started timer
    simp only [registered, if_true, ne_eq, not_true_eq_false, if_false, Prog.wp_bind]
    have stillMapped : ∀ now, ({ s with timer := now, held := .miscdev ::ₘ s.held } : PlatformState).mapped = true := by
      intro now
      simpa [PlatformState.mapped, names.base] using mapped
    refine wp_on_timer _ _ _ (stillMapped timer) ⟨(), booted, boots, ?_⟩
    refine wp_on_timer _ _ _ (stillMapped booted) ⟨_, booted, rfl, ?_⟩
    refine ⟨names.mem, rfl, Nat.le_refl _, fun _ => ?_, fun _ => ⟨rfl, base, irq, clock, ?_, congrArg _ held⟩, ?_⟩
    · simp [watchdogProbeTimer, registered, initial, boots]
    · exact ⟨names.mem, names.base, names.irq, names.clock⟩
    · exact fun failed => absurd (far.mpr registered) failed
  · simp only [registered, if_false, ne_eq, not_false_eq_true, if_true]
    have unwinds := run_err_clk o.registered { s with timer := timer } mem base irq clock before
      ⟨names.mem, names.base, names.irq, names.clock⟩ quiet held
    refine Prog.wp_of_run _ _ _ _ _ _ unwinds ?_
    exact unwound_ends cfg o mem s _ before _ (mt far.mp registered) names.mem rfl (Nat.le_refl _) registered rfl

theorem probe_clock_ends (cfg : WdtConfig) (o : ProbeOutcome) (s : PlatformState) (mem base irq : Nat)
    (before : Multiset Resource) (mem' : s.wdtMem = some mem) (base' : s.wdtBase = some base) (irq' : s.wdtIrq = some irq)
    (quiet : s.traffic.handling = ∅)
    (held : s.held = .handler irq ::ₘ .mapping base ::ₘ .region mem ::ₘ .record mem ::ₘ before)
    (far : o.Succeeds ↔ o.clkGet = none ∧ o.registered = 0) :
    (probeClock cfg o).wp (ProbeEnds cfg o mem s before) s := by
  simp only [probeClock, Prog.wp_bind]
  cases clock : o.clkGet with
  | some errno =>
      have unwinds := run_err_irq errno.value { s with wdtClock := .error errno } mem base irq before mem' base' irq' quiet held
      have nonzero : errno.value ≠ 0 := Int.ne_of_lt errno.negative
      simp only [clkGet, setClock, Prog.wp_pure, Prog.wp_modify]
      refine Prog.wp_of_run _ _ _ _ _ _ unwinds ?_
      exact unwound_ends cfg o mem s _ before _ (by simp [far, clock]) mem' rfl (Nat.le_refl _) nonzero rfl
  | none =>
      have ends := probe_device_ends cfg o { s with
          grants := s.grants + 1, wdtClock := .object s.grants,
          held := .clockOn s.grants ::ₘ .clockRef s.grants ::ₘ s.held } mem base irq s.grants before
        ⟨mem', base', irq', rfl⟩ quiet (by rw [held]; rfl) (by simpa [clock] using far)
      refine Prog.wp_of_run _ _ _ _ _ _ (run_clk_get s) ?_
      simp only [setClock, clkEnable, acquire, Prog.acquire, Prog.wp_bind, Prog.wp_modify]
      exact Prog.wp_mono _ _ _ _ _ ends fun r t ended => ends_earlier cfg o mem s _ t before r ended rfl rfl (Nat.le_succ _)

theorem probe_irq_ends (cfg : WdtConfig) (o : ProbeOutcome) (s : PlatformState) (mem base : Nat)
    (before : Multiset Resource) (mem' : s.wdtMem = some mem) (base' : s.wdtBase = some base)
    (quiet : s.traffic.handling = ∅) (held : s.held = .mapping base ::ₘ .region mem ::ₘ .record mem ::ₘ before)
    (far : o.Succeeds ↔ o.irq ≠ none ∧ o.requestIrq = 0 ∧ o.clkGet = none ∧ o.registered = 0) :
    (probeIrq cfg o).wp (ProbeEnds cfg o mem s before) s := by
  simp only [probeIrq, setIrq, Prog.wp_bind, Prog.wp_modify]
  cases line : o.irq with
  | none =>
      have unwinds := run_err_map (-enoent) { s with wdtIrq := none } mem base before mem' base' held
      refine Prog.wp_of_run _ _ _ _ _ _ unwinds ?_
      exact unwound_ends cfg o mem s _ before _ (by simp [far, line]) mem' rfl (Nat.le_refl _) (by decide) rfl
  | some irq =>
      simp only [Prog.wp_bind]
      refine Prog.wp_of_run _ _ _ _ _ _ (run_request_irq irq o.requestIrq _) ?_
      by_cases installed : o.requestIrq = 0
      · simp only [installed, if_true, ne_eq, not_true_eq_false, if_false]
        have ends := probe_clock_ends cfg o { s with wdtIrq := some irq, held := .handler irq ::ₘ s.held } mem base irq before
          mem' base' rfl quiet (by rw [held]) (by simpa [line, installed] using far)
        exact Prog.wp_mono _ _ _ _ _ ends fun r t ended => ends_earlier cfg o mem s _ t before r ended rfl rfl (Nat.le_refl _)
      · simp only [installed, if_false, ne_eq, not_false_eq_true, if_true]
        have unwinds := run_err_map o.requestIrq { s with wdtIrq := some irq } mem base before mem' base' held
        refine Prog.wp_of_run _ _ _ _ _ _ unwinds ?_
        exact unwound_ends cfg o mem s _ before _ (by simp [far, installed]) mem' rfl (Nat.le_refl _) installed rfl

theorem probe_mapping_ends (cfg : WdtConfig) (o : ProbeOutcome) (s : PlatformState) (mem : Nat)
    (before : Multiset Resource) (mem' : s.wdtMem = some mem) (quiet : s.traffic.handling = ∅)
    (held : s.held = .region mem ::ₘ .record mem ::ₘ before)
    (far : o.Succeeds ↔ o.mapping = true ∧ o.irq ≠ none ∧ o.requestIrq = 0 ∧ o.clkGet = none ∧ o.registered = 0) :
    (probeMapping cfg o).wp (ProbeEnds cfg o mem s before) s := by
  simp only [probeMapping, Prog.wp_bind]
  cases mapped : o.mapping with
  | false =>
      have unwinds := run_err_req (-einval) { s with wdtBase := none } mem before mem' held
      simp only [ioremap, setBase, Bool.false_eq_true, if_false, if_true, Prog.wp_pure, Prog.wp_modify]
      refine Prog.wp_of_run _ _ _ _ _ _ unwinds ?_
      exact unwound_ends cfg o mem s _ before _ (by simp [far, mapped]) mem' rfl (Nat.le_refl _) (by decide) rfl
  | true =>
      have ends := probe_irq_ends cfg o { s with
          grants := s.grants + 1, wdtBase := some s.grants, held := .mapping s.grants ::ₘ s.held } mem s.grants before
        mem' rfl quiet (by rw [held]) (by simpa [mapped] using far)
      refine Prog.wp_of_run _ _ _ _ _ _ (run_ioremap s) ?_
      simp only [setBase, Prog.wp_modify, reduceCtorEq, if_false]
      exact Prog.wp_mono _ _ _ _ _ ends fun r t ended => ends_earlier cfg o mem s _ t before r ended rfl rfl (Nat.le_succ _)

theorem watchdog_probe_ends (cfg : WdtConfig) (o : ProbeOutcome) (s : PlatformState) (memory : o.memory = true)
    (region : o.region = true) (quiet : s.traffic.handling = ∅) :
    (watchdogProbe cfg o).wp (fun r t => ProbeEnds cfg o s.grants s s.held r t ∧ s.grants < t.grants) s := by
  have far : o.Succeeds ↔
      o.mapping = true ∧ o.irq ≠ none ∧ o.requestIrq = 0 ∧ o.clkGet = none ∧ o.registered = 0 := by
    simp [ProbeOutcome.Succeeds, memory, region]
  have ends := probe_mapping_ends cfg o { s with
      grants := s.grants + 1, wdtMem := some s.grants, held := .region s.grants ::ₘ .record s.grants ::ₘ s.held } s.grants
    s.held rfl quiet rfl far
  simp only [watchdogProbe, memory, region, if_true, Prog.wp_bind]
  refine Prog.wp_of_run _ _ _ _ _ _ (run_request_mem_region s) ?_
  simp only [setMem, Prog.wp_modify, reduceCtorEq, if_false]
  exact Prog.wp_mono _ _ _ _ _ ends fun r t ended =>
    ⟨ends_earlier cfg o s.grants s _ t s.held r ended rfl rfl (Nat.le_succ _), ended.grants⟩

-- To the timer a probe that succeeds is its timer part.
theorem probe_drives_timer (cfg : WdtConfig) (o : ProbeOutcome) (s : PlatformState) (succeeds : o.Succeeds)
    (quiet : s.traffic.handling = ∅) : (watchdogProbe cfg o).wp
      (fun r t => (watchdogProbeTimer cfg o.registered).run s.timer = .done r t.timer) s :=
  Prog.wp_mono _ _ _ _ s (watchdog_probe_ends cfg o s succeeds.1 succeeds.2.1 quiet) fun _ _ ended => ended.1.timer succeeds

-- The region is refused: the label releases what wdt_mem does not name.
theorem refused_region_faults (cfg : WdtConfig) (o : ProbeOutcome) (s : PlatformState) (memory : o.memory = true)
    (region : o.region = false) : ∃ t, (watchdogProbe cfg o).run s = .crashed (.misuse .null) t := by
  simp only [watchdogProbe, memory, region, if_true]
  exact ⟨_, rfl⟩

-- The same resources, in the order the remove releases them.
theorem acquired_order (mem base irq clock : Nat) : .miscdev ::ₘ acquired mem base irq clock 0 =
    .region mem ::ₘ .record mem ::ₘ .handler irq ::ₘ .clockOn clock ::ₘ .clockRef clock ::ₘ
      .mapping base ::ₘ {.miscdev} := by
  simp only [acquired, ← Multiset.singleton_add]
  abel

theorem run_watchdog_remove (s : PlatformState) (mem base irq clock : Nat) (names : Names s mem base irq clock)
    (quiet : s.traffic.handling = ∅) (held : s.held = .miscdev ::ₘ acquired mem base irq clock 0) :
    watchdogRemove.wp (fun r t => r = 0 ∧ t.held = 0 ∧ t.traffic = s.traffic) s := by
  rw [acquired_order] at held
  simp only [watchdogRemove, Prog.wp_bind]
  refine Prog.wp_of_run _ _ _ _ _ _ (run_release_mem s mem _ names.mem held) ?_
  simp only [setMem, Prog.wp_modify]
  refine Prog.wp_of_run _ _ _ _ _ _ (run_free_irq _ irq
    (.clockOn clock ::ₘ .clockRef clock ::ₘ .mapping base ::ₘ {.miscdev}) names.irq rfl quiet) ?_
  simp only [setIrq, Prog.wp_modify]
  refine Prog.wp_of_run _ _ _ _ _ _ (run_put_clock _ clock (.mapping base ::ₘ {.miscdev}) names.clock rfl) ?_
  simp only [setClock, Prog.wp_modify]
  refine Prog.wp_of_run _ _ _ _ _ _ (run_iounmap _ base {.miscdev} names.base rfl) ?_
  exact Prog.wp_of_run _ _ _ _ _ _ (run_release .miscDeregister .miscdev 0 _ rfl) ⟨rfl, rfl, rfl⟩

theorem wp_release_region (label : PlatformStep) (r : Option Resource) (id : Nat) (s : PlatformState)
    (post : Unit → PlatformState → Prop) (different : r ≠ some (.region id)) (held : .region id ∈ s.held)
    (kept : ∀ rest, .region id ∈ rest → post () { s with held := rest }) :
    (release label r).wpUpTo (fun _ => True) post s :=
  Prog.wp_release_other heldPart label PlatformFault.misuse r (.region id) s post different held kept

-- Whatever a remove releases, it is not a region that wdt_mem does not name.
theorem remove_keeps_region (s : PlatformState) (id : Nat) (different : s.wdtMem ≠ some id)
    (quiet : s.traffic.handling = ∅) (held : .region id ∈ s.held) :
    watchdogRemove.wpUpTo (fun _ => True) (fun _ t => .region id ∈ t.held) s := by
  simp only [watchdogRemove, releaseMem, freeIrq, putClock, iounmap, setMem, setIrq, setClock, Prog.wp_bind,
    Prog.wp_look, Prog.wp_modify, Prog.wp_await]
  refine wp_release_region _ _ id _ _ (by simpa using different) held fun first held => ?_
  refine wp_release_region _ _ id _ _ (by simp) held fun second held => ?_
  refine wp_release_region _ _ id _ _ (by simp) held fun third held => ⟨by simpa using quiet, ?_⟩
  refine wp_release_region _ _ id _ _ (by cases s.wdtClock <;> simp [ErrPtr.resource]) held fun fourth held => ?_
  refine wp_release_region _ _ id _ _ (by cases s.wdtClock <;> simp [ErrPtr.resource]) held fun fifth held => ?_
  refine wp_release_region _ _ id _ _ (by simp) held fun sixth held => ?_
  exact wp_release_region _ _ id _ _ (by simp) held fun _ held => held

inductive PlatformCall where
  | probe (o : ProbeOutcome)
  | remove

-- No release goes wrong, a probe that fails leaves what it found, and a remove
-- leaves nothing.
def LedgerLaw (cfg : WdtConfig) : PlatformState → List PlatformCall → Prop
  | _, [] => True
  | s, .probe o :: rest =>
      ∃ r t, (watchdogProbe cfg o).run s = .done r t ∧ (r ≠ 0 → t.held = s.held) ∧ LedgerLaw cfg t rest
  | s, .remove :: rest => ∃ r t, watchdogRemove.run s = .done r t ∧ t.held = 0 ∧ LedgerLaw cfg t rest

-- Whether the statics name what is held. A probe of a device that is bound, when
-- it gets as far as its region, overwrites the only pointer to the other one's.
inductive Standing where
  | unbound | bound | orphaned
deriving DecidableEq, Repr

def Standing.next (standing : Standing) : PlatformCall → Standing
  | .remove => .unbound
  | .probe o =>
      if o.memory = true then match standing with
        | .unbound => if o.Succeeds then .bound else .unbound
        | _ => .orphaned
      else standing

-- Every region is granted, and a device is removed where it is bound.
def Regular (standing : Standing) : PlatformCall → Prop
  | .remove => standing = .bound
  | .probe o => o.memory = true → o.region = true

inductive Standing.Holds : Standing → PlatformState → Prop where
  | unbound (s : PlatformState) (held : s.held = 0) : Holds .unbound s
  | bound (s : PlatformState) (mem base irq clock : Nat) (names : Names s mem base irq clock)
      (held : s.held = .miscdev ::ₘ acquired mem base irq clock 0) : Holds .bound s
  | orphaned (s : PlatformState) (id : Nat) (different : s.wdtMem ≠ some id) (held : .region id ∈ s.held) : Holds .orphaned s

structure Standing.Invariant (standing : Standing) (s : PlatformState) : Prop where
  holds : standing.Holds s
  quiet : s.traffic.handling = ∅
  granted : ∀ id, .region id ∈ s.held → id < s.grants

theorem region_acquired (id mem base irq clock : Nat) (before : Multiset Resource) :
    .region id ∈ (.miscdev ::ₘ acquired mem base irq clock before : Multiset Resource) ↔
      id = mem ∨ .region id ∈ before := by
  simp [acquired]

-- A granted probe: what was held stays held, and wdt_mem names something newer.
theorem orphaned_of_probe (cfg : WdtConfig) (o : ProbeOutcome) (s t : PlatformState) (id : Nat) (r : Int)
    (granted : id < s.grants) (held : .region id ∈ s.held) (ends : ProbeEnds cfg o s.grants s s.held r t) :
    Standing.orphaned.Holds t := by
  refine .orphaned t id ?_ ?_
  · rw [ends.region]
    exact fun same => absurd (Option.some.inj same) (Nat.ne_of_gt granted)
  · by_cases succeeds : o.Succeeds
    · obtain ⟨-, base, irq, clock, -, all⟩ := ends.bound succeeds
      rw [all, region_acquired]
      exact .inr held
    · rw [(ends.unwound succeeds).2]
      exact held

theorem probe_next (cfg : WdtConfig) (o : ProbeOutcome) (standing : Standing) (s t : PlatformState) (r : Int)
    (memory : o.memory = true) (holds : standing.Invariant s) (ends : ProbeEnds cfg o s.grants s s.held r t) :
    (standing.next (.probe o)).Holds t := by
  simp only [Standing.next, memory, if_true]
  obtain ⟨here, -, granted⟩ := holds
  cases here with
  | unbound _ empty =>
      by_cases succeeds : o.Succeeds
      · obtain ⟨-, base, irq, clock, names, all⟩ := ends.bound succeeds
        simp only [succeeds, if_true]
        exact .bound t _ base irq clock names (empty ▸ all)
      · simp only [succeeds, if_false]
        exact .unbound t ((ends.unwound succeeds).2.trans empty)
  | bound _ mem base irq clock names held =>
      have member : .region mem ∈ s.held := by
        rw [held, region_acquired]
        exact .inl rfl
      exact orphaned_of_probe cfg o s t mem r (granted mem member) member ends
  | orphaned _ id different held => exact orphaned_of_probe cfg o s t id r (granted id held) held ends

theorem probe_step (cfg : WdtConfig) (o : ProbeOutcome) (standing : Standing) (s : PlatformState)
    (holds : standing.Invariant s) (regular : Regular standing (.probe o)) :
    (watchdogProbe cfg o).wp (fun r t => (r ≠ 0 → t.held = s.held) ∧ (standing.next (.probe o)).Invariant t) s := by
  cases memory : o.memory with
  | false =>
      have same : standing.next (.probe o) = standing := by simp [Standing.next, memory]
      rw [same, watchdogProbe, memory]
      exact ⟨fun _ => rfl, holds⟩
  | true =>
      have ends := watchdog_probe_ends cfg o s memory (regular memory) holds.quiet
      refine Prog.wp_mono _ _ _ _ s ends fun r t ended => ⟨fun failed => ?_, ?_⟩
      · by_cases succeeds : o.Succeeds
        · exact absurd (ended.1.bound succeeds).1 failed
        · exact (ended.1.unwound succeeds).2
      · refine ⟨probe_next cfg o standing s t r memory holds ended.1, ended.1.traffic ▸ holds.quiet, fun id held => ?_⟩
        by_cases succeeds : o.Succeeds
        · obtain ⟨-, base, irq, clock, -, all⟩ := ended.1.bound succeeds
          rw [all, region_acquired] at held
          obtain rfl | older := held
          · exact ended.2
          · exact Nat.lt_trans (holds.granted id older) ended.2
        · rw [(ended.1.unwound succeeds).2] at held
          exact Nat.lt_trans (holds.granted id held) ended.2

theorem remove_step (s : PlatformState) (holds : Standing.bound.Invariant s) :
    watchdogRemove.wp (fun _ t => t.held = 0 ∧ Standing.unbound.Invariant t) s := by
  obtain ⟨here, quiet, -⟩ := holds
  cases here with
  | bound _ mem base irq clock names held =>
      refine Prog.wp_mono _ _ _ _ s (run_watchdog_remove s mem base irq clock names quiet held) fun r t ended => ?_
      obtain ⟨-, empty, traffic⟩ := ended
      exact ⟨empty, .unbound t empty, traffic ▸ quiet, by simp [empty]⟩

-- Where the device is not bound, a remove faults or leaves a region behind.
theorem remove_irregular (standing : Standing) (s t : PlatformState) (r : Int) (holds : standing.Invariant s)
    (irregular : standing ≠ .bound) (ran : watchdogRemove.run s = .done r t) : t.held ≠ 0 := by
  obtain ⟨here, quiet, -⟩ := holds
  cases here with
  | bound => exact absurd rfl irregular
  | unbound _ empty =>
      have faults : watchdogRemove.wpUpTo (fun _ => True) (fun _ _ => False) s := by
        simp only [watchdogRemove, releaseMem, Prog.wp_bind, Prog.wp_look]
        exact Prog.wp_release_empty heldPart .releaseResource _ _ s _ empty
      exact (Prog.post_of_run _ _ _ s t r faults ran).elim
  | orphaned _ id different held =>
      have kept := Prog.post_of_run _ _ _ s t r (remove_keeps_region s id different quiet held) ran
      exact fun empty => by simp [empty] at kept

theorem ledger_law_needs (cfg : WdtConfig) (standing : Standing) (s : PlatformState) (call : PlatformCall)
    (rest : List PlatformCall) (holds : standing.Invariant s) (law : LedgerLaw cfg s (call :: rest)) :
    Regular standing call ∧ ∃ t, (standing.next call).Invariant t ∧ LedgerLaw cfg t rest := by
  cases call with
  | probe o =>
      obtain ⟨r, t, ran, -, later⟩ := law
      have regular : Regular standing (.probe o) := by
        intro memory
        by_contra refused
        obtain ⟨u, faults⟩ := refused_region_faults cfg o s memory (by simpa using refused)
        rw [faults] at ran
        contradiction
      have ended := Prog.post_of_run _ _ _ s t r (probe_step cfg o standing s holds regular) ran
      exact ⟨regular, t, ended.2, later⟩
  | remove =>
      obtain ⟨r, t, ran, empty, later⟩ := law
      have regular : standing = .bound := by
        by_contra irregular
        exact remove_irregular standing s t r holds irregular ran empty
      subst regular
      have ended := Prog.post_of_run _ _ _ s t r (remove_step s holds) ran
      exact ⟨rfl, t, ended.2, later⟩

theorem regular_gives_law (cfg : WdtConfig) (standing : Standing) (s : PlatformState) (call : PlatformCall)
    (rest : List PlatformCall) (holds : standing.Invariant s) (regular : Regular standing call) :
    ∃ t, (standing.next call).Invariant t ∧ (LedgerLaw cfg t rest → LedgerLaw cfg s (call :: rest)) := by
  cases call with
  | probe o =>
      obtain ⟨r, t, ran, kept, next⟩ := (Prog.wp_iff_run _ _ s).mp (probe_step cfg o standing s holds regular)
      exact ⟨t, next, fun later => ⟨r, t, ran, kept, later⟩⟩
  | remove =>
      obtain rfl : standing = .bound := regular
      obtain ⟨r, t, ran, empty, next⟩ := (Prog.wp_iff_run _ _ s).mp (remove_step s holds)
      exact ⟨t, next, fun later => ⟨r, t, ran, empty, later⟩⟩

theorem watchdog_ledger_iff (cfg : WdtConfig) (timer : WdtState) (calls : List PlatformCall) :
    LedgerLaw cfg (loadedPlatform timer) calls ↔ Follows Standing.next Regular .unbound calls :=
  law_iff_follows (fun _ => LedgerLaw cfg) Standing.next Regular Standing.Invariant (fun _ _ => trivial)
    (ledger_law_needs cfg) (regular_gives_law cfg) calls .unbound _ ⟨.unbound _ rfl, rfl, by simp [loadedPlatform]⟩

-- The board's device: a region, interrupt 25 and a clock; only the region is
-- refused.
def refusedProbe : ProbeOutcome := ⟨true, false, true, some 25, 0, none, 0⟩

theorem refused_region_releases_null :
    ¬ LedgerLaw boardConfig (loadedPlatform (loadedWdt 15 fun _ => 0)) [.probe refusedProbe] := by
  intro law
  obtain ⟨r, t, ran, -⟩ := law
  obtain ⟨u, faults⟩ := refused_region_faults boardConfig refusedProbe _ rfl rfl
  rw [faults] at ran
  contradiction

end OneDriver.Watchdog
