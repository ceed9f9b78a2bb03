import OneDriver.Watchdog.Session
import OneDriver.Watchdog.Heartbeat

set_option autoImplicit false

namespace OneDriver.Watchdog

-- What a run may ask of the driver; get_user may fail at any byte of a write.
inductive WdtCall where
  | opening
  | write (data : List (Option UInt8))
  | ioctl (cmd : WdtCmd) (p : UserInt)
  | irq
  | release
deriving DecidableEq, Repr

def WdtCall.prog (cfg : WdtConfig) : WdtCall → WdtProg Unit
  | .opening => do
      let _ ← watchdogOpen cfg
      pure ()
  | .write data => do
      let _ ← watchdogWrite cfg data
      pure ()
  | .ioctl cmd p => do
      let _ ← watchdogIoctl cfg cmd p
      pure ()
  | .irq => watchdogIrq
  | .release => do
      let _ ← watchdogRelease cfg
      pure ()

def heartbeat (cfg : WdtConfig) (timeout : Int) : Option Nat :=
  if timeout < 1 then none else (divisorFor (ticks cfg timeout)).map (ticks cfg timeout / ·)

-- The margin watchdog_probe ends up with: the module parameter, or the default.
def probedTimeout (cfg : WdtConfig) (margin : Int) : Option Int :=
  if (heartbeat cfg margin).isSome then some margin
  else if (heartbeat cfg defaultTime).isSome then some defaultTime
  else none

def WdtCall.beat (cfg : WdtConfig) (last : Option Int) : WdtCall → Option Int
  | .ioctl .settimeout p => if p.readable ∧ (heartbeat cfg p.value).isSome then some p.value else last
  | _ => last

-- The driver stores WTCNT in two sections; the start also sets ENABLE.
def LoadsCounter (cfg : WdtConfig) (label : WdtStep) (s : WdtState) : Prop :=
  label = .wdtLock .start ∨ label = .wdtLock .keepalive ∧ enabled cfg s

def IsLastCount (cfg : WdtConfig) (last : Option Int) (value : BitVec 32) : Prop :=
  value ≠ 0 ∧ ∃ timeout count, last = some timeout ∧ heartbeat cfg timeout = some count ∧ value = BitVec.ofNat 32 count

-- The law of one action; what is no load of a running timer does not start it.
def LoadsLastCount (cfg : WdtConfig) (last : Option Int) (label : WdtStep) (s t : WdtState) : Prop :=
  (LoadsCounter cfg label s → IsLastCount cfg last (t.regs .wtcnt)) ∧
    (¬ LoadsCounter cfg label s → enabled cfg t → enabled cfg s ∧ t.regs .wtcnt = s.regs .wtcnt)

-- A SETTIMEOUT loads the counter after its watchdog_set_heartbeat has returned,
-- so its own timeout is the last one for all its actions.
def CountLaw (cfg : WdtConfig) : Option Int → WdtState → List WdtCall → Prop
  | _, _, [] => True
  | last, s, call :: rest => (call.prog cfg).along (LoadsLastCount cfg (call.beat cfg last)) s ∧
      ∃ t, (call.prog cfg).run s = .done () t ∧ CountLaw cfg (call.beat cfg last) t rest

def WdtCall.drives (cfg : WdtConfig) (s : WdtState) : WdtCall → Prop
  | .opening => s.openLock = false
  | .write data => data ≠ [] ∧ (cfg.nowayout = 0 → none ∉ data) ∧ enabled cfg s
  | .ioctl .keepalive _ => enabled cfg s
  | .ioctl .settimeout p => p.readable = true ∧ (heartbeat cfg p.value).isSome = true ∧ enabled cfg s
  | .ioctl _ _ => False
  | .irq => enabled cfg s
  | .release => s.expectClose ≠ 42 ∧ enabled cfg s

def HasTicks (cfg : WdtConfig) (last : Option Int) : Prop := ∃ timeout, last = some timeout ∧ ticks cfg timeout ≠ 0

def DrivenWithTicks (cfg : WdtConfig) : Option Int → WdtState → List WdtCall → Prop
  | _, _, [] => True
  | last, s, call :: rest => (call.drives cfg s → HasTicks cfg (call.beat cfg last)) ∧
      ∃ t, (call.prog cfg).run s = .done () t ∧ DrivenWithTicks cfg (call.beat cfg last) t rest

-- An accepted count fits the register's 16 bits and vanishes only with the ticks.
theorem divisor_for_count (count divisor : Nat) (found : divisorFor count = some divisor) :
    count / divisor < 0x10000 ∧ (count / divisor = 0 ↔ count = 0) := by
  have cases' := divisor_found count
  rw [found] at cases'
  cases cases' with
  | fits _ low high bound whole small =>
      refine ⟨bound, ?_⟩
      rw [Nat.div_eq_zero_iff_lt low]
      omega
  | exit large bound => omega

theorem heartbeat_count (cfg : WdtConfig) (timeout : Int) (count : Nat) (computed : heartbeat cfg timeout = some count) :
    count < 0x10000 ∧ (count = 0 ↔ ticks cfg timeout = 0) := by
  unfold heartbeat at computed
  split at computed
  · contradiction
  · obtain ⟨divisor, found, rfl⟩ := Option.map_eq_some_iff.mp computed
    exact divisor_for_count (ticks cfg timeout) divisor found

-- Between calls wdt_count is what the last accepted timeout computed.
def Counted (cfg : WdtConfig) (last : Option Int) (s : WdtState) : Prop :=
  match last with
  | none => s.wdtCount = 0
  | some timeout => heartbeat cfg timeout = some s.wdtCount

theorem is_last_count_iff (cfg : WdtConfig) (last : Option Int) (s : WdtState) (counted : Counted cfg last s) :
    IsLastCount cfg last (BitVec.ofNat 32 s.wdtCount) ↔ HasTicks cfg last := by
  cases last with
  | none => simp [IsLastCount, HasTicks]
  | some timeout =>
      have computed : heartbeat cfg timeout = some s.wdtCount := counted
      obtain ⟨fits, zero⟩ := heartbeat_count cfg timeout s.wdtCount computed
      have vanishes : BitVec.ofNat 32 s.wdtCount = 0 ↔ s.wdtCount = 0 := by
        constructor
        · intro same
          have := congrArg BitVec.toNat same
          simp only [BitVec.toNat_ofNat, BitVec.ofNat_eq_ofNat, Nat.zero_mod] at this
          omega
        · rintro same
          rw [same]
          rfl
      constructor
      · rintro ⟨nonzero, -⟩
        exact ⟨timeout, rfl, mt (zero.mpr · |> vanishes.mpr) nonzero⟩
      · rintro ⟨_, same, nonzero⟩
        obtain rfl := Option.some.inj same
        exact ⟨mt (zero.mp <| vanishes.mp ·) nonzero, timeout, s.wdtCount, rfl, computed, rfl⟩

theorem loads_nothing (cfg : WdtConfig) (last : Option Int) (label : WdtStep) (s t : WdtState)
    (unlocked : ∀ critical, label ≠ .wdtLock critical) (still : enabled cfg t ↔ enabled cfg s)
    (counter : t.regs .wtcnt = s.regs .wtcnt) : LoadsLastCount cfg last label s t := by
  constructor
  · rintro (start | ⟨keepalive, -⟩)
    · exact absurd start (unlocked _)
    · exact absurd keepalive (unlocked _)
  · exact fun _ on => ⟨still.mp on, counter⟩

section Goes

variable (cfg : WdtConfig) (last : Option Int) (s : WdtState)

theorem goes_keepalive (counted : Counted cfg last s) :
    watchdogKeepalive.Goes (LoadsLastCount cfg last) s () (s.write .wtcnt (BitVec.ofNat 32 s.wdtCount))
      (enabled cfg s → HasTicks cfg last) := by
  apply Prog.goes_atomic
  · rfl
  · simp only [LoadsLastCount, LoadsCounter, reduceCtorEq, WdtStep.wdtLock.injEq, false_or, true_and, write_regs_same,
      is_last_count_iff cfg last s counted, enabled_keepalive, and_iff_left_iff_imp]
    exact fun _ idle on => absurd on idle

theorem goes_start (counted : Counted cfg last s) :
    ∃ t, (watchdogStart cfg).Goes (LoadsLastCount cfg last) s () t (HasTicks cfg last) ∧ t.wdtCount = s.wdtCount := by
  refine ⟨_, Prog.goes_atomic _ _ _ s _ () _ rfl ?_, by simp⟩
  rw [← is_last_count_iff cfg last s counted]
  simp [LoadsLastCount, LoadsCounter]

theorem goes_stop :
    (watchdogStop cfg).Goes (LoadsLastCount cfg last) s ()
      (s.write .wtcon (s.regs .wtcon &&& ~~~(enableBit cfg ||| rstenBit cfg))) True := by
  apply Prog.goes_atomic
  · rfl
  · refine iff_of_true ⟨?_, fun _ on => ?_⟩ trivial
    · rintro (start | ⟨keepalive, -⟩) <;> contradiction
    · simp only [enabled, write_regs_same, stop_disables, Bool.false_eq_true] at on

theorem goes_look_margin :
    (Prog.look .readMargin (·.tmrMargin) : WdtProg Int).Goes (LoadsLastCount cfg last) s s.tmrMargin s True :=
  Prog.goes_look _ _ _ s True (iff_of_true (loads_nothing cfg last _ s s (by simp) Iff.rfl rfl) trivial)

theorem goes_set_expect_close (value : Int) :
    (setExpectClose value).Goes (LoadsLastCount cfg last) s () { s with expectClose := value } True :=
  Prog.goes_modify _ _ _ s True (iff_of_true (loads_nothing cfg last _ _ _ (by simp) Iff.rfl rfl) trivial)

theorem goes_program_heartbeat (timeout : Int) (count divisor : Nat) :
    ∃ t, (programHeartbeat timeout count divisor).Goes (LoadsLastCount cfg last) s 0 t True ∧
      t.wdtCount = count / divisor ∧ (enabled cfg t ↔ enabled cfg s) := by
  have quiet := loads_nothing cfg last
  have kept : ∀ wtcon : BitVec 32, (wtcon &&& ~~~prescaleMask ||| prescale (divisor - 1)).getLsbD cfg.layout.enable =
      wtcon.getLsbD cfg.layout.enable := fun wtcon => prescaled_control_bit wtcon _ _ cfg.layout.enableLow
  refine ⟨_, ⟨run_program_heartbeat timeout count divisor s, iff_of_true ?_ trivial⟩, by simp, ?_⟩
  · simp only [programHeartbeat, Prog.along_bind, Prog.along_modify, Prog.run_modify, readl, writel, Prog.along_look,
      Prog.run_look, Outcome.done.injEq, and_imp, forall_eq', forall_const, forall_apply_eq_imp_iff, Prog.along_pure,
      and_true, implies_true]
    refine ⟨quiet _ _ _ (by simp) Iff.rfl rfl, quiet _ _ _ (by simp) Iff.rfl rfl, quiet _ _ _ (by simp) Iff.rfl rfl,
      quiet _ _ _ (by simp) (by simp [enabled]) (by simp), quiet _ _ _ (by simp) ?_ (by simp)⟩
    simp [enabled, kept]
  · simp [enabled, kept]

theorem goes_set_heartbeat (timeout : Int) :
    match heartbeat cfg timeout with
    | none => (watchdogSetHeartbeat cfg timeout).Goes (LoadsLastCount cfg last) s (-einval) s True
    | some count => ∃ t, (watchdogSetHeartbeat cfg timeout).Goes (LoadsLastCount cfg last) s 0 t True ∧
        t.wdtCount = count ∧ (enabled cfg t ↔ enabled cfg s) := by
  unfold heartbeat watchdogSetHeartbeat
  by_cases low : timeout < 1
  · simpa only [if_pos low] using Prog.goes_pure _ _ s
  · simp only [if_neg low]
    cases divisorFor (ticks cfg timeout) with
    | none => exact Prog.goes_pure _ _ s
    | some divisor => exact goes_program_heartbeat cfg last s timeout (ticks cfg timeout) divisor

theorem goes_scan_magic (bytes : List (Option UInt8)) :
    ∃ expect, (scanMagic bytes).Goes (LoadsLastCount cfg last) s (decide (none ∈ bytes))
      { s with expectClose := expect } True := by
  induction bytes generalizing s with
  | nil => exact ⟨s.expectClose, Prog.goes_pure _ _ s⟩
  | cons c rest ih =>
      rcases c with _ | c
      · exact ⟨s.expectClose, by simpa [scanMagic] using Prog.goes_pure _ _ s⟩
      · by_cases magic : c = 'V'.toUInt8
        · obtain ⟨expect, later⟩ := ih { s with expectClose := 42 }
          have all : (setExpectClose 42 >>= fun _ => scanMagic rest).Goes (LoadsLastCount cfg last) s _ _ _ :=
            Prog.goes_bind _ (goes_set_expect_close cfg last s 42) later
          exact ⟨expect, by simpa [scanMagic, magic] using all⟩
        · obtain ⟨expect, later⟩ := ih s
          exact ⟨expect, by simpa [scanMagic, magic, Prog.pure_then] using later⟩

end Goes

theorem counted_frame (cfg : WdtConfig) (last : Option Int) (s t : WdtState) (counted : Counted cfg last s)
    (same : t.wdtCount = s.wdtCount) : Counted cfg last t := by
  cases last with
  | none => exact same.trans counted
  | some timeout => exact counted.trans (congrArg some same.symm)

def CallMeets (cfg : WdtConfig) (last : Option Int) (call : WdtCall) (s : WdtState) : Prop :=
  ∃ t, Counted cfg (call.beat cfg last) t ∧ (call.prog cfg).Goes (LoadsLastCount cfg (call.beat cfg last)) s () t
    (call.drives cfg s → HasTicks cfg (call.beat cfg last))

theorem goes_test_and_set (cfg : WdtConfig) (last : Option Int) (s : WdtState) :
    testAndSetOpenLock.Goes (LoadsLastCount cfg last) s s.openLock { s with openLock := true } True := by
  have quiet : LoadsLastCount cfg last .openLock s { s with openLock := true } :=
    loads_nothing cfg last _ s _ (by simp) Iff.rfl rfl
  exact ⟨rfl, iff_of_true (fun _ => ⟨quiet, trivial⟩) trivial⟩

theorem meets_of_goes {α : Type} (cfg : WdtConfig) (last : Option Int) (call : WdtCall) (s t : WdtState)
    (body : WdtProg α) (a : α) (needs : Prop) (same : call.prog cfg = body >>= fun _ => pure ())
    (goes : body.Goes (LoadsLastCount cfg (call.beat cfg last)) s a t needs)
    (counted : Counted cfg (call.beat cfg last) t)
    (iff : needs ↔ (call.drives cfg s → HasTicks cfg (call.beat cfg last))) : CallMeets cfg last call s := by
  refine ⟨t, counted, ?_⟩
  rw [same]
  refine Prog.goes_congr _ (Prog.goes_bind _ goes (Prog.goes_pure _ () t)) ?_
  rw [and_true]
  exact iff

theorem opening_meets (cfg : WdtConfig) (last : Option Int) (s : WdtState) (counted : Counted cfg last s) :
    CallMeets cfg last .opening s := by
  have taken := goes_test_and_set cfg last s
  by_cases locked : s.openLock = true
  · rw [locked] at taken
    have refused : (watchdogOpen cfg).Goes (LoadsLastCount cfg last) s (-ebusy) { s with openLock := true } _ :=
      Prog.goes_bind _ taken (Prog.goes_pure _ _ _)
    exact meets_of_goes cfg last _ s _ _ _ _ rfl refused counted (by simp [WdtCall.drives, locked])
  · have free : s.openLock = false := by simpa using locked
    rw [free] at taken
    obtain ⟨t, started, same⟩ := goes_start cfg last { s with openLock := true, expectClose := 0 } counted
    have opened : (watchdogOpen cfg).Goes (LoadsLastCount cfg last) s 0 t _ :=
      Prog.goes_bind _ taken (Prog.goes_bind _ (goes_set_expect_close cfg last _ 0)
        (Prog.goes_bind _ started (Prog.goes_pure _ _ _)))
    exact meets_of_goes cfg last _ s t _ _ _ rfl opened (counted_frame cfg last s t counted same)
      (by simp [WdtCall.drives, WdtCall.beat, free])

theorem goes_arm_magic (cfg : WdtConfig) (last : Option Int) (data : List (Option UInt8)) (s : WdtState) :
    ∃ expect, (armMagic cfg data).Goes (LoadsLastCount cfg last) s (decide (cfg.nowayout = 0 ∧ none ∈ data))
      { s with expectClose := expect } True := by
  by_cases way : cfg.nowayout = 0
  · obtain ⟨expect, scanned⟩ := goes_scan_magic cfg last { s with expectClose := 0 } data
    have all : (setExpectClose 0 >>= fun _ => scanMagic data).Goes (LoadsLastCount cfg last) s _ _ _ :=
      Prog.goes_bind _ (goes_set_expect_close cfg last s 0) scanned
    exact ⟨expect, by simpa [armMagic, way] using all⟩
  · exact ⟨s.expectClose, by simpa [armMagic, way] using Prog.goes_pure (LoadsLastCount cfg last) false s⟩

theorem write_meets (cfg : WdtConfig) (last : Option Int) (data : List (Option UInt8)) (s : WdtState)
    (counted : Counted cfg last s) : CallMeets cfg last (.write data) s := by
  by_cases empty : data = []
  · have nothing : (watchdogWrite cfg data).Goes (LoadsLastCount cfg last) s 0 s True := by
      simpa [watchdogWrite, empty] using Prog.goes_pure (LoadsLastCount cfg last) (0 : Int) s
    exact meets_of_goes cfg last _ s s _ _ _ rfl nothing counted (by simp [WdtCall.drives, empty])
  · obtain ⟨expect, armed⟩ := goes_arm_magic cfg last data s
    have body : watchdogWrite cfg data = armMagic cfg data >>= fun faulted =>
        if faulted then pure (-efault) else watchdogKeepalive >>= fun _ => pure data.length := if_neg empty
    by_cases faulted : cfg.nowayout = 0 ∧ none ∈ data
    · rw [decide_eq_true faulted] at armed
      have refused := body ▸ Prog.goes_bind _ armed (Prog.goes_pure _ (-efault) _)
      exact meets_of_goes cfg last _ s _ _ _ _ rfl refused counted (by simp [WdtCall.drives, faulted])
    · rw [decide_eq_false faulted] at armed
      have reloaded := goes_keepalive cfg last { s with expectClose := expect } counted
      have written := body ▸ Prog.goes_bind _ armed (Prog.goes_bind _ reloaded (Prog.goes_pure _ (data.length : Int) _))
      have reads : cfg.nowayout = 0 → none ∉ data := fun way missing => faulted ⟨way, missing⟩
      refine meets_of_goes cfg last _ s _ _ _ _ rfl written counted ?_
      have drives : (WdtCall.write data).drives cfg s ↔ enabled cfg s :=
        ⟨fun drives => drives.2.2, fun on => ⟨empty, reads, on⟩⟩
      rw [drives, true_and, and_true]
      exact Iff.rfl

theorem settimeout_meets (cfg : WdtConfig) (last : Option Int) (p : UserInt) (s : WdtState)
    (counted : Counted cfg last s) : CallMeets cfg last (.ioctl .settimeout p) s := by
  by_cases readable : p.readable = true
  · have beat := goes_set_heartbeat cfg ((WdtCall.ioctl .settimeout p).beat cfg last) s p.value
    have body : watchdogIoctl cfg .settimeout p = watchdogSetHeartbeat cfg p.value >>= fun refused =>
        if refused ≠ 0 then pure (-einval, none)
        else watchdogKeepalive >>= fun _ => Prog.look .readMargin (·.tmrMargin) >>= fun margin =>
          pure (putUser p margin) := if_pos readable
    cases computed : heartbeat cfg p.value with
    | none =>
        rw [computed] at beat
        have refused := body ▸ Prog.goes_bind _ beat (Prog.goes_pure _ (-einval, none) _)
        exact meets_of_goes cfg last _ s s _ _ _ rfl refused (by simpa [WdtCall.beat, computed] using counted)
          (by simp [WdtCall.drives, computed])
    | some count =>
        rw [computed] at beat
        obtain ⟨t, set, same, running⟩ := beat
        have now : Counted cfg ((WdtCall.ioctl .settimeout p).beat cfg last) t := by
          simp [WdtCall.beat, readable, computed, Counted, same]
        have reset := body ▸ Prog.goes_bind _ set (Prog.goes_bind _ (goes_keepalive cfg _ t now)
          (Prog.goes_bind _ (goes_look_margin cfg _ _) (Prog.goes_pure _ (putUser p t.tmrMargin) _)))
        exact meets_of_goes cfg last _ s _ _ _ _ rfl reset (counted_frame cfg _ t _ now rfl)
          (by simp [WdtCall.drives, readable, computed, running])
  · have refused : (watchdogIoctl cfg .settimeout p).Goes
        (LoadsLastCount cfg ((WdtCall.ioctl .settimeout p).beat cfg last)) s (-efault, none) s True := by
      simp only [watchdogIoctl, if_neg readable]
      exact Prog.goes_pure _ _ s
    exact meets_of_goes cfg last _ s s _ _ _ rfl refused (by simpa [WdtCall.beat, readable] using counted)
      (by simp [WdtCall.drives, readable])

theorem ioctl_meets (cfg : WdtConfig) (last : Option Int) (cmd : WdtCmd) (p : UserInt) (s : WdtState)
    (counted : Counted cfg last s) : CallMeets cfg last (.ioctl cmd p) s := by
  cases cmd with
  | settimeout => exact settimeout_meets cfg last p s counted
  | keepalive =>
      have reloaded : (watchdogIoctl cfg .keepalive p).Goes (LoadsLastCount cfg last) s (0, none) _ _ :=
        Prog.goes_bind _ (goes_keepalive cfg last s counted) (Prog.goes_pure _ _ _)
      exact meets_of_goes cfg last _ s _ _ _ _ rfl reloaded counted (by simp [WdtCall.drives, WdtCall.beat])
  | gettimeout =>
      have read : (watchdogIoctl cfg .gettimeout p).Goes (LoadsLastCount cfg last) s (putUser p s.tmrMargin) s _ :=
        Prog.goes_bind _ (goes_look_margin cfg last s) (Prog.goes_pure _ _ _)
      exact meets_of_goes cfg last _ s _ _ _ _ rfl read counted (by simp [WdtCall.drives])
  | getsupport => exact meets_of_goes cfg last _ s _ _ _ _ rfl (Prog.goes_pure _ _ s) counted (by simp [WdtCall.drives])
  | getstatus => exact meets_of_goes cfg last _ s _ _ _ _ rfl (Prog.goes_pure _ _ s) counted (by simp [WdtCall.drives])
  | getbootstatus =>
      exact meets_of_goes cfg last _ s _ _ _ _ rfl (Prog.goes_pure _ _ s) counted (by simp [WdtCall.drives])
  | other code => exact meets_of_goes cfg last _ s _ _ _ _ rfl (Prog.goes_pure _ _ s) counted (by simp [WdtCall.drives])

theorem release_meets (cfg : WdtConfig) (last : Option Int) (s : WdtState) (counted : Counted cfg last s) :
    CallMeets cfg last .release s := by
  have looked : (Prog.look .expectClose (·.expectClose) : WdtProg Int).Goes (LoadsLastCount cfg last) s
      s.expectClose s True :=
    Prog.goes_look _ _ _ s True (iff_of_true (loads_nothing cfg last _ s s (by simp) Iff.rfl rfl) trivial)
  have cleared : ∀ u, clearOpenLock.Goes (LoadsLastCount cfg last) u () { u with openLock := false } True := fun u =>
    Prog.goes_modify _ _ _ u True (iff_of_true (loads_nothing cfg last _ u _ (by simp) Iff.rfl rfl) trivial)
  have ending : ∀ u, Prog.Goes (LoadsLastCount cfg last) (setExpectClose 0 >>= fun _ => clearOpenLock >>= fun _ => pure 0)
      u (0 : Int) { u with expectClose := 0, openLock := false } (True ∧ True ∧ True) := fun u =>
    Prog.goes_bind _ (goes_set_expect_close cfg last u 0) (Prog.goes_bind _ (cleared _) (Prog.goes_pure _ 0 _))
  by_cases armed : s.expectClose = 42
  · have stopped : (watchdogRelease cfg).Goes (LoadsLastCount cfg last) s 0 _ _ :=
      Prog.goes_bind _ looked (by rw [if_pos armed]; exact Prog.goes_bind _ (goes_stop cfg last s) (ending _))
    exact meets_of_goes cfg last _ s _ _ _ _ rfl stopped counted (by simp [WdtCall.drives, armed])
  · have kept : (watchdogRelease cfg).Goes (LoadsLastCount cfg last) s 0 _ _ :=
      Prog.goes_bind _ looked
        (by rw [if_neg armed]; exact Prog.goes_bind _ (goes_keepalive cfg last s counted) (ending _))
    exact meets_of_goes cfg last _ s _ _ _ _ rfl kept counted (by simp [WdtCall.drives, WdtCall.beat, armed])

theorem call_meets (cfg : WdtConfig) (last : Option Int) (call : WdtCall) (s : WdtState) (counted : Counted cfg last s) :
    CallMeets cfg last call s := by
  cases call with
  | opening => exact opening_meets cfg last s counted
  | write data => exact write_meets cfg last data s counted
  | ioctl cmd p => exact ioctl_meets cfg last cmd p s counted
  | irq => exact ⟨s.write .wtcnt (BitVec.ofNat 32 s.wdtCount), counted, goes_keepalive cfg last s counted⟩
  | release => exact release_meets cfg last s counted

-- What the boot-time start needs: it is taken only after an accepted margin.
def BootTicks (cfg : WdtConfig) (margin : Int) : Prop :=
  cfg.tmrAtboot ≠ 0 → ∀ timeout, probedTimeout cfg margin = some timeout → ticks cfg timeout ≠ 0

theorem goes_initial_heartbeat (cfg : WdtConfig) (last : Option Int) (s : WdtState) (fresh : s.wdtCount = 0) :
    ∃ started t, (initialHeartbeat cfg).Goes (LoadsLastCount cfg last) s started t True ∧
      Counted cfg (probedTimeout cfg s.tmrMargin) t ∧ (started = 0 ↔ (probedTimeout cfg s.tmrMargin).isSome) := by
  have first := goes_set_heartbeat cfg last s s.tmrMargin
  cases requested : heartbeat cfg s.tmrMargin with
  | some count =>
      rw [requested] at first
      obtain ⟨t, set, same, -⟩ := first
      have all : (initialHeartbeat cfg).Goes (LoadsLastCount cfg last) s 0 t _ :=
        Prog.goes_bind _ (goes_look_margin cfg last s) (Prog.goes_bind _ set (Prog.goes_pure _ _ _))
      exact ⟨0, t, Prog.goes_congr _ all (by simp), by simp [probedTimeout, requested, Counted, same],
        by simp [probedTimeout, requested]⟩
  | none =>
      rw [requested] at first
      have second := goes_set_heartbeat cfg last s defaultTime
      cases default : heartbeat cfg defaultTime with
      | some count =>
          rw [default] at second
          obtain ⟨t, set, same, -⟩ := second
          have all : (initialHeartbeat cfg).Goes (LoadsLastCount cfg last) s 0 t _ :=
            Prog.goes_bind _ (goes_look_margin cfg last s) (Prog.goes_bind _ first set)
          exact ⟨0, t, Prog.goes_congr _ all (by simp), by simp [probedTimeout, requested, default, Counted, same],
            by simp [probedTimeout, requested, default]⟩
      | none =>
          rw [default] at second
          have all : (initialHeartbeat cfg).Goes (LoadsLastCount cfg last) s (-einval) s _ :=
            Prog.goes_bind _ (goes_look_margin cfg last s) (Prog.goes_bind _ first second)
          exact ⟨-einval, s, Prog.goes_congr _ all (by simp),
            by simp [probedTimeout, requested, default, Counted, fresh],
            by simp [probedTimeout, requested, default, einval]⟩

theorem goes_boot_timer (cfg : WdtConfig) (last : Option Int) (started : Int) (s : WdtState)
    (counted : Counted cfg last s) :
    ∃ t, (bootTimer cfg started).Goes (LoadsLastCount cfg last) s () t
      (cfg.tmrAtboot ≠ 0 ∧ started = 0 → HasTicks cfg last) ∧ Counted cfg last t := by
  by_cases boots : cfg.tmrAtboot ≠ 0 ∧ started = 0
  · obtain ⟨t, went, same⟩ := goes_start cfg last s counted
    simp only [bootTimer, if_pos boots]
    exact ⟨t, Prog.goes_congr _ went (by simp [boots]), counted_frame cfg last s t counted same⟩
  · simp only [bootTimer, if_neg boots]
    split
    · exact ⟨_, Prog.goes_congr _ (goes_stop cfg last s) (by simp [boots]), counted⟩
    · exact ⟨s, Prog.goes_congr _ (Prog.goes_pure _ () s) (by simp [boots]), counted⟩

theorem probe_meets (cfg : WdtConfig) (margin : Int) (regs : WdtReg → BitVec 32) :
    ∃ s, (watchdogProbeTimer cfg 0).Goes (LoadsLastCount cfg (probedTimeout cfg margin)) (loadedWdt margin regs) 0 s
      (BootTicks cfg margin) ∧ Counted cfg (probedTimeout cfg margin) s := by
  obtain ⟨started, t, set, counted, ok⟩ :=
    goes_initial_heartbeat cfg (probedTimeout cfg margin) (loadedWdt margin regs) rfl
  obtain ⟨u, booted, kept⟩ := goes_boot_timer cfg (probedTimeout cfg margin) started t counted
  have probed : (watchdogProbeTimer cfg 0).Goes (LoadsLastCount cfg (probedTimeout cfg margin)) (loadedWdt margin regs)
      0 u _ := Prog.goes_bind _ set (Prog.goes_bind _ booted (Prog.goes_pure _ _ _))
  refine ⟨u, Prog.goes_congr _ probed ?_, kept⟩
  have same : (loadedWdt margin regs).tmrMargin = margin := rfl
  rw [same] at ok
  rw [ok]
  cases accepted : probedTimeout cfg margin <;> simp [BootTicks, HasTicks, accepted]

theorem count_law_driven (cfg : WdtConfig) (calls : List WdtCall) (last : Option Int) (s : WdtState)
    (counted : Counted cfg last s) : CountLaw cfg last s calls ↔ DrivenWithTicks cfg last s calls := by
  induction calls generalizing last s with
  | nil => exact Iff.rfl
  | cons call rest ih =>
      obtain ⟨t, kept, goes⟩ := call_meets cfg last call s counted
      have later : ∀ u, (call.prog cfg).run s = .done () u →
          (CountLaw cfg (call.beat cfg last) u rest ↔ DrivenWithTicks cfg (call.beat cfg last) u rest) := by
        intro u ran
        obtain rfl : t = u := by simpa [goes.ran] using ran
        exact ih (call.beat cfg last) t kept
      exact and_congr goes.meets (exists_congr fun u => and_congr_right (later u))

theorem counter_law_iff (cfg : WdtConfig) (margin : Int) (regs : WdtReg → BitVec 32) (calls : List WdtCall) :
    ∃ s, (watchdogProbeTimer cfg 0).run (loadedWdt margin regs) = .done 0 s ∧
      ((watchdogProbeTimer cfg 0).along (LoadsLastCount cfg (probedTimeout cfg margin)) (loadedWdt margin regs) ∧
          CountLaw cfg (probedTimeout cfg margin) s calls ↔
        BootTicks cfg margin ∧ DrivenWithTicks cfg (probedTimeout cfg margin) s calls) := by
  obtain ⟨s, probed, counted⟩ := probe_meets cfg margin regs
  exact ⟨s, probed.ran, and_congr probed.meets (count_law_driven cfg calls _ s counted)⟩

-- Where neither margin was set the first open starts the timer on no count.
theorem refused_margins_break (cfg : WdtConfig) (margin : Int) (regs : WdtReg → BitVec 32)
    (refused : probedTimeout cfg margin = none) :
    ∃ s, (watchdogProbeTimer cfg 0).run (loadedWdt margin regs) = .done 0 s ∧
      ¬ CountLaw cfg (probedTimeout cfg margin) s [.opening] := by
  obtain ⟨s, probed, counted⟩ := probe_meets cfg margin regs
  obtain ⟨_, t, again, rfl, idle⟩ := (Prog.wp_iff_run _ _ _).mp (probe_starts_no_session cfg margin regs)
  obtain rfl : s = t := by simpa [probed.ran] using again
  refine ⟨s, probed.ran, fun law => ?_⟩
  obtain ⟨timeout, last, -⟩ := ((count_law_driven cfg [.opening] _ s counted).mp law).1 idle.locked
  exact absurd last (by simp [WdtCall.beat, refused])

-- At 150 MHz 15 seconds are too many ticks, and probe says that it cannot start.
def fastConfig : WdtConfig := ⟨s3c2410Wtcon, 0, 0, 0, 150000000⟩

theorem open_after_refused_margins :
    ∃ s, (watchdogProbeTimer fastConfig 0).run (loadedWdt 15 fun _ => 0) = .done 0 s ∧
      ¬ CountLaw fastConfig (probedTimeout fastConfig 15) s [.opening] := by
  have refused : probedTimeout fastConfig 15 = none := by decide +kernel
  exact refused_margins_break fastConfig 15 (fun _ => 0) refused

end OneDriver.Watchdog
