import OneDriver.Watchdog.Device
import Mathlib.Tactic.IntervalCases

set_option autoImplicit false

namespace OneDriver.Watchdog

inductive WdtOp where
  | opening
  | write (data : List UInt8)
  | ioctl (cmd : WdtCmd) (p : UserInt)
  | irq
  | release
deriving DecidableEq, Repr

def WdtOp.call (cfg : WdtConfig) : WdtOp → WdtProg Int
  | .opening => watchdogOpen cfg
  | .write data => watchdogWrite cfg (data.map some)
  | .ioctl cmd p => do
      let r ← watchdogIoctl cfg cmd p
      pure r.1
  | .irq => do
      watchdogIrq
      pure 0
  | .release => watchdogRelease cfg

-- The run as the users see it: whether a session is open, whether one ever was,
-- and the last write of the session that had any bytes.
structure Session where
  inSession : Bool
  everOpened : Bool
  lastWrite : List UInt8
deriving DecidableEq, Repr

def Session.next (h : Session) : WdtOp → Session
  | .opening => if h.inSession then h else ⟨true, true, []⟩
  | .write data => if data = [] then h else { h with lastWrite := data }
  | .ioctl _ _ => h
  | .irq => h
  | .release => { h with inSession := false, lastWrite := [] }

def Session.allows (h : Session) : WdtOp → Prop
  | .release => h.inSession = true
  | _ => True

def noSession : Session := ⟨false, false, []⟩

def sessions (ops : List WdtOp) : Session := ops.foldl Session.next noSession

def enabled (cfg : WdtConfig) (s : WdtState) : Prop := (s.regs .wtcon).getLsbD cfg.layout.enable = true

def Session.magic (cfg : WdtConfig) (h : Session) : Prop := cfg.nowayout = 0 ∧ 'V'.toUInt8 ∈ h.lastWrite

structure SessionInvariant (cfg : WdtConfig) (h : Session) (s : WdtState) : Prop where
  locked : s.openLock = h.inSession
  armed : s.expectClose = 42 ↔ h.magic cfg
  running : h.inSession = true → enabled cfg s
  lockedIn : cfg.nowayout ≠ 0 → h.everOpened = true → enabled cfg s

theorem prescaled_control_bit (wtcon : BitVec 32) (divisor i : Nat) (low : i < 8) :
    (wtcon &&& ~~~prescaleMask ||| prescale divisor).getLsbD i = wtcon.getLsbD i := by
  have outside : prescaleMask.getLsbD i = false := by
    interval_cases i <;> rfl
  simp only [prescale, BitVec.getLsbD_or, BitVec.getLsbD_and, BitVec.getLsbD_not, outside, BitVec.getLsbD_shiftLeft, low]
  simp [show i < 32 by omega]

theorem start_control_enabled (cfg : WdtConfig) (wtcon : BitVec 32) :
    (startControl cfg wtcon).getLsbD cfg.layout.enable = true := by
  have low := cfg.layout.enableLow
  have width : cfg.layout.enable < 32 := by omega
  unfold startControl
  split
  · simpa [enableBit, rstenBit, intenBit, width] using cfg.layout.enableRsten
  · simpa [enableBit, rstenBit, intenBit, width] using Or.inl cfg.layout.enableInten

theorem stop_disables (cfg : WdtConfig) (wtcon : BitVec 32) :
    (wtcon &&& ~~~(enableBit cfg ||| rstenBit cfg)).getLsbD cfg.layout.enable = false := by
  have low := cfg.layout.enableLow
  simp only [enableBit, BitVec.getLsbD_and, BitVec.getLsbD_not, BitVec.getLsbD_or, BitVec.getLsbD_twoPow]
  simp [show cfg.layout.enable < 32 by omega]

theorem run_watchdog_start (cfg : WdtConfig) (s : WdtState) :
    ∃ t, (watchdogStart cfg).run s = .done () t ∧ enabled cfg t ∧ t.openLock = s.openLock ∧
      t.expectClose = s.expectClose := by
  refine ⟨_, by simp only [watchdogStart, watchdogStopLocked, Prog.run_atomic, Prog.run_bind, run_readl, run_writel,
    Prog.run_look, outcome_bind_done, ne_eq, reduceCtorEq, not_false_eq_true, implies_true]; rfl, ?_, by simp, by simp⟩
  rw [enabled, write_regs_same]
  exact start_control_enabled cfg _

-- A heartbeat touches neither the lock nor expect_close, and keeps ENABLE.
theorem run_set_heartbeat_frame (cfg : WdtConfig) (timeout : Int) (s : WdtState) :
    ∃ r t, (watchdogSetHeartbeat cfg timeout).run s = .done r t ∧ (enabled cfg t ↔ enabled cfg s) ∧
      t.openLock = s.openLock ∧ t.expectClose = s.expectClose := by
  unfold watchdogSetHeartbeat
  split
  · exact ⟨_, s, rfl, Iff.rfl, rfl, rfl⟩
  · split
    · exact ⟨_, s, rfl, Iff.rfl, rfl, rfl⟩
    · refine ⟨0, _, run_program_heartbeat _ _ _ s, ?_, by simp, by simp⟩
      rw [enabled, write_regs_same, prescaled_control_bit _ _ _ cfg.layout.enableLow, enabled]

theorem enabled_keepalive (cfg : WdtConfig) (s : WdtState) (value : BitVec 32) :
    enabled cfg (s.write .wtcnt value) ↔ enabled cfg s := by
  simp [enabled]

theorem session_frame (cfg : WdtConfig) (h : Session) (s t : WdtState) (holds : SessionInvariant cfg h s)
    (running : enabled cfg t ↔ enabled cfg s) (locked : t.openLock = s.openLock)
    (armed : t.expectClose = s.expectClose) : SessionInvariant cfg h t where
  locked := locked.trans holds.locked
  armed := armed ▸ holds.armed
  running := fun inside => running.mpr (holds.running inside)
  lockedIn := fun kept opened => running.mpr (holds.lockedIn kept opened)

theorem opening_keeps (cfg : WdtConfig) (h : Session) (s : WdtState) (holds : SessionInvariant cfg h s) :
    (watchdogOpen cfg).wp (fun _ t => SessionInvariant cfg (h.next .opening) t) s := by
  refine (Prog.wp_iff_run _ _ _).mpr ?_
  have locked := holds.locked
  by_cases inside : h.inSession = true
  · refine ⟨-ebusy, { s with openLock := true }, by simp [watchdogOpen, locked, inside], ?_⟩
    simp only [Session.next, if_pos inside]
    exact session_frame cfg h s _ holds Iff.rfl (locked.trans inside).symm rfl
  · obtain ⟨t, ran, on, lock, expect⟩ := run_watchdog_start cfg { s with openLock := true, expectClose := 0 }
    refine ⟨0, t, by simp [watchdogOpen, locked, inside, ran], ?_⟩
    simp only [Session.next, if_neg inside]
    exact ⟨lock, by simp [expect, Session.magic], fun _ => on, fun _ _ => on⟩

theorem write_keeps (cfg : WdtConfig) (h : Session) (data : List UInt8) (s : WdtState)
    (holds : SessionInvariant cfg h s) :
    (watchdogWrite cfg (data.map some)).wp (fun _ t => SessionInvariant cfg (h.next (.write data)) t) s := by
  refine (Prog.wp_iff_run _ _ _).mpr ?_
  by_cases empty : data = []
  · exact ⟨0, s, by simp [watchdogWrite, empty], by simpa [Session.next, empty] using holds⟩
  · have next : h.next (.write data) = { h with lastWrite := data } := by simp [Session.next, empty]
    by_cases way : cfg.nowayout = 0
    · refine ⟨data.length, _, by simp [watchdogWrite, empty, armMagic, way, run_scan_magic]; rfl, ?_⟩
      rw [next]
      refine ⟨holds.locked, ?_, fun inside => ?_, fun kept => absurd way kept⟩
      · by_cases magic : 'V'.toUInt8 ∈ data <;> simp [Session.magic, way, magic]
      · exact (enabled_keepalive cfg _ _).mpr (holds.running inside)
    · refine ⟨data.length, _, by simp [watchdogWrite, empty, armMagic, way]; rfl, ?_⟩
      have same : SessionInvariant cfg { h with lastWrite := data } s :=
        ⟨holds.locked, by simpa [Session.magic, way] using holds.armed, holds.running, holds.lockedIn⟩
      rw [next]
      exact session_frame cfg _ s _ same (enabled_keepalive cfg s _) rfl rfl

theorem run_ioctl_frame (cfg : WdtConfig) (cmd : WdtCmd) (p : UserInt) (s : WdtState) :
    ∃ r t, (watchdogIoctl cfg cmd p).run s = .done r t ∧ (enabled cfg t ↔ enabled cfg s) ∧
      t.openLock = s.openLock ∧ t.expectClose = s.expectClose := by
  cases cmd with
  | getsupport => exact ⟨_, s, rfl, Iff.rfl, rfl, rfl⟩
  | getstatus => exact ⟨_, s, rfl, Iff.rfl, rfl, rfl⟩
  | getbootstatus => exact ⟨_, s, rfl, Iff.rfl, rfl, rfl⟩
  | gettimeout => exact ⟨_, s, rfl, Iff.rfl, rfl, rfl⟩
  | other code => exact ⟨_, s, rfl, Iff.rfl, rfl, rfl⟩
  | keepalive => exact ⟨(0, none), _, by simp [watchdogIoctl]; rfl, enabled_keepalive cfg s _, rfl, rfl⟩
  | settimeout =>
      by_cases readable : p.readable = true
      · obtain ⟨r, t, ran, on, lock, expect⟩ := run_set_heartbeat_frame cfg p.value s
        by_cases refused : r = 0
        · exact ⟨putUser p t.tmrMargin, _, by simp [watchdogIoctl, readable, ran, refused]; rfl,
            (enabled_keepalive cfg t _).trans on, lock, expect⟩
        · exact ⟨(-einval, none), t, by simp [watchdogIoctl, readable, ran, refused], on, lock, expect⟩
      · exact ⟨(-efault, none), s, by simp [watchdogIoctl, readable], Iff.rfl, rfl, rfl⟩

theorem ioctl_keeps (cfg : WdtConfig) (h : Session) (cmd : WdtCmd) (p : UserInt) (s : WdtState)
    (holds : SessionInvariant cfg h s) :
    (watchdogIoctl cfg cmd p).wp (fun _ t => SessionInvariant cfg h t) s := by
  obtain ⟨r, t, ran, on, lock, expect⟩ := run_ioctl_frame cfg cmd p s
  exact (Prog.wp_iff_run _ _ _).mpr ⟨r, t, ran, session_frame cfg h s t holds on lock expect⟩

-- Releasing is where the magic character counts.
theorem run_watchdog_release (cfg : WdtConfig) (h : Session) (s : WdtState) (holds : SessionInvariant cfg h s)
    (inside : h.inSession = true) :
    ∃ t, (watchdogRelease cfg).run s = .done 0 t ∧ t.openLock = false ∧ t.expectClose = 0 ∧
      (enabled cfg t ↔ ¬ h.magic cfg) := by
  by_cases magic : h.magic cfg
  · have armed := holds.armed.mpr magic
    refine ⟨_, by simp [watchdogRelease, armed]; rfl, rfl, rfl, ?_⟩
    simp only [enabled, write_regs_same, stop_disables, magic, not_true, Bool.false_eq_true]
  · have unarmed : s.expectClose ≠ 42 := mt holds.armed.mp magic
    refine ⟨_, by simp [watchdogRelease, unarmed]; rfl, rfl, rfl, ?_⟩
    have still := (enabled_keepalive cfg s (BitVec.ofNat 32 s.wdtCount)).mpr (holds.running inside)
    exact iff_of_true still magic

theorem release_keeps (cfg : WdtConfig) (h : Session) (s : WdtState) (holds : SessionInvariant cfg h s)
    (inside : h.inSession = true) :
    (watchdogRelease cfg).wp (fun _ t => SessionInvariant cfg (h.next .release) t) s := by
  obtain ⟨t, ran, lock, expect, on⟩ := run_watchdog_release cfg h s holds inside
  refine (Prog.wp_iff_run _ _ _).mpr ⟨0, t, ran, lock, by simp [expect, Session.next, Session.magic], by simp [Session.next], ?_⟩
  exact fun kept _ => on.mpr fun magic => kept magic.1

theorem session_op_keeps (cfg : WdtConfig) (h : Session) (op : WdtOp) (s : WdtState)
    (holds : SessionInvariant cfg h s) (allowed : h.allows op) :
    (op.call cfg).wp (fun _ t => SessionInvariant cfg (h.next op) t) s := by
  cases op with
  | opening => exact opening_keeps cfg h s holds
  | write data => exact write_keeps cfg h data s holds
  | ioctl cmd p => simpa [WdtOp.call, Session.next] using ioctl_keeps cfg h cmd p s holds
  | irq =>
      refine (Prog.wp_iff_run _ _ _).mpr ⟨0, _, by simp [WdtOp.call, watchdogIrq]; rfl, ?_⟩
      exact session_frame cfg h s _ holds (enabled_keepalive cfg s _) rfl rfl
  | release => exact release_keeps cfg h s holds allowed

def Idle (s : WdtState) : Prop := s.openLock = false ∧ s.expectClose = 0

theorem set_heartbeat_idle (cfg : WdtConfig) (timeout : Int) (s : WdtState) (idle : Idle s) :
    (watchdogSetHeartbeat cfg timeout).wp (fun _ t => Idle t) s := by
  obtain ⟨r, t, ran, -, lock, expect⟩ := run_set_heartbeat_frame cfg timeout s
  exact (Prog.wp_iff_run _ _ _).mpr ⟨r, t, ran, lock.trans idle.1, expect.trans idle.2⟩

theorem initial_heartbeat_idle (cfg : WdtConfig) (s : WdtState) (idle : Idle s) :
    (initialHeartbeat cfg).wp (fun _ t => Idle t) s := by
  simp only [initialHeartbeat, Prog.wp_bind, Prog.wp_look]
  refine Prog.wp_mono _ _ _ _ s (set_heartbeat_idle cfg s.tmrMargin s idle) fun refused t idle => ?_
  split
  · exact set_heartbeat_idle cfg defaultTime t idle
  · exact idle

theorem boot_timer_idle (cfg : WdtConfig) (started : Int) (s : WdtState) (idle : Idle s) :
    (bootTimer cfg started).wp (fun _ t => Idle t) s := by
  unfold bootTimer
  split
  · obtain ⟨t, ran, -, lock, expect⟩ := run_watchdog_start cfg s
    exact (Prog.wp_iff_run _ _ _).mpr ⟨(), t, ran, lock.trans idle.1, expect.trans idle.2⟩
  · split
    · exact (Prog.wp_iff_run _ _ _).mpr ⟨(), _, run_watchdog_stop cfg s, idle⟩
    · exact idle

-- A successful probe leaves the statics of the session as the load set them.
theorem probe_starts_no_session (cfg : WdtConfig) (margin : Int) (regs : WdtReg → BitVec 32) :
    (watchdogProbeTimer cfg 0).wp (fun r s => r = 0 ∧ SessionInvariant cfg noSession s) (loadedWdt margin regs) := by
  simp only [watchdogProbeTimer, Prog.wp_bind, ne_eq, not_true_eq_false, if_false]
  refine Prog.wp_mono _ _ _ _ _ (initial_heartbeat_idle cfg _ ⟨rfl, rfl⟩) fun started t idle => ?_
  refine Prog.wp_mono _ _ _ _ _ (boot_timer_idle cfg started t idle) fun _ u idle => ⟨rfl, idle.1, ?_, ?_, ?_⟩
  · simp [idle.2, noSession, Session.magic]
  · simp [noSession]
  · simp [noSession]

def probeThen (cfg : WdtConfig) (ops : List WdtOp) : WdtProg (Int × List Int) := do
  let probed ← watchdogProbeTimer cfg 0
  let results ← Prog.series (WdtOp.call cfg) ops
  pure (probed, results)

theorem session_run (cfg : WdtConfig) (margin : Int) (regs : WdtReg → BitVec 32) (ops : List WdtOp)
    (legal : Follows Session.next Session.allows noSession ops) :
    ∃ results s, (probeThen cfg ops).run (loadedWdt margin regs) = .done (0, results) s ∧
      SessionInvariant cfg (sessions ops) s := by
  obtain ⟨r, s, probed, rfl, idle⟩ := (Prog.wp_iff_run _ _ _).mp (probe_starts_no_session cfg margin regs)
  obtain ⟨results, t, ran, holds⟩ := (Prog.wp_iff_run _ _ _).mp <| series_invariant (WdtOp.call cfg) Session.next
    Session.allows (SessionInvariant cfg) (fun h op s holds allowed => session_op_keeps cfg h op s holds allowed)
    ops noSession s idle legal
  exact ⟨results, t, by simp [probeThen, probed, ran], holds⟩

-- Magic close, at the end of any run after a successful probe: what the state
-- owes the session, what a release or a second open would do there.
theorem magic_close_law (cfg : WdtConfig) (margin : Int) (regs : WdtReg → BitVec 32) (ops : List WdtOp)
    (legal : Follows Session.next Session.allows noSession ops) :
    ∃ results s, (probeThen cfg ops).run (loadedWdt margin regs) = .done (0, results) s ∧
      ((sessions ops).inSession = true → enabled cfg s) ∧
      ((sessions ops).inSession = true → ∃ t, (watchdogRelease cfg).run s = .done 0 t ∧
        (¬ enabled cfg t ↔ cfg.nowayout = 0 ∧ 'V'.toUInt8 ∈ (sessions ops).lastWrite)) ∧
      (cfg.nowayout ≠ 0 → (sessions ops).everOpened = true → enabled cfg s) ∧
      ((sessions ops).inSession = true → (watchdogOpen cfg).run s = .done (-ebusy) s) := by
  obtain ⟨results, s, ran, holds⟩ := session_run cfg margin regs ops legal
  refine ⟨results, s, ran, holds.running, fun inside => ?_, holds.lockedIn, fun inside => ?_⟩
  · obtain ⟨t, released, -, -, on⟩ := run_watchdog_release cfg _ s holds inside
    exact ⟨t, released, by rw [on, not_not]; rfl⟩
  · have locked := holds.locked.trans inside
    have same : { s with openLock := true } = s := by rw [← locked]
    simp [watchdogOpen, locked, same]

def bootConfig : WdtConfig := ⟨s3c2410Wtcon, 0, 0, 0, 50000000⟩

theorem magic_close_session :
    Follows Session.next Session.allows noSession [.opening, .write ['V'.toUInt8], .release, .opening] ∧
      ∃ results s, (probeThen bootConfig [.opening, .write ['V'.toUInt8], .release, .opening]).run
          (loadedWdt 15 fun _ => 0) = .done (0, results) s ∧ enabled bootConfig s := by
  have legal : Follows Session.next Session.allows noSession [.opening, .write ['V'.toUInt8], .release, .opening] :=
    ⟨trivial, trivial, rfl, trivial, trivial⟩
  obtain ⟨results, s, ran, running, -⟩ := magic_close_law bootConfig 15 (fun _ => 0) _ legal
  exact ⟨legal, results, s, ran, running (by decide)⟩

end OneDriver.Watchdog
