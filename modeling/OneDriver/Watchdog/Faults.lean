import OneDriver.Watchdog.Requests

set_option autoImplicit false

namespace OneDriver.Watchdog

structure Untouched (s t : WdtState) : Prop where
  margin : t.tmrMargin = s.tmrMargin
  count : t.wdtCount = s.wdtCount
  expect : t.expectClose = s.expectClose
  wtdat : t.regs .wtdat = s.regs .wtdat
  wtcon : t.regs .wtcon = s.regs .wtcon
  wtcnt : t.regs .wtcnt = s.regs .wtcnt

theorem untouched_refl (s : WdtState) : Untouched s s := ⟨rfl, rfl, rfl, rfl, rfl, rfl⟩

-- The put_user of SETTIMEOUT reports a timeout that is already in force.
def LateFault (cfg : WdtConfig) (cmd : WdtCmd) (p : UserInt) : Prop :=
  cmd = .settimeout ∧ (Request.setTimeout p).accepted cfg ∧ p.writable = false

theorem refused_heartbeat (cfg : WdtConfig) (p : UserInt) (readable : p.readable = true)
    (refused : ¬ (Request.setTimeout p).accepted cfg) : watchdogSetHeartbeat cfg p.value = pure (-einval) := by
  by_cases low : p.value < 1
  · simp only [watchdogSetHeartbeat, if_pos low]
  · have large : divisorFor (ticks cfg p.value) = none := by
      by_contra found
      exact refused ⟨readable, by omega, Option.isSome_iff_ne_none.mpr found⟩
    simp only [watchdogSetHeartbeat, if_neg low, large]

theorem run_refused_timeout (cfg : WdtConfig) (p : UserInt) (s : WdtState)
    (refused : ¬ (Request.setTimeout p).accepted cfg) :
    ∃ r, (watchdogIoctl cfg .settimeout p).run s = .done (r, none) s ∧ r < 0 := by
  by_cases readable : p.readable = true
  · refine ⟨-einval, ?_, by decide⟩
    simp [watchdogIoctl, readable, refused_heartbeat cfg p readable refused, einval]
  · exact ⟨-efault, by simp [watchdogIoctl, readable], by decide⟩

theorem put_user_writable (p : UserInt) (value : Int) (writable : p.writable = true) :
    putUser p value = (0, some value) := by
  simp [putUser, writable]

theorem put_user_faults (p : UserInt) (value : Int) (refused : p.writable = false) :
    putUser p value = (-efault, none) := by
  simp [putUser, refused]

-- What an accepted SETTIMEOUT leaves, whatever its put_user then answers.
def reprogrammed (cfg : WdtConfig) (p : UserInt) (s : WdtState) : WdtState :=
  ((({ s with tmrMargin := p.value, wdtCount := countOf cfg p }.write .wtdat (BitVec.ofNat 32 (countOf cfg p))).write
    .wtcon (controlOf cfg p (s.regs .wtcon))).write .wtcnt (BitVec.ofNat 32 (countOf cfg p)))

theorem run_accepted_timeout (cfg : WdtConfig) (p : UserInt) (s : WdtState)
    (ok : (Request.setTimeout p).accepted cfg) :
    (watchdogIoctl cfg .settimeout p).run s = .done (putUser p p.value) (reprogrammed cfg p s) := by
  simp [watchdogIoctl, ok.1, accepted_heartbeat cfg p ok, reprogrammed, countOf, controlOf]

theorem ioctl_failure_law (cfg : WdtConfig) (cmd : WdtCmd) (p : UserInt) (s : WdtState) :
    ∃ r out t, (watchdogIoctl cfg cmd p).run s = .done (r, out) t ∧
      (r < 0 → ¬ LateFault cfg cmd p → Untouched s t) ∧
      (LateFault cfg cmd p → r = -efault ∧ t.tmrMargin = p.value ∧
        (watchdogIoctl cfg cmd { p with writable := true }).run s = .done (0, some p.value) t) ∧
      (cmd = .settimeout → r = 0 → out = some t.tmrMargin) := by
  cases cmd with
  | getsupport => exact ⟨_, _, s, rfl, fun _ _ => untouched_refl s, by simp [LateFault], by simp⟩
  | getstatus => exact ⟨_, _, s, rfl, fun _ _ => untouched_refl s, by simp [LateFault], by simp⟩
  | getbootstatus => exact ⟨_, _, s, rfl, fun _ _ => untouched_refl s, by simp [LateFault], by simp⟩
  | gettimeout => exact ⟨_, _, s, rfl, fun _ _ => untouched_refl s, by simp [LateFault], by simp⟩
  | other code => exact ⟨_, _, s, rfl, fun _ _ => untouched_refl s, by simp [LateFault], by simp⟩
  | keepalive =>
      exact ⟨0, none, _, by simp [watchdogIoctl]; rfl, fun failed => absurd failed (by decide), by simp [LateFault],
        by simp⟩
  | settimeout =>
      by_cases ok : (Request.setTimeout p).accepted cfg
      · refine ⟨(putUser p p.value).1, (putUser p p.value).2, _, run_accepted_timeout cfg p s ok,
          fun failed early => ?_, fun late => ?_, fun _ stored => ?_⟩
        · cases writable : p.writable with
          | true => exact absurd failed (by simp [put_user_writable p _ writable])
          | false => exact absurd ⟨rfl, ok, writable⟩ early
        · refine ⟨by rw [put_user_faults p _ late.2.2], rfl, ?_⟩
          rw [run_accepted_timeout cfg { p with writable := true } s ok]
          rfl
        · cases writable : p.writable with
          | true => rw [put_user_writable p _ writable]; rfl
          | false => exact absurd stored (by simp [put_user_faults p _ writable, efault])
      · obtain ⟨r, ran, negative⟩ := run_refused_timeout cfg p s ok
        exact ⟨r, none, s, ran, fun _ _ => untouched_refl s, fun late => absurd late.2.1 ok,
          fun _ zero => absurd zero (by omega)⟩

theorem unreported_timeout_in_force :
    ∃ results s r out t, (probeThen bootConfig [.opening]).run (loadedWdt 15 fun _ => 0) = .done (0, results) s ∧
      (watchdogIoctl bootConfig .settimeout ⟨30, true, false⟩).run s = .done (r, out) t ∧ r < 0 ∧
      ¬ Untouched s t :=
  ⟨_, _, _, _, _, rfl, rfl, by decide, fun same => absurd same.margin (by decide)⟩

-- What may happen in an open session between the write and the release.
def WdtOp.waits : WdtOp → Bool
  | .write _ => false
  | .release => false
  | _ => true

-- expect_close where the loop over the bytes leaves off.
def magicFlag (data : List (Option UInt8)) : Int := if some 'V'.toUInt8 ∈ data.takeWhile Option.isSome then 42 else 0

theorem magic_flag_set_iff (data : List (Option UInt8)) :
    magicFlag data = 42 ↔ some 'V'.toUInt8 ∈ data.takeWhile Option.isSome := by
  by_cases magic : some 'V'.toUInt8 ∈ data.takeWhile Option.isSome
  · exact iff_of_true (if_pos magic) magic
  · refine iff_of_false ?_ magic
    rw [magicFlag, if_neg magic]
    decide

theorem run_arm_magic (cfg : WdtConfig) (data : List (Option UInt8)) (s : WdtState) (way : cfg.nowayout = 0) :
    (armMagic cfg data).run s = .done (decide (none ∈ data)) { s with expectClose := magicFlag data } := by
  simp [armMagic, way, run_scan_faulting, magicFlag]

-- The session goes on with the lock held, and the flag and ENABLE as the write left them.
structure Held (cfg : WdtConfig) (s t : WdtState) : Prop where
  locked : t.openLock = true
  expect : t.expectClose = s.expectClose
  running : enabled cfg t ↔ enabled cfg s

theorem waiting_holds (cfg : WdtConfig) (op : WdtOp) (s t : WdtState) (held : Held cfg s t) (waits : op.waits = true) :
    (op.call cfg).wp (fun _ u => Held cfg s u) t := by
  have locked := held.locked
  refine (Prog.wp_iff_run _ _ _).mpr ?_
  cases op with
  | opening =>
      exact ⟨-ebusy, { t with openLock := true }, by simp [WdtOp.call, watchdogOpen, locked], rfl, held.expect,
        held.running⟩
  | write data => cases waits
  | ioctl cmd p =>
      obtain ⟨r, u, ran, on, lock, expect⟩ := run_ioctl_frame cfg cmd p t
      exact ⟨r.1, u, by simp [WdtOp.call, ran], lock.trans locked, expect.trans held.expect, on.trans held.running⟩
  | irq =>
      refine ⟨0, t.write .wtcnt (BitVec.ofNat 32 t.wdtCount), by simp [WdtOp.call, watchdogIrq], locked, held.expect,
        ?_⟩
      exact (enabled_keepalive cfg t _).trans held.running
  | release => cases waits

theorem run_waiting (cfg : WdtConfig) (between : List WdtOp) (s : WdtState) (locked : s.openLock = true)
    (waits : ∀ op ∈ between, op.waits = true) :
    ∃ results t, (Prog.series (WdtOp.call cfg) between).run s = .done results t ∧ Held cfg s t := by
  have legal : Follows (fun (_ : Unit) (_ : WdtOp) => ()) (fun _ op => op.waits = true) () between :=
    follows_of_forall _ _ between () fun op member _ => waits op member
  exact (Prog.wp_iff_run _ _ _).mp <| series_invariant (WdtOp.call cfg) _ _ (fun _ t => Held cfg s t)
    (fun _ op t held quiet => waiting_holds cfg op s t held quiet) between () s ⟨locked, rfl, Iff.rfl⟩ legal

theorem release_unarmed (cfg : WdtConfig) (s : WdtState) (unarmed : s.expectClose ≠ 42) :
    ∃ t, (watchdogRelease cfg).run s = .done 0 t ∧ (enabled cfg t ↔ enabled cfg s) := by
  refine ⟨_, by simp [watchdogRelease, unarmed]; rfl, ?_⟩
  exact enabled_keepalive cfg s (BitVec.ofNat 32 s.wdtCount)

def FailedWriteLaw (cfg : WdtConfig) (data : List (Option UInt8)) (s : WdtState) : Prop :=
  ∃ r t, (watchdogWrite cfg data).run s = .done r t ∧ (r = -efault → t.expectClose ≠ 42 ∧
    ∀ between : List WdtOp, (∀ op ∈ between, op.waits = true) → ∃ results u v,
      (Prog.series (WdtOp.call cfg) between).run t = .done results u ∧ (watchdogRelease cfg).run u = .done 0 v ∧
        (enabled cfg v ↔ enabled cfg s))

theorem run_unfaulted_write (cfg : WdtConfig) (data : List (Option UInt8)) (s : WdtState)
    (fine : cfg.nowayout ≠ 0 ∨ none ∉ data) :
    ∃ t, (watchdogWrite cfg data).run s = .done data.length t := by
  by_cases empty : data = []
  · exact ⟨s, by simp [watchdogWrite, empty]⟩
  · by_cases way : cfg.nowayout = 0
    · have clean : none ∉ data := fine.resolve_left (not_not.mpr way)
      exact ⟨_, by simp [watchdogWrite, empty, run_arm_magic cfg data s way, clean]; rfl⟩
    · exact ⟨_, by simp [watchdogWrite, empty, armMagic, way]; rfl⟩

theorem run_faulted_write (cfg : WdtConfig) (data : List (Option UInt8)) (s : WdtState) (way : cfg.nowayout = 0)
    (faults : none ∈ data) :
    (watchdogWrite cfg data).run s = .done (-efault) { s with expectClose := magicFlag data } := by
  simp [watchdogWrite, List.ne_nil_of_mem faults, run_arm_magic cfg data s way, faults]

theorem unarmed_session_survives (cfg : WdtConfig) (s : WdtState) (locked : s.openLock = true)
    (unarmed : s.expectClose ≠ 42) (between : List WdtOp) (waits : ∀ op ∈ between, op.waits = true) :
    ∃ results t u, (Prog.series (WdtOp.call cfg) between).run s = .done results t ∧
      (watchdogRelease cfg).run t = .done 0 u ∧ (enabled cfg u ↔ enabled cfg s) := by
  obtain ⟨results, t, ran, held⟩ := run_waiting cfg between s locked waits
  obtain ⟨u, released, same⟩ := release_unarmed cfg t (by rw [held.expect]; exact unarmed)
  exact ⟨results, t, u, ran, released, same.trans held.running⟩

-- The flag is set byte by byte, and the early return leaves it as it then was.
theorem failed_write_law_iff (cfg : WdtConfig) (data : List (Option UInt8)) (s : WdtState)
    (inside : s.openLock = true) :
    FailedWriteLaw cfg data s ↔
      (cfg.nowayout = 0 → none ∈ data → some 'V'.toUInt8 ∉ data.takeWhile Option.isSome) := by
  by_cases faulted : cfg.nowayout = 0 ∧ none ∈ data
  · obtain ⟨way, faults⟩ := faulted
    refine (Prog.run_exists_iff _ s _ _ _ (run_faulted_write cfg data s way faults)).trans ?_
    constructor
    · intro law _ _ magic
      exact (law rfl).1 ((magic_flag_set_iff data).mpr magic)
    · intro before _
      have unarmed : magicFlag data ≠ 42 := mt (magic_flag_set_iff data).mp (before way faults)
      exact ⟨unarmed, unarmed_session_survives cfg { s with expectClose := magicFlag data } inside unarmed⟩
  · have fine : cfg.nowayout ≠ 0 ∨ none ∉ data := by
      by_cases way : cfg.nowayout = 0
      · exact .inr fun faults => faulted ⟨way, faults⟩
      · exact .inl way
    obtain ⟨t, ran⟩ := run_unfaulted_write cfg data s fine
    refine iff_of_true ⟨data.length, t, ran, fun error => ?_⟩ fun way faults => absurd ⟨way, faults⟩ faulted
    simp only [efault] at error
    omega

theorem first_byte_faults :
    FailedWriteLaw bootConfig [none, some 'V'.toUInt8] { loadedWdt 15 (fun _ => 0) with openLock := true } :=
  (failed_write_law_iff bootConfig [none, some 'V'.toUInt8] _ rfl).mpr (by decide)

theorem fault_after_magic_arms :
    ∃ results s t v, (probeThen bootConfig [.opening]).run (loadedWdt 15 fun _ => 0) = .done (0, results) s ∧
      (watchdogWrite bootConfig [some 'V'.toUInt8, none]).run s = .done (-efault) t ∧ t.expectClose = 42 ∧
      (watchdogRelease bootConfig).run t = .done 0 v ∧ enabled bootConfig s ∧ ¬ enabled bootConfig v :=
  ⟨_, _, _, _, rfl, rfl, rfl, rfl, rfl, by unfold enabled; decide⟩

end OneDriver.Watchdog
