import OneDriver.History
import OneDriver.Rtc.Platform
import OneDriver.Rtc.Power
import Mathlib.Data.Multiset.MapFold
import Mathlib.Tactic.Abel

set_option autoImplicit false

namespace OneDriver.Rtc

inductive RtcCall where
  | probe (o : RtcProbe)
  | remove
  | openFile (process : Nat) (o : OpenOutcome)
  | closeFile (process : Nat)
  | suspend
  | resume
  | interrupt (irq : Int)

def serveRtc (abi : Abi) : RtcCall → BoundProg Int
  | .probe o => probeRtc abi o
  | .remove => rtcRemove
  | .openFile process o => rtcOpen process o
  | .closeFile _ => do
      rtcRelease
      pure 0
  | .suspend => onRtc rtcSuspend
  | .resume => onRtc rtcResume
  | .interrupt irq => do
      interrupt irq
      pure 0

-- What the platform bus and the RTC core know of the driver: whether a device is
-- bound, whose sessions are open, and how often a probe failed after it had the region.
structure Seen where
  bound : Bool
  sessions : List Nat
  cutShort : Nat

def RtcProbe.hasRegion (o : RtcProbe) : Bool := decide (0 ≤ o.alarmIrq) && decide (0 ≤ o.tickIrq) && o.memory && o.region

def Seen.next (seen : Seen) : RtcCall × Int → Seen
  | (.probe o, r) =>
      if r = 0 then { seen with bound := true }
      else if o.hasRegion then { seen with cutShort := seen.cutShort + 1 }
      else seen
  | (.remove, _) => { seen with bound := false }
  | (.openFile process _, r) => if r = 0 then { seen with sessions := process :: seen.sessions } else seen
  | (.closeFile process, _) => { seen with sessions := seen.sessions.erase process }
  | _ => seen

def seen (past : List (RtcCall × Int)) : Seen := past.foldl Seen.next ⟨false, [], 0⟩

-- One device is bound at a time; it is unbound with no session open, opened and
-- put to sleep only while it is bound, and a session is closed once.
def Serves (now : Seen) : RtcCall → Prop
  | .probe _ => now.bound = false
  | .remove => now.bound = true ∧ now.sessions = []
  | .openFile _ _ => now.bound = true
  | .closeFile process => process ∈ now.sessions
  | .suspend => now.bound = true
  | .resume => now.bound = true
  | .interrupt _ => True

@[simp] theorem seen_snoc (past : List (RtcCall × Int)) (entry : RtcCall × Int) :
    seen (past ++ [entry]) = (seen past).next entry := by
  simp [seen]

def records (ids : Multiset Nat) : Multiset RtcResource := ids.map .record

structure Names (s : BoundState) (mem base dev : Nat) : Prop where
  mem : s.rtcMem = some mem
  base : s.rtcBase = some base
  dev : s.drvdata = some dev

def bindingOf (mem base dev : Nat) (before : Multiset RtcResource) : Multiset RtcResource :=
  .device dev ::ₘ .mapping base ::ₘ .region mem ::ₘ .record mem ::ₘ before

-- Both lines, and no other, for the session of `process`.
def LinesOf (s : BoundState) (dev process : Nat) : Prop :=
  s.alarmno ≠ s.tickno ∧ ∀ irq, s.lines irq =
    if irq = s.alarmno then some ⟨.alarmirq, some dev, process⟩
    else if irq = s.tickno then some ⟨.tickirq, some dev, process⟩
    else none

inductive Balanced : Seen → BoundState → Prop where
  | unbound (s : BoundState) (ids : Multiset Nat) (held : s.held = records ids) (lines : ∀ irq, s.lines irq = none) :
      Balanced ⟨false, [], ids.card⟩ s
  | idle (s : BoundState) (ids : Multiset Nat) (mem base dev : Nat) (names : Names s mem base dev)
      (held : s.held = bindingOf mem base dev (records ids)) (lines : ∀ irq, s.lines irq = none) :
      Balanced ⟨true, [], ids.card⟩ s
  | session (s : BoundState) (ids : Multiset Nat) (mem base dev process : Nat) (names : Names s mem base dev)
      (held : s.held = bindingOf mem base dev (records ids)) (lines : LinesOf s dev process) :
      Balanced ⟨true, [process], ids.card⟩ s

theorem run_on_rtc {α : Type} (p : RtcProg α) (s : BoundState) (rtc : RtcState) (a : α) (mapped : s.mapped = true)
    (ran : p.run s.rtc = .done a rtc) : (onRtc p).run s = .done a { s with rtc := rtc } := by
  have passes : ∀ step, needsMapping step s = none := fun step => by simp [needsMapping, mapped]
  rw [onRtc, Prog.run_within _ _ _ _ p s (fun _ _ _ => rfl) passes]
  exact congrArg (Outcome.within rtcPart BoundFault.rtc s) ran

theorem run_release (label : BoundStep) (r : RtcResource) (rest : Multiset RtcResource) (s : BoundState)
    (held : s.held = r ::ₘ rest) : (release label (some r)).run s = .done () { s with held := rest } :=
  Prog.run_release_held heldPart label BoundFault.misuse r rest s held

theorem run_release_mem (s : BoundState) (mem : Nat) (rest : Multiset RtcResource) (named : s.rtcMem = some mem)
    (held : s.held = .region mem ::ₘ rest) : releaseMem.run s = .done () { s with held := rest } := by
  simp only [releaseMem, Prog.run_bind, Prog.run_look, outcome_bind_done, named, Option.map_some,
    run_release .releaseResource (.region mem) rest s held]

theorem run_iounmap (s : BoundState) (base : Nat) (rest : Multiset RtcResource) (named : s.rtcBase = some base)
    (held : s.held = .mapping base ::ₘ rest) : iounmap.run s = .done () { s with held := rest } := by
  simp only [iounmap, Prog.run_bind, Prog.run_look, outcome_bind_done, named, Option.map_some,
    run_release .iounmap (.mapping base) rest s held]

theorem run_err_nomap (ret : Int) (s : BoundState) (mem : Nat) (rest : Multiset RtcResource)
    (named : s.rtcMem = some mem) (held : s.held = .region mem ::ₘ rest) :
    (errNomap ret).run s = .done ret { s with held := rest } := by
  simp only [errNomap, Prog.run_bind, run_release_mem s mem rest named held, outcome_bind_done, Prog.run_pure]

theorem run_err_nortc (ret : Int) (s : BoundState) (mem base : Nat) (rest : Multiset RtcResource)
    (mem' : s.rtcMem = some mem) (base' : s.rtcBase = some base)
    (held : s.held = .mapping base ::ₘ .region mem ::ₘ rest) :
    ∃ rtc, (errNortc ret).run s = .done ret { s with rtc := rtc, held := rest } := by
  have mapped : s.mapped = true := by simp [BoundState.mapped, base', held]
  obtain ⟨rtc, off⟩ : ∃ rtc, (onRtc (rtcEnable 0)).run s = .done () { s with rtc := rtc } :=
    ⟨_, run_on_rtc (rtcEnable 0) s _ () mapped (run_rtc_disable s.rtc)⟩
  refine ⟨rtc, ?_⟩
  simp only [errNortc, Prog.run_bind, off, outcome_bind_done,
    run_iounmap { s with rtc := rtc } base (.region mem ::ₘ rest) base' held]
  exact run_err_nomap ret { s with rtc := rtc, held := .region mem ::ₘ rest } mem rest mem' rfl

theorem run_request_mem_region (s : BoundState) : (requestMemRegion true).run s = .done (some s.grants)
    { s with grants := s.grants + 1, held := .region s.grants ::ₘ .record s.grants ::ₘ s.held } := rfl

theorem run_ioremap (s : BoundState) : (ioremap true).run s = .done (some s.grants)
    { s with grants := s.grants + 1, held := .mapping s.grants ::ₘ s.held } := rfl

theorem run_rtc_device_register (s : BoundState) : (rtcDeviceRegister none).run s = .done (.object s.grants)
    { s with grants := s.grants + 1, held := .device s.grants ::ₘ s.held } := rfl

-- What the probe of a device leaves: all of it, or nothing but the record of its region.
structure ProbeLeaves (mem : Nat) (before : Multiset RtcResource) (s : BoundState) (r : Int) (t : BoundState) : Prop where
  lines : t.lines = s.lines
  bound : r = 0 → ∃ base dev, Names t mem base dev ∧ t.held = bindingOf mem base dev before
  unwound : r ≠ 0 → t.held = .record mem ::ₘ before

theorem probe_device_leaves (abi : Abi) (o : RtcProbe) (s : BoundState) (mem base : Nat)
    (before : Multiset RtcResource) (mem' : s.rtcMem = some mem) (base' : s.rtcBase = some base)
    (held : s.held = .mapping base ::ₘ .region mem ::ₘ .record mem ::ₘ before) :
    ∃ r t, (probeDevice abi o).run s = .done r t ∧ ProbeLeaves mem before s r t := by
  have mapped : s.mapped = true := by simp [BoundState.mapped, base', held]
  have one : accepted abi 1 := ⟨0, by cases abi <;> decide⟩
  obtain ⟨enabled, on⟩ : ∃ rtc, (onRtc (rtcEnable 1)).run s = .done () { s with rtc := rtc } :=
    ⟨_, run_on_rtc (rtcEnable 1) s _ () mapped (run_rtc_reenable s.rtc)⟩
  obtain ⟨tick, set⟩ : ∃ rtc, (onRtc (rtcSetfreq abi 1)).run { s with rtc := enabled } = .done 0 { s with rtc := rtc } :=
    ⟨_, run_on_rtc (rtcSetfreq abi 1) { s with rtc := enabled } _ 0 mapped ((run_rtc_setfreq abi 1 enabled).trans (if_pos one))⟩
  cases answer : o.registered with
  | some errno =>
      obtain ⟨rtc, failed⟩ := run_err_nortc errno.value { s with rtc := tick } mem base (.record mem ::ₘ before) mem' base' held
      refine ⟨errno.value, { s with rtc := rtc, held := .record mem ::ₘ before }, ?_, rfl, fun zero => ?_, fun _ => rfl⟩
      · simp only [probeDevice, Prog.run_bind, on, outcome_bind_done, set, answer, rtcDeviceRegister, Prog.run_pure]
        exact failed
      · have negative := errno.negative
        omega
  | none =>
      refine ⟨0, { s with
        rtc := tick, grants := s.grants + 1, held := .device s.grants ::ₘ s.held, drvdata := some s.grants }, ?_, rfl,
        fun _ => ⟨base, s.grants, ⟨mem', base', rfl⟩, ?_⟩, fun failed => absurd rfl failed⟩
      · simp only [probeDevice, Prog.run_bind, on, outcome_bind_done, set, answer, run_rtc_device_register]
        rfl
      · rw [held]
        rfl

theorem probe_mapping_leaves (abi : Abi) (o : RtcProbe) (s : BoundState) (mem : Nat) (before : Multiset RtcResource)
    (mem' : s.rtcMem = some mem) (held : s.held = .region mem ::ₘ .record mem ::ₘ before) :
    ∃ r t, (probeMapping abi o).run s = .done r t ∧ ProbeLeaves mem before s r t := by
  cases mapping : o.mapping with
  | false =>
      refine ⟨-einval, { s with rtcBase := none, held := .record mem ::ₘ before }, ?_, rfl, fun zero => ?_, fun _ => rfl⟩
      · simp only [probeMapping, mapping]
        exact run_err_nomap (-einval) { s with rtcBase := none } mem (.record mem ::ₘ before) mem' held
      · exact absurd zero (by decide)
  | true =>
      obtain ⟨r, t, ran, leaves⟩ := probe_device_leaves abi o
        { s with grants := s.grants + 1, held := .mapping s.grants ::ₘ s.held, rtcBase := some s.grants } mem s.grants
        before mem' rfl (by rw [held])
      refine ⟨r, t, ?_, leaves.lines, leaves.bound, leaves.unwound⟩
      simp only [probeMapping, mapping, Prog.run_bind, run_ioremap, outcome_bind_done, setBase, Prog.run_modify]
      exact ran

theorem records_cons (id : Nat) (ids : Multiset Nat) : records (id ::ₘ ids) = .record id ::ₘ records ids :=
  Multiset.map_cons _ _ _

structure Untouched (s t : BoundState) : Prop where
  held : t.held = s.held
  lines : t.lines = s.lines

theorem probe_refused (abi : Abi) (o : RtcProbe) (s : BoundState) (refused : o.hasRegion = false) :
    ∃ t, (probeRtc abi o).run s = .done (-enoent) t ∧ Untouched s t := by
  by_cases alarm : o.alarmIrq < 0
  · refine ⟨{ s with alarmno := o.alarmIrq }, ?_, rfl, rfl⟩
    simp only [probeRtc, if_pos alarm]
    rfl
  by_cases tick : o.tickIrq < 0
  · refine ⟨{ s with alarmno := o.alarmIrq, tickno := o.tickIrq }, ?_, rfl, rfl⟩
    simp only [probeRtc, if_neg alarm, if_pos tick]
    rfl
  cases memory : o.memory with
  | false =>
      refine ⟨{ s with alarmno := o.alarmIrq, tickno := o.tickIrq }, ?_, rfl, rfl⟩
      simp only [probeRtc, if_neg alarm, if_neg tick, probeMemory, memory]
      rfl
  | true =>
      cases region : o.region with
      | false =>
          refine ⟨{ s with alarmno := o.alarmIrq, tickno := o.tickIrq, rtcMem := none }, ?_, rfl, rfl⟩
          simp only [probeRtc, if_neg alarm, if_neg tick, probeMemory, memory, region]
          rfl
      | true => simp [RtcProbe.hasRegion, memory, region, Int.not_lt.mp alarm, Int.not_lt.mp tick] at refused

theorem probe_with_region (abi : Abi) (o : RtcProbe) (s : BoundState) (granted : o.hasRegion = true) :
    ∃ r t, (probeRtc abi o).run s = .done r t ∧ ProbeLeaves s.grants s.held s r t := by
  simp only [RtcProbe.hasRegion, Bool.and_eq_true, decide_eq_true_eq] at granted
  obtain ⟨⟨⟨alarm, tick⟩, memory⟩, region⟩ := granted
  obtain ⟨r, t, ran, leaves⟩ := probe_mapping_leaves abi o
    { s with
      alarmno := o.alarmIrq, tickno := o.tickIrq, grants := s.grants + 1
      held := .region s.grants ::ₘ .record s.grants ::ₘ s.held, rtcMem := some s.grants } s.grants s.held rfl rfl
  refine ⟨r, t, ?_, leaves.lines, leaves.bound, leaves.unwound⟩
  simp only [probeRtc, if_neg (Int.not_lt.mpr alarm), if_neg (Int.not_lt.mpr tick), probeMemory, memory, region, if_true]
  exact ran

theorem probe_balanced (abi : Abi) (o : RtcProbe) (s : BoundState) (ids : Multiset Nat)
    (held : s.held = records ids) (lines : ∀ irq, s.lines irq = none) :
    ∃ r t, (probeRtc abi o).run s = .done r t ∧ Balanced (Seen.next ⟨false, [], ids.card⟩ (.probe o, r)) t := by
  by_cases granted : o.hasRegion = true
  · obtain ⟨r, t, ran, leaves⟩ := probe_with_region abi o s granted
    refine ⟨r, t, ran, ?_⟩
    have lines' : ∀ irq, t.lines irq = none := fun irq => by rw [leaves.lines, lines]
    by_cases bound : r = 0
    · obtain ⟨base, dev, names, held'⟩ := leaves.bound bound
      rw [held] at held'
      simpa only [Seen.next, if_pos bound] using Balanced.idle t ids s.grants base dev names held' lines'
    · have kept : t.held = records (s.grants ::ₘ ids) := by rw [leaves.unwound bound, held, records_cons]
      have balanced := Balanced.unbound t (s.grants ::ₘ ids) kept lines'
      rw [Multiset.card_cons] at balanced
      simpa only [Seen.next, if_neg bound, if_pos granted] using balanced
  · obtain ⟨t, ran, untouched⟩ := probe_refused abi o s (Bool.eq_false_of_not_eq_true granted)
    have failed : ¬ -enoent = 0 := by decide
    refine ⟨-enoent, t, ran, ?_⟩
    have balanced := Balanced.unbound t ids (untouched.held.trans held) fun irq => by rw [untouched.lines, lines]
    simpa only [Seen.next, if_neg failed, if_neg granted] using balanced

theorem binding_mapped (s : BoundState) (mem base dev : Nat) (before : Multiset RtcResource) (names : Names s mem base dev)
    (held : s.held = bindingOf mem base dev before) : s.mapped = true := by
  simp [BoundState.mapped, names.base, held, bindingOf]

theorem remove_balanced (s : BoundState) (ids : Multiset Nat) (mem base dev : Nat) (names : Names s mem base dev)
    (held : s.held = bindingOf mem base dev (records ids)) (lines : ∀ irq, s.lines irq = none) :
    ∃ t, rtcRemove.run s = .done 0 t ∧ Balanced ⟨false, [], ids.card⟩ t := by
  -- What is held once the device is given back.
  let gone : BoundState := { s with
    drvdata := none, held := .mapping base ::ₘ .region mem ::ₘ .record mem ::ₘ records ids }
  have mapped : gone.mapped = true := by simp [gone, BoundState.mapped, names.base]
  have unregistered : (release .rtcDeviceUnregister (some (.device dev))).run { s with drvdata := none } = .done () gone :=
    run_release _ _ _ { s with drvdata := none } held
  obtain ⟨off, ticked, -⟩ := run_rtc_setpie 0 gone.rtc
  have pie := run_on_rtc (rtcSetpie 0) gone off 0 mapped ticked
  obtain ⟨clear, aie⟩ : ∃ rtc, (onRtc (rtcSetaie 0)).run { gone with rtc := off } = .done () { gone with rtc := rtc } :=
    ⟨_, run_on_rtc (rtcSetaie 0) { gone with rtc := off } _ () mapped (run_rtc_setaie 0 off)⟩
  have unmapped := run_iounmap { gone with rtc := clear } base (.region mem ::ₘ .record mem ::ₘ records ids) names.base rfl
  have released := run_release_mem { gone with rtc := clear, held := .region mem ::ₘ .record mem ::ₘ records ids } mem
    (.record mem ::ₘ records ids) names.mem rfl
  have freed := run_release .kfree (.record mem) (records ids)
    { gone with rtc := clear, held := .record mem ::ₘ records ids } rfl
  refine ⟨{ gone with rtc := clear, held := records ids }, ?_, .unbound _ ids rfl lines⟩
  have here : s.drvdata = some dev := names.dev
  have there : s.rtcMem = some mem := names.mem
  simp only [rtcRemove, platformSetDrvdata, Prog.run_bind, Prog.run_look, Prog.run_modify, outcome_bind_done, here, Option.map_some,
    unregistered, pie, aie, unmapped, released]
  simp only [gone, there, Option.map_some] at freed ⊢
  rw [freed, outcome_bind_done, Prog.run_pure]

def BoundState.setLine (s : BoundState) (irq : Int) (action : Option IrqAction) : BoundState :=
  { s with lines := fun other => if other = irq then action else s.lines other }

theorem run_request_free (irq : Int) (action : IrqAction) (s : BoundState) (free : s.lines irq = none) :
    (requestIrq irq action 0).run s = .done 0 (s.setLine irq (some action)) := by
  simp [requestIrq, Prog.run, free, BoundState.setLine]

theorem run_request_refused (irq : Int) (action : IrqAction) (outcome : Int) (s : BoundState) (refused : outcome ≠ 0)
    (free : s.lines irq = none) : (requestIrq irq action outcome).run s = .done outcome s := by
  simp [requestIrq, Prog.run, free, refused]

theorem run_request_busy (irq : Int) (action : IrqAction) (outcome : Int) (s : BoundState) (busy : s.lines irq ≠ none) :
    (requestIrq irq action outcome).run s = .done (-ebusy) s := by
  simp [requestIrq, Prog.run, busy]

theorem run_free_irq (irq : Int) (action : IrqAction) (s : BoundState) (held : s.lines irq = some action) :
    (freeIrq irq action.devId).run s = .done () (s.setLine irq none) := by
  simp [freeIrq, Prog.run_access, held, BoundState.setLine]

-- The second line is refused, and the first is given back.
theorem run_tick_refused (process : Nat) (rtcDev : Option Nat) (outcome ret : Int) (s : BoundState) (failed : ret ≠ 0)
    (first : s.lines s.alarmno = some ⟨.alarmirq, rtcDev, process⟩)
    (refused : (requestIrq s.tickno ⟨.tickirq, rtcDev, process⟩ outcome).run s = .done ret s) :
    (requestTick process rtcDev outcome).run s = .done ret (s.setLine s.alarmno none) := by
  have freed := run_free_irq s.alarmno _ s first
  simp only [requestTick, Prog.run_bind, Prog.run_look, outcome_bind_done, refused, if_pos failed, freed, Prog.run_pure]

@[simp] theorem set_line_same (s : BoundState) (irq : Int) (action : Option IrqAction) :
    (s.setLine irq action).lines irq = action := if_pos rfl

theorem set_line_other (s : BoundState) (irq other : Int) (action : Option IrqAction) (different : other ≠ irq) :
    (s.setLine irq action).lines other = s.lines other := if_neg different

section Open

variable (process dev : Nat) (o : OpenOutcome) (s : BoundState)

def firstLine : BoundState := s.setLine s.alarmno (some ⟨.alarmirq, some dev, process⟩)

theorem open_asks_second (here : s.drvdata = some dev) (free : s.lines s.alarmno = none) (alarm : o.alarm = 0) :
    (rtcOpen process o).run s = (requestTick process (some dev) o.tick).run (firstLine process dev s) := by
  simp only [rtcOpen, Prog.run_bind, Prog.run_look, outcome_bind_done, here, alarm, run_request_free _ _ s free]
  rfl

theorem open_unwound (ret : Int) (here : s.drvdata = some dev) (free : ∀ irq, s.lines irq = none) (alarm : o.alarm = 0)
    (failed : ret ≠ 0) (refused : (requestIrq s.tickno ⟨.tickirq, some dev, process⟩ o.tick).run
      (firstLine process dev s) = .done ret (firstLine process dev s)) :
    ∃ t, (rtcOpen process o).run s = .done ret t ∧ t.rtcMem = s.rtcMem ∧ t.rtcBase = s.rtcBase ∧ t.drvdata = s.drvdata ∧
      t.held = s.held ∧ ∀ irq, t.lines irq = none := by
  refine ⟨(firstLine process dev s).setLine s.alarmno none, ?_, rfl, rfl, rfl, rfl, fun irq => ?_⟩
  · rw [open_asks_second process dev o s here (free _) alarm]
    exact run_tick_refused process (some dev) o.tick ret (firstLine process dev s) failed (set_line_same _ _ _) refused
  · by_cases same : irq = s.alarmno
    · rw [same, set_line_same]
    · rw [set_line_other _ _ _ _ same, firstLine, set_line_other _ _ _ _ same, free]

theorem open_granted (here : s.drvdata = some dev) (free : ∀ irq, s.lines irq = none) (alarm : o.alarm = 0)
    (tick : o.tick = 0) (apart : s.alarmno ≠ s.tickno) :
    ∃ t, (rtcOpen process o).run s = .done 0 t ∧ t.rtcMem = s.rtcMem ∧ t.rtcBase = s.rtcBase ∧ t.drvdata = s.drvdata ∧
      t.held = s.held ∧ LinesOf t dev process := by
  refine ⟨(firstLine process dev s).setLine s.tickno (some ⟨.tickirq, some dev, process⟩), ?_, rfl, rfl, rfl, rfl, apart,
    fun irq => ?_⟩
  · have other : (firstLine process dev s).lines s.tickno = none := by
      rw [firstLine, set_line_other _ _ _ _ (Ne.symm apart), free]
    have asked := run_request_free s.tickno ⟨.tickirq, some dev, process⟩ (firstLine process dev s) other
    rw [open_asks_second process dev o s here (free _) alarm, tick]
    simp only [requestTick, Prog.run_bind, Prog.run_look, outcome_bind_done]
    rw [show (firstLine process dev s).tickno = s.tickno from rfl, asked]
    rfl
  · change _ = if irq = s.alarmno then _ else if irq = s.tickno then _ else _
    by_cases isTick : irq = s.tickno
    · rw [if_neg (fun same => apart (same.symm.trans isTick)), if_pos isTick, isTick, set_line_same]
    · rw [set_line_other _ _ _ _ isTick]
      by_cases isAlarm : irq = s.alarmno
      · rw [if_pos isAlarm, isAlarm, firstLine, set_line_same]
      · rw [if_neg isAlarm, if_neg isTick, firstLine, set_line_other _ _ _ _ isAlarm, free]

end Open

theorem open_idle_balanced (process : Nat) (o : OpenOutcome) (s : BoundState) (ids : Multiset Nat)
    (mem base dev : Nat) (names : Names s mem base dev) (held : s.held = bindingOf mem base dev (records ids))
    (free : ∀ irq, s.lines irq = none) :
    ∃ r t, (rtcOpen process o).run s = .done r t ∧
      Balanced (Seen.next ⟨true, [], ids.card⟩ (.openFile process o, r)) t := by
  have here := names.dev
  have unwound : ∀ ret, o.alarm = 0 → ret ≠ 0 → (requestIrq s.tickno ⟨.tickirq, some dev, process⟩ o.tick).run
      (firstLine process dev s) = .done ret (firstLine process dev s) → ∃ r t, (rtcOpen process o).run s = .done r t ∧
        Balanced (Seen.next ⟨true, [], ids.card⟩ (.openFile process o, r)) t := by
    intro ret alarm failed refused
    obtain ⟨t, ran, mem', base', dev', held', free'⟩ := open_unwound process dev o s ret here free alarm failed refused
    have balanced := Balanced.idle t ids mem base dev
      ⟨mem'.trans names.mem, base'.trans names.base, dev'.trans here⟩ (held'.trans held) free'
    exact ⟨ret, t, ran, by simpa only [Seen.next, if_neg failed] using balanced⟩
  by_cases alarm : o.alarm = 0
  · by_cases apart : s.alarmno = s.tickno
    · have busy : (firstLine process dev s).lines s.tickno ≠ none := by
        rw [← apart, firstLine, set_line_same]
        exact Option.some_ne_none _
      exact unwound (-ebusy) alarm (by decide) (run_request_busy _ _ _ _ busy)
    · by_cases tick : o.tick = 0
      · obtain ⟨t, ran, mem', base', dev', held', lines⟩ := open_granted process dev o s here free alarm tick apart
        have balanced := Balanced.session t ids mem base dev process
          ⟨mem'.trans names.mem, base'.trans names.base, dev'.trans here⟩ (held'.trans held) lines
        exact ⟨0, t, ran, by simpa only [Seen.next, if_true] using balanced⟩
      · have other : (firstLine process dev s).lines s.tickno = none := by
          rw [firstLine, set_line_other _ _ _ _ (Ne.symm apart), free]
        exact unwound o.tick alarm tick (run_request_refused _ _ _ _ tick other)
  · refine ⟨o.alarm, s, ?_, ?_⟩
    · simp only [rtcOpen, Prog.run_bind, Prog.run_look, outcome_bind_done, run_request_refused _ _ _ s alarm (free _),
        ne_eq, alarm, not_false_eq_true, if_true, Prog.run_pure]
    · simpa only [Seen.next, if_neg alarm] using Balanced.idle s ids mem base dev names held free

theorem open_session_balanced (process owner : Nat) (o : OpenOutcome) (s : BoundState) (ids : Multiset Nat)
    (mem base dev : Nat) (names : Names s mem base dev) (held : s.held = bindingOf mem base dev (records ids))
    (lines : LinesOf s dev owner) :
    ∃ r t, (rtcOpen process o).run s = .done r t ∧
      Balanced (Seen.next ⟨true, [owner], ids.card⟩ (.openFile process o, r)) t := by
  have busy : s.lines s.alarmno ≠ none := by
    rw [lines.2, if_pos rfl]
    exact Option.some_ne_none _
  have failed : ¬ -ebusy = 0 := by decide
  refine ⟨-ebusy, s, ?_, ?_⟩
  · simp only [rtcOpen, Prog.run_bind, Prog.run_look, outcome_bind_done, run_request_busy _ _ _ s busy, ne_eq, failed,
      not_false_eq_true, if_true, Prog.run_pure]
  · simpa only [Seen.next, if_neg failed] using Balanced.session s ids mem base dev owner names held lines

theorem close_balanced (process : Nat) (s : BoundState) (ids : Multiset Nat) (mem base dev : Nat)
    (names : Names s mem base dev) (held : s.held = bindingOf mem base dev (records ids)) (lines : LinesOf s dev process) :
    ∃ t, rtcRelease.run s = .done () t ∧ t.alarmno = s.alarmno ∧ t.tickno = s.tickno ∧
      Balanced ⟨true, [], ids.card⟩ t := by
  have mapped := binding_mapped s mem base dev _ names held
  obtain ⟨off, ticked, -⟩ := run_rtc_setpie 0 s.rtc
  let quiet : BoundState := { s with rtc := off }
  have pie : (onRtc (rtcSetpie 0)).run s = .done 0 quiet := run_on_rtc (rtcSetpie 0) s off 0 mapped ticked
  let half := quiet.setLine s.alarmno none
  have isAlarm : quiet.lines s.alarmno = some ⟨.alarmirq, some dev, process⟩ := (lines.2 s.alarmno).trans (if_pos rfl)
  have isTick : half.lines s.tickno = some ⟨.tickirq, some dev, process⟩ := by
    rw [set_line_other _ _ _ _ (Ne.symm lines.1)]
    exact (lines.2 s.tickno).trans ((if_neg (Ne.symm lines.1)).trans (if_pos rfl))
  have first := run_free_irq s.alarmno _ quiet isAlarm
  have second := run_free_irq s.tickno _ half isTick
  refine ⟨half.setLine s.tickno none, ?_, rfl, rfl, .idle _ ids mem base dev ⟨names.mem, names.base, names.dev⟩ held fun irq => ?_⟩
  · have here : s.drvdata = some dev := names.dev
    simp only [rtcRelease, Prog.run_bind, Prog.run_look, outcome_bind_done, here, pie]
    simp only [quiet, half] at first second ⊢
    simp only [first, outcome_bind_done]
    exact second
  · by_cases last : irq = s.tickno
    · rw [last, set_line_same]
    · rw [set_line_other _ _ _ _ last]
      by_cases former : irq = s.alarmno
      · rw [former, set_line_same]
      · rw [set_line_other _ _ _ _ former]
        exact (lines.2 irq).trans ((if_neg former).trans (if_neg last))

theorem balanced_rtc (now : Seen) (s : BoundState) (rtc : RtcState) (balanced : Balanced now s) :
    Balanced now { s with rtc := rtc } := by
  cases balanced with
  | unbound _ ids held lines => exact .unbound _ ids held lines
  | idle _ ids mem base dev names held lines => exact .idle _ ids mem base dev ⟨names.mem, names.base, names.dev⟩ held lines
  | session _ ids mem base dev process names held lines =>
      exact .session _ ids mem base dev process ⟨names.mem, names.base, names.dev⟩ held lines

theorem balanced_updates (now : Seen) (s : BoundState) (updates : List (Nat × BitVec 8)) (balanced : Balanced now s) :
    Balanced now { s with updates := updates } := by
  cases balanced with
  | unbound _ ids held lines => exact .unbound _ ids held lines
  | idle _ ids mem base dev names held lines => exact .idle _ ids mem base dev ⟨names.mem, names.base, names.dev⟩ held lines
  | session _ ids mem base dev process names held lines =>
      exact .session _ ids mem base dev process ⟨names.mem, names.base, names.dev⟩ held lines

theorem balanced_mapped (now : Seen) (s : BoundState) (balanced : Balanced now s) (bound : now.bound = true) :
    s.mapped = true := by
  cases balanced with
  | unbound _ ids held lines => cases bound
  | idle _ ids mem base dev names held lines => exact binding_mapped s mem base dev _ names held
  | session _ ids mem base dev process names held lines => exact binding_mapped s mem base dev _ names held

-- A handler is given the device it was requested for, which is still registered.
theorem balanced_line (now : Seen) (s : BoundState) (irq : Int) (action : IrqAction) (balanced : Balanced now s)
    (held : s.lines irq = some action) : ∃ dev, action.devId = some dev ∧ .device dev ∈ s.held := by
  cases balanced with
  | unbound _ ids _ lines =>
      rw [lines irq] at held
      cases held
  | idle _ ids mem base dev names _ lines =>
      rw [lines irq] at held
      cases held
  | session _ ids mem base dev process names owned lines =>
      have member : RtcResource.device dev ∈ s.held := by simp [owned, bindingOf]
      rw [lines.2 irq] at held
      split at held
      · obtain rfl := Option.some.inj held
        exact ⟨dev, rfl, member⟩
      · split at held
        · obtain rfl := Option.some.inj held
          exact ⟨dev, rfl, member⟩
        · cases held

theorem run_rtc_update_irq (s : BoundState) (dev : Nat) (events : BitVec 8) (held : .device dev ∈ s.held) :
    (rtcUpdateIrq (some dev) events).run s = .done () { s with updates := s.updates ++ [(dev, events)] } := by
  simp [rtcUpdateIrq, Prog.run_access, held]

theorem interrupt_balanced (now : Seen) (s : BoundState) (irq : Int) (balanced : Balanced now s) :
    ∃ t, (interrupt irq).run s = .done () t ∧ Balanced now t := by
  cases line : s.lines irq with
  | none => exact ⟨s, by simp only [interrupt, Prog.run_bind, Prog.run_look, outcome_bind_done, line, Prog.run_pure], balanced⟩
  | some action =>
      obtain ⟨dev, same, held⟩ := balanced_line now s irq action balanced line
      obtain ⟨handler, devId, process⟩ := action
      have given : devId = some dev := same
      subst given
      cases handler with
      | alarmirq =>
          refine ⟨_, ?_, balanced_updates now s (s.updates ++ [(dev, rtcAf ||| rtcIrqf)]) balanced⟩
          simp only [interrupt, Prog.run_bind, Prog.run_look, outcome_bind_done, line, rtcAlarmirq,
            run_rtc_update_irq s dev _ held]
      | tickirq =>
          refine ⟨_, ?_, balanced_updates now s (s.updates ++ [(dev, rtcPf ||| rtcIrqf)]) balanced⟩
          simp only [interrupt, Prog.run_bind, Prog.run_look, outcome_bind_done, line, rtcTickirq,
            run_rtc_update_irq s dev _ held]

theorem serve_balanced (abi : Abi) (now : Seen) (s : BoundState) (call : RtcCall) (balanced : Balanced now s)
    (serves : Serves now call) : ∃ r t, (serveRtc abi call).run s = .done r t ∧ Balanced (now.next (call, r)) t := by
  cases call with
  | probe o =>
      cases balanced with
      | unbound _ ids held lines => exact probe_balanced abi o s ids held lines
      | idle _ ids mem base dev names held lines => cases serves
      | session _ ids mem base dev process names held lines => cases serves
  | remove =>
      cases balanced with
      | unbound _ ids held lines => cases serves.1
      | idle _ ids mem base dev names held lines =>
          obtain ⟨t, ran, after⟩ := remove_balanced s ids mem base dev names held lines
          exact ⟨0, t, ran, after⟩
      | session _ ids mem base dev process names held lines => cases serves.2
  | openFile process o =>
      cases balanced with
      | unbound _ ids held lines => cases serves
      | idle _ ids mem base dev names held lines => exact open_idle_balanced process o s ids mem base dev names held lines
      | session _ ids mem base dev owner names held lines =>
          exact open_session_balanced process owner o s ids mem base dev names held lines
  | closeFile process =>
      cases balanced with
      | unbound _ ids held lines => cases serves
      | idle _ ids mem base dev names held lines => cases serves
      | session _ ids mem base dev owner names held lines =>
          obtain rfl : process = owner := List.mem_singleton.mp serves
          obtain ⟨t, ran, -, -, after⟩ := close_balanced process s ids mem base dev names held lines
          refine ⟨0, t, by simp only [serveRtc, Prog.run_bind, ran, outcome_bind_done, Prog.run_pure], ?_⟩
          simpa only [Seen.next, List.erase_cons_head] using after
  | suspend =>
      obtain ⟨off, ran, -⟩ := run_rtc_suspend s.rtc
      exact ⟨0, _, run_on_rtc rtcSuspend s off 0 (balanced_mapped now s balanced serves) ran, balanced_rtc now s off balanced⟩
  | resume =>
      exact ⟨0, _, run_on_rtc rtcResume s _ 0 (balanced_mapped now s balanced serves) (run_rtc_resume s.rtc),
        balanced_rtc now s _ balanced⟩
  | interrupt irq =>
      obtain ⟨t, ran, after⟩ := interrupt_balanced now s irq balanced
      exact ⟨0, t, by simp only [serveRtc, Prog.run_bind, ran, outcome_bind_done, Prog.run_pure], after⟩

theorem history_balanced (abi : Abi) (regs : RtcReg → BitVec 8) (history : List (RtcCall × Int)) (last : BoundState)
    (ran : History (serveRtc abi) (fun past => Serves (seen past)) (unbound regs) history last) :
    Balanced (seen history) last := by
  apply history_invariant (serveRtc abi) (fun past => Serves (seen past)) (unbound regs)
    (fun past s => Balanced (seen past) s) _ _ history last ran
  · exact .unbound _ 0 rfl fun _ => rfl
  · intro past s t call r balanced serves called
    obtain ⟨again, u, ran, after⟩ := serve_balanced abi (seen past) s call balanced serves
    obtain ⟨rfl, rfl⟩ := Prog.run_unique ran called
    rw [seen_snoc]
    exact after

end OneDriver.Rtc
