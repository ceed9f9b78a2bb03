import OneDriver.Rtc.Lifecycle

set_option autoImplicit false

namespace OneDriver.Rtc

-- One use of the device: how its open is answered, and what the RTC core then has
-- the driver do to the chip.
structure Session where
  answers : OpenOutcome
  ioctl : RtcProg Int

def runSession (process : Nat) (x : Session) : BoundProg Int := do
  let ret ← rtcOpen process x.answers
  if ret ≠ 0 then pure ret
  else do
    let r ← onRtc x.ioctl
    rtcRelease
    pure r

def serveInterrupt (irq : Int) : BoundProg Int := do
  interrupt irq
  pure 0

-- A process opens and closes the device any number of times; the processor takes
-- any number of interrupts.
inductive Worker where
  | process (sessions : List Session)
  | interrupts (irqs : List Int)

def Worker.run (i : Nat) : Worker → BoundProg (List Int)
  | .process sessions => .series (runSession i) sessions
  | .interrupts irqs => .series serveInterrupt irqs

-- The driver is bound as in `bound`, and its lines are for that device.
structure Ready (bound s : BoundState) : Prop where
  alarmno : s.alarmno = bound.alarmno
  tickno : s.tickno = bound.tickno
  rtcMem : s.rtcMem = bound.rtcMem
  rtcBase : s.rtcBase = bound.rtcBase
  drvdata : s.drvdata = bound.drvdata
  held : s.held = bound.held
  ours : ∀ irq action, s.lines irq = some action → action.devId = bound.drvdata

structure Usable (bound : BoundState) : Prop where
  mapped : bound.mapped = true
  registered : ∃ dev, bound.drvdata = some dev ∧ .device dev ∈ bound.held

def SameLines (picks : Nat → Prop) (s t : BoundState) : Prop :=
  ∀ irq action, picks action.process → (t.lines irq = some action ↔ s.lines irq = some action)

theorem same_lines_refl (picks : Nat → Prop) (s : BoundState) : SameLines picks s s := fun _ _ _ => Iff.rfl

-- A process counts on the lines it has, and leaves those of the others alone.
def sharing (bound : BoundState) (p : Nat) : Contract BoundStep BoundState BoundFault where
  rely := fun s t => (Ready bound s → Ready bound t) ∧ SameLines (· = p) s t
  guarantee := fun s t => (Ready bound s → Ready bound t) ∧ SameLines (· ≠ p) s t
  allows := fun _ _ => True
  before := fun label s => match label with
    | .rtc _ => s.lines bound.alarmno = some ⟨.alarmirq, bound.drvdata, p⟩
    | _ => True
  tolerates := fun f => ∃ g, f = .rtc g
  refl := fun s => ⟨fun ready => ready, same_lines_refl _ s⟩
  trans := fun _ _ _ first second =>
    ⟨fun ready => second.1 (first.1 ready), fun irq action mine => (second.2 irq action mine).trans (first.2 irq action mine)⟩

variable (bound : BoundState) (p : Nat)

-- The lines that `p` has are those of `mine`.
structure Has (mine : Int → Option IrqAction) (s : BoundState) : Prop where
  ready : Ready bound s
  lines : ∀ irq action, action.process = p → (s.lines irq = some action ↔ mine irq = some action)

def noLines : Int → Option IrqAction := fun _ => none

def withLine (mine : Int → Option IrqAction) (irq : Int) (action : Option IrqAction) : Int → Option IrqAction :=
  fun other => if other = irq then action else mine other

def alarmAction : IrqAction := ⟨.alarmirq, bound.drvdata, p⟩

def tickAction : IrqAction := ⟨.tickirq, bound.drvdata, p⟩

def alarmLine : Int → Option IrqAction := withLine noLines bound.alarmno (some (alarmAction bound p))

def bothLines : Int → Option IrqAction := withLine (alarmLine bound p) bound.tickno (some (tickAction bound p))

theorem has_stable (mine : Int → Option IrqAction) : (sharing bound p).Stable (Has bound p mine) := by
  intro s t has moved
  exact ⟨moved.1 has.ready, fun irq action same => (moved.2 irq action same).trans (has.lines irq action same)⟩

theorem ready_set_line (s : BoundState) (irq : Int) (action : Option IrqAction) (ready : Ready bound s)
    (ours : ∀ given, action = some given → given.devId = bound.drvdata) : Ready bound (s.setLine irq action) where
  __ := ready
  ours := by
    intro other given held
    by_cases same : other = irq
    · rw [same, set_line_same] at held
      exact ours given held
    · rw [set_line_other _ _ _ _ same] at held
      exact ready.ours other given held

-- A line that is free becomes one of `p`, or one of `p` becomes free.
theorem set_line_has (mine : Int → Option IrqAction) (s : BoundState) (irq : Int) (action : Option IrqAction)
    (has : Has bound p mine s) (ours : ∀ given, action = some given → given.devId = bound.drvdata) :
    Has bound p (withLine mine irq action) (s.setLine irq action) where
  ready := ready_set_line bound s irq action has.ready ours
  lines := by
    intro other given same
    by_cases here : other = irq
    · rw [here, set_line_same, withLine, if_pos rfl]
    · rw [set_line_other _ _ _ _ here, withLine, if_neg here, has.lines other given same]

theorem set_line_gives (s : BoundState) (irq : Int) (action : Option IrqAction)
    (ours : ∀ given, action = some given → given.devId = bound.drvdata ∧ given.process = p)
    (mine : ∀ given, s.lines irq = some given → given.process = p) :
    (sharing bound p).guarantee s (s.setLine irq action) := by
  refine ⟨fun ready => ready_set_line bound s irq action ready fun given same => (ours given same).1, ?_⟩
  intro other given theirs
  by_cases here : other = irq
  · rw [here, set_line_same]
    refine iff_of_false (fun held => theirs (ours given held).2) fun held => theirs (mine given held)
  · rw [set_line_other _ _ _ _ here]

structure Answered (mine : Int → Option IrqAction) (irq : Int) (action : IrqAction) (ret : Int) (s : BoundState) : Prop where
  granted : ret = 0 → (∀ held, mine irq = some held → held.process ≠ p) ∧
    Has bound p (withLine mine irq (some action)) s
  refused : ret ≠ 0 → Has bound p mine s

theorem answered_stable (mine : Int → Option IrqAction) (irq : Int) (action : IrqAction) (ret : Int) :
    (sharing bound p).Stable (Answered bound p mine irq action ret) := by
  intro s t answered moved
  refine ⟨fun zero => ?_, fun nonzero => has_stable bound p mine s t (answered.refused nonzero) moved⟩
  obtain ⟨free, has⟩ := answered.granted zero
  exact ⟨free, has_stable bound p _ s t has moved⟩

theorem request_meets (mine : Int → Option IrqAction) (irq : Int) (action : IrqAction) (outcome : Int) (s : BoundState)
    (own : action.devId = bound.drvdata ∧ action.process = p) (has : Has bound p mine s) :
    (requestIrq irq action outcome).Meets (sharing bound p) (Answered bound p mine irq action) s := by
  apply Prog.meets_act _ _ _ _ _ (Has bound p mine) _ s (has_stable bound p mine) has
  · exact answered_stable bound p mine irq action
  · exact fun _ _ => trivial
  · intro t here _ _
    by_cases free : t.lines irq = none
    · by_cases granted : outcome = 0
      · have ours : ∀ given, some action = some given → given.devId = bound.drvdata ∧ given.process = p := by
          rintro given ⟨⟩
          exact own
        simp only [free, granted, and_self, if_true]
        refine ⟨set_line_gives bound p t irq (some action) ours (by simp [free]), fun _ => ⟨?_, ?_⟩, fun other => absurd rfl other⟩
        · intro held listed same
          have there := (here.lines irq held same).mpr listed
          rw [free] at there
          cases there
        · exact set_line_has bound p mine t irq (some action) here fun given same => (ours given same).1
      · simp only [granted, and_false, if_false, free, if_true]
        exact ⟨((sharing bound p).refl t).imp id fun _ => same_lines_refl _ t, fun zero => absurd zero granted, fun _ => here⟩
    · simp only [free, false_and, if_false]
      exact ⟨((sharing bound p).refl t).imp id fun _ => same_lines_refl _ t, fun zero => absurd zero (by decide), fun _ => here⟩

theorem free_meets (mine : Int → Option IrqAction) (irq : Int) (action : IrqAction) (s : BoundState)
    (listed : mine irq = some action) (own : action.process = p) (has : Has bound p mine s) :
    (freeIrq irq (bound.drvdata)).Meets (sharing bound p) (fun _ => Has bound p (withLine mine irq none)) s := by
  apply Prog.meets_access _ _ _ (Has bound p mine) _ s (has_stable bound p mine) has
  · exact fun _ => has_stable bound p _
  · exact fun _ _ => trivial
  · intro t here _
    have held := (here.lines irq action own).mpr listed
    have same := here.ready.ours irq action held
    refine ⟨(), t.setLine irq none, by simp [held, same, BoundState.setLine], ?_, ?_⟩
    · apply set_line_gives bound p t irq none (by simp)
      intro given there
      rw [held] at there
      exact Option.some.inj there ▸ own
    · exact set_line_has bound p mine t irq none here (by simp)

theorem look_meets {α : Type} (label : BoundStep) (get : BoundState → α) (value : α) (mine : Int → Option IrqAction)
    (s : BoundState) (quiet : ∀ step, label ≠ .rtc step) (reads : ∀ t, Ready bound t → get t = value)
    (has : Has bound p mine s) :
    (Prog.look label get : BoundProg α).Meets (sharing bound p) (fun v t => v = value ∧ Has bound p mine t) s := by
  apply Prog.meets_look _ _ _ (Has bound p mine) _ s (has_stable bound p mine) has
  · exact fun v t u here moved => ⟨here.1, has_stable bound p mine t u here.2 moved⟩
  · intro t _
    cases label with
    | rtc step => exact absurd rfl (quiet step)
    | _ => trivial
  · exact fun t here _ => ⟨⟨fun ready => ready, same_lines_refl _ t⟩, reads t here.ready, here⟩

theorem with_line_undone (irq : Int) (action : IrqAction) : withLine (withLine noLines irq (some action)) irq none = noLines := by
  funext other
  by_cases same : other = irq
  · simp [withLine, noLines, same]
  · simp [withLine, noLines, same]

structure Opened (ret : Int) (s : BoundState) : Prop where
  granted : ret = 0 → bound.alarmno ≠ bound.tickno ∧ Has bound p (bothLines bound p) s
  refused : ret ≠ 0 → Has bound p noLines s

theorem opened_stable (ret : Int) : (sharing bound p).Stable (Opened bound p ret) := by
  intro s t opened moved
  refine ⟨fun zero => ?_, fun nonzero => has_stable bound p _ s t (opened.refused nonzero) moved⟩
  obtain ⟨apart, has⟩ := opened.granted zero
  exact ⟨apart, has_stable bound p _ s t has moved⟩

theorem request_tick_meets (outcome : Int) (s : BoundState) (has : Has bound p (alarmLine bound p) s) :
    (requestTick p (bound.drvdata) outcome).Meets (sharing bound p) (Opened bound p) s := by
  apply Prog.meets_bind _ _ _ _ _ s (look_meets bound p .static _ bound.tickno _ s (by simp) (fun t ready => ready.tickno) has)
  rintro _ t ⟨rfl, here⟩
  apply Prog.meets_bind _ _ _ _ _ t
    (request_meets bound p (alarmLine bound p) bound.tickno (tickAction bound p) outcome t ⟨rfl, rfl⟩ here)
  intro ret u answered
  by_cases zero : ret = 0
  · obtain ⟨free, both⟩ := answered.granted zero
    rw [if_neg (not_not.mpr zero)]
    apply Prog.meets_pure _ _ _ _ (opened_stable bound p ret)
    refine ⟨fun _ => ⟨?_, both⟩, fun nonzero => absurd zero nonzero⟩
    intro same
    exact free (alarmAction bound p) (same ▸ if_pos rfl) rfl
  · have alarm := answered.refused zero
    rw [if_pos zero]
    apply Prog.meets_bind _ _ _ _ _ u
      (look_meets bound p .static _ bound.alarmno _ u (by simp) (fun t ready => ready.alarmno) alarm)
    rintro _ v ⟨rfl, there⟩
    apply Prog.meets_bind _ _ _ _ _ v
      (free_meets bound p (alarmLine bound p) bound.alarmno (alarmAction bound p) v (if_pos rfl) rfl there)
    intro _ w freed
    apply Prog.meets_pure _ _ _ _ (opened_stable bound p ret)
    refine ⟨fun same => absurd same zero, fun _ => ?_⟩
    rwa [alarmLine, with_line_undone] at freed

theorem open_meets (o : OpenOutcome) (s : BoundState) (has : Has bound p noLines s) :
    (rtcOpen p o).Meets (sharing bound p) (Opened bound p) s := by
  apply Prog.meets_bind _ _ _ _ _ s
    (look_meets bound p .drvdata _ (bound.drvdata) _ s (by simp) (fun t ready => ready.drvdata) has)
  rintro _ t ⟨rfl, here⟩
  apply Prog.meets_bind _ _ _ _ _ t (look_meets bound p .static _ bound.alarmno _ t (by simp) (fun t ready => ready.alarmno) here)
  rintro _ u ⟨rfl, there⟩
  apply Prog.meets_bind _ _ _ _ _ u
    (request_meets bound p noLines bound.alarmno (alarmAction bound p) o.alarm u ⟨rfl, rfl⟩ there)
  intro ret v answered
  by_cases zero : ret = 0
  · rw [if_neg (not_not.mpr zero)]
    exact request_tick_meets bound p o.tick v (answered.granted zero).2
  · rw [if_pos zero]
    apply Prog.meets_pure _ _ _ _ (opened_stable bound p ret)
    exact ⟨fun same => absurd same zero, fun _ => answered.refused zero⟩

theorem ready_mapped (s : BoundState) (ready : Ready bound s) : s.mapped = bound.mapped := by
  simp [BoundState.mapped, ready.rtcBase, ready.held]

theorem on_rtc_meets {α : Type} (usable : Usable bound) (prog : RtcProg α) (mine : Int → Option IrqAction) (s : BoundState)
    (listed : mine bound.alarmno = some (alarmAction bound p)) (has : Has bound p mine s) :
    (onRtc prog).Meets (sharing bound p) (fun _ => Has bound p mine) s := by
  apply Prog.meets_within _ _ _ _ _ prog (Has bound p mine) s (has_stable bound p mine) has
  · exact fun f => ⟨f, rfl⟩
  · intro label t here
    have mapped : t.mapped = true := (ready_mapped bound t here.ready).trans usable.mapped
    simp [needsMapping, mapped]
  · intro label t here
    exact (here.lines bound.alarmno (alarmAction bound p) rfl).mpr listed
  · exact fun rtc t here => ⟨{ here.ready with }, here.lines⟩
  · exact fun rtc t here => ⟨fun ready => { ready with }, fun _ _ _ => Iff.rfl⟩

theorem both_lines_freed : withLine (withLine (bothLines bound p) bound.alarmno none) bound.tickno none = noLines := by
  funext irq
  by_cases isTick : irq = bound.tickno
  · rw [withLine, if_pos isTick, noLines]
  · rw [withLine, if_neg isTick]
    by_cases isAlarm : irq = bound.alarmno
    · rw [withLine, if_pos isAlarm, noLines]
    · rw [withLine, if_neg isAlarm, bothLines, withLine, if_neg isTick, alarmLine, withLine, if_neg isAlarm]

theorem both_lines_alarm (apart : bound.alarmno ≠ bound.tickno) : bothLines bound p bound.alarmno = some (alarmAction bound p) := by
  rw [bothLines, withLine, if_neg apart, alarmLine, withLine, if_pos rfl]

theorem release_meets (usable : Usable bound) (s : BoundState) (apart : bound.alarmno ≠ bound.tickno) (has : Has bound p (bothLines bound p) s) :
    rtcRelease.Meets (sharing bound p) (fun _ => Has bound p noLines) s := by
  have isAlarm := both_lines_alarm bound p apart
  apply Prog.meets_bind _ _ _ _ _ s
    (look_meets bound p .drvdata _ (bound.drvdata) _ s (by simp) (fun t ready => ready.drvdata) has)
  rintro _ t ⟨rfl, here⟩
  apply Prog.meets_bind _ _ _ _ _ t (on_rtc_meets bound p usable (rtcSetpie 0) _ t isAlarm here)
  intro _ u quiet
  apply Prog.meets_bind _ _ _ _ _ u (look_meets bound p .static _ bound.alarmno _ u (by simp) (fun t ready => ready.alarmno) quiet)
  rintro _ v ⟨rfl, held⟩
  apply Prog.meets_bind _ _ _ _ _ v (free_meets bound p _ bound.alarmno (alarmAction bound p) v isAlarm rfl held)
  intro _ w half
  apply Prog.meets_bind _ _ _ _ _ w
    (look_meets bound p .static _ bound.tickno _ w (by simp) (fun t ready => ready.tickno) half)
  rintro _ x ⟨rfl, left⟩
  have isTick : withLine (bothLines bound p) bound.alarmno none bound.tickno = some (tickAction bound p) := by
    rw [withLine, if_neg (Ne.symm apart), bothLines, withLine, if_pos rfl]
  have freed := free_meets bound p _ bound.tickno (tickAction bound p) x isTick rfl left
  rwa [both_lines_freed bound p] at freed

theorem session_meets (usable : Usable bound) (x : Session) (s : BoundState) (has : Has bound p noLines s) :
    (runSession p x).Meets (sharing bound p) (fun _ => Has bound p noLines) s := by
  apply Prog.meets_bind _ _ _ _ _ s (open_meets bound p x.answers s has)
  intro ret t opened
  by_cases zero : ret = 0
  · obtain ⟨apart, both⟩ := opened.granted zero
    rw [if_neg (not_not.mpr zero)]
    apply Prog.meets_bind _ _ _ _ _ t
      (on_rtc_meets bound p usable x.ioctl _ t (both_lines_alarm bound p apart) both)
    intro r u held
    apply Prog.meets_bind _ _ _ _ _ u (release_meets bound p usable u apart held)
    intro _ v freed
    exact Prog.meets_pure _ _ _ _ (has_stable bound p noLines) freed
  · rw [if_pos zero]
    exact Prog.meets_pure _ _ _ _ (has_stable bound p noLines) (opened.refused zero)

theorem update_meets (usable : Usable bound) (mine : Int → Option IrqAction) (events : BitVec 8) (s : BoundState) (has : Has bound p mine s) :
    (rtcUpdateIrq (bound.drvdata) events).Meets (sharing bound p) (fun _ => Has bound p mine) s := by
  apply Prog.meets_access _ _ _ (Has bound p mine) _ s (has_stable bound p mine) has
  · exact fun _ => has_stable bound p mine
  · exact fun _ _ => trivial
  · intro t here _
    obtain ⟨dev, same, registered⟩ := usable.registered
    have member : RtcResource.device dev ∈ t.held := here.ready.held ▸ registered
    refine ⟨(), { t with updates := t.updates ++ [(dev, events)] }, ?_, ?_, { here.ready with }, here.lines⟩
    · simp only [same]
      exact if_pos member
    · exact ⟨fun ready => { ready with }, fun _ _ _ => Iff.rfl⟩

-- The handler runs with the device it found the line to be for, which stays
-- registered though the line may be freed.
theorem interrupt_meets (usable : Usable bound) (mine : Int → Option IrqAction) (irq : Int) (s : BoundState) (has : Has bound p mine s) :
    (serveInterrupt irq).Meets (sharing bound p) (fun _ => Has bound p mine) s := by
  have ends : ∀ (u : BoundState), Has bound p mine u →
      (pure 0 : BoundProg Int).Meets (sharing bound p) (fun _ => Has bound p mine) u :=
    fun u there => Prog.meets_pure _ _ _ _ (has_stable bound p mine) there
  apply Prog.meets_bind _ _ _ (fun _ => Has bound p mine) _ s _ fun _ u there => ends u there
  apply Prog.meets_bind _ _ _
    (fun found t => (∀ action, found = some action → action.devId = bound.drvdata) ∧ Has bound p mine t) _ s
  · apply Prog.meets_look _ _ _ (Has bound p mine) _ s (has_stable bound p mine) has
    · exact fun found t u here moved => ⟨here.1, has_stable bound p mine t u here.2 moved⟩
    · exact fun _ _ => trivial
    · exact fun t here _ => ⟨⟨fun ready => ready, same_lines_refl _ t⟩, fun action held => here.ready.ours irq action held, here⟩
  · rintro found t ⟨ours, here⟩
    cases found with
    | none => exact Prog.meets_pure _ _ _ _ (has_stable bound p mine) here
    | some action =>
        obtain ⟨handler, devId, process⟩ := action
        obtain rfl : devId = bound.drvdata := ours _ rfl
        cases handler with
        | alarmirq => exact update_meets bound p usable mine _ t here
        | tickirq => exact update_meets bound p usable mine _ t here

theorem worker_meets (usable : Usable bound) (worker : Worker) (s : BoundState) (has : Has bound p noLines s) :
    (worker.run p).Meets (sharing bound p) (fun _ => Has bound p noLines) s := by
  cases worker with
  | process sessions =>
      exact Prog.meets_series _ _ (Has bound p noLines) (has_stable bound p noLines) sessions
        (fun x _ t here => session_meets bound p usable x t here) s has
  | interrupts irqs =>
      exact Prog.meets_series _ _ (Has bound p noLines) (has_stable bound p noLines) irqs
        (fun irq _ t here => interrupt_meets bound p usable noLines irq t here) s has

theorem sharing_compatible : Pool.Compatible (sharing bound) := by
  intro i j other s t given
  exact ⟨given.1, fun irq action mine => given.2 irq action (mine ▸ other)⟩

def work (workers : List Worker) : List (BoundProg (List Int)) := workers.mapIdx fun i worker => worker.run i

theorem work_meets (usable : Usable bound) (free : ∀ irq, bound.lines irq = none) (workers : List Worker) :
    Pool.AllMeet (sharing bound) (fun i _ => Has bound i noLines) (Pool.start bound (work workers)) := by
  have ready : Ready bound bound := ⟨rfl, rfl, rfl, rfl, rfl, rfl, fun irq action held => by simp [free] at held⟩
  apply Pool.start_all_meet
  intro i prog listed
  obtain ⟨worker, -, rfl⟩ : ∃ worker, workers[i]? = some worker ∧ worker.run i = prog := by
    simpa [work, List.getElem?_mapIdx] using listed
  exact worker_meets bound i usable worker bound ⟨ready, fun irq action _ => by simp [free, noLines]⟩

theorem balanced_idle (now : Seen) (balanced : Balanced now bound) (idle : now.bound = true ∧ now.sessions = []) :
    Usable bound ∧ (∀ irq, bound.lines irq = none) ∧
      ∀ s, Ready bound s → (∀ irq, s.lines irq = none) → Balanced now s := by
  cases balanced with
  | unbound _ ids held lines => cases idle.1
  | idle _ ids mem base dev names held lines =>
      have member : RtcResource.device dev ∈ bound.held := by simp [held, bindingOf]
      refine ⟨⟨binding_mapped bound mem base dev _ names held, dev, names.dev, member⟩, lines, fun s ready free => ?_⟩
      exact .idle s ids mem base dev
        ⟨ready.rtcMem.trans names.mem, ready.rtcBase.trans names.base, ready.drvdata.trans names.dev⟩
        (ready.held.trans held) free
  | session _ ids mem base dev process names held lines => cases idle.2

-- Whatever has no thread holds no line, and a finished thread none either.
theorem finished_free (pool : Pool BoundStep BoundState BoundFault (List Int))
    (free : ∀ irq, bound.lines irq = none)
    (meets : Pool.AllMeet (sharing bound) (fun i _ => Has bound i noLines) pool)
    (absent : ∀ j, pool.threads.length ≤ j → (sharing bound j).rely bound pool.shared)
    (finished : pool.finished = true) (irq : Int) : pool.shared.lines irq = none := by
  cases held : pool.shared.lines irq with
  | none => rfl
  | some action =>
      rcases Nat.lt_or_ge action.process pool.threads.length with present | missing
      · have every := List.all_eq_true.mp finished
        obtain ⟨results, ended⟩ := Option.isSome_iff_exists.mp (every _ (List.getElem_mem present))
        have has := Pool.all_meet_value (sharing bound) _ pool action.process results meets
          (by simp [List.getElem?_eq_getElem present, ended])
        cases (has.lines irq action rfl).mp held
      · have began := ((absent action.process missing).2 irq action rfl).mp held
        rw [free] at began
        cases began

-- Wherever the driver has been, from a bound device with no session open: however its
-- processes and interrupts are interleaved, only the chip's own faults are met, no two
-- of them are ever about to touch the chip, and when all are done the driver is again
-- as it was when the device was bound.
theorem sessions_exclusive (abi : Abi) (regs : RtcReg → BitVec 8) (history : List (RtcCall × Int)) (bound : BoundState)
    (loaded : History (serveRtc abi) (fun past => Serves (seen past)) (unbound regs) history bound)
    (idle : (seen history).bound = true ∧ (seen history).sessions = []) (workers : List Worker) (schedule : List Nat)
    (pool : Pool BoundStep BoundState BoundFault (List Int))
    (ran : (Pool.start bound (work workers)).exec schedule = some pool) :
    (∀ (i : Nat) (f : BoundFault), pool.threads[i]?.bind Thread.fault = some f → ∃ g, f = .rtc g) ∧
      (∀ (i j : Nat) (first second : RtcStep), pool.threads[i]?.bind Thread.upcoming = some (.rtc first) →
        pool.threads[j]?.bind Thread.upcoming = some (.rtc second) → i = j) ∧
      (pool.finished = true → Balanced (seen history) pool.shared ∧ pool.shared.held = bound.held ∧
        ∀ irq, pool.shared.lines irq = none) := by
  obtain ⟨usable, free, again⟩ := balanced_idle bound (seen history) (history_balanced abi regs history bound loaded) idle
  have initial := work_meets bound usable free workers
  have steps := Pool.exec_run _ pool schedule ran
  have meets := Pool.all_meet_run _ _ (sharing_compatible bound) _ (fun _ _ _ _ _ => trivial) _ pool schedule initial steps
  refine ⟨fun i f faulted => Pool.all_meet_fault _ _ pool i f meets faulted, fun i j first second one two => ?_, ?_⟩
  · have mine := Pool.all_meet_before _ _ pool i _ meets one
    have theirs := Pool.all_meet_before _ _ pool j _ meets two
    have same := Option.some.inj (mine.symm.trans theirs)
    exact congrArg IrqAction.process same
  · intro finished
    have absent : ∀ j, pool.threads.length ≤ j → (sharing bound j).rely bound pool.shared := fun j missing =>
      Pool.all_meet_rely _ _ (sharing_compatible bound) _ (fun _ _ _ _ _ => trivial) _ pool schedule initial steps j
        (by rwa [← Pool.run_length _ _ _ _ steps])
    have ready : Ready bound pool.shared := (absent pool.threads.length (Nat.le_refl _)).1
      ⟨rfl, rfl, rfl, rfl, rfl, rfl, fun irq action held => by simp [free] at held⟩
    have freed := finished_free bound pool free meets absent finished
    exact ⟨again pool.shared ready freed, ready.held, freed⟩

def mappable : RtcProbe := ⟨46, 24, true, true, true, none⟩

def mappedBoard : BoundState := ((probeRtc .ilp32 mappable).run (unbound fun _ => 0)).state

def contenders : List Worker := [.process [⟨⟨0, 0⟩, rtcSetpie 0⟩], .process [⟨⟨0, 0⟩, rtcSetpie 1⟩]]

-- The first process has the alarm line when the second asks for it.
theorem second_open_kept_out : ∃ pool,
    (Pool.start mappedBoard (work contenders)).exec [0, 0, 0, 1, 1, 1, 0, 0] = some pool ∧
      ∀ (i j : Nat) (first second : RtcStep), pool.threads[i]?.bind Thread.upcoming = some (.rtc first) →
        pool.threads[j]?.bind Thread.upcoming = some (.rtc second) → i = j := by
  have loaded : History (serveRtc .ilp32) (fun past => Serves (seen past)) (unbound fun _ => 0)
      [(.probe mappable, 0)] mappedBoard := .snoc [] _ _ _ _ .nil rfl rfl
  obtain ⟨pool, ran⟩ :
      ∃ pool, (Pool.start mappedBoard (work contenders)).exec [0, 0, 0, 1, 1, 1, 0, 0] = some pool := ⟨_, rfl⟩
  exact ⟨pool, ran, (sessions_exclusive .ilp32 _ _ mappedBoard loaded ⟨rfl, rfl⟩ contenders _ pool ran).2.1⟩

end OneDriver.Rtc
