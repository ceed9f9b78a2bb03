import OneDriver.CInt
import OneDriver.Ledger
import Mathlib.Algebra.Order.Group.Multiset
import Mathlib.Tactic.Abel

set_option autoImplicit false

namespace OneDriver.Adc

inductive Resource where
  | mapping (id : Nat)
  | clockRef (id : Nat)
  | clockOn (id : Nat)
  | handler
  | miscdev
deriving DecidableEq, Repr

-- The statics of one load, and what the kernel has handed out.
structure ModuleState where
  baseAddr : Option Nat
  adcClock : ErrPtr
  held : Multiset Resource
  grants : Nat

inductive ModuleStep where
  | static
  | ioremap | clkGet | clkEnable | adctsc | requestIrq | miscRegister
  | freeIrq | iounmap | clkDisable | clkPut | miscDeregister
deriving DecidableEq, Repr

inductive ModuleFault where
  | misuse (how : Misuse)
  | badClock
  | unmapped
deriving DecidableEq, Repr

abbrev ModuleProg := Prog ModuleStep ModuleState ModuleFault

def heldPart : Part ModuleState (Multiset Resource) where
  get := ModuleState.held
  set := fun held s => { s with held := held }
  get_set := fun _ _ => rfl
  set_get := fun _ => rfl
  set_set := fun _ _ _ => rfl

def acquire (label : ModuleStep) (r : Resource) : ModuleProg Unit := .acquire heldPart label r

def release (label : ModuleStep) (r : Option Resource) : ModuleProg Unit := .release heldPart label .misuse r

def newGrant (label : ModuleStep) : ModuleProg Nat :=
  .act label (fun _ => true) (fun s => { s with grants := s.grants + 1 }) fun s => .ret s.grants

def ModuleState.mapped (s : ModuleState) : Bool :=
  match s.baseAddr with
  | some base => decide (.mapping base ∈ s.held)
  | none => false

-- How the kernel answers the calls of one load; clk_get fails with an error
-- pointer, never with NULL.
structure LoadOutcome where
  ioremap : Bool
  clkGet : Option Errno
  requestIrq : Int
  registered : Int

def ioremap (granted : Bool) : ModuleProg (Option Nat) :=
  if granted then do
    let id ← newGrant .ioremap
    acquire .ioremap (.mapping id)
    pure (some id)
  else pure none

def clkGet : Option Errno → ModuleProg ErrPtr
  | some errno => pure (.error errno)
  | none => do
      let id ← newGrant .clkGet
      acquire .clkGet (.clockRef id)
      pure (.object id)

-- The clock calls dereference what they are given.
def clkEnable : ErrPtr → ModuleProg Unit
  | .object id => acquire .clkEnable (.clockOn id)
  | _ => .crash .badClock

def clearAdctsc : ModuleProg Unit := .access .adctsc fun s => if s.mapped then .ok ((), s) else .error .unmapped

def requestIrq (result : Int) : ModuleProg Int := do
  if result = 0 then acquire .requestIrq .handler else pure ()
  pure result

def miscRegister (result : Int) : ModuleProg Int := do
  if result = 0 then acquire .miscRegister .miscdev else pure ()
  pure result

def iounmap : ModuleProg Unit := do
  let base ← Prog.look .static (·.baseAddr)
  release .iounmap (base.map .mapping)

def initHandler (o : LoadOutcome) : ModuleProg Int := do
  clearAdctsc
  let ret ← requestIrq o.requestIrq
  if ret ≠ 0 then do
    iounmap
    pure ret
  else miscRegister o.registered

-- Only NULL is taken for a failure of clk_get.
def initClock (o : LoadOutcome) : ModuleProg Int := do
  let clock ← clkGet o.clkGet
  Prog.modify .static fun s => { s with adcClock := clock }
  match clock with
  | .null => pure (-enoent)
  | _ => do
      clkEnable clock
      initHandler o

def adcModuleInit (o : LoadOutcome) : ModuleProg Int := do
  let base ← ioremap o.ioremap
  Prog.modify .static fun s => { s with baseAddr := base }
  if base = none then pure (-enomem) else initClock o

def putClock : ErrPtr → ModuleProg Unit
  | .null => pure ()
  | clock => do
      release .clkDisable (clock.resource .clockOn)
      release .clkPut (clock.resource .clockRef)
      Prog.modify .static fun s => { s with adcClock := .null }

def adcModuleExit : ModuleProg Unit := do
  release .freeIrq (some .handler)
  iounmap
  let clock ← Prog.look .static (·.adcClock)
  putClock clock
  release .miscDeregister (some .miscdev)

def ModuleState.reload (s : ModuleState) : ModuleState := { s with baseAddr := none, adcClock := .null }

def notLoaded : ModuleState := ⟨none, .null, 0, 0⟩

inductive ModuleEvent where
  | load (o : LoadOutcome)
  | unload

-- A load that fails and an unload leave nothing held. The kernel refuses to load
-- a module twice, or to unload it when it is not there.
def ModuleLaw : Bool → ModuleState → List ModuleEvent → Prop
  | _, _, [] => True
  | false, s, .load o :: rest => ∃ r t, (adcModuleInit o).run s.reload = .done r t ∧
      (r = 0 → ModuleLaw true t rest) ∧ (r ≠ 0 → t.held = 0 ∧ ModuleLaw false t rest)
  | false, s, .unload :: rest => ModuleLaw false s rest
  | true, s, .load _ :: rest => ModuleLaw true s rest
  | true, s, .unload :: rest => ∃ t, adcModuleExit.run s = .done () t ∧ t.held = 0 ∧ ModuleLaw false t rest

def LoadOutcome.Succeeds (o : LoadOutcome) : Prop :=
  o.ioremap = true ∧ o.clkGet = none ∧ o.requestIrq = 0 ∧ o.registered = 0

instance (o : LoadOutcome) : Decidable o.Succeeds := inferInstanceAs (Decidable (_ ∧ _))

def afterEvent : Bool → ModuleEvent → Bool
  | false, .load o => decide o.Succeeds
  | true, .load _ => true
  | _, .unload => false

-- A load that is carried out fails at its first call or not at all.
def AllOrNothing : Bool → ModuleEvent → Prop
  | false, .load o => o.ioremap = false ∨ o.Succeeds
  | _, _ => True

theorem run_release (label : ModuleStep) (r : Resource) (rest : Multiset Resource) (s : ModuleState)
    (held : s.held = r ::ₘ rest) : (release label (some r)).run s = .done () { s with held := rest } :=
  Prog.run_release_held heldPart label ModuleFault.misuse r rest s held

theorem run_ioremap (s : ModuleState) : (ioremap true).run s =
    .done (some s.grants) { s with grants := s.grants + 1, held := .mapping s.grants ::ₘ s.held } := rfl

def clocked (s : ModuleState) : ModuleState where
  baseAddr := some s.grants
  adcClock := .object (s.grants + 1)
  held := .clockOn (s.grants + 1) ::ₘ .clockRef (s.grants + 1) ::ₘ {.mapping s.grants}
  grants := s.grants + 2

theorem init_refused (o : LoadOutcome) (s : ModuleState) (refused : o.ioremap = false) :
    (adcModuleInit o).run s.reload = .done (-enomem) s.reload := by
  simp [adcModuleInit, ioremap, refused, ModuleState.reload]

theorem init_bad_clock (o : LoadOutcome) (s : ModuleState) (mapped : o.ioremap = true) (errno : Errno)
    (failed : o.clkGet = some errno) : ∃ t, (adcModuleInit o).run s = .crashed .badClock t := by
  simp only [adcModuleInit, initClock, mapped, failed]
  exact ⟨_, rfl⟩

theorem init_clocked (o : LoadOutcome) (s : ModuleState) (mapped : o.ioremap = true) (clock : o.clkGet = none)
    (empty : s.held = 0) : (adcModuleInit o).run s.reload = (initHandler o).run (clocked s) := by
  have start : s.reload = ⟨none, .null, 0, s.grants⟩ := by
    rw [← empty]
    rfl
  rw [start]
  simp only [adcModuleInit, initClock, mapped, clock]
  rfl

theorem clocked_mapped (s : ModuleState) : (clocked s).mapped = true := by
  simp [clocked, ModuleState.mapped]

theorem clocked_order (s : ModuleState) :
    (clocked s).held = .mapping s.grants ::ₘ .clockOn (s.grants + 1) ::ₘ {.clockRef (s.grants + 1)} := by
  simp only [clocked, ← Multiset.singleton_add]
  abel

theorem run_iounmap (s : ModuleState) (base : Nat) (rest : Multiset Resource) (named : s.baseAddr = some base)
    (held : s.held = .mapping base ::ₘ rest) : iounmap.run s = .done () { s with held := rest } := by
  simp only [iounmap, Prog.run_bind, Prog.run_look, outcome_bind_done, named, Option.map_some,
    run_release .iounmap (.mapping base) rest s held]

theorem run_request_irq (result : Int) (s : ModuleState) : (requestIrq result).run s =
    .done result (if result = 0 then { s with held := .handler ::ₘ s.held } else s) :=
  Prog.run_acquire_if heldPart ModuleStep.requestIrq .handler result s

theorem run_misc_register (result : Int) (s : ModuleState) : (miscRegister result).run s =
    .done result (if result = 0 then { s with held := .miscdev ::ₘ s.held } else s) :=
  Prog.run_acquire_if heldPart ModuleStep.miscRegister .miscdev result s

theorem run_init_handler (o : LoadOutcome) (s : ModuleState) :
    (initHandler o).run (clocked s) = (requestIrq o.requestIrq >>= fun ret =>
      if ret ≠ 0 then iounmap >>= fun _ => pure ret else miscRegister o.registered).run (clocked s) := by
  have cleared : clearAdctsc.run (clocked s) = .done () (clocked s) := by
    simp [clearAdctsc, Prog.run_access, clocked_mapped]
  rw [initHandler, Prog.run_bind, cleared, outcome_bind_done]

-- The unwinding of request_irq gives back the mapping only.
theorem init_irq_refused (o : LoadOutcome) (s : ModuleState) (refused : o.requestIrq ≠ 0) :
    (initHandler o).run (clocked s) = .done o.requestIrq
      { clocked s with held := .clockOn (s.grants + 1) ::ₘ {.clockRef (s.grants + 1)} } := by
  rw [run_init_handler, Prog.run_bind, run_request_irq, outcome_bind_done, if_neg refused, if_pos refused, Prog.run_bind,
    run_iounmap (clocked s) s.grants _ rfl (clocked_order s), outcome_bind_done, Prog.run_pure]

theorem init_to_the_end (o : LoadOutcome) (s : ModuleState) (installed : o.requestIrq = 0) :
    (initHandler o).run (clocked s) = .done o.registered { clocked s with
      held := (if o.registered = 0 then {.miscdev} else 0) + .handler ::ₘ (clocked s).held } := by
  rw [run_init_handler, Prog.run_bind, run_request_irq, installed, outcome_bind_done, if_pos rfl, if_neg (by simp),
    run_misc_register]
  by_cases registered : o.registered = 0
  · rw [if_pos registered, if_pos registered, Multiset.singleton_add]
  · rw [if_neg registered, if_neg registered, zero_add]

def Loaded (s : ModuleState) : Prop :=
  ∃ base clock, s.baseAddr = some base ∧ s.adcClock = .object clock ∧
    s.held = .handler ::ₘ .mapping base ::ₘ .clockOn clock ::ₘ .clockRef clock ::ₘ {.miscdev}

theorem init_loads (o : LoadOutcome) (s : ModuleState) (empty : s.held = 0) (succeeds : o.Succeeds) :
    ∃ t, (adcModuleInit o).run s.reload = .done 0 t ∧ Loaded t := by
  obtain ⟨mapped, clock, installed, registered⟩ := succeeds
  refine ⟨_, by rw [init_clocked o s mapped clock empty, init_to_the_end o s installed, registered],
    s.grants, s.grants + 1, rfl, rfl, ?_⟩
  simp only [if_true, clocked_order, ← Multiset.singleton_add]
  abel

-- Between the mapping and the last call every failure leaves something behind.
theorem init_leaks (o : LoadOutcome) (s t : ModuleState) (r : Int) (empty : s.held = 0) (mapped : o.ioremap = true)
    (fails : ¬ o.Succeeds) (ran : (adcModuleInit o).run s.reload = .done r t) : r ≠ 0 ∧ t.held ≠ 0 := by
  cases clock : o.clkGet with
  | some errno =>
      obtain ⟨u, faults⟩ := init_bad_clock o s.reload mapped errno clock
      rw [faults] at ran
      contradiction
  | none =>
      rw [init_clocked o s mapped clock empty] at ran
      by_cases installed : o.requestIrq = 0
      · have refused : o.registered ≠ 0 := fun registered => fails ⟨mapped, clock, installed, registered⟩
        obtain ⟨rfl, rfl⟩ := Prog.run_unique (init_to_the_end o s installed) ran
        exact ⟨refused, by simp [refused]⟩
      · obtain ⟨rfl, rfl⟩ := Prog.run_unique (init_irq_refused o s installed) ran
        exact ⟨installed, by simp⟩

theorem exit_leaves_nothing (s : ModuleState) (loaded : Loaded s) :
    adcModuleExit.wp (fun _ t => t.held = 0) s := by
  obtain ⟨base, clock, base', clock', held⟩ := loaded
  simp only [adcModuleExit, Prog.wp_bind]
  refine Prog.wp_of_run _ _ _ _ _ _ (run_release .freeIrq .handler _ s held) ?_
  refine Prog.wp_of_run _ _ _ _ _ _ (run_iounmap _ base (.clockOn clock ::ₘ .clockRef clock ::ₘ {.miscdev}) base' rfl) ?_
  simp only [Prog.wp_look, clock', putClock, ErrPtr.resource, Prog.wp_bind]
  refine Prog.wp_of_run _ _ _ _ _ _ (run_release .clkDisable (.clockOn clock) (.clockRef clock ::ₘ {.miscdev}) _ rfl) ?_
  refine Prog.wp_of_run _ _ _ _ _ _ (run_release .clkPut (.clockRef clock) {.miscdev} _ rfl) ?_
  simp only [Prog.wp_modify]
  exact Prog.wp_of_run _ _ _ _ _ _ (run_release .miscDeregister .miscdev 0 _ rfl) rfl

def Balanced : Bool → ModuleState → Prop
  | false, s => s.held = 0
  | true, s => Loaded s

theorem after_load (o : LoadOutcome) (s t : ModuleState) (r : Int) (empty : s.held = 0) (fine : AllOrNothing false (.load o))
    (ran : (adcModuleInit o).run s.reload = .done r t) :
    Balanced (afterEvent false (.load o)) t ∧ (r = 0 ↔ o.Succeeds) := by
  obtain refused | succeeds := fine
  -- ioremap is the first call: nothing has been acquired yet.
  · have fails : ¬ o.Succeeds := fun succeeds => by simp [succeeds.1] at refused
    obtain ⟨rfl, rfl⟩ := Prog.run_unique (init_refused o s refused) ran
    simp only [afterEvent, fails, decide_false, iff_false]
    exact ⟨empty, by decide⟩
  · obtain ⟨u, init, loaded⟩ := init_loads o s empty succeeds
    obtain ⟨rfl, rfl⟩ := Prog.run_unique init ran
    simp only [afterEvent, succeeds, decide_true]
    exact ⟨loaded, trivial⟩

theorem load_runs (o : LoadOutcome) (s : ModuleState) (empty : s.held = 0) (fine : AllOrNothing false (.load o)) :
    ∃ r t, (adcModuleInit o).run s.reload = .done r t := by
  obtain refused | succeeds := fine
  · exact ⟨_, _, init_refused o s refused⟩
  · obtain ⟨t, init, -⟩ := init_loads o s empty succeeds
    exact ⟨0, t, init⟩

theorem module_law_needs (loaded : Bool) (s : ModuleState) (event : ModuleEvent) (rest : List ModuleEvent)
    (stands : Balanced loaded s) (law : ModuleLaw loaded s (event :: rest)) :
    AllOrNothing loaded event ∧ ∃ t, Balanced (afterEvent loaded event) t ∧ ModuleLaw (afterEvent loaded event) t rest := by
  cases loaded with
  | false =>
      cases event with
      | load o =>
          obtain ⟨r, t, ran, goes, unwound⟩ := law
          have fine : AllOrNothing false (.load o) := by
            by_contra leaky
            obtain ⟨mapped, fails⟩ : o.ioremap = true ∧ ¬ o.Succeeds := by simpa [AllOrNothing] using leaky
            obtain ⟨nonzero, leaks⟩ := init_leaks o s t r stands mapped fails ran
            exact leaks (unwound nonzero).1
          obtain ⟨balanced, zero⟩ := after_load o s t r stands fine ran
          refine ⟨fine, t, balanced, ?_⟩
          by_cases succeeds : o.Succeeds
          · simpa [afterEvent, succeeds] using goes (zero.mpr succeeds)
          · simpa [afterEvent, succeeds] using (unwound (mt zero.mp succeeds)).2
      | unload => exact ⟨trivial, s, stands, law⟩
  | true =>
      cases event with
      | load o => exact ⟨trivial, s, stands, law⟩
      | unload =>
          obtain ⟨t, ran, empty, later⟩ := law
          exact ⟨trivial, t, empty, later⟩

theorem all_or_nothing_gives_law (loaded : Bool) (s : ModuleState) (event : ModuleEvent) (rest : List ModuleEvent)
    (stands : Balanced loaded s) (fine : AllOrNothing loaded event) : ∃ t, Balanced (afterEvent loaded event) t ∧
      (ModuleLaw (afterEvent loaded event) t rest → ModuleLaw loaded s (event :: rest)) := by
  cases loaded with
  | false =>
      cases event with
      | load o =>
          obtain ⟨r, t, ran⟩ := load_runs o s stands fine
          obtain ⟨balanced, zero⟩ := after_load o s t r stands fine ran
          refine ⟨t, balanced, fun later => ⟨r, t, ran, fun ok => ?_, fun failed => ?_⟩⟩
          · simpa [afterEvent, zero.mp ok] using later
          · have fails : ¬ o.Succeeds := mt zero.mpr failed
            simp only [afterEvent, fails, decide_false] at balanced later
            exact ⟨balanced, later⟩
      | unload => exact ⟨s, stands, id⟩
  | true =>
      cases event with
      | load o => exact ⟨s, stands, id⟩
      | unload =>
          obtain ⟨_, t, ran, empty⟩ := (Prog.wp_iff_run _ _ s).mp (exit_leaves_nothing s stands)
          exact ⟨t, empty, fun later => ⟨t, ran, empty, later⟩⟩

theorem adc_ledger_iff (events : List ModuleEvent) :
    ModuleLaw false notLoaded events ↔ Follows afterEvent AllOrNothing false events :=
  law_iff_follows ModuleLaw afterEvent AllOrNothing Balanced (fun loaded _ => by cases loaded <;> trivial) module_law_needs
    all_or_nothing_gives_law events false notLoaded rfl

-- request_irq answers -EBUSY and the clock stays enabled.
theorem refused_irq_keeps_clock : ¬ ModuleLaw false notLoaded [.load ⟨true, none, -ebusy, 0⟩] := by
  intro law
  obtain ⟨r, t, ran, -, unwound⟩ := law
  obtain ⟨nonzero, leaks⟩ := init_leaks _ _ t r rfl rfl (by decide) ran
  exact leaks (unwound nonzero).1

end OneDriver.Adc
