import OneDriver.Watchdog.Binding

set_option autoImplicit false

namespace OneDriver.Watchdog

def onTraffic (label : PlatformStep) (set : Traffic → Traffic) : PlatformProg Unit :=
  .modify label fun s => { s with traffic := set s.traffic }

def admitted (label : PlatformStep) (ready : PlatformState → Bool) (set : Traffic → Traffic) : PlatformProg Unit :=
  .await label ready fun s => { s with traffic := set s.traffic }

def miscOpen (thread : Nat) : PlatformProg Bool :=
  .act (.miscOpen thread) (fun _ => true)
    (fun s => if .miscdev ∈ s.held then { s with traffic := { s.traffic with opening := insert thread s.traffic.opening } }
      else s)
    fun s => .ret (decide (.miscdev ∈ s.held))

def Traffic.opened (thread : Nat) (r : Int) (t : Traffic) : Traffic := { t with
  opening := t.opening.erase thread
  files := if r = 0 then t.files + 1 else t.files
  late := t.late || (decide (r = 0) && t.begun) }

def Traffic.enter (thread : Nat) (sets : Bool) (t : Traffic) : Traffic := { t with
  calling := insert thread t.calling
  setting := if sets then insert thread t.setting else t.setting }

def Traffic.leave (thread : Nat) (t : Traffic) : Traffic := { t with
  calling := t.calling.erase thread
  setting := t.setting.erase thread }

def openSession (cfg : WdtConfig) (thread : Nat) : PlatformProg Int := do
  let found ← miscOpen thread
  if found then do
    let r ← onTimer (watchdogOpen cfg)
    onTraffic (.opened thread) (Traffic.opened thread r)
    pure r
  else pure (-enodev)

-- The kernel makes a call on a session that is open.
def callSession (thread : Nat) (sets : Bool) (call : PlatformProg Int) : PlatformProg Int := do
  admitted (.enter thread sets) (fun s => decide (0 < s.traffic.files)) (Traffic.enter thread sets)
  let r ← call
  onTraffic (.leave thread) (Traffic.leave thread)
  pure r

def setsTimeout (cmd : WdtCmd) (p : UserInt) : Bool := decide (cmd = .settimeout) && p.readable

-- watchdog_set_heartbeat begins with clk_get_rate(wdt_clock).
def ioctlCall (cfg : WdtConfig) (cmd : WdtCmd) (p : UserInt) : PlatformProg Int := do
  if setsTimeout cmd p then clkGetRate else pure ()
  let r ← onTimer (watchdogIoctl cfg cmd p)
  pure r.1

-- The last reference to a session goes: it is closed to calls and released.
def closeSession (cfg : WdtConfig) (thread : Nat) : PlatformProg Int := do
  admitted (.lastFput thread) (fun s => decide (0 < s.traffic.files)) fun t =>
    { t with files := t.files - 1, calling := insert thread t.calling }
  let r ← onTimer (watchdogRelease cfg)
  onTraffic (.leave thread) (Traffic.leave thread)
  pure r

def expiry (irq thread : Nat) : PlatformProg Int := do
  admitted (.irqEnter thread) (fun s => decide (.handler irq ∈ s.held)) fun t =>
    { t with handling := insert thread t.handling }
  onTimer watchdogIrq
  onTraffic (.irqExit thread) fun t => { t with handling := t.handling.erase thread }
  pure 0

inductive Client where
  | open
  | write (data : List (Option UInt8))
  | ioctl (cmd : WdtCmd) (p : UserInt)
  | release
  | interrupt (irq : Nat)
deriving DecidableEq, Repr

def Client.prog (cfg : WdtConfig) (thread : Nat) : Client → PlatformProg Int
  | .open => openSession cfg thread
  | .write data => callSession thread false (onTimer (watchdogWrite cfg data))
  | .ioctl cmd p => callSession thread (setsTimeout cmd p) (ioctlCall cfg cmd p)
  | .release => closeSession cfg thread
  | .interrupt irq => expiry irq thread

def teardown : PlatformProg Int := do
  onTraffic .begin fun t => { t with begun := true }
  watchdogRemove

abbrev PlatformPool := Pool PlatformStep PlatformState PlatformFault Int

-- The remove is thread 0.
def tearing (cfg : WdtConfig) (s : PlatformState) (clients : List Client) : PlatformPool :=
  Pool.start s (teardown :: clients.mapIdx fun i client => client.prog cfg (i + 1))

-- No access outside the mapping or the clock, and no session opened too late.
def SafeTeardown (pool : PlatformPool) : Prop :=
  (∀ i : Nat, pool.threads[i]?.bind Thread.fault = none) ∧ pool.shared.traffic.late = false

-- What the order of the teardown leaves to the callers: no open is under way when
-- it begins and none finds the device after that; wdt_clock is put when no
-- timeout is being set and none is set later; the mapping goes when no session
-- is open and no call is under way.
def leavesRoom : PlatformStep → PlatformState → Bool
  | .begin, s => decide (s.traffic.opening = ∅)
  | .miscOpen _, s => decide (s.traffic.begun = true → .miscdev ∉ s.held)
  | .enter _ true, s => s.clocked
  | .clkPut, s => decide (s.traffic.setting = ∅)
  | .iounmap, s => decide (s.traffic.files = 0 ∧ s.traffic.calling = ∅)
  | _, _ => true

def Orderly (pool : PlatformPool) (i : Nat) : Prop :=
  ∀ label ∈ pool.threads[i]?.bind Thread.upcoming, leavesRoom label pool.shared = true

instance (pool : PlatformPool) (i : Nat) : Decidable (Orderly pool i) := inferInstanceAs (Decidable (∀ label ∈ _, _))

-- What holds whoever moves: the mapping is there while anyone can reach it, and
-- the clock while a timeout is set.
structure Sound (s : PlatformState) : Prop where
  mapping : s.mapped = true ∨ s.traffic.begun = true ∧ s.traffic.files = 0 ∧ s.traffic.calling = ∅ ∧
    s.traffic.handling = ∅ ∧ ∀ irq, .handler irq ∉ s.held
  clock : s.clocked = true ∨ s.traffic.setting = ∅
  opening : s.traffic.begun = true → s.traffic.opening = ∅
  timely : s.traffic.late = false

-- What the remove finds as it left it.
structure DriverView where
  held : Multiset Resource
  wdtMem : Option Nat
  wdtBase : Option Nat
  wdtIrq : Option Nat
  wdtClock : ErrPtr
  begun : Bool

def PlatformState.view (s : PlatformState) : DriverView :=
  ⟨s.held, s.wdtMem, s.wdtBase, s.wdtIrq, s.wdtClock, s.traffic.begun⟩

def Handled (s : PlatformState) : Prop := s.traffic.handling = ∅ ∧ ∀ irq, .handler irq ∉ s.held

-- What a thread is in stays so, and the remove alone changes what it looks after.
structure TeardownRely (i : Nat) (s t : PlatformState) : Prop where
  sound : Sound s → Sound t
  view : i = 0 → t.view = s.view
  handled : i = 0 → Handled s → Handled t
  opening : i ∈ s.traffic.opening → i ∈ t.traffic.opening
  calling : i ∈ s.traffic.calling → i ∈ t.traffic.calling
  setting : i ∈ s.traffic.setting → i ∈ t.traffic.setting
  handling : i ∈ s.traffic.handling → i ∈ t.traffic.handling

theorem teardown_refl (i : Nat) (s : PlatformState) : TeardownRely i s s :=
  ⟨id, fun _ => rfl, fun _ => id, id, id, id, id⟩

theorem teardown_trans (i : Nat) (s t u : PlatformState) (first : TeardownRely i s t) (second : TeardownRely i t u) :
    TeardownRely i s u where
  sound := second.sound ∘ first.sound
  view := fun zero => (second.view zero).trans (first.view zero)
  handled := fun zero => second.handled zero ∘ first.handled zero
  opening := second.opening ∘ first.opening
  calling := second.calling ∘ first.calling
  setting := second.setting ∘ first.setting
  handling := second.handling ∘ first.handling

def teardownContract (i : Nat) : Contract PlatformStep PlatformState PlatformFault where
  rely := TeardownRely i
  guarantee := fun s t => ∀ j, j ≠ i → TeardownRely j s t
  allows := fun label s => leavesRoom label s = true
  before := fun _ _ => True
  tolerates := fun _ => False
  refl := teardown_refl i
  trans := teardown_trans i

theorem teardown_compatible : Pool.Compatible teardownContract := fun _ j different _ _ given => given j different

theorem sound_stable (i : Nat) : (teardownContract i).Stable Sound := fun _ _ sound moved => moved.sound sound

theorem sound_timeless (timer : WdtState) (s : PlatformState) (sound : Sound s) : Sound { s with timer := timer } :=
  ⟨sound.mapping, sound.clock, sound.opening, sound.timely⟩

theorem timer_guarantee (i : Nat) (s : PlatformState) (timer : WdtState) :
    (teardownContract i).guarantee s { s with timer := timer } := fun _ _ =>
  ⟨sound_timeless timer s, fun _ => rfl, fun _ none => none, id, id, id, id⟩

-- What the timer functions do needs only that the mapping stays.
theorem on_timer_meets {α : Type} (i : Nat) (p : WdtProg α) (pre : PlatformState → Prop) (s : PlatformState)
    (stable : (teardownContract i).Stable pre) (holds : pre s) (mapped : ∀ t, pre t → t.mapped = true)
    (timeless : ∀ timer t, pre t → pre { t with timer := timer }) :
    (onTimer p).Meets (teardownContract i) (fun _ => pre) s := by
  refine Prog.meets_within timerPart .timer Empty.elim needsMapping _ p pre s stable holds (fun f => f.elim) ?_
    (fun _ _ _ => trivial) timeless fun timer t _ => timer_guarantee i t timer
  exact fun step t here => by simp [needsMapping, mapped t here]

theorem traffic_meets (i : Nat) (label : PlatformStep) (ready : PlatformState → Bool) (set : Traffic → Traffic)
    (pre post : PlatformState → Prop) (s : PlatformState) (stable : (teardownContract i).Stable pre) (holds : pre s)
    (kept : (teardownContract i).Stable post)
    (acts : ∀ t, pre t → ready t = true → leavesRoom label t = true →
      (teardownContract i).guarantee t { t with traffic := set t.traffic } ∧ post { t with traffic := set t.traffic }) :
    (admitted label ready set).Meets (teardownContract i) (fun _ => post) s :=
  Prog.meets_await _ label ready _ pre (fun _ => post) s stable holds kept (fun _ _ => trivial) acts

theorem client_guarantee (i : Nat) (s : PlatformState) (traffic : Traffic) (begun : traffic.begun = s.traffic.begun)
    (sound : Sound { s with traffic := traffic }) (handled : Handled s → traffic.handling = ∅)
    (others : ∀ j, j ≠ i → (j ∈ s.traffic.opening → j ∈ traffic.opening) ∧ (j ∈ s.traffic.calling → j ∈ traffic.calling) ∧
      (j ∈ s.traffic.setting → j ∈ traffic.setting) ∧ (j ∈ s.traffic.handling → j ∈ traffic.handling)) :
    (teardownContract i).guarantee s { s with traffic := traffic } := by
  intro j different
  obtain ⟨opening, calling, setting, handling⟩ := others j different
  exact ⟨fun _ => sound, fun _ => by simp [PlatformState.view, begun], fun _ none => ⟨handled none, none.2⟩, opening,
    calling, setting, handling⟩

def Opening (i : Nat) (s : PlatformState) : Prop := Sound s ∧ i ∈ s.traffic.opening

def Calling (i : Nat) (sets : Bool) (s : PlatformState) : Prop :=
  Sound s ∧ i ∈ s.traffic.calling ∧ (sets = true → i ∈ s.traffic.setting)

def Handling (i : Nat) (s : PlatformState) : Prop := Sound s ∧ i ∈ s.traffic.handling

theorem opening_stable (i : Nat) : (teardownContract i).Stable (Opening i) :=
  fun _ _ here moved => ⟨moved.sound here.1, moved.opening here.2⟩

theorem calling_stable (i : Nat) (sets : Bool) : (teardownContract i).Stable (Calling i sets) :=
  fun _ _ here moved => ⟨moved.sound here.1, moved.calling here.2.1, fun set => moved.setting (here.2.2 set)⟩

theorem handling_stable (i : Nat) : (teardownContract i).Stable (Handling i) :=
  fun _ _ here moved => ⟨moved.sound here.1, moved.handling here.2⟩

theorem opening_early (i : Nat) (s : PlatformState) (here : Opening i s) : s.traffic.begun = false := by
  by_contra begun
  have none := here.1.opening (by simpa using begun)
  exact absurd here.2 (by simp [none])

theorem early_mapped (s : PlatformState) (sound : Sound s) (early : s.traffic.begun = false) : s.mapped = true :=
  sound.mapping.resolve_right fun late => by simp [early] at late

theorem session_mapped (s : PlatformState) (sound : Sound s) (files : 0 < s.traffic.files) : s.mapped = true :=
  sound.mapping.resolve_right fun late => absurd late.2.1 (Nat.ne_of_gt files)

theorem calling_mapped (i : Nat) (sets : Bool) (s : PlatformState) (here : Calling i sets s) : s.mapped = true :=
  here.1.mapping.resolve_right fun late => by simpa [late.2.2.1] using here.2.1

theorem handling_mapped (i : Nat) (s : PlatformState) (here : Handling i s) : s.mapped = true :=
  here.1.mapping.resolve_right fun late => by simpa [late.2.2.2.1] using here.2

theorem open_meets (cfg : WdtConfig) (i : Nat) (s : PlatformState) (sound : Sound s) :
    (openSession cfg i).Meets (teardownContract i) (fun _ => Sound) s := by
  refine Prog.meets_bind _ _ _ (fun found t => if found = true then Opening i t else Sound t) _ s ?_ fun found t here => ?_
  · refine Prog.meets_act _ _ _ _ _ Sound _ s (sound_stable i) sound ?_ (fun _ _ => trivial) fun t sound _ room => ?_
    · intro found
      cases found with
      | true => exact opening_stable i
      | false => exact sound_stable i
    -- Without the device nothing changes and the caller gets -ENODEV.
    · by_cases held : .miscdev ∈ t.held
      · have early : t.traffic.begun = false := by
          by_contra begun
          exact of_decide_eq_true room (by simpa using begun) held
        have next : Sound { t with traffic := { t.traffic with opening := insert i t.traffic.opening } } :=
          ⟨.inl (early_mapped t sound early), sound.clock, fun begun => by simp [early] at begun, sound.timely⟩
        simp only [held, if_true, decide_true]
        refine ⟨client_guarantee i t _ rfl next (·.1) fun j _ => ⟨Finset.mem_insert_of_mem, id, id, id⟩, next, ?_⟩
        exact Finset.mem_insert_self i _
      · simp only [held, if_false, decide_false, Bool.false_eq_true]
        exact ⟨fun j _ => teardown_refl j t, sound⟩
  · cases found with
    | false => exact Prog.meets_pure _ _ _ t (sound_stable i) here
    | true =>
        refine Prog.meets_bind _ _ _ (fun _ => Opening i) _ t ?_ fun r u here => ?_
        · exact on_timer_meets i _ (Opening i) t (opening_stable i) here
            (fun u here => early_mapped u here.1 (opening_early i u here)) fun timer u here =>
              ⟨sound_timeless timer u here.1, here.2⟩
        · refine Prog.meets_bind _ _ _ (fun _ => Sound) _ u ?_ fun _ v sound => Prog.meets_pure _ _ _ v (sound_stable i) sound
          refine traffic_meets i _ _ _ (Opening i) Sound u (opening_stable i) here (sound_stable i) fun v here _ _ => ?_
          have early := opening_early i v here
          have next : Sound { v with traffic := v.traffic.opened i r } :=
            ⟨.inl (early_mapped v here.1 early), here.1.clock, fun begun => by simp [Traffic.opened, early] at begun,
              by simp [Traffic.opened, early, here.1.timely]⟩
          refine ⟨client_guarantee i v _ rfl next (·.1) fun j different => ⟨?_, id, id, id⟩, next⟩
          exact fun member => Finset.mem_erase_of_ne_of_mem different member

theorem calling_timeless (i : Nat) (sets : Bool) (timer : WdtState) (s : PlatformState) (here : Calling i sets s) :
    Calling i sets { s with timer := timer } :=
  ⟨sound_timeless timer s here.1, here.2⟩

theorem on_timer_calling {α : Type} (i : Nat) (sets : Bool) (p : WdtProg α) (s : PlatformState) (here : Calling i sets s) :
    (onTimer p).Meets (teardownContract i) (fun _ => Calling i sets) s :=
  on_timer_meets i p (Calling i sets) s (calling_stable i sets) here (calling_mapped i sets) (calling_timeless i sets)

theorem leave_meets (i : Nat) (sets : Bool) (r : Int) (s : PlatformState) (here : Calling i sets s) :
    (onTraffic (.leave i) (Traffic.leave i) >>= fun _ => pure r).Meets (teardownContract i) (fun _ => Sound) s := by
  refine Prog.meets_bind _ _ _ (fun _ => Sound) _ s ?_ fun _ t sound => Prog.meets_pure _ _ _ t (sound_stable i) sound
  refine traffic_meets i _ _ _ (Calling i sets) Sound s (calling_stable i sets) here (sound_stable i) fun t here _ _ => ?_
  have clock : t.clocked = true ∨ t.traffic.setting.erase i = ∅ := by
    exact here.1.clock.imp_right fun none => by simp [none]
  have next : Sound { t with traffic := t.traffic.leave i } :=
    ⟨.inl (calling_mapped i sets t here), clock, here.1.opening, here.1.timely⟩
  refine ⟨client_guarantee i t _ rfl next (·.1) fun j different => ⟨id, ?_, ?_, id⟩, next⟩
  · exact Finset.mem_erase_of_ne_of_mem different
  · exact Finset.mem_erase_of_ne_of_mem different

theorem session_call_meets (i : Nat) (sets : Bool) (call : PlatformProg Int) (s : PlatformState) (sound : Sound s)
    (meets : ∀ t, Calling i sets t → call.Meets (teardownContract i) (fun _ => Calling i sets) t) :
    (callSession i sets call).Meets (teardownContract i) (fun _ => Sound) s := by
  refine Prog.meets_bind _ _ _ (fun _ => Calling i sets) _ s ?_ fun _ t here =>
    Prog.meets_bind _ _ _ (fun _ => Calling i sets) _ t (meets t here) fun r u here => leave_meets i sets r u here
  refine traffic_meets i _ _ _ Sound (Calling i sets) s (sound_stable i) sound (calling_stable i sets)
    fun t sound open' room => ?_
  have mapped := session_mapped t sound (of_decide_eq_true open')
  have entered : Calling i sets { t with traffic := t.traffic.enter i sets } := by
    cases sets with
    | false => exact ⟨⟨.inl mapped, sound.clock, sound.opening, sound.timely⟩, Finset.mem_insert_self i _, nofun⟩
    | true =>
        refine ⟨⟨.inl mapped, .inl room, sound.opening, sound.timely⟩, Finset.mem_insert_self i _, fun _ => ?_⟩
        exact Finset.mem_insert_self i _
  refine ⟨client_guarantee i t _ rfl entered.1 (·.1) fun j _ => ⟨id, Finset.mem_insert_of_mem, ?_, id⟩, entered⟩
  cases sets with
  | false => exact id
  | true => exact Finset.mem_insert_of_mem

theorem clock_rate_meets (i : Nat) (s : PlatformState) (here : Calling i true s) :
    clkGetRate.Meets (teardownContract i) (fun _ => Calling i true) s := by
  refine Prog.meets_access _ _ _ (Calling i true) _ s (calling_stable i true) here (fun _ => calling_stable i true)
    (fun _ _ => trivial) fun t here _ => ?_
  have clocked : t.clocked = true := here.1.clock.resolve_right fun none => by simpa [none] using here.2.2 rfl
  exact ⟨(), t, by rw [if_pos clocked], fun j _ => teardown_refl j t, here⟩

theorem session_ioctl_meets (cfg : WdtConfig) (i : Nat) (cmd : WdtCmd) (p : UserInt) (s : PlatformState)
    (here : Calling i (setsTimeout cmd p) s) :
    (ioctlCall cfg cmd p).Meets (teardownContract i) (fun _ => Calling i (setsTimeout cmd p)) s := by
  unfold ioctlCall
  generalize setsTimeout cmd p = sets at here
  have body : ∀ t, Calling i sets t → (onTimer (watchdogIoctl cfg cmd p) >>= fun r => pure r.1).Meets
      (teardownContract i) (fun _ => Calling i sets) t := fun t here =>
    Prog.meets_bind _ _ _ (fun _ => Calling i sets) _ t (on_timer_calling i sets _ t here) fun r u here =>
      Prog.meets_pure _ _ _ u (calling_stable i sets) here
  cases sets with
  | false => exact body s here
  | true => exact Prog.meets_bind _ _ _ (fun _ => Calling i true) _ s (clock_rate_meets i s here) fun _ t => body t

theorem close_meets (cfg : WdtConfig) (i : Nat) (s : PlatformState) (sound : Sound s) :
    (closeSession cfg i).Meets (teardownContract i) (fun _ => Sound) s := by
  refine Prog.meets_bind _ _ _ (fun _ => Calling i false) _ s ?_ fun _ t here =>
    Prog.meets_bind _ _ _ (fun _ => Calling i false) _ t (on_timer_calling i false _ t here) fun r u here =>
      leave_meets i false r u here
  refine traffic_meets i _ _ _ Sound (Calling i false) s (sound_stable i) sound (calling_stable i false)
    fun t sound open' _ => ?_
  have next : Sound { t with
      traffic := { t.traffic with files := t.traffic.files - 1, calling := insert i t.traffic.calling } } :=
    ⟨.inl (session_mapped t sound (of_decide_eq_true open')), sound.clock, sound.opening, sound.timely⟩
  refine ⟨client_guarantee i t _ rfl next (·.1) fun j _ => ⟨id, Finset.mem_insert_of_mem, id, id⟩, next, ?_, nofun⟩
  exact Finset.mem_insert_self i _

theorem expiry_meets (irq i : Nat) (s : PlatformState) (sound : Sound s) :
    (expiry irq i).Meets (teardownContract i) (fun _ => Sound) s := by
  refine Prog.meets_bind _ _ _ (fun _ => Handling i) _ s ?_ fun _ t here =>
    Prog.meets_bind _ _ _ (fun _ => Handling i) _ t ?_ fun _ u here =>
      Prog.meets_bind _ _ _ (fun _ => Sound) _ u ?_ fun _ v sound => Prog.meets_pure _ _ _ v (sound_stable i) sound
  · refine traffic_meets i _ _ _ Sound (Handling i) s (sound_stable i) sound (handling_stable i) fun t sound held _ => ?_
    have installed : .handler irq ∈ t.held := of_decide_eq_true held
    have next : Sound { t with traffic := { t.traffic with handling := insert i t.traffic.handling } } :=
      ⟨.inl (sound.mapping.resolve_right fun late => late.2.2.2.2 irq installed), sound.clock, sound.opening, sound.timely⟩
    refine ⟨client_guarantee i t _ rfl next (fun none => absurd installed (none.2 irq)) fun j _ => ⟨id, id, id, ?_⟩,
      next, Finset.mem_insert_self i _⟩
    exact Finset.mem_insert_of_mem
  · exact on_timer_meets i _ (Handling i) t (handling_stable i) here (handling_mapped i) fun timer v here =>
      ⟨sound_timeless timer v here.1, here.2⟩
  · refine traffic_meets i (.irqExit i) (fun _ => true) (fun t => { t with handling := t.handling.erase i }) (Handling i)
      Sound u (handling_stable i) here (sound_stable i) fun v here _ _ => ?_
    have next : Sound { v with traffic := { v.traffic with handling := v.traffic.handling.erase i } } :=
      ⟨.inl (handling_mapped i v here), here.1.clock, here.1.opening, here.1.timely⟩
    refine ⟨client_guarantee i v _ rfl next (fun none => by simp [none.1]) fun j different =>
      ⟨id, id, id, ?_⟩, next⟩
    exact Finset.mem_erase_of_ne_of_mem different

theorem client_meets (cfg : WdtConfig) (i : Nat) (client : Client) (s : PlatformState) (sound : Sound s) :
    (client.prog cfg i).Meets (teardownContract i) (fun _ => Sound) s := by
  cases client with
  | «open» => exact open_meets cfg i s sound
  | write data => exact session_call_meets i false _ s sound fun t here => on_timer_calling i false _ t here
  | ioctl cmd p => exact session_call_meets i _ _ s sound fun t here => session_ioctl_meets cfg i cmd p t here
  | release => exact close_meets cfg i s sound
  | interrupt irq => exact expiry_meets irq i s sound

-- The remove's own standing: the driver as it left it, and once free_irq has
-- returned no handler left.
structure Removing (v : DriverView) (freed : Bool) (s : PlatformState) : Prop where
  sound : Sound s
  view : s.view = v
  handled : freed = true → Handled s

theorem removing_stable (v : DriverView) (freed : Bool) : (teardownContract 0).Stable (Removing v freed) :=
  fun _ _ here moved => ⟨moved.sound here.sound, (moved.view rfl).trans here.view,
    fun done => moved.handled rfl (here.handled done)⟩

theorem remove_guarantee (s t : PlatformState) (traffic : t.traffic = s.traffic) (sound : Sound t) :
    (teardownContract 0).guarantee s t := by
  intro j different
  refine ⟨fun _ => sound, fun zero => absurd zero different, fun zero => absurd zero different, ?_, ?_, ?_, ?_⟩
  · rw [traffic]; exact id
  · rw [traffic]; exact id
  · rw [traffic]; exact id
  · rw [traffic]; exact id

theorem static_meets {α : Type} (get : PlatformState → α) (value : α) (v : DriverView) (freed : Bool) (s : PlatformState)
    (here : Removing v freed s) (reads : ∀ t : PlatformState, t.view = v → get t = value) :
    (Prog.look PlatformStep.static get : PlatformProg α).Meets (teardownContract 0)
      (fun a t => a = value ∧ Removing v freed t) s := by
  refine Prog.meets_look _ _ _ (Removing v freed) _ s (removing_stable v freed) here (fun a => ?_) (fun _ _ => trivial)
    fun t here _ => ⟨fun j _ => teardown_refl j t, reads t here.view, here⟩
  exact fun _ _ both moved => ⟨both.1, removing_stable v freed _ _ both.2 moved⟩

theorem return_meets (label : PlatformStep) (r : Resource) (rest : Multiset Resource) (v : DriverView) (freed : Bool)
    (s : PlatformState) (here : Removing v freed s) (held : v.held = r ::ₘ rest)
    (next : ∀ t, Removing v freed t → leavesRoom label t = true → Sound { t with held := rest }) :
    (release label (some r)).Meets (teardownContract 0) (fun _ => Removing { v with held := rest } freed) s := by
  refine Prog.meets_access _ _ _ (Removing v freed) _ s (removing_stable v freed) here
    (fun _ => removing_stable { v with held := rest } freed) (fun _ _ => trivial) fun t here room => ?_
  have now : t.held = r ::ₘ rest := (congrArg DriverView.held here.view).trans held
  have sound := next t here room
  refine ⟨(), { t with held := rest }, ?_, remove_guarantee t _ rfl sound, sound, ?_, fun done => ?_⟩
  · simp [Prog.returned, heldPart, now]
  · rw [← here.view]
    rfl
  · obtain ⟨none, gone⟩ := here.handled done
    exact ⟨none, fun irq member => gone irq (by rw [now]; exact Multiset.mem_cons_of_mem member)⟩

theorem set_static_meets (set : PlatformState → PlatformState) (change : DriverView → DriverView) (v : DriverView)
    (freed : Bool) (s : PlatformState) (here : Removing v freed s) (views : ∀ t, (set t).view = change t.view)
    (same : ∀ t, (set t).held = t.held ∧ (set t).traffic = t.traffic) (next : ∀ t, Removing v freed t → Sound (set t)) :
    (Prog.modify PlatformStep.static set : PlatformProg Unit).Meets (teardownContract 0)
      (fun _ => Removing (change v) freed) s := by
  refine Prog.meets_modify _ _ _ (Removing v freed) _ s (removing_stable v freed) here (removing_stable (change v) freed)
    (fun _ _ => trivial) fun t here _ => ⟨remove_guarantee t _ (same t).2 (next t here), next t here, ?_, fun done => ?_⟩
  · rw [views, here.view]
  · obtain ⟨none, gone⟩ := here.handled done
    exact ⟨by rw [(same t).2]; exact none, by rw [(same t).1]; exact gone⟩

theorem holding_sound (v : DriverView) (freed : Bool) (s : PlatformState) (rest : Multiset Resource) (base clock : Nat)
    (here : Removing v freed s) (base' : v.wdtBase = some base) (clock' : v.wdtClock = .object clock)
    (mapping : .mapping base ∈ rest) (ref : .clockRef clock ∈ rest) : Sound { s with held := rest } := by
  have baseNow : s.wdtBase = some base := (congrArg DriverView.wdtBase here.view).trans base'
  have clockNow : s.wdtClock = .object clock := (congrArg DriverView.wdtClock here.view).trans clock'
  refine ⟨.inl ?_, .inl ?_, here.sound.opening, here.sound.timely⟩
  · simp [PlatformState.mapped, baseNow, mapping]
  · simp [PlatformState.clocked, clockNow, ref]

section Remove

variable (mem base line clock : Nat)

theorem release_mem_meets (irq : Option Nat) (rest : Multiset Resource) (s : PlatformState) (mapping : .mapping base ∈ rest)
    (ref : .clockRef clock ∈ rest)
    (here : Removing ⟨.region mem ::ₘ .record mem ::ₘ rest, some mem, some base, irq, .object clock, true⟩ false s) :
    releaseMem.Meets (teardownContract 0) (fun _ => Removing ⟨rest, some mem, some base, irq, .object clock, true⟩ false) s := by
  refine Prog.meets_bind _ _ _ _ _ s (static_meets _ (some mem) _ false s here fun t view => ?_) fun a t read => ?_
  · exact congrArg DriverView.wdtMem view
  obtain ⟨rfl, here⟩ := read
  refine Prog.meets_bind _ _ _ _ _ t (return_meets .releaseResource (.region mem) (.record mem ::ₘ rest) _ false t here rfl
    fun u here _ => ?_) fun _ u here => return_meets .kfree (.record mem) rest _ false u here rfl fun v here _ => ?_
  · exact holding_sound _ false u _ base clock here rfl rfl (Multiset.mem_cons_of_mem mapping) (Multiset.mem_cons_of_mem ref)
  · exact holding_sound _ false v rest base clock here rfl rfl mapping ref

theorem free_irq_meets (rest : Multiset Resource) (s : PlatformState) (mapping : .mapping base ∈ rest)
    (ref : .clockRef clock ∈ rest) (gone : ∀ irq, .handler irq ∉ rest)
    (here : Removing ⟨.handler line ::ₘ rest, none, some base, some line, .object clock, true⟩ false s) :
    freeIrq.Meets (teardownContract 0) (fun _ => Removing ⟨rest, none, some base, some line, .object clock, true⟩ true) s := by
  refine Prog.meets_bind _ _ _ _ _ s (static_meets _ (some line) _ false s here fun t view => ?_) fun a t read => ?_
  · exact congrArg DriverView.wdtIrq view
  obtain ⟨rfl, here⟩ := read
  refine Prog.meets_bind _ _ _ _ _ t (return_meets .freeIrq (.handler line) rest _ false t here rfl fun u here _ => ?_)
    fun _ u here => Prog.meets_await _ _ _ _ (Removing _ false) _ u (removing_stable _ false) here (removing_stable _ true)
      (fun _ _ => trivial) fun v here quiet _ => ⟨fun j _ => teardown_refl j v, here.sound, here.view, fun _ => ?_⟩
  · exact holding_sound _ false u rest base clock here rfl rfl mapping ref
  · have now : v.held = rest := congrArg DriverView.held here.view
    exact ⟨of_decide_eq_true quiet, now ▸ gone⟩

theorem put_clock_meets (rest : Multiset Resource) (s : PlatformState) (mapping : .mapping base ∈ rest)
    (here : Removing ⟨.clockOn clock ::ₘ .clockRef clock ::ₘ rest, none, some base, none, .object clock, true⟩ true s) :
    putClock.Meets (teardownContract 0) (fun _ => Removing ⟨rest, none, some base, none, .object clock, true⟩ true) s := by
  refine Prog.meets_bind _ _ _ _ _ s (static_meets _ (ErrPtr.object clock) _ true s here fun t view => ?_) fun a t read => ?_
  · exact congrArg DriverView.wdtClock view
  obtain ⟨rfl, here⟩ := read
  refine Prog.meets_bind _ _ _ _ _ t (return_meets .clkDisable (.clockOn clock) (.clockRef clock ::ₘ rest) _ true t here rfl
    fun u here _ => ?_) fun _ u here => return_meets .clkPut (.clockRef clock) rest _ true u here rfl fun v here room => ?_
  · exact holding_sound _ true u _ base clock here rfl rfl (Multiset.mem_cons_of_mem mapping) (Multiset.mem_cons_self _ rest)
  · have baseNow : v.wdtBase = some base := congrArg DriverView.wdtBase here.view
    refine ⟨.inl ?_, .inr (of_decide_eq_true room), here.sound.opening, here.sound.timely⟩
    simp [PlatformState.mapped, baseNow, mapping]

theorem iounmap_meets (rest : Multiset Resource) (s : PlatformState)
    (here : Removing ⟨.mapping base ::ₘ rest, none, some base, none, .null, true⟩ true s) :
    iounmap.Meets (teardownContract 0) (fun _ => Removing ⟨rest, none, some base, none, .null, true⟩ true) s := by
  refine Prog.meets_bind _ _ _ _ _ s (static_meets _ (some base) _ true s here fun t view => ?_) fun a t read => ?_
  · exact congrArg DriverView.wdtBase view
  obtain ⟨rfl, here⟩ := read
  refine return_meets .iounmap (.mapping base) rest _ true t here rfl fun u here room => ?_
  have begun : u.traffic.begun = true := congrArg DriverView.begun here.view
  have held : u.held = .mapping base ::ₘ rest := congrArg DriverView.held here.view
  have noClock : u.clocked = false := by
    have none : u.wdtClock = .null := congrArg DriverView.wdtClock here.view
    simp [PlatformState.clocked, none]
  obtain ⟨files, calling⟩ : u.traffic.files = 0 ∧ u.traffic.calling = ∅ := of_decide_eq_true room
  obtain ⟨none, gone⟩ := here.handled rfl
  refine ⟨.inr ⟨begun, files, calling, none, fun irq member => ?_⟩, .inr ?_, here.sound.opening, here.sound.timely⟩
  · exact gone irq (by rw [held]; exact Multiset.mem_cons_of_mem member)
  · exact here.sound.clock.resolve_left (by simp [noClock])

-- Only from here on may the mapping go, and no open is left to find it gone.
theorem begin_meets (v : DriverView) (s : PlatformState) (early : v.begun = false) (here : Removing v false s) :
    (onTraffic .begin fun t => { t with begun := true }).Meets (teardownContract 0)
      (fun _ => Removing { v with begun := true } false) s := by
  refine Prog.meets_modify _ _ _ (Removing v false) _ s (removing_stable v false) here
    (removing_stable { v with begun := true } false) (fun _ _ => trivial) fun t here room => ?_
  have notYet : t.traffic.begun = false := (congrArg DriverView.begun here.view).trans early
  have next : Sound { t with traffic := { t.traffic with begun := true } } :=
    ⟨.inl (early_mapped t here.sound notYet), here.sound.clock, fun _ => of_decide_eq_true room, here.sound.timely⟩
  refine ⟨fun j different => ?_, next, ?_, nofun⟩
  · exact ⟨fun _ => next, fun zero => absurd zero different, fun zero => absurd zero different, id, id, id, id⟩
  · rw [← here.view]
    rfl

theorem remove_meets (s : PlatformState) (here : Removing ⟨.miscdev ::ₘ acquired mem base line clock 0, some mem, some base,
    some line, .object clock, true⟩ false s) : watchdogRemove.Meets (teardownContract 0) (fun _ => Sound) s := by
  rw [acquired_order] at here
  refine Prog.meets_bind _ _ _ _ _ s (release_mem_meets mem base clock _ _ s (by simp) (by simp) here) fun _ t here => ?_
  refine Prog.meets_bind _ _ _ _ _ t (set_static_meets _ (fun v => { v with wdtMem := none }) _ false t here
    (fun _ => rfl) (fun _ => ⟨rfl, rfl⟩) fun u here => ?_) fun _ u here => ?_
  · exact ⟨here.sound.mapping, here.sound.clock, here.sound.opening, here.sound.timely⟩
  refine Prog.meets_bind _ _ _ _ _ u (free_irq_meets base line clock
    (.clockOn clock ::ₘ .clockRef clock ::ₘ .mapping base ::ₘ {.miscdev}) u (by simp) (by simp) (by simp) here)
    fun _ s here => ?_
  refine Prog.meets_bind _ _ _ _ _ s (set_static_meets _ (fun v => { v with wdtIrq := none }) _ true s here
    (fun _ => rfl) (fun _ => ⟨rfl, rfl⟩) fun t here => ?_) fun _ t here => ?_
  · exact ⟨here.sound.mapping, here.sound.clock, here.sound.opening, here.sound.timely⟩
  refine Prog.meets_bind _ _ _ _ _ t (put_clock_meets base clock (.mapping base ::ₘ {.miscdev}) t (by simp) here) fun _ u here => ?_
  refine Prog.meets_bind _ _ _ _ _ u (set_static_meets _ (fun v => { v with wdtClock := .null }) _ true u here
    (fun _ => rfl) (fun _ => ⟨rfl, rfl⟩) fun s here => ?_) fun _ s here => ?_
  · have gone : s.clocked = false := by
      have held : s.held = .mapping base ::ₘ {.miscdev} := congrArg DriverView.held here.view
      have named : s.wdtClock = .object clock := congrArg DriverView.wdtClock here.view
      simp [PlatformState.clocked, named, held]
    exact ⟨here.sound.mapping, .inr (here.sound.clock.resolve_left (by simp [gone])), here.sound.opening, here.sound.timely⟩
  refine Prog.meets_bind _ _ _ _ _ s (iounmap_meets base {.miscdev} s here) fun _ t here => ?_
  refine Prog.meets_bind _ _ _ _ _ t (return_meets .miscDeregister .miscdev 0 _ true t here rfl fun u here _ => ?_)
    fun _ u here => Prog.meets_pure _ _ _ u (sound_stable 0) here.sound
  -- iounmap and clk_put had their room, and the relies have kept it so far.
  have held : u.held = {.miscdev} := congrArg DriverView.held here.view
  have unmapped : u.mapped = false := by
    have named : u.wdtBase = some base := congrArg DriverView.wdtBase here.view
    simp [PlatformState.mapped, named, held]
  have gone : u.clocked = false := by
    have named : u.wdtClock = .null := congrArg DriverView.wdtClock here.view
    simp [PlatformState.clocked, named]
  obtain ⟨begun, files, calling, handling, -⟩ := here.sound.mapping.resolve_left (by simp [unmapped])
  exact ⟨.inr ⟨begun, files, calling, handling, fun irq => Multiset.notMem_zero _⟩,
    .inr (here.sound.clock.resolve_left (by simp [gone])), here.sound.opening, here.sound.timely⟩

theorem teardown_meets (s : PlatformState) (sound : Sound s) (view : s.view = ⟨.miscdev ::ₘ acquired mem base line clock 0,
    some mem, some base, some line, .object clock, false⟩) :
    teardown.Meets (teardownContract 0) (fun _ => Sound) s :=
  Prog.meets_bind _ _ _ _ _ s (begin_meets _ s rfl ⟨sound, view, nofun⟩) fun _ t here =>
    remove_meets mem base line clock t here

end Remove

theorem idle_sound (s : PlatformState) (files mem base irq clock : Nat) (names : Names s mem base irq clock)
    (held : s.held = .miscdev ::ₘ acquired mem base irq clock 0) (idle : s.traffic = { noTraffic with files := files }) :
    Sound s := by
  refine ⟨.inl ?_, .inl ?_, fun _ => ?_, ?_⟩
  · simp [PlatformState.mapped, names.base, held, acquired]
  · simp [PlatformState.clocked, names.clock, held, acquired]
  · rw [idle]
    rfl
  · rw [idle]
    rfl

theorem tearing_meets (cfg : WdtConfig) (s : PlatformState) (files : Nat) (clients : List Client)
    (bound : Standing.bound.Holds s) (idle : s.traffic = { noTraffic with files := files }) :
    Sound s ∧ Pool.AllMeet teardownContract (fun _ _ => Sound) (tearing cfg s clients) := by
  cases bound with
  | bound _ mem base irq clock names held =>
      have sound := idle_sound s files mem base irq clock names held idle
      refine ⟨sound, Pool.start_all_meet teardownContract _ s _ fun i p listed => ?_⟩
      cases i with
      | zero =>
          obtain rfl : teardown = p := by simpa using listed
          refine teardown_meets mem base irq clock s sound ?_
          simp [PlatformState.view, held, names.mem, names.base, names.irq, names.clock, idle, noTraffic]
      | succ i =>
          obtain ⟨client, -, rfl⟩ : ∃ client, clients[i]? = some client ∧ client.prog cfg (i + 1) = p := by
            simpa using listed
          exact client_meets cfg (i + 1) client s sound

-- A bound device with any number of open sessions and nobody in the driver.
theorem teardown_safe (cfg : WdtConfig) (s : PlatformState) (files : Nat) (clients : List Client) (schedule : List Nat)
    (last : PlatformPool) (bound : Standing.bound.Holds s) (idle : s.traffic = { noTraffic with files := files })
    (ran : Pool.Run Orderly (tearing cfg s clients) schedule last) : SafeTeardown last := by
  obtain ⟨sound, start⟩ := tearing_meets cfg s files clients bound idle
  have room : ∀ (pool : PlatformPool) i label, Orderly pool i → pool.threads[i]?.bind Thread.upcoming = some label →
      (teardownContract i).allows label pool.shared := fun _ _ label orderly upcoming => orderly label upcoming
  have holds := Pool.all_meet_run teardownContract _ teardown_compatible Orderly room _ last schedule start ran
  refine ⟨fun i => Option.eq_none_iff_forall_ne_some.mpr fun f faulted => ?_, ?_⟩
  · exact Pool.all_meet_fault teardownContract _ last i f holds faulted
  · have kept := Pool.all_meet_rely teardownContract _ teardown_compatible Orderly room _ last schedule start ran _ (Nat.le_refl _)
    exact (kept.sound sound).timely

def boundPlatform (files : Nat) : PlatformState := {
  loadedPlatform (loadedWdt 15 fun _ => 0) with
  wdtMem := some 0
  wdtBase := some 1
  wdtIrq := some 25
  wdtClock := .object 2
  held := .miscdev ::ₘ acquired 0 1 25 2 0
  grants := 3
  traffic := { noTraffic with files := files } }

-- The session is released and the interrupt served before the remove.
theorem idle_teardown_safe :
    ∃ last, Pool.Run Orderly (tearing boardConfig (boundPlatform 1) [.release, .interrupt 25])
      ([1, 1, 1, 1, 1, 1, 2, 2, 2] ++ List.replicate 16 0) last ∧ Pool.finished last = true ∧ SafeTeardown last := by
  obtain ⟨last, ran, done⟩ : ∃ last, Pool.Run Orderly (tearing boardConfig (boundPlatform 1) [.release, .interrupt 25])
      ([1, 1, 1, 1, 1, 1, 2, 2, 2] ++ List.replicate 16 0) last ∧ Pool.finished last = true :=
    ⟨_, Pool.runs_run _ _ _ _ rfl, rfl⟩
  have bound : Standing.bound.Holds (boundPlatform 1) := .bound _ 0 1 25 2 ⟨rfl, rfl, rfl, rfl⟩ rfl
  exact ⟨last, ran, done, teardown_safe boardConfig (boundPlatform 1) 1 _ _ last bound rfl ran⟩

-- A session is open when the device is removed, and is released after that.
theorem late_release_unmapped :
    ∃ last, (tearing boardConfig (boundPlatform 1) [.release]).exec (List.replicate 16 0 ++ [1, 1, 1]) = some last ∧
      last.threads[1]?.bind Thread.fault = some .unmapped ∧ ¬ SafeTeardown last := by
  refine ⟨_, rfl, rfl, fun safe => ?_⟩
  have unmapped := safe.1 1
  exact absurd unmapped (by rintro ⟨⟩)

end OneDriver.Watchdog
