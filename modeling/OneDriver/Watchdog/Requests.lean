import OneDriver.Pool
import OneDriver.Watchdog.Session

set_option autoImplicit false

namespace OneDriver.Watchdog

inductive Request where
  | setTimeout (p : UserInt)
  | keepalive
  | shutdown
  | suspend
deriving DecidableEq, Repr

def Request.prog (cfg : WdtConfig) : Request → WdtProg Unit
  | .setTimeout p => do
      let _ ← watchdogIoctl cfg .settimeout p
      pure ()
  | .keepalive => watchdogKeepalive
  | .shutdown => watchdogShutdown cfg
  | .suspend => do
      let _ ← watchdogSuspend cfg
      pure ()

def Request.accepted (cfg : WdtConfig) : Request → Prop
  | .setTimeout p => p.readable = true ∧ 1 ≤ p.value ∧ (divisorFor (ticks cfg p.value)).isSome = true
  | _ => True

def Request.stops : Request → Bool
  | .shutdown => true
  | .suspend => true
  | _ => false

structure Cells where
  margin : Int
  count : Nat
  wtdat : BitVec 32
  wtcon : BitVec 32
deriving DecidableEq, Repr

def cells (s : WdtState) : Cells := ⟨s.tmrMargin, s.wdtCount, s.regs .wtdat, s.regs .wtcon⟩

def divisorOf (cfg : WdtConfig) (p : UserInt) : Nat := (divisorFor (ticks cfg p.value)).getD 1

def countOf (cfg : WdtConfig) (p : UserInt) : Nat := ticks cfg p.value / divisorOf cfg p

def controlOf (cfg : WdtConfig) (p : UserInt) (wtcon : BitVec 32) : BitVec 32 :=
  wtcon &&& ~~~prescaleMask ||| prescale (divisorOf cfg p - 1)

def stopped (cfg : WdtConfig) (wtcon : BitVec 32) : BitVec 32 := wtcon &&& ~~~(enableBit cfg ||| rstenBit cfg)

def Request.apply (cfg : WdtConfig) (a : Cells) : Request → Cells
  | .setTimeout p => ⟨p.value, countOf cfg p, BitVec.ofNat 32 (countOf cfg p), controlOf cfg p a.wtcon⟩
  | .keepalive => a
  | .shutdown => { a with wtcon := stopped cfg a.wtcon }
  | .suspend => { a with wtcon := stopped cfg a.wtcon }

theorem accepted_heartbeat (cfg : WdtConfig) (p : UserInt) (ok : (Request.setTimeout p).accepted cfg) :
    watchdogSetHeartbeat cfg p.value = programHeartbeat p.value (ticks cfg p.value) (divisorOf cfg p) := by
  obtain ⟨-, low, some⟩ := ok
  obtain ⟨divisor, found⟩ := Option.isSome_iff_exists.mp some
  simp [watchdogSetHeartbeat, found, divisorOf, show ¬ p.value < 1 by omega]

theorem run_request (cfg : WdtConfig) (request : Request) (s : WdtState) (ok : request.accepted cfg) :
    ∃ t, (request.prog cfg).run s = .done () t ∧ cells t = request.apply cfg (cells s) := by
  cases request with
  | setTimeout p =>
      refine ⟨_, by simp [Request.prog, watchdogIoctl, ok.1, accepted_heartbeat cfg p ok]; rfl, ?_⟩
      simp [cells, Request.apply, countOf, controlOf]
  | keepalive => exact ⟨_, run_watchdog_keepalive s, by simp [cells, Request.apply]⟩
  | shutdown => exact ⟨_, run_watchdog_stop cfg s, by simp [cells, Request.apply, stopped]⟩
  | suspend => exact ⟨_, by simp [Request.prog, watchdogSuspend]; rfl, by simp [cells, Request.apply, stopped]⟩

theorem run_requests (cfg : WdtConfig) (order : List Request) (s : WdtState) (ok : ∀ r ∈ order, r.accepted cfg) :
    ∃ results t, (Prog.series (Request.prog cfg) order).run s = .done results t ∧
      cells t = order.foldl (Request.apply cfg) (cells s) := by
  induction order generalizing s with
  | nil => exact ⟨[], s, rfl, rfl⟩
  | cons request rest ih =>
      obtain ⟨t, ran, seen⟩ := run_request cfg request s (ok request (by simp))
      obtain ⟨results, u, ran', seen'⟩ := ih t fun r member => ok r (by simp [member])
      exact ⟨() :: results, u, by simp [ran, ran'], by rw [seen', seen, List.foldl_cons]⟩

-- The positions of an accepted SETTIMEOUT: each is what is left of its program.
def beatEnd (p : UserInt) : WdtProg Unit := do
  watchdogKeepalive
  let margin ← Prog.look .readMargin (·.tmrMargin)
  let _ ← (pure (putUser p margin) : WdtProg (Int × Option Int))
  pure ()

def beatControl (cfg : WdtConfig) (p : UserInt) (wtcon : BitVec 32) : WdtProg Unit :=
  .act (.writel .wtcon) (fun _ => true) (·.write .wtcon (controlOf cfg p wtcon)) fun _ => beatEnd p

def beatData (cfg : WdtConfig) (p : UserInt) (wtcon : BitVec 32) : WdtProg Unit :=
  .act (.writel .wtdat) (fun _ => true) (·.write .wtdat (BitVec.ofNat 32 (countOf cfg p))) fun _ =>
    beatControl cfg p wtcon

def beatLoad (cfg : WdtConfig) (p : UserInt) : WdtProg Unit :=
  .act (.readl .wtcon) (fun _ => true) id fun s => beatData cfg p (s.regs .wtcon)

def beatCount (cfg : WdtConfig) (p : UserInt) : WdtProg Unit :=
  .act .setCount (fun _ => true) (fun s => { s with wdtCount := countOf cfg p }) fun _ => beatLoad cfg p

def beatMargin (cfg : WdtConfig) (p : UserInt) : WdtProg Unit :=
  .act .setMargin (fun _ => true) (fun s => { s with tmrMargin := p.value }) fun _ => beatCount cfg p

theorem set_timeout_prog (cfg : WdtConfig) (p : UserInt) (ok : (Request.setTimeout p).accepted cfg) :
    (Request.setTimeout p).prog cfg = beatMargin cfg p := by
  simp only [Request.prog, watchdogIoctl, if_pos ok.1, accepted_heartbeat cfg p ok]
  rfl

def critical : WdtStep → Bool
  | .setMargin => true
  | .setCount => true
  | .readl .wtcon => true
  | .writel .wtdat => true
  | .writel .wtcon => true
  | .wdtLock .stop => true
  | _ => false

-- What is left of a program that will not change the cells again.
def Quiet : WdtProg Unit → Prop
  | .ret _ => True
  | .crash _ => True
  | .act label _ effect next =>
      critical label = false ∧ (∀ s, cells (effect s) = cells s) ∧ ∀ s, Quiet (next s)

-- What is left of a shutdown or a suspend that has not stopped the timer yet.
def Stopping (cfg : WdtConfig) : WdtProg Unit → Prop
  | .ret _ => False
  | .crash _ => False
  | .act label _ effect next =>
      (label = .wdtLock .stop ∧ (∀ s, cells (effect s) = { cells s with wtcon := stopped cfg (s.regs .wtcon) }) ∧
        ∀ s, Quiet (next s)) ∨
      (critical label = false ∧ (∀ s, cells (effect s) = cells s) ∧ ∀ s, Stopping cfg (next s))

theorem keepalive_eq : watchdogKeepalive =
    .modify (.wdtLock .keepalive) fun s => s.write .wtcnt (BitVec.ofNat 32 s.wdtCount) :=
  Prog.atomic_eq_modify _ _ _ fun s => by simp

theorem stop_eq (cfg : WdtConfig) : watchdogStop cfg =
    .modify (.wdtLock .stop) fun s => s.write .wtcon (stopped cfg (s.regs .wtcon)) :=
  Prog.atomic_eq_modify _ _ _ fun s => by simp [watchdogStopLocked, stopped]

theorem keepalive_quiet : Quiet watchdogKeepalive := by
  rw [keepalive_eq]
  exact ⟨rfl, fun s => by simp [cells], fun _ => trivial⟩

theorem beat_end_quiet (p : UserInt) : Quiet (beatEnd p) := by
  unfold beatEnd
  rw [keepalive_eq]
  exact ⟨rfl, fun s => by simp [cells], fun _ => ⟨rfl, fun _ => rfl, fun _ => trivial⟩⟩

theorem shutdown_stopping (cfg : WdtConfig) : Stopping cfg (Request.shutdown.prog cfg) := by
  unfold Request.prog watchdogShutdown
  rw [stop_eq]
  exact .inl ⟨rfl, fun s => by simp [cells], fun _ => trivial⟩

theorem suspend_stopping (cfg : WdtConfig) : Stopping cfg (Request.suspend.prog cfg) := by
  unfold Request.prog watchdogSuspend
  rw [stop_eq]
  exact .inr ⟨rfl, fun _ => rfl, fun _ => .inr ⟨rfl, fun _ => rfl, fun _ => .inr ⟨rfl, fun _ => rfl, fun _ =>
    .inr ⟨rfl, fun _ => rfl, fun _ => .inl ⟨rfl, fun s => by simp [cells], fun _ => trivial⟩⟩⟩⟩⟩

abbrev WdtThread := Thread WdtStep WdtState Empty Unit
abbrev WdtPool := Pool WdtStep WdtState Empty Unit

-- Inside the unlocked update: the last action was one of its stores or its load.
def beating (thread : WdtThread) : Bool :=
  match thread.last with
  | some .setMargin => true
  | some .setCount => true
  | some (.readl .wtcon) => true
  | some (.writel .wtdat) => true
  | _ => false

def controlling (thread : WdtThread) : Bool :=
  match thread.last with
  | some (.readl .wtcon) => true
  | some (.writel .wtdat) => true
  | _ => false

-- The steps that do not race: a heartbeat's first store while no other heartbeat
-- is under way, and a stop while none is between its WTCON load and store.
def Undisturbed (pool : WdtPool) (i : Nat) : Prop :=
  (pool.threads[i]?.bind Thread.upcoming = some .setMargin → ∀ other ∈ pool.threads, beating other = false) ∧
    (pool.threads[i]?.bind Thread.upcoming = some (.wdtLock .stop) → ∀ other ∈ pool.threads, controlling other = false)

instance (pool : WdtPool) (i : Nat) : Decidable (Undisturbed pool i) := inferInstanceAs (Decidable (_ ∧ _))

inductive Stage where
  | before | margin | count
  | loaded (wtcon : BitVec 32)
  | data (wtcon : BitVec 32)
  | after
deriving DecidableEq, Repr

def Stage.inBeat : Stage → Bool
  | .before => false
  | .after => false
  | _ => true

def Stage.control : Stage → Option (BitVec 32)
  | .loaded wtcon => some wtcon
  | .data wtcon => some wtcon
  | _ => none

def At (cfg : WdtConfig) (request : Request) (thread : WdtThread) : Stage → Prop
  | .before => beating thread = false ∧ ((∃ p, request = .setTimeout p ∧ thread.prog = beatMargin cfg p) ∨
      (request.stops = true ∧ Stopping cfg thread.prog))
  | .margin => thread.last = some .setMargin ∧ ∃ p, request = .setTimeout p ∧ thread.prog = beatCount cfg p
  | .count => thread.last = some .setCount ∧ ∃ p, request = .setTimeout p ∧ thread.prog = beatLoad cfg p
  | .loaded wtcon => thread.last = some (.readl .wtcon) ∧
      ∃ p, request = .setTimeout p ∧ thread.prog = beatData cfg p wtcon
  | .data wtcon => thread.last = some (.writel .wtdat) ∧
      ∃ p, request = .setTimeout p ∧ thread.prog = beatControl cfg p wtcon
  | .after => beating thread = false ∧ Quiet thread.prog

-- The cells as an unfinished heartbeat leaves them over those of the finished
-- requests.
def view (cfg : WdtConfig) (p : UserInt) (base : Cells) : Stage → Cells
  | .before => base
  | .margin => { base with margin := p.value }
  | .count => { base with margin := p.value, count := countOf cfg p }
  | .loaded _ => { base with margin := p.value, count := countOf cfg p }
  | .data _ => ⟨p.value, countOf cfg p, BitVec.ofNat 32 (countOf cfg p), base.wtcon⟩
  | .after => base

theorem at_beating (cfg : WdtConfig) (request : Request) (thread : WdtThread) (stage : Stage)
    (placed : At cfg request thread stage) : beating thread = stage.inBeat := by
  cases stage with
  | before => exact placed.1
  | after => exact placed.1
  | margin => simp [beating, placed.1, Stage.inBeat]
  | count => simp [beating, placed.1, Stage.inBeat]
  | loaded wtcon => simp [beating, placed.1, Stage.inBeat]
  | data wtcon => simp [beating, placed.1, Stage.inBeat]

theorem at_controlling (cfg : WdtConfig) (request : Request) (thread : WdtThread) (stage : Stage)
    (placed : At cfg request thread stage) (within : stage.control.isSome = true) : controlling thread = true := by
  cases stage with
  | before => exact absurd within (by simp [Stage.control])
  | after => exact absurd within (by simp [Stage.control])
  | margin => exact absurd within (by simp [Stage.control])
  | count => exact absurd within (by simp [Stage.control])
  | loaded wtcon => simp [controlling, placed.1]
  | data wtcon => simp [controlling, placed.1]

-- The system of the requests alone: what one step of a request at a stage does
-- to the cells, and the stage it leads to.
inductive Moves (cfg : WdtConfig) : Request → Stage → Option WdtStep → Cells → Stage → Cells → Prop where
  | quiet (request : Request) (stage : Stage) (label : Option WdtStep) (c : Cells) (outside : stage.inBeat = false) :
      Moves cfg request stage label c stage c
  | begin (p : UserInt) (c : Cells) :
      Moves cfg (.setTimeout p) .before (some .setMargin) c .margin { c with margin := p.value }
  | stop (request : Request) (c : Cells) (stops : request.stops = true) :
      Moves cfg request .before (some (.wdtLock .stop)) c .after { c with wtcon := stopped cfg c.wtcon }
  | count (p : UserInt) (label : Option WdtStep) (c : Cells) :
      Moves cfg (.setTimeout p) .margin label c .count { c with count := countOf cfg p }
  | load (p : UserInt) (label : Option WdtStep) (c : Cells) :
      Moves cfg (.setTimeout p) .count label c (.loaded c.wtcon) c
  | data (p : UserInt) (label : Option WdtStep) (c : Cells) (wtcon : BitVec 32) :
      Moves cfg (.setTimeout p) (.loaded wtcon) label c (.data wtcon)
        { c with wtdat := BitVec.ofNat 32 (countOf cfg p) }
  | control (p : UserInt) (label : Option WdtStep) (c : Cells) (wtcon : BitVec 32) :
      Moves cfg (.setTimeout p) (.data wtcon) label c .after { c with wtcon := controlOf cfg p wtcon }

theorem noncritical_beating (label : WdtStep) (prog : WdtProg Unit) (outside : critical label = false) :
    beating ⟨some label, prog⟩ = false := by
  cases label with
  | readl reg => cases reg <;> simp_all [critical, beating]
  | writel reg => cases reg <;> simp_all [critical, beating]
  | _ => simp_all [critical, beating]

theorem request_moves (cfg : WdtConfig) (request : Request) (thread moved : WdtThread) (stage : Stage)
    (s t : WdtState) (placed : At cfg request thread stage) (stepped : thread.step s = some (moved, t)) :
    ∃ next, At cfg request moved next ∧ Moves cfg request stage thread.upcoming (cells s) next (cells t) := by
  obtain ⟨label, ready, effect, rest, prog, -, rfl, rfl⟩ := (Pool.thread_step_some_iff _ _ _ _).mp stepped
  cases stage with
  | before =>
      obtain ⟨-, ⟨p, rfl, start⟩ | ⟨stops, stopping⟩⟩ := placed
      · rw [start] at prog
        cases prog
        refine ⟨.margin, ⟨rfl, p, rfl, rfl⟩, ?_⟩
        rw [Thread.upcoming, start]
        exact .begin p (cells s)
      · rw [prog] at stopping
        obtain ⟨rfl, changed, quiet⟩ | ⟨outside, kept, still⟩ := stopping
        · refine ⟨.after, ⟨rfl, quiet s⟩, ?_⟩
          rw [Thread.upcoming, prog, changed s]
          exact .stop request (cells s) stops
        · refine ⟨.before, ⟨noncritical_beating label _ outside, .inr ⟨stops, still s⟩⟩, ?_⟩
          rw [kept s]
          exact .quiet request .before _ (cells s) rfl
  | margin =>
      obtain ⟨-, p, rfl, here⟩ := placed
      rw [here] at prog
      cases prog
      exact ⟨.count, ⟨rfl, p, rfl, rfl⟩, .count p _ (cells s)⟩
  | count =>
      obtain ⟨-, p, rfl, here⟩ := placed
      rw [here] at prog
      cases prog
      exact ⟨.loaded (s.regs .wtcon), ⟨rfl, p, rfl, rfl⟩, .load p _ (cells s)⟩
  | loaded wtcon =>
      obtain ⟨-, p, rfl, here⟩ := placed
      rw [here] at prog
      cases prog
      refine ⟨.data wtcon, ⟨rfl, p, rfl, rfl⟩, ?_⟩
      have stored : cells (s.write .wtdat (BitVec.ofNat 32 (countOf cfg p))) =
          { cells s with wtdat := BitVec.ofNat 32 (countOf cfg p) } := by simp [cells]
      rw [stored]
      exact .data p _ (cells s) wtcon
  | data wtcon =>
      obtain ⟨-, p, rfl, here⟩ := placed
      rw [here] at prog
      cases prog
      refine ⟨.after, ⟨rfl, beat_end_quiet p⟩, ?_⟩
      have stored : cells (s.write .wtcon (controlOf cfg p wtcon)) =
          { cells s with wtcon := controlOf cfg p wtcon } := by simp [cells]
      rw [stored]
      exact .control p _ (cells s) wtcon
  | after =>
      obtain ⟨-, quiet⟩ := placed
      rw [prog] at quiet
      obtain ⟨outside, kept, still⟩ := quiet
      refine ⟨.after, ⟨noncritical_beating label _ outside, still s⟩, ?_⟩
      rw [kept s]
      exact .quiet request .after _ (cells s) rfl

end OneDriver.Watchdog
