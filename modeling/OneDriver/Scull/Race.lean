import OneDriver.Scull.Away

set_option autoImplicit false

namespace OneDriver.Scull

variable (cfg : ScullConfig) (outside : Nat → Option Cell)

-- A process between down and up, and what it will leave if it is let alone.
structure Entered (s : ScullState) (thread : ScullThread) : Prop where
  place : thread.last = some .down ∨ thread.last = some .inside
  taken : s.sem = 0
  guarded : thread.prog.Guarded Frame .inside .up
  safe : thread.prog.wpUpTo (· = .outOfBounds)
    (fun _ t => t.sem = 1 ∧ (t.data = s.data ∧ t.quantum = s.quantum ∧ t.qset = s.qset) ∧
      ∃ chain, DeviceHolds outside t chain ∧ FirstArrayFits cfg.abi t.qset chain) s

structure Trimming (s : ScullState) (thread : ScullThread) : Prop where
  place : thread.last = some .trim
  guarded : thread.prog.Guarded Held .trim .trimmed
  safe : thread.prog.wp (fun _ t => t.data = none) s

def OthersAway (stale : Prop) (busy : Nat → Prop) (pool : ScullPool) : Prop :=
  ∀ (j : Nat) (thread : ScullThread), ¬ busy j → pool.threads[j]? = some thread →
    Away cfg stale pool.shared thread.prog ∧ thread.last ≠ some .trim

inductive Protocol (pool : ScullPool) : Prop where
  | quiet (chain : List Entry) (holds : DeviceHolds outside pool.shared chain)
      (fit : FirstArrayFits cfg.abi pool.shared.qset chain) (free : pool.shared.sem = 1)
      (away : OthersAway cfg False (fun _ => False) pool)
  | busy (i : Nat) (thread : ScullThread) (here : pool.threads[i]? = some thread)
      (entered : Entered cfg outside pool.shared thread) (away : OthersAway cfg False (· = i) pool)
  | trimming (i : Nat) (thread : ScullThread) (here : pool.threads[i]? = some thread)
      (trims : Trimming pool.shared thread) (away : OthersAway cfg True (· = i) pool)

-- Once the chain is gone nothing brings it back, and then any interleaving is safe.
def RaceInvariant (pool : ScullPool) : Prop :=
  Pool.AllKeep NoChain (· = .divideByZero) pool ∨ pool.shared.data ≠ none ∧ Protocol cfg outside pool

theorem away_moves (stale : Prop) (s t : ScullState) (p : ScullProg ScullReply) (away : Away cfg stale s p)
    (agrees : stale ∨ t.quantum = s.quantum ∧ t.qset = s.qset) : Away cfg stale t p := by
  cases away with
  | returned reply => exact .returned reply
  | opening flags => exact .opening flags
  | calling interrupted fPos body ok => exact .calling interrupted fPos body ok
  | halfway interrupted fPos body ok quantum old =>
      refine .halfway interrupted fPos body ok quantum ?_
      cases old with
      | inl gone => exact .inl gone
      | inr same => exact agrees.imp id fun kept => same.trans kept.1.symm
  | waiting interrupted fPos body ok quantum qset old =>
      refine .waiting interrupted fPos body ok quantum qset ?_
      cases old with
      | inl gone => exact .inl gone
      | inr same => exact agrees.imp id fun kept => ⟨same.1.trans kept.1.symm, same.2.trans kept.2.symm⟩

theorem away_stale (s : ScullState) (p : ScullProg ScullReply) (stale : Prop) (away : Away cfg stale s p) :
    Away cfg True s p := by
  cases away with
  | returned reply => exact .returned reply
  | opening flags => exact .opening flags
  | calling interrupted fPos body ok => exact .calling interrupted fPos body ok
  | halfway interrupted fPos body ok quantum _ => exact .halfway interrupted fPos body ok quantum (.inl trivial)
  | waiting interrupted fPos body ok quantum qset _ => exact .waiting interrupted fPos body ok quantum qset (.inl trivial)

theorem others_step (stale : Prop) (busy : Nat → Prop) (pool next : ScullPool) (i : Nat) (away : OthersAway cfg stale busy pool)
    (agrees : stale ∨ next.shared.quantum = pool.shared.quantum ∧ next.shared.qset = pool.shared.qset)
    (others : ∀ j, j ≠ i → next.threads[j]? = pool.threads[j]?) :
    OthersAway cfg stale (fun j => busy j ∨ j = i) next := by
  intro j thread idle listed
  rw [not_or] at idle
  obtain ⟨here, place⟩ := away j thread idle.1 (others j idle.2 ▸ listed)
  exact ⟨away_moves cfg stale _ _ _ here agrees, place⟩

theorem others_stale (stale : Prop) (busy : Nat → Prop) (pool : ScullPool) (away : OthersAway cfg stale busy pool) :
    OthersAway cfg True busy pool :=
  fun j thread idle listed => ⟨away_stale cfg _ _ stale (away j thread idle listed).1, (away j thread idle listed).2⟩

theorem others_join (stale : Prop) (busy : Nat → Prop) (pool : ScullPool) (i : Nat) (thread : ScullThread)
    (away : OthersAway cfg stale (fun j => busy j ∨ j = i) pool) (here : pool.threads[i]? = some thread)
    (joins : Away cfg stale pool.shared thread.prog) (place : thread.last ≠ some .trim) :
    OthersAway cfg stale busy pool := by
  intro j other idle listed
  by_cases same : j = i
  · obtain rfl : other = thread := by
      rw [same, here] at listed
      exact (Option.some.inj listed).symm
    exact ⟨joins, place⟩
  · exact away j other (not_or.mpr ⟨idle, same⟩) listed

-- The three things a process that holds nothing can do: sample the geometry, begin
-- a trim, or take the semaphore.
theorem away_act (stale : Prop) (s : ScullState) (p : ScullProg ScullReply) (label : ScullLabel)
    (ready : ScullState → Bool) (effect : ScullState → ScullState) (rest : ScullState → ScullProg ScullReply)
    (away : Away cfg stale s p) (prog : p = .act label ready effect rest) :
    (label = .geometry ∧ effect s = s ∧ Away cfg stale s (rest s)) ∨
      (label = .trim ∧ ∃ flags, writeOnly flags = true ∧ p = (ScullCall.opening flags).prog cfg) ∨
      (label = .down ∧ (ready s = true → 0 < s.sem) ∧ effect s = { s with sem := s.sem - 1 } ∧
        ∃ body quantum qset, Body cfg body ∧ (stale ∨ quantum = s.quantum ∧ qset = s.qset) ∧
          rest s = (body quantum qset >>= fun reply => do
            Prog.modify .up fun s => { s with sem := s.sem + 1 }
            pure reply)) := by
  cases away with
  | returned reply => cases prog
  | opening flags =>
      by_cases only : writeOnly flags = true
      · refine .inr (.inl ⟨?_, flags, only, rfl⟩)
        simp only [ScullCall.prog, scullOpen, if_pos only] at prog
        cases prog
        rfl
      · simp only [ScullCall.prog, scullOpen, if_neg only] at prog
        cases prog
  | calling interrupted fPos body ok =>
      cases prog
      exact .inl ⟨rfl, rfl, .halfway interrupted fPos body ok s.quantum (.inr rfl)⟩
  | halfway interrupted fPos body ok quantum agrees =>
      cases prog
      exact .inl ⟨rfl, rfl, .waiting interrupted fPos body ok quantum s.qset (agrees.imp id fun same => ⟨same, rfl⟩)⟩
  | waiting interrupted fPos body ok quantum qset agrees =>
      cases interrupted with
      | true => cases prog
      | false =>
          cases prog
          exact .inr (.inr ⟨rfl, of_decide_eq_true, rfl, body, quantum, qset, ok, agrees, rfl⟩)

theorem others_idle (stale : Prop) (pool : ScullPool) (i : Nat)
    (away : OthersAway cfg stale (fun j => j = i ∨ j = i) pool) : OthersAway cfg stale (· = i) pool :=
  fun j thread idle listed => away j thread (by simpa using idle) listed

theorem chain_gone (stale : Prop) (pool : ScullPool) (i : Nat) (thread : ScullThread) (reply : ScullReply)
    (gone : pool.shared.data = none) (here : pool.threads[i]? = some thread) (returned : thread.prog = .ret reply)
    (away : OthersAway cfg stale (· = i) pool) : RaceInvariant cfg outside pool := by
  refine .inl ⟨gone, ?_⟩
  intro j other listed
  by_cases same : j = i
  · obtain rfl : other = thread := by
      rw [same, here] at listed
      exact (Option.some.inj listed).symm
    rw [returned]
    trivial
  · exact away_keeps_no_chain cfg stale _ _ (away j other same listed).1

theorem opening_guarded (flags : Nat) (only : writeOnly flags = true) :
    ((ScullCall.opening flags).prog cfg).Guarded Held .trim .trimmed := by
  simp only [ScullCall.prog, scullOpen, if_pos only, scullTrim, Prog.then_then, Prog.pure_then]
  apply Prog.guarded_bind _ _ _ _ _ (Prog.steady_look _ _ _ held_loose.still)
  intro qset
  apply Prog.guarded_bind _ _ _ _ _ (Prog.steady_look _ _ _ held_loose.still)
  intro start
  apply Prog.guarded_bind _ _ _ _ _ (trim_chain_steady qset start.2 start.1)
  intro _
  apply Prog.guarded_bind _ _ _ _ _ (Prog.steady_modify _ _ _ fun s => ⟨rfl, rfl⟩)
  intro _
  apply Prog.guarded_bind _ _ _ _ _ (Prog.steady_modify _ _ _ fun s => ⟨rfl, rfl⟩)
  intro _
  apply Prog.guarded_bind _ _ _ _ _ (Prog.steady_modify _ _ _ fun s => ⟨rfl, rfl⟩)
  exact fun _ s => ⟨.inr ⟨rfl, _, rfl⟩, trivial⟩

theorem opening_safe (flags : Nat) (only : writeOnly flags = true) (s : ScullState) (chain : List Entry)
    (holds : DeviceHolds outside s chain) : ((ScullCall.opening flags).prog cfg).wp (fun _ t => t.data = none) s := by
  simp only [ScullCall.prog, scullOpen, if_pos only, Prog.wp, Prog.wp_bind, Prog.wp_pure]
  exact Prog.wp_of_run _ _ _ s _ 0 (run_scull_trim cfg outside s chain holds) rfl

section Step

variable (pool next : ScullPool) (i : Nat) (thread : ScullThread) (label : ScullLabel) (ready : ScullState → Bool)
  (effect : ScullState → ScullState) (rest : ScullState → ScullProg ScullReply)

theorem trim_moves (takes : Pool.Takes pool next i thread label ready effect rest) (chained : pool.shared.data ≠ none)
    (guarded : thread.prog.Guarded Held .trim .trimmed) (safe : thread.prog.wp (fun _ t => t.data = none) pool.shared)
    (away : OthersAway cfg True (· = i) pool) : RaceInvariant cfg outside next := by
  rw [takes.prog] at guarded safe
  obtain ⟨act, further⟩ := guarded pool.shared
  have away' := others_idle cfg True next i (others_step cfg True _ pool next i away (.inl trivial) takes.others)
  cases act with
  | inl holds =>
      obtain ⟨rfl, data, -⟩ := holds
      refine .inr ⟨by rw [takes.shared, data]; exact chained, .trimming i _ takes.moved ⟨rfl, further, ?_⟩ away'⟩
      rw [takes.shared]
      exact safe.2
  | inr last =>
      obtain ⟨-, reply, returned⟩ := last
      have ends := safe.2
      rw [returned, ← takes.shared] at ends
      exact chain_gone cfg outside True next i _ reply ends takes.moved returned away'

theorem entered_moves (takes : Pool.Takes pool next i thread label ready effect rest)
    (chained : pool.shared.data ≠ none) (entered : Entered cfg outside pool.shared thread)
    (away : OthersAway cfg False (· = i) pool) : RaceInvariant cfg outside next := by
  have guarded := entered.guarded
  have safe := entered.safe
  rw [takes.prog] at guarded safe
  obtain ⟨act, further⟩ := guarded pool.shared
  cases act with
  | inl holds =>
      obtain ⟨rfl, frame⟩ := holds
      rw [← takes.shared] at frame
      have away' := others_step cfg False _ pool next i away (.inr ⟨frame.quantum, frame.qset⟩) takes.others
      refine .inr ⟨by rw [frame.data]; exact chained, .busy i _ takes.moved ⟨.inr rfl, ?_, further, ?_⟩
        (others_idle cfg False next i away')⟩
      · exact frame.sem.trans entered.taken
      · rw [takes.shared] at frame ⊢
        apply Prog.wp_mono _ _ _ _ _ safe.2
        intro _ t ends
        obtain ⟨free, same, sound⟩ := ends
        exact ⟨free, ⟨same.1.trans frame.data.symm, same.2.1.trans frame.quantum.symm,
          same.2.2.trans frame.qset.symm⟩, sound⟩
  | inr last =>
      obtain ⟨rfl, reply, returned⟩ := last
      have ends := safe.2
      rw [returned, ← takes.shared] at ends
      obtain ⟨free, same, chain, holds, fit⟩ := ends
      have away' := others_step cfg False _ pool next i away (.inr ⟨same.2.1, same.2.2⟩) takes.others
      refine .inr ⟨by rw [same.1]; exact chained, .quiet chain holds fit free ?_⟩
      apply others_join cfg False _ next i _ _ takes.moved
      · rw [returned]
        exact .returned reply
      · exact fun wrong => by cases wrong
      · exact fun j other idle listed => away' j other (by simpa using idle) listed

theorem sample_moves (stale : Prop) (busy : Nat → Prop) (takes : Pool.Takes pool next i thread label ready effect rest)
    (same : next.shared = pool.shared) (geometry : label = .geometry)
    (joins : Away cfg stale pool.shared (rest pool.shared)) (away : OthersAway cfg stale busy pool) :
    OthersAway cfg stale busy next := by
  have away' := others_step cfg stale busy pool next i away (.inr (by rw [same]; exact ⟨rfl, rfl⟩)) takes.others
  exact others_join cfg stale busy next i _ away' takes.moved (same ▸ joins) (by simp [geometry])

theorem enters (body : Int → Int → ScullProg ScullReply) (chain : List Entry)
    (takes : Pool.Takes pool next i thread .down ready effect rest) (chained : pool.shared.data ≠ none)
    (ok : Body cfg body) (holds : DeviceHolds outside pool.shared chain)
    (fit : FirstArrayFits cfg.abi pool.shared.qset chain) (free : pool.shared.sem = 1)
    (away : OthersAway cfg False (· = i) pool)
    (downs : effect pool.shared = { pool.shared with sem := pool.shared.sem - 1 })
    (goes : rest pool.shared = body pool.shared.quantum pool.shared.qset >>= fun reply => do
      Prog.modify .up fun s => { s with sem := s.sem + 1 }
      pure reply) : RaceInvariant cfg outside next := by
  have held : next.shared = { pool.shared with sem := 0 } := by rw [takes.shared, downs, free]
  have moved := takes.moved
  rw [goes] at moved
  have device := device_sem outside pool.shared chain 0 holds
  have away' := others_step cfg False _ pool next i away (.inr (by rw [held]; exact ⟨rfl, rfl⟩)) takes.others
  refine .inr ⟨by rw [held]; exact chained, .busy i _ moved ⟨.inl rfl, by rw [held], ?_, ?_⟩
    (others_idle cfg False next i away')⟩
  · exact Prog.guarded_bind _ _ _ _ _ (ok.steady _ _) fun reply s => ⟨.inr ⟨rfl, reply, rfl⟩, trivial⟩
  · rw [held, Prog.wp_bind]
    apply Prog.wp_mono _ _ _ _ _ (ok.safe outside { pool.shared with sem := 0 } chain device fit)
    intro reply t kept
    obtain ⟨⟨chain', holds', fit'⟩, frame⟩ := kept
    simp only [Prog.wp_bind, Prog.wp_modify, Prog.wp_pure]
    exact ⟨by rw [frame.sem], ⟨frame.data, frame.quantum, frame.qset⟩, chain', device_sem outside t chain' _ holds', fit'⟩

theorem admitted_down (takes : Pool.Takes pool next i thread .down ready effect rest)
    (chained : pool.shared.data ≠ none) (admitted : TrimsAlone pool i) (j : Nat) (other : ScullThread)
    (listed : pool.threads[j]? = some other) : other.last ≠ some .trim :=
  (admitted.resolve_left chained).1 (Pool.takes_upcoming _ _ _ _ _ _ _ _ takes) other (List.mem_of_getElem? listed)

theorem admitted_trim (takes : Pool.Takes pool next i thread .trim ready effect rest)
    (chained : pool.shared.data ≠ none) (admitted : TrimsAlone pool i) (begins : thread.last ≠ some .trim) (j : Nat)
    (other : ScullThread) (listed : pool.threads[j]? = some other) :
    other.last ≠ some .down ∧ other.last ≠ some .inside ∧ other.last ≠ some .trim := by
  apply (admitted.resolve_left chained).2 (Pool.takes_upcoming _ _ _ _ _ _ _ _ takes) _ other
    (List.mem_of_getElem? listed)
  simpa [takes.found] using begins

theorem quiet_step (chain : List Entry) (takes : Pool.Takes pool next i thread label ready effect rest)
    (chained : pool.shared.data ≠ none) (holds : DeviceHolds outside pool.shared chain)
    (fit : FirstArrayFits cfg.abi pool.shared.qset chain) (free : pool.shared.sem = 1)
    (away : OthersAway cfg False (fun _ => False) pool) : RaceInvariant cfg outside next := by
  obtain ⟨here, -⟩ := away i thread id takes.found
  have rest' : OthersAway cfg False (· = i) pool := fun j other _ listed => away j other id listed
  cases away_act cfg False pool.shared thread.prog label ready effect rest here takes.prog with
  | inl samples =>
      obtain ⟨geometry, unchanged, joins⟩ := samples
      have same := takes.shared.trans unchanged
      have away' := sample_moves cfg pool next i thread label ready effect rest False _ takes same geometry joins away
      refine .inr ⟨by rw [same]; exact chained, .quiet chain ?_ ?_ ?_ away'⟩
      · exact same ▸ holds
      · exact same ▸ fit
      · exact same ▸ free
  | inr acts =>
      cases acts with
      | inl trims =>
          obtain ⟨-, flags, only, opens⟩ := trims
          have guarded := opens ▸ opening_guarded cfg flags only
          have safe := opens ▸ opening_safe cfg outside flags only pool.shared chain holds
          exact trim_moves cfg outside pool next i thread label ready effect rest takes chained guarded safe
            (others_stale cfg False _ pool rest')
      | inr enter =>
          obtain ⟨rfl, -, downs, body, quantum, qset, ok, agrees, goes⟩ := enter
          obtain ⟨rfl, rfl⟩ := agrees.resolve_left id
          exact enters cfg outside pool next i thread ready effect rest body chain takes chained ok holds fit free rest'
            downs goes

theorem busy_step (k : Nat) (inside : ScullThread) (takes : Pool.Takes pool next i thread label ready effect rest)
    (chained : pool.shared.data ≠ none) (admitted : TrimsAlone pool i) (here : pool.threads[k]? = some inside)
    (entered : Entered cfg outside pool.shared inside) (away : OthersAway cfg False (· = k) pool) :
    RaceInvariant cfg outside next := by
  by_cases same : i = k
  · subst same
    obtain rfl : thread = inside := Option.some.inj (takes.found.symm.trans here)
    exact entered_moves cfg outside pool next i thread label ready effect rest takes chained entered away
  · obtain ⟨idle, place⟩ := away i thread same takes.found
    cases away_act cfg False pool.shared thread.prog label ready effect rest idle takes.prog with
    | inl samples =>
        obtain ⟨geometry, unchanged, joins⟩ := samples
        have still := takes.shared.trans unchanged
        have away' := sample_moves cfg pool next i thread label ready effect rest False _ takes still geometry joins away
        refine .inr ⟨by rw [still]; exact chained, .busy k inside ?_ (still ▸ entered) away'⟩
        exact (takes.others k (Ne.symm same)).trans here
    | inr acts =>
        cases acts with
        | inl trims =>
            obtain ⟨rfl, -⟩ := trims
            have apart := admitted_trim pool next i thread ready effect rest takes chained admitted place k inside here
            exact (entered.place.elim apart.1 apart.2.1).elim
        | inr enter =>
            obtain ⟨rfl, needs, -⟩ := enter
            have free := needs takes.can
            rw [entered.taken] at free
            exact (Nat.lt_irrefl 0 free).elim

theorem trimming_step (k : Nat) (trimmer : ScullThread) (takes : Pool.Takes pool next i thread label ready effect rest)
    (chained : pool.shared.data ≠ none) (admitted : TrimsAlone pool i) (here : pool.threads[k]? = some trimmer)
    (trims : Trimming pool.shared trimmer) (away : OthersAway cfg True (· = k) pool) :
    RaceInvariant cfg outside next := by
  by_cases same : i = k
  · subst same
    obtain rfl : thread = trimmer := Option.some.inj (takes.found.symm.trans here)
    exact trim_moves cfg outside pool next i thread label ready effect rest takes chained trims.guarded trims.safe away
  · obtain ⟨idle, place⟩ := away i thread same takes.found
    cases away_act cfg True pool.shared thread.prog label ready effect rest idle takes.prog with
    | inl samples =>
        obtain ⟨geometry, unchanged, joins⟩ := samples
        have still := takes.shared.trans unchanged
        have away' := sample_moves cfg pool next i thread label ready effect rest True _ takes still geometry joins away
        refine .inr ⟨by rw [still]; exact chained, .trimming k trimmer ?_ (still ▸ trims) away'⟩
        exact (takes.others k (Ne.symm same)).trans here
    | inr acts =>
        cases acts with
        | inl begins =>
            obtain ⟨rfl, -⟩ := begins
            have apart := admitted_trim pool next i thread ready effect rest takes chained admitted place k trimmer here
            exact (apart.2.2 trims.place).elim
        | inr enter =>
            obtain ⟨rfl, -⟩ := enter
            exact (admitted_down pool next i thread ready effect rest takes chained admitted k trimmer here
              trims.place).elim

end Step

theorem race_step (pool next : ScullPool) (i : Nat) (holds : RaceInvariant cfg outside pool)
    (admitted : TrimsAlone pool i) (stepped : pool.step i = some next) : RaceInvariant cfg outside next := by
  obtain ⟨thread, label, ready, effect, rest, takes⟩ := Pool.step_takes pool next i stepped
  cases holds with
  | inl keep => exact .inl (Pool.all_keep_step NoChain _ pool next i keep stepped)
  | inr linked =>
      obtain ⟨chained, protocol⟩ := linked
      cases protocol with
      | quiet chain holds fit free away =>
          exact quiet_step cfg outside pool next i thread label ready effect rest chain takes chained holds fit free away
      | busy k inside here entered away =>
          exact busy_step cfg outside pool next i thread label ready effect rest k inside takes chained admitted here
            entered away
      | trimming k trimmer here trims away =>
          exact trimming_step cfg outside pool next i thread label ready effect rest k trimmer takes chained admitted here
            trims away

theorem call_away (s : ScullState) (call : ScullCall) : Away cfg False s (call.prog cfg) := by
  cases call with
  | opening flags => exact .opening flags
  | release => exact .returned ⟨0, 0, []⟩
  | read call => exact .calling call.interrupted call.fPos (readBody cfg call) (read_is_body cfg call)
  | write call => exact .calling call.interrupted call.fPos (writeBody cfg call) (write_is_body cfg call)

theorem race_start (s : ScullState) (chain : List Entry) (calls : List ScullCall)
    (holds : WellFormed cfg outside s chain) (fit : FirstArrayFits cfg.abi s.qset chain) :
    RaceInvariant cfg outside (Pool.start s (calls.map (ScullCall.prog cfg))) := by
  have away : OthersAway cfg False (fun _ => False) (Pool.start s (calls.map (ScullCall.prog cfg))) := by
    intro j thread _ listed
    simp only [Pool.start, List.map_map, List.getElem?_map, Option.map_eq_some_iff] at listed
    obtain ⟨call, -, rfl⟩ := listed
    exact ⟨call_away cfg s call, by simp⟩
  by_cases chained : s.data = none
  · exact .inl ⟨chained, fun j thread listed => away_keeps_no_chain cfg False s _ (away j thread id listed).1⟩
  · exact .inr ⟨chained, .quiet chain holds.device fit holds.idle away⟩

theorem away_no_fault (stale : Prop) (s : ScullState) (p : ScullProg ScullReply) (fault : ScullFault)
    (away : Away cfg stale s p) : p ≠ .crash fault := by
  cases away with
  | returned reply => exact fun wrong => by cases wrong
  | opening flags =>
      by_cases only : writeOnly flags = true
      · simp only [ScullCall.prog, scullOpen, if_pos only]
        exact fun wrong => by cases wrong
      · simp only [ScullCall.prog, scullOpen, if_neg only]
        exact fun wrong => by cases wrong
  | calling interrupted fPos body ok => exact fun wrong => by cases wrong
  | halfway interrupted fPos body ok quantum agrees => exact fun wrong => by cases wrong
  | waiting interrupted fPos body ok quantum qset agrees => cases interrupted <;> exact fun wrong => by cases wrong

theorem fault_prog (thread : ScullThread) (fault : ScullFault) (faults : thread.fault = some fault) :
    thread.prog = .crash fault := by
  obtain ⟨last, prog⟩ := thread
  cases prog with
  | ret reply => cases faults
  | crash f => cases faults; rfl
  | act label ready effect next => cases faults

theorem race_faults (pool : ScullPool) (j : Nat) (thread : ScullThread) (fault : ScullFault)
    (holds : RaceInvariant cfg outside pool) (listed : pool.threads[j]? = some thread)
    (faults : thread.fault = some fault) : fault = .divideByZero ∨ fault = .outOfBounds := by
  have crashed := fault_prog thread fault faults
  have never : ∀ stale, ¬ Away cfg stale pool.shared thread.prog := fun stale away =>
    away_no_fault cfg stale pool.shared thread.prog fault away crashed
  cases holds with
  | inl keep =>
      have keeps := keep.2 j thread listed
      rw [crashed] at keeps
      exact .inl keeps
  | inr linked =>
      cases linked.2 with
      | quiet chain _ _ _ away => exact absurd (away j thread id listed).1 (never False)
      | busy k inside here entered away =>
          by_cases same : j = k
          · obtain rfl : thread = inside := Option.some.inj ((same ▸ listed).symm.trans here)
            have safe := entered.safe
            rw [crashed] at safe
            exact .inr safe
          · exact absurd (away j thread same listed).1 (never False)
      | trimming k trimmer here trims away =>
          by_cases same : j = k
          · obtain rfl : thread = trimmer := Option.some.inj ((same ▸ listed).symm.trans here)
            have safe := trims.safe
            rw [crashed] at safe
            exact safe.elim
          · exact absurd (away j thread same listed).1 (never True)

-- What a process does after an access outside an object, or a division by zero, is
-- not followed; no other fault is met.
theorem scull_never_uses_freed_memory (s : ScullState) (chain : List Entry) (calls : List ScullCall)
    (schedule : List Nat) (pool : ScullPool) (holds : WellFormed cfg outside s chain)
    (fit : FirstArrayFits cfg.abi s.qset chain)
    (ran : Pool.Run TrimsAlone (Pool.start s (calls.map (ScullCall.prog cfg))) schedule pool) :
    ∀ thread ∈ pool.threads, ∀ fault, thread.fault = some fault → fault = .divideByZero ∨ fault = .outOfBounds := by
  intro thread member fault faults
  obtain ⟨j, listed⟩ := List.getElem?_of_mem member
  have invariant := Pool.run_invariant TrimsAlone (RaceInvariant cfg outside)
    (fun pool next i inv admitted stepped => race_step cfg outside pool next i inv admitted stepped) _ pool schedule ran
    (race_start cfg outside s chain calls holds fit)
  exact race_faults cfg outside pool j thread fault invariant listed faults

def smallScull : ScullConfig := ⟨.ilp32, 4, 2⟩

def writerAndTrimmer : ScullPool :=
  Pool.start (bareDevice 4 2) ([.write (oneByte 0), .opening 1].map (ScullCall.prog smallScull))

theorem small_device_well_formed : WellFormed smallScull (fun _ => none) (bareDevice 4 2) [⟨0, none⟩] :=
  bare_device_well_formed _ 4 2 ⟨by decide, by decide, by decide⟩ ⟨by decide, by decide, by decide⟩

theorem trim_before_the_semaphore :
    ∃ pool, Pool.Run TrimsAlone writerAndTrimmer [0, 0, 1, 1, 1, 1, 1, 1, 1, 1, 1, 0, 0, 0] pool ∧
      pool.finished = true ∧
      ∀ thread ∈ pool.threads, ∀ fault, thread.fault = some fault → fault = .divideByZero ∨ fault = .outOfBounds := by
  obtain ⟨pool, ran, ends⟩ : ∃ pool, Pool.Run TrimsAlone writerAndTrimmer
      [0, 0, 1, 1, 1, 1, 1, 1, 1, 1, 1, 0, 0, 0] pool ∧ pool.finished = true :=
    ⟨_, Pool.runs_run _ _ _ _ rfl, rfl⟩
  exact ⟨pool, ran, ends, scull_never_uses_freed_memory smallScull (fun _ => none) (bareDevice 4 2) [⟨0, none⟩]
    [.write (oneByte 0), .opening 1] _ pool small_device_well_formed (fun _ _ _ => by unfold SlotsFit; decide) ran⟩

-- The writer holds dev->sem and its node when the open frees the list.
theorem trim_inside_the_semaphore :
    WellFormed smallScull (fun _ => none) (bareDevice 4 2) [⟨0, none⟩] ∧
      ∃ pool, writerAndTrimmer.exec [0, 0, 0, 0, 1, 1, 1, 1, 1, 1, 1, 1, 1, 0] = some pool ∧
        ∃ thread ∈ pool.threads, thread.fault = some .useAfterFree :=
  ⟨small_device_well_formed, _, rfl, _, List.mem_cons_self, rfl⟩

end OneDriver.Scull
