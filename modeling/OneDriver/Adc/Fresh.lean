import OneDriver.Guarantee
import OneDriver.Adc.Device

set_option autoImplicit false

namespace OneDriver.Adc

-- No wait is ended by a signal: where one is looked for and found, the result of
-- the conversion has come.
def NoSignalEndsWait (pool : AdcPool) (i : Nat) : Prop :=
  pool.threads[i]?.bind Thread.upcoming = some (.signalPending i) →
    pool.shared.signalled i = false ∨ pool.shared.evAdc ≠ 0

instance (pool : AdcPool) (i : Nat) : Decidable (NoSignalEndsWait pool i) := inferInstanceAs (Decidable (_ → _))

variable (result : Nat → BitVec 32)

def FreshEntry (entry : Formatted) : Prop :=
  entry.value ≠ -1 → ∃ own, entry.conversion = some own ∧ entry.source = some own ∧ entry.value = sample (result own)

def FreshLog (s : AdcState) : Prop := ∀ entry ∈ s.formatted, FreshEntry result entry

-- Nothing is in flight while nobody holds ADC_LOCK.
structure Settled (s : AdcState) : Prop where
  log : FreshLog result s
  free : s.adcLock = none → s.inflight = [] ∧ s.evAdc = 0

def Arrived (own : Nat) (s : AdcState) : Prop :=
  s.evAdc = 1 ∧ s.inflight = [] ∧ s.dataFrom = some own ∧ s.adcData = sample (result own)

inductive Phase where
  | idle
  | taken
  | owning
  | waiting (own : Nat)
  | arrived (own : Nat)
  | cleared (own : Nat)
deriving DecidableEq, Repr

def At (task : Nat) : Phase → AdcState → Prop
  | .idle, s => Settled result s
  | .taken, s => Settled result s ∧ s.adcLock = some task ∧ s.inflight = [] ∧ s.evAdc = 0
  | .owning, s => Settled result s ∧ s.adcLock = some task ∧ s.ownAdc ≠ 0 ∧ s.inflight = [] ∧ s.evAdc = 0
  | .waiting own, s => Settled result s ∧ s.adcLock = some task ∧ s.ownAdc ≠ 0 ∧
      (s.evAdc = 0 ∧ s.inflight = [own] ∨ Arrived result own s)
  | .arrived own, s => Settled result s ∧ s.adcLock = some task ∧ s.ownAdc ≠ 0 ∧ Arrived result own s
  | .cleared own, s => Settled result s ∧ s.adcLock = some task ∧ s.inflight = [] ∧ s.evAdc = 0 ∧
      s.dataFrom = some own ∧ s.adcData = sample (result own)

def freshContract (i : Nat) : Contract AdcStep AdcState AdcFault :=
  .keeping (At result i) (fun s t => ∀ j, j ≠ i → Preserves (At result j) s t)
    (fun label s => label = .signalPending i → s.signalled i = false ∨ s.evAdc ≠ 0) (fun _ _ => True) fun _ => True

theorem at_stable (i : Nat) (phase : Phase) : (freshContract result i).Stable (At result i phase) :=
  fun _ _ holds kept => kept phase holds

theorem fresh_compatible : Pool.Compatible (freshContract result) := fun _ j other _ _ given => given j other

-- What a step may leave alone for every phase of every task to be kept.
structure Untouched (s t : AdcState) : Prop where
  lock : t.adcLock = s.adcLock
  own : t.ownAdc = s.ownAdc
  ev : t.evAdc = s.evAdc
  inflight : t.inflight = s.inflight
  source : t.dataFrom = s.dataFrom
  data : t.adcData = s.adcData
  log : FreshLog result s → FreshLog result t

theorem untouched_preserves (task : Nat) (s t : AdcState) (same : Untouched result s t) :
    Preserves (At result task) s t := by
  obtain ⟨lock, own, ev, inflight, source, data, log⟩ := same
  have settled : Settled result s → Settled result t := fun h => ⟨log h.log, by rw [lock, inflight, ev]; exact h.free⟩
  intro phase holds
  cases phase with
  | idle => exact settled holds
  | taken => exact ⟨settled holds.1, by rw [lock, inflight, ev]; exact holds.2⟩
  | owning => exact ⟨settled holds.1, by rw [lock, own, inflight, ev]; exact holds.2⟩
  | waiting c => exact ⟨settled holds.1, by rw [Arrived, lock, own, inflight, ev, source, data]; exact holds.2⟩
  | arrived c => exact ⟨settled holds.1, by rw [Arrived, lock, own, inflight, ev, source, data]; exact holds.2⟩
  | cleared c => exact ⟨settled holds.1, by rw [lock, inflight, ev, source, data]; exact holds.2⟩

theorem alone_preserves (i : Nat) (s t : AdcState) (alone : ∀ j, j ≠ i → s.adcLock ≠ some j)
    (settled : Settled result t) (j : Nat) (other : j ≠ i) : Preserves (At result j) s t := by
  intro phase holds
  cases phase with
  | idle => exact settled
  | taken => exact absurd holds.2.1 (alone j other)
  | owning => exact absurd holds.2.1 (alone j other)
  | waiting c => exact absurd holds.2.1 (alone j other)
  | arrived c => exact absurd holds.2.1 (alone j other)
  | cleared c => exact absurd holds.2.1 (alone j other)

theorem holder_alone (i : Nat) (s : AdcState) (holds : s.adcLock = some i) (j : Nat) (other : j ≠ i) :
    s.adcLock ≠ some j := by
  rw [holds]
  exact fun same => other (Option.some.inj same).symm

theorem complete_frame (n : Nat) (s : AdcState) :
    (s.complete result n).adcLock = s.adcLock ∧ (s.complete result n).ownAdc = s.ownAdc ∧
      (s.complete result n).inflight = s.inflight.erase n ∧ (s.complete result n).formatted = s.formatted := by
  unfold AdcState.complete adcdoneIntHandler
  split <;> exact ⟨rfl, rfl, rfl, rfl⟩

theorem complete_owned (n : Nat) (s : AdcState) (own : s.ownAdc ≠ 0) :
    (s.complete result n).evAdc = 1 ∧ (s.complete result n).dataFrom = some n ∧
      (s.complete result n).adcData = sample (result n) := by
  rw [AdcState.complete, adcdoneIntHandler, if_pos own]
  exact ⟨rfl, rfl, rfl⟩

-- An interrupt in flight is that of the task that waits for it.
theorem complete_preserves (n : Nat) (s : AdcState) (flies : n ∈ s.inflight) (task : Nat) :
    Preserves (At result task) s (s.complete result n) := by
  obtain ⟨lock, own, inflight, log⟩ := complete_frame result n s
  have settled : Settled result s → Settled result (s.complete result n) := by
    intro holds
    refine ⟨fun entry member => holds.log entry (log ▸ member), fun free => ?_⟩
    rw [lock] at free
    rw [(holds.free free).1] at flies
    contradiction
  have grounded : s.inflight ≠ [] := List.ne_nil_of_mem flies
  intro phase holds
  cases phase with
  | idle => exact settled holds
  | taken => exact absurd holds.2.2.1 grounded
  | owning => exact absurd holds.2.2.2.1 grounded
  | arrived c => exact absurd holds.2.2.2.2.1 grounded
  | cleared c => exact absurd holds.2.2.1 grounded
  | waiting c =>
      obtain ⟨base, held, owns, ⟨idle, one⟩ | arrived⟩ := holds
      · obtain rfl : n = c := by simpa [one] using flies
        obtain ⟨ev, source, data⟩ := complete_owned result n s owns
        refine ⟨settled base, lock.trans held, by rwa [own], .inr ⟨ev, ?_, source, data⟩⟩
        rw [inflight, one, List.erase_cons_head]
      · exact absurd arrived.2.1 grounded

section Task

variable (i : Nat)

theorem quiet_modify (label : AdcStep) (set : AdcState → AdcState) (phase : Phase) (s : AdcState)
    (holds : At result i phase s) (quiet : ∀ t, Untouched result t (set t)) :
    (Prog.modify label set : AdcProg Unit).Meets (freshContract result i) (fun _ => At result i phase) s :=
  Prog.meets_modify _ _ _ (At result i phase) _ s (at_stable result i phase) holds (at_stable result i phase)
    (fun _ _ => trivial) fun t here _ => ⟨fun j _ => untouched_preserves result j t _ (quiet t),
      untouched_preserves result i t _ (quiet t) phase here⟩

theorem holder_modify (label : AdcStep) (set : AdcState → AdcState) (from' to' : Phase) (s : AdcState)
    (holds : At result i from' s) (held : ∀ t, At result i from' t → t.adcLock = some i)
    (moves : ∀ t, At result i from' t → At result i to' (set t))
    (settled : ∀ t, At result i to' t → Settled result t) :
    (Prog.modify label set : AdcProg Unit).Meets (freshContract result i) (fun _ => At result i to') s :=
  Prog.meets_modify _ _ _ (At result i from') _ s (at_stable result i from') holds (at_stable result i to')
    (fun _ _ => trivial) fun t here _ => ⟨alone_preserves result i t _ (holder_alone i t (held t here))
      (settled _ (moves t here)), moves t here⟩

theorem phase_look {α : Type} (label : AdcStep) (get : AdcState → α) (phase : Phase) (after : α → Phase) (s : AdcState)
    (holds : At result i phase s)
    (tells : ∀ t, At result i phase t → (label = .signalPending i → t.signalled i = false ∨ t.evAdc ≠ 0) →
      At result i (after (get t)) t) :
    (Prog.look label get : AdcProg α).Meets (freshContract result i) (fun a => At result i (after a)) s :=
  Prog.meets_look _ _ _ (At result i phase) _ s (at_stable result i phase) holds (fun a => at_stable result i (after a))
    (fun _ _ => trivial) fun t here allowed => ⟨fun _ _ _ kept => kept, tells t here allowed⟩

theorem at_settled (phase : Phase) (s : AdcState) (holds : At result i phase s) : Settled result s := by
  cases phase with
  | idle => exact holds
  | taken => exact holds.1
  | owning => exact holds.1
  | waiting c => exact holds.1
  | arrived c => exact holds.1
  | cleared c => exact holds.1

theorem test_ev_meets (own : Nat) (s : AdcState) (holds : At result i (.waiting own) s) :
    (Prog.look .testEvAdc (·.evAdc) : AdcProg Int).Meets (freshContract result i)
      (fun ev => At result i (if ev ≠ 0 then .arrived own else .waiting own)) s := by
  refine phase_look result i _ _ (.waiting own) (fun ev => if ev ≠ 0 then .arrived own else .waiting own) s holds ?_
  intro t here _
  by_cases set : t.evAdc = 0
  · simpa [set] using here
  · obtain ⟨base, held, owns, ⟨clear, -⟩ | arrived⟩ := here
    · exact absurd clear set
    · simp only [ne_eq, set, not_false_eq_true, if_true]
      exact ⟨base, held, owns, arrived⟩

theorem signal_pending_meets (own : Nat) (s : AdcState) (holds : At result i (.waiting own) s) :
    (Prog.look (.signalPending i) (·.signalled i) : AdcProg Bool).Meets (freshContract result i)
      (fun signalled => At result i (if signalled = true then .arrived own else .waiting own)) s := by
  refine phase_look result i _ _ (.waiting own) (fun signalled => if signalled = true then .arrived own else .waiting own)
    s holds ?_
  intro t here allowed
  cases found : t.signalled i with
  | false => simpa using here
  | true =>
      obtain ⟨base, held, owns, ⟨clear, -⟩ | arrived⟩ := here
      · rcases allowed rfl with unsignalled | set
        · rw [found] at unsignalled
          contradiction
        · exact absurd clear set
      · simp only [if_true]
        exact ⟨base, held, owns, arrived⟩

-- The loop ends only when the result of the task's own conversion is there.
theorem wait_loop_meets (own rounds : Nat) (s : AdcState) (holds : At result i (.waiting own) s) :
    (waitLoop i rounds).Meets (freshContract result i) (fun _ => At result i (.arrived own)) s := by
  have done : ∀ t, At result i (.arrived own) t →
      (pure () : AdcProg Unit).Meets (freshContract result i) (fun _ => At result i (.arrived own)) t :=
    fun t here => Prog.meets_pure _ _ _ t (at_stable result i (.arrived own)) here
  induction rounds generalizing s with
  | zero => exact Prog.meets_crash _ _ _ s trivial
  | succ rounds ih =>
      refine Prog.meets_bind _ _ _ (fun _ => At result i (.waiting own)) _ s ?_ fun _ t here => ?_
      · exact quiet_modify result i _ _ (.waiting own) s holds fun t => ⟨rfl, rfl, rfl, rfl, rfl, rfl, fun log => log⟩
      refine Prog.meets_bind _ _ _ _ _ t (test_ev_meets result i own t here) fun ev u here => ?_
      by_cases set : ev = 0
      · simp only [set, ne_eq, not_true_eq_false, if_false] at here ⊢
        refine Prog.meets_bind _ _ _ _ _ u (signal_pending_meets result i own u here) fun signalled v here => ?_
        cases signalled with
        | true => exact done v here
        | false =>
            refine Prog.meets_bind _ _ _ (fun _ => At result i (.waiting own)) _ v ?_ fun _ w here => ih w here
            refine Prog.meets_await _ _ _ _ (At result i (.waiting own)) _ v (at_stable result i _) here
              (at_stable result i _) (fun _ _ => trivial) fun w here _ _ => ?_
            have quiet : Untouched result w { w with sleeping := Function.update w.sleeping i false } :=
              ⟨rfl, rfl, rfl, rfl, rfl, rfl, fun log => log⟩
            exact ⟨fun j _ => untouched_preserves result j w _ quiet, untouched_preserves result i w _ quiet _ here⟩
      · simp only [ne_eq, set, not_false_eq_true, if_true] at here ⊢
        exact done u here

theorem wait_event_meets (own rounds : Nat) (s : AdcState) (holds : At result i (.waiting own) s) :
    (waitEventInterruptible i rounds).Meets (freshContract result i) (fun _ => At result i (.arrived own)) s := by
  refine Prog.meets_bind _ _ _ _ _ s (test_ev_meets result i own s holds) fun ev t here => ?_
  by_cases set : ev = 0
  · simp only [set, ne_eq, not_true_eq_false, if_false] at here ⊢
    refine Prog.meets_bind _ _ _ _ _ t (wait_loop_meets result i own rounds t here) fun _ u here => ?_
    exact quiet_modify result i _ _ (.arrived own) u here fun t => ⟨rfl, rfl, rfl, rfl, rfl, rfl, fun log => log⟩
  · simp only [ne_eq, set, not_false_eq_true, if_true] at here ⊢
    exact Prog.meets_pure _ _ _ t (at_stable result i (.arrived own)) here

theorem start_adc_ain_meets (s : AdcState) (holds : At result i .owning s) :
    startAdcAin.Meets (freshContract result i) (fun own => At result i (.waiting own)) s := by
  refine Prog.meets_bind _ _ _ (fun _ => At result i .owning) _ s ?_ fun config t here => ?_
  · exact phase_look result i _ _ .owning (fun _ => .owning) s holds fun t here _ => here
  refine Prog.meets_bind _ _ _ (fun _ => At result i .owning) _ t ?_ fun _ u here => ?_
  · exact quiet_modify result i _ _ .owning t here fun t => ⟨rfl, rfl, rfl, rfl, rfl, rfl, fun log => log⟩
  refine Prog.meets_bind _ _ _ (fun _ => At result i .owning) _ u ?_ fun con v here => ?_
  · exact phase_look result i _ _ .owning (fun _ => .owning) u here fun t here _ => here
  refine Prog.meets_act _ _ _ _ _ (At result i .owning) _ v (at_stable result i .owning) here
    (fun own => at_stable result i (.waiting own)) (fun _ _ => trivial) fun w here _ _ => ?_
  obtain ⟨base, held, owns, grounded, clear⟩ := here
  have next : At result i (.waiting w.started) { w with
      adccon := con ||| adcStart, started := w.started + 1, inflight := w.started :: w.inflight } :=
    ⟨⟨base.log, fun free => by simp [held] at free⟩, held, owns, .inl ⟨clear, by rw [grounded]⟩⟩
  exact ⟨alone_preserves result i w _ (holder_alone i w held) next.1, next⟩

theorem format_value_meets (call : ReadCall) (entry : Formatted) (fresh : FreshEntry result entry) (s : AdcState)
    (holds : At result i .idle s) :
    (formatValue call entry).Meets (freshContract result i) (fun _ => At result i .idle) s := by
  refine Prog.meets_bind _ _ _ (fun _ => At result i .idle) _ s ?_ fun _ t here =>
    Prog.meets_pure _ _ _ t (at_stable result i .idle) here
  refine quiet_modify result i _ _ .idle s holds fun t => ⟨rfl, rfl, rfl, rfl, rfl, rfl, fun log => ?_⟩
  intro other member
  rcases List.mem_cons.mp member with rfl | member
  · exact fresh
  · exact log other member

theorem read_owned_meets (rounds : Nat) (call : ReadCall) (s : AdcState) (holds : At result i .taken s) :
    (readOwned i rounds call).Meets (freshContract result i) (fun _ => At result i .idle) s := by
  have settled := at_settled result i
  refine Prog.meets_bind _ _ _ (fun _ => At result i .owning) _ s ?_ fun _ t here => ?_
  · exact holder_modify result i _ _ .taken .owning s holds (fun t here => here.2.1)
      (fun t here => ⟨⟨here.1.log, here.1.free⟩, here.2.1, Int.one_ne_zero, here.2.2⟩) (settled .owning)
  refine Prog.meets_bind _ _ _ _ _ t (start_adc_ain_meets result i t here) fun own u here => ?_
  refine Prog.meets_bind _ _ _ _ _ u (wait_event_meets result i own rounds u here) fun _ v here => ?_
  refine Prog.meets_bind _ _ _ (fun _ => At result i (.cleared own)) _ v ?_ fun _ w here => ?_
  · refine holder_modify result i _ _ (.arrived own) (.cleared own) v here (fun t here => here.2.1) ?_ (settled _)
    rintro t ⟨base, held, -, -, grounded, source, data⟩
    exact ⟨⟨base.log, fun _ => ⟨grounded, rfl⟩⟩, held, grounded, rfl, source, data⟩
  refine Prog.meets_bind _ _ _ (fun value t => At result i (.cleared own) t ∧ value = (sample (result own), some own)) _ w
    ?_ fun value x here => ?_
  · refine Prog.meets_look _ _ _ (At result i (.cleared own)) _ w (at_stable result i _) here
      (fun value s t holds kept => ⟨kept _ holds.1, holds.2⟩) (fun _ _ => trivial) fun t here _ => ?_
    have source := here.2.2.2.2.1
    have data := here.2.2.2.2.2
    exact ⟨fun _ _ _ kept => kept, here, by rw [source, data]⟩
  obtain ⟨here, rfl⟩ := here
  refine Prog.meets_bind _ _ _ (fun _ => At result i (.cleared own)) _ x ?_ fun _ y here => ?_
  · exact holder_modify result i _ _ (.cleared own) (.cleared own) x here (fun t here => here.2.1)
      (fun t here => ⟨⟨here.1.log, here.1.free⟩, here.2⟩) (settled _)
  refine Prog.meets_bind _ _ _ (fun _ => At result i .idle) _ y ?_ fun _ z here => ?_
  · exact holder_modify result i _ _ (.cleared own) .idle y here (fun t here => here.2.1)
      (fun t here => ⟨here.1.log, fun _ => ⟨here.2.2.1, here.2.2.2.1⟩⟩) (settled _)
  exact format_value_meets result i call _ (fun _ => ⟨own, rfl, rfl, rfl⟩) z here

theorem adc_read_meets (rounds : Nat) (call : ReadCall) (s : AdcState) (holds : At result i .idle s) :
    (adcRead i rounds call).Meets (freshContract result i) (fun _ => At result i .idle) s := by
  refine Prog.meets_bind _ _ _ (fun taken => At result i (if taken then .taken else .idle)) _ s ?_ fun taken t here => ?_
  · refine Prog.meets_act _ _ _ _ _ (At result i .idle) _ s (at_stable result i .idle) holds
      (fun taken => at_stable result i (if taken then .taken else .idle)) (fun _ _ => trivial) fun t here _ _ => ?_
    by_cases free : t.adcLock = none
    · obtain ⟨grounded, clear⟩ := here.free free
      have next : At result i .taken { t with adcLock := some i } :=
        ⟨⟨here.log, fun held => by simp at held⟩, rfl, grounded, clear⟩
      simp only [free, if_true, decide_true]
      exact ⟨alone_preserves result i t _ (fun j _ => by simp [free]) next.1, next⟩
    · simp only [free, if_false, decide_false]
      exact ⟨fun _ _ _ kept => kept, here⟩
  · cases taken with
    | true => exact read_owned_meets result i rounds call t here
    | false => exact format_value_meets result i call _ (fun differs => absurd rfl differs) t here

theorem adc_open_meets (s : AdcState) (holds : At result i .idle s) :
    adcOpen.Meets (freshContract result i) (fun _ => At result i .idle) s := by
  refine Prog.meets_bind _ _ _ (fun _ => At result i .idle) _ s ?_ fun _ t here => ?_
  · exact quiet_modify result i _ _ .idle s holds fun t => ⟨rfl, rfl, rfl, rfl, rfl, rfl, fun log => log⟩
  refine Prog.meets_bind _ _ _ (fun _ => At result i .idle) _ t ?_ fun _ u here => ?_
  · exact quiet_modify result i _ _ .idle t here fun t => ⟨rfl, rfl, rfl, rfl, rfl, rfl, fun log => log⟩
  refine Prog.meets_bind _ _ _ (fun _ => At result i .idle) _ u ?_ fun _ v here => ?_
  · exact quiet_modify result i _ _ .idle u here fun t => ⟨rfl, rfl, rfl, rfl, rfl, rfl, fun log => log⟩
  exact Prog.meets_pure _ _ _ v (at_stable result i .idle) here

theorem actor_meets (rounds : Nat) (actor : Actor) (s : AdcState) (holds : At result i .idle s) :
    (actor.prog result rounds i).Meets (freshContract result i) (fun _ => At result i .idle) s := by
  have done : ∀ t, At result i .idle t →
      (pure [] : AdcProg (List Int)).Meets (freshContract result i) (fun _ => At result i .idle) t :=
    fun t here => Prog.meets_pure _ _ _ t (at_stable result i .idle) here
  cases actor with
  | process calls =>
      refine Prog.meets_series _ _ (At result i .idle) (at_stable result i .idle) calls (fun call _ t here => ?_) s holds
      cases call with
      | opening => exact adc_open_meets result i t here
      | read call => exact adc_read_meets result i rounds call t here
  | conversion number =>
      refine Prog.meets_bind _ _ _ (fun _ => At result i .idle) _ s ?_ fun _ t here => done t here
      refine Prog.meets_await _ _ _ _ (At result i .idle) _ s (at_stable result i .idle) holds (at_stable result i .idle)
        (fun _ _ => trivial) fun t here flies _ => ?_
      have kept := complete_preserves result number t (of_decide_eq_true flies)
      exact ⟨fun j _ => kept j, kept i .idle here⟩
  | signal task pending =>
      refine Prog.meets_bind _ _ _ (fun _ => At result i .idle) _ s ?_ fun _ t here => done t here
      exact quiet_modify result i _ _ .idle s holds fun t => ⟨rfl, rfl, rfl, rfl, rfl, rfl, fun log => log⟩

end Task

theorem acting_all_meet (rounds : Nat) (s : AdcState) (actors : List Actor) (settled : Settled result s) :
    Pool.AllMeet (freshContract result) (fun i _ => At result i .idle) (acting result rounds s actors) := by
  apply Pool.start_all_meet
  intro i p listed
  obtain ⟨actor, -, rfl⟩ : ∃ actor, actors[i]? = some actor ∧ actor.prog result rounds i = p := by
    simpa using listed
  exact actor_meets result i rounds actor s settled

theorem adc_reads_are_fresh (rounds : Nat) (actors : List Actor) (schedule : List Nat) (pool : AdcPool)
    (ran : Pool.Run NoSignalEndsWait (acting result rounds loadedAdc actors) schedule pool) :
    FreshLog result pool.shared := by
  have settled : Settled result loadedAdc := ⟨fun _ member => absurd member List.not_mem_nil, fun _ => ⟨rfl, rfl⟩⟩
  have kept := Pool.all_meet_rely (freshContract result) (fun i _ => At result i .idle) (fresh_compatible result)
    NoSignalEndsWait
    (fun pool i label admitted upcoming same => admitted (same ▸ upcoming))
    _ pool schedule (acting_all_meet result rounds loadedAdc actors settled) ran _ (Nat.le_refl _)
  exact (kept .idle settled).log

def testResult (conversion : Nat) : BitVec 32 := 0x405 + BitVec.ofNat 32 conversion

-- The interrupt lands after the reader has looked for a signal.
theorem read_of_one_conversion :
    ∃ pool, Pool.Run NoSignalEndsWait
        (acting testResult 3 loadedAdc [.process [.opening, .read ⟨16, none⟩], .conversion 0, .signal 0 true])
        [0, 0, 0, 0, 0, 0, 0, 0, 0, 0, 0, 0, 0, 1, 2, 0, 0, 0, 0, 0, 0, 0, 0, 0] pool ∧
      pool.shared.formatted = [⟨5, some 0, some 0⟩] ∧ FreshLog testResult pool.shared := by
  obtain ⟨pool, ran, logged⟩ : ∃ pool, Pool.Run NoSignalEndsWait
      (acting testResult 3 loadedAdc [.process [.opening, .read ⟨16, none⟩], .conversion 0, .signal 0 true])
      [0, 0, 0, 0, 0, 0, 0, 0, 0, 0, 0, 0, 0, 1, 2, 0, 0, 0, 0, 0, 0, 0, 0, 0] pool ∧
        pool.shared.formatted = [⟨5, some 0, some 0⟩] :=
    ⟨_, Pool.runs_run _ _ _ _ rfl, rfl⟩
  exact ⟨pool, ran, logged, adc_reads_are_fresh testResult 3 _ _ pool ran⟩

-- A signal ends the wait, and the reader formats what adc_data held before.
theorem signalled_read_is_stale :
    ∃ pool, (acting testResult 3 loadedAdc [.process [.opening, .read ⟨16, none⟩], .conversion 0, .signal 0 true]).exec
        [0, 0, 0, 0, 0, 0, 0, 0, 0, 0, 0, 0, 2, 0, 0, 0, 0, 0, 0, 0] = some pool ∧
      pool.shared.formatted = [⟨0, none, some 0⟩] ∧ ¬ FreshLog testResult pool.shared := by
  refine ⟨_, rfl, rfl, fun fresh => ?_⟩
  obtain ⟨own, -, source, -⟩ := fresh ⟨0, none, some 0⟩ List.mem_cons_self (by decide)
  contradiction

end OneDriver.Adc
