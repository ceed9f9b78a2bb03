import OneDriver.Guarantee
import OneDriver.Adc.Device

set_option autoImplicit false

namespace OneDriver.Adc

-- The wait queue is initialised only while nobody is queued on it.
def InitsEmptyQueue (pool : AdcPool) (i : Nat) : Prop :=
  pool.threads[i]?.bind Thread.upcoming = some .initWaitqueueHead → pool.shared.wait = []

instance (pool : AdcPool) (i : Nat) : Decidable (InitsEmptyQueue pool i) := inferInstanceAs (Decidable (_ → _))

-- A reader that schedule() takes off the processor.
def Asleep (pool : AdcPool) (i : Nat) : Prop :=
  pool.threads[i]?.bind Thread.upcoming = some (.schedule i) ∧ pool.shared.sleeping i = true

inductive Entry where
  | linked
  | prepared
  | tested
deriving DecidableEq, Repr

def Stands (task : Nat) : Entry → AdcState → Prop
  | .linked, s => s.queued task = true → task ∈ s.wait
  | .prepared, s => (s.queued task = true → task ∈ s.wait) ∧ (s.sleeping task = true → task ∈ s.wait)
  | .tested, s => (s.queued task = true → task ∈ s.wait) ∧ (s.sleeping task = true → task ∈ s.wait ∧ s.evAdc = 0)

def sleepContract (i : Nat) : Contract AdcStep AdcState AdcFault :=
  .keeping (Stands i) (fun s t => ∀ j, j ≠ i → Preserves (Stands j) s t)
    (fun label s => label = .initWaitqueueHead → s.wait = []) (fun label s => label = .schedule i → Stands i .tested s)
    fun _ => True

theorem stands_stable (i : Nat) (entry : Entry) : (sleepContract i).Stable (Stands i entry) :=
  fun _ _ holds kept => kept entry holds

theorem sleep_compatible : Pool.Compatible sleepContract := fun _ j other _ _ given => given j other

-- A step off the queue; only the interrupt raises the flag.
structure OffQueue (s t : AdcState) : Prop where
  wait : t.wait = s.wait
  queued : t.queued = s.queued
  sleeping : t.sleeping = s.sleeping
  ev : t.evAdc = s.evAdc ∨ t.evAdc = 0

theorem off_queue_preserves (task : Nat) (s t : AdcState) (off : OffQueue s t) : Preserves (Stands task) s t := by
  obtain ⟨wait, queued, sleeping, ev⟩ := off
  intro entry holds
  cases entry with
  | linked => simpa only [Stands, wait, queued] using holds
  | prepared => simpa only [Stands, wait, queued, sleeping] using holds
  | tested =>
      simp only [Stands, wait, queued, sleeping] at holds ⊢
      refine ⟨holds.1, fun sleeps => ⟨(holds.2 sleeps).1, ?_⟩⟩
      rcases ev with same | clear
      · exact same.trans (holds.2 sleeps).2
      · exact clear

theorem other_entry_preserves (j : Nat) (s t : AdcState) (wait : j ∈ s.wait → j ∈ t.wait)
    (queued : t.queued j = s.queued j) (sleeping : t.sleeping j = s.sleeping j) (ev : t.evAdc = s.evAdc) :
    Preserves (Stands j) s t := by
  intro entry holds
  cases entry with
  | linked => exact fun q => wait (holds (queued ▸ q))
  | prepared => exact ⟨fun q => wait (holds.1 (queued ▸ q)), fun sleeps => wait (holds.2 (sleeping ▸ sleeps))⟩
  | tested =>
      exact ⟨fun q => wait (holds.1 (queued ▸ q)), fun sleeps =>
        ⟨wait (holds.2 (sleeping ▸ sleeps)).1, ev.trans (holds.2 (sleeping ▸ sleeps)).2⟩⟩

-- A wake-up leaves no sleeper on the list, and takes off those it woke.
theorem wake_up_linked (s : AdcState) (task : Nat) (linked : s.queued task = true → task ∈ s.wait)
    (queued : s.wakeUp.queued task = true) : task ∈ s.wakeUp.wait := by
  simp only [AdcState.wakeUp, Bool.and_eq_true, Bool.not_eq_true', Bool.and_eq_false_iff,
    decide_eq_false_iff_not] at queued
  obtain ⟨link, woken⟩ := queued
  have member := linked link
  rcases woken with absent | awake
  · exact absurd member absent
  · simp [AdcState.wakeUp, member, awake]

theorem wake_up_wakes (s : AdcState) (task : Nat) (member : s.sleeping task = true → task ∈ s.wait) :
    s.wakeUp.sleeping task = false := by
  cases sleeps : s.sleeping task with
  | false => simp [AdcState.wakeUp, sleeps]
  | true => simp [AdcState.wakeUp, member sleeps]

theorem complete_stands (result : Nat → BitVec 32) (n : Nat) (s : AdcState) (task : Nat) :
    Preserves (Stands task) s (s.complete result n) := by
  unfold AdcState.complete adcdoneIntHandler
  split
  · intro entry holds
    cases entry with
    | linked => exact wake_up_linked _ task holds
    | prepared =>
        have awake := wake_up_wakes { s with
          inflight := s.inflight.erase n, adcdat0 := result n, latched := some n, adcData := sample (result n),
          dataFrom := some n, evAdc := 1 } task holds.2
        exact ⟨wake_up_linked _ task holds.1, fun sleeps => absurd (awake.symm.trans sleeps) Bool.false_ne_true⟩
    | tested =>
        have awake := wake_up_wakes { s with
          inflight := s.inflight.erase n, adcdat0 := result n, latched := some n, adcData := sample (result n),
          dataFrom := some n, evAdc := 1 } task fun sleeps => (holds.2 sleeps).1
        exact ⟨wake_up_linked _ task holds.1, fun sleeps => absurd (awake.symm.trans sleeps) Bool.false_ne_true⟩
  · exact off_queue_preserves task s _ ⟨rfl, rfl, rfl, .inl rfl⟩

section Task

variable (i : Nat)

theorem off_queue_modify (label : AdcStep) (set : AdcState → AdcState) (entry : Entry) (s : AdcState)
    (holds : Stands i entry s) (elsewhere : label ≠ .schedule i) (off : ∀ t, OffQueue t (set t)) :
    (Prog.modify label set : AdcProg Unit).Meets (sleepContract i) (fun _ => Stands i entry) s :=
  Prog.meets_modify _ _ _ (Stands i entry) _ s (stands_stable i entry) holds (stands_stable i entry)
    (fun _ _ same => absurd same elsewhere) fun t here _ => ⟨fun j _ => off_queue_preserves j t _ (off t),
      off_queue_preserves i t _ (off t) entry here⟩

theorem entry_look {α : Type} (label : AdcStep) (get : AdcState → α) (entry : Entry) (after : α → Entry) (s : AdcState)
    (holds : Stands i entry s) (elsewhere : label ≠ .schedule i)
    (tells : ∀ t, Stands i entry t → Stands i (after (get t)) t) :
    (Prog.look label get : AdcProg α).Meets (sleepContract i) (fun a => Stands i (after a)) s :=
  Prog.meets_look _ _ _ (Stands i entry) _ s (stands_stable i entry) holds (fun a => stands_stable i (after a))
    (fun _ _ same => absurd same elsewhere) fun t here _ => ⟨fun _ _ _ kept => kept, tells t here⟩

theorem prepare_meets (s : AdcState) (holds : Stands i .linked s) :
    (prepareToWait i).Meets (sleepContract i) (fun _ => Stands i .prepared) s := by
  refine Prog.meets_modify _ _ _ (Stands i .linked) _ s (stands_stable i .linked) holds (stands_stable i .prepared)
    (fun _ _ same => absurd same (by simp)) fun t here _ => ?_
  have member : i ∈ if t.queued i then t.wait else i :: t.wait := by
    by_cases queued : t.queued i = true
    · rw [if_pos queued]
      exact here queued
    · rw [if_neg queued]
      exact List.mem_cons_self
  refine ⟨fun j other => ?_, fun _ => member, fun _ => member⟩
  refine other_entry_preserves j t _ (fun waits => ?_) (Function.update_of_ne other _ _)
    (Function.update_of_ne other _ _) rfl
  change j ∈ if t.queued i then t.wait else i :: t.wait
  split
  · exact waits
  · exact List.mem_cons_of_mem i waits

theorem finish_meets (s : AdcState) (holds : Stands i .linked s) :
    (finishWait i).Meets (sleepContract i) (fun _ => Stands i .linked) s := by
  refine Prog.meets_modify _ _ _ (Stands i .linked) _ s (stands_stable i .linked) holds (stands_stable i .linked)
    (fun _ _ same => absurd same (by simp)) fun t here _ => ⟨fun j other => ?_, fun queued => ?_⟩
  · refine other_entry_preserves j t _ (fun waits => ?_) (Function.update_of_ne other _ _)
      (Function.update_of_ne other _ _) rfl
    exact List.mem_filter.mpr ⟨waits, by simpa using other⟩
  · simp at queued

theorem schedule_meets (s : AdcState) (holds : Stands i .tested s) :
    (schedule i).Meets (sleepContract i) (fun _ => Stands i .linked) s := by
  refine Prog.meets_await _ _ _ _ (Stands i .tested) _ s (stands_stable i .tested) holds (stands_stable i .linked)
    (fun _ here _ => here) fun t here _ _ => ⟨fun j other => ?_, here.1⟩
  exact other_entry_preserves j t _ (fun waits => waits) rfl (Function.update_of_ne other _ _) rfl

-- A task goes to sleep only after a test, on the list, that found no flag.
theorem loop_meets (rounds : Nat) (s : AdcState) (holds : Stands i .linked s) :
    (waitLoop i rounds).Meets (sleepContract i) (fun _ => Stands i .linked) s := by
  have done : ∀ t, Stands i .linked t →
      (pure () : AdcProg Unit).Meets (sleepContract i) (fun _ => Stands i .linked) t :=
    fun t here => Prog.meets_pure _ _ _ t (stands_stable i .linked) here
  induction rounds generalizing s with
  | zero => exact Prog.meets_crash _ _ _ s trivial
  | succ rounds ih =>
      refine Prog.meets_bind _ _ _ _ _ s (prepare_meets i s holds) fun _ t here => ?_
      refine Prog.meets_bind _ _ _ (fun ev => Stands i (if ev ≠ 0 then .linked else .tested)) _ t ?_ fun ev u here => ?_
      · refine entry_look i _ _ .prepared (fun ev => if ev ≠ 0 then .linked else .tested) t here (by simp) ?_
        intro v prepared
        by_cases clear : v.evAdc = 0
        · simp only [clear, ne_eq, not_true_eq_false, if_false]
          exact ⟨prepared.1, fun sleeps => ⟨prepared.2 sleeps, clear⟩⟩
        · simp only [ne_eq, clear, not_false_eq_true, if_true]
          exact prepared.1
      · by_cases clear : ev = 0
        · simp only [clear, ne_eq, not_true_eq_false, if_false] at here ⊢
          refine Prog.meets_bind _ _ _ (fun _ => Stands i .tested) _ u ?_ fun signalled v here => ?_
          · exact entry_look i _ _ .tested (fun _ => .tested) u here (by simp) fun _ tested => tested
          cases signalled with
          | true => exact done v here.1
          | false => exact Prog.meets_bind _ _ _ _ _ v (schedule_meets i v here) fun _ w here => ih w here
        · simp only [ne_eq, clear, not_false_eq_true, if_true] at here ⊢
          exact done u here

theorem wait_meets (rounds : Nat) (s : AdcState) (holds : Stands i .linked s) :
    (waitEventInterruptible i rounds).Meets (sleepContract i) (fun _ => Stands i .linked) s := by
  refine Prog.meets_bind _ _ _ (fun _ => Stands i .linked) _ s ?_ fun ev t here => ?_
  · exact entry_look i _ _ .linked (fun _ => .linked) s holds (by simp) fun _ linked => linked
  · split
    · exact Prog.meets_pure _ _ _ t (stands_stable i .linked) here
    · exact Prog.meets_bind _ _ _ _ _ t (loop_meets i rounds t here) fun _ u here => finish_meets i u here

theorem start_stands (s : AdcState) (holds : Stands i .linked s) :
    startAdcAin.Meets (sleepContract i) (fun _ => Stands i .linked) s := by
  refine Prog.meets_bind _ _ _ (fun _ => Stands i .linked) _ s ?_ fun config t here => ?_
  · exact entry_look i _ _ .linked (fun _ => .linked) s holds (by simp) fun _ linked => linked
  refine Prog.meets_bind _ _ _ (fun _ => Stands i .linked) _ t ?_ fun _ u here => ?_
  · exact off_queue_modify i _ _ .linked t here (by simp) fun _ => ⟨rfl, rfl, rfl, .inl rfl⟩
  refine Prog.meets_bind _ _ _ (fun _ => Stands i .linked) _ u ?_ fun con v here => ?_
  · exact entry_look i _ _ .linked (fun _ => .linked) u here (by simp) fun _ linked => linked
  exact Prog.meets_act _ _ _ _ _ (Stands i .linked) _ v (stands_stable i .linked) here (fun _ => stands_stable i .linked)
    (fun _ _ same => absurd same (by simp))
    fun w here _ _ => ⟨fun j _ => off_queue_preserves j w _ ⟨rfl, rfl, rfl, .inl rfl⟩, here⟩

theorem format_stands (call : ReadCall) (entry : Formatted) (s : AdcState) (holds : Stands i .linked s) :
    (formatValue call entry).Meets (sleepContract i) (fun _ => Stands i .linked) s := by
  refine Prog.meets_bind _ _ _ (fun _ => Stands i .linked) _ s ?_ fun _ t here =>
    Prog.meets_pure _ _ _ t (stands_stable i .linked) here
  exact off_queue_modify i _ _ .linked s holds (by simp) fun _ => ⟨rfl, rfl, rfl, .inl rfl⟩

theorem owned_stands (rounds : Nat) (call : ReadCall) (s : AdcState) (holds : Stands i .linked s) :
    (readOwned i rounds call).Meets (sleepContract i) (fun _ => Stands i .linked) s := by
  refine Prog.meets_bind _ _ _ (fun _ => Stands i .linked) _ s ?_ fun _ t here => ?_
  · exact off_queue_modify i _ _ .linked s holds (by simp) fun _ => ⟨rfl, rfl, rfl, .inl rfl⟩
  refine Prog.meets_bind _ _ _ _ _ t (start_stands i t here) fun own u here => ?_
  refine Prog.meets_bind _ _ _ _ _ u (wait_meets i rounds u here) fun _ v here => ?_
  refine Prog.meets_bind _ _ _ (fun _ => Stands i .linked) _ v ?_ fun _ w here => ?_
  · exact off_queue_modify i _ _ .linked v here (by simp) fun _ => ⟨rfl, rfl, rfl, .inr rfl⟩
  refine Prog.meets_bind _ _ _ (fun _ => Stands i .linked) _ w ?_ fun value x here => ?_
  · exact entry_look i _ _ .linked (fun _ => .linked) w here (by simp) fun _ linked => linked
  refine Prog.meets_bind _ _ _ (fun _ => Stands i .linked) _ x ?_ fun _ y here => ?_
  · exact off_queue_modify i _ _ .linked x here (by simp) fun _ => ⟨rfl, rfl, rfl, .inl rfl⟩
  refine Prog.meets_bind _ _ _ (fun _ => Stands i .linked) _ y ?_ fun _ z here => format_stands i call _ z here
  exact off_queue_modify i _ _ .linked y here (by simp) fun _ => ⟨rfl, rfl, rfl, .inl rfl⟩

theorem read_stands (rounds : Nat) (call : ReadCall) (s : AdcState) (holds : Stands i .linked s) :
    (adcRead i rounds call).Meets (sleepContract i) (fun _ => Stands i .linked) s := by
  refine Prog.meets_bind _ _ _ (fun _ => Stands i .linked) _ s ?_ fun taken t here => ?_
  · refine Prog.meets_act _ _ _ _ _ (Stands i .linked) _ s (stands_stable i .linked) holds
      (fun _ => stands_stable i .linked) (fun _ _ same => absurd same (by simp)) fun t here _ _ => ?_
    have off : OffQueue t (if t.adcLock = none then { t with adcLock := some i } else t) := by
      split <;> exact ⟨rfl, rfl, rfl, .inl rfl⟩
    exact ⟨fun j _ => off_queue_preserves j t _ off, off_queue_preserves i t _ off .linked here⟩
  · split
    · exact owned_stands i rounds call t here
    · exact format_stands i call _ t here

theorem open_stands (s : AdcState) (holds : Stands i .linked s) :
    adcOpen.Meets (sleepContract i) (fun _ => Stands i .linked) s := by
  refine Prog.meets_bind _ _ _ (fun _ => Stands i .linked) _ s ?_ fun _ t here => ?_
  · refine Prog.meets_modify _ _ _ (Stands i .linked) _ s (stands_stable i .linked) holds (stands_stable i .linked)
      (fun _ _ same => absurd same (by simp)) fun t here allowed => ?_
    have off : OffQueue t { t with wait := [] } := ⟨(allowed rfl).symm, rfl, rfl, .inl rfl⟩
    exact ⟨fun j _ => off_queue_preserves j t _ off, off_queue_preserves i t _ off .linked here⟩
  refine Prog.meets_bind _ _ _ (fun _ => Stands i .linked) _ t ?_ fun _ u here => ?_
  · exact off_queue_modify i _ _ .linked t here (by simp) fun _ => ⟨rfl, rfl, rfl, .inl rfl⟩
  refine Prog.meets_bind _ _ _ (fun _ => Stands i .linked) _ u ?_ fun _ v here => ?_
  · exact off_queue_modify i _ _ .linked u here (by simp) fun _ => ⟨rfl, rfl, rfl, .inl rfl⟩
  exact Prog.meets_pure _ _ _ v (stands_stable i .linked) here

theorem actor_stands (result : Nat → BitVec 32) (rounds : Nat) (actor : Actor) (s : AdcState)
    (holds : Stands i .linked s) :
    (actor.prog result rounds i).Meets (sleepContract i) (fun _ => Stands i .linked) s := by
  have done : ∀ t, Stands i .linked t →
      (pure [] : AdcProg (List Int)).Meets (sleepContract i) (fun _ => Stands i .linked) t :=
    fun t here => Prog.meets_pure _ _ _ t (stands_stable i .linked) here
  cases actor with
  | process calls =>
      refine Prog.meets_series _ _ (Stands i .linked) (stands_stable i .linked) calls (fun call _ t here => ?_) s holds
      cases call with
      | opening => exact open_stands i t here
      | read call => exact read_stands i rounds call t here
  | conversion number =>
      refine Prog.meets_bind _ _ _ (fun _ => Stands i .linked) _ s ?_ fun _ t here => done t here
      refine Prog.meets_await _ _ _ _ (Stands i .linked) _ s (stands_stable i .linked) holds (stands_stable i .linked)
        (fun _ _ same => absurd same (by simp)) fun t here _ _ => ?_
      exact ⟨fun j _ => complete_stands result number t j, complete_stands result number t i .linked here⟩
  | signal task pending =>
      refine Prog.meets_bind _ _ _ (fun _ => Stands i .linked) _ s ?_ fun _ t here => done t here
      exact off_queue_modify i _ _ .linked s holds (by simp) fun _ => ⟨rfl, rfl, rfl, .inl rfl⟩

end Task

theorem complete_wakes (result : Nat → BitVec 32) (n : Nat) (s : AdcState) (task : Nat) (member : task ∈ s.wait)
    (clear : s.evAdc = 0) (set : (s.complete result n).evAdc ≠ 0) : (s.complete result n).sleeping task = false := by
  unfold AdcState.complete adcdoneIntHandler at set ⊢
  split
  · exact wake_up_wakes _ task fun _ => member
  · rename_i released
    rw [if_neg released] at set
    exact absurd clear set

theorem adc_sleepers_are_queued (result : Nat → BitVec 32) (rounds : Nat) (actors : List Actor) (schedule : List Nat)
    (pool : AdcPool) (i : Nat) (ran : Pool.Run InitsEmptyQueue (acting result rounds loadedAdc actors) schedule pool)
    (asleep : Asleep pool i) :
    i ∈ pool.shared.wait ∧ pool.shared.evAdc = 0 ∧
      ∀ n, (pool.shared.complete result n).evAdc ≠ 0 → (pool.shared.complete result n).sleeping i = false := by
  have start : Pool.AllMeet sleepContract (fun i _ => Stands i .linked) (acting result rounds loadedAdc actors) := by
    apply Pool.start_all_meet
    intro j p listed
    obtain ⟨actor, -, rfl⟩ : ∃ actor, actors[j]? = some actor ∧ actor.prog result rounds j = p := by
      simpa using listed
    exact actor_stands j result rounds actor loadedAdc fun queued => absurd queued Bool.false_ne_true
  have holds := Pool.all_meet_run sleepContract (fun i _ => Stands i .linked) sleep_compatible InitsEmptyQueue
    (fun pool i label admitted upcoming same => admitted (same ▸ upcoming)) _ pool schedule start ran
  obtain ⟨-, tested⟩ := Pool.all_meet_before sleepContract _ pool i (.schedule i) holds asleep.1 rfl
  obtain ⟨member, clear⟩ := tested asleep.2
  exact ⟨member, clear, fun n set => complete_wakes result n pool.shared i member clear set⟩

def anyResult (_ : Nat) : BitVec 32 := 0x155

theorem sleeper_after_its_open :
    ∃ pool, Pool.Run InitsEmptyQueue (acting anyResult 3 loadedAdc [.process [.opening, .read ⟨16, none⟩]])
        [0, 0, 0, 0, 0, 0, 0, 0, 0, 0, 0, 0, 0] pool ∧ Asleep pool 0 ∧ 0 ∈ pool.shared.wait := by
  obtain ⟨pool, ran, asleep⟩ : ∃ pool, Pool.Run InitsEmptyQueue
      (acting anyResult 3 loadedAdc [.process [.opening, .read ⟨16, none⟩]])
      [0, 0, 0, 0, 0, 0, 0, 0, 0, 0, 0, 0, 0] pool ∧ Asleep pool 0 :=
    ⟨_, Pool.runs_run _ _ _ _ rfl, rfl, rfl⟩
  exact ⟨pool, ran, asleep, (adc_sleepers_are_queued anyResult 3 _ _ pool 0 ran asleep).1⟩

-- An open empties the list under a sleeper, and its interrupt does not wake it.
theorem open_under_a_sleeper :
    ∃ pool, (acting anyResult 3 loadedAdc [.process [.opening, .read ⟨16, none⟩], .process [.opening], .conversion 0]).exec
        [0, 0, 0, 0, 0, 0, 0, 0, 0, 0, 0, 0, 0, 1, 2] = some pool ∧
      Asleep pool 0 ∧ 0 ∉ pool.shared.wait ∧ pool.shared.evAdc = 1 ∧ pool.shared.adcLock = some 0 :=
  ⟨_, rfl, ⟨rfl, rfl⟩, by decide, rfl, rfl⟩

end OneDriver.Adc
