import OneDriver.Guarantee
import OneDriver.Keys.Device

set_option autoImplicit false

namespace OneDriver.Keys

-- What happens around a reader: a level changes, a handler runs, a signal comes
-- or is taken.
inductive KeyEvent where
  | level (pin : Nat) (high : Bool)
  | interrupt (button : ButtonIrqDesc)
  | signal (pending : Bool)
deriving DecidableEq, Repr

def KeyEvent.prog : KeyEvent → KeysProg (List Int)
  | .level pin high => do
      Prog.modify .world fun s => { s with pins := Function.update s.pins pin high }
      pure []
  | .interrupt button => do
      buttonsInterrupt button
      pure []
  | .signal pending => do
      Prog.modify .world fun s => { s with signalPending := pending }
      pure []

abbrev KeysPool := Pool KeysStep KeysState KeysFault (List Int)

-- The reader is thread 0.
def readerAmong (s : KeysState) (calls : List ReadCall) (events : List KeyEvent) : KeysPool :=
  Pool.start s (Prog.series buttonsRead calls :: events.map KeyEvent.prog)

def OutsideRead (pool : KeysPool) : Prop :=
  pool.threads[0]?.bind Thread.upcoming = some .testEvPress ∨ ∃ results, pool.threads[0]?.bind Thread.value = some results

-- The first `k` bytes of a snapshot are as good as the flag: a change behind the
-- copy sets it again.
def Copied (k : Nat) (s : KeysState) : Prop := ∀ n : Fin 6, n.val < k → s.keyValues n ≠ s.user n → s.evPress = 1

def readContract : Nat → Contract KeysStep KeysState KeysFault
  | 0 => .keeping Copied (fun _ _ => True) (fun _ _ => True) (fun label s => label = .testEvPress → Copied 6 s)
      fun _ => False
  | _ + 1 => .keeping (fun (_ : Unit) _ => True) (Preserves Copied) (fun _ _ => True) (fun _ _ => True) fun _ => False

theorem copied_stable (k : Nat) : (readContract 0).Stable (Copied k) := fun _ _ holds kept => kept k holds

theorem serve_copied (button : ButtonIrqDesc) (s : KeysState) : Preserves Copied s (s.serve button) := by
  intro k copied n before changed
  unfold KeysState.serve at changed ⊢
  split
  · rfl
  · rename_i same
    rw [if_neg same] at changed
    exact copied n before changed

theorem copy_key_copied (s : KeysState) (number : Fin 6) (copied : Copied number.val s) :
    Copied (number.val + 1) { s with user := Function.update s.user number (s.keyValues number) } := by
  intro n before changed
  by_cases same : n = number
  · subst same
    simp at changed
  · refine copied n ?_ (by simpa [same] using changed)
    have other : n.val ≠ number.val := fun equal => same (Fin.ext equal)
    omega

-- Key by key the copied prefix grows, whatever interrupts land in between.
theorem copy_keys_meets (numbers : List (Fin 6)) (k : Nat) (s : KeysState) (whole : k + numbers.length = 6)
    (order : ∀ j (inside : j < numbers.length), numbers[j].val = k + j) (copied : Copied k s) :
    (copyKeys numbers).Meets (readContract 0) (fun _ => Copied 6) s := by
  induction numbers generalizing k s with
  | nil =>
      obtain rfl : k = 6 := by simpa using whole
      exact Prog.meets_pure _ _ _ s (copied_stable 6) copied
  | cons number rest ih =>
      have here : number.val = k := order 0 (by simp)
      refine Prog.meets_bind _ _ _ (fun _ => Copied (k + 1)) _ s ?_ fun _ t grown => ?_
      · refine Prog.meets_modify _ _ _ (Copied k) _ s (copied_stable k) copied (copied_stable (k + 1)) ?_ ?_
        · exact fun t _ test => absurd test (by simp)
        · intro t copied _
          subst here
          exact ⟨trivial, copy_key_copied t number copied⟩
      · refine ih (k + 1) t ?_ ?_ grown
        · simp only [List.length_cons] at whole
          omega
        · intro j inside
          have next := order (j + 1) (by simpa using inside)
          simp only [List.getElem_cons_succ] at next
          omega

theorem deliver_keys_meets (call : ReadCall) (s : KeysState) (large : 6 ≤ call.count) (reaches : call.fault = none) :
    (deliverKeys call).Meets (readContract 0) (fun _ => Copied 6) s := by
  have size : call.size = 6 := Nat.min_eq_left large
  have nothing : ∀ t, Copied 0 t := fun t n before => absurd before (Nat.not_lt_zero n.val)
  refine Prog.meets_bind _ _ _ (fun _ => Copied 0) _ s ?_ fun _ t _ => ?_
  · refine Prog.meets_modify _ _ _ (Copied 0) _ s (copied_stable 0) (nothing s) (copied_stable 0) ?_ ?_
    · exact fun t _ test => absurd test (by simp)
    · exact fun t _ _ => ⟨trivial, nothing _⟩
  · refine Prog.meets_bind _ _ _ (fun _ => Copied 6) _ t ?_ fun _ u done => Prog.meets_pure _ _ _ u (copied_stable 6) done
    have all : (List.finRange 6).take (copied call.size call.fault) = List.finRange 6 := by
      rw [size, reaches]
      rfl
    rw [all]
    exact copy_keys_meets (List.finRange 6) 0 t (by simp) (fun j inside => by simp) (nothing t)

theorem buttons_read_meets (call : ReadCall) (s : KeysState) (large : 6 ≤ call.count) (reaches : call.fault = none)
    (copied : Copied 6 s) : (buttonsRead call).Meets (readContract 0) (fun _ => Copied 6) s := by
  refine Prog.meets_bind _ _ _ (fun _ => Copied 6) _ s ?_ fun ev t copied => ?_
  · exact Prog.meets_look _ _ _ (Copied 6) _ s (copied_stable 6) copied (fun _ => copied_stable 6)
      (fun t here _ => here) fun t here _ => ⟨trivial, here⟩
  · split
    · split
      · exact Prog.meets_pure _ _ _ t (copied_stable 6) copied
      · refine Prog.meets_bind _ _ _ (fun _ => Copied 6) _ t ?_ fun _ u _ => deliver_keys_meets call u large reaches
        refine Prog.meets_await _ _ _ _ (Copied 6) _ t (copied_stable 6) copied (copied_stable 6) ?_ ?_
        · exact fun u _ test => absurd test (by simp)
        · exact fun u here _ _ => ⟨trivial, here⟩
    · exact deliver_keys_meets call t large reaches

theorem event_meets (event : KeyEvent) (i : Nat) (s : KeysState) :
    (event.prog).Meets (readContract (i + 1)) (fun _ _ => True) s := by
  have free : ∀ holds : KeysState → Prop, (∀ s, holds s) → (readContract (i + 1)).Stable holds :=
    fun _ always _ t _ _ => always t
  have done : ∀ t, (pure [] : KeysProg (List Int)).Meets (readContract (i + 1)) (fun _ _ => True) t :=
    fun t => Prog.meets_pure _ _ _ t (free _ fun _ => trivial) trivial
  have moves : ∀ label set, (∀ t, Preserves Copied t (set t)) →
      (Prog.modify label set : KeysProg Unit).Meets (readContract (i + 1)) (fun _ _ => True) s := fun label set kept =>
    Prog.meets_modify _ _ _ (fun _ => True) _ s (free _ fun _ => trivial) trivial (free _ fun _ => trivial)
      (fun _ _ => trivial) fun t _ _ => ⟨kept t, trivial⟩
  cases event with
  | level pin high =>
      exact Prog.meets_bind _ _ _ (fun _ _ => True) _ s (moves _ _ fun t k copied => copied) fun _ t _ => done t
  | interrupt button =>
      refine Prog.meets_bind _ _ _ (fun _ _ => True) _ s ?_ fun _ t _ => done t
      rw [buttons_interrupt_serves]
      exact moves _ _ (serve_copied button)
  | signal pending =>
      exact Prog.meets_bind _ _ _ (fun _ _ => True) _ s (moves _ _ fun t k copied => copied) fun _ t _ => done t

theorem read_compatible : Pool.Compatible readContract := by
  rintro (_ | i) (_ | j) other s t given
  · exact absurd rfl other
  · exact fun _ holds => holds
  · exact given
  · exact fun _ holds => holds

def readPost : Nat → List Int → KeysState → Prop
  | 0 => fun _ => Copied 6
  | _ + 1 => fun _ _ => True

theorem reader_all_meet (s : KeysState) (calls : List ReadCall) (events : List KeyEvent) (copied : Copied 6 s)
    (whole : ∀ call ∈ calls, 6 ≤ call.count ∧ call.fault = none) :
    Pool.AllMeet readContract readPost (readerAmong s calls events) := by
  apply Pool.start_all_meet
  rintro (_ | i) p listed
  · obtain rfl := Option.some.inj listed
    exact Prog.meets_series _ buttonsRead (Copied 6) (copied_stable 6) calls
      (fun call member t here => buttons_read_meets call t (whole call member).1 (whole call member).2 here) s copied
  · obtain ⟨event, -, rfl⟩ : ∃ event, events[i]? = some event ∧ event.prog = p := by simpa using listed
    exact event_meets event i s

theorem pending_change_pending_flag (s : KeysState) (calls : List ReadCall) (events : List KeyEvent)
    (schedule : List Nat) (pool : KeysPool) (copied : Copied 6 s)
    (whole : ∀ call ∈ calls, 6 ≤ call.count ∧ call.fault = none)
    (ran : (readerAmong s calls events).exec schedule = some pool) (outside : OutsideRead pool) :
    Copied 6 pool.shared := by
  have holds := Pool.all_meet_run readContract readPost read_compatible (fun _ _ => True)
    (fun _ i _ _ _ => by cases i <;> trivial) _ pool schedule (reader_all_meet s calls events copied whole)
    (Pool.exec_run _ pool schedule ran)
  rcases outside with test | ⟨results, returned⟩
  · exact Pool.all_meet_before readContract readPost pool 0 _ holds test rfl
  · exact Pool.all_meet_value readContract readPost pool 0 results holds returned

theorem run_read_pressed (call : ReadCall) (s : KeysState) (pressed : s.evPress = 1) :
    ∃ r t, (buttonsRead call).run s = .done r t ∧ r ≠ -eagain := by
  have ran := run_deliver_keys call s
  refine ⟨_, _, by simp only [buttonsRead, Prog.run_bind, Prog.run_look, outcome_bind_done, pressed]; exact ran, ?_⟩
  unfold eagain efault
  split <;> omega

theorem no_lost_key_change (s : KeysState) (calls : List ReadCall) (events : List KeyEvent) (schedule : List Nat)
    (pool : KeysPool) (fresh : ∀ n, s.keyValues n = '0'.toUInt8 ∧ s.user n = '0'.toUInt8)
    (whole : ∀ call ∈ calls, 6 ≤ call.count ∧ call.fault = none)
    (ran : (readerAmong s calls events).exec schedule = some pool) (outside : OutsideRead pool) (n : Fin 6)
    (changed : pool.shared.keyValues n ≠ pool.shared.user n) :
    pool.shared.evPress = 1 ∧
      buttonsPoll.run pool.shared = .done (pollin ||| pollrdnorm) pool.shared ∧
      ∀ call, ∃ r t, (buttonsRead call).run pool.shared = .done r t ∧ r ≠ -eagain := by
  have copied : Copied 6 s := fun m _ differ => absurd ((fresh m).1.trans (fresh m).2.symm) differ
  have pressed := pending_change_pending_flag s calls events schedule pool copied whole ran outside n n.isLt changed
  refine ⟨pressed, ?_, fun call => run_read_pressed call pool.shared pressed⟩
  simp [buttonsPoll, pressed]

-- A press, and a release between the copies of the first and the second key.
def key0 : ButtonIrqDesc := ⟨52, 192, 2, ⟨0, Nat.zero_lt_succ 5⟩⟩

def pressAndRelease : List KeyEvent := [.level 192 false, .interrupt key0, .level 192 true, .interrupt key0]

def quietKeys : KeysState := loadedKeys (fun _ => true) fun _ => ⟨none, 0⟩

theorem release_behind_the_copy :
    ∃ pool, (readerAmong quietKeys [⟨6, false, none⟩] pressAndRelease).exec [1, 2, 0, 0, 0, 3, 4, 0, 0, 0, 0, 0] =
      some pool ∧ OutsideRead pool ∧ pool.shared.evPress = 1 := by
  refine ⟨_, rfl, .inr ⟨[6], rfl⟩, ?_⟩
  exact (no_lost_key_change quietKeys [⟨6, false, none⟩] pressAndRelease [1, 2, 0, 0, 0, 3, 4, 0, 0, 0, 0, 0] _
    (fun _ => ⟨rfl, rfl⟩) (by decide) rfl (.inr ⟨[6], rfl⟩) 0 (by decide)).1

end OneDriver.Keys
