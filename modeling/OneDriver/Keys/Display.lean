import OneDriver.Part
import OneDriver.Keys.Read

set_option autoImplicit false

namespace OneDriver.Keys

-- The program that shows the keys, over the driver: `keys.user` is its
-- key_current_value, and `lines` what it printed, a key and whether it is down, the latest first.
structure DisplayState where
  keys : KeysState
  keyLastValue : Fin 6 → UInt8
  lines : List (Fin 6 × Bool)

inductive DisplayStep where
  | driver (step : KeysStep)
  | compare (i : Fin 6)
deriving DecidableEq, Repr

abbrev DisplayProg := Prog DisplayStep DisplayState KeysFault

def keysPart : Part DisplayState KeysState where
  get := DisplayState.keys
  set := fun t s => { s with keys := t }
  get_set := fun _ _ => rfl
  set_get := fun _ => rfl
  set_set := fun _ _ _ => rfl

def onKeys {α : Type} (p : KeysProg α) : DisplayProg α := p.within keysPart .driver id fun _ _ => none

def isDown (value : UInt8) : Bool := value != '0'.toUInt8

def compareKey (i : Fin 6) (s : DisplayState) : DisplayState :=
  if s.keys.user i ≠ s.keyLastValue i then
    { s with
      keyLastValue := Function.update s.keyLastValue i (s.keys.user i)
      lines := (i, isDown (s.keys.user i)) :: s.lines }
  else s

def compareKeys : List (Fin 6) → DisplayProg Unit
  | [] => pure ()
  | i :: rest => do
      Prog.modify (.compare i) (compareKey i)
      compareKeys rest

-- So many rounds of the loop of main: the status of its exit, if it has left it.
def displayLoop : Nat → DisplayProg (Option Int)
  | 0 => pure none
  | rounds + 1 => do
      let err ← onKeys (buttonsRead ⟨6, false, none⟩)
      if err ≠ 6 then pure (some 2)
      else do
        compareKeys (List.finRange 6)
        displayLoop rounds

def eventProg (event : KeyEvent) : DisplayProg (Option Int) := do
  let _ ← onKeys event.prog
  pure none

abbrev DisplayPool := Pool DisplayStep DisplayState KeysFault (Option Int)

-- The program is thread 0.
def displaying (s : KeysState) (rounds : Nat) (events : List KeyEvent) : DisplayPool :=
  Pool.start ⟨s, fun _ => '0'.toUInt8, []⟩ (displayLoop rounds :: events.map eventProg)

-- What was shown of a key, the latest first; at the beginning it is taken to be up.
def history (n : Fin 6) : List (Fin 6 × Bool) → List Bool
  | [] => [false]
  | (m, down) :: rest => if m = n then down :: history n rest else history n rest

def Binary (value : UInt8) : Prop := value = '0'.toUInt8 ∨ value = '1'.toUInt8

-- A key that is no longer as `last` has the flag set.
def Flagged (last : Fin 6 → UInt8) (s : KeysState) : Prop := ∀ n, s.keyValues n ≠ last n → s.evPress = 1

-- What a handler may do while others look on.
structure Handled (s t : KeysState) : Prop where
  user : t.user = s.user
  flagged : ∀ n, t.keyValues n ≠ s.keyValues n → t.evPress = 1
  raised : s.evPress = 1 → t.evPress = 1
  binary : (∀ n, Binary (s.keyValues n)) → ∀ n, Binary (t.keyValues n)

theorem handled_refl (s : KeysState) : Handled s s :=
  ⟨rfl, fun _ changed => (changed rfl).elim, id, id⟩

theorem handled_trans (s t u : KeysState) (first : Handled s t) (second : Handled t u) : Handled s u where
  user := second.user.trans first.user
  flagged := by
    intro n changed
    by_cases late : u.keyValues n = t.keyValues n
    · exact second.raised (first.flagged n (late ▸ changed))
    · exact second.flagged n late
  raised := fun raised => second.raised (first.raised raised)
  binary := fun binary => second.binary (first.binary binary)

theorem flagged_handled (last : Fin 6 → UInt8) (s t : KeysState) (flagged : Flagged last s) (handled : Handled s t) :
    Flagged last t := by
  intro n changed
  by_cases late : t.keyValues n = s.keyValues n
  · exact handled.raised (flagged n (late ▸ changed))
  · exact handled.flagged n late

theorem key_char_binary (s : KeysState) (button : ButtonIrqDesc) : Binary (keyChar (s.down button)) := by
  unfold KeysState.down
  split
  · exact .inl rfl
  · exact .inr rfl

theorem serve_handled (button : ButtonIrqDesc) (s : KeysState) : Handled s (s.serve button) := by
  by_cases changes : s.down button ≠ s.keyValues button.number &&& 1
  · rw [KeysState.serve, if_pos changes]
    refine ⟨rfl, fun _ _ => rfl, fun _ => rfl, fun binary n => ?_⟩
    by_cases same : n = button.number
    · subst same
      simpa using key_char_binary s button
    · simpa [same] using binary n
  · rw [KeysState.serve, if_neg changes]
    exact handled_refl s

-- The first `k` bytes of key_current_value are good, or the flag says what is not.
structure Fetched (k : Nat) (s : KeysState) : Prop where
  binary : ∀ n, Binary (s.keyValues n)
  user : ∀ n : Fin 6, n.val < k → Binary (s.user n) ∧ (s.keyValues n ≠ s.user n → s.evPress = 1)

theorem fetched_handled (k : Nat) (s t : KeysState) (fetched : Fetched k s) (handled : Handled s t) : Fetched k t where
  binary := handled.binary fetched.binary
  user := by
    intro n below
    obtain ⟨binary, current⟩ := fetched.user n below
    rw [handled.user]
    refine ⟨binary, fun changed => ?_⟩
    by_cases late : t.keyValues n = s.keyValues n
    · exact handled.raised (current (late ▸ changed))
    · exact handled.flagged n late

theorem fetch_key (number : Fin 6) (s : KeysState) (fetched : Fetched number.val s) :
    Fetched (number.val + 1) { s with user := Function.update s.user number (s.keyValues number) } where
  binary := fetched.binary
  user := by
    intro n below
    by_cases same : n = number
    · subst same
      exact ⟨by simpa using fetched.binary n, fun changed => by simp at changed⟩
    · have other : n.val ≠ number.val := fun equal => same (Fin.ext equal)
      simpa [same] using fetched.user n (by omega)

def Awaits (last : Fin 6 → UInt8) (s : KeysState) : Prop := Flagged last s ∧ ∀ n, Binary (s.keyValues n)

theorem awaits_handled (last : Fin 6 → UInt8) (s t : KeysState) (awaits : Awaits last s) (handled : Handled s t) :
    Awaits last t :=
  ⟨flagged_handled last s t awaits.1 handled, handled.binary awaits.2⟩

def readerContract (last : Fin 6 → UInt8) : Contract KeysStep KeysState KeysFault where
  rely := Handled
  guarantee := fun _ _ => True
  allows := fun _ _ => True
  before := fun label s => label = .testEvPress ∨ label = .waitEvPress → Flagged last s
  tolerates := fun _ => False
  refl := handled_refl
  trans := handled_trans

section Reading

variable (last : Fin 6 → UInt8)

theorem fetched_stable (k : Nat) : (readerContract last).Stable (Fetched k) := fetched_handled k

theorem awaits_stable : (readerContract last).Stable (Awaits last) := awaits_handled last

theorem fetched_all_stable : (readerContract last).Stable fun s => (6 : Int) = 6 ∧ Fetched 6 s :=
  fun s t here handled => ⟨here.1, fetched_handled 6 s t here.2 handled⟩

theorem fetch_keys_meets (numbers : List (Fin 6)) (k : Nat) (s : KeysState) (whole : k + numbers.length = 6)
    (order : ∀ (j : Nat) (number : Fin 6), numbers[j]? = some number → number.val = k + j) (fetched : Fetched k s) :
    (copyKeys numbers).Meets (readerContract last) (fun _ => Fetched 6) s := by
  induction numbers generalizing k s with
  | nil =>
      obtain rfl : k = 6 := by simpa using whole
      exact Prog.meets_pure _ _ _ s (fetched_stable last 6) fetched
  | cons number rest ih =>
      obtain rfl : number.val = k := order 0 number rfl
      apply Prog.meets_bind _ _ _ (fun _ => Fetched (number.val + 1))
      · apply Prog.meets_modify _ _ _ (Fetched number.val) _ s (fetched_stable last _) fetched (fetched_stable last _)
        · exact fun t _ test => by simp at test
        · exact fun t here _ => ⟨trivial, fetch_key number t here⟩
      · intro _ t grown
        apply ih (number.val + 1) t _ _ grown
        · simp only [List.length_cons] at whole
          omega
        · intro j other listed
          have next := order (j + 1) other listed
          omega

theorem in_order (j : Nat) (number : Fin 6) (listed : (List.finRange 6)[j]? = some number) : number.val = 0 + j := by
  obtain ⟨inside, same⟩ : ∃ inside, (List.finRange 6).get ⟨j, inside⟩ = number := List.getElem?_eq_some_iff.mp listed
  rw [← same]
  simp

theorem deliver_meets (s : KeysState) (binary : ∀ n, Binary (s.keyValues n)) :
    (deliverKeys ⟨6, false, none⟩).Meets (readerContract last) (fun r t => r = 6 ∧ Fetched 6 t) s := by
  have kept : (readerContract last).Stable fun s => ∀ n, Binary (s.keyValues n) :=
    fun _ _ binary handled => handled.binary binary
  apply Prog.meets_bind _ _ _ (fun _ => Fetched 0)
  · apply Prog.meets_modify _ _ _ (fun s => ∀ n, Binary (s.keyValues n)) _ s kept binary (fetched_stable last 0)
    · exact fun t _ test => by simp at test
    · exact fun t here _ => ⟨trivial, here, fun n below => absurd below (Nat.not_lt_zero _)⟩
  · intro _ t fetched
    apply Prog.meets_bind _ _ _ (fun _ => Fetched 6)
    · apply fetch_keys_meets last _ 0 t rfl _ fetched
      exact in_order
    · intro _ u done
      exact Prog.meets_pure _ _ _ u (fetched_all_stable last) ⟨rfl, done⟩

theorem buttons_read_fetches (s : KeysState) (awaits : Awaits last s) :
    (buttonsRead ⟨6, false, none⟩).Meets (readerContract last) (fun r t => r = 6 ∧ Fetched 6 t) s := by
  apply Prog.meets_bind _ _ _ (fun _ => Awaits last)
  · exact Prog.meets_look _ _ _ (Awaits last) _ s (awaits_stable last) awaits (fun _ => awaits_stable last)
      (fun t here _ => here.1) fun t here _ => ⟨trivial, here⟩
  · intro ev t here
    split
    · rw [if_neg (by simp)]
      apply Prog.meets_bind _ _ _ (fun _ => Awaits last)
      · exact Prog.meets_await _ _ _ _ (Awaits last) _ t (awaits_stable last) here (awaits_stable last)
          (fun u still _ => still.1) fun u still _ _ => ⟨trivial, still⟩
      · exact fun _ u still => deliver_meets last u still.2
    · exact deliver_meets last t here.2

end Reading

-- What was printed of a key is down, up, down and so on, to what the program has it at.
structure Told (s : DisplayState) : Prop where
  binary : ∀ n, Binary (s.keyLastValue n)
  turns : ∀ n, (history n s.lines).IsChain (· ≠ ·)
  latest : ∀ n, (history n s.lines).head? = some (isDown (s.keyLastValue n))

theorem told_frame (s t : DisplayState) (told : Told s) (last : t.keyLastValue = s.keyLastValue)
    (lines : t.lines = s.lines) : Told t := by
  obtain ⟨binary, turns, latest⟩ := told
  refine ⟨?_, ?_, ?_⟩
  · rw [last]
    exact binary
  · rw [lines]
    exact turns
  · rw [lines, last]
    exact latest

theorem is_down_apart (a b : UInt8) (one : Binary a) (two : Binary b) (apart : a ≠ b) : isDown a ≠ isDown b := by
  rcases one with rfl | rfl
  · rcases two with rfl | rfl
    · exact (apart rfl).elim
    · decide
  · rcases two with rfl | rfl
    · decide
    · exact (apart rfl).elim

theorem compare_told (i : Fin 6) (s : DisplayState) (told : Told s) (binary : Binary (s.keys.user i)) :
    Told (compareKey i s) := by
  by_cases changed : s.keys.user i ≠ s.keyLastValue i
  · rw [compareKey, if_pos changed]
    have turned := is_down_apart _ _ binary (told.binary i) changed
    refine ⟨fun n => ?_, fun n => ?_, fun n => ?_⟩
    · by_cases same : n = i
      · subst same
        simpa using binary
      · simpa [same] using told.binary n
    · by_cases same : n = i
      · subst same
        have turns := told.turns n
        have latest := told.latest n
        cases shown : history n s.lines with
        | nil =>
            rw [shown] at latest
            cases latest
        | cons first rest =>
            rw [shown] at turns latest
            obtain rfl := Option.some.inj latest
            simpa [history, shown] using ⟨turned, turns⟩
      · simpa [history, Ne.symm same] using told.turns n
    · by_cases same : n = i
      · subst same
        simp [history]
      · simpa [history, same, Ne.symm same] using told.latest n
  · rw [compareKey, if_neg changed]
    exact told

def Shown (k : Nat) (s : DisplayState) : Prop := ∀ n : Fin 6, n.val < k → s.keyLastValue n = s.keys.user n

theorem compare_shown (i : Fin 6) (s : DisplayState) (shown : Shown i.val s) : Shown (i.val + 1) (compareKey i s) := by
  intro n below
  by_cases changed : s.keys.user i ≠ s.keyLastValue i
  · rw [compareKey, if_pos changed]
    by_cases same : n = i
    · subst same
      simp
    · have other : n.val ≠ i.val := fun equal => same (Fin.ext equal)
      simpa [same] using shown n (by omega)
  · rw [compareKey, if_neg changed]
    by_cases same : n = i
    · subst same
      exact (not_ne_iff.mp changed).symm
    · have other : n.val ≠ i.val := fun equal => same (Fin.ext equal)
      exact shown n (by omega)

theorem compare_keys_kept (i : Fin 6) (s : DisplayState) : (compareKey i s).keys = s.keys := by
  unfold compareKey
  split
  · rfl
  · rfl

-- Nobody but the program writes what is its own.
structure Watched (s t : DisplayState) : Prop where
  last : t.keyLastValue = s.keyLastValue
  lines : t.lines = s.lines
  handled : Handled s.keys t.keys

def displayContract : Contract DisplayStep DisplayState KeysFault where
  rely := Watched
  guarantee := fun _ _ => True
  allows := fun _ _ => True
  before := fun label s => Told s ∧
    (label = .driver .testEvPress ∨ label = .driver .waitEvPress → Flagged s.keyLastValue s.keys)
  tolerates := fun _ => False
  refl := fun s => ⟨rfl, rfl, handled_refl s.keys⟩
  trans := fun s t u first second => ⟨second.last.trans first.last, second.lines.trans first.lines,
    handled_trans s.keys t.keys u.keys first.handled second.handled⟩

def Ready (s : DisplayState) : Prop := Told s ∧ Awaits s.keyLastValue s.keys

theorem told_stable : displayContract.Stable Told := fun s t told watched =>
  told_frame s t told watched.last watched.lines

structure Comparing (k : Nat) (s : DisplayState) : Prop where
  told : Told s
  fetched : Fetched 6 s.keys
  shown : Shown k s

theorem comparing_stable (k : Nat) : displayContract.Stable (Comparing k) := by
  intro s t comparing watched
  refine ⟨told_stable s t comparing.told watched, fetched_handled 6 s.keys t.keys comparing.fetched watched.handled, ?_⟩
  rw [Shown, watched.last, watched.handled.user]
  exact comparing.shown

theorem comparing_ready (s : DisplayState) (comparing : Comparing 6 s) : Ready s := by
  refine ⟨comparing.told, fun n changed => ?_, comparing.fetched.binary⟩
  rw [comparing.shown n n.isLt] at changed
  exact (comparing.fetched.user n n.isLt).2 changed

theorem compare_keys_meets (numbers : List (Fin 6)) (k : Nat) (s : DisplayState) (whole : k + numbers.length = 6)
    (order : ∀ (j : Nat) (number : Fin 6), numbers[j]? = some number → number.val = k + j) (comparing : Comparing k s) :
    (compareKeys numbers).Meets displayContract (fun _ => Comparing 6) s := by
  induction numbers generalizing k s with
  | nil =>
      obtain rfl : k = 6 := by simpa using whole
      exact Prog.meets_pure _ _ _ s (comparing_stable 6) comparing
  | cons number rest ih =>
      obtain rfl : number.val = k := order 0 number rfl
      apply Prog.meets_bind _ _ _ (fun _ => Comparing (number.val + 1))
      · apply Prog.meets_modify _ _ _ (Comparing number.val) _ s (comparing_stable _) comparing (comparing_stable _)
        · exact fun t here => ⟨here.told, fun test => by simp at test⟩
        · intro t here _
          have binary := (here.fetched.user number number.isLt).1
          refine ⟨trivial, compare_told number t here.told binary, ?_, compare_shown number t here.shown⟩
          rw [compare_keys_kept]
          exact here.fetched
      · intro _ t grown
        apply ih (number.val + 1) t _ _ grown
        · simp only [List.length_cons] at whole
          omega
        · intro j other listed
          have next := order (j + 1) other listed
          omega

theorem read_fetches (s : DisplayState) (ready : Ready s) :
    (onKeys (buttonsRead ⟨6, false, none⟩)).Meets displayContract
      (fun r t => (t.keyLastValue = s.keyLastValue ∧ Told t) ∧ r = 6 ∧ Fetched 6 t.keys) s := by
  let frame : DisplayState → Prop := fun t => t.keyLastValue = s.keyLastValue ∧ Told t
  have stable : displayContract.Stable frame := fun t u here watched =>
    ⟨watched.last.trans here.1, told_stable t u here.2 watched⟩
  refine Prog.meets_part keysPart .driver id _ displayContract (readerContract s.keyLastValue) frame stable
    (fun _ _ _ => rfl) ?_ ?_ ?_ ?_ ?_ _ (fun r t => r = 6 ∧ Fetched 6 t) s ⟨rfl, ready.1⟩ (buttons_read_fetches s.keyLastValue s.keys ready.2)
  · exact fun t u _ watched => watched.handled
  · exact fun _ never => never
  · intro label t here flagged
    refine ⟨here.2, fun test => ?_⟩
    rw [here.1]
    exact flagged (by simpa using test)
  · exact fun _ _ allowed => allowed
  · exact fun t u here _ => ⟨trivial, here.1, told_frame t _ here.2 rfl rfl⟩

theorem display_meets (rounds : Nat) (s : DisplayState) (ready : Ready s) :
    (displayLoop rounds).Meets displayContract (fun status t => status = none ∧ Told t) s := by
  induction rounds generalizing s with
  | zero =>
      have stable : displayContract.Stable fun t => (none : Option Int) = none ∧ Told t :=
        fun t u here watched => ⟨here.1, told_stable t u here.2 watched⟩
      exact Prog.meets_pure _ _ (fun status t => status = none ∧ Told t) s stable ⟨rfl, ready.1⟩
  | succ rounds ih =>
      apply Prog.meets_bind _ _ _ _ _ s (read_fetches s ready)
      intro r t done
      obtain ⟨⟨-, told⟩, rfl, fetched⟩ := done
      rw [if_neg (by decide)]
      apply Prog.meets_bind _ _ _ (fun _ => Comparing 6)
      · exact compare_keys_meets _ 0 t rfl in_order ⟨told, fetched, fun n below => absurd below (Nat.not_lt_zero _)⟩
      · exact fun _ u comparing => ih u (comparing_ready u comparing)

-- A handler asks nothing of the others.
def handlerContract : Contract KeysStep KeysState KeysFault where
  rely := fun _ _ => True
  guarantee := Handled
  allows := fun _ _ => True
  before := fun _ _ => True
  tolerates := fun _ => False
  refl := fun _ => trivial
  trans := fun _ _ _ _ _ => trivial

def eventContract : Contract DisplayStep DisplayState KeysFault where
  rely := fun _ _ => True
  guarantee := Watched
  allows := fun _ _ => True
  before := fun _ _ => True
  tolerates := fun _ => False
  refl := fun _ => trivial
  trans := fun _ _ _ _ _ => trivial

theorem event_handles (event : KeyEvent) (s : KeysState) : event.prog.Meets handlerContract (fun _ _ => True) s := by
  have free : handlerContract.Stable fun _ => True := fun _ _ _ _ => trivial
  have moves : ∀ label set, (∀ t, Handled t (set t)) →
      (Prog.modify label set >>= fun _ => (pure [] : KeysProg (List Int))).Meets handlerContract (fun _ _ => True) s := by
    intro label set handled
    apply Prog.meets_bind _ _ _ (fun _ _ => True)
    · exact Prog.meets_modify handlerContract _ _ (fun _ => True) _ s free trivial free (fun _ _ => trivial)
        fun t _ _ => ⟨handled t, trivial⟩
    · exact fun _ t _ => Prog.meets_pure _ _ _ t free trivial
  cases event with
  | level pin high => exact moves _ _ fun t => ⟨rfl, fun _ changed => (changed rfl).elim, id, id⟩
  | interrupt button =>
      rw [KeyEvent.prog, buttons_interrupt_serves]
      exact moves _ _ (serve_handled button)
  | signal pending => exact moves _ _ fun t => ⟨rfl, fun _ changed => (changed rfl).elim, id, id⟩

theorem event_meets_display (event : KeyEvent) (s : DisplayState) :
    (eventProg event).Meets eventContract (fun _ _ => True) s := by
  apply Prog.meets_bind _ _ _ (fun _ _ => True ∧ True)
  · refine Prog.meets_part keysPart .driver id _ eventContract handlerContract (fun _ => True) (fun _ _ _ _ => trivial)
      (fun _ _ _ => rfl) ?_ ?_ ?_ ?_ ?_ _ (fun _ _ => True) s trivial (event_handles event s.keys)
    · exact fun _ _ _ _ => trivial
    · exact fun _ never => never
    · exact fun _ _ _ _ => trivial
    · exact fun _ _ _ => trivial
    · exact fun t u _ handled => ⟨⟨rfl, rfl, handled⟩, trivial⟩
  · exact fun _ t _ => Prog.meets_pure _ _ _ t (fun _ _ _ _ => trivial) trivial

def partyContract : Nat → Contract DisplayStep DisplayState KeysFault
  | 0 => displayContract
  | _ + 1 => eventContract

def partyPost : Nat → Option Int → DisplayState → Prop
  | 0 => fun status t => status = none ∧ Told t
  | _ + 1 => fun _ _ => True

theorem parties_compatible : Pool.Compatible partyContract := by
  intro i j other s t given
  cases j with
  | zero =>
      cases i with
      | zero => exact (other rfl).elim
      | succ i => exact given
  | succ j => exact trivial

theorem all_parties_meet (s : KeysState) (fresh : ∀ n, s.keyValues n = '0'.toUInt8) (rounds : Nat)
    (events : List KeyEvent) : Pool.AllMeet partyContract partyPost (displaying s rounds events) := by
  apply Pool.start_all_meet
  intro i p listed
  cases i with
  | zero =>
      obtain rfl := Option.some.inj listed
      apply display_meets
      refine ⟨⟨fun n => .inl rfl, fun n => ?_, fun n => rfl⟩, fun n changed => (changed (fresh n)).elim,
        fun n => .inl (fresh n)⟩
      simp [history]
  | succ i =>
      obtain ⟨event, -, rfl⟩ : ∃ event, events[i]? = some event ∧ eventProg event = p := by simpa using listed
      exact event_meets_display event _

theorem told_throughout (pool : DisplayPool) (holds : Pool.AllMeet partyContract partyPost pool)
    (present : 0 < pool.threads.length) : Told pool.shared := by
  obtain ⟨thread, found⟩ : ∃ thread, pool.threads[0]? = some thread := ⟨_, List.getElem?_eq_getElem present⟩
  have meets := holds 0 thread found
  cases prog : thread.prog with
  | ret status =>
      rw [prog] at meets
      exact (meets pool.shared (displayContract.refl _)).2
  | crash f =>
      rw [prog] at meets
      exact meets.elim
  | act label ready effect next =>
      rw [prog] at meets
      exact (meets pool.shared (displayContract.refl _)).1.1

theorem never_faults (pool : DisplayPool) (holds : Pool.AllMeet partyContract partyPost pool) (i : Nat) :
    pool.threads[i]?.bind Thread.fault = none := by
  cases faulted : pool.threads[i]?.bind Thread.fault with
  | none => rfl
  | some f =>
      have tolerated := Pool.all_meet_fault partyContract partyPost pool i f holds faulted
      cases i with
      | zero => exact tolerated.elim
      | succ i => exact tolerated.elim

-- Whatever the handlers do between its steps, what the program prints of a key is down, up,
-- down and so on; it never leaves its loop; and where it is about to look for news or to
-- sleep with no flag up, the last line of each key is what the driver has it at.
theorem display_follows_keys (s : KeysState) (fresh : ∀ n, s.keyValues n = '0'.toUInt8) (rounds : Nat)
    (events : List KeyEvent) (schedule : List Nat) (pool : DisplayPool)
    (ran : (displaying s rounds events).exec schedule = some pool) :
    (∀ i : Nat, pool.threads[i]?.bind Thread.fault = none) ∧
      (∀ status, pool.threads[0]?.bind Thread.value = some status → status = none) ∧
      (∀ n, (history n pool.shared.lines).IsChain (· ≠ ·)) ∧
      ((pool.threads[0]?.bind Thread.upcoming = some (.driver .testEvPress) ∨
          pool.threads[0]?.bind Thread.upcoming = some (.driver .waitEvPress)) → pool.shared.keys.evPress ≠ 1 →
        ∀ n, (history n pool.shared.lines).head? = some (isDown (pool.shared.keys.keyValues n))) := by
  have holds := Pool.all_meet_run partyContract partyPost parties_compatible (fun _ _ => True)
    (fun _ i _ _ _ => by cases i <;> trivial) _ pool schedule (all_parties_meet s fresh rounds events)
    (Pool.exec_run _ pool schedule ran)
  have length := Pool.run_length _ _ pool schedule (Pool.exec_run _ pool schedule ran)
  have told := told_throughout pool holds (by simp [length, displaying, Pool.start])
  refine ⟨never_faults pool holds, fun status returned => ?_, told.turns, fun looks quiet n => ?_⟩
  · exact (Pool.all_meet_value partyContract partyPost pool 0 status holds returned).1
  · have flagged : Flagged pool.shared.keyLastValue pool.shared.keys := by
      rcases looks with tests | waits
      · exact (Pool.all_meet_before partyContract partyPost pool 0 _ holds tests).2 (.inl rfl)
      · exact (Pool.all_meet_before partyContract partyPost pool 0 _ holds waits).2 (.inr rfl)
    have same : pool.shared.keys.keyValues n = pool.shared.keyLastValue n := by
      by_contra changed
      exact quiet (flagged n changed)
    rw [same]
    exact told.latest n

-- The first key is pressed and shown, and the program sleeps.
theorem press_is_shown : ∃ pool, (displaying quietKeys 2 [.level 192 false, .interrupt key0]).exec
      ([1, 2] ++ List.replicate 15 0) = some pool ∧
    (history 0 pool.shared.lines).head? = some (isDown (pool.shared.keys.keyValues 0)) := by
  obtain ⟨pool, ran, waits, quiet⟩ : ∃ pool, (displaying quietKeys 2 [.level 192 false, .interrupt key0]).exec
        ([1, 2] ++ List.replicate 15 0) = some pool ∧
      pool.threads[0]?.bind Thread.upcoming = some (.driver .waitEvPress) ∧ pool.shared.keys.evPress = 0 :=
    ⟨_, rfl, rfl, rfl⟩
  have follows := display_follows_keys quietKeys (fun _ => rfl) 2 [.level 192 false, .interrupt key0] _ pool ran
  exact ⟨pool, ran, follows.2.2.2 (.inr waits) (by rw [quiet]; decide) 0⟩

end OneDriver.Keys
