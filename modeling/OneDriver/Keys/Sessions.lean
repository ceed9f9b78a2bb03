import OneDriver.Keys.Lines

set_option autoImplicit false

namespace OneDriver.Keys

-- Pins move and pending edges are served at any time between the calls.
inductive LineEvent where
  | call (call : KeysCall)
  | level (pin : Nat) (high : Bool)
  | service (irq : Int)

def IrqLine.inSession (line : IrqLine) : Bool :=
  match line.action with
  | some (.session _ _) => true
  | _ => false

-- A change of a level is an edge on the lines of its pin that the driver holds.
def KeysState.level (table : List ButtonIrqDesc) (pin : Nat) (high : Bool) (s : KeysState) : KeysState :=
  if s.pins pin = high then s
  else { s with
    pins := Function.update s.pins pin high
    pending := fun irq => s.pending irq ||
      (table.any fun button => button.pin = pin ∧ button.irq = irq) && (s.lines irq).inSession }

-- The kernel runs the handler of a pending line with the dev_id it was given.
def KeysState.service (table : List ButtonIrqDesc) (irq : Int) (s : KeysState) : KeysState :=
  match (s.lines irq).action, s.pending irq with
  | some (.session _ entry), true =>
      match table[entry]? with
      | some button => ((buttonsInterrupt button).run { s with pending := Function.update s.pending irq false }).state
      | none => s
  | _, _ => s

def InStep (s : KeysState) (button : ButtonIrqDesc) : Prop := s.keyValues button.number = keyChar (s.down button)

-- The next press or release is seen: its handler stores it and raises the flag.
def Detects (table : List ButtonIrqDesc) (s : KeysState) (button : ButtonIrqDesc) : Prop :=
  let t := (s.level table button.pin (!s.pins button.pin)).service table button.irq
  t.evPress = 1 ∧ t.keyValues button.number ≠ s.keyValues button.number ∧ InStep t button

def SettledLaw (table : List ButtonIrqDesc) (sessions : List Nat) (s : KeysState) : Prop :=
  sessions ≠ [] → (∀ button ∈ table, s.pending button.irq = false) →
    ∀ button ∈ table, InStep s button ∧ Detects table s button

def SessionLaw (table : List ButtonIrqDesc) : List Nat → KeysState → List LineEvent → Prop
  | sessions, s, [] => SettledLaw table sessions s
  | sessions, s, .call (.opening process outcome) :: rest => SettledLaw table sessions s ∧
      ∃ r t, (buttonsOpen table process outcome).run s = .done r t ∧
        SessionLaw table (if r = 0 then process :: sessions else sessions) t rest
  | sessions, s, .call (.closing process) :: rest => SettledLaw table sessions s ∧
      (process ∈ sessions → ∃ t, (buttonsClose table process).run s = .done 0 t ∧
        SessionLaw table (sessions.erase process) t rest)
  | sessions, s, .level pin high :: rest => SettledLaw table sessions s ∧
      SessionLaw table sessions (s.level table pin high) rest
  | sessions, s, .service irq :: rest => SettledLaw table sessions s ∧
      SessionLaw table sessions (s.service table irq) rest

-- Every open that is granted its lines finds each cached value in step.
def OpensInStep (table : List ButtonIrqDesc) : List Nat → KeysState → List LineEvent → Prop
  | _, _, [] => True
  | sessions, s, .call (.opening process outcome) :: rest =>
      (Grants table outcome s → ∀ button ∈ table, InStep s button) ∧
        ∃ r t, (buttonsOpen table process outcome).run s = .done r t ∧
          OpensInStep table (if r = 0 then process :: sessions else sessions) t rest
  | sessions, s, .call (.closing process) :: rest =>
      process ∈ sessions → ∃ t, (buttonsClose table process).run s = .done 0 t ∧
        OpensInStep table (sessions.erase process) t rest
  | sessions, s, .level pin high :: rest => OpensInStep table sessions (s.level table pin high) rest
  | sessions, s, .service irq :: rest => OpensInStep table sessions (s.service table irq) rest

-- What the table of keys.c has, for all boards.
structure SoundTable (table : List ButtonIrqDesc) : Prop where
  distinct : DistinctIrqs table
  nonneg : ∀ button ∈ table, 0 ≤ button.irq
  numbers : ∀ a ∈ table, ∀ b ∈ table, a.number = b.number → a = b

theorem button_irqs_sound (board : Board) : SoundTable (buttonIrqs board) where
  distinct := button_irqs_distinct board
  nonneg := by simp [buttonIrqs, board.irqNonneg]
  numbers := by
    have nodup : ((buttonIrqs board).map (·.number)).Nodup := by
      change [0, 1, 2, 3, 4, 5].Nodup
      decide
    exact fun a first b second same => List.inj_on_of_nodup_map nodup first second same

-- Between events: the ledger, no edge pending on a free line, and only the two
-- characters in the cache.
structure SessionInvariant (table : List ButtonIrqDesc) (sessions : List Nat) (s : KeysState) : Prop where
  ledger : LedgerInvariant table sessions s
  pending : ∀ irq, s.pending irq = true → (s.lines irq).action ≠ none
  chars : ∀ n, s.keyValues n = keyChar 0 ∨ s.keyValues n = keyChar 1

-- In a session a key not in step has its edge pending.
def Tracked (table : List ButtonIrqDesc) (sessions : List Nat) (s : KeysState) : Prop :=
  sessions ≠ [] → ∀ button ∈ table, s.pending button.irq = true ∨ InStep s button

theorem in_step_iff (s : KeysState) (button : ButtonIrqDesc)
    (char : s.keyValues button.number = keyChar 0 ∨ s.keyValues button.number = keyChar 1) :
    InStep s button ↔ s.down button = s.keyValues button.number &&& 1 := by
  unfold InStep KeysState.down
  rcases char with same | same <;> rw [same] <;> split <;> decide

theorem in_session_held (line : IrqLine) (inSession : line.inSession = true) : line.action ≠ none := by
  intro free
  simp only [IrqLine.inSession, free, Bool.false_eq_true] at inSession

theorem session_in_session (line : IrqLine) (process i : Nat) (held : line.action = some (.session process i)) :
    line.inSession = true := by
  simp [IrqLine.inSession, held]

theorem serve_stores (s : KeysState) (button : ButtonIrqDesc)
    (changed : s.down button ≠ s.keyValues button.number &&& 1) :
    s.serve button = { s with
      keyValues := Function.update s.keyValues button.number (keyChar (s.down button))
      evPress := 1 } := if_pos changed

theorem serve_in_step (s : KeysState) (button : ButtonIrqDesc)
    (char : s.keyValues button.number = keyChar 0 ∨ s.keyValues button.number = keyChar 1) :
    InStep (s.serve button) button := by
  by_cases same : s.down button = s.keyValues button.number &&& 1
  · have settled : s.serve button = s := by simp [KeysState.serve, same]
    rw [settled]
    exact (in_step_iff s button char).mpr same
  · rw [serve_stores s button same]
    exact Function.update_self button.number (keyChar (s.down button)) s.keyValues

theorem serve_other (s : KeysState) (button other : ButtonIrqDesc) (different : other.number ≠ button.number) :
    InStep (s.serve button) other ↔ InStep s other := by
  unfold KeysState.serve
  split
  · simp [InStep, KeysState.down, different]
  · exact Iff.rfl

theorem serve_chars (s : KeysState) (button : ButtonIrqDesc)
    (chars : ∀ n, s.keyValues n = keyChar 0 ∨ s.keyValues n = keyChar 1) (n : Fin 6) :
    (s.serve button).keyValues n = keyChar 0 ∨ (s.serve button).keyValues n = keyChar 1 := by
  unfold KeysState.serve
  split
  · by_cases same : n = button.number
    · subst same
      simp only [Function.update_self, KeysState.down]
      split
      · exact .inl rfl
      · exact .inr rfl
    · simpa [same] using chars n
  · exact chars n

theorem service_cases (table : List ButtonIrqDesc) (irq : Int) (sessions : List Nat) (s : KeysState)
    (holds : LedgerInvariant table sessions s) :
    s.service table irq = s ∧ (s.pending irq = true → ¬ (s.lines irq).inSession) ∨
      ∃ button ∈ table, button.irq = irq ∧ s.pending irq = true ∧
        s.service table irq = { s with pending := Function.update s.pending irq false }.serve button := by
  unfold KeysState.service
  split
  · rename_i process entry held pending
    obtain ⟨-, -, -, button, listed, line⟩ := holds.only irq process entry held
    refine .inr ⟨button, List.mem_of_getElem? listed, line, pending, ?_⟩
    simp only [listed, buttons_interrupt_serves, Prog.run_modify, Outcome.state]
  · rename_i other
    refine .inl ⟨rfl, fun pending inSession => ?_⟩
    unfold IrqLine.inSession at inSession
    split at inSession
    · rename_i process entry held
      exact other process entry held pending
    · contradiction

theorem serve_frame (s : KeysState) (button : ButtonIrqDesc) :
    (s.serve button).lines = s.lines ∧ (s.serve button).pending = s.pending ∧ (s.serve button).pins = s.pins := by
  unfold KeysState.serve
  split <;> exact ⟨rfl, rfl, rfl⟩

theorem ledger_frame (table : List ButtonIrqDesc) (sessions : List Nat) (s t : KeysState)
    (holds : LedgerInvariant table sessions s) (same : t.lines = s.lines) : LedgerInvariant table sessions t where
  one := holds.one
  owns := same ▸ holds.owns
  only := same ▸ holds.only

theorem line_entry (table : List ButtonIrqDesc) (button : ButtonIrqDesc) (member : button ∈ table)
    (nonneg : 0 ≤ button.irq) :
    ∃ i, EntryBelow table table.length button.irq i :=
  (entry_has_line table button.irq).mpr ⟨nonneg, button, member, rfl⟩

theorem irq_button (table : List ButtonIrqDesc) (sound : SoundTable table) (a b : ButtonIrqDesc) (first : a ∈ table)
    (second : b ∈ table) (same : a.irq = b.irq) : a = b := by
  obtain ⟨i, here⟩ := List.getElem?_of_mem first
  obtain ⟨j, there⟩ := List.getElem?_of_mem second
  have equal := sound.distinct i j a b here there (sound.nonneg a first) same
  subst equal
  simpa [here] using there

theorem session_holds (table : List ButtonIrqDesc) (sound : SoundTable table) (sessions : List Nat) (s : KeysState)
    (holds : LedgerInvariant table sessions s) (some : sessions ≠ []) (button : ButtonIrqDesc) (member : button ∈ table) :
    ∃ process i, (s.lines button.irq).action = .some (.session process i) := by
  obtain ⟨process, member'⟩ := List.exists_mem_of_ne_nil sessions some
  obtain ⟨i, entry⟩ := line_entry table button member (sound.nonneg button member)
  exact ⟨process, i, holds.owns process member' button.irq i entry⟩

theorem service_keeps (table : List ButtonIrqDesc) (sessions : List Nat) (irq : Int) (s : KeysState)
    (holds : SessionInvariant table sessions s) : SessionInvariant table sessions (s.service table irq) := by
  rcases service_cases table irq sessions s holds.ledger with ⟨same, -⟩ | ⟨button, -, -, -, same⟩
  · rwa [same]
  · rw [same]
    obtain ⟨lines, pending, -⟩ := serve_frame { s with pending := Function.update s.pending irq false } button
    refine ⟨ledger_frame table sessions s _ holds.ledger lines, ?_, serve_chars _ button holds.chars⟩
    intro other waits
    rw [pending] at waits
    rw [lines]
    have different : other ≠ irq := by
      rintro rfl
      simp at waits
    exact holds.pending other (by simpa [different] using waits)

theorem service_tracked (table : List ButtonIrqDesc) (sound : SoundTable table) (sessions : List Nat) (irq : Int)
    (s : KeysState) (holds : SessionInvariant table sessions s) (tracked : Tracked table sessions s) :
    Tracked table sessions (s.service table irq) := by
  rcases service_cases table irq sessions s holds.ledger with ⟨same, -⟩ | ⟨button, listed, line, -, same⟩
  · rwa [same]
  · rw [same]
    intro some other member
    obtain ⟨-, pending, -⟩ := serve_frame { s with pending := Function.update s.pending irq false } button
    rw [pending]
    by_cases mine : other = button
    · subst mine
      exact .inr (serve_in_step _ other (holds.chars other.number))
    · have apart : other.irq ≠ irq := fun equal =>
        mine (irq_button table sound other button member listed (equal.trans line.symm))
      have number : other.number ≠ button.number := fun equal => mine (sound.numbers other member button listed equal)
      rcases tracked some other member with waits | fresh
      · exact .inl (by simpa [apart] using waits)
      · exact .inr ((serve_other _ button other number).mpr fresh)

theorem level_keeps (table : List ButtonIrqDesc) (sessions : List Nat) (pin : Nat) (high : Bool) (s : KeysState)
    (holds : SessionInvariant table sessions s) : SessionInvariant table sessions (s.level table pin high) := by
  unfold KeysState.level
  split
  · exact holds
  · refine ⟨ledger_frame table sessions s _ holds.ledger rfl, fun irq waits => ?_, holds.chars⟩
    rcases (Bool.or_eq_true _ _).mp waits with before | edge
    · exact holds.pending irq before
    · exact in_session_held _ ((Bool.and_eq_true _ _).mp edge).2

theorem level_tracked (table : List ButtonIrqDesc) (sound : SoundTable table) (sessions : List Nat) (pin : Nat)
    (high : Bool) (s : KeysState) (holds : SessionInvariant table sessions s)
    (tracked : Tracked table sessions s) : Tracked table sessions (s.level table pin high) := by
  unfold KeysState.level
  split
  · exact tracked
  · intro some button member
    by_cases mine : button.pin = pin
    · obtain ⟨process, i, held⟩ := session_holds table sound sessions s holds.ledger some button member
      have edge : (table.any fun b => b.pin = pin ∧ b.irq = button.irq) = true :=
        List.any_eq_true.mpr ⟨button, member, by simp [mine]⟩
      have rises := (Bool.and_eq_true _ _).mpr ⟨edge, session_in_session _ process i held⟩
      exact .inl ((Bool.or_eq_true _ _).mpr (.inr rises))
    · rcases tracked some button member with waits | fresh
      · exact .inl (by simp [waits])
      · exact .inr (by simpa [InStep, KeysState.down, mine] using fresh)

theorem level_edge (table : List ButtonIrqDesc) (s : KeysState) (button : ButtonIrqDesc) (member : button ∈ table)
    (held : (s.lines button.irq).inSession = true) :
    (s.level table button.pin (!s.pins button.pin)).pending button.irq = true := by
  have moved : ¬ s.pins button.pin = !s.pins button.pin := by simp
  have edge : (table.any fun b => b.pin = button.pin ∧ b.irq = button.irq) = true :=
    List.any_eq_true.mpr ⟨button, member, by simp⟩
  rw [KeysState.level, if_neg moved]
  exact (Bool.or_eq_true _ _).mpr (.inr ((Bool.and_eq_true _ _).mpr ⟨edge, held⟩))

theorem level_toggles (table : List ButtonIrqDesc) (s : KeysState) (button : ButtonIrqDesc) :
    (s.level table button.pin (!s.pins button.pin)).keyValues = s.keyValues ∧
      keyChar ((s.level table button.pin (!s.pins button.pin)).down button) ≠ keyChar (s.down button) := by
  have moved : ¬ s.pins button.pin = !s.pins button.pin := by simp
  rw [KeysState.level, if_neg moved]
  refine ⟨rfl, ?_⟩
  simp only [KeysState.down, Function.update_self]
  cases s.pins button.pin <;> decide

theorem serve_announces (s : KeysState) (button : ButtonIrqDesc)
    (char : s.keyValues button.number = keyChar 0 ∨ s.keyValues button.number = keyChar 1)
    (changed : ¬ InStep s button) :
    (s.serve button).evPress = 1 ∧ (s.serve button).keyValues button.number = keyChar (s.down button) := by
  rw [in_step_iff s button char] at changed
  rw [serve_stores s button changed]
  exact ⟨rfl, Function.update_self button.number (keyChar (s.down button)) s.keyValues⟩

theorem in_step_detects (table : List ButtonIrqDesc) (sound : SoundTable table) (sessions : List Nat) (s : KeysState)
    (holds : SessionInvariant table sessions s) (some : sessions ≠ []) (button : ButtonIrqDesc)
    (member : button ∈ table) (fresh : InStep s button) : Detects table s button := by
  obtain ⟨process, i, held⟩ := session_holds table sound sessions s holds.ledger some button member
  have pending := level_edge table s button member (session_in_session _ process i held)
  have after := level_keeps table sessions button.pin (!s.pins button.pin) s holds
  obtain ⟨same, differs⟩ := level_toggles table s button
  unfold Detects
  generalize s.level table button.pin (!s.pins button.pin) = t at pending after same differs ⊢
  rcases service_cases table button.irq sessions t after.ledger with ⟨-, idle⟩ | ⟨other, listed, line, -, served⟩
  · obtain ⟨process, i, held⟩ := session_holds table sound sessions t after.ledger some button member
    exact absurd (session_in_session _ process i held) (idle pending)
  · obtain rfl := irq_button table sound other button listed member line
    have changed : ¬ InStep t other := by
      rw [InStep, same, fresh]
      exact Ne.symm differs
    obtain ⟨rung, stored⟩ := serve_announces { t with pending := Function.update t.pending other.irq false } other
      (after.chars other.number) changed
    rw [served]
    refine ⟨rung, ?_, serve_in_step _ other (after.chars other.number)⟩
    rw [stored, fresh]
    exact differs

theorem tracked_settles (table : List ButtonIrqDesc) (sound : SoundTable table) (sessions : List Nat) (s : KeysState)
    (holds : SessionInvariant table sessions s) (tracked : Tracked table sessions s) : SettledLaw table sessions s := by
  intro some idle button member
  have fresh : InStep s button := by
    rcases tracked some button member with waits | fresh
    · rw [idle button member] at waits
      contradiction
    · exact fresh
  exact ⟨fresh, in_step_detects table sound sessions s holds some button member fresh⟩

theorem quiet_in_step (s t : KeysState) (quiet : Quiet s t) (button : ButtonIrqDesc) :
    InStep t button ↔ InStep s button := by
  simp only [InStep, KeysState.down, quiet.values, quiet.pins]

theorem quiet_keeps (table : List ButtonIrqDesc) (sessions next : List Nat) (s t : KeysState)
    (holds : SessionInvariant table sessions s) (quiet : Quiet s t) (ledger : LedgerInvariant table next t) :
    SessionInvariant table next t where
  ledger := ledger
  pending := fun irq waits => (quiet.pending irq waits).2 (holds.pending irq (quiet.pending irq waits).1)
  chars := quiet.values ▸ holds.chars

theorem granted_idle (table : List ButtonIrqDesc) (sessions : List Nat) (outcome : Nat → Int) (s t : KeysState)
    (nonneg : ∀ button ∈ table, 0 ≤ button.irq) (holds : SessionInvariant table sessions s)
    (granted : Grants table outcome s) (quiet : Quiet s t) (button : ButtonIrqDesc) (member : button ∈ table) :
    t.pending button.irq = false := by
  obtain ⟨i, listed⟩ := List.getElem?_of_mem member
  have free := (granted i button (Nat.zero_le i) listed (nonneg button member)).1
  by_contra waits
  exact holds.pending button.irq (quiet.pending button.irq (by simpa using waits)).1 free

theorem session_law_head (table : List ButtonIrqDesc) (sessions : List Nat) (s : KeysState) (events : List LineEvent)
    (law : SessionLaw table sessions s events) : SettledLaw table sessions s := by
  cases events with
  | nil => exact law
  | cons event rest =>
      cases event with
      | call call =>
          cases call with
          | opening process outcome => exact law.1
          | closing process => exact law.1
      | level pin high => exact law.1
      | service irq => exact law.1

theorem session_law_steps (table : List ButtonIrqDesc) (sound : SoundTable table) (events : List LineEvent)
    (sessions : List Nat) (s : KeysState) (holds : SessionInvariant table sessions s)
    (tracked : Tracked table sessions s) : SessionLaw table sessions s events ↔ OpensInStep table sessions s events := by
  induction events generalizing sessions s with
  | nil => exact iff_of_true (tracked_settles table sound sessions s holds tracked) trivial
  | cons event rest ih =>
      have settled := tracked_settles table sound sessions s holds tracked
      cases event with
      | level pin high =>
          exact (and_iff_right settled).trans (ih sessions _ (level_keeps table sessions pin high s holds)
            (level_tracked table sound sessions pin high s holds tracked))
      | service irq =>
          exact (and_iff_right settled).trans (ih sessions _ (service_keeps table sessions irq s holds)
            (service_tracked table sound sessions irq s holds tracked))
      | call call =>
          cases call with
          | closing process =>
              refine (and_iff_right settled).trans (imp_congr_right fun member => ?_)
              obtain ⟨t, ran, quiet, -, -, closed⟩ := run_buttons_close table process sessions s sound.distinct holds.ledger member
              have kept := quiet_keeps table sessions (sessions.erase process) s t holds quiet closed
              simp only [ran, Outcome.done.injEq, true_and, exists_eq_left']
              refine ih _ t kept fun left button listed => ?_
              obtain ⟨i, entry⟩ := line_entry table button listed (sound.nonneg button listed)
              exact absurd (closed_alone table process sessions s holds.ledger member button.irq i entry) left
          | opening process outcome =>
              obtain ⟨r, t, ran, quiet, ⟨rfl, granted, acquired⟩ | ⟨rfl, refused, kept⟩⟩ :=
                run_buttons_open table process outcome s sound.distinct
              · have opened := quiet_keeps table sessions (process :: sessions) s t holds quiet
                  (opened_invariant table process sessions s t holds.ledger acquired)
                have idle := granted_idle table sessions outcome s t sound.nonneg holds granted quiet
                simp only [SessionLaw, OpensInStep, Prog.run_exists_iff _ _ _ _ _ ran, if_true, granted, settled, true_and,
                  forall_const]
                by_cases fresh : ∀ button ∈ table, InStep s button
                · rw [ih _ t opened fun _ button member => .inr ((quiet_in_step s t quiet button).mpr (fresh button member))]
                  exact (and_iff_right fresh).symm
                · refine iff_of_false (fun law => fresh fun button member => ?_) fun law => fresh law.1
                  have settled := session_law_head table _ t rest law (by simp) idle button member
                  exact (quiet_in_step s t quiet button).mp settled.1
              · have same := quiet_keeps table sessions sessions s t holds quiet
                  (failed_invariant table sessions s t holds.ledger kept)
                have unopened : ¬ -ebusy = 0 := by decide
                simp only [SessionLaw, OpensInStep, Prog.run_exists_iff _ _ _ _ _ ran, if_neg unopened, refused, settled,
                  true_and, false_implies]
                refine ih _ t same fun some button member => ?_
                obtain ⟨other, i, held⟩ := session_holds table sound sessions s holds.ledger some button member
                have edge := ((kept button.irq).2 (by simp [held])).2
                rw [edge, quiet_in_step s t quiet button]
                exact tracked some button member

theorem key_values_match_iff (board : Board) (events : List LineEvent) (pins : Nat → Bool) (lines : Int → IrqLine)
    (unopened : ∀ irq process i, (lines irq).action ≠ some (.session process i)) :
    SessionLaw (buttonIrqs board) [] (loadedKeys pins lines) events ↔
      OpensInStep (buttonIrqs board) [] (loadedKeys pins lines) events := by
  refine session_law_steps (buttonIrqs board) (button_irqs_sound board) events [] _ ⟨?_, ?_, ?_⟩ ?_
  · exact ⟨fun _ => Nat.zero_le 1, fun _ member => absurd member (by simp),
      fun irq process i held => absurd held (unopened irq process i)⟩
  · intro irq waits
    simp [loadedKeys] at waits
  · exact fun _ => .inl rfl
  · exact fun none => absurd rfl none

def idleKeys : KeysState := loadedKeys (fun _ => true) fun _ => ⟨none, 0⟩

-- KEY0 goes down and up while the device is open, and each edge is served.
theorem pressed_key_matches :
    SessionLaw (buttonIrqs mini2440) [] idleKeys
      [.call (.opening 1 fun _ => 0), .level 192 false, .service 52, .level 192 true, .service 52] := by
  refine (key_values_match_iff mini2440 _ (fun _ => true) (fun _ => ⟨none, 0⟩) (by simp)).mpr ⟨?_, ?_⟩
  · exact fun _ button _ => rfl
  · obtain ⟨r, t, ran, -, -⟩ :=
      run_buttons_open (buttonIrqs mini2440) 1 (fun _ => 0) idleKeys (button_irqs_distinct mini2440)
    exact ⟨r, t, ran, trivial⟩

-- KEY0 goes down while the device is closed, and the open does not look.
theorem press_while_closed_is_missed :
    ¬ SessionLaw (buttonIrqs mini2440) [] idleKeys [.level 192 false, .call (.opening 1 fun _ => 0)] := by
  have closed : SessionInvariant (buttonIrqs mini2440) [] idleKeys := by
    refine ⟨⟨fun _ => Nat.zero_le 1, fun _ member => absurd member (by simp), ?_⟩, ?_, fun _ => .inl rfl⟩
    · exact fun irq process i held => absurd held (by simp [idleKeys, loadedKeys])
    · exact fun irq waits => absurd waits (by simp [idleKeys, loadedKeys])
  rw [session_law_steps _ (button_irqs_sound mini2440) _ [] idleKeys closed fun none => absurd rfl none]
  intro steps
  have granted : Grants (buttonIrqs mini2440) (fun _ => 0) (idleKeys.level (buttonIrqs mini2440) 192 false) :=
    fun _ _ _ _ _ => ⟨rfl, rfl⟩
  have fresh := steps.1 granted ⟨52, 192, 2, 0⟩ (by decide)
  exact absurd fresh (by unfold InStep; decide)

end OneDriver.Keys
