import OneDriver.Keys.Device

set_option autoImplicit false

namespace OneDriver.Keys

inductive KeysCall where
  | opening (process : Nat) (outcome : Nat → Int)
  | closing (process : Nat)

-- Negative interrupt numbers mean none; the others are distinct.
def DistinctIrqs (table : List ButtonIrqDesc) : Prop :=
  ∀ (i j : Nat) (a b : ButtonIrqDesc), table[i]? = some a → table[j]? = some b → 0 ≤ a.irq → a.irq = b.irq → i = j

theorem distinct_of_nodup (table : List ButtonIrqDesc) (nodup : (table.map (·.irq)).Nodup) : DistinctIrqs table := by
  intro i j a b first second _ same
  have bound : i < (table.map (·.irq)).length := by
    rw [List.length_map]
    exact (List.getElem?_eq_some_iff.mp first).1
  exact (List.getElem?_inj bound nodup).mp (by simp [first, second, same])

theorem button_irqs_distinct (board : Board) : DistinctIrqs (buttonIrqs board) := by
  apply distinct_of_nodup
  simp [buttonIrqs, board.irqInjective.eq_iff]

-- Every line asked for, from entry `k` on, is free and granted.
def GrantsFrom (table : List ButtonIrqDesc) (outcome : Nat → Int) (s : KeysState) (k : Nat) : Prop :=
  ∀ (i : Nat) (button : ButtonIrqDesc), k ≤ i → table[i]? = some button → 0 ≤ button.irq →
    (s.lines button.irq).action = none ∧ outcome i = 0

def Grants (table : List ButtonIrqDesc) (outcome : Nat → Int) (s : KeysState) : Prop := GrantsFrom table outcome s 0

def EntryBelow (table : List ButtonIrqDesc) (k : Nat) (irq : Int) (i : Nat) : Prop :=
  i < k ∧ 0 ≤ irq ∧ ∃ button, table[i]? = some button ∧ button.irq = irq

-- The line has the holder it had, and if it had one its enabled state and the
-- edge it may be waiting with too.
def LineKept (s t : KeysState) (irq : Int) : Prop :=
  (t.lines irq).action = (s.lines irq).action ∧
    ((s.lines irq).action ≠ none → (t.lines irq).depth = (s.lines irq).depth ∧ t.pending irq = s.pending irq)

def LinesKept (s t : KeysState) : Prop := ∀ irq, LineKept s t irq

def HoldsExactly (table : List ButtonIrqDesc) (process : Nat) (t : KeysState) : Prop :=
  ∀ irq, (∃ i, (t.lines irq).action = some (.session process i)) ↔ 0 ≤ irq ∧ ∃ button ∈ table, button.irq = irq

def OneSession (table : List ButtonIrqDesc) (sessions : List Nat) : Prop :=
  (∃ button ∈ table, 0 ≤ button.irq) → sessions.length ≤ 1

-- The lines the table has no number of are as they were.
def OthersKept (table : List ButtonIrqDesc) (s t : KeysState) : Prop :=
  ∀ irq, ¬ (0 ≤ irq ∧ ∃ button ∈ table, button.irq = irq) → LineKept s t irq

def LinesFree (table : List ButtonIrqDesc) (t : KeysState) : Prop :=
  ∀ button ∈ table, 0 ≤ button.irq → (t.lines button.irq).action = none

-- The ledger along a run: the processes with an open session, and what each call
-- does to the lines. An open succeeds just when every line is free and granted. A
-- close is made only for an open session.
def LedgerLaw (table : List ButtonIrqDesc) : List Nat → KeysState → List KeysCall → Prop
  | sessions, _, [] => OneSession table sessions
  | sessions, s, .opening process outcome :: rest => OneSession table sessions ∧
      ∃ r t, (buttonsOpen table process outcome).run s = .done r t ∧ (r = 0 ↔ Grants table outcome s) ∧
        (r = 0 ∧ HoldsExactly table process t ∧ OthersKept table s t ∧ LedgerLaw table (process :: sessions) t rest ∨
          r = -ebusy ∧ LinesKept s t ∧ LedgerLaw table sessions t rest)
  | sessions, s, .closing process :: rest => OneSession table sessions ∧
      (process ∈ sessions → ∃ t, (buttonsClose table process).run s = .done 0 t ∧ LinesFree table t ∧
        OthersKept table s t ∧ LedgerLaw table (sessions.erase process) t rest)

-- Of the entries below `k` every line with a number was free and is the
-- session's, enabled; every other line is as it was.
structure Acquired (table : List ButtonIrqDesc) (process k : Nat) (s t : KeysState) : Prop where
  taken : ∀ irq i, EntryBelow table k irq i →
    (s.lines irq).action = none ∧ (t.lines irq).action = some (.session process i)
  kept : ∀ irq, (∀ i, ¬ EntryBelow table k irq i) → LineKept s t irq

theorem line_kept_refl (s : KeysState) (irq : Int) : LineKept s s irq := ⟨rfl, fun _ => ⟨rfl, rfl⟩⟩

theorem entry_below_succ (table : List ButtonIrqDesc) (k : Nat) (button : ButtonIrqDesc) (irq : Int) (i : Nat)
    (listed : table[k]? = some button) :
    EntryBelow table (k + 1) irq i ↔ EntryBelow table k irq i ∨ (i = k ∧ 0 ≤ irq ∧ button.irq = irq) := by
  constructor
  · rintro ⟨below, nonneg, entry, found, same⟩
    by_cases last : i = k
    · subst last
      obtain rfl : button = entry := by simpa [listed] using found
      exact .inr ⟨rfl, nonneg, same⟩
    · exact .inl ⟨by omega, nonneg, entry, found, same⟩
  · rintro (⟨below, rest⟩ | ⟨rfl, nonneg, same⟩)
    · exact ⟨by omega, rest⟩
    · exact ⟨by omega, nonneg, button, listed, same⟩

theorem entry_absent (table : List ButtonIrqDesc) (k : Nat) (button : ButtonIrqDesc) (distinct : DistinctIrqs table)
    (listed : table[k]? = some button) (nonneg : 0 ≤ button.irq) (i : Nat) : ¬ EntryBelow table k button.irq i := by
  rintro ⟨below, -, entry, found, same⟩
  have equal := distinct k i button entry listed found nonneg same.symm
  omega

theorem acquired_skip (table : List ButtonIrqDesc) (process k : Nat) (button : ButtonIrqDesc) (s t : KeysState)
    (listed : table[k]? = some button) (negative : button.irq < 0) :
    Acquired table process (k + 1) s t ↔ Acquired table process k s t := by
  have same : ∀ irq i, EntryBelow table (k + 1) irq i ↔ EntryBelow table k irq i := by
    intro irq i
    rw [entry_below_succ table k button irq i listed]
    refine or_iff_left ?_
    rintro ⟨-, nonneg, rfl⟩
    omega
  constructor
  · exact fun h => ⟨fun irq i entry => h.taken irq i ((same irq i).mpr entry),
      fun irq none => h.kept irq fun i entry => none i ((same irq i).mp entry)⟩
  · exact fun h => ⟨fun irq i entry => h.taken irq i ((same irq i).mp entry),
      fun irq none => h.kept irq fun i entry => none i ((same irq i).mpr entry)⟩

theorem acquired_grant (table : List ButtonIrqDesc) (process k : Nat) (button : ButtonIrqDesc) (s t u : KeysState)
    (distinct : DistinctIrqs table) (listed : table[k]? = some button) (nonneg : 0 ≤ button.irq)
    (acquired : Acquired table process k s t) (free : (t.lines button.irq).action = none)
    (granted : u.lines = Function.update t.lines button.irq ⟨some (.session process k), 0⟩)
    (edges : ∀ irq, irq ≠ button.irq → u.pending irq = t.pending irq) :
    Acquired table process (k + 1) s u := by
  have absent := entry_absent table k button distinct listed nonneg
  constructor
  · intro irq i entry
    rw [entry_below_succ table k button irq i listed] at entry
    rcases entry with entry | ⟨rfl, -, rfl⟩
    · have other : irq ≠ button.irq := by
        rintro rfl
        exact absent i entry
      simpa [granted, other] using acquired.taken irq i entry
    · exact ⟨(acquired.kept _ absent).1 ▸ free, by simp [granted]⟩
  · intro irq none
    have other : irq ≠ button.irq := by
      rintro rfl
      exact none k ((entry_below_succ table k button _ k listed).mpr (.inr ⟨rfl, nonneg, rfl⟩))
    have before := acquired.kept irq fun i entry =>
      none i ((entry_below_succ table k button irq i listed).mpr (.inl entry))
    simpa [LineKept, granted, other, edges irq other] using before

theorem acquired_give_back (table : List ButtonIrqDesc) (process k depth : Nat) (button : ButtonIrqDesc)
    (s t u : KeysState) (distinct : DistinctIrqs table) (listed : table[k]? = some button) (nonneg : 0 ≤ button.irq)
    (acquired : Acquired table process (k + 1) s t)
    (given : u.lines = Function.update t.lines button.irq ⟨none, depth⟩)
    (edges : ∀ irq, irq ≠ button.irq → u.pending irq = t.pending irq) : Acquired table process k s u := by
  have succ := fun irq i => entry_below_succ table k button irq i listed
  constructor
  · intro irq i entry
    have other : irq ≠ button.irq := by
      rintro rfl
      exact entry_absent table k button distinct listed nonneg i entry
    simpa [given, other] using acquired.taken irq i ((succ irq i).mpr (.inl entry))
  · intro irq none
    by_cases same : irq = button.irq
    · subst same
      have free := (acquired.taken _ k ((succ _ k).mpr (.inr ⟨rfl, nonneg, rfl⟩))).1
      exact ⟨by simp [given, free], fun held => absurd free held⟩
    · have before := acquired.kept irq fun i entry => by
        rcases (succ irq i).mp entry with entry | ⟨-, -, line⟩
        · exact none i entry
        · exact same line.symm
      simpa [LineKept, given, same, edges irq same] using before

-- What the calls leave alone: the keys, and the edges of the lines that stay held.
structure Quiet (s t : KeysState) : Prop where
  values : t.keyValues = s.keyValues
  pins : t.pins = s.pins
  pending : ∀ irq, t.pending irq = true →
    s.pending irq = true ∧ ((s.lines irq).action ≠ none → (t.lines irq).action ≠ none)

theorem quiet_refl (s : KeysState) : Quiet s s := ⟨rfl, rfl, fun _ waits => ⟨waits, fun held => held⟩⟩

theorem quiet_trans (s t u : KeysState) (first : Quiet s t) (second : Quiet t u) : Quiet s u where
  values := second.values.trans first.values
  pins := second.pins.trans first.pins
  pending := fun irq waits => by
    obtain ⟨before, held⟩ := second.pending irq waits
    obtain ⟨earlier, kept⟩ := first.pending irq before
    exact ⟨earlier, fun some => held (kept some)⟩

theorem run_cfgpin (pin setting : Nat) (s : KeysState) :
    (s3c2410GpioCfgpin pin setting).run s =
      .done () { s with pinFunction := Function.update s.pinFunction pin setting } := rfl

theorem run_request_irq (irq : Int) (holder : Holder) (outcome : Int) (s : KeysState) :
    ∃ err t, (requestIrq irq holder outcome).run s = .done err t ∧ Quiet s t ∧ t.pending = s.pending ∧
      (err = 0 ∧ ((s.lines irq).action = none ∧ outcome = 0) ∧ t.lines = Function.update s.lines irq ⟨some holder, 0⟩ ∨
        err ≠ 0 ∧ ¬ ((s.lines irq).action = none ∧ outcome = 0) ∧ t = s) := by
  have ran : (requestIrq irq holder outcome).run s =
      .done (if (s.lines irq).action = none then outcome else -ebusy)
        (if (s.lines irq).action = none ∧ outcome = 0 then
          { s with lines := Function.update s.lines irq ⟨some holder, 0⟩ }
        else s) := rfl
  by_cases free : (s.lines irq).action = none
  · by_cases granted : outcome = 0
    · subst granted
      simp only [free, if_true, and_self] at ran
      refine ⟨0, _, ran, ⟨rfl, rfl, fun other waits => ⟨waits, fun held => ?_⟩⟩, rfl, .inl ⟨rfl, ⟨free, rfl⟩, rfl⟩⟩
      have different : other ≠ irq := fun same => held (same ▸ free)
      simpa [different] using held
    · exact ⟨outcome, s, by simp [ran, free, granted], quiet_refl s, rfl, .inr ⟨granted, by simp [granted], rfl⟩⟩
  · exact ⟨-ebusy, s, by simp [ran, free], quiet_refl s, rfl, .inr ⟨by decide, by simp [free], rfl⟩⟩

theorem run_free_irq (irq : Int) (holder : Holder) (s : KeysState) (held : (s.lines irq).action = some holder) :
    ∃ t, (freeIrq irq holder).run s = .done () t ∧ Quiet s t ∧
      t.lines = Function.update s.lines irq ⟨none, (s.lines irq).depth⟩ ∧
        t.pending = Function.update s.pending irq false := by
  refine ⟨{ s with
    lines := Function.update s.lines irq ⟨none, (s.lines irq).depth⟩
    pending := Function.update s.pending irq false }, ?_, ⟨rfl, rfl, fun other waits => ?_⟩, rfl, rfl⟩
  · simp [freeIrq, Prog.run_access, held]
  · have different : other ≠ irq := by
      rintro rfl
      simp at waits
    simpa [different] using waits

theorem run_disable_irq (irq : Int) (holder : Holder) (s : KeysState) (held : (s.lines irq).action = some holder) :
    ∃ t, (disableIrq irq holder).run s = .done () t ∧ Quiet s t ∧
      t.lines = Function.update s.lines irq ⟨some holder, (s.lines irq).depth + 1⟩ ∧ t.pending = s.pending := by
  refine ⟨{ s with lines := Function.update s.lines irq ⟨some holder, (s.lines irq).depth + 1⟩ }, ?_,
    ⟨rfl, rfl, fun other waits => ⟨waits, fun some => ?_⟩⟩, rfl, rfl⟩
  · simp [disableIrq, Prog.run_access, held]
  · by_cases same : other = irq <;> simp_all

theorem run_release_entry (process i : Nat) (button : ButtonIrqDesc) (s : KeysState)
    (held : (s.lines button.irq).action = some (.session process i)) :
    ∃ t, (releaseEntry process i button).run s = .done () t ∧ Quiet s t ∧
      t.lines = Function.update s.lines button.irq ⟨none, (s.lines button.irq).depth + 1⟩ ∧
        t.pending = Function.update s.pending button.irq false := by
  obtain ⟨t, disabled, quiet, lines, edges⟩ := run_disable_irq button.irq _ s held
  obtain ⟨u, freed, quiet', lines', edges'⟩ := run_free_irq button.irq (.session process i) t (by simp [lines])
  refine ⟨u, by simp [releaseEntry, disabled, freed], quiet_trans s t u quiet quiet', ?_, by rw [edges', edges]⟩
  rw [lines', lines, Function.update_idem, Function.update_self]

theorem grants_from_succ (table : List ButtonIrqDesc) (outcome : Nat → Int) (s : KeysState) (k : Nat)
    (button : ButtonIrqDesc) (listed : table[k]? = some button) :
    GrantsFrom table outcome s k ↔
      (0 ≤ button.irq → (s.lines button.irq).action = none ∧ outcome k = 0) ∧ GrantsFrom table outcome s (k + 1) := by
  constructor
  · exact fun grants => ⟨grants k button (Nat.le_refl k) listed, fun i other after => grants i other (by omega)⟩
  · rintro ⟨here, later⟩ i other after found nonneg
    by_cases same : i = k
    · subst same
      obtain rfl : button = other := by simpa [listed] using found
      exact here nonneg
    · exact later i other (by omega) found nonneg

theorem suffix_empty (table : List ButtonIrqDesc) (k : Nat) (suffix : [] = table.drop k) : table.length ≤ k :=
  List.drop_eq_nil_iff.mp suffix.symm

theorem suffix_head (table rest : List ButtonIrqDesc) (button : ButtonIrqDesc) (k : Nat)
    (suffix : button :: rest = table.drop k) : table[k]? = some button ∧ rest = table.drop (k + 1) := by
  constructor
  · have first := congrArg (·[0]?) suffix
    simpa using first.symm
  · have tail := congrArg List.tail suffix
    simpa [List.tail_drop] using tail

theorem run_request_from (table rest : List ButtonIrqDesc) (process k : Nat) (outcome : Nat → Int) (s t : KeysState)
    (distinct : DistinctIrqs table) (suffix : rest = table.drop k) (within : k ≤ table.length)
    (acquired : Acquired table process k s t) :
    ∃ err stop u, (requestFrom process outcome rest k).run t = .done (err, stop) u ∧ Acquired table process stop s u ∧
      stop ≤ table.length ∧ (err = 0 → stop = table.length) ∧ (err = 0 ↔ GrantsFrom table outcome s k) ∧ Quiet t u := by
  induction rest generalizing k t with
  | nil =>
      have whole : k = table.length := Nat.le_antisymm within (suffix_empty table k suffix)
      have past : GrantsFrom table outcome s k := by
        intro i button after listed
        have := (List.getElem?_eq_some_iff.mp listed).1
        omega
      exact ⟨0, k, t, rfl, acquired, within, fun _ => whole, iff_of_true rfl past, quiet_refl t⟩
  | cons button rest ih =>
      obtain ⟨listed, tail⟩ := suffix_head table rest button k suffix
      have below : k < table.length := (List.getElem?_eq_some_iff.mp listed).1
      have configured : Quiet t { t with pinFunction := Function.update t.pinFunction button.pin button.pinSetting } :=
        ⟨rfl, rfl, fun _ waits => ⟨waits, fun held => held⟩⟩
      have same : Acquired table process k s
          { t with pinFunction := Function.update t.pinFunction button.pin button.pinSetting } :=
        ⟨acquired.taken, acquired.kept⟩
      by_cases negative : button.irq < 0
      · have skipped := (acquired_skip table process k button s _ listed negative).mpr same
        have same : GrantsFrom table outcome s k ↔ GrantsFrom table outcome s (k + 1) :=
          (grants_from_succ table outcome s k button listed).trans (and_iff_right fun nonneg => by omega)
        obtain ⟨err, stop, u, ran, done, bound, end', grants, quiet⟩ := ih (k + 1) _ tail below skipped
        exact ⟨err, stop, u, by simp [requestFrom, run_cfgpin, negative, ran], done, bound, end', grants.trans same.symm,
          quiet_trans t _ u configured quiet⟩
      · have first := same.kept button.irq (entry_absent table k button distinct listed (by omega))
        have step := grants_from_succ table outcome s k button listed
        obtain ⟨err, u, requested, quiet, edges, granted | ⟨refused, held, rfl⟩⟩ :=
          run_request_irq button.irq (.session process k) (outcome k)
            { t with pinFunction := Function.update t.pinFunction button.pin button.pinSetting }
        · obtain ⟨rfl, ⟨free, zero⟩, lines⟩ := granted
          have extended := acquired_grant table process k button s _ u distinct listed (by omega) same free lines
            fun _ _ => congrFun edges _
          obtain ⟨err, stop, v, ran, done, bound, end', grants, quiet'⟩ := ih (k + 1) u tail below extended
          exact ⟨err, stop, v, by simp [requestFrom, run_cfgpin, negative, requested, ran], done, bound, end',
            grants.trans (step.trans (and_iff_right fun _ => ⟨first.1 ▸ free, zero⟩)).symm,
            quiet_trans t _ v configured (quiet_trans _ u v quiet quiet')⟩
        · exact ⟨err, k, _, by simp [requestFrom, run_cfgpin, negative, requested, refused], same, within,
            fun zero => absurd zero refused,
            iff_of_false refused fun grants => held (first.1.symm ▸ (step.mp grants).1 (by omega)), configured⟩

theorem run_unwind_below (table : List ButtonIrqDesc) (process k : Nat) (s t : KeysState)
    (distinct : DistinctIrqs table) (within : k ≤ table.length) (acquired : Acquired table process k s t) :
    ∃ u, (unwindBelow process table k).run t = .done () u ∧ LinesKept s u ∧ Quiet t u := by
  induction k generalizing t with
  | zero => exact ⟨t, rfl, fun irq => acquired.kept irq fun i entry => absurd entry.1 (Nat.not_lt_zero i), quiet_refl t⟩
  | succ k ih =>
      have listed : table[k]? = some table[k] := List.getElem?_eq_getElem within
      by_cases negative : table[k].irq < 0
      · have shorter := (acquired_skip table process k table[k] s t listed negative).mp acquired
        obtain ⟨u, ran, kept, quiet⟩ := ih t (by omega) shorter
        exact ⟨u, by simp [unwindBelow, listed, negative, ran], kept, quiet⟩
      · have entry : EntryBelow table (k + 1) table[k].irq k := ⟨by omega, by omega, table[k], listed, rfl⟩
        obtain ⟨u, released, quiet, lines, edges⟩ := run_release_entry process k table[k] t (acquired.taken _ k entry).2
        have shorter := acquired_give_back table process k _ table[k] s t u distinct listed (by omega) acquired lines
          fun irq other => by rw [edges, Function.update_of_ne other]
        obtain ⟨v, ran, kept, quiet'⟩ := ih u (by omega) shorter
        exact ⟨v, by simp [unwindBelow, listed, negative, released, ran], kept, quiet_trans t u v quiet quiet'⟩

def EntryFrom (table : List ButtonIrqDesc) (k : Nat) (irq : Int) (i : Nat) : Prop :=
  k ≤ i ∧ EntryBelow table table.length irq i

theorem entry_from_succ (table : List ButtonIrqDesc) (k : Nat) (button : ButtonIrqDesc) (irq : Int) (i : Nat)
    (listed : table[k]? = some button) :
    EntryFrom table k irq i ↔ EntryFrom table (k + 1) irq i ∨ (i = k ∧ 0 ≤ irq ∧ button.irq = irq) := by
  have below : k < table.length := (List.getElem?_eq_some_iff.mp listed).1
  constructor
  · rintro ⟨from', entry⟩
    by_cases first : i = k
    · subst first
      obtain ⟨-, nonneg, other, found, same⟩ := entry
      obtain rfl : button = other := by simpa [listed] using found
      exact .inr ⟨rfl, nonneg, same⟩
    · exact .inl ⟨by omega, entry⟩
  · rintro (⟨after, entry⟩ | ⟨rfl, nonneg, same⟩)
    · exact ⟨by omega, entry⟩
    · exact ⟨Nat.le_refl i, below, nonneg, button, listed, same⟩

theorem run_free_from (table rest : List ButtonIrqDesc) (process k : Nat) (t : KeysState)
    (distinct : DistinctIrqs table) (suffix : rest = table.drop k)
    (owned : ∀ irq i, EntryFrom table k irq i → (t.lines irq).action = some (.session process i)) :
    ∃ u, (freeFrom process rest k).run t = .done () u ∧ Quiet t u ∧
      (∀ irq i, EntryFrom table k irq i → (u.lines irq).action = none) ∧
      ∀ irq, (∀ i, ¬ EntryFrom table k irq i) → LineKept t u irq := by
  induction rest generalizing k t with
  | nil =>
      have past : ∀ irq i, ¬ EntryFrom table k irq i := by
        intro irq i entry
        exact absurd (suffix_empty table k suffix) (Nat.not_le.mpr (Nat.lt_of_le_of_lt entry.1 entry.2.1))
      exact ⟨t, rfl, quiet_refl t, fun irq i entry => absurd entry (past irq i), fun irq _ => line_kept_refl t irq⟩
  | cons button rest ih =>
      obtain ⟨listed, tail⟩ := suffix_head table rest button k suffix
      have succ := fun irq i => entry_from_succ table k button irq i listed
      by_cases negative : button.irq < 0
      · have same : ∀ irq i, EntryFrom table k irq i ↔ EntryFrom table (k + 1) irq i := by
          intro irq i
          rw [succ irq i]
          refine or_iff_left ?_
          rintro ⟨-, nonneg, rfl⟩
          omega
        obtain ⟨u, ran, quiet, freed, kept⟩ := ih (k + 1) t tail fun irq i entry => owned irq i ((same irq i).mpr entry)
        exact ⟨u, by simp [freeFrom, negative, ran], quiet, fun irq i entry => freed irq i ((same irq i).mp entry),
          fun irq none => kept irq fun i entry => none i ((same irq i).mpr entry)⟩
      · have mine : EntryFrom table k button.irq k := (succ _ k).mpr (.inr ⟨rfl, by omega, rfl⟩)
        have later : ∀ i, ¬ EntryFrom table (k + 1) button.irq i := by
          rintro i ⟨after, -, -, other, found, line⟩
          have equal := distinct k i button other listed found (by omega) line.symm
          omega
        obtain ⟨v, given, quiet, lines, edges⟩ := run_free_irq button.irq (.session process k) t (owned _ k mine)
        obtain ⟨u, ran, quiet', freed, kept⟩ := ih (k + 1) v tail fun irq i entry => by
          have other : irq ≠ button.irq := by
            rintro rfl
            exact later i entry
          simpa [lines, other] using owned irq i ((succ irq i).mpr (.inl entry))
        refine ⟨u, by simp [freeFrom, negative, given, ran], quiet_trans t v u quiet quiet', ?_, ?_⟩
        · intro irq i entry
          rcases (succ irq i).mp entry with entry | ⟨-, -, rfl⟩
          · exact freed irq i entry
          · rw [(kept _ later).1, lines, Function.update_self]
        · intro irq none
          have other : irq ≠ button.irq := by
            rintro rfl
            exact none k mine
          have later' := kept irq fun i entry => none i ((succ irq i).mpr (.inl entry))
          simpa [LineKept, lines, edges, other] using later'

-- Between calls: each open session has its lines, and no other session has any.
structure LedgerInvariant (table : List ButtonIrqDesc) (sessions : List Nat) (s : KeysState) : Prop where
  one : OneSession table sessions
  owns : ∀ process ∈ sessions, ∀ irq i, EntryBelow table table.length irq i →
    (s.lines irq).action = some (.session process i)
  only : ∀ irq process i, (s.lines irq).action = some (.session process i) →
    process ∈ sessions ∧ EntryBelow table table.length irq i

theorem entry_has_line (table : List ButtonIrqDesc) (irq : Int) :
    (∃ i, EntryBelow table table.length irq i) ↔ 0 ≤ irq ∧ ∃ button ∈ table, button.irq = irq := by
  constructor
  · rintro ⟨i, -, nonneg, button, listed, same⟩
    exact ⟨nonneg, button, List.mem_of_getElem? listed, same⟩
  · rintro ⟨nonneg, button, member, same⟩
    obtain ⟨i, listed⟩ := List.getElem?_of_mem member
    exact ⟨i, (List.getElem?_eq_some_iff.mp listed).1, nonneg, button, listed, same⟩

theorem run_buttons_open (table : List ButtonIrqDesc) (process : Nat) (outcome : Nat → Int) (s : KeysState)
    (distinct : DistinctIrqs table) :
    ∃ r t, (buttonsOpen table process outcome).run s = .done r t ∧ Quiet s t ∧
      (r = 0 ∧ Grants table outcome s ∧ Acquired table process table.length s t ∨
        r = -ebusy ∧ ¬ Grants table outcome s ∧ LinesKept s t) := by
  have start : Acquired table process 0 s s :=
    ⟨fun irq i entry => absurd entry.1 (Nat.not_lt_zero i), fun irq _ => line_kept_refl s irq⟩
  obtain ⟨err, stop, t, ran, acquired, bound, whole, grants, quiet⟩ :=
    run_request_from table table process 0 outcome s s distinct rfl (Nat.zero_le _) start
  by_cases failed : err = 0
  · rw [whole failed] at acquired
    exact ⟨0, t, by simp [buttonsOpen, ran, failed], quiet, .inl ⟨rfl, grants.mp failed, acquired⟩⟩
  · obtain ⟨u, unwound, kept, quiet'⟩ := run_unwind_below table process stop s t distinct bound acquired
    exact ⟨-ebusy, u, by simp [buttonsOpen, ran, failed, unwound], quiet_trans s t u quiet quiet',
      .inr ⟨rfl, mt grants.mpr failed, kept⟩⟩

-- A table with a line cannot be acquired while a session has it.
theorem opened_invariant (table : List ButtonIrqDesc) (process : Nat) (sessions : List Nat) (s t : KeysState)
    (holds : LedgerInvariant table sessions s) (acquired : Acquired table process table.length s t) :
    LedgerInvariant table (process :: sessions) t := by
  have alone : ∀ irq i, EntryBelow table table.length irq i → sessions = [] := by
    intro irq i entry
    refine List.eq_nil_iff_forall_not_mem.mpr fun other member => ?_
    have held := holds.owns other member irq i entry
    rw [(acquired.taken irq i entry).1] at held
    contradiction
  constructor
  · rintro ⟨button, member, nonneg⟩
    obtain ⟨i, entry⟩ := (entry_has_line table button.irq).mpr ⟨nonneg, button, member, rfl⟩
    simp [alone button.irq i entry]
  · intro other member irq i entry
    rw [alone irq i entry, List.mem_singleton] at member
    rw [member]
    exact (acquired.taken irq i entry).2
  · intro irq other i held
    by_cases listed : ∃ j, EntryBelow table table.length irq j
    · obtain ⟨j, entry⟩ := listed
      rw [(acquired.taken irq j entry).2, Option.some.injEq, Holder.session.injEq] at held
      obtain ⟨rfl, rfl⟩ := held
      exact ⟨by simp, entry⟩
    · rw [(acquired.kept irq fun j entry => listed ⟨j, entry⟩).1] at held
      obtain ⟨member, entry⟩ := holds.only irq other i held
      exact ⟨by simp [member], entry⟩

theorem failed_invariant (table : List ButtonIrqDesc) (sessions : List Nat) (s t : KeysState)
    (holds : LedgerInvariant table sessions s) (kept : LinesKept s t) : LedgerInvariant table sessions t where
  one := holds.one
  owns := fun process member irq i entry => (kept irq).1.trans (holds.owns process member irq i entry)
  only := fun irq process i held => holds.only irq process i ((kept irq).1.symm.trans held)

theorem closed_alone (table : List ButtonIrqDesc) (process : Nat) (sessions : List Nat) (s : KeysState)
    (holds : LedgerInvariant table sessions s) (member : process ∈ sessions) (irq : Int) (i : Nat)
    (entry : EntryBelow table table.length irq i) : sessions.erase process = [] := by
  obtain ⟨nonneg, button, listed, line⟩ := (entry_has_line table irq).mp ⟨i, entry⟩
  have single := holds.one ⟨button, listed, line ▸ nonneg⟩
  have shorter := List.length_erase_of_mem member
  exact List.length_eq_zero_iff.mp (by omega)

theorem run_buttons_close (table : List ButtonIrqDesc) (process : Nat) (sessions : List Nat) (s : KeysState)
    (distinct : DistinctIrqs table) (holds : LedgerInvariant table sessions s) (member : process ∈ sessions) :
    ∃ t, (buttonsClose table process).run s = .done 0 t ∧ Quiet s t ∧ LinesFree table t ∧ OthersKept table s t ∧
      LedgerInvariant table (sessions.erase process) t := by
  obtain ⟨t, ran, quiet, freed, kept⟩ := run_free_from table table process 0 s distinct rfl fun irq i entry =>
    holds.owns process member irq i entry.2
  have mine := closed_alone table process sessions s holds member
  refine ⟨t, by simp [buttonsClose, ran], quiet, ?_, ?_, ?_, ?_, ?_⟩
  · intro button listed nonneg
    obtain ⟨i, entry⟩ := (entry_has_line table button.irq).mpr ⟨nonneg, button, listed, rfl⟩
    exact freed button.irq i ⟨Nat.zero_le i, entry⟩
  · exact fun irq absent => kept irq fun i entry => absent ((entry_has_line table irq).mp ⟨i, entry.2⟩)
  · rintro some
    have shorter : (sessions.erase process).length ≤ sessions.length := List.length_erase_le
    exact shorter.trans (holds.one some)
  · intro other left irq i entry
    rw [mine irq i entry] at left
    contradiction
  · intro irq other i held
    by_cases listed : ∃ j, EntryBelow table table.length irq j
    · obtain ⟨j, entry⟩ := listed
      rw [freed irq j ⟨Nat.zero_le j, entry⟩] at held
      contradiction
    · rw [(kept irq fun j entry => listed ⟨j, entry.2⟩).1] at held
      exact absurd ⟨i, (holds.only irq other i held).2⟩ listed

theorem ledger_run (table : List ButtonIrqDesc) (distinct : DistinctIrqs table) (calls : List KeysCall)
    (sessions : List Nat) (s : KeysState) (holds : LedgerInvariant table sessions s) :
    LedgerLaw table sessions s calls := by
  induction calls generalizing sessions s with
  | nil => exact holds.one
  | cons call rest ih =>
      cases call with
      | opening process outcome =>
          obtain ⟨r, t, ran, -, ⟨rfl, grants, acquired⟩ | ⟨rfl, refused, kept⟩⟩ :=
            run_buttons_open table process outcome s distinct
          · have opened := opened_invariant table process sessions s t holds acquired
            refine ⟨holds.one, 0, t, ran, iff_of_true rfl grants, .inl ⟨rfl, fun irq => ?_, fun irq absent => ?_, ih _ t opened⟩⟩
            · rw [← entry_has_line]
              exact exists_congr fun i => ⟨fun held => (opened.only irq process i held).2,
                fun entry => opened.owns process (by simp) irq i entry⟩
            · exact acquired.kept irq fun i entry => absent ((entry_has_line table irq).mp ⟨i, entry⟩)
          · exact ⟨holds.one, -ebusy, t, ran, iff_of_false (by decide) refused,
              .inr ⟨rfl, kept, ih _ t (failed_invariant table sessions s t holds kept)⟩⟩
      | closing process =>
          refine ⟨holds.one, fun member => ?_⟩
          obtain ⟨t, ran, -, freed, kept, closed⟩ := run_buttons_close table process sessions s distinct holds member
          exact ⟨t, ran, freed, kept, ih _ t closed⟩

theorem keys_irq_ledger (table : List ButtonIrqDesc) (calls : List KeysCall) (s : KeysState)
    (distinct : DistinctIrqs table) (unopened : ∀ irq process i, (s.lines irq).action ≠ some (.session process i)) :
    LedgerLaw table [] s calls :=
  ledger_run table distinct calls [] s
    ⟨fun _ => Nat.zero_le 1, fun _ member => absurd member (by simp),
      fun irq process i held => absurd held (unopened irq process i)⟩

theorem free_lines_grant (board : Board) (s : KeysState) (free : LinesFree (buttonIrqs board) s) :
    Grants (buttonIrqs board) (fun _ => 0) s :=
  fun _ button _ listed nonneg => ⟨free button (List.mem_of_getElem? listed) nonneg, rfl⟩

-- The first process opens, a second one is refused while it has the keys, and opens
-- them after the close.
theorem ledger_of_two_processes :
    ∃ s t u v, (buttonsOpen (buttonIrqs mini2440) 1 fun _ => 0).run (loadedKeys (fun _ => true) fun _ => ⟨none, 0⟩) = .done 0 s ∧
      (buttonsOpen (buttonIrqs mini2440) 2 fun _ => 0).run s = .done (-ebusy) t ∧ LinesKept s t ∧
      (buttonsClose (buttonIrqs mini2440) 1).run t = .done 0 u ∧ LinesFree (buttonIrqs mini2440) u ∧
      (buttonsOpen (buttonIrqs mini2440) 2 fun _ => 0).run u = .done 0 v ∧ HoldsExactly (buttonIrqs mini2440) 2 v := by
  obtain ⟨-, r, s, first, granted, law⟩ := keys_irq_ledger (buttonIrqs mini2440)
    [.opening 1 fun _ => 0, .opening 2 fun _ => 0, .closing 1, .opening 2 fun _ => 0]
    (loadedKeys (fun _ => true) fun _ => ⟨none, 0⟩) (button_irqs_distinct mini2440) (by simp [loadedKeys])
  have opens : r = 0 := granted.mpr (free_lines_grant mini2440 _ fun _ _ _ => rfl)
  obtain ⟨-, holds, -, -, q, t, second, refusing, later⟩ := law.resolve_right fun busy => absurd (opens.symm.trans busy.1) (by decide)
  have button : (⟨52, 192, 2, 0⟩ : ButtonIrqDesc) ∈ buttonIrqs mini2440 := by decide
  obtain ⟨i, held⟩ := (holds 52).mpr ⟨by decide, _, button, rfl⟩
  obtain ⟨busy, kept, -, closes⟩ := later.resolve_left fun opened => by
    obtain ⟨j, listed⟩ := List.getElem?_of_mem button
    have free := (refusing.mp opened.1 j _ (Nat.zero_le j) listed (by decide)).1
    rw [held] at free
    cases free
  obtain ⟨u, closed, free, -, -, p, v, third, granting, last⟩ := closes (by simp)
  have again : p = 0 := granting.mpr (free_lines_grant mini2440 u free)
  obtain ⟨-, holds', -⟩ := last.resolve_right fun busy => absurd (again.symm.trans busy.1) (by decide)
  exact ⟨s, t, u, v, opens ▸ first, busy ▸ second, kept, closed, free, again ▸ third, holds'⟩

end OneDriver.Keys
