import OneDriver.Completion.Fifo

set_option autoImplicit false

namespace OneDriver.Completion

-- The cells a call's copy passes over: copy_from_user stores the bytes it could
-- not reach as zeros, copy_to_user stops where it fails.
def CompletionOp.start (s : CompletionState) : CompletionOp → Nat
  | .write _ _ => s.writeIndex
  | .read _ _ => s.readIndex

def CompletionOp.extent : CompletionOp → Nat
  | .write data _ => data.length
  | .read count fault => copied count fault

def CompletionOp.Touches (op : CompletionOp) (s : CompletionState) (i : Nat) : Prop :=
  op.start s ≤ i ∧ i < op.start s + op.extent

def CompletionOp.written : CompletionOp → Nat
  | .write data fault => if copyFails data.length fault then 0 else data.length
  | .read _ _ => 0

def CompletionOp.taken : CompletionOp → Nat
  | .write _ _ => 0
  | .read count fault => if copyFails count fault then 0 else count

-- The counts of the calls whose copy succeeded, with no bound on either.
structure Moved where
  written : Nat
  taken : Nat

def Moved.next (m : Moved) (op : CompletionOp) : Moved := ⟨m.written + op.written, m.taken + op.taken⟩

-- The transfer fits between where the counts have left its index and the end.
def Moved.Admits (m : Moved) : CompletionOp → Prop
  | .write data _ => m.written % bufferSize + data.length ≤ bufferSize
  | .read count fault => m.taken % bufferSize + copied count fault ≤ bufferSize

instance (m : Moved) : (op : CompletionOp) → Decidable (m.Admits op)
  | .write _ _ => inferInstanceAs (Decidable (_ ≤ _))
  | .read _ _ => inferInstanceAs (Decidable (_ ≤ _))

def StaysInside (abi : Abi) : CompletionState → List CompletionOp → Prop
  | _, [] => True
  | s, op :: rest =>
      (∀ i, op.Touches s i → i < bufferSize) ∧ ∀ r t, (op.call abi).run s = .done r t → StaysInside abi t rest

def CompletionState.put (s : CompletionState) (i : Nat) (c : UInt8) : CompletionState :=
  { s with buffer := Function.update s.buffer i c }

-- A cell that has no part in a call: it may hold anything, keeps it, and nothing else
-- comes out differently.
def CompletionOp.Spares (abi : Abi) (op : CompletionOp) (s : CompletionState) (i : Nat) : Prop :=
  ∀ c r t, (op.call abi).run s = .done r t → (op.call abi).run (s.put i c) = .done r (t.put i c)

def SparesBeyond (abi : Abi) : CompletionState → List CompletionOp → Prop
  | _, [] => True
  | s, op :: rest =>
      (∀ i, bufferSize ≤ i → op.Spares abi s i) ∧ ∀ r t, (op.call abi).run s = .done r t → SparesBeyond abi t rest

structure Placed (m : Moved) (s : CompletionState) : Prop where
  write : s.writeIndex = m.written % bufferSize
  read : s.readIndex = m.taken % bufferSize

theorem run_write_call (abi : Abi) (data : List UInt8) (fault : Option Nat) (s : CompletionState) :
    ((CompletionOp.write data fault).call abi).run s = .done (abi.long data.length, [])
      { done := uint32 (s.done + 1)
        buffer := overlay s.buffer s.writeIndex (fetched data fault)
        readIndex := s.readIndex
        writeIndex := if copyFails data.length fault then s.writeIndex else advance s.writeIndex data.length } := by
  simp only [CompletionOp.call, Prog.run_bind, run_completion_write, outcome_bind_done, Prog.run_pure]

theorem run_read_call (abi : Abi) (count : Nat) (fault : Option Nat) (s t : CompletionState) (r : Int × List UInt8)
    (ran : ((CompletionOp.read count fault).call abi).run s = .done r t) :
    0 < s.done ∧ r = (abi.long count, slice s.buffer s.readIndex (copied count fault)) ∧
      t = { s with done := s.done - 1
                   readIndex := if copyFails count fault then s.readIndex else advance s.readIndex count } := by
  rw [CompletionOp.call, run_completion_read] at ran
  split at ran
  case isTrue posted =>
      cases ran
      exact ⟨posted, rfl, rfl⟩
  case isFalse => cases ran

theorem untouched_spared (abi : Abi) (op : CompletionOp) (s : CompletionState) (i : Nat) (untouched : ¬ op.Touches s i) :
    op.Spares abi s i := by
  intro c r t ran
  cases op with
  | write data fault =>
      rw [run_write_call] at ran ⊢
      cases ran
      have apart : ¬ (s.writeIndex ≤ i ∧ i < s.writeIndex + (fetched data fault).length) := by
        rw [fetched_length]
        exact untouched
      simp only [CompletionState.put, overlay_update_outside s.buffer s.writeIndex (fetched data fault) i c apart]
  | read count fault =>
      obtain ⟨posted, rfl, rfl⟩ := run_read_call abi count fault s t r ran
      have delivered : slice (s.put i c).buffer s.readIndex (copied count fault) =
          slice s.buffer s.readIndex (copied count fault) := by
        apply slice_congr
        intro j inside
        refine Function.update_of_ne (fun same => untouched ⟨?_, ?_⟩) _ _ <;>
          simp only [CompletionOp.start, CompletionOp.extent] <;> omega
      simp only [CompletionOp.call, run_completion_read]
      rw [if_pos (show 0 < (s.put i c).done from posted)]
      exact congrArg (fun bytes => Outcome.done (abi.long count, bytes) _) delivered

-- A touched cell is stored into whatever it held, or seen by the user.
theorem spared_untouched (abi : Abi) (op : CompletionOp) (s t : CompletionState) (r : Int × List UInt8) (i : Nat)
    (ran : (op.call abi).run s = .done r t) (spared : op.Spares abi s i) : ¬ op.Touches s i := by
  rintro ⟨low, high⟩
  obtain ⟨k, rfl⟩ : ∃ k, i = op.start s + k := ⟨i - op.start s, by omega⟩
  cases op with
  | write data fault =>
      simp only [CompletionOp.start, CompletionOp.extent] at high
      have short : k < (fetched data fault).length := by
        rw [fetched_length]
        omega
      have again := spared ((fetched data fault)[k] + 1) r t ran
      rw [run_write_call] at ran again
      cases ran
      have cell := congrArg (fun u => CompletionState.buffer (Outcome.state u) (s.writeIndex + k)) again
      simp only [Outcome.state, CompletionState.put, CompletionOp.start, Function.update_self] at cell
      rw [overlay_inside _ _ _ _ short] at cell
      simp at cell
  | read count fault =>
      simp only [CompletionOp.start, CompletionOp.extent] at high
      have again := spared (s.buffer (s.readIndex + k) + 1) r t ran
      obtain ⟨posted, rfl, -⟩ := run_read_call abi count fault s t r ran
      obtain ⟨-, answers, -⟩ := run_read_call abi count fault _ _ _ again
      have seen := congrArg (fun bytes => bytes.2[k]?) answers
      simp [slice, CompletionState.put, CompletionOp.start, show k < copied count fault by omega] at seen

theorem spared_iff (abi : Abi) (op : CompletionOp) (s t : CompletionState) (r : Int × List UInt8) (i : Nat)
    (ran : (op.call abi).run s = .done r t) : op.Spares abi s i ↔ ¬ op.Touches s i :=
  ⟨spared_untouched abi op s t r i ran, untouched_spared abi op s i⟩

theorem advanced_mod (index count total : Nat) (failed : Bool) (placed : index = total % bufferSize) :
    (if failed then index else advance index count) = (total + if failed then 0 else count) % bufferSize := by
  cases failed with
  | true => simpa using placed
  | false => simp [advance_eq, placed]

theorem loaded_placed (beyond : Nat → UInt8) : Placed ⟨0, 0⟩ (completionLoaded beyond) := ⟨rfl, rfl⟩

theorem call_places (abi : Abi) (op : CompletionOp) (m : Moved) (s t : CompletionState) (r : Int × List UInt8)
    (placed : Placed m s) (ran : (op.call abi).run s = .done r t) : Placed (m.next op) t := by
  cases op with
  | write data fault =>
      rw [run_write_call] at ran
      cases ran
      exact ⟨advanced_mod s.writeIndex data.length m.written _ placed.write, placed.read⟩
  | read count fault =>
      obtain ⟨_, _, rfl⟩ := run_read_call abi count fault s t r ran
      exact ⟨placed.write, advanced_mod s.readIndex count m.taken _ placed.read⟩

theorem run_places (abi : Abi) (admits : Traffic → CompletionState → CompletionOp → Prop) (ops : List CompletionOp)
    (h h' : Traffic) (s s' : CompletionState) (m : Moved) (ran : CompletionRun abi admits h s ops h' s')
    (placed : Placed m s) : Placed (ops.foldl Moved.next m) s' := by
  induction ran generalizing m with
  | nil h s => exact placed
  | cons h s op rest r t h' s' _ stepped _ ih => exact ih (m.next op) (call_places abi op m s t r placed stepped)

theorem moved_sums (ops : List CompletionOp) (m : Moved) :
    ops.foldl Moved.next m =
      ⟨m.written + (ops.map CompletionOp.written).sum, m.taken + (ops.map CompletionOp.taken).sum⟩ := by
  induction ops generalizing m with
  | nil => rfl
  | cons op rest ih => simp [ih, Moved.next, Nat.add_assoc]

theorem indices_are_sums (abi : Abi) (beyond : Nat → UInt8) (ops : List CompletionOp) (h : Traffic)
    (s : CompletionState)
    (ran : CompletionRun abi (fun _ _ _ => True) noTraffic (completionLoaded beyond) ops h s) :
    s.writeIndex < bufferSize ∧ s.readIndex < bufferSize ∧
      s.writeIndex = (ops.map CompletionOp.written).sum % bufferSize ∧
      s.readIndex = (ops.map CompletionOp.taken).sum % bufferSize := by
  have placed := run_places abi _ ops _ h _ s ⟨0, 0⟩ ran (loaded_placed beyond)
  simp only [moved_sums, Nat.zero_add] at placed
  have below := fun total => Nat.mod_lt total (show 0 < bufferSize by decide)
  refine ⟨?_, ?_, placed.write, placed.read⟩
  · rw [placed.write]
    exact below _
  · rw [placed.read]
    exact below _

theorem indices_are_sums_past_the_end :
    ∃ h s, CompletionRun .lp64 (fun _ _ _ => True) noTraffic (completionLoaded fun _ => 0)
        [.write [65, 66] none, .write [67] (some 0), .read (2 ^ 32 + 130) none] h s ∧ s.readIndex = 2 := by
  have ran : ∃ h s, CompletionRun .lp64 (fun _ _ _ => True) noTraffic (completionLoaded fun _ => 0)
      [.write [65, 66] none, .write [67] (some 0), .read (2 ^ 32 + 130) none] h s :=
    ⟨_, _, .cons _ _ _ _ _ _ _ _ trivial rfl
      (.cons _ _ _ _ _ _ _ _ trivial rfl (.cons _ _ _ _ _ _ _ _ trivial rfl (.nil _ _)))⟩
  obtain ⟨h, s, ran⟩ := ran
  refine ⟨h, s, ran, ?_⟩
  rw [(indices_are_sums .lp64 _ _ h s ran).2.2.2]
  decide

theorem touches_below_iff (op : CompletionOp) (m : Moved) (s : CompletionState) (placed : Placed m s) :
    (∀ i, op.Touches s i → i < bufferSize) ↔ m.Admits op := by
  have started : op.start s < bufferSize := by
    cases op with
    | write data fault =>
        rw [CompletionOp.start, placed.write]
        exact Nat.mod_lt _ (by decide)
    | read count fault =>
        rw [CompletionOp.start, placed.read]
        exact Nat.mod_lt _ (by decide)
  have fits : m.Admits op ↔ op.start s + op.extent ≤ bufferSize := by
    cases op with
    | write data fault => simp only [Moved.Admits, CompletionOp.start, CompletionOp.extent, placed.write]
    | read count fault => simp only [Moved.Admits, CompletionOp.start, CompletionOp.extent, placed.read]
  rw [fits]
  constructor
  · intro inside
    by_cases empty : op.extent = 0
    · omega
    · have last := inside (op.start s + op.extent - 1) ⟨by omega, by omega⟩
      omega
  · intro room i touched
    exact Nat.lt_of_lt_of_le touched.2 room

theorem run_stays_inside_iff (abi : Abi) (admits : Traffic → CompletionState → CompletionOp → Prop)
    (ops : List CompletionOp) (h h' : Traffic) (s s' : CompletionState) (m : Moved)
    (ran : CompletionRun abi admits h s ops h' s') (placed : Placed m s) :
    StaysInside abi s ops ↔ Follows Moved.next Moved.Admits m ops := by
  induction ran generalizing m with
  | nil h s => exact Iff.rfl
  | cons h s op rest r t h' s' _ stepped _ ih =>
      have later := ih (m.next op) (call_places abi op m s t r placed stepped)
      simp only [StaysInside, Follows, touches_below_iff op m s placed, ← later]
      exact and_congr_right fun _ => Prog.run_forall_iff _ s t r (fun _ u => StaysInside abi u rest) stepped

theorem touches_below_iff_spares (abi : Abi) (op : CompletionOp) (s t : CompletionState) (r : Int × List UInt8)
    (ran : (op.call abi).run s = .done r t) :
    (∀ i, op.Touches s i → i < bufferSize) ↔ ∀ i, bufferSize ≤ i → op.Spares abi s i := by
  refine forall_congr' fun i => ?_
  rw [spared_iff abi op s t r i ran]
  constructor
  · exact fun inside past touched => absurd (inside touched) (Nat.not_lt.mpr past)
  · exact fun spares touched => Nat.not_le.mp fun past => spares past touched

theorem stays_inside_iff_spares (abi : Abi) (admits : Traffic → CompletionState → CompletionOp → Prop)
    (ops : List CompletionOp) (h h' : Traffic) (s s' : CompletionState) (ran : CompletionRun abi admits h s ops h' s') :
    StaysInside abi s ops ↔ SparesBeyond abi s ops := by
  induction ran with
  | nil h s => exact Iff.rfl
  | cons h s op rest r t h' s' _ stepped _ ih =>
      refine and_congr (touches_below_iff_spares abi op s t r stepped) ?_
      rw [Prog.run_forall_iff _ s t r (fun _ u => StaysInside abi u rest) stepped,
        Prog.run_forall_iff _ s t r (fun _ u => SparesBeyond abi u rest) stepped]
      exact ih

theorem copies_stay_inside_iff (abi : Abi) (beyond : Nat → UInt8) (ops : List CompletionOp) (h : Traffic)
    (s : CompletionState)
    (ran : CompletionRun abi (fun _ _ _ => True) noTraffic (completionLoaded beyond) ops h s) :
    (StaysInside abi (completionLoaded beyond) ops ↔ Follows Moved.next Moved.Admits ⟨0, 0⟩ ops) ∧
      (SparesBeyond abi (completionLoaded beyond) ops ↔ Follows Moved.next Moved.Admits ⟨0, 0⟩ ops) := by
  have inside := run_stays_inside_iff abi _ ops _ h _ s ⟨0, 0⟩ ran (loaded_placed beyond)
  exact ⟨inside, (stays_inside_iff_spares abi _ ops _ h _ s ran).symm.trans inside⟩

theorem small_copies_stay_inside :
    ∃ h s, CompletionRun .ilp32 (fun _ _ _ => True) noTraffic (completionLoaded fun _ => 0)
        [.write [65, 66] none, .read 128 none] h s ∧
      StaysInside .ilp32 (completionLoaded fun _ => 0) [.write [65, 66] none, .read 128 none] := by
  have ran : ∃ h s, CompletionRun .ilp32 (fun _ _ _ => True) noTraffic (completionLoaded fun _ => 0)
      [.write [65, 66] none, .read 128 none] h s :=
    ⟨_, _, .cons _ _ _ _ _ _ _ _ trivial rfl (.cons _ _ _ _ _ _ _ _ trivial rfl (.nil _ _))⟩
  obtain ⟨h, s, ran⟩ := ran
  refine ⟨h, s, ran, (copies_stay_inside_iff .ilp32 _ _ h s ran).1.mpr ?_⟩
  have first : (⟨0, 0⟩ : Moved).Admits (.write [65, 66] none) := by decide
  have second : (⟨2, 0⟩ : Moved).Admits (.read 128 none) := by decide
  exact ⟨first, second, trivial⟩

-- Each write fits an empty buffer; the second starts where the first ended.
def longMessage : List UInt8 := List.replicate 100 65

theorem second_write_overruns :
    ∃ h s, CompletionRun .ilp32 (fun _ _ _ => True) noTraffic (completionLoaded fun _ => 0)
        [.write longMessage none, .write longMessage none] h s ∧ s.buffer bufferSize = 65 ∧
      ¬ StaysInside .ilp32 (completionLoaded fun _ => 0) [.write longMessage none, .write longMessage none] := by
  have ran : ∃ h s, CompletionRun .ilp32 (fun _ _ _ => True) noTraffic (completionLoaded fun _ => 0)
      [.write longMessage none, .write longMessage none] h s ∧ s.buffer bufferSize = 65 :=
    ⟨_, _, .cons _ _ _ _ _ _ _ _ trivial rfl (.cons _ _ _ _ _ _ _ _ trivial rfl (.nil _ _)), rfl⟩
  obtain ⟨h, s, ran, foreign⟩ := ran
  refine ⟨h, s, ran, foreign, ?_⟩
  intro inside
  have fits := (run_stays_inside_iff .ilp32 _ _ _ h _ s ⟨0, 0⟩ ran (loaded_placed _)).mp inside
  have refused : ¬ (⟨100, 0⟩ : Moved).Admits (.write longMessage none) := by decide
  exact refused fits.2.1

end OneDriver.Completion
