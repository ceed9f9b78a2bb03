import OneDriver.Completion.Device
import OneDriver.Ring

set_option autoImplicit false

namespace OneDriver.Completion

inductive CompletionOp where
  | write (data : List UInt8) (fault : Option Nat)
  | read (count : Nat) (fault : Option Nat)
deriving DecidableEq, Repr

def CompletionOp.call (abi : Abi) : CompletionOp → CompletionProg (Int × List UInt8)
  | .write data fault => do
      let r ← completionWrite abi data fault
      pure (r, [])
  | .read count fault => completionRead abi count fault

-- The bytes of the writes and of the reads whose copy succeeded, in their order.
structure Traffic where
  written : List UInt8
  delivered : List UInt8
deriving DecidableEq, Repr

def noTraffic : Traffic := ⟨[], []⟩

def Traffic.next (h : Traffic) (bytes : List UInt8) : CompletionOp → Traffic
  | .write data fault => if copyFails data.length fault then h else { h with written := h.written ++ data }
  | .read count fault => if copyFails count fault then h else { h with delivered := h.delivered ++ bytes }

def Traffic.undelivered (h : Traffic) : List UInt8 := h.written.drop h.delivered.length

-- The calls of a run stand in the order in which they return: a read that finds
-- no token waits, and has its place after the write that released it.
inductive CompletionRun (abi : Abi) (admits : Traffic → CompletionState → CompletionOp → Prop) :
    Traffic → CompletionState → List CompletionOp → Traffic → CompletionState → Prop where
  | nil (h : Traffic) (s : CompletionState) : CompletionRun abi admits h s [] h s
  | cons (h : Traffic) (s : CompletionState) (op : CompletionOp) (rest : List CompletionOp) (r : Int × List UInt8)
      (t : CompletionState) (h' : Traffic) (s' : CompletionState) (admitted : admits h s op)
      (ran : (op.call abi).run s = .done r t) (follows : CompletionRun abi admits (h.next r.2 op) t rest h' s') :
      CompletionRun abi admits h s (op :: rest) h' s'

-- No copy crosses the end of the buffer, a write neither laps the reader nor
-- posts its token over an empty queue, and a read takes only what is there and
-- leaves something for the tokens that remain.
def Fitting (h : Traffic) (s : CompletionState) : CompletionOp → Prop
  | .write data fault =>
      s.writeIndex + data.length ≤ bufferSize ∧ h.undelivered.length + data.length ≤ bufferSize ∧
        (h.undelivered ≠ [] ∨ data ≠ [] ∧ copyFails data.length fault = false)
  | .read count fault =>
      s.readIndex + copied count fault ≤ bufferSize ∧ copied count fault ≤ h.undelivered.length ∧
        (copyFails count fault = true ∨ s.done = 1 ∨ count < h.undelivered.length)

instance (h : Traffic) (s : CompletionState) : (op : CompletionOp) → Decidable (Fitting h s op)
  | .write _ _ => inferInstanceAs (Decidable (_ ∧ _ ∧ _))
  | .read _ _ => inferInstanceAs (Decidable (_ ∧ _ ∧ _))

structure FifoInvariant (h : Traffic) (s : CompletionState) (queue : List UInt8) : Prop where
  ledger : h.written = h.delivered ++ queue
  ring : RingHolds bufferSize s.buffer s.readIndex queue
  within : s.readIndex < bufferSize
  behind : s.writeIndex = (s.readIndex + queue.length) % bufferSize
  token : 0 < s.done → queue ≠ []

theorem undelivered_eq (h : Traffic) (queue : List UInt8) (ledger : h.written = h.delivered ++ queue) :
    h.undelivered = queue := by
  simp [Traffic.undelivered, ledger]

theorem loaded_fifo (beyond : Nat → UInt8) : FifoInvariant noTraffic (completionLoaded beyond) [] where
  ledger := rfl
  ring := ring_empty _ _ _
  within := Nat.zero_lt_succ 127
  behind := rfl
  token := fun posted => absurd posted (Nat.lt_irrefl 0)

theorem write_keeps_fifo (abi : Abi) (data : List UInt8) (fault : Option Nat) (h : Traffic) (s t : CompletionState)
    (queue : List UInt8) (r : Int) (holds : FifoInvariant h s queue) (fitting : Fitting h s (.write data fault))
    (ran : (completionWrite abi data fault).run s = .done r t) :
    ∃ queue', FifoInvariant (h.next [] (.write data fault)) t queue' := by
  rw [run_completion_write] at ran
  cases ran
  obtain ⟨straight, room, kept⟩ := fitting
  rw [undelivered_eq h queue holds.ledger] at room kept
  have pushed := ring_push bufferSize s.buffer s.readIndex s.writeIndex queue (fetched data fault) holds.within
    holds.ring holds.behind (by simpa using straight) (by simpa using room)
  cases fails : copyFails data.length fault with
  | true =>
      refine ⟨queue, ?_⟩
      simp only [Traffic.next, fails, if_true]
      refine ⟨holds.ledger, ring_prefix _ _ _ _ _ pushed, holds.within, holds.behind, ?_⟩
      intro _
      simpa [fails] using kept
  | false =>
      refine ⟨queue ++ data, ?_⟩
      simp only [Traffic.next, fails, Bool.false_eq_true, if_false]
      rw [fetched_of_succeeds data fault fails] at pushed ⊢
      refine ⟨by simp [holds.ledger], pushed, holds.within, ?_, ?_⟩
      · simp [advance_eq, holds.behind, Nat.add_assoc]
      · intro _
        cases kept with
        | inl waiting => simp [waiting]
        | inr fresh => simp [fresh.1]

theorem read_delivers_queue (abi : Abi) (count : Nat) (fault : Option Nat) (h : Traffic) (s t : CompletionState)
    (queue : List UInt8) (r : Int × List UInt8) (holds : FifoInvariant h s queue)
    (fitting : Fitting h s (.read count fault)) (ran : (completionRead abi count fault).run s = .done r t) :
    r.2 = queue.take (copied count fault) := by
  rw [run_completion_read] at ran
  split at ran
  · cases ran
    obtain ⟨straight, stored, _⟩ := fitting
    rw [undelivered_eq h queue holds.ledger] at stored
    exact ring_peek bufferSize s.buffer s.readIndex _ queue holds.ring straight stored
  · cases ran

theorem read_keeps_fifo (abi : Abi) (count : Nat) (fault : Option Nat) (h : Traffic) (s t : CompletionState)
    (queue : List UInt8) (r : Int × List UInt8) (holds : FifoInvariant h s queue)
    (fitting : Fitting h s (.read count fault)) (ran : (completionRead abi count fault).run s = .done r t) :
    ∃ queue', FifoInvariant (h.next r.2 (.read count fault)) t queue' := by
  have delivers := read_delivers_queue abi count fault h s t queue r holds fitting ran
  rw [run_completion_read] at ran
  split at ran
  case isFalse => cases ran
  case isTrue posted =>
      cases ran
      obtain ⟨_, stored, kept⟩ := fitting
      rw [undelivered_eq h queue holds.ledger] at stored kept
      cases fails : copyFails count fault with
      | true =>
          refine ⟨queue, ?_⟩
          simp only [Traffic.next, fails, if_true]
          exact ⟨holds.ledger, holds.ring, holds.within, holds.behind, fun _ => holds.token posted⟩
      | false =>
          have whole := copied_of_succeeds count fault fails
          rw [whole] at stored
          refine ⟨queue.drop count, ?_⟩
          simp only [Traffic.next, fails, Bool.false_eq_true, if_false]
          refine ⟨?_, ?_, ?_, ?_, ?_⟩
          · dsimp only at delivers
            rw [delivers, whole, List.append_assoc, List.take_append_drop, holds.ledger]
          · rw [advance_eq]
            exact ring_pop bufferSize s.buffer s.readIndex count queue holds.ring
          · rw [advance_eq]
            exact Nat.mod_lt _ (by decide)
          · rw [advance_eq, holds.behind, Nat.mod_add_mod, List.length_drop]
            congr 1
            omega
          · intro left
            have short : count < queue.length := by
              simp only [fails, Bool.false_eq_true, false_or] at kept
              dsimp only at left
              omega
            simp [short]

theorem fifo_step (abi : Abi) (op : CompletionOp) (h : Traffic) (s t : CompletionState) (queue : List UInt8)
    (r : Int × List UInt8) (holds : FifoInvariant h s queue) (fitting : Fitting h s op)
    (ran : (op.call abi).run s = .done r t) : ∃ queue', FifoInvariant (h.next r.2 op) t queue' := by
  cases op with
  | read count fault => exact read_keeps_fifo abi count fault h s t queue r holds fitting ran
  | write data fault =>
      simp only [CompletionOp.call, Prog.run_bind, run_completion_write, outcome_bind_done, Prog.run_pure] at ran
      cases ran
      exact write_keeps_fifo abi data fault h s _ queue _ holds fitting (run_completion_write abi data fault s)

theorem fifo_run (abi : Abi) (ops : List CompletionOp) (h h' : Traffic) (s s' : CompletionState) (queue : List UInt8)
    (ran : CompletionRun abi Fitting h s ops h' s') (holds : FifoInvariant h s queue) :
    ∃ queue', FifoInvariant h' s' queue' := by
  induction ran generalizing queue with
  | nil h s => exact ⟨queue, holds⟩
  | cons h s op rest r t h' s' fitting stepped _ ih =>
      obtain ⟨queue', kept⟩ := fifo_step abi op h s t queue r holds fitting stepped
      exact ih queue' kept

theorem completion_is_fifo (abi : Abi) (beyond : Nat → UInt8) (ops : List CompletionOp) (h : Traffic)
    (s : CompletionState) (ran : CompletionRun abi Fitting noTraffic (completionLoaded beyond) ops h s) :
    h.delivered <+: h.written ∧ h.delivered.length ≤ h.written.length ∧
      (0 < s.done → h.delivered.length < h.written.length) ∧
      ∀ count fault r t, Fitting h s (.read count fault) → (completionRead abi count fault).run s = .done r t →
        r.2 <+: h.undelivered := by
  obtain ⟨queue, holds⟩ := fifo_run abi ops _ h _ s [] ran (loaded_fifo beyond)
  have ledger := holds.ledger
  refine ⟨⟨queue, ledger.symm⟩, by simp [ledger], ?_, ?_⟩
  · intro posted
    have waiting := List.length_pos_iff.mpr (holds.token posted)
    simp only [ledger, List.length_append]
    omega
  · intro count fault r t fitting read
    rw [read_delivers_queue abi count fault h s t queue r holds fitting read, undelivered_eq h queue ledger]
    exact List.take_prefix _ _

theorem completion_is_fifo_in_a_run :
    ∃ s, CompletionRun .ilp32 Fitting noTraffic (completionLoaded fun _ => 0)
        [.write [65, 66] none, .read 1 none] ⟨[65, 66], [65]⟩ s ∧ [65] <+: ([65, 66] : List UInt8) := by
  have ran : ∃ s, CompletionRun .ilp32 Fitting noTraffic (completionLoaded fun _ => 0)
      [.write [65, 66] none, .read 1 none] ⟨[65, 66], [65]⟩ s :=
    ⟨_, .cons _ _ _ _ _ _ _ _ (by decide) rfl (.cons _ _ _ _ _ _ _ _ (by decide) rfl (.nil _ _))⟩
  obtain ⟨s, ran⟩ := ran
  exact ⟨s, ran, (completion_is_fifo .ilp32 _ _ _ s ran).1⟩

-- complete() is reached whether or not the copy succeeded.
theorem failed_write_releases_reader :
    ∃ h s, CompletionRun .ilp32 (fun _ _ _ => True) noTraffic (completionLoaded fun _ => 0)
        [.write [65] (some 0), .read 1 none] h s ∧ h.written = [] ∧ h.delivered = [0] ∧
      ¬ h.delivered <+: h.written :=
  ⟨_, _, .cons _ _ _ _ _ _ _ _ trivial rfl (.cons _ _ _ _ _ _ _ _ trivial rfl (.nil _ _)), rfl, rfl, by decide⟩

end OneDriver.Completion
