import OneDriver.Tokens
import OneDriver.Completion.Fifo

set_option autoImplicit false

namespace OneDriver.Completion

-- A process that only reads or only writes: each read with its count, each write
-- with its message, and how far the copy gets before it faults.
inductive Worker where
  | reader (asks : List (Nat × Option Nat))
  | writer (messages : List (List UInt8 × Option Nat))
deriving DecidableEq, Repr

def Worker.calls : Worker → List CompletionOp
  | .reader asks => asks.map fun ask => .read ask.1 ask.2
  | .writer messages => messages.map fun message => .write message.1 message.2

def Worker.reads : Worker → Nat
  | .reader asks => asks.length
  | .writer _ => 0

def Worker.writes : Worker → Nat
  | .reader _ => 0
  | .writer messages => messages.length

def Worker.prog (abi : Abi) (worker : Worker) : CompletionProg (List (Int × List UInt8)) :=
  Prog.series (CompletionOp.call abi) worker.calls

abbrev WorkersPool := Pool CompletionLabel CompletionState Empty (List (Int × List UInt8))

def working (abi : Abi) (s : CompletionState) (workers : List Worker) : WorkersPool :=
  Pool.start s (workers.map (Worker.prog abi))

def allReads (workers : List Worker) : Nat := (workers.map Worker.reads).sum

def allWrites (workers : List Worker) : Nat := (workers.map Worker.writes).sum

def tokens : CompletionLabel → Trade
  | .complete => .gives
  | .waitForCompletion => .takes
  | _ => .neither

-- comp.done is an unsigned int.
def mostDone : Nat := 2 ^ 32 - 1

abbrev Posts {α : Type} (p : CompletionProg α) (gives takes : Nat) : Prop :=
  p.Trades tokens CompletionState.done mostDone gives takes

theorem complete_gives : Posts complete 1 0 := by
  intro s
  refine ⟨0, rfl, rfl, fun room => ?_, rfl, rfl⟩
  exact Nat.mod_eq_of_lt (Nat.add_lt_of_lt_sub room)

theorem wait_takes : Posts waitForCompletion 0 1 := by
  intro s
  exact ⟨0, rfl, decide_eq_true_iff, fun held => ⟨Nat.sub_add_cancel held, rfl, rfl⟩⟩

theorem advance_write_neither (failed : Bool) (count : Nat) : Posts (advanceWrite failed count) 0 0 := by
  cases failed with
  | true => exact ⟨rfl, rfl⟩
  | false => exact Prog.trades_modify tokens _ mostDone .writeIndex _ rfl fun _ => rfl

theorem advance_read_neither (failed : Bool) (count : Nat) : Posts (advanceRead failed count) 0 0 := by
  cases failed with
  | true => exact ⟨rfl, rfl⟩
  | false => exact Prog.trades_modify tokens _ mostDone .readIndex _ rfl fun _ => rfl

theorem completion_write_posts (abi : Abi) (data : List UInt8) (fault : Option Nat) :
    Posts (completionWrite abi data fault) 1 0 := by
  have copy : Posts (Prog.modify .copyFromUser (storeMessage data fault)) 0 0 :=
    Prog.trades_modify tokens _ mostDone .copyFromUser _ rfl fun _ => rfl
  apply Prog.trades_bind tokens _ mostDone _ _ 0 0 1 0 copy
  intro _
  apply Prog.trades_bind tokens _ mostDone _ _ 0 0 1 0 (advance_write_neither _ _)
  intro _
  exact Prog.trades_bind tokens _ mostDone _ _ 1 0 0 0 complete_gives fun _ => ⟨rfl, rfl⟩

theorem completion_read_waits (abi : Abi) (count : Nat) (fault : Option Nat) :
    Posts (completionRead abi count fault) 0 1 := by
  apply Prog.trades_bind tokens _ mostDone _ _ 0 1 0 0 wait_takes
  intro _
  apply Prog.trades_bind tokens _ mostDone _ _ 0 0 0 0 (Prog.trades_look tokens _ mostDone .copyToUser _ rfl)
  intro _
  exact Prog.trades_bind tokens _ mostDone _ _ 0 0 0 0 (advance_read_neither _ _) fun _ => ⟨rfl, rfl⟩

theorem worker_posts (abi : Abi) (worker : Worker) : Posts (worker.prog abi) worker.writes worker.reads := by
  cases worker with
  | reader asks =>
      have each : ∀ op ∈ (Worker.reader asks).calls, Posts (op.call abi) 0 1 := by
        intro op listed
        obtain ⟨ask, -, rfl⟩ := List.mem_map.mp listed
        exact completion_read_waits abi ask.1 ask.2
      have posts := Prog.trades_series tokens _ mostDone _ 0 1 _ each
      rwa [Worker.calls, List.length_map, Nat.mul_zero, Nat.mul_one] at posts
  | writer messages =>
      have each : ∀ op ∈ (Worker.writer messages).calls, Posts (op.call abi) 1 0 := by
        intro op listed
        obtain ⟨message, -, rfl⟩ := List.mem_map.mp listed
        exact Prog.trades_bind tokens _ mostDone _ _ 1 0 0 0 (completion_write_posts abi message.1 message.2)
          fun _ => ⟨rfl, rfl⟩
      have posts := Prog.trades_series tokens _ mostDone _ 1 0 _ each
      rwa [Worker.calls, List.length_map, Nat.mul_zero, Nat.mul_one] at posts

def owed (workers : List Worker) : List (Nat × Nat) := workers.map fun worker => (worker.writes, worker.reads)

theorem owed_sum (workers : List Worker) : (owed workers).sum = (allWrites workers, allReads workers) := by
  induction workers with
  | nil => rfl
  | cons worker rest ih =>
      rw [owed, List.map_cons, List.sum_cons]
      rw [owed] at ih
      rw [ih]
      rfl

theorem working_traded (abi : Abi) (s : CompletionState) (workers : List Worker)
    (room : s.done + allWrites workers < 2 ^ 32) :
    (working abi s workers).Traded tokens CompletionState.done mostDone
      (s.done + allWrites workers - allReads workers) (owed workers) where
  sized := by simp [owed, working, Pool.start]
  each := by
    intro i thread o found listed
    rw [owed, List.getElem?_map] at listed
    obtain ⟨worker, there, rfl⟩ := Option.map_eq_some_iff.mp listed
    simp only [working, Pool.start, List.getElem?_map, there, Option.map_some, Option.some.injEq] at found
    subst found
    exact worker_posts abi worker
  sides := by
    intro o listed
    obtain ⟨worker, -, rfl⟩ := List.mem_map.mp listed
    cases worker with
    | reader asks => exact .inl rfl
    | writer messages => exact .inr rfl
  room := by
    rw [owed_sum]
    exact Nat.le_sub_one_of_lt room
  balance := by
    rw [owed_sum]
    simp only [working, Pool.start]
    omega

-- The test program: the child writes the message with its terminator, the parent reads 27 bytes.
def writeBuf : List UInt8 := ("work hard with a good luck".toList ++ ['\u0000']).map fun c => c.toNat.toUInt8

def appWorkers : List Worker := [.writer [(writeBuf, none)], .reader [(27, none)]]

-- No wakeup is lost and none is made up, in whatever order the processes take their
-- steps: every read gets through just when there are as many writes as reads, and a
-- read that never gets through has found every write spent on another.
theorem wakeups_balanced (abi : Abi) (s : CompletionState) (workers : List Worker)
    (room : s.done + allWrites workers < 2 ^ 32) (schedule : List Nat) (last : WorkersPool)
    (ran : (working abi s workers).exec schedule = some last) :
    last.shared.done + ((working abi s workers).tally tokens schedule).2 =
        s.done + ((working abi s workers).tally tokens schedule).1 ∧
      ((∃ rest final, last.exec rest = some final ∧ final.finished = true) ↔
        allReads workers ≤ s.done + allWrites workers) ∧
      (last.finished = true → last.shared.done + allReads workers = s.done + allWrites workers) ∧
      ((∀ i, last.step i = none) → last.finished = false → last.shared.done = 0 ∧
        ((working abi s workers).tally tokens schedule).1 = allWrites workers ∧
        ((working abi s workers).tally tokens schedule).2 = s.done + allWrites workers ∧
        s.done + allWrites workers < allReads workers) := by
  have traded := working_traded abi s workers room
  have conserved := Pool.traded_conserves tokens _ mostDone _ _ last schedule _ traded ran
  obtain ⟨left, final, total⟩ := Pool.traded_run tokens _ mostDone _ _ last schedule _ traded ran
  rw [owed_sum] at total
  have gives := congrArg Prod.fst total
  have takes := congrArg Prod.snd total
  rw [Prod.fst_add] at gives
  rw [Prod.snd_add] at takes
  refine ⟨conserved, ?_, fun finished => ?_, fun stuck unfinished => ?_⟩
  · rw [Pool.traded_finishes_iff tokens _ mostDone _ last left final]
    omega
  · have none_left := Pool.traded_finished tokens _ mostDone _ last left final finished
    have balance := final.balance
    rw [none_left] at balance
    simp only [Prod.fst_zero, Prod.snd_zero] at balance
    omega
  · obtain ⟨empty, given, wants, short⟩ := Pool.traded_stuck tokens _ mostDone _ last left final stuck unfinished
    refine ⟨empty, ?_, ?_, ?_⟩
    all_goals omega

theorem app_reader_released :
    ∃ last, (working .ilp32 (completionLoaded fun _ => 0) appWorkers).exec [0, 0, 0, 1, 1] = some last ∧
      last.shared.done = 0 ∧ ∃ rest final, last.exec rest = some final ∧ final.finished = true := by
  obtain ⟨last, ran⟩ : ∃ last, (working .ilp32 (completionLoaded fun _ => 0) appWorkers).exec [0, 0, 0, 1, 1] =
      some last := ⟨_, rfl⟩
  have balanced := wakeups_balanced .ilp32 (completionLoaded fun _ => 0) appWorkers (by decide) _ last ran
  have spent : last.shared.done + 1 = 0 + 1 := balanced.1
  exact ⟨last, ran, Nat.add_right_cancel spent, balanced.2.1.mpr (by decide)⟩

end OneDriver.Completion
