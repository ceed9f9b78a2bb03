import OneDriver.Rely
import OneDriver.Completion.Device
import Mathlib.Algebra.Order.BigOperators.Group.List
import Mathlib.Algebra.Order.Ring.Nat
import Mathlib.Data.List.FinRange

set_option autoImplicit false

namespace OneDriver.Completion

structure Writer where
  data : List UInt8
  fault : Option Nat
deriving DecidableEq, Repr

def Writer.count (writer : Writer) : Nat := writer.data.length

def Writer.succeeds (writer : Writer) : Bool := !copyFails writer.count writer.fault

def Writer.prog (abi : Abi) (writer : Writer) : CompletionProg Int := completionWrite abi writer.data writer.fault

abbrev WritersPool := Pool CompletionLabel CompletionState Empty Int

def writing (abi : Abi) (s : CompletionState) (writers : List Writer) : WritersPool :=
  Pool.start s (writers.map (Writer.prog abi))

-- A writer whose copy succeeded goes on to write_index.
def between (thread : Thread CompletionLabel CompletionState Empty Int) : Bool :=
  thread.upcoming = some .writeIndex

-- No copy is made between another writer's successful copy and its advance.
def CopiesAlone (pool : WritersPool) (i : Nat) : Prop :=
  pool.threads[i]?.bind Thread.upcoming = some .copyFromUser → ∀ other ∈ pool.threads, between other = false

instance (pool : WritersPool) (i : Nat) : Decidable (CopiesAlone pool i) := inferInstanceAs (Decidable (_ → _))

-- The writers whose copies succeeded, in order, each with the index it copied to.
def placements (pool : WritersPool) : List Nat → List (Nat × Nat)
  | [] => []
  | i :: rest =>
      match pool.step i with
      | none => []
      | some next =>
          if (next.threads[i]?.map between).getD false then (i, pool.shared.writeIndex) :: placements next rest
          else placements next rest

def countAt (writers : List Writer) (i : Nat) : Nat := ((writers[i]?).map Writer.count).getD 0

def Apart (writers : List Writer) (a b : Nat × Nat) : Prop :=
  ∀ x, a.2 ≤ x ∧ x < a.2 + countAt writers a.1 → ¬ (b.2 ≤ x ∧ x < b.2 + countAt writers b.1)

def finishing (abi : Abi) (writer : Writer) : CompletionProg Int := do
  complete
  pure (abi.long writer.count)

def advancing (abi : Abi) (writer : Writer) : CompletionProg Int :=
  .act .writeIndex (fun _ => true) (fun s => { s with writeIndex := advance s.writeIndex writer.count })
    fun _ => finishing abi writer

inductive Stage where
  | before | copied | after | done
deriving DecidableEq, Repr

def Stage.prog (abi : Abi) (writer : Writer) : Stage → CompletionProg Int
  | .before => writer.prog abi
  | .copied => advancing abi writer
  | .after => finishing abi writer
  | .done => pure (abi.long writer.count)

def afterCopy (writer : Writer) : Stage := if writer.succeeds then .copied else .after

theorem write_prog (abi : Abi) (writer : Writer) :
    writer.prog abi = .act .copyFromUser (fun _ => true) (storeMessage writer.data writer.fault)
      fun _ => (afterCopy writer).prog abi writer := by
  have rest : (advanceWrite (copyFails writer.data.length writer.fault) writer.data.length >>= fun _ =>
      complete >>= fun _ => pure (abi.long writer.data.length)) = (afterCopy writer).prog abi writer := by
    cases failed : copyFails writer.data.length writer.fault <;>
      simp [afterCopy, Writer.succeeds, Writer.count, failed, advanceWrite, Stage.prog, finishing] <;> rfl
  rw [← rest]
  rfl

def sumOf (writers : List Writer) (entries : List (Nat × Nat)) : Nat := (entries.map fun e => countAt writers e.1).sum

-- A run so far: where each writer is, and what `log` says of the buffer.
structure WritersInvariant (abi : Abi) (writers : List Writer) (s : CompletionState) (stage : Nat → Stage)
    (pool : WritersPool) (log : List (Nat × Nat)) : Prop where
  sized : pool.threads.length = writers.length
  absent : ∀ i, writers.length ≤ i → stage i = .before
  placed : ∀ (i : Nat) (writer : Writer) (thread : Thread CompletionLabel CompletionState Empty Int),
    writers[i]? = some writer → pool.threads[i]? = some thread → thread.prog = (stage i).prog abi writer
  listed : ∀ i, i ∈ log.map Prod.fst ↔ ∃ writer, writers[i]? = some writer ∧ writer.succeeds = true ∧ stage i ≠ .before
  nodup : (log.map Prod.fst).Nodup
  single : ∀ i j, stage i = .copied → stage j = .copied → i = j
  index : (∀ i, stage i ≠ .copied) → pool.shared.writeIndex = (s.writeIndex + sumOf writers log) % bufferSize
  owed : ∀ i, stage i = .copied → advance pool.shared.writeIndex (countAt writers i) =
    (s.writeIndex + sumOf writers log) % bufferSize
  apart : log.Pairwise (Apart writers)
  within : ∀ e ∈ log, countAt writers e.1 ≠ 0 →
    s.writeIndex ≤ e.2 ∧ e.2 + countAt writers e.1 ≤ s.writeIndex + sumOf writers log
  stored : ∀ e ∈ log, ∀ writer, writers[e.1]? = some writer →
    slice pool.shared.buffer e.2 writer.count = writer.data
  below : ∀ x, x < s.writeIndex → pool.shared.buffer x = s.buffer x

theorem count_at (writers : List Writer) (i : Nat) (writer : Writer) (member : writers[i]? = some writer) :
    countAt writers i = writer.count := by
  simp [countAt, member]

theorem counts_of_range (writers : List Writer) :
    (List.range writers.length).map (countAt writers) = writers.map Writer.count := by
  apply List.ext_getElem
  · simp
  · intro j inside _
    have short : j < writers.length := by simpa using inside
    simp [countAt, short]

theorem counts_le (writers : List Writer) (entries : List Nat) (nodup : entries.Nodup)
    (inside : ∀ i ∈ entries, i < writers.length) :
    (entries.map (countAt writers)).sum ≤ (writers.map Writer.count).sum := by
  obtain ⟨same, perm, sub⟩ := List.subperm_of_subset nodup fun i member => List.mem_range.mpr (inside i member)
  rw [← counts_of_range, ← (perm.map (countAt writers)).sum_eq]
  exact (sub.map (countAt writers)).sum_le_sum fun _ _ => Nat.zero_le _

theorem between_iff (abi : Abi) (writer : Writer) (stage : Stage)
    (thread : Thread CompletionLabel CompletionState Empty Int) (placed : thread.prog = stage.prog abi writer) :
    between thread = true ↔ stage = .copied := by
  cases stage with
  | before =>
      have copies := placed.trans (write_prog abi writer)
      simp [between, Thread.upcoming, copies]
  | copied => simp [between, Thread.upcoming, placed, Stage.prog, advancing]
  | after => simp [between, Thread.upcoming, placed, Stage.prog, finishing, complete, Prog.modify, bind, Prog.bind]
  | done => simp [between, Thread.upcoming, placed, Stage.prog, pure]

section Step

variable (abi : Abi) (writers : List Writer) (s : CompletionState) (stage : Nat → Stage) (pool next : WritersPool)
  (log : List (Nat × Nat)) (i : Nat) (writer : Writer)

theorem placed_next (to' : Stage) (thread : Thread CompletionLabel CompletionState Empty Int)
    (holds : WritersInvariant abi writers s stage pool log) (member : writers[i]? = some writer)
    (moved : next.threads[i]? = some thread) (prog : thread.prog = to'.prog abi writer)
    (others : ∀ j, j ≠ i → next.threads[j]? = pool.threads[j]?) (j : Nat) (other : Writer)
    (moving : Thread CompletionLabel CompletionState Empty Int) (listed : writers[j]? = some other)
    (found : next.threads[j]? = some moving) : moving.prog = (Function.update stage i to' j).prog abi other := by
  by_cases same : j = i
  · subst same
    rw [moved] at found
    rw [member] at listed
    obtain rfl := Option.some.inj found
    obtain rfl := Option.some.inj listed
    rw [Function.update_self, prog]
  · rw [Function.update_of_ne same]
    exact holds.placed j other moving listed (others j same ▸ found)

theorem absent_next (to' : Stage) (holds : WritersInvariant abi writers s stage pool log)
    (member : writers[i]? = some writer) (j : Nat) (outside : writers.length ≤ j) :
    Function.update stage i to' j = .before := by
  have other : j ≠ i := by
    rintro rfl
    exact absurd (List.getElem?_eq_some_iff.mp member).1 (Nat.not_lt.mpr outside)
  rw [Function.update_of_ne other]
  exact holds.absent j outside

theorem not_logged (holds : WritersInvariant abi writers s stage pool log) (here : stage i = .before) :
    i ∉ log.map Prod.fst := by
  intro listed
  obtain ⟨-, -, -, past⟩ := (holds.listed i).mp listed
  exact past here

-- Where the buffer ends for a writer that has not copied yet.
theorem copy_has_room (holds : WritersInvariant abi writers s stage pool log) (member : writers[i]? = some writer)
    (fits : s.writeIndex + (writers.map Writer.count).sum ≤ bufferSize) (here : stage i = .before) :
    s.writeIndex + sumOf writers log + writer.count ≤ bufferSize := by
  have fresh := not_logged abi writers s stage pool log i holds here
  have inside : ∀ j ∈ i :: log.map Prod.fst, j < writers.length := by
    intro j listed
    rcases List.mem_cons.mp listed with rfl | listed
    · exact (List.getElem?_eq_some_iff.mp member).1
    · obtain ⟨other, found, -⟩ := (holds.listed j).mp listed
      exact (List.getElem?_eq_some_iff.mp found).1
  have total := counts_le writers (i :: log.map Prod.fst) (List.nodup_cons.mpr ⟨fresh, holds.nodup⟩) inside
  have same : ((log.map Prod.fst).map (countAt writers)).sum = sumOf writers log := by
    rw [List.map_map]
    rfl
  rw [List.map_cons, List.sum_cons, same, count_at writers i writer member] at total
  omega

-- The copy of a lone writer stays clear of every byte below the end.
theorem copy_clear (last : Nat) (buffer : Nat → UInt8) (data : List UInt8) (room : last + data.length ≤ bufferSize)
    (x : Nat) (before : x < last) : overlay buffer (last % bufferSize) data x = buffer x := by
  by_cases empty : data.length = 0
  · rw [List.eq_nil_of_length_eq_zero empty]
    simp [overlay]
  · have straight : last % bufferSize = last := Nat.mod_eq_of_lt (by omega)
    rw [straight]
    exact overlay_outside buffer last data x (.inl before)

-- A step past the copy leaves the buffer, and what `log` says of it, alone.
theorem log_stays (to' : Stage) (thread : Thread CompletionLabel CompletionState Empty Int)
    (holds : WritersInvariant abi writers s stage pool log) (member : writers[i]? = some writer)
    (past : stage i ≠ .before) (later : to' ≠ .before) (last : to' ≠ .copied)
    (takes : next.threads[i]? = some thread) (prog : thread.prog = to'.prog abi writer)
    (others : ∀ j, j ≠ i → next.threads[j]? = pool.threads[j]?)
    (length : next.threads.length = pool.threads.length) (buffer : next.shared.buffer = pool.shared.buffer)
    (index : (∀ j, j ≠ i → stage j ≠ .copied) →
      next.shared.writeIndex = (s.writeIndex + sumOf writers log) % bufferSize)
    (owed : ∀ j, j ≠ i → stage j = .copied → next.shared.writeIndex = pool.shared.writeIndex) :
    WritersInvariant abi writers s (Function.update stage i to') next log := by
  have kept : ∀ j, Function.update stage i to' j = .copied → j ≠ i ∧ stage j = .copied := by
    intro j copied
    by_cases same : j = i
    · rw [same, Function.update_self] at copied
      exact absurd copied last
    · exact ⟨same, by rwa [Function.update_of_ne same] at copied⟩
  refine ⟨length.trans holds.sized, ?_, ?_, ?_, holds.nodup, ?_, ?_, ?_, holds.apart, holds.within, ?_, ?_⟩
  · exact absent_next abi writers s stage pool log i writer to' holds member
  · exact placed_next abi writers s stage pool next log i writer to' thread holds member takes prog others
  · intro j
    rw [holds.listed j]
    by_cases same : j = i
    · rw [same, Function.update_self]
      simp [past, later]
    · rw [Function.update_of_ne same]
  · intro j k first second
    exact holds.single j k (kept j first).2 (kept k second).2
  · intro none
    refine index fun j other copied => none j ?_
    rwa [Function.update_of_ne other]
  · intro j copied
    rw [owed j (kept j copied).1 (kept j copied).2]
    exact holds.owed j (kept j copied).2
  · rw [buffer]
    exact holds.stored
  · rw [buffer]
    exact holds.below

theorem advance_step (thread : Thread CompletionLabel CompletionState Empty Int)
    (holds : WritersInvariant abi writers s stage pool log) (member : writers[i]? = some writer)
    (here : stage i = .copied) (found : next.threads[i]? = some thread)
    (prog : thread.prog = finishing abi writer) (others : ∀ j, j ≠ i → next.threads[j]? = pool.threads[j]?)
    (length : next.threads.length = pool.threads.length)
    (shared : next.shared = { pool.shared with writeIndex := advance pool.shared.writeIndex writer.count }) :
    WritersInvariant abi writers s (Function.update stage i .after) next log := by
  have end_reached := holds.owed i here
  rw [count_at writers i writer member] at end_reached
  apply log_stays abi writers s stage pool next log i writer .after thread holds member (by simp [here]) (by decide)
    (by decide) found prog others length
  · rw [shared]
  · intro _
    rw [shared]
    exact end_reached
  · intro j other copied
    exact absurd (holds.single j i copied here) other

theorem complete_step (thread : Thread CompletionLabel CompletionState Empty Int)
    (holds : WritersInvariant abi writers s stage pool log) (member : writers[i]? = some writer)
    (here : stage i = .after) (found : next.threads[i]? = some thread)
    (prog : thread.prog = pure (abi.long writer.count))
    (others : ∀ j, j ≠ i → next.threads[j]? = pool.threads[j]?)
    (length : next.threads.length = pool.threads.length)
    (shared : next.shared = { pool.shared with done := uint32 (pool.shared.done + 1) }) :
    WritersInvariant abi writers s (Function.update stage i .done) next log := by
  apply log_stays abi writers s stage pool next log i writer .done thread holds member (by simp [here]) (by decide)
    (by decide) found prog others length
  · rw [shared]
  · intro none
    rw [shared]
    refine holds.index fun j => ?_
    by_cases same : j = i
    · simp [same, here]
    · exact none j same
  · intro j _ _
    rw [shared]

section Copy

variable (holds : WritersInvariant abi writers s stage pool log) (member : writers[i]? = some writer)
  (fits : s.writeIndex + (writers.map Writer.count).sum ≤ bufferSize) (here : stage i = .before)
  (alone : ∀ j, stage j ≠ .copied)

include holds member fits here alone

theorem placed_apart (e : Nat × Nat) (listed : e ∈ log) : Apart writers e (i, pool.shared.writeIndex) := by
  have room := copy_has_room abi writers s stage pool log i writer holds member fits here
  rw [holds.index alone]
  intro x old new
  have within := holds.within e listed (by omega)
  rw [count_at writers i writer member] at new
  have straight : (s.writeIndex + sumOf writers log) % bufferSize = s.writeIndex + sumOf writers log :=
    Nat.mod_eq_of_lt (by omega)
  omega

theorem copy_within (e : Nat × Nat) (listed : e ∈ log ++ [(i, pool.shared.writeIndex)]) (nonempty : countAt writers e.1 ≠ 0) :
    s.writeIndex ≤ e.2 ∧ e.2 + countAt writers e.1 ≤ s.writeIndex + (sumOf writers log + writer.count) := by
  have size := count_at writers i writer member
  have room := copy_has_room abi writers s stage pool log i writer holds member fits here
  rcases List.mem_append.mp listed with old | last
  · have within := holds.within e old nonempty
    omega
  · obtain rfl := List.mem_singleton.mp last
    simp only [size] at nonempty ⊢
    rw [holds.index alone]
    have straight : (s.writeIndex + sumOf writers log) % bufferSize = s.writeIndex + sumOf writers log :=
      Nat.mod_eq_of_lt (by omega)
    omega

variable (shared : next.shared = storeMessage writer.data writer.fault pool.shared)

include shared

theorem copy_keeps_below (x : Nat) (before : x < s.writeIndex + sumOf writers log) :
    next.shared.buffer x = pool.shared.buffer x := by
  have room := copy_has_room abi writers s stage pool log i writer holds member fits here
  rw [shared]
  simp only [storeMessage, holds.index alone]
  apply copy_clear _ _ _ _ x before
  rwa [fetched_length]

theorem copy_keeps_stored (e : Nat × Nat) (listed : e ∈ log) (other : Writer) (found : writers[e.1]? = some other) :
    slice next.shared.buffer e.2 other.count = other.data := by
  rw [← holds.stored e listed other found]
  apply slice_congr
  intro j inside
  have size := count_at writers e.1 other found
  have within := holds.within e listed (by omega)
  exact copy_keeps_below abi writers s stage pool next log i writer holds member fits here alone shared _ (by omega)

theorem copy_stored (copies : writer.succeeds = true) (e : Nat × Nat)
    (listed : e ∈ log ++ [(i, pool.shared.writeIndex)]) (other : Writer) (named : writers[e.1]? = some other) :
    slice next.shared.buffer e.2 other.count = other.data := by
  rcases List.mem_append.mp listed with old | last
  · exact copy_keeps_stored abi writers s stage pool next log i writer holds member fits here alone shared e old other
      named
  · obtain rfl := List.mem_singleton.mp last
    obtain rfl := Option.some.inj (member.symm.trans named)
    have fetches : fetched writer.data writer.fault = writer.data := by
      apply fetched_of_succeeds
      simpa [Writer.succeeds, Writer.count] using copies
    rw [shared]
    simp only [storeMessage, fetches, Writer.count]
    rw [slice_overlay_same _ _ _ _ (Nat.le_refl _), List.take_length]

end Copy

theorem sum_of_append (entries : List (Nat × Nat)) (e : Nat × Nat) :
    sumOf writers (entries ++ [e]) = sumOf writers entries + countAt writers e.1 := by
  simp [sumOf]

theorem failed_copy_step (thread : Thread CompletionLabel CompletionState Empty Int)
    (holds : WritersInvariant abi writers s stage pool log) (member : writers[i]? = some writer)
    (fits : s.writeIndex + (writers.map Writer.count).sum ≤ bufferSize) (here : stage i = .before)
    (alone : ∀ j, stage j ≠ .copied) (fails : writer.succeeds = false) (found : next.threads[i]? = some thread)
    (prog : thread.prog = finishing abi writer) (others : ∀ j, j ≠ i → next.threads[j]? = pool.threads[j]?)
    (length : next.threads.length = pool.threads.length)
    (shared : next.shared = storeMessage writer.data writer.fault pool.shared) :
    WritersInvariant abi writers s (Function.update stage i .after) next log := by
  have none : ∀ j, Function.update stage i .after j ≠ .copied := by
    intro j
    by_cases same : j = i
    · simp [same]
    · rw [Function.update_of_ne same]
      exact alone j
  refine ⟨length.trans holds.sized, ?_, ?_, ?_, holds.nodup, ?_, ?_, ?_, holds.apart, holds.within, ?_, ?_⟩
  · exact absent_next abi writers s stage pool log i writer .after holds member
  · exact placed_next abi writers s stage pool next log i writer .after thread holds member found prog others
  · intro j
    rw [holds.listed j]
    by_cases same : j = i
    · simp [same, here, member, fails]
    · rw [Function.update_of_ne same]
  · intro j k first
    exact absurd first (none j)
  · intro _
    rw [shared]
    exact holds.index alone
  · intro j copied
    exact absurd copied (none j)
  · exact copy_keeps_stored abi writers s stage pool next log i writer holds member fits here alone shared
  · intro x before
    rw [copy_keeps_below abi writers s stage pool next log i writer holds member fits here alone shared x (by omega)]
    exact holds.below x before

theorem good_copy_step (thread : Thread CompletionLabel CompletionState Empty Int)
    (holds : WritersInvariant abi writers s stage pool log) (member : writers[i]? = some writer)
    (fits : s.writeIndex + (writers.map Writer.count).sum ≤ bufferSize) (here : stage i = .before)
    (alone : ∀ j, stage j ≠ .copied) (copies : writer.succeeds = true) (found : next.threads[i]? = some thread)
    (prog : thread.prog = advancing abi writer) (others : ∀ j, j ≠ i → next.threads[j]? = pool.threads[j]?)
    (length : next.threads.length = pool.threads.length)
    (shared : next.shared = storeMessage writer.data writer.fault pool.shared) :
    WritersInvariant abi writers s (Function.update stage i .copied) next (log ++ [(i, pool.shared.writeIndex)]) := by
  have size := count_at writers i writer member
  have only : ∀ j, Function.update stage i .copied j = .copied → j = i := by
    intro j copied
    by_contra other
    rw [Function.update_of_ne other] at copied
    exact alone j copied
  refine ⟨length.trans holds.sized, ?_, ?_, ?_, ?_, ?_, ?_, ?_, ?_, ?_, ?_, ?_⟩
  · exact absent_next abi writers s stage pool log i writer .copied holds member
  · exact placed_next abi writers s stage pool next log i writer .copied thread holds member found prog others
  · intro j
    rw [List.map_append, List.mem_append, holds.listed j]
    by_cases same : j = i
    · simp [same, member, copies]
    · simp [same]
  · rw [List.map_append, List.map_singleton, List.nodup_append]
    refine ⟨holds.nodup, List.pairwise_singleton _ _, ?_⟩
    intro j listed k one same
    rw [same, List.mem_singleton.mp one] at listed
    exact not_logged abi writers s stage pool log i holds here listed
  · intro j k first second
    exact (only j first).trans (only k second).symm
  · intro none
    exact absurd (Function.update_self i Stage.copied stage) (none i)
  · intro j copied
    rw [only j copied, sum_of_append, size, shared, advance_eq]
    simp only [storeMessage]
    rw [holds.index alone, Nat.mod_add_mod, Nat.add_assoc]
  · rw [List.pairwise_append]
    refine ⟨holds.apart, List.pairwise_singleton _ _, ?_⟩
    intro e listed last one
    rw [List.mem_singleton.mp one]
    exact placed_apart abi writers s stage pool log i writer holds member fits here alone e listed
  · intro e listed nonempty
    rw [sum_of_append, size]
    exact copy_within abi writers s stage pool log i writer holds member fits here alone e listed nonempty
  · exact copy_stored abi writers s stage pool next log i writer holds member fits here alone shared copies
  · intro x before
    rw [copy_keeps_below abi writers s stage pool next log i writer holds member fits here alone shared x (by omega)]
    exact holds.below x before

theorem alone_of_copies_alone (holds : WritersInvariant abi writers s stage pool log)
    (admitted : CopiesAlone pool i) (copies : pool.threads[i]?.bind Thread.upcoming = some .copyFromUser) (j : Nat) :
    stage j ≠ .copied := by
  intro copied
  by_cases inside : j < writers.length
  · have short : j < pool.threads.length := by rwa [holds.sized]
    have listed := List.getElem?_eq_getElem inside
    have found := List.getElem?_eq_getElem short
    have quiet := admitted copies pool.threads[j] (List.getElem_mem short)
    rw [(between_iff abi _ (stage j) _ (holds.placed j _ _ listed found)).mpr copied] at quiet
    cases quiet
  · rw [holds.absent j (Nat.not_lt.mp inside)] at copied
    cases copied

theorem placements_step (to' : Stage) (thread : Thread CompletionLabel CompletionState Empty Int)
    (stepped : pool.step i = some next) (found : next.threads[i]? = some thread)
    (prog : thread.prog = to'.prog abi writer) (schedule : List Nat) :
    placements pool (i :: schedule) =
      (if to' = .copied then [(i, pool.shared.writeIndex)] else []) ++ placements next schedule := by
  have where' := between_iff abi writer to' thread prog
  by_cases copied : to' = .copied
  · simp [placements, stepped, found, where', copied]
  · have quiet : between thread = false := by
      rw [← Bool.not_eq_true, where']
      exact copied
    simp [placements, stepped, found, quiet, copied]

theorem writers_step (holds : WritersInvariant abi writers s stage pool log)
    (fits : s.writeIndex + (writers.map Writer.count).sum ≤ bufferSize) (admitted : CopiesAlone pool i)
    (stepped : pool.step i = some next) :
    ∃ stage' added, WritersInvariant abi writers s stage' next (log ++ added) ∧
      ∀ schedule, placements pool (i :: schedule) = added ++ placements next schedule := by
  obtain ⟨thread, label, ready, effect, rest, takes⟩ := Pool.step_takes pool next i stepped
  have length := Pool.step_length pool next i stepped
  have inside : i < writers.length := by
    rw [← holds.sized]
    exact (List.getElem?_eq_some_iff.mp takes.found).1
  obtain ⟨writer, member⟩ : ∃ writer, writers[i]? = some writer := ⟨_, List.getElem?_eq_getElem inside⟩
  have prog := holds.placed i writer thread member takes.found
  rw [takes.prog] at prog
  have shared := takes.shared
  have moved := takes.moved
  cases here : stage i with
  | before =>
      rw [here] at prog
      obtain ⟨rfl, -, rfl, rfl⟩ := Prog.act.inj (prog.trans (write_prog abi writer))
      have alone := alone_of_copies_alone abi writers s stage pool log i holds admitted
        (Pool.takes_upcoming pool next i thread _ _ _ _ takes)
      cases copies : writer.succeeds with
      | true =>
          have stage' : afterCopy writer = .copied := by simp [afterCopy, copies]
          rw [stage'] at moved
          refine ⟨_, _, good_copy_step abi writers s stage pool next log i writer _ holds member fits here alone copies
            moved rfl takes.others length shared, ?_⟩
          exact placements_step abi pool next i writer .copied _ stepped moved rfl
      | false =>
          have stage' : afterCopy writer = .after := by simp [afterCopy, copies]
          rw [stage'] at moved
          refine ⟨Function.update stage i .after, [], ?_, ?_⟩
          · rw [List.append_nil]
            exact failed_copy_step abi writers s stage pool next log i writer _ holds member fits here alone copies
              moved rfl takes.others length shared
          · exact placements_step abi pool next i writer .after _ stepped moved rfl
  | copied =>
      rw [here] at prog
      obtain ⟨rfl, -, rfl, rfl⟩ := Prog.act.inj prog
      refine ⟨Function.update stage i .after, [], ?_, ?_⟩
      · rw [List.append_nil]
        exact advance_step abi writers s stage pool next log i writer _ holds member here moved rfl takes.others length
          shared
      · exact placements_step abi pool next i writer .after _ stepped moved rfl
  | after =>
      rw [here] at prog
      obtain ⟨rfl, -, rfl, rfl⟩ := Prog.act.inj prog
      refine ⟨Function.update stage i .done, [], ?_, ?_⟩
      · rw [List.append_nil]
        exact complete_step abi writers s stage pool next log i writer _ holds member here moved rfl takes.others length
          shared
      · exact placements_step abi pool next i writer .done _ stepped moved rfl
  | done =>
      rw [here] at prog
      cases prog

theorem writers_run (schedule : List Nat) (ran : Pool.Run CopiesAlone pool schedule next)
    (holds : WritersInvariant abi writers s stage pool log)
    (fits : s.writeIndex + (writers.map Writer.count).sum ≤ bufferSize) :
    ∃ stage', WritersInvariant abi writers s stage' next (log ++ placements pool schedule) := by
  induction ran generalizing stage log with
  | nil pool => exact ⟨stage, by simpa [placements] using holds⟩
  | cons pool next last i rest admitted stepped _ ih =>
      obtain ⟨stage', added, kept, entries⟩ :=
        writers_step abi writers s stage pool next log i holds fits admitted stepped
      obtain ⟨stage'', held⟩ := ih stage' (log ++ added) kept
      exact ⟨stage'', by rwa [entries, ← List.append_assoc]⟩

end Step

theorem writing_holds (abi : Abi) (writers : List Writer) (s : CompletionState) (within : s.writeIndex < bufferSize) :
    WritersInvariant abi writers s (fun _ => .before) (writing abi s writers) [] where
  sized := by simp [writing, Pool.start]
  absent := fun _ _ => rfl
  placed := by
    intro i writer thread member found
    simp only [writing, Pool.start, List.getElem?_map, member, Option.map_some, Option.some.injEq] at found
    rw [← found]
    rfl
  listed := by simp
  nodup := by simp
  single := by simp
  index := fun _ => by
    simp only [writing, Pool.start, sumOf, List.map_nil, List.sum_nil, Nat.add_zero]
    exact (Nat.mod_eq_of_lt within).symm
  owed := by simp
  apart := .nil
  within := by simp
  stored := by simp
  below := fun _ _ => rfl

theorem sum_of_finished (abi : Abi) (writers : List Writer) (s : CompletionState) (stage : Nat → Stage)
    (pool : WritersPool) (log : List (Nat × Nat)) (holds : WritersInvariant abi writers s stage pool log)
    (all : ∀ i, i < writers.length → stage i = .done) :
    sumOf writers log = ((writers.filter Writer.succeeds).map Writer.count).sum := by
  have members : (log.map Prod.fst).Perm
      (((List.finRange writers.length).filter (Writer.succeeds ∘ writers.get)).map Fin.val) := by
    apply (List.perm_ext_iff_of_nodup holds.nodup _).mpr
    · intro i
      rw [holds.listed i]
      constructor
      · rintro ⟨writer, member, copies, -⟩
        obtain ⟨inside, rfl⟩ := List.getElem?_eq_some_iff.mp member
        exact List.mem_map.mpr ⟨⟨i, inside⟩, by simpa [List.mem_finRange] using copies, rfl⟩
      · intro listed
        obtain ⟨k, chosen, rfl⟩ := List.mem_map.mp listed
        have copies := (List.mem_filter.mp chosen).2
        exact ⟨writers[k], List.getElem?_eq_getElem k.2, copies, by simp [all k k.2]⟩
    · exact ((List.nodup_finRange _).filter _).map Fin.val_injective
  have listed : writers = (List.finRange writers.length).map writers.get := (List.map_get_finRange writers).symm
  have total : sumOf writers log = ((log.map Prod.fst).map (countAt writers)).sum := by
    rw [List.map_map]
    rfl
  rw [total, (members.map (countAt writers)).sum_eq, List.map_map]
  conv_rhs => rw [listed, List.filter_map, List.map_map]
  congr 1
  apply List.map_congr_left
  intro k _
  simp [countAt]

theorem finished_done (abi : Abi) (writers : List Writer) (s : CompletionState) (stage : Nat → Stage)
    (pool : WritersPool) (log : List (Nat × Nat)) (holds : WritersInvariant abi writers s stage pool log)
    (ended : pool.finished = true) (i : Nat) (inside : i < writers.length) : stage i = .done := by
  have short : i < pool.threads.length := by rwa [holds.sized]
  have member := List.getElem?_eq_getElem inside
  have found := List.getElem?_eq_getElem short
  have placed := holds.placed i _ _ member found
  have returned := List.all_eq_true.mp ended pool.threads[i] (List.getElem_mem short)
  cases here : stage i with
  | before =>
      rw [here] at placed
      simp [Thread.value, placed.trans (write_prog abi _)] at returned
  | copied =>
      rw [here] at placed
      simp [Thread.value, placed, Stage.prog, advancing] at returned
  | after =>
      rw [here] at placed
      simp [Thread.value, placed, Stage.prog, finishing, complete, Prog.modify, bind, Prog.bind] at returned
  | done => rfl

theorem messages_stay_apart (abi : Abi) (writers : List Writer) (s : CompletionState) (schedule : List Nat)
    (pool : WritersPool) (within : s.writeIndex < bufferSize)
    (fits : s.writeIndex + (writers.map Writer.count).sum ≤ bufferSize)
    (ran : Pool.Run CopiesAlone (writing abi s writers) schedule pool) :
    (placements (writing abi s writers) schedule).Pairwise (Apart writers) ∧
      (∀ e ∈ placements (writing abi s writers) schedule, ∀ writer, writers[e.1]? = some writer →
        slice pool.shared.buffer e.2 writer.count = writer.data ∧
          (writer.count ≠ 0 → s.writeIndex ≤ e.2 ∧ e.2 + writer.count ≤ bufferSize)) ∧
      (∀ x, x < s.writeIndex → pool.shared.buffer x = s.buffer x) ∧
      (pool.finished = true →
        (∀ i, i ∈ (placements (writing abi s writers) schedule).map Prod.fst ↔
          ∃ writer, writers[i]? = some writer ∧ writer.succeeds = true) ∧
        pool.shared.writeIndex =
          (s.writeIndex + ((writers.filter Writer.succeeds).map Writer.count).sum) % bufferSize) := by
  obtain ⟨stage, holds⟩ := writers_run abi writers s _ _ pool [] schedule ran (writing_holds abi writers s within) fits
  rw [List.nil_append] at holds
  refine ⟨holds.apart, ?_, holds.below, ?_⟩
  · intro e listed writer member
    refine ⟨holds.stored e listed writer member, fun nonempty => ?_⟩
    have size := count_at writers e.1 writer member
    have bounds := holds.within e listed (by omega)
    have inside : ∀ i ∈ (placements (writing abi s writers) schedule).map Prod.fst, i < writers.length := by
      intro i mem
      obtain ⟨other, found, -⟩ := (holds.listed i).mp mem
      exact (List.getElem?_eq_some_iff.mp found).1
    have total := counts_le writers _ holds.nodup inside
    rw [List.map_map] at total
    change sumOf writers _ ≤ _ at total
    omega
  · intro ended
    have all := finished_done abi writers s stage pool _ holds ended
    refine ⟨?_, ?_⟩
    · intro i
      rw [holds.listed i]
      refine exists_congr fun writer => and_congr_right fun member => and_iff_left ?_
      simp [all i (List.getElem?_eq_some_iff.mp member).1]
    · rw [← sum_of_finished abi writers s stage pool _ holds all]
      refine holds.index fun i copied => ?_
      by_cases inside : i < writers.length
      · simp [all i inside] at copied
      · simp [holds.absent i (Nat.not_lt.mp inside)] at copied

def twoWriters : List Writer := [⟨[65, 66], none⟩, ⟨[67], none⟩]

def loaded : CompletionState := completionLoaded fun _ => 0

theorem messages_apart_in_a_run :
    ∃ pool, Pool.Run CopiesAlone (writing .ilp32 loaded twoWriters) [0, 0, 1, 0, 1, 1] pool ∧ pool.finished = true ∧
      placements (writing .ilp32 loaded twoWriters) [0, 0, 1, 0, 1, 1] = [(0, 0), (1, 2)] ∧
      pool.shared.writeIndex = 3 := by
  obtain ⟨pool, ran, ended, entries⟩ : ∃ pool,
      Pool.Run CopiesAlone (writing .ilp32 loaded twoWriters) [0, 0, 1, 0, 1, 1] pool ∧ pool.finished = true ∧
      placements (writing .ilp32 loaded twoWriters) [0, 0, 1, 0, 1, 1] = [(0, 0), (1, 2)] :=
    ⟨_, Pool.runs_run _ _ _ _ rfl, rfl, rfl⟩
  have apart := messages_stay_apart .ilp32 twoWriters loaded _ pool (by decide) (by decide) ran
  exact ⟨pool, ran, ended, entries, (apart.2.2.2 ended).2⟩

-- Both writers copy before either advances.
theorem second_message_covers_first :
    ∃ pool, (writing .ilp32 loaded twoWriters).exec [0, 1, 0, 1, 0, 1] = some pool ∧ pool.finished = true ∧
      loaded.writeIndex + (twoWriters.map Writer.count).sum ≤ bufferSize ∧
      placements (writing .ilp32 loaded twoWriters) [0, 1, 0, 1, 0, 1] = [(0, 0), (1, 0)] ∧
      ¬ (placements (writing .ilp32 loaded twoWriters) [0, 1, 0, 1, 0, 1]).Pairwise (Apart twoWriters) ∧
      slice pool.shared.buffer 0 3 = [67, 66, 0] := by
  refine ⟨_, rfl, rfl, by decide, rfl, ?_, rfl⟩
  intro apart
  have clear := List.pairwise_cons.mp apart |>.1 (1, 0) (List.mem_singleton.mpr rfl)
  exact clear 0 (by decide) (by decide)

end OneDriver.Completion
