import OneDriver.CInt
import OneDriver.Memory
import OneDriver.UserCopy

set_option autoImplicit false

namespace OneDriver.Completion

def bufferSize : Nat := 128

-- `buffer` is the memory from completion_buffer[0] on: past bufferSize lies what
-- the module data holds next, which no copy is kept away from.
structure CompletionState where
  done : Nat
  buffer : Nat → UInt8
  readIndex : Nat
  writeIndex : Nat

def completionLoaded (beyond : Nat → UInt8) : CompletionState where
  done := 0
  buffer := fun i => if i < bufferSize then 0 else beyond i
  readIndex := 0
  writeIndex := 0

inductive CompletionLabel where
  | copyFromUser
  | copyToUser
  | writeIndex
  | readIndex
  | complete
  | waitForCompletion
deriving DecidableEq, Repr

abbrev CompletionProg := Prog CompletionLabel CompletionState Empty

def advance (index count : Nat) : Nat :=
  let next := uint32 (index + count)
  if bufferSize ≤ next then next % bufferSize else next

def storeMessage (data : List UInt8) (fault : Option Nat) (s : CompletionState) : CompletionState :=
  { s with buffer := overlay s.buffer s.writeIndex (fetched data fault) }

def advanceWrite (failed : Bool) (count : Nat) : CompletionProg Unit :=
  if failed then pure ()
  else Prog.modify .writeIndex fun s => { s with writeIndex := advance s.writeIndex count }

def advanceRead (failed : Bool) (count : Nat) : CompletionProg Unit :=
  if failed then pure ()
  else Prog.modify .readIndex fun s => { s with readIndex := advance s.readIndex count }

def complete : CompletionProg Unit := Prog.modify .complete fun s => { s with done := uint32 (s.done + 1) }

def waitForCompletion : CompletionProg Unit :=
  Prog.await .waitForCompletion (fun s => decide (0 < s.done)) fun s => { s with done := s.done - 1 }

-- The count returned, and the bytes the copy put in the user's buffer.
def completionRead (abi : Abi) (count : Nat) (fault : Option Nat) : CompletionProg (Int × List UInt8) := do
  waitForCompletion
  let bytes ← Prog.look .copyToUser fun s => slice s.buffer s.readIndex (copied count fault)
  advanceRead (copyFails count fault) count
  pure (abi.long count, bytes)

def completionWrite (abi : Abi) (data : List UInt8) (fault : Option Nat) : CompletionProg Int := do
  Prog.modify .copyFromUser (storeMessage data fault)
  advanceWrite (copyFails data.length fault) data.length
  complete
  pure (abi.long data.length)

-- The truncation to 32 bits and the skipped remainder both vanish modulo 128.
theorem advance_eq (index count : Nat) : advance index count = (index + count) % bufferSize := by
  have truncated : uint32 (index + count) % bufferSize = (index + count) % bufferSize := by
    simp only [uint32, bufferSize]
    omega
  dsimp only [advance]
  split
  · exact truncated
  · rw [← truncated]
    exact (Nat.mod_eq_of_lt (by omega)).symm

theorem run_advance_write (failed : Bool) (count : Nat) (s : CompletionState) :
    (advanceWrite failed count).run s =
      .done () { s with writeIndex := if failed then s.writeIndex else advance s.writeIndex count } := by
  cases failed <;> rfl

theorem run_advance_read (failed : Bool) (count : Nat) (s : CompletionState) :
    (advanceRead failed count).run s =
      .done () { s with readIndex := if failed then s.readIndex else advance s.readIndex count } := by
  cases failed <;> rfl

theorem run_completion_write (abi : Abi) (data : List UInt8) (fault : Option Nat) (s : CompletionState) :
    (completionWrite abi data fault).run s = .done (abi.long data.length)
      { done := uint32 (s.done + 1)
        buffer := overlay s.buffer s.writeIndex (fetched data fault)
        readIndex := s.readIndex
        writeIndex := if copyFails data.length fault then s.writeIndex else advance s.writeIndex data.length } := by
  simp [completionWrite, complete, storeMessage, run_advance_write]

theorem run_completion_read (abi : Abi) (count : Nat) (fault : Option Nat) (s : CompletionState) :
    (completionRead abi count fault).run s =
      if 0 < s.done then
        .done (abi.long count, slice s.buffer s.readIndex (copied count fault))
          { s with done := s.done - 1
                   readIndex := if copyFails count fault then s.readIndex else advance s.readIndex count }
      else .blocked s := by
  by_cases token : 0 < s.done
  · simp [completionRead, waitForCompletion, Prog.run_await, run_advance_read, token]
  · simp [completionRead, waitForCompletion, Prog.run_await, token, Outcome.bind]

end OneDriver.Completion
