import OneDriver.CInt
import OneDriver.Memory
import Mathlib.Data.List.TakeWhile

set_option autoImplicit false

namespace OneDriver.Fs

def size : Nat := 64

-- What an mm_segment_t bounds user access by; the kernel's own is 0 on ARM.
def kernelDs : Nat := 0

inductive LogLine where
  | openFailed
  | fPos (position : Nat)
  | buff (text : List UInt8)
deriving DecidableEq, Repr

structure FilpState where
  addrLimit : Nat
  openFiles : Nat
  fPos : Nat
  buff : Nat → UInt8
  log : List LogLine
  results : List Int

inductive FilpStep where
  | buff
  | filpOpen
  | getFs
  | setFs
  | fPos
  | read
  | printk
  | filpClose
deriving DecidableEq, Repr

-- A store outside buff[SIZE + 1].
inductive FilpFault where
  | outOfBuff
deriving DecidableEq, Repr

abbrev FilpProg := Prog FilpStep FilpState FilpFault

-- How the file's read operation answers: with at most so many bytes, or an error.
inductive Answer where
  | bytes (wanted : Nat)
  | error (errno : Errno)

-- What read returns where the file still holds `rest`.
def Answer.result (answer : Answer) (rest : List UInt8) : Int :=
  match answer with
  | .bytes wanted => (min wanted (min size rest.length) : Nat)
  | .error errno => errno.value

def printk (line : FilpState → LogLine) : FilpProg Unit := .modify .printk fun s => { s with log := s.log ++ [line s] }

def setFs (limit : Nat) : FilpProg Unit := .modify .setFs fun s => { s with addrLimit := limit }

def readFile (rest : List UInt8) (n : Int) : FilpProg Unit :=
  .modify .read fun s => { s with
    buff := overlay s.buff 0 (rest.take n.toNat)
    fPos := s.fPos + n.toNat
    results := s.results ++ [n] }

-- buff[n] = '\0';
def terminate (n : Int) : FilpProg Unit :=
  Prog.access .buff fun s =>
    if 0 ≤ n ∧ n ≤ size then .ok ((), { s with buff := Function.update s.buff n.toNat 0 }) else .error .outOfBuff

-- What %s prints of a string.
def cString (bytes : List UInt8) : List UInt8 := bytes.takeWhile (· ≠ 0)

def FilpState.text (s : FilpState) : List UInt8 := cString (slice s.buff 0 (size + 1))

theorem result_bounds (answer : Answer) (rest : List UInt8) :
    answer.result rest ≤ size ∧ answer.result rest ≤ rest.length := by
  cases answer with
  | bytes wanted =>
      simp only [Answer.result]
      omega
  | error errno =>
      have negative := errno.negative
      simp only [Answer.result]
      omega

theorem less_left (answer : Answer) (rest : List UInt8) (more : 0 < answer.result rest) :
    (rest.drop (answer.result rest).toNat).length < rest.length := by
  have bounds := result_bounds answer rest
  rw [List.length_drop]
  omega

-- do ... while (n > 0), from the read whose number is `i`.
def readLoop (answers : Nat → Answer) (i : Nat) (rest : List UInt8) : FilpProg Unit := do
  printk fun s => .fPos s.fPos
  readFile rest ((answers i).result rest)
  terminate ((answers i).result rest)
  printk fun s => .buff s.text
  if _more : 0 < (answers i).result rest then
    readLoop answers (i + 1) (rest.drop ((answers i).result rest).toNat)
  else pure ()
termination_by rest.length
decreasing_by exact less_left (answers i) rest _more

def filpTestEntry (opens : Bool) (file : List UInt8) (answers : Nat → Answer) : FilpProg Int := do
  Prog.modify .buff fun s => { s with buff := fun _ => 0 }
  if opens then do
    Prog.modify .filpOpen fun s => { s with openFiles := s.openFiles + 1, fPos := 0 }
    let oldFs ← Prog.look .getFs (·.addrLimit)
    setFs kernelDs
    printk fun s => .fPos s.fPos
    Prog.modify .fPos fun s => { s with fPos := 0 }
    readLoop answers 0 file
    Prog.modify .filpClose fun s => { s with openFiles := s.openFiles - 1 }
    setFs oldFs
    pure 0
  else do
    printk fun _ => .openFailed
    pure (-1)

def LogLine.chunk : LogLine → Option (List UInt8)
  | .buff text => some text
  | _ => none

def FilpState.printed (s : FilpState) : List (List UInt8) := s.log.filterMap LogLine.chunk

def loadedFilp (limit : Nat) : FilpState := ⟨limit, 0, 0, fun _ => 0, [], []⟩

def EndsReading (results : List Int) : Prop :=
  ∃ earlier last, results = earlier ++ [last] ∧ (∀ n ∈ earlier, 0 < n) ∧ last ≤ 0

def FilpLaw (opens : Bool) (file : List UInt8) (answers : Nat → Answer) (limit : Nat) : Prop :=
  ∃ r t, (filpTestEntry opens file answers).run (loadedFilp limit) = .done r t ∧ t.addrLimit = limit ∧
    t.openFiles = 0 ∧ (opens = true → EndsReading t.results ∧ t.printed.flatten = file.take t.fPos)

-- The chunks that reading from `rest` on brings, and the result it stops at.
inductive Reads (answers : Nat → Answer) : Nat → List UInt8 → List (List UInt8) → Int → Prop where
  | stop (i : Nat) (rest : List UInt8) (last : (answers i).result rest ≤ 0) :
      Reads answers i rest [] ((answers i).result rest)
  | chunk (i : Nat) (rest bytes left : List UInt8) (chunks : List (List UInt8)) (last : Int)
      (splits : rest = bytes ++ left) (given : (answers i).result rest = bytes.length) (more : bytes ≠ [])
      (later : Reads answers (i + 1) left chunks last) : Reads answers i rest (bytes :: chunks) last

theorem reads_total (answers : Nat → Answer) (i : Nat) (rest : List UInt8) :
    ∃ chunks last, Reads answers i rest chunks last := by
  by_cases more : 0 < (answers i).result rest
  · obtain ⟨chunks, last, later⟩ := reads_total answers (i + 1) (rest.drop ((answers i).result rest).toNat)
    have bounds := result_bounds (answers i) rest
    have given : (answers i).result rest = (rest.take ((answers i).result rest).toNat).length := by
      rw [List.length_take]
      omega
    refine ⟨_, last, .chunk i rest _ _ chunks last (List.take_append_drop _ rest).symm given ?_ later⟩
    rw [← List.length_pos_iff]
    omega
  · exact ⟨[], _, .stop i rest (by omega)⟩
termination_by rest.length
decreasing_by exact less_left (answers i) rest more

theorem reads_prefix (answers : Nat → Answer) (i : Nat) (rest : List UInt8) (chunks : List (List UInt8)) (last : Int)
    (reads : Reads answers i rest chunks last) : chunks.flatten = rest.take chunks.flatten.length := by
  induction reads with
  | stop i rest last => rfl
  | chunk i rest bytes left chunks last splits given more later ih =>
      rw [splits, List.flatten_cons, List.length_append, List.take_length_add_append]
      exact congrArg (bytes ++ ·) ih

theorem reads_last (answers : Nat → Answer) (i : Nat) (rest : List UInt8) (chunks : List (List UInt8)) (last : Int)
    (reads : Reads answers i rest chunks last) : last ≤ 0 := by
  induction reads with
  | stop i rest last => exact last
  | chunk i rest bytes left chunks last splits given more later ih => exact ih

def FilpState.turned (s : FilpState) (bytes : List UInt8) : FilpState where
  addrLimit := s.addrLimit
  openFiles := s.openFiles
  fPos := s.fPos + bytes.length
  buff := Function.update (overlay s.buff 0 bytes) bytes.length 0
  log := s.log ++ [.fPos s.fPos] ++ [.buff (cString bytes)]
  results := s.results ++ [(bytes.length : Int)]

theorem c_string_terminated (bytes junk : List UInt8) : cString (bytes ++ 0 :: junk) = cString bytes := by
  simp only [cString, List.takeWhile_append]
  split
  · rename_i whole
    rw [(List.takeWhile_prefix _).eq_of_length whole]
    simp
  · rfl

theorem text_terminated (mem : Nat → UInt8) (bytes : List UInt8) (fits : bytes.length ≤ size) :
    cString (slice (Function.update (overlay mem 0 bytes) bytes.length 0) 0 (size + 1)) = cString bytes := by
  obtain ⟨junk, room⟩ : ∃ junk, size + 1 = bytes.length + (1 + junk) := ⟨size - bytes.length, by omega⟩
  have front : slice (Function.update (overlay mem 0 bytes) bytes.length 0) 0 bytes.length = bytes := by
    rw [slice_congr _ (overlay mem 0 bytes) 0 bytes.length]
    · rw [slice_overlay_same mem 0 bytes.length bytes (Nat.le_refl _), List.take_length]
    · intro j inside
      exact Function.update_of_ne (by omega) _ _
  rw [room, slice_append, slice_append, front]
  have nul : slice (Function.update (overlay mem 0 bytes) bytes.length 0) (0 + bytes.length) 1 = [0] := by
    simp [slice]
  rw [nul, List.singleton_append]
  exact c_string_terminated bytes _

@[simp] theorem run_printk (line : FilpState → LogLine) (s : FilpState) :
    (printk line).run s = .done () { s with log := s.log ++ [line s] } := rfl

@[simp] theorem run_read_file (rest : List UInt8) (n : Int) (s : FilpState) :
    (readFile rest n).run s = .done () { s with
      buff := overlay s.buff 0 (rest.take n.toNat), fPos := s.fPos + n.toNat, results := s.results ++ [n] } := rfl

theorem run_terminate (n : Nat) (s : FilpState) (within : n ≤ size) :
    (terminate n).run s = .done () { s with buff := Function.update s.buff n 0 } := by
  have bounds : (0 : Int) ≤ n ∧ (n : Int) ≤ size := by omega
  simp [terminate, Prog.run_access, bounds]

theorem terminate_crashes (n : Int) (s : FilpState) (negative : n < 0) :
    (terminate n).run s = .crashed .outOfBuff s := by
  have outside : ¬ (0 ≤ n ∧ n ≤ size) := by omega
  simp only [terminate, Prog.run_access, if_neg outside]

theorem run_turn (answers : Nat → Answer) (i : Nat) (bytes left : List UInt8) (s : FilpState)
    (given : (answers i).result (bytes ++ left) = bytes.length) :
    (readLoop answers i (bytes ++ left)).run s =
      (if bytes ≠ [] then readLoop answers (i + 1) left else pure ()).run (s.turned bytes) := by
  have fits : bytes.length ≤ size := by
    have bounds := (result_bounds (answers i) (bytes ++ left)).1
    omega
  rw [readLoop]
  simp only [given, Int.toNat_natCast, List.take_left, List.drop_left, Prog.run_bind, run_printk, run_read_file,
    outcome_bind_done, run_terminate _ _ fits, FilpState.text, text_terminated s.buff bytes fits]
  by_cases nothing : bytes = []
  · subst nothing
    rfl
  · have more : (0 : Int) < bytes.length := by
      rw [Int.natCast_pos]
      exact List.length_pos_iff.mpr nothing
    rw [dif_pos more, if_pos nothing]
    rfl

@[simp] theorem turned_printed (s : FilpState) (bytes : List UInt8) :
    (s.turned bytes).printed = s.printed ++ [cString bytes] := by
  simp only [FilpState.printed, FilpState.turned, List.filterMap_append, List.append_assoc]
  rfl

structure Printed (s t : FilpState) (chunks : List (List UInt8)) : Prop where
  limit : t.addrLimit = s.addrLimit
  openFiles : t.openFiles = s.openFiles
  fPos : t.fPos = s.fPos + chunks.flatten.length
  results : t.results = s.results ++ chunks.map (fun bytes => (bytes.length : Int)) ++ [0]
  printed : t.printed = s.printed ++ chunks.map cString ++ [[]]

theorem printed_turned (s t : FilpState) (bytes : List UInt8) (chunks : List (List UInt8))
    (printed : Printed (s.turned bytes) t chunks) : Printed s t (bytes :: chunks) where
  limit := printed.limit
  openFiles := printed.openFiles
  fPos := by
    rw [printed.fPos, List.flatten_cons, List.length_append, ← Nat.add_assoc]
    rfl
  results := by simpa [FilpState.turned] using printed.results
  printed := by simpa using printed.printed

theorem run_reads (answers : Nat → Answer) (i : Nat) (rest : List UInt8) (chunks : List (List UInt8)) (last : Int)
    (reads : Reads answers i rest chunks last) (clean : last = 0) (s : FilpState) :
    ∃ t, (readLoop answers i rest).run s = .done () t ∧ Printed s t chunks := by
  induction reads generalizing s with
  | stop i rest last =>
      have turn := run_turn answers i [] rest s clean
      exact ⟨s.turned [], turn, rfl, rfl, rfl, by simp [FilpState.turned], by simp [cString]⟩
  | chunk i rest bytes left chunks last splits given more later ih =>
      subst splits
      obtain ⟨t, ran, printed⟩ := ih clean (s.turned bytes)
      refine ⟨t, ?_, printed_turned s t bytes chunks printed⟩
      rw [run_turn answers i bytes left s given, if_pos more, ran]

-- The terminator is stored at the result before the result is looked at.
theorem run_reads_crashes (answers : Nat → Answer) (i : Nat) (rest : List UInt8) (chunks : List (List UInt8))
    (last : Int) (reads : Reads answers i rest chunks last) (negative : last < 0) (s : FilpState) :
    ∃ t, (readLoop answers i rest).run s = .crashed .outOfBuff t := by
  induction reads generalizing s with
  | stop i rest last =>
      rw [readLoop]
      simp only [Prog.run_bind, run_printk, run_read_file, outcome_bind_done, terminate_crashes _ _ negative]
      exact ⟨_, rfl⟩
  | chunk i rest bytes left chunks last splits given more later ih =>
      subst splits
      obtain ⟨t, crashed⟩ := ih negative (s.turned bytes)
      exact ⟨t, by rw [run_turn answers i bytes left s given, if_pos more, crashed]⟩

theorem c_string_whole_iff (bytes : List UInt8) : cString bytes = bytes ↔ 0 ∉ bytes := by
  rw [cString, List.takeWhile_eq_self_iff]
  constructor
  · intro plain nul
    exact absurd (plain 0 nul) (by decide)
  · intro plain byte member
    have different : byte ≠ 0 := fun zero => plain (zero ▸ member)
    simpa using different

theorem c_string_length_le (bytes : List UInt8) : (cString bytes).length ≤ bytes.length :=
  (List.takeWhile_prefix _).length_le

theorem printed_length_le (chunks : List (List UInt8)) :
    (chunks.map cString).flatten.length ≤ chunks.flatten.length := by
  induction chunks with
  | nil => exact Nat.le_refl 0
  | cons bytes rest ih =>
      have short := c_string_length_le bytes
      simp only [List.map_cons, List.flatten_cons, List.length_append]
      omega

-- A chunk cut short is not made up for by the others.
theorem printed_whole_iff (chunks : List (List UInt8)) :
    (chunks.map cString).flatten = chunks.flatten ↔ ∀ bytes ∈ chunks, 0 ∉ bytes := by
  induction chunks with
  | nil => simp
  | cons bytes rest ih =>
      rw [List.map_cons, List.flatten_cons, List.flatten_cons, List.forall_mem_cons, ← ih, ← c_string_whole_iff]
      constructor
      · intro same
        have short := c_string_length_le bytes
        have others := printed_length_le rest
        have lengths := congrArg List.length same
        simp only [List.length_append] at lengths
        exact List.append_inj same (by omega)
      · intro both
        rw [both.1, both.2]

def openedFilp : FilpState := ⟨kernelDs, 1, 0, fun _ => 0, [.fPos 0], []⟩

theorem run_opened (file : List UInt8) (answers : Nat → Answer) (limit : Nat) :
    (filpTestEntry true file answers).run (loadedFilp limit) = ((readLoop answers 0 file).run openedFilp).bind
      fun _ t => .done 0 { t with openFiles := t.openFiles - 1, addrLimit := limit } := by
  simp [filpTestEntry, setFs, loadedFilp, openedFilp]

theorem run_not_opened (file : List UInt8) (answers : Nat → Answer) (limit : Nat) :
    (filpTestEntry false file answers).run (loadedFilp limit) =
      .done (-1) { loadedFilp limit with log := [.openFailed] } := rfl

-- No read of the loop fails and none brings a NUL.
def PlainReads (file : List UInt8) (answers : Nat → Answer) : Prop :=
  ∀ chunks last, Reads answers 0 file chunks last → last = 0 ∧ ∀ bytes ∈ chunks, 0 ∉ bytes

theorem reads_positive (answers : Nat → Answer) (i : Nat) (rest : List UInt8) (chunks : List (List UInt8)) (last : Int)
    (reads : Reads answers i rest chunks last) : ∀ bytes ∈ chunks, bytes ≠ [] := by
  induction reads with
  | stop i rest last => exact fun bytes member => absurd member List.not_mem_nil
  | chunk i rest bytes left chunks last splits given more later ih => exact List.forall_mem_cons.mpr ⟨more, ih⟩

theorem lengths_end_reading (chunks : List (List UInt8)) (some : ∀ bytes ∈ chunks, bytes ≠ []) :
    EndsReading (chunks.map (fun bytes => (bytes.length : Int)) ++ [0]) := by
  refine ⟨_, 0, rfl, fun n member => ?_, Int.le_refl 0⟩
  obtain ⟨bytes, inside, rfl⟩ := List.mem_map.mp member
  rw [Int.natCast_pos]
  exact List.length_pos_iff.mpr (some bytes inside)

theorem whole_reads_law_iff (file : List UInt8) (answers : Nat → Answer) (limit : Nat) (chunks : List (List UInt8))
    (reads : Reads answers 0 file chunks 0) :
    FilpLaw true file answers limit ↔ ∀ bytes ∈ chunks, 0 ∉ bytes := by
  obtain ⟨t, ran, printed⟩ := run_reads answers 0 file chunks 0 reads rfl openedFilp
  have entry := run_opened file answers limit
  rw [ran, outcome_bind_done] at entry
  refine (Prog.run_exists_iff _ _ _ _ _ entry).trans ?_
  have ends : EndsReading t.results := by
    rw [printed.results]
    exact lengths_end_reading chunks (reads_positive answers 0 file chunks 0 reads)
  have text : t.printed.flatten = (chunks.map cString).flatten := by
    rw [printed.printed]
    simp [openedFilp, FilpState.printed, LogLine.chunk]
  have reach : file.take t.fPos = chunks.flatten := by
    rw [printed.fPos, reads_prefix answers 0 file chunks 0 reads]
    simp [openedFilp]
  rw [← printed_whole_iff, ← text, ← reach]
  constructor
  · exact fun law => (law.2.2 rfl).2
  · exact fun whole => ⟨rfl, by rw [printed.openFiles]; rfl, fun _ => ⟨ends, whole⟩⟩

theorem failing_read_breaks_law (file : List UInt8) (answers : Nat → Answer) (limit : Nat)
    (chunks : List (List UInt8)) (last : Int) (reads : Reads answers 0 file chunks last) (negative : last < 0) :
    ¬ FilpLaw true file answers limit := by
  intro law
  obtain ⟨r, t, ran, -⟩ := law
  obtain ⟨u, crashed⟩ := run_reads_crashes answers 0 file chunks last reads negative openedFilp
  rw [run_opened, crashed] at ran
  cases ran

theorem filp_law_iff (opens : Bool) (file : List UInt8) (answers : Nat → Answer) (limit : Nat) :
    FilpLaw opens file answers limit ↔ (opens = true → PlainReads file answers) := by
  cases opens with
  | false =>
      refine iff_of_true ⟨-1, _, run_not_opened file answers limit, rfl, rfl, fun opened => ?_⟩ fun opened => ?_
      · cases opened
      · cases opened
  | true =>
      constructor
      · intro law _ chunks last reads
        have low := reads_last answers 0 file chunks last reads
        have zero : last = 0 := by
          by_contra other
          exact failing_read_breaks_law file answers limit chunks last reads (by omega) law
        subst zero
        exact ⟨rfl, (whole_reads_law_iff file answers limit chunks reads).mp law⟩
      · intro plain
        obtain ⟨chunks, last, reads⟩ := reads_total answers 0 file
        obtain ⟨rfl, clean⟩ := plain rfl chunks last reads
        exact (whole_reads_law_iff file answers limit chunks reads).mpr clean

-- read fails with EIO at once, and with a NUL in the file the text stops short.
theorem failed_read_stores_outside :
    ¬ FilpLaw true [72, 105] (fun _ => .error ⟨-5, by decide⟩) 0xbf000000 ∧
      ¬ FilpLaw true [72, 0, 105] (fun _ => .bytes 64) 0xbf000000 := by
  constructor
  · exact failing_read_breaks_law _ _ _ [] (-5) (.stop 0 [72, 105] (by decide)) (by decide)
  · have reads : Reads (fun _ => .bytes 64) 0 [72, 0, 105] [[72, 0, 105]] 0 :=
      .chunk 0 _ [72, 0, 105] [] [] 0 rfl rfl (by decide) (.stop 1 [] (by decide))
    exact fun law => absurd ((whole_reads_law_iff _ _ _ _ reads).mp law) (by decide)

end OneDriver.Fs
