import OneDriver.Scull.Contents

set_option autoImplicit false

namespace OneDriver.Scull

-- The same write, but for what the memory that kmalloc returns holds.
structure Refilled (call other : WriteCall) : Prop where
  data : other.data = call.data
  fPos : other.fPos = call.fPos
  interrupted : other.interrupted = call.interrupted
  fault : other.fault = call.fault
  array : other.arrayMemory.isSome = call.arrayMemory.isSome
  block : other.blockMemory.isSome = call.blockMemory.isSome

inductive Refills : Transfer → Transfer → Prop where
  | read (call : ReadCall) : Refills (.read call) (.read call)
  | write (call other : WriteCall) (same : Refilled call other) : Refills (.write call) (.write other)

-- Whatever kmalloc returns, the calls return, and the user is told the same.
def TellsTheSame (cfg : ScullConfig) (s : ScullState) (transfers : List Transfer) : Prop :=
  ∀ first second, List.Forall₂ Refills transfers first → List.Forall₂ Refills transfers second →
    ∃ replies t u, (Prog.series (Transfer.prog cfg) first).run s = .done replies t ∧
      (Prog.series (Transfer.prog cfg) second).run s = .done replies u

def Contents.quantumAt (c : Contents) (pos : Position) : Option Quantum :=
  (c.reached pos).bind fun node => node.quanta pos.sPos

-- No byte the transfer moves to the user is still as kmalloc left it.
def Initialised (abi : Abi) (quantum qset : Int) (c : Contents) : Transfer → Prop
  | .write _ => True
  | .read call =>
      let pos := position abi quantum qset call.fPos
      let count := clampToQuantum abi quantum pos.qPos (clamped abi call.fPos call.count c.size)
      call.interrupted = false → abi.mixed call.fPos < c.size → ∀ stored, c.quantumAt pos = some stored →
        ∀ j, j < copied count call.fault → (stored (pos.qPos.toNat + j)).isSome = true

def Answer.Known (answer : Answer) : Prop := ∀ v ∈ answer.bytes, v.isSome = true

section Refilled

variable (abi : Abi) (quantum qset : Int)

theorem refilled_write (c : Contents) (call other : WriteCall) (same : Refilled call other) :
    c.write abi quantum qset other = c.write abi quantum qset call := by
  simp only [Contents.write, FirstNode.write, FirstNode.copyIn, same.data, same.fPos, same.interrupted, same.fault,
    same.array, same.block]

theorem refills_transfer (c : Contents) (transfer other : Transfer) (same : Refills transfer other) :
    c.transfer abi quantum qset other = c.transfer abi quantum qset transfer := by
  cases same with
  | read call => rfl
  | write call other same => exact refilled_write abi quantum qset c call other same

theorem refills_answers (transfers others : List Transfer) (c : Contents) (same : List.Forall₂ Refills transfers others) :
    c.answers abi quantum qset others = c.answers abi quantum qset transfers := by
  induction same generalizing c with
  | nil => rfl
  | cons head _ ih => simp only [Contents.answers, Contents.after, refills_transfer abi quantum qset c _ _ head, ih]

theorem refills_in_range (transfers others : List Transfer) (same : List.Forall₂ Refills transfers others)
    (inRange : ∀ transfer ∈ transfers, transfer.InRange) : ∀ transfer ∈ others, transfer.InRange := by
  induction same with
  | nil => simp
  | @cons transfer other rest rest' head _ ih =>
      have first := inRange transfer (by simp)
      intro later member
      rcases List.mem_cons.mp member with rfl | deeper
      · cases head with
        | read call => exact first
        | write call other same =>
            simp only [Transfer.InRange, Transfer.fPos, same.fPos]
            exact first
      · exact ih (fun x listed => inRange x (by simp [listed])) later deeper

theorem known_slice (stored : Quantum) (base count : Nat) :
    (∀ v ∈ slice stored base count, v.isSome = true) ↔ ∀ j, j < count → (stored (base + j)).isSome = true := by
  simp [slice]

theorem write_answers_no_bytes (c : Contents) (call : WriteCall) : (c.write abi quantum qset call).1.bytes = [] := by
  simp only [Contents.write]
  split
  · rfl
  · split
    · rfl
    · simp only [FirstNode.write, FirstNode.copyIn]
      split <;> (try split) <;> (try split) <;> rfl

theorem known_iff_initialised (c : Contents) (transfer : Transfer) :
    (c.transfer abi quantum qset transfer).1.Known ↔ Initialised abi quantum qset c transfer := by
  cases transfer with
  | write call =>
      refine iff_of_true ?_ trivial
      intro v member
      simp only [Contents.transfer, write_answers_no_bytes, List.not_mem_nil] at member
  | read call =>
      simp only [Contents.transfer, Contents.read, Initialised, Answer.Known]
      cases call.interrupted with
      | true => simp
      | false =>
          simp only [Bool.false_eq_true, if_false, forall_const]
          by_cases past : abi.mixed call.fPos ≥ c.size
          · simp [past, Int.not_lt.mpr past]
          · rw [if_neg past]
            have inside : abi.mixed call.fPos < c.size := Int.not_le.mp past
            simp only [inside, forall_const]
            generalize position abi quantum qset call.fPos = pos
            simp only [Contents.quantumAt]
            cases c.reached pos with
            | none => simp
            | some node =>
                simp only [Option.bind_some, FirstNode.read]
                cases node.quanta pos.sPos with
                | none => simp
                | some stored =>
                    simp only [Option.some.injEq, forall_eq']
                    split <;> exact known_slice stored _ _

theorem answers_known_iff (transfers : List Transfer) (c : Contents) :
    (∀ answer ∈ c.answers abi quantum qset transfers, answer.Known) ↔
      Follows (Contents.after abi quantum qset) (Initialised abi quantum qset) c transfers := by
  induction transfers generalizing c with
  | nil => simp [Contents.answers, Follows]
  | cons transfer rest ih =>
      simp only [Contents.answers, List.forall_mem_cons, Follows]
      exact and_congr (known_iff_initialised abi quantum qset c transfer) (ih _)

end Refilled

def Transfer.filledWith (value : UInt8) : Transfer → Transfer
  | .read call => .read call
  | .write call => .write { call with blockMemory := call.blockMemory.map fun _ _ => value }

theorem filled_refills (value : UInt8) (transfers : List Transfer) :
    List.Forall₂ Refills transfers (transfers.map (Transfer.filledWith value)) := by
  rw [List.forall₂_map_right_iff, List.forall₂_same]
  intro transfer _
  cases transfer with
  | read call => exact .read call
  | write call => exact .write call _ ⟨rfl, rfl, rfl, rfl, rfl, by simp⟩

theorem filled_admits (value : UInt8) (transfers : List Transfer) :
    ∀ transfer ∈ transfers.map (Transfer.filledWith value), transfer.Admits (· = value) := by
  intro transfer member
  obtain ⟨plain, -, rfl⟩ := List.mem_map.mp member
  cases plain with
  | read call => trivial
  | write call =>
      intro bytes memory j
      obtain ⟨old, -, rfl⟩ := Option.map_eq_some_iff.mp memory
      rfl

theorem replies_of_known (admits : UInt8 → Prop) (answers : List Answer) (first second : List ScullReply)
    (known : ∀ answer ∈ answers, answer.Known) (shows' : List.Forall₂ (AnswerShows admits) answers first)
    (again : List.Forall₂ (AnswerShows admits) answers second) : first = second := by
  induction shows' generalizing second with
  | nil => exact (List.forall₂_nil_left_iff.mp again).symm
  | @cons answer reply answers replies head _ ih =>
      cases again with
      | @cons _ reply' _ replies' head' tail' =>
          have here := known answer (by simp)
          have bytes := (shown_known admits _ _ head.bytes here).trans (shown_known admits _ _ head'.bytes here).symm
          have same : reply = reply' := by
            obtain ⟨retval, fPos, sent⟩ := reply
            obtain ⟨retval', fPos', sent'⟩ := reply'
            obtain rfl : sent = sent' := List.map_injective_iff.mpr (Option.some_injective UInt8) bytes
            rw [ScullReply.mk.injEq]
            exact ⟨head.retval.trans head'.retval.symm, head.fPos.trans head'.fPos.symm, rfl⟩
          rw [same, ih _ (fun later member => known later (by simp [member])) tail']

theorem known_of_replies (a b : UInt8) (answers : List Answer) (replies : List ScullReply) (differ : a ≠ b)
    (first : List.Forall₂ (AnswerShows (· = a)) answers replies)
    (second : List.Forall₂ (AnswerShows (· = b)) answers replies) : ∀ answer ∈ answers, answer.Known := by
  induction first with
  | nil => simp
  | @cons answer reply answers replies head _ ih =>
      obtain ⟨head', tail'⟩ := List.forall₂_cons.mp second
      intro other member
      rcases List.mem_cons.mp member with rfl | later
      · exact known_of_same _ _ a b differ head.bytes head'.bytes
      · exact ih tail' other later

section Device

variable (cfg : ScullConfig) (outside : Nat → Option Cell) (s : ScullState) (chain : List Entry)
  (transfers : List Transfer)

theorem refilled_run (admits : UInt8 → Prop) (others : List Transfer) (holds : WellFormed cfg outside s chain)
    (fit : FirstArrayFits cfg.abi s.qset chain) (inRange : ∀ transfer ∈ transfers, transfer.InRange)
    (same : List.Forall₂ Refills transfers others) (admitted : ∀ transfer ∈ others, transfer.Admits admits) :
    ∃ replies t, (Prog.series (Transfer.prog cfg) others).run s = .done replies t ∧
      List.Forall₂ (AnswerShows admits) ((contentsOf s chain).answers cfg.abi s.quantum s.qset transfers) replies := by
  have shown := contents_shown admits cfg.abi outside s chain holds.device fit
  obtain ⟨replies, t, ran, answers⟩ := transfers_refine admits cfg outside others s chain (contentsOf s chain) holds.idle
    shown (refills_in_range transfers others same inRange) admitted
  rw [refills_answers cfg.abi s.quantum s.qset transfers others _ same] at answers
  exact ⟨replies, t, ran, answers⟩

theorem tells_the_same_iff (holds : WellFormed cfg outside s chain) (fit : FirstArrayFits cfg.abi s.qset chain)
    (inRange : ∀ transfer ∈ transfers, transfer.InRange) :
    TellsTheSame cfg s transfers ↔
      Follows (Contents.after cfg.abi s.quantum s.qset) (Initialised cfg.abi s.quantum s.qset) (contentsOf s chain)
        transfers := by
  rw [← answers_known_iff]
  constructor
  · intro tells
    -- Memory of zeros and memory of ones tell apart whatever was not written.
    obtain ⟨replies, t, u, zeros, ones⟩ := tells _ _ (filled_refills 0 transfers) (filled_refills 1 transfers)
    obtain ⟨first, t', ran, shows'⟩ := refilled_run cfg outside s chain transfers (· = 0) _ holds fit inRange
      (filled_refills 0 transfers) (filled_admits 0 transfers)
    obtain ⟨second, u', ran', shows''⟩ := refilled_run cfg outside s chain transfers (· = 1) _ holds fit inRange
      (filled_refills 1 transfers) (filled_admits 1 transfers)
    obtain ⟨rfl, -⟩ := Prog.run_unique zeros ran
    obtain ⟨rfl, -⟩ := Prog.run_unique ones ran'
    exact known_of_replies 0 1 _ _ (by decide) shows' shows''
  · intro known first second same same'
    have anything : ∀ others : List Transfer, ∀ transfer ∈ others, transfer.Admits fun _ => True := by
      intro others transfer _
      cases transfer with
      | read call => trivial
      | write call => exact fun _ _ _ => trivial
    obtain ⟨replies, t, ran, shows'⟩ := refilled_run cfg outside s chain transfers _ first holds fit inRange same
      (anything first)
    obtain ⟨replies', u, ran', shows''⟩ := refilled_run cfg outside s chain transfers _ second holds fit inRange same'
      (anything second)
    obtain rfl := replies_of_known _ _ _ _ known shows' shows''
    exact ⟨replies, t, u, ran, ran'⟩

end Device

def writeOneByte (fPos : Int) : Transfer := .write (oneByte fPos)

def readOneByte (fPos : Int) : Transfer := .read ⟨1, fPos, false, none⟩

theorem small_device_bare : WellFormed ⟨.ilp32, 4, 2⟩ (fun _ => none) (bareDevice 4 2) [⟨0, none⟩] :=
  bare_device_well_formed _ 4 2 ⟨by decide, by decide, by decide⟩ ⟨by decide, by decide, by decide⟩

theorem small_device_fits : FirstArrayFits .ilp32 2 [⟨0, none⟩] := fun _ _ _ => by unfold SlotsFit; decide

theorem written_byte_tells_the_same :
    TellsTheSame ⟨.ilp32, 4, 2⟩ (bareDevice 4 2) [writeOneByte 1, readOneByte 1] := by
  have inRange : ∀ transfer ∈ [writeOneByte 1, readOneByte 1], transfer.InRange := by
    simp [Transfer.InRange, Transfer.fPos, writeOneByte, readOneByte, oneByte]
  apply (tells_the_same_iff ⟨.ilp32, 4, 2⟩ (fun _ => none) (bareDevice 4 2) [⟨0, none⟩] [writeOneByte 1, readOneByte 1]
    small_device_bare small_device_fits inRange).mpr
  refine ⟨trivial, ?_, trivial⟩
  intro _ _ stored held j inside
  cases held
  obtain rfl : j = 0 := Nat.lt_one_iff.mp inside
  rfl

-- Byte 0 of the quantum that the write at 1 allocated is below the size.
theorem gap_before_the_write_leaks :
    WellFormed ⟨.ilp32, 4, 2⟩ (fun _ => none) (bareDevice 4 2) [⟨0, none⟩] ∧
      (∀ transfer ∈ [writeOneByte 1, readOneByte 0], transfer.InRange) ∧
      ¬ TellsTheSame ⟨.ilp32, 4, 2⟩ (bareDevice 4 2) [writeOneByte 1, readOneByte 0] := by
  refine ⟨small_device_bare, by simp [Transfer.InRange, Transfer.fPos, writeOneByte, readOneByte, oneByte], ?_⟩
  intro tells
  obtain ⟨replies, t, u, zeros, ones⟩ := tells _ _ (filled_refills 0 _) (filled_refills 1 _)
  cases zeros
  cases ones

end OneDriver.Scull
