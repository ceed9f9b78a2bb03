import OneDriver.Serial
import OneDriver.Scull.Contents
import OneDriver.Scull.Sections

set_option autoImplicit false

namespace OneDriver.Scull

-- The device between two transfers, and while one of them has the semaphore.
def deviceLock (abi : Abi) (outside : Nat → Option Cell) (quantum qset : Int) : Lock ScullLabel ScullState where
  free := fun s => (∃ chain, DeviceHolds outside s chain ∧ FirstArrayFits abi s.qset chain) ∧ s.sem = 1 ∧
    s.quantum = quantum ∧ s.qset = qset
  taken := fun s => s.sem = 0 ∧ s.quantum = quantum ∧ s.qset = qset
  locks := fun label => label = .down
  before := fun _ _ => True

section Transfer

variable (cfg : ScullConfig) (outside : Nat → Option Cell) (quantum qset : Int)

theorem transfer_served (transfer : Transfer) (s : ScullState) (inRange : transfer.InRange)
    (free : (deviceLock cfg.abi outside quantum qset).free s) :
    ∃ reply t, (transfer.prog cfg).run s = .done reply t ∧ (deviceLock cfg.abi outside quantum qset).free t := by
  obtain ⟨⟨chain, holds, fit⟩, idle, sameQuantum, sameQset⟩ := free
  obtain ⟨reply, t, chain', ran, shows', frame, -⟩ := transfer_refines (fun _ => True) cfg outside s chain
    (contentsOf s chain) transfer idle (contents_shown _ cfg.abi outside s chain holds fit) inRange
    (by cases transfer <;> simp [Transfer.Admits])
  exact ⟨reply, t, ran, ⟨chain', shows'.device, shows'.fit⟩, frame.sem.trans idle, frame.quantum.trans sameQuantum,
    frame.qset.trans sameQset⟩

-- The two looks before the semaphore see the geometry the whole transfer sees.
theorem sampled_sectioned (interrupted : Bool) (fPos : Int) (body : Int → Int → ScullProg ScullReply)
    (steady : SteadyInside (body quantum qset))
    (served : ∀ s, (deviceLock cfg.abi outside quantum qset).free s → ∃ reply t,
      (sampled fun quantum qset => locked interrupted fPos (body quantum qset)).run s = .done reply t ∧
        (deviceLock cfg.abi outside quantum qset).free t) :
    (sampled fun quantum qset => locked interrupted fPos (body quantum qset)).Sectioned
      (deviceLock cfg.abi outside quantum qset)
      (sampled fun quantum qset => locked interrupted fPos (body quantum qset)).run := by
  have geometry : ∀ s, (deviceLock cfg.abi outside quantum qset).free s ∨
      (deviceLock cfg.abi outside quantum qset).taken s → s.quantum = quantum ∧ s.qset = qset := by
    intro s here
    rcases here with ⟨-, -, same⟩ | ⟨-, same⟩
    · exact same
    · exact same
  apply Prog.sectioned_look
  intro s here
  rw [(geometry s here).1]
  apply Prog.sectioned_look
  intro s here
  rw [(geometry s here).2]
  cases interrupted with
  | true =>
      intro s free
      rfl
  | false =>
      apply Prog.sectioned_await
      · intro s taken
        simp [taken.1]
      · intro s free
        obtain ⟨reply, t, ran, free'⟩ := served s free
        obtain ⟨-, idle, rfl, rfl⟩ := free
        have held : { s with sem := s.sem - 1 } = s.held := by rw [ScullState.held, idle]
        rw [held]
        refine ⟨by simp [idle], ⟨rfl, rfl, rfl⟩, reply, t, ran, ?_⟩
        simp only [sampled, Prog.run_bind, Prog.run_look, outcome_bind_done, run_locked _ _ s idle] at ran
        cases alone : (body s.quantum s.qset).run s.held with
        | crashed f u => simp [alone] at ran
        | blocked u => simp [alone] at ran
        | done r u =>
            rw [alone, outcome_bind_done, Outcome.done.injEq] at ran
            obtain ⟨rfl, rfl⟩ := ran
            apply Prog.finishing_alone _ _ _ s.held u _ r r alone
            · apply Prog.steady_along Frame .inside _ _ _ steady _ ⟨rfl, rfl, rfl⟩
              intro v w here frame
              exact ⟨frame.sem.trans here.1, frame.quantum.trans here.2.1, frame.qset.trans here.2.2⟩
            · exact ⟨rfl, .inr ⟨free', rfl, rfl⟩⟩

theorem transfer_sectioned (transfer : Transfer) (inRange : transfer.InRange) :
    (transfer.prog cfg).Sectioned (deviceLock cfg.abi outside quantum qset) (transfer.prog cfg).run := by
  have served := transfer_served cfg outside quantum qset transfer
  cases transfer with
  | read call =>
      exact sampled_sectioned cfg outside quantum qset call.interrupted call.fPos (readBody cfg call)
        (read_body_steady cfg quantum qset call) fun s free => served s inRange free
  | write call =>
      exact sampled_sectioned cfg outside quantum qset call.interrupted call.fPos (writeBody cfg call)
        (write_body_steady cfg quantum qset call) fun s free => served s inRange free

theorem transfer_opens (transfer : Transfer) (reply : ScullReply) : transfer.prog cfg ≠ .ret reply := by
  cases transfer with
  | read call => exact fun returns => by cases returns
  | write call => exact fun returns => by cases returns

end Transfer

theorem answers_snoc (abi : Abi) (quantum qset : Int) (c : Contents) (past : List Transfer) (transfer : Transfer) :
    c.answers abi quantum qset (past ++ [transfer]) = c.answers abi quantum qset past ++
      [((past.foldl (Contents.after abi quantum qset) c).transfer abi quantum qset transfer).1] := by
  induction past generalizing c with
  | nil => rfl
  | cons first rest ih => exact congrArg (List.cons _) (ih (c.after abi quantum qset first))

section Run

variable (admits : UInt8 → Prop) (cfg : ScullConfig) (outside : Nat → Option Cell) (s : ScullState) (c : Contents)

-- What transfers make of a device when each runs by itself.
structure Answered (transfers : List (Transfer × ScullReply)) (t : ScullState) : Prop where
  answers : List.Forall₂ (AnswerShows admits) (c.answers cfg.abi s.quantum s.qset (transfers.map Prod.fst))
    (transfers.map Prod.snd)
  leaves : ∃ chain, Shows admits cfg.abi outside t chain
    ((transfers.map Prod.fst).foldl (Contents.after cfg.abi s.quantum s.qset) c)
  idle : t.sem = 1
  quantum : t.quantum = s.quantum
  qset : t.qset = s.qset

theorem history_answered (chain : List Entry) (shows' : Shows admits cfg.abi outside s chain c) (idle : s.sem = 1)
    (past : List (Transfer × ScullReply)) (last : ScullState)
    (history : History (Transfer.prog cfg) (fun _ _ => True) s past last)
    (fits : ∀ entry ∈ past, entry.1.InRange ∧ entry.1.Admits admits) :
    Answered admits cfg outside s c past last := by
  refine history_invariant (Transfer.prog cfg) (fun _ _ => True) s
    (fun past t => (∀ entry ∈ past, entry.1.InRange ∧ entry.1.Admits admits) → Answered admits cfg outside s c past t)
    (fun _ => ⟨.nil, ⟨chain, shows'⟩, idle, rfl, rfl⟩) ?_ past last history fits
  intro past t u transfer reply answered _ ran fits
  obtain ⟨answers, ⟨chain, shown⟩, idle, quantum, qset⟩ := answered fun entry member => fits entry (by simp [member])
  obtain ⟨inRange, admitted⟩ := fits (transfer, reply) (by simp)
  obtain ⟨reply', u', chain', ran', shown', frame, answer⟩ :=
    transfer_refines admits cfg outside t chain _ transfer idle shown inRange admitted
  obtain ⟨rfl, rfl⟩ := Prog.run_unique ran ran'
  rw [quantum, qset] at shown' answer
  refine ⟨?_, ⟨chain', ?_⟩, frame.sem.trans idle, frame.quantum.trans quantum, frame.qset.trans qset⟩
  · rw [List.map_append, List.map_append, List.map_singleton, List.map_singleton, answers_snoc]
    exact List.rel_append answers (.cons answer .nil)
  · rw [List.map_append, List.foldl_append]
    exact shown'

abbrev TransferLog := List (Nat × Transfer × ScullReply)

-- One order of the transfers that have returned, in which the contents answer them
-- as the processes were answered; at the end the device holds what they leave.
structure Linear (procs : List (List Transfer)) (pool : Pool ScullLabel ScullState ScullFault (List ScullReply))
    (log : TransferLog) : Prop where
  accounts : Accounts procs pool log
  answers : List.Forall₂ (AnswerShows admits)
    (c.answers cfg.abi s.quantum s.qset ((log.map Prod.snd).map Prod.fst)) ((log.map Prod.snd).map Prod.snd)
  leaves : pool.finished = true → pool.shared.sem = 1 ∧ ∃ chain, Shows admits cfg.abi outside pool.shared chain
    (((log.map Prod.snd).map Prod.fst).foldl (Contents.after cfg.abi s.quantum s.qset) c)

def transferring (procs : List (List Transfer)) : Pool ScullLabel ScullState ScullFault (List ScullReply) :=
  .start s (procs.map (Prog.series (Transfer.prog cfg)))

abbrev SerialTransfers (procs : List (List Transfer)) := Serial (deviceLock cfg.abi outside s.quantum s.qset)
  (Transfer.prog cfg) s procs

theorem serial_linear (procs : List (List Transfer)) (chain : List Entry)
    (shows' : Shows admits cfg.abi outside s chain c) (idle : s.sem = 1)
    (fits : ∀ calls ∈ procs, ∀ transfer ∈ calls, transfer.InRange ∧ transfer.Admits admits)
    (pool : Pool ScullLabel ScullState ScullFault (List ScullReply)) (log : TransferLog) (base : ScullState)
    (owner : Option Nat) (serial : SerialTransfers cfg outside s procs pool log base owner) :
    Linear admits cfg outside s c procs pool log := by
  have accounts := serial_accounts _ _ s procs pool log base owner serial
  have answered := history_answered admits cfg outside s c chain shows' idle _ base serial.history (by
    intro entry member
    obtain ⟨⟨i, call⟩, listed, rfl⟩ := List.mem_map.mp member
    obtain ⟨calls, known, made⟩ := accounts_member procs pool log accounts (i, call) listed
    exact fits calls known call.1 made)
  refine ⟨accounts, answered.answers, fun finished => ?_⟩
  rw [serial_finished _ _ s procs pool log base owner serial finished]
  exact ⟨answered.idle, answered.leaves⟩

end Run

-- Reads and writes of one device are linearizable under dev->sem: wherever the
-- processes have got to, and however they go on, the transfers that have returned
-- stand in one order, which is each process's own, keeps every transfer that had
-- returned before those begun later, and is answered as by the contents alone.
theorem transfers_linearize (admits : UInt8 → Prop) (cfg : ScullConfig) (outside : Nat → Option Cell) (s : ScullState)
    (chain : List Entry) (procs : List (List Transfer)) (holds : DeviceHolds outside s chain)
    (fit : FirstArrayFits cfg.abi s.qset chain) (idle : s.sem = 1)
    (fits : ∀ calls ∈ procs, ∀ transfer ∈ calls, transfer.InRange ∧ transfer.Admits admits) (schedule : List Nat)
    (pool : Pool ScullLabel ScullState ScullFault (List ScullReply))
    (ran : (transferring cfg s procs).exec schedule = some pool) :
    ∃ log : TransferLog, Linear admits cfg outside s (contentsOf s chain) procs pool log ∧
      (∀ later last, pool.exec later = some last →
        ∃ more, Linear admits cfg outside s (contentsOf s chain) procs last (log ++ more)) ∧
      ∃ later last, pool.exec later = some last ∧ last.finished = true := by
  have shows' := contents_shown admits cfg.abi outside s chain holds fit
  have sectioned : ∀ calls ∈ procs, ∀ transfer ∈ calls, (transfer.prog cfg).Sectioned
      (deviceLock cfg.abi outside s.quantum s.qset) (transfer.prog cfg).run :=
    fun calls listed transfer made => transfer_sectioned cfg outside _ _ transfer (fits calls listed transfer made).1
  have opens : ∀ calls ∈ procs, ∀ transfer ∈ calls, ∀ reply, transfer.prog cfg ≠ .ret reply :=
    fun _ _ transfer _ reply => transfer_opens cfg transfer reply
  have linear := serial_linear admits cfg outside s _ procs chain shows' idle fits
  have begins := serial_start (deviceLock cfg.abi outside s.quantum s.qset) (Transfer.prog cfg) s procs
    ⟨⟨chain, holds, fit⟩, idle, rfl, rfl⟩ sectioned opens
  obtain ⟨log, base, owner, serial⟩ := serial_run _ _ s procs _ _ pool schedule [] sectioned opens
    (Pool.exec_run _ pool schedule ran) ⟨s, none, begins⟩
  rw [List.nil_append] at serial
  refine ⟨log, linear pool log base owner serial, ?_, ?_⟩
  · intro later last continued
    obtain ⟨more, base', owner', serial'⟩ := serial_run _ _ s procs _ pool last later log sectioned opens
      (Pool.exec_run pool last later continued) ⟨base, owner, serial⟩
    exact ⟨more, linear last (log ++ more) base' owner' serial'⟩
  · exact serial_finishes _ _ s procs pool log base owner sectioned opens serial

-- A reader waits for a writer of the same byte.
theorem reader_and_writer_linearize :
    ∃ pool, (transferring ⟨.ilp32, 4, 2⟩ (bareDevice 4 2) [[.write (oneByte 5)], [.read ⟨1, 5, false, none⟩]]).exec
        [0, 1, 0, 1, 0] = some pool ∧
      ∃ log : TransferLog, Linear (· = 0) ⟨.ilp32, 4, 2⟩ (fun _ => none) (bareDevice 4 2)
        (contentsOf (bareDevice 4 2) [⟨0, none⟩]) [[.write (oneByte 5)], [.read ⟨1, 5, false, none⟩]] pool log := by
  obtain ⟨pool, ran⟩ : ∃ pool, (transferring ⟨.ilp32, 4, 2⟩ (bareDevice 4 2)
      [[.write (oneByte 5)], [.read ⟨1, 5, false, none⟩]]).exec [0, 1, 0, 1, 0] = some pool := ⟨_, rfl⟩
  have holds := bare_device_well_formed ⟨.ilp32, 4, 2⟩ 4 2 ⟨by decide, by decide, by decide⟩
    ⟨by decide, by decide, by decide⟩
  obtain ⟨log, linear, -⟩ := transfers_linearize (· = 0) ⟨.ilp32, 4, 2⟩ (fun _ => none) (bareDevice 4 2) [⟨0, none⟩]
    [[.write (oneByte 5)], [.read ⟨1, 5, false, none⟩]] holds.device (fun _ _ _ => by unfold SlotsFit; decide) rfl
    (by simp [Transfer.InRange, Transfer.fPos, Transfer.Admits, oneByte]) [0, 1, 0, 1, 0] pool ran
  exact ⟨pool, ran, log, linear⟩

end OneDriver.Scull
