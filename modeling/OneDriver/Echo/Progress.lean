import OneDriver.Echo.Write

set_option autoImplicit false

namespace OneDriver.Echo

-- How one write of a program fares: where its data cannot be read, and what strays.
structure Fate where
  fault : Option Nat
  stray : Nat
deriving DecidableEq, Repr

def Fate.request (fate : Fate) (uioOffset : Int) (data : List UInt8) : EchoRequest :=
  ⟨uioOffset, data, fate.fault, fate.stray⟩

-- A program that hands the remainder on, at the offset it was left at, until an
-- error or nothing remains; none is a program still at it when the fuel is gone.
def writeAll (abi : Abi) : Nat → (Nat → Fate) → Int → List UInt8 → EchoProg (Option Int)
  | 0, _, _, data => pure (if data = [] then some 0 else none)
  | fuel + 1, fates, uioOffset, data =>
      if data = [] then pure (some 0)
      else do
        let reply ← echoWrite abi ((fates 0).request uioOffset data)
        if reply.error ≠ 0 then pure (some reply.error)
        else do
          let rest := data.drop (data.length - reply.uioResid)
          writeAll abi fuel (fun i => fates (i + 1)) reply.uioOffset rest

def Progresses (abi : Abi) (request : EchoRequest) (s : EchoState) : Prop :=
  ∃ reply t, (echoWrite abi request).run s = .done reply t ∧
    (reply.error ≠ 0 ∨ reply.uioResid < request.data.length)

def Finishes (abi : Abi) (fates : Nat → Fate) (uioOffset : Int) (data : List UInt8) (s : EchoState) : Prop :=
  ∃ fuel result t, (writeAll abi fuel fates uioOffset data).run s = .done (some result) t

theorem einval_nonzero : einval ≠ 0 := by decide

theorem efault_nonzero : efault ≠ 0 := by decide

theorem faulted_write (abi : Abi) (request : EchoRequest) (s : EchoState) (base : Nat)
    (lands : request.uioOffset = base) (within : base ≤ bufferSize) (accepted : request.Accepted s)
    (faults : request.Faults base) :
    ∃ reply t, (echoWrite abi request).run s = .done reply t ∧ reply.error = efault :=
  ⟨_, _, run_echo_write abi request s base lands within accepted, if_pos faults⟩

theorem consumed_whole (request : EchoRequest) (base : Nat) (readable : ¬ request.Faults base) :
    request.consumed base = min (bufferSize - base) request.data.length :=
  copied_of_succeeds _ _ (Bool.eq_false_iff.mpr readable)

theorem readable_write (abi : Abi) (request : EchoRequest) (s : EchoState) (base : Nat)
    (lands : request.uioOffset = base) (within : base ≤ bufferSize) (accepted : request.Accepted s)
    (readable : ¬ request.Faults base) :
    (echoWrite abi request).run s = .done ⟨0, (base + min (bufferSize - base) request.data.length : Nat),
      request.data.length - min (bufferSize - base) request.data.length⟩ (s.after request base) := by
  have ran := run_echo_write abi request s base lands within accepted
  rw [consumed_whole request base readable] at ran
  rw [ran]
  congr 2
  exact if_neg readable

theorem progresses_iff (abi : Abi) (request : EchoRequest) (s : EchoState) (holds : EchoInvariant s)
    (some : request.data ≠ []) :
    Progresses abi request s ↔ ¬ (request.uioOffset = bufferSize ∧ s.len = bufferSize) := by
  have long := List.length_pos_iff.mpr some
  by_cases accepted : request.Accepted s
  · obtain ⟨base, lands, within, -⟩ := accepted_base request s holds accepted
    by_cases faults : request.Faults base
    · obtain ⟨reply, t, ran, error⟩ := faulted_write abi request s base lands within accepted faults
      obtain ⟨k, -, -, room⟩ := (faults_iff request base).mp faults
      refine iff_of_true ⟨reply, t, ran, .inl (error ▸ efault_nonzero)⟩ fun full => ?_
      omega
    · refine (Prog.run_exists_iff _ s _ _ _ (readable_write abi request s base lands within accepted faults)).trans ?_
      have full : (base : Int) = bufferSize → s.len = bufferSize := fun last => by
        cases accepted with
        | inl zero => exact absurd (lands.symm.trans zero) (by rw [last]; decide)
        | inr same => rw [← same, lands, last]
      simp only [lands, ne_eq, not_true_eq_false, false_or]
      omega
  · refine iff_of_true ⟨_, s, refused_write abi request s accepted, .inl einval_nonzero⟩ fun full => ?_
    exact accepted (.inr (full.1.trans full.2.symm))

theorem write_all_nothing (abi : Abi) (fuel : Nat) (fates : Nat → Fate) (uioOffset : Int) (s : EchoState) :
    (writeAll abi fuel fates uioOffset []).run s = .done (some 0) s := by
  cases fuel with
  | zero => rfl
  | succ fuel => rfl

theorem write_all_error (abi : Abi) (fuel : Nat) (fates : Nat → Fate) (uioOffset : Int) (data : List UInt8)
    (s t : EchoState) (reply : EchoReply) (more : data ≠ [])
    (ran : (echoWrite abi ((fates 0).request uioOffset data)).run s = .done reply t) (failed : reply.error ≠ 0) :
    (writeAll abi (fuel + 1) fates uioOffset data).run s = .done (some reply.error) t := by
  simp [writeAll, more, ran, failed]

theorem write_all_again (abi : Abi) (fuel : Nat) (fates : Nat → Fate) (uioOffset : Int) (data : List UInt8)
    (s t : EchoState) (reply : EchoReply) (more : data ≠ [])
    (ran : (echoWrite abi ((fates 0).request uioOffset data)).run s = .done reply t) (fine : reply.error = 0) :
    (writeAll abi (fuel + 1) fates uioOffset data).run s =
      (writeAll abi fuel (fun i => fates (i + 1)) reply.uioOffset (data.drop (data.length - reply.uioResid))).run t := by
  simp [writeAll, more, ran, fine]

-- At a full buffer each write succeeds, takes nothing and leaves the buffer full.
theorem full_never_finishes (abi : Abi) (fuel : Nat) (fates : Nat → Fate) (data : List UInt8) (s : EchoState)
    (more : data ≠ []) (full : s.len = bufferSize) :
    ∃ t, (writeAll abi fuel fates bufferSize data).run s = .done none t := by
  induction fuel generalizing fates s with
  | zero => exact ⟨s, by simp [writeAll, more]⟩
  | succ fuel ih =>
      have readable : ¬ ((fates 0).request bufferSize data).Faults bufferSize := by
        rw [faults_iff]
        omega
      have ran := readable_write abi ((fates 0).request bufferSize data) s bufferSize rfl (Nat.le_refl _)
        (.inr full.symm) readable
      have stays : (s.after ((fates 0).request bufferSize data) bufferSize).len = bufferSize := by
        simp [EchoState.after, consumed_whole _ _ readable]
      obtain ⟨u, stuck⟩ := ih (fun i => fates (i + 1)) _ stays
      refine ⟨u, ?_⟩
      rw [write_all_again abi fuel fates bufferSize data s _ _ more ran rfl]
      simpa [Fate.request] using stuck

theorem fitting_finishes (abi : Abi) (fates : Nat → Fate) (data : List UInt8) (s : EchoState) (base : Nat)
    (more : data ≠ []) (within : base ≤ bufferSize) (accepted : ((fates 0).request base data).Accepted s)
    (readable : ¬ ((fates 0).request base data).Faults base) (fits : base + data.length ≤ bufferSize) :
    Finishes abi fates base data s := by
  have ran := readable_write abi ((fates 0).request base data) s base rfl within accepted readable
  have whole : min (bufferSize - base) data.length = data.length := by omega
  refine ⟨1, 0, s.after ((fates 0).request base data) base, ?_⟩
  rw [write_all_again abi 0 fates base data s _ _ more ran rfl]
  simp only [Fate.request, whole, Nat.sub_self, Nat.sub_zero, List.drop_length]
  exact write_all_nothing _ _ _ _ _

theorem overflowing_never_finishes (abi : Abi) (fates : Nat → Fate) (data : List UInt8) (s : EchoState) (base : Nat)
    (within : base ≤ bufferSize) (accepted : ((fates 0).request base data).Accepted s)
    (readable : ¬ ((fates 0).request base data).Faults base) (long : bufferSize < base + data.length) :
    ¬ Finishes abi fates base data s := by
  intro finishes
  obtain ⟨fuel, result, t, finished⟩ := finishes
  have more : data ≠ [] := by
    rintro rfl
    simp only [List.length_nil] at long
    omega
  have ran := readable_write abi ((fates 0).request base data) s base rfl within accepted readable
  have room : min (bufferSize - base) data.length = bufferSize - base := by omega
  have filled : ((base + (bufferSize - base) : Nat) : Int) = bufferSize := by omega
  have full : (s.after ((fates 0).request base data) base).len = bufferSize := by
    change ((base + ((fates 0).request base data).consumed base : Nat) : Int) = bufferSize
    rw [consumed_whole _ _ readable]
    exact (congrArg (fun n : Nat => ((base + n : Nat) : Int)) room).trans filled
  have left : data.drop (data.length - (data.length - (bufferSize - base))) ≠ [] := by
    simp only [ne_eq, List.drop_eq_nil_iff]
    omega
  cases fuel with
  | zero => simp [writeAll, more] at finished
  | succ fuel =>
      obtain ⟨u, stuck⟩ := full_never_finishes abi fuel (fun i => fates (i + 1)) _ _ left full
      rw [write_all_again abi fuel fates base data s _ _ more ran rfl] at finished
      simp only [Fate.request, room, filled] at finished
      have answers := (Prog.run_unique finished stuck).1
      simp at answers

-- When such a program comes to an end: it has nothing to write, is refused, fits,
-- or fails at its first write.
def Ends (fates : Nat → Fate) (uioOffset : Int) (data : List UInt8) (s : EchoState) : Prop :=
  data = [] ∨ ¬ ((fates 0).request uioOffset data).Accepted s ∨ uioOffset + data.length ≤ bufferSize ∨
    ∃ k, (fates 0).fault = some k ∧ k < data.length ∧ uioOffset + k < bufferSize

theorem finishes_iff (abi : Abi) (fates : Nat → Fate) (uioOffset : Int) (data : List UInt8) (s : EchoState)
    (holds : EchoInvariant s) : Finishes abi fates uioOffset data s ↔ Ends fates uioOffset data s := by
  by_cases nothing : data = []
  · subst nothing
    exact iff_of_true ⟨0, 0, s, write_all_nothing abi 0 fates uioOffset s⟩ (.inl rfl)
  by_cases accepted : ((fates 0).request uioOffset data).Accepted s
  · obtain ⟨base, lands, within, -⟩ := accepted_base _ s holds accepted
    obtain rfl : uioOffset = base := lands
    have fault := faults_iff ((fates 0).request base data) base
    by_cases faults : ((fates 0).request base data).Faults base
    · obtain ⟨reply, t, ran, error⟩ := faulted_write abi _ s base rfl within accepted faults
      have failed : reply.error ≠ 0 := error ▸ efault_nonzero
      obtain ⟨k, at_, short, room⟩ := fault.mp faults
      exact iff_of_true ⟨1, _, t, write_all_error abi 0 fates base data s t reply nothing ran failed⟩
        (.inr (.inr (.inr ⟨k, at_, short, by exact_mod_cast room⟩)))
    · by_cases fits : base + data.length ≤ bufferSize
      · exact iff_of_true (fitting_finishes abi fates data s base nothing within accepted faults fits)
          (.inr (.inr (.inl (by exact_mod_cast fits))))
      · have never := overflowing_never_finishes abi fates data s base within accepted faults (by omega)
        refine iff_of_false never fun ends => ?_
        obtain empty | refused | short | ⟨k, at_, short, room⟩ := ends
        · exact nothing empty
        · exact refused accepted
        · exact fits (by exact_mod_cast short)
        · exact faults (fault.mpr ⟨k, at_, short, by exact_mod_cast room⟩)
  · have ran := refused_write abi _ s accepted
    exact iff_of_true ⟨1, _, s, write_all_error abi 0 fates uioOffset data s s _ nothing ran einval_nonzero⟩
      (.inr (.inl accepted))

theorem write_progress_iff (abi : Abi) (before : List EchoRequest) :
    ∃ replies s, (Prog.series (echoWrite abi) before).run echoLoaded = .done replies s ∧
      (∀ request : EchoRequest, request.data ≠ [] →
        (Progresses abi request s ↔ ¬ (request.uioOffset = bufferSize ∧ s.len = bufferSize))) ∧
      ∀ fates uioOffset data, Finishes abi fates uioOffset data s ↔ Ends fates uioOffset data s := by
  obtain ⟨replies, s, ran, holds⟩ := run_echo_writes abi before
  exact ⟨replies, s, ran, fun request some => progresses_iff abi request s holds some,
    fun fates uioOffset data => finishes_iff abi fates uioOffset data s holds⟩

theorem one_byte_too_many :
    ¬ Finishes .lp64 (fun _ => ⟨none, 0⟩) 0 (List.replicate 256 0) echoLoaded ∧
      ∃ s t, (echoWrite .lp64 ⟨0, List.replicate 256 0, none, 0⟩).run echoLoaded = .done ⟨0, 255, 1⟩ s ∧
        (echoWrite .lp64 ⟨255, [0], none, 0⟩).run s = .done ⟨0, 255, 1⟩ t := by
  have reads : ∀ (offset : Int) (data : List UInt8) (base : Nat), ¬ (EchoRequest.mk offset data none 0).Faults base :=
    fun offset data base faults => by simp [faults_iff] at faults
  have first := readable_write .lp64 ⟨0, List.replicate 256 0, none, 0⟩ echoLoaded 0 rfl (by decide) (.inl rfl)
    (reads 0 _ 0)
  simp only [List.length_replicate] at first
  have full : (255 : Int) = (echoLoaded.after ⟨0, List.replicate 256 0, none, 0⟩ 0).len := by
    change (255 : Int) = ((0 + (EchoRequest.mk 0 (List.replicate 256 0) none 0).consumed 0 : Nat) : Int)
    rw [consumed_whole _ _ (reads 0 _ 0), List.length_replicate]
    rfl
  have second := readable_write .lp64 ⟨255, [0], none, 0⟩ _ 255 rfl (Nat.le_refl _) (.inr full) (reads 255 [0] 255)
  refine ⟨?_, _, _, first, second⟩
  exact overflowing_never_finishes .lp64 (fun _ => ⟨none, 0⟩) _ echoLoaded 0 (by decide) (.inl rfl) (reads 0 _ 0)
    (by rw [List.length_replicate]; decide)

end OneDriver.Echo
