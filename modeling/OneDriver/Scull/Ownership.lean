import OneDriver.Scull.Calls
import OneDriver.Scull.Empty

set_option autoImplicit false

namespace OneDriver.Scull

def Sound (cfg : ScullConfig) (outside : Nat → Option Cell) (s : ScullState) : Prop :=
  ∃ chain, WellFormed cfg outside s chain ∧ FirstArrayFits cfg.abi s.qset chain

theorem device_sem (outside : Nat → Option Cell) (s : ScullState) (chain : List Entry) (sem : Nat)
    (holds : DeviceHolds outside s chain) : DeviceHolds outside { s with sem := sem } chain :=
  ⟨holds.geometry, holds.head, holds.linked, holds.owns⟩

-- Between down and up a body keeps the device, and up gives the semaphore back.
theorem locked_keeps (tolerates : ScullFault → Prop) (interrupted : Bool) (fPos : Int) (body : ScullProg ScullReply)
    (cfg : ScullConfig) (outside : Nat → Option Cell) (s : ScullState) (chain : List Entry)
    (holds : WellFormed cfg outside s chain) (fit : FirstArrayFits cfg.abi s.qset chain)
    (keeps : body.wpUpTo tolerates (fun _ t => Kept cfg.abi outside { s with sem := 0 } t) { s with sem := 0 }) :
    (locked interrupted fPos body).wpUpTo tolerates (fun _ t => Sound cfg outside t ∧ t.freed = s.freed) s := by
  cases interrupted with
  | true => exact ⟨⟨chain, holds, fit⟩, rfl⟩
  | false =>
      have idle := holds.idle
      simp only [locked, Bool.false_eq_true, if_false, Prog.wp_bind, Prog.wp_await, idle, Nat.sub_self]
      refine ⟨by decide, Prog.wp_mono _ _ _ _ _ keeps ?_⟩
      intro reply t kept
      obtain ⟨⟨chain', holds', fit'⟩, frame⟩ := kept
      simp only [Prog.wp_modify, Prog.wp_pure]
      refine ⟨⟨chain', ⟨device_sem outside t chain' _ holds', holds.params, ?_⟩, fit'⟩, frame.freed⟩
      simp [frame.sem]

theorem scull_write_keeps (cfg : ScullConfig) (call : WriteCall) (outside : Nat → Option Cell) (s : ScullState)
    (chain : List Entry) (holds : WellFormed cfg outside s chain) (fit : FirstArrayFits cfg.abi s.qset chain) :
    (scullWrite cfg call).wpUpTo (stray (position cfg.abi s.quantum s.qset call.fPos))
      (fun _ t => Sound cfg outside t ∧ t.freed = s.freed) s := by
  simp only [scullWrite, sampled, Prog.wp_bind, Prog.wp_look]
  exact locked_keeps _ _ _ _ cfg outside s chain holds fit
    (write_body_keeps cfg call outside _ chain (device_sem outside s chain 0 holds.device) fit)

theorem scull_read_keeps (cfg : ScullConfig) (call : ReadCall) (outside : Nat → Option Cell) (s : ScullState)
    (chain : List Entry) (holds : WellFormed cfg outside s chain) (fit : FirstArrayFits cfg.abi s.qset chain) :
    (scullRead cfg call).wpUpTo (stray (position cfg.abi s.quantum s.qset call.fPos))
      (fun _ t => Sound cfg outside t ∧ t.freed = s.freed) s := by
  have device := device_sem outside s chain 0 holds.device
  simp only [scullRead, sampled, Prog.wp_bind, Prog.wp_look]
  apply locked_keeps _ _ _ _ cfg outside s chain holds fit
  apply Prog.wp_mono _ _ _ _ _ (read_body_keeps cfg call outside _ chain device)
  intro _ t same
  subst same
  exact ⟨⟨chain, device, fit⟩, frame_refl _⟩

-- Offsets below 2^31 are the ones a 32-bit long can hold.
def ScullCall.InRange : ScullCall → Prop
  | .read call => 0 ≤ call.fPos ∧ call.fPos < 2 ^ 31
  | .write call => 0 ≤ call.fPos ∧ call.fPos < 2 ^ 31
  | _ => True

theorem in_range_never_stray (abi : Abi) (quantum qset fPos : Int) (geometry : Geometry quantum qset)
    (inRange : 0 ≤ fPos ∧ fPos < 2 ^ 31) (fault : ScullFault) : ¬ stray (position abi quantum qset fPos) fault :=
  fun strays => strays.2 (position_in_range abi quantum qset fPos geometry inRange.1 inRange.2)

theorem open_keeps (cfg : ScullConfig) (flags : Nat) (outside : Nat → Option Cell) (s : ScullState)
    (chain : List Entry) (holds : WellFormed cfg outside s chain) (fit : FirstArrayFits cfg.abi s.qset chain) :
    (scullOpen cfg flags).wp (fun _ t => Sound cfg outside t) s := by
  by_cases trims : writeOnly flags = true
  · simp only [scullOpen, if_pos trims, Prog.wp_bind]
    apply Prog.wp_of_run _ _ _ s _ 0 (run_scull_trim cfg outside s chain holds.device)
    exact ⟨[], trimmed_well_formed cfg outside s chain holds, by simp [FirstArrayFits]⟩
  · simp only [scullOpen, if_neg trims]
    exact ⟨chain, holds, fit⟩

theorem call_keeps (cfg : ScullConfig) (call : ScullCall) (outside : Nat → Option Cell) (s : ScullState)
    (sound : Sound cfg outside s) (inRange : call.InRange) :
    (call.prog cfg).wp (fun _ t => Sound cfg outside t) s := by
  obtain ⟨chain, holds, fit⟩ := sound
  have geometry := holds.device.geometry
  cases call with
  | opening flags =>
      simp only [ScullCall.prog, Prog.wp, Prog.wp_bind, Prog.wp_pure]
      exact open_keeps cfg flags outside s chain holds fit
  | release => exact ⟨chain, holds, fit⟩
  | read call =>
      have keeps := Prog.wp_tolerate _ _ _ s (fun _ => False) (scull_read_keeps cfg call outside s chain holds fit)
        fun fault strays => in_range_never_stray cfg.abi _ _ _ geometry inRange fault strays
      exact Prog.wp_mono _ _ _ _ s keeps fun _ t kept => kept.1
  | write call =>
      have keeps := Prog.wp_tolerate _ _ _ s (fun _ => False) (scull_write_keeps cfg call outside s chain holds fit)
        fun fault strays => in_range_never_stray cfg.abi _ _ _ geometry inRange fault strays
      exact Prog.wp_mono _ _ _ _ s keeps fun _ t kept => kept.1

-- What scull_trim does to a device: every cell of its chain is given to kfree once.
structure TrimsClean (cfg : ScullConfig) (outside : Nat → Option Cell) (s : ScullState) (chain : List Entry) : Prop where
  once : (footprint chain).Nodup
  trims : ∃ t, (scullTrim cfg).run s = .done 0 t ∧ t.freed = s.freed ++ footprint chain ∧
    (∀ a ∈ footprint chain, t.heap.cell a = none) ∧ WellFormed cfg outside t [] ∧
    t.size = 0 ∧ t.quantum = cfg.scullQuantum ∧ t.qset = cfg.scullQset

theorem well_formed_trims_clean (cfg : ScullConfig) (outside : Nat → Option Cell) (s : ScullState)
    (chain : List Entry) (holds : WellFormed cfg outside s chain) : TrimsClean cfg outside s chain where
  once := holds.device.owns.nodup
  trims := by
    have empty := trimmed_well_formed cfg outside s chain holds
    refine ⟨s.trimmed cfg chain, run_scull_trim cfg outside s chain holds.device, rfl, ?_, empty, rfl, rfl, rfl⟩
    intro a member
    rw [empty.device.owns.rest a (by simp), holds.device.owns.apart a member]

theorem scull_owns_its_memory (cfg : ScullConfig) (outside : Nat → Option Cell) (s : ScullState) (chain : List Entry)
    (calls : List ScullCall) (holds : WellFormed cfg outside s chain) (fit : FirstArrayFits cfg.abi s.qset chain)
    (inRange : ∀ call ∈ calls, call.InRange) :
    ∃ replies t chain', (Prog.series (ScullCall.prog cfg) calls).run s = .done replies t ∧
      WellFormed cfg outside t chain' ∧ TrimsClean cfg outside t chain' := by
  have ends := series_invariant (ScullCall.prog cfg) (fun _ _ => ()) (fun _ call => call.InRange)
    (fun _ t => Sound cfg outside t) (fun _ call t sound fits => call_keeps cfg call outside t sound fits) calls () s
    ⟨chain, holds, fit⟩ (follows_of_forall _ _ _ _ fun call member _ => inRange call member)
  obtain ⟨replies, t, ran, chain', holds', -⟩ := (Prog.wp_iff_run _ _ _).mp ends
  exact ⟨replies, t, chain', ran, holds', well_formed_trims_clean cfg outside t chain' holds'⟩

def bareDevice (quantum qset : Int) : ScullState where
  data := some 0
  quantum := quantum
  qset := qset
  size := 0
  sem := 1
  heap := ⟨[some (.node none none)]⟩
  freed := []

theorem bare_device_well_formed (cfg : ScullConfig) (quantum qset : Int) (geometry : Geometry quantum qset)
    (params : Geometry cfg.scullQuantum cfg.scullQset) :
    WellFormed cfg (fun _ => none) (bareDevice quantum qset) [⟨0, none⟩] := by
  refine ⟨⟨geometry, rfl, ⟨⟨rfl, by simp, by simp [Entry.blocks]⟩, trivial⟩, ?_⟩, params, rfl⟩
  refine ⟨by simp [Entry.footprint, Entry.blocks, Entry.data], ?_, fun _ _ => rfl, ?_⟩
  · intro a member
    obtain rfl : a = 0 := by simpa [Entry.footprint, Entry.blocks, Entry.data] using member
    simp [bareDevice, Heap.cell]
  · intro a absent
    have positive : a ≠ 0 := by simpa [Entry.footprint, Entry.blocks, Entry.data] using absent
    simp [bareDevice, Heap.cell, positive]

theorem small_device_owns_its_memory :
    ∃ replies t chain', (Prog.series (ScullCall.prog ⟨.ilp32, 4, 2⟩) [.write (oneByte 5)]).run (bareDevice 4 2) =
        .done replies t ∧
      WellFormed ⟨.ilp32, 4, 2⟩ (fun _ => none) t chain' ∧ TrimsClean ⟨.ilp32, 4, 2⟩ (fun _ => none) t chain' :=
  scull_owns_its_memory ⟨.ilp32, 4, 2⟩ (fun _ => none) (bareDevice 4 2) [⟨0, none⟩] [.write (oneByte 5)]
    (bare_device_well_formed _ 4 2 ⟨by decide, by decide, by decide⟩ ⟨by decide, by decide, by decide⟩)
    (fun _ _ _ => by unfold SlotsFit; decide) (by simp [ScullCall.InRange, oneByte])

-- Where size_t has 32 bits, (2^30 + 1) * sizeof(char *) is 4: the array has one slot.
theorem short_array_is_overrun :
    WellFormed ⟨.ilp32, 1, 2 ^ 30 + 1⟩ (fun _ => none) (bareDevice 1 (2 ^ 30 + 1)) [⟨0, none⟩] ∧
      (ScullCall.write (oneByte 1)).InRange ∧
      ¬ ∃ replies t chain', (Prog.series (ScullCall.prog ⟨.ilp32, 1, 2 ^ 30 + 1⟩) [.write (oneByte 1)]).run
          (bareDevice 1 (2 ^ 30 + 1)) = .done replies t ∧
        WellFormed ⟨.ilp32, 1, 2 ^ 30 + 1⟩ (fun _ => none) t chain' := by
  refine ⟨bare_device_well_formed _ 1 (2 ^ 30 + 1) ⟨by decide, by decide, by decide⟩ ⟨by decide, by decide, by decide⟩,
    by simp [ScullCall.InRange, oneByte], ?_⟩
  intro ends
  obtain ⟨replies, t, chain', ran, -⟩ := ends
  cases ran

end OneDriver.Scull
