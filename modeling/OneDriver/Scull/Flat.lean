import OneDriver.Scull.Empty
import OneDriver.Scull.Trim

set_option autoImplicit false

namespace OneDriver.Scull

-- What scull stands for: one array of bytes, of which some have been written.
structure FlatStore where
  bytes : Nat → Option UInt8
  size : Nat

def flatEmpty : FlatStore := ⟨fun _ => none, 0⟩

def FlatStore.write (store : FlatStore) (p : Nat) (data : List UInt8) : FlatStore where
  bytes := overlay store.bytes p (data.map some)
  size := max store.size (p + data.length)

-- One call moves no more than what is left of the quantum it starts in.
def transferred (quantum count p : Nat) : Nat := min count (quantum - p % quantum)

def WriteConforms (quantum : Nat) (call : WriteCall) (reply : ScullReply) : Prop :=
  reply.retval = transferred quantum call.data.length call.fPos.toNat

def FlatStore.after (store : FlatStore) (quantum : Nat) (call : WriteCall) : FlatStore :=
  store.write call.fPos.toNat (call.data.take (transferred quantum call.data.length call.fPos.toNat))

def ReadConforms (quantum : Nat) (store : FlatStore) (call : ReadCall) (reply : ScullReply) : Prop :=
  call.fPos.toNat < store.size →
    (∀ i, call.fPos.toNat ≤ i → i < store.size → (store.bytes i).isSome = true) →
      let n := transferred quantum (min call.count (store.size - call.fPos.toNat)) call.fPos.toNat
      0 < n ∧ reply.retval = n ∧ reply.bytes.map some = slice store.bytes call.fPos.toNat n

def Conforms (quantum : Nat) : FlatStore → List (ScullCall × ScullReply) → Prop
  | _, [] => True
  | store, (.write call, reply) :: rest =>
      WriteConforms quantum call reply ∧ Conforms quantum (store.after quantum call) rest
  | store, (.read call, reply) :: rest => ReadConforms quantum store call reply ∧ Conforms quantum store rest
  | store, (_, _) :: rest => Conforms quantum store rest

-- A read or a write of at least one byte that takes the semaphore, finds memory and
-- meets no fault in the user's buffer.
def ScullCall.Undisturbed : ScullCall → Prop
  | .write call => call.interrupted = false ∧ call.fault = none ∧ call.arrayMemory.isSome = true ∧
      call.blockMemory.isSome = true ∧ 0 < call.data.length ∧ 0 ≤ call.fPos ∧ call.fPos < 2 ^ 31
  | .read call => call.interrupted = false ∧ call.fault = none ∧ 0 < call.count ∧ 0 ≤ call.fPos ∧ call.fPos < 2 ^ 31
  | _ => False

def ScullCall.writes : ScullCall → Bool
  | .write _ => true
  | _ => false

-- The state a write-only open of a sound or a still empty device returns in.
def JustTrimmed (cfg : ScullConfig) (s : ScullState) : Prop :=
  ∃ before flags, writeOnly flags = true ∧ (Empty before ∨ ∃ outside chain, WellFormed cfg outside before chain) ∧
    (scullOpen cfg flags).run before = .done 0 s

theorem just_trimmed_empty (cfg : ScullConfig) (s : ScullState) (trimmed : JustTrimmed cfg s) :
    Empty s ∧ s.quantum = cfg.scullQuantum ∧ s.qset = cfg.scullQset := by
  obtain ⟨before, flags, only, device, ran⟩ := trimmed
  rw [scullOpen, if_pos only, Prog.run_bind] at ran
  cases device with
  | inl empty =>
      rw [run_trim_empty cfg before empty.data] at ran
      cases ran
      exact ⟨⟨rfl, rfl, empty.idle⟩, rfl, rfl⟩
  | inr sound =>
      obtain ⟨outside, chain, holds⟩ := sound
      rw [run_scull_trim cfg outside before chain holds.device] at ran
      cases ran
      exact ⟨⟨rfl, rfl, holds.idle⟩, rfl, rfl⟩

-- With no node to write to, every write is refused and every read is at the end.
def emptyReply : ScullCall → ScullReply
  | .write call => ⟨-einval, call.fPos, []⟩
  | .read call => ⟨0, call.fPos, []⟩
  | _ => ⟨0, 0, []⟩

theorem run_call_empty (cfg : ScullConfig) (call : ScullCall) (s : ScullState) (empty : Empty s)
    (geometry : Geometry s.quantum s.qset) (undisturbed : call.Undisturbed) :
    (call.prog cfg).run s = .done (emptyReply call) s := by
  cases call with
  | opening flags => exact undisturbed.elim
  | release => exact undisturbed.elim
  | write call =>
      have positive := Int.mul_pos geometry.quantumPos geometry.qsetPos
      have nonzero : itemsizeOf s ≠ 0 := by
        rw [itemsizeOf, int32_eq _ (by omega) geometry.product]
        exact Int.ne_of_gt positive
      exact (run_write_empty cfg call s empty undisturbed.1).trans (if_neg nonzero)
  | read call =>
      obtain ⟨waits, -, -, low, high⟩ := undisturbed
      have exactly := mixed_eq cfg.abi call.fPos low (by omega)
      exact (run_read_empty cfg call s empty waits).trans (if_neg (by omega))

theorem run_calls_empty (cfg : ScullConfig) (calls : List ScullCall) (s : ScullState) (empty : Empty s)
    (geometry : Geometry s.quantum s.qset) (undisturbed : ∀ call ∈ calls, call.Undisturbed) :
    (Prog.series (ScullCall.prog cfg) calls).run s = .done (calls.map emptyReply) s := by
  induction calls with
  | nil => rfl
  | cons call rest ih =>
      rw [Prog.run_series_cons, run_call_empty cfg call s empty geometry (undisturbed call (by simp)), outcome_bind_done,
        ih fun later member => undisturbed later (by simp [member])]
      rfl

theorem refused_write_not_conforming (quantum : Nat) (call : WriteCall) : ¬ WriteConforms quantum call ⟨-einval, call.fPos, []⟩ := by
  intro conforms
  simp only [WriteConforms, einval] at conforms
  omega

theorem conforming_never_writes (quantum : Nat) (calls : List ScullCall) (store : FlatStore)
    (undisturbed : ∀ call ∈ calls, call.Undisturbed) (conforms : Conforms quantum store (calls.zip (calls.map emptyReply))) :
    ∀ call ∈ calls, call.writes = false := by
  induction calls generalizing store with
  | nil => simp
  | cons call rest ih =>
      have later : ∀ call ∈ rest, call.Undisturbed := fun call member => undisturbed call (by simp [member])
      cases call with
      | opening flags => exact (undisturbed (.opening flags) (by simp)).elim
      | release => exact (undisturbed .release (by simp)).elim
      | write call => exact absurd conforms.1 (refused_write_not_conforming quantum call)
      | read call =>
          intro other member
          cases List.mem_cons.mp member with
          | inl same => rw [same]; rfl
          | inr inRest => exact ih store later conforms.2 other inRest

theorem reads_conform (quantum : Nat) (calls : List ScullCall) (reads : ∀ call ∈ calls, call.writes = false) :
    Conforms quantum flatEmpty (calls.zip (calls.map emptyReply)) := by
  induction calls with
  | nil => trivial
  | cons call rest ih =>
      have later := ih fun call member => reads call (by simp [member])
      cases call with
      | opening flags => exact later
      | release => exact later
      | write call => exact absurd (reads (.write call) (by simp)) (by simp [ScullCall.writes])
      | read call => exact ⟨fun inside => absurd inside (Nat.not_lt_zero _), later⟩

theorem refines_flat_store_iff (cfg : ScullConfig) (s : ScullState) (calls : List ScullCall)
    (params : Geometry cfg.scullQuantum cfg.scullQset) (trimmed : JustTrimmed cfg s)
    (undisturbed : ∀ call ∈ calls, call.Undisturbed) :
    (∃ replies t, (Prog.series (ScullCall.prog cfg) calls).run s = .done replies t ∧
        Conforms cfg.scullQuantum.toNat flatEmpty (calls.zip replies)) ↔
      ∀ call ∈ calls, call.writes = false := by
  obtain ⟨empty, quantum, qset⟩ := just_trimmed_empty cfg s trimmed
  have ran := run_calls_empty cfg calls s empty (by rw [quantum, qset]; exact params) undisturbed
  constructor
  · intro refines
    obtain ⟨replies, t, ran', conforms⟩ := refines
    rw [ran] at ran'
    cases ran'
    exact conforming_never_writes _ calls flatEmpty undisturbed conforms
  · intro reads
    exact ⟨_, s, ran, reads_conform _ calls reads⟩

def thousands : ScullConfig := ⟨.ilp32, 1000, 1000⟩

theorem thousands_geometry : Geometry thousands.scullQuantum thousands.scullQset := ⟨by decide, by decide, by decide⟩

def trimmedDevice : ScullState := { scullLoaded with quantum := 1000, qset := 1000 }

theorem trimmed_device : JustTrimmed thousands trimmedDevice := ⟨scullLoaded, 1, rfl, .inl loaded_empty, rfl⟩

theorem reads_of_trimmed_device :
    ∃ replies t, (Prog.series (ScullCall.prog thousands) [.read ⟨7, 0, false, none⟩]).run trimmedDevice = .done replies t ∧
      Conforms 1000 flatEmpty ([.read ⟨7, 0, false, none⟩].zip replies) :=
  (refines_flat_store_iff thousands trimmedDevice [.read ⟨7, 0, false, none⟩] thousands_geometry trimmed_device
    (by simp [ScullCall.Undisturbed])).mpr (by simp [ScullCall.writes])

-- The first write after a write-only open finds no node and no code that makes one.
theorem write_to_trimmed_device :
    JustTrimmed thousands trimmedDevice ∧ (ScullCall.write (oneByte 0)).Undisturbed ∧
      ∃ replies t, (Prog.series (ScullCall.prog thousands) [.write (oneByte 0)]).run trimmedDevice = .done replies t ∧
        replies = [⟨-22, 0, []⟩] ∧ ¬ Conforms 1000 flatEmpty ([.write (oneByte 0)].zip replies) := by
  refine ⟨⟨scullLoaded, 1, rfl, .inl loaded_empty, rfl⟩, by simp [ScullCall.Undisturbed, oneByte], _, _, rfl, rfl, ?_⟩
  intro conforms
  exact absurd conforms.1 (by unfold WriteConforms; decide)

end OneDriver.Scull
