import OneDriver.Part
import OneDriver.Echo.Reading

set_option autoImplicit false

namespace OneDriver.Echo

def enxio : Int := 6

def eopnotsupp : Int := 45

inductive Method where
  | dOpen
  | dClose
  | dRead
  | dWrite
deriving DecidableEq, Repr

-- Whether the method looks at what echomsg points to.
def Method.touches : Method → Bool
  | .dRead | .dWrite => true
  | _ => false

-- Whether echo_dev is a node in /dev, the calls that are in one of its methods,
-- whether echomsg is set (it is NULL before), and the memory that malloc gave for it
-- until free takes it back.
structure EchoModule where
  node : Bool
  threads : List (Nat × Method)
  assigned : Bool
  allocated : Bool
  echomsg : EchoState

inductive ModuleLabel where
  | makeDev
  | malloc
  | destroyDev
  | drain
  | free
  | enter (method : Method)
  | leave
  | echomsg (label : EchoLabel)
deriving DecidableEq, Repr

inductive ModuleFault where
  | noDevice
  | noMessage
  | echo (fault : EchoFault)
deriving DecidableEq, Repr

abbrev ModuleProg := Prog ModuleLabel EchoModule ModuleFault

def messagePart : Part EchoModule EchoState where
  get := EchoModule.echomsg
  set := fun echomsg s => { s with echomsg := echomsg }
  get_set := fun _ _ => rfl
  set_get := fun _ => rfl
  set_set := fun _ _ _ => rfl

def needsMessage (_ : EchoLabel) (s : EchoModule) : Option ModuleFault :=
  if s.allocated then none else some .noMessage

def onMessage {α : Type} (p : EchoProg α) : ModuleProg α := p.within messagePart .echomsg .echo needsMessage

def makeDevP (made : Int) : ModuleProg Int := do
  Prog.modify .makeDev fun s => if made = 0 then { s with node := true } else s
  pure made

-- echo_dev must be a node: where make_dev_p failed there is none, and one that has
-- been destroyed is none any more. It returns when the last call that got in has left.
def destroyDev : ModuleProg Unit := do
  Prog.access .destroyDev fun s => if s.node then .ok ((), { s with node := false }) else .error .noDevice
  Prog.await .drain (fun s => s.threads.isEmpty) id

-- Memory that has been given back must not be freed again; NULL may.
def freeMessage : ModuleProg Unit :=
  .access .free fun s =>
    if s.allocated then .ok ((), { s with allocated := false })
    else if s.assigned then .error .noMessage
    else .ok ((), s)

inductive ModEvent where
  | modLoad
  | modUnload
  | modShutdown
  | modQuiesce
deriving DecidableEq, Repr

-- `made` is what make_dev_p returns.
def echoLoader (made : Int) : ModEvent → ModuleProg Int
  | .modLoad => do
      let error ← makeDevP made
      if error ≠ 0 then pure error
      else do
        Prog.modify .malloc fun s => { s with assigned := true, allocated := true, echomsg := echoLoaded }
        pure error
  | .modUnload => do
      destroyDev
      freeMessage
      pure 0
  | _ => pure eopnotsupp

-- An event of the kernel's module framework, which sends them as it likes, and what
-- make_dev_p would return there.
structure LoaderCall where
  what : ModEvent
  made : Int
deriving DecidableEq, Repr

def LoaderCall.prog (call : LoaderCall) : ModuleProg Int := echoLoader call.made call.what

def echoOpen : ModuleProg Int := pure 0

def echoClose : ModuleProg Int := pure 0

inductive EchoCall where
  | opening
  | closing
  | read (request : ReadRequest)
  | write (request : EchoRequest)
deriving DecidableEq, Repr

def EchoCall.method : EchoCall → Method
  | .opening => .dOpen
  | .closing => .dClose
  | .read _ => .dRead
  | .write _ => .dWrite

def EchoCall.body (abi : Abi) : EchoCall → ModuleProg Int
  | .opening => echoOpen
  | .closing => echoClose
  | .read request => do
      let reply ← onMessage (echoRead abi request)
      pure reply.1.error
  | .write request => do
      let reply ← onMessage (echoWrite abi request)
      pure reply.error

-- devfs lets a call into the method while the node is there.
def enter (task : Nat) (method : Method) : ModuleProg Bool :=
  .act (.enter method) (fun _ => true)
    (fun s => if s.node then { s with threads := (task, method) :: s.threads } else s) fun s => .ret s.node

def leave (task : Nat) (method : Method) : ModuleProg Unit :=
  .modify .leave fun s => { s with threads := s.threads.erase (task, method) }

def EchoCall.prog (abi : Abi) (task : Nat) (call : EchoCall) : ModuleProg Int := do
  let entered ← enter task call.method
  if entered then do
    let error ← call.body abi
    leave task call.method
    pure error
  else pure enxio

def unloaded : EchoModule := ⟨false, [], false, false, echoLoaded⟩

abbrev EchoPool := Pool ModuleLabel EchoModule ModuleFault (List Int)

-- Thread 0 handles the framework's events, one after the other; the task of a caller
-- is its place among the threads.
def attached (abi : Abi) (events : List LoaderCall) (tasks : List (List EchoCall)) : EchoPool :=
  Pool.start unloaded (Prog.series LoaderCall.prog events ::
    tasks.mapIdx fun i calls => Prog.series (EchoCall.prog abi (i + 1)) calls)

-- Whether the module is loaded, by the events so far.
def loadedAfter : Bool → LoaderCall → Bool
  | loaded, ⟨.modLoad, made⟩ => loaded || made == 0
  | _, ⟨.modUnload, _⟩ => false
  | loaded, _ => loaded

-- MAKEDEV_CHECKNAME: make_dev_p makes no node of a name that is taken.
def NameChecked (loaded : Bool) (call : LoaderCall) : Prop := call.what = .modLoad → call.made = 0 → loaded = false

-- MOD_UNLOAD comes only after a MOD_LOAD that returned 0.
def UnloadsLoaded (loaded : Bool) (call : LoaderCall) : Prop := call.what = .modUnload → loaded = true

-- No read or write gets in between make_dev_p and malloc, nor a write while
-- another is in.
def Orderly : ModuleLabel → EchoModule → Bool
  | .enter method, s => !s.node ||
      (!method.touches || s.allocated) && (method != .dWrite || s.threads.all fun entry => entry.2 != .dWrite)
  | _, _ => true

def entersOrderly (pool : EchoPool) (i : Nat) : Prop :=
  ((pool.threads[i]?.bind Thread.upcoming).all fun label => Orderly label pool.shared) = true

instance (pool : EchoPool) (i : Nat) : Decidable (entersOrderly pool i) := inferInstanceAs (Decidable (_ = true))

-- Offsets are not negative: what a negative one lets through is another matter.
def EchoCall.InRange : EchoCall → Prop
  | .read request => 0 ≤ request.uioOffset
  | _ => True

def Ranged (m : EchoState) : Prop := 0 ≤ m.len ∧ m.len ≤ bufferSize

structure Sound (s : EchoModule) : Prop where
  touched : ∀ entry ∈ s.threads, entry.2.touches = true → s.allocated = true
  ranged : s.allocated = true → Ranged s.echomsg
  whole : s.allocated = true → (∀ entry ∈ s.threads, entry.2 ≠ .dWrite) → EchoInvariant s.echomsg

inductive Stage where
  | outside
  | reading
  | writing (m : EchoState)
  | unloaded
  | named
  | loaded
  | destroyed
  | drained

def At (task : Nat) : Stage → EchoModule → Prop
  | .outside, s => Sound s
  | .reading, s => Sound s ∧ (task, .dRead) ∈ s.threads
  | .writing m, s => Sound s ∧ (task, .dWrite) ∈ s.threads ∧
      (∀ entry ∈ s.threads, entry.2 = .dWrite → entry.1 = task) ∧ s.echomsg = m
  | .unloaded, s => Sound s ∧ task = 0 ∧ s.node = false ∧ s.threads = [] ∧ s.allocated = false
  | .named, s => Sound s ∧ task = 0 ∧ s.node = true ∧ s.allocated = false
  | .loaded, s => Sound s ∧ task = 0 ∧ s.node = true ∧ s.allocated = true
  | .destroyed, s => Sound s ∧ task = 0 ∧ s.node = false ∧ s.allocated = true
  | .drained, s => Sound s ∧ task = 0 ∧ s.node = false ∧ s.threads = [] ∧ s.allocated = true

-- Only the loader may fault, and only by unloading what is not there, where the
-- events excuse it.
def loaderContract (excused : Prop) (i : Nat) : Contract ModuleLabel EchoModule ModuleFault :=
  .keeping (At i) (fun s t => ∀ j, j ≠ i → Preserves (At j) s t) (fun label s => Orderly label s = true)
    (fun _ _ => True) fun fault => i = 0 ∧ fault = .noDevice ∧ excused

theorem at_stable (excused : Prop) (i : Nat) (stage : Stage) : (loaderContract excused i).Stable (At i stage) :=
  fun _ _ holds kept => kept stage holds

theorem loader_compatible (excused : Prop) : Pool.Compatible (loaderContract excused) :=
  fun _ j other _ _ given => given j other

theorem at_sound (task : Nat) (stage : Stage) (s : EchoModule) (holds : At task stage s) : Sound s := by
  cases stage with
  | outside => exact holds
  | _ => exact holds.1

theorem orderly_entered (method : Method) (s : EchoModule) (node : s.node = true)
    (orderly : Orderly (.enter method) s = true) : (method.touches = true → s.allocated = true) ∧
      (method = .dWrite → ∀ entry ∈ s.threads, entry.2 ≠ .dWrite) := by
  simp only [Orderly, node, Bool.not_true, Bool.false_or, Bool.and_eq_true, Bool.or_eq_true, bne_iff_ne,
    List.all_eq_true, Bool.not_eq_true'] at orderly
  refine ⟨fun touches => ?_, fun writes => orderly.2.resolve_left fun other => other writes⟩
  simpa [touches] using orderly.1

section Calls

variable (task : Nat) (method : Method) (s : EchoModule)

def EchoModule.entered : EchoModule := { s with threads := (task, method) :: s.threads }

def EchoModule.left : EchoModule := { s with threads := s.threads.erase (task, method) }

theorem sound_entered (sound : Sound s) (fits : (method.touches = true → s.allocated = true) ∧
    (method = .dWrite → ∀ entry ∈ s.threads, entry.2 ≠ .dWrite)) : Sound (s.entered task method) where
  touched := by
    intro entry member touches
    rcases List.mem_cons.mp member with rfl | old
    · exact fits.1 touches
    · exact sound.touched entry old touches
  ranged := sound.ranged
  whole := fun allocated none' => sound.whole allocated fun entry member => none' entry (List.mem_cons_of_mem _ member)

theorem enter_preserves (node : s.node = true) (orderly : Orderly (.enter method) s = true) (j : Nat) :
    Preserves (At j) s (s.entered task method) := by
  intro stage holds
  have fits := orderly_entered method s node orderly
  have sound := sound_entered task method s (at_sound j stage s holds) fits
  cases stage with
  | outside => exact sound
  | reading => exact ⟨sound, List.mem_cons_of_mem _ holds.2⟩
  | writing m =>
      obtain ⟨-, member, alone, same⟩ := holds
      refine ⟨sound, List.mem_cons_of_mem _ member, ?_, same⟩
      intro entry member' writes
      rcases List.mem_cons.mp member' with rfl | old
      · exact absurd rfl (fits.2 writes _ member)
      · exact alone entry old writes
  | unloaded => exact absurd (node.symm.trans holds.2.2.1) (by decide)
  | named => exact ⟨sound, holds.2⟩
  | loaded => exact ⟨sound, holds.2⟩
  | destroyed => exact absurd (node.symm.trans holds.2.2.1) (by decide)
  | drained => exact absurd (node.symm.trans holds.2.2.1) (by decide)

theorem sound_left (sound : Sound s) (finished : method = .dWrite → EchoInvariant s.echomsg) :
    Sound (s.left task method) where
  touched := fun entry member touches => sound.touched entry (List.mem_of_mem_erase member) touches
  ranged := sound.ranged
  whole := by
    intro allocated none'
    by_cases writes : method = .dWrite
    · exact finished writes
    · refine sound.whole allocated fun entry member writes' => none' entry ?_ writes'
      refine (List.mem_erase_of_ne ?_).mpr member
      rintro rfl
      exact writes writes'

theorem leave_preserves (finished : method = .dWrite → EchoInvariant s.echomsg) (j : Nat) (other : j ≠ task) :
    Preserves (At j) s (s.left task method) := by
  intro stage holds
  have sound := sound_left task method s (at_sound j stage s holds) finished
  have stays : ∀ mine : Method, (j, mine) ∈ s.threads → (j, mine) ∈ (s.left task method).threads :=
    fun mine member => (List.mem_erase_of_ne fun same => other (Prod.mk.inj same).1).mpr member
  have empty : s.threads = [] → (s.left task method).threads = [] := fun none' => by
    rw [EchoModule.left, none', List.erase_nil]
  cases stage with
  | outside => exact sound
  | reading => exact ⟨sound, stays .dRead holds.2⟩
  | writing m =>
      obtain ⟨-, member, alone, same⟩ := holds
      exact ⟨sound, stays .dWrite member, fun entry listed => alone entry (List.mem_of_mem_erase listed), same⟩
  | unloaded => exact ⟨sound, holds.2.1, holds.2.2.1, empty holds.2.2.2.1, holds.2.2.2.2⟩
  | named => exact ⟨sound, holds.2⟩
  | loaded => exact ⟨sound, holds.2⟩
  | destroyed => exact ⟨sound, holds.2⟩
  | drained => exact ⟨sound, holds.2.1, holds.2.2.1, empty holds.2.2.2.1, holds.2.2.2.2⟩

-- What a writer does to the message reaches nobody that counts on it.
theorem sound_written (m : EchoState) (sound : Sound s) (inside : (task, .dWrite) ∈ s.threads) (ranged : Ranged m) :
    Sound { s with echomsg := m } where
  touched := sound.touched
  ranged := fun _ => ranged
  whole := fun _ none' => absurd rfl (none' _ inside)

theorem write_preserves (m : EchoState) (inside : (task, .dWrite) ∈ s.threads) (ranged : Ranged m) (j : Nat)
    (other : j ≠ task) : Preserves (At j) s { s with echomsg := m } := by
  intro stage holds
  have sound := sound_written task s m (at_sound j stage s holds) inside ranged
  cases stage with
  | outside => exact sound
  | reading => exact ⟨sound, holds.2⟩
  | writing n => exact absurd (holds.2.2.1 _ inside rfl) (Ne.symm other)
  | unloaded => exact ⟨sound, holds.2⟩
  | named => exact ⟨sound, holds.2⟩
  | loaded => exact ⟨sound, holds.2⟩
  | destroyed => exact ⟨sound, holds.2⟩
  | drained => exact ⟨sound, holds.2⟩

end Calls

-- A reader counts on the length staying one of a message.
def readerContract : Contract EchoLabel EchoState EchoFault :=
  .keeping (fun _ : Unit => Ranged) (fun s t => t = s) (fun _ _ => True) (fun _ _ => True) fun _ => False

-- A writer that is alone counts on the message staying as it is.
def writerContract : Contract EchoLabel EchoState EchoFault where
  rely := fun s t => t = s
  guarantee := fun _ t => Ranged t
  allows := fun _ _ => True
  before := fun _ _ => True
  tolerates := fun _ => False
  refl := fun _ => rfl
  trans := fun _ _ _ first second => second.trans first

theorem read_amount_bounded (abi : Abi) (len uioOffset : Int) (uioResid : Nat) (low : 0 ≤ len) (high : len ≤ bufferSize)
    (ahead : 0 ≤ uioOffset) : readAmount abi len uioOffset uioResid ≤ bufferSize + 1 := by
  simp only [bufferSize] at high ⊢
  have next : int32 (len + 1) = len + 1 := by
    apply int32_eq <;> omega
  have left : (if len + 1 ≤ uioOffset then 0 else int64 (len + 1 - uioOffset)) ≤ len + 1 ∧
      0 ≤ (if len + 1 ≤ uioOffset then 0 else int64 (len + 1 - uioOffset)) := by
    split
    · omega
    · rw [int64_eq] <;> omega
  have exactly := ulong_eq abi
    (min (uioResid : Int) (if len + 1 ≤ uioOffset then 0 else int64 (len + 1 - uioOffset))) (by omega) (by omega)
  rw [readAmount, next]
  omega

theorem load_msg_meets (count : Nat) (m : EchoState) (within : count ≤ bufferSize + 1) :
    (loadMsg 0 count).Meets readerContract (fun _ _ => True) m := by
  have bound : (count : Int) ≤ (bufferSize : Int) + 1 := by omega
  apply Prog.meets_access readerContract _ _ (fun _ => True) _ m (fun _ _ _ _ => trivial) trivial
    (fun _ _ _ _ _ => trivial) fun _ _ => trivial
  intro t _ _
  exact ⟨slice t.msg 0 count, t, by simp [bound], rfl, trivial⟩

theorem echo_read_meets (abi : Abi) (request : ReadRequest) (m : EchoState) (ranged : Ranged m)
    (inRange : 0 ≤ request.uioOffset) : (echoRead abi request).Meets readerContract (fun _ _ => True) m := by
  have done : ∀ {α : Type} (a : α) (t : EchoState),
      (pure a : EchoProg α).Meets readerContract (fun _ _ => True) t :=
    fun a t => Prog.meets_pure _ a _ t (fun _ _ _ _ => trivial) trivial
  apply Prog.meets_bind _ _ _ fun (len : Int) _ => 0 ≤ len ∧ len ≤ bufferSize
  · exact Prog.meets_look readerContract _ _ Ranged _ m (fun _ _ here stays => stays () here) ranged
      (fun _ _ _ here _ => here) (fun _ _ => trivial) fun t here _ => ⟨rfl, here⟩
  · intro len t bounds
    have amount := read_amount_bounded abi len request.uioOffset request.uioResid bounds.1 bounds.2 inRange
    have asInt : int32 (readAmount abi len request.uioOffset request.uioResid : Nat) =
        (readAmount abi len request.uioOffset request.uioResid : Nat) := by
      simp only [bufferSize] at amount
      apply int32_eq <;> omega
    refine Prog.meets_bind _ _ _ (fun _ _ => True) _ t ?_ fun move u _ => done _ u
    refine Prog.meets_bind _ _ _ (fun _ _ => True) _ t (load_msg_meets _ t ?_) fun bytes u _ => done _ u
    rw [asInt, Int.toNat_natCast]
    omega

-- Every action of a write leaves a length that a reader can go by.
abbrev StaysRanged {α : Type} (p : EchoProg α) (m : EchoState) : Prop := p.along (fun _ _ t => True ∧ Ranged t) m

theorem store_ranged (base : Int) (bytes : List UInt8) (m : EchoState) (ranged : Ranged m) :
    StaysRanged (storeMsg base bytes) m := by
  rw [StaysRanged, storeMsg, Prog.along_access]
  by_cases within : 0 ≤ base ∧ base + bytes.length ≤ bufferSize + 1
  · simp only [if_pos within]
    exact ⟨trivial, ranged⟩
  · simp only [if_neg within]
    exact ⟨trivial, ranged⟩

theorem reset_ranged (uioOffset : Int) (m : EchoState) : StaysRanged (resetLen uioOffset) m := by
  unfold resetLen
  split
  · exact (Prog.along_modify _ _ _ _).mpr ⟨trivial, Int.le_refl 0, Int.natCast_nonneg bufferSize⟩
  · trivial

theorem record_ranged (last : Nat) (m : EchoState) (within : last ≤ bufferSize) : StaysRanged (recordLen last) m := by
  have narrowed : int32 (last : Int) = last := by
    simp only [bufferSize] at within
    apply int32_eq <;> omega
  have ranged : Ranged { m with len := (last : Int) } := ⟨Int.natCast_nonneg last, Int.ofNat_le.mpr within⟩
  simp only [StaysRanged, recordLen, Prog.along_bind, Prog.along_modify, Prog.along_look, Prog.run_modify, Prog.run_look,
    Outcome.done.injEq, narrowed]
  refine ⟨⟨trivial, ranged⟩, ?_⟩
  rintro _ _ ⟨-, rfl⟩
  refine ⟨⟨trivial, ranged⟩, ?_⟩
  rintro _ _ ⟨rfl, rfl⟩
  exact ⟨store_ranged _ _ _ ranged, fun _ _ _ => trivial⟩

theorem write_ranged (abi : Abi) (request : EchoRequest) (m : EchoState) (holds : EchoInvariant m) :
    StaysRanged (echoWrite abi request) m := by
  have ranged : Ranged m := ⟨holds.nonneg, holds.bounded⟩
  refine (Prog.along_bind _ _ _ _).mpr ⟨(Prog.along_look _ _ _ _).mpr ⟨trivial, ranged⟩, ?_⟩
  rintro _ _ ⟨⟩
  by_cases accepted : request.Accepted m
  · obtain ⟨base, lands, within, -⟩ := accepted_base request m holds accepted
    have landed : (base : Int) = 0 ∨ (base : Int) = m.len := lands ▸ accepted
    have room := consumed_le request base
    rw [lands, if_neg fun both => landed.elim both.1 both.2]
    refine (Prog.along_bind _ _ _ _).mpr ⟨reset_ranged _ m, ?_⟩
    intro _ t reset
    rw [id, run_reset_len base m landed] at reset
    cases reset
    have ranged' : Ranged { m with len := (base : Int) } := ⟨Int.natCast_nonneg base, Int.ofNat_le.mpr within⟩
    refine (Prog.along_bind _ _ _ _).mpr ⟨(Prog.along_look _ _ _ _).mpr ⟨trivial, ranged'⟩, ?_⟩
    rintro _ _ ⟨⟩
    simp only [capacity_left abi base _ within, uiomove_clamped]
    refine (Prog.along_bind _ _ _ _).mpr ⟨?_, ?_⟩
    · exact (Prog.along_bind _ _ _ _).mpr ⟨store_ranged _ _ _ ranged', fun _ _ _ => trivial⟩
    · intro _ t moved
      rw [run_uiomove base request _ within] at moved
      cases moved
      have offset : int64 ((base : Int) + request.consumed base) = (base + request.consumed base : Nat) := by
        simp only [bufferSize] at *
        rw [int64_eq] <;> omega
      refine (Prog.along_bind _ _ _ _).mpr ⟨?_, fun _ _ _ => trivial⟩
      rw [offset]
      exact record_ranged _ _ (by omega)
  · simp only [EchoRequest.Accepted, not_or] at accepted
    rw [if_pos accepted]
    trivial

theorem echo_write_meets (abi : Abi) (request : EchoRequest) (m : EchoState) (holds : EchoInvariant m) :
    (echoWrite abi request).Meets writerContract (fun _ t => EchoInvariant t) m :=
  Prog.meets_alone _ _ _ m (fun _ _ same => same) (write_keeps_invariant abi request m holds)
    (write_ranged abi request m holds)

section Thread

variable (excused : Prop) (abi : Abi) (task : Nat)

theorem inside_allocated (method : Method) (s : EchoModule) (sound : Sound s) (inside : (task, method) ∈ s.threads)
    (touches : method.touches = true) (label : EchoLabel) : needsMessage label s = none := by
  rw [needsMessage, if_pos (sound.touched _ inside touches)]

theorem read_meets (request : ReadRequest) (s : EchoModule) (inRange : 0 ≤ request.uioOffset)
    (holds : At task .reading s) :
    (onMessage (echoRead abi request)).Meets (loaderContract excused task) (fun _ t => At task .reading t) s := by
  have ranged : ∀ t, At task .reading t → Ranged t.echomsg :=
    fun t here => here.1.ranged (here.1.touched _ here.2 rfl)
  have meets := Prog.meets_part messagePart .echomsg .echo needsMessage (loaderContract excused task) readerContract
    (At task .reading) (at_stable excused task .reading)
    (fun label t here => inside_allocated task .dRead t here.1 here.2 rfl label) ?_ (fun _ never => never.elim)
    (fun _ _ _ _ => trivial) (fun _ _ _ => trivial) ?_ _ _ s holds
    (echo_read_meets abi request s.echomsg (ranged s holds) inRange)
  · exact Prog.meets_mono _ _ _ _ s meets fun _ t here => here.1
  · exact fun t u here moved _ _ => ranged u (moved .reading here)
  · rintro t u here rfl
    exact ⟨fun _ _ _ kept => kept, here⟩

theorem write_meets (request : EchoRequest) (s : EchoModule) (m : EchoState) (whole : EchoInvariant m)
    (holds : At task (.writing m) s) :
    (onMessage (echoWrite abi request)).Meets (loaderContract excused task)
      (fun _ t => ∃ m, EchoInvariant m ∧ At task (.writing m) t) s := by
  have stable : (loaderContract excused task).Stable fun t => ∃ m, At task (.writing m) t :=
    fun t u here moved => here.imp fun m writing => moved (.writing m) writing
  have meets := Prog.meets_part messagePart .echomsg .echo needsMessage (loaderContract excused task) writerContract
    (fun t => ∃ m, At task (.writing m) t) stable ?_ ?_ (fun _ never => never.elim) (fun _ _ _ _ => trivial)
    (fun _ _ _ => trivial) ?_ _ _ s ⟨m, holds⟩ (echo_write_meets abi request s.echomsg (holds.2.2.2 ▸ whole))
  · refine Prog.meets_mono _ _ _ _ s meets fun _ t here => ?_
    obtain ⟨⟨n, sound, inside, alone, rfl⟩, whole'⟩ := here
    exact ⟨t.echomsg, whole', sound, inside, alone, rfl⟩
  · rintro label t ⟨n, sound, inside, -⟩
    exact inside_allocated task .dWrite t sound inside rfl label
  · rintro t u ⟨n, sound, inside, alone, -⟩ moved
    exact (moved (.writing t.echomsg) ⟨sound, inside, alone, rfl⟩).2.2.2
  · rintro t n ⟨_, sound, inside, alone, -⟩ ranged
    refine ⟨fun j other => write_preserves task t n inside ranged j other, n, ?_, inside, alone, rfl⟩
    exact sound_written task t n sound inside ranged

-- What a call counts on between entering and leaving.
def Inside : Method → EchoModule → Prop
  | .dRead, s => At task .reading s
  | .dWrite, s => ∃ m, EchoInvariant m ∧ At task (.writing m) s
  | _, s => At task .outside s

theorem inside_stable (method : Method) : (loaderContract excused task).Stable (Inside task method) := by
  intro s t here moved
  cases method with
  | dOpen => exact moved .outside here
  | dClose => exact moved .outside here
  | dRead => exact moved .reading here
  | dWrite => exact here.imp fun m writing => ⟨writing.1, moved (.writing m) writing.2⟩

theorem inside_entered (method : Method) (s : EchoModule) (sound : Sound s) (node : s.node = true)
    (orderly : Orderly (.enter method) s = true) : Inside task method (s.entered task method) := by
  have fits := orderly_entered method s node orderly
  have sound' := sound_entered task method s sound fits
  cases method with
  | dOpen => exact sound'
  | dClose => exact sound'
  | dRead => exact ⟨sound', List.mem_cons_self⟩
  | dWrite =>
      refine ⟨s.echomsg, sound.whole (fits.1 rfl) (fits.2 rfl), sound', List.mem_cons_self, ?_, rfl⟩
      intro entry member writes
      rcases List.mem_cons.mp member with rfl | old
      · rfl
      · exact absurd writes (fits.2 rfl entry old)

theorem inside_sound (method : Method) (s : EchoModule) (holds : Inside task method s) :
    Sound s ∧ (method = .dWrite → EchoInvariant s.echomsg) := by
  cases method with
  | dOpen => exact ⟨holds, fun writes => by cases writes⟩
  | dClose => exact ⟨holds, fun writes => by cases writes⟩
  | dRead => exact ⟨holds.1, fun writes => by cases writes⟩
  | dWrite =>
      obtain ⟨m, whole, sound, -, -, rfl⟩ := holds
      exact ⟨sound, fun _ => whole⟩

theorem body_meets (call : EchoCall) (s : EchoModule) (inRange : call.InRange) (holds : Inside task call.method s) :
    (call.body abi).Meets (loaderContract excused task) (fun _ => Inside task call.method) s := by
  have done := fun (r : Int) (t : EchoModule) (here : Inside task call.method t) =>
    Prog.meets_pure (loaderContract excused task) r (fun _ => Inside task call.method) t
      (inside_stable excused task call.method) here
  cases call with
  | opening => exact done 0 s holds
  | closing => exact done 0 s holds
  | read request =>
      exact Prog.meets_bind _ _ _ _ _ s (read_meets excused abi task request s inRange holds) fun reply t here =>
        done _ t here
  | write request =>
      obtain ⟨m, whole, writing⟩ := holds
      exact Prog.meets_bind _ _ _ _ _ s (write_meets excused abi task request s m whole writing) fun reply t here =>
        done _ t here

theorem call_meets (call : EchoCall) (s : EchoModule) (inRange : call.InRange) (sound : Sound s) :
    (call.prog abi task).Meets (loaderContract excused task) (fun _ => At task .outside) s := by
  have outside := at_stable excused task .outside
  refine Prog.meets_bind _ _ _ (fun entered t => if entered then Inside task call.method t else Sound t) _ s ?_ ?_
  · refine Prog.meets_act _ _ _ _ _ (At task .outside) _ s outside sound ?_ (fun _ _ => trivial) ?_
    · intro entered
      cases entered with
      | true => exact inside_stable excused task call.method
      | false => exact outside
    · intro t here _ orderly
      by_cases node : t.node = true
      · simp only [if_pos node]
        exact ⟨fun j _ => enter_preserves task call.method t node orderly j,
          inside_entered task call.method t here node orderly⟩
      · simp only [if_neg node]
        exact ⟨fun _ _ _ kept => kept, here⟩
  · intro entered t here
    cases entered with
    | false => exact Prog.meets_pure _ _ _ t outside here
    | true =>
        refine Prog.meets_bind _ _ _ _ _ t (body_meets excused abi task call t inRange here) fun error u inside => ?_
        refine Prog.meets_bind _ _ _ (fun _ => At task .outside) _ u ?_ fun _ v there =>
          Prog.meets_pure _ _ _ v outside there
        refine Prog.meets_modify _ _ _ _ _ u (inside_stable excused task call.method) inside outside (fun _ _ => trivial) ?_
        intro v here' _
        obtain ⟨sound', finished⟩ := inside_sound task call.method v here'
        exact ⟨fun j other => leave_preserves task call.method v finished j other,
          sound_left task call.method v sound' finished⟩

end Thread

section Loader

variable (excused : Prop)

theorem loader_preserves (s t : EchoModule) (sound : Sound s → Sound t) (threads : t.threads = s.threads)
    (message : (∃ entry ∈ s.threads, entry.2 = .dWrite) → t.echomsg = s.echomsg) (j : Nat) (other : j ≠ 0) :
    Preserves (At j) s t := by
  intro stage holds
  cases stage with
  | outside => exact sound holds
  | reading => exact ⟨sound holds.1, threads ▸ holds.2⟩
  | writing m =>
      obtain ⟨before, inside, alone, same⟩ := holds
      exact ⟨sound before, threads ▸ inside, threads ▸ alone, (message ⟨_, inside, rfl⟩).trans same⟩
  | unloaded => exact absurd holds.2.1 other
  | named => exact absurd holds.2.1 other
  | loaded => exact absurd holds.2.1 other
  | destroyed => exact absurd holds.2.1 other
  | drained => exact absurd holds.2.1 other

theorem loader_step (label : ModuleLabel) (ready : EchoModule → Bool) (set : EchoModule → EchoModule)
    (stage next : Stage) (s : EchoModule) (holds : At 0 stage s) (threads : ∀ t, (set t).threads = t.threads)
    (message : ∀ t, At 0 stage t → (∃ entry ∈ t.threads, entry.2 = .dWrite) → (set t).echomsg = t.echomsg)
    (reaches : ∀ t, At 0 stage t → ready t = true → At 0 next (set t)) :
    (Prog.await label ready set : ModuleProg Unit).Meets (loaderContract excused 0) (fun _ => At 0 next) s := by
  refine Prog.meets_await _ _ _ _ _ _ s (at_stable excused 0 stage) holds (at_stable excused 0 next)
    (fun _ _ => trivial) ?_
  intro t here can _
  have there := reaches t here can
  exact ⟨loader_preserves t (set t) (fun _ => at_sound 0 next _ there) (threads t) (message t here), there⟩

-- A step that may be refused, where it is not.
theorem loader_access (label : ModuleLabel) (touch : EchoModule → Except ModuleFault (Unit × EchoModule))
    (set : EchoModule → EchoModule) (stage next : Stage) (s : EchoModule) (holds : At 0 stage s)
    (threads : ∀ t, (set t).threads = t.threads)
    (message : ∀ t, At 0 stage t → (∃ entry ∈ t.threads, entry.2 = .dWrite) → (set t).echomsg = t.echomsg)
    (reaches : ∀ t, At 0 stage t → touch t = .ok ((), set t) ∧ At 0 next (set t)) :
    (Prog.access label touch : ModuleProg Unit).Meets (loaderContract excused 0) (fun _ => At 0 next) s := by
  refine Prog.meets_access _ _ _ _ _ s (at_stable excused 0 stage) holds (fun _ => at_stable excused 0 next)
    (fun _ _ => trivial) ?_
  intro t here _
  obtain ⟨touches, there⟩ := reaches t here
  exact ⟨(), set t, touches,
    loader_preserves t (set t) (fun _ => at_sound 0 next _ there) (threads t) (message t here), there⟩

theorem malloc_sound (s : EchoModule) (holds : At 0 .named s) :
    At 0 .loaded { s with assigned := true, allocated := true, echomsg := echoLoaded } := by
  obtain ⟨sound, -, node, -⟩ := holds
  exact ⟨⟨fun _ _ _ => rfl, fun _ => ⟨Int.le_refl 0, Int.natCast_nonneg bufferSize⟩, fun _ _ => loaded_invariant⟩, rfl,
    node, rfl⟩

theorem free_sound (s : EchoModule) (holds : At 0 .drained s) : At 0 .unloaded { s with allocated := false } := by
  obtain ⟨sound, -, node, empty, -⟩ := holds
  refine ⟨⟨fun entry member => ?_, fun live => absurd live Bool.false_ne_true,
    fun live => absurd live Bool.false_ne_true⟩, rfl, node, empty, rfl⟩
  rw [empty] at member
  cases member

theorem named_unwritten (s : EchoModule) (holds : At 0 .named s) : ¬ ∃ entry ∈ s.threads, entry.2 = .dWrite := by
  rintro ⟨entry, member, writes⟩
  have live := holds.1.touched entry member (by rw [writes]; rfl)
  rw [holds.2.2.2] at live
  cases live

def standing (loaded : Bool) : Stage := if loaded then .loaded else .unloaded

theorem make_dev_meets (made : Int) (stage next : Stage) (s : EchoModule) (holds : At 0 stage s)
    (reaches : ∀ t, At 0 stage t → At 0 next (if made = 0 then { t with node := true } else t)) :
    (makeDevP made).Meets (loaderContract excused 0) (fun error t => error = made ∧ At 0 next t) s := by
  refine Prog.meets_bind _ _ _ (fun _ => At 0 next) _ s ?_ fun _ t here =>
    Prog.meets_pure _ _ _ t (fun _ _ at' moved => ⟨rfl, moved next at'.2⟩) ⟨rfl, here⟩
  refine loader_step excused _ _ _ stage next s holds ?_ ?_ fun t here _ => reaches t here
  · intro t
    split <;> rfl
  · intro t _ _
    split <;> rfl

theorem load_meets (made : Int) (loaded : Bool) (s : EchoModule) (named : made = 0 → loaded = false)
    (holds : At 0 (standing loaded) s) :
    (echoLoader made .modLoad).Meets (loaderContract excused 0) (fun _ => At 0 (standing (loaded || made == 0))) s := by
  by_cases succeeds : made = 0
  · subst succeeds
    obtain rfl := named rfl
    refine Prog.meets_bind _ _ _ _ _ s (make_dev_meets excused 0 .unloaded .named s holds fun t here => ?_) ?_
    · obtain ⟨sound, -, -, -, empty⟩ := here
      exact ⟨⟨sound.touched, sound.ranged, sound.whole⟩, rfl, rfl, empty⟩
    · rintro _ t ⟨rfl, here⟩
      refine Prog.meets_bind _ _ _ (fun _ => At 0 .loaded) _ t ?_ fun _ u there =>
        Prog.meets_pure _ _ _ u (at_stable excused 0 .loaded) there
      exact loader_step excused _ _ _ .named .loaded t here (fun _ => rfl)
        (fun u at' written => absurd written (named_unwritten u at')) fun u at' _ => malloc_sound u at'
  · have same : (loaded || made == 0) = loaded := by simp [succeeds]
    rw [same]
    refine Prog.meets_bind _ _ _ _ _ s (make_dev_meets excused made _ (standing loaded) s holds fun t here => ?_) ?_
    · rwa [if_neg succeeds]
    · rintro _ t ⟨rfl, here⟩
      rw [if_pos succeeds]
      exact Prog.meets_pure _ _ _ t (at_stable excused 0 _) here

theorem unload_meets (made : Int) (s : EchoModule) (holds : At 0 .loaded s) :
    (echoLoader made .modUnload).Meets (loaderContract excused 0) (fun _ => At 0 .unloaded) s := by
  refine Prog.meets_bind _ _ _ (fun _ => At 0 .drained) _ s ?_ fun _ t drained => ?_
  · refine Prog.meets_bind _ _ _ (fun _ => At 0 .destroyed) _ s ?_ fun _ t destroyed => ?_
    · refine loader_access excused _ _ (fun t => { t with node := false }) .loaded .destroyed s holds (fun _ => rfl)
        (fun _ _ _ => rfl) ?_
      intro t here
      exact ⟨if_pos here.2.2.1, ⟨here.1.touched, here.1.ranged, here.1.whole⟩, rfl, rfl, here.2.2.2⟩
    · refine loader_step excused _ _ _ .destroyed .drained t destroyed (fun _ => rfl) (fun _ _ _ => rfl) ?_
      intro u here empty
      exact ⟨here.1, rfl, here.2.2.1, List.isEmpty_iff.mp empty, here.2.2.2⟩
  · refine Prog.meets_bind _ _ _ (fun _ => At 0 .unloaded) _ t ?_ fun _ u there =>
      Prog.meets_pure _ _ _ u (at_stable excused 0 .unloaded) there
    exact loader_access excused _ _ (fun u => { u with allocated := false }) .drained .unloaded t drained (fun _ => rfl)
      (fun _ _ _ => rfl) fun u here => ⟨if_pos here.2.2.2.2, free_sound u here⟩

-- destroy_dev finds no node.
theorem refused_unload_meets (made : Int) (s : EchoModule) (excuse : excused) (holds : At 0 .unloaded s) :
    (echoLoader made .modUnload).Meets (loaderContract excused 0) (fun _ => At 0 .unloaded) s := by
  refine Prog.meets_bind _ _ _ (fun _ _ => False) _ s ?_ fun _ _ never => never.elim
  refine Prog.meets_bind _ _ _ (fun _ _ => False) _ s ?_ fun _ _ never => never.elim
  refine Prog.meets_refused _ _ _ .noDevice (At 0 .unloaded) _ s (at_stable excused 0 .unloaded) holds
    (fun _ _ => trivial) ?_ ⟨rfl, rfl, excuse⟩
  intro t here _
  exact ⟨if_neg fun node => Bool.false_ne_true (here.2.2.1.symm.trans node), fun _ _ _ kept => kept⟩

theorem event_meets (loaded : Bool) (call : LoaderCall) (s : EchoModule) (named : NameChecked loaded call)
    (unloads : UnloadsLoaded loaded call ∨ excused) (holds : At 0 (standing loaded) s) :
    call.prog.Meets (loaderContract excused 0) (fun _ => At 0 (standing (loadedAfter loaded call))) s := by
  obtain ⟨what, made⟩ := call
  cases what with
  | modLoad => exact load_meets excused made loaded s (named rfl) holds
  | modUnload =>
      cases loaded with
      | true => exact unload_meets excused made s holds
      | false =>
          refine refused_unload_meets excused made s (unloads.resolve_left fun fits => ?_) holds
          exact Bool.false_ne_true (fits rfl)
  | modShutdown => exact Prog.meets_pure _ _ _ s (at_stable excused 0 _) holds
  | modQuiesce => exact Prog.meets_pure _ _ _ s (at_stable excused 0 _) holds

theorem standing_left (loaded : Bool) (s : EchoModule) (holds : At 0 (standing loaded) s) :
    s.node = loaded ∧ s.allocated = loaded ∧ (loaded = false → s.threads = []) := by
  cases loaded with
  | true => exact ⟨holds.2.2.1, holds.2.2.2, fun never => by cases never⟩
  | false => exact ⟨holds.2.2.1, holds.2.2.2.2, fun _ => holds.2.2.2.1⟩

theorem unloaded_sound : Sound unloaded where
  touched := by simp [unloaded]
  ranged := fun live => absurd live Bool.false_ne_true
  whole := fun live => absurd live Bool.false_ne_true

def stageOf (loaded : Bool) (i : Nat) : Stage := if i = 0 then standing loaded else .outside

theorem attached_all_meet (abi : Abi) (events : List LoaderCall) (tasks : List (List EchoCall))
    (follows : Follows loadedAfter (fun loaded call => NameChecked loaded call ∧ (UnloadsLoaded loaded call ∨ excused))
      false events)
    (inRange : ∀ calls ∈ tasks, ∀ call ∈ calls, call.InRange) :
    Pool.AllMeet (loaderContract excused) (fun i _ => At i (stageOf (events.foldl loadedAfter false) i))
      (attached abi events tasks) := by
  apply Pool.start_all_meet
  intro i p listed
  cases i with
  | zero =>
      obtain rfl := Option.some.inj listed
      exact Prog.meets_follows _ LoaderCall.prog loadedAfter _ (fun loaded => At 0 (standing loaded))
        (fun loaded => at_stable excused 0 (standing loaded))
        (fun loaded call s fits here => event_meets excused loaded call s fits.1 fits.2 here) events false unloaded
        ⟨unloaded_sound, rfl, rfl, rfl, rfl⟩ follows
  | succ i =>
      obtain ⟨calls, found, rfl⟩ : ∃ calls, tasks[i]? = some calls ∧ Prog.series (EchoCall.prog abi (i + 1)) calls = p := by
        simpa [List.getElem?_mapIdx] using listed
      exact Prog.meets_series _ _ _ (at_stable excused (i + 1) .outside) calls
        (fun call member s => call_meets excused abi (i + 1) call s (inRange calls (List.mem_of_getElem? found) call member))
        unloaded unloaded_sound

end Loader

theorem orderly_allowed (pool : EchoPool) (i : Nat) (label : ModuleLabel) (admitted : entersOrderly pool i)
    (upcoming : pool.threads[i]?.bind Thread.upcoming = some label) : Orderly label pool.shared = true := by
  rw [entersOrderly, upcoming] at admitted
  exact admitted

theorem follows_excused (events : List LoaderCall) (named : Follows loadedAfter NameChecked false events) :
    Follows loadedAfter (fun loaded call => NameChecked loaded call ∧
      (UnloadsLoaded loaded call ∨ ¬ Follows loadedAfter UnloadsLoaded false events)) false events := by
  by_cases unloads : Follows loadedAfter UnloadsLoaded false events
  · exact follows_imp _ _ _ _ (fun _ _ fits loaded => ⟨fits, .inl loaded⟩) events false named unloads
  · exact follows_imp _ _ _ _ (fun _ _ fits _ => ⟨fits, .inr unloads⟩) events false named named

-- Whatever events the framework sends and however they are interleaved with calls: as
-- long as no call gets in before the message is there, nor a write into another write,
-- no call faults, and the loader does only where it is told to unload what was not
-- loaded.
theorem echo_calls_never_fault (abi : Abi) (events : List LoaderCall) (tasks : List (List EchoCall))
    (schedule : List Nat) (last : EchoPool) (named : Follows loadedAfter NameChecked false events)
    (inRange : ∀ calls ∈ tasks, ∀ call ∈ calls, call.InRange)
    (ran : Pool.Run entersOrderly (attached abi events tasks) schedule last) :
    (∀ i fault, last.threads[i]?.bind Thread.fault = some fault →
      i = 0 ∧ fault = .noDevice ∧ ¬ Follows loadedAfter UnloadsLoaded false events) ∧
      (∀ entry ∈ last.shared.threads, entry.2.touches = true → last.shared.allocated = true) ∧
      (last.shared.allocated = true → (∀ entry ∈ last.shared.threads, entry.2 ≠ .dWrite) →
        EchoInvariant last.shared.echomsg) ∧
      ∀ errors, last.threads[0]?.bind Thread.value = some errors →
        last.shared.node = events.foldl loadedAfter false ∧ last.shared.allocated = events.foldl loadedAfter false ∧
          (events.foldl loadedAfter false = false → last.shared.threads = []) := by
  have compatible := loader_compatible (¬ Follows loadedAfter UnloadsLoaded false events)
  have begins := attached_all_meet _ abi events tasks (follows_excused events named) inRange
  have meets := Pool.all_meet_run _ _ compatible entersOrderly orderly_allowed _ last schedule begins ran
  have kept := Pool.all_meet_rely _ _ compatible entersOrderly orderly_allowed _ last schedule begins ran
    (attached abi events tasks).threads.length (Nat.le_refl _)
  have sound := kept .outside unloaded_sound
  refine ⟨fun i fault faulted => Pool.all_meet_fault _ _ last i fault meets faulted, sound.touched, sound.whole, ?_⟩
  intro errors returned
  have ended : At 0 (standing (events.foldl loadedAfter false)) last.shared :=
    Pool.all_meet_value _ _ last 0 errors meets returned
  exact standing_left _ last.shared ended

-- A reader that is in when the module is unloaded, and one that comes too late.
theorem unload_waits_for_the_reader :
    ∃ last, (attached .lp64 [⟨.modLoad, 0⟩, ⟨.modQuiesce, 0⟩, ⟨.modUnload, 0⟩]
        [[.read ⟨0, 1, none, 0⟩, .read ⟨1, 1, none, 0⟩]]).runs entersOrderly [0, 0, 1, 0, 1, 1, 1, 0, 0, 1] = some last ∧
      last.finished = true ∧ last.shared.threads = [] ∧ last.shared.allocated = false := by
  obtain ⟨last, ran, finished, loader⟩ : ∃ last,
      (attached .lp64 [⟨.modLoad, 0⟩, ⟨.modQuiesce, 0⟩, ⟨.modUnload, 0⟩]
        [[.read ⟨0, 1, none, 0⟩, .read ⟨1, 1, none, 0⟩]]).runs entersOrderly [0, 0, 1, 0, 1, 1, 1, 0, 0, 1] = some last ∧
      last.finished = true ∧ last.threads[0]?.bind Thread.value = some [0, 45, 0] := ⟨_, rfl, rfl, rfl⟩
  have safe := echo_calls_never_fault .lp64 [⟨.modLoad, 0⟩, ⟨.modQuiesce, 0⟩, ⟨.modUnload, 0⟩] _ _ last
    (by simp [Follows, loadedAfter, NameChecked]) (by simp [EchoCall.InRange])
    (Pool.runs_run entersOrderly _ last _ ran)
  obtain ⟨-, freed, left⟩ := safe.2.2.2 _ loader
  exact ⟨last, ran, finished, left rfl, freed⟩

-- The module between two events when there are no calls.
structure Stands (loaded : Bool) (s : EchoModule) : Prop where
  node : s.node = loaded
  idle : s.threads = []
  allocated : s.allocated = loaded

theorem run_loader_event (loaded : Bool) (call : LoaderCall) (s : EchoModule) (named : NameChecked loaded call)
    (stands : Stands loaded s) :
    UnloadsLoaded loaded call ∧ (∃ r t, call.prog.run s = .done r t ∧ Stands (loadedAfter loaded call) t) ∨
      ¬ UnloadsLoaded loaded call ∧ call.prog.run s = .crashed .noDevice s := by
  obtain ⟨what, made⟩ := call
  obtain ⟨node, idle, allocated⟩ := stands
  cases what with
  | modLoad =>
      refine .inl ⟨nofun, ?_⟩
      by_cases succeeds : made = 0
      · subst succeeds
        obtain rfl := named rfl rfl
        exact ⟨_, _, rfl, rfl, idle, rfl⟩
      · refine ⟨made, s, by simp [LoaderCall.prog, echoLoader, makeDevP, succeeds], ?_⟩
        have same : loadedAfter loaded ⟨.modLoad, made⟩ = loaded := by simp [loadedAfter, succeeds]
        rw [same]
        exact ⟨node, idle, allocated⟩
  | modUnload =>
      cases loaded with
      | true =>
          refine .inl ⟨fun _ => rfl, 0, { s with node := false, allocated := false }, ?_, rfl, idle, rfl⟩
          simp [LoaderCall.prog, echoLoader, destroyDev, freeMessage, Prog.run_access, Prog.run_await, node, idle, allocated]
      | false =>
          refine .inr ⟨fun fits => Bool.false_ne_true (fits rfl), ?_⟩
          simp [LoaderCall.prog, echoLoader, destroyDev, Prog.run_access, node]
  | modShutdown => exact .inl ⟨nofun, _, s, rfl, node, idle, allocated⟩
  | modQuiesce => exact .inl ⟨nofun, _, s, rfl, node, idle, allocated⟩

-- And that is just when it does: a framework that sends MOD_UNLOAD after a MOD_LOAD
-- that failed has echo_loader destroy a device that was never made.
theorem loader_faults_iff (events : List LoaderCall) (loaded : Bool) (s : EchoModule) (stands : Stands loaded s)
    (named : Follows loadedAfter NameChecked loaded events) :
    (∃ t, (Prog.series LoaderCall.prog events).run s = .crashed .noDevice t) ↔
      ¬ Follows loadedAfter UnloadsLoaded loaded events := by
  induction events generalizing loaded s with
  | nil => simp [Follows]
  | cons call rest ih =>
      rcases run_loader_event loaded call s named.1 stands with ⟨fits, r, t, ran, there⟩ | ⟨unfit, ran⟩
      · have later := ih (loadedAfter loaded call) t there named.2
        have tail : (∃ u, (Prog.series LoaderCall.prog (call :: rest)).run s = .crashed .noDevice u) ↔
            ∃ u, (Prog.series LoaderCall.prog rest).run t = .crashed .noDevice u := by
          rw [Prog.run_series_cons, ran, outcome_bind_done]
          cases (Prog.series LoaderCall.prog rest).run t <;> simp
        rw [tail, later, Follows, and_iff_right fits]
      · refine iff_of_true ⟨s, ?_⟩ fun follows => unfit follows.1
        rw [Prog.run_series_cons, ran, outcome_bind_crashed]

example (made : Int) (failed : made ≠ 0) :
    ∃ t, (Prog.series LoaderCall.prog [⟨.modLoad, made⟩, ⟨.modUnload, made⟩]).run unloaded = .crashed .noDevice t :=
  (loader_faults_iff _ false unloaded ⟨rfl, rfl, rfl⟩ (by simp [Follows, NameChecked, failed])).mpr
    (by simp [Follows, UnloadsLoaded, loadedAfter, failed])

theorem message_missing {α : Type} (label : EchoLabel) (ready : EchoState → Bool) (effect : EchoState → EchoState)
    (next : EchoState → EchoProg α) (s : EchoModule) (missing : s.allocated = false) :
    (onMessage (.act label ready effect next)).run s = .crashed .noMessage s := by
  simp [onMessage, Prog.within, Prog.run, needsMessage, missing]

-- The provisos on calls are needed as well. Whoever comes in the gap of a load and goes
-- on faults,
theorem gap_call_faults (abi : Abi) (task : Nat) (call : EchoCall) (s : EchoModule) (node : s.node = true)
    (missing : s.allocated = false) (touches : call.method.touches = true) :
    (call.prog abi task).run s = .crashed .noMessage (s.entered task call.method) := by
  have enters : (enter task call.method).run s = .done true (s.entered task call.method) := by
    simp [enter, Prog.run, node, EchoModule.entered]
  have body : (call.body abi).run (s.entered task call.method) =
      .crashed .noMessage (s.entered task call.method) := by
    cases call with
    | opening => cases touches
    | closing => cases touches
    | read request =>
        have faults : (onMessage (echoRead abi request)).run (s.entered task .dRead) = _ :=
          message_missing _ _ _ _ _ missing
        simp only [EchoCall.body, EchoCall.method, Prog.run_bind, faults, outcome_bind_crashed]
    | write request =>
        have faults : (onMessage (echoWrite abi request)).run (s.entered task .dWrite) = _ :=
          message_missing _ _ _ _ _ missing
        simp only [EchoCall.body, EchoCall.method, Prog.run_bind, faults, outcome_bind_crashed]
  simp only [EchoCall.prog, Prog.run_bind, enters, outcome_bind_done, if_true, body, outcome_bind_crashed]

-- and a write that another one resets under stores past the message.
set_option maxRecDepth 10000 in
theorem overlapping_writes_overrun :
    ∃ last, (attached .lp64 [⟨.modLoad, 0⟩] [[.write ⟨0, [65, 66], none, 0⟩, .write ⟨2, List.replicate 255 65, none, 0⟩],
        [.write ⟨0, [67], none, 0⟩]]).exec [0, 0, 1, 1, 1, 1, 1, 1, 1, 1, 1, 1, 1, 2, 2, 2, 1, 1] = some last ∧
      last.threads[1]?.bind Thread.fault = some (.echo .outOfBounds) := ⟨_, rfl, rfl⟩

end OneDriver.Echo
