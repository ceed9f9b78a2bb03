import OneDriver.Mirror
import OneDriver.Mmap.Device

set_option autoImplicit false

namespace OneDriver.Mmap

-- What a process does with the device and with what it has mapped of it.
inductive MmapCall where
  | map (vma : VmArea) (outcome : Int)
  | unmap (vma : VmArea)
  | store (a : Nat) (byte : UInt8)
  | load (a : Nat)

inductive Reply where
  | returned (r : Int)
  | stored
  | loaded (byte : UInt8)
  | segv
deriving DecidableEq, Repr

def munmap (vma : VmArea) : MmapProg Unit :=
  .modify .pages fun s => { s with pages := fun a => if vma.vmStart ≤ a ∧ a < vma.vmEnd then none else s.pages a }

def storeByte (a : Nat) (byte : UInt8) : MmapProg Reply :=
  .act .memory (fun _ => true)
    (fun s => match s.pages a with
      | some address => { s with memory := Function.update s.memory address byte }
      | none => s)
    fun s => .ret (if (s.pages a).isSome then .stored else .segv)

def loadByte (a : Nat) : MmapProg Reply :=
  .look .memory fun s => match s.shown a with
    | some byte => .loaded byte
    | none => .segv

def MmapCall.prog : MmapCall → MmapProg Reply
  | .map vma outcome => do
      let r ← myMmap vma outcome
      pure (.returned r)
  | .unmap vma => do
      munmap vma
      pure (.returned 0)
  | .store a byte => storeByte a byte
  | .load a => loadByte a

-- All processes: one memory, and a page table each.
structure SharedState where
  memory : Nat → UInt8
  buffer : Option Nat
  pages : Nat → Nat → Option Nat

def processPart (task : Nat) : Part SharedState MmapState where
  get := fun s => ⟨s.memory, s.buffer, s.pages task⟩
  set := fun m s => ⟨m.memory, m.buffer, Function.update s.pages task m.pages⟩
  get_set := fun m s => by simp
  set_get := fun s => by simp
  set_set := fun m n s => by simp

abbrev SharedPool := Pool MmapLabel SharedState MmapFault (List Reply)

-- What dev_init leaves when kmalloc gives it the page at `page`.
def loadedAt (page : Nat) (memory : Nat → UInt8) : SharedState := ⟨memory, some page, fun _ _ => none⟩

def mapping (page : Nat) (memory : Nat → UInt8) (tasks : List (List MmapCall)) : SharedPool :=
  Pool.start (loadedAt page memory) (tasks.mapIdx fun i calls =>
    (Prog.series MmapCall.prog calls).within (processPart i) id id fun _ _ => none)

theorem dev_init_loads (page : Nat) (memory : Nat → UInt8) (task : Nat) :
    (devInit 0 (some page)).run ⟨memory, none, fun _ => none⟩ = .done 0 ((processPart task).get (loadedAt page memory)) :=
  rfl

-- The page by itself: an array of its bytes, and where in it the processes see
-- each of their addresses.
structure PageView where
  cells : Fin pageSize → UInt8
  view : Nat → Option (Fin pageSize)

abbrev PageProg := Prog MmapLabel PageView MmapFault

def offsetFrom (start a : Nat) : Option (Fin pageSize) :=
  if inside : start ≤ a ∧ a - start < pageSize then some ⟨a - start, inside.2⟩ else none

def PageView.attached (vma : VmArea) (v : PageView) : PageView := { v with
  view := fun a => if vma.vmStart ≤ a ∧ a < vma.vmEnd then offsetFrom vma.vmStart a else v.view a }

def PageView.detached (vma : VmArea) (v : PageView) : PageView := { v with
  view := fun a => if vma.vmStart ≤ a ∧ a < vma.vmEnd then none else v.view a }

def PageView.put (off : Fin pageSize) (byte : UInt8) (v : PageView) : PageView := { v with
  cells := Function.update v.cells off byte }

def putAll : List (Fin pageSize × UInt8) → PageProg Unit
  | [] => pure ()
  | (off, byte) :: rest => do
      Prog.modify .memory (PageView.put off byte)
      putAll rest

def cell (i : Nat) : Fin pageSize := ⟨i % pageSize, Nat.mod_lt i (by decide)⟩

def greeting : List (Fin pageSize × UInt8) := array.mapIdx fun i byte => (cell i, byte)

def pageMap (vma : VmArea) (outcome : Int) : PageProg Int := do
  let _ ← Prog.look .buffer fun _ => ()
  if outcome ≠ 0 then pure (-1)
  else do
    Prog.modify .pages (PageView.attached vma)
    putAll greeting
    pure outcome

def MmapCall.onPage : MmapCall → PageProg Reply
  | .map vma outcome => do
      let r ← pageMap vma outcome
      pure (.returned r)
  | .unmap vma => do
      Prog.modify .pages (PageView.detached vma)
      pure (.returned 0)
  | .store a byte => .act .memory (fun _ => true)
      (fun v => match v.view a with
        | some off => v.put off byte
        | none => v)
      fun v => .ret (if (v.view a).isSome then .stored else .segv)
  | .load a => .look .memory fun v => match (v.view a).map v.cells with
      | some byte => .loaded byte
      | none => .segv

-- The part of a page that a process's state shows, and what keeps the state to it.
def viewOf (page : Nat) (s : MmapState) : PageView where
  cells := fun off => s.memory (page + off)
  view := fun a => (s.pages a).bind (offsetFrom page)

structure Confined (page : Nat) (foreign : Nat → UInt8) (s : MmapState) : Prop where
  buffer : s.buffer = some page
  inside : ∀ a address, s.pages a = some address → page ≤ address ∧ address < page + pageSize
  foreign : ∀ address, address < page ∨ page + pageSize ≤ address → s.memory address = foreign address

theorem offset_inside (page address : Nat) (inside : page ≤ address ∧ address < page + pageSize) :
    ∃ off : Fin pageSize, offsetFrom page address = some off ∧ page + off = address := by
  have within : page ≤ address ∧ address - page < pageSize := by omega
  exact ⟨⟨address - page, within.2⟩, dif_pos within, Nat.add_sub_cancel' within.1⟩

section Views

variable (page : Nat) (foreign : Nat → UInt8) (s : MmapState)

theorem view_put (off : Fin pageSize) (byte : UInt8) :
    viewOf page { s with memory := Function.update s.memory (page + off) byte } = (viewOf page s).put off byte := by
  have cells : (fun x : Fin pageSize => Function.update s.memory (page + off) byte (page + x)) =
      Function.update (fun x : Fin pageSize => s.memory (page + x)) off byte := by
    funext x
    by_cases same : x = off
    · subst same
      simp
    · have apart : page + (x : Nat) ≠ page + off := fun equal => same (Fin.ext (Nat.add_left_cancel equal))
      rw [Function.update_of_ne apart, Function.update_of_ne same]
  simp only [viewOf, PageView.put, cells]

theorem confined_put (off : Fin pageSize) (byte : UInt8) (holds : Confined page foreign s) :
    Confined page foreign { s with memory := Function.update s.memory (page + off) byte } where
  buffer := holds.buffer
  inside := holds.inside
  foreign := by
    intro address outside
    have bound := off.isLt
    have apart : address ≠ page + off := by omega
    exact (Function.update_of_ne apart byte s.memory).trans (holds.foreign address outside)

theorem view_at (a : Nat) (holds : Confined page foreign s) :
    s.pages a = none ∧ (viewOf page s).view a = none ∨
      ∃ off : Fin pageSize, s.pages a = some (page + off) ∧ (viewOf page s).view a = some off := by
  cases mapped : s.pages a with
  | none => exact .inl ⟨rfl, by simp [viewOf, mapped]⟩
  | some address =>
      obtain ⟨off, found, rfl⟩ := offset_inside page address (holds.inside a address mapped)
      exact .inr ⟨off, rfl, by simp [viewOf, mapped, found]⟩

end Views

section Calls

variable (page : Nat) (foreign : Nat → UInt8)

abbrev OnPage {α : Type} (p : MmapProg α) (q : PageProg α) : Prop := p.Mirrors (viewOf page) (Confined page foreign) q

theorem load_mirrors (a : Nat) : OnPage page foreign (loadByte a) (MmapCall.load a).onPage := by
  refine Prog.mirrors_act _ _ _ _ _ _ _ _ _ (fun _ _ => rfl) (fun _ holds => holds) (fun _ _ => rfl) fun s holds => ?_
  rcases view_at page foreign s a holds with ⟨unmapped, unseen⟩ | ⟨off, mapped, seen⟩
  · simp [MmapState.shown, unmapped, unseen]
  · simp only [MmapState.shown, mapped, seen, Option.map_some]
    rfl

theorem store_mirrors (a : Nat) (byte : UInt8) :
    OnPage page foreign (storeByte a byte) (MmapCall.store a byte).onPage := by
  apply Prog.mirrors_act
  · exact fun _ _ => rfl
  · intro s holds
    rcases view_at page foreign s a holds with ⟨unmapped, -⟩ | ⟨off, mapped, -⟩
    · simpa only [unmapped] using holds
    · simpa only [mapped] using confined_put page foreign s off byte holds
  · intro s holds
    rcases view_at page foreign s a holds with ⟨unmapped, unseen⟩ | ⟨off, mapped, seen⟩
    · simp only [unmapped, unseen]
    · simp only [mapped, seen]
      exact view_put page s off byte
  · intro s holds
    rcases view_at page foreign s a holds with ⟨unmapped, unseen⟩ | ⟨off, mapped, seen⟩
    · simp [unmapped, unseen]
    · simp [mapped, seen]

theorem unmap_mirrors (vma : VmArea) : OnPage page foreign (MmapCall.unmap vma).prog (MmapCall.unmap vma).onPage := by
  refine Prog.mirrors_bind _ _ _ _ _ _ ?_ fun _ => Prog.mirrors_pure _ _ _
  refine Prog.mirrors_modify _ _ _ _ _ (fun s holds => ⟨holds.buffer, fun a address mapped => ?_, holds.foreign⟩)
    fun s _ => ?_
  · dsimp only at mapped
    split at mapped
    · cases mapped
    · exact holds.inside a address mapped
  · simp only [viewOf, PageView.detached, PageView.mk.injEq, true_and]
    funext a
    split <;> rfl

theorem store_array_mirrors (bytes : List UInt8) (i : Nat) (short : i + bytes.length ≤ pageSize) :
    OnPage page foreign (storeArray i bytes) (putAll (bytes.mapIdx fun j byte => (cell (i + j), byte))) := by
  induction bytes generalizing i with
  | nil => exact Prog.mirrors_pure _ _ ()
  | cons byte rest ih =>
      rw [List.length_cons] at short
      have later := ih (i + 1) (by omega)
      have shift : (rest.mapIdx fun j byte => (cell (i + (j + 1)), byte)) =
          rest.mapIdx fun j byte => (cell (i + 1 + j), byte) := by
        congr 1
        funext j byte
        exact congrArg (fun k => (cell k, byte)) (by omega)
      rw [List.mapIdx_cons, shift]
      refine Prog.mirrors_bind _ _ _ _ _ _ ?_ fun _ => later
      refine Prog.mirrors_access _ _ _ _ _ _ fun s holds => ?_
      have here : page + (cell i : Nat) = page + i := congrArg (page + ·) (Nat.mod_eq_of_lt (by omega))
      refine ⟨{ s with memory := Function.update s.memory (page + cell i) byte }, ?_,
        confined_put page foreign s (cell i) byte holds, view_put page s (cell i) byte⟩
      simp only [holds.buffer, here]

theorem attach_viewed (vma : VmArea) (s : MmapState) (one : vma.vmEnd - vma.vmStart = pageSize)
    (holds : Confined page foreign s) (pages : Nat → Option Nat)
    (sends : pages = fun a => if vma.vmStart ≤ a ∧ a < vma.vmEnd then some (page + (a - vma.vmStart)) else s.pages a) :
    Confined page foreign { s with pages := pages } ∧
      viewOf page { s with pages := pages } = (viewOf page s).attached vma := by
  subst sends
  refine ⟨⟨holds.buffer, fun a address mapped => ?_, holds.foreign⟩, ?_⟩
  · dsimp only at mapped
    split at mapped
    · obtain rfl := Option.some.inj mapped
      omega
    · exact holds.inside a address mapped
  · simp only [viewOf, PageView.attached, PageView.mk.injEq, true_and]
    funext a
    split
    · next within =>
        have low : vma.vmStart ≤ a ∧ a - vma.vmStart < pageSize := by omega
        obtain ⟨off, found, same⟩ := offset_inside page (page + (a - vma.vmStart)) (by omega)
        obtain rfl : off = ⟨a - vma.vmStart, low.2⟩ := Fin.ext (Nat.add_left_cancel same)
        rw [Option.bind_some, found, offsetFrom, dif_pos low]
    · rfl

theorem my_mmap_mirrors (vma : VmArea) (outcome : Int) (aligned : pageSize ∣ page)
    (one : vma.vmEnd - vma.vmStart = pageSize) : OnPage page foreign (myMmap vma outcome) (pageMap vma outcome) := by
  refine Prog.mirrors_look_then _ _ _ _ _ _ _ fun s holds => ?_
  rw [holds.buffer]
  have frame : page >>> pageShift * pageSize = page := by
    rw [Nat.shiftRight_eq_div_pow]
    exact Nat.div_mul_cancel aligned
  have ends : vma.vmStart + (vma.vmEnd - vma.vmStart) = vma.vmEnd := by
    have nonempty := vma.nonempty
    omega
  by_cases succeeds : outcome = 0
  · subst succeeds
    simp only [remapPfnRange, virtToPhys, Option.getD_some, if_true, Prog.then_then, Prog.pure_then, ne_eq,
      not_true, if_false, frame, ends]
    refine Prog.mirrors_bind _ _ _ _ _ _ ?_ fun _ => ?_
    · exact Prog.mirrors_modify _ _ _ _ _ (fun t here => (attach_viewed page foreign vma t one here _ rfl).1)
        fun t here => (attach_viewed page foreign vma t one here _ rfl).2
    · refine Prog.mirrors_bind _ _ _ _ _ _ ?_ fun _ => Prog.mirrors_pure _ _ _
      have stores := store_array_mirrors page foreign array 0 (by decide)
      simp only [Nat.zero_add] at stores
      exact stores
  · simp only [remapPfnRange, succeeds, if_false, Prog.pure_then, ne_eq, not_false_eq_true, if_true]
    exact Prog.mirrors_pure _ _ _

def MmapCall.OnePage : MmapCall → Prop
  | .map vma _ => vma.vmEnd - vma.vmStart = pageSize
  | _ => True

theorem call_mirrors (call : MmapCall) (aligned : pageSize ∣ page) (one : call.OnePage) :
    OnPage page foreign call.prog call.onPage := by
  cases call with
  | map vma outcome =>
      exact Prog.mirrors_bind _ _ _ _ _ _ (my_mmap_mirrors page foreign vma outcome aligned one) fun r =>
        Prog.mirrors_pure _ _ _
  | unmap vma => exact unmap_mirrors page foreign vma
  | store a byte => exact store_mirrors page foreign a byte
  | load a => exact load_mirrors page foreign a

end Calls

-- The page and every process's view of it.
structure SharedPage where
  cells : Fin pageSize → UInt8
  views : Nat → Nat → Option (Fin pageSize)

def viewPart (task : Nat) : Part SharedPage PageView where
  get := fun s => ⟨s.cells, s.views task⟩
  set := fun v s => ⟨v.cells, Function.update s.views task v.view⟩
  get_set := fun v s => by simp
  set_get := fun s => by simp
  set_set := fun v w s => by simp

abbrev PagePool := Pool MmapLabel SharedPage MmapFault (List Reply)

def sharing (cells : Fin pageSize → UInt8) (tasks : List (List MmapCall)) : PagePool :=
  Pool.start ⟨cells, fun _ _ => none⟩ (tasks.mapIdx fun i calls =>
    (Prog.series MmapCall.onPage calls).within (viewPart i) id id fun _ _ => none)

def pageOf (page : Nat) (s : SharedState) : SharedPage where
  cells := fun off => s.memory (page + off)
  views := fun task a => (s.pages task a).bind (offsetFrom page)

def AllConfined (page : Nat) (foreign : Nat → UInt8) (s : SharedState) : Prop :=
  ∀ task, Confined page foreign ((processPart task).get s)

theorem page_of_set (page : Nat) (task : Nat) (m : MmapState) (s : SharedState) :
    pageOf page ((processPart task).set m s) = (viewPart task).set (viewOf page m) (pageOf page s) := by
  have views : (fun j a => (Function.update s.pages task m.pages j a).bind (offsetFrom page)) =
      Function.update (fun j a => (s.pages j a).bind (offsetFrom page)) task fun a => (m.pages a).bind (offsetFrom page) := by
    funext j
    by_cases same : j = task
    · subst same
      simp
    · simp [Function.update_of_ne same]
  simp only [pageOf, processPart, viewPart, viewOf, views]

theorem all_confined_set (page : Nat) (foreign : Nat → UInt8) (task : Nat) (m : MmapState) (s : SharedState)
    (holds : AllConfined page foreign s) (kept : Confined page foreign m) :
    AllConfined page foreign ((processPart task).set m s) := by
  intro j
  by_cases same : j = task
  · subst same
    rw [(processPart j).get_set]
    exact kept
  · refine ⟨kept.buffer, fun a address mapped => ?_, kept.foreign⟩
    have still : s.pages j a = some address := by
      rw [← mapped]
      simp [processPart, Function.update_of_ne same]
    exact (holds j).inside a address still

-- What the processes see is one array of a page, whoever maps it and whenever, and
-- nothing they do reaches past it.
theorem mappings_share_one_page (page : Nat) (memory : Nat → UInt8) (tasks : List (List MmapCall))
    (aligned : pageSize ∣ page) (one : ∀ calls ∈ tasks, ∀ call ∈ calls, call.OnePage) (schedule : List Nat) :
    ((mapping page memory tasks).exec schedule = none →
        (sharing (fun off => memory (page + off)) tasks).exec schedule = none) ∧
      ∀ last, (mapping page memory tasks).exec schedule = some last →
        (∀ address, address < page ∨ page + pageSize ≤ address → last.shared.memory address = memory address) ∧
        ∃ image, (sharing (fun off => memory (page + off)) tasks).exec schedule = some image ∧
          pageOf page last.shared = image.shared ∧
          ∀ i : Nat, last.threads[i]?.bind Thread.value = image.threads[i]?.bind Thread.value ∧
            last.threads[i]?.bind Thread.fault = image.threads[i]?.bind Thread.fault := by
  have begins : Pool.Reflects (pageOf page) (AllConfined page memory) (mapping page memory tasks)
      (sharing (fun off => memory (page + off)) tasks) := by
    refine Pool.reflects_start _ _ (loadedAt page memory) tasks _ _ ?_ fun i calls listed => ?_
    · exact fun task => ⟨rfl, fun a address mapped => (by cases mapped), fun _ _ => rfl⟩
    · have member := List.mem_of_getElem? listed
      refine Prog.mirrors_within (processPart i) (viewPart i) id id _ (viewOf page) (Confined page memory) _ (fun _ => rfl)
        (fun m s _ _ => page_of_set page i m s) (fun s holds => holds i)
        (fun m s holds kept => all_confined_set page memory i m s holds kept) _ _ ?_
      exact Prog.mirrors_series _ _ _ _ calls fun call made => call_mirrors page memory call aligned (one calls member call made)
  obtain ⟨blocked, goes⟩ := Pool.reflects_exec _ _ _ _ schedule begins
  refine ⟨blocked, fun last ran => ?_⟩
  obtain ⟨image, ran', reflects⟩ := goes last ran
  exact ⟨(reflects.holds 0).foreign, image, ran', reflects.shared, fun i => Pool.reflects_value _ _ _ _ i reflects⟩

def onePage : VmArea where
  vmStart := 0x50000000
  vmEnd := 0x50001000
  vmPgoff := 0
  startAligned := by decide
  endAligned := by decide
  nonempty := by decide

def twoProcesses : List (List MmapCall) :=
  [[.map onePage 0, .load 0x5000000a], [.map onePage 0, .store 0x5000000a 7]]

-- The second process maps the page while the first does.
theorem two_processes_share_the_page :
    ∃ last, (mapping 0x33a00000 (fun _ => 0xAA) twoProcesses).exec [0, 1, 0, 1, 0, 1] = some last ∧
      last.shared.memory 0x33a01000 = 0xAA ∧ ∃ image, (sharing (fun _ => 0xAA) twoProcesses).exec [0, 1, 0, 1, 0, 1] =
        some image ∧ pageOf 0x33a00000 last.shared = image.shared := by
  obtain ⟨last, ran⟩ : ∃ last, (mapping 0x33a00000 (fun _ => 0xAA) twoProcesses).exec [0, 1, 0, 1, 0, 1] = some last :=
    ⟨_, rfl⟩
  obtain ⟨foreign, image, ran', same, -⟩ := (mappings_share_one_page 0x33a00000 (fun _ => 0xAA) twoProcesses (by decide)
    (by simp [twoProcesses, MmapCall.OnePage, onePage, pageSize]) [0, 1, 0, 1, 0, 1]).2 last ran
  exact ⟨last, ran, foreign 0x33a01000 (.inr (by decide)), image, ran', same⟩

end OneDriver.Mmap
