import OneDriver.Prog
import OneDriver.Memory
import Mathlib.Logic.Function.Basic
import Mathlib.Tactic.Ring

set_option autoImplicit false

namespace OneDriver.Mmap

def pageShift : Nat := 12

def pageSize : Nat := 4096

def array : List UInt8 := [0, 1, 2, 3, 4, 5, 6, 7, 8, 9]

-- mmap(2) hands the driver whole pages, and at least one.
structure VmArea where
  vmStart : Nat
  vmEnd : Nat
  vmPgoff : Nat
  startAligned : pageSize ∣ vmStart
  endAligned : pageSize ∣ vmEnd
  nonempty : vmStart < vmEnd

def VmArea.Contains (vma : VmArea) (a : Nat) : Prop := vma.vmStart ≤ a ∧ a < vma.vmEnd

-- Physical memory byte by byte, `buffer` by its physical address, and where the
-- process's page table sends each of its addresses.
structure MmapState where
  memory : Nat → UInt8
  buffer : Option Nat
  pages : Nat → Option Nat

inductive MmapLabel where
  | buffer
  | pages
  | memory
deriving DecidableEq, Repr

inductive MmapFault where
  | nullPointer
deriving DecidableEq, Repr

abbrev MmapProg := Prog MmapLabel MmapState MmapFault

-- What it makes of NULL is of no consequence: the first store traps.
def virtToPhys (buffer : Option Nat) : Nat := buffer.getD 0

-- `outcome` is what it returns; on success the pages from `addr` on go to the
-- frames from `pfn` on.
def remapPfnRange (addr pfn size : Nat) (outcome : Int) : MmapProg Int := do
  if outcome = 0 then
    Prog.modify .pages fun s =>
      { s with pages := fun a => if addr ≤ a ∧ a < addr + size then some (pfn * pageSize + (a - addr)) else s.pages a }
  else pure ()
  pure outcome

def storeArray (i : Nat) : List UInt8 → MmapProg Unit
  | [] => pure ()
  | byte :: rest => do
      Prog.access .memory fun s => match s.buffer with
        | some page => .ok ((), { s with memory := Function.update s.memory (page + i) byte })
        | none => .error .nullPointer
      storeArray (i + 1) rest

-- vm_pgoff is not looked at.
def myMmap (vma : VmArea) (outcome : Int) : MmapProg Int := do
  let size := vma.vmEnd - vma.vmStart
  let buffer ← Prog.look .buffer MmapState.buffer
  let page := virtToPhys buffer
  let err ← remapPfnRange vma.vmStart (page >>> pageShift) size outcome
  if err ≠ 0 then pure (-1)
  else do
    storeArray 0 array
    pure err

-- kmalloc does not clear the memory it gives.
def devInit (registered : Int) (allocated : Option Nat) : MmapProg Int :=
  if registered ≠ 0 then pure (-1)
  else do
    Prog.modify .buffer fun s => { s with buffer := allocated }
    match allocated with
    | none => pure (-1)
    | some _ => pure registered

def MmapState.shown (s : MmapState) (a : Nat) : Option UInt8 := (s.pages a).map s.memory

-- The module loads with its buffer at `page`, and a process maps it.
def loadAndMap (page : Nat) (vma : VmArea) : MmapProg Int := do
  let _ ← devInit 0 (some page)
  myMmap vma 0

structure Exposes (s : MmapState) (page : Nat) (vma : VmArea) (t : MmapState) : Prop where
  confined : ∀ a address, vma.Contains a → t.pages a = some address → page ≤ address ∧ address < page + pageSize
  determined : ∀ memory t', (∀ address, address < page → memory address = s.memory address) →
    (loadAndMap page vma).run { s with memory := memory } = .done 0 t' →
    ∀ a, vma.Contains a → t'.shown a = t.shown a

theorem run_store_array (bytes : List UInt8) (i page : Nat) (s : MmapState) (buffer : s.buffer = some page) :
    (storeArray i bytes).run s = .done () { s with memory := overlay s.memory (page + i) bytes } := by
  induction bytes generalizing i s with
  | nil =>
      rw [overlay_nil]
      rfl
  | cons byte rest ih =>
      have later := ih (i + 1) { s with memory := Function.update s.memory (page + i) byte } buffer
      simp only [storeArray, Prog.run_bind, Prog.run_access, buffer, outcome_bind_done, overlay_cons]
      simp only [buffer] at later
      exact later

-- Where an address of the area is sent: to the frame the buffer begins in, and on
-- from there.
def frameAddress (page : Nat) (vma : VmArea) (a : Nat) : Nat := page / pageSize * pageSize + (a - vma.vmStart)

def mapped (s : MmapState) (page : Nat) (vma : VmArea) : MmapState where
  memory := overlay s.memory page array
  buffer := some page
  pages := fun a => if vma.vmStart ≤ a ∧ a < vma.vmEnd then some (frameAddress page vma a) else s.pages a

theorem run_load_and_map (page : Nat) (vma : VmArea) (s : MmapState) :
    (loadAndMap page vma).run s = .done 0 (mapped s page vma) := by
  have ends : vma.vmStart + (vma.vmEnd - vma.vmStart) = vma.vmEnd := by
    have nonempty := vma.nonempty
    omega
  have frame : page >>> pageShift = page / pageSize := Nat.shiftRight_eq_div_pow page pageShift
  simp [loadAndMap, devInit, myMmap, remapPfnRange, virtToPhys, run_store_array _ 0 page, mapped, frameAddress,
    ends, frame]

theorem mapped_pages (s : MmapState) (page : Nat) (vma : VmArea) (a : Nat) (inside : vma.Contains a) :
    (mapped s page vma).pages a = some (frameAddress page vma a) := if_pos inside

theorem mapped_shown (s : MmapState) (page : Nat) (vma : VmArea) (a : Nat) (inside : vma.Contains a) :
    (mapped s page vma).shown a = some (overlay s.memory page array (frameAddress page vma a)) := by
  rw [MmapState.shown, mapped_pages s page vma a inside]
  rfl

theorem whole_page (vma : VmArea) : vma.vmStart + pageSize ≤ vma.vmEnd := by
  obtain ⟨first, start⟩ := vma.startAligned
  obtain ⟨last, finish⟩ := vma.endAligned
  have nonempty := vma.nonempty
  rw [start, finish] at nonempty ⊢
  have later : first < last := Nat.lt_of_mul_lt_mul_left nonempty
  calc pageSize * first + pageSize = pageSize * (first + 1) := by ring
    _ ≤ pageSize * last := Nat.mul_le_mul_left pageSize later

theorem frame_address_aligned (page : Nat) (vma : VmArea) (a : Nat) (aligned : pageSize ∣ page) :
    frameAddress page vma a = page + (a - vma.vmStart) := by
  rw [frameAddress, Nat.div_mul_cancel aligned]

theorem start_below (page : Nat) (vma : VmArea) (unaligned : ¬ pageSize ∣ page) :
    frameAddress page vma vma.vmStart < page := by
  have remains := Nat.pos_of_ne_zero fun zero => unaligned (Nat.dvd_of_mod_eq_zero zero)
  have split := Nat.div_add_mod' page pageSize
  unfold frameAddress
  omega

-- The size asked for is all that decides how far the mapping reaches.
theorem confined_iff (s : MmapState) (page : Nat) (vma : VmArea) (aligned : pageSize ∣ page) :
    (∀ a address, vma.Contains a → (mapped s page vma).pages a = some address →
      page ≤ address ∧ address < page + pageSize) ↔ vma.vmEnd - vma.vmStart = pageSize := by
  have whole := whole_page vma
  have size : pageSize = 4096 := rfl
  constructor
  · intro confined
    have inside : vma.Contains (vma.vmEnd - 1) := ⟨by omega, by omega⟩
    have bounds := confined (vma.vmEnd - 1) _ inside (mapped_pages s page vma _ inside)
    rw [frame_address_aligned page vma _ aligned] at bounds
    omega
  · intro one a address inside sent
    rw [mapped_pages s page vma a inside, frame_address_aligned page vma a aligned] at sent
    obtain rfl := Option.some.inj sent
    obtain ⟨low, high⟩ := inside
    omega

-- Beyond the ten bytes the process reads what was there before.
theorem shows_what_was_there (s : MmapState) (page : Nat) (vma : VmArea) (a : Nat) (aligned : pageSize ∣ page)
    (inside : vma.Contains a) (unwritten : vma.vmStart + array.length ≤ a) :
    (mapped s page vma).shown a = some (s.memory (page + (a - vma.vmStart))) := by
  rw [mapped_shown s page vma a inside, frame_address_aligned page vma a aligned]
  rw [overlay_outside _ _ _ _ (Or.inr (by omega))]

theorem shows_what_is_written (s : MmapState) (page : Nat) (vma : VmArea) (j : Nat) (aligned : pageSize ∣ page)
    (written : j < array.length) : (mapped s page vma).shown (vma.vmStart + j) = some array[j] := by
  have whole := whole_page vma
  have short : array.length ≤ pageSize := by decide
  rw [mapped_shown s page vma _ ⟨Nat.le_add_right _ _, by omega⟩, frame_address_aligned page vma _ aligned]
  rw [Nat.add_sub_cancel_left, overlay_inside s.memory page array j written]

-- Even of a single page all but the first ten bytes come from whoever had the
-- page before.
theorem not_exposes (s : MmapState) (page : Nat) (vma : VmArea) : ¬ Exposes s page vma (mapped s page vma) := by
  intro exposes
  have whole := whole_page vma
  have short : array.length < pageSize := by decide
  by_cases aligned : pageSize ∣ page
  · have inside : vma.Contains (vma.vmStart + array.length) := ⟨by omega, by omega⟩
    let other := Function.update s.memory (page + array.length) (s.memory (page + array.length) + 1)
    have below : ∀ address, address < page → other address = s.memory address := by
      intro address before
      exact Function.update_of_ne (by omega) _ _
    have same := exposes.determined other _ below (run_load_and_map page vma _) _ inside
    rw [shows_what_was_there _ page vma _ aligned inside (Nat.le_refl _)] at same
    rw [shows_what_was_there s page vma _ aligned inside (Nat.le_refl _), Nat.add_sub_cancel_left] at same
    simp [other] at same
  · have inside : vma.Contains vma.vmStart := ⟨Nat.le_refl _, vma.nonempty⟩
    have bounds := exposes.confined _ _ inside (mapped_pages s page vma _ inside)
    have below := start_below page vma aligned
    omega

theorem mapping_never_exposes (s : MmapState) (page : Nat) (vma : VmArea) :
    ∃ t, (loadAndMap page vma).run s = .done 0 t ∧ ¬ Exposes s page vma t :=
  ⟨mapped s page vma, run_load_and_map page vma s, not_exposes s page vma⟩

def twoPages : VmArea where
  vmStart := 0x40000000
  vmEnd := 0x40002000
  vmPgoff := 0
  startAligned := by decide
  endAligned := by decide
  nonempty := by decide

-- Two pages of a buffer of one, the page filled with 0xAA by whoever had it before.
theorem second_page_shows_foreign_memory :
    ∃ s t, (loadAndMap 0x33a00000 twoPages).run s = .done 0 t ∧ t.pages 0x40001000 = some 0x33a01000 ∧
      t.shown 0x4000000a = some 0xAA ∧ ¬ Exposes s 0x33a00000 twoPages t := by
  refine ⟨⟨fun _ => 0xAA, none, fun _ => none⟩, _, run_load_and_map _ _ _, ?_, ?_, not_exposes _ _ _⟩
  · rw [mapped_pages _ _ _ _ ⟨by decide, by decide⟩]
    rfl
  · rw [shows_what_was_there _ _ _ _ (by decide) ⟨by decide, by decide⟩ (by decide)]

end OneDriver.Mmap
