import OneDriver.History
import OneDriver.Ioremap.Mapping

set_option autoImplicit false

namespace OneDriver.Ioremap

theorem mapped_size_frames (physAddr size : Word) (valid : Valid physAddr size) :
    (mappedSize physAddr size).toNat =
      (lastFrame physAddr size + 1 - firstFrame physAddr) * 4096 % 2 ^ 32 := by
  have last := last_addr_nat physAddr size valid.1 valid.2
  have ordered : physAddr.toNat ≤ (physAddr + size - 1).toNat := by
    have positive := valid.1
    omega
  rw [mappedSize, mapped_size_nat physAddr _ ordered, last, lastFrame, firstFrame]

-- An area that is not empty takes the pages in which the request begins and ends,
-- and those between.
theorem placed_size (vm : Vmalloc) (areas : List VmStruct) (physAddr size addr : Word) (valid : Valid physAddr size)
    (placed : vm.place areas (mappedSize physAddr size) = some addr) :
    (mappedSize physAddr size).toNat = (lastFrame physAddr size + 1 - firstFrame physAddr) * 4096 := by
  have frames := mapped_size_frames physAddr size valid
  have nonempty : (mappedSize physAddr size).toNat ≠ 0 := by
    intro zero
    have empty : mappedSize physAddr size = 0 := BitVec.eq_of_toNat_eq zero
    rw [empty, vm.refusesEmpty] at placed
    cases placed
  have bound := valid.2
  have high : lastFrame physAddr size < 2 ^ 20 := by
    unfold lastFrame
    omega
  omega

theorem pointer_nat (vm : Vmalloc) (areas : List VmStruct) (physAddr size addr : Word) (valid : Valid physAddr size)
    (placed : vm.place areas (mappedSize physAddr size) = some addr) :
    ((physAddr &&& ~~~pageMask) + addr).toNat = addr.toNat + physAddr.toNat % 4096 := by
  have low := low_bits physAddr 12 (by decide)
  rw [← page_mask_low] at low
  have frames := placed_size vm areas physAddr size addr valid placed
  have fits := vm.fits areas _ addr placed
  have ordered := first_le_last physAddr size valid
  rw [BitVec.toNat_add, low]
  omega

def Maps (s : MemState) (pointer physAddr size flags : Word) : Prop :=
  ∀ i, i < size.toNat → s.reaches (pointer.toNat + i) = some (physAddr.toNat + i, flags)

theorem direct_maps (s : MemState) (physAddr size flags : Word) (valid : Valid physAddr size)
    (direct : Direct physAddr size flags) : Maps s (ckseg1addr physAddr) physAddr size flags := by
  intro i inside
  have positive := valid.1
  have low := direct.1
  have pointer := ckseg1addr_nat physAddr (by omega)
  have segment : vmallocStart = 0xc0000000 := rfl
  rw [MemState.reaches, if_neg (by omega), if_pos (by omega), direct.2, pointer]
  simp only [Option.some.injEq, Prod.mk.injEq, and_true]
  omega

theorem granted_maps (vm : Vmalloc) (s : MemState) (physAddr size flags addr : Word) (valid : Valid physAddr size)
    (placed : vm.place s.areas (mappedSize physAddr size) = some addr) :
    Maps (granted addr (physAddr &&& pageMask) (mappedSize physAddr size) flags s)
      ((physAddr &&& ~~~pageMask) + addr) physAddr size flags := by
  intro i inside
  have pointer := pointer_nat vm s.areas physAddr size addr valid placed
  have frames := placed_size vm s.areas physAddr size addr valid placed
  have above := vm.above s.areas _ addr placed
  have frame : (physAddr &&& pageMask).toNat = physAddr.toNat / 4096 * 4096 := by
    rw [page_mask_high]
    exact high_bits physAddr 12 (by decide)
  have segment : vmallocStart = 0xc0000000 := rfl
  obtain ⟨page, start⟩ := vm.aligned s.areas _ addr placed
  have within : physAddr.toNat % 4096 + i < (mappedSize physAddr size).toNat / 4096 * 4096 := by
    rw [frames, firstFrame, lastFrame]
    omega
  have sent := PageTable.reaches_install s.table page (physAddr.toNat / 4096)
    ((mappedSize physAddr size).toNat / 4096) flags 4096 (physAddr.toNat % 4096 + i) (by decide) within
  have first : addr.toNat / 4096 = page := by omega
  have from' : (physAddr &&& pageMask).toNat / 4096 = physAddr.toNat / 4096 := by omega
  have address : ((physAddr &&& ~~~pageMask) + addr).toNat + i = page * 4096 + (physAddr.toNat % 4096 + i) := by omega
  rw [MemState.reaches, if_neg (by omega), if_neg (by omega), address, granted, first, from', sent]
  simp only [Option.some.injEq, Prod.mk.injEq, and_true]
  omega

theorem granted_keeps (vm : Vmalloc) (s : MemState) (size addr phys flags : Word) (a : Nat) (target : Nat × Word)
    (sound : Sound s) (placed : vm.place s.areas size = some addr) (held : s.reaches a = some target) :
    (granted addr phys size flags s).reaches a = some target := by
  by_cases low : a < 0xa0000000
  · simp [MemState.reaches, low] at held
  · by_cases unmapped : a < vmallocStart
    · simpa only [MemState.reaches, if_neg low, if_pos unmapped] using held
    · simp only [MemState.reaches, if_neg low, if_neg unmapped] at held ⊢
      exact PageTable.reaches_keeps _ _ _ _ _ _ _ _ (placed_vacant vm s size addr sound placed) held

inductive MemCall where
  | ioremap (constant : Bool) (physAddr size flags : Word) (stops : Option Nat)
  | setPageReserved (page : Nat)
  | clearPageReserved (page : Nat)
deriving DecidableEq, Repr

def serveMem (vm : Vmalloc) : MemCall → MemProg Word
  | .ioremap constant physAddr size flags stops => ioremapMode vm constant physAddr size flags stops
  | .setPageReserved page => do
      setPageReserved page
      pure 0
  | .clearPageReserved page => do
      clearPageReserved page
      pure 0

-- Before the first request nothing is mapped.
def booted (memMap : List Bool) (highMemory : Word) : MemState := ⟨memMap, highMemory, [], fun _ => none⟩

theorem booted_sound (memMap : List Bool) (highMemory : Word) : Sound (booted memMap highMemory) where
  above := by simp [booted]
  fits := by simp [booted]
  aligned := by simp [booted]
  whole := by simp [booted]
  backed := by simp [booted]

-- What a call leaves, where it returns.
inductive Left (vm : Vmalloc) (s : MemState) : MemCall → Word → MemState → Prop where
  | refused (constant : Bool) (physAddr size flags : Word) (stops : Option Nat) :
      Left vm s (.ioremap constant physAddr size flags stops) 0 s
  | direct (constant : Bool) (physAddr size flags : Word) (stops : Option Nat) (valid : Valid physAddr size)
      (direct : Direct physAddr size flags) :
      Left vm s (.ioremap constant physAddr size flags stops) (ckseg1addr physAddr) s
  | mapped (constant : Bool) (physAddr size flags : Word) (stops : Option Nat) (valid : Valid physAddr size)
      (passes : Passes s physAddr size) (addr : Word)
      (placed : vm.place s.areas (mappedSize physAddr size) = some addr) :
      Left vm s (.ioremap constant physAddr size flags stops) ((physAddr &&& ~~~pageMask) + addr)
        (granted addr (physAddr &&& pageMask) (mappedSize physAddr size) flags s)
  | setFlag (page : Nat) : Left vm s (.setPageReserved page) 0 { s with memMap := s.memMap.set page true }
  | clearFlag (page : Nat) : Left vm s (.clearPageReserved page) 0 { s with memMap := s.memMap.set page false }

theorem run_store_flag (reserved : Bool) (page : Nat) (s : MemState) :
    (storePageFlag reserved page).run s = if page < s.memMap.length then
      .done () { s with memMap := s.memMap.set page reserved } else .crashed .beyondMemMap s := by
  rw [storePageFlag, Prog.run_access]
  by_cases inside : page < s.memMap.length
  · simp only [if_pos inside]
  · simp only [if_neg inside]

theorem serve_leaves (vm : Vmalloc) (s t : MemState) (call : MemCall) (r : Word) (sound : Sound s)
    (ran : (serveMem vm call).run s = .done r t) : Left vm s call r t := by
  cases call with
  | ioremap constant physAddr size flags stops =>
      have served := ioremap_under_served vm s physAddr size flags stops sound
      rw [serveMem, ioremap_mode_eq] at ran
      rw [ran] at served
      cases served with
      | invalid bad => exact .refused constant physAddr size flags stops
      | direct valid direct => exact .direct constant physAddr size flags stops valid direct
      | used valid paged used => exact .refused constant physAddr size flags stops
      | refused valid paged passes refused => exact .refused constant physAddr size flags stops
      | mapped valid paged passes addr placed whole =>
          exact .mapped constant physAddr size flags stops valid passes addr placed
  | setPageReserved page =>
      simp only [serveMem, setPageReserved, Prog.run_bind, run_store_flag] at ran
      split at ran
      · rw [outcome_bind_done, Prog.run_pure, Outcome.done.injEq] at ran
        obtain ⟨rfl, rfl⟩ := ran
        exact .setFlag page
      · cases ran
  | clearPageReserved page =>
      simp only [serveMem, clearPageReserved, Prog.run_bind, run_store_flag] at ran
      split at ran
      · rw [outcome_bind_done, Prog.run_pure, Outcome.done.injEq] at ran
        obtain ⟨rfl, rfl⟩ := ran
        exact .clearFlag page
      · cases ran

theorem serve_never_misuses (vm : Vmalloc) (s u : MemState) (call : MemCall) (sound : Sound s) :
    (serveMem vm call).run s ≠ .crashed .noArea u := by
  intro ran
  cases call with
  | ioremap constant physAddr size flags stops =>
      have served := ioremap_under_served vm s physAddr size flags stops sound
      rw [serveMem, ioremap_mode_eq] at ran
      rw [ran] at served
      cases served
  | setPageReserved page =>
      simp only [serveMem, setPageReserved, Prog.run_bind, run_store_flag] at ran
      split at ran <;> cases ran
  | clearPageReserved page =>
      simp only [serveMem, clearPageReserved, Prog.run_bind, run_store_flag] at ran
      split at ran <;> cases ran

theorem left_sound (vm : Vmalloc) (s t : MemState) (call : MemCall) (r : Word) (sound : Sound s)
    (left : Left vm s call r t) : Sound t := by
  cases left with
  | refused constant physAddr size flags stops => exact sound
  | direct constant physAddr size flags stops valid direct => exact sound
  | mapped constant physAddr size flags stops valid passes addr placed =>
      apply granted_sound vm s _ addr _ flags sound placed
      rw [placed_size vm s.areas physAddr size addr valid placed]
      exact Nat.dvd_mul_left 4096 _
  | setFlag page => exact ⟨sound.above, sound.fits, sound.aligned, sound.whole, sound.backed⟩
  | clearFlag page => exact ⟨sound.above, sound.fits, sound.aligned, sound.whole, sound.backed⟩

theorem left_keeps (vm : Vmalloc) (s t : MemState) (call : MemCall) (r : Word) (a : Nat) (target : Nat × Word)
    (sound : Sound s) (left : Left vm s call r t) (held : s.reaches a = some target) : t.reaches a = some target := by
  cases left with
  | refused constant physAddr size flags stops => exact held
  | direct constant physAddr size flags stops valid direct => exact held
  | mapped constant physAddr size flags stops valid passes addr placed =>
      exact granted_keeps vm s _ addr _ flags a target sound placed held
  | setFlag page => exact held
  | clearFlag page => exact held

-- A pointer handed out goes, byte for byte, to the memory that was asked for.
def MemCall.Reaches (t : MemState) : MemCall → Word → Prop
  | .ioremap _ physAddr size flags _, r => r ≠ 0 → Maps t r physAddr size flags
  | _, _ => True

theorem left_reaches (vm : Vmalloc) (s t : MemState) (call : MemCall) (r : Word) (left : Left vm s call r t) :
    call.Reaches t r := by
  cases left with
  | refused constant physAddr size flags stops => exact fun some => absurd rfl some
  | direct constant physAddr size flags stops valid direct => exact fun _ => direct_maps s physAddr size flags valid direct
  | mapped constant physAddr size flags stops valid passes addr placed =>
      exact fun _ => granted_maps vm s physAddr size flags addr valid placed
  | setFlag page => trivial
  | clearFlag page => trivial

-- The results that are pointers into an area.
def inAreas (history : List (MemCall × Word)) : List (MemCall × Word) :=
  history.filter fun entry => decide (vmallocStart ≤ entry.2.toNat)

theorem left_areas (vm : Vmalloc) (s t : MemState) (call : MemCall) (r : Word) (left : Left vm s call r t) :
    t.areas.length = s.areas.length + (inAreas [(call, r)]).length := by
  have segment : vmallocStart = 0xc0000000 := rfl
  cases left with
  | refused constant physAddr size flags stops => rfl
  | direct constant physAddr size flags stops valid direct =>
      have low := direct.1
      have positive := valid.1
      have pointer := ckseg1addr_nat physAddr (by omega)
      simp only [inAreas, List.filter_cons, List.filter_nil]
      rw [if_neg (by rw [decide_eq_true_iff]; omega)]
      rfl
  | mapped constant physAddr size flags stops valid passes addr placed =>
      have pointer := pointer_nat vm s.areas physAddr size addr valid placed
      have above := vm.above s.areas _ addr placed
      simp only [inAreas, List.filter_cons, List.filter_nil]
      rw [if_pos (by rw [decide_eq_true_iff]; omega)]
      rfl
  | setFlag page => rfl
  | clearFlag page => rfl

structure GrantsHold (history : List (MemCall × Word)) (s : MemState) : Prop where
  sound : Sound s
  reaches : ∀ call r, (call, r) ∈ history → call.Reaches s r
  areas : s.areas.length = (inAreas history).length

theorem grants_hold (vm : Vmalloc) (memMap : List Bool) (highMemory : Word) (history : List (MemCall × Word))
    (last : MemState) (ran : History (serveMem vm) (fun _ _ => True) (booted memMap highMemory) history last) :
    GrantsHold history last := by
  apply history_invariant (serveMem vm) (fun _ _ => True) (booted memMap highMemory) GrantsHold _ _ history last ran
  · exact ⟨booted_sound memMap highMemory, by simp, rfl⟩
  · intro past s t call r holds _ served
    have left := serve_leaves vm s t call r holds.sound served
    refine ⟨left_sound vm s t call r holds.sound left, fun other value member => ?_, ?_⟩
    · rcases List.mem_append.mp member with before | here
      · have earlier := holds.reaches other value before
        cases other with
        | ioremap constant physAddr size flags stops =>
            exact fun some i inside => left_keeps vm s t call r _ _ holds.sound left (earlier some i inside)
        | setPageReserved page => trivial
        | clearPageReserved page => trivial
      · obtain ⟨rfl, rfl⟩ := Prod.mk.inj (List.mem_singleton.mp here)
        exact left_reaches vm s t other value left
    · rw [left_areas vm s t call r left, holds.areas, inAreas, inAreas, inAreas, List.filter_append, List.length_append]

def areasEnd : List VmStruct → Nat
  | [] => vmallocStart
  | area :: rest => max (areasEnd rest) (area.addr.toNat + area.size.toNat)

def nextPage (areas : List VmStruct) : Nat := (areasEnd areas + 4095) / 4096 * 4096

theorem areas_end_above (areas : List VmStruct) : vmallocStart ≤ areasEnd areas := by
  induction areas with
  | nil => exact Nat.le_refl _
  | cons area rest ih => exact Nat.le_trans ih (Nat.le_max_left _ _)

theorem areas_end_after (areas : List VmStruct) (area : VmStruct) (member : area ∈ areas) :
    area.addr.toNat + area.size.toNat ≤ areasEnd areas := by
  induction areas with
  | nil => cases member
  | cons first rest ih =>
      rcases List.mem_cons.mp member with rfl | later
      · exact Nat.le_max_right _ _
      · exact Nat.le_trans (ih later) (Nat.le_max_left _ _)

def placeNext (areas : List VmStruct) (size : Word) : Option Word :=
  if size ≠ 0 ∧ nextPage areas + size.toNat ≤ 2 ^ 32 then some (BitVec.ofNat 32 (nextPage areas)) else none

theorem place_next_some (areas : List VmStruct) (size addr : Word) (placed : placeNext areas size = some addr) :
    addr.toNat = nextPage areas ∧ nextPage areas + size.toNat ≤ 2 ^ 32 := by
  unfold placeNext at placed
  split at placed
  · rename_i fits
    have positive : 0 < size.toNat := Nat.pos_of_ne_zero fun zero => fits.1 (BitVec.eq_of_toNat_eq zero)
    obtain rfl := Option.some.inj placed
    exact ⟨by rw [BitVec.toNat_ofNat, Nat.mod_eq_of_lt (by omega)], fits.2⟩
  · cases placed

-- An allocator that never looks for a gap.
def upwards : Vmalloc where
  place := placeNext
  refusesEmpty := fun _ => if_neg fun fits => fits.1 rfl
  aligned := by
    intro areas size addr placed
    rw [(place_next_some areas size addr placed).1]
    exact Nat.dvd_mul_left 4096 _
  above := by
    intro areas size addr placed
    have above := areas_end_above areas
    rw [(place_next_some areas size addr placed).1, nextPage]
    omega
  fits := by
    intro areas size addr placed
    obtain ⟨start, fits⟩ := place_next_some areas size addr placed
    omega
  apart := by
    intro areas size addr area placed member
    have after := areas_end_after areas area member
    rw [(place_next_some areas size addr placed).1, nextPage]
    exact .inr (by omega)

-- Part of a reserved page, the first of two pages of RAM, with flags that KSEG1 does not have.
def twoPages : MemState := booted [true, false] 0x80002000

def partOfPage : MemCall := .ioremap false 0x800 0x100 0 none

theorem part_of_page_mapped : (serveMem upwards partOfPage).run twoPages =
    .done 0xc0000800 (granted 0xc0000000 0 0x1000 0 twoPages) := by
  have answers := may_remap_answers twoPages 0x800 0x100 ⟨by decide, by decide⟩
  have free : ¬ InUse twoPages (firstFrame 0x800) (lastFrame 0x800 0x100) := by
    intro used
    obtain ⟨page, low, high, unreserved⟩ := used
    have first : page = 0 := Nat.le_zero.mp high
    rw [first] at unreserved
    cases unreserved
  have passes := answers.passes ⟨fun used => free used.2, fun past => absurd past.2.2 (by decide)⟩
  rw [partOfPage, serveMem, ioremap_mode_eq, ioremap_under_eq, if_neg (by decide), if_neg (by decide), Prog.run_bind, passes,
    outcome_bind_done, if_pos rfl]
  exact run_ioremap_pages upwards 0x800 (0x800 + 0x100 - 1) 0 none twoPages (booted_sound _ _)

theorem part_of_page_history (admits : List (MemCall × Word) → MemCall → Prop) (admitted : admits [] partOfPage) :
    History (serveMem upwards) admits twoPages [(partOfPage, 0xc0000800)] (granted 0xc0000000 0 0x1000 0 twoPages) :=
  .snoc [] twoPages _ partOfPage 0xc0000800 .nil admitted part_of_page_mapped

-- Whatever is asked for, every pointer handed out so far still goes where it was
-- asked to, a refusal has left no area behind, and no area is given up that is not there.
theorem every_grant_reaches (vm : Vmalloc) (memMap : List Bool) (highMemory : Word) (history : List (MemCall × Word))
    (last : MemState) (ran : History (serveMem vm) (fun _ _ => True) (booted memMap highMemory) history last) :
    (∀ call r, (call, r) ∈ history → call.Reaches last r) ∧ last.areas.length = (inAreas history).length ∧
      ∀ call u, (serveMem vm call).run last ≠ .crashed .noArea u := by
  have holds := grants_hold vm memMap highMemory history last ran
  exact ⟨holds.reaches, holds.areas, fun call u => serve_never_misuses vm last u call holds.sound⟩

theorem part_of_page_reached : Maps (granted 0xc0000000 0 0x1000 0 twoPages) 0xc0000800 0x800 0x100 0 :=
  (every_grant_reaches upwards [true, false] 0x80002000 _ _ (part_of_page_history (fun _ _ => True) trivial)).1
    partOfPage 0xc0000800 List.mem_cons_self (by decide)

end OneDriver.Ioremap
