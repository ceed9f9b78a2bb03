import OneDriver.Ioremap.Device

set_option autoImplicit false

namespace OneDriver.Ioremap

theorem low_bits (x : Word) (k : Nat) (inside : k ≤ 32) : (x &&& BitVec.ofNat 32 (2 ^ k - 1)).toNat = x.toNat % 2 ^ k := by
  have fits : 2 ^ k - 1 < 2 ^ 32 := by
    have := Nat.pow_le_pow_right (by decide : 0 < 2) inside
    have := Nat.two_pow_pos k
    omega
  rw [BitVec.toNat_and, BitVec.toNat_ofNat, Nat.mod_eq_of_lt fits, Nat.and_two_pow_sub_one_eq_mod]

theorem high_bits (x : Word) (k : Nat) (inside : k ≤ 32) :
    (x &&& ~~~BitVec.ofNat 32 (2 ^ k - 1)).toNat = x.toNat / 2 ^ k * 2 ^ k := by
  have low := low_bits x k inside
  have apart : (x &&& BitVec.ofNat 32 (2 ^ k - 1)) &&& (x &&& ~~~BitVec.ofNat 32 (2 ^ k - 1)) = 0#32 := by
    ext i bound
    simp
    grind
  have whole : (x &&& BitVec.ofNat 32 (2 ^ k - 1)) + (x &&& ~~~BitVec.ofNat 32 (2 ^ k - 1)) = x := by
    rw [BitVec.add_eq_or_of_and_eq_zero _ _ apart, ← BitVec.and_or_distrib_left, BitVec.or_not_self, BitVec.and_allOnes]
  have sum := congrArg BitVec.toNat whole
  have split := Nat.div_add_mod' x.toNat (2 ^ k)
  rw [BitVec.toNat_add_of_and_eq_zero apart, low] at sum
  omega

theorem last_addr_iff (phys size : Word) :
    (size = 0 ∨ phys + size - 1 < phys) ↔ ¬ (0 < size.toNat ∧ phys.toNat + size.toNat ≤ 2 ^ 32) := by
  bv_omega

theorem last_addr_nat (phys size : Word) (positive : 0 < size.toNat) (fits : phys.toNat + size.toNat ≤ 2 ^ 32) :
    (phys + size - 1).toNat = phys.toNat + size.toNat - 1 := by
  bv_omega

theorem is_low512_iff (addr : Word) : isLow512 addr = true ↔ addr.toNat < 2 ^ 29 := by
  have high := high_bits addr 29 (by decide)
  rw [isLow512, decide_eq_true_iff]
  constructor
  · intro zero
    have : (addr &&& ~~~BitVec.ofNat 32 (2 ^ 29 - 1)).toNat = 0 := congrArg BitVec.toNat zero
    omega
  · intro low
    apply BitVec.eq_of_toNat_eq
    refine Eq.trans high ?_
    rw [Nat.div_eq_of_lt low]
    rfl

theorem ckseg1addr_nat (addr : Word) (low : addr.toNat < 2 ^ 29) :
    (ckseg1addr addr).toNat = 0xa0000000 + addr.toNat := by
  have bits : cphysaddr addr = addr := by
    apply BitVec.eq_of_toNat_eq
    rw [cphysaddr, show (0x1fffffff : Word) = BitVec.ofNat 32 (2 ^ 29 - 1) from by decide, low_bits addr 29 (by decide), Nat.mod_eq_of_lt low]
  have apart : addr &&& kseg1 = 0#32 := by
    rw [← bits, cphysaddr, BitVec.and_assoc, show (0x1fffffff : Word) &&& kseg1 = 0#32 from by decide, BitVec.and_zero]
  have segment : kseg1.toNat = 0xa0000000 := by decide
  rw [ckseg1addr, bits, ← BitVec.add_eq_or_of_and_eq_zero _ _ apart, BitVec.toNat_add_of_and_eq_zero apart, segment, Nat.add_comm]

theorem page_mask_low : ~~~pageMask = BitVec.ofNat 32 (2 ^ 12 - 1) := by decide

theorem page_mask_high : pageMask = ~~~BitVec.ofNat 32 (2 ^ 12 - 1) := by decide

theorem page_align_eq (x : Word) : pageAlign x = (x + BitVec.ofNat 32 (2 ^ 12 - 1)) &&& ~~~BitVec.ofNat 32 (2 ^ 12 - 1) := by
  have : pageSize - 1 = BitVec.ofNat 32 (2 ^ 12 - 1) := by decide
  rw [pageAlign, alignKernel, this]

-- The length of the pages from that of `phys` to that of `last`, where it fits a word.
theorem mapped_size_nat (phys last : Word) (ordered : phys.toNat ≤ last.toNat) :
    (pageAlign (last + 1) - (phys &&& pageMask)).toNat = (last.toNat / 4096 + 1 - phys.toNat / 4096) * 4096 % 2 ^ 32 := by
  have first := high_bits phys 12 (by decide)
  have aligned := high_bits (last + 1 + BitVec.ofNat 32 (2 ^ 12 - 1)) 12 (by decide)
  have le := Nat.div_le_div_right (c := 4096) ordered
  rw [page_align_eq, page_mask_high, BitVec.toNat_sub, first, aligned]
  rw [BitVec.toNat_add, BitVec.toNat_add]
  simp
  omega

theorem physical_page (phys : Word) : virtToPage (va phys) = phys.toNat / 4096 := by
  have back : virtToPhys (va phys) = phys := by
    simp only [virtToPhys, pa, va, pageOffset, physOffset, cacBase]
    bv_omega
  have zero : archPfnOffset = 0#32 := by decide
  rw [virtToPage, back, pfnToPage, pfnDown, zero, BitVec.sub_zero, BitVec.toNat_ushiftRight, Nat.shiftRight_eq_div_pow]
  rfl

theorem run_page_reserved (page : Nat) (reserved : Bool) (s : MemState) (listed : s.memMap[page]? = some reserved) :
    (pageReserved page).run s = .done reserved s := by
  simp [pageReserved, Prog.run_access, listed]

theorem run_page_beyond (page : Nat) (s : MemState) (beyond : s.memMap.length ≤ page) :
    (pageReserved page).run s = .crashed .beyondMemMap s := by
  simp [pageReserved, Prog.run_access, List.getElem?_eq_none beyond]

-- A page of RAM that is in use, between two pages.
def InUse (s : MemState) (first last : Nat) : Prop := ∃ page, first ≤ page ∧ page ≤ last ∧ s.memMap[page]? = some false

theorem in_use_from (s : MemState) (first last : Nat) (reserved : s.memMap[first]? ≠ some false) :
    InUse s first last ↔ InUse s (first + 1) last := by
  constructor
  · intro used
    obtain ⟨page, low, high, unreserved⟩ := used
    have other : page ≠ first := by
      rintro rfl
      exact reserved unreserved
    exact ⟨page, by omega, high, unreserved⟩
  · intro used
    obtain ⟨page, low, high, unreserved⟩ := used
    exact ⟨page, by omega, high, unreserved⟩

-- The loop ends at the first page in use, runs past the end of mem_map, or finds
-- all of the pages reserved.
structure Scans (s : MemState) (first last : Nat) : Prop where
  used : InUse s first last → (allReserved first last).run s = .done false s
  free : ¬ InUse s first last → last < s.memMap.length → (allReserved first last).run s = .done true s
  beyond : ¬ InUse s first last → first ≤ last → s.memMap.length ≤ last →
    (allReserved first last).run s = .crashed .beyondMemMap s

theorem all_reserved_scans (s : MemState) (first last : Nat) : Scans s first last := by
  by_cases more : first ≤ last
  · have step : allReserved first last = (do
        let reserved ← pageReserved first
        if reserved then allReserved (first + 1) last else pure false) := by
      rw [allReserved, if_pos more]
    cases listed : s.memMap[first]? with
    | none =>
        have past := List.getElem?_eq_none_iff.mp listed
        have crashes : (allReserved first last).run s = .crashed .beyondMemMap s := by
          rw [step, Prog.run_bind, run_page_beyond first s past, outcome_bind_crashed]
        have none' : ¬ InUse s first last := by
          rintro ⟨page, low, -, unreserved⟩
          have := (List.getElem?_eq_some_iff.mp unreserved).1
          omega
        exact ⟨fun used => absurd used none', fun _ inside => by omega, fun _ _ _ => crashes⟩
    | some reserved =>
        have read := run_page_reserved first reserved s listed
        cases reserved with
        | false =>
            have here : InUse s first last := ⟨first, Nat.le_refl first, more, listed⟩
            refine ⟨fun _ => ?_, fun free => absurd here free, fun free => absurd here free⟩
            rw [step, Prog.run_bind, read, outcome_bind_done, if_neg (by decide), Prog.run_pure]
        | true =>
            have rest := all_reserved_scans s (first + 1) last
            have same := in_use_from s first last (by simp [listed])
            have goes : (allReserved first last).run s = (allReserved (first + 1) last).run s := by
              rw [step, Prog.run_bind, read, outcome_bind_done, if_pos rfl]
            have inside := (List.getElem?_eq_some_iff.mp listed).1
            refine ⟨fun used => goes.trans (rest.used (same.mp used)), fun free within => ?_, fun free _ past => ?_⟩
            · exact goes.trans (rest.free (fun used => free (same.mpr used)) within)
            · exact goes.trans (rest.beyond (fun used => free (same.mpr used)) (by omega) past)
  · have done : (allReserved first last).run s = .done true s := by
      rw [allReserved, if_neg more, Prog.run_pure]
    have none' : ¬ InUse s first last := fun used => by
      obtain ⟨page, low, high, -⟩ := used
      omega
    exact ⟨fun used => absurd used none', fun _ _ => done, fun _ ordered => absurd ordered more⟩
termination_by last + 1 - first

-- Every area lies in whole pages above the unmapped segments, away from the
-- others, and the table sends nowhere but from an area.
structure Sound (s : MemState) : Prop where
  above : ∀ area ∈ s.areas, vmallocStart ≤ area.addr.toNat
  fits : ∀ area ∈ s.areas, area.addr.toNat + area.size.toNat ≤ 2 ^ 32
  aligned : ∀ area ∈ s.areas, 4096 ∣ area.addr.toNat
  whole : ∀ area ∈ s.areas, 4096 ∣ area.size.toNat
  backed : ∀ page entry, s.table page = some entry → ∃ area ∈ s.areas, area.addr.toNat / 4096 ≤ page ∧
    page < area.addr.toNat / 4096 + area.size.toNat / 4096

def granted (addr phys size flags : Word) (s : MemState) : MemState where
  memMap := s.memMap
  highMemory := s.highMemory
  areas := ⟨addr, size⟩ :: s.areas
  table := s.table.install (addr.toNat / 4096) (phys.toNat / 4096) (size.toNat / 4096) flags

theorem placed_vacant (vm : Vmalloc) (s : MemState) (size addr : Word) (sound : Sound s)
    (placed : vm.place s.areas size = some addr) : s.table.Vacant (addr.toNat / 4096) (size.toNat / 4096) := by
  intro page low high
  cases held : s.table page with
  | none => rfl
  | some entry =>
      obtain ⟨area, member, first, last⟩ := sound.backed page entry held
      obtain ⟨start, startEq⟩ := vm.aligned s.areas size addr placed
      obtain ⟨begin', beginEq⟩ := sound.aligned area member
      rcases vm.apart s.areas size addr area placed member with before | after
      · omega
      · omega

theorem granted_sound (vm : Vmalloc) (s : MemState) (size addr phys flags : Word) (sound : Sound s)
    (placed : vm.place s.areas size = some addr) (whole : 4096 ∣ size.toNat) : Sound (granted addr phys size flags s) where
  above := List.forall_mem_cons.mpr ⟨vm.above s.areas size addr placed, sound.above⟩
  fits := List.forall_mem_cons.mpr ⟨vm.fits s.areas size addr placed, sound.fits⟩
  aligned := List.forall_mem_cons.mpr ⟨vm.aligned s.areas size addr placed, sound.aligned⟩
  whole := List.forall_mem_cons.mpr ⟨whole, sound.whole⟩
  backed := by
    intro page entry held
    rcases PageTable.install_cases _ _ _ _ _ page entry held with old | ⟨inside, -⟩
    · obtain ⟨area, member, covers⟩ := sound.backed page entry old
      exact ⟨area, List.mem_cons_of_mem _ member, covers⟩
    · exact ⟨⟨addr, size⟩, List.mem_cons_self, inside⟩

-- What remap_area_pages entered before it failed goes with the area.
theorem run_remap_and_vunmap (vm : Vmalloc) (s : MemState) (size addr phys flags : Word) (stops : Nat) (sound : Sound s)
    (placed : vm.place s.areas size = some addr) :
    ∃ t, (remapAreaPages addr phys size flags (some stops)).run { s with areas := ⟨addr, size⟩ :: s.areas } =
      .done (-enomem) t ∧ (vunmap addr).run t = .done () s := by
  refine ⟨_, rfl, ?_⟩
  have vacant := placed_vacant vm s size addr sound placed
  have cleared := PageTable.clear_install s.table (addr.toNat / 4096) (phys.toNat / 4096)
    (min stops (size.toNat / 4096)) (size.toNat / 4096) flags vacant (Nat.min_le_right _ _)
  simp [vunmap, Prog.run_access, cleared]

theorem run_remap_whole (addr phys size flags : Word) (s : MemState) :
    (remapAreaPages addr phys size flags none).run { s with areas := ⟨addr, size⟩ :: s.areas } =
      .done 0 (granted addr phys size flags s) := by
  simp [remapAreaPages, granted]

theorem run_ioremap_pages (vm : Vmalloc) (physAddr lastAddr flags : Word) (stops : Option Nat) (s : MemState)
    (sound : Sound s) :
    (ioremapPages vm physAddr lastAddr flags stops).run s =
      match vm.place s.areas (pageAlign (lastAddr + 1) - (physAddr &&& pageMask)), stops with
      | some addr, none => .done ((physAddr &&& ~~~pageMask) + addr)
          (granted addr (physAddr &&& pageMask) (pageAlign (lastAddr + 1) - (physAddr &&& pageMask)) flags s)
      | _, _ => .done 0 s := by
  generalize whole : pageAlign (lastAddr + 1) - (physAddr &&& pageMask) = size
  cases placed : vm.place s.areas size with
  | none =>
      have asked : (getVmArea vm size).run s = .done none s := by simp [getVmArea, Prog.run, placed]
      simp only [ioremapPages, whole, Prog.run_bind, asked, outcome_bind_done, Prog.run_pure]
  | some addr =>
      have asked : (getVmArea vm size).run s = .done (some addr) { s with areas := ⟨addr, size⟩ :: s.areas } := by
        simp [getVmArea, Prog.run, placed]
      cases stops with
      | none =>
          have remapped := run_remap_whole addr (physAddr &&& pageMask) size flags s
          simp only [ioremapPages, whole, Prog.run_bind, asked, outcome_bind_done, remapped, ne_eq, not_true_eq_false,
            if_false, Prog.run_pure]
      | some k =>
          obtain ⟨t, remapped, unmapped⟩ := run_remap_and_vunmap vm s size addr (physAddr &&& pageMask) flags k sound placed
          have failed : -enomem ≠ 0 := by decide
          simp only [ioremapPages, whole, Prog.run_bind, asked, outcome_bind_done, remapped, if_pos failed, unmapped,
            Prog.run_pure]

-- The length of the pages from that of `phys` to that of `last`.
def mappedSize (physAddr size : Word) : Word := pageAlign (physAddr + size - 1 + 1) - (physAddr &&& pageMask)

-- "Don't allow wraparound or zero size"
def Valid (physAddr size : Word) : Prop := 0 < size.toNat ∧ physAddr.toNat + size.toNat ≤ 2 ^ 32

def Direct (physAddr size flags : Word) : Prop := physAddr.toNat + size.toNat ≤ 2 ^ 29 ∧ flags = cacheUncached

def firstFrame (physAddr : Word) : Nat := physAddr.toNat / 4096

def lastFrame (physAddr size : Word) : Nat := (physAddr.toNat + size.toNat - 1) / 4096

def InRam (s : MemState) (physAddr : Word) : Prop := physAddr < virtToPhys s.highMemory

def RamUsed (s : MemState) (physAddr size : Word) : Prop :=
  InRam s physAddr ∧ InUse s (firstFrame physAddr) (lastFrame physAddr size)

def Overruns (s : MemState) (physAddr size : Word) : Prop :=
  InRam s physAddr ∧ ¬ InUse s (firstFrame physAddr) (lastFrame physAddr size) ∧
    s.memMap.length ≤ lastFrame physAddr size

def Passes (s : MemState) (physAddr size : Word) : Prop := ¬ RamUsed s physAddr size ∧ ¬ Overruns s physAddr size

theorem last_page (physAddr size : Word) (valid : Valid physAddr size) :
    virtToPage (va physAddr + (size - 1)) = lastFrame physAddr size := by
  have same : va physAddr + (size - 1) = va (physAddr + size - 1) := by
    simp only [va, pageOffset, physOffset, cacBase]
    bv_omega
  rw [same, physical_page, last_addr_nat physAddr size valid.1 valid.2, lastFrame]

theorem first_le_last (physAddr size : Word) (valid : Valid physAddr size) :
    firstFrame physAddr ≤ lastFrame physAddr size := by
  have positive := valid.1
  exact Nat.div_le_div_right (by omega)

-- Outside RAM nothing is looked at.
structure RemapAnswers (s : MemState) (physAddr size : Word) : Prop where
  used : RamUsed s physAddr size → (mayRemap physAddr size).run s = .done false s
  overruns : Overruns s physAddr size → (mayRemap physAddr size).run s = .crashed .beyondMemMap s
  passes : Passes s physAddr size → (mayRemap physAddr size).run s = .done true s

theorem may_remap_answers (s : MemState) (physAddr size : Word) (valid : Valid physAddr size) :
    RemapAnswers s physAddr size := by
  have scans := all_reserved_scans s (firstFrame physAddr) (lastFrame physAddr size)
  have ordered := first_le_last physAddr size valid
  by_cases ram : InRam s physAddr
  · have looks : (mayRemap physAddr size).run s =
        (allReserved (firstFrame physAddr) (lastFrame physAddr size)).run s := by
      have inside : physAddr < virtToPhys s.highMemory := ram
      simp only [mayRemap, Prog.run_bind, Prog.run_look, outcome_bind_done, if_pos inside, last_page physAddr size valid,
        physical_page, firstFrame]
    refine ⟨fun used => looks.trans (scans.used used.2), fun past => ?_, fun passes => looks.trans ?_⟩
    · exact looks.trans (scans.beyond past.2.1 ordered past.2.2)
    · have free : ¬ InUse s (firstFrame physAddr) (lastFrame physAddr size) := fun used => passes.1 ⟨ram, used⟩
      have within : lastFrame physAddr size < s.memMap.length :=
        Nat.lt_of_not_le fun past => passes.2 ⟨ram, free, past⟩
      exact scans.free free within
  · have outside : ¬ physAddr < virtToPhys s.highMemory := ram
    refine ⟨fun used => absurd used.1 ram, fun past => absurd past.1 ram, fun _ => ?_⟩
    simp only [mayRemap, Prog.run_bind, Prog.run_look, outcome_bind_done, if_neg outside, Prog.run_pure]

section Served

variable (vm : Vmalloc) (s : MemState) (physAddr size flags : Word) (stops : Option Nat)

-- Everything a request can come to.
inductive Served : Outcome MemState MemFault Word → Prop where
  | invalid (bad : ¬ Valid physAddr size) : Served (.done 0 s)
  | direct (valid : Valid physAddr size) (direct : Direct physAddr size flags) :
      Served (.done (ckseg1addr physAddr) s)
  | used (valid : Valid physAddr size) (paged : ¬ Direct physAddr size flags) (used : RamUsed s physAddr size) :
      Served (.done 0 s)
  | overruns (valid : Valid physAddr size) (paged : ¬ Direct physAddr size flags)
      (overruns : Overruns s physAddr size) : Served (.crashed .beyondMemMap s)
  | refused (valid : Valid physAddr size) (paged : ¬ Direct physAddr size flags) (passes : Passes s physAddr size)
      (refused : vm.place s.areas (mappedSize physAddr size) = none ∨ stops.isSome) : Served (.done 0 s)
  | mapped (valid : Valid physAddr size) (paged : ¬ Direct physAddr size flags) (passes : Passes s physAddr size)
      (addr : Word) (placed : vm.place s.areas (mappedSize physAddr size) = some addr) (whole : stops = none) :
      Served (.done ((physAddr &&& ~~~pageMask) + addr)
        (granted addr (physAddr &&& pageMask) (mappedSize physAddr size) flags s))

theorem ioremap_pages_served (valid : Valid physAddr size) (paged : ¬ Direct physAddr size flags)
    (passes : Passes s physAddr size) (sound : Sound s) :
    Served vm s physAddr size flags stops ((ioremapPages vm physAddr (physAddr + size - 1) flags stops).run s) := by
  rw [run_ioremap_pages vm physAddr (physAddr + size - 1) flags stops s sound]
  change Served vm s physAddr size flags stops (match vm.place s.areas (mappedSize physAddr size), stops with
    | some addr, none => _
    | _, _ => _)
  cases placed : vm.place s.areas (mappedSize physAddr size) with
  | none => exact .refused valid paged passes (.inl placed)
  | some addr =>
      cases stops with
      | none => exact .mapped valid paged passes addr placed rfl
      | some k => exact .refused valid paged passes (.inr rfl)

theorem direct_iff (valid : Valid physAddr size) :
    (isLow512 physAddr ∧ isLow512 (physAddr + size - 1) ∧ flags = cacheUncached) ↔ Direct physAddr size flags := by
  have last := last_addr_nat physAddr size valid.1 valid.2
  have positive := valid.1
  rw [is_low512_iff, is_low512_iff, last]
  constructor
  · intro low
    exact ⟨by omega, low.2.2⟩
  · intro direct
    have below := direct.1
    exact ⟨by omega, by omega, direct.2⟩

theorem ioremap_under_eq : ioremapUnder vm physAddr size flags stops =
    (if size = 0 ∨ physAddr + size - 1 < physAddr then pure 0
    else if isLow512 physAddr ∧ isLow512 (physAddr + size - 1) ∧ flags = cacheUncached then pure (ckseg1addr physAddr)
    else do
      let free ← mayRemap physAddr size
      if free then ioremapPages vm physAddr (physAddr + size - 1) flags stops else pure 0) := rfl

theorem ioremap_under_served (sound : Sound s) :
    Served vm s physAddr size flags stops ((ioremapUnder vm physAddr size flags stops).run s) := by
  rw [ioremap_under_eq]
  by_cases valid : Valid physAddr size
  · rw [if_neg (fun bad => (last_addr_iff physAddr size).mp bad valid)]
    have direct := direct_iff physAddr size flags valid
    by_cases low : Direct physAddr size flags
    · rw [if_pos (direct.mpr low), Prog.run_pure]
      exact .direct valid low
    · rw [if_neg (fun tested => low (direct.mp tested)), Prog.run_bind]
      have answers := may_remap_answers s physAddr size valid
      by_cases used : RamUsed s physAddr size
      · rw [answers.used used, outcome_bind_done, if_neg (by decide), Prog.run_pure]
        exact .used valid low used
      · by_cases past : Overruns s physAddr size
        · rw [answers.overruns past, outcome_bind_crashed]
          exact .overruns valid low past
        · rw [answers.passes ⟨used, past⟩, outcome_bind_done, if_pos rfl]
          exact ioremap_pages_served vm s physAddr size flags stops valid low ⟨used, past⟩ sound
  · rw [if_pos ((last_addr_iff physAddr size).mpr valid), Prog.run_pure]
    exact .invalid valid

-- What the compiler may do with constant arguments makes no difference.
theorem ioremap_mode_eq (constant : Bool) :
    ioremapMode vm constant physAddr size flags stops = ioremapUnder vm physAddr size flags stops := by
  have none' : ¬ platIoremap physAddr size flags ≠ 0 := fun other => other rfl
  simp only [ioremapMode, if_neg none']
  cases constant with
  | false => rfl
  | true =>
      simp only [if_true, fixupBigphysAddr]
      rw [ioremap_under_eq]
      split_ifs with bad low
      · rfl
      · rfl
      · rfl

end Served

end OneDriver.Ioremap
