import OneDriver.Ioremap.Runs

set_option autoImplicit false

namespace OneDriver.Ioremap

theorem left_high_memory (vm : Vmalloc) (s t : MemState) (call : MemCall) (r : Word) (left : Left vm s call r t) :
    t.highMemory = s.highMemory := by
  cases left with
  | refused constant physAddr size flags stops => rfl
  | direct constant physAddr size flags stops valid direct => rfl
  | mapped constant physAddr size flags stops valid passes addr placed => rfl
  | setFlag page => rfl
  | clearFlag page => rfl

def MemCall.Covers (frame : Nat) : MemCall → Prop
  | .ioremap _ physAddr size _ _ => firstFrame physAddr ≤ frame ∧ frame ≤ lastFrame physAddr size
  | _ => False

-- Whoever clears PG_reserved does so of no page that was handed out.
def Spares (past : List (MemCall × Word)) : MemCall → Prop
  | .clearPageReserved page => ∀ call r, (call, r) ∈ past → r ≠ 0 → ¬ call.Covers page
  | _ => True

-- Of the frames in the page table, those that are RAM from end to end.
def WholeRam (s : MemState) (frame : Nat) : Prop := (frame + 1) * 4096 ≤ (virtToPhys s.highMemory).toNat

theorem passes_reserved (s : MemState) (physAddr size : Word) (frame : Nat) (passes : Passes s physAddr size)
    (first : firstFrame physAddr ≤ frame) (last : frame ≤ lastFrame physAddr size) (ram : WholeRam s frame) :
    s.memMap[frame]? = some true := by
  have inside : InRam s physAddr := by
    rw [InRam, BitVec.lt_def]
    unfold firstFrame at first
    unfold WholeRam at ram
    omega
  have free : ¬ InUse s (firstFrame physAddr) (lastFrame physAddr size) := fun used => passes.1 ⟨inside, used⟩
  have within : lastFrame physAddr size < s.memMap.length :=
    Nat.lt_of_not_le fun past => passes.2 ⟨inside, free, past⟩
  obtain ⟨reserved, listed⟩ : ∃ reserved, s.memMap[frame]? = some reserved :=
    ⟨_, List.getElem?_eq_getElem (Nat.lt_of_le_of_lt last within)⟩
  cases reserved with
  | true => exact listed
  | false => exact absurd ⟨frame, first, last, listed⟩ free

structure RamSpared (past : List (MemCall × Word)) (s : MemState) : Prop where
  sound : Sound s
  asked : ∀ page frame attr, s.table page = some (frame, attr) → ∃ call r, (call, r) ∈ past ∧ r ≠ 0 ∧ call.Covers frame
  reserved : ∀ page frame attr, s.table page = some (frame, attr) → WholeRam s frame → s.memMap[frame]? = some true

theorem ram_spared_mapped (vm : Vmalloc) (past : List (MemCall × Word)) (s : MemState) (constant : Bool)
    (physAddr size flags addr : Word) (stops : Option Nat) (holds : RamSpared past s) (valid : Valid physAddr size)
    (passes : Passes s physAddr size) (placed : vm.place s.areas (mappedSize physAddr size) = some addr)
    (sound : Sound (granted addr (physAddr &&& pageMask) (mappedSize physAddr size) flags s)) :
    RamSpared (past ++ [(.ioremap constant physAddr size flags stops, (physAddr &&& ~~~pageMask) + addr)])
      (granted addr (physAddr &&& pageMask) (mappedSize physAddr size) flags s) := by
  have frames := placed_size vm s.areas physAddr size addr valid placed
  have masked : (physAddr &&& pageMask).toNat = physAddr.toNat / 4096 * 4096 := by
    rw [page_mask_high]
    exact high_bits physAddr 12 (by decide)
  have pointer : (physAddr &&& ~~~pageMask) + addr ≠ 0 := by
    intro zero
    have nat := pointer_nat vm s.areas physAddr size addr valid placed
    have above := vm.above s.areas _ addr placed
    have segment : vmallocStart = 0xc0000000 := rfl
    have none' : ((physAddr &&& ~~~pageMask) + addr).toNat = 0 := by rw [zero]; rfl
    omega
  have ordered := first_le_last physAddr size valid
  -- A new entry is one of the frames of the request.
  have fresh : ∀ page frame attr, (granted addr (physAddr &&& pageMask) (mappedSize physAddr size) flags s).table page =
      some (frame, attr) → s.table page = some (frame, attr) ∨
        firstFrame physAddr ≤ frame ∧ frame ≤ lastFrame physAddr size := by
    intro page frame attr held
    rcases PageTable.install_cases _ _ _ _ _ page (frame, attr) held with old | ⟨inside, same⟩
    · exact .inl old
    · obtain ⟨rfl, -⟩ := Prod.mk.inj same
      right
      unfold firstFrame lastFrame at *
      omega
  refine ⟨sound, fun page frame attr held => ?_, fun page frame attr held ram => ?_⟩
  · rcases fresh page frame attr held with old | here
    · obtain ⟨call, r, member, some, covers⟩ := holds.asked page frame attr old
      exact ⟨call, r, List.mem_append_left _ member, some, covers⟩
    · exact ⟨_, _, List.mem_append_right _ (List.mem_singleton.mpr rfl), pointer, here⟩
  · rcases fresh page frame attr held with old | here
    · exact holds.reserved page frame attr old ram
    · exact passes_reserved s physAddr size frame passes here.1 here.2 ram

theorem ram_spared_later (past : List (MemCall × Word)) (entry : MemCall × Word) (s : MemState)
    (holds : RamSpared past s) : RamSpared (past ++ [entry]) s where
  sound := holds.sound
  asked := by
    intro page frame attr held
    obtain ⟨call, r, member, some, covers⟩ := holds.asked page frame attr held
    exact ⟨call, r, List.mem_append_left _ member, some, covers⟩
  reserved := holds.reserved

theorem ram_spared_kept (vm : Vmalloc) (past : List (MemCall × Word)) (s t : MemState) (call : MemCall) (r : Word)
    (holds : RamSpared past s) (spares : Spares past call) (left : Left vm s call r t) :
    RamSpared (past ++ [(call, r)]) t := by
  have sound := left_sound vm s t call r holds.sound left
  cases left with
  | refused constant physAddr size flags stops => exact ram_spared_later past _ s holds
  | direct constant physAddr size flags stops valid direct => exact ram_spared_later past _ s holds
  | mapped constant physAddr size flags stops valid passes addr placed =>
      exact ram_spared_mapped vm past s constant physAddr size flags addr stops holds valid passes placed sound
  | setFlag page =>
      have later := ram_spared_later past (.setPageReserved page, 0) s holds
      refine ⟨sound, later.asked, fun entry frame attr held ram => ?_⟩
      have before := holds.reserved entry frame attr held ram
      have inside := (List.getElem?_eq_some_iff.mp before).1
      by_cases same : page = frame
      · subst same
        exact List.getElem?_set_self inside
      · exact (List.getElem?_set_ne same).trans before
  | clearFlag page =>
      have later := ram_spared_later past (.clearPageReserved page, 0) s holds
      refine ⟨sound, later.asked, fun entry frame attr held ram => ?_⟩
      obtain ⟨other, value, member, some, covers⟩ := holds.asked entry frame attr held
      have different : page ≠ frame := by
        rintro rfl
        exact spares other value member some covers
      exact (List.getElem?_set_ne different).trans (holds.reserved entry frame attr held ram)

-- No page of RAM that the kernel uses is ever in the page table.
theorem mapped_ram_stays_reserved (vm : Vmalloc) (memMap : List Bool) (highMemory : Word)
    (history : List (MemCall × Word)) (last : MemState)
    (ran : History (serveMem vm) Spares (booted memMap highMemory) history last) :
    ∀ page frame attr, last.table page = some (frame, attr) →
      (frame + 1) * 4096 ≤ (virtToPhys highMemory).toNat → last.memMap[frame]? = some true := by
  have kept : RamSpared history last ∧ last.highMemory = highMemory := by
    apply history_invariant (serveMem vm) Spares (booted memMap highMemory)
      (fun past s => RamSpared past s ∧ s.highMemory = highMemory) _ _ history last ran
    · exact ⟨⟨booted_sound memMap highMemory, by simp [booted], by simp [booted]⟩, rfl⟩
    · intro past s t call r holds spares served
      have left := serve_leaves vm s t call r holds.1.sound served
      exact ⟨ram_spared_kept vm past s t call r holds.1 spares left,
        (left_high_memory vm s t call r left).trans holds.2⟩
  intro page frame attr held ram
  have whole : WholeRam last frame := by rwa [WholeRam, kept.2]
  exact kept.1.reserved page frame attr held whole

theorem part_of_page_reserved : (granted 0xc0000000 0 0x1000 0 twoPages).memMap[0]? = some true :=
  mapped_ram_stays_reserved upwards [true, false] 0x80002000 _ _ (part_of_page_history Spares trivial) 0xc0000 0 0 rfl
    (by decide)

-- Exactly which requests of a run are answered with NULL, and which make the
-- driver read struct pages that mem_map does not have.
theorem request_refused_iff (vm : Vmalloc) (memMap : List Bool) (highMemory : Word) (history : List (MemCall × Word))
    (last : MemState) (ran : History (serveMem vm) (fun _ _ => True) (booted memMap highMemory) history last)
    (constant : Bool) (physAddr size flags : Word) (stops : Option Nat) :
    ((∃ t, (ioremapMode vm constant physAddr size flags stops).run last = .done 0 t) ↔
        ¬ Valid physAddr size ∨ ¬ Direct physAddr size flags ∧ (RamUsed last physAddr size ∨
          ¬ Overruns last physAddr size ∧
            (vm.place last.areas (mappedSize physAddr size) = none ∨ stops.isSome))) ∧
      ((∃ t, (ioremapMode vm constant physAddr size flags stops).run last = .crashed .beyondMemMap t) ↔
        Valid physAddr size ∧ ¬ Direct physAddr size flags ∧ Overruns last physAddr size) := by
  have sound := (grants_hold vm memMap highMemory history last ran).sound
  have served := ioremap_under_served vm last physAddr size flags stops sound
  rw [ioremap_mode_eq]
  generalize (ioremapUnder vm physAddr size flags stops).run last = outcome at served ⊢
  cases served with
  | invalid bad =>
      exact ⟨iff_of_true ⟨last, rfl⟩ (.inl bad), iff_of_false (by simp) fun past => bad past.1⟩
  | direct valid direct =>
      have low := direct.1
      have positive := valid.1
      have pointer := ckseg1addr_nat physAddr (by omega)
      refine ⟨iff_of_false ?_ ?_, iff_of_false (by simp) fun past => past.2.1 direct⟩
      · rintro ⟨t, same⟩
        have zero := congrArg BitVec.toNat (Outcome.done.inj same).1
        have none' : (0 : Word).toNat = 0 := rfl
        omega
      · rintro (bad | paged)
        · exact bad valid
        · exact paged.1 direct
  | used valid paged used =>
      exact ⟨iff_of_true ⟨last, rfl⟩ (.inr ⟨paged, .inl used⟩), iff_of_false (by simp) fun past => past.2.2.2.1 used.2⟩
  | overruns valid paged overruns =>
      refine ⟨iff_of_false (by simp) ?_, iff_of_true ⟨last, rfl⟩ ⟨valid, paged, overruns⟩⟩
      rintro (bad | ⟨-, used | ⟨free, -⟩⟩)
      · exact bad valid
      · exact overruns.2.1 used.2
      · exact free overruns
  | refused valid paged passes refused =>
      exact ⟨iff_of_true ⟨last, rfl⟩ (.inr ⟨paged, .inr ⟨passes.2, refused⟩⟩),
        iff_of_false (by simp) fun past => passes.2 past.2.2⟩
  | mapped valid paged passes addr placed whole =>
      refine ⟨iff_of_false ?_ ?_, iff_of_false (by simp) fun past => passes.2 past.2.2⟩
      · rintro ⟨t, same⟩
        have zero := congrArg BitVec.toNat (Outcome.done.inj same).1
        have pointer := pointer_nat vm last.areas physAddr size addr valid placed
        have above := vm.above last.areas _ addr placed
        have segment : vmallocStart = 0xc0000000 := rfl
        have none' : (0 : Word).toNat = 0 := rfl
        omega
      · rintro (bad | ⟨-, used | ⟨-, none' | stopped⟩⟩)
        · exact bad valid
        · exact passes.1 used
        · rw [placed] at none'
          cases none'
        · rw [whole] at stopped
          cases stopped

-- The page next to it is in use.
theorem next_page_refused :
    ∃ t, (ioremapMode upwards false 0x1800 0x100 0 none).run (granted 0xc0000000 0 0x1000 0 twoPages) = .done 0 t := by
  apply (request_refused_iff upwards [true, false] 0x80002000 _ _
    (part_of_page_history (fun _ _ => True) trivial) false 0x1800 0x100 0 none).1.mpr
  refine .inr ⟨fun direct => absurd direct.2 (by decide), .inl ⟨?_, 1, by decide, by decide, rfl⟩⟩
  show (0x1800 : Word) < virtToPhys 0x80002000
  decide

end OneDriver.Ioremap
