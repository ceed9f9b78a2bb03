import OneDriver.Scull.Chain

set_option autoImplicit false

namespace OneDriver.Scull

def ScullState.release (s : ScullState) (addresses : List Nat) : ScullState :=
  { s with heap := s.heap.freeAll addresses, freed := s.freed ++ addresses }

@[simp] theorem release_nil (s : ScullState) : s.release [] = s := by
  simp [ScullState.release]

theorem release_append (s : ScullState) (first second : List Nat) :
    s.release (first ++ second) = (s.release first).release second := by
  simp [ScullState.release, Heap.free_all_append]

theorem run_kfree_release (s : ScullState) (address : Nat) (live : s.heap.cell address ≠ none) :
    (kfree .trim (some address)).run s = .done () (s.release [address]) := run_kfree .trim s address live

theorem release_cell (s : ScullState) (addresses : List Nat) (a : Nat) (kept : a ∉ addresses) :
    (s.release addresses).heap.cell a = s.heap.cell a := Heap.free_all_cell_other s.heap addresses a kept

-- The loop over the slots, `front` of which it has passed.
theorem run_trim_slots (node a : Nat) (quantum qset : Int) (next : Option Nat) (front back : List (Option Nat))
    (s : ScullState) (here : s.heap.cell node = some (.node (some a) next))
    (stored : s.heap.cell a = some (.array quantum qset (front ++ back)))
    (live : ∀ b ∈ back.reduceOption, s.heap.cell b ≠ none) (apart : node ∉ back.reduceOption ∧ a ∉ back.reduceOption)
    (nodup : back.reduceOption.Nodup) :
    (trimSlots node qset back.length front.length).run s = .done () (s.release back.reduceOption) := by
  induction back generalizing front s with
  | nil => simp [trimSlots]
  | cons slot rest ih =>
      have within : inBounds (front.length : Int) (front ++ slot :: rest) = true := by
        simp only [inBounds, List.length_append, List.length_cons, Bool.and_eq_true, decide_eq_true_eq]
        omega
      have reads := run_slot_of .trim s (sameQset qset) node a front.length quantum qset next _ here stored
        (by simp [sameQset]) within
      simp only [List.length_cons, trimSlots, Prog.run_bind, reads, outcome_bind_done, Int.toNat_natCast,
        List.getElem?_append_right (Nat.le_refl _), Nat.sub_self, List.getElem?_cons_zero, Option.join_some]
      have counted : (front.length : Int) + 1 = ((front ++ [slot]).length : Nat) := by simp
      rw [counted]
      cases slot with
      | none =>
          exact ih (front ++ [none]) s here (by simpa using stored) (by simpa using live) (by simpa using apart)
            (by simpa using nodup)
      | some b =>
          simp only [List.reduceOption_cons_of_some, List.mem_cons, not_or, List.nodup_cons] at live apart nodup ⊢
          have kept : ∀ c, c ≠ b → (s.release [b]).heap.cell c = s.heap.cell c := fun c other =>
            release_cell s [b] c (by simpa using other)
          rw [run_kfree_release s b (live b (.inl rfl)), outcome_bind_done, ih (front ++ [some b]) (s.release [b])]
          · rw [← release_append, List.singleton_append]
          · rw [kept node apart.1.1, here]
          · rw [kept a apart.2.1, stored]
            simp
          · intro c member
            rw [kept c fun same => nodup.1 (same ▸ member)]
            exact live c (.inr member)
          · exact ⟨apart.1.2, apart.2.2⟩
          · exact nodup.2

theorem entry_live (heap : Heap Cell) (quantum qset : Int) (e : Entry) (next : Option Nat)
    (holds : EntryHolds heap quantum qset e next) (b : Nat) (member : b ∈ e.blocks) : heap.cell b ≠ none := by
  obtain ⟨bytes, found⟩ := holds.blocks b member
  simp [found]

-- The node outlives its array: it is freed next, whatever scull_trim stored in it.
theorem run_trim_array (quantum qset : Int) (e : Entry) (next : Option Nat) (s : ScullState)
    (holds : EntryHolds s.heap quantum qset e next) (nodup : e.footprint.Nodup) :
    ∃ t data, (trimArray qset e.node).run s = .done () t ∧ t.heap.cell e.node = some (.node data next) ∧
      t.release [e.node] = s.release e.footprint := by
  cases has : e.array with
  | none =>
      have empty : e.data = none := by simp [Entry.data, has]
      have reads := run_read_data .trim s e.node none next (empty ▸ holds.node)
      refine ⟨s, none, ?_, empty ▸ holds.node, ?_⟩
      · simp [trimArray, reads]
      · simp [Entry.footprint, Entry.blocks, empty, has]
  | some array =>
      obtain ⟨a, slots⟩ := array
      obtain ⟨stored, length⟩ := holds.array a slots has
      have data : e.data = some a := by simp [Entry.data, has]
      have blocks : e.blocks = slots.reduceOption := by simp [Entry.blocks, has]
      have here : s.heap.cell e.node = some (.node (some a) next) := data ▸ holds.node
      have whole : e.footprint = slots.reduceOption ++ [a] ++ [e.node] := by
        simp [Entry.footprint, data, blocks]
      obtain ⟨nodeArray, apart⟩ := entry_distinct e a slots nodup has
      rw [blocks] at apart
      have nodeOut : e.node ∉ slots.reduceOption := fun member => (apart _ member).2 rfl
      have arrayOut : a ∉ slots.reduceOption := fun member => (apart _ member).1 rfl
      rw [whole] at nodup ⊢
      have distinct := (List.nodup_append.mp (List.nodup_append.mp nodup).1).1
      have slotsRun := run_trim_slots e.node a quantum qset next [] slots s here stored
        (fun b member => entry_live s.heap quantum qset e next holds b (blocks ▸ member))
        ⟨nodeOut, arrayOut⟩ distinct
      have bound : qset.toNat = slots.length := by omega
      have emptied : (s.release slots.reduceOption).heap.cell e.node = some (.node (some a) next) := by
        rw [release_cell _ _ _ nodeOut, here]
      have arrayLive : (s.release slots.reduceOption).heap.cell a ≠ none := by
        rw [release_cell _ _ _ arrayOut, stored]
        exact Option.some_ne_none _
      have bare : (s.release (slots.reduceOption ++ [a])).heap.cell e.node = some (.node (some a) next) := by
        rw [release_cell _ _ _ (by simp [nodeOut, nodeArray]), here]
      refine ⟨{ s.release (slots.reduceOption ++ [a]) with
        heap := (s.release (slots.reduceOption ++ [a])).heap.put e.node (.node none next) }, none, ?_, ?_, ?_⟩
      · simp only [trimArray, Prog.run_bind, run_read_data .trim s e.node _ next here, outcome_bind_done,
          Option.isSome_some, if_true, bound]
        rw [show (0 : Int) = (([] : List (Option Nat)).length : Nat) from rfl, slotsRun, outcome_bind_done,
          run_read_data .trim _ e.node _ next emptied, outcome_bind_done, run_kfree_release _ a arrayLive,
          outcome_bind_done, ← release_append, run_write_data .trim _ e.node _ next none bare]
      · exact Heap.put_cell_same _ _ _ _ bare
      · rw [release_append s (slots.reduceOption ++ [a])]
        simp [ScullState.release]

theorem run_trim_chain (quantum qset : Int) (chain : List Entry) (fuel : Nat) (s : ScullState)
    (enough : chain.length ≤ fuel) (holds : ChainHolds s.heap quantum qset chain) (nodup : (footprint chain).Nodup) :
    (trimChain qset fuel (headOf chain)).run s = .done () (s.release (footprint chain)) := by
  induction chain generalizing fuel s with
  | nil => cases fuel <;> simp [headOf, trimChain]
  | cons e rest ih =>
      cases fuel with
      | zero => simp at enough
      | succ fuel =>
          rw [footprint_cons] at nodup
          obtain ⟨here, later, apart⟩ := List.nodup_append.mp nodup
          obtain ⟨t, data, ran, bare, freed⟩ := run_trim_array quantum qset e (headOf rest) s holds.1 here
          have live : t.heap.cell e.node ≠ none := by simp [bare]
          have kept : ChainHolds (t.release [e.node]).heap quantum qset rest := by
            rw [freed]
            apply chain_frame s.heap _ quantum qset rest holds.2
            intro a member
            exact release_cell s _ a fun both => apart a both a member rfl
          change (trimChain qset (fuel + 1) (some e.node)).run s = _
          simp only [trimChain, Prog.run_bind, ran, outcome_bind_done,
            run_read_next .trim t e.node data _ bare, run_kfree_release t e.node live]
          rw [ih fuel (t.release [e.node]) (Nat.le_of_succ_le_succ enough) kept later, freed, ← release_append,
            footprint_cons]

def ScullState.trimmed (cfg : ScullConfig) (s : ScullState) (chain : List Entry) : ScullState where
  data := none
  quantum := cfg.scullQuantum
  qset := cfg.scullQset
  size := 0
  sem := s.sem
  heap := s.heap.freeAll (footprint chain)
  freed := s.freed ++ footprint chain

theorem run_scull_trim (cfg : ScullConfig) (outside : Nat → Option Cell) (s : ScullState) (chain : List Entry)
    (holds : DeviceHolds outside s chain) : (scullTrim cfg).run s = .done 0 (s.trimmed cfg chain) := by
  have enough : chain.length ≤ s.heap.fresh :=
    Nat.le_trans (chain_length_le chain) (owned_length_le outside s.heap _ holds.owns)
  have frees := run_trim_chain s.quantum s.qset chain s.heap.fresh s enough holds.linked holds.owns.nodup
  simp only [scullTrim, Prog.run_bind, Prog.run_look, outcome_bind_done, holds.head, frees, Prog.run_modify,
    Prog.run_pure, ScullState.release, ScullState.trimmed]

theorem trimmed_holds (cfg : ScullConfig) (outside : Nat → Option Cell) (s : ScullState) (chain : List Entry)
    (holds : DeviceHolds outside s chain) (params : Geometry cfg.scullQuantum cfg.scullQset) :
    DeviceHolds outside (s.trimmed cfg chain) [] where
  geometry := params
  head := rfl
  linked := trivial
  owns := owns_free_all outside s.heap (footprint chain) [] (by simpa using holds.owns)

theorem trimmed_well_formed (cfg : ScullConfig) (outside : Nat → Option Cell) (s : ScullState) (chain : List Entry)
    (holds : WellFormed cfg outside s chain) : WellFormed cfg outside (s.trimmed cfg chain) [] :=
  ⟨trimmed_holds cfg outside s chain holds.device holds.params, holds.params, holds.idle⟩

end OneDriver.Scull
