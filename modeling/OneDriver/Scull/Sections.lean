import OneDriver.Rely
import OneDriver.Scull.Calls

set_option autoImplicit false

namespace OneDriver.Scull

structure Loose (steady : ScullState → ScullState → Prop) : Prop where
  still : ∀ s, steady s s
  heap : ∀ s heap, steady s { s with heap := heap }

section Accesses

variable (steady : ScullState → ScullState → Prop) (label : ScullLabel)

theorem deref_steady (pointer : Option Nat) : (deref pointer).Steady steady label := by
  cases pointer <;> trivial

variable (loose : Loose steady)

include loose

theorem read_data_steady (node : Nat) : (readData label node).Steady steady label := by
  apply Prog.steady_access _ _ _ loose.still
  intro s r found
  split at found <;> cases found
  exact loose.still s

theorem read_next_steady (node : Nat) : (readNext label node).Steady steady label := by
  apply Prog.steady_access _ _ _ loose.still
  intro s r found
  split at found <;> cases found
  exact loose.still s

theorem write_data_steady (node : Nat) (data : Option Nat) : (writeData label node data).Steady steady label := by
  apply Prog.steady_access _ _ _ loose.still
  intro s r found
  split at found <;> cases found
  exact loose.heap s _

theorem slot_of_steady (fits : Int → Int → Bool) (node : Nat) (index : Int) :
    (slotOf label fits node index).Steady steady label := by
  apply Prog.steady_bind _ _ _ _ (read_data_steady steady label loose node)
  intro data
  apply Prog.steady_bind _ _ _ _ (deref_steady steady label data)
  intro array
  apply Prog.steady_access _ _ _ loose.still
  intro s r found
  split at found
  · split at found
    · cases found
    · split at found <;> cases found
      exact loose.still s
  · cases found

theorem set_slot_of_steady (fits : Int → Int → Bool) (node : Nat) (index : Int) (slot : Option Nat) :
    (setSlotOf label fits node index slot).Steady steady label := by
  apply Prog.steady_bind _ _ _ _ (read_data_steady steady label loose node)
  intro data
  apply Prog.steady_bind _ _ _ _ (deref_steady steady label data)
  intro array
  apply Prog.steady_access _ _ _ loose.still
  intro s r found
  split at found
  · split at found
    · cases found
    · split at found <;> cases found
      exact loose.heap s _
  · cases found

theorem kmalloc_steady (cell : Cell) : (kmalloc label cell).Steady steady label := by
  apply Prog.steady_access _ _ _ loose.still
  intro s r found
  cases found
  exact loose.heap s _

theorem clear_array_steady (dptr : Nat) : (clearArray dptr).Steady steady .inside := by
  apply Prog.steady_bind _ _ _ _ (read_data_steady steady .inside loose dptr)
  intro data
  apply Prog.steady_bind _ _ _ _ (deref_steady steady .inside data)
  intro array
  apply Prog.steady_access _ _ _ loose.still
  intro s r found
  split at found <;> cases found
  exact loose.heap s _

theorem copy_to_user_steady (block : Nat) (qPos : Int) (count : Nat) (fault : Option Nat) :
    (copyToUser block qPos count fault).Steady steady .inside := by
  apply Prog.steady_access _ _ _ loose.still
  intro s r found
  split at found
  · split at found <;> cases found
    exact loose.still s
  · cases found

theorem copy_from_user_steady (block : Nat) (qPos : Int) (data : List UInt8) (fault : Option Nat) :
    (copyFromUser block qPos data fault).Steady steady .inside := by
  apply Prog.steady_access _ _ _ loose.still
  intro s r found
  split at found
  · split at found <;> cases found
    exact loose.heap s _
  · cases found

theorem ensure_array_steady (cfg : ScullConfig) (quantum qset : Int) (call : WriteCall) (dptr : Nat) :
    (ensureArray cfg quantum qset call dptr).Steady steady .inside := by
  apply Prog.steady_bind _ _ _ _ (read_data_steady steady .inside loose dptr)
  intro data
  split
  · trivial
  · split
    · exact Prog.steady_bind _ _ _ _ (write_data_steady steady .inside loose dptr none) fun _ => trivial
    · apply Prog.steady_bind _ _ _ _ (kmalloc_steady steady .inside loose _)
      intro array
      apply Prog.steady_bind _ _ _ _ (write_data_steady steady .inside loose dptr _)
      intro _
      exact Prog.steady_bind _ _ _ _ (clear_array_steady steady loose dptr) fun _ => trivial

theorem ensure_block_steady (cfg : ScullConfig) (quantum qset : Int) (pos : Position) (call : WriteCall) (dptr : Nat) :
    (ensureBlock cfg quantum qset pos call dptr).Steady steady .inside := by
  have stores := fun slot => set_slot_of_steady steady .inside loose (sameGeometry quantum qset) dptr pos.sPos slot
  apply Prog.steady_bind _ _ _ _ (slot_of_steady steady .inside loose (sameGeometry quantum qset) dptr pos.sPos)
  intro slot
  split
  · trivial
  · split
    · exact Prog.steady_bind _ _ _ _ (stores none) fun _ => trivial
    · apply Prog.steady_bind _ _ _ _ (kmalloc_steady steady .inside loose _)
      intro block
      exact Prog.steady_bind _ _ _ _ (stores (some block)) fun _ => trivial

end Accesses

theorem frame_loose : Loose Frame := ⟨frame_refl, frame_heap⟩

-- Between down and up a process leaves dev and its geometry alone.
abbrev SteadyInside {α : Type} (p : ScullProg α) : Prop := p.Steady Frame .inside

theorem inside_slot_steady (quantum qset : Int) (node : Nat) (index : Int) :
    SteadyInside (slotOf .inside (sameGeometry quantum qset) node index) :=
  slot_of_steady Frame .inside frame_loose _ node index

theorem follow_steady (item : Int) : SteadyInside (scullFollow item) := by
  have walks : ∀ fuel dptr, SteadyInside (followFrom 0 item fuel dptr) := by
    intro fuel
    induction fuel with
    | zero =>
        intro dptr
        cases dptr with
        | none => trivial
        | some node => simp only [followFrom]; split <;> trivial
    | succ fuel ih =>
        intro dptr
        cases dptr with
        | none => trivial
        | some node =>
            simp only [followFrom]
            split
            · exact Prog.steady_bind _ _ _ _ (read_next_steady Frame .inside frame_loose node) ih
            · trivial
  exact Prog.steady_bind _ _ _ _ (Prog.steady_look _ _ _ frame_refl) fun start => walks start.2 start.1

theorem locate_steady (abi : Abi) (quantum qset fPos : Int) : SteadyInside (locate abi quantum qset fPos) := by
  have divides : ∀ a b, SteadyInside (cdiv .divideByZero a b) := by
    intro a b
    unfold cdiv
    split <;> trivial
  have remains : ∀ a b, SteadyInside (cmod .divideByZero a b) := by
    intro a b
    unfold cmod
    split <;> trivial
  apply Prog.steady_bind _ _ _ _ (divides _ _)
  intro item
  apply Prog.steady_bind _ _ _ _ (remains _ _)
  intro rest
  apply Prog.steady_bind _ _ _ _ (divides _ _)
  intro sPos
  exact Prog.steady_bind _ _ _ _ (remains _ _) fun _ => trivial

theorem clamp_to_size_steady (abi : Abi) (fPos : Int) (count : Nat) : SteadyInside (clampToSize abi fPos count) := by
  apply Prog.steady_bind _ _ _ _ (Prog.steady_look _ _ _ frame_refl)
  intro size
  split
  · exact Prog.steady_bind _ _ _ _ (Prog.steady_look _ _ _ frame_refl) fun _ => trivial
  · trivial

theorem grow_size_steady (abi : Abi) (fPos : Int) : SteadyInside (growSize abi fPos) := by
  apply Prog.steady_bind _ _ _ _ (Prog.steady_look _ _ _ frame_refl)
  intro size
  split
  · exact Prog.steady_modify _ _ _ fun s => ⟨rfl, rfl, rfl, rfl, rfl⟩
  · trivial

section Bodies

variable (cfg : ScullConfig) (quantum qset : Int)

theorem read_node_steady (pos : Position) (count : Nat) (call : ReadCall) (dptr : Nat) :
    SteadyInside (readNode cfg quantum qset pos count call dptr) := by
  apply Prog.steady_bind _ _ _ _ (read_data_steady Frame .inside frame_loose dptr)
  intro data
  split
  · trivial
  · apply Prog.steady_bind _ _ _ _ (inside_slot_steady quantum qset dptr pos.sPos)
    intro slot
    split
    · trivial
    · apply Prog.steady_bind _ _ _ _ (inside_slot_steady quantum qset dptr pos.sPos)
      intro slot
      apply Prog.steady_bind _ _ _ _ (deref_steady Frame .inside slot)
      intro block
      apply Prog.steady_bind _ _ _ _ (copy_to_user_steady Frame frame_loose block _ _ _)
      intro bytes
      split <;> trivial

theorem read_body_steady (call : ReadCall) : SteadyInside (readBody cfg call quantum qset) := by
  apply Prog.steady_bind _ _ _ _ (Prog.steady_look _ _ _ frame_refl)
  intro size
  split
  · trivial
  · apply Prog.steady_bind _ _ _ _ (clamp_to_size_steady cfg.abi call.fPos call.count)
    intro count
    apply Prog.steady_bind _ _ _ _ (locate_steady cfg.abi quantum qset call.fPos)
    intro pos
    apply Prog.steady_bind _ _ _ _ (follow_steady pos.item)
    intro dptr
    cases dptr with
    | none => trivial
    | some node => exact read_node_steady cfg quantum qset pos count call node

theorem copy_in_steady (pos : Position) (call : WriteCall) (dptr : Nat) :
    SteadyInside (copyIn cfg quantum qset pos call dptr) := by
  apply Prog.steady_bind _ _ _ _ (inside_slot_steady quantum qset dptr pos.sPos)
  intro slot
  apply Prog.steady_bind _ _ _ _ (deref_steady Frame .inside slot)
  intro block
  apply Prog.steady_bind _ _ _ _ (copy_from_user_steady Frame frame_loose block _ _ _)
  intro _
  split
  · trivial
  · exact Prog.steady_bind _ _ _ _ (grow_size_steady cfg.abi _) fun _ => trivial

theorem write_body_steady (call : WriteCall) : SteadyInside (writeBody cfg call quantum qset) := by
  apply Prog.steady_bind _ _ _ _ (locate_steady cfg.abi quantum qset call.fPos)
  intro pos
  apply Prog.steady_bind _ _ _ _ (follow_steady pos.item)
  intro dptr
  cases dptr with
  | none => trivial
  | some node =>
      apply Prog.steady_bind _ _ _ _ (ensure_array_steady Frame frame_loose cfg quantum qset call node)
      intro hasArray
      split
      · apply Prog.steady_bind _ _ _ _ (ensure_block_steady Frame frame_loose cfg quantum qset pos call node)
        intro hasBlock
        split
        · exact copy_in_steady cfg quantum qset pos call node
        · trivial
      · trivial

end Bodies

-- A trim keeps dev->data until its last store.
def Held (s t : ScullState) : Prop := t.data = s.data ∧ t.sem = s.sem

theorem held_loose : Loose Held := ⟨fun _ => ⟨rfl, rfl⟩, fun _ _ => ⟨rfl, rfl⟩⟩

abbrev SteadyTrim {α : Type} (p : ScullProg α) : Prop := p.Steady Held .trim

theorem kfree_steady (address : Option Nat) : SteadyTrim (kfree .trim address) := by
  cases address with
  | none => trivial
  | some a =>
      apply Prog.steady_access _ _ _ held_loose.still
      intro s r found
      split at found <;> cases found
      exact ⟨rfl, rfl⟩

theorem trim_slots_steady (node : Nat) (qset : Int) (left : Nat) (i : Int) : SteadyTrim (trimSlots node qset left i) := by
  induction left generalizing i with
  | zero => trivial
  | succ left ih =>
      apply Prog.steady_bind _ _ _ _ (slot_of_steady Held .trim held_loose _ node i)
      intro slot
      exact Prog.steady_bind _ _ _ _ (kfree_steady slot) fun _ => ih (i + 1)

theorem trim_array_steady (qset : Int) (node : Nat) : SteadyTrim (trimArray qset node) := by
  apply Prog.steady_bind _ _ _ _ (read_data_steady Held .trim held_loose node)
  intro data
  split
  · apply Prog.steady_bind _ _ _ _ (trim_slots_steady node qset _ 0)
    intro _
    apply Prog.steady_bind _ _ _ _ (read_data_steady Held .trim held_loose node)
    intro data
    exact Prog.steady_bind _ _ _ _ (kfree_steady data) fun _ => write_data_steady Held .trim held_loose node none
  · trivial

theorem trim_chain_steady (qset : Int) (fuel : Nat) (dptr : Option Nat) : SteadyTrim (trimChain qset fuel dptr) := by
  induction fuel generalizing dptr with
  | zero => cases dptr <;> trivial
  | succ fuel ih =>
      cases dptr with
      | none => trivial
      | some node =>
          apply Prog.steady_bind _ _ _ _ (trim_array_steady qset node)
          intro _
          apply Prog.steady_bind _ _ _ _ (read_next_steady Held .trim held_loose node)
          intro next
          exact Prog.steady_bind _ _ _ _ (kfree_steady (some node)) fun _ => ih next

end OneDriver.Scull
