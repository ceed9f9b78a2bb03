import OneDriver.Links
import OneDriver.Scull.Chain

set_option autoImplicit false

namespace OneDriver.Scull

def nextOf (heap : Heap Cell) (node : Nat) : Option (Option Nat) :=
  match heap.cell node with
  | some (.node _ next) => some next
  | _ => none

theorem next_of_lt (heap : Heap Cell) (node : Nat) (link : Option Nat) (found : nextOf heap node = some link) :
    node < heap.fresh := by
  cases cell : heap.cell node with
  | none => simp [nextOf, cell] at found
  | some c => exact heap.cell_lt node c cell

theorem run_next_of (s : ScullState) (node : Nat) (link : Option Nat) (found : nextOf s.heap node = some link) :
    (readNext .inside node).run s = .done link s := by
  rw [nextOf] at found
  split at found
  · next data next cell =>
      cases found
      exact run_read_next .inside s node data _ cell
  · cases found

theorem chain_linked (heap : Heap Cell) (quantum qset : Int) (chain : List Entry)
    (holds : ChainHolds heap quantum qset chain) : Linked (nextOf heap) (headOf chain) (chain.map Entry.node) := by
  induction chain with
  | nil => rfl
  | cons e rest ih => exact ⟨rfl, headOf rest, by simp [nextOf, holds.1.node], ih holds.2⟩

-- The walk never counts, so it stops at the first node or not before the end.
theorem run_follow_from (item : Int) (nodes : List Nat) (fuel : Nat) (start : Option Nat) (s : ScullState)
    (enough : nodes.length ≤ fuel) (linked : Linked (nextOf s.heap) start nodes) :
    (followFrom 0 item fuel start).run s = .done (if 0 < item then none else start) s := by
  induction nodes generalizing fuel start with
  | nil =>
      obtain rfl : start = none := linked
      cases fuel <;> simp [followFrom]
  | cons a rest ih =>
      obtain ⟨rfl, link, found, later⟩ := linked
      cases fuel with
      | zero => simp at enough
      | succ fuel =>
          by_cases further : 0 < item
          · simp only [followFrom, if_pos further, Prog.run_bind, run_next_of s a link found, outcome_bind_done]
            rw [ih fuel link (Nat.le_of_succ_le_succ enough) later, if_pos further]
          · simp [followFrom, further]

theorem run_follow_linked (item : Int) (s : ScullState) (nodes : List Nat)
    (linked : Linked (nextOf s.heap) s.data nodes) :
    (scullFollow item).run s = .done (if 0 < item then none else s.data) s := by
  have enough := linked_length_le (nextOf s.heap) s.heap.fresh s.data nodes (next_of_lt s.heap) linked
  simpa only [scullFollow, Prog.run_bind, Prog.run_look, outcome_bind_done] using
    run_follow_from item nodes s.heap.fresh s.data s enough linked

theorem run_scull_follow (outside : Nat → Option Cell) (item : Int) (s : ScullState) (chain : List Entry)
    (holds : DeviceHolds outside s chain) :
    (scullFollow item).run s = .done (if 0 < item then none else headOf chain) s := by
  have linked := chain_linked s.heap s.quantum s.qset chain holds.linked
  rw [← holds.head] at linked ⊢
  exact run_follow_linked item s _ linked

theorem linked_head (next : Nat → Option (Option Nat)) (start : Option Nat) (nodes : List Nat)
    (linked : Linked next start nodes) : start = nodes[0]? := by
  cases nodes with
  | nil => exact linked
  | cons a rest => exact linked.1

theorem follow_finds_item_iff (item : Int) (nonneg : 0 ≤ item) (s : ScullState) (nodes : List Nat)
    (linked : Linked (nextOf s.heap) s.data nodes) :
    (∃ found t, (scullFollow item).run s = .done found t ∧ found = nodes[item.toNat]?) ↔
      item = 0 ∨ (nodes.length : Int) ≤ item := by
  rw [Prog.run_exists_iff _ _ _ _ (fun found _ => found = nodes[item.toNat]?) (run_follow_linked item s nodes linked)]
  by_cases first : item = 0
  · simp [first, linked_head (nextOf s.heap) s.data nodes linked]
  · have further : 0 < item := by omega
    rw [if_pos further, eq_comm, List.getElem?_eq_none_iff]
    omega

def twoNodes : ScullState :=
  { scullLoaded with data := some 0, heap := ⟨[some (.node none (some 1)), some (.node none none)]⟩ }

theorem two_nodes_linked : Linked (nextOf twoNodes.heap) twoNodes.data [0, 1] :=
  ⟨rfl, some 1, rfl, rfl, none, rfl, rfl⟩

theorem first_item_found :
    Linked (nextOf twoNodes.heap) twoNodes.data [0, 1] ∧
      ∃ found t, (scullFollow 0).run twoNodes = .done found t ∧ found = some 0 :=
  ⟨two_nodes_linked,
    (follow_finds_item_iff 0 (Int.le_refl 0) twoNodes [0, 1] two_nodes_linked).mpr (Or.inl rfl)⟩

-- The loop runs to the end of the chain, past the node it was sent for.
theorem second_item_missed :
    Linked (nextOf twoNodes.heap) twoNodes.data [0, 1] ∧ (scullFollow 1).run twoNodes = .done none twoNodes ∧
      none ≠ [0, 1][(1 : Int).toNat]? :=
  ⟨two_nodes_linked, rfl, by decide⟩

end OneDriver.Scull
