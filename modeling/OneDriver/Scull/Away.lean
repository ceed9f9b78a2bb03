import OneDriver.Scull.Ownership
import OneDriver.Scull.Sections

set_option autoImplicit false

namespace OneDriver.Scull

abbrev ScullThread := Thread ScullLabel ScullState ScullFault ScullReply
abbrev ScullPool := Pool ScullLabel ScullState ScullFault ScullReply

-- While the device has a chain, nobody takes the semaphore during a trim, and a trim
-- begins only while nobody is between down and up or in a trim of his own.
def TrimsAlone (pool : ScullPool) (i : Nat) : Prop :=
  pool.shared.data = none ∨
    (pool.threads[i]?.bind Thread.upcoming = some .down → ∀ other ∈ pool.threads, other.last ≠ some .trim) ∧
      (pool.threads[i]?.bind Thread.upcoming = some .trim → pool.threads[i]?.bind Thread.last ≠ some .trim →
        ∀ other ∈ pool.threads, other.last ≠ some .down ∧ other.last ≠ some .inside ∧ other.last ≠ some .trim)

instance (pool : ScullPool) (i : Nat) : Decidable (TrimsAlone pool i) := inferInstanceAs (Decidable (_ ∨ _ ∧ _))

def NoChain (s : ScullState) : Prop := s.data = none

abbrev KeepsNoChain {α : Type} (p : ScullProg α) (post : α → Prop) : Prop := p.Keeps NoChain (· = .divideByZero) post

theorem follow_finds_nothing (item : Int) : KeepsNoChain (scullFollow item) (· = none) := by
  apply Prog.keeps_bind _ _ _ _ (fun start => start.1 = none)
  · exact Prog.keeps_look _ _ _ _ _ fun s none => none
  · intro start absent
    rw [absent]
    cases start.2 <;> rfl

theorem locate_keeps_no_chain (abi : Abi) (quantum qset fPos : Int) :
    KeepsNoChain (locate abi quantum qset fPos) fun _ => True := by
  have divides : ∀ a b, KeepsNoChain (cdiv .divideByZero a b) fun _ => True := by
    intro a b
    unfold cdiv
    split
    · rfl
    · trivial
  have remains : ∀ a b, KeepsNoChain (cmod .divideByZero a b) fun _ => True := by
    intro a b
    unfold cmod
    split
    · rfl
    · trivial
  apply Prog.keeps_bind _ _ _ _ _ _ (divides _ _)
  intro item _
  apply Prog.keeps_bind _ _ _ _ _ _ (remains _ _)
  intro rest _
  apply Prog.keeps_bind _ _ _ _ _ _ (divides _ _)
  intro sPos _
  exact Prog.keeps_bind _ _ _ _ _ _ (remains _ _) fun _ _ => trivial

theorem write_body_keeps_no_chain (cfg : ScullConfig) (call : WriteCall) (quantum qset : Int) :
    KeepsNoChain (writeBody cfg call quantum qset) fun _ => True := by
  apply Prog.keeps_bind _ _ _ _ _ _ (locate_keeps_no_chain _ _ _ _)
  intro pos _
  apply Prog.keeps_bind _ _ _ _ _ _ (follow_finds_nothing pos.item)
  intro dptr absent
  subst absent
  trivial

theorem clamp_keeps_no_chain (abi : Abi) (fPos : Int) (count : Nat) :
    KeepsNoChain (clampToSize abi fPos count) fun _ => True := by
  apply Prog.keeps_bind _ _ _ _ (fun _ => True)
  · exact Prog.keeps_look _ _ _ _ _ fun _ _ => trivial
  · intro size _
    split
    · apply Prog.keeps_bind _ _ _ _ (fun _ => True)
      · exact Prog.keeps_look _ _ _ _ _ fun _ _ => trivial
      · exact fun _ _ => trivial
    · trivial

theorem read_body_keeps_no_chain (cfg : ScullConfig) (call : ReadCall) (quantum qset : Int) :
    KeepsNoChain (readBody cfg call quantum qset) fun _ => True := by
  apply Prog.keeps_bind _ _ _ _ (fun _ => True)
  · exact Prog.keeps_look _ _ _ _ _ fun _ _ => trivial
  · intro size _
    split
    · trivial
    · apply Prog.keeps_bind _ _ _ _ _ _ (clamp_keeps_no_chain _ _ _)
      intro count _
      apply Prog.keeps_bind _ _ _ _ _ _ (locate_keeps_no_chain _ _ _ _)
      intro pos _
      apply Prog.keeps_bind _ _ _ _ _ _ (follow_finds_nothing pos.item)
      intro dptr absent
      subst absent
      trivial

-- What is asked of the code between down and up.
structure Body (cfg : ScullConfig) (body : Int → Int → ScullProg ScullReply) : Prop where
  steady : ∀ quantum qset, SteadyInside (body quantum qset)
  empty : ∀ quantum qset, KeepsNoChain (body quantum qset) fun _ => True
  safe : ∀ outside s chain, DeviceHolds outside s chain → FirstArrayFits cfg.abi s.qset chain →
    (body s.quantum s.qset).wpUpTo (· = .outOfBounds) (fun _ t => Kept cfg.abi outside s t) s

theorem read_is_body (cfg : ScullConfig) (call : ReadCall) : Body cfg (readBody cfg call) where
  steady := fun quantum qset => read_body_steady cfg quantum qset call
  empty := read_body_keeps_no_chain cfg call
  safe := fun outside s chain holds fit => by
    have keeps := Prog.wp_tolerate _ _ _ s (· = .outOfBounds) (read_body_keeps cfg call outside s chain holds)
      fun _ strays => strays.1
    apply Prog.wp_mono _ _ _ _ s keeps
    intro _ t same
    subst same
    exact ⟨⟨chain, holds, fit⟩, frame_refl t⟩

theorem write_is_body (cfg : ScullConfig) (call : WriteCall) : Body cfg (writeBody cfg call) where
  steady := fun quantum qset => write_body_steady cfg quantum qset call
  empty := write_body_keeps_no_chain cfg call
  safe := fun outside s chain holds fit =>
    Prog.wp_tolerate _ _ _ s (· = .outOfBounds) (write_body_keeps cfg call outside s chain holds fit)
      fun _ strays => strays.1

-- A program that holds nothing: before down, after up, or around a trim. What it has
-- sampled is dev's geometry, unless a trim is under way.
inductive Away (cfg : ScullConfig) (stale : Prop) (s : ScullState) : ScullProg ScullReply → Prop where
  | returned (reply : ScullReply) : Away cfg stale s (.ret reply)
  | opening (flags : Nat) : Away cfg stale s ((ScullCall.opening flags).prog cfg)
  | calling (interrupted : Bool) (fPos : Int) (body : Int → Int → ScullProg ScullReply) (ok : Body cfg body) :
      Away cfg stale s (sampled fun quantum qset => locked interrupted fPos (body quantum qset))
  | halfway (interrupted : Bool) (fPos : Int) (body : Int → Int → ScullProg ScullReply) (ok : Body cfg body)
      (quantum : Int) (agrees : stale ∨ quantum = s.quantum) :
      Away cfg stale s (Prog.look .geometry ScullState.qset >>= fun qset => locked interrupted fPos (body quantum qset))
  | waiting (interrupted : Bool) (fPos : Int) (body : Int → Int → ScullProg ScullReply) (ok : Body cfg body)
      (quantum qset : Int) (agrees : stale ∨ quantum = s.quantum ∧ qset = s.qset) :
      Away cfg stale s (locked interrupted fPos (body quantum qset))

theorem trim_keeps_no_chain (cfg : ScullConfig) : KeepsNoChain (scullTrim cfg) fun _ => True := by
  apply Prog.keeps_bind _ _ _ _ (fun _ => True)
  · exact Prog.keeps_look _ _ _ _ _ fun _ _ => trivial
  · intro qset _
    apply Prog.keeps_bind _ _ _ _ (fun start => start.1 = none)
    · exact Prog.keeps_look _ _ _ _ _ fun s none => none
    · intro start absent
      rw [absent]
      apply Prog.keeps_bind _ _ _ _ (fun _ => True)
      · cases start.2 <;> trivial
      · exact fun _ _ s none => ⟨none, fun t none => ⟨none, fun u none => ⟨none, fun v _ => ⟨rfl, trivial⟩⟩⟩⟩

theorem open_keeps_no_chain (cfg : ScullConfig) (flags : Nat) :
    KeepsNoChain ((ScullCall.opening flags).prog cfg) fun _ => True := by
  apply Prog.keeps_bind _ _ _ _ (fun _ => True)
  · unfold scullOpen
    split
    · exact Prog.keeps_bind _ _ _ _ _ _ (trim_keeps_no_chain cfg) fun _ _ => trivial
    · trivial
  · exact fun _ _ => trivial

theorem locked_keeps_no_chain (interrupted : Bool) (fPos : Int) (body : ScullProg ScullReply)
    (keeps : KeepsNoChain body fun _ => True) : KeepsNoChain (locked interrupted fPos body) fun _ => True := by
  unfold locked
  split
  · trivial
  · apply Prog.keeps_bind _ _ _ _ (fun _ => True)
    · exact Prog.keeps_await _ _ _ _ _ fun s none => none
    · intro _ _
      apply Prog.keeps_bind _ _ _ _ _ _ keeps
      exact fun reply _ s none => ⟨none, trivial⟩

theorem away_keeps_no_chain (cfg : ScullConfig) (stale : Prop) (s : ScullState) (p : ScullProg ScullReply)
    (away : Away cfg stale s p) : KeepsNoChain p fun _ => True := by
  cases away with
  | returned reply => trivial
  | opening flags => exact open_keeps_no_chain cfg flags
  | calling interrupted fPos body ok =>
      apply Prog.keeps_bind _ _ _ _ (fun _ => True)
      · exact Prog.keeps_look _ _ _ _ _ fun _ _ => trivial
      · intro quantum _
        apply Prog.keeps_bind _ _ _ _ (fun _ => True)
        · exact Prog.keeps_look _ _ _ _ _ fun _ _ => trivial
        · exact fun qset _ => locked_keeps_no_chain interrupted fPos _ (ok.empty quantum qset)
  | halfway interrupted fPos body ok quantum agrees =>
      apply Prog.keeps_bind _ _ _ _ (fun _ => True)
      · exact Prog.keeps_look _ _ _ _ _ fun _ _ => trivial
      · exact fun qset _ => locked_keeps_no_chain interrupted fPos _ (ok.empty quantum qset)
  | waiting interrupted fPos body ok quantum qset agrees =>
      exact locked_keeps_no_chain interrupted fPos _ (ok.empty quantum qset)

end OneDriver.Scull
