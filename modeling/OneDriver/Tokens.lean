import OneDriver.Ending
import OneDriver.Rely
import Mathlib.Algebra.BigOperators.Group.List.Basic

set_option autoImplicit false

namespace OneDriver

-- What an action does to a counter of tokens.
inductive Trade where
  | gives
  | takes
  | neither
deriving DecidableEq, Repr

variable {ℓ σ φ α β : Type}

namespace Prog

-- The program gives and takes so many tokens in all. It only ever waits for one to take,
-- and a counter that is full may lose what it is given.
def Trades (kind : ℓ → Trade) (count : σ → Nat) (full : Nat) : Prog ℓ σ φ α → Nat → Nat → Prop
  | .ret _, gives, takes => gives = 0 ∧ takes = 0
  | .crash _, _, _ => False
  | .act label ready effect next, gives, takes => ∀ s, match kind label with
    | .gives => ∃ left, gives = left + 1 ∧ ready s = true ∧ (count s < full → count (effect s) = count s + 1) ∧
        (next s).Trades kind count full left takes
    | .takes => ∃ left, takes = left + 1 ∧ (ready s = true ↔ 0 < count s) ∧
        (0 < count s → count (effect s) + 1 = count s ∧ (next s).Trades kind count full gives left)
    | .neither => ready s = true ∧ count (effect s) = count s ∧ (next s).Trades kind count full gives takes

variable (kind : ℓ → Trade) (count : σ → Nat) (full : Nat)

theorem trades_bind (p : Prog ℓ σ φ α) (k : α → Prog ℓ σ φ β) (gives takes moreGives moreTakes : Nat)
    (first : p.Trades kind count full gives takes) (later : ∀ a, (k a).Trades kind count full moreGives moreTakes) :
    (p >>= k).Trades kind count full (gives + moreGives) (takes + moreTakes) := by
  change (p.bind k).Trades kind count full _ _
  induction p generalizing gives takes with
  | ret a =>
      obtain ⟨rfl, rfl⟩ := first
      simpa only [Prog.bind, Nat.zero_add] using later a
  | crash f => exact first.elim
  | act label ready effect next ih =>
      intro s
      have here := first s
      cases trade : kind label with
      | gives =>
          rw [trade] at here
          obtain ⟨left, rfl, can, given, rest⟩ := here
          exact ⟨left + moreGives, Nat.add_right_comm left 1 moreGives, can, given, ih s left takes rest⟩
      | takes =>
          rw [trade] at here
          obtain ⟨left, rfl, can, taken⟩ := here
          refine ⟨left + moreTakes, Nat.add_right_comm left 1 moreTakes, can, fun held => ?_⟩
          exact ⟨(taken held).1, ih s gives left (taken held).2⟩
      | neither =>
          rw [trade] at here
          exact ⟨here.1, here.2.1, ih s gives takes here.2.2⟩

theorem trades_modify (label : ℓ) (set : σ → σ) (trade : kind label = .neither) (same : ∀ s, count (set s) = count s) :
    (modify label set : Prog ℓ σ φ Unit).Trades kind count full 0 0 := by
  intro s
  rw [trade]
  exact ⟨rfl, same s, rfl, rfl⟩

theorem trades_look (label : ℓ) (get : σ → α) (trade : kind label = .neither) :
    (look label get : Prog ℓ σ φ α).Trades kind count full 0 0 := by
  intro s
  rw [trade]
  exact ⟨rfl, rfl, rfl, rfl⟩

theorem trades_series {γ : Type} (call : γ → Prog ℓ σ φ α) (gives takes : Nat) (calls : List γ)
    (each : ∀ x ∈ calls, (call x).Trades kind count full gives takes) :
    (series call calls).Trades kind count full (calls.length * gives) (calls.length * takes) := by
  induction calls with
  | nil => exact ⟨Nat.zero_mul gives, Nat.zero_mul takes⟩
  | cons x rest ih =>
      have first := each x List.mem_cons_self
      have later := ih fun y listed => each y (List.mem_cons_of_mem x listed)
      rw [List.length_cons, Nat.succ_mul, Nat.succ_mul, Nat.add_comm _ gives, Nat.add_comm _ takes]
      apply trades_bind kind count full _ _ _ _ _ _ first
      intro a
      exact trades_bind kind count full _ (fun results => pure (a :: results)) _ _ 0 0 later fun _ => ⟨rfl, rfl⟩

end Prog

theorem sum_set {M : Type} [AddCommMonoid M] (items : List M) (i : Nat) (old new : M) (found : items[i]? = some old) :
    (items.set i new).sum + old = items.sum + new := by
  induction items generalizing i with
  | nil => cases found
  | cons x rest ih =>
      cases i with
      | zero =>
          obtain rfl := Option.some.inj found
          simp only [List.set_cons_zero, List.sum_cons]
          rw [add_right_comm, add_comm new]
          exact add_right_comm _ _ _
      | succ i =>
          simp only [List.set_cons_succ, List.sum_cons, add_assoc, ih i found]

def Trade.one : Trade → Nat × Nat
  | .gives => (1, 0)
  | .takes => (0, 1)
  | .neither => (0, 0)

namespace Pool

-- How many tokens a schedule gives, and how many it takes.
def tally (kind : ℓ → Trade) : Pool ℓ σ φ α → List Nat → Nat × Nat
  | _, [] => 0
  | pool, i :: rest =>
      match pool.step i, pool.threads[i]?.bind Thread.upcoming with
      | some next, some label => (kind label).one + tally kind next rest
      | _, _ => 0

variable (kind : ℓ → Trade) (count : σ → Nat) (full : Nat) (k : Int)

-- What each thread still gives and takes, never both; `k` is what is left over in the end.
structure Traded (pool : Pool ℓ σ φ α) (owes : List (Nat × Nat)) : Prop where
  sized : owes.length = pool.threads.length
  each : ∀ (i : Nat) (thread : Thread ℓ σ φ α) (o : Nat × Nat), pool.threads[i]? = some thread → owes[i]? = some o →
    thread.prog.Trades kind count full o.1 o.2
  sides : ∀ o ∈ owes, o.1 = 0 ∨ o.2 = 0
  room : count pool.shared + owes.sum.1 ≤ full
  balance : (count pool.shared : Int) + owes.sum.1 = k + owes.sum.2

theorem sum_cons_set (owes : List (Nat × Nat)) (i : Nat) (old new one : Nat × Nat) (found : owes[i]? = some old)
    (same : new + one = old) : (owes.set i new).sum + one = owes.sum := by
  have moved := sum_set owes i old new found
  rw [← same, ← add_assoc, add_right_comm] at moved
  exact add_right_cancel moved

theorem owed_le_sum (owes : List (Nat × Nat)) (o : Nat × Nat) (listed : o ∈ owes) : o.1 ≤ owes.sum.1 ∧ o.2 ≤ owes.sum.2 := by
  induction owes with
  | nil => cases listed
  | cons first rest ih =>
      rw [List.sum_cons, Prod.fst_add, Prod.snd_add]
      cases listed with
      | head => exact ⟨Nat.le_add_right _ _, Nat.le_add_right _ _⟩
      | tail _ later => exact ⟨Nat.le_add_left_of_le (ih later).1, Nat.le_add_left_of_le (ih later).2⟩

theorem traded_step (pool next : Pool ℓ σ φ α) (i : Nat) (owes : List (Nat × Nat))
    (traded : Traded kind count full k pool owes) (stepped : pool.step i = some next) :
    ∃ owes' label, pool.threads[i]?.bind Thread.upcoming = some label ∧ Traded kind count full k next owes' ∧
      owes'.sum + (kind label).one = owes.sum := by
  obtain ⟨thread, label, ready, effect, rest, takes⟩ := step_takes pool next i stepped
  have present : i < owes.length := traded.sized ▸ (List.getElem?_eq_some_iff.mp takes.found).1
  obtain ⟨o, listed⟩ : ∃ o, owes[i]? = some o := ⟨_, List.getElem?_eq_getElem present⟩
  obtain ⟨gives, wants⟩ := o
  have mine := traded.each i thread _ takes.found listed
  rw [takes.prog] at mine
  have here := mine pool.shared
  have room := traded.room
  have balance := traded.balance
  -- What is owed after the step, and what the step does to the counter.
  have settled : ∀ new : Nat × Nat, new + (kind label).one = (gives, wants) →
      (count pool.shared + (kind label).one.1 = count (effect pool.shared) + (kind label).one.2) →
      (rest pool.shared).Trades kind count full new.1 new.2 →
      ∃ owes' l, pool.threads[i]?.bind Thread.upcoming = some l ∧ Traded kind count full k next owes' ∧
        owes'.sum + (kind l).one = owes.sum := by
    intro new same counted trades
    have summed := sum_cons_set owes i _ new _ listed same
    have first := congrArg Prod.fst summed
    have second := congrArg Prod.snd summed
    rw [Prod.fst_add] at first
    rw [Prod.snd_add] at second
    refine ⟨owes.set i new, label, takes_upcoming pool next i thread label ready effect rest takes,
      ⟨?_, fun j other o found owed => ?_, fun o kept => ?_, ?_, ?_⟩, summed⟩
    · rw [List.length_set, traded.sized, step_length pool next i stepped]
    · by_cases same : j = i
      · subst same
        rw [takes.moved] at found
        rw [List.getElem?_set_self present] at owed
        obtain rfl := Option.some.inj found
        obtain rfl := Option.some.inj owed
        exact trades
      · rw [takes.others j same] at found
        rw [List.getElem?_set_ne (Ne.symm same)] at owed
        exact traded.each j other o found owed
    · rcases List.mem_or_eq_of_mem_set kept with old | rfl
      · exact traded.sides o old
      · have before := traded.sides (gives, wants) (List.mem_of_getElem? listed)
        rw [← same] at before
        exact before.imp Nat.eq_zero_of_add_eq_zero_right Nat.eq_zero_of_add_eq_zero_right
    · rw [takes.shared]
      omega
    · rw [takes.shared]
      omega
  cases trade : kind label with
  | gives =>
      rw [trade] at here settled
      obtain ⟨left, rfl, -, given, trades⟩ := here
      have part := (owed_le_sum owes _ (List.mem_of_getElem? listed)).1
      apply settled (left, wants) rfl _ trades
      exact (given (by omega)).symm
  | takes =>
      rw [trade] at here settled
      obtain ⟨left, rfl, waits, taken⟩ := here
      obtain ⟨counted, trades⟩ := taken (waits.mp takes.can)
      exact settled (gives, left) rfl counted.symm trades
  | neither =>
      rw [trade] at here settled
      obtain ⟨-, counted, trades⟩ := here
      exact settled (gives, wants) rfl counted.symm trades

theorem traded_run (pool last : Pool ℓ σ φ α) (schedule : List Nat) (owes : List (Nat × Nat))
    (traded : Traded kind count full k pool owes) (ran : pool.exec schedule = some last) :
    ∃ owes', Traded kind count full k last owes' ∧ owes'.sum + pool.tally kind schedule = owes.sum := by
  induction schedule generalizing pool owes with
  | nil =>
      obtain rfl := Option.some.inj ran
      exact ⟨owes, traded, add_zero _⟩
  | cons i rest ih =>
      obtain ⟨next, stepped, continued⟩ := Option.bind_eq_some_iff.mp ran
      obtain ⟨mid, label, upcoming, after, one⟩ := traded_step kind count full k pool next i owes traded stepped
      obtain ⟨owes', final, total⟩ := ih next mid after continued
      refine ⟨owes', final, ?_⟩
      simp only [tally, stepped, upcoming]
      rw [add_comm (kind label).one, ← add_assoc, total, one]

-- At every moment the counter has what was given to it and not taken.
theorem traded_conserves (pool last : Pool ℓ σ φ α) (schedule : List Nat) (owes : List (Nat × Nat))
    (traded : Traded kind count full k pool owes) (ran : pool.exec schedule = some last) :
    count last.shared + (pool.tally kind schedule).2 = count pool.shared + (pool.tally kind schedule).1 := by
  obtain ⟨owes', final, total⟩ := traded_run kind count full k pool last schedule owes traded ran
  have before := traded.balance
  have after := final.balance
  have first := congrArg Prod.fst total
  have second := congrArg Prod.snd total
  rw [Prod.fst_add] at first
  rw [Prod.snd_add] at second
  omega

section Stuck

variable (pool : Pool ℓ σ φ α) (owes : List (Nat × Nat))

-- A thread that cannot go on has returned, or waits for a token there is none of.
theorem stuck_thread (i : Nat) (thread : Thread ℓ σ φ α) (o : Nat × Nat)
    (traded : Traded kind count full k pool owes) (found : pool.threads[i]? = some thread) (owed : owes[i]? = some o)
    (stuck : pool.step i = none) : thread.value.isSome = true ∧ o = 0 ∨ count pool.shared = 0 ∧ 0 < o.2 := by
  have trades := traded.each i thread o found owed
  have moves : ∀ label ready effect next, thread.prog = .act label ready effect next → ready pool.shared = false := by
    intro label ready effect next prog
    cases can : ready pool.shared with
    | false => rfl
    | true =>
        obtain ⟨moved, stepped⟩ := step_of_ready pool i thread label ready effect next found prog can
        rw [stuck] at stepped
        cases stepped
  cases prog : thread.prog with
  | ret a =>
      rw [prog] at trades
      exact .inl ⟨by simp [Thread.value, prog], Prod.ext trades.1 trades.2⟩
  | crash f =>
      rw [prog] at trades
      exact trades.elim
  | act label ready effect next =>
      have waits := moves label ready effect next prog
      rw [prog] at trades
      have here := trades pool.shared
      cases trade : kind label with
      | gives =>
          rw [trade] at here
          obtain ⟨left, -, can, -⟩ := here
          rw [waits] at can
          cases can
      | takes =>
          rw [trade] at here
          obtain ⟨left, owe, can, -⟩ := here
          right
          rw [owe]
          have empty : ¬ 0 < count pool.shared := fun held => by
            rw [can.mpr held] at waits
            cases waits
          exact ⟨Nat.eq_zero_of_not_pos empty, Nat.succ_pos left⟩
      | neither =>
          rw [trade] at here
          rw [waits] at here
          cases here.1

theorem owed_of_sum (owes : List (Nat × Nat)) (gives : 0 < owes.sum.1) : ∃ o ∈ owes, 0 < o.1 := by
  induction owes with
  | nil => cases gives
  | cons first rest ih =>
      rw [List.sum_cons, Prod.fst_add] at gives
      by_cases here : 0 < first.1
      · exact ⟨first, List.mem_cons_self, here⟩
      · obtain ⟨o, listed, more⟩ := ih (by omega)
        exact ⟨o, List.mem_cons_of_mem _ listed, more⟩

-- One that gives waits for nothing.
theorem giver_moves (traded : Traded kind count full k pool owes) (gives : 0 < owes.sum.1) :
    ∃ i next, pool.step i = some next := by
  obtain ⟨o, listed, more⟩ := owed_of_sum owes gives
  obtain ⟨i, owed⟩ := List.mem_iff_getElem?.mp listed
  have present : i < pool.threads.length := traded.sized ▸ (List.getElem?_eq_some_iff.mp owed).1
  obtain ⟨thread, found⟩ : ∃ thread, pool.threads[i]? = some thread := ⟨_, List.getElem?_eq_getElem present⟩
  cases moves : pool.step i with
  | some next => exact ⟨i, next, moves⟩
  | none =>
      exfalso
      rcases stuck_thread kind count full k pool owes i thread o traded found owed moves with ⟨-, rfl⟩ | ⟨-, wants⟩
      · cases more
      · have := traded.sides o listed
        omega

theorem stuck_waits (traded : Traded kind count full k pool owes) (thread : Thread ℓ σ φ α)
    (listed : thread ∈ pool.threads) (going : thread.value.isSome = false) (stuck : ∀ i, pool.step i = none) :
    count pool.shared = 0 ∧ 0 < owes.sum.2 := by
  obtain ⟨i, found⟩ := List.mem_iff_getElem?.mp listed
  have present : i < owes.length := traded.sized ▸ (List.getElem?_eq_some_iff.mp found).1
  obtain ⟨o, owed⟩ : ∃ o, owes[i]? = some o := ⟨_, List.getElem?_eq_getElem present⟩
  rcases stuck_thread kind count full k pool owes i thread o traded found owed (stuck i) with
    ⟨returned, -⟩ | ⟨empty, wants⟩
  · rw [going] at returned
    cases returned
  · exact ⟨empty, Nat.lt_of_lt_of_le wants (owed_le_sum owes o (List.mem_of_getElem? owed)).2⟩

-- Where none can go on and some have not returned there is no token, and only takers are left.
theorem traded_stuck (traded : Traded kind count full k pool owes) (stuck : ∀ i, pool.step i = none)
    (unfinished : pool.finished = false) :
    count pool.shared = 0 ∧ owes.sum.1 = 0 ∧ 0 < owes.sum.2 ∧ k + owes.sum.2 = 0 := by
  obtain ⟨thread, listed, going⟩ : ∃ thread ∈ pool.threads, thread.value.isSome = false := by
    simpa [finished] using unfinished
  obtain ⟨empty, wants⟩ := stuck_waits kind count full k pool owes traded thread listed going stuck
  have none_gives : ¬ 0 < owes.sum.1 := fun gives => by
    obtain ⟨i, next, moves⟩ := giver_moves kind count full k pool owes traded gives
    rw [stuck i] at moves
    cases moves
  have balance := traded.balance
  refine ⟨empty, Nat.eq_zero_of_not_pos none_gives, wants, ?_⟩
  omega

-- While there is enough for all, one that waits has one that gives to wait for.
theorem traded_progress (traded : Traded kind count full k pool owes) (enough : 0 ≤ k) :
    pool.finished = true ∨ ∃ i next, pool.step i = some next := by
  cases done : pool.finished with
  | true => exact .inl rfl
  | false =>
      right
      by_contra none_moves
      have stuck : ∀ i, pool.step i = none := by
        intro i
        cases moves : pool.step i with
        | none => rfl
        | some next => exact (none_moves ⟨i, next, moves⟩).elim
      obtain ⟨-, -, wants, none_left⟩ := traded_stuck kind count full k pool owes traded stuck done
      omega

theorem traded_finished (traded : Traded kind count full k pool owes) (finished : pool.finished = true) :
    owes.sum = 0 := by
  apply List.sum_eq_zero
  intro o listed
  obtain ⟨i, owed⟩ := List.mem_iff_getElem?.mp listed
  have present : i < pool.threads.length := traded.sized ▸ (List.getElem?_eq_some_iff.mp owed).1
  obtain ⟨thread, found⟩ : ∃ thread, pool.threads[i]? = some thread := ⟨_, List.getElem?_eq_getElem present⟩
  have returned := List.all_eq_true.mp finished thread (List.mem_of_getElem? found)
  have trades := traded.each i thread o found owed
  cases prog : thread.prog with
  | ret a =>
      rw [prog] at trades
      exact Prod.ext trades.1 trades.2
  | crash f => simp [Thread.value, prog] at returned
  | act label ready effect next => simp [Thread.value, prog] at returned

-- A pool ends, in some order, just when it is given enough; and then in whatever order it was begun.
theorem traded_finishes_iff (traded : Traded kind count full k pool owes) :
    (∃ schedule last, pool.exec schedule = some last ∧ last.finished = true) ↔ 0 ≤ k := by
  constructor
  · rintro ⟨schedule, last, ran, finished⟩
    obtain ⟨owes', final, -⟩ := traded_run kind count full k pool last schedule owes traded ran
    have balance := final.balance
    rw [traded_finished kind count full k last owes' final finished] at balance
    simp only [Prod.fst_zero, Prod.snd_zero] at balance
    omega
  · intro enough
    apply finishes (fun pool => ∃ owes, Traded kind count full k pool owes) _ _ pool ⟨owes, traded⟩
    · rintro pool next i ⟨owes, traded⟩ stepped
      obtain ⟨owes', -, -, after, -⟩ := traded_step kind count full k pool next i owes traded stepped
      exact ⟨owes', after⟩
    · rintro pool ⟨owes, traded⟩
      exact traded_progress kind count full k pool owes traded enough

end Stuck

end Pool

end OneDriver
