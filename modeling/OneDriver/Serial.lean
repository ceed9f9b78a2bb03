import OneDriver.History
import OneDriver.Lock

set_option autoImplicit false

namespace OneDriver

variable {ℓ σ φ α β γ : Type}

namespace Prog

-- With the lock, a call goes on by itself until its last action, which gives the
-- lock back and leaves the result and the state that were settled when it took it.
def Finishing (k : Lock ℓ σ) (a : α) (u : σ) : Prog ℓ σ φ α → σ → Prop
  | .ret _, _ => False
  | .crash _, _ => False
  | .act _ ready effect next, s => ready s = true ∧
      (k.taken (effect s) ∧ (next s).Finishing k a u (effect s) ∨ k.free u ∧ effect s = u ∧ next s = .ret a)

-- Before that it only looks, and what it does with the lock is what the whole call
-- does alone. A call that never takes the lock returns what it returns alone.
def Sectioned (k : Lock ℓ σ) (whole : σ → Outcome σ φ α) : Prog ℓ σ φ α → Prop
  | .ret a => ∀ s, k.free s → whole s = .done a s
  | .crash _ => False
  | .act _ ready effect next => ∀ s,
      (k.free s → ready s = true ∧ (effect s = s ∧ (next s).Sectioned k whole ∨
        k.taken (effect s) ∧ ∃ a u, whole s = .done a u ∧ (next s).Finishing k a u (effect s))) ∧
      (k.taken s → ready s = true → effect s = s ∧ (next s).Sectioned k whole)

section Sections

variable (k : Lock ℓ σ)

theorem finishing_alone (p : Prog ℓ σ φ β) (rest : β → Prog ℓ σ φ α) (s t u : σ) (b : β) (a : α)
    (ran : p.run s = .done b t) (owned : p.along (fun _ _ v => k.taken v) s)
    (later : (rest b).Finishing k a u t) : (p >>= rest).Finishing k a u s := by
  change (p.bind rest).Finishing k a u s
  induction p generalizing s with
  | ret c =>
      cases ran
      exact later
  | crash f => cases ran
  | act label ready effect next ih =>
      by_cases can : ready s = true
      · obtain ⟨taken, owned⟩ := owned can
        simp only [run, if_pos can] at ran
        exact ⟨can, .inl ⟨taken, ih s (effect s) ran owned⟩⟩
      · simp only [run, if_neg can] at ran
        cases ran

theorem sectioned_look (whole : σ → Outcome σ φ α) (label : ℓ) (get : σ → β) (rest : β → Prog ℓ σ φ α)
    (later : ∀ s, k.free s ∨ k.taken s → (rest (get s)).Sectioned k whole) :
    (look label get >>= rest).Sectioned k whole :=
  fun s => ⟨fun free => ⟨rfl, .inl ⟨rfl, later s (.inl free)⟩⟩, fun taken _ => ⟨rfl, later s (.inr taken)⟩⟩

theorem sectioned_await (whole : σ → Outcome σ φ α) (label : ℓ) (ready : σ → Bool) (set : σ → σ)
    (rest : Unit → Prog ℓ σ φ α) (shut : ∀ s, k.taken s → ready s = false)
    (enters : ∀ s, k.free s → ready s = true ∧ k.taken (set s) ∧
      ∃ a u, whole s = .done a u ∧ (rest ()).Finishing k a u (set s)) :
    (await label ready set >>= rest).Sectioned k whole := by
  intro s
  refine ⟨fun free => ?_, fun taken can => ?_⟩
  · obtain ⟨can, taken, goes⟩ := enters s free
    exact ⟨can, .inr ⟨taken, goes⟩⟩
  · rw [shut s taken] at can
    cases can

theorem steady_along (steady : σ → σ → Prop) (label : ℓ) (holds : σ → Prop) (p : Prog ℓ σ φ α) (s : σ)
    (moves : p.Steady steady label) (kept : ∀ u v, holds u → steady u v → holds v) (here : holds s) :
    p.along (fun _ _ v => holds v) s := by
  induction p generalizing s with
  | ret a => trivial
  | crash f => trivial
  | act l ready effect next ih =>
      have next' := kept s (effect s) here (moves.2 s).1
      exact fun _ => ⟨next', ih s (effect s) (moves.2 s).2 next'⟩

end Sections

-- What is left of a thread's calls, with the results it has.
def tail (call : γ → Prog ℓ σ φ α) (past : List α) (rest : List γ) : Prog ℓ σ φ (List α) :=
  series call rest >>= fun results => pure (past ++ results)

theorem series_tail (call : γ → Prog ℓ σ φ α) (calls : List γ) : series call calls = tail call [] calls := by
  have same : ∀ p : Prog ℓ σ φ (List α), (p >>= fun results => pure ([] ++ results)) = p := by
    intro p
    change (p.bind fun results => pure ([] ++ results)) = p
    induction p with
    | ret a => rfl
    | crash f => rfl
    | act label ready effect next ih => exact congrArg (act label ready effect) (funext ih)
  exact (same _).symm

theorem tail_nil (call : γ → Prog ℓ σ φ α) (past : List α) : tail call past [] = .ret past :=
  congrArg Prog.ret (List.append_nil past)

theorem tail_cons (call : γ → Prog ℓ σ φ α) (past : List α) (x : γ) (rest : List γ) :
    tail call past (x :: rest) = call x >>= fun a => tail call (past ++ [a]) rest := by
  simp only [tail, series, then_then, pure_then, List.append_assoc, List.singleton_append]

end Prog

section Serial

variable (k : Lock ℓ σ) (call : γ → Prog ℓ σ φ α)

-- Where a thread with its list of calls is, when those in `mine` have returned. A
-- call with the lock is at work on `base`, the state in which it took it.
inductive Stands (calls : List γ) (mine : List (γ × α)) (base s : σ) : Bool → Prog ℓ σ φ (List α) → Prop where
  | ended (all : calls = mine.map Prod.fst) : Stands calls mine base s false (.ret (mine.map Prod.snd))
  | waits (x : γ) (rest : List γ) (p : Prog ℓ σ φ α) (prog : Prog ℓ σ φ (List α))
      (listed : calls = mine.map Prod.fst ++ x :: rest) (going : ∀ a, p ≠ .ret a) (sectioned : p.Sectioned k (call x).run)
      (left : prog = p >>= fun a => Prog.tail call (mine.map Prod.snd ++ [a]) rest) :
      Stands calls mine base s false prog
  | works (x : γ) (rest : List γ) (p : Prog ℓ σ φ α) (prog : Prog ℓ σ φ (List α)) (a : α) (u : σ)
      (listed : calls = mine.map Prod.fst ++ x :: rest) (ran : (call x).run base = .done a u)
      (finishing : p.Finishing k a u s)
      (left : prog = p >>= fun a => Prog.tail call (mine.map Prod.snd ++ [a]) rest) :
      Stands calls mine base s true prog

theorem stands_elsewhere (calls : List γ) (mine : List (γ × α)) (base base' s t : σ) (prog : Prog ℓ σ φ (List α))
    (stands : Stands k call calls mine base s false prog) : Stands k call calls mine base' t false prog := by
  cases stands with
  | ended all => exact .ended all
  | waits x rest p _ listed going sectioned left => exact .waits x rest p prog listed going sectioned left

-- A thread between two of its calls.
theorem stands_tail (calls rest : List γ) (mine : List (γ × α)) (base s : σ)
    (sectioned : ∀ x ∈ calls, (call x).Sectioned k (call x).run) (opens : ∀ x ∈ calls, ∀ a, call x ≠ .ret a)
    (listed : calls = mine.map Prod.fst ++ rest) :
    Stands k call calls mine base s false (Prog.tail call (mine.map Prod.snd) rest) := by
  cases rest with
  | nil =>
      rw [Prog.tail_nil]
      exact .ended (by simpa using listed)
  | cons x rest =>
      have member : x ∈ calls := by simp [listed]
      exact .waits x rest (call x) _ listed (opens x member) (sectioned x member) (Prog.tail_cons call _ x rest)

theorem stands_returned (calls rest : List γ) (mine : List (γ × α)) (base s : σ) (x : γ) (a : α)
    (sectioned : ∀ x ∈ calls, (call x).Sectioned k (call x).run) (opens : ∀ x ∈ calls, ∀ a, call x ≠ .ret a)
    (listed : calls = mine.map Prod.fst ++ x :: rest) :
    Stands k call calls (mine ++ [(x, a)]) base s false
      (Prog.ret a >>= fun b => Prog.tail call (mine.map Prod.snd ++ [b]) rest) := by
  have settled := stands_tail k call calls rest (mine ++ [(x, a)]) base s sectioned opens (by simp [listed])
  rw [List.map_append] at settled
  exact settled

-- What a step of thread `i` makes of the lock, the calls that have returned, the
-- state they leave and the state there is.
inductive SerialMoves (i : Nat) (base s : σ) : Option Nat → Option Nat → List (γ × α) → σ → σ → Prop where
  | has (owner : Option Nat) (t : σ) (alone : ∀ j, j ≠ i → owner ≠ some j) (taken : k.taken t) :
      SerialMoves i base s owner (some i) [] base t
  | gives (x : γ) (a : α) (t : σ) (ran : (call x).run base = .done a t) (free : k.free t) :
      SerialMoves i base s (some i) none [(x, a)] t t
  | looks (owner : Option Nat) : SerialMoves i base s owner owner [] base s
  | answers (owner : Option Nat) (x : γ) (a : α) (ran : (call x).run base = .done a base) :
      SerialMoves i base s owner owner [(x, a)] base s

-- A look is the same whether the lock is free or another thread has it.
theorem stands_looked (calls rest : List γ) (mine : List (γ × α)) (base s : σ) (i : Nat) (owner : Option Nat) (x : γ)
    (q : Prog ℓ σ φ α) (sectioned : ∀ x ∈ calls, (call x).Sectioned k (call x).run)
    (opens : ∀ x ∈ calls, ∀ a, call x ≠ .ret a) (listed : calls = mine.map Prod.fst ++ x :: rest)
    (between : k.free base) (outside : (owner == some i) = false) (waiting : q.Sectioned k (call x).run) :
    ∃ owner' more base', SerialMoves k call i base s owner owner' more base' s ∧
      Stands k call calls (mine ++ more) base' s (owner' == some i)
        (q >>= fun a => Prog.tail call (mine.map Prod.snd ++ [a]) rest) := by
  cases q with
  | ret a =>
      refine ⟨owner, [(x, a)], base, .answers owner x a (waiting base between), ?_⟩
      rw [outside]
      exact stands_returned k call calls rest mine base s x a sectioned opens listed
  | crash f => cases waiting
  | act label ready effect next =>
      refine ⟨owner, [], base, .looks owner, ?_⟩
      rw [outside, List.append_nil]
      exact .waits x rest _ _ listed (by simp) waiting rfl

theorem stands_moves (calls : List γ) (mine : List (γ × α)) (base s : σ) (i : Nat) (owner : Option Nat)
    (prog : Prog ℓ σ φ (List α)) (label : ℓ) (ready : σ → Bool) (effect : σ → σ) (next : σ → Prog ℓ σ φ (List α))
    (sectioned : ∀ x ∈ calls, (call x).Sectioned k (call x).run) (opens : ∀ x ∈ calls, ∀ a, call x ≠ .ret a)
    (between : k.free base) (unowned : owner = none → s = base) (owned : ∀ j, owner = some j → k.taken s)
    (stands : Stands k call calls mine base s (owner == some i) prog) (acts : prog = .act label ready effect next)
    (can : ready s = true) :
    ∃ owner' more base', SerialMoves k call i base s owner owner' more base' (effect s) ∧
      Stands k call calls (mine ++ more) base' (effect s) (owner' == some i) (next s) := by
  generalize inside : (owner == some i) = held at stands
  cases stands with
  | ended all => cases acts
  | waits x rest p prog listed going waiting left =>
      have looked := stands_looked k call calls rest mine base s i owner x
      cases p with
      | ret a => exact absurd rfl (going a)
      | crash f => cases waiting
      | act label' ready' effect' next' =>
          rw [left, Prog.act_then] at acts
          cases acts
          cases owner with
          | none =>
              obtain rfl := unowned rfl
              obtain ⟨-, goes⟩ := (waiting s).1 between
              rcases goes with ⟨same, waiting'⟩ | ⟨taken, a, u, ran, finishing⟩
              · rw [same]
                exact looked (next' s) sectioned opens listed between inside waiting'
              · refine ⟨some i, [], s, .has none (effect s) (by simp) taken, ?_⟩
                rw [BEq.rfl, List.append_nil]
                exact .works x rest _ _ a u listed ran finishing rfl
          | some j =>
              obtain ⟨same, waiting'⟩ := (waiting s).2 (owned j rfl) can
              rw [same]
              exact looked (next' s) sectioned opens listed between inside waiting'
  | works x rest p prog a u listed ran finishing left =>
      obtain rfl : owner = some i := by simpa using inside
      cases p with
      | ret b => cases finishing
      | crash f => cases finishing
      | act label' ready' effect' next' =>
          rw [left, Prog.act_then] at acts
          cases acts
          obtain ⟨-, goes⟩ := finishing
          rcases goes with ⟨taken, finishing'⟩ | ⟨free, rfl, returns⟩
          · refine ⟨some i, [], base, .has (some i) (effect s) (by simp [eq_comm]) taken, ?_⟩
            rw [BEq.rfl, List.append_nil]
            exact .works x rest _ _ a u listed ran finishing' rfl
          · refine ⟨none, [(x, a)], effect s, .gives x a (effect s) ran free, ?_⟩
            simp only [returns]
            exact stands_returned k call calls rest mine (effect s) (effect s) x a sectioned opens listed

-- The calls of thread `i` in a log of all the calls that have returned.
def callsOf (i : Nat) (log : List (Nat × γ × α)) : List (γ × α) :=
  (log.filter fun entry => entry.1 == i).map Prod.snd

@[simp] theorem calls_of_own (i : Nat) (log : List (Nat × γ × α)) (more : List (γ × α)) :
    callsOf i (log ++ more.map (Prod.mk i)) = callsOf i log ++ more := by
  have kept : (more.map (Prod.mk i)).filter (fun entry => entry.1 == i) = more.map (Prod.mk i) := by
    rw [List.filter_map, List.filter_eq_self.mpr]
    simp
  simp only [callsOf, List.filter_append, kept, List.map_append, List.map_map, List.append_cancel_left_eq]
  exact List.map_id more

theorem calls_of_other (i j : Nat) (log : List (Nat × γ × α)) (more : List (γ × α)) (other : j ≠ i) :
    callsOf j (log ++ more.map (Prod.mk i)) = callsOf j log := by
  simp [callsOf, List.filter_map, Function.comp_def, Ne.symm other]

variable (init : σ) (calls : List (List γ))

-- The calls that have returned, one after the other, come to `base`.
structure Serial (pool : Pool ℓ σ φ (List α)) (log : List (Nat × γ × α)) (base : σ) (owner : Option Nat) : Prop where
  history : History call (fun _ _ => True) init (log.map Prod.snd) base
  between : k.free base
  unowned : owner = none → pool.shared = base
  owned : ∀ i, owner = some i → k.taken pool.shared ∧ i < pool.threads.length
  known : ∀ entry ∈ log, entry.1 < pool.threads.length
  stands : ∀ (i : Nat) (thread : Thread ℓ σ φ (List α)), pool.threads[i]? = some thread →
    ∃ list, calls[i]? = some list ∧
      Stands k call list (callsOf i log) base pool.shared (owner == some i) thread.prog
  fresh : ∀ (i : Nat) (thread : Thread ℓ σ φ (List α)), pool.threads[i]? = some thread → thread.last = none →
    callsOf i log = []

theorem serial_start (initial : k.free init) (sectioned : ∀ list ∈ calls, ∀ x ∈ list, (call x).Sectioned k (call x).run)
    (opens : ∀ list ∈ calls, ∀ x ∈ list, ∀ a, call x ≠ .ret a) :
    Serial k call init calls (Pool.start init (calls.map (Prog.series call))) [] init none where
  history := .nil
  between := initial
  unowned := fun _ => rfl
  owned := fun i owner => by cases owner
  known := by simp
  stands := by
    intro i thread found
    obtain ⟨list, listed, rfl⟩ : ∃ list, calls[i]? = some list ∧ (⟨none, Prog.series call list⟩ : Thread ℓ σ φ _) = thread := by
      simpa [Pool.start] using found
    have member := List.mem_of_getElem? listed
    rw [Prog.series_tail]
    exact ⟨list, listed, stands_tail k call list list [] init init (sectioned list member) (opens list member) rfl⟩
  fresh := fun _ _ _ _ => rfl

theorem serial_moves_history (i : Nat) (base s base' t : σ) (owner owner' : Option Nat) (past more : List (γ × α))
    (moves : SerialMoves k call i base s owner owner' more base' t)
    (history : History call (fun _ _ => True) init past base) (between : k.free base) :
    History call (fun _ _ => True) init (past ++ more) base' ∧ k.free base' := by
  cases moves with
  | has _ _ alone taken => exact ⟨by simpa using history, between⟩
  | gives x a _ ran free => exact ⟨.snoc past base _ x a history trivial ran, free⟩
  | looks _ => exact ⟨by simpa using history, between⟩
  | answers _ x a ran => exact ⟨.snoc past base base x a history trivial ran, between⟩

theorem serial_moves_guards (i : Nat) (base s base' t : σ) (owner owner' : Option Nat) (more : List (γ × α))
    (moves : SerialMoves k call i base s owner owner' more base' t) (unowned : owner = none → s = base)
    (owned : ∀ j, owner = some j → k.taken s) :
    (owner' = none → t = base') ∧ ∀ j, owner' = some j → k.taken t ∧ (j = i ∨ owner = some j) := by
  cases moves with
  | has _ _ alone taken => exact ⟨by simp, fun j held => ⟨taken, .inl (Option.some.inj held).symm⟩⟩
  | gives x a _ ran free => exact ⟨fun _ => rfl, by simp⟩
  | looks _ => exact ⟨unowned, fun j held => ⟨owned j held, .inr held⟩⟩
  | answers _ x a ran => exact ⟨unowned, fun j held => ⟨owned j held, .inr held⟩⟩

theorem serial_moves_others (i j : Nat) (base s base' t : σ) (owner owner' : Option Nat) (more : List (γ × α))
    (list : List γ) (mine : List (γ × α)) (prog : Prog ℓ σ φ (List α))
    (moves : SerialMoves k call i base s owner owner' more base' t) (other : j ≠ i)
    (stands : Stands k call list mine base s (owner == some j) prog) :
    Stands k call list mine base' t (owner' == some j) prog := by
  cases moves with
  | has _ _ alone taken =>
      have outside : (owner == some j) = false := by simpa using alone j other
      have still : (some i == some j) = false := by simpa using Ne.symm other
      rw [outside] at stands
      rw [still]
      exact stands_elsewhere k call list mine base base s t prog stands
  | gives x a _ ran free =>
      have outside : (some i == some j) = false := by simpa using Ne.symm other
      rw [outside] at stands
      exact stands_elsewhere k call list mine base _ s _ prog stands
  | looks _ => exact stands
  | answers _ x a ran => exact stands

theorem serial_step (pool next : Pool ℓ σ φ (List α)) (log : List (Nat × γ × α)) (base : σ) (owner : Option Nat)
    (i : Nat) (sectioned : ∀ list ∈ calls, ∀ x ∈ list, (call x).Sectioned k (call x).run)
    (opens : ∀ list ∈ calls, ∀ x ∈ list, ∀ a, call x ≠ .ret a) (serial : Serial k call init calls pool log base owner)
    (stepped : pool.step i = some next) :
    ∃ more base' owner', Serial k call init calls next (log ++ more) base' owner' := by
  obtain ⟨thread, label, ready, effect, rest, takes⟩ := Pool.step_takes pool next i stepped
  obtain ⟨list, listed, stands⟩ := serial.stands i thread takes.found
  have present : i < pool.threads.length := (List.getElem?_eq_some_iff.mp takes.found).1
  have member := List.mem_of_getElem? listed
  have owned : ∀ j, owner = some j → k.taken pool.shared := fun j held => (serial.owned j held).1
  obtain ⟨owner', more, base', moves, stands'⟩ := stands_moves k call list (callsOf i log) base pool.shared i owner
    thread.prog label ready effect rest (sectioned list member) (opens list member) serial.between serial.unowned owned
    stands takes.prog takes.can
  rw [← takes.shared] at moves stands'
  obtain ⟨history, between⟩ := serial_moves_history k call init i base pool.shared base' next.shared owner owner'
    (log.map Prod.snd) more moves serial.history serial.between
  obtain ⟨unowned, guards⟩ := serial_moves_guards k call i base pool.shared base' next.shared owner owner' more moves
    serial.unowned owned
  have length := Pool.step_length pool next i stepped
  refine ⟨more.map (Prod.mk i), base', owner', by simpa using history, between, unowned, ?_, ?_, ?_, ?_⟩
  · intro j held
    obtain ⟨taken, who⟩ := guards j held
    refine ⟨taken, ?_⟩
    rw [length]
    cases who with
    | inl same => exact same ▸ present
    | inr held => exact (serial.owned j held).2
  · intro entry member
    rw [length]
    rcases List.mem_append.mp member with old | new
    · exact serial.known entry old
    · obtain ⟨-, -, rfl⟩ := List.mem_map.mp new
      exact present
  · intro j other found
    by_cases same : j = i
    · subst same
      rw [takes.moved] at found
      obtain rfl := Option.some.inj found
      exact ⟨list, listed, by simpa using stands'⟩
    · rw [takes.others j same] at found
      obtain ⟨theirs, listed', stands⟩ := serial.stands j other found
      refine ⟨theirs, listed', ?_⟩
      rw [calls_of_other i j log more same]
      exact serial_moves_others k call i j _ _ _ _ owner owner' more theirs _ other.prog moves same stands
  · intro j other found still
    by_cases same : j = i
    · subst same
      rw [takes.moved] at found
      obtain rfl := Option.some.inj found
      cases still
    · rw [takes.others j same] at found
      rw [calls_of_other i j log more same]
      exact serial.fresh j other found still

theorem serial_run (admits : Pool ℓ σ φ (List α) → Nat → Prop) (pool last : Pool ℓ σ φ (List α))
    (schedule : List Nat) (log : List (Nat × γ × α))
    (sectioned : ∀ list ∈ calls, ∀ x ∈ list, (call x).Sectioned k (call x).run)
    (opens : ∀ list ∈ calls, ∀ x ∈ list, ∀ a, call x ≠ .ret a) (ran : Pool.Run admits pool schedule last)
    (serial : ∃ base owner, Serial k call init calls pool log base owner) :
    ∃ more base owner, Serial k call init calls last (log ++ more) base owner := by
  apply Pool.run_invariant admits (fun pool => ∃ more base owner, Serial k call init calls pool (log ++ more) base owner)
    _ pool last schedule ran
  · obtain ⟨base, owner, serial⟩ := serial
    exact ⟨[], base, owner, by simpa using serial⟩
  · rintro now next i ⟨more, base, owner, serial⟩ - stepped
    obtain ⟨further, base', owner', serial'⟩ := serial_step k call init calls now next (log ++ more) base owner i
      sectioned opens serial stepped
    exact ⟨more ++ further, base', owner', by simpa using serial'⟩

-- What a log tells of the threads: the calls of each in its own order, none of a
-- thread that has not begun, and all of one that has returned, with its results.
structure Accounts (pool : Pool ℓ σ φ (List α)) (log : List (Nat × γ × α)) : Prop where
  known : ∀ entry ∈ log, entry.1 < pool.threads.length
  ordered : ∀ (i : Nat) (thread : Thread ℓ σ φ (List α)), pool.threads[i]? = some thread →
    ∃ list, calls[i]? = some list ∧ (callsOf i log).map Prod.fst <+: list
  fresh : ∀ (i : Nat) (thread : Thread ℓ σ φ (List α)), pool.threads[i]? = some thread → thread.last = none →
    callsOf i log = []
  returned : ∀ (i : Nat) (results : List α), pool.threads[i]?.bind Thread.value = some results →
    calls[i]? = some ((callsOf i log).map Prod.fst) ∧ results = (callsOf i log).map Prod.snd
  faultless : ∀ i : Nat, pool.threads[i]?.bind Thread.fault = none

theorem accounts_member (pool : Pool ℓ σ φ (List α)) (log : List (Nat × γ × α)) (accounts : Accounts calls pool log)
    (entry : Nat × γ × α) (member : entry ∈ log) : ∃ list ∈ calls, entry.2.1 ∈ list := by
  obtain ⟨thread, found⟩ : ∃ thread, pool.threads[entry.1]? = some thread :=
    ⟨_, List.getElem?_eq_getElem (accounts.known entry member)⟩
  obtain ⟨list, listed, ordered⟩ := accounts.ordered entry.1 thread found
  have made : entry.2 ∈ callsOf entry.1 log := List.mem_map.mpr ⟨entry, by simp [member], rfl⟩
  exact ⟨list, List.mem_of_getElem? listed, ordered.subset (List.mem_map.mpr ⟨entry.2, made, rfl⟩)⟩

section Stands

variable (list : List γ) (mine : List (γ × α)) (base s : σ) (inside : Bool) (prog : Prog ℓ σ φ (List α))

theorem stands_prefix (stands : Stands k call list mine base s inside prog) : mine.map Prod.fst <+: list := by
  cases stands with
  | ended all => exact ⟨[], by simp [all]⟩
  | waits x rest p _ listed going sectioned left => exact ⟨x :: rest, listed.symm⟩
  | works x rest p _ a u listed ran finishing left => exact ⟨x :: rest, listed.symm⟩

-- A thread that has not ended has an action to take, and can when it has the lock
-- or the lock is free.
theorem stands_next (between : k.free base) (stands : Stands k call list mine base s inside prog) :
    inside = false ∧ list = mine.map Prod.fst ∧ prog = .ret (mine.map Prod.snd) ∨
      ∃ label ready effect next, prog = .act label ready effect next ∧
        (inside = true ∨ s = base → ready s = true) := by
  cases stands with
  | ended all => exact .inl ⟨rfl, all, rfl⟩
  | waits x rest p _ listed going sectioned left =>
      cases p with
      | ret a => exact absurd rfl (going a)
      | crash f => cases sectioned
      | act label ready effect next =>
          refine .inr ⟨label, ready, effect, _, left.trans (Prog.act_then _ _ _ _ _), fun here => ?_⟩
          rcases here with inside | rfl
          · cases inside
          · exact ((sectioned s).1 between).1
  | works x rest p _ a u listed ran finishing left =>
      cases p with
      | ret b => cases finishing
      | crash f => cases finishing
      | act label ready effect next =>
          exact .inr ⟨label, ready, effect, _, left.trans (Prog.act_then _ _ _ _ _), fun _ => finishing.1⟩

end Stands

variable (pool : Pool ℓ σ φ (List α)) (log : List (Nat × γ × α)) (base : σ) (owner : Option Nat)

theorem serial_accounts (serial : Serial k call init calls pool log base owner) : Accounts calls pool log where
  known := serial.known
  ordered := by
    intro i thread found
    obtain ⟨list, listed, stands⟩ := serial.stands i thread found
    exact ⟨list, listed, stands_prefix k call list _ base pool.shared _ thread.prog stands⟩
  fresh := serial.fresh
  returned := by
    intro i results returned
    obtain ⟨thread, found, value⟩ := Option.bind_eq_some_iff.mp returned
    obtain ⟨list, listed, stands⟩ := serial.stands i thread found
    rcases stands_next k call list _ base pool.shared _ thread.prog serial.between stands with
      ⟨-, all, ended⟩ | ⟨label, ready, effect, next, acts, -⟩
    · rw [Thread.value, ended] at value
      exact ⟨all ▸ listed, (Option.some.inj value).symm⟩
    · rw [Thread.value, acts] at value
      cases value
  faultless := by
    intro i
    cases found : pool.threads[i]? with
    | none => rfl
    | some thread =>
        obtain ⟨list, -, stands⟩ := serial.stands i thread found
        rcases stands_next k call list _ base pool.shared _ thread.prog serial.between stands with
          ⟨-, -, ended⟩ | ⟨label, ready, effect, next, acts, -⟩
        · simp [Thread.fault, ended]
        · simp [Thread.fault, acts]

-- A thread that can go on: the one with the lock, or any that has not ended.
theorem serial_progress (serial : Serial k call init calls pool log base owner) :
    pool.finished = true ∨ ∃ i next, pool.step i = some next := by
  by_cases finished : pool.finished = true
  · exact .inl finished
  right
  obtain ⟨i, thread, found, going⟩ := Pool.someone_to_go pool owner (fun i held => (serial.owned i held).2) finished
  obtain ⟨list, -, stands⟩ := serial.stands i thread found
  rcases stands_next k call list _ base pool.shared _ thread.prog serial.between stands with
    ⟨outside, -, ended⟩ | ⟨label, ready, effect, next, acts, can⟩
  · rcases going with rfl | ⟨-, going⟩
    · simp at outside
    · simp [Thread.value, ended] at going
  · refine ⟨i, Pool.step_of_ready pool i thread label ready effect next found acts (can ?_)⟩
    rcases going with rfl | ⟨unowned, -⟩
    · exact .inl BEq.rfl
    · exact .inr (serial.unowned unowned)

theorem serial_finished (serial : Serial k call init calls pool log base owner) (finished : pool.finished = true) :
    pool.shared = base := by
  apply serial.unowned
  cases owner with
  | none => rfl
  | some i =>
      obtain ⟨thread, found⟩ : ∃ thread, pool.threads[i]? = some thread :=
        ⟨_, List.getElem?_eq_getElem (serial.owned i rfl).2⟩
      obtain ⟨list, -, stands⟩ := serial.stands i thread found
      have ended := List.all_eq_true.mp finished thread (List.mem_of_getElem? found)
      rcases stands_next k call list _ base pool.shared _ thread.prog serial.between stands with
        ⟨outside, -, -⟩ | ⟨label, ready, effect, next, acts, -⟩
      · simp at outside
      · simp [Thread.value, acts] at ended

theorem serial_finishes (sectioned : ∀ list ∈ calls, ∀ x ∈ list, (call x).Sectioned k (call x).run)
    (opens : ∀ list ∈ calls, ∀ x ∈ list, ∀ a, call x ≠ .ret a)
    (serial : Serial k call init calls pool log base owner) :
    ∃ schedule last, pool.exec schedule = some last ∧ last.finished = true := by
  apply Pool.finishes (fun now => ∃ log base owner, Serial k call init calls now log base owner) _ _ pool
    ⟨log, base, owner, serial⟩
  · rintro now next i ⟨log, base, owner, serial⟩ stepped
    obtain ⟨more, base', owner', serial'⟩ := serial_step k call init calls now next log base owner i sectioned opens
      serial stepped
    exact ⟨log ++ more, base', owner', serial'⟩
  · rintro now ⟨log, base, owner, serial⟩
    exact serial_progress k call init calls now log base owner serial

end Serial

end OneDriver
