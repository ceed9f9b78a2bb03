import OneDriver.Prog

set_option autoImplicit false

namespace OneDriver

-- A thread remembers the last action it took, which is where it stands in its
-- program; what remains of the program is the rest of its tree.
structure Thread (ℓ σ φ α : Type) where
  last : Option ℓ
  prog : Prog ℓ σ φ α

structure Pool (ℓ σ φ α : Type) where
  shared : σ
  threads : List (Thread ℓ σ φ α)

variable {ℓ σ φ α : Type}

def Thread.step (thread : Thread ℓ σ φ α) (s : σ) : Option (Thread ℓ σ φ α × σ) :=
  match thread.prog with
  | .act label ready effect next => if ready s then some (⟨some label, next s⟩, effect s) else none
  | _ => none

def Thread.value (thread : Thread ℓ σ φ α) : Option α :=
  match thread.prog with
  | .ret a => some a
  | _ => none

def Thread.fault (thread : Thread ℓ σ φ α) : Option φ :=
  match thread.prog with
  | .crash f => some f
  | _ => none

def Thread.upcoming (thread : Thread ℓ σ φ α) : Option ℓ :=
  match thread.prog with
  | .act label _ _ _ => some label
  | _ => none

namespace Pool

def start (s : σ) (progs : List (Prog ℓ σ φ α)) : Pool ℓ σ φ α := ⟨s, progs.map fun p => ⟨none, p⟩⟩

def step (pool : Pool ℓ σ φ α) (i : Nat) : Option (Pool ℓ σ φ α) :=
  match pool.threads[i]? with
  | none => none
  | some thread => (thread.step pool.shared).map fun r => ⟨r.2, pool.threads.set i r.1⟩

def exec (pool : Pool ℓ σ φ α) : List Nat → Option (Pool ℓ σ φ α)
  | [] => some pool
  | i :: rest => (pool.step i).bind fun next => next.exec rest

def finished (pool : Pool ℓ σ φ α) : Bool := pool.threads.all fun thread => thread.value.isSome

-- A run whose every step is taken in a pool that admits it.
inductive Run (admits : Pool ℓ σ φ α → Nat → Prop) : Pool ℓ σ φ α → List Nat → Pool ℓ σ φ α → Prop where
  | nil (pool : Pool ℓ σ φ α) : Run admits pool [] pool
  | cons (pool next last : Pool ℓ σ φ α) (i : Nat) (rest : List Nat) (admitted : admits pool i)
      (stepped : pool.step i = some next) (continued : Run admits next rest last) :
      Run admits pool (i :: rest) last

theorem step_some_iff (pool next : Pool ℓ σ φ α) (i : Nat) :
    pool.step i = some next ↔ ∃ thread moved s, pool.threads[i]? = some thread ∧
      thread.step pool.shared = some (moved, s) ∧ next = ⟨s, pool.threads.set i moved⟩ := by
  cases found : pool.threads[i]? with
  | none => simp [step, found]
  | some thread =>
      simp only [step, found, Option.map_eq_some_iff, Prod.exists, Option.some.injEq, exists_and_left,
        exists_eq_left']
      exact exists_congr fun moved => exists_congr fun s => and_congr_right fun _ => eq_comm

theorem thread_step_some_iff (thread moved : Thread ℓ σ φ α) (s t : σ) :
    thread.step s = some (moved, t) ↔ ∃ label ready effect next, thread.prog = .act label ready effect next ∧
      ready s = true ∧ moved = ⟨some label, next s⟩ ∧ t = effect s := by
  obtain ⟨last, prog⟩ := thread
  cases prog with
  | ret a => simp [Thread.step]
  | crash f => simp [Thread.step]
  | act label ready effect next =>
      constructor
      · intro stepped
        by_cases can : ready s = true
        · simp only [Thread.step, can, if_true, Option.some.injEq, Prod.mk.injEq] at stepped
          exact ⟨label, ready, effect, next, rfl, can, stepped.1.symm, stepped.2.symm⟩
        · simp [Thread.step, can] at stepped
      · rintro ⟨_, _, _, _, same, can, rfl, rfl⟩
        cases same
        simp [Thread.step, can]

theorem step_length (pool next : Pool ℓ σ φ α) (i : Nat) (stepped : pool.step i = some next) :
    next.threads.length = pool.threads.length := by
  obtain ⟨thread, moved, s, -, -, rfl⟩ := (step_some_iff pool next i).mp stepped
  exact List.length_set

theorem run_invariant (admits : Pool ℓ σ φ α → Nat → Prop) (invariant : Pool ℓ σ φ α → Prop)
    (preserved : ∀ pool next i, invariant pool → admits pool i → pool.step i = some next → invariant next)
    (pool last : Pool ℓ σ φ α) (schedule : List Nat) (ran : Run admits pool schedule last)
    (initial : invariant pool) : invariant last := by
  induction ran with
  | nil => exact initial
  | cons pool next last i rest admitted stepped _ ih => exact ih (preserved pool next i initial admitted stepped)

theorem run_length (admits : Pool ℓ σ φ α → Nat → Prop) (pool last : Pool ℓ σ φ α) (schedule : List Nat)
    (ran : Run admits pool schedule last) : last.threads.length = pool.threads.length :=
  run_invariant admits (fun next => next.threads.length = pool.threads.length)
    (fun now next i same _ stepped => (step_length now next i stepped).trans same) pool last schedule ran rfl

theorem exec_run (pool last : Pool ℓ σ φ α) (schedule : List Nat) (ran : pool.exec schedule = some last) :
    Run (fun _ _ => True) pool schedule last := by
  induction schedule generalizing pool with
  | nil => exact Option.some.inj ran ▸ .nil pool
  | cons i rest ih =>
      obtain ⟨next, stepped, continued⟩ := Option.bind_eq_some_iff.mp ran
      exact .cons pool next last i rest trivial stepped (ih next continued)

-- The run of a schedule, if every step of it is admitted.
def runs (admits : Pool ℓ σ φ α → Nat → Prop) [∀ pool i, Decidable (admits pool i)] (pool : Pool ℓ σ φ α) :
    List Nat → Option (Pool ℓ σ φ α)
  | [] => some pool
  | i :: rest => if admits pool i then (pool.step i).bind fun next => next.runs admits rest else none

theorem runs_run (admits : Pool ℓ σ φ α → Nat → Prop) [∀ pool i, Decidable (admits pool i)]
    (pool last : Pool ℓ σ φ α) (schedule : List Nat) (ran : pool.runs admits schedule = some last) :
    Run admits pool schedule last := by
  induction schedule generalizing pool with
  | nil => exact Option.some.inj ran ▸ .nil pool
  | cons i rest ih =>
      by_cases admitted : admits pool i
      · simp only [runs, if_pos admitted] at ran
        obtain ⟨next, stepped, continued⟩ := Option.bind_eq_some_iff.mp ran
        exact .cons pool next last i rest admitted stepped (ih next continued)
      · simp [runs, admitted] at ran

end Pool

end OneDriver
