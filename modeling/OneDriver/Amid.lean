import OneDriver.Prog

set_option autoImplicit false

namespace OneDriver

variable {ℓ σ φ α β : Type}

-- A world that moves on by itself: its moves, in order.
def moved (moves : List (σ → σ)) (s : σ) : σ := moves.foldl (fun t move => move t) s

@[simp] theorem moved_nil (s : σ) : moved [] s = s := rfl

@[simp] theorem moved_cons (move : σ → σ) (moves : List (σ → σ)) (s : σ) :
    moved (move :: moves) s = moved moves (move s) := rfl

theorem moved_append (first second : List (σ → σ)) (s : σ) : moved (first ++ second) s = moved second (moved first s) :=
  List.foldl_append

namespace Prog

-- A run in such a world. The schedule lists what moves before each action, and
-- what is left of it comes before the program returns.
def runAmid : Prog ℓ σ φ α → List (List (σ → σ)) → σ → Outcome σ φ α
  | .ret a, schedule, s => .done a (moved schedule.flatten s)
  | .crash f, _, s => .crashed f s
  | .act _ ready effect next, schedule, s =>
      let t := moved (schedule.headD []) s
      if ready t then (next t).runAmid schedule.tail (effect t) else .blocked t

@[simp] theorem amid_pure (a : α) (schedule : List (List (σ → σ))) (s : σ) :
    (pure a : Prog ℓ σ φ α).runAmid schedule s = .done a (moved schedule.flatten s) := rfl

@[simp] theorem amid_look (label : ℓ) (get : σ → β) (k : β → Prog ℓ σ φ α) (schedule : List (List (σ → σ))) (s : σ) :
    (look label get >>= k).runAmid schedule s =
      (k (get (moved (schedule.headD []) s))).runAmid schedule.tail (moved (schedule.headD []) s) := rfl

@[simp] theorem amid_modify (label : ℓ) (set : σ → σ) (k : Unit → Prog ℓ σ φ α) (schedule : List (List (σ → σ)))
    (s : σ) : (modify label set >>= k).runAmid schedule s =
      (k ()).runAmid schedule.tail (set (moved (schedule.headD []) s)) := rfl

theorem amid_nothing (p : Prog ℓ σ φ α) (s : σ) : p.runAmid [] s = p.run s := by
  induction p generalizing s with
  | ret a => rfl
  | crash f => rfl
  | act label ready effect next ih =>
      by_cases can : ready s = true
      · simp [runAmid, run, can, ih]
      · simp [runAmid, run, can]

def updates : List (ℓ × (σ → σ)) → Prog ℓ σ φ Unit
  | [] => pure ()
  | update :: rest => do
      modify update.1 update.2
      updates rest

theorem run_updates (list : List (ℓ × (σ → σ))) (s : σ) :
    (updates list : Prog ℓ σ φ Unit).run s = .done () (moved (list.map Prod.snd) s) := by
  induction list generalizing s with
  | nil => rfl
  | cons update rest ih => exact ih (update.2 s)

-- One move of the world, in the gap before update `n`: it finds the first `n`
-- updates made and the others still to come.
theorem amid_updates (list : List (ℓ × (σ → σ))) (n : Nat) (move : σ → σ) (a : α) (s : σ) :
    (updates list >>= fun _ => (pure a : Prog ℓ σ φ α)).runAmid (List.replicate n [] ++ [[move]]) s =
      .done a (moved ((list.drop n).map Prod.snd) (move (moved ((list.take n).map Prod.snd) s))) := by
  induction list generalizing n s with
  | nil => simp [updates, pure_then]
  | cons update rest ih =>
      cases n with
      | zero =>
          change ((updates rest >>= fun _ => (pure a : Prog ℓ σ φ α)).runAmid [] (update.2 (move s))) = _
          rw [amid_nothing, run_bind, run_updates]
          rfl
      | succ n => exact ih n (update.2 s)

end Prog

-- The state after the first `n` gaps of a schedule, where only the world acts.
def after (schedule : List (List (σ → σ))) (n : Nat) (s : σ) : σ := moved (schedule.take n).flatten s

theorem after_zero (schedule : List (List (σ → σ))) (s : σ) : after schedule 0 s = s := rfl

theorem after_succ (schedule : List (List (σ → σ))) (n : Nat) (s : σ) :
    after schedule (n + 1) s = moved ((schedule.drop n).headD []) (after schedule n s) := by
  rw [after, List.take_add_one, List.flatten_append, moved_append, ← after]
  cases found : schedule[n]? with
  | none => simp [found]
  | some gap => simp [found]

theorem after_add (schedule : List (List (σ → σ))) (m n : Nat) (s : σ) :
    after schedule (m + n) s = moved ((schedule.drop m).take n).flatten (after schedule m s) := by
  simp only [after, List.take_add, List.flatten_append, moved_append]

-- Each such state is one the world passes through on its own.
theorem after_is_moved (schedule : List (List (σ → σ))) (n : Nat) (s : σ) :
    ∃ m, m ≤ schedule.flatten.length ∧ after schedule n s = moved (schedule.flatten.take m) s := by
  have split : schedule.flatten = (schedule.take n).flatten ++ (schedule.drop n).flatten := by
    rw [← List.flatten_append, List.take_append_drop]
  refine ⟨(schedule.take n).flatten.length, ?_, ?_⟩
  · rw [split, List.length_append]
    exact Nat.le_add_right _ _
  · rw [split, List.take_left, after]

end OneDriver
