import OneDriver.Prog

set_option autoImplicit false

namespace OneDriver

variable {ℓ σ φ α β : Type}

-- The states a run passes through, one after each action of the chosen kind.
def Prog.trail (kind : ℓ → Bool) : Prog ℓ σ φ α → σ → List σ
  | .ret _, _ => []
  | .crash _, _ => []
  | .act label ready effect next, s =>
      if ready s then
        if kind label then effect s :: (next s).trail kind (effect s) else (next s).trail kind (effect s)
      else []

-- What comes after a run that has ended.
def Outcome.onward : Outcome σ φ α → (α → σ → List σ) → List σ
  | .done a s, k => k a s
  | .crashed _ _, _ => []
  | .blocked _, _ => []

@[simp] theorem outcome_onward_done (a : α) (s : σ) (k : α → σ → List σ) :
    (Outcome.done a s : Outcome σ φ α).onward k = k a s := rfl

@[simp] theorem trail_pure (kind : ℓ → Bool) (a : α) (s : σ) : (pure a : Prog ℓ σ φ α).trail kind s = [] := rfl

@[simp] theorem trail_look (kind : ℓ → Bool) (label : ℓ) (get : σ → β) (s : σ) :
    (Prog.look label get : Prog ℓ σ φ β).trail kind s = if kind label then [s] else [] := rfl

@[simp] theorem trail_modify (kind : ℓ → Bool) (label : ℓ) (set : σ → σ) (s : σ) :
    (Prog.modify label set : Prog ℓ σ φ Unit).trail kind s = if kind label then [set s] else [] := rfl

theorem trail_bind (kind : ℓ → Bool) (p : Prog ℓ σ φ α) (k : α → Prog ℓ σ φ β) (s : σ) :
    (p >>= k).trail kind s = p.trail kind s ++ (p.run s).onward fun a t => (k a).trail kind t := by
  change (p.bind k).trail kind s = _
  induction p generalizing s with
  | ret a => rfl
  | crash f => rfl
  | act label ready effect next ih =>
      by_cases can : ready s = true
      · by_cases chosen : kind label = true
        · simp [Prog.bind, Prog.trail, Prog.run, can, chosen, ih s (effect s)]
        · simp [Prog.bind, Prog.trail, Prog.run, can, chosen, ih s (effect s)]
      · simp [Prog.bind, Prog.trail, Prog.run, can, Outcome.onward]

namespace Prog

-- A way the program may return, whatever becomes of the state between its
-- actions: the last of them finds `s` and leaves `t`.
inductive Ends : Prog ℓ σ φ α → σ → σ → α → Prop where
  | last (label : ℓ) (ready : σ → Bool) (effect : σ → σ) (next : σ → Prog ℓ σ φ α) (s : σ) (a : α)
      (can : ready s = true) (returns : next s = .ret a) : Ends (.act label ready effect next) s (effect s) a
  | more (label : ℓ) (ready : σ → Bool) (effect : σ → σ) (next : σ → Prog ℓ σ φ α) (found s t : σ) (a : α)
      (can : ready found = true) (later : Ends (next found) s t a) : Ends (.act label ready effect next) s t a

theorem bind_returns (p : Prog ℓ σ φ α) (k : α → Prog ℓ σ φ β) (b : β) (returns : p.bind k = .ret b) :
    ∃ a, k a = .ret b := by
  cases p with
  | ret a => exact ⟨a, returns⟩
  | crash f => cases returns
  | act label ready effect next => cases returns

-- Where what follows always acts, the last action is one of what follows.
theorem ends_bind (p : Prog ℓ σ φ α) (k : α → Prog ℓ σ φ β) (s t : σ) (b : β) (ends : (p >>= k).Ends s t b)
    (acts : ∀ a c, k a ≠ .ret c) : ∃ a, (k a).Ends s t b := by
  change (p.bind k).Ends s t b at ends
  induction p with
  | ret a => exact ⟨a, ends⟩
  | crash f => cases ends
  | act label ready effect next ih =>
      cases ends with
      | last _ _ _ _ _ _ can returns =>
          obtain ⟨a, late⟩ := bind_returns (next s) k b returns
          exact absurd late (acts a b)
      | more _ _ _ _ found _ _ _ can later => exact ih found later

theorem ends_modify (label : ℓ) (set : σ → σ) (a b : α) (s t : σ)
    (ends : (modify label set >>= fun _ => (pure a : Prog ℓ σ φ α)).Ends s t b) : t = set s ∧ b = a := by
  cases ends with
  | last _ _ _ _ _ _ can returns =>
      cases returns
      exact ⟨rfl, rfl⟩
  | more _ _ _ _ found _ _ _ can later => cases later

end Prog

end OneDriver
