import OneDriver.Guarantee

set_option autoImplicit false

namespace OneDriver

-- A part of a larger state.
structure Part (σ τ : Type) where
  get : σ → τ
  set : τ → σ → σ
  get_set : ∀ t s, get (set t s) = t
  set_get : ∀ s, set (get s) s = s
  set_set : ∀ t u s, set u (set t s) = set u s

variable {ℓ κ σ τ φ ψ α β : Type}

def Outcome.within (part : Part σ τ) (inject : φ → ψ) (s : σ) : Outcome τ φ α → Outcome σ ψ α
  | .done a t => .done a (part.set t s)
  | .crashed f t => .crashed (inject f) (part.set t s)
  | .blocked t => .blocked (part.set t s)

namespace Prog

-- A program on the part, run on the whole, where some of its actions need more
-- than the part to be there.
def within (part : Part σ τ) (name : ℓ → κ) (inject : φ → ψ) (check : ℓ → σ → Option ψ) : Prog ℓ τ φ α → Prog κ σ ψ α
  | .ret a => .ret a
  | .crash f => .crash (inject f)
  | .act label ready effect next =>
      .act (name label) (fun s => (check label s).isSome || ready (part.get s))
        (fun s => match check label s with
          | some _ => s
          | none => part.set (effect (part.get s)) s)
        (fun s => match check label s with
          | some f => .crash f
          | none => (next (part.get s)).within part name inject check)

variable (part : Part σ τ) (name : ℓ → κ) (inject : φ → ψ) (check : ℓ → σ → Option ψ)

theorem run_within (p : Prog ℓ τ φ α) (s : σ) (apart : ∀ label t u, check label (part.set t u) = check label u)
    (passes : ∀ label, check label s = none) :
    (p.within part name inject check).run s = (p.run (part.get s)).within part inject s := by
  induction p generalizing s with
  | ret a => simp [within, run, Outcome.within, part.set_get]
  | crash f => simp [within, run, Outcome.within, part.set_get]
  | act label ready effect next ih =>
      simp only [within, run, passes, Option.isSome_none, Bool.false_or]
      by_cases can : ready (part.get s) = true
      · have later := ih (part.get s) (part.set (effect (part.get s)) s) fun other => by rw [apart, passes]
        simp only [can, if_true, later, part.get_set]
        cases (next (part.get s)).run (effect (part.get s)) <;> simp [Outcome.within, part.set_set]
      · simp [can, Outcome.within, part.set_get]

-- Under an assertion that has all it needs and that no change of the part ends,
-- the program keeps to the contract.
theorem meets_within (c : Contract κ σ ψ) (p : Prog ℓ τ φ α) (pre : σ → Prop) (s : σ) (stable : c.Stable pre)
    (holds : pre s) (tolerated : ∀ f, c.tolerates (inject f)) (passes : ∀ label t, pre t → check label t = none)
    (before : ∀ label t, pre t → c.before (name label) t) (kept : ∀ t u, pre u → pre (part.set t u))
    (given : ∀ t u, pre u → c.guarantee u (part.set t u)) :
    (p.within part name inject check).Meets c (fun _ => pre) s := by
  induction p generalizing s with
  | ret a => exact fun t moved => stable s t holds moved
  | crash f => exact tolerated f
  | act label ready effect next ih =>
      intro t moved
      have here := stable s t holds moved
      refine ⟨before label t here, fun _ _ => ?_⟩
      simp only [passes label t here]
      exact ⟨given _ t here, ih (part.get t) (part.set (effect (part.get t)) t) (kept _ t here)⟩

-- The rule for a program on the part: what it meets there it meets on the whole,
-- where a frame of the rest is kept and its actions have all they need.
theorem meets_part (c : Contract κ σ ψ) (d : Contract ℓ τ φ) (frame : σ → Prop) (stable : c.Stable frame)
    (passes : ∀ label t, frame t → check label t = none)
    (relies : ∀ s t, frame s → c.rely s t → d.rely (part.get s) (part.get t))
    (tolerated : ∀ f, d.tolerates f → c.tolerates (inject f))
    (before : ∀ label t, frame t → d.before label (part.get t) → c.before (name label) t)
    (allows : ∀ label t, c.allows (name label) t → d.allows label (part.get t))
    (given : ∀ t u, frame t → d.guarantee (part.get t) u → c.guarantee t (part.set u t) ∧ frame (part.set u t))
    (p : Prog ℓ τ φ α) (post : α → τ → Prop) (s : σ) (holds : frame s) (meets : p.Meets d post (part.get s)) :
    (p.within part name inject check).Meets c (fun a t => frame t ∧ post a (part.get t)) s := by
  induction p generalizing s with
  | ret a => exact fun t moved => ⟨stable s t holds moved, meets (part.get t) (relies s t holds moved)⟩
  | crash f => exact tolerated f meets
  | act label ready effect next ih =>
      intro t moved
      have here := stable s t holds moved
      obtain ⟨first, acts⟩ := meets (part.get t) (relies s t holds moved)
      refine ⟨before label t here first, fun can allowed => ?_⟩
      have ready' : ready (part.get t) = true := by simpa [passes label t here] using can
      obtain ⟨gives, later⟩ := acts ready' (allows label t allowed)
      obtain ⟨gives', kept⟩ := given t (effect (part.get t)) here gives
      simp only [passes label t here]
      refine ⟨gives', ih (part.get t) _ kept ?_⟩
      rw [part.get_set]
      exact later

end Prog

end OneDriver
