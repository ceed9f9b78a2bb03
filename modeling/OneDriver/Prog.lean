import Mathlib.Tactic.Common

set_option autoImplicit false

namespace OneDriver

-- A program is the tree of the atomic actions it may take on a shared state.
-- Running it alone gives its sequential meaning; Pool interleaves several.
-- `crash` is an access the machine traps, and `ready` is what an action waits
-- for (a semaphore, a completion), so a program that cannot go on is blocked.
inductive Prog (ℓ σ φ α : Type) where
  | ret (value : α)
  | crash (fault : φ)
  | act (label : ℓ) (ready : σ → Bool) (effect : σ → σ) (next : σ → Prog ℓ σ φ α)

inductive Outcome (σ φ α : Type) where
  | done (value : α) (state : σ)
  | crashed (fault : φ) (state : σ)
  | blocked (state : σ)
deriving DecidableEq, Repr

variable {ℓ σ φ α β γ : Type}

def Outcome.bind : Outcome σ φ α → (α → σ → Outcome σ φ β) → Outcome σ φ β
  | .done a s, k => k a s
  | .crashed f s, _ => .crashed f s
  | .blocked s, _ => .blocked s

@[simp] theorem outcome_bind_done (a : α) (s : σ) (k : α → σ → Outcome σ φ β) :
    (Outcome.done a s).bind k = k a s := by
  simp only [Outcome.bind]

@[simp] theorem outcome_bind_crashed (f : φ) (s : σ) (k : α → σ → Outcome σ φ β) :
    (Outcome.crashed f s).bind k = .crashed f s := rfl

@[simp] theorem outcome_bind_blocked (s : σ) (k : α → σ → Outcome σ φ β) :
    (Outcome.blocked s).bind k = .blocked s := rfl

def Outcome.state : Outcome σ φ α → σ
  | .done _ s => s
  | .crashed _ s => s
  | .blocked s => s

namespace Prog

def bind : Prog ℓ σ φ α → (α → Prog ℓ σ φ β) → Prog ℓ σ φ β
  | .ret a, k => k a
  | .crash f, _ => .crash f
  | .act label ready effect next, k => .act label ready effect (fun s => (next s).bind k)

instance : Monad (Prog ℓ σ φ) where
  pure := .ret
  bind := Prog.bind

theorem pure_then (a : α) (k : α → Prog ℓ σ φ β) : (pure a >>= k) = k a := rfl

theorem then_then (p : Prog ℓ σ φ α) (k : α → Prog ℓ σ φ β) (m : β → Prog ℓ σ φ γ) :
    (p >>= k >>= m) = p >>= fun a => k a >>= m := by
  change (p.bind k).bind m = p.bind fun a => (k a).bind m
  induction p with
  | ret a => rfl
  | crash f => rfl
  | act label ready effect next ih => simp [Prog.bind, ih]

-- The effect and the continuation both read the state the action found.
def run : Prog ℓ σ φ α → σ → Outcome σ φ α
  | .ret a, s => .done a s
  | .crash f, s => .crashed f s
  | .act _ ready effect next, s => if ready s then (next s).run (effect s) else .blocked s

def look (label : ℓ) (get : σ → β) : Prog ℓ σ φ β :=
  .act label (fun _ => true) id (fun s => .ret (get s))

def modify (label : ℓ) (set : σ → σ) : Prog ℓ σ φ Unit :=
  .act label (fun _ => true) set (fun _ => .ret ())

def await (label : ℓ) (ready : σ → Bool) (set : σ → σ) : Prog ℓ σ φ Unit :=
  .act label ready set (fun _ => .ret ())

-- An access that may be refused: the state is then left as it was found.
def access (label : ℓ) (touch : σ → Except φ (α × σ)) : Prog ℓ σ φ α :=
  .act label (fun _ => true)
    (fun s => match touch s with
      | .ok r => r.2
      | .error _ => s)
    (fun s => match touch s with
      | .ok r => .ret r.1
      | .error f => .crash f)

-- A section no other program can enter or observe: one action, ready when the
-- section can run to its end.
def atomic (label : ℓ) (p : Prog ℓ σ φ α) : Prog ℓ σ φ α :=
  .act label
    (fun s => match p.run s with
      | .blocked _ => false
      | _ => true)
    (fun s => (p.run s).state)
    (fun s => match p.run s with
      | .done a _ => .ret a
      | .crashed f _ => .crash f
      | .blocked _ => p)

@[simp] theorem run_pure (a : α) (s : σ) : (pure a : Prog ℓ σ φ α).run s = .done a s := rfl

@[simp] theorem run_crash (f : φ) (s : σ) : (Prog.crash f : Prog ℓ σ φ α).run s = .crashed f s := rfl

@[simp] theorem run_bind (p : Prog ℓ σ φ α) (k : α → Prog ℓ σ φ β) (s : σ) :
    (p >>= k).run s = (p.run s).bind fun a t => (k a).run t := by
  change (p.bind k).run s = _
  induction p generalizing s with
  | ret a => rfl
  | crash f => rfl
  | act label ready effect next ih =>
      by_cases can : ready s = true
      · simp only [Prog.bind, run, can, if_true]
        exact ih s (effect s)
      · simp [Prog.bind, run, can]

@[simp] theorem run_look (label : ℓ) (get : σ → β) (s : σ) :
    (look label get : Prog ℓ σ φ β).run s = .done (get s) s := rfl

@[simp] theorem run_modify (label : ℓ) (set : σ → σ) (s : σ) :
    (modify label set : Prog ℓ σ φ Unit).run s = .done () (set s) := rfl

theorem run_await (label : ℓ) (ready : σ → Bool) (set : σ → σ) (s : σ) :
    (await label ready set : Prog ℓ σ φ Unit).run s =
      if ready s then .done () (set s) else .blocked s := rfl

theorem run_bind_done {p : Prog ℓ σ φ α} {k : α → Prog ℓ σ φ β} {s u : σ} {b : β}
    (ran : (p >>= k).run s = .done b u) : ∃ a t, p.run s = .done a t ∧ (k a).run t = .done b u := by
  rw [run_bind] at ran
  cases first : p.run s with
  | done a t => exact ⟨a, t, rfl, by simpa [first] using ran⟩
  | crashed f t => simp [first] at ran
  | blocked t => simp [first] at ran

theorem run_unique {p : Prog ℓ σ φ α} {s t u : σ} {a b : α} (ran : p.run s = .done a t) (again : p.run s = .done b u) :
    a = b ∧ t = u := by
  rw [ran, Outcome.done.injEq] at again
  exact again

theorem run_exists_iff (p : Prog ℓ σ φ α) (s t : σ) (a : α) (post : α → σ → Prop) (ran : p.run s = .done a t) :
    (∃ b u, p.run s = .done b u ∧ post b u) ↔ post a t := by
  constructor
  · intro law
    obtain ⟨b, u, again, holds⟩ := law
    obtain ⟨rfl, rfl⟩ := run_unique ran again
    exact holds
  · exact fun holds => ⟨a, t, ran, holds⟩

theorem run_forall_iff (p : Prog ℓ σ φ α) (s t : σ) (a : α) (post : α → σ → Prop) (ran : p.run s = .done a t) :
    (∀ b u, p.run s = .done b u → post b u) ↔ post a t := by
  constructor
  · exact fun law => law a t ran
  · intro holds b u again
    obtain ⟨rfl, rfl⟩ := run_unique ran again
    exact holds

theorem run_access (label : ℓ) (touch : σ → Except φ (α × σ)) (s : σ) :
    (access label touch : Prog ℓ σ φ α).run s = match touch s with
      | .ok r => .done r.1 r.2
      | .error f => .crashed f s := by
  cases found : touch s <;> simp [access, run, found]

@[simp] theorem run_atomic (label : ℓ) (p : Prog ℓ σ φ α) (s : σ)
    (live : ∀ t, p.run s ≠ .blocked t) : (atomic label p).run s = p.run s := by
  cases ran : p.run s with
  | done a t => simp [atomic, run, ran, Outcome.state]
  | crashed f t => simp [atomic, run, ran, Outcome.state]
  | blocked t => exact absurd ran (live t)

theorem atomic_eq_modify (label : ℓ) (p : Prog ℓ σ φ Unit) (set : σ → σ) (runs : ∀ s, p.run s = .done () (set s)) :
    atomic label p = modify label set := by
  simp [atomic, modify, runs, Outcome.state]

-- Total correctness up to some faults: from `s` the program never waits, and it
-- ends with a value and a state in `post` or at a fault it is allowed.
def wpUpTo (tolerates : φ → Prop) : Prog ℓ σ φ α → (α → σ → Prop) → σ → Prop
  | .ret a, post, s => post a s
  | .crash f, _, _ => tolerates f
  | .act _ ready effect next, post, s => ready s = true ∧ (next s).wpUpTo tolerates post (effect s)

abbrev wp (p : Prog ℓ σ φ α) (post : α → σ → Prop) (s : σ) : Prop := p.wpUpTo (fun _ => False) post s

theorem wp_iff_run (p : Prog ℓ σ φ α) (post : α → σ → Prop) (s : σ) :
    p.wp post s ↔ ∃ a t, p.run s = .done a t ∧ post a t := by
  induction p generalizing s with
  | ret a => simp [wp, wpUpTo, run]
  | crash f => simp [wp, wpUpTo, run]
  | act label ready effect next ih =>
      by_cases can : ready s = true
      · simpa [wp, wpUpTo, run, can] using ih s (effect s)
      · simp [wp, wpUpTo, run, can]

theorem wp_of_run (tolerates : φ → Prop) (p : Prog ℓ σ φ α) (post : α → σ → Prop) (s t : σ) (a : α)
    (ran : p.run s = .done a t) (holds : post a t) : p.wpUpTo tolerates post s := by
  induction p generalizing s with
  | ret b => cases ran; exact holds
  | crash f => cases ran
  | act label ready effect next ih =>
      by_cases can : ready s = true
      · exact ⟨can, ih s (effect s) (by simpa [run, can] using ran)⟩
      · simp [run, can] at ran

theorem wp_of_crash (tolerates : φ → Prop) (p : Prog ℓ σ φ α) (post : α → σ → Prop) (s t : σ) (f : φ)
    (ran : p.run s = .crashed f t) (allowed : tolerates f) : p.wpUpTo tolerates post s := by
  induction p generalizing s with
  | ret b => cases ran
  | crash g => cases ran; exact allowed
  | act label ready effect next ih =>
      by_cases can : ready s = true
      · exact ⟨can, ih s (effect s) (by simpa [run, can] using ran)⟩
      · simp [run, can] at ran

theorem post_of_run (tolerates : φ → Prop) (p : Prog ℓ σ φ α) (post : α → σ → Prop) (s t : σ) (a : α)
    (holds : p.wpUpTo tolerates post s) (ran : p.run s = .done a t) : post a t := by
  induction p generalizing s with
  | ret b => cases ran; exact holds
  | crash f => cases ran
  | act label ready effect next ih => exact ih s (effect s) holds.2 (by simpa [run, holds.1] using ran)

section UpTo

variable (tolerates : φ → Prop)

@[simp] theorem wp_pure (a : α) (post : α → σ → Prop) (s : σ) :
    (pure a : Prog ℓ σ φ α).wpUpTo tolerates post s ↔ post a s := Iff.rfl

@[simp] theorem wp_bind (p : Prog ℓ σ φ α) (k : α → Prog ℓ σ φ β) (post : β → σ → Prop) (s : σ) :
    (p >>= k).wpUpTo tolerates post s ↔ p.wpUpTo tolerates (fun a t => (k a).wpUpTo tolerates post t) s := by
  change (p.bind k).wpUpTo tolerates post s ↔ _
  induction p generalizing s with
  | ret a => exact Iff.rfl
  | crash f => exact Iff.rfl
  | act label ready effect next ih => exact and_congr_right fun _ => ih s (effect s)

theorem wp_mono (p : Prog ℓ σ φ α) (post weaker : α → σ → Prop) (s : σ)
    (holds : p.wpUpTo tolerates post s) (weaken : ∀ a t, post a t → weaker a t) : p.wpUpTo tolerates weaker s := by
  induction p generalizing s with
  | ret a => exact weaken a s holds
  | crash f => exact holds
  | act label ready effect next ih => exact ⟨holds.1, ih s (effect s) holds.2⟩

theorem wp_tolerate (p : Prog ℓ σ φ α) (post : α → σ → Prop) (s : σ) (more : φ → Prop)
    (holds : p.wpUpTo tolerates post s) (wider : ∀ f, tolerates f → more f) : p.wpUpTo more post s := by
  induction p generalizing s with
  | ret a => exact holds
  | crash f => exact wider f holds
  | act label ready effect next ih => exact ⟨holds.1, ih s (effect s) holds.2⟩

@[simp] theorem wp_look (label : ℓ) (get : σ → β) (post : β → σ → Prop) (s : σ) :
    (look label get : Prog ℓ σ φ β).wpUpTo tolerates post s ↔ post (get s) s := by
  simp [look, wpUpTo]

@[simp] theorem wp_modify (label : ℓ) (set : σ → σ) (post : Unit → σ → Prop) (s : σ) :
    (modify label set : Prog ℓ σ φ Unit).wpUpTo tolerates post s ↔ post () (set s) := by
  simp [modify, wpUpTo]

@[simp] theorem wp_await (label : ℓ) (ready : σ → Bool) (set : σ → σ) (post : Unit → σ → Prop) (s : σ) :
    (await label ready set : Prog ℓ σ φ Unit).wpUpTo tolerates post s ↔ ready s = true ∧ post () (set s) := Iff.rfl

end UpTo

-- What each action of a run does, from the state it finds to the one it leaves.
def along (ok : ℓ → σ → σ → Prop) : Prog ℓ σ φ α → σ → Prop
  | .ret _, _ => True
  | .crash _, _ => True
  | .act label ready effect next, s => ready s = true → ok label s (effect s) ∧ (next s).along ok (effect s)

section Along

variable (ok : ℓ → σ → σ → Prop)

@[simp] theorem along_pure (a : α) (s : σ) : (pure a : Prog ℓ σ φ α).along ok s := trivial

theorem along_bind (p : Prog ℓ σ φ α) (k : α → Prog ℓ σ φ β) (s : σ) :
    (p >>= k).along ok s ↔ p.along ok s ∧ ∀ a t, p.run s = .done a t → (k a).along ok t := by
  change (p.bind k).along ok s ↔ _
  induction p generalizing s with
  | ret a => simp [Prog.bind, along, run]
  | crash f => simp [Prog.bind, along, run]
  | act label ready effect next ih =>
      by_cases can : ready s = true
      · simp only [Prog.bind, along, run, can, if_true, forall_const, ih s (effect s), and_assoc]
      · simp [Prog.bind, along, run, can]

@[simp] theorem along_look (label : ℓ) (get : σ → β) (s : σ) :
    (look label get : Prog ℓ σ φ β).along ok s ↔ ok label s s := by
  simp [look, along]

@[simp] theorem along_modify (label : ℓ) (set : σ → σ) (s : σ) :
    (modify label set : Prog ℓ σ φ Unit).along ok s ↔ ok label s (set s) := by
  simp [modify, along]

theorem along_access (label : ℓ) (touch : σ → Except φ (α × σ)) (s : σ) :
    (access label touch).along ok s ↔ match touch s with
      | .ok r => ok label s r.2
      | .error _ => ok label s s := by
  cases found : touch s <;> simp [access, along, found]

theorem along_atomic (label : ℓ) (p : Prog ℓ σ φ α) (s t : σ) (a : α) (ran : p.run s = .done a t) :
    (atomic label p).along ok s ↔ ok label s t := by
  simp [atomic, along, ran, Outcome.state]

-- A run to its end, with what its actions need to be as they should.
structure Goes (p : Prog ℓ σ φ α) (s : σ) (a : α) (t : σ) (needs : Prop) : Prop where
  ran : p.run s = .done a t
  meets : p.along ok s ↔ needs

theorem goes_congr {p : Prog ℓ σ φ α} {s t : σ} {a : α} {needs same : Prop} (goes : p.Goes ok s a t needs)
    (iff : needs ↔ same) : p.Goes ok s a t same := ⟨goes.ran, goes.meets.trans iff⟩

theorem goes_pure (a : α) (s : σ) : (pure a : Prog ℓ σ φ α).Goes ok s a s True := ⟨rfl, Iff.rfl⟩

theorem goes_bind {p : Prog ℓ σ φ α} {k : α → Prog ℓ σ φ β} {s t u : σ} {a : α} {b : β} {needs more : Prop}
    (first : p.Goes ok s a t needs) (later : (k a).Goes ok t b u more) : (p >>= k).Goes ok s b u (needs ∧ more) where
  ran := by simp [first.ran, later.ran]
  meets := by simp [along_bind, first.ran, first.meets, later.meets]

theorem goes_look (label : ℓ) (get : σ → α) (s : σ) (needs : Prop) (meets : ok label s s ↔ needs) :
    (look label get : Prog ℓ σ φ α).Goes ok s (get s) s needs := ⟨rfl, by simpa using meets⟩

theorem goes_modify (label : ℓ) (set : σ → σ) (s : σ) (needs : Prop) (meets : ok label s (set s) ↔ needs) :
    (modify label set : Prog ℓ σ φ Unit).Goes ok s () (set s) needs := ⟨rfl, by simpa using meets⟩

theorem goes_atomic (label : ℓ) (p : Prog ℓ σ φ α) (s t : σ) (a : α) (needs : Prop) (ran : p.run s = .done a t)
    (meets : ok label s t ↔ needs) : (atomic label p).Goes ok s a t needs where
  ran := by rw [run_atomic label p s (by simp [ran]), ran]
  meets := by rw [along_atomic ok label p s t a ran, meets]

end Along

def series (call : γ → Prog ℓ σ φ α) : List γ → Prog ℓ σ φ (List α)
  | [] => pure []
  | x :: rest => do
      let a ← call x
      let results ← series call rest
      pure (a :: results)

@[simp] theorem run_series_nil (call : γ → Prog ℓ σ φ α) (s : σ) : (series call []).run s = .done [] s := rfl

@[simp] theorem run_series_cons (call : γ → Prog ℓ σ φ α) (x : γ) (rest : List γ) (s : σ) :
    (series call (x :: rest)).run s =
      ((call x).run s).bind fun a t => ((series call rest).run t).bind fun results u => .done (a :: results) u := by
  simp [series]

theorem wp_series_cons (call : γ → Prog ℓ σ φ α) (x : γ) (rest : List γ) (post : List α → σ → Prop) (s : σ) :
    (series call (x :: rest)).wp post s ↔
      (call x).wp (fun a t => (series call rest).wp (fun results u => post (a :: results) u) t) s := by
  simp [series]

end Prog

-- What a caller knows of a run is the fold of its calls into a history; a call
-- may be allowed in some histories only.
def Follows {η γ : Type} (next : η → γ → η) (allowed : η → γ → Prop) : η → List γ → Prop
  | _, [] => True
  | h, x :: rest => allowed h x ∧ Follows next allowed (next h x) rest

theorem follows_of_forall {η γ : Type} (next : η → γ → η) (allowed : η → γ → Prop) (calls : List γ) (h : η)
    (always : ∀ x ∈ calls, ∀ h, allowed h x) : Follows next allowed h calls := by
  induction calls generalizing h with
  | nil => trivial
  | cons x rest ih =>
      exact ⟨always x (by simp) h, ih (next h x) fun y member => always y (by simp [member])⟩

theorem follows_imp {η γ : Type} (next : η → γ → η) (first second both : η → γ → Prop)
    (implies : ∀ h x, first h x → second h x → both h x) (calls : List γ) (h : η) (one : Follows next first h calls)
    (other : Follows next second h calls) : Follows next both h calls := by
  induction calls generalizing h with
  | nil => trivial
  | cons x rest ih => exact ⟨implies h x one.1 other.1, ih (next h x) one.2 other.2⟩

-- The rule for laws along a run: where each call keeps the law just when it is
-- allowed, in every state that stands for the history, the law is that of the calls.
theorem law_iff_follows {η γ τ : Type} (law : η → τ → List γ → Prop) (next : η → γ → η) (allowed : η → γ → Prop)
    (stands : η → τ → Prop) (done : ∀ h s, law h s [])
    (needs : ∀ h s x rest, stands h s → law h s (x :: rest) →
      allowed h x ∧ ∃ t, stands (next h x) t ∧ law (next h x) t rest)
    (gives : ∀ h s x rest, stands h s → allowed h x →
      ∃ t, stands (next h x) t ∧ (law (next h x) t rest → law h s (x :: rest)))
    (calls : List γ) (h : η) (s : τ) (here : stands h s) : law h s calls ↔ Follows next allowed h calls := by
  induction calls generalizing h s with
  | nil => exact iff_of_true (done h s) trivial
  | cons x rest ih =>
      constructor
      · intro holds
        obtain ⟨fine, t, there, later⟩ := needs h s x rest here holds
        exact ⟨fine, (ih (next h x) t there).mp later⟩
      · intro follows
        obtain ⟨t, there, back⟩ := gives h s x rest here follows.1
        exact back ((ih (next h x) t there).mpr follows.2)

-- The rule for runs: what every allowed call keeps holds wherever the run ends.
theorem series_invariant {η : Type} (call : γ → Prog ℓ σ φ α) (next : η → γ → η) (allowed : η → γ → Prop)
    (invariant : η → σ → Prop)
    (kept : ∀ h x s, invariant h s → allowed h x → (call x).wp (fun _ t => invariant (next h x) t) s)
    (calls : List γ) (h : η) (s : σ) (holds : invariant h s) (follows : Follows next allowed h calls) :
    (Prog.series call calls).wp (fun _ t => invariant (calls.foldl next h) t) s := by
  induction calls generalizing h s with
  | nil => exact holds
  | cons x rest ih =>
      rw [Prog.wp_series_cons]
      exact Prog.wp_mono _ _ _ _ s (kept h x s holds follows.1) fun a t held => ih (next h x) t held follows.2

end OneDriver
