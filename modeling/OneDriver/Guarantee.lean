import OneDriver.Rely

set_option autoImplicit false

namespace OneDriver

-- What a thread counts on from the others, what it gives them, what holds before
-- each of its actions, and the actions the run is known to take only in some
-- states. The others may act any number of times in between.
structure Contract (ℓ σ φ : Type) where
  rely : σ → σ → Prop
  guarantee : σ → σ → Prop
  allows : ℓ → σ → Prop
  before : ℓ → σ → Prop
  tolerates : φ → Prop
  refl : ∀ s, rely s s
  trans : ∀ s t u, rely s t → rely t u → rely s u

variable {ℓ σ φ α β : Type}

-- A rely that keeps a family of assertions is reflexive and transitive by itself.
def Preserves {ι : Type} (assertion : ι → σ → Prop) (s t : σ) : Prop := ∀ i, assertion i s → assertion i t

def Contract.keeping {ι : Type} (assertion : ι → σ → Prop) (guarantee : σ → σ → Prop) (allows before : ℓ → σ → Prop)
    (tolerates : φ → Prop) : Contract ℓ σ φ where
  rely := Preserves assertion
  guarantee := guarantee
  allows := allows
  before := before
  tolerates := tolerates
  refl := fun _ _ holds => holds
  trans := fun _ _ _ first second i holds => second i (first i holds)

def Contract.Stable (c : Contract ℓ σ φ) (holds : σ → Prop) : Prop := ∀ s t, holds s → c.rely s t → holds t

namespace Prog

def Meets (c : Contract ℓ σ φ) : Prog ℓ σ φ α → (α → σ → Prop) → σ → Prop
  | .ret a, post, s => ∀ t, c.rely s t → post a t
  | .crash f, _, _ => c.tolerates f
  | .act label ready effect next, post, s => ∀ t, c.rely s t → c.before label t ∧
      (ready t = true → c.allows label t → c.guarantee t (effect t) ∧ (next t).Meets c post (effect t))

variable (c : Contract ℓ σ φ)

theorem meets_stable (p : Prog ℓ σ φ α) (post : α → σ → Prop) : c.Stable fun s => p.Meets c post s := by
  intro s t meets moved
  cases p with
  | ret a => exact fun u later => meets u (c.trans s t u moved later)
  | crash f => exact meets
  | act label ready effect next => exact fun u later => meets u (c.trans s t u moved later)

theorem meets_pure (a : α) (post : α → σ → Prop) (s : σ) (stable : c.Stable (post a)) (holds : post a s) :
    (pure a : Prog ℓ σ φ α).Meets c post s := fun t moved => stable s t holds moved

theorem meets_bind (p : Prog ℓ σ φ α) (k : α → Prog ℓ σ φ β) (mid : α → σ → Prop) (post : β → σ → Prop) (s : σ)
    (first : p.Meets c mid s) (later : ∀ a t, mid a t → (k a).Meets c post t) : (p >>= k).Meets c post s := by
  change (p.bind k).Meets c post s
  induction p generalizing s with
  | ret a => exact later a s (first s (c.refl s))
  | crash f => exact first
  | act label ready effect next ih =>
      intro t moved
      obtain ⟨before, acts⟩ := first t moved
      refine ⟨before, fun can allowed => ?_⟩
      obtain ⟨given, rest⟩ := acts can allowed
      exact ⟨given, ih t (effect t) rest⟩

theorem meets_mono (p : Prog ℓ σ φ α) (post weaker : α → σ → Prop) (s : σ) (meets : p.Meets c post s)
    (weaken : ∀ a t, post a t → weaker a t) : p.Meets c weaker s := by
  induction p generalizing s with
  | ret a => exact fun t moved => weaken a t (meets t moved)
  | crash f => exact meets
  | act label ready effect next ih =>
      intro t moved
      obtain ⟨before, acts⟩ := meets t moved
      exact ⟨before, fun can allowed => (acts can allowed).imp_right (ih t (effect t))⟩

theorem meets_crash (f : φ) (post : α → σ → Prop) (s : σ) (tolerated : c.tolerates f) :
    (crash f : Prog ℓ σ φ α).Meets c post s := tolerated

-- One action, from an assertion the others keep to one they keep.
theorem meets_act (label : ℓ) (ready : σ → Bool) (effect : σ → σ) (get : σ → α) (pre : σ → Prop)
    (post : α → σ → Prop) (s : σ) (stable : c.Stable pre) (holds : pre s) (kept : ∀ a, c.Stable (post a))
    (before : ∀ t, pre t → c.before label t)
    (acts : ∀ t, pre t → ready t = true → c.allows label t →
      c.guarantee t (effect t) ∧ post (get t) (effect t)) :
    (act label ready effect fun t => .ret (get t) : Prog ℓ σ φ α).Meets c post s := by
  intro t moved
  have here := stable s t holds moved
  refine ⟨before t here, fun can allowed => ?_⟩
  obtain ⟨given, reached⟩ := acts t here can allowed
  exact ⟨given, fun u later => kept (get t) (effect t) u reached later⟩

theorem meets_await (label : ℓ) (ready : σ → Bool) (set : σ → σ) (pre : σ → Prop) (post : Unit → σ → Prop) (s : σ)
    (stable : c.Stable pre) (holds : pre s) (kept : c.Stable (post ())) (before : ∀ t, pre t → c.before label t)
    (acts : ∀ t, pre t → ready t = true → c.allows label t → c.guarantee t (set t) ∧ post () (set t)) :
    (await label ready set : Prog ℓ σ φ Unit).Meets c post s :=
  meets_act c label ready set (fun _ => ()) pre post s stable holds (fun _ => kept) before acts

theorem meets_modify (label : ℓ) (set : σ → σ) (pre : σ → Prop) (post : Unit → σ → Prop) (s : σ)
    (stable : c.Stable pre) (holds : pre s) (kept : c.Stable (post ())) (before : ∀ t, pre t → c.before label t)
    (acts : ∀ t, pre t → c.allows label t → c.guarantee t (set t) ∧ post () (set t)) :
    (modify label set : Prog ℓ σ φ Unit).Meets c post s :=
  meets_await c label (fun _ => true) set pre post s stable holds kept before fun t here _ => acts t here

theorem meets_look (label : ℓ) (get : σ → α) (pre : σ → Prop) (post : α → σ → Prop) (s : σ)
    (stable : c.Stable pre) (holds : pre s) (kept : ∀ a, c.Stable (post a)) (before : ∀ t, pre t → c.before label t)
    (acts : ∀ t, pre t → c.allows label t → c.guarantee t t ∧ post (get t) t) :
    (look label get : Prog ℓ σ φ α).Meets c post s :=
  meets_act c label (fun _ => true) id get pre post s stable holds kept before fun t here _ => acts t here

theorem meets_access (label : ℓ) (touch : σ → Except φ (α × σ)) (pre : σ → Prop) (post : α → σ → Prop) (s : σ)
    (stable : c.Stable pre) (holds : pre s) (kept : ∀ a, c.Stable (post a)) (before : ∀ t, pre t → c.before label t)
    (acts : ∀ t, pre t → c.allows label t → ∃ a u, touch t = .ok (a, u) ∧ c.guarantee t u ∧ post a u) :
    (access label touch : Prog ℓ σ φ α).Meets c post s := by
  intro t moved
  have here := stable s t holds moved
  refine ⟨before t here, fun _ allowed => ?_⟩
  obtain ⟨a, u, touched, given, reached⟩ := acts t here allowed
  simp only [touched]
  exact ⟨given, fun v later => kept a u v reached later⟩

-- An access that is refused, where the fault may be.
theorem meets_refused (label : ℓ) (touch : σ → Except φ (α × σ)) (f : φ) (pre : σ → Prop) (post : α → σ → Prop) (s : σ)
    (stable : c.Stable pre) (holds : pre s) (before : ∀ t, pre t → c.before label t)
    (acts : ∀ t, pre t → c.allows label t → touch t = .error f ∧ c.guarantee t t) (tolerated : c.tolerates f) :
    (access label touch : Prog ℓ σ φ α).Meets c post s := by
  intro t moved
  have here := stable s t holds moved
  refine ⟨before t here, fun _ allowed => ?_⟩
  obtain ⟨refused, given⟩ := acts t here allowed
  simp only [refused]
  exact ⟨given, meets_crash c f post t tolerated⟩

-- A program that counts on nothing changing goes as it does alone.
theorem meets_alone (p : Prog ℓ σ φ α) (post : α → σ → Prop) (s : σ) (still : ∀ t u, c.rely t u → u = t)
    (runs : p.wp post s) (owned : p.along (fun label t u => c.before label t ∧ c.guarantee t u) s) :
    p.Meets c post s := by
  induction p generalizing s with
  | ret a =>
      intro t moved
      rw [still s t moved]
      exact runs
  | crash f => cases runs
  | act label ready effect next ih =>
      intro t moved
      rw [still s t moved]
      obtain ⟨given, later⟩ := owned runs.1
      exact ⟨given.1, fun _ _ => ⟨given.2, ih s (effect s) runs.2 later⟩⟩

-- A series whose calls keep an invariant of what has been called so far.
theorem meets_follows {η γ : Type} (call : γ → Prog ℓ σ φ α) (next : η → γ → η) (allowed : η → γ → Prop)
    (holds : η → σ → Prop) (stable : ∀ h, c.Stable (holds h))
    (each : ∀ h x s, allowed h x → holds h s → (call x).Meets c (fun _ => holds (next h x)) s) (calls : List γ) (h : η)
    (s : σ) (start : holds h s) (follows : Follows next allowed h calls) :
    (series call calls).Meets c (fun _ => holds (calls.foldl next h)) s := by
  induction calls generalizing h s with
  | nil => exact meets_pure c [] _ s (stable h) start
  | cons x rest ih =>
      refine meets_bind c _ _ (fun _ => holds (next h x)) _ s (each h x s follows.1 start) fun a t here => ?_
      refine meets_bind c _ _ (fun _ => holds (rest.foldl next (next h x))) _ t (ih (next h x) t here follows.2) ?_
      exact fun results u there => meets_pure c _ _ u (stable _) there

theorem meets_series {γ : Type} (call : γ → Prog ℓ σ φ α) (holds : σ → Prop) (stable : c.Stable holds)
    (calls : List γ) (each : ∀ x ∈ calls, ∀ s, holds s → (call x).Meets c (fun _ => holds) s) (s : σ)
    (start : holds s) : (series call calls).Meets c (fun _ => holds) s :=
  meets_follows c call (fun _ _ => ()) (fun _ x => x ∈ calls) (fun _ => holds) (fun _ => stable)
    (fun _ x t member here => each x member t here) calls () s start
    (follows_of_forall _ _ calls () fun _ member _ => member)

end Prog

namespace Pool

variable (contract : Nat → Contract ℓ σ φ) (post : Nat → α → σ → Prop)

def AllMeet (pool : Pool ℓ σ φ α) : Prop := ∀ (i : Nat) (thread : Thread ℓ σ φ α), pool.threads[i]? = some thread →
  thread.prog.Meets (contract i) (post i) pool.shared

-- Each thread gives every other one what that one counts on.
def Compatible : Prop := ∀ i j, j ≠ i → ∀ s t, (contract i).guarantee s t → (contract j).rely s t

theorem all_meet_gives (pool next : Pool ℓ σ φ α) (i : Nat) (holds : AllMeet contract post pool)
    (allowed : ∀ label, pool.threads[i]?.bind Thread.upcoming = some label → (contract i).allows label pool.shared)
    (stepped : pool.step i = some next) :
    (contract i).guarantee pool.shared next.shared ∧ ∀ thread : Thread ℓ σ φ α, next.threads[i]? = some thread →
      thread.prog.Meets (contract i) (post i) next.shared := by
  obtain ⟨thread, label, ready, effect, rest, takes⟩ := step_takes pool next i stepped
  have meets := holds i thread takes.found
  rw [takes.prog] at meets
  obtain ⟨-, acts⟩ := meets pool.shared ((contract i).refl _)
  have upcoming := allowed label (takes_upcoming pool next i thread label ready effect rest takes)
  obtain ⟨given, after⟩ := acts takes.can upcoming
  rw [takes.shared]
  refine ⟨given, fun moved listed => ?_⟩
  rw [takes.moved] at listed
  obtain rfl := Option.some.inj listed
  exact after

theorem all_meet_step (compatible : Compatible contract) (pool next : Pool ℓ σ φ α) (i : Nat)
    (holds : AllMeet contract post pool)
    (allowed : ∀ label, pool.threads[i]?.bind Thread.upcoming = some label → (contract i).allows label pool.shared)
    (stepped : pool.step i = some next) : AllMeet contract post next := by
  obtain ⟨given, after⟩ := all_meet_gives contract post pool next i holds allowed stepped
  obtain ⟨_, _, _, _, _, takes⟩ := step_takes pool next i stepped
  intro j other listed
  by_cases same : j = i
  · subst same
    exact after other listed
  · rw [takes.others j same] at listed
    exact Prog.meets_stable (contract j) _ _ _ _ (holds j other listed) (compatible i j same _ _ given)

theorem all_meet_run (compatible : Compatible contract) (admits : Pool ℓ σ φ α → Nat → Prop)
    (allowed : ∀ pool i label, admits pool i → pool.threads[i]?.bind Thread.upcoming = some label →
      (contract i).allows label pool.shared)
    (pool last : Pool ℓ σ φ α) (schedule : List Nat) (initial : AllMeet contract post pool)
    (ran : Run admits pool schedule last) : AllMeet contract post last :=
  run_invariant admits (AllMeet contract post)
    (fun pool next i holds admitted stepped =>
      all_meet_step contract post compatible pool next i holds (allowed pool i · admitted) stepped)
    pool last schedule ran initial

-- What a thread that is not there counts on is what the run as a whole keeps.
theorem all_meet_rely (compatible : Compatible contract) (admits : Pool ℓ σ φ α → Nat → Prop)
    (allowed : ∀ pool i label, admits pool i → pool.threads[i]?.bind Thread.upcoming = some label →
      (contract i).allows label pool.shared)
    (pool last : Pool ℓ σ φ α) (schedule : List Nat) (initial : AllMeet contract post pool)
    (ran : Run admits pool schedule last) (j : Nat) (absent : pool.threads.length ≤ j) :
    (contract j).rely pool.shared last.shared := by
  induction ran with
  | nil pool => exact (contract j).refl pool.shared
  | cons pool next last i rest admitted stepped _ ih =>
      obtain ⟨_, _, _, _, _, takes⟩ := step_takes pool next i stepped
      have present : i < pool.threads.length := (List.getElem?_eq_some_iff.mp takes.found).1
      have given := (all_meet_gives contract post pool next i initial (allowed pool i · admitted) stepped).1
      have step := compatible i j (by omega) _ _ given
      refine (contract j).trans _ _ _ step (ih ?_ ?_)
      · exact all_meet_step contract post compatible pool next i initial (allowed pool i · admitted) stepped
      · rwa [step_length pool next i stepped]

theorem all_meet_before (pool : Pool ℓ σ φ α) (i : Nat) (label : ℓ) (holds : AllMeet contract post pool)
    (upcoming : pool.threads[i]?.bind Thread.upcoming = some label) : (contract i).before label pool.shared := by
  obtain ⟨thread, found, next⟩ := Option.bind_eq_some_iff.mp upcoming
  have meets := holds i thread found
  unfold Thread.upcoming at next
  split at next
  · rename_i l ready effect rest prog
    obtain rfl := Option.some.inj next
    rw [prog] at meets
    exact (meets pool.shared ((contract i).refl _)).1
  · contradiction

theorem all_meet_value (pool : Pool ℓ σ φ α) (i : Nat) (a : α) (holds : AllMeet contract post pool)
    (returned : pool.threads[i]?.bind Thread.value = some a) : post i a pool.shared := by
  obtain ⟨thread, found, value⟩ := Option.bind_eq_some_iff.mp returned
  have meets := holds i thread found
  unfold Thread.value at value
  split at value
  · rename_i b prog
    obtain rfl := Option.some.inj value
    rw [prog] at meets
    exact meets pool.shared ((contract i).refl _)
  · contradiction

theorem all_meet_fault (pool : Pool ℓ σ φ α) (i : Nat) (f : φ) (holds : AllMeet contract post pool)
    (faulted : pool.threads[i]?.bind Thread.fault = some f) : (contract i).tolerates f := by
  obtain ⟨thread, found, fault⟩ := Option.bind_eq_some_iff.mp faulted
  have meets := holds i thread found
  unfold Thread.fault at fault
  split at fault
  · rename_i g prog
    obtain rfl := Option.some.inj fault
    rw [prog] at meets
    exact meets
  · contradiction

theorem start_all_meet (s : σ) (progs : List (Prog ℓ σ φ α))
    (meets : ∀ (i : Nat) (p : Prog ℓ σ φ α), progs[i]? = some p → p.Meets (contract i) (post i) s) :
    AllMeet contract post (start s progs) := by
  intro i thread listed
  obtain ⟨p, found, rfl⟩ : ∃ p, progs[i]? = some p ∧ (⟨none, p⟩ : Thread ℓ σ φ α) = thread := by
    simpa [start] using listed
  exact meets i p found

end Pool

end OneDriver
