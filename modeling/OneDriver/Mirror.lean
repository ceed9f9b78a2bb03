import OneDriver.Part

set_option autoImplicit false

namespace OneDriver

variable {ℓ κ σ τ φ ψ α β γ δ : Type}

namespace Prog

-- One program goes as another does, action by action, on the states `abs` makes of
-- its own.
def Mirrors (abs : σ → τ) (inv : σ → Prop) : Prog ℓ σ φ α → Prog ℓ τ φ α → Prop
  | .ret a, .ret b => a = b
  | .crash f, .crash g => f = g
  | .act label ready effect next, .act label' ready' effect' next' => label = label' ∧ ∀ s, inv s →
      ready s = ready' (abs s) ∧ inv (effect s) ∧ abs (effect s) = effect' (abs s) ∧
        (next s).Mirrors abs inv (next' (abs s))
  | _, _ => False

variable (abs : σ → τ) (inv : σ → Prop)

theorem mirrors_pure (a : α) : (pure a : Prog ℓ σ φ α).Mirrors abs inv (pure a) := rfl

theorem mirrors_cases (p : Prog ℓ σ φ α) (q : Prog ℓ τ φ α) (mirrors : p.Mirrors abs inv q) :
    (∃ a, p = .ret a ∧ q = .ret a) ∨ (∃ f, p = .crash f ∧ q = .crash f) ∨
      ∃ label ready effect next ready' effect' next', p = .act label ready effect next ∧
        q = .act label ready' effect' next' ∧ ∀ s, inv s → ready s = ready' (abs s) ∧ inv (effect s) ∧
          abs (effect s) = effect' (abs s) ∧ (next s).Mirrors abs inv (next' (abs s)) := by
  cases p with
  | ret a =>
      cases q with
      | ret b => exact .inl ⟨a, rfl, congrArg ret mirrors.symm⟩
      | crash g => cases mirrors
      | act label ready effect next => cases mirrors
  | crash f =>
      cases q with
      | ret b => cases mirrors
      | crash g => exact .inr (.inl ⟨f, rfl, congrArg crash mirrors.symm⟩)
      | act label ready effect next => cases mirrors
  | act label ready effect next =>
      cases q with
      | ret b => cases mirrors
      | crash g => cases mirrors
      | act label' ready' effect' next' =>
          obtain ⟨rfl, acts⟩ := mirrors
          exact .inr (.inr ⟨label, ready, effect, next, ready', effect', next', rfl, rfl, acts⟩)

theorem mirrors_bind (p : Prog ℓ σ φ α) (q : Prog ℓ τ φ α) (k : α → Prog ℓ σ φ β) (m : α → Prog ℓ τ φ β)
    (first : p.Mirrors abs inv q) (later : ∀ a, (k a).Mirrors abs inv (m a)) :
    (p >>= k).Mirrors abs inv (q >>= m) := by
  change (p.bind k).Mirrors abs inv (q.bind m)
  induction p generalizing q with
  | ret a =>
      rcases mirrors_cases abs inv _ q first with ⟨_, ⟨⟩, rfl⟩ | ⟨_, ⟨⟩, -⟩ | ⟨_, _, _, _, _, _, _, ⟨⟩, -⟩
      exact later a
  | crash f =>
      rcases mirrors_cases abs inv _ q first with ⟨_, ⟨⟩, -⟩ | ⟨_, ⟨⟩, rfl⟩ | ⟨_, _, _, _, _, _, _, ⟨⟩, -⟩
      exact rfl
  | act label ready effect next ih =>
      rcases mirrors_cases abs inv _ q first with ⟨_, ⟨⟩, -⟩ | ⟨_, ⟨⟩, -⟩ | ⟨_, _, _, _, _, _, next', ⟨⟩, rfl, acts⟩
      refine ⟨rfl, fun s holds => ?_⟩
      obtain ⟨can, kept, moved, goes⟩ := acts s holds
      exact ⟨can, kept, moved, ih s (next' (abs s)) goes⟩

theorem mirrors_act (label : ℓ) (ready : σ → Bool) (effect : σ → σ) (get : σ → α) (ready' : τ → Bool)
    (effect' : τ → τ) (get' : τ → α) (can : ∀ s, inv s → ready s = ready' (abs s)) (kept : ∀ s, inv s → inv (effect s))
    (moved : ∀ s, inv s → abs (effect s) = effect' (abs s)) (sees : ∀ s, inv s → get s = get' (abs s)) :
    (act label ready effect fun s => .ret (get s) : Prog ℓ σ φ α).Mirrors abs inv
      (act label ready' effect' fun s => .ret (get' s)) :=
  ⟨rfl, fun s holds => ⟨can s holds, kept s holds, moved s holds, sees s holds⟩⟩

theorem mirrors_modify (label : ℓ) (set : σ → σ) (set' : τ → τ) (kept : ∀ s, inv s → inv (set s))
    (moved : ∀ s, inv s → abs (set s) = set' (abs s)) :
    (modify label set : Prog ℓ σ φ Unit).Mirrors abs inv (modify label set') :=
  mirrors_act abs inv label _ set (fun _ => ()) _ set' (fun _ => ()) (fun _ _ => rfl) kept moved fun _ _ => rfl

theorem mirrors_access (label : ℓ) (touch : σ → Except φ (α × σ)) (set : τ → τ) (get : τ → α)
    (touches : ∀ s, inv s → ∃ t, touch s = .ok (get (abs s), t) ∧ inv t ∧ abs t = set (abs s)) :
    (access label touch : Prog ℓ σ φ α).Mirrors abs inv (act label (fun _ => true) set fun s => .ret (get s)) := by
  refine ⟨rfl, fun s holds => ?_⟩
  obtain ⟨t, touched, kept, moved⟩ := touches s holds
  simp only [touched]
  exact ⟨trivial, kept, moved, rfl⟩

-- What is looked at may differ, as long as the programs go on alike.
theorem mirrors_look_then (label : ℓ) (get : σ → β) (get' : τ → γ) (k : β → Prog ℓ σ φ α) (m : γ → Prog ℓ τ φ α)
    (later : ∀ s, inv s → (k (get s)).Mirrors abs inv (m (get' (abs s)))) :
    (look label get >>= k).Mirrors abs inv (look label get' >>= m) :=
  ⟨rfl, fun s holds => ⟨rfl, holds, rfl, later s holds⟩⟩

theorem mirrors_series (call : γ → Prog ℓ σ φ α) (image : γ → Prog ℓ τ φ α) (calls : List γ)
    (each : ∀ x ∈ calls, (call x).Mirrors abs inv (image x)) :
    (series call calls).Mirrors abs inv (series image calls) := by
  induction calls with
  | nil => exact mirrors_pure abs inv []
  | cons x rest ih =>
      apply mirrors_bind abs inv _ _ _ _ (each x (by simp))
      intro a
      apply mirrors_bind abs inv _ _ _ _ (ih fun y member => each y (by simp [member]))
      exact fun results => mirrors_pure abs inv (a :: results)

-- Programs on parts of two states mirror each other on the whole of them.
theorem mirrors_within (part : Part σ β) (part' : Part τ γ) (name : ℓ → κ) (inject : φ → ψ) (whole : σ → τ)
    (abs : β → γ) (inv : β → Prop) (holds : σ → Prop) (gets : ∀ s, part'.get (whole s) = abs (part.get s))
    (sets : ∀ t s, holds s → inv t → whole (part.set t s) = part'.set (abs t) (whole s))
    (inner : ∀ s, holds s → inv (part.get s)) (kept : ∀ t s, holds s → inv t → holds (part.set t s))
    (p : Prog ℓ β φ α) (q : Prog ℓ γ φ α) (mirrors : p.Mirrors abs inv q) :
    (p.within part name inject fun _ _ => none).Mirrors whole holds (q.within part' name inject fun _ _ => none) := by
  induction p generalizing q with
  | ret a =>
      rcases mirrors_cases abs inv _ q mirrors with ⟨_, ⟨⟩, rfl⟩ | ⟨_, ⟨⟩, -⟩ | ⟨_, _, _, _, _, _, _, ⟨⟩, -⟩
      exact rfl
  | crash f =>
      rcases mirrors_cases abs inv _ q mirrors with ⟨_, ⟨⟩, -⟩ | ⟨_, ⟨⟩, rfl⟩ | ⟨_, _, _, _, _, _, _, ⟨⟩, -⟩
      exact rfl
  | act label ready effect next ih =>
      rcases mirrors_cases abs inv _ q mirrors with ⟨_, ⟨⟩, -⟩ | ⟨_, ⟨⟩, -⟩ | ⟨_, _, _, _, _, _, next', ⟨⟩, rfl, acts⟩
      refine ⟨rfl, fun s here => ?_⟩
      obtain ⟨can, stays, moved, goes⟩ := acts (part.get s) (inner s here)
      simp only [gets, can, moved, sets _ s here stays]
      exact ⟨trivial, kept _ s here stays, trivial, ih (part.get s) (next' (abs (part.get s))) goes⟩

end Prog

namespace Pool

variable (abs : σ → τ) (inv : σ → Prop)

structure Reflects (pool : Pool ℓ σ φ α) (image : Pool ℓ τ φ α) : Prop where
  holds : inv pool.shared
  shared : abs pool.shared = image.shared
  length : pool.threads.length = image.threads.length
  threads : ∀ (i : Nat) (thread : Thread ℓ σ φ α) (other : Thread ℓ τ φ α), pool.threads[i]? = some thread →
    image.threads[i]? = some other → thread.prog.Mirrors abs inv other.prog

theorem reflects_start (s : σ) (calls : List γ) (prog : Nat → γ → Prog ℓ σ φ α) (image : Nat → γ → Prog ℓ τ φ α)
    (holds : inv s) (each : ∀ (i : Nat) (x : γ), calls[i]? = some x → (prog i x).Mirrors abs inv (image i x)) :
    Reflects abs inv (start s (calls.mapIdx prog)) (start (abs s) (calls.mapIdx image)) where
  holds := holds
  shared := rfl
  length := by simp [start]
  threads := by
    intro i thread other listed listed'
    obtain ⟨x, found, rfl⟩ : ∃ x, calls[i]? = some x ∧ (⟨none, prog i x⟩ : Thread ℓ σ φ α) = thread := by
      simpa [start, List.getElem?_mapIdx] using listed
    obtain rfl : (⟨none, image i x⟩ : Thread ℓ τ φ α) = other := by
      simpa [start, List.getElem?_mapIdx, found] using listed'
    exact each i x found

variable (pool : Pool ℓ σ φ α) (image : Pool ℓ τ φ α)

theorem reflects_other (i : Nat) (thread : Thread ℓ σ φ α) (reflects : Reflects abs inv pool image)
    (found : pool.threads[i]? = some thread) :
    ∃ other, image.threads[i]? = some other ∧ thread.prog.Mirrors abs inv other.prog := by
  have bound : i < image.threads.length := reflects.length ▸ (List.getElem?_eq_some_iff.mp found).1
  exact ⟨_, List.getElem?_eq_getElem bound, reflects.threads i thread _ found (List.getElem?_eq_getElem bound)⟩

theorem reflects_blocked (i : Nat) (reflects : Reflects abs inv pool image) (blocked : pool.step i = none) :
    image.step i = none := by
  cases found : pool.threads[i]? with
  | none =>
      have beyond : image.threads[i]? = none := by
        rw [List.getElem?_eq_none_iff] at found ⊢
        exact reflects.length ▸ found
      simp [step, beyond]
  | some thread =>
      obtain ⟨other, found', mirrors⟩ := reflects_other abs inv pool image i thread reflects found
      simp only [step, found, found', Thread.step, Option.map_eq_none_iff] at blocked ⊢
      rcases Prog.mirrors_cases abs inv _ _ mirrors with ⟨a, -, ended⟩ | ⟨f, -, ended⟩ |
        ⟨label, ready, effect, next, ready', effect', next', prog, prog', acts⟩
      · rw [ended]
      · rw [ended]
      · obtain ⟨can, -⟩ := acts pool.shared reflects.holds
        rw [reflects.shared] at can
        simpa [prog, prog', ← can] using blocked

theorem reflects_step (next : Pool ℓ σ φ α) (i : Nat) (reflects : Reflects abs inv pool image)
    (stepped : pool.step i = some next) : ∃ next', image.step i = some next' ∧ Reflects abs inv next next' := by
  obtain ⟨thread, moved, s, found, moves, rfl⟩ := (step_some_iff pool next i).mp stepped
  obtain ⟨other, found', mirrors⟩ := reflects_other abs inv pool image i thread reflects found
  obtain ⟨label, ready, effect, rest, prog, can, rfl, rfl⟩ := (thread_step_some_iff thread moved pool.shared s).mp moves
  rcases Prog.mirrors_cases abs inv _ _ mirrors with ⟨a, ended, -⟩ | ⟨f, ended, -⟩ |
    ⟨_, _, _, _, ready', effect', next', acted, prog', acts⟩
  · cases prog.symm.trans ended
  · cases prog.symm.trans ended
  cases prog.symm.trans acted
  obtain ⟨same, kept, shared, goes⟩ := acts pool.shared reflects.holds
  rw [reflects.shared] at same shared goes
  have present := (List.getElem?_eq_some_iff.mp found).1
  have present' := (List.getElem?_eq_some_iff.mp found').1
  refine ⟨⟨effect' image.shared, image.threads.set i ⟨some label, next' image.shared⟩⟩, ?_, kept, shared, ?_, ?_⟩
  · simp [step, found', Thread.step, prog', ← same, can]
  · simp [reflects.length]
  · intro j mine theirs listed listed'
    by_cases here : i = j
    · subst here
      rw [List.getElem?_set_self present] at listed
      rw [List.getElem?_set_self present'] at listed'
      obtain rfl := Option.some.inj listed
      obtain rfl := Option.some.inj listed'
      exact goes
    · rw [List.getElem?_set_ne here] at listed listed'
      exact reflects.threads j mine theirs listed listed'

-- Whatever the schedule, the one pool goes as far as the other.
theorem reflects_exec (schedule : List Nat) (reflects : Reflects abs inv pool image) :
    (pool.exec schedule = none → image.exec schedule = none) ∧
      ∀ last, pool.exec schedule = some last → ∃ last', image.exec schedule = some last' ∧ Reflects abs inv last last' := by
  induction schedule generalizing pool image with
  | nil =>
      refine ⟨fun blocked => ?_, fun last same => ⟨image, rfl, Option.some.inj same ▸ reflects⟩⟩
      cases blocked
  | cons i rest ih =>
      cases stepped : pool.step i with
      | none =>
          have blocked := reflects_blocked abs inv pool image i reflects stepped
          simp [exec, stepped, blocked]
      | some next =>
          obtain ⟨next', stepped', reflects'⟩ := reflects_step abs inv pool image next i reflects stepped
          simpa only [exec, stepped, stepped', Option.bind_some] using ih next next' reflects'

theorem reflects_value (i : Nat) (reflects : Reflects abs inv pool image) :
    pool.threads[i]?.bind Thread.value = image.threads[i]?.bind Thread.value ∧
      pool.threads[i]?.bind Thread.fault = image.threads[i]?.bind Thread.fault := by
  cases found : pool.threads[i]? with
  | none =>
      have beyond : image.threads[i]? = none := by
        rw [List.getElem?_eq_none_iff] at found ⊢
        exact reflects.length ▸ found
      simp [beyond]
  | some thread =>
      obtain ⟨other, found', mirrors⟩ := reflects_other abs inv pool image i thread reflects found
      rw [found']
      simp only [Option.bind_some, Thread.value, Thread.fault]
      rcases Prog.mirrors_cases abs inv _ _ mirrors with ⟨a, prog, prog'⟩ | ⟨f, prog, prog'⟩ |
        ⟨label, ready, effect, next, ready', effect', next', prog, prog', -⟩
      all_goals rw [prog, prog']
      all_goals exact ⟨rfl, rfl⟩

end Pool

end OneDriver
