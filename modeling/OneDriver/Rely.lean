import OneDriver.Pool

set_option autoImplicit false

namespace OneDriver

variable {ℓ σ φ α β : Type}

namespace Prog

-- Every action keeps the invariant from any state that has it, so others may act
-- in between as long as they keep it too.
def Keeps (invariant : σ → Prop) (tolerates : φ → Prop) : Prog ℓ σ φ α → (α → Prop) → Prop
  | .ret a, post => post a
  | .crash f, _ => tolerates f
  | .act _ _ effect next, post =>
      ∀ s, invariant s → invariant (effect s) ∧ (next s).Keeps invariant tolerates post

-- Every action has the label and moves the state as `steady` says.
def Steady (steady : σ → σ → Prop) (label : ℓ) : Prog ℓ σ φ α → Prop
  | .ret _ => True
  | .crash _ => True
  | .act l _ effect next => l = label ∧ ∀ s, steady s (effect s) ∧ (next s).Steady steady label

-- The same, but for a last action, after which the program has returned.
def Guarded (steady : σ → σ → Prop) (label final : ℓ) : Prog ℓ σ φ α → Prop
  | .ret _ => True
  | .crash _ => True
  | .act l _ effect next =>
      ∀ s, (l = label ∧ steady s (effect s) ∨ l = final ∧ ∃ a, next s = .ret a) ∧
        (next s).Guarded steady label final

section Keeps

variable (invariant : σ → Prop) (tolerates : φ → Prop)

theorem keeps_bind (p : Prog ℓ σ φ α) (k : α → Prog ℓ σ φ β) (mid : α → Prop) (post : β → Prop)
    (first : p.Keeps invariant tolerates mid) (later : ∀ a, mid a → (k a).Keeps invariant tolerates post) :
    (p >>= k).Keeps invariant tolerates post := by
  change (p.bind k).Keeps invariant tolerates post
  induction p with
  | ret a => exact later a first
  | crash f => exact first
  | act label ready effect next ih =>
      intro s holds
      exact ⟨(first s holds).1, ih s (first s holds).2⟩

theorem keeps_look (label : ℓ) (get : σ → α) (post : α → Prop) (yields : ∀ s, invariant s → post (get s)) :
    (look label get : Prog ℓ σ φ α).Keeps invariant tolerates post :=
  fun s holds => ⟨holds, yields s holds⟩

theorem keeps_await (label : ℓ) (ready : σ → Bool) (set : σ → σ) (kept : ∀ s, invariant s → invariant (set s)) :
    (await label ready set : Prog ℓ σ φ Unit).Keeps invariant tolerates fun _ => True :=
  fun s holds => ⟨kept s holds, trivial⟩

end Keeps

section Steady

variable (steady : σ → σ → Prop) (label : ℓ)

theorem steady_bind (p : Prog ℓ σ φ α) (k : α → Prog ℓ σ φ β) (first : p.Steady steady label)
    (later : ∀ a, (k a).Steady steady label) : (p >>= k).Steady steady label := by
  change (p.bind k).Steady steady label
  induction p with
  | ret a => exact later a
  | crash f => trivial
  | act l ready effect next ih => exact ⟨first.1, fun s => ⟨(first.2 s).1, ih s (first.2 s).2⟩⟩

theorem steady_look (get : σ → α) (still : ∀ s, steady s s) :
    (look label get : Prog ℓ σ φ α).Steady steady label := ⟨rfl, fun s => ⟨still s, trivial⟩⟩

theorem steady_modify (set : σ → σ) (moves : ∀ s, steady s (set s)) :
    (modify label set : Prog ℓ σ φ Unit).Steady steady label := ⟨rfl, fun s => ⟨moves s, trivial⟩⟩

theorem steady_access (touch : σ → Except φ (α × σ)) (still : ∀ s, steady s s)
    (moves : ∀ s r, touch s = .ok r → steady s r.2) : (access label touch : Prog ℓ σ φ α).Steady steady label := by
  refine ⟨rfl, fun s => ?_⟩
  cases found : touch s with
  | ok r => simpa [found, Steady] using moves s r found
  | error f => simpa [found, Steady] using still s

theorem steady_run (p : Prog ℓ σ φ α) (s t : σ) (a : α) (still : ∀ s, steady s s)
    (joins : ∀ s t u, steady s t → steady t u → steady s u) (held : p.Steady steady label)
    (ran : p.run s = .done a t) : steady s t := by
  induction p generalizing s with
  | ret b =>
      cases ran
      exact still _
  | crash f => cases ran
  | act l ready effect next ih =>
      by_cases can : ready s = true
      · obtain ⟨moved, later⟩ := held.2 s
        exact joins s (effect s) t moved (ih s (effect s) later (by simpa [run, can] using ran))
      · simp [run, can] at ran

theorem guarded_bind (final : ℓ) (p : Prog ℓ σ φ α) (k : α → Prog ℓ σ φ β) (first : p.Steady steady label)
    (later : ∀ a, (k a).Guarded steady label final) : (p >>= k).Guarded steady label final := by
  change (p.bind k).Guarded steady label final
  induction p with
  | ret a => exact later a
  | crash f => trivial
  | act l ready effect next ih => exact fun s => ⟨.inl ⟨first.1, (first.2 s).1⟩, ih s (first.2 s).2⟩

end Steady

end Prog

namespace Pool

-- A step takes one action of one thread; the other threads stay.
structure Takes (pool next : Pool ℓ σ φ α) (i : Nat) (thread : Thread ℓ σ φ α) (label : ℓ) (ready : σ → Bool)
    (effect : σ → σ) (rest : σ → Prog ℓ σ φ α) : Prop where
  found : pool.threads[i]? = some thread
  prog : thread.prog = .act label ready effect rest
  can : ready pool.shared = true
  shared : next.shared = effect pool.shared
  moved : next.threads[i]? = some ⟨some label, rest pool.shared⟩
  others : ∀ j, j ≠ i → next.threads[j]? = pool.threads[j]?

theorem step_takes (pool next : Pool ℓ σ φ α) (i : Nat) (stepped : pool.step i = some next) :
    ∃ thread label ready effect rest, Takes pool next i thread label ready effect rest := by
  obtain ⟨thread, moved, s, found, moves, rfl⟩ := (step_some_iff pool next i).mp stepped
  obtain ⟨label, ready, effect, rest, prog, can, rfl, rfl⟩ := (thread_step_some_iff thread moved pool.shared s).mp moves
  have bound : i < pool.threads.length := (List.getElem?_eq_some_iff.mp found).1
  exact ⟨thread, label, ready, effect, rest, found, prog, can, rfl, by simp [bound],
    fun j other => List.getElem?_set_ne (Ne.symm other)⟩

theorem takes_upcoming (pool next : Pool ℓ σ φ α) (i : Nat) (thread : Thread ℓ σ φ α) (label : ℓ) (ready : σ → Bool)
    (effect : σ → σ) (rest : σ → Prog ℓ σ φ α) (takes : Takes pool next i thread label ready effect rest) :
    pool.threads[i]?.bind Thread.upcoming = some label := by
  simp [takes.found, Thread.upcoming, takes.prog]

-- Programs that keep an invariant whatever the others do keep it together.
def AllKeep (invariant : σ → Prop) (tolerates : φ → Prop) (pool : Pool ℓ σ φ α) : Prop :=
  invariant pool.shared ∧
    ∀ (i : Nat) (thread : Thread ℓ σ φ α), pool.threads[i]? = some thread → thread.prog.Keeps invariant tolerates fun _ => True

theorem all_keep_step (invariant : σ → Prop) (tolerates : φ → Prop) (pool next : Pool ℓ σ φ α) (i : Nat)
    (holds : AllKeep invariant tolerates pool) (stepped : pool.step i = some next) :
    AllKeep invariant tolerates next := by
  obtain ⟨thread, label, ready, effect, rest, takes⟩ := step_takes pool next i stepped
  have keeps := holds.2 i thread takes.found
  rw [takes.prog] at keeps
  refine ⟨takes.shared ▸ (keeps pool.shared holds.1).1, ?_⟩
  intro j other listed
  by_cases same : j = i
  · obtain rfl : other = ⟨some label, rest pool.shared⟩ := by
      rw [same, takes.moved] at listed
      exact (Option.some.inj listed).symm
    exact (keeps pool.shared holds.1).2
  · exact holds.2 j other (takes.others j same ▸ listed)

end Pool

end OneDriver
