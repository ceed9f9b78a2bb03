import OneDriver.Watchdog.Requests
import Mathlib.Data.List.Induction

set_option autoImplicit false

namespace OneDriver.Watchdog

-- Either no heartbeat is under way and the cells are those of the finished
-- requests, or exactly one is and the cells are its view of them.
def Seen (cfg : WdtConfig) (requests : List Request) (stage : Nat → Stage) (base c : Cells) : Prop :=
  ((∀ j < requests.length, (stage j).inBeat = false) ∧ c = base) ∨
    ∃ i p, requests[i]? = some (.setTimeout p) ∧ (stage i).inBeat = true ∧
      (∀ j < requests.length, (stage j).inBeat = true → j = i) ∧ c = view cfg p base (stage i) ∧
      ∀ wtcon, (stage i).control = some wtcon → wtcon = base.wtcon

theorem seen_idle (cfg : WdtConfig) (requests : List Request) (stage : Nat → Stage) (base c : Cells)
    (seen : Seen cfg requests stage base c) (idle : ∀ j < requests.length, (stage j).inBeat = false) : c = base := by
  obtain ⟨-, same⟩ | ⟨i, p, member, within, -⟩ := seen
  · exact same
  · have bound := (List.getElem?_eq_some_iff.mp member).1
    exact absurd within (by simp [idle i bound])

theorem seen_within (cfg : WdtConfig) (requests : List Request) (stage : Nat → Stage) (base c : Cells) (i : Nat)
    (p : UserInt) (seen : Seen cfg requests stage base c) (member : requests[i]? = some (.setTimeout p))
    (within : (stage i).inBeat = true) :
    (∀ j < requests.length, (stage j).inBeat = true → j = i) ∧ c = view cfg p base (stage i) ∧
      ∀ wtcon, (stage i).control = some wtcon → wtcon = base.wtcon := by
  have bound := (List.getElem?_eq_some_iff.mp member).1
  obtain ⟨idle, -⟩ | ⟨k, q, member', -, only, same, control⟩ := seen
  · exact absurd within (by simp [idle i bound])
  · obtain rfl := only i bound within
    obtain rfl : p = q := by simpa [member] using member'
    exact ⟨only, same, control⟩

theorem seen_advance (cfg : WdtConfig) (requests : List Request) (stage : Nat → Stage) (base c : Cells) (i : Nat)
    (p : UserInt) (next : Stage) (member : requests[i]? = some (.setTimeout p))
    (only : ∀ j < requests.length, (stage j).inBeat = true → j = i) (within : next.inBeat = true)
    (same : c = view cfg p base next) (control : ∀ wtcon, next.control = some wtcon → wtcon = base.wtcon) :
    Seen cfg requests (Function.update stage i next) base c := by
  refine .inr ⟨i, p, member, by simpa using within, ?_, by simpa using same, by simpa using control⟩
  intro j bound beats
  by_contra different
  rw [Function.update_of_ne different] at beats
  exact different (only j bound beats)

theorem seen_finish (cfg : WdtConfig) (requests : List Request) (stage : Nat → Stage) (base c : Cells) (i : Nat)
    (only : ∀ j < requests.length, (stage j).inBeat = true → j = i) (same : c = base) :
    Seen cfg requests (Function.update stage i .after) base c := by
  refine .inl ⟨fun j bound => ?_, same⟩
  by_cases equal : j = i
  · simp [equal, Stage.inBeat]
  · rw [Function.update_of_ne equal]
    exact Bool.eq_false_iff.mpr fun beats => equal (only j bound beats)

-- A stop that meets a heartbeat meets it before its load, where the two commute.
theorem view_stopped (cfg : WdtConfig) (p : UserInt) (base : Cells) (stage : Stage) (early : stage.control = none) :
    { view cfg p base stage with wtcon := stopped cfg (view cfg p base stage).wtcon } =
      view cfg p { base with wtcon := stopped cfg base.wtcon } stage := by
  cases stage with
  | loaded wtcon => simp [Stage.control] at early
  | data wtcon => simp [Stage.control] at early
  | _ => rfl

theorem seen_stop (cfg : WdtConfig) (requests : List Request) (stage : Nat → Stage) (base c : Cells) (i : Nat)
    (seen : Seen cfg requests stage base c) (outside : (stage i).inBeat = false)
    (early : ∀ j < requests.length, (stage j).control = none) :
    Seen cfg requests (Function.update stage i .after) { base with wtcon := stopped cfg base.wtcon }
      { c with wtcon := stopped cfg c.wtcon } := by
  obtain ⟨idle, rfl⟩ | ⟨k, p, member, within, only, rfl, control⟩ := seen
  · exact seen_finish cfg requests stage _ _ i (fun j bound beats => absurd beats (by simp [idle j bound])) rfl
  · have different : k ≠ i := by
      rintro rfl
      simp [outside] at within
    have bound := (List.getElem?_eq_some_iff.mp member).1
    refine .inr ⟨k, p, member, by simpa [different] using within, ?_, ?_, by simp [different, early k bound]⟩
    · intro j bound beats
      by_cases equal : j = i
      · simp [equal, Stage.inBeat] at beats
      · exact only j bound (by simpa [equal] using beats)
    · rw [Function.update_of_ne different]
      exact view_stopped cfg p base (stage k) (early k bound)

def commit (cfg : WdtConfig) (request : Request) (was next : Stage) (base : Cells) : Cells :=
  if next = .after ∧ was ≠ .after then request.apply cfg base else base

theorem seen_step (cfg : WdtConfig) (requests : List Request) (stage : Nat → Stage) (base c d : Cells) (i : Nat)
    (request : Request) (label : Option WdtStep) (next : Stage) (member : requests[i]? = some request)
    (seen : Seen cfg requests stage base c) (moves : Moves cfg request (stage i) label c next d)
    (alone : label = some .setMargin → ∀ j < requests.length, (stage j).inBeat = false)
    (early : label = some (.wdtLock .stop) → ∀ j < requests.length, (stage j).control = none) :
    Seen cfg requests (Function.update stage i next) (commit cfg request (stage i) next base) d := by
  generalize here : stage i = was at moves
  cases moves with
  | quiet _ _ _ _ outside =>
      have same : commit cfg request (stage i) (stage i) base = base := if_neg fun both => both.2 both.1
      rw [← here, same, Function.update_eq_self]
      exact seen
  | begin p =>
      have idle := alone rfl
      refine seen_advance cfg requests stage base _ i p .margin member ?_ rfl ?_ (by simp [Stage.control])
      · exact fun j bound beats => absurd beats (by simp [idle j bound])
      · rw [seen_idle cfg requests stage base c seen idle]
        rfl
  | stop _ _ stops =>
      have outside : (stage i).inBeat = false := by rw [here]; rfl
      have applied : commit cfg request .before .after base = { base with wtcon := stopped cfg base.wtcon } := by
        cases request <;> first | rfl | simp [Request.stops] at stops
      rw [applied]
      exact seen_stop cfg requests stage base c i seen outside (early rfl)
  | count p =>
      obtain ⟨only, same, -⟩ := seen_within cfg requests stage base c i p seen member (by rw [here]; rfl)
      refine seen_advance cfg requests stage base _ i p .count member only rfl ?_ (by simp [Stage.control])
      rw [same, here]
      rfl
  | load p =>
      obtain ⟨only, same, -⟩ := seen_within cfg requests stage base c i p seen member (by rw [here]; rfl)
      refine seen_advance cfg requests stage base _ i p _ member only rfl ?_ ?_
      · rw [same, here]
        rfl
      · rintro _ ⟨⟩
        rw [same, here]
        rfl
  | data p wtcon =>
      obtain ⟨only, same, control⟩ := seen_within cfg requests stage base c i p seen member (by rw [here]; rfl)
      refine seen_advance cfg requests stage base _ i p _ member only rfl ?_ ?_
      · rw [same, here]
        rfl
      · simpa [here, Stage.control] using control
  | control p _ _ wtcon =>
      obtain ⟨only, same, control⟩ := seen_within cfg requests stage base c i p seen member (by rw [here]; rfl)
      refine seen_finish cfg requests stage _ _ i only ?_
      obtain rfl := control wtcon (by rw [here]; rfl)
      rw [same, here]
      rfl

def committed (cfg : WdtConfig) (requests : List Request) (initial : Cells) (order : List Nat) : Cells :=
  (order.filterMap (requests[·]?)).foldl (Request.apply cfg) initial

-- `order` is the ghost list of the requests whose last store is done.
def RaceInvariant (cfg : WdtConfig) (requests : List Request) (initial : Cells) (pool : WdtPool) : Prop :=
  pool.threads.length = requests.length ∧ ∃ (stage : Nat → Stage) (order : List Nat),
    (∀ i request thread, requests[i]? = some request → pool.threads[i]? = some thread →
      At cfg request thread (stage i)) ∧
    order.Nodup ∧ (∀ i, i ∈ order ↔ i < requests.length ∧ stage i = .after) ∧
    Seen cfg requests stage (committed cfg requests initial order) (cells pool.shared)

theorem request_placed (cfg : WdtConfig) (requests : List Request) (pool : WdtPool) (stage : Nat → Stage)
    (sized : pool.threads.length = requests.length)
    (placed : ∀ i request thread, requests[i]? = some request → pool.threads[i]? = some thread →
      At cfg request thread (stage i)) (j : Nat) (bound : j < requests.length) :
    ∃ thread ∈ pool.threads, ∃ request, At cfg request thread (stage j) := by
  have inside : j < pool.threads.length := by omega
  exact ⟨pool.threads[j], List.getElem_mem inside, requests[j],
    placed j _ _ (List.getElem?_eq_getElem bound) (List.getElem?_eq_getElem inside)⟩

theorem committed_step (cfg : WdtConfig) (requests : List Request) (initial : Cells) (order : List Nat)
    (stage : Nat → Stage) (i : Nat) (request : Request) (next : Stage) (member : requests[i]? = some request)
    (nodup : order.Nodup) (listed : ∀ j, j ∈ order ↔ j < requests.length ∧ stage j = .after)
    (once : stage i = .after → next = .after) :
    ∃ longer : List Nat, longer.Nodup ∧
      (∀ j, j ∈ longer ↔ j < requests.length ∧ Function.update stage i next j = .after) ∧
      committed cfg requests initial longer =
        commit cfg request (stage i) next (committed cfg requests initial order) := by
  have bound := (List.getElem?_eq_some_iff.mp member).1
  by_cases fresh : next = .after ∧ stage i ≠ .after
  · have absent : i ∉ order := fun inside => fresh.2 ((listed i).mp inside).2
    refine ⟨order ++ [i], ?_, fun j => ?_, ?_⟩
    · refine List.nodup_append.mpr ⟨nodup, by simp, ?_⟩
      rintro a inside b single rfl
      exact absent (List.mem_singleton.mp single ▸ inside)
    · by_cases equal : j = i
      · simp [equal, fresh.1, bound]
      · simp [equal, listed j]
    · simp [committed, commit, fresh, member]
  · refine ⟨order, nodup, fun j => ?_, (if_neg fresh).symm⟩
    by_cases equal : j = i
    · subst equal
      rw [listed, Function.update_self]
      exact and_congr_right fun _ => ⟨once, fun done => by_contra fun open' => fresh ⟨done, open'⟩⟩
    · simp [equal, listed j]

theorem moves_after (cfg : WdtConfig) (request : Request) (was next : Stage) (label : Option WdtStep) (c d : Cells)
    (moves : Moves cfg request was label c next d) : was = .after → next = .after := by
  cases moves <;> simp

theorem race_step (cfg : WdtConfig) (requests : List Request) (initial : Cells) (pool later : WdtPool) (i : Nat)
    (holds : RaceInvariant cfg requests initial pool) (calm : Undisturbed pool i)
    (stepped : pool.step i = some later) : RaceInvariant cfg requests initial later := by
  obtain ⟨sized, stage, order, placed, nodup, listed, seen⟩ := holds
  obtain ⟨thread, moved, t, found, step, rfl⟩ := (Pool.step_some_iff _ _ _).mp stepped
  have inside := (List.getElem?_eq_some_iff.mp found).1
  obtain ⟨request, member⟩ : ∃ request, requests[i]? = some request :=
    ⟨requests[i], List.getElem?_eq_getElem (by omega)⟩
  obtain ⟨next, here, moves⟩ := request_moves cfg request thread moved (stage i) pool.shared t
    (placed i request thread member found) step
  rw [Undisturbed, found, Option.bind_some] at calm
  have alone : thread.upcoming = some .setMargin → ∀ j < requests.length, (stage j).inBeat = false := by
    intro first j bound
    obtain ⟨other, listed, request', at'⟩ := request_placed cfg requests pool stage sized placed j bound
    rw [← at_beating cfg request' other (stage j) at']
    exact calm.1 first other listed
  have early : thread.upcoming = some (.wdtLock .stop) → ∀ j < requests.length, (stage j).control = none := by
    intro stopping j bound
    obtain ⟨other, listed, request', at'⟩ := request_placed cfg requests pool stage sized placed j bound
    by_contra within
    have busy := at_controlling cfg request' other (stage j) at' (Option.isSome_iff_ne_none.mpr within)
    exact absurd busy (by simp [calm.2 stopping other listed])
  obtain ⟨longer, nodup', listed', same⟩ := committed_step cfg requests initial order stage i request next member
    nodup listed (moves_after cfg request (stage i) next _ _ _ moves)
  refine ⟨by simpa using sized, Function.update stage i next, longer, ?_, nodup', listed', ?_⟩
  · intro j request' thread' member' found'
    by_cases equal : j = i
    · subst equal
      obtain rfl : request = request' := by simpa [member] using member'
      obtain rfl : moved = thread' := by simpa [List.getElem?_set_self, inside] using found'
      simpa using here
    · rw [Function.update_of_ne equal]
      exact placed j request' thread' member' (by simpa [List.getElem?_set_ne (Ne.symm equal)] using found')
  · rw [same]
    exact seen_step cfg requests stage _ _ _ i request _ next member seen moves alone early

theorem fold_keepalives (cfg : WdtConfig) (order : List Request) (c : Cells)
    (alive : ∀ r ∈ order, r = .keepalive) : order.foldl (Request.apply cfg) c = c := by
  induction order with
  | nil => rfl
  | cons r rest ih =>
      obtain rfl := alive r (by simp)
      exact ih fun r member => alive r (by simp [member])

theorem race_start (cfg : WdtConfig) (requests : List Request) (s : WdtState)
    (ok : ∀ r ∈ requests, r.accepted cfg) :
    RaceInvariant cfg requests (cells s) (Pool.start s (requests.map (Request.prog cfg))) := by
  -- A keepalive changes no cell, so it counts as done from the start.
  let stage : Nat → Stage := fun i => if requests[i]? = some .keepalive then .after else .before
  refine ⟨by simp [Pool.start], stage, (List.range requests.length).filter fun i => requests[i]? = some .keepalive,
    ?_, List.nodup_range.filter _, ?_, .inl ⟨?_, ?_⟩⟩
  · intro i request thread member found
    obtain rfl : thread = ⟨none, request.prog cfg⟩ := by
      simpa [Pool.start, member, eq_comm] using found
    have allowed := ok request (List.mem_of_getElem? member)
    cases request with
    | keepalive => simpa [stage, member] using ⟨rfl, keepalive_quiet⟩
    | setTimeout p => simpa [stage, member] using ⟨rfl, .inl ⟨p, rfl, set_timeout_prog cfg p allowed⟩⟩
    | shutdown => simpa [stage, member] using ⟨rfl, .inr ⟨rfl, shutdown_stopping cfg⟩⟩
    | suspend => simpa [stage, member] using ⟨rfl, .inr ⟨rfl, suspend_stopping cfg⟩⟩
  · intro i
    by_cases alive : requests[i]? = some .keepalive
    · simp [stage, alive]
    · simp [stage, alive]
  · intro j _
    by_cases alive : requests[j]? = some .keepalive
    · simp [stage, alive, Stage.inBeat]
    · simp [stage, alive, Stage.inBeat]
  · refine (fold_keepalives cfg _ _ fun r member => ?_).symm
    obtain ⟨i, listed, found⟩ := List.mem_filterMap.mp member
    have alive : requests[i]? = some .keepalive := by simpa using (List.mem_filter.mp listed).2
    exact Option.some.inj (found.symm.trans alive)

-- A finished thread has no heartbeat left and nothing to stop.
theorem finished_after (cfg : WdtConfig) (request : Request) (thread : WdtThread) (stage : Stage)
    (placed : At cfg request thread stage) (ended : thread.value.isSome = true) : stage = .after := by
  obtain ⟨last, prog⟩ := thread
  cases prog with
  | crash fault => exact fault.elim
  | act label ready effect next => simp [Thread.value] at ended
  | ret a =>
      cases stage with
      | after => rfl
      | before =>
          obtain ⟨-, ⟨p, -, start⟩ | ⟨-, stopping⟩⟩ := placed
          · cases start
          · exact stopping.elim
      | margin => obtain ⟨-, p, -, here⟩ := placed; cases here
      | count => obtain ⟨-, p, -, here⟩ := placed; cases here
      | loaded wtcon => obtain ⟨-, p, -, here⟩ := placed; cases here
      | data wtcon => obtain ⟨-, p, -, here⟩ := placed; cases here

theorem filter_map_range {α : Type} (xs : List α) : (List.range xs.length).filterMap (xs[·]?) = xs := by
  induction xs with
  | nil => rfl
  | cons x rest ih => simpa [List.range_succ_eq_map, List.filterMap_map, Function.comp_def] using ih

-- Some sequential order of the same requests ends with the same four cells.
def Serialised (cfg : WdtConfig) (requests : List Request) (s t : WdtState) : Prop :=
  ∃ order : List Request, order.Perm requests ∧
    ∃ results u, (Prog.series (Request.prog cfg) order).run s = .done results u ∧ cells t = cells u

def Belongs (cfg : WdtConfig) (p : UserInt) (c : Cells) : Prop :=
  c.margin = p.value ∧ c.count = countOf cfg p ∧ c.wtdat = BitVec.ofNat 32 (countOf cfg p) ∧
    c.wtcon &&& prescaleMask = prescale (divisorOf cfg p - 1) &&& prescaleMask

def Disarmed (cfg : WdtConfig) (c : Cells) : Prop :=
  c.wtcon.getLsbD cfg.layout.enable = false ∧ c.wtcon.getLsbD cfg.layout.rsten = false

theorem fold_settles (cfg : WdtConfig) (good : Cells → Prop) (order : List Request) (r : Request) (c : Cells)
    (member : r ∈ order) (sets : ∀ a, good (r.apply cfg a))
    (keeps : ∀ a, ∀ x ∈ order, good a → good (x.apply cfg a)) : good (order.foldl (Request.apply cfg) c) := by
  induction order using List.reverseRecOn with
  | nil => simp at member
  | append_singleton front last ih =>
      rw [List.foldl_append, List.foldl_cons, List.foldl_nil]
      rcases List.mem_append.mp member with inside | atEnd
      · exact keeps _ last (by simp) (ih inside fun a x listed => keeps a x (by simp [listed]))
      · obtain rfl := List.mem_singleton.mp atEnd
        exact sets _

theorem belongs_set (cfg : WdtConfig) (p : UserInt) (c : Cells) :
    Belongs cfg p ((Request.setTimeout p).apply cfg c) := by
  refine ⟨rfl, rfl, rfl, ?_⟩
  have cleared : c.wtcon &&& ~~~prescaleMask &&& prescaleMask = 0#32 := by
    rw [BitVec.and_assoc]
    exact BitVec.and_zero
  simp only [Request.apply, controlOf, BitVec.and_or_distrib_right, cleared, BitVec.zero_or]

theorem stopped_prescale (cfg : WdtConfig) (wtcon : BitVec 32) :
    stopped cfg wtcon &&& prescaleMask = wtcon &&& prescaleMask := by
  have apart : ~~~(enableBit cfg ||| rstenBit cfg) &&& prescaleMask = prescaleMask := by
    apply BitVec.eq_of_getLsbD_eq
    intro i bound
    by_cases low : i < 8
    · have outside : prescaleMask.getLsbD i = false := by
        interval_cases i <;> rfl
      simp [outside]
    · have enable := cfg.layout.enableLow
      have rsten := cfg.layout.rstenLow
      simp [enableBit, rstenBit, bound, show i ≠ cfg.layout.enable by omega, show i ≠ cfg.layout.rsten by omega]
  rw [stopped, BitVec.and_assoc, apart]

theorem belongs_kept (cfg : WdtConfig) (p : UserInt) (r : Request) (c : Cells) (holds : Belongs cfg p c) :
    Belongs cfg p (r.apply cfg c) ∨ ∃ q, r = .setTimeout q := by
  cases r with
  | setTimeout q => exact .inr ⟨q, rfl⟩
  | keepalive => exact .inl holds
  | shutdown => exact .inl ⟨holds.1, holds.2.1, holds.2.2.1, (stopped_prescale cfg c.wtcon).trans holds.2.2.2⟩
  | suspend => exact .inl ⟨holds.1, holds.2.1, holds.2.2.1, (stopped_prescale cfg c.wtcon).trans holds.2.2.2⟩

theorem stopped_disarmed (cfg : WdtConfig) (c : Cells) : Disarmed cfg { c with wtcon := stopped cfg c.wtcon } := by
  have low := cfg.layout.rstenLow
  refine ⟨stop_disables cfg c.wtcon, ?_⟩
  simp only [stopped, rstenBit, BitVec.getLsbD_and, BitVec.getLsbD_not, BitVec.getLsbD_or, BitVec.getLsbD_twoPow]
  simp [show cfg.layout.rsten < 32 by omega]

theorem disarmed_kept (cfg : WdtConfig) (r : Request) (c : Cells) (holds : Disarmed cfg c) :
    Disarmed cfg (r.apply cfg c) := by
  cases r with
  | setTimeout p =>
      exact ⟨(prescaled_control_bit _ _ _ cfg.layout.enableLow).trans holds.1,
        (prescaled_control_bit _ _ _ cfg.layout.rstenLow).trans holds.2⟩
  | keepalive => exact holds
  | shutdown => exact stopped_disarmed cfg c
  | suspend => exact stopped_disarmed cfg c

-- Where no step races, the concurrent requests serialise: one order explains the
-- cells, they belong to one request, and a stop leaves the timer disarmed.
theorem undisturbed_serialises (cfg : WdtConfig) (requests : List Request) (s : WdtState) (schedule : List Nat)
    (pool : WdtPool) (ok : ∀ r ∈ requests, r.accepted cfg)
    (ran : Pool.Run Undisturbed (Pool.start s (requests.map (Request.prog cfg))) schedule pool)
    (ends : pool.finished = true) :
    Serialised cfg requests s pool.shared ∧
      ((∃ p, .setTimeout p ∈ requests) → ∃ p, .setTimeout p ∈ requests ∧ Belongs cfg p (cells pool.shared)) ∧
      ((∃ r ∈ requests, r.stops = true) → Disarmed cfg (cells pool.shared)) := by
  obtain ⟨sized, stage, order, placed, nodup, listed, seen⟩ := Pool.run_invariant Undisturbed
    (RaceInvariant cfg requests (cells s)) (fun pool later i => race_step cfg requests (cells s) pool later i)
    _ pool schedule ran (race_start cfg requests s ok)
  have done : ∀ j < requests.length, stage j = .after := by
    intro j bound
    obtain ⟨thread, member, request, here⟩ := request_placed cfg requests pool stage sized placed j bound
    exact finished_after cfg request thread (stage j) here (List.all_eq_true.mp ends thread member)
  have same := seen_idle cfg requests stage _ _ seen fun j bound => by rw [done j bound]; rfl
  have whole : order.Perm (List.range requests.length) :=
    (List.perm_ext_iff_of_nodup nodup List.nodup_range).mpr fun j => by
      rw [listed, List.mem_range]
      exact and_iff_left_of_imp fun bound => done j bound
  have perm : (order.filterMap (requests[·]?)).Perm requests := by
    simpa only [filter_map_range] using whole.filterMap (requests[·]?)
  obtain ⟨results, u, sequential, ends'⟩ := run_requests cfg _ s fun r member => ok r (perm.mem_iff.mp member)
  refine ⟨⟨_, perm, results, u, sequential, same.trans ends'.symm⟩, ?_, ?_⟩
  · rintro ⟨p, member⟩
    rw [same]
    refine fold_settles cfg (fun c => ∃ p, .setTimeout p ∈ requests ∧ Belongs cfg p c) _ (.setTimeout p) _
      (perm.mem_iff.mpr member) (fun a => ⟨p, member, belongs_set cfg p a⟩) ?_
    rintro a x listed ⟨q, owner, holds⟩
    rcases belongs_kept cfg q x a holds with kept | ⟨q', rfl⟩
    · exact ⟨q, owner, kept⟩
    · exact ⟨q', perm.mem_iff.mp listed, belongs_set cfg q' a⟩
  · rintro ⟨r, member, stops⟩
    rw [same]
    refine fold_settles cfg (Disarmed cfg) _ r _ (perm.mem_iff.mpr member) (fun a => ?_)
      fun a x _ holds => disarmed_kept cfg x a holds
    cases r with
    | setTimeout p => simp [Request.stops] at stops
    | keepalive => simp [Request.stops] at stops
    | shutdown => exact stopped_disarmed cfg a
    | suspend => exact stopped_disarmed cfg a

def fifteen : UserInt := ⟨15, true, true⟩

def runningWdt : WdtState := loadedWdt 15 fun reg => if reg = .wtcon then 0x39 else 0

def raceRequests : List Request := [.shutdown, .setTimeout fifteen]

theorem race_accepted : ∀ r ∈ raceRequests, r.accepted bootConfig := by
  intro r member
  simp only [raceRequests, List.mem_cons, List.not_mem_nil, or_false] at member
  rcases member with rfl | rfl
  · trivial
  · exact ⟨rfl, by decide, by decide⟩

theorem undisturbed_shutdown_and_timeout :
    ∃ schedule pool, Pool.Run Undisturbed (Pool.start runningWdt
        (raceRequests.map (Request.prog bootConfig))) schedule pool ∧
      Disarmed bootConfig (cells pool.shared) := by
  obtain ⟨pool, ran, ends⟩ : ∃ pool, Pool.Run Undisturbed (Pool.start runningWdt
      (raceRequests.map (Request.prog bootConfig))) [1, 1, 0, 1, 1, 1, 1, 1] pool ∧
      pool.finished = true :=
    ⟨_, Pool.runs_run _ _ _ _ rfl, rfl⟩
  exact ⟨_, pool, ran, (undisturbed_serialises bootConfig _ runningWdt _ pool race_accepted ran ends).2.2
    ⟨.shutdown, List.mem_cons_self, rfl⟩⟩

-- A shutdown between the load and the store of a heartbeat's WTCON is undone.
theorem shutdown_undone_by_timeout :
    ∃ schedule pool, (Pool.start runningWdt (raceRequests.map (Request.prog bootConfig))).exec schedule = some pool ∧
      pool.finished = true ∧ ¬ Serialised bootConfig raceRequests runningWdt pool.shared := by
  refine ⟨[1, 1, 1, 0, 1, 1, 1, 1], _, rfl, rfl, ?_⟩
  intro law
  obtain ⟨order, perm, results, u, ran, same⟩ := law
  obtain ⟨results', v, again, settled⟩ := run_requests bootConfig order runningWdt
    fun r member => race_accepted r (perm.mem_iff.mp member)
  obtain ⟨rfl, rfl⟩ : results = results' ∧ u = v := by simpa [ran] using again
  have off : Disarmed bootConfig (order.foldl (Request.apply bootConfig) (cells runningWdt)) :=
    fold_settles bootConfig (Disarmed bootConfig) order .shutdown _ (perm.mem_iff.mpr List.mem_cons_self)
      (fun a => stopped_disarmed bootConfig a) fun a x _ holds => disarmed_kept bootConfig x a holds
  rw [← settled, ← same] at off
  exact absurd off.1 (by decide)

end OneDriver.Watchdog
