import OneDriver.CInt
import Mathlib.Data.List.Nodup

set_option autoImplicit false

namespace OneDriver.Sysfs

-- The attributes are named by numbers; `files` are those the device's directory
-- shows, `created` and `removed` what was asked of it, in order.
structure VersionState where
  registered : Bool
  references : Nat
  files : List Nat
  created : List Nat
  removed : List Nat
deriving DecidableEq, Repr

inductive VersionStep where
  | deviceRegister
  | putDevice
  | deviceDel
  | createFile (attr : Nat)
  | removeFile (attr : Option Nat)
deriving DecidableEq, Repr

inductive VersionFault where
  | outOfTable
deriving DecidableEq, Repr

abbrev VersionProg := Prog VersionStep VersionState VersionFault

-- Whatever device_register answers, it has initialised the device.
def deviceRegister (outcome : Int) : VersionProg Int := do
  Prog.modify .deviceRegister fun s => { s with references := 1, registered := outcome = 0 }
  pure outcome

def putDevice : VersionProg Unit := .modify .putDevice fun s => { s with references := s.references - 1 }

def deviceDel : VersionProg Unit := .modify .deviceDel fun s => { s with registered := false }

-- A name that is there is refused; what else the file system answers is `outcome`.
def deviceCreateFile (attr : Nat) (outcome : Int) : VersionProg Int :=
  .act (.createFile attr) (fun _ => true)
    (fun s => if attr ∉ s.files ∧ outcome = 0 then
        { s with files := s.files ++ [attr], created := s.created ++ [attr] }
      else s)
    fun s => .ret (if attr ∈ s.files then -eexist else outcome)

def deviceRemoveFile (attr : Option Nat) : VersionProg Unit :=
  .modify (.removeFile attr) fun s => { s with
    files := s.files.filter fun file => attr ≠ some file
    removed := s.removed ++ attr.toList }

-- Steps until an int that counts up from `i` is no longer above `j`: what comes
-- after INT_MAX is INT_MIN.
def stepsAbove (j i : BitVec 32) : Nat := if j.slt i = true then (2 ^ 31 - i.toInt).toNat else 0

theorem steps_above_next (j i : BitVec 32) (above : j.slt i = true) : stepsAbove j (i + 1) < stepsAbove j i := by
  have high : i.toInt < 2 ^ 31 := BitVec.toInt_lt
  have low : -2 ^ 31 ≤ i.toInt := BitVec.le_toInt i
  have next : (i + 1).toInt = int32 (i.toInt + 1) := BitVec.toInt_add i 1
  rw [stepsAbove, stepsAbove, if_pos above]
  by_cases again : j.slt (i + 1) = true
  · rw [if_pos again]
    have below := BitVec.slt_iff_toInt_lt.mp again
    by_cases last : i.toInt + 1 = 2 ^ 31
    · have wrapped : int32 (i.toInt + 1) = -2 ^ 31 := by
        rw [last]
        decide
      have least : -2 ^ 31 ≤ j.toInt := BitVec.le_toInt j
      omega
    · have exactly := int32_eq (i.toInt + 1) (by omega) (by omega)
      omega
  · rw [if_neg again]
    omega

-- for (j = 0; j < i; i++): it is `i` that is counted up.
def rollback (table : List Nat) (j i : BitVec 32) : VersionProg Unit :=
  if _above : j.slt i = true then do
    deviceRemoveFile table[j.toNat]?
    rollback table j (i + 1)
  else pure ()
termination_by stepsAbove j i
decreasing_by exact steps_above_next j i _above

-- for (i = 0; version_attributes[i] != NULL; i++), the NULL being the table's end.
def createFiles (table : List Nat) (answers : Nat → Int) (i : BitVec 32) : VersionProg Int :=
  if _within : (-1 : BitVec 32).slt i = true then
    match table[i.toNat]? with
    | none => pure 0
    | some attr => do
        let error ← deviceCreateFile attr (answers i.toNat)
        if error ≠ 0 then do
          rollback table 0 i
          deviceDel
          pure error
        else createFiles table answers (i + 1)
  else .crash .outOfTable
termination_by stepsAbove (-1) i
decreasing_by exact steps_above_next (-1) i _within

-- `answers` is what the file system would say to each create, by its place in
-- the table.
def versionDevSetup (table : List Nat) (registered : Int) (answers : Nat → Int) : VersionProg Int := do
  let error ← deviceRegister registered
  if error ≠ 0 then do
    putDevice
    pure error
  else createFiles table answers 0

def freshDevice : VersionState := ⟨false, 0, [], [], []⟩

structure AllOrNothing (table : List Nat) (r : Int) (t : VersionState) : Prop where
  complete : r = 0 → t.registered = true ∧ ∀ attr ∈ table, attr ∈ t.files
  undone : r ≠ 0 → (∀ attr ∈ t.created, t.removed.count attr = 1) ∧ (∀ attr ∈ t.removed, attr ∈ t.created) ∧
    t.registered = false

def SetupLaw (table : List Nat) (registered : Int) (answers : Nat → Int) : Prop :=
  ∃ r t, (versionDevSetup table registered answers).run freshDevice = .done r t ∧ AllOrNothing table r t

-- Nothing that would have to be rolled back, and a table that an int can count.
def NothingToRollBack (table : List Nat) (registered : Int) (answers : Nat → Int) : Prop :=
  registered ≠ 0 ∨ answers 0 ≠ 0 ∨
    table.Nodup ∧ (∀ k, k < table.length → answers k = 0) ∧ table.length < 2 ^ 31

theorem count_to_int (n : Nat) (fits : n < 2 ^ 31) : (BitVec.ofNat 32 n).toInt = n := by
  have whole : (BitVec.ofNat 32 n).toNat = n := by rw [BitVec.toNat_ofNat, Nat.mod_eq_of_lt (by omega)]
  rw [BitVec.toInt_eq_toNat_of_lt (by omega), whole]

theorem count_to_nat (n : Nat) (fits : n ≤ 2 ^ 31) : (BitVec.ofNat 32 n).toNat = n := by
  rw [BitVec.toNat_ofNat, Nat.mod_eq_of_lt (by omega)]

theorem count_next (n : Nat) : BitVec.ofNat 32 n + 1 = BitVec.ofNat 32 (n + 1) := (BitVec.ofNat_add n 1).symm

theorem run_rollback (table : List Nat) (attr left n : Nat) (s : VersionState) (first : table[0]? = some attr)
    (started : 0 < n) (wraps : n + left = 2 ^ 31) :
    ∃ t, (rollback table 0 (BitVec.ofNat 32 n)).run s = .done () t ∧
      t.removed = s.removed ++ List.replicate left attr ∧ t.created = s.created := by
  induction left generalizing n s with
  | zero =>
      obtain rfl : n = 2 ^ 31 := by omega
      rw [rollback, dif_neg (by decide)]
      exact ⟨s, rfl, by simp, rfl⟩
  | succ left ih =>
      have above : (0 : BitVec 32).slt (BitVec.ofNat 32 n) = true := by
        rw [BitVec.slt_iff_toInt_lt, count_to_int n (by omega)]
        simpa using started
      have here : table[(0 : BitVec 32).toNat]? = some attr := first
      obtain ⟨t, ran, removed, created⟩ := ih (n + 1)
        { s with files := s.files.filter fun file => some attr ≠ some file, removed := s.removed ++ [attr] } (by omega) (by omega)
      refine ⟨t, ?_, ?_, created⟩
      · rw [rollback, dif_pos above, count_next, here]
        exact ran
      · rw [removed, List.replicate_succ, List.append_assoc]
        rfl

-- The device with the first `n` files of the table.
def built (table : List Nat) (n : Nat) : VersionState := ⟨true, 1, table.take n, table.take n, []⟩

def Created (table : List Nat) (answers : Nat → Int) (n : Nat) : Prop :=
  ∀ k attr, k < n → table[k]? = some attr → attr ∉ table.take k ∧ answers k = 0

theorem counts_up (n : Nat) (fits : n < 2 ^ 31) : (-1 : BitVec 32).slt (BitVec.ofNat 32 n) = true := by
  have minus : (-1 : BitVec 32).toInt = -1 := by decide
  rw [BitVec.slt_iff_toInt_lt, count_to_int n fits]
  omega

theorem run_create_files_step (table : List Nat) (answers : Nat → Int) (n attr : Nat) (fits : n < 2 ^ 31)
    (here : table[n]? = some attr) (fresh : attr ∉ table.take n) (answered : answers n = 0) :
    (createFiles table answers (BitVec.ofNat 32 n)).run (built table n) =
      (createFiles table answers (BitVec.ofNat 32 (n + 1))).run (built table (n + 1)) := by
  have longer : table.take (n + 1) = table.take n ++ [attr] := by
    rw [List.take_add_one, here, Option.toList_some]
  rw [createFiles, dif_pos (counts_up n fits), count_to_nat n (by omega), here, count_next]
  simp [deviceCreateFile, Prog.run, built, fresh, answered, longer]

theorem run_create_files_up_to (table : List Nat) (answers : Nat → Int) (n : Nat) (fits : n ≤ 2 ^ 31)
    (short : n ≤ table.length) (created : Created table answers n) :
    (createFiles table answers 0).run (built table 0) =
      (createFiles table answers (BitVec.ofNat 32 n)).run (built table n) := by
  induction n with
  | zero => rfl
  | succ n ih =>
      have before : Created table answers n := fun k attr earlier => created k attr (by omega)
      have here : table[n]? = some table[n] := List.getElem?_eq_getElem (by omega)
      obtain ⟨fresh, answered⟩ := created n table[n] (Nat.lt_succ_self n) here
      rw [ih (by omega) (by omega) before, run_create_files_step table answers n table[n] (by omega) here fresh answered]

theorem run_create_files_end (table : List Nat) (answers : Nat → Int) (s : VersionState) (fits : table.length < 2 ^ 31) :
    (createFiles table answers (BitVec.ofNat 32 table.length)).run s = .done 0 s := by
  rw [createFiles, dif_pos (counts_up _ fits), count_to_nat _ (by omega), List.getElem?_eq_none (Nat.le_refl _)]
  rfl

theorem run_create_files_wrapped (table : List Nat) (answers : Nat → Int) (s : VersionState) :
    (createFiles table answers (BitVec.ofNat 32 (2 ^ 31))).run s = .crashed .outOfTable s := by
  rw [createFiles, dif_neg (by decide)]
  rfl

theorem run_rollback_built (table : List Nat) (n : Nat) (fits : n < 2 ^ 31) (short : n < table.length) :
    ∃ t, (rollback table 0 (BitVec.ofNat 32 n)).run (built table n) = .done () t ∧ t.created = table.take n ∧
      t.removed = if n = 0 then [] else List.replicate (2 ^ 31 - n) table[0] := by
  by_cases none : n = 0
  · subst none
    refine ⟨built table 0, ?_, rfl, rfl⟩
    rw [rollback, dif_neg (by decide)]
    rfl
  · have first : table[0]? = some table[0] := List.getElem?_eq_getElem (by omega)
    obtain ⟨t, ran, removed, created⟩ := run_rollback table table[0] (2 ^ 31 - n) n (built table n) first
      (Nat.pos_of_ne_zero none) (by omega)
    exact ⟨t, ran, created, by simpa [built, none] using removed⟩

-- A create that is refused: the first file is removed over and over, the others
-- never.
theorem run_create_files_refused (table : List Nat) (answers : Nat → Int) (n : Nat) (fits : n < 2 ^ 31)
    (short : n < table.length) (refused : table[n] ∈ table.take n ∨ answers n ≠ 0) :
    ∃ r t, (createFiles table answers (BitVec.ofNat 32 n)).run (built table n) = .done r t ∧ r ≠ 0 ∧
      t.created = table.take n ∧ t.registered = false ∧
      t.removed = if n = 0 then [] else List.replicate (2 ^ 31 - n) table[0] := by
  have error : (if table[n] ∈ table.take n then -eexist else answers n) ≠ 0 := by
    split
    · decide
    · next fresh => exact refused.resolve_left fresh
  have left : (if table[n] ∉ table.take n ∧ answers n = 0 then
      { built table n with files := table.take n ++ [table[n]], created := table.take n ++ [table[n]] }
    else built table n) = built table n :=
    if_neg fun both => refused.elim both.1 fun asked => asked both.2
  have here : table[n]? = some table[n] := List.getElem?_eq_getElem short
  obtain ⟨t, ran, created, removed⟩ := run_rollback_built table n fits short
  have asks : (deviceCreateFile table[n] (answers n)).run (built table n) =
      .done (if table[n] ∈ table.take n then -eexist else answers n) (built table n) := congrArg (Outcome.done _) left
  refine ⟨_, { t with registered := false }, ?_, error, created, rfl, removed⟩
  rw [createFiles, dif_pos (counts_up n fits), count_to_nat n (by omega), here]
  simp only [Prog.run_bind, asks, outcome_bind_done, if_pos error, ran, deviceDel, Prog.run_modify, Prog.run_pure]

theorem run_version_dev_setup (table : List Nat) (answers : Nat → Int) :
    (versionDevSetup table 0 answers).run freshDevice = (createFiles table answers 0).run (built table 0) := by
  simp [versionDevSetup, deviceRegister, freshDevice, built]

theorem run_version_unregistered (table : List Nat) (registered : Int) (answers : Nat → Int) (refused : registered ≠ 0) :
    (versionDevSetup table registered answers).run freshDevice = .done registered freshDevice := by
  simp [versionDevSetup, deviceRegister, putDevice, freshDevice, refused]

theorem nodup_iff_fresh (table : List Nat) :
    table.Nodup ↔ ∀ k attr, table[k]? = some attr → attr ∉ table.take k := by
  constructor
  · intro distinct k attr here earlier
    obtain ⟨j, below, found⟩ := List.mem_take_iff_getElem.mp earlier
    have inside : j < table.length := by omega
    have again : table[j]? = table[k]? := by rw [here, List.getElem?_eq_getElem inside, found]
    have same := (List.getElem?_inj inside distinct).mp again
    omega
  · intro fresh
    rw [List.nodup_iff_getElem?_ne_getElem?]
    intro j k before inside same
    have here : table[k]? = some table[k] := List.getElem?_eq_getElem inside
    rw [here] at same
    refine fresh k table[k] here (List.mem_take_iff_getElem.mpr ⟨j, by omega, ?_⟩)
    exact (List.getElem?_eq_some_iff.mp same).2

theorem first_refusal (table : List Nat) (answers : Nat → Int) (bound : Nat) (short : bound ≤ table.length)
    (spoiled : ¬ Created table answers bound) :
    ∃ (n : Nat) (inside : n < table.length), n < bound ∧ Created table answers n ∧
      (table[n] ∈ table.take n ∨ answers n ≠ 0) := by
  induction bound with
  | zero => exact absurd (fun k attr none => absurd none (Nat.not_lt_zero k)) spoiled
  | succ bound ih =>
      by_cases earlier : Created table answers bound
      · refine ⟨bound, short, Nat.lt_succ_self bound, earlier, ?_⟩
        by_contra accepted
        obtain ⟨fresh, answered⟩ := not_or.mp accepted
        apply spoiled
        intro k attr below here
        by_cases last : k = bound
        · subst last
          obtain rfl : table[k] = attr := (List.getElem?_eq_some_iff.mp here).2
          exact ⟨fresh, not_not.mp answered⟩
        · exact earlier k attr (by omega) here
      · obtain ⟨n, inside, below, created, refused⟩ := ih (by omega) earlier
        exact ⟨n, inside, by omega, created, refused⟩

-- Removals of the one first file are never one of each.
theorem rolled_back_wrong (table : List Nat) (answers : Nat → Int) (n : Nat) (started : 0 < n) (inside : n < table.length)
    (created : Created table answers n) :
    ¬ ∀ attr ∈ table.take n, (List.replicate (2 ^ 31 - n) table[0]).count attr = 1 := by
  intro once
  have first := once table[0] (List.mem_take_iff_getElem.mpr ⟨0, by omega, rfl⟩)
  rw [List.count_replicate_self] at first
  have two : 1 < n := by omega
  have second := once table[1] (List.mem_take_iff_getElem.mpr ⟨1, by omega, rfl⟩)
  have here : table[1]? = some table[1] := List.getElem?_eq_getElem (by omega)
  have fresh := (created 1 table[1] two here).1
  have different : table[0] ≠ table[1] := by
    intro same
    exact fresh (List.mem_take_iff_getElem.mpr ⟨0, by omega, same⟩)
  rw [List.count_replicate, if_neg (by simpa using different)] at second
  exact absurd second (by decide)

theorem setup_complete (table : List Nat) (answers : Nat → Int) (created : Created table answers table.length)
    (fits : table.length < 2 ^ 31) : SetupLaw table 0 answers := by
  refine ⟨0, built table table.length, ?_, ⟨fun _ => ⟨rfl, ?_⟩, fun failed => absurd rfl failed⟩⟩
  · rw [run_version_dev_setup, run_create_files_up_to table answers table.length (by omega) (Nat.le_refl _) created]
    exact run_create_files_end table answers _ fits
  · intro attr member
    simpa [built] using member

theorem setup_refused_iff (table : List Nat) (answers : Nat → Int) (n : Nat) (fits : n < 2 ^ 31)
    (inside : n < table.length) (created : Created table answers n)
    (refused : table[n] ∈ table.take n ∨ answers n ≠ 0) : SetupLaw table 0 answers ↔ n = 0 := by
  obtain ⟨r, t, ran, failed, made, unregistered, removed⟩ := run_create_files_refused table answers n fits inside refused
  have whole : (versionDevSetup table 0 answers).run freshDevice = .done r t := by
    rw [run_version_dev_setup, run_create_files_up_to table answers n (by omega) (by omega) created, ran]
  rw [SetupLaw, Prog.run_exists_iff _ _ _ _ (AllOrNothing table) whole]
  constructor
  · intro law
    by_contra started
    rw [if_neg started] at removed
    have once := (law.undone failed).1
    rw [made, removed] at once
    exact rolled_back_wrong table answers n (Nat.pos_of_ne_zero started) inside created once
  · intro none
    subst none
    refine ⟨fun zero => absurd zero failed, fun _ => ⟨?_, ?_, unregistered⟩⟩
    · simp [made]
    · simp [removed]

theorem setup_wraps (table : List Nat) (answers : Nat → Int) (long : 2 ^ 31 ≤ table.length)
    (created : Created table answers (2 ^ 31)) : ¬ SetupLaw table 0 answers := by
  intro law
  obtain ⟨r, t, ran, -⟩ := law
  rw [run_version_dev_setup, run_create_files_up_to table answers (2 ^ 31) (Nat.le_refl _) long created,
    run_create_files_wrapped] at ran
  cases ran

theorem created_whole_iff (table : List Nat) (answers : Nat → Int) :
    Created table answers table.length ↔ table.Nodup ∧ ∀ k, k < table.length → answers k = 0 := by
  rw [nodup_iff_fresh]
  constructor
  · intro created
    refine ⟨?_, ?_⟩
    · intro k attr here
      exact (created k attr (List.getElem?_eq_some_iff.mp here).1 here).1
    · intro k inside
      exact (created k table[k] inside (List.getElem?_eq_getElem inside)).2
  · intro both k attr inside here
    exact ⟨both.1 k attr here, both.2 k inside⟩

theorem refusal_condition_iff (table : List Nat) (answers : Nat → Int) (n : Nat) (inside : n < table.length)
    (created : Created table answers n) (refused : table[n] ∈ table.take n ∨ answers n ≠ 0) :
    NothingToRollBack table 0 answers ↔ n = 0 := by
  constructor
  · intro condition
    by_contra started
    have first : table[0]? = some table[0] := List.getElem?_eq_getElem (by omega)
    have answered := (created 0 table[0] (Nat.pos_of_ne_zero started) first).2
    rcases condition with failed | failed | ⟨distinct, all, -⟩
    · exact failed rfl
    · exact failed answered
    · have fresh := (nodup_iff_fresh table).mp distinct n table[n] (List.getElem?_eq_getElem inside)
      exact refused.elim fresh fun failed => failed (all n inside)
  · intro none
    subst none
    have failed : answers 0 ≠ 0 := refused.resolve_left (by simp)
    exact .inr (.inl failed)

-- The rollback is right only where there is nothing to roll back.
theorem setup_law_iff (table : List Nat) (registered : Int) (answers : Nat → Int) :
    SetupLaw table registered answers ↔ NothingToRollBack table registered answers := by
  by_cases unregistered : registered ≠ 0
  · have ran := run_version_unregistered table registered answers unregistered
    refine iff_of_true ⟨registered, freshDevice, ran, ?_⟩ (.inl unregistered)
    exact ⟨fun zero => absurd zero unregistered, fun _ => by simp [freshDevice]⟩
  · obtain rfl : registered = 0 := not_not.mp unregistered
    by_cases created : Created table answers (min table.length (2 ^ 31))
    · by_cases short : table.length < 2 ^ 31
      · rw [Nat.min_eq_left (by omega)] at created
        have whole := (created_whole_iff table answers).mp created
        exact iff_of_true (setup_complete table answers created short) (.inr (.inr ⟨whole.1, whole.2, short⟩))
      · rw [Nat.min_eq_right (by omega)] at created
        refine iff_of_false (setup_wraps table answers (by omega) created) ?_
        intro condition
        have first : table[0]? = some table[0] := List.getElem?_eq_getElem (by omega)
        have answered := (created 0 table[0] (by decide) first).2
        rcases condition with failed | failed | ⟨-, -, below⟩
        · exact failed rfl
        · exact failed answered
        · exact short below
    · obtain ⟨n, inside, below, before, refused⟩ := first_refusal table answers _ (Nat.min_le_left _ _) created
      rw [setup_refused_iff table answers n (by omega) inside before refused,
        refusal_condition_iff table answers n inside before refused]

theorem second_create_fails :
    ∃ r t, (versionDevSetup [0, 1] 0 fun k => if k = 1 then -enomem else 0).run freshDevice = .done r t ∧ r ≠ 0 ∧
      t.created = [0] ∧ t.removed = List.replicate (2 ^ 31 - 1) 0 ∧
      ¬ SetupLaw [0, 1] 0 fun k => if k = 1 then -enomem else 0 := by
  have created : Created [0, 1] (fun k => if k = 1 then -enomem else 0) 1 := by
    intro k attr first here
    obtain rfl : k = 0 := by omega
    exact ⟨List.not_mem_nil, rfl⟩
  have refused : (fun k => if k = 1 then -enomem else 0) 1 ≠ 0 := by decide
  obtain ⟨r, t, ran, failed, made, -, removed⟩ := run_create_files_refused [0, 1]
    (fun k => if k = 1 then -enomem else 0) 1 (by decide) (by decide) (.inr refused)
  refine ⟨r, t, ?_, failed, made, removed, ?_⟩
  · rw [run_version_dev_setup, run_create_files_up_to _ _ 1 (by decide) (by decide) created, ran]
  · rw [setup_refused_iff _ _ 1 (by decide) (by decide) created (.inr refused)]
    exact Nat.one_ne_zero

end OneDriver.Sysfs
