import OneDriver.Prog
import OneDriver.CInt
import Mathlib.Algebra.Order.Group.Multiset

set_option autoImplicit false

namespace OneDriver.Scull

def mkdev (major minor : Int) : BitVec 32 := BitVec.ofInt 32 major <<< 20 ||| BitVec.ofInt 32 minor

def majorOf (devno : BitVec 32) : Int := (devno >>> 20).toNat

-- The parameters of one load and how the kernel answers its calls: the result of
-- registering the region, the devno that alloc_chrdev_region leaves (what was on
-- the stack, where it fails), and the result of each cdev_add.
structure Load where
  scullMajor : Int
  scullMinor : Int
  scullNrDevs : Int
  region : Int
  devno : BitVec 32
  cdevAdd : Nat → Int
  devices : 1 ≤ scullNrDevs

-- The kernel's tables, for this module: the numbers that map to its cdev and the
-- regions it has registered, each with its first number. `recorded` is the range
-- cdev_add recorded last, and `ready` says that cdev_init has run.
structure ModuleState where
  map : Multiset (BitVec 32)
  regions : Multiset (BitVec 32 × Int)
  recorded : BitVec 32
  ready : Bool

inductive ModuleStep where
  | region | cdevInit | cdevAdd | cdevDel
deriving DecidableEq, Repr

abbrev ModuleProg := Prog ModuleStep ModuleState Empty

def Load.major (l : Load) : Int := if l.scullMajor ≠ 0 then l.scullMajor else majorOf l.devno

def Load.first (l : Load) : BitVec 32 := if l.scullMajor ≠ 0 then mkdev l.scullMajor l.scullMinor else l.devno

def Load.number (l : Load) (index : Nat) : BitVec 32 := mkdev l.major (int32 (l.scullMinor + index))

def registerRegion (l : Load) : ModuleProg Int := do
  if l.region = 0 then
    Prog.modify .region fun s => { s with regions := (l.first, l.scullNrDevs) ::ₘ s.regions }
  else pure ()
  pure l.region

-- cdev_add records the range before it maps it.
def cdevAdd (devno : BitVec 32) (result : Int) : ModuleProg Int := do
  Prog.modify .cdevAdd fun s => { s with recorded := devno }
  if result = 0 then Prog.modify .cdevAdd fun s => { s with map := devno ::ₘ s.map } else pure ()
  pure result

def scullSetupCdev (l : Load) (index : Nat) : ModuleProg Unit := do
  Prog.modify .cdevInit fun s => { s with ready := true }
  let _ ← cdevAdd (l.number index) (l.cdevAdd index)
  pure ()

def setupCdevs (l : Load) : Nat → Nat → ModuleProg Unit
  | 0, _ => pure ()
  | left + 1, i => do
      scullSetupCdev l i
      setupCdevs l left (i + 1)

-- The result of registering the region is stored and not looked at.
def scullModuleInit (l : Load) : ModuleProg Int := do
  let _ ← registerRegion l
  setupCdevs l l.scullNrDevs.toNat 0
  pure 0

-- cdev_del unmaps the range that the cdev has recorded.
def scullModuleExit : ModuleProg Unit := .modify .cdevDel fun s => { s with map := s.map.erase s.recorded }

def notLoaded : ModuleState := ⟨0, 0, 0, false⟩

-- None of the load's numbers maps to the cdev, and its region is not registered.
def Clean (l : Load) (s : ModuleState) : Prop :=
  (∀ i < l.scullNrDevs.toNat, l.number i ∉ s.map) ∧ (l.first, l.scullNrDevs) ∉ s.regions

def Serves (l : Load) (s : ModuleState) : Prop := s.ready = true ∧ ∀ i < l.scullNrDevs.toNat, l.number i ∈ s.map

inductive ModuleEvent where
  | load (l : Load)
  | unload

-- The kernel refuses to load a module twice, or to unload it when it is not there.
def ModuleLaw : Option Load → ModuleState → List ModuleEvent → Prop
  | _, _, [] => True
  | none, s, .load l :: rest => ∃ r t, (scullModuleInit l).run s = .done r t ∧
      (r = 0 → Serves l t ∧ ModuleLaw (some l) t rest) ∧ (r ≠ 0 → Clean l t ∧ ModuleLaw none t rest)
  | none, s, .unload :: rest => ModuleLaw none s rest
  | some l, s, .load _ :: rest => ModuleLaw (some l) s rest
  | some l, s, .unload :: rest => ∃ t, scullModuleExit.run s = .done () t ∧ Clean l t ∧ ModuleLaw none t rest

def afterEvent : Option Load → ModuleEvent → Option Load
  | none, .load l => some l
  | some l, .load _ => some l
  | _, .unload => none

-- Each number of a load is added with success, and what is unloaded is one number
-- without a region.
def Undone : Option Load → ModuleEvent → Prop
  | none, .load l => ∀ i < l.scullNrDevs.toNat, ∃ j < l.scullNrDevs.toNat, l.cdevAdd j = 0 ∧ l.number j = l.number i
  | some l, .unload => l.scullNrDevs = 1 ∧ l.region ≠ 0
  | _, _ => True

theorem number_parity (l : Load) (i : Nat) : (l.number i).getLsbD 0 = decide ((l.scullMinor + i) % 2 = 1) := by
  have wraps : int32 (l.scullMinor + i) % 2 ^ 32 = (l.scullMinor + i) % 2 ^ 32 := Int.bmod_emod
  have low : (l.number i).getLsbD 0 = (BitVec.ofInt 32 (int32 (l.scullMinor + i))).getLsbD 0 := by
    simp [Load.number, mkdev]
  rw [low, ← BitVec.testBit_toNat, Nat.testBit_zero, BitVec.toNat_ofInt, decide_eq_decide]
  omega

theorem number_next (l : Load) (i : Nat) : l.number i ≠ l.number (i + 1) := by
  intro same
  have parity := number_parity l i
  rw [same, number_parity l (i + 1)] at parity
  simp only [decide_eq_decide] at parity
  omega

def Load.setUp (l : Load) : Nat → Nat → ModuleState → ModuleState
  | 0, _, s => s
  | left + 1, i, s => l.setUp left (i + 1) { s with
      ready := true
      recorded := l.number i
      map := if l.cdevAdd i = 0 then l.number i ::ₘ s.map else s.map }

theorem run_setup_cdevs (l : Load) (left i : Nat) (s : ModuleState) :
    (setupCdevs l left i).run s = .done () (l.setUp left i s) := by
  induction left generalizing i s with
  | zero => rfl
  | succ left ih =>
      by_cases added : l.cdevAdd i = 0 <;> simp [setupCdevs, scullSetupCdev, cdevAdd, added, ih, Load.setUp]

theorem set_up_map (l : Load) (left i : Nat) (s : ModuleState) (devno : BitVec 32) :
    devno ∈ (l.setUp left i s).map ↔
      devno ∈ s.map ∨ ∃ j, i ≤ j ∧ j < i + left ∧ l.cdevAdd j = 0 ∧ l.number j = devno := by
  induction left generalizing i s with
  | zero =>
      simp only [Load.setUp, Nat.add_zero]
      constructor
      · exact .inl
      · rintro (member | ⟨j, low, high, -⟩)
        · exact member
        · omega
  | succ left ih =>
      rw [Load.setUp, ih]
      have here : devno ∈ (if l.cdevAdd i = 0 then l.number i ::ₘ s.map else s.map) ↔
          devno ∈ s.map ∨ l.cdevAdd i = 0 ∧ l.number i = devno := by
        by_cases added : l.cdevAdd i = 0 <;> simp [added, or_comm, eq_comm]
      rw [here, or_assoc]
      refine or_congr_right ⟨?_, ?_⟩
      · rintro (first | ⟨j, low, high, later⟩)
        · exact ⟨i, Nat.le_refl i, by omega, first⟩
        · exact ⟨j, by omega, by omega, later⟩
      · rintro ⟨j, low, high, found⟩
        by_cases first : j = i
        · exact .inl (first ▸ found)
        · exact .inr ⟨j, by omega, by omega, found⟩

theorem set_up_last (l : Load) (left i : Nat) (s : ModuleState) :
    (l.setUp (left + 1) i s).recorded = l.number (i + left) ∧ (l.setUp (left + 1) i s).ready = true ∧
      (l.setUp (left + 1) i s).regions = s.regions := by
  induction left generalizing i s with
  | zero => exact ⟨rfl, rfl, rfl⟩
  | succ left ih =>
      have later := ih (i + 1) { s with
        ready := true
        recorded := l.number i
        map := if l.cdevAdd i = 0 then l.number i ::ₘ s.map else s.map }
      rw [Nat.add_right_comm] at later
      exact later

def Load.registered (l : Load) (s : ModuleState) : ModuleState :=
  if l.region = 0 then { s with regions := (l.first, l.scullNrDevs) ::ₘ s.regions } else s

theorem run_module_init (l : Load) (s : ModuleState) :
    (scullModuleInit l).run s = .done 0 (l.setUp l.scullNrDevs.toNat 0 (l.registered s)) := by
  by_cases granted : l.region = 0 <;>
    simp [scullModuleInit, registerRegion, Load.registered, granted, run_setup_cdevs]

theorem registered_map (l : Load) (s : ModuleState) : (l.registered s).map = s.map := by
  unfold Load.registered
  split <;> rfl

def Untouched (s : ModuleState) : Prop := s.map = 0 ∧ s.regions = 0

def Stands : Option Load → ModuleState → Prop
  | none, s => Untouched s
  | some l, s => Undone none (.load l) ∧ ∃ t, Untouched t ∧ s = l.setUp l.scullNrDevs.toNat 0 (l.registered t)

theorem serves_iff (l : Load) (s : ModuleState) (empty : s.map = 0) :
    Serves l (l.setUp l.scullNrDevs.toNat 0 (l.registered s)) ↔ Undone none (.load l) := by
  have positive := l.devices
  obtain ⟨left, count⟩ : ∃ left, l.scullNrDevs.toNat = left + 1 := ⟨l.scullNrDevs.toNat - 1, by omega⟩
  have ready := (set_up_last l left 0 (l.registered s)).2.1
  rw [← count] at ready
  simp [Serves, Undone, ready, set_up_map, registered_map, empty]

theorem recorded_last (l : Load) (s : ModuleState) (stands : Stands (some l) s) :
    s.recorded = l.number (l.scullNrDevs.toNat - 1) := by
  obtain ⟨-, t, -, rfl⟩ := stands
  have positive := l.devices
  obtain ⟨left, count⟩ : ∃ left, l.scullNrDevs.toNat = left + 1 := ⟨l.scullNrDevs.toNat - 1, by omega⟩
  rw [count, (set_up_last l left 0 (l.registered t)).1]
  simp

theorem stands_regions (l : Load) (s : ModuleState) (stands : Stands (some l) s) :
    s.regions = if l.region = 0 then {(l.first, l.scullNrDevs)} else 0 := by
  obtain ⟨-, t, ⟨-, none'⟩, rfl⟩ := stands
  have positive := l.devices
  obtain ⟨left, count⟩ : ∃ left, l.scullNrDevs.toNat = left + 1 := ⟨l.scullNrDevs.toNat - 1, by omega⟩
  rw [count, (set_up_last l left 0 (l.registered t)).2.2, Load.registered]
  split <;> simp [none']

theorem exit_leaves_number (l : Load) (s : ModuleState) (stands : Stands (some l) s) (several : l.scullNrDevs ≠ 1) :
    l.number (l.scullNrDevs.toNat - 2) ∈ s.map.erase s.recorded := by
  have positive := l.devices
  have last : l.scullNrDevs.toNat - 1 = l.scullNrDevs.toNat - 2 + 1 := by omega
  rw [recorded_last l s stands, last, Multiset.mem_erase_of_ne (number_next l _)]
  obtain ⟨covered, t, ⟨empty, -⟩, rfl⟩ := stands
  exact ((serves_iff l t empty).mpr covered).2 _ (by omega)

theorem single_map (l : Load) (s : ModuleState) (stands : Stands (some l) s) (one : l.scullNrDevs = 1) :
    s.map = {s.recorded} := by
  rw [recorded_last l s stands]
  obtain ⟨covered, t, ⟨empty, -⟩, rfl⟩ := stands
  obtain ⟨j, bound, added, -⟩ := covered 0 (by omega)
  obtain rfl : j = 0 := by omega
  simp [one, Load.setUp, added, registered_map, empty]

theorem exit_clean_iff (l : Load) (s : ModuleState) (stands : Stands (some l) s) :
    Clean l { s with map := s.map.erase s.recorded } ↔ l.scullNrDevs = 1 ∧ l.region ≠ 0 := by
  have regions := stands_regions l s stands
  constructor
  · rintro ⟨unmapped, unregistered⟩
    have one : l.scullNrDevs = 1 := by
      by_contra several
      have positive := l.devices
      exact unmapped _ (by omega) (exit_leaves_number l s stands several)
    refine ⟨one, fun granted => unregistered ?_⟩
    simp [regions, granted]
  · rintro ⟨one, refused⟩
    have only := single_map l s stands one
    exact ⟨by simp [only], by simp [regions, refused]⟩

theorem exit_stands (l : Load) (s : ModuleState) (stands : Stands (some l) s) (one : l.scullNrDevs = 1)
    (refused : l.region ≠ 0) : Stands none { s with map := s.map.erase s.recorded } := by
  have only := single_map l s stands one
  have regions := stands_regions l s stands
  exact ⟨by simp [only], by simp [regions, refused]⟩

theorem module_law_needs (loaded : Option Load) (s : ModuleState) (event : ModuleEvent) (rest : List ModuleEvent)
    (stands : Stands loaded s) (law : ModuleLaw loaded s (event :: rest)) :
    Undone loaded event ∧ ∃ t, Stands (afterEvent loaded event) t ∧ ModuleLaw (afterEvent loaded event) t rest := by
  cases loaded with
  | none =>
      cases event with
      | load l =>
          obtain ⟨r, t, ran, fine, -⟩ := law
          obtain ⟨rfl, rfl⟩ := Prog.run_unique (run_module_init l s) ran
          obtain ⟨served, later⟩ := fine rfl
          have covered := (serves_iff l s stands.1).mp served
          exact ⟨covered, _, ⟨covered, s, stands, rfl⟩, later⟩
      | unload => exact ⟨trivial, s, stands, law⟩
  | some l =>
      cases event with
      | load other => exact ⟨trivial, s, stands, law⟩
      -- Only the range recorded last is unmapped, whatever was added.
      | unload =>
          obtain ⟨t, ran, clean, later⟩ := law
          obtain rfl : { s with map := s.map.erase s.recorded } = t := (Outcome.done.inj ran).2
          obtain ⟨one, refused⟩ := (exit_clean_iff l s stands).mp clean
          exact ⟨⟨one, refused⟩, _, exit_stands l s stands one refused, later⟩

theorem undone_gives_law (loaded : Option Load) (s : ModuleState) (event : ModuleEvent) (rest : List ModuleEvent)
    (stands : Stands loaded s) (undone : Undone loaded event) :
    ∃ t, Stands (afterEvent loaded event) t ∧
      (ModuleLaw (afterEvent loaded event) t rest → ModuleLaw loaded s (event :: rest)) := by
  cases loaded with
  | none =>
      cases event with
      | load l =>
          have served := (serves_iff l s stands.1).mpr undone
          refine ⟨_, ⟨undone, s, stands, rfl⟩, fun later => ?_⟩
          exact ⟨0, _, run_module_init l s, fun _ => ⟨served, later⟩, fun failed => absurd rfl failed⟩
      | unload => exact ⟨s, stands, id⟩
  | some l =>
      cases event with
      | load other => exact ⟨s, stands, id⟩
      | unload =>
          have clean := (exit_clean_iff l s stands).mpr undone
          exact ⟨_, exit_stands l s stands undone.1 undone.2, fun later => ⟨_, rfl, clean, later⟩⟩

theorem module_exit_undoes_iff (events : List ModuleEvent) :
    ModuleLaw none notLoaded events ↔ Follows afterEvent Undone none events :=
  law_iff_follows ModuleLaw afterEvent Undone Stands (fun loaded _ => by cases loaded <;> trivial) module_law_needs
    undone_gives_law events none notLoaded ⟨rfl, rfl⟩

-- The defaults: four devices under a major the kernel chooses, and all goes well.
def defaultLoad : Load := ⟨0, 0, 4, 0, 0x0fd00000, fun _ => 0, by decide⟩

theorem three_numbers_stay_mapped : ¬ ModuleLaw none notLoaded [.load defaultLoad, .unload] := by
  intro law
  obtain ⟨r, t, ran, fine, -⟩ := law
  obtain ⟨rfl, rfl⟩ := Prog.run_unique (run_module_init defaultLoad notLoaded) ran
  obtain ⟨-, t, ran, clean, -⟩ := fine rfl
  obtain rfl := (Outcome.done.inj ran).2
  exact clean.1 0 (by decide) (by decide)

end OneDriver.Scull
