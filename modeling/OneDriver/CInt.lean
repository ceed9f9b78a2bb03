import OneDriver.Prog
import Mathlib.Algebra.Order.Ring.Int

set_option autoImplicit false

namespace OneDriver

-- The two data models the drivers are built for: int is 32 bits in both, and
-- long, size_t and pointers are one machine word.
inductive Abi where
  | ilp32
  | lp64
deriving DecidableEq, Repr

namespace Abi

def wordBits : Abi → Nat
  | .ilp32 => 32
  | .lp64 => 64

def pointerSize : Abi → Nat
  | .ilp32 => 4
  | .lp64 => 8

end Abi

def int32 (x : Int) : Int := x.bmod (2 ^ 32)

def int64 (x : Int) : Int := x.bmod (2 ^ 64)

def Abi.long : Abi → Int → Int
  | .ilp32, x => int32 x
  | .lp64, x => int64 x

-- unsigned int, and the word-sized unsigned types: unsigned long and size_t.
def uint32 (x : Int) : Nat := (x % 2 ^ 32).toNat

def Abi.ulong (abi : Abi) (x : Int) : Nat := (x % 2 ^ abi.wordBits).toNat

-- A loff_t that meets an unsigned long: where that is as wide, both are unsigned.
def Abi.mixed : Abi → Int → Int
  | .ilp32, x => int64 x
  | .lp64, x => x % 2 ^ 64

theorem int32_eq (x : Int) (low : -2 ^ 31 ≤ x) (high : x < 2 ^ 31) : int32 x = x := by
  apply Int.bmod_eq_of_le
  · simpa using low
  · simpa using high

theorem int64_eq (x : Int) (low : -2 ^ 63 ≤ x) (high : x < 2 ^ 63) : int64 x = x := by
  apply Int.bmod_eq_of_le
  · simpa using low
  · simpa using high

theorem long_eq (abi : Abi) (x : Int) (low : -2 ^ 31 ≤ x) (high : x < 2 ^ 31) : abi.long x = x := by
  cases abi with
  | ilp32 => exact int32_eq x low high
  | lp64 => exact int64_eq x (by omega) (by omega)

theorem ulong_of_lt (abi : Abi) (x : Int) (low : 0 ≤ x) (high : x < 2 ^ abi.wordBits) : (abi.ulong x : Int) = x := by
  rw [Abi.ulong, Int.emod_eq_of_lt low high, Int.toNat_of_nonneg low]

theorem ulong_eq (abi : Abi) (x : Int) (low : 0 ≤ x) (high : x < 2 ^ 32) : (abi.ulong x : Int) = x := by
  apply ulong_of_lt abi x low
  cases abi with
  | ilp32 => exact high
  | lp64 => exact Int.lt_trans high (by decide)

theorem mixed_eq (abi : Abi) (x : Int) (low : 0 ≤ x) (high : x < 2 ^ 63) : abi.mixed x = x := by
  cases abi with
  | ilp32 => exact int64_eq x (by omega) high
  | lp64 => exact Int.emod_eq_of_lt low (by omega)

def enoent : Int := 2
def eagain : Int := 11
def enomem : Int := 12
def efault : Int := 14
def ebusy : Int := 16
def eexist : Int := 17
def enodev : Int := 19
def einval : Int := 22
def enotty : Int := 25
def erestartsys : Int := 512

structure Errno where
  value : Int
  negative : value < 0

-- A pointer of the kernel's as IS_ERR tells them apart.
inductive ErrPtr where
  | null
  | error (errno : Errno)
  | object (id : Nat)

def ErrPtr.resource {ρ : Type} (kind : Nat → ρ) : ErrPtr → Option ρ
  | .object id => some (kind id)
  | _ => none

-- Signed division rounds towards zero and traps on a zero divisor.
def cdiv {ℓ σ φ : Type} (zero : φ) (a b : Int) : Prog ℓ σ φ Int :=
  if b = 0 then .crash zero else pure (a.tdiv b)

def cmod {ℓ σ φ : Type} (zero : φ) (a b : Int) : Prog ℓ σ φ Int :=
  if b = 0 then .crash zero else pure (a.tmod b)

theorem cdiv_of_ne {ℓ σ φ : Type} (zero : φ) (a b : Int) (nonzero : b ≠ 0) :
    (cdiv zero a b : Prog ℓ σ φ Int) = pure (a.tdiv b) := if_neg nonzero

theorem cmod_of_ne {ℓ σ φ : Type} (zero : φ) (a b : Int) (nonzero : b ≠ 0) :
    (cmod zero a b : Prog ℓ σ φ Int) = pure (a.tmod b) := if_neg nonzero

end OneDriver
