import Mathlib.Algebra.Group.Int.Defs
import Mathlib.Algebra.Group.Nat.Defs
import Mathlib.Tactic.Common

/-! # 32-bit C integers as numbers

Unsigned words are natural numbers, signed ones are integers; the conversions C makes
between the two are the functions of this file.
-/

namespace LightOS.Lib

/-- Conversion to `uint32_t` of a natural number. -/
def wrap32 (n : Nat) : Nat := n % 2 ^ 32

/-- The `int32_t` with the same 32 bits. -/
def toInt32 (n : Nat) : Int := if n % 2 ^ 32 < 2 ^ 31 then n % 2 ^ 32 else n % 2 ^ 32 - 2 ^ 32

/-- The `uint32_t` with the same 32 bits. -/
def toUint32 (i : Int) : Nat := (i % 2 ^ 32).toNat

theorem wrap32_small {n : Nat} (small : n < 2 ^ 32) : wrap32 n = n :=
  Nat.mod_eq_of_lt small

theorem toInt32_small {n : Nat} (small : n < 2 ^ 31) : toInt32 n = n := by
  simp only [toInt32]
  omega

theorem toUint32_nonneg {i : Int} (nonneg : 0 ≤ i) (small : i < 2 ^ 32) :
    toUint32 i = i.toNat := by
  simp only [toUint32]
  omega

theorem toUint32_natCast {n : Nat} (small : n < 2 ^ 32) : toUint32 (n : Int) = n := by
  simp only [toUint32]
  omega

theorem toInt32_eq_neg_one {n : Nat} (small : n < 2 ^ 32) :
    toInt32 n = -1 ↔ n = 0xFFFFFFFF := by
  simp only [toInt32]
  omega

end LightOS.Lib
