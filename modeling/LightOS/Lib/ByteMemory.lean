import Mathlib.Algebra.Group.Nat.Defs
import Mathlib.Data.List.Induction
import Mathlib.Logic.Function.Basic
import Mathlib.Tactic.Common

/-! # Byte memory with 32-bit addresses

A store of several bytes from an address on, with addresses that wrap around.  What a loop
of stores leaves behind is one `overlay`, which says both what is at the stored addresses
and that nothing else has changed.
-/

namespace LightOS.Lib

/-- Memory, with `bytes` from `start` on. -/
def overlay (memory : UInt32 → UInt8) (start : UInt32) (bytes : List UInt8) : UInt32 → UInt8 :=
  fun address => bytes[(address - start).toNat]?.getD (memory address)

section Overlay

variable {memory : UInt32 → UInt8} {start : UInt32} {bytes : List UInt8}

@[simp] theorem overlay_nil : overlay memory start [] = memory := rfl

theorem toNat_add_ofNat_sub (start : UInt32) {i : Nat} (small : i < 2 ^ 32) :
    (start + UInt32.ofNat i - start).toNat = i := by
  rw [UInt32.add_comm, UInt32.add_sub_cancel, UInt32.toNat_ofNat_of_lt' small]

theorem eq_add_ofNat_iff {start address : UInt32} {i : Nat} (small : i < 2 ^ 32) :
    address = start + UInt32.ofNat i ↔ (address - start).toNat = i := by
  constructor
  · rintro rfl
    exact toNat_add_ofNat_sub start small
  · rintro rfl
    rw [UInt32.ofNat_toNat, UInt32.add_comm, UInt32.sub_add_cancel]

/-- One more store at the end. -/
theorem overlay_concat (small : bytes.length < 2 ^ 32) (byte : UInt8) :
    overlay memory start (bytes ++ [byte]) =
      Function.update (overlay memory start bytes) (start + UInt32.ofNat bytes.length) byte := by
  funext address
  unfold overlay
  by_cases here : address = start + UInt32.ofNat bytes.length
  · rw [here, Function.update_self, toNat_add_ofNat_sub start small]
    simp
  · rw [Function.update_of_ne here]
    have ne : (address - start).toNat ≠ bytes.length :=
      fun same => here ((eq_add_ofNat_iff small).mpr same)
    by_cases before : (address - start).toNat < bytes.length
    · rw [List.getElem?_append_left before]
    · have after : (bytes ++ [byte]).length ≤ (address - start).toNat := by
        rw [List.length_append, List.length_singleton]
        omega
      rw [List.getElem?_eq_none after, List.getElem?_eq_none (by omega)]

/-- The bytes are where they have been stored. -/
theorem overlay_get {i : Nat} (inside : i < bytes.length) (small : bytes.length ≤ 2 ^ 32) :
    overlay memory start bytes (start + UInt32.ofNat i) = bytes[i] := by
  unfold overlay
  rw [toNat_add_ofNat_sub start (by omega), List.getElem?_eq_getElem inside, Option.getD_some]

/-- And nothing else has changed. -/
theorem overlay_outside {address : UInt32} (small : bytes.length ≤ 2 ^ 32)
    (outside : ∀ i < bytes.length, address ≠ start + UInt32.ofNat i) :
    overlay memory start bytes address = memory address := by
  have after : bytes.length ≤ (address - start).toNat := by
    by_contra inside
    rw [Nat.not_le] at inside
    exact outside _ inside ((eq_add_ofNat_iff (by omega)).mpr rfl)
  rw [overlay, List.getElem?_eq_none after, Option.getD_none]

/-- Further bytes stored where the first ones end. -/
theorem overlay_append (more : List UInt8) (small : bytes.length + more.length ≤ 2 ^ 32) :
    overlay (overlay memory start bytes) (start + UInt32.ofNat bytes.length) more =
      overlay memory start (bytes ++ more) := by
  induction more using List.reverseRecOn with
  | nil => rw [List.append_nil, overlay_nil]
  | append_singleton more byte ih =>
      rw [List.length_append, List.length_singleton] at small
      rw [overlay_concat (by omega), ih (by omega), ← List.append_assoc,
        overlay_concat (by rw [List.length_append]; omega), List.length_append,
        UInt32.ofNat_add, UInt32.add_assoc]

end Overlay

theorem toNat_ofNat_small {n : Nat} (small : n < 2 ^ 32) : (UInt32.ofNat n).toNat = n :=
  UInt32.toNat_ofNat_of_lt' small

theorem toNat_add_small {address : UInt32} {i : Nat} (small : address.toNat + i < 2 ^ 32) :
    (address + UInt32.ofNat i).toNat = address.toNat + i := by
  rw [UInt32.toNat_add, toNat_ofNat_small (by omega), Nat.mod_eq_of_lt small]

/-- `n` bytes from the address on do not reach over the end of the address space. -/
def NoWrap (address n : UInt32) : Prop := address.toNat + n.toNat ≤ 2 ^ 32

instance (address n : UInt32) : Decidable (NoWrap address n) :=
  inferInstanceAs (Decidable (_ ≤ _))

/-- Two regions of `n` bytes have no byte in common. -/
def Apart (a b n : UInt32) : Prop := a.toNat + n.toNat ≤ b.toNat ∨ b.toNat + n.toNat ≤ a.toNat

instance (a b n : UInt32) : Decidable (Apart a b n) := inferInstanceAs (Decidable (_ ∨ _))

/-- Between the two memories only `n` bytes may differ, and those are what `value` says. -/
structure Exactly (start n : UInt32) (value : Nat → UInt8) (before after : UInt32 → UInt8) :
    Prop where
  inside : ∀ i < n.toNat, after (start + UInt32.ofNat i) = value i
  outside : ∀ address, (∀ i < n.toNat, address ≠ start + UInt32.ofNat i) →
    after address = before address

section Regions

variable {memory : UInt32 → UInt8} {start dest src n : UInt32} {bytes : List UInt8}

theorem exactly_overlay {value : Nat → UInt8} (length : bytes.length = n.toNat)
    (values : ∀ i, ∀ inside : i < bytes.length, bytes[i] = value i) :
    Exactly start n value memory (overlay memory start bytes) := by
  have small : bytes.length ≤ 2 ^ 32 := length ▸ Nat.le_of_lt n.toNat_lt
  constructor
  · intro i inside
    rw [← length] at inside
    rw [overlay_get inside small, values i inside]
  · intro address outside
    rw [← length] at outside
    exact overlay_outside small outside

/-- A store to the one region does not reach the other. -/
theorem Apart.overlay_source (apart : Apart dest src n) (destFits : NoWrap dest n)
    (srcFits : NoWrap src n) (few : bytes.length ≤ n.toNat) {j : Nat} (inside : j < n.toNat) :
    overlay memory dest bytes (src + UInt32.ofNat j) = memory (src + UInt32.ofNat j) := by
  unfold NoWrap at destFits srcFits
  have small := n.toNat_lt
  apply overlay_outside (by omega)
  intro i stored same
  have places := congrArg UInt32.toNat same
  rw [toNat_add_small (by omega), toNat_add_small (by omega)] at places
  rcases apart with below | above <;> omega

end Regions

end LightOS.Lib
