import Mathlib.Algebra.BigOperators.Group.List.Basic
import Mathlib.Data.Nat.ModEq

/-! # Bit fields

A structure of bit fields is its members one after the other, from the lowest bit on, each
cut down to its width.  What hardware reads back from a run of bits is the member that lies
there.
-/

namespace LightOS.Lib

/-- A member: its width in bits, and what is stored in it. -/
structure BitField where
  width : Nat
  value : Nat

/-- The word that a structure of bit fields is. -/
def packFields : List BitField → Nat
  | [] => 0
  | member :: members => member.value % 2 ^ member.width + 2 ^ member.width * packFields members

def totalWidth : List BitField → Nat
  | [] => 0
  | member :: members => member.width + totalWidth members

/-- The `width` bits of a word from bit `low` on. -/
def bitsAt (word low width : Nat) : Nat := word / 2 ^ low % 2 ^ width

/-- A store to the member of `width` bits from bit `low` on. -/
def setBits (word low width value : Nat) : Nat :=
  word % 2 ^ low + 2 ^ low * (value % 2 ^ width + 2 ^ width * (word / 2 ^ (low + width)))

section Fields

variable {before members : List BitField} {member : BitField} {word low width : Nat}

/-- The bits of the word behind its first member. -/
theorem packFields_div (member : BitField) (members : List BitField) :
    packFields (member :: members) / 2 ^ member.width = packFields members := by
  have first := Nat.mod_lt member.value (Nat.two_pow_pos member.width)
  rw [packFields, Nat.add_mul_div_left _ _ (Nat.two_pow_pos member.width),
    Nat.div_eq_of_lt first, Nat.zero_add]

/-- A member is read back from where it lies. -/
theorem bitsAt_packFields (before : List BitField) (member : BitField) (members : List BitField) :
    bitsAt (packFields (before ++ member :: members)) (totalWidth before) member.width =
      member.value % 2 ^ member.width := by
  induction before with
  | nil =>
      rw [bitsAt, totalWidth, Nat.pow_zero, Nat.div_one, List.nil_append, packFields,
        Nat.add_mul_mod_self_left, Nat.mod_mod]
  | cons first before ih =>
      rw [bitsAt, totalWidth, Nat.pow_add, ← Nat.div_div_eq_div_mul, List.cons_append,
        packFields_div]
      exact ih

/-- A run of bits put together from a lower part and the part above it. -/
theorem bitsAt_add (word low width more : Nat) :
    bitsAt word low (width + more) =
      bitsAt word low width + 2 ^ width * bitsAt word (low + width) more := by
  simp only [bitsAt]
  rw [Nat.pow_add, Nat.pow_add, ← Nat.div_div_eq_div_mul, Nat.mod_mul]

/-- The upper and the lower bits of a run. -/
theorem bitsAt_upper (word low width more : Nat) :
    bitsAt word (low + width) more = bitsAt word low (width + more) / 2 ^ width := by
  rw [bitsAt, bitsAt, Nat.pow_add, Nat.pow_add, Nat.mod_mul_right_div_self,
    Nat.div_div_eq_div_mul]

theorem bitsAt_lower (word low width more : Nat) :
    bitsAt word low width = bitsAt word low (width + more) % 2 ^ width := by
  rw [bitsAt, bitsAt, Nat.pow_add, Nat.mod_mul_right_mod]

/-- The bits below a member. -/
theorem setBits_mod (word low width value : Nat) :
    setBits word low width value % 2 ^ low = word % 2 ^ low := by
  rw [setBits, Nat.add_mul_mod_self_left, Nat.mod_mod]

/-- A member and the bits above it. -/
theorem setBits_div (word low width value : Nat) :
    setBits word low width value / 2 ^ low =
      value % 2 ^ width + 2 ^ width * (word / 2 ^ (low + width)) := by
  rw [setBits, Nat.add_mul_div_left _ _ (Nat.two_pow_pos low),
    Nat.div_eq_of_lt (Nat.mod_lt _ (Nat.two_pow_pos low)), Nat.zero_add]

/-- A store to a member is read back. -/
theorem bitsAt_setBits (word low width value : Nat) :
    bitsAt (setBits word low width value) low width = value % 2 ^ width := by
  rw [bitsAt, setBits_div, Nat.add_mul_mod_self_left, Nat.mod_mod]

/-- And the other members keep what they hold. -/
theorem bitsAt_setBits_of_apart (word value : Nat) {low width other more : Nat}
    (apart : other + more ≤ low ∨ low + width ≤ other) :
    bitsAt (setBits word low width value) other more = bitsAt word other more := by
  rcases apart with below | above
  · obtain ⟨rest, rfl⟩ := Nat.exists_eq_add_of_le below
    have cut : ∀ w, bitsAt w other more = w % 2 ^ (other + more + rest) / 2 ^ other % 2 ^ more := by
      intro w
      rw [bitsAt, Nat.add_assoc, Nat.pow_add, Nat.mod_mul_right_div_self, Nat.pow_add,
        Nat.mod_mul_right_mod]
    rw [cut, setBits_mod, ← cut]
  · obtain ⟨rest, rfl⟩ := Nat.exists_eq_add_of_le above
    have cut : ∀ w, bitsAt w (low + width + rest) more =
        w / 2 ^ low / 2 ^ width / 2 ^ rest % 2 ^ more := by
      intro w
      rw [bitsAt, Nat.pow_add, Nat.pow_add, ← Nat.div_div_eq_div_mul, ← Nat.div_div_eq_div_mul]
    have upper : (value % 2 ^ width + 2 ^ width * (word / 2 ^ (low + width))) / 2 ^ width =
        word / 2 ^ (low + width) := by
      rw [Nat.add_mul_div_left _ _ (Nat.two_pow_pos width),
        Nat.div_eq_of_lt (Nat.mod_lt _ (Nat.two_pow_pos width)), Nat.zero_add]
    rw [cut, setBits_div, upper, cut, Nat.pow_add, ← Nat.div_div_eq_div_mul]

end Fields

end LightOS.Lib
