import Mathlib.Data.Nat.Digits.Lemmas

/-! # Numerals

Texts of digits `0` to `9` and `A` to `Z` in a radix up to 36, what number they stand for,
and the numeral of a number.
-/

namespace LightOS.Lib

/-- The value of a digit. -/
def digitValue (c : UInt8) : Option Nat :=
  if 48 ≤ c.toNat ∧ c.toNat ≤ 57 then some (c.toNat - 48)
  else if 65 ≤ c.toNat ∧ c.toNat ≤ 90 then some (c.toNat - 55)
  else none

/-- One more digit on the right. -/
def decodeDigit (radix value : Nat) (c : UInt8) : Option Nat :=
  (digitValue c).bind fun d => if d < radix then some (value * radix + d) else none

/-- The number that a text of digits of a radix stands for. -/
def decode (radix : Nat) (text : List UInt8) : Option Nat := text.foldlM (decodeDigit radix) 0

/-- The number that a text with a `-` or without one stands for. -/
def decodeSigned (radix : Nat) : List UInt8 → Option Int
  | 45 :: text => (decode radix text).map fun n : Nat => -(n : Int)
  | text => (decode radix text).map fun n : Nat => (n : Int)

/-- The digit with a value. -/
def digitChar (d : Nat) : UInt8 := UInt8.ofNat (if d < 10 then 48 + d else 55 + d)

/-- The numeral of a number. -/
def numeral (radix n : Nat) : List UInt8 :=
  if n = 0 then [digitChar 0] else ((radix.digits n).map digitChar).reverse

/-- A text that is a numeral of the number: digits, the first of them not `0` unless it is
    the only one. -/
structure IsNumeral (radix : Nat) (text : List UInt8) (n : Nat) : Prop where
  value : decode radix text = some n
  nonempty : text ≠ []
  leading : ∀ rest, text = digitChar 0 :: rest → rest = []

/-- A numeral of the magnitude, with `-` in front of it for a negative number. -/
structure IsSignedNumeral (radix : Nat) (text : List UInt8) (i : Int) : Prop where
  value : decodeSigned radix text = some i
  nonneg : 0 ≤ i → IsNumeral radix text i.toNat
  neg : i < 0 → ∃ digits, text = 45 :: digits ∧ IsNumeral radix digits (-i).toNat

theorem digitChars : ∀ d < 36, digitValue (digitChar d) = some d ∧ digitChar d ≠ 0 ∧
    digitChar d ≠ 45 ∧ (digitChar d = digitChar 0 → d = 0) := by
  decide

section Decode

variable {radix n : Nat} {text : List UInt8}

theorem decode_concat (c : UInt8) :
    decode radix (text ++ [c]) = (decode radix text).bind (decodeDigit radix · c) := by
  simp only [decode, List.foldlM_append, List.foldlM_cons, List.foldlM_nil, bind_pure]
  rfl

theorem decodeDigit_digitChar (small : radix ≤ 36) {d : Nat} (digit : d < radix) (value : Nat) :
    decodeDigit radix value (digitChar d) = some (value * radix + d) := by
  rw [decodeDigit, (digitChars d (by omega)).1, Option.bind_some, if_pos digit]

/-- Digits in the other order, lowest place value first. -/
theorem decode_reverse (small : radix ≤ 36) {digits : List Nat} (below : ∀ d ∈ digits, d < radix) :
    decode radix (digits.map digitChar).reverse = some (Nat.ofDigits radix digits) := by
  induction digits with
  | nil => rfl
  | cons d digits ih =>
      have higher := ih fun d mem => below d (List.mem_cons_of_mem _ mem)
      rw [List.map_cons, List.reverse_cons, decode_concat, higher, Option.bind_some,
        decodeDigit_digitChar small (below d List.mem_cons_self), Nat.ofDigits_cons, Nat.mul_comm,
        Nat.add_comm]

theorem decode_numeral (large : 2 ≤ radix) (small : radix ≤ 36) (n : Nat) :
    decode radix (numeral radix n) = some n := by
  unfold numeral
  split
  · rename_i zero
    subst zero
    have digit : decodeDigit radix 0 (digitChar 0) = some (0 * radix + 0) :=
      decodeDigit_digitChar small (by omega) 0
    rw [Nat.zero_mul, Nat.add_zero] at digit
    rw [decode, List.foldlM_cons, digit]
    rfl
  · rw [decode_reverse small fun d mem => Nat.digits_lt_base large mem, Nat.ofDigits_digits]

/-- The characters of a numeral are digits of the radix. -/
theorem mem_numeral (large : 2 ≤ radix) {c : UInt8} (mem : c ∈ numeral radix n) :
    ∃ d < radix, c = digitChar d := by
  unfold numeral at mem
  split at mem
  · rw [List.mem_singleton] at mem
    exact ⟨0, by omega, mem⟩
  · rw [List.mem_reverse, List.mem_map] at mem
    obtain ⟨d, digit, rfl⟩ := mem
    exact ⟨d, Nat.digits_lt_base large digit, rfl⟩

theorem numeral_ne_nul (large : 2 ≤ radix) (small : radix ≤ 36) :
    ∀ c ∈ numeral radix n, c ≠ 0 := by
  intro c mem
  obtain ⟨d, digit, rfl⟩ := mem_numeral large mem
  exact (digitChars d (by omega)).2.1

theorem isNumeral_numeral (large : 2 ≤ radix) (small : radix ≤ 36) (n : Nat) :
    IsNumeral radix (numeral radix n) n where
  value := decode_numeral large small n
  nonempty := by
    unfold numeral
    split
    · exact List.cons_ne_nil _ _
    · rename_i nonzero
      simpa [Nat.digits_eq_nil_iff_eq_zero] using nonzero
  leading := by
    intro rest starts
    unfold numeral at starts
    split at starts
    · cases starts
      rfl
    · rename_i nonzero
      -- the first character is the last digit, and that is not 0
      have notNil := Nat.digits_ne_nil_iff_ne_zero (b := radix).mpr nonzero
      have last := Nat.getLast_digit_ne_zero radix nonzero
      have digit := Nat.digits_lt_base large (List.getLast_mem notNil)
      rw [← List.dropLast_append_getLast notNil, List.map_append, List.reverse_append] at starts
      have first := (List.cons.inj starts).1
      exact absurd ((digitChars _ (by omega)).2.2.2 first) last

theorem numeral_length (large : 2 ≤ radix) {k : Nat} (positive : 0 < k) (less : n < radix ^ k) :
    (numeral radix n).length ≤ k := by
  unfold numeral
  split
  · exact positive
  · rw [List.length_reverse, List.length_map]
    exact (Nat.digits_length_le_iff large n).mpr less

/-- A text of digits has no `-` in front. -/
theorem decodeSigned_numeral (large : 2 ≤ radix) (small : radix ≤ 36) (n : Nat) :
    decodeSigned radix (numeral radix n) = some (n : Int) := by
  have value := decode_numeral large small n
  cases written : numeral radix n with
  | nil => exact absurd written (isNumeral_numeral large small n).nonempty
  | cons c rest =>
      have first : c ≠ 45 := by
        obtain ⟨d, digit, rfl⟩ := mem_numeral (n := n) large (written ▸ List.mem_cons_self)
        exact (digitChars d (by omega)).2.2.1
      have unsigned : decodeSigned radix (c :: rest) =
          (decode radix (c :: rest)).map fun n : Nat => (n : Int) := by
        unfold decodeSigned
        split
        · rename_i minus
          exact absurd (List.cons.inj minus).1 first
        · rfl
      rw [unsigned, ← written, value, Option.map_some]

/-- Zeros on the left change nothing. -/
theorem decode_zeros (large : 0 < radix) (k : Nat) :
    decode radix (List.replicate k (digitChar 0) ++ text) = decode radix text := by
  induction k with
  | zero => rfl
  | succ k ih =>
      have none : decodeDigit radix 0 (digitChar 0) = some 0 := by
        simp only [decodeDigit, (digitChars 0 (by decide)).1, Option.bind_some, if_pos large,
          Nat.zero_mul]
      rw [List.replicate_succ, List.cons_append, decode, List.foldlM_cons, none]
      exact ih

end Decode

end LightOS.Lib
