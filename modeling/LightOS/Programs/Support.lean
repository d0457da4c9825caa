import LightOS.Filesystem.Strings
import Mathlib.Logic.Function.Basic

/-! # The string functions of the user programs

ece391support.c.  A loop that ends at a NUL is given the number of rounds it may take; it has
no result if they do not suffice.
-/

namespace LightOS.Programs

open Filesystem

/-- `ece391_strlen`, from the length `len` on. -/
def ece391Strlen (s : CharPtr) (len : Nat) : Nat → Option Nat
  | 0 => none
  | rounds + 1 => if s len = 0 then some len else ece391Strlen s (len + 1) rounds

/-- `ece391_strcpy`, from place `src` of a buffer to place `dst` of the same buffer. -/
def ece391Strcpy (data : CharPtr) (dst src : Nat) : Nat → Option CharPtr
  | 0 => none
  | rounds + 1 =>
      let copied := Function.update data dst (data src)
      if data src = 0 then some copied else ece391Strcpy copied (dst + 1) (src + 1) rounds

/-- `ece391_strncmp`, from index `i` on with `n` characters left. -/
def ece391Strncmp (s1 s2 : CharPtr) (i : Nat) : Nat → Int
  | 0 => 0
  | n + 1 =>
      if s1 i = s2 i then if s1 i = 0 ∨ n = 0 then 0 else ece391Strncmp s1 s2 (i + 1) n
      else ((s1 i).toNat : Int) - (s2 i).toNat

/-- The bytes that `ece391_fdputs` writes. -/
def ece391Fdputs (rounds : Nat) (s : CharPtr) : Option (List UInt8) :=
  (ece391Strlen s 0 rounds).map fun len => (List.range len).map s

section Strings

variable {s s' : CharPtr} {data : CharPtr} {i dst src : Nat} {text : List UInt8}

theorem ece391Strlen_spells (spells : Spells s i text) {rounds : Nat}
    (enough : text.length < rounds) : ece391Strlen s i rounds = some (i + text.length) := by
  induction text generalizing i rounds with
  | nil =>
      obtain ⟨rounds, rfl⟩ := Nat.exists_eq_succ_of_ne_zero (Nat.pos_iff_ne_zero.mp enough)
      have nul : s i = 0 := spells.nul
      rw [ece391Strlen, if_pos nul, List.length_nil, Nat.add_zero]
  | cons c text ih =>
      obtain ⟨rounds, rfl⟩ := Nat.exists_eq_succ_of_ne_zero (Nat.ne_zero_of_lt enough)
      obtain ⟨here, notNul⟩ := spells.head
      rw [ece391Strlen, here, if_neg notNul, ih spells.tail (Nat.lt_of_succ_lt_succ enough),
        List.length_cons, Nat.add_right_comm, Nat.add_assoc]

/-- A text comes out as it is spelled. -/
theorem ece391Fdputs_spells (spells : Spells s 0 text) {rounds : Nat}
    (enough : text.length < rounds) : ece391Fdputs rounds s = some text := by
  rw [ece391Fdputs, ece391Strlen_spells spells enough, Option.map_some, Option.some.injEq,
    Nat.zero_add]
  apply List.ext_getElem
  · simp
  · intro k _ inside
    have char := (spells.char k inside).1
    rw [Nat.zero_add] at char
    rw [List.getElem_map, List.getElem_range, char]

/-- A text is copied to a place in front of it, together with its NUL, and nothing else is
    written. -/
theorem ece391Strcpy_spells (spells : Spells data src text) (before : dst < src) {rounds : Nat}
    (enough : text.length < rounds) :
    ∃ copied, ece391Strcpy data dst src rounds = some copied ∧ Spells copied dst text ∧
      ∀ k, k < dst ∨ dst + text.length < k → copied k = data k := by
  induction text generalizing data dst src rounds with
  | nil =>
      obtain ⟨rounds, rfl⟩ := Nat.exists_eq_succ_of_ne_zero (Nat.pos_iff_ne_zero.mp enough)
      have nul : data src = 0 := spells.nul
      refine ⟨Function.update data dst 0, by rw [ece391Strcpy, nul, if_pos rfl],
        ⟨fun k inside => absurd inside (Nat.not_lt_zero k), Function.update_self ..⟩, ?_⟩
      intro k other
      exact Function.update_of_ne (by simp only [List.length_nil] at other; omega) _ _
  | cons c text ih =>
      obtain ⟨rounds, rfl⟩ := Nat.exists_eq_succ_of_ne_zero (Nat.ne_zero_of_lt enough)
      obtain ⟨here, notNul⟩ := spells.head
      have kept : Spells (Function.update data dst c) (src + 1) text :=
        spells.tail.of_same fun k from_ _ => Function.update_of_ne (by omega) _ _
      obtain ⟨copied, result, copy, others⟩ :=
        ih kept (Nat.succ_lt_succ before) (Nat.lt_of_succ_lt_succ enough)
      have first : copied dst = c := by
        rw [others dst (.inl (Nat.lt_succ_self dst)), Function.update_self]
      refine ⟨copied, by rw [ece391Strcpy, here, if_neg notNul, result],
        .cons first notNul copy, fun k other => ?_⟩
      rw [List.length_cons] at other
      rw [others k (by omega), Function.update_of_ne (by omega)]

/-- `ece391_strncmp` with the length of the second text asks whether it begins the first. -/
theorem ece391Strncmp_spells {pattern : List UInt8} (spells : Spells s i text)
    (spells' : Spells s' i pattern) :
    ece391Strncmp s s' i pattern.length = 0 ↔ pattern <+: text := by
  induction pattern generalizing i text with
  | nil => simp [ece391Strncmp]
  | cons c pattern ih =>
      obtain ⟨here', notNul'⟩ := spells'.head
      rw [List.length_cons, ece391Strncmp, here']
      cases text with
      | nil =>
          have here : s i = 0 := spells.nul
          rw [here, if_neg (Ne.symm notNul'), Int.sub_eq_zero, Int.natCast_inj, UInt8.toNat_inj]
          simpa using Ne.symm notNul'
      | cons d text =>
          obtain ⟨here, notNul⟩ := spells.head
          rw [here, List.cons_prefix_cons]
          by_cases same : d = c
          · rw [if_pos same]
            by_cases last : pattern.length = 0
            · rw [if_pos (.inr last), List.length_eq_zero_iff.mp last]
              simp [same]
            · rw [if_neg (by simp [notNul, last]), ih spells.tail spells'.tail]
              simp [same]
          · rw [if_neg same, Int.sub_eq_zero, Int.natCast_inj, UInt8.toNat_inj]
            simp [same, Ne.symm same]

end Strings

end LightOS.Programs
