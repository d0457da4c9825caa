import LightOS.Filesystem.Lookup

/-! # Strings

A text that is spelled in memory from an index on, up to its NUL, and what `strlen` and
`strncmp` make of it.
-/

namespace LightOS.Filesystem

open Lib

/-- From index `i` on, the characters of `chars` and then NUL. -/
structure Spells (s : CharPtr) (i : Nat) (chars : List UInt8) : Prop where
  char : ∀ k, ∀ inside : k < chars.length, s (i + k) = chars[k] ∧ chars[k] ≠ 0
  nul : s (i + chars.length) = 0

section Strings

variable {s : CharPtr} {i : Nat} {text : List UInt8}

theorem strlenFrom_spec (fuel : Nat) {len : Nat} (before : ∀ k < len, s k ≠ 0) :
    (∀ k < strlenFrom s fuel len, s k ≠ 0) ∧ strlenFrom s fuel len ≤ len + fuel ∧
      (strlenFrom s fuel len < len + fuel → s (strlenFrom s fuel len) = 0) := by
  induction fuel generalizing len with
  | zero => exact ⟨before, Nat.le_refl _, fun less => absurd less (Nat.lt_irrefl _)⟩
  | succ fuel ih =>
      unfold strlenFrom
      split
      · rename_i nul
        exact ⟨before, Nat.le_add_right _ _, fun _ => nul⟩
      · rename_i notNul
        have further : ∀ k < len + 1, s k ≠ 0 := by
          intro k less
          rcases Nat.lt_succ_iff_lt_or_eq.mp less with old | rfl
          · exact before k old
          · exact notNul
        obtain ⟨nonzero, bound, nul⟩ := ih further
        exact ⟨nonzero, by omega, fun less => nul (by omega)⟩

/-- No NUL before the length, and one there unless the address space has ended the search. -/
theorem strlen_spec (s : CharPtr) :
    (∀ k < strlen s, s k ≠ 0) ∧ strlen s ≤ 2 ^ 32 ∧ (strlen s < 2 ^ 32 → s (strlen s) = 0) := by
  have spec := strlenFrom_spec (s := s) (2 ^ 32) (fun k before => absurd before (Nat.not_lt_zero k))
  rw [Nat.zero_add] at spec
  exact spec

/-- A string constant spells its characters. -/
theorem spells_charPtr (nonzero : ∀ c ∈ text, c ≠ 0) : Spells (charPtr text) 0 text where
  char k inside := by simp [charPtr, inside, nonzero _ (List.getElem_mem inside)]
  nul := by simp [charPtr]

/-- The length of a text is where its NUL is. -/
theorem Spells.strlen_eq (spells : Spells s 0 text)
    (small : text.length < 2 ^ 32) : strlen s = text.length := by
  obtain ⟨nonzero, _, nul⟩ := strlen_spec s
  have ended := spells.nul
  rw [Nat.zero_add] at ended
  rcases Nat.lt_trichotomy (strlen s) text.length with less | same | more
  · obtain ⟨spelled, notNul⟩ := spells.char _ less
    rw [Nat.zero_add] at spelled
    exact absurd (spelled.symm.trans (nul (Nat.lt_trans less small))) notNul
  · exact same
  · exact absurd ended (nonzero _ more)

theorem Spells.tail {c : UInt8} (spells : Spells s i (c :: text)) :
    Spells s (i + 1) text where
  char k inside := by
    have spelled := spells.char (k + 1) (Nat.succ_lt_succ inside)
    rwa [← Nat.add_assoc, Nat.add_right_comm] at spelled
  nul := by
    have ended := spells.nul
    rwa [List.length_cons, ← Nat.add_assoc, Nat.add_right_comm] at ended

theorem Spells.head {c : UInt8} (spells : Spells s i (c :: text)) :
    s i = c ∧ c ≠ 0 :=
  spells.char 0 (Nat.succ_pos _)

/-- The part of the memory that starts with the text. -/
theorem Spells.shift (spells : Spells s i text) : Spells (fun k => s (i + k)) 0 text where
  char k inside := by
    rw [Nat.zero_add]
    exact spells.char k inside
  nul := by
    rw [Nat.zero_add]
    exact spells.nul

theorem Spells.of_same {s' : CharPtr} (spells : Spells s i text)
    (same : ∀ k, i ≤ k → k ≤ i + text.length → s' k = s k) : Spells s' i text where
  char k inside := by
    rw [same _ (Nat.le_add_right ..) (by omega)]
    exact spells.char k inside
  nul := by
    rw [same _ (Nat.le_add_right ..) (Nat.le_refl _)]
    exact spells.nul

theorem Spells.drop (spells : Spells s i text) {n : Nat} (inside : n ≤ text.length) :
    Spells s (i + n) (text.drop n) where
  char k before := by
    rw [List.length_drop] at before
    rw [List.getElem_drop, Nat.add_assoc]
    exact spells.char (n + k) (by omega)
  nul := by
    rw [List.length_drop, Nat.add_assoc, Nat.add_sub_cancel' inside]
    exact spells.nul

theorem Spells.cons {c : UInt8} (here : s i = c) (notNul : c ≠ 0) (spells : Spells s (i + 1) text) :
    Spells s i (c :: text) where
  char k inside := by
    cases k with
    | zero => exact ⟨here, notNul⟩
    | succ k =>
        have later := spells.char k (Nat.lt_of_succ_lt_succ inside)
        rwa [Nat.add_right_comm, Nat.add_assoc] at later
  nul := by
    have ended := spells.nul
    rwa [Nat.add_right_comm, Nat.add_assoc] at ended

/-- A text as long as the address space: the search ends without having met its NUL. -/
theorem Spells.strlen_long (spells : Spells s 0 text) (long : 2 ^ 32 ≤ text.length) :
    strlen s = 2 ^ 32 := by
  obtain ⟨_, bound, nul⟩ := strlen_spec s
  rcases Nat.lt_or_ge (strlen s) (2 ^ 32) with less | reached
  · obtain ⟨spelled, notNul⟩ := spells.char _ (Nat.lt_of_lt_of_le less long)
    rw [Nat.zero_add] at spelled
    exact absurd (spelled.symm.trans (nul less)) notNul
  · exact Nat.le_antisymm bound reached

theorem charValue_sub_eq_zero (a b : UInt8) : charValue a - charValue b = 0 ↔ a = b := by
  have fitsA := a.toNat_lt
  have fitsB := b.toNat_lt
  rw [← UInt8.toNat_inj]
  simp only [charValue]
  split <;> split <;> omega

/-- `strncmp` is 0 for texts with the same first `n` characters, the shorter text ending
    where it does. -/
theorem strncmpFrom_spells {s' : CharPtr} {text' : List UInt8} (spells : Spells s i text)
    (spells' : Spells s' i text') (n : Nat) :
    strncmpFrom s s' i n = 0 ↔ text.take n = text'.take n := by
  induction n generalizing i text text' with
  | zero => simp [strncmpFrom]
  | succ n ih =>
      rw [strncmpFrom]
      cases text with
      | nil =>
          have ended : s i = 0 := spells.nul
          rw [if_pos (.inr ended), charValue_sub_eq_zero, ended]
          cases text' with
          | nil =>
              have ended' : s' i = 0 := spells'.nul
              simp [ended']
          | cons c text' =>
              obtain ⟨here, notNul⟩ := spells'.head
              simp [here, notNul.symm]
      | cons c text =>
          obtain ⟨here, notNul⟩ := spells.head
          cases text' with
          | nil =>
              have ended' : s' i = 0 := spells'.nul
              rw [here, ended', if_pos (.inl notNul), charValue_sub_eq_zero]
              simp [notNul]
          | cons c' text' =>
              obtain ⟨here', notNul'⟩ := spells'.head
              rw [here, here', List.take_succ_cons, List.take_succ_cons, List.cons.injEq]
              by_cases same : c = c'
              · rw [if_neg (by simp [same, notNul']), ih spells.tail spells'.tail]
                simp [same]
              · rw [if_pos (.inl same), charValue_sub_eq_zero]
                simp [same]

/-- Where the first text has no NUL, the characters are compared one by one. -/
theorem strncmpFrom_chars {s' : CharPtr} (n : Nat) (nonzero : ∀ k < n, s (i + k) ≠ 0) :
    strncmpFrom s s' i n = 0 ↔ ∀ k < n, s' (i + k) = s (i + k) := by
  induction n generalizing i with
  | zero => simp [strncmpFrom]
  | succ n ih =>
      have notNul : s i ≠ 0 := nonzero 0 (Nat.succ_pos n)
      have further : ∀ k < n, s (i + 1 + k) ≠ 0 := by
        intro k before
        rw [Nat.add_right_comm, Nat.add_assoc]
        exact nonzero (k + 1) (Nat.succ_lt_succ before)
      rw [strncmpFrom]
      by_cases same : s i = s' i
      · rw [if_neg (not_or.mpr ⟨not_not.mpr same, notNul⟩), ih further]
        constructor
        · intro rest k before
          cases k with
          | zero => exact same.symm
          | succ k =>
              have next := rest k (Nat.lt_of_succ_lt_succ before)
              rwa [Nat.add_right_comm, Nat.add_assoc] at next
        · intro all k before
          rw [Nat.add_right_comm, Nat.add_assoc]
          exact all (k + 1) (Nat.succ_lt_succ before)
      · rw [if_pos (.inl same), charValue_sub_eq_zero]
        exact iff_of_false same fun all => same (all 0 (Nat.succ_pos n)).symm

theorem strncmp_spells {s' : CharPtr} {text' : List UInt8} (spells : Spells s 0 text)
    (spells' : Spells s' 0 text') (n : Nat) :
    strncmp s s' n = 0 ↔ text.take n = text'.take n :=
  strncmpFrom_spells spells spells' n

end Strings

end LightOS.Filesystem
