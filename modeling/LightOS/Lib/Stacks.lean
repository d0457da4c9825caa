import Mathlib.Data.List.Nodup
import Mathlib.Logic.Function.Basic

/-! # Families of stacks

A stack for each index, the top of a stack at the head of its list.  What a development
needs of such a family is that no element lies on two stacks, or twice on one, and that
pushing a new element and popping keep it so.
-/

namespace LightOS.Lib

/-- No element lies on two of the stacks, or twice on one. -/
structure Separate {ι π : Type*} (family : ι → List π) : Prop where
  nodup : ∀ i, (family i).Nodup
  unique : ∀ i j p, p ∈ family i → p ∈ family j → i = j

namespace Separate

variable {ι π : Type*} [DecidableEq ι] {family : ι → List π}

theorem mem_push {i j : ι} {p q : π} :
    q ∈ Function.update family i (p :: family i) j ↔ q ∈ family j ∨ (j = i ∧ q = p) := by
  by_cases this : j = i
  · subst this
    rw [Function.update_self, List.mem_cons]
    tauto
  · rw [Function.update_of_ne this]
    tauto

theorem push (separate : Separate family) {p : π} (new : ∀ j, p ∉ family j) (i : ι) :
    Separate (Function.update family i (p :: family i)) where
  nodup j := by
    by_cases this : j = i
    · subst this
      rw [Function.update_self]
      exact List.nodup_cons.mpr ⟨new j, separate.nodup j⟩
    · rw [Function.update_of_ne this]
      exact separate.nodup j
  unique j k q onJ onK := by
    rw [mem_push] at onJ onK
    rcases onJ with oldJ | ⟨topJ, isNew⟩ <;> rcases onK with oldK | ⟨topK, isNew'⟩
    · exact separate.unique j k q oldJ oldK
    · exact absurd (isNew' ▸ oldJ) (new j)
    · exact absurd (isNew ▸ oldK) (new k)
    · rw [topJ, topK]

/-- What is left of the family when the top of stack `i` is gone. -/
theorem mem_pop (separate : Separate family) {i j : ι} {p q : π} {rest : List π}
    (top : family i = p :: rest) :
    q ∈ Function.update family i rest j ↔ q ∈ family j ∧ q ≠ p := by
  have nodup := separate.nodup i
  rw [top, List.nodup_cons] at nodup
  by_cases this : j = i
  · subst this
    rw [Function.update_self, top, List.mem_cons]
    constructor
    · intro below
      exact ⟨.inr below, fun same => nodup.1 (same ▸ below)⟩
    · rintro ⟨same | below, other⟩
      · exact absurd same other
      · exact below
  · rw [Function.update_of_ne this]
    refine ⟨fun onJ => ⟨onJ, fun same => this ?_⟩, And.left⟩
    exact separate.unique j i p (same ▸ onJ) (top ▸ List.mem_cons_self ..)

theorem pop (separate : Separate family) {i : ι} {p : π} {rest : List π}
    (top : family i = p :: rest) : Separate (Function.update family i rest) where
  nodup j := by
    by_cases this : j = i
    · subst this
      rw [Function.update_self]
      exact (List.nodup_cons.mp (top ▸ separate.nodup j)).2
    · rw [Function.update_of_ne this]
      exact separate.nodup j
  unique j k q onJ onK :=
    separate.unique j k q ((separate.mem_pop top).mp onJ).1 ((separate.mem_pop top).mp onK).1

end Separate

end LightOS.Lib
