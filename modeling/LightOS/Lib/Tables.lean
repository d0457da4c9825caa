import Mathlib.Data.List.Nodup
import Mathlib.Logic.Function.Basic

/-! # Tables that loops fill

A loop that rewrites entries of a table, each of them once, leaves each entry rewritten as it
was before the loop.
-/

namespace LightOS.Lib

universe u v

variable {α : Type u} {β : Type v}

/-- Entries one after the other. -/
theorem foldl_update_list (rewrite : Nat → α → α) {indices : List Nat} (distinct : indices.Nodup)
    (table : Nat → α) (i : Nat) :
    indices.foldl (fun table k => Function.update table k (rewrite k (table k))) table i =
      if i ∈ indices then rewrite i (table i) else table i := by
  induction indices generalizing table with
  | nil => rfl
  | cons first indices ih =>
      rw [List.nodup_cons] at distinct
      rw [List.foldl_cons, ih distinct.2]
      by_cases here : i = first
      · subst here
        rw [if_neg distinct.1, if_pos (List.mem_cons_self ..), Function.update_self]
      · have same : i ∈ first :: indices ↔ i ∈ indices := by simp [here]
        rw [Function.update_of_ne here]
        simp only [same]

/-- The entries below a bound. -/
theorem foldl_update_range (rewrite : Nat → α → α) (table : Nat → α) (n i : Nat) :
    (List.range n).foldl (fun table k => Function.update table k (rewrite k (table k))) table i =
      if i < n then rewrite i (table i) else table i := by
  rw [foldl_update_list rewrite List.nodup_range]
  simp only [List.mem_range]

/-- The entries that a list names. -/
theorem foldl_update_lookup (rewrite : β → α → α) {entries : List (Nat × β)}
    (distinct : (entries.map Prod.fst).Nodup) (table : Nat → α) (i : Nat) :
    entries.foldl (fun table entry =>
        Function.update table entry.1 (rewrite entry.2 (table entry.1))) table i =
      ((entries.lookup i).map fun b => rewrite b (table i)).getD (table i) := by
  induction entries generalizing table with
  | nil => rfl
  | cons entry entries ih =>
      obtain ⟨key, b⟩ := entry
      rw [List.map_cons, List.nodup_cons] at distinct
      rw [List.foldl_cons, ih distinct.2]
      by_cases here : i = key
      · subst here
        have once : entries.lookup i = none := by
          rw [List.lookup_eq_none_iff]
          intro other member
          rw [bne_iff_ne]
          intro same
          exact distinct.1 (List.mem_map.mpr ⟨other, member, same.symm⟩)
        rw [once, List.lookup_cons_self, Function.update_self]
        rfl
      · have other : (i == key) = false := beq_false_of_ne here
        rw [Function.update_of_ne here, List.lookup_cons, other]

end LightOS.Lib
