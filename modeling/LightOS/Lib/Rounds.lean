import Mathlib.Tactic.Common

/-! # Loops with a number of rounds

A loop that is given the number of rounds it may take has no result if they do not suffice.
What such a program computes is the result that it has from some number of rounds on.
-/

namespace LightOS.Lib

universe u v

variable {α : Type u} {β : Type v}

/-- From some number of rounds on the result is `a`. -/
def Yields (f : Nat → Option α) (a : α) : Prop :=
  ∃ enough, ∀ rounds, enough ≤ rounds → f rounds = some a

section Yields

variable {f f' : Nat → Option α} {g : Nat → α → Option β} {a a' : α} {b : β}

theorem Yields.of_some (a : α) : Yields (fun _ => some a) a :=
  ⟨0, fun _ _ => rfl⟩

theorem Yields.unique (yields : Yields f a) (other : Yields f a') : a = a' := by
  obtain ⟨enough, result⟩ := yields
  obtain ⟨enough', result'⟩ := other
  have same := (result _ (Nat.le_max_left enough enough')).symm.trans
    (result' _ (Nat.le_max_right enough enough'))
  exact Option.some.inj same

/-- One computation after another. -/
theorem Yields.bind_iff (yields : Yields f a) :
    Yields (fun rounds => (f rounds).bind (g rounds)) b ↔ Yields (fun rounds => g rounds a) b := by
  obtain ⟨enough, result⟩ := yields
  constructor
  · rintro ⟨enough', whole⟩
    refine ⟨max enough enough', fun rounds reached => ?_⟩
    have first := result rounds (Nat.le_trans (Nat.le_max_left _ _) reached)
    have both := whole rounds (Nat.le_trans (Nat.le_max_right _ _) reached)
    simpa only [first, Option.bind_some] using both
  · rintro ⟨enough', second⟩
    refine ⟨max enough enough', fun rounds reached => ?_⟩
    have first := result rounds (Nat.le_trans (Nat.le_max_left _ _) reached)
    have next := second rounds (Nat.le_trans (Nat.le_max_right _ _) reached)
    simpa only [first, Option.bind_some] using next

theorem Yields.bind (yields : Yields f a) (later : Yields (fun rounds => g rounds a) b) :
    Yields (fun rounds => (f rounds).bind (g rounds)) b :=
  yields.bind_iff.mpr later

/-- One round of a loop. -/
theorem yields_round_iff (round : ∀ rounds, f (rounds + 1) = f' rounds) :
    Yields f a ↔ Yields f' a := by
  constructor
  · rintro ⟨enough, result⟩
    refine ⟨enough, fun rounds reached => ?_⟩
    rw [← round, result _ (Nat.le_succ_of_le reached)]
  · rintro ⟨enough, result⟩
    refine ⟨enough + 1, fun rounds reached => ?_⟩
    obtain ⟨less, rfl⟩ := Nat.exists_eq_add_of_le' (Nat.le_trans (Nat.le_add_left 1 _) reached)
    rw [round, result _ (Nat.le_of_succ_le_succ reached)]

end Yields

end LightOS.Lib
