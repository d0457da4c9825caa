import Mathlib.Tactic.TypeStar

/-! # Refinement of operations with results

An implementation answers each operation and moves to a next state; a specification
says which answers are allowed and what they do to an abstract state.  `Tracks` is the
statement that the two stay in step over a sequence of operations.
-/

namespace LightOS.Lib

variable {σ τ α ρ : Type*}

/-- Over the operations `as`, each answer of `exec` is one that `Step` allows, and the two
    states stay related by `R`. -/
inductive Tracks (exec : σ → α → ρ × σ) (Step : τ → α → ρ → τ → Prop) (R : σ → τ → Prop) :
    σ → τ → List α → Prop where
  | nil {s t} : R s t → Tracks exec Step R s t []
  | cons {s t t' a as} : R s t → Step t a (exec s a).1 t' →
      Tracks exec Step R (exec s a).2 t' as → Tracks exec Step R s t (a :: as)

variable {exec : σ → α → ρ × σ} {Step : τ → α → ρ → τ → Prop} {R : σ → τ → Prop}

/-- The simulation rule: what holds of one operation holds of a sequence. -/
theorem Tracks.of_simulation
    (simulate : ∀ s t a, R s t → ∃ t', Step t a (exec s a).1 t' ∧ R (exec s a).2 t')
    {s t} (related : R s t) (as : List α) : Tracks exec Step R s t as := by
  induction as generalizing s t with
  | nil => exact .nil related
  | cons a as ih =>
      obtain ⟨t', step, next⟩ := simulate s t a related
      exact .cons related step (ih next)

end LightOS.Lib
