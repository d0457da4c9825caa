import LightOS.Lib.Machine
import Mathlib.Algebra.Order.Group.Nat
import Mathlib.Tactic.Common

/-! # Counting down

A counter that one kind of action takes down by one, and all others leave alone as long as
some activity goes on, tells how many actions of that kind have been taken since it was set.
-/

namespace LightOS.Lib

variable {σ α : Type*}

/-- While `waiting` goes on, `tick` actions take `count` down to 0 and nothing else changes it;
    `inv` may be assumed. -/
structure Countdown (M : Machine σ α) (inv waiting : σ → Prop) (tick : α → Bool)
    (count : σ → Nat) : Prop where
  keeps : ∀ s a, inv s → M.enabled s a → inv (M.next s a)
  step : ∀ s a, inv s → M.enabled s a → waiting s → waiting (M.next s a) →
    count (M.next s a) = count s - if tick a then 1 else 0

namespace Countdown

variable {M : Machine σ α} {inv waiting : σ → Prop} {tick : α → Bool} {count : σ → Nat}

/-- The counter after a run all of which is spent waiting. -/
theorem run (down : Countdown M inv waiting tick count) {s t : σ} {as : List α}
    (run : M.Run s as t) (start : inv s) (stays : M.Always waiting s as) :
    count t = count s - as.countP tick := by
  induction run with
  | nil => simp
  | @cons s a as t able rest ih =>
      obtain ⟨here, later⟩ := stays
      have next : waiting (M.next s a) := by
        cases as with
        | nil => exact later
        | cons b bs => exact later.1
      rw [ih (down.keeps s a start able) later, down.step s a start able here next,
        List.countP_cons]
      omega

end Countdown

end LightOS.Lib
