import LightOS.Lib.Machine

/-! # Machines in parts

An action may concern one part of a machine, or none, and which one may depend on the state.  If
what an action does to a part depends on nothing but that part, and an action leaves the parts
alone that it does not concern, then each part goes through a run as if there were no other.
-/

namespace LightOS.Lib.Machine

variable {σ α ι β τ : Type*} [DecidableEq ι]

/-- What an action is to a part: an input, or nothing. -/
def inputFor (route : σ → α → Option (ι × β)) (i : ι) (s : σ) (a : α) : List β :=
  match route s a with
  | some (part, input) => if part = i then [input] else []
  | none => []

/-- The inputs of a part along a run. -/
def received (M : Machine σ α) (route : σ → α → Option (ι × β)) (i : ι) : σ → List α → List β
  | _, [] => []
  | s, a :: as => inputFor route i s a ++ M.received route i (M.next s a) as

section Parts

variable {M : Machine σ α} {route : σ → α → Option (ι × β)} {next : τ → β → τ}
  {s later : σ} {as bs : List α}

theorem inputFor_self {i : ι} {input : β} {a : α} (routed : route s a = some (i, input)) :
    inputFor route i s a = [input] := by
  simp only [inputFor, routed, if_true]

theorem inputFor_other {i j : ι} {input : β} {a : α} (routed : route s a = some (i, input))
    (other : j ≠ i) : inputFor route j s a = [] := by
  simp only [inputFor, routed, if_neg (Ne.symm other)]

theorem inputFor_none {a : α} (routed : route s a = none) (i : ι) : inputFor route i s a = [] := by
  simp only [inputFor, routed]

/-- A part at the end of a run is what its own inputs make of it. -/
theorem Run.part {I : σ → Prop} (view : σ → ι → τ)
    (preserved : ∀ s a, I s → M.enabled s a → I (M.next s a))
    (each : ∀ s a, I s → M.enabled s a → ∀ i,
      view (M.next s a) i = (inputFor route i s a).foldl next (view s i))
    (run : M.Run s as later) (start : I s) (i : ι) :
    view later i = (M.received route i s as).foldl next (view s i) := by
  induction run with
  | nil => rfl
  | cons able _ ih =>
      rw [received, List.foldl_append, ← each _ _ start able i]
      exact ih (preserved _ _ start able)

/-- What every step leaves as it is or sets is at the end of a run as it was last set. -/
theorem Run.last_set {I : σ → Prop} (view : σ → τ) (sets : α → Option τ)
    (preserved : ∀ s a, I s → M.enabled s a → I (M.next s a))
    (each : ∀ s a, I s → M.enabled s a → view (M.next s a) = (sets a).getD (view s))
    (run : M.Run s as later) (start : I s) :
    view later = (as.reverse.findSome? sets).getD (view s) := by
  induction run with
  | nil => rfl
  | @cons s a as later able _ ih =>
      rw [ih (preserved s a start able), List.reverse_cons, List.findSome?_append]
      cases as.reverse.findSome? sets with
      | some value => rfl
      | none =>
          rw [Option.none_or, Option.getD_none, List.findSome?_singleton]
          exact each s a start able

end Parts

end LightOS.Lib.Machine
