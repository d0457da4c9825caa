import Mathlib.Logic.Basic
import Mathlib.Tactic.TypeStar

/-! # Runs of deterministic machines with labelled actions

A machine is a step function together with the condition under which each action
can be taken.  Runs are finite lists of actions; everything a development proves
about "every state reached" or "every step of every run" goes through the rules of
this file: an invariant is carried along a run, a property of all states passed is
traded for a property of all steps taken, and a run of a machine with fewer enabled
actions is a run of the larger one.
-/

namespace LightOS.Lib

/-- What each action does, and where it can be taken. -/
structure Machine (σ α : Type*) where
  enabled : σ → α → Prop
  next : σ → α → σ

namespace Machine

variable {σ α : Type*}

/-- `Run M s as t`: taking the actions `as` in order, each where it is enabled,
leads from `s` to `t`. -/
inductive Run (M : Machine σ α) : σ → List α → σ → Prop where
  | nil (s : σ) : Run M s [] s
  | cons {s a as t} : M.enabled s a → Run M (M.next s a) as t → Run M s (a :: as) t

/-- The same steps, allowed only where `allowed` says so as well. -/
def restrict (M : Machine σ α) (allowed : σ → α → Prop) : Machine σ α where
  enabled s a := M.enabled s a ∧ allowed s a
  next := M.next

/-- `P` holds of every state a run from `s` passes through, ends included. -/
def Always (M : Machine σ α) (P : σ → Prop) : σ → List α → Prop
  | s, [] => P s
  | s, a :: as => P s ∧ M.Always P (M.next s a) as

/-- `Q` holds of every step of a run from `s`: of the state before it and the action. -/
def EachStep (M : Machine σ α) (Q : σ → α → Prop) : σ → List α → Prop
  | _, [] => True
  | s, a :: as => Q s a ∧ M.EachStep Q (M.next s a) as

variable {M : Machine σ α}

theorem Run.of_enabled (able : ∀ s a, M.enabled s a) (s : σ) (as : List α) :
    M.Run s as (as.foldl M.next s) := by
  induction as generalizing s with
  | nil => exact .nil s
  | cons a as ih => exact .cons (able s a) (ih (M.next s a))

/-- A list of actions each of which is enabled where it is taken is a run. -/
theorem Run.of_eachStep {s as} (able : M.EachStep M.enabled s as) :
    M.Run s as (as.foldl M.next s) := by
  induction as generalizing s with
  | nil => exact .nil s
  | cons a as ih => exact .cons able.1 (ih able.2)

instance EachStep.decidable {Q : σ → α → Prop} [∀ s a, Decidable (Q s a)] :
    (s : σ) → (as : List α) → Decidable (M.EachStep Q s as)
  | _, [] => isTrue trivial
  | s, a :: as =>
      have := EachStep.decidable (Q := Q) (M.next s a) as
      inferInstanceAs (Decidable (Q s a ∧ M.EachStep Q (M.next s a) as))

theorem EachStep.mono {Q R : σ → α → Prop} (weaker : ∀ s a, Q s a → R s a) {s as}
    (each : M.EachStep Q s as) : M.EachStep R s as := by
  induction as generalizing s with
  | nil => trivial
  | cons a as ih => exact ⟨weaker s a each.1, ih each.2⟩

/-- A condition on the actions alone. -/
theorem EachStep.of_forall {Q : α → Prop} {s as} (all : ∀ a ∈ as, Q a) :
    M.EachStep (fun _ a => Q a) s as := by
  induction as generalizing s with
  | nil => trivial
  | cons a as ih =>
      rw [List.forall_mem_cons] at all
      exact ⟨all.1, ih all.2⟩

theorem EachStep.and {Q R : σ → α → Prop} {s as} (first : M.EachStep Q s as)
    (second : M.EachStep R s as) : M.EachStep (fun s a => Q s a ∧ R s a) s as := by
  induction as generalizing s with
  | nil => trivial
  | cons a as ih => exact ⟨⟨first.1, second.1⟩, ih first.2 second.2⟩

theorem Run.append {s t u as bs} (first : M.Run s as t) (second : M.Run t bs u) :
    M.Run s (as ++ bs) u := by
  induction first with
  | nil => exact second
  | cons able _ ih => exact .cons able (ih second)

theorem Run.eachStep_append {Q : σ → α → Prop} {s t as bs} (first : M.Run s as t) :
    M.EachStep Q s (as ++ bs) ↔ M.EachStep Q s as ∧ M.EachStep Q t bs := by
  induction first with
  | nil => simp [EachStep]
  | cons able _ ih => simp only [List.cons_append, EachStep, ih, and_assoc]

theorem Run.mono {N : Machine σ α} (same : N.next = M.next)
    (weaker : ∀ s a, M.enabled s a → N.enabled s a) {s t as} (run : M.Run s as t) :
    N.Run s as t := by
  induction run with
  | nil => exact .nil _
  | @cons s a as t able _ ih => exact .cons (weaker s a able) (by rwa [same])

theorem Run.of_restrict {allowed : σ → α → Prop} {s t as}
    (run : (M.restrict allowed).Run s as t) : M.Run s as t :=
  Run.mono (M := M.restrict allowed) (N := M) rfl (fun _ _ able => able.1) run

/-- The invariant rule: what every enabled step preserves holds at the end of a run. -/
theorem Run.invariant {I : σ → Prop}
    (preserved : ∀ s a, I s → M.enabled s a → I (M.next s a))
    {s t as} (run : M.Run s as t) (start : I s) : I t := by
  induction run with
  | nil => exact start
  | cons able _ ih => exact ih (preserved _ _ start able)

/-- Actions that an invariant enables are a run, whatever their order. -/
theorem Run.of_invariant {I : σ → Prop} {as : List α}
    (step : ∀ a ∈ as, ∀ s, I s → M.enabled s a ∧ I (M.next s a)) {s} (start : I s) :
    ∃ t, M.Run s as t ∧ I t := by
  induction as generalizing s with
  | nil => exact ⟨s, .nil s, start⟩
  | cons a as ih =>
      rw [List.forall_mem_cons] at step
      obtain ⟨able, next⟩ := step.1 s start
      obtain ⟨t, run, ends⟩ := ih step.2 next
      exact ⟨t, .cons able run, ends⟩

/-- A condition that does not hold at the end of a run has never held in it, or there is a last
step taken where it did. -/
theorem Run.last_where {P : σ → Prop} {s t as} (run : M.Run s as t) (ended : ¬ P t) :
    M.Always (fun u => ¬ P u) s as ∨
      ∃ first a rest u, as = first ++ a :: rest ∧ M.Run s first u ∧ P u ∧ M.enabled u a ∧
        M.Run (M.next u a) rest t ∧ M.Always (fun u => ¬ P u) (M.next u a) rest := by
  induction run with
  | nil => exact .inl ended
  | @cons s a as t able run ih =>
      cases ih ended with
      | inl never =>
          by_cases here : P s
          · exact .inr ⟨[], a, as, s, rfl, .nil s, here, able, run, never⟩
          · exact .inl ⟨here, never⟩
      | inr last =>
          obtain ⟨first, b, rest, u, rfl, before, here, enabled, after, away⟩ := last
          exact .inr ⟨a :: first, b, rest, u, rfl, .cons able before, here, enabled, after, away⟩

/-- The same action over and over: what it does to an invariant that counts. -/
theorem Run.replicate {I : Nat → σ → Prop} {a : α} {n : Nat}
    (round : ∀ k < n, ∀ s, I k s → M.enabled s a ∧ I (k + 1) (M.next s a))
    {s : σ} (start : I 0 s) : ∃ t, M.Run s (List.replicate n a) t ∧ I n t := by
  induction n with
  | zero => exact ⟨s, .nil s, start⟩
  | succ n ih =>
      obtain ⟨t, run, holds⟩ := ih fun k before => round k (Nat.lt_succ_of_lt before)
      obtain ⟨able, next⟩ := round n (Nat.lt_succ_self n) t holds
      refine ⟨M.next t a, ?_, next⟩
      rw [List.replicate_succ']
      exact run.append (.cons able (.nil _))

theorem Always.last {P : σ → Prop} {s as} (always : M.Always P s as) :
    P (as.foldl M.next s) := by
  induction as generalizing s with
  | nil => exact always
  | cons a as ih => exact ih always.2

/-- What holds all along a run holds at its end. -/
theorem Run.always_last {P : σ → Prop} {s t as} (run : M.Run s as t) (always : M.Always P s as) :
    P t := by
  induction run with
  | nil => exact always
  | cons _ _ ih => exact ih always.2

/-- The invariant rule for runs all of whose steps keep a condition. -/
theorem Run.invariant_of_each {I : σ → Prop} {P : σ → α → Prop}
    (preserved : ∀ s a, I s → M.enabled s a → P s a → I (M.next s a))
    {s t as} (run : M.Run s as t) (start : I s) (each : M.EachStep P s as) : I t := by
  induction run with
  | nil => exact start
  | cons able _ ih => exact ih (preserved _ _ start able each.1) each.2

/-- What follows from an invariant holds all along a run. -/
theorem Run.always {I P : σ → Prop} (preserved : ∀ s a, I s → M.enabled s a → I (M.next s a))
    (holds : ∀ s, I s → P s) {s t as} (run : M.Run s as t) (start : I s) : M.Always P s as := by
  induction run with
  | nil => exact holds _ start
  | cons able _ ih => exact ⟨holds _ start, ih (preserved _ _ start able)⟩

/-- And likewise for runs all of whose steps keep a condition. -/
theorem Run.always_of_each {I P : σ → Prop} {Q : σ → α → Prop}
    (preserved : ∀ s a, I s → M.enabled s a → Q s a → I (M.next s a))
    (holds : ∀ s, I s → P s) {s t as} (run : M.Run s as t) (start : I s)
    (each : M.EachStep Q s as) : M.Always P s as := by
  induction run with
  | nil => exact holds _ start
  | cons able _ ih => exact ⟨holds _ start, ih (preserved _ _ start able each.1) each.2⟩

/-- Every step of a run has the property `Q` that it has wherever an invariant holds, as
long as the steps before it keep the condition `P` that the invariant needs. -/
theorem Run.eachStep {I : σ → Prop} {P Q : σ → α → Prop}
    (preserved : ∀ s a, I s → M.enabled s a → P s a → I (M.next s a))
    (holds : ∀ s a, I s → M.enabled s a → P s a → Q s a)
    {s t as} (run : M.Run s as t) (start : I s) (each : M.EachStep P s as) :
    M.EachStep Q s as := by
  induction run with
  | nil => trivial
  | @cons s a as t able _ ih =>
      obtain ⟨here, later⟩ := each
      exact ⟨holds s a start able here, ih (preserved s a start able here) later⟩

/-- Two properties of steps that agree wherever an invariant holds have the same runs. -/
theorem Run.eachStep_congr {I : σ → Prop} {P Q : σ → α → Prop}
    (preserved : ∀ s a, I s → M.enabled s a → I (M.next s a))
    (same : ∀ s a, I s → M.enabled s a → (P s a ↔ Q s a))
    {s t as} (run : M.Run s as t) (start : I s) : M.EachStep P s as ↔ M.EachStep Q s as := by
  induction run with
  | nil => exact Iff.rfl
  | @cons s a as t able _ ih =>
      exact and_congr (same s a start able) (ih (preserved s a start able))

/-- Where an invariant `I` decides step by step whether `P` survives, `P` holds all
along a run exactly when every step of it is a good one. -/
theorem Run.always_iff {I P : σ → Prop} {Q : σ → α → Prop}
    (preserved : ∀ s a, I s → M.enabled s a → Q s a → I (M.next s a))
    (decided : ∀ s a, I s → P s → M.enabled s a → (P (M.next s a) ↔ Q s a))
    {s t as} (run : M.Run s as t) (start : I s) (holds : P s) :
    M.Always P s as ↔ M.EachStep Q s as := by
  induction run with
  | nil => simp [Always, EachStep, holds]
  | @cons s a as t able rest ih =>
      have head := decided s a start holds able
      constructor
      · rintro ⟨_, later⟩
        have next : P (M.next s a) := by
          cases as with
          | nil => exact later
          | cons b bs => exact later.1
        have good := head.mp next
        exact ⟨good, (ih (preserved s a start able good) next).mp later⟩
      · rintro ⟨good, later⟩
        have next := head.mpr good
        exact ⟨holds, (ih (preserved s a start able good) next).mpr later⟩

/-- The simulation rule: where each step of one machine is matched by a run of another, its
runs are as well. -/
theorem Run.simulated {τ β : Type*} {N : Machine τ β} {R : σ → τ → Prop} {Q : σ → α → Prop}
    (matched : ∀ s t a, R s t → M.enabled s a → Q s a → ∃ bs t', N.Run t bs t' ∧ R (M.next s a) t')
    {s s' t as} (run : M.Run s as s') (each : M.EachStep Q s as) (related : R s t) :
    ∃ bs t', N.Run t bs t' ∧ R s' t' := by
  induction run generalizing t with
  | nil => exact ⟨[], t, .nil t, related⟩
  | cons able _ ih =>
      obtain ⟨bs, u, first, middle⟩ := matched _ _ _ related able each.1
      obtain ⟨cs, t', second, last⟩ := ih each.2 middle
      exact ⟨bs ++ cs, t', first.append second, last⟩

end Machine

end LightOS.Lib
