import LightOS.Lib.Machine

/-! # Records of runs, and runs in lockstep

A record is kept beside a run: each step says what becomes of it.  Where the state has a
quantity that goes the same way, the record is that quantity; and two runs that take the same
actions from related states, in each of which the same is recorded, end with the same record.
-/

namespace LightOS.Lib.Machine

variable {σ τ α β : Type*}

/-- The record at the end of a run, when `write` is what a step does to it. -/
def record (M : Machine σ α) (write : σ → α → β → β) : σ → List α → β → β
  | _, [], entry => entry
  | s, a :: as, entry => M.record write (M.next s a) as (write s a entry)

section Record

variable {M : Machine σ α} {write : σ → α → β → β}

/-- A record of a quantity that the steps themselves keep. -/
theorem Run.record_eq {I : σ → Prop} (quantity : σ → β)
    (preserved : ∀ s a, I s → M.enabled s a → I (M.next s a))
    (kept : ∀ s a, I s → M.enabled s a → quantity (M.next s a) = write s a (quantity s))
    {s t : σ} {as : List α} (run : M.Run s as t) (start : I s) :
    M.record write s as (quantity s) = quantity t := by
  induction run with
  | nil => rfl
  | @cons s a as t able _ ih =>
      rw [record, ← kept s a start able]
      exact ih (preserved s a start able)

end Record

section Lockstep

variable {M : Machine σ α} {N : Machine τ α} {R : σ → τ → Prop} {P : α → Prop}
  {write : σ → α → β → β} {write' : τ → α → β → β}

/-- Two runs with the same actions, all of which satisfy `P`: the states stay related, and the
    records are the same. -/
theorem Run.lockstep
    (step : ∀ s t a, R s t → P a → M.enabled s a → N.enabled t a → R (M.next s a) (N.next t a))
    (same : ∀ s t a, R s t → P a → write s a = write' t a)
    {s s' : σ} {t t' : τ} {as : List α} (first : M.Run s as s') (second : N.Run t as t')
    (all : ∀ a ∈ as, P a) (start : R s t) (entry : β) :
    R s' t' ∧ M.record write s as entry = N.record write' t as entry := by
  induction first generalizing t entry with
  | nil =>
      cases second
      exact ⟨start, rfl⟩
  | @cons s a as s' able _ ih =>
      cases second with
      | cons able' rest =>
          rw [List.forall_mem_cons] at all
          rw [record, record, same s t a start all.1]
          exact ih rest all.2 (step s t a start all.1 able able') _

end Lockstep

end LightOS.Lib.Machine
