import Mathlib.Data.List.Basic

/-! # What has held since

A condition on a finite history: something has happened, and everything after it has been of
one kind.  `since_concat` says what one more event does to it.
-/

namespace LightOS.Lib

variable {α : Type*}

/-- At some point of the history `P` was true of what had happened before and of the event, and
    `Q` has been true of every event after it. -/
def Since (P : List α → α → Prop) (Q : α → Prop) (history : List α) : Prop :=
  ∃ before event after, history = before ++ event :: after ∧ P before event ∧ ∀ e ∈ after, Q e

variable {P : List α → α → Prop} {Q : α → Prop} {history : List α} {event : α}

@[simp] theorem since_nil : ¬ Since P Q [] := by
  rintro ⟨before, event, after, split, _⟩
  simp at split

theorem since_concat :
    Since P Q (history ++ [event]) ↔ P history event ∨ (Q event ∧ Since P Q history) := by
  constructor
  · rintro ⟨before, earlier, after, split, happened, since⟩
    rcases List.eq_nil_or_concat after with rfl | ⟨rest, last, rfl⟩
    · obtain ⟨rfl, same⟩ := List.append_inj' split rfl
      obtain rfl : event = earlier := (List.cons.inj same).1
      exact .inl happened
    · have split' : history ++ [event] = (before ++ earlier :: rest) ++ [last] := by
        simpa using split
      obtain ⟨rfl, same⟩ := List.append_inj' split' rfl
      obtain rfl : event = last := (List.cons.inj same).1
      refine .inr ⟨since _ (by simp), before, earlier, rest, rfl, happened, ?_⟩
      intro e member
      exact since e (by simp [member])
  · rintro (happened | ⟨holds, before, earlier, after, rfl, happened, since⟩)
    · exact ⟨history, event, [], rfl, happened, by simp⟩
    · refine ⟨before, earlier, after ++ [event], by simp, happened, ?_⟩
      intro e member
      rcases List.mem_append.mp member with old | new
      · exact since e old
      · rwa [List.mem_singleton.mp new]

end LightOS.Lib
