import Mathlib.Tactic.Common

/-! # A line editor

What a keyboard with an erase key and a clear key does to a line, with no buffers and no
interrupts: the line is the list of its characters, and Enter ends it.
-/

namespace LightOS.Lib

variable {α : Type*}

/-- What a key does to the line. -/
inductive EditKey (α : Type*)
  | char (c : α)
  | erase
  | clear
  | enter

/-- A line, and whether it has been ended. -/
structure Edited (α : Type*) where
  line : List α
  ended : Bool

namespace Edited

/-- Nothing changes a line that has been ended. -/
def press (edited : Edited α) (key : EditKey α) : Edited α :=
  if edited.ended then edited
  else
    match key with
    | .char c => { edited with line := edited.line ++ [c] }
    | .erase => { edited with line := edited.line.dropLast }
    | .clear => { edited with line := [] }
    | .enter => { edited with ended := true }

/-- The line that a sequence of keys leaves. -/
def ofKeys (keys : List (EditKey α)) : Edited α := keys.foldl press ⟨[], false⟩

@[simp] theorem ofKeys_nil : ofKeys ([] : List (EditKey α)) = ⟨[], false⟩ := rfl

theorem ofKeys_concat (keys : List (EditKey α)) (key : EditKey α) :
    ofKeys (keys ++ [key]) = (ofKeys keys).press key := by
  simp only [ofKeys, List.foldl_append, List.foldl_cons, List.foldl_nil]

theorem press_ended {edited : Edited α} (ended : edited.ended = true) (key : EditKey α) :
    edited.press key = edited := by
  simp only [press, ended, if_true]

end Edited

/-- What a reader with room for `n` characters is given of an ended line: all of it, or as
    much as leaves room for the newline. -/
def delivered (newline : α) (n : Nat) (line : List α) : List α :=
  if line.length < n then line ++ [newline] else line.take (n - 1) ++ [newline]

end LightOS.Lib
