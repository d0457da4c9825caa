import LightOS.Filesystem.Strings
import LightOS.Kernel.Execute

/-! # The words of a command

What the two parsing loops of `execute` are for: a command is blanks, the name of a file,
blanks, and an argument.  `firstWord` and `secondWord` say so without the loops, and
`scanWord_spells` is what one loop does to the text before it.
-/

namespace LightOS.Kernel

open Lib Filesystem Descriptor

/-- The characters of a string. -/
def chars (command : CharPtr) : List UInt8 := (List.range (strlen command)).map command

/-- A word at the beginning of a text, after blanks. -/
def firstWord (text : List UInt8) : List UInt8 :=
  (text.dropWhile (· = SPACE)).takeWhile (· ≠ SPACE)

/-- What is left after it. -/
def afterWord (text : List UInt8) : List UInt8 :=
  (text.dropWhile (· = SPACE)).dropWhile (· ≠ SPACE)

def secondWord (text : List UInt8) : List UInt8 := firstWord (afterWord text)

/-- The argument of a command; `none` for a command without a second word, and for one that
    `execute` refuses for its length. -/
def argumentWord (command : CharPtr) : Option (List UInt8) :=
  if MAX_ARG_LENGTH + 3 < strlen command then none
  else if secondWord (chars command) = [] then none
  else some (secondWord (chars command))

/-- The words fit `fn` and `arg_buf`, with their NULs. -/
def WordsFit (command : CharPtr) : Prop :=
  strlen command ≤ MAX_ARG_LENGTH + 3 →
    (firstWord (chars command)).length < MAX_ARG_LENGTH ∧
      (secondWord (chars command)).length < MAX_ARG_LENGTH

theorem spells_chars {s : CharPtr} (inside : strlen s < 2 ^ 32) : Spells s 0 (chars s) := by
  obtain ⟨nonzero, _, nul⟩ := strlen_spec s
  constructor
  · intro k before
    simp only [chars, List.length_map, List.length_range] at before
    simp only [chars, List.getElem_map, List.getElem_range, Nat.zero_add, true_and]
    exact nonzero k before
  · simp only [chars, List.length_map, List.length_range, Nat.zero_add]
    exact nul inside

section Scan

variable {command : CharPtr} {i : Nat} {text : List UInt8}

/-- The middle of a word: the loop takes what is left of it. -/
theorem scanWord_inside (spells : Spells command i text) (seen : List UInt8) :
    scanWord command i true seen (text.length + 1) =
        ⟨i + (text.takeWhile (· ≠ SPACE)).length, seen ++ text.takeWhile (· ≠ SPACE) ++ [0], true⟩ ∧
      Spells command (i + (text.takeWhile (· ≠ SPACE)).length) (text.dropWhile (· ≠ SPACE)) := by
  induction text generalizing i seen with
  | nil =>
      have ended : command i = 0 := spells.nul
      simp only [scanWord, ended, if_true, List.takeWhile_nil, List.dropWhile_nil, List.append_nil]
      exact ⟨rfl, spells⟩
  | cons c text ih =>
      obtain ⟨here, notNul⟩ := spells.head
      rw [List.length_cons, scanWord, here, if_neg notNul]
      by_cases blank : c = SPACE
      · simp only [blank, true_and, if_true, ne_eq, not_true, decide_false, List.takeWhile_cons,
          List.dropWhile_cons, Bool.false_eq_true, if_false, List.append_nil]
        exact ⟨rfl, blank ▸ spells⟩
      · obtain ⟨rest, spelled⟩ := ih spells.tail (seen ++ [c])
        simp only [blank, false_and, if_false, ne_eq, not_false_eq_true, decide_true, if_true,
          List.takeWhile_cons, List.dropWhile_cons, List.length_cons]
        have further : i + ((text.takeWhile (· ≠ SPACE)).length + 1) =
            i + 1 + (text.takeWhile (· ≠ SPACE)).length := by omega
        refine ⟨?_, further ▸ spelled⟩
        rw [rest, further]
        simp

/-- One parsing loop takes the word before it, and stops where the rest begins. -/
theorem scanWord_spells (spells : Spells command i text) :
    ∃ next, scanWord command i false [] (text.length + 1) =
        ⟨next, firstWord text ++ [0], decide (firstWord text ≠ [])⟩ ∧
      Spells command next (afterWord text) ∧
      next + (afterWord text).length = i + text.length := by
  induction text generalizing i with
  | nil =>
      have ended : command i = 0 := spells.nul
      refine ⟨i, ?_, spells, rfl⟩
      simp only [List.length_nil, scanWord, ended, if_true]
      rfl
  | cons c text ih =>
      obtain ⟨here, notNul⟩ := spells.head
      rw [List.length_cons, scanWord, here, if_neg notNul]
      by_cases blank : c = SPACE
      · obtain ⟨next, scanned, spelled, aligned⟩ := ih spells.tail
        have skipped : firstWord (c :: text) = firstWord text ∧
            afterWord (c :: text) = afterWord text := by
          simp [firstWord, afterWord, blank]
        refine ⟨next, ?_, ?_, ?_⟩
        · simp only [blank, Bool.false_eq_true, and_false, if_false, ne_eq, not_true]
          rw [scanned, ← blank, skipped.1]
        · rwa [skipped.2]
        · rw [skipped.2]
          omega
      · obtain ⟨rest, spelled⟩ := scanWord_inside spells.tail [c]
        have taken : firstWord (c :: text) = c :: text.takeWhile (· ≠ SPACE) ∧
            afterWord (c :: text) = text.dropWhile (· ≠ SPACE) := by
          simp [firstWord, afterWord, blank]
        refine ⟨_, ?_, taken.2 ▸ spelled, ?_⟩
        · simp only [blank, false_and, if_false, ne_eq, not_false_eq_true, if_true, List.nil_append]
          rw [rest, taken.1]
          simp
        · have split := congrArg List.length
            (List.takeWhile_append_dropWhile (p := fun c => decide (c ≠ SPACE)) (l := text))
          rw [List.length_append] at split
          rw [taken.2]
          omega

end Scan

end LightOS.Kernel
