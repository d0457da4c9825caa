import Mathlib.Data.List.Induction
import Mathlib.Logic.Function.Basic
import Mathlib.Tactic.Common

/-! # Arrays of characters with bounds

Loads and stores that have no result outside of the array, and what it means that a text
ending in NUL can be read from some place on.
-/

namespace LightOS.Lib

/-- What a pointer can read; `none` outside of the array that it points into. -/
abbrev Reader := Nat → Option UInt8

structure Buffer where
  size : Nat
  bytes : Nat → UInt8

def Buffer.load (b : Buffer) : Reader := fun i => if i < b.size then some (b.bytes i) else none

/-- `&b[start]`, as far as it can read. -/
def Buffer.pointer (b : Buffer) (start : Nat) : Reader := fun i => b.load (start + i)

def Buffer.store (b : Buffer) (i : Nat) (c : UInt8) : Option Buffer :=
  if i < b.size then some { b with bytes := Function.update b.bytes i c } else none

/-- The array with `text` from `start` on. -/
def Buffer.put (b : Buffer) (start : Nat) (text : List UInt8) : Buffer :=
  { b with bytes := fun k => if k < start then b.bytes k else text[k - start]?.getD (b.bytes k) }

/-- From index `i` on, the characters of `text` and then NUL can be read. -/
structure Reads (read : Reader) (i : Nat) (text : List UInt8) : Prop where
  char : ∀ k, ∀ inside : k < text.length, read (i + k) = some text[k] ∧ text[k] ≠ 0
  nul : read (i + text.length) = some 0

section Buffer

variable {b : Buffer} {start : Nat} {text : List UInt8} {c : UInt8}

theorem Buffer.store_eq {i : Nat} (inside : i < b.size) : b.store i c = some (b.put i [c]) := by
  rw [Buffer.store, if_pos inside]
  congr 2
  funext k
  rcases Nat.lt_trichotomy k i with before | rfl | after
  · rw [Function.update_of_ne (Nat.ne_of_lt before), if_pos before]
  · simp
  · rw [Function.update_of_ne (Nat.ne_of_gt after), if_neg (by omega),
      List.getElem?_eq_none (by simp; omega), Option.getD_none]

@[simp] theorem Buffer.put_size : (b.put start text).size = b.size := rfl

@[simp] theorem Buffer.put_nil : b.put start [] = b := by
  simp [Buffer.put]

/-- A text behind a text. -/
theorem Buffer.put_put (b : Buffer) (start : Nat) (text more : List UInt8) :
    (b.put start text).put (start + text.length) more = b.put start (text ++ more) := by
  simp only [Buffer.put, Buffer.mk.injEq, true_and]
  funext k
  by_cases before : k < start
  · rw [if_pos (by omega), if_pos before, if_pos before]
  · rw [if_neg before, if_neg before]
    by_cases first : k < start + text.length
    · rw [if_pos first, List.getElem?_append_left (by omega)]
    · rw [if_neg first, List.getElem?_eq_none (l := text) (by omega), Option.getD_none,
        List.getElem?_append_right (by omega)]
      congr 2
      omega

/-- A text over one that is not longer. -/
theorem Buffer.put_over {old : List UInt8} (short : old.length ≤ text.length) :
    (b.put start old).put start text = b.put start text := by
  simp only [Buffer.put, Buffer.mk.injEq, true_and]
  funext k
  by_cases before : k < start
  · rw [if_pos before, if_pos before, if_pos before]
  · rw [if_neg before, if_neg before, if_neg before]
    by_cases covered : k - start < text.length
    · rw [List.getElem?_eq_getElem covered, Option.getD_some, Option.getD_some]
    · rw [List.getElem?_eq_none (by omega), List.getElem?_eq_none (by omega), Option.getD_none]

/-- Texts in different places. -/
theorem Buffer.put_comm {other : Nat} {more : List UInt8}
    (apart : start + text.length ≤ other) :
    (b.put other more).put start text = (b.put start text).put other more := by
  simp only [Buffer.put, Buffer.mk.injEq, true_and]
  funext k
  by_cases before : k < start
  · rw [if_pos before, if_pos (by omega), if_pos (by omega), if_pos before]
  · rw [if_neg before, if_neg before]
    by_cases first : k < other
    · rw [if_pos first, if_pos first]
    · rw [if_neg first, if_neg first, List.getElem?_eq_none (l := text) (by omega),
        Option.getD_none, Option.getD_none]

theorem Buffer.put_get {k : Nat} (inside : k < text.length) :
    (b.put start text).bytes (start + k) = text[k] := by
  simp only [Buffer.put]
  rw [if_neg (by omega), Nat.add_sub_cancel_left, List.getElem?_eq_getElem inside,
    Option.getD_some]

theorem Buffer.put_outside {k : Nat} (outside : k < start ∨ start + text.length ≤ k) :
    (b.put start text).bytes k = b.bytes k := by
  simp only [Buffer.put]
  rcases outside with before | after
  · rw [if_pos before]
  · rw [if_neg (by omega), List.getElem?_eq_none (by omega), Option.getD_none]

theorem Buffer.load_eq {i : Nat} (inside : i < b.size) : b.load i = some (b.bytes i) := by
  rw [Buffer.load, if_pos inside]

/-- A text that is put with its NUL can be read. -/
theorem Buffer.reads_put (nonzero : ∀ c ∈ text, c ≠ 0) (fits : start + text.length < b.size) :
    Reads ((b.put start (text ++ [0])).pointer start) 0 text where
  char k inside := by
    have here : (b.put start (text ++ [0])).bytes (start + k) = text[k] := by
      rw [Buffer.put_get (by simp; omega), List.getElem_append_left inside]
    refine ⟨?_, nonzero _ (List.getElem_mem inside)⟩
    rw [Buffer.pointer, Nat.zero_add, Buffer.load_eq (by simp; omega), here]
  nul := by
    rw [Buffer.pointer, Nat.zero_add, Buffer.load_eq (by simpa using fits),
      Buffer.put_get (by simp)]
    simp

end Buffer

section Reads

variable {read : Reader} {i : Nat} {text : List UInt8} {c : UInt8}

theorem Reads.head (reads : Reads read i (c :: text)) : read i = some c ∧ c ≠ 0 :=
  reads.char 0 (Nat.succ_pos _)

theorem Reads.tail (reads : Reads read i (c :: text)) : Reads read (i + 1) text where
  char k inside := by
    have later := reads.char (k + 1) (Nat.succ_lt_succ inside)
    rwa [← Nat.add_assoc, Nat.add_right_comm] at later
  nul := by
    have ended := reads.nul
    rwa [List.length_cons, ← Nat.add_assoc, Nat.add_right_comm] at ended

end Reads

end LightOS.Lib
