import LightOS.Kernel.Process
import LightOS.Lib.Lines
import LightOS.Programs.Support
import Mathlib.Data.List.Infix

/-! # grep

`do_one_file` of ece391grep.c: a buffer is filled from the file, its lines are searched, and a
line that has not ended is moved to the front before the buffer is filled up again.  Loops are
given the number of rounds they may take, and there is no result if one needs more.
-/

namespace LightOS.Programs

open Lib Filesystem
open Kernel (NEWLINE text)

def BUFSIZE : Nat := 1024

/-- The system calls on a file that `do_one_file` makes; `none` is the result -1. -/
structure File where
  State : Type
  ece391Open : Option State
  ece391Read : State → Nat → Option (List UInt8 × State)
  ece391Close : State → Option State

/-- A file as the driver of the kernel serves it: a read gives the next `n` bytes, or what
    there is. -/
def diskFile (content : List UInt8) : File where
  State := List UInt8
  ece391Open := some content
  ece391Read rest n := some (rest.take n, rest.drop n)
  ece391Close rest := some rest

/-- The buffer, with `bytes` from place `start` on. -/
def place (data : CharPtr) (start : Nat) (bytes : List UInt8) : CharPtr := fun k =>
  if k < start then data k else bytes[k - start]?.getD (data k)

/-- Where the line from `lineEnd` on ends, at most `left` bytes away. -/
def scanLine (data : CharPtr) (lineEnd : Nat) : Nat → Nat
  | 0 => lineEnd
  | left + 1 => if data lineEnd = NEWLINE then lineEnd else scanLine data (lineEnd + 1) left

/-- The search of a line.  `s` points to plain characters, which are signed; the buffer holds
    unsigned ones. -/
def searchLine (s : CharPtr) (sLen : Nat) (data : CharPtr) (lineStart lineEnd : Nat) : Bool :=
  (List.range' lineStart (lineEnd - lineStart)).any fun check =>
    charValue (s 0) = (data check).toNat ∧
      ece391Strncmp (fun k => data (check + k)) s 0 sLen = 0

/-- The four writes for a line that is found. -/
def printLine (rounds : Nat) (fname data : CharPtr) (lineStart : Nat) :
    Option (List (List UInt8)) := do
  let name ← ece391Fdputs rounds fname
  let line ← ece391Fdputs rounds fun k => data (lineStart + k)
  return [name, text ":", line, text "\n"]

/-- A line is searched, and printed if the pattern is found. -/
def printIfFound (s : CharPtr) (sLen rounds : Nat) (fname data : CharPtr)
    (lineStart lineEnd : Nat) : Option (List (List UInt8)) :=
  if searchLine s sLen data lineStart lineEnd then printLine rounds fname data lineStart
  else some []

/-- What the inner loop leaves: the buffer, how much of it is in use, and the writes so far. -/
structure Scanned where
  data : CharPtr
  last : Nat
  out : List (List UInt8)

/-- The inner loop, from the line at `lineStart` on. -/
def lineLoop (s fname : CharPtr) (sLen cnt last rounds : Nat) (data : CharPtr) (lineStart : Nat)
    (out : List (List UInt8)) : Nat → Option Scanned
  | 0 => none
  | lines + 1 =>
      let lineEnd := scanLine data lineStart (last - lineStart)
      let ended := Function.update data lineEnd 0
      if data lineEnd ≠ NEWLINE ∧ cnt ≠ 0 ∧ lineStart ≠ 0 then do
        let data ← ece391Strcpy ended 0 lineStart rounds
        return ⟨data, last - lineStart, out⟩
      else do
        let found ← printIfFound s sLen rounds fname ended lineStart lineEnd
        if last ≤ lineEnd + 1 then return ⟨ended, 0, out ++ found⟩
        else lineLoop s fname sLen cnt last rounds ended (lineEnd + 1) (out ++ found) lines

/-- The outer loop, with `last` bytes carried over in the buffer. -/
def readLoop (file : File) (s fname : CharPtr) (sLen rounds : Nat) (fd : file.State)
    (data : CharPtr) (last : Nat) (out : List (List UInt8)) :
    Nat → Option (Int × List (List UInt8))
  | 0 => none
  | reads + 1 =>
      match file.ece391Read fd (BUFSIZE - last) with
      | none => some (-1, out ++ [text "file read failed\n"])
      | some (bytes, fd) => do
          let scanned ← lineLoop s fname sLen bytes.length (last + bytes.length) rounds
            (place data last bytes) 0 out rounds
          if bytes.length = 0 then
            match file.ece391Close fd with
            | none => some (-1, scanned.out ++ [text "file close failed\n"])
            | some _ => some (0, scanned.out)
          else readLoop file s fname sLen rounds fd scanned.data scanned.last scanned.out reads

/-- `do_one_file`: the value it returns and what it writes to the terminal.  `data` is what
    the buffer holds before. -/
def doOneFile (file : File) (s fname data : CharPtr) (rounds : Nat) :
    Option (Int × List (List UInt8)) := do
  let sLen ← ece391Strlen s 0 rounds
  match file.ece391Open with
  | none => some (-1, [text "file open failed\n"])
  | some fd => readLoop file s fname sLen rounds fd data 0 [] rounds

/-- The buffer holds `bytes` from place `start` on. -/
def Holds (data : CharPtr) (start : Nat) (bytes : List UInt8) : Prop :=
  ∀ k, ∀ inside : k < bytes.length, data (start + k) = bytes[k]

/-- The search finds the pattern.  A first character above 0x7f is negative in `s` and positive
    in the buffer. -/
def selects (pattern line : List UInt8) : Bool :=
  decide (charValue (pattern.headD 0) = (pattern.headD 0).toNat ∧ pattern <:+: line)

/-- What is written for a list of lines. -/
def writes (select : List UInt8 → Bool) (name : List UInt8) (lines : List (List UInt8)) :
    List (List UInt8) :=
  (lines.filter select).flatMap fun line => [name, text ":", line, text "\n"]

/-- What grep is asked for: a pattern, which is not empty, and the name of a file.  The rounds
    suffice for the name and for the buffer. -/
structure Asked (s fname : CharPtr) (pattern name : List UInt8) (rounds : Nat) : Prop where
  spelled : Spells s 0 pattern
  nonempty : pattern ≠ []
  named : Spells fname 0 name
  nameFits : name.length < rounds
  bufferFits : BUFSIZE < rounds

section Search

variable {s fname data : CharPtr} {pattern name line : List UInt8} {start : Nat}

theorem Holds.spells (holds : Holds data start line) (nonzero : ∀ c ∈ line, c ≠ 0)
    (nul : data (start + line.length) = 0) : Spells data start line where
  char k inside := ⟨holds k inside, nonzero _ (List.getElem_mem inside)⟩
  nul := nul

theorem Holds.tail {c : UInt8} (holds : Holds data start (c :: line)) :
    Holds data (start + 1) line := by
  intro k inside
  have later := holds (k + 1) (Nat.succ_lt_succ inside)
  rwa [← Nat.add_assoc, Nat.add_right_comm] at later

/-- A pattern that is not empty begins at some place of the line. -/
theorem infix_iff_begins (nonempty : pattern ≠ []) :
    pattern <:+: line ↔ ∃ k < line.length, pattern <+: line.drop k := by
  rw [List.infix_iff_prefix_suffix]
  constructor
  · rintro ⟨rest, begins, ends⟩
    have fits := begins.length_le
    have positive := List.length_pos_iff.mpr nonempty
    have whole := ends.length_le
    rw [List.suffix_iff_eq_drop] at ends
    exact ⟨line.length - rest.length, by omega, ends ▸ begins⟩
  · rintro ⟨k, _, begins⟩
    exact ⟨_, begins, List.drop_suffix k line⟩

/-- Whether the pattern begins at place `check` of the buffer. -/
theorem check_spells {c : UInt8} {rest : List UInt8} {check : Nat}
    (spells : Spells s 0 (c :: rest)) (spelled : Spells data check line) :
    (charValue (s 0) = (data check).toNat ∧
        ece391Strncmp (fun k => data (check + k)) s 0 (c :: rest).length = 0) ↔
      charValue c = c.toNat ∧ c :: rest <+: line := by
  rw [ece391Strncmp_spells spelled.shift spells, spells.head.1]
  apply and_congr_left
  intro begins
  cases line with
  | nil => simp at begins
  | cons d line =>
      obtain ⟨rfl, _⟩ := List.cons_prefix_cons.mp begins
      rw [spelled.head.1]

/-- The search finds the pattern in a line, unless its first character is a signed one. -/
theorem searchLine_spells (spells : Spells s 0 pattern) (nonempty : pattern ≠ [])
    (spelled : Spells data start line) :
    searchLine s pattern.length data start (start + line.length) = selects pattern line := by
  obtain ⟨c, rest, rfl⟩ := List.exists_cons_of_ne_nil nonempty
  rw [Bool.eq_iff_iff, searchLine, Nat.add_sub_cancel_left, List.any_eq_true, selects,
    decide_eq_true_iff, List.headD_cons, infix_iff_begins nonempty]
  constructor
  · rintro ⟨check, member, found⟩
    obtain ⟨from_, before⟩ := List.mem_range'_1.mp member
    have here := spelled.drop (n := check - start) (by omega)
    rw [Nat.add_sub_cancel' from_] at here
    obtain ⟨plain, begins⟩ := (check_spells spells here).mp (of_decide_eq_true found)
    exact ⟨plain, check - start, by omega, begins⟩
  · rintro ⟨plain, k, inside, begins⟩
    have here := spelled.drop (Nat.le_of_lt inside)
    refine ⟨start + k, List.mem_range'_1.mpr ⟨by omega, by omega⟩, ?_⟩
    exact decide_eq_true ((check_spells spells here).mpr ⟨plain, begins⟩)

/-- The end of a line is its newline, or the end of what has been read. -/
theorem scanLine_line (holds : Holds data start line) (unbroken : NEWLINE ∉ line) {left : Nat}
    (fits : line.length ≤ left)
    (ended : left = line.length ∨ data (start + line.length) = NEWLINE) :
    scanLine data start left = start + line.length := by
  induction line generalizing start left with
  | nil =>
      cases left with
      | zero => rfl
      | succ left =>
          have newline : data start = NEWLINE := ended.resolve_left (Nat.succ_ne_zero left)
          rw [scanLine, if_pos newline, List.length_nil, Nat.add_zero]
  | cons c line ih =>
      obtain ⟨left, rfl⟩ := Nat.exists_eq_succ_of_ne_zero (Nat.ne_zero_of_lt fits)
      have here : data start = c := holds 0 (Nat.zero_lt_succ _)
      rw [List.mem_cons, not_or] at unbroken
      obtain ⟨notNewline, unbroken⟩ := unbroken
      rw [List.length_cons, ← Nat.add_assoc, Nat.add_right_comm] at ended
      rw [scanLine, here, if_neg (Ne.symm notNewline),
        ih holds.tail unbroken (Nat.le_of_succ_le_succ fits) (ended.imp_left Nat.succ.inj),
        List.length_cons, Nat.add_right_comm, Nat.add_assoc]

/-- A line that has been searched is written if the pattern has been found. -/
theorem printIfFound_spells {rounds : Nat} (asked : Asked s fname pattern name rounds)
    (spelled : Spells data start line) (lineFits : line.length ≤ BUFSIZE) :
    printIfFound s pattern.length rounds fname data start (start + line.length) =
      some (writes (selects pattern) name [line]) := by
  rw [printIfFound, searchLine_spells asked.spelled asked.nonempty spelled]
  split
  · next selected =>
      rw [printLine, ece391Fdputs_spells asked.named asked.nameFits,
        ece391Fdputs_spells spelled.shift (Nat.lt_of_le_of_lt lineFits asked.bufferFits), writes,
        List.filter_cons_of_pos selected]
      rfl
  · next unselected =>
      rw [writes, List.filter_cons_of_neg unselected]
      rfl

end Search

end LightOS.Programs
