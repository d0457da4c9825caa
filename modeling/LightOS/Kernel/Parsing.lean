import LightOS.Kernel.Addressable
import LightOS.Kernel.Uninterrupted
import Mathlib.Data.List.GetD

/-! # Parsing a command, store by store

`scanWord` is what a parsing loop of `execute` collects.  Here the two loops run as they are in
syscall.c: over the memory that `fn` and `arg_buf` are in, with one index into the command for
both, and a note of every index they read the command and store into a buffer at.
-/

namespace LightOS.Kernel

open Lib Filesystem Descriptor

/-- The variables of a parsing loop.  `buffer` is the memory that the buffer begins, `seen` what the
    second loop sets `argument_exist` for. -/
structure Scan where
  i : Nat
  flag : Bool
  idx : Nat
  buffer : Nat → UInt8
  seen : Bool
  reads : List Nat
  stores : List Nat

namespace Scan

/-- Before a loop: `flag` and the index into the buffer are set to zero. -/
def start (i : Nat) (buffer : Nat → UInt8) : Scan := ⟨i, false, 0, buffer, false, [], []⟩

/-- `command[i]` is looked at. -/
def read (s : Scan) : Scan := { s with reads := s.reads ++ [s.i] }

/-- `buffer[idx++] = c` -/
def put (s : Scan) (c : UInt8) : Scan :=
  { s with
    buffer := Function.update s.buffer s.idx c
    idx := s.idx + 1
    stores := s.stores ++ [s.idx] }

/-- The body of the two loops, and the rest of the rounds. -/
def loop (command : CharPtr) : Nat → Scan → Scan
  | 0, s => s
  | rounds + 1, s =>
      let c := command s.i
      let s := s.read
      if c = 0 then s.put 0
      else if c = SPACE ∧ s.flag then { s.put 0 with flag := false }
      else if c ≠ SPACE then
        loop command rounds { s.put c with flag := true, seen := true, i := s.i + 1 }
      else loop command rounds { s with i := s.i + 1 }

end Scan

/-- `int len = strlen(command) + 1` -/
def commandLength (command : CharPtr) : Int := toInt32 (strlen command + 1)

/-- The check of `execute` on the length of a command. -/
def Accepted (command : CharPtr) : Prop := ¬ (MAX_ARG_LENGTH : Int) + 4 < commandLength command

instance (command : CharPtr) : Decidable (Accepted command) := inferInstanceAs (Decidable (¬ _))

/-- The two loops of `execute` as they are left. -/
structure Parsed where
  fn : Scan
  arg : Scan
  argumentExist : Nat

/-- `memset(arg_buf, 0, MAX_ARG_LENGTH)` -/
def cleared (argBuf : Nat → UInt8) (k : Nat) : UInt8 := if k < MAX_ARG_LENGTH then 0 else argBuf k

/-- The statements of `execute` from the `memset` on.  `fn` and `argBuf` are what the memory from
    the two buffers on holds before. -/
def parse (command : CharPtr) (fn argBuf : Nat → UInt8) : Parsed :=
  let len := commandLength command
  let fn := Scan.loop command len.toNat (.start 0 fn)
  let arg := Scan.loop command (len.toNat - fn.i) (.start fn.i (cleared argBuf))
  ⟨fn, arg, if arg.seen then 1 else 0⟩

/-- Every store stays in its buffer, and `arg_buf` has a NUL. -/
structure Parsed.StaysInside (parsed : Parsed) : Prop where
  fn : ∀ k ∈ parsed.fn.stores, k < 33
  arg : ∀ k ∈ parsed.arg.stores, k < MAX_ARG_LENGTH
  terminated : ∃ k < MAX_ARG_LENGTH, parsed.arg.buffer k = 0

section Loop

variable {command : CharPtr}

/-- A list written over the beginning of memory. -/
def laidOver (chars : List UInt8) (memory : Nat → UInt8) (k : Nat) : UInt8 :=
  chars.getD k (memory k)

theorem laidOver_snoc (chars : List UInt8) (c : UInt8) (memory : Nat → UInt8) :
    Function.update (laidOver chars memory) chars.length c = laidOver (chars ++ [c]) memory := by
  funext k
  rcases Nat.lt_trichotomy k chars.length with before | rfl | after
  · simp [laidOver, Function.update_of_ne (Nat.ne_of_lt before), List.getElem?_append_left before]
  · simp [laidOver]
  · have beyond : (chars ++ [c]).length ≤ k := by
      rw [List.length_append, List.length_singleton]
      omega
    simp only [laidOver, Function.update_of_ne (Nat.ne_of_gt after), List.getD_eq_getElem?_getD,
      List.getElem?_eq_none beyond, List.getElem?_eq_none (Nat.le_of_lt after), Option.getD_none]

/-- A loop that has collected `chars`. -/
structure Scan.Holds (s : Scan) (chars : List UInt8) (memory : Nat → UInt8) : Prop where
  idx : s.idx = chars.length
  buffer : s.buffer = laidOver chars memory
  stores : s.stores = List.range chars.length

theorem Scan.Holds.put {s : Scan} {chars : List UInt8} {memory : Nat → UInt8}
    (holds : s.Holds chars memory) (c : UInt8) : (s.put c).Holds (chars ++ [c]) memory where
  idx := by
    rw [List.length_append, List.length_singleton, ← holds.idx]
    rfl
  buffer := by
    rw [← laidOver_snoc, ← holds.buffer, ← holds.idx]
    rfl
  stores := by
    rw [List.length_append, List.length_singleton, List.range_succ, ← holds.stores, ← holds.idx]
    rfl

/-- A loop ends with what `scanWord` says, and has read no further than to where it stops. -/
structure Scan.Collects (before after : Scan) (word : Word) (memory : Nat → UInt8) : Prop where
  holds : after.Holds word.chars memory
  i : after.i = word.next
  seen : after.seen = word.seen
  reads : ∀ k ∈ after.reads, k ∈ before.reads ∨ k ≤ after.i

/-- The reads of the rest of the rounds, and the one before. -/
theorem Scan.Collects.read_first {before middle after : Scan} {word : Word}
    {memory : Nat → UInt8} (collects : middle.Collects after word memory)
    (reads : middle.reads = before.reads ++ [before.i]) (later : before.i ≤ after.i) :
    before.Collects after word memory where
  holds := collects.holds
  i := collects.i
  seen := collects.seen
  reads k member := by
    rcases collects.reads k member with old | bounded
    · rw [reads, List.mem_append, List.mem_singleton] at old
      exact old.imp_right fun first => Nat.le_trans (Nat.le_of_eq first) later
    · exact .inr bounded

theorem scanWord_forward (rounds i : Nat) (flag : Bool) (chars : List UInt8) :
    i ≤ (scanWord command i flag chars rounds).next := by
  induction rounds generalizing i flag chars with
  | zero => exact Nat.le_refl i
  | succ rounds ih =>
      unfold scanWord
      split
      · exact Nat.le_refl i
      split
      · exact Nat.le_refl i
      split
      · exact Nat.le_of_succ_le (ih (i + 1) true _)
      · exact Nat.le_of_succ_le (ih (i + 1) flag chars)

/-- One round, for the scan and for the word it collects: at the NUL, -/
theorem Scan.loop_nul {s : Scan} (nul : command s.i = 0) (rounds : Nat) (chars : List UInt8) :
    s.loop command (rounds + 1) = s.read.put 0 ∧
      scanWord command s.i s.flag chars (rounds + 1) = ⟨s.i, chars ++ [0], s.flag⟩ := by
  simp only [loop, scanWord, nul, if_true, and_self]

/-- at a blank behind the word, -/
theorem Scan.loop_behind {s : Scan} (blank : command s.i = SPACE) (flag : s.flag = true)
    (rounds : Nat) (chars : List UInt8) :
    s.loop command (rounds + 1) = { s.read.put 0 with flag := false } ∧
      scanWord command s.i s.flag chars (rounds + 1) = ⟨s.i, chars ++ [0], true⟩ := by
  have notNul : SPACE ≠ 0 := by decide
  have flagged : s.read.flag = true := flag
  simp only [loop, scanWord, blank, flag, flagged, if_neg notNul, and_self, if_true]

/-- at a blank before it, -/
theorem Scan.loop_before {s : Scan} (blank : command s.i = SPACE) (flag : s.flag = false)
    (rounds : Nat) (chars : List UInt8) :
    s.loop command (rounds + 1) = ({ s.read with i := s.i + 1 } : Scan).loop command rounds ∧
      scanWord command s.i s.flag chars (rounds + 1) =
        scanWord command (s.i + 1) false chars rounds := by
  have notNul : SPACE ≠ 0 := by decide
  have flagged : s.read.flag = false := flag
  simp only [loop, scanWord, blank, flag, flagged, if_neg notNul, Bool.false_eq_true, and_false,
    if_false, ne_eq, not_true, and_true]
  rfl

/-- and at a character of the word. -/
theorem Scan.loop_char {s : Scan} (notNul : command s.i ≠ 0) (char : command s.i ≠ SPACE)
    (rounds : Nat) (chars : List UInt8) :
    s.loop command (rounds + 1) =
        ({ s.read.put (command s.i) with flag := true, seen := true, i := s.i + 1 } : Scan).loop
          command rounds ∧
      scanWord command s.i s.flag chars (rounds + 1) =
        scanWord command (s.i + 1) true (chars ++ [command s.i]) rounds := by
  simp only [loop, scanWord, if_neg notNul, char, false_and, if_false, ne_eq, not_false_eq_true,
    if_true, and_true]
  rfl

theorem Scan.loop_collects (command : CharPtr) (rounds : Nat) {s : Scan}
    {chars : List UInt8} {memory : Nat → UInt8}
    (holds : s.Holds chars memory) (flag : s.flag = s.seen) :
    s.Collects (s.loop command rounds) (scanWord command s.i s.flag chars rounds) memory := by
  induction rounds generalizing s chars with
  | zero => exact ⟨holds, rfl, flag.symm, fun k member => .inl member⟩
  | succ rounds ih =>
      have looked : s.read.Holds chars memory := ⟨holds.idx, holds.buffer, holds.stores⟩
      have stopped (k : Nat) (member : k ∈ s.reads ++ [s.i]) : k ∈ s.reads ∨ k ≤ s.i := by
        rw [List.mem_append, List.mem_singleton] at member
        exact member.imp_right Nat.le_of_eq
      have ended := looked.put 0
      by_cases nul : command s.i = 0
      · obtain ⟨looped, scanned⟩ := Scan.loop_nul nul rounds chars
        rw [looped, scanned]
        exact ⟨ended, rfl, flag.symm, stopped⟩
      by_cases blank : command s.i = SPACE
      · cases flagged : s.flag with
        | true =>
            obtain ⟨looped, scanned⟩ := Scan.loop_behind blank flagged rounds chars
            rw [flagged] at scanned
            rw [looped, scanned]
            exact ⟨⟨ended.idx, ended.buffer, ended.stores⟩, rfl, flag.symm.trans flagged, stopped⟩
        | false =>
            obtain ⟨looped, scanned⟩ := Scan.loop_before blank flagged rounds chars
            rw [flagged] at scanned
            rw [looped, scanned, ← flagged]
            have rest := ih (s := { s.read with i := s.i + 1 })
              ⟨looked.idx, looked.buffer, looked.stores⟩ flag
            exact rest.read_first rfl
              (rest.i ▸ Nat.le_of_succ_le (scanWord_forward rounds (s.i + 1) s.flag chars))
      · obtain ⟨looped, scanned⟩ := Scan.loop_char nul blank rounds chars
        have taken := looked.put (command s.i)
        rw [looped, scanned]
        have rest := ih
          (s := { s.read.put (command s.i) with flag := true, seen := true, i := s.i + 1 })
          ⟨taken.idx, taken.buffer, taken.stores⟩ rfl
        exact rest.read_first rfl
          (rest.i ▸ Nat.le_of_succ_le (scanWord_forward rounds (s.i + 1) true _))

theorem Scan.start_holds (i : Nat) (memory : Nat → UInt8) :
    (Scan.start i memory).Holds [] memory :=
  ⟨rfl, rfl, rfl⟩

/-- The two loops of `execute` collect the two words of `scanWord`. -/
theorem parse_collects (command : CharPtr) (fn argBuf : Nat → UInt8) {len : Nat}
    (isLen : (commandLength command).toNat = len) {first second : Word}
    (isFirst : scanWord command 0 false [] len = first)
    (isSecond : scanWord command first.next false [] (len - first.next) = second) :
    (Scan.start 0 fn).Collects (parse command fn argBuf).fn first fn ∧
      (Scan.start first.next (cleared argBuf)).Collects (parse command fn argBuf).arg second
        (cleared argBuf) ∧
      (parse command fn argBuf).argumentExist = if second.seen then 1 else 0 := by
  have fnLoop := Scan.loop_collects command len (Scan.start_holds 0 fn) rfl
  rw [show scanWord command (Scan.start 0 fn).i (Scan.start 0 fn).flag [] len = first
    from isFirst] at fnLoop
  have argLoop := Scan.loop_collects command (len - first.next)
    (Scan.start_holds first.next (cleared argBuf)) rfl
  rw [show scanWord command (Scan.start first.next (cleared argBuf)).i
    (Scan.start first.next (cleared argBuf)).flag [] (len - first.next) = second
    from isSecond] at argLoop
  simp only [parse, isLen, fnLoop.i]
  refine ⟨fnLoop, argLoop, ?_⟩
  rw [← argLoop.seen]

end Loop

section Words

variable {command : CharPtr}

/-- The length check passes short commands, and those that an `int` cannot count. -/
theorem Accepted.short (accepted : Accepted command) (small : strlen command < 2 ^ 31 - 1) :
    strlen command ≤ MAX_ARG_LENGTH + 3 := by
  have whole : toInt32 (strlen command + 1) = ((strlen command + 1 : Nat) : Int) :=
    toInt32_small (by omega)
  rw [Accepted, commandLength, whole] at accepted
  omega

/-- What the two loops leave of a short command. -/
structure Parsed.SplitsWords (parsed : Parsed) (command : CharPtr) (fn argBuf : Nat → UInt8) :
    Prop where
  fn : parsed.fn.Holds (firstWord (chars command) ++ [0]) fn
  arg : parsed.arg.Holds (secondWord (chars command) ++ [0]) (cleared argBuf)
  argumentExist : parsed.argumentExist = if secondWord (chars command) = [] then 0 else 1
  reads : ∀ k ∈ parsed.fn.reads ++ parsed.arg.reads, k ≤ strlen command

theorem parse_short (short : strlen command ≤ MAX_ARG_LENGTH + 3) (fn argBuf : Nat → UInt8) :
    (parse command fn argBuf).SplitsWords command fn argBuf := by
  have bound : strlen command ≤ 36 := short
  have length : (chars command).length = strlen command := by simp [chars]
  have whole : commandLength command = ((strlen command + 1 : Nat) : Int) :=
    toInt32_small (by omega)
  obtain ⟨next, first, spelled, aligned⟩ := scanWord_spells (spells_chars (s := command) (by omega))
  obtain ⟨last, second, _, ended⟩ := scanWord_spells spelled
  rw [length] at first aligned
  have rounds : (afterWord (chars command)).length + 1 = strlen command + 1 - next := by omega
  rw [rounds] at second
  have isLen : (commandLength command).toNat = strlen command + 1 := by
    rw [whole, Int.toNat_natCast]
  obtain ⟨fnLoop, argLoop, argumentExist⟩ := parse_collects command fn argBuf isLen first second
  refine ⟨fnLoop.holds, argLoop.holds, ?_, fun k member => ?_⟩
  · rw [argumentExist]
    by_cases empty : firstWord (afterWord (chars command)) = [] <;> simp [secondWord, empty]
  · have fnEnd := fnLoop.i
    have argEnd := argLoop.i
    simp only at fnEnd argEnd
    rcases List.mem_append.mp member with inFn | inArg
    · have read := (fnLoop.reads k inFn).resolve_left (List.not_mem_nil)
      omega
    · have read := (argLoop.reads k inArg).resolve_left (List.not_mem_nil)
      omega

/-- A word in memory that its NUL follows. -/
theorem Scan.Holds.spells {s : Scan} {word : List UInt8} {memory : Nat → UInt8}
    (holds : s.Holds (word ++ [0]) memory) (nonzero : ∀ c ∈ word, c ≠ 0) :
    Spells s.buffer 0 word where
  char k inside := by
    refine ⟨?_, nonzero _ (List.getElem_mem inside)⟩
    rw [holds.buffer, laidOver, Nat.zero_add, List.getD_eq_getElem?_getD,
      List.getElem?_append_left inside, List.getElem?_eq_getElem inside, Option.getD_some]
  nul := by simp [holds.buffer, laidOver]

/-- A word in cleared memory. -/
theorem Scan.Holds.padded {s : Scan} {word : List UInt8} {argBuf : Nat → UInt8}
    (holds : s.Holds (word ++ [0]) (cleared argBuf)) {k : Nat} (inside : k < MAX_ARG_LENGTH) :
    s.buffer k = word.getD k 0 := by
  have zero : cleared argBuf k = 0 := if_pos inside
  rw [holds.buffer, laidOver, zero]
  rcases Nat.lt_or_ge k word.length with before | behind
  · rw [List.getD_append _ _ _ _ before]
  · rw [List.getD_append_right _ _ _ _ behind, List.getD_eq_default _ _ behind]
    cases k - word.length with
    | zero => rfl
    | succ n => rfl

theorem Scan.Holds.stores_lt_iff {s : Scan} {word : List UInt8} {memory : Nat → UInt8}
    (holds : s.Holds (word ++ [0]) memory) (size : Nat) :
    (∀ k ∈ s.stores, k < size) ↔ word.length < size := by
  rw [holds.stores, List.length_append, List.length_singleton]
  constructor
  · intro inside
    exact inside word.length (List.mem_range.mpr (Nat.lt_succ_self _))
  · intro fits k member
    exact Nat.lt_of_le_of_lt (Nat.le_of_lt_succ (List.mem_range.mp member)) fits

/-- Short commands: the two buffers hold words of at most 32 characters. -/
theorem Parsed.SplitsWords.inside_iff {parsed : Parsed} {fn argBuf : Nat → UInt8}
    (splits : parsed.SplitsWords command fn argBuf) :
    parsed.StaysInside ↔ (firstWord (chars command)).length < MAX_ARG_LENGTH ∧
      (secondWord (chars command)).length < MAX_ARG_LENGTH := by
  constructor
  · intro inside
    exact ⟨(splits.fn.stores_lt_iff 33).mp inside.fn, (splits.arg.stores_lt_iff _).mp inside.arg⟩
  · rintro ⟨first, second⟩
    refine ⟨(splits.fn.stores_lt_iff 33).mpr first, (splits.arg.stores_lt_iff _).mpr second,
      (secondWord (chars command)).length, second, ?_⟩
    rw [splits.arg.padded second, List.getD_eq_default _ _ (Nat.le_refl _)]

theorem Scan.Holds.collected {s : Scan} {word : List UInt8} {memory : Nat → UInt8}
    (holds : s.Holds word memory) : (List.range s.idx).map s.buffer = word := by
  apply List.ext_getElem
  · rw [List.length_map, List.length_range, holds.idx]
  · intro k _ inside
    rw [List.getElem_map, List.getElem_range, holds.buffer, laidOver,
      List.getD_eq_getElem _ _ inside]

theorem Scan.Holds.collected_cleared {s : Scan} {word : List UInt8} {argBuf : Nat → UInt8}
    (holds : s.Holds word (cleared argBuf)) (fits : word.length ≤ MAX_ARG_LENGTH) :
    (List.range MAX_ARG_LENGTH).map s.buffer =
      word ++ List.replicate (MAX_ARG_LENGTH - word.length) 0 := by
  apply List.ext_getElem
  · rw [List.length_map, List.length_range, List.length_append, List.length_replicate]
    omega
  · intro k inBuffer _
    rw [List.length_map, List.length_range] at inBuffer
    rw [List.getElem_map, List.getElem_range, holds.buffer, laidOver]
    rcases Nat.lt_or_ge k word.length with before | behind
    · rw [List.getElem_append_left before, List.getD_eq_getElem _ _ before]
    · rw [List.getElem_append_right behind, List.getElem_replicate, List.getD_eq_default _ _ behind]
      exact if_pos inBuffer

/-- As long as the loops stay inside their buffers, the checks of `execute` go on with what they
    leave there. -/
theorem checkCommand_parses {s : State} {bootBlock : Option Image} {stack : List UInt8}
    (notFull : s.proc.processCount ≠ MAX_NUM_PROCESSES) (accepted : Accepted command)
    {fn argBuf : Nat → UInt8} {parsed : Parsed} (parses : parse command fn argBuf = parsed)
    (inside : parsed.StaysInside) :
    (s.checkCommand bootBlock stack command).1.proc =
        { s.proc with
          argBuf := (List.range MAX_ARG_LENGTH).map parsed.arg.buffer
          argumentExist := parsed.argumentExist } ∧
      (s.checkCommand bootBlock stack command).2 =
        programInode bootBlock ((List.range parsed.fn.idx).map parsed.fn.buffer) stack := by
  obtain ⟨fnLoop, argLoop, argumentExist⟩ :=
    parse_collects command fn argBuf rfl rfl rfl
  rw [parses] at fnLoop argLoop argumentExist
  have fits := inside.arg
  rw [argLoop.holds.stores] at fits
  rw [fnLoop.holds.collected, argLoop.holds.collected_cleared, argumentExist]
  · have passed : ¬ (MAX_ARG_LENGTH : Int) + 4 < toInt32 (strlen command + 1) := accepted
    simp only [State.checkCommand, if_neg notFull, if_neg passed]
    exact ⟨rfl, rfl⟩
  · by_contra long
    exact absurd (fits _ (List.mem_range.mpr (Nat.not_le.mp long))) (Nat.lt_irrefl _)

/-- Parsing a command is splitting it into words: for every command that lies in memory in some
    state of a run of the kernel, that the length check lets through, and whose two words fit. -/
theorem parse_splits_words {s later : State} {bootBlock : Option Image}
    {buffers : TerminalId → List UInt8} {as : List VideoAction}
    (run : (videoMachine bootBlock).Run (s.entry bootBlock buffers) as later) {va : Nat}
    (held : later.display.mmu.HoldsString va command) (accepted : Accepted command)
    (firstFits : (firstWord (chars command)).length ≤ 32)
    (secondFits : (secondWord (chars command)).length ≤ 32) (fn argBuf : Nat → UInt8) :
    (parse command fn argBuf).StaysInside ∧
      Spells (parse command fn argBuf).fn.buffer 0 (firstWord (chars command)) ∧
      (∀ k < MAX_ARG_LENGTH,
        (parse command fn argBuf).arg.buffer k = (secondWord (chars command)).getD k 0) ∧
      ((parse command fn argBuf).argumentExist = 1 ↔ secondWord (chars command) ≠ []) ∧
      ∀ k ∈ (parse command fn argBuf).fn.reads ++ (parse command fn argBuf).arg.reads,
        k ≤ strlen command := by
  have bounded : later.Bounded := (State.entry_bounded buffers s).of_run run
  have splits := parse_short (accepted.short (bounded.strlen_lt held)) fn argBuf
  have inside := splits.inside_iff.mpr ⟨Nat.lt_succ_of_le firstFits, Nat.lt_succ_of_le secondFits⟩
  refine ⟨inside, ?_, fun k before => splits.arg.padded before, ?_, splits.reads⟩
  · exact splits.fn.spells fun c inWord => chars_nonzero (mem_of_firstWord inWord)
  · rw [splits.argumentExist]
    by_cases empty : secondWord (chars command) = [] <;> simp [empty]

/-- The rounds of a command that is longer than an `int` can say. -/
theorem parse_few (few : (commandLength command).toNat ≤ 1) (nonempty : command 0 ≠ 0)
    (fn argBuf : Nat → UInt8) : (parse command fn argBuf).StaysInside := by
  obtain ⟨fnLoop, argLoop, _⟩ := parse_collects command fn argBuf rfl rfl rfl
  have fnShort := (scanWord_length command 0 false [] (commandLength command).toNat).2
  rw [List.length_nil] at fnShort
  rw [scanWord_next_few few nonempty, Nat.sub_self] at argLoop
  -- the second loop makes no round
  have argEmpty : (parse command fn argBuf).arg.Holds [] (cleared argBuf) := argLoop.holds
  constructor
  · intro k member
    rw [fnLoop.holds.stores, List.mem_range] at member
    omega
  · intro k member
    rw [argEmpty.stores] at member
    cases member
  · exact ⟨0, by decide, by rw [argEmpty.buffer]; rfl⟩

/-- For every command that the length check lets through: the parsing loops stay inside `fn` and
    `arg_buf` and leave a NUL in `arg_buf` if and only if both words fit. -/
theorem parse_stays_inside_iff (accepted : Accepted command) (fn argBuf : Nat → UInt8) :
    (parse command fn argBuf).StaysInside ↔ WordsFit command := by
  by_cases short : strlen command ≤ MAX_ARG_LENGTH + 3
  · rw [(parse_short short fn argBuf).inside_iff]
    exact ⟨fun fit _ => fit, fun fit => fit short⟩
  · refine iff_of_true ?_ fun isShort => absurd isShort short
    obtain ⟨nonzero, bound, _⟩ := strlen_spec command
    have few : (commandLength command).toNat ≤ 1 := by
      simp only [Accepted, MAX_ARG_LENGTH, commandLength, toInt32] at accepted short ⊢
      omega
    exact parse_few few (nonzero 0 (by omega)) fn argBuf

end Words

/-- The shell of terminal 2 is entered, and puts a command in its memory. -/
theorem Fresh.command_held {s : State} (fresh : Fresh s) (bootBlock : Option Image)
    (context : Context) (text : List UInt8) (nonzero : ∀ c ∈ text, c ≠ 0)
    (short : text.length < 4096) :
    ∃ later, (videoMachine bootBlock).Run s
        [.kernel (.schedule context),
          .kernel (.kernelCopy VIRTUAL_128MB_START (text ++ [0]))] later ∧
      later.display.mmu.HoldsString VIRTUAL_128MB_START (charPtr text) ∧
      later.faulted = false ∧ later.proc.activePid = 2 ∧ later.proc.processCount = 3 ∧
      later.proc.processes = fun i => if i < 4 then 1 else 0 := by
  obtain ⟨sound, proc, _⟩ := fresh.scheduled bootBlock context
  have first : (videoMachine bootBlock).Run s [.kernel (.schedule context)]
      (s.step bootBlock (.schedule context)) := .cons ⟨fresh.running, trivial⟩ (.nil _)
  generalize s.step bootBlock (.schedule context) = shell at sound proc first
  have active : shell.proc.activePid = 2 := by
    rw [proc]
    rfl
  have user : shell.display.mmu.pageDir Mmu.userIndex = Mmu.userEntry 2 := by
    rw [sound.user (by omega), active]
  have inPage (i : Nat) (inside : i < (text ++ [0]).length) :
      State.inUserPage (VIRTUAL_128MB_START + i) := by
    rw [List.length_append, List.length_singleton] at inside
    exact ⟨Nat.le_add_right _ _, by omega⟩
  have able : (videoMachine bootBlock).enabled shell
      (.kernel (.kernelCopy VIRTUAL_128MB_START (text ++ [0]))) :=
    ⟨sound.valid.fault, by omega, inPage⟩
  have copied := Mmu.storeBytes_user (by decide) user inPage
  have holds := Mmu.storeBytes_holds (by decide) user nonzero (by omega) inPage
  refine ⟨_, first.append (.cons able (.nil _)), holds, copied.1.fault.trans sound.valid.fault,
    active, ?_, ?_⟩
  · exact (congrArg Proc.processCount proc).trans fresh.processCount
  · exact (congrArg Proc.processes proc).trans (funext fresh.processes)

theorem shellWithArgument_split :
    ∃ later, (videoMachine (some shellImage)).Run (poweredOn.entry (some shellImage) (fun _ => []))
        [.kernel (.schedule ⟨0x7FFF00, 0x7FFF80⟩),
          .kernel (.kernelCopy VIRTUAL_128MB_START (text "shell x" ++ [0]))] later ∧
      later.display.mmu.HoldsString VIRTUAL_128MB_START shellWithArgument ∧
      ∀ fn argBuf, (parse shellWithArgument fn argBuf).StaysInside ∧
        Spells (parse shellWithArgument fn argBuf).fn.buffer 0
          (firstWord (chars shellWithArgument)) ∧
        (∀ k < MAX_ARG_LENGTH, (parse shellWithArgument fn argBuf).arg.buffer k =
          (secondWord (chars shellWithArgument)).getD k 0) ∧
        ((parse shellWithArgument fn argBuf).argumentExist = 1 ↔
          secondWord (chars shellWithArgument) ≠ []) ∧
        ∀ k ∈ (parse shellWithArgument fn argBuf).fn.reads ++
            (parse shellWithArgument fn argBuf).arg.reads,
          k ≤ strlen shellWithArgument := by
  have fresh := (poweredOn_powerOn.entry_fresh (some shellImage) (fun _ => [])).1
  obtain ⟨later, run, held, _⟩ := fresh.command_held (some shellImage) ⟨0x7FFF00, 0x7FFF80⟩
    (text "shell x") (by decide +kernel) (by decide)
  exact ⟨later, run, held, parse_splits_words run held (by decide +kernel) (by decide +kernel)
    (by decide +kernel)⟩

/-- A one-letter name and an argument of 34 letters. -/
def longArgument : CharPtr := charPtr (text "a bbbbbbbbbbbbbbbbbbbbbbbbbbbbbbbbbb")

theorem longArgument_leaves_buffer : Accepted longArgument ∧
    ¬ (parse longArgument (fun _ => 0) (fun _ => 0)).StaysInside := by
  refine ⟨by decide +kernel, fun inside => ?_⟩
  exact absurd (inside.arg 33 (by decide +kernel)) (by decide)

theorem longArgument_inside_iff :
    (parse longArgument (fun _ => 0) (fun _ => 0)).StaysInside ↔ WordsFit longArgument :=
  parse_stays_inside_iff (by decide +kernel) _ _

end LightOS.Kernel
