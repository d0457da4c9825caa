import LightOS.Kernel.Vidmap
import LightOS.Terminal.Alike

/-! # What a line remembers of the ones before it

Two histories with the same surplus are followed by the same lines, and a surplus that differs
shows in what a read of two bytes returns.
-/

namespace LightOS.Terminal

open Lib Kernel

/-- The same call, with the same keys at the same moments, returns the same line after `first`
    as after `second`, and takes as many characters off the screen. -/
def SameLines (t : TerminalId) (first second : Console) : Prop :=
  ∀ (call : ReadCall) (events : List Event) (first' second' : Console) (value : Int),
    (∀ event ∈ events, event.NotCall) →
    console.Run first (.call call :: events) first' →
    console.Run second (.call call :: events) second' →
    (first'.reader t).pc = .returned value →
      (second'.reader t).pc = .returned value ∧
        (second'.reader t).memory = (first'.reader t).memory ∧
        console.record (erased t) first (.call call :: events) 0 =
          console.record (erased t) second (.call call :: events) 0

/-! ## Telling a surplus -/

/-- A letter, more Backspaces than a surplus of `count`, and Enter. -/
def probeKeys (count : Nat) : List UInt8 :=
  keyA :: (List.replicate (count + 1) BACKSPACE ++ [keyEnter])

/-- A buffer of two bytes. -/
def probeCall : ReadCall := ⟨0x08000000, 2, fun _ => 0⟩

/-- The events after the call. -/
def probe (count : Nat) : List Event :=
  .read :: ((probeKeys count).map .key ++ List.replicate 5 .read)

/-- Keys of the editor, one after the other. -/
def Line.strikes (line : Line) (m : Modifiers) (inputs : List UInt8) : Line :=
  inputs.foldl (fun line input => line.strike m input) line

section Probe

variable {s : Console} {t : TerminalId} {m : Modifiers}

theorem press_probe (m : Modifiers) {count : Nat} {input : UInt8} (key : input ∈ probeKeys count) :
    m.press input = none ∧ (input = BACKSPACE ∨ input < KEYBOARD_KEY_NUMBER) ∧
      input ≠ F1 ∧ input ≠ F2 ∧ input ≠ F3 := by
  simp only [probeKeys, List.mem_cons, List.mem_append, List.mem_replicate, List.not_mem_nil,
    or_false] at key
  rcases key with rfl | ⟨_, rfl⟩ | rfl
  · exact ⟨press_eq_none m (by decide), .inr (by decide), by decide⟩
  · exact ⟨press_backspace m, .inl rfl, by decide⟩
  · exact ⟨press_eq_none m (by decide), .inr (by decide), by decide⟩

/-- Keys of the editor on the terminal on display. -/
theorem Driver.foldl_handle (d : Driver) {inputs : List UInt8}
    (keys : ∀ input ∈ inputs, d.modifiers.press input = none ∧
      (input = BACKSPACE ∨ input < KEYBOARD_KEY_NUMBER)) :
    inputs.foldl Driver.handle d =
      d.edit fun line => line.strikes d.modifiers inputs := by
  induction inputs generalizing d with
  | nil => simp [edit, Line.strikes]
  | cons input inputs ih =>
      rw [List.forall_mem_cons] at keys
      obtain ⟨⟨press, known⟩, rest⟩ := keys
      have first : d.handle input = d.edit fun line => line.strike d.modifiers input := by
        unfold handle Line.strike
        rw [press]
        dsimp only
        split_ifs with isBackspace inTable
        · rfl
        · rfl
        · exact absurd (known.resolve_left isBackspace) inTable
      rw [List.foldl_cons, first,
        ih (d.edit fun line => line.strike d.modifiers input) rest]
      simp [edit, Line.strikes]

/-- Keys that do not switch terminals. -/
theorem keys_run (mapped : s.kernel.display.Mapped) {inputs : List UInt8}
    (stays : ∀ input ∈ inputs, input ≠ F1 ∧ input ≠ F2 ∧ input ≠ F3) :
    ∃ later, console.Run s (inputs.map .key) later ∧
      later.driver = inputs.foldl Driver.handle s.driver ∧ later.reader = s.reader ∧
      later.activeTerminal = s.activeTerminal ∧ later.kernel.display.Mapped := by
  induction inputs generalizing s with
  | nil => exact ⟨s, .nil s, rfl, rfl, rfl, mapped⟩
  | cons input inputs ih =>
      rw [List.forall_mem_cons] at stays
      obtain ⟨later, run, driver, reader, active, mapped'⟩ :=
        ih (Console.step_mapped (.key input) mapped stays.1) stays.2
      refine ⟨later, .cons ⟨mapped.fault, trivial⟩ run, ?_, reader, ?_, mapped'⟩
      · rw [driver, Console.step_key_driver, List.foldl_cons]
      · rw [active, Console.step_key_activeTerminal]

/-- Backspaces spent on a surplus. -/
theorem strike_backspaces {line : Line} {count : Nat} (enough : count ≤ line.overflow) :
    line.strikes m (List.replicate count BACKSPACE) =
      { line with overflow := line.overflow - count } := by
  induction count generalizing line with
  | zero => rfl
  | succ count ih =>
      have positive : 0 < line.overflow := by omega
      have first : line.strike m BACKSPACE = { line with overflow := line.overflow - 1 } := by
        rw [Line.strike, if_pos rfl, Line.eraseLast, if_pos positive]
      have rest := @ih { line with overflow := line.overflow - 1 } (by simp only; omega)
      simp only [Nat.sub_sub, Nat.add_comm 1 count] at rest
      rw [← rest, ← first]
      rfl

/-- The letter and the newline, whatever the flags. -/
theorem Modifiers.Flags.probe (flags : m.Flags) :
    m.key keyA ≠ NEWLINE ∧ ¬ ((m.key keyA = 0x6C ∨ m.key keyA = 0x4C) ∧ m.ctrlPressed ≠ 0) ∧
      m.key keyEnter = NEWLINE := by
  obtain ⟨shift, caps⟩ := flags
  have rows : m.shiftPressed ||| m.capsLock = 0 ∨ m.shiftPressed ||| m.capsLock = 1 := by
    obtain none | one : m.shiftPressed = 0 ∨ m.shiftPressed = 1 := by omega
    all_goals obtain none' | one' : m.capsLock = 0 ∨ m.capsLock = 1 := by omega
    all_goals simp [*]
  unfold Modifiers.key
  rcases rows with row | row <;> rw [row]
  · exact ⟨by decide, fun clears => absurd clears.1 (by decide), by decide⟩
  · exact ⟨by decide, fun clears => absurd clears.1 (by decide), by decide⟩

/-- A character for a line with room for it. -/
theorem Line.strike_letter {line : Line} {input : UInt8} (enable : line.keyboardBufferEnable = 1)
    (inside : 0 ≤ line.keyboardBufferSize ∧ line.keyboardBufferSize < KEYBOARD_BUFFER_SIZE)
    (notBackspace : input ≠ BACKSPACE) (notNewline : m.key input ≠ NEWLINE)
    (notClear : ¬ ((m.key input = 0x6C ∨ m.key input = 0x4C) ∧ m.ctrlPressed ≠ 0)) :
    line.strike m input =
      { line with
        keyBuf := Function.update line.keyBuf line.keyboardBufferSize.toNat (m.key input)
        keyboardBufferSize := line.keyboardBufferSize + 1 } := by
  have branch : line.branch m (m.key input) = .append :=
    Line.branch_append_iff.mpr ⟨notNewline, notClear, by rw [enable]; decide⟩
  rw [Line.strike, if_neg notBackspace, Line.type, branch, Line.apply_append inside]

/-- Enter for a line with room for it. -/
theorem Line.strike_enter {line : Line} {input : UInt8} (enable : line.keyboardBufferEnable = 1)
    (inside : 0 ≤ line.keyboardBufferSize ∧ line.keyboardBufferSize < KEYBOARD_BUFFER_SIZE)
    (notBackspace : input ≠ BACKSPACE) (newline : m.key input = NEWLINE) :
    line.strike m input =
      { line with
        keyBuf := Function.update line.keyBuf line.keyboardBufferSize.toNat NEWLINE
        keyboardBufferSize := line.keyboardBufferSize + 1
        keyboardBufferEnable := 0 } := by
  have notClear : ¬ ((NEWLINE = 0x6C ∨ NEWLINE = 0x4C) ∧ m.ctrlPressed ≠ 0) :=
    fun clears => absurd clears.1 (by decide)
  have waiting : line.keyboardBufferEnable ≠ 0 := by
    rw [enable]
    decide
  have branch : line.branch m NEWLINE = .enter := by
    rw [Line.branch, if_neg notClear, if_neg fun full => Int.not_lt.mpr full.1 inside.2,
      if_pos ⟨rfl, waiting⟩]
  rw [Line.strike, if_neg notBackspace, Line.type, newline, branch, Line.apply_enter inside]

/-- What the keys of a probe make of an empty line that a reader waits for. -/
theorem strikes_probe (flags : m.Flags) (f : Nat → UInt8) (extra count : Nat) :
    Line.strikes ⟨f, 0, 1, extra⟩ m (probeKeys count) =
      (Line.strikes ⟨Function.update f 0 (m.key keyA), 1, 1, extra⟩ m
        (List.replicate (count + 1) BACKSPACE)).strike m keyEnter := by
  obtain ⟨notNewline, notClear, _⟩ := flags.probe
  have room : (0 : Int) < KEYBOARD_BUFFER_SIZE := by decide
  have letter : Line.strike ⟨f, 0, 1, extra⟩ m keyA =
      ⟨Function.update f 0 (m.key keyA), 1, 1, extra⟩ :=
    Line.strike_letter rfl ⟨Int.le_refl 0, room⟩ (by decide) notNewline notClear
  simp only [Line.strikes, probeKeys, List.foldl_cons, letter, List.foldl_append, List.foldl_nil]

/-- With a surplus the letter stays. -/
theorem strikes_probe_more (flags : m.Flags) (f : Nat → UInt8) {extra count : Nat}
    (more : count < extra) :
    ∃ g, Line.strikes ⟨f, 0, 1, extra⟩ m (probeKeys count) = ⟨g, 2, 0, extra - (count + 1)⟩ ∧
      g 0 ≠ NEWLINE ∧ g 1 = NEWLINE := by
  obtain ⟨notNewline, _, enter⟩ := flags.probe
  have room : (0 : Int) ≤ 1 ∧ (1 : Int) < KEYBOARD_BUFFER_SIZE := by decide
  rw [strikes_probe flags, strike_backspaces (Nat.succ_le_of_lt more),
    Line.strike_enter rfl room (by decide) enter]
  refine ⟨_, rfl, ?_, ?_⟩
  · simpa using notNewline
  · simp

/-- Without one the last Backspace takes it away. -/
theorem strikes_probe_spent (flags : m.Flags) (f : Nat → UInt8) (count : Nat) :
    ∃ g, Line.strikes ⟨f, 0, 1, count⟩ m (probeKeys count) = ⟨g, 1, 0, 0⟩ ∧ g 0 = NEWLINE := by
  obtain ⟨_, _, enter⟩ := flags.probe
  have room : (0 : Int) ≤ 0 ∧ (0 : Int) < KEYBOARD_BUFFER_SIZE := by decide
  have split (line : Line) : line.strikes m (List.replicate (count + 1) BACKSPACE) =
      (line.strikes m (List.replicate count BACKSPACE)).strike m BACKSPACE := by
    simp only [Line.strikes, List.replicate_succ', List.foldl_append, List.foldl_cons,
      List.foldl_nil]
  have last : Line.strike ⟨Function.update f 0 (m.key keyA), 1, 1, 0⟩ m BACKSPACE =
      ⟨Function.update f 0 (m.key keyA), 0, 1, 0⟩ := rfl
  rw [strikes_probe flags, split, strike_backspaces (Nat.le_refl count), Nat.sub_self, last,
    Line.strike_enter rfl room (by decide) enter]
  exact ⟨_, rfl, by simp⟩

/-! The line of one character and the line of two take as many statements each. -/

theorem advance_one {g : Nat → UInt8} (newline : g 0 = NEWLINE) (extra : Nat) (call : ReadCall)
    (memory : UInt32 → UInt8) :
    let both : Line × Reader := (⟨g, 1, 0, extra⟩, ⟨.spin, call, 2, 0, memory⟩)
    (∀ j < 5, (Reader.advance j both).2.running = true) ∧
      (Reader.advance 5 both).2.pc = .returned 1 := by
  constructor
  · intro j before
    obtain rfl | rfl | rfl | rfl | rfl : j = 0 ∨ j = 1 ∨ j = 2 ∨ j = 3 ∨ j = 4 := by omega
    all_goals simp [Reader.advance, Reader.step, Reader.running, newline, Reader.store, toUint32]
  · simp [Reader.advance, Reader.step, newline, Reader.store, toUint32]

theorem advance_two {g : Nat → UInt8} (letter : g 0 ≠ NEWLINE) (newline : g 1 = NEWLINE)
    (extra : Nat) (call : ReadCall) (memory : UInt32 → UInt8) :
    let both : Line × Reader := (⟨g, 2, 0, extra⟩, ⟨.spin, call, 2, 0, memory⟩)
    (∀ j < 5, (Reader.advance j both).2.running = true) ∧
      (Reader.advance 5 both).2.pc = .returned 2 := by
  constructor
  · intro j before
    obtain rfl | rfl | rfl | rfl | rfl : j = 0 ∨ j = 1 ∨ j = 2 ∨ j = 3 ∨ j = 4 := by omega
    all_goals simp [Reader.advance, Reader.step, Reader.running, letter, newline, Reader.store,
      toUint32]
  · simp [Reader.advance, Reader.step, letter, newline, Reader.store, toUint32]

theorem Console.step_read (s : Console) :
    ((s.step .read).line s.activeTerminal, (s.step .read).reader s.activeTerminal) =
      (s.reader s.activeTerminal).step (s.line s.activeTerminal) := by
  simp only [step, Function.update_self]

/-- A call, and its first statement. -/
theorem Usable.waits (usable : Usable s) (free : (s.reader t).running = false)
    (active : s.activeTerminal = t) {call : ReadCall} (buffer : call.buf ≠ 0) (some : call.n ≠ 0) :
    ∃ waiting, console.Run s [.call call, .read] waiting ∧ waiting.kernel = s.kernel ∧
      waiting.modifiers = s.modifiers ∧
      waiting.line t = ⟨(s.line t).keyBuf, 0, 1, (s.line t).overflow⟩ ∧
      waiting.reader t = ⟨.spin, call, call.n.toNat, 0, call.memory⟩ := by
  obtain ⟨size, enable⟩ := (usable.settled t).free free
  subst active
  have noFault : s.kernel.faulted = false := usable.sound.valid.fault
  have entered : (s.step (.call call)).reader s.activeTerminal =
      ⟨.enable, call, call.n.toNat, 0, call.memory⟩ := by
    simp only [Console.step, Function.update_self, Reader.enter, if_neg buffer, if_neg some]
  have same : (s.step (.call call)).activeTerminal = s.activeTerminal := rfl
  have line : (s.step (.call call)).line = s.line := rfl
  have both := (s.step (.call call)).step_read
  rw [same, entered, line] at both
  refine ⟨(s.step (.call call)).step .read, .cons ⟨noFault, free⟩ (.cons ⟨noFault, ?_⟩
    (.nil _)), rfl, rfl, ?_, congrArg Prod.snd both⟩
  · simp only [console, same, entered]
    rfl
  · rw [← size]
    exact congrArg Prod.fst both

/-- A probe tells whether the surplus is more than `count`. -/
theorem Usable.probe_returns (usable : Usable s) (free : (s.reader t).running = false)
    (active : s.activeTerminal = t) (shown : s.currentTerminal = t) {count : Nat}
    (known : (s.line t).overflow = count ∨ count < (s.line t).overflow) :
    ∃ later, console.Run s (.call probeCall :: probe count) later ∧
      ((s.line t).overflow = count → (later.reader t).pc = .returned 1) ∧
      (count < (s.line t).overflow → (later.reader t).pc = .returned 2) := by
  obtain ⟨waiting, first, kernel, modifiers, line, reader⟩ :=
    @Usable.waits s t usable free active probeCall (by decide) (by decide)
  have mapped : waiting.kernel.display.Mapped := kernel ▸ usable.sound.valid.toMapped
  obtain ⟨typed, second, driver, reader', active', mapped'⟩ := keys_run mapped
    fun input key => (press_probe waiting.modifiers key).2.2
  have shown' : waiting.driver.currentTerminal = t := by
    rw [Keyboard.driver_currentTerminal, Keyboard.currentTerminal, kernel]
    exact shown
  have activeTyped : typed.activeTerminal = t := by
    rw [active', Console.activeTerminal, kernel]
    exact active
  have typedLine : typed.line t = Line.strikes ⟨(s.line t).keyBuf, 0, 1, (s.line t).overflow⟩
      s.modifiers (probeKeys count) := by
    have handled := driver.trans (waiting.driver.foldl_handle fun input key =>
      ⟨(press_probe waiting.modifiers key).1, (press_probe waiting.modifiers key).2.1⟩)
    have edited := congrArg (fun d => d.line t) handled
    simp only [Driver.edit, shown', Function.update_self, Keyboard.driver_line, line] at edited
    rw [edited, ← modifiers]
    rfl
  have typedReader : typed.reader t = ⟨.spin, probeCall, 2, 0, probeCall.memory⟩ := by
    rw [reader', reader]
    rfl
  -- The call goes on, on a line that takes five statements.
  have goes {value : Int}
      (ends : (∀ j < 5, (Reader.advance j (typed.line t, typed.reader t)).2.running = true) ∧
        (Reader.advance 5 (typed.line t, typed.reader t)).2.pc = .returned value) :
      ∃ later, console.Run s (.call probeCall :: probe count) later ∧
        (later.reader t).pc = .returned value := by
    obtain ⟨later, third, _, both, _⟩ := Console.reads_run activeTyped mapped'.fault 5 ends.1
    refine ⟨later, first.append (second.append third), ?_⟩
    have returned : later.reader t = _ := congrArg Prod.snd both
    rw [returned]
    exact ends.2
  rw [typedLine, typedReader] at goes
  rcases known with same | more
  · rw [same] at goes
    obtain ⟨g, struck, newline⟩ := strikes_probe_spent usable.flags (s.line t).keyBuf count
    rw [struck] at goes
    obtain ⟨later, run, returned⟩ := goes (advance_one newline 0 probeCall probeCall.memory)
    exact ⟨later, run, fun _ => returned, fun more => by omega⟩
  · obtain ⟨g, struck, letter, newline⟩ :=
      strikes_probe_more usable.flags (s.line t).keyBuf more
    rw [struck] at goes
    obtain ⟨later, run, returned⟩ := goes (advance_two letter newline _ probeCall probeCall.memory)
    exact ⟨later, run, fun same => by omega, fun _ => returned⟩

theorem probe_notCall (count : Nat) : ∀ event ∈ probe count, event.NotCall := by
  intro event member
  simp only [LightOS.Terminal.probe, List.mem_cons, List.mem_append, List.mem_map,
    List.mem_replicate] at member
  rcases member with rfl | ⟨input, _, rfl⟩ | ⟨_, rfl⟩ <;> trivial

end Probe

/-- A fresh read can be made on `t`, and what is typed goes to it. -/
structure Ready (t : TerminalId) (s : Console) : Prop where
  running : s.kernel.faulted = false
  active : s.activeTerminal = t
  shown : s.currentTerminal = t
  free : (s.reader t).running = false

section Theorem

variable {t : TerminalId} {s first second : Console} {bootBlock : Option Filesystem.Image}
  {buffers : TerminalId → List UInt8} {as bs : List Event}

/-- Where a probe reads the same line, the surplus is the same. -/
theorem SameLines.overflow_eq (same : SameLines t first second) (usable : Usable first)
    (usable' : Usable second) (ready : Ready t first) (ready' : Ready t second) :
    (first.line t).overflow = (second.line t).overflow := by
  rcases Nat.lt_trichotomy (first.line t).overflow (second.line t).overflow with
    less | equal | more
  · obtain ⟨later, run, spent, _⟩ :=
      usable.probe_returns ready.free ready.active ready.shown (.inl rfl)
    obtain ⟨later', run', _, left⟩ :=
      usable'.probe_returns ready'.free ready'.active ready'.shown (.inr less)
    obtain ⟨returned, _⟩ := same _ _ _ _ 1 (probe_notCall _) run run' (spent rfl)
    rw [left less] at returned
    cases returned
  · exact equal
  · obtain ⟨later, run, _, left⟩ :=
      usable.probe_returns ready.free ready.active ready.shown (.inr more)
    obtain ⟨later', run', spent, _⟩ :=
      usable'.probe_returns ready'.free ready'.active ready'.shown (.inl rfl)
    obtain ⟨returned, _⟩ := same _ _ _ _ 2 (probe_notCall _) run run' (left more)
    rw [spent rfl] at returned
    cases returned

/-- Two histories of a terminal, with the same flags at their ends: a fresh read returns the same
    line after both, whatever is typed into it, exactly when both leave the same number of Enters
    on full lines that no Backspace has been spent on. -/
theorem lines_same_iff (on : PowerOn s.kernel) (loaded : Loaded s)
    (run : console.Run (s.entry bootBlock buffers) as first)
    (run' : console.Run (s.entry bootBlock buffers) bs second) (ready : Ready t first)
    (ready' : Ready t second) (modifiers : first.modifiers = second.modifiers) :
    SameLines t first second ↔
      console.record (surplus t) (s.entry bootBlock buffers) as 0 =
        console.record (surplus t) (s.entry bootBlock buffers) bs 0 := by
  have usable := usable_of_run on loaded run ready.running
  have usable' := usable_of_run on loaded run' ready'.running
  rw [surplus_of_run run t, surplus_of_run run' t]
  constructor
  · exact fun same => same.overflow_eq usable usable' ready ready'
  · intro overflow call events later later' value notCalls played played' returned
    have alike := (usable.settled t).alike (usable'.settled t) ready.free ready'.free ready.active
      ready'.active ready.shown ready'.shown modifiers overflow call
    exact alike.sameLine notCalls played played' returned

end Theorem

/-! ## A full line -/

/-- A read waits in `t`, with `size` characters typed. -/
structure Filling (t : TerminalId) (extra size : Nat) (s : Console) : Prop where
  mapped : s.kernel.display.Mapped
  flags : s.modifiers.Flags
  shown : s.currentTerminal = t
  line : ∃ f, s.line t = ⟨f, size, 1, extra⟩

section Full

variable {t : TerminalId} {s : Console} {extra size : Nat}

/-- A key of the editor on the terminal on display. -/
theorem step_key_strike (shown : s.currentTerminal = t) {input : UInt8} {count : Nat}
    (key : input ∈ probeKeys count) :
    (s.step (.key input)).line t = (s.line t).strike s.modifiers input ∧
      (s.step (.key input)).modifiers = s.modifiers ∧
      (s.step (.key input)).currentTerminal = s.currentTerminal := by
  obtain ⟨press, known, _⟩ := press_probe s.modifiers key
  have handled := (s.step_key_driver input).trans
    (@Driver.foldl_handle s.driver [input] (by simpa using ⟨press, known⟩))
  refine ⟨?_, congrArg Driver.modifiers handled, congrArg Driver.currentTerminal handled⟩
  have edited := congrArg (fun d => d.line t) handled
  subst shown
  simp only [Driver.edit, Line.strikes, List.foldl_cons, List.foldl_nil,
    Keyboard.driver_currentTerminal, Function.update_self] at edited
  exact edited

theorem Filling.letter (filling : Filling t extra size s) (room : size < KEYBOARD_BUFFER_SIZE) :
    Filling t extra (size + 1) (s.step (.key keyA)) := by
  obtain ⟨mapped, flags, shown, f, line⟩ := filling
  have key : keyA ∈ probeKeys 0 := by simp [probeKeys]
  obtain ⟨struck, modifiers, current⟩ := step_key_strike shown key
  obtain ⟨notNewline, notClear, _⟩ := flags.probe
  refine ⟨Console.step_mapped (.key keyA) mapped (by decide), modifiers ▸ flags,
    current.trans shown, ?_⟩
  have inside : 0 ≤ (size : Int) ∧ (size : Int) < KEYBOARD_BUFFER_SIZE := by omega
  rw [struck, line, Line.strike_letter rfl inside (by decide) notNewline notClear]
  exact ⟨_, rfl⟩

theorem Filling.letters (filling : Filling t extra size s) (count : Nat)
    (room : size + count ≤ KEYBOARD_BUFFER_SIZE) :
    ∃ later, console.Run s (List.replicate count (.key keyA)) later ∧
      console.EachStep (fun s event => ¬ Overruns s event) s (List.replicate count (.key keyA)) ∧
      Filling t extra (size + count) later ∧ later.reader = s.reader ∧
      later.modifiers = s.modifiers ∧ later.activeTerminal = s.activeTerminal := by
  induction count generalizing s size with
  | zero => exact ⟨s, .nil s, trivial, filling, rfl, rfl, rfl⟩
  | succ count ih =>
      have key : keyA ∈ probeKeys 0 := by simp [probeKeys]
      obtain ⟨_, modifiers, _⟩ := step_key_strike filling.shown key
      obtain ⟨later, run, inside, filled, reader, modifiers', active⟩ :=
        ih (filling.letter (by omega)) (by omega)
      refine ⟨later, .cons ⟨filling.mapped.fault, trivial⟩ run, ⟨?_, inside⟩, ?_, reader,
        modifiers'.trans modifiers, ?_⟩
      · rintro ⟨_, _, full⟩
        obtain ⟨f, line⟩ := filling.line
        rw [filling.shown, line] at full
        simp only at full
        omega
      · have sum : size + (count + 1) = size + 1 + count := by omega
        rwa [sum]
      · rw [active, Console.step_key_activeTerminal]

/-- Enter on the full line. -/
theorem Filling.enter (filling : Filling t extra 128 s) :
    (∃ g, (s.step (.key keyEnter)).line t = ⟨g, 128, 0, extra + 1⟩) ∧
      (s.step (.key keyEnter)).kernel.display.Mapped ∧
      (s.step (.key keyEnter)).modifiers = s.modifiers ∧
      (s.step (.key keyEnter)).currentTerminal = t ∧ ¬ Overruns s (.key keyEnter) := by
  obtain ⟨mapped, flags, shown, f, line⟩ := filling
  have key : keyEnter ∈ probeKeys 0 := by simp [probeKeys]
  obtain ⟨struck, modifiers, current⟩ := step_key_strike shown key
  obtain ⟨_, _, enter⟩ := flags.probe
  have branch : Line.branch ⟨f, 128, 1, extra⟩ s.modifiers (s.modifiers.key keyEnter) =
      .enterFull := by
    have full : (KEYBOARD_BUFFER_SIZE : Int) ≤ 128 ∧ 1 ≠ 0 := by decide
    rw [Line.branch_enterFull_iff, enter]
    exact ⟨full.1, full.2, rfl⟩
  refine ⟨⟨Function.update f 127 NEWLINE, ?_⟩, Console.step_mapped (.key keyEnter) mapped
    (by decide), modifiers, current.trans shown, ?_⟩
  · rw [struck, line, Line.strike, if_neg (by decide), Line.type]
    exact (congrArg (fun branch => Line.apply ⟨f, 128, 1, extra⟩ branch _) branch).trans
      (Line.apply_enterFull _ _)
  · rintro ⟨_, ⟨notNewline, _⟩, _⟩
    exact notNewline enter

/-- The statements of a read leave the surplus alone. -/
theorem Reader.advance_overflow (count : Nat) (both : Line × Reader) :
    (advance count both).1.overflow = both.1.overflow := by
  induction count generalizing both with
  | zero => rfl
  | succ count ih =>
      rw [advance, ih]
      unfold Reader.step
      split <;> rfl

/-- A read with room for a full line. -/
def fullCall : ReadCall := ⟨0x08000000, 128, fun _ => 0⟩

/-- The call, 128 letters, Enter, and the statements of the call up to its return. -/
def fullLine (reads : Nat) : List Event :=
  [.call fullCall, .read] ++ (List.replicate 128 (.key keyA) ++
    ([.key keyEnter] ++ List.replicate reads .read))

/-- A full line, ended and read, is one more on the surplus, with nothing stored outside. -/
theorem Usable.reads_full_line (usable : Usable s) (ready : Ready t s) :
    ∃ reads later, console.Run s (fullLine reads) later ∧
      console.EachStep (fun s event => ¬ Overruns s event) s (fullLine reads) ∧ Ready t later ∧
      later.modifiers = s.modifiers ∧ (later.line t).overflow = (s.line t).overflow + 1 := by
  obtain ⟨waiting, run1, kernel, modifiers1, line, reader⟩ :=
    @Usable.waits s t usable ready.free ready.active fullCall (by decide) (by decide)
  have shown : waiting.currentTerminal = t := by
    rw [Keyboard.currentTerminal, kernel]
    exact ready.shown
  have active : waiting.activeTerminal = t := by
    rw [Console.activeTerminal, kernel]
    exact ready.active
  have filling : Filling t (s.line t).overflow 0 waiting :=
    ⟨kernel ▸ usable.sound.valid.toMapped, modifiers1 ▸ usable.flags, shown, _, line⟩
  obtain ⟨full, run2, inside2, filled, reader2, modifiers2, active2⟩ :=
    filling.letters 128 (by decide)
  obtain ⟨⟨g, line3⟩, mapped3, modifiers3, shown3, inside3⟩ := filled.enter
  have run3 : console.Run full [.key keyEnter] (full.step (.key keyEnter)) :=
    .cons ⟨filled.mapped.fault, trivial⟩ (.nil _)
  have active3 : (full.step (.key keyEnter)).activeTerminal = t :=
    (full.step_key_activeTerminal keyEnter).trans (active2.trans active)
  have reader3 : (full.step (.key keyEnter)).reader t =
      ⟨.spin, fullCall, fullCall.n.toNat, 0, fullCall.memory⟩ :=
    (congrFun reader2 t).trans reader
  generalize full.step (.key keyEnter) = ended at *
  have returns : Returns (ended.line t) (ended.reader t) := by
    rw [line3, reader3]
    exact Returns.of_step rfl (Returns.of_compare rfl)
  obtain ⟨count, value, running, returned⟩ := returns
  obtain ⟨later, run4, kernel4, both, each⟩ :=
    Console.reads_run active3 mapped3.fault count running
  have modifiers4 : later.modifiers = ended.modifiers := by
    refine run4.invariant_of_each (I := fun s => s.modifiers = ended.modifiers)
      (P := fun _ event => event = .read) ?_ rfl (each.mono fun _ _ read => read.1)
    rintro s event same _ rfl
    exact same
  refine ⟨count, later, run1.append (run2.append (run3.append run4)), ?_, ⟨?_, ?_, ?_, ?_⟩, ?_, ?_⟩
  · rw [fullLine, run1.eachStep_append, run2.eachStep_append, run3.eachStep_append]
    refine ⟨⟨id, id, trivial⟩, inside2, ⟨inside3, trivial⟩, each.mono ?_⟩
    rintro between event ⟨rfl, _⟩
    exact id
  · rw [kernel4]
    exact mapped3.fault
  · rw [Console.activeTerminal, kernel4]
    exact active3
  · rw [Keyboard.currentTerminal, kernel4]
    exact shown3
  · have reader4 : later.reader t = _ := congrArg Prod.snd both
    rw [reader4, Reader.running, returned]
  · exact modifiers4.trans (modifiers3.trans (modifiers2.trans modifiers1))
  · have line4 : later.line t = _ := congrArg Prod.fst both
    rw [line4, Reader.advance_overflow, line3]

end Full

/-- The timer does not fault, and goes on to the next terminal. -/
theorem Usable.scheduled {s : Console} (usable : Usable s) (interrupted : Context) :
    console.Run s [.schedule interrupted] (s.step (.schedule interrupted)) ∧
      Usable (s.step (.schedule interrupted)) ∧
      (s.step (.schedule interrupted)).activeTerminal = nextTerminal s.activeTerminal ∧
      (s.step (.schedule interrupted)).currentTerminal = s.currentTerminal := by
  have able : s.able (.schedule interrupted) := ⟨usable.sound.valid.fault, trivial⟩
  have outcome : Outcome none s.kernel (.schedule interrupted) (s.kernel.schedule interrupted) :=
    State.schedule_outcome usable.sound interrupted
  have sound : Sound (s.kernel.schedule interrupted) :=
    (outcome.sound usable.sound).resolve_left fun faults => faults.1
  obtain ⟨active, shown⟩ := s.kernel.schedule_shows interrupted
  exact ⟨.cons able (.nil _), ⟨sound, usable.flags, usable.settled⟩, active, shown⟩

/-- The shells of terminals 2, 3 and 1 are entered. -/
def firstTurns (interrupted : Context) : List Event :=
  [.schedule interrupted, .schedule interrupted, .schedule interrupted]

/-- The timer goes round to terminal 1, whose shell is on display. -/
theorem shells_ready {s : Console} {bootBlock : Option Filesystem.Image} (on : PowerOn s.kernel)
    (loaded : Loaded s) (buffers : TerminalId → List UInt8) (interrupted : Context) :
    ∃ shells, console.Run (s.entry bootBlock buffers) (firstTurns interrupted) shells ∧
      Usable shells ∧ Ready .terminal1 shells := by
  have usable : Usable (s.entry bootBlock buffers) := entry_usable on loaded buffers
  have idle : ((s.entry bootBlock buffers).reader .terminal1).pc = .idle := loaded.reader _
  have active : (s.entry bootBlock buffers).activeTerminal = .terminal1 :=
    (on.entry_fresh bootBlock buffers).1.activeTerminal
  have shown : (s.entry bootBlock buffers).currentTerminal = .terminal1 :=
    (State.entry_currentTerminal buffers s.kernel).trans on.currentTerminal
  generalize s.entry bootBlock buffers = start at usable idle active shown ⊢
  obtain ⟨run1, usable1, active1, shown1⟩ := usable.scheduled interrupted
  obtain ⟨run2, usable2, active2, shown2⟩ := usable1.scheduled interrupted
  obtain ⟨run3, usable3, active3, shown3⟩ := usable2.scheduled interrupted
  refine ⟨_, run1.append (run2.append run3), usable3, usable3.sound.valid.fault, ?_, ?_, ?_⟩
  · rw [active3, active2, active1, active]
    rfl
  · rw [shown3, shown2, shown1, shown]
  · have same : (((start.step (.schedule interrupted)).step (.schedule interrupted)).step
        (.schedule interrupted)).reader = start.reader := rfl
    rw [same, Reader.running, idle]

theorem firstTurns_surplus (s : Console) (interrupted : Context) (t : TerminalId) :
    console.record (surplus t) s (firstTurns interrupted) 0 = 0 := rfl

/-- A letter, Backspace and Enter for a read of two bytes: without a line before it the read
    returns an empty line, and after a line of 128 characters the letter. -/
theorem full_line_history {s : Console} {bootBlock : Option Filesystem.Image}
    (on : PowerOn s.kernel) (loaded : Loaded s) (buffers : TerminalId → List UInt8)
    (interrupted : Context) :
    ∃ reads first second first' second',
      console.Run (s.entry bootBlock buffers) (firstTurns interrupted) first ∧
      console.Run (s.entry bootBlock buffers) (firstTurns interrupted ++ fullLine reads) second ∧
      console.EachStep (fun s event => ¬ Overruns s event) (s.entry bootBlock buffers)
        (firstTurns interrupted ++ fullLine reads) ∧
      (Ready .terminal1 first ∧ Ready .terminal1 second ∧ first.modifiers = second.modifiers) ∧
      (console.Run first (.call probeCall :: probe 0) first' ∧
        (first'.reader .terminal1).pc = .returned 1) ∧
      console.Run second (.call probeCall :: probe 0) second' ∧
        (second'.reader .terminal1).pc = .returned 2 := by
  obtain ⟨shells, run, usable, ready⟩ := @shells_ready s bootBlock on loaded buffers interrupted
  obtain ⟨reads, later, rest, inside, ready', modifiers, overflow⟩ := usable.reads_full_line ready
  have both := run.append rest
  have usable' : Usable later := usable_of_run on loaded both ready'.running
  have none : (shells.line .terminal1).overflow = 0 :=
    (surplus_of_run run .terminal1).symm.trans (firstTurns_surplus _ interrupted .terminal1)
  have more : 0 < (later.line .terminal1).overflow := by
    rw [overflow]
    exact Nat.succ_pos _
  obtain ⟨empty, played, spent, _⟩ :=
    usable.probe_returns ready.free ready.active ready.shown (.inl none)
  obtain ⟨letter, played', _, left⟩ :=
    usable'.probe_returns ready'.free ready'.active ready'.shown (.inr more)
  refine ⟨reads, shells, later, empty, letter, run, both, ?_, ⟨ready, ready', modifiers.symm⟩,
    ⟨played, spent none⟩, played', left more⟩
  rw [run.eachStep_append]
  exact ⟨⟨id, id, id, trivial⟩, inside⟩

/-- Switched on, with nothing typed. -/
def startedConsole : Console := { poweredConsole with kernel := poweredOn }

theorem startedConsole_loaded : Loaded startedConsole := ⟨rfl, fun _ => rfl⟩

theorem full_line_is_remembered :
    let entered := startedConsole.entry (some shellImage) (fun _ => [])
    let turns := firstTurns ⟨0x7FFFF0, 0x7FFFF8⟩
    ∃ reads first second first' second',
      console.Run entered turns first ∧ console.Run entered (turns ++ fullLine reads) second ∧
      console.EachStep (fun s event => ¬ Overruns s event) entered (turns ++ fullLine reads) ∧
      (Ready .terminal1 first ∧ Ready .terminal1 second ∧ first.modifiers = second.modifiers) ∧
      (console.Run first (.call probeCall :: probe 0) first' ∧
        (first'.reader .terminal1).pc = .returned 1) ∧
      (console.Run second (.call probeCall :: probe 0) second' ∧
        (second'.reader .terminal1).pc = .returned 2) ∧
      ¬ SameLines .terminal1 first second := by
  intro entered turns
  obtain ⟨reads, first, second, first', second', run, run', inside, ready, ⟨played, returned⟩,
    played', returned'⟩ := @full_line_history startedConsole (some shellImage) poweredOn_powerOn
      startedConsole_loaded (fun _ => []) ⟨0x7FFFF0, 0x7FFFF8⟩
  refine ⟨reads, first, second, first', second', run, run', inside, ready, ⟨played, returned⟩,
    ⟨played', returned'⟩, ?_⟩
  intro same
  obtain ⟨equal, _⟩ := same _ _ _ _ 1 (probe_notCall 0) played played' returned
  rw [returned'] at equal
  cases equal

theorem full_line_histories_compared :
    let entered := startedConsole.entry (some shellImage) (fun _ => [])
    let turns := firstTurns ⟨0x7FFFF0, 0x7FFFF8⟩
    ∃ reads first second,
      console.Run entered turns first ∧ console.Run entered (turns ++ fullLine reads) second ∧
      (SameLines .terminal1 first second ↔
        console.record (surplus .terminal1) entered turns 0 =
          console.record (surplus .terminal1) entered (turns ++ fullLine reads) 0) := by
  intro entered turns
  obtain ⟨reads, first, second, _, _, run, run', _, ⟨ready, ready', modifiers⟩, _⟩ :=
    @full_line_history startedConsole (some shellImage) poweredOn_powerOn startedConsole_loaded
      (fun _ => []) ⟨0x7FFFF0, 0x7FFFF8⟩
  exact ⟨reads, first, second, run, run',
    lines_same_iff poweredOn_powerOn startedConsole_loaded run run' ready ready' modifiers⟩

end LightOS.Terminal
