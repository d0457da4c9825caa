import LightOS.Kernel.Boot
import LightOS.Lib.ByteMemory
import LightOS.Terminal.Keyboard

/-! # Reading a line

`terminal_read`, one statement a step, so that the keyboard and the scheduler can come
between any two of them.  Each terminal has at most one call under way, made by the process
that runs in it; that process goes on while its terminal is the active one.
-/

namespace LightOS.Terminal

open Lib Kernel

/-- The next statement of a call of `terminal_read`. -/
inductive ReadPc
  /-- No call yet. -/
  | idle
  /-- `keyboard_buffer_enable = 1` -/
  | enable
  /-- `while (keyboard_buffer_enable == 1)` -/
  | spin
  /-- `if (n > keyboard_buffer_size)` -/
  | compare
  /-- `n = keyboard_buffer_size` -/
  | clamp
  /-- One round of the copying loop. -/
  | copy
  /-- The statements after a newline has been copied. -/
  | found
  /-- `buf[n - 1] = '\n'` -/
  | terminate
  /-- The statements after that. -/
  | reset
  | returned (value : Int)
  deriving DecidableEq

/-- The arguments of a call, and the memory of the process that makes it. -/
structure ReadCall where
  buf : UInt32
  n : UInt32
  memory : UInt32 → UInt8

/-- A call, its local variables `n` and `index`, and the caller's memory by now. -/
structure Reader where
  pc : ReadPc
  call : ReadCall
  n : Nat
  index : Nat
  memory : UInt32 → UInt8

namespace Reader

/-- Whether a call is under way. -/
def running (r : Reader) : Bool :=
  match r.pc with
  | .idle | .returned _ => false
  | _ => true

/-- The first two statements of `terminal_read`. -/
def enter (call : ReadCall) : Reader where
  pc := if call.buf = 0 then .returned (-1) else if call.n = 0 then .returned 0 else .enable
  call := call
  n := call.n.toNat
  index := 0
  memory := call.memory

/-- `buf[i] = byte` -/
def store (r : Reader) (i : UInt32) (byte : UInt8) : Reader :=
  { r with memory := Function.update r.memory (r.call.buf + i) byte }

/-- The next statement of `terminal_read`, on the line of the active terminal. -/
def step (line : Line) (r : Reader) : Line × Reader :=
  match r.pc with
  | .idle | .returned _ => (line, r)
  | .enable => ({ line with keyboardBufferEnable := 1 }, { r with pc := .spin })
  | .spin => (line, if line.keyboardBufferEnable = 1 then r else { r with pc := .compare })
  | .compare =>
      (line,
        if toUint32 line.keyboardBufferSize < r.n then { r with pc := .clamp }
        else { r with pc := .copy, index := 0 })
  | .clamp => (line, { r with pc := .copy, index := 0, n := toUint32 line.keyboardBufferSize })
  | .copy =>
      (line,
        if r.index < r.n then
          let stored := r.store (.ofNat r.index) (line.keyBuf r.index)
          if line.keyBuf r.index = NEWLINE then { stored with pc := .found }
          else { stored with pc := .copy, index := r.index + 1 }
        else { r with pc := .terminate })
  | .found => ({ line with keyboardBufferSize := 0 }, { r with pc := .returned (r.index + 1) })
  | .terminate => (line, { r.store (.ofNat r.n - 1) NEWLINE with pc := .reset })
  | .reset => ({ line with keyboardBufferSize := 0 }, { r with pc := .returned (toInt32 r.n) })

/-- Several statements without an interruption. -/
def advance : Nat → Line × Reader → Line × Reader
  | 0, both => both
  | count + 1, both => advance count (both.2.step both.1)

end Reader

/-- The keyboard driver, and a call of `terminal_read` for each terminal. -/
structure Console extends Keyboard where
  reader : TerminalId → Reader

/-- What can happen: a keyboard interrupt, the timer, a call by the process that runs, and
    its next statement. -/
inductive Event
  | key (input : UInt8)
  | schedule (interrupted : Context)
  | call (call : ReadCall)
  | read

namespace Console

def activeTerminal (s : Console) : TerminalId := s.kernel.proc.activeTerminal

/-- `keyboard_init` -/
def keyboardInit (s : Console) : Console := { s with toKeyboard := s.toKeyboard.keyboardInit }

def step (s : Console) : Event → Console
  | .key input => { s with toKeyboard := s.keyboardHandler input }
  | .schedule interrupted => { s with kernel := s.kernel.schedule interrupted }
  | .call call =>
      { s with reader := Function.update s.reader s.activeTerminal (Reader.enter call) }
  | .read =>
      let t := s.activeTerminal
      let next := (s.reader t).step (s.line t)
      { s with
        line := Function.update s.line t next.1
        reader := Function.update s.reader t next.2 }

/-- A process makes one call after the other; the model ends at a fault. -/
def able (s : Console) (event : Event) : Prop :=
  s.kernel.faulted = false ∧
    match event with
    | .key _ | .schedule _ => True
    | .call _ => (s.reader s.activeTerminal).running = false
    | .read => (s.reader s.activeTerminal).running = true

end Console

def console : Machine Console Event where
  enabled := Console.able
  next := Console.step

/-- The flags are clear, as the loader leaves them, and nobody has called `terminal_read`. -/
structure Loaded (s : Console) : Prop where
  modifiers : s.modifiers = ⟨0, 0, 0, 0⟩
  reader : ∀ t, (s.reader t).pc = .idle

/-- Nothing on the display, nothing in the lines. -/
def poweredConsole : Console where
  kernel := poweredOn.pageInitialize
  modifiers := ⟨0, 0, 0, 0⟩
  line := fun _ => ⟨fun _ => 0, 0, 0, 0⟩
  reader := fun _ => ⟨.idle, ⟨0, 0, fun _ => 0⟩, 0, 0, fun _ => 0⟩

theorem poweredConsole_loaded : Loaded poweredConsole := ⟨rfl, fun _ => rfl⟩

theorem poweredConsole_mapped : poweredConsole.keyboardInit.kernel.display.Mapped :=
  poweredOn_powerOn.fresh.valid.toMapped

/-! ## One terminal by itself -/

/-- What a step may do to the line of a terminal and to its reader. -/
inductive Touched (s : Console) (event : Event) (t : TerminalId) : Line → Reader → Prop
  | same : Touched s event t (s.line t) (s.reader t)
  | erase : event = .key BACKSPACE → s.currentTerminal = t →
      Touched s event t (s.line t).eraseLast (s.reader t)
  | type {input} : event = .key input → s.modifiers.press input = none → input ≠ BACKSPACE →
      input < KEYBOARD_KEY_NUMBER → s.currentTerminal = t →
      Touched s event t ((s.line t).type s.modifiers input) (s.reader t)
  | call {call} : event = .call call → s.activeTerminal = t → (s.reader t).running = false →
      Touched s event t (s.line t) (Reader.enter call)
  | read : event = .read → s.activeTerminal = t → (s.reader t).running = true →
      Touched s event t ((s.reader t).step (s.line t)).1 ((s.reader t).step (s.line t)).2

namespace Console

variable {s : Console} {event : Event}

theorem touched (able : s.able event) (t : TerminalId) :
    Touched s event t ((s.step event).line t) ((s.step event).reader t) := by
  obtain ⟨_, able⟩ := able
  cases event with
  | key input =>
      have handled := s.keyboardHandler_driver input
      have line : (s.step (.key input)).line t = (s.driver.handle input).line t :=
        congrArg (fun driver => driver.line t) handled
      rw [line]
      unfold Driver.handle
      split
      · exact .same
      · next press =>
          split_ifs with isBackspace inTable
          · by_cases shown : s.currentTerminal = t
            · subst shown
              simp only [Driver.edit, Keyboard.driver, Function.update_self]
              exact .erase (by rw [isBackspace]) rfl
            · simp only [Driver.edit, Keyboard.driver, Function.update_of_ne (Ne.symm shown)]
              exact .same
          · by_cases shown : s.currentTerminal = t
            · subst shown
              simp only [Driver.edit, Keyboard.driver, Function.update_self]
              exact .type rfl press isBackspace inTable rfl
            · simp only [Driver.edit, Keyboard.driver, Function.update_of_ne (Ne.symm shown)]
              exact .same
          · exact .same
  | schedule interrupted => exact .same
  | call call =>
      by_cases active : s.activeTerminal = t
      · subst active
        simp only [step, Function.update_self]
        exact .call rfl rfl able
      · simp only [step, Function.update_of_ne (Ne.symm active)]
        exact .same
  | read =>
      by_cases active : s.activeTerminal = t
      · subst active
        simp only [step, Function.update_self]
        exact .read rfl rfl able
      · simp only [step, Function.update_of_ne (Ne.symm active)]
        exact .same

theorem step_key_driver (s : Console) (input : UInt8) :
    (s.step (.key input)).driver = s.driver.handle input := s.keyboardHandler_driver input

theorem step_key_activeTerminal (s : Console) (input : UInt8) :
    (s.step (.key input)).activeTerminal = s.activeTerminal :=
  congrArg Proc.activeTerminal (s.keyboardHandler_proc input)

/-- Keys that do not switch terminals, calls and reads leave the console usable. -/
theorem step_mapped (event : Event) (mapped : s.kernel.display.Mapped)
    (stays : match event with
      | .key input => input ≠ F1 ∧ input ≠ F2 ∧ input ≠ F3
      | .schedule _ => False
      | _ => True) :
    (s.step event).kernel.display.Mapped := by
  cases event with
  | key input => exact s.keyboardHandler_mapped input mapped stays
  | schedule interrupted => exact absurd stays id
  | call call | read => exact mapped

/-- A call that nothing interrupts. -/
theorem reads_run {t : TerminalId} (active : s.activeTerminal = t)
    (noFault : s.kernel.faulted = false) (count : Nat)
    (running : ∀ j < count, (Reader.advance j (s.line t, s.reader t)).2.running = true) :
    ∃ later, console.Run s (List.replicate count .read) later ∧ later.kernel = s.kernel ∧
      (later.line t, later.reader t) = Reader.advance count (s.line t, s.reader t) ∧
      console.EachStep (fun between event => event = .read ∧ between.activeTerminal = t ∧
        ∃ j < count, (between.line t, between.reader t) =
          Reader.advance j (s.line t, s.reader t)) s (List.replicate count .read) := by
  induction count generalizing s with
  | zero => exact ⟨s, .nil s, rfl, rfl, trivial⟩
  | succ count ih =>
      have first := running 0 (by omega)
      have both : ((s.step .read).line t, (s.step .read).reader t) =
          (s.reader t).step (s.line t) := by
        subst active
        simp only [step, Function.update_self]
      obtain ⟨later, run, kernel, ended, each⟩ := ih (s := s.step .read) active noFault (by
        intro j before
        rw [both]
        exact running (j + 1) (by omega))
      rw [both] at ended each
      refine ⟨later, .cons ⟨noFault, by rw [active]; exact first⟩ run, kernel, ended,
        ⟨rfl, active, 0, by omega, rfl⟩, each.mono ?_⟩
      rintro between event ⟨isRead, stillActive, j, before, reached⟩
      exact ⟨isRead, stillActive, j + 1, by omega, reached⟩

end Console

end LightOS.Terminal
