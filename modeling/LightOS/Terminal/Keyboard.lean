import LightOS.Kernel.Shows

/-! # The keyboard driver

keyboard.c: the scancode table, the flags of the modifier keys and the handler of the
keyboard interrupt.  What is typed goes into the line of the terminal on display, which is
the part of `terminal_t` from `key_buf` to `overflow`; the size of the line stands directly
behind its 128 characters.
-/

namespace LightOS.Terminal

open Lib Kernel

def KEYBOARD_KEY_NUMBER : UInt8 := 58
def KEYBOARD_BUFFER_SIZE : Nat := 128

def LALT_PRESSED : UInt8 := 0x38
def LALT_RELEASED : UInt8 := 0xB8
def LCTRL_PRESSED : UInt8 := 0x1D
def LCTRL_RELEASED : UInt8 := 0x9D
def LSHIFT_PRESSED : UInt8 := 0x2A
def LSHIFT_RELEASED : UInt8 := 0xAA
def RSHIFT_PRESSED : UInt8 := 0x36
def RSHIFT_RELEASED : UInt8 := 0xB6
def CAPS : UInt8 := 0x3A
def BACKSPACE : UInt8 := 0x0E
def F1 : UInt8 := 0x3B
def F2 : UInt8 := 0x3C
def F3 : UInt8 := 0x3D

/-- The table `scancode`: a row without and a row with Shift. -/
def scancode : List (List Char) :=
  [['\x00', '\x00', '1', '2', '3', '4', '5', '6', '7', '8', '9', '0', '-', '=', '\x00', '\x00',
    'q', 'w', 'e', 'r', 't', 'y', 'u', 'i', 'o', 'p', '[', ']', '\n', '\x00', 'a', 's',
    'd', 'f', 'g', 'h', 'j', 'k', 'l', ';', '\x27', '\x60', '\x00', '\x5c', 'z', 'x', 'c', 'v',
    'b', 'n', 'm', ',', '.', '/', '\x00', '\x00', '\x00', ' '],
   ['\x00', '\x00', '!', '@', '#', '$', '%', '^', '&', '*', '(', ')', '_', '+', '\x00', '\x00',
    'Q', 'W', 'E', 'R', 'T', 'Y', 'U', 'I', 'O', 'P', '\x7b', '\x7d', '\n', '\x00', 'A', 'S',
    'D', 'F', 'G', 'H', 'J', 'K', 'L', ':', '\x22', '~', '\x00', '|', 'Z', 'X', 'C', 'V',
    'B', 'N', 'M', '<', '>', '?', '\x00', '\x00', '\x00', ' ']]

/-- `scancode[mode][input]` -/
def keyAt (mode : Nat) (input : UInt8) : UInt8 :=
  UInt8.ofNat ((scancode.getD mode []).getD input.toNat '\x00').toNat

/-- The flags `alt_pressed`, `ctrl_pressed`, `shift_pressed` and `caps_lock`. -/
structure Modifiers where
  altPressed : Nat
  ctrlPressed : Nat
  shiftPressed : Nat
  capsLock : Nat
  deriving DecidableEq

/-- What a modifier key does to the flags; `none` is any other key. -/
def Modifiers.press (m : Modifiers) (input : UInt8) : Option Modifiers :=
  if input = LALT_PRESSED then some { m with altPressed := 1 }
  else if input = LALT_RELEASED then some { m with altPressed := 0 }
  else if input = LCTRL_PRESSED then some { m with ctrlPressed := 1 }
  else if input = LCTRL_RELEASED then some { m with ctrlPressed := 0 }
  else if input = LSHIFT_PRESSED then some { m with shiftPressed := 1 }
  else if input = LSHIFT_RELEASED then some { m with shiftPressed := 0 }
  else if input = RSHIFT_PRESSED then some { m with shiftPressed := 1 }
  else if input = RSHIFT_RELEASED then some { m with shiftPressed := 0 }
  else if input = CAPS then some { m with capsLock := m.capsLock ||| 1 }
  else none

/-- The byte of the table that the flags select. -/
def Modifiers.key (m : Modifiers) (input : UInt8) : UInt8 :=
  keyAt (m.shiftPressed ||| m.capsLock) input

/-- `key_buf`, `keyboard_buffer_size`, `keyboard_buffer_enable` and `overflow` of a
    `terminal_t`.  `overflow` is an `int` that is never negative; it is taken not to pass
    2^31 - 1. -/
structure Line where
  keyBuf : Nat → UInt8
  keyboardBufferSize : Int
  keyboardBufferEnable : Nat
  overflow : Nat

/-- The branch of `keyboard_handler` that an ordinary key takes. -/
inductive KeyBranch
  | clear
  | enterFull
  | enter
  | append
  | dropped
  deriving DecidableEq

namespace Line

def branch (line : Line) (m : Modifiers) (key : UInt8) : KeyBranch :=
  if (key = 0x6C ∨ key = 0x4C) ∧ m.ctrlPressed ≠ 0 then .clear
  else if (KEYBOARD_BUFFER_SIZE : Int) ≤ line.keyboardBufferSize ∧
      line.keyboardBufferEnable ≠ 0 ∧ key = NEWLINE then .enterFull
  else if key = NEWLINE ∧ line.keyboardBufferEnable ≠ 0 then .enter
  else if line.keyboardBufferEnable ≠ 0 then .append
  else .dropped

/-- The index of the store into `key_buf`. -/
def storeIndex (line : Line) : KeyBranch → Option Int
  | .enterFull => some (KEYBOARD_BUFFER_SIZE - 1)
  | .enter | .append => some line.keyboardBufferSize
  | .clear | .dropped => none

/-- `key_buf[index] = byte`.  Index 128 is the low byte of `keyboard_buffer_size`; no store
    goes to another index outside the array. -/
def storeKey (line : Line) (index : Int) (byte : UInt8) : Line :=
  if 0 ≤ index ∧ index < KEYBOARD_BUFFER_SIZE then
    { line with keyBuf := Function.update line.keyBuf index.toNat byte }
  else if index = KEYBOARD_BUFFER_SIZE then
    { line with
      keyboardBufferSize :=
        line.keyboardBufferSize - line.keyboardBufferSize % 2 ^ 8 + byte.toNat }
  else line

/-- The statements of a branch on the line. -/
def apply (line : Line) (branch : KeyBranch) (key : UInt8) : Line :=
  let stored :=
    match line.storeIndex branch with
    | some index => line.storeKey index (if branch = .append then key else NEWLINE)
    | none => line
  match branch with
  | .clear => { stored with keyboardBufferSize := 0 }
  | .enterFull => { stored with keyboardBufferEnable := 0, overflow := stored.overflow + 1 }
  | .enter =>
      { stored with
        keyboardBufferSize := stored.keyboardBufferSize + 1
        keyboardBufferEnable := 0 }
  | .append => { stored with keyboardBufferSize := stored.keyboardBufferSize + 1 }
  | .dropped => stored

section Apply

variable {line : Line}

theorem storeKey_inside {index : Int} (inside : 0 ≤ index ∧ index < KEYBOARD_BUFFER_SIZE)
    (byte : UInt8) : line.storeKey index byte =
      { line with keyBuf := Function.update line.keyBuf index.toNat byte } := by
  simp only [storeKey, if_pos inside]

theorem apply_append (inside : 0 ≤ line.keyboardBufferSize ∧
    line.keyboardBufferSize < KEYBOARD_BUFFER_SIZE) (key : UInt8) :
    line.apply .append key =
      { line with
        keyBuf := Function.update line.keyBuf line.keyboardBufferSize.toNat key
        keyboardBufferSize := line.keyboardBufferSize + 1 } := by
  simp only [apply, storeIndex, storeKey_inside inside, if_true]

theorem apply_enter (inside : 0 ≤ line.keyboardBufferSize ∧
    line.keyboardBufferSize < KEYBOARD_BUFFER_SIZE) (key : UInt8) :
    line.apply .enter key =
      { line with
        keyBuf := Function.update line.keyBuf line.keyboardBufferSize.toNat NEWLINE
        keyboardBufferSize := line.keyboardBufferSize + 1
        keyboardBufferEnable := 0 } := by
  simp only [apply, storeIndex, storeKey_inside inside, reduceCtorEq, if_false]

end Apply

end Line

/-- The keyboard driver and the kernel it is part of. -/
structure Keyboard where
  kernel : State
  modifiers : Modifiers
  line : TerminalId → Line

namespace Keyboard

/-- `current_terminal` -/
def currentTerminal (s : Keyboard) : TerminalId := s.kernel.display.currentTerminal

def onDisplay (s : Keyboard) (change : Display → Display) : Keyboard :=
  { s with kernel := { s.kernel with display := change s.kernel.display } }

def setLine (s : Keyboard) (t : TerminalId) (line : Line) : Keyboard :=
  { s with line := Function.update s.line t line }

/-- `keyboard_init` -/
def keyboardInit (s : Keyboard) : Keyboard :=
  { s with
    kernel := s.kernel.keyboardInit
    line := fun t =>
      { s.line t with keyboardBufferSize := 0, keyboardBufferEnable := 0, overflow := 0 } }

/-- The branch for the Backspace key. -/
def backspace (s : Keyboard) : Keyboard :=
  let t := s.currentTerminal
  let line := s.line t
  if 0 < line.overflow then s.setLine t { line with overflow := line.overflow - 1 }
  else if 0 < line.keyboardBufferSize then
    (s.setLine t { line with keyboardBufferSize := line.keyboardBufferSize - 1 }).onDisplay
      Display.currentTerminalBackPutc
  else s

/-- The echo of a key, and the clearing of the screen that may follow it. -/
def echo (s : Keyboard) (key : UInt8) (clears : Bool) : Keyboard :=
  let s := s.onDisplay (fun display => display.currentTerminalPutc key)
  if clears then s.onDisplay Display.currentTerminalClear else s

/-- The branch for the keys of the table. -/
def typeKey (input : UInt8) (s : Keyboard) : Keyboard :=
  let t := s.currentTerminal
  let key := s.modifiers.key input
  let branch := (s.line t).branch s.modifiers key
  (s.echo key (branch = .clear)).setLine t ((s.line t).apply branch key)

/-- `keyboard_handler`, for the byte `input` read from the keyboard. -/
def keyboardHandler (input : UInt8) (s : Keyboard) : Keyboard :=
  match s.modifiers.press input with
  | some modifiers => { s with modifiers }
  | none =>
      if input = BACKSPACE then s.backspace
      else if input < KEYBOARD_KEY_NUMBER then s.typeKey input
      else if input = F1 ∧ s.modifiers.altPressed ≠ 0 then
        { s with kernel := s.kernel.switchToTerminal1 }
      else if input = F2 ∧ s.modifiers.altPressed ≠ 0 then
        { s with kernel := s.kernel.switchToTerminal2 }
      else if input = F3 ∧ s.modifiers.altPressed ≠ 0 then
        { s with kernel := s.kernel.switchToTerminal3 }
      else s

end Keyboard

/-! ## The driver by itself

The variables of the driver take the same course whatever the console shows.
-/

/-- The Backspace key on a line. -/
def Line.eraseLast (line : Line) : Line :=
  if 0 < line.overflow then { line with overflow := line.overflow - 1 }
  else if 0 < line.keyboardBufferSize then
    { line with keyboardBufferSize := line.keyboardBufferSize - 1 }
  else line

/-- A key of the table on a line. -/
def Line.type (line : Line) (m : Modifiers) (input : UInt8) : Line :=
  line.apply (line.branch m (m.key input)) (m.key input)

/-- The terminal that a key puts on display. -/
def Modifiers.shows (m : Modifiers) (input : UInt8) : Option TerminalId :=
  if m.altPressed = 0 then none
  else if input = F1 then some .terminal1
  else if input = F2 then some .terminal2
  else if input = F3 then some .terminal3
  else none

/-- The flags, the terminal on display and the lines. -/
structure Driver where
  modifiers : Modifiers
  currentTerminal : TerminalId
  line : TerminalId → Line

namespace Driver

/-- A change of the line of the terminal on display. -/
def edit (d : Driver) (change : Line → Line) : Driver :=
  { d with
    line := Function.update d.line d.currentTerminal (change (d.line d.currentTerminal)) }

/-- The effect of one interrupt. -/
def handle (d : Driver) (input : UInt8) : Driver :=
  match d.modifiers.press input with
  | some modifiers => { d with modifiers }
  | none =>
      if input = BACKSPACE then d.edit Line.eraseLast
      else if input < KEYBOARD_KEY_NUMBER then d.edit (fun line => line.type d.modifiers input)
      else { d with currentTerminal := (d.modifiers.shows input).getD d.currentTerminal }

end Driver

namespace Keyboard

def driver (s : Keyboard) : Driver := ⟨s.modifiers, s.currentTerminal, s.line⟩

section Handler

variable (s : Keyboard) (input : UInt8)

@[simp] theorem driver_line : s.driver.line = s.line := rfl

@[simp] theorem driver_modifiers : s.driver.modifiers = s.modifiers := rfl

@[simp] theorem driver_currentTerminal : s.driver.currentTerminal = s.currentTerminal := rfl

theorem onDisplay_driver (change : Display → Display)
    (keeps : ∀ display, (change display).currentTerminal = display.currentTerminal) :
    (s.onDisplay change).driver = s.driver := by
  simp only [driver, onDisplay, currentTerminal, keeps]

theorem echo_driver (key : UInt8) (clears : Bool) : (s.echo key clears).driver = s.driver := by
  have once := s.onDisplay_driver (fun display => display.currentTerminalPutc key)
    (fun display => Display.putcOn_currentTerminal display _ _ key)
  unfold echo
  split
  · exact (onDisplay_driver _ _ fun display =>
      Display.clearOn_currentTerminal display _ _).trans once
  · exact once

/-- A line is stored, and the rest of the driver stays. -/
theorem setLine_driver (t : TerminalId) (line : Line) :
    (s.setLine t line).driver =
      { s.driver with line := Function.update s.driver.line t line } := rfl

theorem backspace_driver : s.backspace.driver = s.driver.edit Line.eraseLast := by
  have stored {line : Line} (erased : (s.line s.currentTerminal).eraseLast = line) :
      (s.setLine s.currentTerminal line).driver = s.driver.edit Line.eraseLast := by
    subst erased
    rfl
  simp only [backspace]
  split_ifs with overflows filled
  · apply stored
    simp only [Line.eraseLast, if_pos overflows]
  · rw [onDisplay_driver _ _ Display.currentTerminalBackPutc_currentTerminal]
    apply stored
    simp only [Line.eraseLast, if_neg overflows, if_pos filled]
  · have same : (s.line s.currentTerminal).eraseLast = s.line s.currentTerminal := by
      simp only [Line.eraseLast, if_neg overflows, if_neg filled]
    simp only [Driver.edit, driver_line, driver_currentTerminal, same, Function.update_eq_self]
    rfl

theorem typeKey_driver : (s.typeKey input).driver =
    s.driver.edit (fun line => line.type s.modifiers input) := by
  simp only [typeKey]
  rw [setLine_driver, echo_driver]
  rfl

theorem show_driver {t : TerminalId} (shows : s.modifiers.shows input = some t) :
    ({ s with kernel := s.kernel.switchToTerminal t } : Keyboard).driver =
      { s.driver with
        currentTerminal := (s.modifiers.shows input).getD s.driver.currentTerminal } := by
  simp only [driver, currentTerminal, (s.kernel.switchToTerminal_shows t).2, shows,
    Option.getD_some]

theorem keyboardHandler_driver : (s.keyboardHandler input).driver = s.driver.handle input := by
  unfold keyboardHandler Driver.handle
  cases press : s.modifiers.press input with
  | some modifiers => simp only [driver, press, currentTerminal]
  | none =>
      simp only [driver, press]
      split_ifs with isBackspace inTable first second third
      · exact s.backspace_driver
      · exact s.typeKey_driver input
      · exact s.show_driver input (t := .terminal1) (by simp only [Modifiers.shows]; simp [first])
      · exact s.show_driver input (t := .terminal2) (by
          simp only [Modifiers.shows]
          simp [second, F1, F2])
      · exact s.show_driver input (t := .terminal3) (by
          simp only [Modifiers.shows]
          simp [third, F1, F2, F3])
      · have none : s.modifiers.shows input = none := by
          unfold Modifiers.shows
          split_ifs <;> simp_all
        rw [none]
        rfl

/-- The globals of the scheduler are none of the driver's. -/
theorem keyboardHandler_proc : (s.keyboardHandler input).kernel.proc = s.kernel.proc := by
  have drawn (s : Keyboard) (change : Display → Display) :
      (s.onDisplay change).kernel.proc = s.kernel.proc := rfl
  have echoes (key : UInt8) (clears : Bool) : (s.echo key clears).kernel.proc = s.kernel.proc := by
    unfold echo
    split
    · exact (drawn _ _).trans (drawn _ _)
    · exact drawn _ _
  unfold keyboardHandler
  split
  · rfl
  · split_ifs
    · simp only [backspace]
      split_ifs
      · rfl
      · exact drawn _ _
      · rfl
    · exact echoes _ _
    · exact (State.switchToTerminal_shows _ .terminal1).1
    · exact (State.switchToTerminal_shows _ .terminal2).1
    · exact (State.switchToTerminal_shows _ .terminal3).1
    · rfl

theorem onDisplay_mapped {page : Nat} (change : Display → Display)
    (mapped : s.kernel.display.Mapped)
    (output : OutputOn page s.currentTerminal s.kernel.display (change s.kernel.display)) :
    (s.onDisplay change).kernel.display.Mapped := mapped.of_output output

theorem echo_mapped (mapped : s.kernel.display.Mapped) (key : UInt8) (clears : Bool) :
    (s.echo key clears).kernel.display.Mapped := by
  have once := s.onDisplay_mapped (fun display => display.currentTerminalPutc key) mapped
    (Display.putcOn_output mapped.directWindow (mapped.inside _) key)
  unfold echo
  split
  · exact onDisplay_mapped _ _ once (Display.clearOn_output once.directWindow)
  · exact once

/-- The console can be written to after a key as before, so that the handler does not fault. -/
theorem keyboardHandler_mapped (mapped : s.kernel.display.Mapped)
    (shows : input ≠ F1 ∧ input ≠ F2 ∧ input ≠ F3) :
    (s.keyboardHandler input).kernel.display.Mapped := by
  obtain ⟨first, second, third⟩ := shows
  unfold keyboardHandler
  split
  · exact mapped
  · split_ifs with isBackspace inTable isFirst isSecond isThird
    · simp only [backspace]
      split_ifs
      · exact mapped
      · exact onDisplay_mapped _ _ mapped
          (Display.back_output mapped.directWindow (mapped.inside _))
      · exact mapped
    · exact s.echo_mapped mapped _ _
    · exact absurd isFirst.1 first
    · exact absurd isSecond.1 second
    · exact absurd isThird.1 third
    · exact mapped

end Handler

end Keyboard

end LightOS.Terminal
