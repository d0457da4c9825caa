import LightOS.Kernel.Boot
import LightOS.Lib.Since
import LightOS.Terminal.Keyboard
import Mathlib.Data.List.Induction

/-! # The modifier keys

What the flags of the driver should say after a history of scancodes, and what they do say.
There is one flag for two Shift keys, set by the press and cleared by the release of either,
and the flag of Caps Lock is never cleared.
-/

namespace LightOS.Terminal

open Lib Kernel

/-- A key has been pressed and not released since. -/
def Held (press release : UInt8) : List UInt8 → Prop :=
  Since (fun _ input => input = press) (fun input => input ≠ release)

def AltHeld : List UInt8 → Prop := Held LALT_PRESSED LALT_RELEASED
def CtrlHeld : List UInt8 → Prop := Held LCTRL_PRESSED LCTRL_RELEASED
def LeftShiftHeld : List UInt8 → Prop := Held LSHIFT_PRESSED LSHIFT_RELEASED
def RightShiftHeld : List UInt8 → Prop := Held RSHIFT_PRESSED RSHIFT_RELEASED

/-- At least one of the two Shift keys. -/
def ShiftHeld (inputs : List UInt8) : Prop := LeftShiftHeld inputs ∨ RightShiftHeld inputs

/-- Caps Lock has been pressed an odd number of times. -/
def CapsOn (inputs : List UInt8) : Prop := inputs.count CAPS % 2 = 1

/-- The flags say which keys are held and whether Caps Lock is on, and without Shift and Caps
    Lock a key is the one of the unshifted row. -/
structure FlagsRight (inputs : List UInt8) (m : Modifiers) : Prop where
  shift : m.shiftPressed = 1 ↔ ShiftHeld inputs
  ctrl : m.ctrlPressed = 1 ↔ CtrlHeld inputs
  alt : m.altPressed = 1 ↔ AltHeld inputs
  caps : m.capsLock = 1 ↔ CapsOn inputs
  unshifted : ¬ ShiftHeld inputs → ¬ CapsOn inputs → ∀ input, m.key input = keyAt 0 input

/-- The scancodes of the Shift keys. -/
def IsShift (input : UInt8) : Prop :=
  input = LSHIFT_PRESSED ∨ input = LSHIFT_RELEASED ∨ input = RSHIFT_PRESSED ∨
    input = RSHIFT_RELEASED

/-- The last thing that happened to the Shift keys was that one was released while the other
    was held. -/
def ReleasedUnderOther : List UInt8 → Prop :=
  Since (fun before input => input = LSHIFT_RELEASED ∧ RightShiftHeld before ∨
    input = RSHIFT_RELEASED ∧ LeftShiftHeld before) (fun input => ¬ IsShift input)

/-- The last thing that happened to the Shift keys was a press. -/
def ShiftPressed : List UInt8 → Prop :=
  Since (fun _ input => input = LSHIFT_PRESSED ∨ input = RSHIFT_PRESSED)
    (fun input => input ≠ LSHIFT_RELEASED ∧ input ≠ RSHIFT_RELEASED)

/-- What the chain of comparisons in `keyboard_handler` keeps in the flags. -/
structure FlagsKept (inputs : List UInt8) (m : Modifiers) : Prop where
  shift : m.shiftPressed = 1 ∧ ShiftPressed inputs ∨ m.shiftPressed = 0 ∧ ¬ ShiftPressed inputs
  ctrl : m.ctrlPressed = 1 ↔ CtrlHeld inputs
  alt : m.altPressed = 1 ↔ AltHeld inputs
  caps : m.capsLock = if inputs.count CAPS = 0 then 0 else 1

section Flags

variable {inputs : List UInt8} {input : UInt8} {m : Modifiers}

theorem held_concat {press release : UInt8} : Held press release (inputs ++ [input]) ↔
    input = press ∨ (input ≠ release ∧ Held press release inputs) :=
  since_concat

/-- What one interrupt does to each flag by itself. -/
theorem press_flags (m : Modifiers) (input : UInt8) : (m.press input).getD m =
    { altPressed :=
        if input = LALT_PRESSED then 1 else if input = LALT_RELEASED then 0 else m.altPressed
      ctrlPressed :=
        if input = LCTRL_PRESSED then 1 else if input = LCTRL_RELEASED then 0 else m.ctrlPressed
      shiftPressed :=
        if input = LSHIFT_PRESSED ∨ input = RSHIFT_PRESSED then 1
        else if input = LSHIFT_RELEASED ∨ input = RSHIFT_RELEASED then 0
        else m.shiftPressed
      capsLock := if input = CAPS then m.capsLock ||| 1 else m.capsLock } := by
  by_cases altDown : input = LALT_PRESSED
  · subst altDown
    rfl
  by_cases altUp : input = LALT_RELEASED
  · subst altUp
    rfl
  by_cases ctrlDown : input = LCTRL_PRESSED
  · subst ctrlDown
    rfl
  by_cases ctrlUp : input = LCTRL_RELEASED
  · subst ctrlUp
    rfl
  by_cases leftDown : input = LSHIFT_PRESSED
  · subst leftDown
    rfl
  by_cases leftUp : input = LSHIFT_RELEASED
  · subst leftUp
    rfl
  by_cases rightDown : input = RSHIFT_PRESSED
  · subst rightDown
    rfl
  by_cases rightUp : input = RSHIFT_RELEASED
  · subst rightUp
    rfl
  by_cases caps : input = CAPS
  · subst caps
    rfl
  -- any other key
  simp only [Modifiers.press, altDown, altUp, ctrlDown, ctrlUp, leftDown, leftUp, rightDown,
    rightUp, caps, or_self, if_false, Option.getD_none]

/-- A flag that a press sets and a release clears says whether the key is held. -/
theorem held_flag {press release : UInt8} (differ : press ≠ release) {flag : Nat}
    (kept : flag = 1 ↔ Held press release inputs) :
    (if input = press then 1 else if input = release then 0 else flag) = 1 ↔
      Held press release (inputs ++ [input]) := by
  rw [held_concat]
  split_ifs with pressed released
  · simp [pressed]
  · simp [released, Ne.symm differ]
  · simp [pressed, released, kept]

/-- One interrupt keeps what the flags say. -/
theorem FlagsKept.press (kept : FlagsKept inputs m) (input : UInt8) :
    FlagsKept (inputs ++ [input]) ((m.press input).getD m) := by
  rw [press_flags]
  constructor
  case shift =>
    simp only [ShiftPressed, since_concat]
    split_ifs with pressed released
    · exact .inl ⟨rfl, .inl pressed⟩
    · refine .inr ⟨rfl, ?_⟩
      rintro (now | ⟨neither, _⟩)
      · exact pressed now
      · exact released.elim neither.1 neither.2
    · rw [not_or] at released
      rcases kept.shift with ⟨set, since⟩ | ⟨clear, since⟩
      · exact .inl ⟨set, .inr ⟨released, since⟩⟩
      · refine .inr ⟨clear, ?_⟩
        rintro (now | ⟨_, earlier⟩)
        · exact pressed now
        · exact since earlier
  case ctrl => exact held_flag (by decide) kept.ctrl
  case alt => exact held_flag (by decide) kept.alt
  case caps =>
    simp only [kept.caps, List.count_append, List.count_singleton, beq_iff_eq]
    split_ifs <;> simp_all

/-- The two views of the Shift keys differ after a release under the other key only. -/
theorem shiftPressed_iff (inputs : List UInt8) :
    (ShiftPressed inputs ↔ ShiftHeld inputs) ↔ ¬ ReleasedUnderOther inputs := by
  induction inputs using List.reverseRecOn with
  | nil => simp [ShiftPressed, ShiftHeld, LeftShiftHeld, RightShiftHeld, Held, ReleasedUnderOther]
  | append_singleton inputs input ih =>
      simp only [ShiftPressed, ShiftHeld, LeftShiftHeld, RightShiftHeld, ReleasedUnderOther,
        held_concat, since_concat] at ih ⊢
      by_cases isShift : IsShift input
      · rcases isShift with rfl | rfl | rfl | rfl <;>
          simp [IsShift, LSHIFT_PRESSED, LSHIFT_RELEASED, RSHIFT_PRESSED, RSHIFT_RELEASED]
      · have other := isShift
        simp only [IsShift, not_or] at other
        simpa [isShift, other] using ih

/-- `caps_lock` after a number of presses. -/
theorem capsLock_iff (kept : FlagsKept inputs m) :
    (m.capsLock = 1 ↔ CapsOn inputs) ↔ (inputs.count CAPS = 0 ∨ CapsOn inputs) := by
  rw [kept.caps]
  by_cases never : inputs.count CAPS = 0 <;> simp [never, CapsOn]

/-- Where the flags are right, so is the character they select. -/
theorem FlagsKept.unshifted (kept : FlagsKept inputs m)
    (shift : m.shiftPressed = 1 ↔ ShiftHeld inputs) (caps : m.capsLock = 1 ↔ CapsOn inputs)
    (noShift : ¬ ShiftHeld inputs) (capsOff : ¬ CapsOn inputs) (input : UInt8) :
    m.key input = keyAt 0 input := by
  have clear : m.shiftPressed = 0 :=
    (kept.shift.resolve_left fun set => noShift (shift.mp set.1)).1
  have unlocked : m.capsLock = 0 := by
    have notSet := mt caps.mp capsOff
    rw [kept.caps] at notSet ⊢
    split_ifs at notSet ⊢ with never
    · rfl
    · exact absurd rfl notSet
  rw [Modifiers.key, clear, unlocked]
  rfl

/-- Flags that are kept are right in the histories that do not end under another Shift key, and
    in which Caps Lock is off because it has never been pressed. -/
theorem FlagsKept.right_iff (kept : FlagsKept inputs m) :
    FlagsRight inputs m ↔
      ¬ ReleasedUnderOther inputs ∧ (inputs.count CAPS = 0 ∨ CapsOn inputs) := by
  have shift : m.shiftPressed = 1 ↔ ShiftPressed inputs := by
    rcases kept.shift with ⟨set, since⟩ | ⟨clear, since⟩
    · simp [set, since]
    · simp [clear, since]
  rw [← shiftPressed_iff, ← capsLock_iff kept, ← shift]
  constructor
  · intro right
    exact ⟨right.shift, right.caps⟩
  · rintro ⟨shift, caps⟩
    exact ⟨shift, kept.ctrl, kept.alt, caps, kept.unshifted shift caps⟩

end Flags

/-- `keyboard_handler`, for one scancode after the other. -/
def Keyboard.keys (s : Keyboard) (inputs : List UInt8) : Keyboard :=
  inputs.foldl (fun s input => s.keyboardHandler input) s

/-- The flags as the loader leaves them. -/
def Modifiers.initial : Modifiers := ⟨0, 0, 0, 0⟩

theorem Keyboard.keyboardHandler_modifiers (s : Keyboard) (input : UInt8) :
    (s.keyboardHandler input).modifiers = (s.modifiers.press input).getD s.modifiers := by
  have driver := congrArg Driver.modifiers (s.keyboardHandler_driver input)
  have handled : (s.driver.handle input).modifiers =
      (s.modifiers.press input).getD s.modifiers := by
    simp only [Driver.handle, driver_modifiers]
    cases s.modifiers.press input with
    | some after => rfl
    | none => split_ifs <;> rfl
  exact driver.trans handled

theorem Keyboard.keys_kept {s : Keyboard} (start : s.modifiers = .initial)
    (inputs : List UInt8) : FlagsKept inputs (s.keys inputs).modifiers := by
  induction inputs using List.reverseRecOn with
  | nil =>
      simp only [keys, List.foldl_nil, start]
      exact ⟨.inr ⟨rfl, since_nil⟩, by simp [Modifiers.initial, CtrlHeld, Held],
        by simp [Modifiers.initial, AltHeld, Held], rfl⟩
  | append_singleton inputs input ih =>
      rw [keys, List.foldl_append, List.foldl_cons, List.foldl_nil, keyboardHandler_modifiers]
      exact ih.press input

/-- After every sequence of scancodes from the initial flags on: the flags say which modifier
    keys are held and whether Caps Lock is on, if and only if the sequence has no Shift release
    under the other Shift key as its last event of the Shift keys, and no second, fourth, ...
    press of Caps Lock as its last one. -/
theorem modifiers_right_iff {s : Keyboard} (start : s.modifiers = .initial)
    (inputs : List UInt8) : FlagsRight inputs (s.keys inputs).modifiers ↔
      ¬ ReleasedUnderOther inputs ∧ (inputs.count CAPS = 0 ∨ CapsOn inputs) :=
  (Keyboard.keys_kept start inputs).right_iff

/-- Switched on, with memory all zero. -/
def poweredKeyboard : Keyboard := ⟨poweredOn, .initial, fun _ => ⟨fun _ => 0, 0, 0, 0⟩⟩

/-- One Shift key at a time, and Caps Lock once. -/
theorem shifted_letter_right_iff :
    FlagsRight [LSHIFT_PRESSED, 0x1E, LSHIFT_RELEASED, CAPS]
        (poweredKeyboard.keys [LSHIFT_PRESSED, 0x1E, LSHIFT_RELEASED, CAPS]).modifiers ↔
      ¬ ReleasedUnderOther [LSHIFT_PRESSED, 0x1E, LSHIFT_RELEASED, CAPS] ∧
        ([LSHIFT_PRESSED, 0x1E, LSHIFT_RELEASED, CAPS].count CAPS = 0 ∨
          CapsOn [LSHIFT_PRESSED, 0x1E, LSHIFT_RELEASED, CAPS]) :=
  modifiers_right_iff rfl _

/-- Caps Lock stays on when it is pressed again, and a held Shift key is forgotten when the other
    one is released. -/
theorem caps_pressed_twice_stays_on :
    ¬ FlagsRight [CAPS, CAPS] (poweredKeyboard.keys [CAPS, CAPS]).modifiers ∧
      ¬ FlagsRight [LSHIFT_PRESSED, RSHIFT_PRESSED, LSHIFT_RELEASED]
        (poweredKeyboard.keys [LSHIFT_PRESSED, RSHIFT_PRESSED, LSHIFT_RELEASED]).modifiers := by
  constructor
  · intro right
    have on : CapsOn [CAPS, CAPS] := right.caps.mp rfl
    exact absurd on (by unfold CapsOn; decide)
  · intro right
    have held : ShiftHeld [LSHIFT_PRESSED, RSHIFT_PRESSED, LSHIFT_RELEASED] :=
      .inr ⟨[LSHIFT_PRESSED], _, [LSHIFT_RELEASED], rfl, rfl, by decide +kernel⟩
    exact absurd (right.shift.mpr held) (by decide)

end LightOS.Terminal
