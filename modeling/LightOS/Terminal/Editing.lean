import LightOS.Lib.LineEditor
import LightOS.Terminal.Delivery

/-! # The terminals as line editors

A desk is what the people at the keyboard see: the flags, the terminal on display, and for
each terminal the keys that have gone to the read pending on it.  What a read returns is the
line that an editor makes of these keys, and of no others.
-/

namespace LightOS.Terminal

open Lib Kernel

/-- The meaning of a key that is not a modifier. -/
def Modifiers.decode (m : Modifiers) (input : UInt8) : Option (EditKey UInt8) :=
  if input = BACKSPACE then some .erase
  else if input < KEYBOARD_KEY_NUMBER then
    let c := m.key input
    if (c = 0x6C ∨ c = 0x4C) ∧ m.ctrlPressed ≠ 0 then some .clear
    else if c = NEWLINE then some .enter
    else some (.char c)
  else none

/-- A read on a terminal, and the keys that have gone to it. -/
inductive Session
  | none
  | pending (keys : List (EditKey UInt8))
  | answered (keys : List (EditKey UInt8))

/-- Keys go to a read that is pending, and to no other. -/
def Session.press (session : Session) (key : EditKey UInt8) : Session :=
  match session with
  | .pending keys => .pending (keys ++ [key])
  | other => other

/-- A read is pending from the statement that enables the keyboard until it returns. -/
def Session.proceed (session : Session) (pc : ReadPc) : Session :=
  match pc, session with
  | .enable, _ => .pending []
  | .found, .pending keys | .reset, .pending keys => .answered keys
  | _, session => session

/-- The flags, the terminal on display and the sessions. -/
structure Desk where
  modifiers : Modifiers
  shown : TerminalId
  session : TerminalId → Session

namespace Desk

def setSession (d : Desk) (t : TerminalId) (session : Session) : Desk :=
  { d with session := Function.update d.session t session }

/-- A key, pressed or released. -/
def press (d : Desk) (input : UInt8) : Desk :=
  match d.modifiers.press input with
  | some modifiers => { d with modifiers }
  | none =>
      match d.modifiers.decode input with
      | some key => d.setSession d.shown ((d.session d.shown).press key)
      | none => { d with shown := (d.modifiers.shows input).getD d.shown }

def step (d : Desk) (s : Console) : Event → Desk
  | .key input => d.press input
  | .schedule _ | .call _ => d
  | .read =>
      let t := s.activeTerminal
      d.setSession t ((d.session t).proceed (s.reader t).pc)

end Desk

/-- The console, watched from the desk. -/
def watched : Machine (Console × Desk) Event where
  enabled p event := p.1.able event
  next p event := (p.1.step event, p.2.step p.1 event)

/-- The desk before anybody reads. -/
def Desk.start (shown : TerminalId) : Desk := ⟨⟨0, 0, 0, 0⟩, shown, fun _ => .none⟩

/-- The call has taken the length of its line. -/
def ReadPc.taken : ReadPc → Bool
  | .copy | .found | .terminate | .reset => true
  | _ => false

/-- A key that makes no line longer than 127 characters, and does not edit a line between
    its Enter and the moment its reader takes it. -/
def Gentle (p : Console × Desk) : Event → Prop
  | .key input => ∀ key keys, p.2.modifiers.press input = none →
      p.2.modifiers.decode input = some key → p.2.session p.2.shown = .pending keys →
      (Edited.ofKeys (keys ++ [key])).line.length ≤ 127 ∧
        ((Edited.ofKeys keys).ended = true → key = .erase ∨ key = .clear →
          (p.1.reader p.2.shown).pc.taken = true)
  | _ => True

/-- What a read that has returned `value` has returned: the line that the keys of its session
    make, as far as the caller has room for it. -/
def Session.Answers (session : Session) (r : Reader) (value : Int) : Prop :=
  ∃ keys, session = .answered keys ∧ (Edited.ofKeys keys).ended = true ∧
    let bytes := delivered NEWLINE r.call.n.toNat (Edited.ofKeys keys).line
    value = bytes.length ∧ r.memory = overlay r.call.memory r.call.buf bytes

/-- Every read that has returned has answered the keys typed for it. -/
def Edits (p : Console × Desk) : Prop :=
  ∀ t value, (p.1.reader t).pc = .returned value → (p.1.reader t).call.buf ≠ 0 →
    (p.1.reader t).call.n ≠ 0 → (p.2.session t).Answers (p.1.reader t) value

/-- A read whose line has been ended returns, once its process goes on. -/
def Resumes (p : Console × Desk) : Prop :=
  p.1.kernel.faulted = false → ∀ keys, p.2.session p.1.activeTerminal = .pending keys →
    (Edited.ofKeys keys).ended = true → ∃ count later value,
      console.Run p.1 (List.replicate count .read) later ∧
        (later.reader p.1.activeTerminal).pc = .returned value

/-! ## The line in the buffer -/

namespace Line

/-- Nobody reads. -/
structure Quiet (line : Line) : Prop where
  enable : line.keyboardBufferEnable = 0
  size : line.keyboardBufferSize = 0
  overflow : line.overflow = 0

/-- The buffer holds a line that is being edited, or that has been ended. -/
structure Holds (line : Line) (edited : Edited UInt8) : Prop where
  plain : NEWLINE ∉ edited.line
  short : edited.line.length ≤ 127
  overflow : line.overflow = 0
  editing : edited.ended = false → line.keyboardBufferEnable = 1 ∧
    line.keyboardBufferSize = edited.line.length ∧
    line.chars edited.line.length = edited.line
  ended : edited.ended = true → line.keyboardBufferEnable = 0 ∧
    line.keyboardBufferSize = edited.line.length + 1 ∧
    line.chars (edited.line.length + 1) = edited.line ++ [NEWLINE]

/-- The characters of an ended line. -/
structure Keeps (line : Line) (front : List UInt8) : Prop where
  plain : NEWLINE ∉ front
  overflow : line.overflow = 0
  enable : line.keyboardBufferEnable = 0
  chars : line.chars (front.length + 1) = front ++ [NEWLINE]

/-- A key of the editor on a line. -/
def strike (line : Line) (m : Modifiers) (input : UInt8) : Line :=
  if input = BACKSPACE then line.eraseLast else line.type m input

variable {line : Line} {m : Modifiers} {input : UInt8} {key : EditKey UInt8}
  {edited : Edited UInt8} {front : List UInt8}

theorem chars_take {k count : Nat} (atMost : k ≤ count) :
    line.chars k = (line.chars count).take k := by
  rw [chars, chars, ← List.map_take, List.take_range, Nat.min_eq_left atMost]

/-- A character stored behind a line. -/
theorem chars_update (line : Line) (count : Nat) (byte : UInt8) {after : Line}
    (stored : after.keyBuf = Function.update line.keyBuf count byte) :
    after.chars (count + 1) = line.chars count ++ [byte] := by
  have before : after.chars count = line.chars count := by
    apply List.map_congr_left
    intro i member
    have less := List.mem_range.mp member
    rw [stored, Function.update_of_ne (by omega)]
  rw [chars_succ, before, stored, Function.update_self]

/-- A key that is not Backspace, where the editor knows it. -/
theorem decode_type (decoded : m.decode input = some key) (notBackspace : input ≠ BACKSPACE) :
    (key = .clear ∧ ((m.key input = 0x6C ∨ m.key input = 0x4C) ∧ m.ctrlPressed ≠ 0)) ∨
      ¬ ((m.key input = 0x6C ∨ m.key input = 0x4C) ∧ m.ctrlPressed ≠ 0) ∧
        (key = .enter ∧ m.key input = NEWLINE ∨
          key = .char (m.key input) ∧ m.key input ≠ NEWLINE) := by
  simp only [Modifiers.decode, if_neg notBackspace] at decoded
  split_ifs at decoded with inTable clears enters
  · exact .inl ⟨(Option.some.inj decoded).symm, clears⟩
  · exact .inr ⟨clears, .inl ⟨(Option.some.inj decoded).symm, enters⟩⟩
  · exact .inr ⟨clears, .inr ⟨(Option.some.inj decoded).symm, enters⟩⟩

theorem branch_disabled (disabled : line.keyboardBufferEnable = 0) (c : UInt8) :
    line.branch m c =
      if (c = 0x6C ∨ c = 0x4C) ∧ m.ctrlPressed ≠ 0 then .clear else .dropped := by
  simp only [branch, disabled, ne_eq, not_true, false_and, and_false, if_false]

theorem eraseLast_eq (noOverflow : line.overflow = 0) : line.eraseLast =
    { line with
      keyboardBufferSize :=
        if 0 < line.keyboardBufferSize then line.keyboardBufferSize - 1
        else line.keyboardBufferSize } := by
  rw [eraseLast, noOverflow, if_neg (Nat.lt_irrefl 0)]
  split_ifs <;> rw [← noOverflow]

/-- Without a reader a key changes the size at most. -/
theorem strike_disabled (disabled : line.keyboardBufferEnable = 0) (noOverflow : line.overflow = 0)
    (m : Modifiers) (input : UInt8) : (line.strike m input).keyBuf = line.keyBuf ∧
      (line.strike m input).keyboardBufferEnable = 0 ∧ (line.strike m input).overflow = 0 := by
  unfold strike
  split_ifs
  · rw [eraseLast_eq noOverflow]
    exact ⟨rfl, disabled, noOverflow⟩
  · rw [type, branch_disabled disabled]
    split_ifs <;> exact ⟨rfl, disabled, noOverflow⟩

theorem Quiet.strike (quiet : line.Quiet) (m : Modifiers) (input : UInt8) :
    (line.strike m input).Quiet := by
  obtain ⟨_, enable, overflow⟩ := strike_disabled quiet.enable quiet.overflow m input
  refine ⟨enable, ?_, overflow⟩
  unfold Line.strike
  split_ifs
  · simp only [eraseLast_eq quiet.overflow, quiet.size, Int.lt_irrefl, if_false]
  · rw [type, branch_disabled quiet.enable]
    split_ifs
    · rfl
    · exact quiet.size

theorem Keeps.strike (keeps : line.Keeps front) (m : Modifiers) (input : UInt8) :
    (line.strike m input).Keeps front := by
  obtain ⟨same, enable, overflow⟩ := strike_disabled keeps.enable keeps.overflow m input
  exact ⟨keeps.plain, overflow, enable, by rw [chars_congr same, keeps.chars]⟩

/-- A line that has been ended does not take the keys that are typed at it. -/
theorem strike_ended (disabled : line.keyboardBufferEnable = 0)
    (decoded : m.decode input = some key) (notErase : key ≠ .erase) (notClear : key ≠ .clear) :
    line.strike m input = line := by
  unfold strike
  split_ifs with isBackspace
  · rw [Modifiers.decode, if_pos isBackspace] at decoded
    exact absurd (Option.some.inj decoded).symm notErase
  · rcases decode_type decoded isBackspace with clears | types
    · exact absurd clears.1 notClear
    · rw [type, branch_disabled disabled, if_neg types.1]
      rfl

theorem Holds.erase (holds : line.Holds ⟨front, false⟩) :
    line.eraseLast.Holds ⟨front.dropLast, false⟩ := by
  obtain ⟨enable, size, chars⟩ := holds.editing rfl
  rw [eraseLast_eq holds.overflow]
  have shorter : front.dropLast.length = front.length - 1 := List.length_dropLast
  have short := holds.short
  simp only at size chars short
  refine ⟨fun member => holds.plain (List.dropLast_subset _ member), ?_, holds.overflow,
    fun _ => ⟨enable, ?_, ?_⟩, fun ended => nomatch ended⟩
  · simp only [shorter]
    omega
  · simp only [shorter]
    split_ifs <;> omega
  · have taken : line.chars (front.length - 1) = front.dropLast := by
      rw [chars_take (Nat.sub_le _ 1), chars, List.dropLast_eq_take]
    rw [shorter]
    exact taken

theorem Holds.clear (holds : line.Holds ⟨front, false⟩) :
    ({ line with keyboardBufferSize := 0 } : Line).Holds ⟨[], false⟩ where
  plain := List.not_mem_nil
  short := Nat.zero_le _
  overflow := holds.overflow
  editing _ := ⟨(holds.editing rfl).1, rfl, rfl⟩
  ended := fun ended => nomatch ended

theorem Holds.inside (holds : line.Holds ⟨front, false⟩) : 0 ≤ line.keyboardBufferSize ∧
    line.keyboardBufferSize < KEYBOARD_BUFFER_SIZE := by
  have size := (holds.editing rfl).2.1
  have short := holds.short
  simp only at size short
  simp only [KEYBOARD_BUFFER_SIZE]
  omega

theorem Holds.enter (holds : line.Holds ⟨front, false⟩) (c : UInt8) :
    (line.apply .enter c).Holds ⟨front, true⟩ := by
  obtain ⟨enable, size, chars⟩ := holds.editing rfl
  simp only at size chars
  rw [apply_enter holds.inside]
  refine ⟨holds.plain, holds.short, holds.overflow, (fun ended => nomatch ended),
    fun _ => ⟨rfl, ?_, ?_⟩⟩
  · simp only [size]
  · rw [chars_update line front.length NEWLINE (by simp [size]), chars]

theorem Holds.append (holds : line.Holds ⟨front, false⟩) {c : UInt8} (plain : c ≠ NEWLINE)
    (room : (front ++ [c]).length ≤ 127) :
    (line.apply .append c).Holds ⟨front ++ [c], false⟩ := by
  obtain ⟨enable, size, chars⟩ := holds.editing rfl
  simp only at size chars
  rw [apply_append holds.inside]
  have length : (front ++ [c]).length = front.length + 1 := List.length_append
  refine ⟨?_, room, holds.overflow, fun _ => ⟨enable, ?_, ?_⟩, fun ended => nomatch ended⟩
  · rw [List.mem_append, List.mem_singleton]
    exact fun member => member.elim holds.plain fun same => plain same.symm
  · simp only [length, size]
    rfl
  · simp only [length]
    rw [chars_update line front.length c (by simp [size]), chars]

/-- A key of the editor does to the buffer what it does to the line. -/
theorem Holds.strike (holds : line.Holds edited) (decoded : m.decode input = some key)
    (short : (edited.press key).line.length ≤ 127)
    (undisturbed : edited.ended = true → key ≠ .erase ∧ key ≠ .clear) :
    (line.strike m input).Holds (edited.press key) := by
  obtain ⟨front, ended⟩ := edited
  cases ended with
  | true =>
      obtain ⟨notErase, notClear⟩ := undisturbed rfl
      rw [strike_ended (holds.ended rfl).1 decoded notErase notClear, Edited.press_ended rfl]
      exact holds
  | false =>
      unfold Line.strike
      split_ifs with isBackspace
      · rw [Modifiers.decode, if_pos isBackspace] at decoded
        cases decoded
        exact holds.erase
      · rcases decode_type decoded isBackspace with ⟨rfl, clears⟩ | ⟨notClear, types⟩
        · rw [type, branch, if_pos clears]
          exact holds.clear
        · have notFull : ¬ ((KEYBOARD_BUFFER_SIZE : Int) ≤ line.keyboardBufferSize ∧
              line.keyboardBufferEnable ≠ 0 ∧ m.key input = NEWLINE) :=
            fun full => Int.not_lt.mpr full.1 holds.inside.2
          have waiting : line.keyboardBufferEnable ≠ 0 := by
            rw [(holds.editing rfl).1]
            decide
          rcases types with ⟨rfl, isEnter⟩ | ⟨rfl, notEnter⟩
          · rw [type, branch, if_neg notClear, if_neg notFull, if_pos ⟨isEnter, waiting⟩]
            exact holds.enter _
          · rw [type, branch_append_iff.mpr ⟨notEnter, notClear, waiting⟩]
            exact holds.append notEnter short

end Line

end LightOS.Terminal
