import LightOS.Terminal.Settled

/-! # Two reads in lockstep

Two lines may differ behind the characters that have been written since they were empty.
Neither a key nor a statement of `terminal_read` looks there.
-/

namespace LightOS.Terminal

open Lib Kernel

/-- The characters that Backspace has taken off the screen of `t`, one event later. -/
def erased (t : TerminalId) (s : Console) (event : Event) (count : Nat) : Nat :=
  match event with
  | .key input =>
      if s.currentTerminal = t ∧ input = BACKSPACE ∧ (s.line t).overflow = 0 ∧
        0 < (s.line t).keyboardBufferSize then count + 1 else count
  | _ => count

/-- Anything but a new call. -/
def Event.NotCall : Event → Prop
  | .call _ => False
  | _ => True

/-- The characters below `written`, and all the rest of two lines, are the same. -/
structure Line.Agree (written : Int) (first second : Line) : Prop where
  size : second.keyboardBufferSize = first.keyboardBufferSize
  enable : second.keyboardBufferEnable = first.keyboardBufferEnable
  overflow : second.overflow = first.overflow
  chars : ∀ i : Nat, (i : Int) < written → second.keyBuf i = first.keyBuf i
  below : 0 ≤ first.keyboardBufferSize ∧ first.keyboardBufferSize ≤ written
  atMost : written ≤ KEYBOARD_BUFFER_SIZE

/-- Two consoles that agree on a terminal and on the call in it.  A call that is copying has
    taken its length from what has been written. -/
structure Alike (t : TerminalId) (first second : Console) : Prop where
  modifiers : second.modifiers = first.modifiers
  shown : second.currentTerminal = first.currentTerminal
  active : second.activeTerminal = first.activeTerminal
  reader : second.reader t = first.reader t
  line : ∃ written, (first.line t).Agree written (second.line t) ∧
    ((first.reader t).pc = .copy → (first.reader t).n ≤ written)

section Lockstep

variable {line line' : Line} {written : Int}

theorem Line.Agree.eraseLast (agree : line.Agree written line') :
    line.eraseLast.Agree written line'.eraseLast := by
  obtain ⟨f, _, _, _⟩ := line
  obtain ⟨g, count, flag, extra⟩ := line'
  obtain ⟨rfl, rfl, rfl, chars, below, atMost⟩ := agree
  simp only at chars below
  unfold Line.eraseLast
  dsimp only
  split_ifs with positive filled
  · exact ⟨rfl, rfl, rfl, chars, below, atMost⟩
  · have still : 0 ≤ count - 1 ∧ count - 1 ≤ written := by omega
    exact ⟨rfl, rfl, rfl, chars, still, atMost⟩
  · exact ⟨rfl, rfl, rfl, chars, below, atMost⟩

/-- A store behind the characters that the two lines have in common, or into them. -/
theorem update_agree {f g : Nat → UInt8} (same : ∀ i : Nat, (i : Int) < written → g i = f i)
    {index : Nat} (next : (index : Int) ≤ written) (byte : UInt8) (i : Nat)
    (before : (i : Int) < max written (index + 1)) :
    Function.update g index byte i = Function.update f index byte i := by
  by_cases here : i = index
  · rw [here, Function.update_self, Function.update_self]
  · rw [Function.update_of_ne here, Function.update_of_ne here]
    apply same
    omega

theorem Line.apply_enterFull (line : Line) (key : UInt8) : line.apply .enterFull key =
    { line with
      keyBuf := Function.update line.keyBuf 127 NEWLINE
      keyboardBufferEnable := 0
      overflow := line.overflow + 1 } := rfl

/-- Past a full line the low byte of the size is stored into. -/
theorem Line.apply_append_full (full : line.keyboardBufferSize = KEYBOARD_BUFFER_SIZE)
    (key : UInt8) :
    line.apply .append key = { line with keyboardBufferSize := key.toNat + 1 } := by
  have outside : ¬ (0 ≤ line.keyboardBufferSize ∧
      line.keyboardBufferSize < KEYBOARD_BUFFER_SIZE) := by omega
  have low : line.keyboardBufferSize - line.keyboardBufferSize % 2 ^ 8 = 0 := by
    simp only [full, KEYBOARD_BUFFER_SIZE]
    decide
  simp only [apply, storeIndex, storeKey, if_neg outside, if_pos full, if_true, low, Int.zero_add]

theorem Line.Agree.type (agree : line.Agree written line') (m : Modifiers) (input : UInt8) :
    ∃ more, written ≤ more ∧ (line.type m input).Agree more (line'.type m input) := by
  obtain ⟨f, _, _, _⟩ := line
  obtain ⟨g, count, flag, extra⟩ := line'
  obtain ⟨rfl, rfl, rfl, chars, below, atMost⟩ := agree
  simp only at chars below
  have branches : Line.branch ⟨g, count, flag, extra⟩ m (m.key input) =
      Line.branch ⟨f, count, flag, extra⟩ m (m.key input) := rfl
  -- A store into the buffer, with the size that comes with it.
  have stored {index : Nat} (next : (index : Int) ≤ written)
      (inside : index < KEYBOARD_BUFFER_SIZE) (byte : UInt8) {count flag extra}
      (nonneg : 0 ≤ count) (more : count ≤ max written (index + 1)) :
      Line.Agree (max written (index + 1)) ⟨Function.update f index byte, count, flag, extra⟩
        ⟨Function.update g index byte, count, flag, extra⟩ :=
    ⟨rfl, rfl, rfl, fun i before => update_agree chars next byte i before, ⟨nonneg, more⟩, by omega⟩
  unfold Line.type
  rw [branches]
  cases branch : Line.branch ⟨f, count, flag, extra⟩ m (m.key input) with
  | clear =>
      have none : (0 : Int) ≤ 0 ∧ 0 ≤ written := by omega
      exact ⟨written, Int.le_refl _, rfl, rfl, rfl, chars, none, atMost⟩
  | dropped => exact ⟨written, Int.le_refl _, rfl, rfl, rfl, chars, below, atMost⟩
  | enterFull =>
      have full : (KEYBOARD_BUFFER_SIZE : Int) ≤ count := (Line.branch_enterFull_iff.mp branch).1
      rw [Line.apply_enterFull, Line.apply_enterFull]
      dsimp only
      simp only [KEYBOARD_BUFFER_SIZE] at full atMost
      exact ⟨_, by omega, stored (by omega) (by decide) NEWLINE below.1 (by omega)⟩
  | enter =>
      have room : count < KEYBOARD_BUFFER_SIZE := Line.branch_enter branch
      have inside : 0 ≤ count ∧ count < KEYBOARD_BUFFER_SIZE := ⟨below.1, room⟩
      rw [Line.apply_enter inside, Line.apply_enter inside]
      dsimp only
      exact ⟨_, by omega, stored (by omega) (by omega) NEWLINE (by omega) (by omega)⟩
  | append =>
      by_cases room : count < KEYBOARD_BUFFER_SIZE
      · have inside : 0 ≤ count ∧ count < KEYBOARD_BUFFER_SIZE := ⟨below.1, room⟩
        rw [Line.apply_append inside, Line.apply_append inside]
        dsimp only
        exact ⟨_, by omega, stored (by omega) (by omega) _ (by omega) (by omega)⟩
      · have full : count = KEYBOARD_BUFFER_SIZE := by omega
        have small : (m.key input).toNat < 128 := keyAt_small _ input
        rw [Line.apply_append_full full, Line.apply_append_full full]
        simp only [KEYBOARD_BUFFER_SIZE] at full atMost
        have within : (0 : Int) ≤ (m.key input).toNat + 1 ∧
            ((m.key input).toNat : Int) + 1 ≤ written := by
          omega
        exact ⟨written, Int.le_refl _, rfl, rfl, rfl, chars, within, atMost⟩

/-- The statements of a call do the same on both lines. -/
theorem Line.Agree.step (agree : line.Agree written line') {r : Reader}
    (copying : r.pc = .copy → r.n ≤ written) :
    (r.step line).1.Agree written (r.step line').1 ∧ (r.step line').2 = (r.step line).2 ∧
      ((r.step line).2.pc = .copy → (r.step line).2.n ≤ written) := by
  have atMost := agree.atMost
  have inside : line.Inside := ⟨agree.below.1, Int.le_trans agree.below.2 atMost⟩
  obtain ⟨sameSize, _⟩ := inside.toUint32
  obtain ⟨f, _, _, _⟩ := line
  obtain ⟨g, count, flag, extra⟩ := line'
  obtain ⟨rfl, rfl, rfl, chars, below, _⟩ := agree
  simp only at chars below sameSize
  have kept (flag : Nat) : Line.Agree written ⟨f, count, flag, extra⟩ ⟨g, count, flag, extra⟩ :=
    ⟨rfl, rfl, rfl, chars, below, atMost⟩
  have empty : Line.Agree written ⟨f, 0, flag, extra⟩ ⟨g, 0, flag, extra⟩ :=
    ⟨rfl, rfl, rfl, chars, ⟨Int.le_refl 0, Int.le_trans below.1 below.2⟩, atMost⟩
  unfold Reader.step
  cases pc : r.pc with
  | idle | returned => exact ⟨kept flag, rfl, fun copy => by simp [pc] at copy⟩
  | enable => exact ⟨kept 1, rfl, by simp⟩
  | spin =>
      refine ⟨kept flag, rfl, ?_⟩
      dsimp only
      split_ifs <;> simp [pc]
  | compare =>
      refine ⟨kept flag, rfl, ?_⟩
      dsimp only
      split_ifs with longer
      · simp
      · intro _
        dsimp only
        omega
  | clamp =>
      refine ⟨kept flag, rfl, fun _ => ?_⟩
      dsimp only
      omega
  | copy =>
      have most := copying pc
      refine ⟨kept flag, ?_, ?_⟩
      · by_cases more : r.index < r.n
        · have same : g r.index = f r.index := chars _ (by omega)
          simp only [same]
        · simp only [if_neg more]
      · dsimp only
        split_ifs <;> simp [Reader.store, most]
  | terminate => exact ⟨kept flag, rfl, by simp⟩
  | found | reset => exact ⟨empty, rfl, by simp⟩

variable {t : TerminalId} {first second : Console}

/-- An event keeps two consoles alike, as long as it is not a call. -/
theorem Alike.step (alike : Alike t first second) {event : Event} (notCall : event.NotCall) :
    Alike t (first.step event) (second.step event) := by
  obtain ⟨modifiers, shown, active, reader, written, agree, copying⟩ := alike
  cases event with
  | call call => exact absurd notCall id
  | schedule interrupted =>
      refine ⟨modifiers, ?_, ?_, reader, written, agree, copying⟩
      · exact (second.kernel.schedule_shows interrupted).2.trans
          (shown.trans (first.kernel.schedule_shows interrupted).2.symm)
      · refine (second.kernel.schedule_shows interrupted).1.trans (.trans ?_
          (first.kernel.schedule_shows interrupted).1.symm)
        exact congrArg nextTerminal active
  | read =>
      by_cases here : first.activeTerminal = t
      · obtain ⟨agree', reader', copying'⟩ := agree.step copying
        have there : second.activeTerminal = t := active.trans here
        refine ⟨modifiers, shown, active, ?_, written, ?_, ?_⟩ <;>
          simp only [Console.step, here, there, Function.update_self, reader]
        · exact reader'
        · exact agree'
        · exact copying'
      · have other : t ≠ first.activeTerminal := Ne.symm here
        have other' : t ≠ second.activeTerminal := fun same => other (same.trans active)
        refine ⟨modifiers, shown, active, ?_, written, ?_, ?_⟩ <;>
          simp only [Console.step, Function.update_of_ne other, Function.update_of_ne other']
        · exact reader
        · exact agree
        · exact copying
  | key input =>
      have driver : (second.driver.handle input).modifiers = (first.driver.handle input).modifiers ∧
          (second.driver.handle input).currentTerminal =
            (first.driver.handle input).currentTerminal := by
        unfold Driver.handle
        simp only [Keyboard.driver, modifiers, shown]
        split
        · exact ⟨rfl, rfl⟩
        · split_ifs <;> simp [Driver.edit]
      refine ⟨?_, ?_, ?_, reader, ?_⟩
      · exact (congrArg Driver.modifiers (second.step_key_driver input)).trans
          (driver.1.trans (congrArg Driver.modifiers (first.step_key_driver input)).symm)
      · exact (congrArg Driver.currentTerminal (second.step_key_driver input)).trans
          (driver.2.trans (congrArg Driver.currentTerminal (first.step_key_driver input)).symm)
      · exact (second.step_key_activeTerminal input).trans
          (active.trans (first.step_key_activeTerminal input).symm)
      · have typed : second.IsTyped input ↔ first.IsTyped input := by
          simp only [Keyboard.IsTyped, modifiers]
        rw [first.step_key_line, second.step_key_line]
        simp only [shown, typed, modifiers]
        split_ifs
        · exact ⟨written, agree, copying⟩
        · exact ⟨written, agree.eraseLast, copying⟩
        · obtain ⟨more, longer, agree'⟩ := agree.type first.modifiers input
          exact ⟨more, agree', fun copy => Int.le_trans (copying copy) longer⟩
        · exact ⟨written, agree, copying⟩

theorem Alike.erased_eq (alike : Alike t first second) (event : Event) :
    erased t first event = erased t second event := by
  obtain ⟨_, shown, _, _, written, agree, _⟩ := alike
  funext count
  cases event with
  | key input => simp only [erased, shown, agree.size, agree.overflow]
  | schedule | call | read => rfl

/-- A new call on an empty line, with the same surplus. -/
theorem Settled.alike (settled : Settled (first.line t) (first.reader t))
    (settled' : Settled (second.line t) (second.reader t))
    (free : (first.reader t).running = false) (free' : (second.reader t).running = false)
    (active : first.activeTerminal = t) (active' : second.activeTerminal = t)
    (shown : first.currentTerminal = t) (shown' : second.currentTerminal = t)
    (modifiers : first.modifiers = second.modifiers)
    (overflow : (first.line t).overflow = (second.line t).overflow) (call : ReadCall) :
    Alike t (first.step (.call call)) (second.step (.call call)) where
  modifiers := modifiers.symm
  shown := shown'.trans shown.symm
  active := active'.trans active.symm
  reader := by simp only [Console.step, active, active', Function.update_self]
  line := by
    obtain ⟨size, enable⟩ := settled.free free
    obtain ⟨size', enable'⟩ := settled'.free free'
    refine ⟨0, ⟨size'.trans size.symm, enable'.trans enable.symm, overflow.symm, ?_, ?_, ?_⟩, ?_⟩
    · intro i before
      omega
    · exact ⟨Int.le_of_eq size.symm, Int.le_of_eq size⟩
    · exact Int.natCast_nonneg _
    · simp only [Console.step, active, Function.update_self, Reader.enter]
      split_ifs <;> simp

/-- The same events after a call on both consoles. -/
theorem Alike.sameLine {call : ReadCall}
    (alike : Alike t (first.step (.call call)) (second.step (.call call))) {events : List Event}
    {first' second' : Console} {value : Int} (notCalls : ∀ event ∈ events, event.NotCall)
    (run : console.Run first (.call call :: events) first')
    (run' : console.Run second (.call call :: events) second')
    (returned : (first'.reader t).pc = .returned value) :
    (second'.reader t).pc = .returned value ∧
      (second'.reader t).memory = (first'.reader t).memory ∧
      console.record (erased t) first (.call call :: events) 0 =
        console.record (erased t) second (.call call :: events) 0 := by
  cases run with
  | cons _ rest =>
      cases run' with
      | cons _ rest' =>
          obtain ⟨after, same⟩ := rest.lockstep (R := Alike t) (P := Event.NotCall)
            (fun _ _ _ alike notCall _ _ => alike.step notCall)
            (fun _ _ event alike _ => alike.erased_eq event) rest' notCalls alike 0
          rw [after.reader]
          exact ⟨returned, rfl, same⟩

end Lockstep

end LightOS.Terminal
