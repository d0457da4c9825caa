import LightOS.Kernel.Forest
import LightOS.Lib.Lockstep
import LightOS.Terminal.Answers

/-! # What any history leaves behind

When no read is under way the line of a terminal is empty and takes no characters, whatever
has been typed before.  What is left of earlier lines is `overflow`: Enter on a full line adds
one to it, Backspace takes one away from it in place of a character, and no read resets it.
-/

namespace LightOS.Terminal

open Lib Kernel

/-- Enter, for a full line that a reader waits for. -/
def Line.EndsFull (line : Line) (key : UInt8) : Prop :=
  (KEYBOARD_BUFFER_SIZE : Int) ≤ line.keyboardBufferSize ∧ line.keyboardBufferEnable ≠ 0 ∧
    key = NEWLINE

instance (line : Line) (key : UInt8) : Decidable (line.EndsFull key) :=
  inferInstanceAs (Decidable (_ ∧ _ ∧ _))

/-- The Enters on full lines of `t` that no Backspace has been spent on, one event later. -/
def surplus (t : TerminalId) (s : Console) (event : Event) (count : Nat) : Nat :=
  match event with
  | .key input =>
      if s.currentTerminal ≠ t then count
      else if input = BACKSPACE then count - 1
      else if s.IsTyped input ∧ (s.line t).EndsFull (s.modifiers.key input) then count + 1
      else count
  | _ => count

/-- `entry`, which calls `keyboard_init`. -/
def Console.entry (bootBlock : Option Filesystem.Image) (buffers : TerminalId → List UInt8)
    (s : Console) : Console :=
  { s with
    toKeyboard := { s.toKeyboard.keyboardInit with kernel := s.kernel.entry bootBlock buffers } }

/-- The line of a terminal at each statement of the call on it. -/
def SettledAt (line : Line) : ReadPc → Prop
  | .idle | .returned _ | .enable => line.keyboardBufferSize = 0 ∧ line.keyboardBufferEnable = 0
  | .spin => line.keyboardBufferEnable ≤ 1
  | _ => line.keyboardBufferEnable = 0

/-- A line and a call on it, whatever has been typed. -/
structure Settled (line : Line) (r : Reader) : Prop where
  inside : line.Inside
  at_ : SettledAt line r.pc

/-- The two flags that select the row of the table. -/
structure Modifiers.Flags (m : Modifiers) : Prop where
  shift : m.shiftPressed ≤ 1
  caps : m.capsLock ≤ 1

section Lines

variable {line : Line} {r : Reader} {m : Modifiers} {input : UInt8}

theorem Line.branch_enterFull_iff {key : UInt8} :
    line.branch m key = .enterFull ↔ line.EndsFull key := by
  have notLetter : key = NEWLINE → ¬ ((key = 0x6C ∨ key = 0x4C) ∧ m.ctrlPressed ≠ 0) := by
    rintro rfl ⟨letter, _⟩
    exact absurd letter (by decide)
  unfold Line.branch
  split_ifs with clears full enters appends
  · exact iff_of_false (by simp) fun ends => notLetter ends.2.2 clears
  · exact iff_of_true rfl full
  · exact iff_of_false (by simp) full
  · exact iff_of_false (by simp) full
  · exact iff_of_false (by simp) full

theorem Line.storeKey_overflow (line : Line) (index : Int) (byte : UInt8) :
    (line.storeKey index byte).overflow = line.overflow := by
  unfold storeKey
  split_ifs <;> rfl

theorem Line.eraseLast_overflow (line : Line) : line.eraseLast.overflow = line.overflow - 1 := by
  unfold eraseLast
  split_ifs with positive
  · rfl
  · show line.overflow = line.overflow - 1
    omega
  · omega

theorem Line.type_overflow (line : Line) (m : Modifiers) (input : UInt8) :
    (line.type m input).overflow =
      if line.EndsFull (m.key input) then line.overflow + 1 else line.overflow := by
  unfold type
  cases branch : line.branch m (m.key input) with
  | enterFull =>
      rw [if_pos (branch_enterFull_iff.mp branch)]
      simp only [apply, storeIndex, storeKey_overflow]
  | clear | enter | append | dropped =>
      have other : ¬ line.EndsFull (m.key input) := fun ends => by
        rw [branch_enterFull_iff.mpr ends] at branch
        cases branch
      rw [if_neg other]
      simp only [apply, storeIndex, storeKey_overflow]

theorem SettledAt.eraseLast {pc : ReadPc} (settled : SettledAt line pc) :
    SettledAt line.eraseLast pc := by
  have enable : line.eraseLast.keyboardBufferEnable = line.keyboardBufferEnable := by
    unfold Line.eraseLast
    split_ifs <;> rfl
  have size (empty : line.keyboardBufferSize = 0) : line.eraseLast.keyboardBufferSize = 0 := by
    unfold Line.eraseLast
    split_ifs with positive filled
    · exact empty
    · omega
    · exact empty
  cases pc with
  | idle | returned | enable => exact ⟨size settled.1, enable.trans settled.2⟩
  | spin => exact Nat.le_trans (Nat.le_of_eq enable) settled
  | compare | clamp | copy | found | terminate | reset => exact enable.trans settled

theorem SettledAt.type {pc : ReadPc} (settled : SettledAt line pc) (m : Modifiers)
    (input : UInt8) : SettledAt (line.type m input) pc := by
  have enable (disabled : line.keyboardBufferEnable = 0) :
      (line.type m input).keyboardBufferEnable = 0 := by
    rw [Line.type, Line.branch_disabled disabled]
    split_ifs <;> exact disabled
  cases pc with
  | idle | returned | enable =>
      refine ⟨?_, enable settled.2⟩
      rw [Line.type, Line.branch_disabled settled.2]
      split_ifs
      · rfl
      · exact settled.1
  | spin => exact Line.flag_type settled m input
  | compare | clamp | copy | found | terminate | reset => exact enable settled

/-- The statements of `terminal_read`. -/
theorem Settled.step (settled : Settled line r) : Settled (r.step line).1 (r.step line).2 := by
  obtain ⟨inside, at_⟩ := settled
  unfold Reader.step
  cases pc : r.pc with
  | idle | returned =>
      rw [pc] at at_
      exact ⟨inside, by rw [pc]; exact at_⟩
  | enable => exact ⟨inside, Nat.le_refl 1⟩
  | spin =>
      rw [pc] at at_
      refine ⟨inside, ?_⟩
      by_cases waiting : line.keyboardBufferEnable = 1
      · simp only [if_pos waiting, pc]
        exact at_
      · simp only [if_neg waiting]
        have flag : line.keyboardBufferEnable ≤ 1 := at_
        show line.keyboardBufferEnable = 0
        omega
  | compare =>
      rw [pc] at at_
      refine ⟨inside, ?_⟩
      by_cases longer : toUint32 line.keyboardBufferSize < r.n
      · simp only [if_pos longer]
        exact at_
      · simp only [if_neg longer]
        exact at_
  | clamp | terminate =>
      rw [pc] at at_
      exact ⟨inside, at_⟩
  | copy =>
      rw [pc] at at_
      refine ⟨inside, ?_⟩
      by_cases more : r.index < r.n
      · by_cases newline : line.keyBuf r.index = NEWLINE
        · simp only [if_pos more, if_pos newline]
          exact at_
        · simp only [if_pos more, if_neg newline]
          exact at_
      · simp only [if_neg more]
        exact at_
  | found | reset =>
      rw [pc] at at_
      exact ⟨.empty line, rfl, at_⟩

/-- A terminal on which no read is under way. -/
theorem Settled.free (settled : Settled line r) (free : r.running = false) :
    line.keyboardBufferSize = 0 ∧ line.keyboardBufferEnable = 0 := by
  have at_ := settled.at_
  unfold Reader.running at free
  cases pc : r.pc with
  | idle | returned =>
      rw [pc] at at_
      exact at_
  | enable | spin | compare | clamp | copy | found | terminate | reset =>
      rw [pc] at free
      cases free

theorem Settled.enter (settled : Settled line r) (free : r.running = false) (call : ReadCall) :
    Settled line (Reader.enter call) := by
  have empty := settled.free free
  refine ⟨settled.inside, ?_⟩
  unfold Reader.enter
  split_ifs
  · exact empty
  · exact empty
  · exact empty

/-- One branch of the chain of `if`s that sets the flags. -/
theorem Modifiers.Flags.of_ite {c : Prop} [Decidable c] {m after : Modifiers}
    {rest : Option Modifiers} (here : m.Flags) (later : rest = some after → after.Flags)
    (pressed : (if c then some m else rest) = some after) : after.Flags := by
  split at pressed
  · exact Option.some.inj pressed ▸ here
  · exact later pressed

theorem Modifiers.Flags.press (flags : m.Flags) {after : Modifiers}
    (pressed : m.press input = some after) : after.Flags := by
  obtain ⟨shift, caps⟩ := flags
  have alt (flag : Nat) : Modifiers.Flags { m with altPressed := flag } := ⟨shift, caps⟩
  have ctrl (flag : Nat) : Modifiers.Flags { m with ctrlPressed := flag } := ⟨shift, caps⟩
  have held : Modifiers.Flags { m with shiftPressed := 1 } := ⟨Nat.le_refl 1, caps⟩
  have released : Modifiers.Flags { m with shiftPressed := 0 } := ⟨Nat.zero_le 1, caps⟩
  have locks : Modifiers.Flags { m with capsLock := m.capsLock ||| 1 } := by
    refine ⟨shift, ?_⟩
    obtain none | one : m.capsLock = 0 ∨ m.capsLock = 1 := by omega
    · simp [none]
    · simp [one]
  refine .of_ite (alt 1) (.of_ite (alt 0) (.of_ite (ctrl 1) (.of_ite (ctrl 0) (.of_ite held
    (.of_ite released (.of_ite held (.of_ite released (.of_ite locks ?_)))))))) pressed
  intro none
  cases none

end Lines

section History

variable {s : Console} {t : TerminalId}

/-- A key that sets no flag. -/
theorem press_eq_none (m : Modifiers) {input : UInt8}
    (plain : input ∉ [LALT_PRESSED, LALT_RELEASED, LCTRL_PRESSED, LCTRL_RELEASED, LSHIFT_PRESSED,
      LSHIFT_RELEASED, RSHIFT_PRESSED, RSHIFT_RELEASED, CAPS]) : m.press input = none := by
  simp only [List.mem_cons, List.not_mem_nil, or_false, not_or] at plain
  simp only [Modifiers.press, plain, if_false]

theorem press_backspace (m : Modifiers) : m.press BACKSPACE = none :=
  press_eq_none m (by decide)

/-- What a key does to the line of a terminal. -/
theorem Console.step_key_line (s : Console) (input : UInt8) (t : TerminalId) :
    (s.step (.key input)).line t =
      if s.currentTerminal ≠ t then s.line t
      else if input = BACKSPACE then (s.line t).eraseLast
      else if s.IsTyped input then (s.line t).type s.modifiers input
      else s.line t := by
  have handled : (s.step (.key input)).line t = (s.driver.handle input).line t :=
    congrArg (fun d => d.line t) (s.step_key_driver input)
  rw [handled]
  unfold Driver.handle
  cases pressed : s.driver.modifiers.press input with
  | some m =>
      have notBackspace : input ≠ BACKSPACE := by
        rintro rfl
        rw [press_backspace] at pressed
        cases pressed
      have notTyped : ¬ s.IsTyped input := fun typed => by
        have none : s.driver.modifiers.press input = none := typed.1
        rw [none] at pressed
        cases pressed
      simp only [if_neg notBackspace, if_neg notTyped, ite_self]
      rfl
  | none =>
      have edited (change : Line → Line) : (s.driver.edit change).line t =
          if s.currentTerminal ≠ t then s.line t else change (s.line t) := by
        by_cases shown : s.currentTerminal = t
        · subst shown
          simp [Driver.edit]
        · simp [Driver.edit, shown, Ne.symm shown]
      dsimp only
      by_cases isBackspace : input = BACKSPACE
      · simp only [if_pos isBackspace, edited]
      · by_cases inTable : input < KEYBOARD_KEY_NUMBER
        · have typed : s.IsTyped input := ⟨pressed, isBackspace, inTable⟩
          simp only [if_neg isBackspace, if_pos inTable, if_pos typed, edited,
            Keyboard.driver_modifiers]
        · have notTyped : ¬ s.IsTyped input := fun typed => inTable typed.2.2
          simp only [if_neg isBackspace, if_neg inTable, if_neg notTyped, ite_self,
            Keyboard.driver_line]

/-- `overflow` goes the way of the surplus. -/
theorem Console.step_overflow (s : Console) (event : Event) (t : TerminalId) :
    ((s.step event).line t).overflow = surplus t s event (s.line t).overflow := by
  cases event with
  | key input =>
      rw [s.step_key_line]
      simp only [surplus]
      split_ifs with elsewhere isBackspace typed ends ends
      · rfl
      · exact (s.line t).eraseLast_overflow
      · rw [Line.type_overflow, if_pos ends.2]
      · rw [Line.type_overflow, if_neg fun full => ends ⟨typed, full⟩]
      · exact absurd ends.1 typed
      · rfl
  | schedule interrupted | call call => rfl
  | read =>
      simp only [step, surplus]
      by_cases active : t = s.activeTerminal
      · subst active
        rw [Function.update_self]
        unfold Reader.step
        split <;> rfl
      · rw [Function.update_of_ne active]

/-- The console writes of the handler. -/
theorem onDisplay_sound {k : Keyboard} (sound : Sound k.kernel) (action : Action)
    {change : Display → Display} (able : k.kernel.able action)
    (writes : (k.onDisplay change).kernel = k.kernel.step none action)
    (calm : ¬ Faulting k.kernel action) : Sound (k.onDisplay change).kernel := by
  have outcome : Outcome none k.kernel action (k.kernel.step none action) :=
    State.step_outcome sound able
  rw [writes]
  exact (outcome.sound sound).resolve_left fun faults => calm faults.1

theorem keyboardHandler_sound {k : Keyboard} (sound : Sound k.kernel) (input : UInt8) :
    (k.keyboardHandler input).kernel.faulted = true ∨ Sound (k.keyboardHandler input).kernel := by
  have noFault {k : Keyboard} (sound : Sound k.kernel) : k.kernel.faulted = false :=
    sound.valid.fault
  have shows (t : TerminalId) : (k.kernel.switchToTerminal t).faulted = true ∨
      Sound (k.kernel.switchToTerminal t) := by
    have outcome : Outcome none k.kernel (.switchTo t) (k.kernel.switchToTerminal t) :=
      State.switchTo_outcome sound t
    exact (outcome.sound sound).imp_left And.right
  have echoes (key : UInt8) (clears : Bool) : Sound (k.echo key clears).kernel := by
    have once : Sound (k.onDisplay fun display => display.currentTerminalPutc key).kernel :=
      onDisplay_sound sound (.echo key) ⟨noFault sound, trivial⟩ rfl id
    unfold Keyboard.echo
    split
    · exact onDisplay_sound once .echoClear ⟨noFault once, trivial⟩ rfl id
    · exact once
  unfold Keyboard.keyboardHandler
  split
  · exact .inr sound
  · split_ifs
    · simp only [Keyboard.backspace]
      split_ifs
      · exact .inr sound
      · exact .inr (onDisplay_sound (k := k.setLine _ _) sound .echoBack
          ⟨noFault sound, trivial⟩ rfl id)
      · exact .inr sound
    · exact .inr (echoes _ _)
    · exact shows .terminal1
    · exact shows .terminal2
    · exact shows .terminal3
    · exact .inr sound

/-- What every history leaves behind, unless it ends in an exception. -/
structure Usable (s : Console) : Prop where
  sound : Sound s.kernel
  flags : s.modifiers.Flags
  settled : ∀ t, Settled (s.line t) (s.reader t)

theorem Touched.settled {event : Event} {line : Line} {r : Reader}
    (touched : Touched s event t line r) (settled : Settled (s.line t) (s.reader t)) :
    Settled line r := by
  cases touched with
  | same => exact settled
  | erase isBackspace shown => exact ⟨settled.inside.eraseLast, settled.at_.eraseLast⟩
  | type isKey press notBackspace inTable shown =>
      exact ⟨settled.inside.type _ _, settled.at_.type _ _⟩
  | call isCall active free => exact settled.enter free _
  | read isRead active running => exact settled.step

theorem Usable.step (usable : Usable s) {event : Event} (able : s.able event) :
    (s.step event).kernel.faulted = true ∨ Usable (s.step event) := by
  have settled (t : TerminalId) : Settled ((s.step event).line t) ((s.step event).reader t) :=
    (Console.touched able t).settled (usable.settled t)
  cases event with
  | key input =>
      refine (keyboardHandler_sound usable.sound input).imp_right fun sound => ?_
      refine ⟨sound, ?_, settled⟩
      have modifiers : (s.step (.key input)).modifiers = (s.driver.handle input).modifiers :=
        congrArg Driver.modifiers (s.step_key_driver input)
      rw [modifiers]
      unfold Driver.handle
      cases pressed : s.driver.modifiers.press input with
      | some m => exact usable.flags.press pressed
      | none =>
          dsimp only
          split_ifs <;> exact usable.flags
  | schedule interrupted =>
      have outcome : Outcome none s.kernel (.schedule interrupted)
          (s.kernel.schedule interrupted) :=
        State.schedule_outcome usable.sound interrupted
      exact (outcome.sound usable.sound).imp And.right
        fun sound => ⟨sound, usable.flags, settled⟩
  | call call => exact .inr ⟨usable.sound, usable.flags, settled⟩
  | read => exact .inr ⟨usable.sound, usable.flags, settled⟩

theorem entry_usable {bootBlock : Option Filesystem.Image} (on : PowerOn s.kernel)
    (loaded : Loaded s) (buffers : TerminalId → List UInt8) :
    Usable (s.entry bootBlock buffers) where
  sound := (on.entry_fresh bootBlock buffers).1.sound
  flags := by
    have clear : (s.entry bootBlock buffers).modifiers = ⟨0, 0, 0, 0⟩ := loaded.modifiers
    rw [clear]
    exact ⟨Nat.zero_le 1, Nat.zero_le 1⟩
  settled t := by
    have idle : ((s.entry bootBlock buffers).reader t).pc = .idle := loaded.reader t
    refine ⟨.empty (s.line t), ?_⟩
    rw [idle]
    exact ⟨rfl, rfl⟩

theorem usable_of_run {bootBlock : Option Filesystem.Image} (on : PowerOn s.kernel)
    (loaded : Loaded s) {buffers : TerminalId → List UInt8} {events : List Event}
    {later : Console} (run : console.Run (s.entry bootBlock buffers) events later)
    (running : later.kernel.faulted = false) : Usable later := by
  refine (run.invariant (I := fun s => s.kernel.faulted = true ∨ Usable s) ?_
    (.inr (entry_usable on loaded buffers))).resolve_left (by simp [running])
  intro s event holds able
  exact (holds.resolve_left (by simp [able.1])).step able

/-- The surplus of a history is what it leaves in `overflow`. -/
theorem surplus_of_run {bootBlock : Option Filesystem.Image} {buffers : TerminalId → List UInt8}
    {events : List Event} {later : Console}
    (run : console.Run (s.entry bootBlock buffers) events later) (t : TerminalId) :
    console.record (surplus t) (s.entry bootBlock buffers) events 0 =
      (later.line t).overflow :=
  run.record_eq (I := fun _ => True) (fun s => (s.line t).overflow) (fun _ _ _ _ => trivial)
    (fun s event _ _ => s.step_overflow event t) trivial

end History

end LightOS.Terminal
