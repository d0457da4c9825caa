import LightOS.Terminal.Read

/-! # Bounds of the keyboard buffer

The size of a line stays between 0 and 128, whatever is typed and whoever reads.  The size
128 is reached by typing 128 characters, and nothing but Enter is checked against it: the
next character goes to index 128, which is the low byte of the size, and the size starts
again behind the code of that character.
-/

namespace LightOS.Terminal

open Lib Kernel

/-- The size of a line is one that its 128 characters allow. -/
def Line.Inside (line : Line) : Prop :=
  0 ≤ line.keyboardBufferSize ∧ line.keyboardBufferSize ≤ KEYBOARD_BUFFER_SIZE

/-- Whether the handler takes the byte for a key of its table. -/
def Keyboard.IsTyped (s : Keyboard) (input : UInt8) : Prop :=
  s.modifiers.press input = none ∧ input ≠ BACKSPACE ∧ input < KEYBOARD_KEY_NUMBER

instance (s : Keyboard) (input : UInt8) : Decidable (s.IsTyped input) :=
  inferInstanceAs (Decidable (_ ∧ _ ∧ _))

/-- The index of the store that the handler makes into `key_buf`. -/
def Keyboard.storeIndex (s : Keyboard) (input : UInt8) : Option Int :=
  if s.IsTyped input then
    let line := s.line s.currentTerminal
    line.storeIndex (line.branch s.modifiers (s.modifiers.key input))
  else none

/-- The index of the load that the next statement of `terminal_read` makes from `key_buf`. -/
def Reader.loadIndex (r : Reader) : Option Nat :=
  if r.pc = .copy ∧ r.index < r.n then some r.index else none

/-- The accesses that an event makes to `key_buf` stay inside it. -/
def AccessesInside (s : Console) : Event → Prop
  | .key input => ∀ index, s.storeIndex input = some index →
      0 ≤ index ∧ index < KEYBOARD_BUFFER_SIZE
  | .read => ∀ index, (s.reader s.activeTerminal).loadIndex = some index →
      index < KEYBOARD_BUFFER_SIZE
  | _ => True

/-- A key that is neither Enter nor Ctrl-L, for a line that a reader waits for. -/
def Line.Takes (line : Line) (m : Modifiers) (key : UInt8) : Prop :=
  key ≠ NEWLINE ∧ ¬ ((key = 0x6C ∨ key = 0x4C) ∧ m.ctrlPressed ≠ 0) ∧
    line.keyboardBufferEnable ≠ 0

/-- Such a key for a full line. -/
def Overruns (s : Console) : Event → Prop
  | .key input =>
      let line := s.line s.currentTerminal
      s.IsTyped input ∧ line.Takes s.modifiers (s.modifiers.key input) ∧
        line.keyboardBufferSize = KEYBOARD_BUFFER_SIZE
  | _ => False

section Keys

/-- The table holds 7-bit characters. -/
theorem keyAt_small (mode : Nat) (input : UInt8) : (keyAt mode input).toNat < 128 := by
  have table : (scancode.all fun row => row.all fun c => c.toNat < 128) = true := by rfl
  simp only [List.all_eq_true, decide_eq_true_eq] at table
  have small : ((scancode.getD mode []).getD input.toNat '\x00').toNat < 128 := by
    simp only [List.getD_eq_getElem?_getD]
    cases row_eq : scancode[mode]? with
    | none =>
        rw [Option.getD_none, List.getElem?_nil, Option.getD_none]
        decide
    | some row =>
        rw [Option.getD_some]
        cases c_eq : row[input.toNat]? with
        | none =>
            rw [Option.getD_none]
            decide
        | some c =>
            exact table row (List.mem_of_getElem? row_eq) c (List.mem_of_getElem? c_eq)
  rw [keyAt, UInt8.toNat_ofNat_of_lt' (Nat.lt_trans small (by decide))]
  exact small

variable {line : Line} {m : Modifiers} {key : UInt8}

theorem Line.branch_append_iff : line.branch m key = .append ↔ line.Takes m key := by
  unfold Line.branch
  split_ifs with clears full enters appends
  · exact iff_of_false (by simp) fun takes => takes.2.1 clears
  · exact iff_of_false (by simp) fun takes => takes.1 full.2.2
  · exact iff_of_false (by simp) fun takes => takes.1 enters.1
  · exact iff_of_true rfl ⟨fun enter => enters ⟨enter, appends⟩, clears, appends⟩
  · exact iff_of_false (by simp) fun takes => appends takes.2.2

/-- Enter is stored behind the line only where there is room. -/
theorem Line.branch_enter (branch : line.branch m key = .enter) :
    line.keyboardBufferSize < KEYBOARD_BUFFER_SIZE := by
  unfold Line.branch at branch
  split_ifs at branch with clears full enters
  by_contra filled
  exact full ⟨Int.not_lt.mp filled, enters.2, enters.1⟩

theorem Line.Inside.empty (line : Line) : Line.Inside { line with keyboardBufferSize := 0 } :=
  ⟨Int.le_refl 0, Int.natCast_nonneg _⟩

theorem Line.Inside.eraseLast (inside : line.Inside) : line.eraseLast.Inside := by
  unfold Inside Line.eraseLast at *
  split_ifs
  · exact inside
  · simp only
    omega
  · exact inside

/-- A store by an ordinary key.  Past a full line the size is the code of the key. -/
theorem Line.Inside.storeKey (inside : line.Inside) (byte : UInt8) (small : byte.toNat < 128) :
    0 ≤ (line.storeKey line.keyboardBufferSize byte).keyboardBufferSize ∧
      (line.storeKey line.keyboardBufferSize byte).keyboardBufferSize < KEYBOARD_BUFFER_SIZE := by
  obtain ⟨nonneg, atMost⟩ := inside
  simp only [KEYBOARD_BUFFER_SIZE] at atMost
  unfold Line.storeKey KEYBOARD_BUFFER_SIZE
  split_ifs with room full
  · exact room
  · simp only [full]
    omega
  · omega

theorem Line.Inside.type (inside : line.Inside) (m : Modifiers) (input : UInt8) :
    (line.type m input).Inside := by
  unfold Line.type
  cases branch_eq : line.branch m (m.key input) with
  | clear => exact .empty line
  | enterFull => exact inside
  | enter =>
      obtain ⟨nonneg, less⟩ := inside.storeKey NEWLINE (by decide)
      constructor <;> simp only [Line.apply, Line.storeIndex, reduceCtorEq, if_false] <;> omega
  | append =>
      obtain ⟨nonneg, less⟩ := inside.storeKey (m.key input) (keyAt_small _ input)
      constructor <;> simp only [Line.apply, Line.storeIndex, if_true] <;> omega
  | dropped => exact inside

end Keys

/-- What carries the bounds along a run: the size, and the length that a reader has taken. -/
structure Bounded (line : Line) (r : Reader) : Prop where
  size : line.Inside
  length : r.pc = .copy → r.n ≤ KEYBOARD_BUFFER_SIZE

section Bounded

variable {s : Console} {event : Event} {line : Line} {r : Reader}

theorem Line.Inside.toUint32 (inside : line.Inside) :
    Lib.toUint32 line.keyboardBufferSize = line.keyboardBufferSize.toNat ∧
      line.keyboardBufferSize.toNat ≤ KEYBOARD_BUFFER_SIZE := by
  obtain ⟨nonneg, atMost⟩ := inside
  simp only [KEYBOARD_BUFFER_SIZE] at atMost
  exact ⟨toUint32_nonneg nonneg (by omega), by simp only [KEYBOARD_BUFFER_SIZE]; omega⟩

theorem Bounded.step (bounded : Bounded line r) :
    Bounded (r.step line).1 (r.step line).2 := by
  have size := bounded.size
  obtain ⟨sameSize, few⟩ := size.toUint32
  unfold Reader.step
  cases pc : r.pc with
  | idle | returned => exact bounded
  | enable => exact ⟨size, by simp⟩
  | spin =>
      constructor
      · exact size
      · dsimp only
        split_ifs <;> simp [pc]
  | compare =>
      constructor
      · exact size
      · dsimp only
        split_ifs with longer
        · simp
        · intro _
          simp only
          omega
  | clamp => exact ⟨size, fun _ => by simp only; omega⟩
  | copy =>
      have length := bounded.length pc
      constructor
      · exact size
      · dsimp only
        split_ifs
        · simp
        · exact fun _ => length
        · simp
  | found | reset => exact ⟨.empty line, by simp⟩
  | terminate => exact ⟨size, by simp⟩

theorem Bounded.enter (size : line.Inside) (call : ReadCall) :
    Bounded line (Reader.enter call) where
  size := size
  length := by
    unfold Reader.enter
    split_ifs <;> simp

theorem Touched.bounded {t : TerminalId} (touched : Touched s event t line r)
    (bounded : Bounded (s.line t) (s.reader t)) : Bounded line r := by
  cases touched with
  | same => exact bounded
  | erase isBackspace shown => exact ⟨bounded.size.eraseLast, bounded.length⟩
  | type isKey press notBackspace inTable shown => exact ⟨bounded.size.type _ _, bounded.length⟩
  | call isCall active free => exact .enter bounded.size _
  | read isRead active running => exact bounded.step

theorem Loaded.bounded (loaded : Loaded s) (t : TerminalId) :
    Bounded (s.keyboardInit.line t) (s.keyboardInit.reader t) where
  size := .empty (s.line t)
  length copying := absurd ((loaded.reader t).symm.trans copying) (by simp)

/-- A step stays inside the buffer unless it overruns it. -/
theorem accessesInside_iff (bounded : ∀ t, Bounded (s.line t) (s.reader t)) :
    AccessesInside s event ↔ ¬ Overruns s event := by
  cases event with
  | schedule | call => exact iff_of_true trivial id
  | read =>
      apply iff_of_true _ id
      intro index load
      simp only [Reader.loadIndex] at load
      split_ifs at load with copying
      cases load
      exact Nat.lt_of_lt_of_le copying.2 ((bounded _).length copying.1)
  | key input =>
      obtain ⟨nonneg, atMost⟩ := (bounded s.currentTerminal).size
      by_cases typed : s.IsTyped input
      · simp only [AccessesInside, Overruns, Keyboard.storeIndex, if_pos typed,
          ← Line.branch_append_iff]
        cases branch : (s.line s.currentTerminal).branch s.modifiers (s.modifiers.key input) with
        | clear | dropped => simp [Line.storeIndex]
        | enterFull => simp [Line.storeIndex, KEYBOARD_BUFFER_SIZE]
        | enter => simp [Line.storeIndex, nonneg, Line.branch_enter branch]
        | append =>
            simp only [Line.storeIndex, Option.some.injEq, forall_eq', nonneg, typed, true_and]
            omega
      · simp [AccessesInside, Overruns, Keyboard.storeIndex, typed]

/-- In every run from `keyboard_init` on, the sizes stay inside the buffers, and the accesses
    to the buffers do exactly as long as no ordinary key reaches a full line. -/
theorem buffers_inside_iff (loaded : Loaded s) {events : List Event} {later : Console}
    (run : console.Run s.keyboardInit events later) :
    (console.Always (fun s => ∀ t, (s.line t).Inside) s.keyboardInit events ∧
        console.EachStep AccessesInside s.keyboardInit events) ↔
      console.EachStep (fun s event => ¬ Overruns s event) s.keyboardInit events := by
  have preserved (s : Console) (event : Event)
      (bounded : ∀ t, Bounded (s.line t) (s.reader t)) (able : s.able event) (t : TerminalId) :
      Bounded ((s.step event).line t) ((s.step event).reader t) :=
    (Console.touched able t).bounded (bounded t)
  constructor
  · rintro ⟨_, accesses⟩
    apply run.eachStep (I := fun s => ∀ t, Bounded (s.line t) (s.reader t)) _ _ loaded.bounded
      accesses
    · exact fun s event bounded able _ => preserved s event bounded able
    · exact fun s event bounded _ inside => (accessesInside_iff bounded).mp inside
  · intro noOverrun
    constructor
    · apply run.always (I := fun s => ∀ t, Bounded (s.line t) (s.reader t)) preserved _
        loaded.bounded
      exact fun s bounded t => (bounded t).size
    · apply run.eachStep (I := fun s => ∀ t, Bounded (s.line t) (s.reader t)) _ _ loaded.bounded
        noOverrun
      · exact fun s event bounded able _ => preserved s event bounded able
      · exact fun s event bounded _ inside => (accessesInside_iff bounded).mpr inside

end Bounded

/-! ## A full line -/

section Full

variable {s : Console}

/-- The key A. -/
def keyA : UInt8 := 0x1E

/-- Typing the letter, with no modifier, while a reader waits. -/
structure Typing (s : Console) (size : Nat) : Prop where
  mapped : s.kernel.display.Mapped
  modifiers : s.modifiers = ⟨0, 0, 0, 0⟩
  enable : (s.line s.currentTerminal).keyboardBufferEnable = 1
  size : (s.line s.currentTerminal).keyboardBufferSize = size

theorem Typing.isTyped {size : Nat} (typing : Typing s size) : s.IsTyped keyA := by
  unfold Keyboard.IsTyped
  rw [typing.modifiers]
  decide

theorem Typing.branch {size : Nat} (typing : Typing s size) :
    (s.line s.currentTerminal).branch s.modifiers (s.modifiers.key keyA) = .append := by
  rw [Line.branch_append_iff, Line.Takes, typing.modifiers, typing.enable]
  decide

theorem Typing.next {size : Nat} (typing : Typing s size) (room : size < KEYBOARD_BUFFER_SIZE) :
    Typing (s.step (.key keyA)) (size + 1) := by
  obtain ⟨press, notBackspace, inTable⟩ := typing.isTyped
  have handled : (s.step (.key keyA)).driver =
      s.driver.edit (fun line => line.type s.modifiers keyA) := by
    refine (s.keyboardHandler_driver keyA).trans ?_
    unfold Driver.handle
    rw [Keyboard.driver_modifiers, press]
    simp only [if_neg notBackspace, if_pos inTable]
  have current : (s.step (.key keyA)).currentTerminal = s.currentTerminal :=
    congrArg Driver.currentTerminal handled
  have line : (s.step (.key keyA)).line s.currentTerminal =
      (s.line s.currentTerminal).apply .append (s.modifiers.key keyA) := by
    have edited := congrArg (fun driver => driver.line s.currentTerminal) handled
    simp only [Driver.edit, Keyboard.driver_currentTerminal, Function.update_self,
      Keyboard.driver_line, Line.type, typing.branch] at edited
    exact edited
  have inside : 0 ≤ (s.line s.currentTerminal).keyboardBufferSize ∧
      (s.line s.currentTerminal).keyboardBufferSize < KEYBOARD_BUFFER_SIZE := by
    rw [typing.size]
    omega
  constructor
  · exact Console.step_mapped (.key keyA) typing.mapped (by decide)
  · exact (congrArg Driver.modifiers handled).trans typing.modifiers
  · rw [current, line, Line.apply_append inside]
    exact typing.enable
  · rw [current, line, Line.apply_append inside, typing.size]
    rfl

theorem Typing.run {size : Nat} (typing : Typing s size) (count : Nat)
    (room : size + count ≤ KEYBOARD_BUFFER_SIZE) :
    ∃ later, console.Run s (List.replicate count (.key keyA)) later ∧
      Typing later (size + count) := by
  induction count generalizing s size with
  | zero => exact ⟨s, .nil s, typing⟩
  | succ count ih =>
      obtain ⟨later, run, typed⟩ := ih (typing.next (by omega)) (by omega)
      refine ⟨later, .cons ⟨typing.mapped.fault, trivial⟩ run, ?_⟩
      have sum : size + (count + 1) = size + 1 + count := by omega
      rwa [sum]

/-- A call that has made its first statement. -/
theorem poweredConsole_typing : ∃ waiting, console.Run poweredConsole.keyboardInit
    [.call ⟨0x08000000, 128, fun _ => 0⟩, .read] waiting ∧ Typing waiting 0 := by
  refine ⟨_, .cons ⟨poweredConsole_mapped.fault, rfl⟩ (.cons ⟨poweredConsole_mapped.fault, ?_⟩
    (.nil _)), ?_⟩
  · rfl
  · exact ⟨poweredConsole_mapped, rfl, rfl, rfl⟩

end Full

/-- 129 letters are typed while `terminal_read` waits. -/
theorem letter_after_full_line_is_stored_outside :
    Loaded poweredConsole ∧ ∃ later,
      console.Run poweredConsole.keyboardInit
        ([.call ⟨0x08000000, 128, fun _ => 0⟩, .read] ++
          (List.replicate 128 (.key keyA) ++ [.key keyA])) later ∧
      ¬ console.EachStep AccessesInside poweredConsole.keyboardInit
        ([.call ⟨0x08000000, 128, fun _ => 0⟩, .read] ++
          (List.replicate 128 (.key keyA) ++ [.key keyA])) := by
  obtain ⟨waiting, started, typing⟩ := poweredConsole_typing
  obtain ⟨full, filled, typed⟩ := typing.run 128 (by decide)
  refine ⟨poweredConsole_loaded, _, started.append
    (filled.append (.cons ⟨typed.mapped.fault, trivial⟩ (.nil _))), ?_⟩
  rw [started.eachStep_append, filled.eachStep_append]
  rintro ⟨_, _, inside, _⟩
  have index : full.storeIndex keyA = some 128 := by
    rw [Keyboard.storeIndex, if_pos typed.isTyped]
    simp only [typed.branch, Line.storeIndex, typed.size]
    rfl
  exact absurd (inside 128 index).2 (by decide)

/-- 128 letters fill the line. -/
theorem full_line_stays_inside :
    (console.Always (fun s => ∀ t, (s.line t).Inside) poweredConsole.keyboardInit
          ([.call ⟨0x08000000, 128, fun _ => 0⟩, .read] ++ List.replicate 128 (.key keyA)) ∧
        console.EachStep AccessesInside poweredConsole.keyboardInit
          ([.call ⟨0x08000000, 128, fun _ => 0⟩, .read] ++ List.replicate 128 (.key keyA))) ↔
      console.EachStep (fun s event => ¬ Overruns s event) poweredConsole.keyboardInit
        ([.call ⟨0x08000000, 128, fun _ => 0⟩, .read] ++ List.replicate 128 (.key keyA)) := by
  obtain ⟨waiting, started, typing⟩ := poweredConsole_typing
  obtain ⟨full, filled, _⟩ := typing.run 128 (by decide)
  exact buffers_inside_iff poweredConsole_loaded (started.append filled)

end LightOS.Terminal
