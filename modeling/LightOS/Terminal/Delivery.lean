import LightOS.Terminal.Bounds

/-! # What `terminal_read` delivers

Between Enter and the end of a call nothing is added to the line, since
`keyboard_buffer_enable` is 0; it may still get shorter.  As long as it is not empty when the
call takes its length, the caller is given a part of it that ends with a newline, and
nothing else is stored.
-/

namespace LightOS.Terminal

open Lib Kernel

/-- The characters in front of `count`. -/
def Line.chars (line : Line) (count : Nat) : List UInt8 := (List.range count).map line.keyBuf

/-- What the caller finds when `terminal_read` has returned `value`. -/
structure Reader.Delivered (r : Reader) (value : Int) : Prop where
  positive : 1 ≤ value
  atMost : value ≤ r.call.n.toNat
  newline : r.memory (r.call.buf + UInt32.ofNat (value.toNat - 1)) = NEWLINE
  elsewhere : ∀ address, (∀ i < value.toNat, address ≠ r.call.buf + UInt32.ofNat i) →
    r.memory address = r.call.memory address

/-- Every call with a buffer that has returned has delivered. -/
def Delivers (s : Console) : Prop :=
  ∀ t value, (s.reader t).pc = .returned value → (s.reader t).call.buf ≠ 0 →
    (s.reader t).call.n ≠ 0 → (s.reader t).Delivered value

/-- `n = keyboard_buffer_size`, when the line has become empty. -/
def ClampsEmpty (s : Console) : Event → Prop
  | .read => (s.reader s.activeTerminal).pc = .clamp ∧
      (s.line s.activeTerminal).keyboardBufferSize = 0
  | _ => False

section Lines

variable {line after : Line}

@[simp] theorem Line.chars_length (line : Line) (count : Nat) :
    (line.chars count).length = count := by
  rw [chars, List.length_map, List.length_range]

theorem Line.chars_succ (line : Line) (count : Nat) :
    line.chars (count + 1) = line.chars count ++ [line.keyBuf count] := by
  rw [chars, List.range_succ, List.map_append, List.map_cons, List.map_nil, chars]

theorem Line.chars_congr (same : after.keyBuf = line.keyBuf) (count : Nat) :
    after.chars count = line.chars count := by
  rw [chars, same, chars]

/-- A line that nobody waits for is not added to. -/
def Line.Calm (before after : Line) : Prop :=
  before.keyboardBufferEnable = 0 → after.keyboardBufferEnable = 0 ∧
    after.keyBuf = before.keyBuf ∧ after.keyboardBufferSize ≤ before.keyboardBufferSize

theorem Line.Calm.eraseLast (line : Line) : line.Calm line.eraseLast := by
  intro calm
  unfold Line.eraseLast
  split_ifs
  · exact ⟨calm, rfl, Int.le_refl _⟩
  · exact ⟨calm, rfl, Int.sub_le_self _ (by decide)⟩
  · exact ⟨calm, rfl, Int.le_refl _⟩

theorem Line.Calm.type (inside : line.Inside) (m : Modifiers) (input : UInt8) :
    line.Calm (line.type m input) := by
  intro calm
  unfold Line.type Line.branch
  rw [calm]
  split_ifs with clears full enters appends
  · exact ⟨calm, rfl, inside.1⟩
  · exact absurd rfl full.2.1
  · exact absurd rfl enters.2
  · exact absurd rfl appends
  · exact ⟨calm, rfl, Int.le_refl _⟩

end Lines

/-- What holds of a call at each of its statements. -/
def ReadingAt (line : Line) (r : Reader) : ReadPc → Prop
  | .idle => True
  | .enable | .spin => r.n = r.call.n.toNat ∧ 1 ≤ r.n ∧ r.memory = r.call.memory
  | .compare => line.keyboardBufferEnable = 0 ∧
      r.n = r.call.n.toNat ∧ 1 ≤ r.n ∧ r.memory = r.call.memory
  | .clamp => line.keyboardBufferEnable = 0 ∧ line.keyboardBufferSize < r.n ∧
      r.n = r.call.n.toNat ∧ r.memory = r.call.memory
  | .copy => line.keyboardBufferEnable = 0 ∧ 1 ≤ r.n ∧ r.n ≤ r.call.n.toNat ∧
      r.n ≤ KEYBOARD_BUFFER_SIZE ∧ r.index ≤ r.n ∧ NEWLINE ∉ line.chars r.index ∧
      r.memory = overlay r.call.memory r.call.buf (line.chars r.index)
  | .found => line.keyboardBufferEnable = 0 ∧ r.index < r.n ∧ r.n ≤ r.call.n.toNat ∧
      r.n ≤ KEYBOARD_BUFFER_SIZE ∧ NEWLINE ∉ line.chars r.index ∧ line.keyBuf r.index = NEWLINE ∧
      r.memory = overlay r.call.memory r.call.buf (line.chars r.index ++ [NEWLINE])
  | .terminate => line.keyboardBufferEnable = 0 ∧ 1 ≤ r.n ∧ r.n ≤ r.call.n.toNat ∧
      r.n ≤ KEYBOARD_BUFFER_SIZE ∧ NEWLINE ∉ line.chars r.n ∧
      r.memory = overlay r.call.memory r.call.buf (line.chars r.n)
  | .reset => line.keyboardBufferEnable = 0 ∧ 1 ≤ r.n ∧ r.n ≤ r.call.n.toNat ∧
      r.n ≤ KEYBOARD_BUFFER_SIZE ∧ NEWLINE ∉ line.chars r.n ∧
      r.memory = overlay r.call.memory r.call.buf (line.chars (r.n - 1) ++ [NEWLINE])
  | .returned value => r.call.buf ≠ 0 → r.call.n ≠ 0 → ∃ front : List UInt8,
      value = front.length + 1 ∧ front.length < r.call.n.toNat ∧
      front.length < KEYBOARD_BUFFER_SIZE ∧
      r.memory = overlay r.call.memory r.call.buf (front ++ [NEWLINE])

/-- A line and a call on it, at any time. -/
structure Reading (line : Line) (r : Reader) : Prop where
  size : line.Inside
  flag : line.keyboardBufferEnable ≤ 1
  at_ : ReadingAt line r r.pc

section Reading

variable {s : Console} {event : Event} {line after : Line} {r : Reader}

/-- The keyboard does not disturb a call. -/
theorem ReadingAt.calm {pc : ReadPc} (reading : ReadingAt line r pc) (calm : line.Calm after) :
    ReadingAt after r pc := by
  cases pc with
  | idle | enable | spin | returned => exact reading
  | compare => exact ⟨(calm reading.1).1, reading.2⟩
  | clamp =>
      obtain ⟨disabled, shorter, rest⟩ := reading
      exact ⟨(calm disabled).1, Int.lt_of_le_of_lt (calm disabled).2.2 shorter, rest⟩
  | copy | found | terminate | reset =>
      obtain ⟨disabled, rest⟩ := reading
      obtain ⟨stays, same, _⟩ := calm disabled
      refine ⟨stays, ?_⟩
      simpa only [Line.chars_congr same, same] using rest

/-- Storing the newline over the last character. -/
theorem overlay_last (memory : UInt32 → UInt8) (buf : UInt32) {front : List UInt8}
    (small : front.length < 2 ^ 32) (last byte : UInt8) :
    Function.update (overlay memory buf (front ++ [last]))
        (buf + UInt32.ofNat front.length) byte =
      overlay memory buf (front ++ [byte]) := by
  rw [overlay_concat small, overlay_concat small, Function.update_idem]

theorem ofNat_sub_one {n : Nat} (positive : 1 ≤ n) :
    UInt32.ofNat n - 1 = UInt32.ofNat (n - 1) := by
  obtain ⟨k, rfl⟩ := Nat.exists_eq_add_of_le' positive
  rw [Nat.add_sub_cancel, UInt32.ofNat_add]
  exact UInt32.add_sub_cancel _ _

/-- Every statement leads to what holds at the next one, but for an empty line at the
    clamp. -/
theorem Reading.step (reading : Reading line r)
    (notEmpty : ¬ (r.pc = .clamp ∧ line.keyboardBufferSize = 0)) :
    Reading (r.step line).1 (r.step line).2 := by
  obtain ⟨size, flag, here⟩ := reading
  obtain ⟨sameSize, few⟩ := size.toUint32
  unfold Reader.step
  cases pc : r.pc with
  | idle | returned => exact ⟨size, flag, here⟩
  | enable =>
      rw [pc] at here
      exact ⟨size, Nat.le_refl 1, here⟩
  | spin =>
      rw [pc] at here
      refine ⟨size, flag, ?_⟩
      by_cases waiting : line.keyboardBufferEnable = 1
      · simp only [if_pos waiting, pc]
        exact here
      · simp only [if_neg waiting]
        exact ⟨by omega, here⟩
  | compare =>
      rw [pc] at here
      obtain ⟨disabled, length, positive, memory⟩ := here
      refine ⟨size, flag, ?_⟩
      by_cases longer : toUint32 line.keyboardBufferSize < r.n
      · have nonneg := size.1
        have shorter : line.keyboardBufferSize < r.n := by omega
        simp only [if_pos longer]
        exact ⟨disabled, shorter, length, memory⟩
      · have short : r.n ≤ KEYBOARD_BUFFER_SIZE := by omega
        simp only [if_neg longer]
        exact ⟨disabled, positive, Nat.le_of_eq length, short, Nat.zero_le _, by simp [Line.chars],
          memory⟩
  | clamp =>
      rw [pc] at here
      obtain ⟨disabled, shorter, length, memory⟩ := here
      have positive : line.keyboardBufferSize ≠ 0 := fun empty => notEmpty ⟨pc, empty⟩
      have nonneg := size.1
      have some : 1 ≤ toUint32 line.keyboardBufferSize := by omega
      have room : toUint32 line.keyboardBufferSize ≤ r.call.n.toNat := by omega
      have short : toUint32 line.keyboardBufferSize ≤ KEYBOARD_BUFFER_SIZE := by omega
      exact ⟨size, flag, disabled, some, room, short, Nat.zero_le _, by simp [Line.chars], memory⟩
  | copy =>
      rw [pc] at here
      obtain ⟨disabled, positive, length, small, inside, noNewline, memory⟩ := here
      refine ⟨size, flag, ?_⟩
      by_cases more : r.index < r.n
      · have stored : (r.store (.ofNat r.index) (line.keyBuf r.index)).memory =
            overlay r.call.memory r.call.buf (line.chars (r.index + 1)) := by
          simp only [KEYBOARD_BUFFER_SIZE] at small
          rw [Line.chars_succ, overlay_concat (by rw [Line.chars_length]; omega), Line.chars_length,
            ← memory]
          rfl
        by_cases newline : line.keyBuf r.index = NEWLINE
        · simp only [if_pos more, if_pos newline]
          refine ⟨disabled, more, length, small, noNewline, newline, ?_⟩
          exact stored.trans (by rw [Line.chars_succ, newline]; rfl)
        · simp only [if_pos more, if_neg newline]
          refine ⟨disabled, positive, length, small, more, ?_, stored⟩
          rw [Line.chars_succ, List.mem_append, List.mem_singleton]
          exact fun member => member.elim noNewline (fun same => newline same.symm)
      · simp only [if_neg more]
        obtain ended : r.index = r.n := by omega
        rw [ended] at noNewline memory
        exact ⟨disabled, positive, length, small, noNewline, memory⟩
  | found =>
      rw [pc] at here
      obtain ⟨disabled, inside, length, small, noNewline, newline, memory⟩ := here
      have room : r.index < r.call.n.toNat := by omega
      have short : r.index < KEYBOARD_BUFFER_SIZE := by omega
      refine ⟨.empty line, flag, fun _ _ => ⟨line.chars r.index, ?_, ?_, ?_, memory⟩⟩ <;>
        rw [Line.chars_length]
      · exact room
      · exact short
  | terminate =>
      rw [pc] at here
      obtain ⟨disabled, positive, length, small, noNewline, memory⟩ := here
      have stored : (r.store (.ofNat r.n - 1) NEWLINE).memory =
          overlay r.call.memory r.call.buf (line.chars (r.n - 1) ++ [NEWLINE]) := by
        obtain ⟨k, n_eq⟩ := Nat.exists_eq_add_of_le' positive
        simp only [KEYBOARD_BUFFER_SIZE] at small
        have last := overlay_last r.call.memory r.call.buf
          (show (line.chars k).length < 2 ^ 32 by rw [Line.chars_length]; omega) (line.keyBuf k)
          NEWLINE
        rw [n_eq, Line.chars_succ] at memory
        rw [← memory, Line.chars_length] at last
        rw [ofNat_sub_one positive, n_eq, Nat.add_sub_cancel]
        exact last
      exact ⟨size, flag, disabled, positive, length, small, noNewline, stored⟩
  | reset =>
      rw [pc] at here
      obtain ⟨disabled, positive, length, small, noNewline, memory⟩ := here
      have room : r.n - 1 < r.call.n.toNat := by omega
      have short : r.n - 1 < KEYBOARD_BUFFER_SIZE := by omega
      have value : toInt32 r.n = ((r.n - 1 : Nat) : Int) + 1 := by
        simp only [KEYBOARD_BUFFER_SIZE] at small
        rw [toInt32_small (by omega)]
        omega
      refine ⟨.empty line, flag, fun _ _ => ⟨line.chars (r.n - 1), ?_, ?_, ?_, memory⟩⟩ <;>
        rw [Line.chars_length]
      · exact value
      · exact room
      · exact short

theorem Line.flag_eraseLast (flag : line.keyboardBufferEnable ≤ 1) :
    line.eraseLast.keyboardBufferEnable ≤ 1 := by
  unfold Line.eraseLast
  split_ifs <;> exact flag

theorem Line.flag_type (flag : line.keyboardBufferEnable ≤ 1) (m : Modifiers) (input : UInt8) :
    (line.type m input).keyboardBufferEnable ≤ 1 := by
  have stored (index : Int) (byte : UInt8) :
      (line.storeKey index byte).keyboardBufferEnable ≤ 1 := by
    unfold Line.storeKey
    split_ifs <;> exact flag
  unfold Line.type
  cases line.branch m (m.key input) with
  | clear | dropped => exact flag
  | enterFull | enter => exact Nat.zero_le 1
  | append => exact stored _ _

theorem Reading.enter (size : line.Inside) (flag : line.keyboardBufferEnable ≤ 1)
    (call : ReadCall) : Reading line (Reader.enter call) := by
  refine ⟨size, flag, ?_⟩
  unfold Reader.enter
  split_ifs with null none
  · exact fun buffer => absurd null buffer
  · exact fun _ some => absurd none some
  · refine ⟨rfl, ?_, rfl⟩
    have positive : call.n.toNat ≠ 0 := fun zero => none (UInt32.toNat_inj.mp zero)
    simp only
    omega

theorem Touched.reading {t : TerminalId} (touched : Touched s event t line r)
    (reading : Reading (s.line t) (s.reader t)) (notEmpty : ¬ ClampsEmpty s event) :
    Reading line r := by
  obtain ⟨size, flag, here⟩ := reading
  cases touched with
  | same => exact ⟨size, flag, here⟩
  | erase isBackspace shown =>
      exact ⟨size.eraseLast, Line.flag_eraseLast flag, here.calm (.eraseLast _)⟩
  | type isKey press notBackspace inTable shown =>
      exact ⟨size.type _ _, Line.flag_type flag _ _, here.calm (.type size _ _)⟩
  | call isCall active free => exact .enter size flag _
  | read isRead active running =>
      subst isRead active
      exact Reading.step ⟨size, flag, here⟩ notEmpty

theorem Loaded.reading (loaded : Loaded s) (t : TerminalId) :
    Reading (s.keyboardInit.line t) (s.keyboardInit.reader t) where
  size := .empty (s.line t)
  flag := Nat.zero_le 1
  at_ := by
    have idle : (s.keyboardInit.reader t).pc = .idle := loaded.reader t
    rw [idle]
    trivial

theorem Reading.delivered (reading : Reading line r) {value : Int}
    (returned : r.pc = .returned value) (buffer : r.call.buf ≠ 0) (some : r.call.n ≠ 0) :
    r.Delivered value := by
  have here := reading.at_
  rw [returned] at here
  obtain ⟨front, value_eq, room, small, memory⟩ := here buffer some
  simp only [KEYBOARD_BUFFER_SIZE] at small
  have toNat : value.toNat = front.length + 1 := by omega
  have length : (front ++ [NEWLINE]).length = front.length + 1 := by
    rw [List.length_append, List.length_singleton]
  refine ⟨by omega, by omega, ?_, ?_⟩
  · rw [memory, toNat, Nat.add_sub_cancel, overlay_get (by omega) (by omega)]
    simp
  · intro address outside
    rw [memory, overlay_outside (by omega)]
    rwa [length, ← toNat]

/-- In every run from `keyboard_init` on in which no call takes its length from an empty line,
    every call that returns has delivered. -/
theorem terminalRead_delivers (loaded : Loaded s) {events : List Event} {later : Console}
    (run : console.Run s.keyboardInit events later)
    (notEmpty : console.EachStep (fun s event => ¬ ClampsEmpty s event) s.keyboardInit events) :
    console.Always Delivers s.keyboardInit events := by
  apply run.always_of_each (I := fun s => ∀ t, Reading (s.line t) (s.reader t)) _ _ loaded.reading
    notEmpty
  · exact fun s event reading able filled t =>
      (Console.touched able t).reading (reading t) filled
  · exact fun s reading t value returned buffer some =>
      (reading t).delivered returned buffer some

end Reading

/-! ## An empty line -/

/-- The Enter key. -/
def keyEnter : UInt8 := 0x1C

/-- A buffer of 128 bytes inside the page of the process. -/
def sampleCall : ReadCall := ⟨0x08000100, 128, fun _ => 0⟩

/-- A call, two keys while it waits, and the statements after that. -/
def twoKeys (first second : UInt8) : List Event :=
  [.call sampleCall, .read, .key first, .key second]

/-- The driver while the call waits. -/
def waitingDriver : Driver where
  modifiers := ⟨0, 0, 0, 0⟩
  currentTerminal := .terminal1
  line := Function.update (fun _ => ⟨fun _ => 0, 0, 0, 0⟩) .terminal1 ⟨fun _ => 0, 0, 1, 0⟩

theorem twoKeys_run (first second : UInt8) (stays : first ≠ F1 ∧ first ≠ F2 ∧ first ≠ F3)
    (stays' : second ≠ F1 ∧ second ≠ F2 ∧ second ≠ F3) :
    ∃ typed, console.Run poweredConsole.keyboardInit (twoKeys first second) typed ∧
      console.EachStep (fun s event => ¬ ClampsEmpty s event) poweredConsole.keyboardInit
        (twoKeys first second) ∧
      typed.kernel.faulted = false ∧ typed.activeTerminal = .terminal1 ∧
      typed.driver = (waitingDriver.handle first).handle second ∧
      typed.reader .terminal1 = ⟨.spin, sampleCall, 128, 0, sampleCall.memory⟩ := by
  have entered := Console.step_mapped (.call sampleCall) poweredConsole_mapped trivial
  have enabled := Console.step_mapped .read entered trivial
  have once := Console.step_mapped (.key first) enabled stays
  have twice := Console.step_mapped (.key second) once stays'
  refine ⟨_, .cons ⟨poweredConsole_mapped.fault, rfl⟩ (.cons ⟨entered.fault, rfl⟩
    (.cons ⟨enabled.fault, trivial⟩ (.cons ⟨once.fault, trivial⟩ (.nil _)))),
    ⟨id, ⟨?_, ⟨id, ⟨id, trivial⟩⟩⟩⟩, twice.fault, ?_, ?_, rfl⟩
  · rintro ⟨clamping, _⟩
    cases clamping
  · exact (Console.step_key_activeTerminal _ _).trans (Console.step_key_activeTerminal _ _)
  · exact (Console.step_key_driver _ _).trans
      (congrArg (fun d => Driver.handle d second) (Console.step_key_driver _ _))

/-- Enter, and Backspace before the reader goes on. -/
theorem empty_line_is_delivered_before_the_buffer :
    Loaded poweredConsole ∧ ∃ later,
      console.Run poweredConsole.keyboardInit
        (twoKeys keyEnter BACKSPACE ++ List.replicate 6 .read) later ∧
      ¬ console.Always Delivers poweredConsole.keyboardInit
        (twoKeys keyEnter BACKSPACE ++ List.replicate 6 .read) := by
  obtain ⟨typed, first, _, noFault, active, driver, reader⟩ :=
    twoKeys_run keyEnter BACKSPACE (by decide) (by decide)
  have line : typed.line .terminal1 = ⟨Function.update (fun _ => 0) 0 NEWLINE, 0, 0, 0⟩ :=
    congrArg (fun d => d.line .terminal1) driver
  obtain ⟨later, rest, _, both, _⟩ := Console.reads_run active noFault 6 (by
    rw [line, reader]
    decide)
  rw [line, reader] at both
  have run := first.append rest
  refine ⟨poweredConsole_loaded, later, run, fun always => ?_⟩
  have returned : later.reader .terminal1 = _ := congrArg Prod.snd both
  have delivered := run.always_last always .terminal1 0
  rw [returned] at delivered
  exact absurd (delivered rfl (by decide) (by decide)).positive (by decide)

/-- A letter and Enter. -/
theorem typed_line_is_delivered : ∃ later,
    console.Run poweredConsole.keyboardInit
      (twoKeys keyA keyEnter ++ List.replicate 6 .read) later ∧
    (later.reader .terminal1).pc = .returned 2 ∧
    console.Always Delivers poweredConsole.keyboardInit
      (twoKeys keyA keyEnter ++ List.replicate 6 .read) := by
  obtain ⟨typed, first, notEmpty, noFault, active, driver, reader⟩ :=
    twoKeys_run keyA keyEnter (by decide) (by decide)
  have line : typed.line .terminal1 =
      ⟨Function.update (Function.update (fun _ => 0) 0 0x61) 1 NEWLINE, 2, 0, 0⟩ :=
    congrArg (fun d => d.line .terminal1) driver
  obtain ⟨later, rest, _, both, each⟩ := Console.reads_run active noFault 6 (by
    rw [line, reader]
    decide)
  rw [line, reader] at both each
  have run := first.append rest
  have returned : later.reader .terminal1 = _ := congrArg Prod.snd both
  refine ⟨later, run, by rw [returned]; rfl, terminalRead_delivers poweredConsole_loaded run ?_⟩
  rw [first.eachStep_append]
  refine ⟨notEmpty, each.mono ?_⟩
  rintro between event ⟨isRead, stillActive, j, before, reached⟩ clamps
  subst isRead
  obtain ⟨_, empty⟩ := clamps
  rw [stillActive] at empty
  have size : (between.line .terminal1).keyboardBufferSize =
      (Reader.advance j (⟨Function.update (Function.update (fun _ => 0) 0 0x61) 1 NEWLINE, 2, 0, 0⟩,
        ⟨.spin, sampleCall, 128, 0, sampleCall.memory⟩)).1.keyboardBufferSize :=
    congrArg (fun both => both.1.keyboardBufferSize) reached
  have full : ∀ j < 6, (Reader.advance j
      (⟨Function.update (Function.update (fun _ => 0) 0 0x61) 1 NEWLINE, 2, 0, 0⟩,
        ⟨.spin, sampleCall, 128, 0, sampleCall.memory⟩)).1.keyboardBufferSize ≠ 0 := by
    decide
  exact full j before (size.symm.trans empty)

end LightOS.Terminal
