import LightOS.Terminal.Editing

/-! # What reads return

The driver, its lines and the calls of `terminal_read` stay in step with the desk, whatever
the order of keys, timer interrupts and statements.  So a read returns what the editor makes
of the keys of its session; and once the line is ended, nothing but its own statements is
needed for it to return.
-/

namespace LightOS.Terminal

open Lib Kernel

/-- A session, the line of its terminal and the call on it, at each statement. -/
def Follows (session : Session) (line : Line) (r : Reader) : ReadPc → Prop
  | .idle | .enable => (∀ keys, session ≠ .pending keys) ∧ line.Quiet
  | .spin => ∃ keys, session = .pending keys ∧ line.Holds (Edited.ofKeys keys)
  | .compare | .clamp => ∃ keys, session = .pending keys ∧ (Edited.ofKeys keys).ended = true ∧
      line.Holds (Edited.ofKeys keys)
  | .copy | .found | .terminate | .reset => ∃ keys, session = .pending keys ∧
      (Edited.ofKeys keys).ended = true ∧ line.Keeps (Edited.ofKeys keys).line ∧
      r.n = min r.call.n.toNat ((Edited.ofKeys keys).line.length + 1)
  | .returned value => (∀ keys, session ≠ .pending keys) ∧ line.Quiet ∧
      (r.call.buf ≠ 0 → r.call.n ≠ 0 → session.Answers r value)

section Follows

variable {session : Session} {line : Line} {r : Reader} {m : Modifiers} {input : UInt8}
  {key : EditKey UInt8}

theorem Session.press_of_not_pending (notPending : ∀ keys, session ≠ .pending keys)
    (key : EditKey UInt8) : session.press key = session := by
  cases session with
  | none | answered => rfl
  | pending keys => exact absurd rfl (notPending keys)

/-- An ended line at the moment its reader takes it. -/
theorem Line.Holds.keeps {edited : Edited UInt8} (holds : line.Holds edited)
    (ended : edited.ended = true) : line.Keeps edited.line := by
  obtain ⟨disabled, _, chars⟩ := holds.ended ended
  exact ⟨holds.plain, holds.overflow, disabled, chars⟩

/-- A key for the terminal, where it is gentle. -/
theorem Follows.strike {pc : ReadPc} (follows : Follows session line r pc)
    (decoded : m.decode input = some key)
    (gentle : ∀ keys, session = .pending keys →
      (Edited.ofKeys (keys ++ [key])).line.length ≤ 127 ∧
        ((Edited.ofKeys keys).ended = true → key = .erase ∨ key = .clear → pc.taken = true)) :
    Follows (session.press key) (line.strike m input) r pc := by
  have holding {keys : List (EditKey UInt8)} (pending : session = .pending keys)
      (notTaken : pc.taken = false) (holds : line.Holds (Edited.ofKeys keys)) :
      (line.strike m input).Holds (Edited.ofKeys (keys ++ [key])) := by
    obtain ⟨short, undisturbed⟩ := gentle keys pending
    rw [Edited.ofKeys_concat] at short ⊢
    apply holds.strike decoded short
    intro ended
    constructor <;> intro same <;> have taken := undisturbed ended (by simp [same])
    · simp [taken] at notTaken
    · simp [taken] at notTaken
  have still {keys : List (EditKey UInt8)} (ended : (Edited.ofKeys keys).ended = true) :
      Edited.ofKeys (keys ++ [key]) = Edited.ofKeys keys := by
    rw [Edited.ofKeys_concat, Edited.press_ended ended]
  cases pc with
  | idle | enable =>
      obtain ⟨notPending, quiet⟩ := follows
      rw [Session.press_of_not_pending notPending]
      exact ⟨notPending, quiet.strike m input⟩
  | returned value =>
      obtain ⟨notPending, quiet, answers⟩ := follows
      rw [Session.press_of_not_pending notPending]
      exact ⟨notPending, quiet.strike m input, answers⟩
  | spin =>
      obtain ⟨keys, rfl, holds⟩ := follows
      exact ⟨keys ++ [key], rfl, holding rfl rfl holds⟩
  | compare | clamp =>
      obtain ⟨keys, rfl, ended, holds⟩ := follows
      exact ⟨keys ++ [key], rfl, by rw [still ended, ended], holding rfl rfl holds⟩
  | copy | found | terminate | reset =>
      obtain ⟨keys, rfl, ended, keeps, length⟩ := follows
      refine ⟨keys ++ [key], rfl, ?_⟩
      rw [still ended]
      exact ⟨ended, keeps.strike m input, length⟩

/-- A read that has found the newline at the end of the line has copied all of it. -/
theorem Line.Keeps.newline_at {front : List UInt8} (keeps : line.Keeps front) {index : Nat}
    (inside : index ≤ front.length) (newline : line.keyBuf index = NEWLINE) :
    index = front.length := by
  by_contra other
  have get : (line.chars (front.length + 1))[index]? = some NEWLINE := by
    rw [Line.chars, List.getElem?_map, List.getElem?_range (by omega), Option.map_some, newline]
  rw [keeps.chars, List.getElem?_append_left (by omega)] at get
  exact keeps.plain (List.mem_of_getElem? get)

theorem Line.Keeps.take {front : List UInt8} (keeps : line.Keeps front) {count : Nat}
    (inside : count ≤ front.length) : line.chars count = front.take count := by
  rw [Line.chars_take (Nat.le_succ_of_le inside), keeps.chars, List.take_append_of_le_length inside]

theorem Line.Quiet.holds_nil (quiet : line.Quiet) :
    ({ line with keyboardBufferEnable := 1 } : Line).Holds (Edited.ofKeys []) where
  plain := List.not_mem_nil
  short := Nat.zero_le _
  overflow := quiet.overflow
  editing _ := ⟨rfl, quiet.size, rfl⟩
  ended := fun ended => nomatch ended

theorem Line.Keeps.quiet {front : List UInt8} (keeps : line.Keeps front) :
    ({ line with keyboardBufferSize := 0 } : Line).Quiet := ⟨keeps.enable, rfl, keeps.overflow⟩

/-- A call that has found the newline answers with all of the line. -/
theorem answers_found {keys : List (EditKey UInt8)} (ended : (Edited.ofKeys keys).ended = true)
    (keeps : line.Keeps (Edited.ofKeys keys).line)
    (length : r.n = min r.call.n.toNat ((Edited.ofKeys keys).line.length + 1))
    (here : ReadingAt line r .found) {after : Reader} (call : after.call = r.call)
    (memory : after.memory = r.memory) :
    (Session.answered keys).Answers after (r.index + 1) := by
  obtain ⟨_, inside, _, _, _, newline, stored⟩ := here
  have index := keeps.newline_at (by omega) newline
  refine ⟨keys, rfl, ended, ?_⟩
  simp only [delivered, call, memory]
  rw [if_pos (by omega), List.length_append, List.length_singleton, stored,
    keeps.take (Nat.le_of_eq index), index, List.take_length]
  exact ⟨rfl, rfl⟩

/-- A call that has not, with as much of the line as the caller has room for. -/
theorem answers_reset {keys : List (EditKey UInt8)} (ended : (Edited.ofKeys keys).ended = true)
    (keeps : line.Keeps (Edited.ofKeys keys).line)
    (length : r.n = min r.call.n.toNat ((Edited.ofKeys keys).line.length + 1))
    (here : ReadingAt line r .reset) {after : Reader} (call : after.call = r.call)
    (memory : after.memory = r.memory) :
    (Session.answered keys).Answers after (toInt32 r.n) := by
  obtain ⟨_, positive, _, small, noNewline, stored⟩ := here
  simp only [KEYBOARD_BUFFER_SIZE] at small
  have part : r.n ≤ (Edited.ofKeys keys).line.length := by
    by_contra whole
    have all : r.n = (Edited.ofKeys keys).line.length + 1 := by omega
    rw [all, keeps.chars] at noNewline
    exact noNewline (List.mem_append_right _ (List.mem_singleton_self _))
  have room : r.call.n.toNat = r.n := by omega
  refine ⟨keys, rfl, ended, ?_⟩
  simp only [delivered, call, memory, room]
  rw [if_neg (by omega), List.length_append, List.length_take, List.length_singleton, stored,
    keeps.take (by omega), toInt32_small (by omega)]
  exact ⟨by omega, rfl⟩

/-- The statements of `terminal_read` keep in step. -/
theorem Follows.step (follows : Follows session line r r.pc) (reading : Reading line r) :
    Follows (session.proceed r.pc) (r.step line).1 (r.step line).2 (r.step line).2.pc := by
  have here := reading.at_
  obtain ⟨sameSize, few⟩ := reading.size.toUint32
  unfold Reader.step
  cases pc : r.pc with
  | idle | returned =>
      rw [pc] at follows
      simp only [Session.proceed, pc]
      exact follows
  | enable =>
      rw [pc] at follows
      exact ⟨[], rfl, follows.2.holds_nil⟩
  | spin =>
      rw [pc] at follows
      obtain ⟨keys, rfl, holds⟩ := follows
      by_cases waiting : line.keyboardBufferEnable = 1
      · simp only [if_pos waiting, pc]
        exact ⟨keys, rfl, holds⟩
      · simp only [if_neg waiting]
        cases ended : (Edited.ofKeys keys).ended with
        | true => exact ⟨keys, rfl, ended, holds⟩
        | false => exact absurd (holds.editing ended).1 waiting
  | compare =>
      rw [pc] at follows here
      obtain ⟨keys, rfl, ended, holds⟩ := follows
      have size := (holds.ended ended).2.1
      by_cases longer : toUint32 line.keyboardBufferSize < r.n
      · simp only [if_pos longer]
        exact ⟨keys, rfl, ended, holds⟩
      · have length : r.n = min r.call.n.toNat ((Edited.ofKeys keys).line.length + 1) := by
          have whole := here.2.1
          omega
        simp only [if_neg longer]
        exact ⟨keys, rfl, ended, holds.keeps ended, length⟩
  | clamp =>
      rw [pc] at follows here
      obtain ⟨keys, rfl, ended, holds⟩ := follows
      have size := (holds.ended ended).2.1
      have length : toUint32 line.keyboardBufferSize =
          min r.call.n.toNat ((Edited.ofKeys keys).line.length + 1) := by
        obtain ⟨_, shorter, whole, _⟩ := here
        omega
      exact ⟨keys, rfl, ended, holds.keeps ended, length⟩
  | copy =>
      rw [pc] at follows
      obtain ⟨keys, rfl, rest⟩ := follows
      by_cases more : r.index < r.n
      · by_cases newline : line.keyBuf r.index = NEWLINE
        · simp only [if_pos more, if_pos newline]
          exact ⟨keys, rfl, rest⟩
        · simp only [if_pos more, if_neg newline]
          exact ⟨keys, rfl, rest⟩
      · simp only [if_neg more]
        exact ⟨keys, rfl, rest⟩
  | found =>
      rw [pc] at follows here
      obtain ⟨keys, rfl, ended, keeps, length⟩ := follows
      exact ⟨(fun _ same => nomatch same), keeps.quiet,
        fun _ _ => answers_found ended keeps length here rfl rfl⟩
  | terminate =>
      rw [pc] at follows
      obtain ⟨keys, rfl, rest⟩ := follows
      exact ⟨keys, rfl, rest⟩
  | reset =>
      rw [pc] at follows here
      obtain ⟨keys, rfl, ended, keeps, length⟩ := follows
      exact ⟨(fun _ same => nomatch same), keeps.quiet,
        fun _ _ => answers_reset ended keeps length here rfl rfl⟩

/-- A call starts when no other is under way. -/
theorem Follows.enter (follows : Follows session line r r.pc) (free : r.running = false)
    (call : ReadCall) :
    Follows session line (Reader.enter call) (Reader.enter call).pc := by
  have before : (∀ keys, session ≠ .pending keys) ∧ line.Quiet := by
    unfold Reader.running at free
    cases pc : r.pc with
    | idle =>
        rw [pc] at follows
        exact follows
    | returned =>
        rw [pc] at follows
        exact ⟨follows.1, follows.2.1⟩
    | enable | spin | compare | clamp | copy | found | terminate | reset =>
        rw [pc] at free
        cases free
  unfold Reader.enter
  split_ifs with null none
  · exact ⟨before.1, before.2, fun buffer => absurd null buffer⟩
  · exact ⟨before.1, before.2, fun _ some => absurd none some⟩
  · exact before

end Follows

/-! ## Calls that nothing interrupts -/

/-- The call returns if its process goes on. -/
def Returns (line : Line) (r : Reader) : Prop :=
  ∃ count value, (∀ j < count, (Reader.advance j (line, r)).2.running = true) ∧
    (Reader.advance count (line, r)).2.pc = .returned value

section Returns

variable {line : Line} {r : Reader}

theorem Returns.done (value : Int) (returned : r.pc = .returned value) : Returns line r :=
  ⟨0, value, fun j before => absurd before (Nat.not_lt_zero j), returned⟩

theorem Returns.of_step (running : r.running = true)
    (next : Returns (r.step line).1 (r.step line).2) : Returns line r := by
  obtain ⟨count, value, runs, returned⟩ := next
  refine ⟨count + 1, value, fun j before => ?_, returned⟩
  cases j with
  | zero => exact running
  | succ j => exact runs j (by omega)

theorem Returns.of_reset (reset : r.pc = .reset) : Returns line r := by
  apply Returns.of_step (by simp only [Reader.running, reset])
  apply Returns.done (toInt32 r.n)
  simp only [Reader.step, reset]

theorem Returns.of_found (found : r.pc = .found) : Returns line r := by
  apply Returns.of_step (by simp only [Reader.running, found])
  apply Returns.done (r.index + 1)
  simp only [Reader.step, found]

theorem Returns.of_terminate (terminate : r.pc = .terminate) : Returns line r := by
  apply Returns.of_step (by simp only [Reader.running, terminate])
  apply Returns.of_reset
  simp only [Reader.step, terminate]

/-- The copying loop ends, by induction on the rounds that are left. -/
theorem Returns.of_copy (rounds : Nat) (left : r.n - r.index = rounds) (copy : r.pc = .copy) :
    Returns line r := by
  induction rounds generalizing r with
  | zero =>
      apply Returns.of_step (by simp only [Reader.running, copy])
      apply Returns.of_terminate
      simp only [Reader.step, copy, if_neg (show ¬ r.index < r.n by omega)]
  | succ rounds ih =>
      apply Returns.of_step (by simp only [Reader.running, copy])
      have more : r.index < r.n := by omega
      by_cases newline : line.keyBuf r.index = NEWLINE
      · apply Returns.of_found
        simp only [Reader.step, copy, if_pos more, if_pos newline]
      · have next : (r.step line) = (line,
            { r.store (.ofNat r.index) (line.keyBuf r.index) with
              pc := .copy, index := r.index + 1 }) := by
          simp only [Reader.step, copy, if_pos more, if_neg newline]
        rw [next]
        apply ih
        · simp only [Reader.store]
          omega
        · rfl

theorem Returns.of_clamp (clamp : r.pc = .clamp) : Returns line r := by
  apply Returns.of_step (by simp only [Reader.running, clamp])
  apply Returns.of_copy _ rfl
  simp only [Reader.step, clamp]

theorem Returns.of_compare (compare : r.pc = .compare) : Returns line r := by
  apply Returns.of_step (by simp only [Reader.running, compare])
  by_cases longer : toUint32 line.keyboardBufferSize < r.n
  · apply Returns.of_clamp
    simp only [Reader.step, compare, if_pos longer]
  · apply Returns.of_copy _ rfl
    simp only [Reader.step, compare, if_neg longer]

/-- A read whose line has been ended is past its wait. -/
theorem Follows.returns {keys : List (EditKey UInt8)}
    (follows : Follows (.pending keys) line r r.pc) (ended : (Edited.ofKeys keys).ended = true) :
    Returns line r := by
  cases pc : r.pc with
  | idle | enable =>
      rw [pc] at follows
      exact absurd rfl (follows.1 keys)
  | returned value => exact .done value pc
  | spin =>
      rw [pc] at follows
      obtain ⟨_, same, holds⟩ := follows
      cases same
      apply Returns.of_step (by simp only [Reader.running, pc])
      apply Returns.of_compare
      simp only [Reader.step, pc, (holds.ended ended).1]
      rfl
  | compare => exact .of_compare pc
  | clamp => exact .of_clamp pc
  | copy => exact .of_copy _ rfl pc
  | found => exact .of_found pc
  | terminate => exact .of_terminate pc
  | reset => exact .of_reset pc

end Returns

/-! ## The console and the desk -/

/-- The console is in step with the desk. -/
structure InStep (p : Console × Desk) : Prop where
  modifiers : p.2.modifiers = p.1.modifiers
  shown : p.2.shown = p.1.currentTerminal
  reading : ∀ t, Reading (p.1.line t) (p.1.reader t)
  follows : ∀ t, Follows (p.2.session t) (p.1.line t) (p.1.reader t) (p.1.reader t).pc

section InStep

variable {s : Console} {d : Desk} {event : Event}

/-- What the driver makes of a key that the editor knows, and of one that it does not. -/
theorem Driver.handle_decode (d : Driver) {input : UInt8} (press : d.modifiers.press input = none) :
    d.handle input =
      match d.modifiers.decode input with
      | some _ => d.edit (fun line => line.strike d.modifiers input)
      | none => { d with currentTerminal := (d.modifiers.shows input).getD d.currentTerminal } := by
  simp only [Driver.handle, press, Modifiers.decode, Line.strike]
  by_cases isBackspace : input = BACKSPACE
  · simp only [if_pos isBackspace]
  · by_cases inTable : input < KEYBOARD_KEY_NUMBER
    · simp only [if_neg isBackspace, if_pos inTable]
      split_ifs <;> rfl
    · simp only [if_neg isBackspace, if_neg inTable]

/-- A read does not take its length from an empty line, since its line has been ended. -/
theorem InStep.not_clampsEmpty (inStep : InStep (s, d)) : ¬ ClampsEmpty s event := by
  cases event with
  | key | schedule | call => exact id
  | read =>
      rintro ⟨clamp, empty⟩
      have follows := inStep.follows s.activeTerminal
      simp only [clamp] at follows
      obtain ⟨keys, _, ended, holds⟩ := follows
      have size := (holds.ended ended).2.1
      omega

theorem InStep.key {input : UInt8} (inStep : InStep (s, d)) (gentle : Gentle (s, d) (.key input))
    (able : s.able (.key input)) : InStep (s.step (.key input), d.press input) := by
  have driver := s.step_key_driver input
  have reading (t : TerminalId) : Reading ((s.step (.key input)).line t) (s.reader t) :=
    (Console.touched able t).reading (inStep.reading t) inStep.not_clampsEmpty
  have modifiers : d.modifiers = s.modifiers := inStep.modifiers
  have shown : d.shown = s.currentTerminal := inStep.shown
  cases press : s.modifiers.press input with
  | some m =>
      have handled : (s.step (.key input)).driver = { s.driver with modifiers := m } := by
        rw [driver, Driver.handle, show s.driver.modifiers = s.modifiers from rfl, press]
      have desk : d.press input = { d with modifiers := m } := by
        simp only [Desk.press, modifiers, press]
      rw [desk]
      refine ⟨(congrArg Driver.modifiers handled).symm, shown.trans
        (congrArg Driver.currentTerminal handled).symm, reading, fun t => ?_⟩
      have line : (s.step (.key input)).line = s.line := congrArg Driver.line handled
      rw [line]
      exact inStep.follows t
  | none =>
      have handled := driver.trans (s.driver.handle_decode press)
      cases decoded : s.modifiers.decode input with
      | some key =>
          rw [Keyboard.driver_modifiers, decoded] at handled
          have desk : d.press input = d.setSession d.shown ((d.session d.shown).press key) := by
            simp only [Desk.press, modifiers, press, decoded]
          rw [desk]
          refine ⟨modifiers.trans (congrArg Driver.modifiers handled).symm, shown.trans
            (congrArg Driver.currentTerminal handled).symm, reading, fun t => ?_⟩
          have line : (s.step (.key input)).line = Function.update s.line s.currentTerminal
              ((s.line s.currentTerminal).strike s.modifiers input) :=
            congrArg Driver.line handled
          simp only [Desk.setSession, line, shown]
          by_cases here : t = s.currentTerminal
          · subst here
            simp only [Function.update_self]
            apply (inStep.follows s.currentTerminal).strike decoded
            intro keys pending
            have known := gentle key keys (by rw [modifiers, press]) (by rw [modifiers, decoded])
            rw [shown] at known
            exact known pending
          · simp only [Function.update_of_ne here]
            exact inStep.follows t
      | none =>
          rw [Keyboard.driver_modifiers, decoded] at handled
          have desk : d.press input =
              { d with shown := (d.modifiers.shows input).getD d.shown } := by
            simp only [Desk.press, modifiers, press, decoded]
          rw [desk]
          refine ⟨modifiers.trans (congrArg Driver.modifiers handled).symm, ?_, reading,
            fun t => ?_⟩
          · simp only [modifiers, shown]
            exact (congrArg Driver.currentTerminal handled).symm
          · have line : (s.step (.key input)).line = s.line := congrArg Driver.line handled
            rw [line]
            exact inStep.follows t

theorem InStep.next (inStep : InStep (s, d)) (able : s.able event) (gentle : Gentle (s, d) event) :
    InStep (s.step event, d.step s event) := by
  have reading (t : TerminalId) : Reading ((s.step event).line t) ((s.step event).reader t) :=
    (Console.touched able t).reading (inStep.reading t) inStep.not_clampsEmpty
  cases event with
  | key input => exact inStep.key gentle able
  | schedule interrupted =>
      refine ⟨inStep.modifiers, ?_, reading, inStep.follows⟩
      exact inStep.shown.trans (s.kernel.schedule_shows interrupted).2.symm
  | call call =>
      refine ⟨inStep.modifiers, inStep.shown, reading, fun t => ?_⟩
      by_cases active : t = s.activeTerminal
      · subst active
        simp only [Console.step, Desk.step, Function.update_self]
        exact (inStep.follows _).enter able.2 call
      · simp only [Console.step, Desk.step, Function.update_of_ne active]
        exact inStep.follows t
  | read =>
      refine ⟨inStep.modifiers, inStep.shown, reading, fun t => ?_⟩
      by_cases active : t = s.activeTerminal
      · subst active
        simp only [Console.step, Desk.step, Desk.setSession, Function.update_self]
        exact (inStep.follows _).step (inStep.reading _)
      · simp only [Console.step, Desk.step, Desk.setSession, Function.update_of_ne active]
        exact inStep.follows t

theorem InStep.edits (inStep : InStep (s, d)) : Edits (s, d) := by
  intro t value returned buffer some
  have follows := inStep.follows t
  simp only at follows returned
  rw [returned] at follows
  exact follows.2.2 buffer some

theorem InStep.resumes (inStep : InStep (s, d)) : Resumes (s, d) := by
  intro noFault keys pending ended
  have follows := inStep.follows s.activeTerminal
  simp only at follows pending
  rw [pending] at follows
  obtain ⟨count, value, running, returned⟩ := follows.returns ended
  obtain ⟨later, run, _, both, _⟩ := Console.reads_run rfl noFault count running
  refine ⟨count, later, value, run, ?_⟩
  have reader := congrArg (fun both => both.2.pc) both
  exact reader.trans returned

theorem Loaded.inStep (loaded : Loaded s) :
    InStep (s.keyboardInit, Desk.start s.keyboardInit.currentTerminal) where
  modifiers := loaded.modifiers.symm
  shown := rfl
  reading := loaded.reading
  follows t := by
    have idle : (s.keyboardInit.reader t).pc = .idle := loaded.reader t
    simp only [idle]
    exact ⟨fun _ same => (nomatch same), rfl, rfl, rfl⟩

/-- Every run of the console can be watched. -/
theorem watched_run {events : List Event} {later : Console}
    (run : console.Run s events later) (d : Desk) :
    ∃ d', watched.Run (s, d) events (later, d') := by
  induction run generalizing d with
  | nil s => exact ⟨d, .nil _⟩
  | cons able _ ih =>
      obtain ⟨d', rest⟩ := ih (d.step _ _)
      exact ⟨d', .cons able rest⟩

/-- In every run from `keyboard_init` on whose keys are gentle, each read returns the line that
    the editor makes of the keys of its session, and a read whose line has been ended returns
    once its process goes on. -/
theorem reads_follow_the_editor (loaded : Loaded s) {events : List Event} {later : Console}
    (run : console.Run s.keyboardInit events later)
    (gentle : watched.EachStep Gentle
      (s.keyboardInit, Desk.start s.keyboardInit.currentTerminal) events) :
    watched.Always (fun p => Edits p ∧ Resumes p)
      (s.keyboardInit, Desk.start s.keyboardInit.currentTerminal) events := by
  obtain ⟨d, watching⟩ := watched_run run (Desk.start s.keyboardInit.currentTerminal)
  apply watching.always_of_each (I := InStep) _ _ loaded.inStep gentle
  · exact fun _ event inStep able gentle => inStep.next able gentle
  · exact fun _ inStep => ⟨inStep.edits, inStep.resumes⟩

end InStep

theorem gentle_reads (p : Console × Desk) (count : Nat) :
    watched.EachStep Gentle p (List.replicate count .read) := by
  induction count generalizing p with
  | zero => trivial
  | succ count ih => exact ⟨trivial, ih _⟩

/-- A letter and Enter, and the rest of the call. -/
theorem letter_is_read : ∃ later,
    console.Run poweredConsole.keyboardInit
      (twoKeys keyA keyEnter ++ List.replicate 6 .read) later ∧
    watched.Always (fun p => Edits p ∧ Resumes p)
      (poweredConsole.keyboardInit, Desk.start .terminal1)
      (twoKeys keyA keyEnter ++ List.replicate 6 .read) := by
  obtain ⟨typed, first, _, noFault, active, driver, reader⟩ :=
    twoKeys_run keyA keyEnter (by decide) (by decide)
  have line : typed.line .terminal1 =
      ⟨Function.update (Function.update (fun _ => 0) 0 0x61) 1 NEWLINE, 2, 0, 0⟩ :=
    congrArg (fun d => d.line .terminal1) driver
  obtain ⟨later, rest, _⟩ := Console.reads_run active noFault 6 (by
    rw [line, reader]
    decide)
  have run := first.append rest
  refine ⟨later, run, reads_follow_the_editor poweredConsole_loaded run ?_⟩
  obtain ⟨d, watching⟩ := watched_run first (Desk.start poweredConsole.keyboardInit.currentTerminal)
  rw [watching.eachStep_append]
  refine ⟨⟨trivial, ⟨trivial, ⟨?_, ⟨?_, trivial⟩⟩⟩⟩, gentle_reads _ _⟩
  · rintro key keys _ decoded pending
    cases decoded
    cases pending
    exact ⟨by decide, fun ended => nomatch ended⟩
  · rintro key keys _ decoded pending
    cases decoded
    cases pending
    exact ⟨by decide, fun ended => nomatch ended⟩

end LightOS.Terminal
