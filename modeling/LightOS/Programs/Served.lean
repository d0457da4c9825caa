import LightOS.Kernel.ArgumentLimit
import LightOS.Kernel.RoundRobin
import LightOS.Kernel.Teletype
import LightOS.Programs.Cat
import LightOS.Rtc.Rates

/-! # Programs on the kernel

A session is what a program can tell of the kernel, and the kernel serves every program as a
session does: the answers are the same, and the screen shows on a teletype what the session has
printed.  The calls are getargs, open, close, write, and a read that does not wait for the
terminal; they are taken to come back to the program, as in a session.
-/

namespace LightOS.Programs

open Lib Lib.Interaction Filesystem Descriptor Kernel

/-- The control block of the process that runs. -/
def activePcb (s : State) : Pcb := s.proc.pcb s.proc.activePid

def setActivePcb (s : State) (pcb : Pcb) : State :=
  { s with proc := s.proc.setPcb s.proc.activePid pcb }

/-- The loop of `terminal_write`. -/
def terminalWrite (s : State) (bytes : List UInt8) : State :=
  bytes.foldl (fun s c => { s with display := s.display.putc s.proc.activeTerminal c }) s

/-- The kernel at a call of the process that runs.  What waits for the keyboard or for another
    program does not return here: `execute`, and a read of the terminal, are `none`. -/
def serveOn (bootBlock : Option Image) (s : State) : Syscall → Option (Transfer × State)
  | .getargs nbytes => some (s.syscallGetargs false nbytes, s)
  | .openName filename =>
      let opened := (Call.openName (some filename)).run bootBlock (activePcb s)
      some (opened.1, setActivePcb s opened.2)
  | .read fd nbytes =>
      if driverOf (activePcb s) fd = some .terminalStdin ∧ toUint32 nbytes ≠ 0 then none
      else
        let read := (Call.read fd false nbytes ⟨0, []⟩).run bootBlock (activePcb s)
        some (read.1, setActivePcb s read.2)
  | .write fd buf nbytes =>
      let answered :=
        (Call.write fd (deviceWrite (activePcb s) fd buf nbytes)).run bootBlock (activePcb s)
      some (answered.1,
        if driverOf (activePcb s) fd = some .terminalStdout then
          terminalWrite s (written buf nbytes)
        else s)
  | .close fd =>
      let closed := (Call.close fd).run bootBlock (activePcb s)
      some (closed.1, setActivePcb s closed.2)
  | .execute _ => none

/-- The kernel serves a session: the process that runs is that of the session, its terminal is on
    display, and shows what has been printed behind the text of `paper`. -/
structure Serves (paper : Sheet Cell) (t : Session) (s : State) : Prop where
  sound : Sound s
  displayed : s.proc.activeTerminal = s.display.currentTerminal
  pcb : t.pcb = activePcb s
  argumentExist : t.argumentExist = s.proc.argumentExist
  typed : t.typed = []
  children : t.children = []
  shows : ∃ scrolled, s.ShowsWindow (teletype paper t.screen) scrolled
  ahead : Sheet.BlankAhead blankCell (teletype paper t.screen)

section Serving

variable {paper : Sheet Cell} {bootBlock : Option Image} {t : Session} {s : State}

/-- The control block of the process is all that a call on its descriptors changes. -/
theorem Serves.setPcb (serves : Serves paper t s) (call : Call) :
    Serves paper (t.setPcb (call.run bootBlock t.pcb).2)
      (setActivePcb s (call.run bootBlock (activePcb s)).2) where
  sound := by
    obtain ⟨parentPid, terminal⟩ := Rtc.run_links bootBlock (activePcb s) call
    exact Rtc.sound_setPcb serves.sound parentPid terminal
  displayed := serves.displayed
  pcb := by
    rw [serves.pcb]
    simp [Session.setPcb, setActivePcb, activePcb, Proc.setPcb]
  argumentExist := serves.argumentExist
  typed := serves.typed
  children := serves.children
  shows := serves.shows
  ahead := serves.ahead

/-- One byte. -/
theorem Serves.putc (serves : Serves paper t s) (c : UInt8) :
    Serves paper (t.print [c]) { s with display := s.display.putc s.proc.activeTerminal c } := by
  obtain ⟨scrolled, shows⟩ := serves.shows
  have able : s.able (.putc c) := ⟨serves.sound.valid.fault, trivial⟩
  have sent : s.sent (.putc c) = some c := if_pos serves.displayed
  have next : Sound (s.step none (.putc c)) := serves.sound.sends_sound able trivial
  obtain ⟨moved, _, window, ahead⟩ : ∃ moved, scrolled ≤ moved ∧ (s.step none (.putc c)).ShowsWindow
        (teletype (teletype paper t.screen) (s.sent (.putc c)).toList) moved ∧
      Sheet.BlankAhead blankCell (teletype (teletype paper t.screen) (s.sent (.putc c)).toList) :=
    serves.sound.window_step able trivial shows serves.ahead
  rw [sent, Option.toList_some, ← teletype_append] at window ahead
  have output := Display.putcOn_output serves.sound.valid.window
    (serves.sound.valid.inside s.proc.activeTerminal) c
  exact
    { sound := next
      displayed := serves.displayed.trans output.currentTerminal.symm
      pcb := serves.pcb
      argumentExist := serves.argumentExist
      typed := serves.typed
      children := serves.children
      shows := ⟨moved, window⟩
      ahead := ahead }

theorem Serves.terminalWrite (serves : Serves paper t s) (bytes : List UInt8) :
    Serves paper (t.print bytes) (terminalWrite s bytes) := by
  induction bytes generalizing t s with
  | nil =>
      have same : t.print [] = t := by
        rw [Session.print, List.append_nil]
      rw [same]
      exact serves
  | cons c bytes ih =>
      have both : t.print (c :: bytes) = (t.print [c]).print bytes := by
        simp only [Session.print, List.append_assoc, List.singleton_append]
      rw [both]
      exact ih (serves.putc c)

/-- Call by call, the kernel answers as the session does. -/
theorem Serves.answers (serves : Serves paper t s) (request : Syscall) :
    (t.serve bootBlock request = none ∧ serveOn bootBlock s request = none) ∨
    ∃ answer later later', t.serve bootBlock request = some (answer, later) ∧
      serveOn bootBlock s request = some (answer, later') ∧ Serves paper later later' := by
  cases request with
  | getargs nbytes =>
      refine .inr ⟨_, t, s, rfl, ?_, serves⟩
      simp only [serveOn, getargs, serves.pcb, serves.argumentExist, activePcb,
        State.syscallGetargs, Bool.false_eq_true, if_false]
  | openName filename =>
      refine .inr ⟨_, _, _, rfl, ?_, serves.setPcb (.openName (some filename))⟩
      simp only [serveOn, serves.pcb]
  | close fd =>
      refine .inr ⟨_, _, _, rfl, ?_, serves.setPcb (.close fd)⟩
      simp only [serveOn, serves.pcb]
  | execute command => exact .inl ⟨by simp only [Session.serve, serves.children], rfl⟩
  | read fd nbytes =>
      by_cases waits : driverOf (activePcb s) fd = some .terminalStdin ∧ toUint32 nbytes ≠ 0
      · refine .inl ⟨?_, if_pos waits⟩
        simp only [Session.serve, Session.device, serves.pcb, if_pos waits, serves.typed,
          Option.map_none]
      · refine .inr ⟨_, _, _, ?_, if_neg waits, serves.setPcb (.read fd false nbytes ⟨0, []⟩)⟩
        simp only [Session.serve, Session.device, serves.pcb, if_neg waits, Option.map_some]
        rfl
  | write fd buf nbytes =>
      let answer :=
        fileDescriptorTableWrite (activePcb s) fd (deviceWrite (activePcb s) fd buf nbytes)
      by_cases terminal : driverOf (activePcb s) fd = some .terminalStdout
      · refine .inr ⟨⟨answer, []⟩, _, _, ?_, ?_, serves.terminalWrite (written buf nbytes)⟩
        · simp only [Session.serve, serves.pcb, if_pos terminal]
          rfl
        · simp only [serveOn, if_pos terminal]
          rfl
      · refine .inr ⟨⟨answer, []⟩, t, s, ?_, ?_, serves⟩
        · simp only [Session.serve, serves.pcb, if_neg terminal]
          rfl
        · simp only [serveOn, if_neg terminal]
          rfl

/-- The kernel serves every program as the session does, call by call up to its end. -/
theorem programs_served {α : Type} (program : UserProgram α) (serves : Serves paper t s) :
    Outcome.Alike (Serves paper) (program.run (Session.serve bootBlock) t)
      (program.run (serveOn bootBlock) s) :=
  run_simulated (fun request serves => serves.answers request) program serves

end Serving

section Started

variable {paper : Sheet Cell} {img : Image} {start s : State} {stack : List UInt8}
  {command : CharPtr} {caller : Context} {entryPoint scrolled : Nat}

/-- What `execute` has left to a process that it has entered. -/
def started (after : State) : Session where
  pcb := activePcb after
  argumentExist := after.proc.argumentExist
  typed := []
  children := []
  screen := []
  commands := []

/-- Saving the context of the caller leaves the descriptors of the new process alone. -/
theorem started_descriptors (proc : Proc) (pid : Nat) (block : Pcb) (caller : Context) :
    ((proc.started pid block caller).pcb pid).fileDescriptorArray = block.fileDescriptorArray := by
  by_cases same : pid = proc.activePid
  · simp [Proc.started, same, Pcb.setContext]
  · simp [Proc.started, Function.update_of_ne same]

/-- A new process starts on the terminal, with free descriptors and with the screen as it was. -/
theorem Serves.of_execute {bootBlock : Option Image} (sound : Sound s)
    (able : s.able (.execute stack command caller))
    (enters : (s.syscallExecute bootBlock stack command caller).control = .enterUser entryPoint)
    (displayed : s.proc.activeTerminal = s.display.currentTerminal)
    (shows : s.ShowsWindow paper scrolled) (ahead : Sheet.BlankAhead blankCell paper) :
    let after := s.syscallExecute bootBlock stack command caller
    Serves paper (started after) after ∧ OnTerminal (activePcb after) ∧
      ¬ AllBusy (activePcb after) := by
  have outcome : Outcome bootBlock s (.execute stack command caller)
      (s.syscallExecute bootBlock stack command caller) := State.step_outcome sound able
  have next := (outcome.sound sound).resolve_left fun faults => faults.1
  generalize s.syscallExecute bootBlock stack command caller = after at outcome enters next
  cases outcome with
  | rejected refused => cases enters
  | full passed noPid notFull => cases enters
  | fault faulting faults elsewhere => exact absurd faulting id
  | @started _ _ _ argBuf argumentExist pid eip paged mmu _ active passed free child small notFull
      switched writes =>
      have same : s.display.SameShown { paged with mmu } :=
        (Display.SameShown.of_contents switched.same).trans (.of_frame writes)
      refine ⟨?_, new_descriptors (?_ : _ =
        (fileDescriptorTableInit (s.proc.pcb pid)).fileDescriptorArray)⟩
      · exact
          { sound := next
            displayed := displayed.trans same.currentTerminal.symm
            pcb := rfl
            argumentExist := rfl
            typed := rfl
            children := rfl
            shows := ⟨scrolled, by
              rw [State.ShowsWindow, same.sheet_eq]
              exact shows⟩
            ahead := ahead }
      · exact started_descriptors _ _ _ _

/-- The argument of an accepted command is there for the new process. -/
theorem started_has_argument {bootBlock : Option Image} (sound : Sound s)
    (able : s.able (.execute stack command caller)) (inMemory : strlen command < 2 ^ 31 - 1)
    (enters : (s.syscallExecute bootBlock stack command caller).control = .enterUser entryPoint)
    (given : secondWord (chars command) ≠ [])
    (fits : (secondWord (chars command)).length < MAX_ARG_LENGTH) :
    HasArgument (started (s.syscallExecute bootBlock stack command caller))
      (secondWord (chars command)) := by
  have short := (sound.accepted_of_enters able enters).short inMemory
  have stored := sound.execute_stores able enters short given fits
  exact
    { given := stored.set
      stored := stored.stored
      fits := fits
      nonzero := fun c inWord => chars_nonzero (mem_of_secondWord inWord) }

/-- From the command to the screen: a command with an argument has been accepted, the new process
    runs cat on the terminal on display, and the text of cat for that argument comes out behind
    what is there, as on a teletype. -/
theorem command_shows_file (on : PowerOn start) (reached : Reached (some img) start s)
    (openable : Openable img) (able : s.able (.execute stack command caller))
    (inMemory : strlen command < 2 ^ 31 - 1)
    (enters : (s.syscallExecute (some img) stack command caller).control = .enterUser entryPoint)
    (given : secondWord (chars command) ≠ [])
    (fits : (secondWord (chars command)).length < MAX_ARG_LENGTH)
    (displayed : s.proc.activeTerminal = s.display.currentTerminal)
    (shows : s.ShowsWindow paper scrolled) (ahead : Sheet.BlankAhead blankCell paper)
    {rounds : Nat} (enough : 4092 < rounds) (buf : CharPtr) :
    ∃ answer later moved, ExactAnswer img (secondWord (chars command)) answer ∧
      (cat rounds buf).run (serveOn (some img))
          (s.syscallExecute (some img) stack command caller) =
        .returned (catText img answer).1 later ∧
      later.ShowsWindow (teletype paper (catText img answer).2) moved ∧ Sound later := by
  have sound := on.reached_sound reached able.1
  obtain ⟨serves, terminal, free⟩ := Serves.of_execute sound able enters displayed shows ahead
  have has := started_has_argument sound able inMemory enters given fits
  obtain ⟨answer, session, exact_, runs, printed⟩ :=
    cat_prints openable terminal has free enough buf
  have alike : Outcome.Alike (Serves paper) _ ((cat rounds buf).run (serveOn (some img)) _) :=
    programs_served (cat rounds buf) serves
  rw [runs] at alike
  generalize (cat rounds buf).run (serveOn (some img))
    (s.syscallExecute (some img) stack command caller) = outcome at alike ⊢
  cases alike with
  | returned still =>
      obtain ⟨moved, window⟩ := still.shows
      rw [printed.screen] at window
      exact ⟨answer, _, moved, exact_, rfl, window, still.sound⟩

end Started

/-- A step that cannot fault. -/
theorem sound_next (bootBlock : Option Image) {s : State} (sound : Sound s) {action : Action}
    (able : s.able action) (noFault : ¬ Faulting s action) : Sound (s.step bootBlock action) :=
  ((State.step_outcome sound able).sound sound).resolve_left fun faults => noFault faults.1

/-- The file is given to cat. -/
def catCommand : CharPtr := charPtr (text "cat f")

/-- The terminal of the process that runs is put on display, and cleared from the keyboard. -/
theorem cleared_on_display (bootBlock : Option Image) {s : State} (sound : Sound s)
    (active : s.proc.activePid ≠ 0) :
    ∃ after,
      (turnMachine bootBlock).Run s [.switchTo s.proc.activeTerminal, .echoClear] after ∧
      Sound after ∧ after.proc = s.proc ∧
      s.proc.activeTerminal = after.display.currentTerminal ∧
      after.ShowsWindow (.empty blankCell) 0 := by
  obtain ⟨proc, shown⟩ := s.switchToTerminal_shows s.proc.activeTerminal
  have ableSwitch : s.able (.switchTo s.proc.activeTerminal) := ⟨sound.valid.fault, trivial⟩
  have soundSwitch : Sound (s.switchToTerminal s.proc.activeTerminal) := by
    apply sound_next bootBlock sound ableSwitch
    rintro ⟨idle, _⟩
    exact active idle
  have ableClear : (s.switchToTerminal s.proc.activeTerminal).able .echoClear :=
    ⟨soundSwitch.valid.fault, trivial⟩
  have output := Display.clearOn_output
    (t := (s.switchToTerminal s.proc.activeTerminal).display.currentTerminal)
    soundSwitch.valid.tables.directWindow
  obtain ⟨shows, soundClear⟩ :
      ((s.switchToTerminal s.proc.activeTerminal).step bootBlock .echoClear).ShowsWindow
          (.empty blankCell) 0 ∧
        Sound ((s.switchToTerminal s.proc.activeTerminal).step bootBlock .echoClear) :=
    soundSwitch.window_clear ableClear trivial
  refine ⟨(s.switchToTerminal s.proc.activeTerminal).step bootBlock .echoClear, ?_, soundClear,
    ?_, ?_, shows⟩
  · exact .cons ⟨ableSwitch, trivial⟩ (.cons ⟨ableClear, trivial⟩ (.nil _))
  · simp only [State.step, proc]
  · exact shown.symm.trans output.currentTerminal.symm

/-- Every terminal has its shell, and the screen of terminal 1 is on display, and empty. -/
theorem three_shells_cleared (bootBlock : Option Image) {booted : State} (fresh : Fresh booted) :
    ∃ as s, (turnMachine bootBlock).Run booted as s ∧ Sound s ∧
      (∀ t, s.proc.currentProcessId t = t.number) ∧ s.proc.activePid ≠ 0 ∧
      s.proc.processCount = 3 ∧ s.proc.processes = (fun i => if i < 4 then 1 else 0) ∧
      s.proc.activeTerminal = s.display.currentTerminal ∧ s.ShowsWindow (.empty blankCell) 0 := by
  obtain ⟨entered, run, sound, current, active, count, pool⟩ := fresh.three_schedules bootBlock
    ⟨0x7FFFF0, 0x7FFFF8⟩ (show Action.NoBootCall _ from trivial)
  obtain ⟨s, cleared, soundClear, proc, displayed, shows⟩ :=
    cleared_on_display bootBlock sound (by rw [active]; exact Nat.one_ne_zero)
  rw [← proc] at displayed current active count pool
  exact ⟨_, s, run.append cleared, soundClear, current, by rw [active]; exact Nat.one_ne_zero, count,
    pool, displayed, shows⟩

theorem catImage_found : ShellFound (some catImage) [] := by
  have opened : fileOpen (some catImage) (some State.shellName) = some 0 := by decide +kernel
  have magic : readData (some catImage) 0 0 false 4 = ⟨4, [0x7F, 0x45, 0x4C, 0x46]⟩ := by
    decide +kernel
  refine ⟨0, opened, ?_⟩
  simp [isExecutable, magic]

/-- cat is started for `f`. -/
theorem catCommand_starts {s : State} (count : s.proc.processCount = 3) (caller : Context) :
    StartsProgram (some catImage) s (.execute [] catCommand caller) := by
  refine ⟨by rw [count]; decide, by decide +kernel, ?_⟩
  decide +kernel

theorem catCommand_enters {s : State} (sound : Sound s) (active : s.proc.activePid ≠ 0)
    (count : s.proc.processCount = 3) (pool : s.proc.processes = fun i => if i < 4 then 1 else 0)
    (caller : Context) :
    let after := s.syscallExecute (some catImage) [] catCommand caller
    (∃ entryPoint, after.control = .enterUser entryPoint) ∧
      ∀ t, s.proc.currentProcessId t ≠ 0 → after.proc.currentProcessId t ≠ 0 := by
  have free : (List.range 7).find? (fun i => s.proc.processes i = 0) ≠ none := by
    rw [pool]
    decide
  obtain ⟨pid, argBuf, argumentExist, eip, display, entryPoint, child, _, started, _⟩ :=
    sound.starts ⟨sound.valid.fault, active⟩ (catCommand_starts count caller) free
  rw [started]
  refine ⟨⟨entryPoint, rfl⟩, fun t occupied => ?_⟩
  simp only [Proc.started, Function.update_apply]
  split
  · exact Nat.ne_of_gt (Nat.lt_of_lt_of_le (by decide) child)
  · exact occupied

theorem catCommand_word : secondWord (chars catCommand) = text "f" := by decide +kernel

/-- The entry is found behind three others, and its file has five letters. -/
theorem catCommand_answer {answer : Option DirEntry}
    (exact_ : ExactAnswer catImage (secondWord (chars catCommand)) answer) :
    catText catImage answer = (0, text "hello") := by
  rw [catCommand_word] at exact_
  have others : ∀ earlier < 3, (catImage.direntries earlier).name ≠ text "f" := by decide +kernel
  have named : answer = some (catImage.direntries 3) :=
    exact_.first 3 (by decide +kernel) ⟨by decide, by decide +kernel, by decide +kernel⟩
      fun earlier before named => others earlier before named.2.2
  rw [named]
  decide +kernel

/-- The five letters of the file come out on an empty screen. -/
theorem catCommand_shows : ∃ later moved,
    later.ShowsWindow (teletype (.empty blankCell) (text "hello")) moved ∧
      ∃ s caller, Reached (some catImage) poweredOn s ∧
        (cat 4093 fun _ => 0).run (serveOn (some catImage))
          (s.syscallExecute (some catImage) [] catCommand caller) = .returned 0 later := by
  obtain ⟨as, s, run, sound, _, active, count, pool, displayed, shows⟩ := three_shells_cleared
    (some catImage) (poweredOn_powerOn.entry_fresh (some catImage) fun _ => []).1
  have reached : Reached (some catImage) poweredOn s := .booted run.of_restrict
  have able : s.able (.execute [] catCommand ⟨0x7FDF00, 0x7FDF80⟩) := ⟨sound.valid.fault, active⟩
  obtain ⟨⟨entryPoint, enters⟩, _⟩ := catCommand_enters sound active count pool ⟨0x7FDF00, 0x7FDF80⟩
  obtain ⟨answer, later, moved, exact_, runs, window, _⟩ :=
    command_shows_file poweredOn_powerOn reached catImage_openable able (by decide +kernel)
      enters (by rw [catCommand_word]; decide +kernel) (by rw [catCommand_word]; decide +kernel)
      displayed shows (Sheet.blankAhead_empty blankCell) (Nat.lt_succ_self 4092) fun _ => 0
  rw [catCommand_answer exact_] at runs window
  exact ⟨later, moved, window, s, _, reached, runs⟩

end LightOS.Programs
