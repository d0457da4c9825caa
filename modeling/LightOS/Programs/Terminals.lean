import LightOS.Kernel.Contexts
import LightOS.Kernel.RoundRobin
import LightOS.Kernel.Screens
import LightOS.Lib.Parts
import LightOS.Programs.Served
import Mathlib.Logic.Function.Iterate

/-! # Three terminals

Every terminal has its process, and every process its program.  The timer strikes between any two
calls, and between the bytes of a write, the keyboard is used, terminals are put on display.  To a
program its terminal is a desk: a control block and a logical screen, and each desk goes on as if
there were no other.

The calls are those of `serveOn`: no program is executed or halts meanwhile, so that the one
global `argument_exist` stays as it is, for all three.
-/

namespace LightOS

/-- The control block without the context that the scheduler keeps in it. -/
def Pcb.own (pcb : Pcb) : Pcb := pcb.setContext ⟨0, 0⟩

end LightOS

namespace LightOS.Programs

open Lib Lib.Interaction Filesystem Descriptor Kernel

/-- What a terminal is to the program that runs in it.  `argumentExist` is the global, which no
    call that is served here writes. -/
structure Desk where
  pcb : Pcb
  argumentExist : Nat
  screen : Sheet Cell

namespace Desk

def setPcb (desk : Desk) (pcb : Pcb) : Desk := { desk with pcb := pcb.own }

/-- One byte on the screen. -/
def feed (desk : Desk) (c : UInt8) : Desk :=
  { desk with screen := desk.screen.feedOn NUM_ROWS NUM_COLS blankCell (teletypeInput c) }

def print (desk : Desk) (bytes : List UInt8) : Desk := bytes.foldl feed desk

/-- A call, or `none` while it has not returned; the bytes of a write come out afterwards. -/
def serve (bootBlock : Option Image) (desk : Desk) : Syscall → Option (Transfer × Desk)
  | .getargs nbytes => some (getargs desk.argumentExist desk.pcb nbytes, desk)
  | .openName filename =>
      let opened := (Call.openName (some filename)).run bootBlock desk.pcb
      some (opened.1, desk.setPcb opened.2)
  | .read fd nbytes =>
      if driverOf desk.pcb fd = some .terminalStdin ∧ toUint32 nbytes ≠ 0 then none
      else
        let read := (Call.read fd false nbytes ⟨0, []⟩).run bootBlock desk.pcb
        some (read.1, desk.setPcb read.2)
  | .write fd buf nbytes =>
      some (((Call.write fd (deviceWrite desk.pcb fd buf nbytes)).run bootBlock desk.pcb).1, desk)
  | .close fd =>
      let closed := (Call.close fd).run bootBlock desk.pcb
      some (closed.1, desk.setPcb closed.2)
  | .execute _ => none

end Desk

/-- What `terminal_write` has to put on the screen, if that is the next call. -/
def outputOf (pcb : Pcb) : UserProgram Int → List UInt8
  | .call (.write fd buf nbytes) _ =>
      if driverOf pcb fd = some .terminalStdout then written buf nbytes else []
  | _ => []

/-- What happens at a terminal: its process goes on, or the keyboard writes on its screen. -/
inductive Input
  | proceed
  | echo (c : UInt8)
  | back
  | clear

/-- A program at its desk, with the bytes that are left of a write. -/
structure Seat where
  program : UserProgram Int
  pending : List UInt8
  desk : Desk

/-- A process that has a write to finish sends the next byte; otherwise it makes its next call. -/
def Seat.proceed (bootBlock : Option Image) (seat : Seat) : Seat :=
  match seat.pending with
  | c :: pending => { seat with pending, desk := seat.desk.feed c }
  | [] =>
      let made := Program.advance (Desk.serve bootBlock) (seat.program, seat.desk)
      ⟨made.1, outputOf seat.desk.pcb seat.program, made.2⟩

def Seat.next (bootBlock : Option Image) (seat : Seat) : Input → Seat
  | .proceed => seat.proceed bootBlock
  | .echo c => { seat with desk := seat.desk.feed c }
  | .back => { seat with desk.screen := seat.desk.screen.back NUM_COLS blankCell }
  | .clear => { seat with desk.screen := .empty blankCell }

/-- The kernel, and what the current process of each terminal has still to do. -/
structure Terminals where
  kernel : State
  programs : TerminalId → UserProgram Int
  pending : TerminalId → List UInt8

/-- The kernel at a call, before the first byte of a write.  `execute` and a read of the terminal
    are `none`, as in `serveOn`. -/
def beginOn (bootBlock : Option Image) (s : State) : Syscall → Option (Transfer × State)
  | .write fd buf nbytes =>
      some (((Call.write fd (deviceWrite (activePcb s) fd buf nbytes)).run bootBlock
        (activePcb s)).1, s)
  | request => serveOn bootBlock s request

/-- The process that runs goes on, or the kernel does something else. -/
inductive Event
  | proceed
  | kernel (action : Action)

/-- The timer, the keyboard, and stores of the programs to their pages. -/
def BetweenCalls : Action → Prop
  | .schedule _ | .switchTo _ | .echo _ | .echoBack | .echoClear | .userStore _ _ => True
  | _ => False

def terminals (bootBlock : Option Image) : Machine Terminals Event where
  enabled s event :=
    match event with
    | .proceed => s.kernel.faulted = false
    | .kernel action => s.kernel.able action ∧ BetweenCalls action
  next s event :=
    match event with
    | .proceed =>
        let t := s.kernel.proc.activeTerminal
        match s.pending t with
        | c :: pending =>
            { s with
              kernel.display := s.kernel.display.putc t c
              pending := Function.update s.pending t pending }
        | [] =>
            let made := Program.advance (beginOn bootBlock) (s.programs t, s.kernel)
            { kernel := made.2
              programs := Function.update s.programs t made.1
              pending :=
                Function.update s.pending t (outputOf (activePcb s.kernel) (s.programs t)) }
    | .kernel action => { s with kernel := s.kernel.step bootBlock action }

/-- The terminal that an event concerns: the active one, or the one on display. -/
def route (s : Terminals) : Event → Option (TerminalId × Input)
  | .proceed => some (s.kernel.proc.activeTerminal, .proceed)
  | .kernel (.echo c) => some (s.kernel.display.currentTerminal, .echo c)
  | .kernel .echoBack => some (s.kernel.display.currentTerminal, .back)
  | .kernel .echoClear => some (s.kernel.display.currentTerminal, .clear)
  | .kernel _ => none

/-- The logical screen of a terminal. -/
def logicalSheet (display : Display) (t : TerminalId) : Sheet Cell :=
  display.sheet (display.screenPage t) t

def deskOf (s : State) (t : TerminalId) : Desk where
  pcb := (s.proc.pcb (s.proc.currentProcessId t)).own
  argumentExist := s.proc.argumentExist
  screen := logicalSheet s.display t

def Terminals.seat (s : Terminals) (t : TerminalId) : Seat :=
  ⟨s.programs t, s.pending t, deskOf s.kernel t⟩

/-- Every terminal has a process of its own, and the active process is that of its terminal. -/
structure Seated (s : State) : Prop where
  sound : Sound s
  entered : AllEntered s
  apart : ∀ t u, s.proc.currentProcessId t = s.proc.currentProcessId u → t = u
  active : s.proc.activePid = s.proc.currentProcessId s.proc.activeTerminal

/-- A session at a desk: what it prints comes out on the screen, behind the text of `paper`. -/
structure AtWork (paper : Sheet Cell) (session : Session) (desk : Desk) : Prop where
  pcb : desk.pcb = session.pcb.own
  argumentExist : desk.argumentExist = session.argumentExist
  typed : session.typed = []
  children : session.children = []
  shows : ∃ scrolled, Sheet.WindowOf NUM_ROWS NUM_COLS desk.screen
    (teletype paper session.screen) scrolled
  ahead : Sheet.BlankAhead blankCell (teletype paper session.screen)

/-- The kernel has been booted, with a shell for every terminal, and has come to all of them. -/
structure UnderWay (bootBlock : Option Image) (s : State) : Prop where
  booted : ∃ start buffers as, PowerOn start ∧ (∀ t, ShellFound bootBlock (buffers t)) ∧
    (turnMachine bootBlock).Run (start.entry bootBlock buffers) as s
  running : s.faulted = false
  entered : AllEntered s

section Blocks

variable {bootBlock : Option Image} {pcb : Pcb}

@[simp] theorem own_own (pcb : Pcb) : pcb.own.own = pcb.own := rfl

@[simp] theorem fileDescriptorArray_own (pcb : Pcb) :
    pcb.own.fileDescriptorArray = pcb.fileDescriptorArray := rfl

@[simp] theorem setDescriptor_own (pcb : Pcb) (fd : Fin MAX_NUM_FILES)
    (descriptor : FileDescriptor) :
    pcb.own.setDescriptor fd descriptor = (pcb.setDescriptor fd descriptor).own := rfl

theorem searchFree_own (pcb : Pcb) (fdNum rounds : Nat) :
    searchFree pcb.own fdNum rounds = searchFree pcb fdNum rounds := by
  induction rounds generalizing fdNum with
  | zero => rfl
  | succ rounds ih =>
      simp only [searchFree, ih]
      rfl

theorem open_own (bootBlock : Option Image) (pcb : Pcb) (filename : Option CharPtr) :
    (fileDescriptorTableOpen bootBlock pcb.own filename).1 =
        (fileDescriptorTableOpen bootBlock pcb filename).1 ∧
      (fileDescriptorTableOpen bootBlock pcb.own filename).2.own =
        (fileDescriptorTableOpen bootBlock pcb filename).2.own := by
  simp only [fileDescriptorTableOpen, searchFree_own]
  by_cases inRange : searchFree pcb 2 (MAX_NUM_FILES - 2) < MAX_NUM_FILES
  · have stored := Pcb.storeWord_flags pcb ⟨_, inRange⟩
    have storedOwn := Pcb.storeWord_flags pcb.own ⟨_, inRange⟩
    simp only at stored storedOwn
    simp only [dif_pos inRange, stored, storedOwn]
    cases readDentryByName bootBlock filename with
    | none => exact ⟨rfl, rfl⟩
    | some dirEntry =>
        dsimp only
        cases opsOfType dirEntry.filetype with
        | none => exact ⟨rfl, rfl⟩
        | some ops => exact ⟨rfl, rfl⟩
  · have last : searchFree pcb 2 (MAX_NUM_FILES - 2) = MAX_NUM_FILES :=
      Nat.le_antisymm (searchFree_spec pcb 2 (MAX_NUM_FILES - 2) rfl).2.1 (Nat.le_of_not_lt inRange)
    simp only [last, dif_neg (Nat.lt_irrefl _), Pcb.storeWord_flags_past, true_and]
    rfl

theorem close_own (pcb : Pcb) (fd : Int) :
    (fileDescriptorTableClose pcb.own fd).1 = (fileDescriptorTableClose pcb fd).1 ∧
      (fileDescriptorTableClose pcb.own fd).2.own = (fileDescriptorTableClose pcb fd).2.own := by
  dsimp only [fileDescriptorTableClose, fileDescriptorArray_own]
  cases descriptorIndex fd with
  | none => exact ⟨rfl, rfl⟩
  | some slot =>
      dsimp only
      by_cases refused : (fileClose (pcb.fileDescriptorArray slot).inode).1 = -1
      · simp only [if_pos refused, own_own, and_self]
      · simp only [if_neg refused, setDescriptor_own, own_own, and_self]

theorem read_own (bootBlock : Option Image) (pcb : Pcb) (fd : Int) (bufIsNull : Bool)
    (length : Int) (answer : Transfer) :
    (fileDescriptorTableRead bootBlock pcb.own fd bufIsNull length answer).1 =
        (fileDescriptorTableRead bootBlock pcb fd bufIsNull length answer).1 ∧
      (fileDescriptorTableRead bootBlock pcb.own fd bufIsNull length answer).2.own =
        (fileDescriptorTableRead bootBlock pcb fd bufIsNull length answer).2.own := by
  simp only [fileDescriptorTableRead, fileDescriptorArray_own]
  cases descriptorIndex fd with
  | none => exact ⟨rfl, rfl⟩
  | some slot =>
      dsimp only
      cases (pcb.fileDescriptorArray slot).fileOps with
      | none => exact ⟨rfl, rfl⟩
      | some ops =>
          dsimp only
          by_cases readable : FileOps.hasRead ops = true
          · simp only [if_pos readable, setDescriptor_own, own_own, and_self]
          · simp only [if_neg readable, own_own, and_self]

/-- No call looks at the context. -/
theorem run_own (bootBlock : Option Image) (pcb : Pcb) (call : Descriptor.Call) :
    (call.run bootBlock pcb.own).1 = (call.run bootBlock pcb).1 ∧
      (call.run bootBlock pcb.own).2.own = (call.run bootBlock pcb).2.own := by
  cases call with
  | openName filename =>
      obtain ⟨ret, block⟩ := open_own bootBlock pcb filename
      simp only [Call.run, ret, true_and]
      exact block
  | close fd =>
      obtain ⟨ret, block⟩ := close_own pcb fd
      simp only [Call.run, ret, true_and]
      exact block
  | read fd bufIsNull nbytes answer => exact read_own bootBlock pcb fd bufIsNull nbytes answer
  | write fd answer => exact ⟨rfl, rfl⟩

end Blocks

section Screens

variable {before after : Display} {display : Display} {t : TerminalId}

theorem logicalSheet_same (contents : before.SameScreen after t)
    (cursor : after.screens t = before.screens t) :
    logicalSheet after t = logicalSheet before t := by
  apply Sheet.ext
  · funext i j
    simp only [logicalSheet, Display.sheet]
    split
    · next inside =>
        simp only [NUM_ROWS, NUM_COLS] at inside
        have first := contents (2 * (NUM_COLS * i + j)) (by
          simp only [NUM_COLS]
          omega)
        have second := contents (2 * (NUM_COLS * i + j) + 1) (by
          simp only [NUM_COLS]
          omega)
        simp only [cellsOf, first, Nat.add_assoc, second]
    · rfl
  · simp only [logicalSheet, Display.sheet, cursor]
  · simp only [logicalSheet, Display.sheet, cursor]

/-- A byte on the logical screen of its terminal. -/
theorem logicalSheet_putcOn {base : Nat} (window : display.mmu.Window base (display.screenPage t))
    (inside : (display.screens t).Inside) (c : UInt8) :
    logicalSheet (display.putcOn base t c) t =
      (logicalSheet display t).feedOn NUM_ROWS NUM_COLS blankCell (teletypeInput c) := by
  have page : (display.putcOn base t c).screenPage t = display.screenPage t := by
    simp only [Display.screenPage, Display.putcOn_currentTerminal]
  rw [logicalSheet, page]
  exact putcOn_sheet window inside c

theorem logicalSheet_clearOn {base : Nat} (window : display.mmu.Window base (display.screenPage t)) :
    logicalSheet (display.clearOn base t) t = Sheet.empty blankCell := by
  have page : (display.clearOn base t).screenPage t = display.screenPage t := by
    simp only [Display.screenPage, Display.clearOn_currentTerminal]
  rw [logicalSheet, page]
  exact clearOn_sheet window

/-- The cell that a backspace blanks, and the cursor on it. -/
theorem erase_sheet {page : Nat} (window : display.mmu.Window VIDEO_DIRECT page) {x y : Nat}
    (column : x < NUM_COLS) (row : y < NUM_ROWS) :
    let cell := VIDEO_DIRECT + 2 * (NUM_COLS * y + x)
    Display.sheet { display.moveTo t x y with
        mmu := (display.mmu.store cell SPACE).store (cell + 1) ATTRIB } page t =
      { cell := fun i j => if i = y ∧ j = x then blankCell else (display.sheet page t).cell i j
        row := y
        column := x } := by
  have cells := steps_cells window (charSteps_onScreen column row SPACE)
  have ordinary : ¬ isNewline SPACE := by decide
  rw [charSteps, if_neg ordinary] at cells
  simp only [List.foldl_cons, List.foldl_nil, CellStep.run, CellStep.onCells] at cells
  apply Sheet.ext
  · funext i j
    simp only [Display.sheet, cells, Function.update_apply]
    simp only [NUM_ROWS, NUM_COLS, blankCell] at *
    grind
  · simp only [Display.sheet, Display.moveTo_screen]
  · simp only [Display.sheet, Display.moveTo_screen]

theorem backPutc_sheet (window : display.mmu.Window VIDEO_DIRECT videoPage)
    (inside : (display.screens display.currentTerminal).Inside) :
    display.currentTerminalBackPutc.sheet videoPage display.currentTerminal =
      (display.sheet videoPage display.currentTerminal).back NUM_COLS blankCell := by
  obtain ⟨column, row, below⟩ := inside
  have cursor (display : Display) (page : Nat) (t : TerminalId) :
      display.showCursor.sheet page t = display.sheet page t := rfl
  have here : (display.sheet videoPage display.currentTerminal).row =
      (display.screens display.currentTerminal).screenY := rfl
  have there : (display.sheet videoPage display.currentTerminal).column =
      (display.screens display.currentTerminal).screenX := rfl
  simp only [Display.currentTerminalBackPutc, Sheet.back, here, there]
  generalize (display.screens display.currentTerminal).screenX = x at column below
  generalize (display.screens display.currentTerminal).screenY = y at row below
  by_cases home : x = 0 ∧ y = 0
  · rw [if_pos home, if_pos (And.comm.mp home), cursor]
  · rw [if_neg home, if_neg (fun start => home (And.comm.mp start)), cursor]
    by_cases edge : x = 0
    · simp only [if_pos edge, Display.moveTo_screen]
      exact erase_sheet window (by decide) (by simp only [NUM_ROWS] at *; omega)
    · simp only [if_neg edge, Display.moveTo_screen]
      exact erase_sheet window (by omega) (by omega)

theorem logicalSheet_back (window : display.mmu.Window VIDEO_DIRECT videoPage)
    (inside : (display.screens display.currentTerminal).Inside) :
    logicalSheet display.currentTerminalBackPutc display.currentTerminal =
      (logicalSheet display display.currentTerminal).back NUM_COLS blankCell := by
  have shown (display : Display) : display.screenPage display.currentTerminal = videoPage :=
    if_pos rfl
  have page := shown display.currentTerminalBackPutc
  rw [Display.currentTerminalBackPutc_currentTerminal] at page
  rw [logicalSheet, logicalSheet, page, shown]
  exact backPutc_sheet window inside

end Screens

section Desks

variable {s after : State} {bootBlock : Option Image} {t : TerminalId}

theorem Seated.occupied (seated : Seated s) : s.proc.activePid ≠ 0 := by
  rw [seated.active]
  exact seated.entered _

theorem Seated.of_proc (seated : Seated s) (proc : after.proc = s.proc) (sound : Sound after) :
    Seated after where
  sound := sound
  entered t := by
    rw [proc]
    exact seated.entered t
  apart t u := by
    rw [proc]
    exact seated.apart t u
  active := by
    rw [proc]
    exact seated.active

theorem deskOf_same (proc : after.proc = s.proc)
    (screen : logicalSheet after.display t = logicalSheet s.display t) :
    deskOf after t = deskOf s t := by
  simp only [deskOf, proc, screen]

/-- Output on the screen of one terminal. -/
theorem deskOf_output (output : ScreenOutput t s after) {u : TerminalId} (other : u ≠ t) :
    deskOf after u = deskOf s u := by
  obtain ⟨contents, cursor⟩ := output.others u other
  exact deskOf_same output.proc (logicalSheet_same contents cursor)

theorem deskOf_written (output : ScreenOutput t s after) :
    deskOf after t = { deskOf s t with screen := logicalSheet after.display t } := by
  simp only [deskOf, output.proc]

theorem deskOf_setActivePcb (seated : Seated s) (pcb : Pcb) :
    deskOf (setActivePcb s pcb) s.proc.activeTerminal =
      (deskOf s s.proc.activeTerminal).setPcb pcb := by
  simp only [deskOf, setActivePcb, Proc.setPcb, seated.active, Function.update_self, Desk.setPcb]

/-- The process of another terminal has another block. -/
theorem deskOf_setActivePcb_other (seated : Seated s) (pcb : Pcb)
    (other : t ≠ s.proc.activeTerminal) : deskOf (setActivePcb s pcb) t = deskOf s t := by
  have apart : s.proc.currentProcessId t ≠ s.proc.activePid := by
    rw [seated.active]
    exact fun same => other (seated.apart _ _ same)
  simp only [deskOf, setActivePcb, Proc.setPcb, Function.update_of_ne apart]

/-- The timer goes on to the process of the next terminal. -/
theorem Seated.schedule (seated : Seated s) {interrupted : Context}
    (able : s.able (.schedule interrupted)) :
    Seated (s.schedule interrupted) ∧ ∀ t, deskOf (s.schedule interrupted) t = deskOf s t := by
  have outcome : Kernel.Outcome none s (.schedule interrupted) (s.schedule interrupted) :=
    State.step_outcome seated.sound able
  have kept : ScreensKept s (.schedule interrupted) (s.schedule interrupted) :=
    outcome.screensKept seated.sound id
  have sound := (outcome.sound seated.sound).resolve_left fun faults => faults.1
  generalize s.schedule interrupted = after at outcome kept sound
  cases outcome with
  | first next idle switched => exact absurd idle (seated.entered _)
  | fault faulting faults elsewhere => exact absurd faulting id
  | next next occupied switched =>
      constructor
      · exact ⟨sound, seated.entered, seated.apart, rfl⟩
      · intro t
        have screen := logicalSheet_same (kept.contents t) (congrFun kept.cursors t)
        have block : ((s.proc.rotated interrupted).pcb (s.proc.currentProcessId t)).own =
            (s.proc.pcb (s.proc.currentProcessId t)).own := by
          simp only [Proc.rotated, Function.update_apply]
          split
          · next same =>
              rw [same]
              rfl
          · rfl
        simp only [deskOf, screen]
        exact congrArg (Desk.mk · _ _) block

/-- The keyboard, the timer, and stores of a program to its page. -/
theorem Seated.between {s : Terminals} (seated : Seated s.kernel) (bootBlock : Option Image)
    {action : Action} (able : s.kernel.able action) (between : BetweenCalls action) :
    let after := (terminals bootBlock).next s (.kernel action)
    Seated after.kernel ∧ ∀ t, after.seat t =
      (Machine.inputFor route t s (.kernel action)).foldl (Seat.next bootBlock) (s.seat t) := by
  have outcome : Kernel.Outcome bootBlock s.kernel action (s.kernel.step bootBlock action) :=
    State.step_outcome seated.sound able
  have calm : ¬ Faulting s.kernel action := by
    cases action with
    | switchTo t => exact fun faulting => seated.occupied faulting.1
    | halt status => exact between.elim
    | _ => exact id
  have kept := outcome.screensKept seated.sound calm
  have sound := (outcome.sound seated.sound).resolve_left fun faults => calm faults.1
  let after := (terminals bootBlock).next s (.kernel action)
  -- a step that leaves every desk as it is
  have leaves (routed : route s (.kernel action) = none) (later : Seated after.kernel)
      (desks : ∀ t, deskOf after.kernel t = deskOf s.kernel t) :
      Seated after.kernel ∧ ∀ t, after.seat t =
        (Machine.inputFor route t s (.kernel action)).foldl (Seat.next bootBlock) (s.seat t) := by
    refine ⟨later, fun t => ?_⟩
    rw [Machine.inputFor_none routed, List.foldl_nil]
    exact congrArg _ (desks t)
  -- a step that writes on the terminal on display
  have writes (input : Input)
      (routed : route s (.kernel action) = some (s.kernel.display.currentTerminal, input))
      (output : ScreenOutput s.kernel.display.currentTerminal s.kernel after.kernel)
      (written : Seat.next bootBlock (s.seat s.kernel.display.currentTerminal) input =
        { s.seat s.kernel.display.currentTerminal with
          desk.screen := logicalSheet after.kernel.display s.kernel.display.currentTerminal }) :
      Seated after.kernel ∧ ∀ t, after.seat t =
        (Machine.inputFor route t s (.kernel action)).foldl (Seat.next bootBlock) (s.seat t) := by
    refine ⟨seated.of_proc output.proc sound, fun t => ?_⟩
    by_cases shown : t = s.kernel.display.currentTerminal
    · subst shown
      rw [Machine.inputFor_self routed, List.foldl_cons, List.foldl_nil, written]
      exact congrArg _ (deskOf_written output)
    · rw [Machine.inputFor_other routed shown, List.foldl_nil]
      exact congrArg _ (deskOf_output output shown)
  have direct := seated.sound.valid.tables.directWindow
  have page : s.kernel.display.screenPage s.kernel.display.currentTerminal = videoPage := if_pos rfl
  have inside := seated.sound.valid.inside s.kernel.display.currentTerminal
  cases action with
  | schedule interrupted =>
      obtain ⟨later, desks⟩ := seated.schedule able
      exact leaves rfl later desks
  | switchTo t =>
      have proc : (s.kernel.step bootBlock (.switchTo t)).proc = s.kernel.proc :=
        (s.kernel.switchToTerminal_shows t).1
      apply leaves rfl (seated.of_proc proc sound)
      exact fun u => deskOf_same proc
        (logicalSheet_same (kept.contents u) (congrFun kept.cursors u))
  | userStore va byte =>
      apply leaves rfl (seated.of_proc rfl sound)
      exact fun u => deskOf_same rfl (logicalSheet_same (kept.contents u) (congrFun kept.cursors u))
  | echo c =>
      apply writes (.echo c) rfl kept
      have screen := logicalSheet_putcOn (page.symm ▸ direct) inside c
      simp only [Seat.next, Desk.feed, after, terminals, State.step, Display.currentTerminalPutc,
        screen]
      rfl
  | echoBack =>
      apply writes .back rfl kept
      have screen := logicalSheet_back direct inside
      simp only [Seat.next, after, terminals, State.step, screen]
      rfl
  | echoClear =>
      apply writes .clear rfl kept
      have screen := logicalSheet_clearOn (page.symm ▸ direct)
      simp only [Seat.next, after, terminals, State.step, Display.currentTerminalClear, screen]
  | _ => exact between.elim

end Desks

/-- What a part of a call may do: the desk of the active terminal becomes another. -/
structure AtDesk (s : State) (desk : Desk) (after : State) : Prop where
  seated : Seated after
  active : after.proc.activeTerminal = s.proc.activeTerminal
  own : deskOf after s.proc.activeTerminal = desk
  others : ∀ t, t ≠ s.proc.activeTerminal → deskOf after t = deskOf s t

section Calls

variable {s after : State} {bootBlock : Option Image} {desk : Desk}

theorem AtDesk.refl (seated : Seated s) : AtDesk s (deskOf s s.proc.activeTerminal) s :=
  ⟨seated, rfl, rfl, fun _ _ => rfl⟩

theorem AtDesk.trans {first second : Desk} {later : State} (atFirst : AtDesk s first after)
    (atSecond : AtDesk after second later) : AtDesk s second later where
  seated := atSecond.seated
  active := atSecond.active.trans atFirst.active
  own := by
    rw [← atFirst.active]
    exact atSecond.own
  others t other := by
    rw [← atFirst.others t other]
    apply atSecond.others
    rw [atFirst.active]
    exact other

theorem Seated.putc (seated : Seated s) (c : UInt8) :
    AtDesk s ((deskOf s s.proc.activeTerminal).feed c)
      { s with display := s.display.putc s.proc.activeTerminal c } := by
  have able : s.able (.putc c) := ⟨seated.sound.valid.fault, trivial⟩
  have outcome : Kernel.Outcome none s (.putc c) (s.step none (.putc c)) :=
    State.step_outcome seated.sound able
  have output : ScreenOutput s.proc.activeTerminal s (s.step none (.putc c)) :=
    outcome.screensKept seated.sound id
  have sound := (outcome.sound seated.sound).resolve_left fun faults => faults.1
  have screen := logicalSheet_putcOn seated.sound.valid.window (seated.sound.valid.inside _) c
  constructor
  · exact seated.of_proc output.proc sound
  · rfl
  · refine (deskOf_written output).trans ?_
    simp only [Desk.feed, State.step, Display.putc, screen]
    rfl
  · exact fun t other => deskOf_output output other

theorem Seated.block (seated : Seated s) :
    (deskOf s s.proc.activeTerminal).pcb = (activePcb s).own := by
  simp only [deskOf, activePcb, seated.active]

/-- A call on the descriptors of the process that runs. -/
theorem Seated.setPcb (seated : Seated s) (call : Descriptor.Call) :
    AtDesk s
      ((deskOf s s.proc.activeTerminal).setPcb
        (call.run bootBlock (deskOf s s.proc.activeTerminal).pcb).2)
      (setActivePcb s (call.run bootBlock (activePcb s)).2) := by
  have block := seated.block
  constructor
  · obtain ⟨parentPid, terminal⟩ := Rtc.run_links bootBlock (activePcb s) call
    exact ⟨Rtc.sound_setPcb seated.sound parentPid terminal, seated.entered, seated.apart,
      seated.active⟩
  · rfl
  · rw [deskOf_setActivePcb seated, block]
    simp only [Desk.setPcb, (run_own bootBlock (activePcb s) call).2]
  · exact fun t other => deskOf_setActivePcb_other seated _ other

/-- Call by call, the kernel is the desk of the active terminal. -/
theorem Seated.serves (seated : Seated s) (bootBlock : Option Image) (request : Syscall) :
    (Desk.serve bootBlock (deskOf s s.proc.activeTerminal) request = none ∧
        beginOn bootBlock s request = none) ∨
      ∃ answer desk after,
        Desk.serve bootBlock (deskOf s s.proc.activeTerminal) request = some (answer, desk) ∧
        beginOn bootBlock s request = some (answer, after) ∧ AtDesk s desk after := by
  have block := seated.block
  have driver (fd : Int) :
      driverOf (deskOf s s.proc.activeTerminal).pcb fd = driverOf (activePcb s) fd := by
    rw [block]
    rfl
  have answered (call : Descriptor.Call) :
      (call.run bootBlock (deskOf s s.proc.activeTerminal).pcb).1 =
        (call.run bootBlock (activePcb s)).1 := by
    rw [block]
    exact (run_own bootBlock (activePcb s) call).1
  cases request with
  | getargs nbytes =>
      refine .inr ⟨_, _, _, rfl, ?_, .refl seated⟩
      simp only [beginOn, serveOn, getargs, State.syscallGetargs, Bool.false_eq_true, if_false,
        block]
      rfl
  | openName filename =>
      refine .inr ⟨_, _, _, rfl, ?_, seated.setPcb (.openName (some filename))⟩
      rw [answered]
      rfl
  | close fd =>
      refine .inr ⟨_, _, _, rfl, ?_, seated.setPcb (.close fd)⟩
      rw [answered]
      rfl
  | execute command => exact .inl ⟨rfl, rfl⟩
  | read fd nbytes =>
      by_cases waits : driverOf (activePcb s) fd = some .terminalStdin ∧ toUint32 nbytes ≠ 0
      · refine .inl ⟨if_pos ?_, if_pos waits⟩
        rw [driver]
        exact waits
      · refine .inr ⟨_, _, _, if_neg ?_, ?_, seated.setPcb (.read fd false nbytes ⟨0, []⟩)⟩
        · rw [driver]
          exact waits
        · rw [answered]
          exact if_neg waits
  | write fd buf nbytes =>
      have device : deviceWrite (deskOf s s.proc.activeTerminal).pcb fd buf nbytes =
          deviceWrite (activePcb s) fd buf nbytes := by
        simp only [deviceWrite, driver]
      refine .inr ⟨_, _, s, rfl, ?_, .refl seated⟩
      rw [answered, device]
      rfl

/-- The next call of a program, at the desk and on the kernel. -/
theorem Seated.advance (seated : Seated s) (bootBlock : Option Image)
    (program : UserProgram Int) :
    let atDesk :=
      Program.advance (Desk.serve bootBlock) (program, deskOf s s.proc.activeTerminal)
    let onKernel := Program.advance (beginOn bootBlock) (program, s)
    atDesk.1 = onKernel.1 ∧ AtDesk s atDesk.2 onKernel.2 := by
  cases program with
  | ret value => exact ⟨rfl, .refl seated⟩
  | spent => exact ⟨rfl, .refl seated⟩
  | call request next =>
      simp only [Program.advance]
      cases seated.serves bootBlock request with
      | inl waits =>
          rw [waits.1, waits.2]
          exact ⟨rfl, .refl seated⟩
      | inr answered =>
          obtain ⟨answer, desk, after, atDesk, onKernel, moved⟩ := answered
          rw [atDesk, onKernel]
          exact ⟨rfl, moved⟩

end Calls

section Runs

variable {s later : Terminals} {bootBlock : Option Image} {as : List Event}

theorem next_byte {c : UInt8} {pending : List UInt8}
    (left : s.pending s.kernel.proc.activeTerminal = c :: pending) :
    (terminals bootBlock).next s .proceed =
      { s with
        kernel.display := s.kernel.display.putc s.kernel.proc.activeTerminal c
        pending := Function.update s.pending s.kernel.proc.activeTerminal pending } := by
  simp only [terminals, left]

theorem next_call (finished : s.pending s.kernel.proc.activeTerminal = []) :
    (terminals bootBlock).next s .proceed =
      let t := s.kernel.proc.activeTerminal
      let made := Program.advance (beginOn bootBlock) (s.programs t, s.kernel)
      { kernel := made.2
        programs := Function.update s.programs t made.1
        pending := Function.update s.pending t (outputOf (activePcb s.kernel) (s.programs t)) } := by
  simp only [terminals, finished]

theorem outputOf_own (pcb : Pcb) (program : UserProgram Int) :
    outputOf pcb.own program = outputOf pcb program := rfl

/-- The process that runs is at the desk of the active terminal, and nobody else's is touched. -/
theorem Seated.proceed (seated : Seated s.kernel) (bootBlock : Option Image) :
    let after := (terminals bootBlock).next s .proceed
    Seated after.kernel ∧ after.kernel.proc.activeTerminal = s.kernel.proc.activeTerminal ∧
      ∀ t, after.seat t =
        (Machine.inputFor route t s .proceed).foldl (Seat.next bootBlock) (s.seat t) := by
  let active := s.kernel.proc.activeTerminal
  have routed : route s .proceed = some (active, .proceed) := rfl
  -- the next byte and the next call alike leave the other terminals alone
  have settles {kernel : State} {desk : Desk} (program : UserProgram Int) (pending : List UInt8)
      (moved : AtDesk s.kernel desk kernel)
      (next : (terminals bootBlock).next s .proceed =
        ⟨kernel, Function.update s.programs active program,
          Function.update s.pending active pending⟩)
      (seat : (s.seat active).proceed bootBlock = ⟨program, pending, desk⟩) :
      let after := (terminals bootBlock).next s .proceed
      Seated after.kernel ∧ after.kernel.proc.activeTerminal = s.kernel.proc.activeTerminal ∧
        ∀ t, after.seat t =
          (Machine.inputFor route t s .proceed).foldl (Seat.next bootBlock) (s.seat t) := by
    rw [next]
    refine ⟨moved.seated, moved.active, fun t => ?_⟩
    by_cases here : t = active
    · subst here
      rw [Machine.inputFor_self routed, List.foldl_cons, List.foldl_nil, Seat.next, seat]
      simp only [Terminals.seat, Function.update_self]
      exact congrArg _ moved.own
    · rw [Machine.inputFor_other routed here, List.foldl_nil]
      simp only [Terminals.seat, Function.update_of_ne here]
      exact congrArg _ (moved.others t here)
  cases left : s.pending active with
  | cons c pending =>
      apply settles (s.programs active) pending (seated.putc c)
      · rw [next_byte left, Function.update_eq_self]
      · simp only [Seat.proceed, Terminals.seat, left]
        rfl
  | nil =>
      obtain ⟨program, moved⟩ := seated.advance bootBlock (s.programs active)
      apply settles _ (outputOf (activePcb s.kernel) (s.programs active)) moved
      · exact next_call left
      · have output : outputOf (deskOf s.kernel active).pcb (s.programs active) =
            outputOf (activePcb s.kernel) (s.programs active) :=
          (congrArg (outputOf · _) seated.block).trans (outputOf_own ..)
        simp only [Seat.proceed, Terminals.seat, left, output]
        exact congrArg (Seat.mk · _ _) program

/-- One event, seen from every seat. -/
theorem Seated.step (seated : Seated s.kernel) {event : Event}
    (able : (terminals bootBlock).enabled s event) :
    Seated ((terminals bootBlock).next s event).kernel ∧ ∀ t,
      ((terminals bootBlock).next s event).seat t =
        (Machine.inputFor route t s event).foldl (Seat.next bootBlock) (s.seat t) := by
  cases event with
  | kernel action => exact seated.between bootBlock able.1 able.2
  | proceed =>
      obtain ⟨later, _, seats⟩ := seated.proceed bootBlock
      exact ⟨later, seats⟩

theorem Seated.of_run (seated : Seated s.kernel) (run : (terminals bootBlock).Run s as later)
    (t : TerminalId) :
    later.seat t = ((terminals bootBlock).received route t s as).foldl (Seat.next bootBlock)
      (s.seat t) :=
  run.part (I := fun s => Seated s.kernel) Terminals.seat
    (fun _ _ seated able => (seated.step able).1) (fun _ _ seated able => (seated.step able).2)
    seated t

end Runs

section Alone

variable {bootBlock : Option Image} {paper : Sheet Cell} {session : Session} {desk : Desk}

theorem AtWork.setPcb (work : AtWork paper session desk) (call : Descriptor.Call) :
    AtWork paper (session.setPcb (call.run bootBlock session.pcb).2)
      (desk.setPcb (call.run bootBlock desk.pcb).2) where
  pcb := by
    rw [work.pcb]
    exact (run_own bootBlock session.pcb call).2
  argumentExist := work.argumentExist
  typed := work.typed
  children := work.children
  shows := work.shows
  ahead := work.ahead

theorem AtWork.print (work : AtWork paper session desk) (bytes : List UInt8) :
    AtWork paper (session.print bytes) (desk.print bytes) := by
  induction bytes generalizing session desk with
  | nil =>
      have same : session.print [] = session := by
        rw [Session.print, List.append_nil]
      rw [same]
      exact work
  | cons c bytes ih =>
      have both : session.print (c :: bytes) = (session.print [c]).print bytes := by
        simp only [Session.print, List.append_assoc, List.singleton_append]
      rw [both]
      show AtWork paper _ ((desk.feed c).print bytes)
      apply ih
      obtain ⟨scrolled, shows⟩ := work.shows
      obtain ⟨moved, _, window⟩ := shows.feed (by decide) work.ahead (teletypeInput c)
      constructor
      · exact work.pcb
      · exact work.argumentExist
      · exact work.typed
      · exact work.children
      · refine ⟨moved, ?_⟩
        rw [Session.print, teletype_append]
        exact window
      · rw [Session.print, teletype_append]
        exact work.ahead.feed _

/-- Call by call, the desk answers as the session does, and what it has still to print is what the
    session prints. -/
theorem AtWork.answers (work : AtWork paper session desk) (bootBlock : Option Image)
    (request : Syscall) (next : Transfer → UserProgram Int) :
    (session.serve bootBlock request = none ∧ desk.serve bootBlock request = none) ∨
      ∃ answer later later', session.serve bootBlock request = some (answer, later) ∧
        desk.serve bootBlock request = some (answer, later') ∧
        AtWork paper later (later'.print (outputOf desk.pcb (.call request next))) := by
  have driver (fd : Int) : driverOf desk.pcb fd = driverOf session.pcb fd := by
    rw [work.pcb]
    rfl
  have answered (call : Descriptor.Call) :
      (call.run bootBlock desk.pcb).1 = (call.run bootBlock session.pcb).1 := by
    rw [work.pcb]
    exact (run_own bootBlock session.pcb call).1
  cases request with
  | getargs nbytes =>
      refine .inr ⟨_, _, _, rfl, ?_, work⟩
      simp only [Desk.serve, work.argumentExist, work.pcb]
      rfl
  | openName filename =>
      refine .inr ⟨_, _, _, rfl, ?_, work.setPcb (.openName (some filename))⟩
      rw [← answered]
      rfl
  | close fd =>
      refine .inr ⟨_, _, _, rfl, ?_, work.setPcb (.close fd)⟩
      rw [← answered]
      rfl
  | execute command => exact .inl ⟨by simp only [Session.serve, work.children], rfl⟩
  | read fd nbytes =>
      by_cases waits : driverOf session.pcb fd = some .terminalStdin ∧ toUint32 nbytes ≠ 0
      · refine .inl ⟨?_, if_pos ?_⟩
        · simp only [Session.serve, Session.device, if_pos waits, work.typed, Option.map_none]
        · rw [driver]
          exact waits
      · refine .inr ⟨_, _, _, ?_, if_neg ?_, work.setPcb (.read fd false nbytes ⟨0, []⟩)⟩
        · simp only [Session.serve, Session.device, if_neg waits, Option.map_some]
          rw [answered]
          rfl
        · rw [driver]
          exact waits
  | write fd buf nbytes =>
      have device : deviceWrite desk.pcb fd buf nbytes = deviceWrite session.pcb fd buf nbytes := by
        simp only [deviceWrite, driver]
      have same : desk.serve bootBlock (.write fd buf nbytes) =
          some (((Call.write fd (deviceWrite session.pcb fd buf nbytes)).run bootBlock
            session.pcb).1, desk) := by
        rw [Desk.serve, answered, device]
      refine .inr ⟨_, _, _, rfl, same, ?_⟩
      rw [outputOf, driver]
      split
      · exact work.print (written buf nbytes)
      · exact work

/-- What the kernel serves is at work at the desk of the active terminal. -/
theorem Serves.atWork {s : State} (serves : Serves paper session s) (seated : Seated s) :
    AtWork paper session (deskOf s s.proc.activeTerminal) where
  pcb := by
    rw [serves.pcb]
    simp only [deskOf, activePcb, seated.active]
  argumentExist := serves.argumentExist.symm
  typed := serves.typed
  children := serves.children
  shows := by
    have page : s.display.screenPage s.proc.activeTerminal = videoPage := if_pos serves.displayed
    simp only [deskOf, logicalSheet, page]
    rw [serves.displayed]
    exact serves.shows
  ahead := serves.ahead

/-- The bytes of a write come out one by one. -/
theorem proceed_pending (program : UserProgram Int) (pending : List UInt8) (desk : Desk) :
    (Seat.proceed bootBlock)^[pending.length] ⟨program, pending, desk⟩ =
      ⟨program, [], desk.print pending⟩ := by
  induction pending generalizing desk with
  | nil => rfl
  | cons c pending ih =>
      rw [List.length_cons, Function.iterate_succ_apply]
      exact ih (desk.feed c)

/-- A program that ends in its session ends at the desk, after so many calls and bytes. -/
theorem AtWork.ends {program : UserProgram Int} {pending : List UInt8} {value : Int}
    {ended : Session} (work : AtWork paper session (desk.print pending))
    (alone : program.run (Session.serve bootBlock) session = .returned value ended) :
    ∃ turns, ∀ more, ∃ desk',
      (Seat.proceed bootBlock)^[more + turns] ⟨program, pending, desk⟩ = ⟨.ret value, [], desk'⟩ ∧
        AtWork paper ended desk' := by
  induction program generalizing session desk pending with
  | ret other =>
      cases alone
      refine ⟨pending.length, fun more => ⟨_, ?_, work⟩⟩
      rw [Function.iterate_add_apply, proceed_pending]
      exact Function.iterate_fixed rfl more
  | spent => cases alone
  | call request next ih =>
      rw [Program.run] at alone
      cases work.answers bootBlock request next with
      | inl waits =>
          rw [waits.1] at alone
          cases alone
      | inr answered =>
          obtain ⟨answer, later, later', bySession, byDesk, still⟩ := answered
          rw [bySession] at alone
          obtain ⟨turns, ends⟩ := ih answer still alone
          refine ⟨turns + (1 + pending.length), fun more => ?_⟩
          obtain ⟨desk', seat, still⟩ := ends more
          refine ⟨desk', ?_, still⟩
          rw [← Nat.add_assoc, ← Nat.add_assoc, Function.iterate_add_apply, proceed_pending,
            Function.iterate_add_apply, ← seat]
          simp only [Function.iterate_one, Seat.proceed, Program.advance, byDesk]

/-- The process goes on, and nothing else happens at the seat. -/
theorem foldl_proceed {inputs : List Input} (undisturbed : ∀ input ∈ inputs, input = .proceed)
    (seat : Seat) :
    inputs.foldl (Seat.next bootBlock) seat = (Seat.proceed bootBlock)^[inputs.length] seat := by
  induction inputs generalizing seat with
  | nil => rfl
  | cons input inputs ih =>
      obtain ⟨rfl, rest⟩ := List.forall_mem_cons.mp undisturbed
      rw [List.foldl_cons, ih rest, List.length_cons, Function.iterate_succ_apply]
      rfl

end Alone

section Terminals

variable {s later : Terminals} {bootBlock : Option Image} {as : List Event}

theorem UnderWay.seated {s : State} (underWay : UnderWay bootBlock s) : Seated s := by
  obtain ⟨start, buffers, as, on, found, run⟩ := underWay.booted
  obtain ⟨fresh, roots⟩ := on.entry_fresh bootBlock buffers
  obtain ⟨_, last⟩ := selections_of_run (m := 0) run (fresh.forested (roots found)) (by
    rw [fresh.activeTerminal]
    rfl)
  obtain ⟨forested, _⟩ := last.resolve_left (by
    rw [underWay.running]
    exact Bool.false_ne_true)
  obtain ⟨sessions, forest⟩ := forested.forest
  have chains := forest.processForest
  refine ⟨forested.sound, underWay.entered, fun t u same => ?_, chains.active⟩
  obtain ⟨chain, _, occupied, disjoint, _⟩ := chains.chains
  have head (t : TerminalId) : s.proc.currentProcessId t ∈ chain t :=
    List.mem_of_mem_head? (occupied t (underWay.entered t)).current
  by_contra other
  exact disjoint t u other (head t) (same ▸ head u)

/-- Three programs, called on in turn by the timer and in any order of events between their calls
    and the bytes they write: what a terminal comes to, its program, its descriptors and its
    screen, is what its own process and what is typed on it make of it. -/
theorem terminals_kept_apart (underWay : UnderWay bootBlock s.kernel)
    (run : (terminals bootBlock).Run s as later) (t : TerminalId) :
    later.seat t = ((terminals bootBlock).received route t s as).foldl (Seat.next bootBlock)
      (s.seat t) :=
  underWay.seated.of_run run t

/-- A program that ends when it is alone with the kernel ends with the same value, and with the
    same text on its screen, whatever the other terminals do and whenever the timer strikes, once it
    has had its turns. -/
theorem programs_end_as_alone (underWay : UnderWay bootBlock s.kernel) {t : TerminalId}
    {paper : Sheet Cell} {session ended : Session} {value : Int}
    (work : AtWork paper session ((deskOf s.kernel t).print (s.pending t)))
    (alone : (s.programs t).run (Session.serve bootBlock) session = .returned value ended) :
    ∃ turns, ∀ as later, (terminals bootBlock).Run s as later →
      (∀ input ∈ (terminals bootBlock).received route t s as, input = .proceed) →
      turns ≤ ((terminals bootBlock).received route t s as).length →
        later.programs t = .ret value ∧ later.pending t = [] ∧
          ∃ scrolled, Sheet.WindowOf NUM_ROWS NUM_COLS (logicalSheet later.kernel.display t)
            (teletype paper ended.screen) scrolled := by
  obtain ⟨turns, ends⟩ := work.ends alone
  refine ⟨turns, fun as later run undisturbed enough => ?_⟩
  obtain ⟨desk, seat, still⟩ :=
    ends (((terminals bootBlock).received route t s as).length - turns)
  rw [Nat.sub_add_cancel enough, ← foldl_proceed undisturbed] at seat
  have same : later.seat t = ⟨.ret value, [], desk⟩ :=
    (underWay.seated.of_run run t).trans seat
  obtain ⟨program, pending, rfl⟩ := Seat.mk.inj same
  exact ⟨program, pending, still.shows⟩

end Terminals

section Examples

variable {s : Terminals} {bootBlock : Option Image}

/-- Nothing but the process of the active terminal goes on. -/
theorem Seated.undisturbed (seated : Seated s.kernel) (bootBlock : Option Image) (turns : Nat) :
    ∃ later, (terminals bootBlock).Run s (List.replicate turns .proceed) later ∧
      (terminals bootBlock).received route s.kernel.proc.activeTerminal s
        (List.replicate turns .proceed) = List.replicate turns .proceed := by
  induction turns generalizing s with
  | zero => exact ⟨s, .nil s, rfl⟩
  | succ turns ih =>
      obtain ⟨next, active, _⟩ := seated.proceed bootBlock
      obtain ⟨later, run, inputs⟩ := ih next
      rw [active] at inputs
      refine ⟨later, .cons seated.sound.valid.fault run, ?_⟩
      rw [List.replicate_succ, Machine.received, inputs, Machine.inputFor_self rfl]
      rfl

/-- cat has been started for `f` in terminal 1, with a shell in each of the others. -/
theorem cat_underWay : ∃ s session, UnderWay (some catImage) s ∧
    AtWork (.empty blankCell) session (deskOf s s.proc.activeTerminal) ∧
    ∃ ended, (cat 4093 fun _ => 0).run (Session.serve (some catImage)) session =
      .returned 0 ended ∧ ended.screen = text "hello" := by
  obtain ⟨as, s, run, sound, current, active, count, pool, displayed, shows⟩ :=
    three_shells_cleared (some catImage)
      (poweredOn_powerOn.entry_fresh (some catImage) fun _ => []).1
  have able : s.able (.execute [] catCommand ⟨0x7FDF00, 0x7FDF80⟩) := ⟨sound.valid.fault, active⟩
  obtain ⟨⟨entryPoint, enters⟩, kept⟩ :=
    catCommand_enters sound active count pool ⟨0x7FDF00, 0x7FDF80⟩
  obtain ⟨serves, terminal, free⟩ := Serves.of_execute sound able enters displayed shows
    (Sheet.blankAhead_empty blankCell)
  have has := started_has_argument sound able (by decide +kernel) enters
    (by rw [catCommand_word]; decide +kernel) (by rw [catCommand_word]; decide +kernel)
  obtain ⟨answer, ended, exact_, runs, printed⟩ :=
    cat_prints catImage_openable terminal has free (Nat.lt_succ_self 4092) fun _ => 0
  have executes : (turnMachine (some catImage)).Run s
      [.execute [] catCommand ⟨0x7FDF00, 0x7FDF80⟩]
      (s.syscallExecute (some catImage) [] catCommand ⟨0x7FDF00, 0x7FDF80⟩) :=
    .cons ⟨able, trivial⟩ (.nil _)
  have underWay : UnderWay (some catImage)
      (s.syscallExecute (some catImage) [] catCommand ⟨0x7FDF00, 0x7FDF80⟩) :=
    { booted := ⟨poweredOn, fun _ => [], _, poweredOn_powerOn, fun _ => catImage_found,
        run.append executes⟩
      running := serves.sound.valid.fault
      entered := fun t => kept t (by
        rw [current]
        cases t <;> decide) }
  refine ⟨_, _, underWay, serves.atWork underWay.seated, ended, ?_, ?_⟩
  · rw [catCommand_answer exact_] at runs
    exact runs
  · rw [printed.screen, catCommand_answer exact_]
    rfl

/-- One turn of cat, the timer, and one turn of the process of terminal 2. -/
theorem cat_kept_apart : ∃ (s : Terminals) (as : List Event) (later : Terminals),
    UnderWay (some catImage) s.kernel ∧ as.length = 3 ∧
    ∀ t, later.seat t =
      ((terminals (some catImage)).received route t s as).foldl (Seat.next (some catImage))
        (s.seat t) := by
  obtain ⟨kernel, session, underWay, _⟩ := cat_underWay
  let s : Terminals := ⟨kernel, fun _ => cat 4093 fun _ => 0, fun _ => []⟩
  obtain ⟨first, _⟩ := Seated.proceed (s := s) underWay.seated (some catImage)
  have able : ((terminals (some catImage)).next s .proceed).kernel.able
      (.schedule ⟨0x7FDF00, 0x7FDF80⟩) := ⟨first.sound.valid.fault, trivial⟩
  obtain ⟨second, _⟩ := first.between (some catImage) able trivial
  have run : (terminals (some catImage)).Run s
      [.proceed, .kernel (.schedule ⟨0x7FDF00, 0x7FDF80⟩), .proceed] _ :=
    .cons underWay.running (.cons ⟨able, trivial⟩ (.cons second.sound.valid.fault (.nil _)))
  exact ⟨s, _, _, underWay, rfl, terminals_kept_apart underWay run⟩

theorem cat_ends_as_alone : ∃ (s later : Terminals), UnderWay (some catImage) s.kernel ∧
    s.programs s.kernel.proc.activeTerminal = cat 4093 (fun _ => 0) ∧
    later.programs s.kernel.proc.activeTerminal = .ret 0 ∧
    later.pending s.kernel.proc.activeTerminal = [] ∧
    ∃ scrolled, Sheet.WindowOf NUM_ROWS NUM_COLS
      (logicalSheet later.kernel.display s.kernel.proc.activeTerminal)
      (teletype (.empty blankCell) (text "hello")) scrolled := by
  obtain ⟨kernel, session, underWay, work, ended, runs, screen⟩ := cat_underWay
  let s : Terminals := ⟨kernel, fun _ => cat 4093 fun _ => 0, fun _ => []⟩
  obtain ⟨turns, ends⟩ := programs_end_as_alone (s := s) underWay work runs
  obtain ⟨later, run, inputs⟩ :=
    Seated.undisturbed (s := s) underWay.seated (some catImage) turns
  obtain ⟨program, pending, shows⟩ := ends _ later run
    (by rw [inputs]; exact fun _ => List.eq_of_mem_replicate)
    (by rw [inputs, List.length_replicate])
  rw [screen] at shows
  exact ⟨s, later, underWay, rfl, program, pending, shows⟩

end Examples

end LightOS.Programs
