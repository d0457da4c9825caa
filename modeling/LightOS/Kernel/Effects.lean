import LightOS.Kernel.Mapping
import LightOS.Kernel.Execute
import LightOS.Descriptor.Frame

/-! # What the process routines do

One lemma for each routine of syscall.c, for the states it is called in: its effect on the
globals, written out, and on the display.  Everything later is proved from these effects.
-/

namespace LightOS.Kernel

open Lib Filesystem Descriptor

namespace Proc

/-- After `boot_enter_terminal`. -/
def entered (proc : Proc) (t : TerminalId) : Proc :=
  { proc with
    activeTerminal := t
    activePid := t.number
    currentProcessId := Function.update proc.currentProcessId t t.number
    esp0 := kernelStackPointer t.number }

/-- After `schedule` has gone on to a terminal with a process. -/
def rotated (proc : Proc) (interrupted : Context) : Proc :=
  let t := nextTerminal proc.activeTerminal
  { proc with
    activeTerminal := t
    activePid := proc.currentProcessId t
    pcb := Function.update proc.pcb proc.activePid
      ((proc.pcb proc.activePid).setContext interrupted)
    esp0 := kernelStackPointer (proc.currentProcessId t) }

/-- After `execute` has started `pid`. -/
def started (proc : Proc) (pid : Nat) (block : Pcb) (caller : Context) : Proc :=
  let pcb := Function.update proc.pcb pid block
  { proc with
    activePid := pid
    processCount := proc.processCount + 1
    processes := Function.update proc.processes pid 1
    currentProcessId := Function.update proc.currentProcessId proc.activeTerminal pid
    pcb := Function.update pcb proc.activePid ((pcb proc.activePid).setContext caller)
    esp0 := pcbAddress pid }

/-- The descriptors of a process, closed one after the other. -/
def closeAll (pcb : Pcb) : Pcb :=
  (List.range MAX_NUM_FILES).foldl (fun pcb (i : Nat) => (fileDescriptorTableClose pcb i).2) pcb

/-- After `halt` has gone back to the parent of the active process, in terminal `t`. -/
def reaped (proc : Proc) (t : TerminalId) : Proc :=
  let parent := (proc.pcb proc.activePid).parentPid
  { proc with
    activeTerminal := t
    activePid := parent
    processCount := proc.processCount - 1
    processes := Function.update proc.processes proc.activePid 0
    currentProcessId := Function.update proc.currentProcessId t parent
    pcb := Function.update proc.pcb proc.activePid (closeAll (proc.pcb proc.activePid))
    esp0 := kernelStackPointer parent }

theorem closeAll_tail (pcb : Pcb) : (closeAll pcb).SameTail pcb := by
  unfold closeAll
  suffices ∀ indices : List Nat, ∀ start : Pcb, (indices.foldl
      (fun pcb (i : Nat) => (fileDescriptorTableClose pcb i).2) start).SameTail start from this _ _
  intro indices
  induction indices with
  | nil => exact .refl
  | cons i indices ih =>
      intro start
      exact (ih _).trans (close_tail i)

end Proc

/-- The page of a process is in place, and 0xB8000 in step with the active terminal. -/
structure Switched (before after : Display) (active : TerminalId) (pid : Nat) : Prop where
  same : Display.SameContents before after
  valid : after.Valid active
  user : after.mmu.pageDir Mmu.userIndex = Mmu.userEntry pid

namespace State

section Parts

variable {s : State} {proc : Proc} {display : Display} {control : Control}

theorem pcbMapped_of_mapped (mapped : s.display.mmu.LowMapped) {pid : Nat} (positive : 1 ≤ pid)
    (small : pid ≤ 6) : s.pcbMapped pid = true := by
  apply mapped.translate_kernel <;>
    simp only [pcbAddress, KERNEL_STACK_BASE_ADDRESS, USER_KERNEL_STACK_SIZE] <;> omega

/-- The display that `exception_handler` leaves: its message on a blue screen. -/
theorem exceptionHandler_display (s : State) (vectorNumber : Nat) :
    ∃ message, message = text (exceptions.getD vectorNumber "") ++ [NEWLINE] ∧
      (s.exceptionHandler vectorNumber).display =
        let display := s.display.blueScreen.printf s.proc.activeTerminal message
        { display with mmu := { display.mmu with fault := true } } := by
  refine ⟨_, rfl, ?_⟩
  simp only [exceptionHandler, Display.printf, List.foldl_append, List.foldl_cons, List.foldl_nil]

/-- It writes on the screen of the active terminal only. -/
theorem exceptionHandler_effect (proc : Proc) (control : Control)
    (valid : display.Valid proc.activeTerminal) (vectorNumber : Nat) :
    (State.exceptionHandler ⟨proc, display, control⟩ vectorNumber).faulted = true ∧
      ∀ pa, 4096 * (videoPage + 4) ≤ pa →
        (State.exceptionHandler ⟨proc, display, control⟩ vectorNumber).display.mmu.mem pa =
          display.mmu.mem pa := by
  obtain ⟨message, _, result⟩ :=
    exceptionHandler_display ⟨proc, display, control⟩ vectorNumber
  have painted : OutputOn (display.screenPage proc.activeTerminal) proc.activeTerminal display
      display.blueScreen := Display.blueScreen_output valid.window
  have printed := painted.trans (Display.printf_output (valid.window.of_writes painted.writes)
    (painted.inside (valid.inside _)) message)
  obtain ⟨_, low⟩ := Display.screenPage_range display proc.activeTerminal
  rw [faulted, result]
  exact ⟨rfl, fun pa high => printed.writes.mem pa (by simp only [OnPage]; omega)⟩

/-- `paging_video_memory` either finds the control block of the active process and brings the
    mapping in step, or faults. -/
theorem pagingVideoMemory_cases (proc : Proc) (control : Control) (mapped : display.Mapped) :
    (¬ (1 ≤ proc.activePid ∧ proc.activePid ≤ 6) ∧
        (State.pagingVideoMemory ⟨proc, display, control⟩).faulted = true ∧
        ∀ pa, 4096 * (videoPage + 4) ≤ pa →
          (State.pagingVideoMemory ⟨proc, display, control⟩).display.mmu.mem pa =
            display.mmu.mem pa) ∨
      ∃ display', State.pagingVideoMemory ⟨proc, display, control⟩ = ⟨proc, display', control⟩ ∧
        Display.SameContents display display' ∧ display'.Valid proc.activeTerminal ∧
        display'.mmu.pageDir = display.mmu.pageDir := by
  have valid := mapped.mapVideo proc.activeTerminal
  have same := Display.mapVideo_same display proc.activeTerminal
  have directory : (Display.mapVideo proc.activeTerminal display).mmu.pageDir =
      display.mmu.pageDir := rfl
  generalize paged_eq : Display.mapVideo proc.activeTerminal display = paged at valid same directory
  by_cases inReach : State.pcbMapped ⟨proc, paged, control⟩ proc.activePid = true
  · refine .inr ⟨paged.setVidmapPresent ((proc.pcb proc.activePid).vidmapFlag = 1), ?_,
      same.trans (Display.setVidmapPresent_same _ _), valid.setVidmapPresent _, directory⟩
    simp only [pagingVideoMemory, paged_eq, inReach, if_true]
  · have result : State.pagingVideoMemory ⟨proc, display, control⟩ =
        State.exceptionHandler ⟨proc, paged, control⟩ PAGE_FAULT := by
      simp only [pagingVideoMemory, paged_eq, if_neg inReach]
    obtain ⟨faults, elsewhere⟩ := exceptionHandler_effect proc control valid PAGE_FAULT
    refine .inl ⟨fun range => inReach (pcbMapped_of_mapped valid.tables range.1 range.2), ?_⟩
    rw [result]
    exact ⟨faults, fun pa high => (elsewhere pa high).trans (congrFun same.mem pa)⟩

/-- `paging_execute` and then `paging_video_memory`, with the control block of the active
    process in reach. -/
theorem switchPages (proc : Proc) (control : Control) (mapped : display.Mapped)
    (positive : 1 ≤ proc.activePid) (small : proc.activePid ≤ 6) (pid : Nat) :
    ∃ display', (State.pagingExecute ⟨proc, display, control⟩ pid).pagingVideoMemory =
        ⟨proc, display', control⟩ ∧
      Switched display display' proc.activeTerminal pid := by
  rcases pagingVideoMemory_cases proc control (mapped.pagingExecute pid) with
    ⟨outOfReach, _⟩ | ⟨display', result, same, valid, directory⟩
  · exact absurd ⟨positive, small⟩ outOfReach
  · refine ⟨display', result, (Display.pagingExecute_same display pid).trans same, valid, ?_⟩
    rw [directory]
    simp [Mmu.pagingExecute]

theorem andThen_running {rest : State → State} (running : display.mmu.fault = false) :
    State.andThen ⟨proc, display, control⟩ rest = rest ⟨proc, display, control⟩ := by
  simp [andThen, faulted, running]

/-- A word in the user page can be read. -/
theorem entryPoint_some {pid : Nat} (small : pid ≤ 6)
    (user : s.display.mmu.pageDir Mmu.userIndex = Mmu.userEntry pid) :
    ∃ word, s.entryPoint = some word := by
  have inPage : ∀ va, VIRTUAL_ADDRESS_PROGRAM_START ≤ va →
      va < VIRTUAL_ADDRESS_PROGRAM_START + 28 → ∃ byte, s.display.mmu.loadByte va = some byte := by
    intro va from_ before
    simp only [VIRTUAL_ADDRESS_PROGRAM_START] at from_ before
    have translated := Mmu.translate_user small user
      (show VIRTUAL_128MB_START ≤ va by simp only [VIRTUAL_128MB_START]; omega)
      (by simp only [VIRTUAL_128MB_START]; omega)
    exact ⟨_, by rw [Mmu.loadByte, translated, Option.map_some]⟩
  obtain ⟨b0, h0⟩ := inPage (VIRTUAL_ADDRESS_PROGRAM_START + 24) (by omega) (by omega)
  obtain ⟨b1, h1⟩ := inPage (VIRTUAL_ADDRESS_PROGRAM_START + 24 + 1) (by omega) (by omega)
  obtain ⟨b2, h2⟩ := inPage (VIRTUAL_ADDRESS_PROGRAM_START + 24 + 2) (by omega) (by omega)
  obtain ⟨b3, h3⟩ := inPage (VIRTUAL_ADDRESS_PROGRAM_START + 24 + 3) (by omega) (by omega)
  exact ⟨_, by simp only [entryPoint, Mmu.loadWord, h0, h1, h2, h3]; rfl⟩

theorem contextSwitchExecute_enters (proc : Proc) (display : Display) (control : Control)
    {pid : Nat} (small : pid ≤ 6)
    (user : display.mmu.pageDir Mmu.userIndex = Mmu.userEntry pid) :
    ∃ entryPoint, State.contextSwitchExecute ⟨proc, display, control⟩ =
      ⟨proc, display, .enterUser entryPoint⟩ := by
  obtain ⟨entryPoint, read⟩ := entryPoint_some (s := ⟨proc, display, control⟩) small user
  exact ⟨entryPoint, by simp only [contextSwitchExecute, read]⟩

theorem number_range (t : TerminalId) : 1 ≤ t.number ∧ t.number ≤ 3 := by
  cases t <;> decide

/-- The first three processes are the shells of the terminals. -/
theorem exists_number {pid : Nat} (positive : 1 ≤ pid) (few : pid ≤ 3) :
    ∃ t : TerminalId, pid = t.number := by
  obtain one | two | three : pid = 1 ∨ pid = 2 ∨ pid = 3 := by omega
  · exact ⟨.terminal1, one⟩
  · exact ⟨.terminal2, two⟩
  · exact ⟨.terminal3, three⟩

end Parts

section Effects

variable {s : State}

theorem bootEnterTerminal_effect (mapped : s.display.Mapped) (t : TerminalId) :
    ∃ display entryPoint,
      s.bootEnterTerminal t = ⟨s.proc.entered t, display, .enterUser entryPoint⟩ ∧
      Switched s.display display t t.number := by
  obtain ⟨positive, few⟩ := number_range t
  have small : t.number ≤ 6 := by omega
  obtain ⟨display, pages, switched⟩ :=
    switchPages ({ s.proc with activeTerminal := t, activePid := t.number }.setCurrent t t.number)
      s.control mapped positive small t.number
  obtain ⟨entryPoint, enters⟩ :=
    contextSwitchExecute_enters (s.proc.entered t) display s.control small switched.user
  refine ⟨display, entryPoint, ?_, switched⟩
  rw [← enters]
  simp only [bootEnterTerminal]
  rw [pages, andThen_running switched.valid.fault]
  rfl

/-- The first time in a terminal: its root shell is started. -/
theorem schedule_first (mapped : s.display.Mapped) (interrupted : Context) {t : TerminalId}
    (next : nextTerminal s.proc.activeTerminal = t) (idle : s.proc.currentProcessId t = 0) :
    ∃ display entryPoint, s.schedule interrupted =
        ⟨(s.proc.storeContext (precedingRoot t) interrupted).entered t, display,
          .enterUser entryPoint⟩ ∧
      Switched s.display display t t.number := by
  have inReach (proc : Proc) :
      State.pcbMapped ⟨proc, s.display, s.control⟩ (precedingRoot t) = true := by
    apply pcbMapped_of_mapped mapped.tables <;> cases t <;> decide
  obtain ⟨display, entryPoint, enters, switched⟩ := bootEnterTerminal_effect
    (s := ⟨{ s.proc with activeTerminal := t, activePid := 0 }.storeContext (precedingRoot t)
      interrupted, s.display, s.control⟩) mapped t
  refine ⟨display, entryPoint, ?_, switched⟩
  have result : s.schedule interrupted = State.bootEnterTerminal t
      ⟨{ s.proc with activeTerminal := t, activePid := 0 }.storeContext (precedingRoot t)
        interrupted, s.display, s.control⟩ := by
    simp only [schedule, next, idle, ne_eq, not_true, if_false, inReach, if_true]
    cases t <;> rfl
  rw [result, enters]
  rfl

/-- Otherwise the context is stored for the process that was running, and the process of
    the next terminal goes on. -/
theorem schedule_next (mapped : s.display.Mapped) (interrupted : Context)
    (activePositive : 1 ≤ s.proc.activePid) (activeSmall : s.proc.activePid ≤ 6)
    (positive : 1 ≤ s.proc.currentProcessId (nextTerminal s.proc.activeTerminal))
    (small : s.proc.currentProcessId (nextTerminal s.proc.activeTerminal) ≤ 6) :
    ∃ display, s.schedule interrupted =
        ⟨s.proc.rotated interrupted, display,
          .resume ((s.proc.rotated interrupted).pcb
            (s.proc.currentProcessId (nextTerminal s.proc.activeTerminal))).context⟩ ∧
      Switched s.display display (nextTerminal s.proc.activeTerminal)
        (s.proc.currentProcessId (nextTerminal s.proc.activeTerminal)) := by
  obtain ⟨display, pages, switched⟩ := switchPages (s.proc.rotated interrupted) s.control mapped
    positive small (s.proc.currentProcessId (nextTerminal s.proc.activeTerminal))
  refine ⟨display, ?_, switched⟩
  have inReach (proc : Proc) :
      State.pcbMapped ⟨proc, s.display, s.control⟩ s.proc.activePid = true :=
    pcbMapped_of_mapped mapped.tables activePositive activeSmall
  have notIdle : s.proc.currentProcessId (nextTerminal s.proc.activeTerminal) ≠ 0 := by omega
  have result : s.schedule interrupted =
      ((State.pagingExecute ⟨s.proc.rotated interrupted, s.display, s.control⟩
        (s.proc.currentProcessId (nextTerminal s.proc.activeTerminal))).pagingVideoMemory).andThen
        fun s => { s with control := .resume (s.proc.pcb s.proc.activePid).context } := by
    simp only [schedule, ne_eq, notIdle, not_false_eq_true, if_true, inReach, Proc.storeContext,
      Proc.setPcb, if_false]
    rfl
  rw [result, pages, andThen_running switched.valid.fault]
  rfl

/-- A root shell cannot be halted: it is started again. -/
theorem halt_root (status : UInt8) {t : TerminalId} (root : s.proc.activePid = t.number) :
    ∃ message, s.syscallHalt status = (s.printf message).bootEnterTerminal t := by
  cases t <;> simp only [TerminalId.number] at root <;> simp only [syscallHalt, root]
  · exact ⟨_, rfl⟩
  · exact ⟨_, rfl⟩
  · exact ⟨_, rfl⟩

/-- The tests of `halt` on the pid, for a process that is not a root shell. -/
theorem halt_child_result (mapped : s.display.Mapped) (status : UInt8)
    (child : 4 ≤ s.proc.activePid) (small : s.proc.activePid ≤ 6)
    (parentPositive : 1 ≤ (s.proc.pcb s.proc.activePid).parentPid)
    (parentSmall : (s.proc.pcb s.proc.activePid).parentPid ≤ 6) :
    s.syscallHalt status =
      match (s.proc.pcb (s.proc.pcb s.proc.activePid).parentPid).terminal with
      | none => State.exceptionHandler
          ⟨{ s.proc.reaped s.proc.activeTerminal with
              currentProcessId := s.proc.currentProcessId
              esp0 := s.proc.esp0 }, s.display, s.control⟩ PAGE_FAULT
      | some t =>
          ((State.pagingExecute ⟨s.proc.reaped t, s.display, s.control⟩
            (s.proc.pcb s.proc.activePid).parentPid).pagingVideoMemory).andThen fun s =>
              { s with
                control := .leaveExecute (s.proc.pcb s.proc.activePid).context status.toNat } := by
  have tail := Proc.closeAll_tail (s.proc.pcb s.proc.activePid)
  have inReach (proc : Proc) {pid : Nat} (positive : 1 ≤ pid) (few : pid ≤ 6) :
      State.pcbMapped ⟨proc, s.display, s.control⟩ pid = true :=
    pcbMapped_of_mapped mapped.tables positive few
  have self : s.pcbMapped s.proc.activePid = true :=
    pcbMapped_of_mapped mapped.tables (by omega) small
  have terminal (pid : Nat) : (Function.update s.proc.pcb s.proc.activePid
      (Proc.closeAll (s.proc.pcb s.proc.activePid)) pid).terminal = (s.proc.pcb pid).terminal := by
    by_cases this : pid = s.proc.activePid
    · rw [this, Function.update_self, tail.terminal]
    · rw [Function.update_of_ne this]
  have noRelease : ¬ 6 < s.proc.activePid := by omega
  simp only [syscallHalt, show s.proc.activePid ≠ 1 by omega, show s.proc.activePid ≠ 2 by omega,
    show s.proc.activePid ≠ 3 by omega, if_false, self, if_true, Proc.releaseProcess, noRelease,
    Proc.setPcb]
  simp only [show (List.range MAX_NUM_FILES).foldl
    (fun pcb (i : Nat) => (fileDescriptorTableClose pcb i).2) (s.proc.pcb s.proc.activePid) =
      Proc.closeAll (s.proc.pcb s.proc.activePid) from rfl, tail.parentPid, terminal,
    inReach _ parentPositive parentSmall, if_true]
  cases (s.proc.pcb (s.proc.pcb s.proc.activePid).parentPid).terminal <;> rfl

/-- A parent whose control block names no terminal. -/
theorem halt_orphan (mapped : s.display.Mapped) (status : UInt8)
    (child : 4 ≤ s.proc.activePid) (small : s.proc.activePid ≤ 6)
    (parentPositive : 1 ≤ (s.proc.pcb s.proc.activePid).parentPid)
    (parentSmall : (s.proc.pcb s.proc.activePid).parentPid ≤ 6)
    (terminal : (s.proc.pcb (s.proc.pcb s.proc.activePid).parentPid).terminal = none) :
    ∃ proc : Proc, proc.activeTerminal = s.proc.activeTerminal ∧
      s.syscallHalt status = State.exceptionHandler ⟨proc, s.display, s.control⟩ PAGE_FAULT := by
  refine ⟨{ s.proc.reaped s.proc.activeTerminal with
    currentProcessId := s.proc.currentProcessId, esp0 := s.proc.esp0 }, rfl, ?_⟩
  rw [halt_child_result mapped status child small parentPositive parentSmall, terminal]

/-- `halt` of a child: its parent goes on, out of the `execute` call it made. -/
theorem halt_child (mapped : s.display.Mapped) (status : UInt8)
    (child : 4 ≤ s.proc.activePid) (small : s.proc.activePid ≤ 6)
    (parentPositive : 1 ≤ (s.proc.pcb s.proc.activePid).parentPid)
    (parentSmall : (s.proc.pcb s.proc.activePid).parentPid ≤ 6) {t : TerminalId}
    (terminal : (s.proc.pcb (s.proc.pcb s.proc.activePid).parentPid).terminal = some t) :
    ∃ display, s.syscallHalt status =
        ⟨s.proc.reaped t, display,
          .leaveExecute
            ((s.proc.reaped t).pcb (s.proc.pcb s.proc.activePid).parentPid).context
            status.toNat⟩ ∧
      Switched s.display display t (s.proc.pcb s.proc.activePid).parentPid := by
  obtain ⟨display, pages, switched⟩ := switchPages (s.proc.reaped t) s.control mapped
    parentPositive parentSmall (s.proc.pcb s.proc.activePid).parentPid
  refine ⟨display, ?_, switched⟩
  rw [halt_child_result mapped status child small parentPositive parentSmall, terminal]
  simp only
  rw [pages, andThen_running switched.valid.fault]
  rfl

/-- The checks of `execute` change the argument buffer and may print a message, nothing
    else; a command that passes them prints none. -/
theorem checkCommand_effect (bootBlock : Option Image) (stack : List UInt8) (command : CharPtr) :
    ∃ message argBuf argumentExist, (s.checkCommand bootBlock stack command).1 =
        ⟨{ s.proc with argBuf, argumentExist },
          s.display.printf s.proc.activeTerminal (text message), s.control⟩ ∧
      ((s.checkCommand bootBlock stack command).2 ≠ none →
        s.proc.processCount ≠ MAX_NUM_PROCESSES ∧ message = "") := by
  by_cases full : s.proc.processCount = MAX_NUM_PROCESSES
  · simp only [checkCommand, if_pos full]
    exact ⟨_, s.proc.argBuf, s.proc.argumentExist, rfl, fun h => absurd rfl h⟩
  · by_cases long : (MAX_ARG_LENGTH : Int) + 4 < toInt32 (strlen command + 1)
    · simp only [checkCommand, if_neg full, if_pos long]
      exact ⟨_, s.proc.argBuf, 0, rfl, fun h => absurd rfl h⟩
    · simp only [checkCommand, if_neg full, if_neg long]
      exact ⟨"", _, _, rfl, fun _ => ⟨full, rfl⟩⟩

/-- A command that passes the checks prints nothing, and its program is started. -/
theorem syscallExecute_accepted {bootBlock : Option Image} {stack : List UInt8}
    {command : CharPtr} {inode : Int}
    (accepted : (s.checkCommand bootBlock stack command).2 = some inode) :
    ∃ argBuf argumentExist, s.proc.processCount ≠ MAX_NUM_PROCESSES ∧
      (s.checkCommand bootBlock stack command).1 =
        ⟨{ s.proc with argBuf, argumentExist }, s.display, s.control⟩ ∧
      ∀ caller, s.syscallExecute bootBlock stack command caller =
        State.startProgram bootBlock inode caller
          ⟨{ s.proc with argBuf, argumentExist }, s.display, s.control⟩ := by
  obtain ⟨message, argBuf, argumentExist, checked, passed⟩ :=
    checkCommand_effect (s := s) bootBlock stack command
  obtain ⟨notFull, silent⟩ := passed (by simp [accepted])
  subst silent
  refine ⟨argBuf, argumentExist, notFull, checked, fun caller => ?_⟩
  have pair : s.checkCommand bootBlock stack command =
      ((s.checkCommand bootBlock stack command).1, some inode) := by rw [← accepted]
  rw [syscallExecute, pair, checked]
  rfl

/-- The program bytes go to the frame of the new process. -/
theorem program_writes {mmu : Mmu} {pid : Nat} (small : pid ≤ 6)
    (user : mmu.pageDir Mmu.userIndex = Mmu.userEntry pid) (bootBlock : Option Image)
    (inode : Int) :
    Mmu.WritesIn (OnFrame pid) mmu (mmu.storeBytes VIRTUAL_ADDRESS_PROGRAM_START
      (readData bootBlock inode 0 false MAX_FILE_SIZE).bytes) := by
  apply Mmu.storeBytes_writes
  intro i inside
  have few : (readData bootBlock inode 0 false MAX_FILE_SIZE).bytes.length ≤ 63 * 4096 :=
    readData_length_le 0 MAX_FILE_SIZE bootBlock inode false
  refine ⟨_, Mmu.translate_user small user ?_ ?_, ?_, ?_⟩ <;>
    simp only [VIRTUAL_128MB_START, VIRTUAL_ADDRESS_PROGRAM_START] <;> omega

theorem loadProgram_writes (display : Display) {pid : Nat} (small : pid ≤ 6)
    (user : display.mmu.pageDir Mmu.userIndex = Mmu.userEntry pid) (proc : Proc)
    (control : Control) (bootBlock : Option Image) (inode : Int) :
    ∃ mmu, State.loadProgram ⟨proc, display, control⟩ bootBlock inode =
        ⟨proc, { display with mmu }, control⟩ ∧
      Mmu.WritesIn (OnFrame pid) display.mmu mmu :=
  ⟨_, rfl, program_writes small user bootBlock inode⟩

/-- Once the checks are passed and a pid is free, `execute` starts the program under it. -/
theorem startProgram_effect (mapped : s.display.Mapped)
    (user : s.display.mmu.pageDir Mmu.userIndex = Mmu.userEntry s.proc.activePid)
    (activePositive : 1 ≤ s.proc.activePid) (activeSmall : s.proc.activePid ≤ 6) {pid : Nat}
    (free : (List.range 7).find? (fun i => s.proc.processes i = 0) = some pid)
    (positive : 1 ≤ pid) (small : pid ≤ 6) (bootBlock : Option Image) (inode : Int)
    (caller : Context) :
    ∃ eip paged entryPoint, s.startProgram bootBlock inode caller =
        ⟨s.proc.started pid (s.newPcb pid eip) caller,
          { paged with
            mmu := paged.mmu.storeBytes VIRTUAL_ADDRESS_PROGRAM_START
              (readData bootBlock inode 0 false MAX_FILE_SIZE).bytes },
          .enterUser entryPoint⟩ ∧
      Switched s.display paged s.proc.activeTerminal pid := by
  obtain ⟨eip, read⟩ := entryPoint_some activeSmall user
  have inReach (proc : Proc) {pid : Nat} (positive : 1 ≤ pid) (few : pid ≤ 6) :
      State.pcbMapped ⟨proc, s.display, s.control⟩ pid = true :=
    pcbMapped_of_mapped mapped.tables positive few
  -- the globals when the pages are switched, and when the program has been loaded
  let proc : Proc :=
    { s.proc with
      processCount := s.proc.processCount + 1
      processes := Function.update s.proc.processes pid 1
      currentProcessId := Function.update s.proc.currentProcessId s.proc.activeTerminal pid
      pcb := Function.update s.proc.pcb pid (s.newPcb pid eip) }
  obtain ⟨paged, pages, switched⟩ :=
    switchPages proc s.control mapped activePositive activeSmall pid
  have writes := program_writes small switched.user bootBlock inode
  have loaded : State.loadProgram ⟨proc, paged, s.control⟩ bootBlock inode =
      ⟨proc,
        { paged with
          mmu := paged.mmu.storeBytes VIRTUAL_ADDRESS_PROGRAM_START
            (readData bootBlock inode 0 false MAX_FILE_SIZE).bytes },
        s.control⟩ := rfl
  generalize stored : paged.mmu.storeBytes VIRTUAL_ADDRESS_PROGRAM_START
    (readData bootBlock inode 0 false MAX_FILE_SIZE).bytes = mmu at writes loaded
  have running : mmu.fault = false := by rw [writes.fault, switched.valid.fault]
  have user' : mmu.pageDir Mmu.userIndex = Mmu.userEntry pid := by
    rw [writes.pageDir, switched.user]
  have active : State.pcbMapped ⟨proc, { paged with mmu }, s.control⟩ s.proc.activePid = true :=
    pcbMapped_of_mapped (switched.valid.tables.of_writes writes) activePositive activeSmall
  obtain ⟨entryPoint, enters⟩ := contextSwitchExecute_enters
    (s.proc.started pid (s.newPcb pid eip) caller) { paged with mmu } s.control small user'
  refine ⟨eip, paged, entryPoint, ?_, switched⟩
  rw [stored]
  have available : Proc.getProcessAvailable
      { s.proc with processCount := s.proc.processCount + 1 } =
        (some pid, { s.proc with
          processCount := s.proc.processCount + 1
          processes := Function.update s.proc.processes pid 1 }) := by
    simp only [Proc.getProcessAvailable, free]
  have read' (proc : Proc) : State.entryPoint ⟨proc, s.display, s.control⟩ = some eip := read
  have result : s.startProgram bootBlock inode caller =
      ((State.pagingExecute ⟨proc, s.display, s.control⟩ pid).pagingVideoMemory).andThen fun s =>
        (s.loadProgram bootBlock inode).andThen fun s =>
          if s.pcbMapped s.proc.activePid then
            let proc := s.proc.storeContext s.proc.activePid caller
            { s with
              proc := { proc with
                activePid := pid
                esp0 := pcbAddress pid } }.contextSwitchExecute
          else s.exceptionHandler PAGE_FAULT := by
    simp only [startProgram, available, inReach _ positive small, read']
    rfl
  rw [result, pages, andThen_running switched.valid.fault, loaded, andThen_running running]
  simp only [show proc.activePid = s.proc.activePid from rfl, active, if_true]
  exact enters

end Effects

end State

end LightOS.Kernel
