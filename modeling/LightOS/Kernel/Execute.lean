import LightOS.Kernel.Process
import LightOS.Lib.Machine

/-! # Starting programs

`syscall_execute` and the three `create_terminal_shell` routines, and the kernel as a
machine: what can happen between two steps of the scheduler, in any order.
-/

namespace LightOS.Kernel

open Lib Filesystem Descriptor

/-- Where one of the two parsing loops of `execute` stops, what it has stored, and whether
    it has stored more than the terminating NUL. -/
structure Word where
  next : Nat
  chars : List UInt8
  seen : Bool

/-- A parsing loop, from index `i` on with `rounds` rounds left.  The list takes what the code
    stores at consecutive places of a buffer of 33 bytes; a longer word, which the code stores
    past the end of it, is not cut off. -/
def scanWord (command : CharPtr) (i : Nat) (flag : Bool) (chars : List UInt8) : Nat → Word
  | 0 => ⟨i, chars, flag⟩
  | rounds + 1 =>
      if command i = 0 then ⟨i, chars ++ [0], flag⟩
      else if command i = SPACE ∧ flag then ⟨i, chars ++ [0], flag⟩
      else if command i ≠ SPACE then scanWord command (i + 1) true (chars ++ [command i]) rounds
      else scanWord command (i + 1) flag chars rounds

/-- The check for the bytes 0x7f, E, L, F.  `stack` is what the buffer on the stack holds
    before, for files of less than four bytes. -/
def isExecutable (bootBlock : Option Image) (inode : Int) (stack : List UInt8) : Bool :=
  let transfer := readData bootBlock inode 0 false 4
  if transfer.ret = -1 then false
  else
    let buf := transfer.bytes ++ stack.drop transfer.bytes.length
    buf.take 4 = [0x7F, 0x45, 0x4C, 0x46]

/-- The checks of `execute` on the file name: the inode of an executable file. -/
def programInode (bootBlock : Option Image) (fn stack : List UInt8) : Option Int :=
  match readDentryByName bootBlock (some (charPtr fn)) with
  | none => none
  | some currentDirectoryEntry =>
      if currentDirectoryEntry.filetype ≠ TYPE_FILE then none
      else
        match fileOpen bootBlock (some (charPtr fn)) with
        | none => none
        | some fd => if isExecutable bootBlock fd stack then some fd else none

namespace State

/-- The first half of `syscall_execute`: the inode of the program, if the call gets that
    far. -/
def checkCommand (bootBlock : Option Image) (stack : List UInt8) (command : CharPtr) (s : State) :
    State × Option Int :=
  if s.proc.processCount = MAX_NUM_PROCESSES then
    (s.printf "Max number of processes reached\n", none)
  else
    let s := { s with proc := { s.proc with argumentExist := 0 } }
    let len := toInt32 (strlen command + 1)
    if (MAX_ARG_LENGTH : Int) + 4 < len then (s.printf "Command is too long\n", none)
    else
      let fn := scanWord command 0 false [] len.toNat
      let arg := scanWord command fn.next false [] (len.toNat - fn.next)
      let argBuf := arg.chars ++ List.replicate (MAX_ARG_LENGTH - arg.chars.length) 0
      let argumentExist := if arg.seen then 1 else 0
      ({ s with proc := { s.proc with argBuf, argumentExist } },
        programInode bootBlock fn.chars stack)

/-- The control block of a new process. -/
def newPcb (s : State) (pid entryPoint : Nat) : Pcb :=
  { fileDescriptorTableInit (s.proc.pcb pid) with
    currentPid := pid
    parentPid := s.proc.activePid
    currentEsp := USER_STACK_BASE_ADDRESS
    currentEbp := USER_STACK_BASE_ADDRESS
    currentEip := entryPoint
    vidmapFlag := 0
    terminal := some s.proc.activeTerminal
    argBuf := s.proc.argBuf.take MAX_ARG_LENGTH }

/-- The second half of `syscall_execute`, called from a kernel path with context `caller`. -/
def startProgram (bootBlock : Option Image) (inode : Int) (caller : Context) (s : State) :
    State :=
  let s := { s with proc := { s.proc with processCount := s.proc.processCount + 1 } }
  match s.proc.getProcessAvailable with
  | (none, _) =>
      { s.printf "Max number of processes reached\n" with control := .returned (-1) }
  | (some newProcessId, proc) =>
      let s := { s with proc }
      match s.pcbMapped newProcessId, s.entryPoint with
      | true, some entryPoint =>
          let proc := s.proc.setPcb newProcessId (s.newPcb newProcessId entryPoint)
          let s := { s with proc := proc.setCurrent proc.activeTerminal newProcessId }
          (s.pagingExecute newProcessId).pagingVideoMemory.andThen fun s =>
            (s.loadProgram bootBlock inode).andThen fun s =>
              if s.pcbMapped s.proc.activePid then
                let proc := s.proc.storeContext s.proc.activePid caller
                { s with
                  proc := { proc with
                    activePid := newProcessId
                    esp0 := pcbAddress newProcessId } }.contextSwitchExecute
              else s.exceptionHandler PAGE_FAULT
      | _, _ => s.exceptionHandler PAGE_FAULT

/-- `syscall_execute` -/
def syscallExecute (bootBlock : Option Image) (stack : List UInt8) (command : CharPtr)
    (caller : Context) (s : State) : State :=
  match s.checkCommand bootBlock stack command with
  | (s, none) => { s with control := .returned (-1) }
  | (s, some inode) => s.startProgram bootBlock inode caller

/-- The name of the shell in the three routines below. -/
def shellName : CharPtr := charPtr (text "shell")

/-- The control block of a root shell. -/
def rootPcb (s : State) (t : TerminalId) (entryPoint : Nat) : Pcb :=
  { fileDescriptorTableInit (s.proc.pcb t.number) with
    currentPid := t.number
    parentPid := 0
    currentEsp := USER_STACK_BASE_ADDRESS
    currentEbp := USER_STACK_BASE_ADDRESS
    currentEip := entryPoint
    vidmapFlag := 0
    terminal := some t
    argBuf := List.replicate MAX_ARG_LENGTH 0 }

/-- `create_terminal_1_shell`, `create_terminal_2_shell` and `create_terminal_3_shell` -/
def createTerminalShell (t : TerminalId) (bootBlock : Option Image) (stack : List UInt8)
    (s : State) : State :=
  match fileOpen bootBlock (some shellName) with
  | none => s
  | some fd =>
      if isExecutable bootBlock fd stack then
        ((s.pagingExecute t.number).loadProgram bootBlock fd).andThen fun s =>
          match s.pcbMapped t.number, s.entryPoint with
          | true, some entryPoint =>
              { s with
                proc := (s.proc.setPcb t.number (s.rootPcb t entryPoint)).setCurrent t 0 }
          | _, _ => s.exceptionHandler PAGE_FAULT
      else s

def createTerminal1Shell := createTerminalShell .terminal1
def createTerminal2Shell := createTerminalShell .terminal2
def createTerminal3Shell := createTerminalShell .terminal3

/-- `keyboard_init` -/
def keyboardInit (s : State) : State :=
  { s with
    proc := { s.proc with currentProcessId := fun _ => 0 }
    display := { s.display with
      screens := fun t =>
        { terminalId := t.number
          screenX := 0
          screenY := 0
          videoAddress := VIDEO_MEM + 4096 * t.number } } }

/-- `page_initialize` -/
def pageInitialize (s : State) : State :=
  { s with display := { s.display with mmu := s.display.mmu.pageInitialize } }

/-- `keyboard_init` and `page_initialize`, as `entry` calls them. -/
def initDevices (s : State) : State := s.keyboardInit.pageInitialize

/-- `entry`, from `keyboard_init` to the `hlt` loop.  `buffers` is what the three
    shell routines find on the stack. -/
def entry (bootBlock : Option Image) (buffers : TerminalId → List UInt8) (s : State) : State :=
  let s := s.initDevices.printf "Enabling Interrupts\n"
  let s := { s with display := s.display.clear s.proc.activeTerminal }
  let s := s.createTerminal1Shell bootBlock (buffers .terminal1)
  let s := s.createTerminal2Shell bootBlock (buffers .terminal2)
  let s := s.createTerminal3Shell bootBlock (buffers .terminal3)
  { s with control := .idle }

/-- `switch_to_terminal_1` and `switch_to_terminal_3` -/
def switchByMapping (t : TerminalId) (s : State) : State :=
  if s.display.currentTerminal = t then s
  else
    let s := { s with display := { s.display.saveScreen with currentTerminal := t } }
    s.pagingVideoMemory.andThen fun s => { s with display := s.display.loadScreen.showCursor }

def switchToTerminal1 : State → State := switchByMapping .terminal1
def switchToTerminal3 : State → State := switchByMapping .terminal3

/-- `switch_to_terminal_2`, which copies the screen before it changes the mapping. -/
def switchToTerminal2 (s : State) : State :=
  if s.display.currentTerminal = .terminal2 then s
  else
    let s := { s with display := { s.display.saveScreen with currentTerminal := .terminal2 } }
    let s := { s with display := s.display.loadScreen }
    s.pagingVideoMemory.andThen fun s => { s with display := s.display.showCursor }

def switchToTerminal : TerminalId → State → State
  | .terminal1 => switchToTerminal1
  | .terminal2 => switchToTerminal2
  | .terminal3 => switchToTerminal3

end State

/-- What can happen: the timer, the system calls of the active process, its console output
    and its stores, the keyboard. -/
inductive Action
  | schedule (interrupted : Context)
  | execute (stack : List UInt8) (command : CharPtr) (caller : Context)
  | halt (status : UInt8)
  | bootEnter (t : TerminalId)
  | putc (c : UInt8)
  | clear
  | echo (c : UInt8)
  | echoBack
  | echoClear
  | switchTo (t : TerminalId)
  | userStore (va : Nat) (byte : UInt8)
  | kernelCopy (va : Nat) (bytes : List UInt8)

namespace State

/-- The user page, `[0x08000000, 0x08400000)`. -/
def inUserPage (va : Nat) : Prop := VIRTUAL_128MB_START ≤ va ∧ va < VIRTUAL_128MB_START + 2 ^ 22

/-- System calls and user stores need an active process.  The model ends at a fault: what the
    timer can still do in the loop of `exception_handler`, which never returns, is left out. -/
def able (s : State) (action : Action) : Prop :=
  s.faulted = false ∧
    match action with
    | .execute .. | .halt _ => s.proc.activePid ≠ 0
    | .userStore va _ => s.proc.activePid ≠ 0 ∧ inUserPage va
    | .kernelCopy va bytes => s.proc.activePid ≠ 0 ∧ ∀ i < bytes.length, inUserPage (va + i)
    | _ => True

def step (bootBlock : Option Image) (s : State) : Action → State
  | .schedule interrupted => s.schedule interrupted
  | .execute stack command caller => s.syscallExecute bootBlock stack command caller
  | .halt status => s.syscallHalt status
  | .bootEnter t => s.bootEnterTerminal t
  | .putc c => { s with display := s.display.putc s.proc.activeTerminal c }
  | .clear => { s with display := s.display.clear s.proc.activeTerminal }
  | .echo c => { s with display := s.display.currentTerminalPutc c }
  | .echoBack => { s with display := s.display.currentTerminalBackPutc }
  | .echoClear => { s with display := s.display.currentTerminalClear }
  | .switchTo t => s.switchToTerminal t
  | .userStore va byte =>
      { s with display := { s.display with mmu := s.display.mmu.userStore va byte } }
  | .kernelCopy va bytes =>
      { s with display := { s.display with mmu := s.display.mmu.storeBytes va bytes } }

end State

/-- The kernel, for one file-system image. -/
def kernel (bootBlock : Option Image) : Machine State Action where
  enabled := State.able
  next := State.step bootBlock

/-- The globals as the loader leaves them; memory may hold anything. -/
structure PowerOn (s : State) : Prop where
  activeTerminal : s.proc.activeTerminal = .terminal1
  activePid : s.proc.activePid = 0
  processCount : s.proc.processCount = 3
  processes : ∀ i, s.proc.processes i = if i < 4 then 1 else 0
  currentTerminal : s.display.currentTerminal = .terminal1
  fault : s.display.mmu.fault = false

end LightOS.Kernel
