import LightOS.Kernel.Boot

/-! # Preemption

System calls enter through a trap gate, so the timer can interrupt `execute` and `halt` between
any two of their statements.  Here each call is a path with a program counter, and a step is one
statement of the running path, a call from user code, or the timer.  Statements that only touch
the locals of a call are taken together; those that only touch the display or the page tables
stay as statements at which the timer can come in.  Every path is taken to run on the kernel
stack of its own process: that the `esp0` of `execute` lets two of them overlap is the subject of
`StackSeparate`, and left out here.  `saved` tells what the `esp` and `ebp` in a control block
lead back to.
-/

namespace LightOS.Kernel

open Lib Filesystem Descriptor

/-- The next statement of `syscall_execute`. -/
inductive ExecutePc
  | checkCount | refuse | clearArgumentExist | checkLength | clearArgBuf | parseName
  | parseArgument | noteArgument | findProgram | countProcess | getProcess | initDescriptors
  | setCurrentPid | setParentPid | setCurrentEsp | setCurrentEbp | setCurrentEip | setVidmapFlag
  | setTerminal | copyArgBuf | setCurrentProcess | pagingExecute | pagingVideoMemory
  | loadProgram | locateCurrent | storeEsp | storeEbp | setActivePid | setEsp0 | contextSwitch
  deriving DecidableEq

/-- A call of `syscall_execute`: its command, what it finds on the stack and in the user page,
    the context it is called from, and its locals. -/
structure ExecuteCall where
  command : CharPtr
  stack : List UInt8
  entryPoint : Nat
  caller : Context
  fn : List UInt8
  i : Nat
  argIdx : Nat
  flag : Bool
  fd : Int
  newProcessId : Nat
  currentPcb : Nat

/-- The next statement of `syscall_halt`. -/
inductive HaltPc
  | locatePcb
  | checkRoot (t : TerminalId)
  | bootEnter (t : TerminalId)
  | uncountProcess
  | releaseProcess
  | close (i : Nat)
  | readParent
  | setActivePid
  | locateParent
  | setActiveTerminal
  | setCurrentProcess
  | setEsp0
  | pagingExecute
  | pagingVideoMemory
  | contextSwitch
  deriving DecidableEq

/-- The locals of a call of `syscall_halt`, pointers to control blocks as pids.  `block` is no
    local: it keeps the control block of the process as it was when the call began. -/
structure HaltCall where
  pid : Nat
  parentPid : Nat
  parentPcb : Nat
  block : Pcb

/-- What a terminal has going on. -/
inductive Path
  /-- The `hlt` loop, in terminals without a process. -/
  | idle
  | user
  | execute (pc : ExecutePc) (call : ExecuteCall)
  | halt (pc : HaltPc) (call : HaltCall)
  /-- On a stack with nothing on it to go back to. -/
  | lost

namespace Path

def alive : Path → Bool
  | lost => false
  | _ => true

def inUser : Path → Bool
  | user => true
  | _ => false

/-- Inside `execute` or `halt`. -/
def inCall : Path → Bool
  | execute .. | halt .. => true
  | _ => false

/-- About to call `get_process_available`. -/
def atGetProcess : Path → Bool
  | execute .getProcess _ => true
  | _ => false

theorem getProcess_of_at {path : Path} (getting : path.atGetProcess = true) :
    ∃ call, path = execute .getProcess call := by
  cases path with
  | execute pc call => cases pc <;> first | exact ⟨call, rfl⟩ | cases getting
  | _ => cases getting

end Path

/-- What the `esp` and `ebp` of a control block belong to: a path that the timer has
    interrupted, or the call of `execute` by which the process has started a child. -/
inductive Saved
  | path (path : Path)
  | frame

/-- The globals and the control blocks, the running path, and the suspended ones. -/
structure Interleaved where
  proc : Proc
  running : Path
  saved : Nat → Option Saved

namespace ExecuteCall

/-- A call that has just been entered. -/
def enter (command : CharPtr) (stack : List UInt8) (entryPoint : Nat) (caller : Context) :
    ExecuteCall where
  command := command
  stack := stack
  entryPoint := entryPoint
  caller := caller
  fn := []
  i := 0
  argIdx := 0
  flag := false
  fd := -1
  newProcessId := 0
  currentPcb := 0

def len (call : ExecuteCall) : Int := toInt32 (strlen call.command + 1)

end ExecuteCall

namespace Interleaved

/-- The hlt loop of `entry`. -/
def start (proc : Proc) : Interleaved := ⟨proc, .idle, fun _ => none⟩

/-- What is going on in a terminal: the running path, or the one that the control block of its
    current process leads back to. -/
def path (s : Interleaved) (t : TerminalId) : Path :=
  if t = s.proc.activeTerminal then s.running
  else if s.proc.currentProcessId t = 0 then .idle
  else
    match s.saved (s.proc.currentProcessId t) with
    | some (.path path) => path
    | _ => .lost

/-- On to another statement. -/
def goto (s : Interleaved) (path : Path) : Interleaved := { s with running := path }

/-- A store into the control block of the new process. -/
def fill (s : Interleaved) (call : ExecuteCall) (pc : ExecutePc) (store : Pcb → Pcb) :
    Interleaved :=
  { s with
    proc := s.proc.setPcb call.newProcessId (store (s.proc.pcb call.newProcessId))
    running := .execute pc call }

/-- One round of the second parsing loop, up to the store into `arg_buf`; a store past the end
    of it is not followed. -/
def parseArgument (s : Interleaved) (call : ExecuteCall) : Interleaved :=
  let c := call.command call.i
  let store (byte : UInt8) : Proc := { s.proc with argBuf := s.proc.argBuf.set call.argIdx byte }
  if call.len ≤ call.i then s.goto (.execute .findProgram call)
  else if c = 0 then { s with proc := store 0, running := .execute .findProgram call }
  else if c = SPACE ∧ call.flag then
    { s with proc := store 0, running := .execute .findProgram call }
  else if c ≠ SPACE then
    { s with
      proc := store c
      running := .execute .noteArgument { call with argIdx := call.argIdx + 1, flag := true } }
  else s.goto (.execute .parseArgument { call with i := call.i + 1 })

/-- One statement of `syscall_execute`. -/
def executeStatement (bootBlock : Option Image) (s : Interleaved) (call : ExecuteCall) :
    ExecutePc → Interleaved
  | .checkCount =>
      if s.proc.processCount = MAX_NUM_PROCESSES then s.goto (.execute .refuse call)
      else s.goto (.execute .clearArgumentExist call)
  -- the message, and `return -1`
  | .refuse => s.goto .user
  | .clearArgumentExist =>
      { s with proc := { s.proc with argumentExist := 0 }, running := .execute .checkLength call }
  | .checkLength =>
      if (MAX_ARG_LENGTH : Int) + 4 < call.len then s.goto (.execute .refuse call)
      else s.goto (.execute .clearArgBuf call)
  | .clearArgBuf =>
      { s with
        proc := { s.proc with argBuf := List.replicate MAX_ARG_LENGTH 0 }
        running := .execute .parseName call }
  | .parseName =>
      let fn := scanWord call.command 0 false [] call.len.toNat
      s.goto (.execute .parseArgument
        { call with fn := fn.chars, i := fn.next, argIdx := 0, flag := false })
  | .parseArgument => s.parseArgument call
  | .noteArgument =>
      { s with
        proc := { s.proc with argumentExist := 1 }
        running := .execute .parseArgument { call with i := call.i + 1 } }
  | .findProgram =>
      match programInode bootBlock call.fn call.stack with
      | none => s.goto .user
      | some fd => s.goto (.execute .countProcess { call with fd })
  | .countProcess =>
      { s with
        proc := { s.proc with processCount := s.proc.processCount + 1 }
        running := .execute .getProcess call }
  | .getProcess =>
      match s.proc.getProcessAvailable with
      | (none, _) => s.goto (.execute .refuse call)
      | (some newProcessId, proc) =>
          { s with proc, running := .execute .initDescriptors { call with newProcessId } }
  | .initDescriptors => s.fill call .setCurrentPid fileDescriptorTableInit
  | .setCurrentPid =>
      s.fill call .setParentPid fun pcb => { pcb with currentPid := call.newProcessId }
  | .setParentPid =>
      s.fill call .setCurrentEsp fun pcb => { pcb with parentPid := s.proc.activePid }
  | .setCurrentEsp =>
      { s.fill call .setCurrentEbp
          fun pcb => { pcb with currentEsp := USER_STACK_BASE_ADDRESS } with
        saved := Function.update s.saved call.newProcessId none }
  | .setCurrentEbp =>
      { s.fill call .setCurrentEip
          fun pcb => { pcb with currentEbp := USER_STACK_BASE_ADDRESS } with
        saved := Function.update s.saved call.newProcessId none }
  | .setCurrentEip =>
      s.fill call .setVidmapFlag fun pcb => { pcb with currentEip := call.entryPoint }
  | .setVidmapFlag => s.fill call .setTerminal fun pcb => { pcb with vidmapFlag := 0 }
  | .setTerminal =>
      s.fill call .copyArgBuf fun pcb => { pcb with terminal := some s.proc.activeTerminal }
  | .copyArgBuf =>
      s.fill call .setCurrentProcess
        fun pcb => { pcb with argBuf := s.proc.argBuf.take MAX_ARG_LENGTH }
  | .setCurrentProcess =>
      { s with
        proc := s.proc.setCurrent s.proc.activeTerminal call.newProcessId
        running := .execute .pagingExecute call }
  | .pagingExecute => s.goto (.execute .pagingVideoMemory call)
  | .pagingVideoMemory => s.goto (.execute .loadProgram call)
  | .loadProgram => s.goto (.execute .locateCurrent call)
  | .locateCurrent => s.goto (.execute .storeEsp { call with currentPcb := s.proc.activePid })
  | .storeEsp =>
      { proc := s.proc.setPcb call.currentPcb
          { s.proc.pcb call.currentPcb with currentEsp := call.caller.esp }
        running := .execute .storeEbp call
        saved := Function.update s.saved call.currentPcb none }
  | .storeEbp =>
      { proc := s.proc.setPcb call.currentPcb
          { s.proc.pcb call.currentPcb with currentEbp := call.caller.ebp }
        running := .execute .setActivePid call
        saved := Function.update s.saved call.currentPcb (some .frame) }
  | .setActivePid =>
      { s with
        proc := { s.proc with activePid := call.newProcessId }
        running := .execute .setEsp0 call }
  | .setEsp0 =>
      { s with
        proc := { s.proc with esp0 := pcbAddress s.proc.activePid }
        running := .execute .contextSwitch call }
  | .contextSwitch => s.goto .user

/-- One statement of `syscall_halt`. -/
def haltStatement (s : Interleaved) (call : HaltCall) : HaltPc → Interleaved
  | .locatePcb =>
      s.goto (.halt (.checkRoot .terminal1)
        { call with pid := s.proc.activePid, block := s.proc.pcb s.proc.activePid })
  | .checkRoot t =>
      if s.proc.activePid = t.number then s.goto (.halt (.bootEnter t) call)
      else
        match t with
        | .terminal1 => s.goto (.halt (.checkRoot .terminal2) call)
        | .terminal2 => s.goto (.halt (.checkRoot .terminal3) call)
        | .terminal3 => s.goto (.halt .uncountProcess call)
  -- the message, and `boot_enter_terminal`, which does not return
  | .bootEnter t => { s with proc := s.proc.entered t, running := .user }
  | .uncountProcess =>
      { s with
        proc := { s.proc with processCount := s.proc.processCount - 1 }
        running := .halt .releaseProcess call }
  | .releaseProcess =>
      { s with
        proc := s.proc.releaseProcess s.proc.activePid
        running := .halt (.close 0) call }
  | .close i =>
      if i < MAX_NUM_FILES then
        { s with
          proc := s.proc.setPcb call.pid (fileDescriptorTableClose (s.proc.pcb call.pid) i).2
          running := .halt (.close (i + 1)) call }
      else s.goto (.halt .readParent call)
  | .readParent =>
      s.goto (.halt .setActivePid { call with parentPid := (s.proc.pcb call.pid).parentPid })
  | .setActivePid =>
      { s with
        proc := { s.proc with activePid := call.parentPid }
        running := .halt .locateParent call }
  | .locateParent => s.goto (.halt .setActiveTerminal { call with parentPcb := s.proc.activePid })
  | .setActiveTerminal =>
      match (s.proc.pcb call.parentPcb).terminal with
      -- the next statement writes through the pointer
      | none => s.goto .lost
      | some t =>
          { s with
            proc := { s.proc with activeTerminal := t }
            running := .halt .setCurrentProcess call }
  | .setCurrentProcess =>
      { s with
        proc := s.proc.setCurrent s.proc.activeTerminal s.proc.activePid
        running := .halt .setEsp0 call }
  | .setEsp0 =>
      { s with
        proc := { s.proc with esp0 := kernelStackPointer s.proc.activePid }
        running := .halt .pagingExecute call }
  | .pagingExecute => s.goto (.halt .pagingVideoMemory call)
  | .pagingVideoMemory => s.goto (.halt .contextSwitch call)
  -- `context_switch_halt` goes on in the `execute` call of the parent
  | .contextSwitch =>
      match s.saved s.proc.activePid with
      | some .frame =>
          { s with running := .user, saved := Function.update s.saved s.proc.activePid none }
      | _ => s.goto .lost

/-- The control block that `schedule` stores the interrupted context in. -/
def interruptedPcb (s : Interleaved) : Nat :=
  let t := nextTerminal s.proc.activeTerminal
  if s.proc.currentProcessId t ≠ 0 then s.proc.activePid else precedingRoot t

/-- `pit_handler`, with `schedule`. -/
def timer (s : Interleaved) (interrupted : Context) : Interleaved :=
  let t := nextTerminal s.proc.activeTerminal
  let pid := s.proc.currentProcessId t
  let saved := Function.update s.saved s.interruptedPcb (some (.path s.running))
  if pid = 0 then
    { proc := (s.proc.storeContext (precedingRoot t) interrupted).entered t
      running := .user
      saved }
  else
    match saved pid with
    | some (.path path) =>
        { proc := s.proc.rotated interrupted
          running := path
          saved := Function.update saved pid none }
    | _ => { proc := s.proc.rotated interrupted, running := .lost, saved }

end Interleaved

/-- The timer, a system call of the active process, and the next statement of the running one. -/
inductive Move
  | timer (interrupted : Context)
  | execute (command : CharPtr) (stack : List UInt8) (entryPoint : Nat) (caller : Context)
  | halt
  | statement

namespace Interleaved

/-- On a stack with nothing to go back to the processor runs into whatever lies there, and the
    model ends. -/
def able (s : Interleaved) : Move → Prop
  | .timer _ => s.running.alive = true
  | .execute .. | .halt => s.running.inUser = true
  | .statement => s.running.inCall = true

instance (s : Interleaved) : (move : Move) → Decidable (s.able move)
  | .timer _ => inferInstanceAs (Decidable (s.running.alive = true))
  | .execute .. | .halt => inferInstanceAs (Decidable (s.running.inUser = true))
  | .statement => inferInstanceAs (Decidable (s.running.inCall = true))

def step (bootBlock : Option Image) (s : Interleaved) : Move → Interleaved
  | .timer interrupted => s.timer interrupted
  | .execute command stack entryPoint caller =>
      s.goto (.execute .checkCount (.enter command stack entryPoint caller))
  | .halt => s.goto (.halt .locatePcb ⟨0, 0, 0, s.proc.pcb s.proc.activePid⟩)
  | .statement =>
      match s.running with
      | .execute pc call => s.executeStatement bootBlock call pc
      | .halt pc call => s.haltStatement call pc
      | _ => s

end Interleaved

instance {P : TerminalId → Prop} [DecidablePred P] : Decidable (∀ t, P t) :=
  decidable_of_iff (P .terminal1 ∧ P .terminal2 ∧ P .terminal3)
    ⟨fun all t => by cases t; exacts [all.1, all.2.1, all.2.2], fun all => ⟨all _, all _, all _⟩⟩

instance {P : TerminalId → Prop} [DecidablePred P] : Decidable (∃ t, P t) :=
  decidable_of_iff (¬ ∀ t, ¬ P t) Classical.not_forall_not

/-- The kernel with a timer that can come in between any two statements. -/
def preemptible (bootBlock : Option Image) : Machine Interleaved Move where
  enabled := Interleaved.able
  next := Interleaved.step bootBlock

instance (bootBlock : Option Image) (s : Interleaved) (move : Move) :
    Decidable ((preemptible bootBlock).enabled s move) :=
  inferInstanceAs (Decidable (s.able move))

/-- What `entry` leaves in the globals and in the control blocks of the three root shells. -/
structure Booted (proc : Proc) : Prop where
  activeTerminal : proc.activeTerminal = .terminal1
  activePid : proc.activePid = 0
  processCount : proc.processCount = 3
  processes : ∀ i, proc.processes i = if i < 4 then 1 else 0
  current : ∀ t, proc.currentProcessId t = 0
  root : ∀ t, (proc.pcb t.number).parentPid = 0 ∧ (proc.pcb t.number).terminal = some t

theorem PowerOn.booted {s : State} {bootBlock : Option Image} (on : PowerOn s)
    {buffers : TerminalId → List UInt8} (found : ∀ t, ShellFound bootBlock (buffers t)) :
    Booted (s.entry bootBlock buffers).proc := by
  obtain ⟨fresh, roots⟩ := on.entry_fresh bootBlock buffers
  exact
    { activeTerminal := fresh.activeTerminal
      activePid := fresh.activePid
      processCount := fresh.processCount
      processes := fresh.processes
      current := fresh.current
      root := fun t => ⟨(roots found t).parentPid, (roots found t).terminal⟩ }

/-- In a memory that has been all zero. -/
def bootedProc : Proc :=
  { poweredOn.proc with
    pcb := fun pid =>
      { poweredOn.proc.pcb pid with
        terminal :=
          match pid with
          | 1 => some .terminal1
          | 2 => some .terminal2
          | 3 => some .terminal3
          | _ => none } }

theorem bootedProc_booted : Booted bootedProc :=
  ⟨rfl, rfl, rfl, fun _ => rfl, fun _ => rfl, fun t => by cases t <;> exact ⟨rfl, rfl⟩⟩

/-- A timer interrupt, a call of `execute`, and the next so many statements. -/
def tick : Move := .timer ⟨0x7FFF00, 0x7FFF80⟩

def callExecute (command : CharPtr) : Move := .execute command [] 0 ⟨0x7FFFC0, 0x7FFFE0⟩

def statements (rounds : Nat) : List Move := List.replicate rounds .statement

end LightOS.Kernel
