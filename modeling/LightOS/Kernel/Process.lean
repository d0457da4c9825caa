import LightOS.Kernel.Screen
import LightOS.Descriptor.Table

/-! # Processes

syscall.c: the process pool, `execute`, `halt`, the scheduler and the routines that start
the three root shells.  The globals of syscall.c and the control blocks are one record,
the display and the page tables another.  Assembly that moves `esp` and `ebp` is seen from
outside: a step is told the context of the kernel path it interrupts or is called from,
and leaves in `control` how the processor goes on.
-/

namespace LightOS

/-- The `esp` and `ebp` of a kernel path. -/
structure Context where
  esp : Nat
  ebp : Nat
  deriving DecidableEq

namespace Pcb

def context (pcb : Pcb) : Context := ⟨pcb.currentEsp, pcb.currentEbp⟩

def setContext (pcb : Pcb) (context : Context) : Pcb :=
  { pcb with currentEsp := context.esp, currentEbp := context.ebp }

@[simp] theorem context_setContext (pcb : Pcb) (context : Context) :
    (pcb.setContext context).context = context := rfl

@[simp] theorem parentPid_setContext (pcb : Pcb) (context : Context) :
    (pcb.setContext context).parentPid = pcb.parentPid := rfl

@[simp] theorem terminal_setContext (pcb : Pcb) (context : Context) :
    (pcb.setContext context).terminal = pcb.terminal := rfl

end Pcb

end LightOS

namespace LightOS.Kernel

open Lib Filesystem Descriptor

def KERNEL_STACK_BASE_ADDRESS : Nat := 0x800000
def USER_KERNEL_STACK_SIZE : Nat := 0x2000
def MAX_NUM_PROCESSES : Int := 6
def PAGE_FAULT : Nat := 14

/-- How the processor goes on after a step. -/
inductive Control
  /-- The `hlt` loop at the end of `entry`. -/
  | idle
  /-- `context_switch_execute`: into a program at its entry point. -/
  | enterUser (entryPoint : Nat)
  /-- `schedule`: on the kernel path with this context. -/
  | resume (context : Context)
  /-- `context_switch_halt`: out of the `execute` call with this frame. -/
  | leaveExecute (context : Context) (eax : Nat)
  /-- Back to the caller. -/
  | returned (value : Int)
  deriving DecidableEq

/-- The globals of syscall.c, the field `current_process_id` of the terminals, the control
    blocks by pid, and `tss.esp0`. -/
structure Proc where
  activeTerminal : TerminalId
  activePid : Nat
  processCount : Int
  processes : Nat → Nat
  currentProcessId : TerminalId → Nat
  argBuf : List UInt8
  argumentExist : Nat
  pcb : Nat → Pcb
  esp0 : Nat

structure State where
  proc : Proc
  display : Display
  control : Control

/-- The control block of a process, at the bottom of its kernel stack. -/
def pcbAddress (pid : Nat) : Nat := KERNEL_STACK_BASE_ADDRESS - pid * USER_KERNEL_STACK_SIZE

/-- The value of `tss.esp0` that `schedule`, `halt` and the boot routines compute. -/
def kernelStackPointer (pid : Nat) : Nat :=
  KERNEL_STACK_BASE_ADDRESS - (pid - 1) * USER_KERNEL_STACK_SIZE - 4

/-- The bytes of a string constant. -/
def text (string : String) : List UInt8 := string.toList.map (fun c => UInt8.ofNat c.toNat)

/-- The messages of exceptions.c, by vector number. -/
def exceptions : List String :=
  ["Divide-by-zero Error", "Debug", "Non-maskable Interrupt", "Breakpoint", "Overflow",
    "Bound Range Exceeded", "Invalid Opcode", "Device Not Available", "Double Fault",
    "Coprocessor Segment Overrun", "Invalid TSS", "Segment Not Present", "Stack-Segment Fault",
    "General Protection Fault", "Page Fault", "Reserved", "x87 Floating-Point Exception",
    "Alignment Check", "Machine Check", "SIMD Floating-Point Exception"]

namespace Proc

/-- `get_process_available`; `none` is -1. -/
def getProcessAvailable (proc : Proc) : Option Nat × Proc :=
  match (List.range 7).find? (fun i => proc.processes i = 0) with
  | some i => (some i, { proc with processes := Function.update proc.processes i 1 })
  | none => (none, proc)

theorem free_of_find {processes : Nat → Nat} {pid : Nat}
    (found : (List.range 7).find? (fun i => processes i = 0) = some pid) :
    processes pid = 0 ∧ pid ≤ 6 := by
  have inPool := List.mem_range.mp (List.mem_of_find?_eq_some found)
  exact ⟨by simpa using List.find?_some found, by omega⟩

/-- `release_process` -/
def releaseProcess (proc : Proc) (pid : Nat) : Proc :=
  if 6 < pid then proc else { proc with processes := Function.update proc.processes pid 0 }

def setPcb (proc : Proc) (pid : Nat) (pcb : Pcb) : Proc :=
  { proc with pcb := Function.update proc.pcb pid pcb }

def setCurrent (proc : Proc) (t : TerminalId) (pid : Nat) : Proc :=
  { proc with currentProcessId := Function.update proc.currentProcessId t pid }

/-- The two stores of `esp` and `ebp` into a control block. -/
def storeContext (proc : Proc) (pid : Nat) (context : Context) : Proc :=
  proc.setPcb pid ((proc.pcb pid).setContext context)

end Proc

/-- The order in which the scheduler visits the terminals. -/
def nextTerminal : TerminalId → TerminalId
  | .terminal1 => .terminal2
  | .terminal2 => .terminal3
  | .terminal3 => .terminal1

/-- The control block that `schedule` stores into before it starts a root shell. -/
def precedingRoot : TerminalId → Nat
  | .terminal1 => 3
  | .terminal2 => 1
  | .terminal3 => 2

namespace State

def faulted (s : State) : Bool := s.display.mmu.fault

/-- The rest of a routine after a part that may have faulted. -/
def andThen (s : State) (rest : State → State) : State := if s.faulted then s else rest s

def printf (s : State) (string : String) : State :=
  { s with display := s.display.printf s.proc.activeTerminal (text string) }

/-- `exception_handler`, which never returns. -/
def exceptionHandler (s : State) (vectorNumber : Nat) : State :=
  let display := s.display.blueScreen
  let display := display.printf s.proc.activeTerminal (text (exceptions.getD vectorNumber ""))
  let display := display.putc s.proc.activeTerminal NEWLINE
  { s with display := { display with mmu := { display.mmu with fault := true } } }

/-- Whether the control block of a pid can be read. -/
def pcbMapped (s : State) (pid : Nat) : Bool :=
  (s.display.mmu.translate (pcbAddress pid)).isSome

/-- `paging_execute` -/
def pagingExecute (s : State) (pid : Nat) : State :=
  { s with display := { s.display with mmu := s.display.mmu.pagingExecute pid } }

/-- `paging_video_memory` -/
def pagingVideoMemory (s : State) : State :=
  let s := { s with display := s.display.mapVideo s.proc.activeTerminal }
  if s.pcbMapped s.proc.activePid then
    { s with
      display := s.display.setVidmapPresent ((s.proc.pcb s.proc.activePid).vidmapFlag = 1) }
  else s.exceptionHandler PAGE_FAULT

/-- `*(uint32_t *) (VIRTUAL_ADDRESS_PROGRAM_START + 24)` -/
def entryPoint (s : State) : Option Nat :=
  s.display.mmu.loadWord (VIRTUAL_ADDRESS_PROGRAM_START + 24)

/-- `context_switch_execute` -/
def contextSwitchExecute (s : State) : State :=
  match s.entryPoint with
  | some entryPoint => { s with control := .enterUser entryPoint }
  | none => s.exceptionHandler PAGE_FAULT

/-- The `read_data` that copies a program to its page. -/
def loadProgram (s : State) (bootBlock : Option Image) (inode : Int) : State :=
  let program := readData bootBlock inode 0 false MAX_FILE_SIZE
  { s with
    display := { s.display with
      mmu := s.display.mmu.storeBytes VIRTUAL_ADDRESS_PROGRAM_START program.bytes } }

/-- `boot_enter_terminal_1`, `boot_enter_terminal_2` and `boot_enter_terminal_3` -/
def bootEnterTerminal (t : TerminalId) (s : State) : State :=
  let proc := { s.proc with activeTerminal := t, activePid := t.number }.setCurrent t t.number
  (({ s with proc }.pagingExecute t.number).pagingVideoMemory).andThen fun s =>
    { s with proc := { s.proc with esp0 := kernelStackPointer t.number } }.contextSwitchExecute

def bootEnterTerminal1 : State → State := bootEnterTerminal .terminal1
def bootEnterTerminal2 : State → State := bootEnterTerminal .terminal2
def bootEnterTerminal3 : State → State := bootEnterTerminal .terminal3

/-- `schedule`, interrupting a kernel path with the given context. -/
def schedule (interrupted : Context) (s : State) : State :=
  let originalPid := s.proc.activePid
  let t := nextTerminal s.proc.activeTerminal
  let s := { s with
    proc := { s.proc with activeTerminal := t, activePid := s.proc.currentProcessId t } }
  let saved := if s.proc.activePid ≠ 0 then originalPid else precedingRoot t
  if s.pcbMapped saved then
    let s := { s with proc := s.proc.storeContext saved interrupted }
    if s.proc.activePid = 0 then
      match t with
      | .terminal1 => s.bootEnterTerminal1
      | .terminal2 => s.bootEnterTerminal2
      | .terminal3 => s.bootEnterTerminal3
    else
      let s := { s with proc := { s.proc with esp0 := kernelStackPointer s.proc.activePid } }
      ((s.pagingExecute s.proc.activePid).pagingVideoMemory).andThen fun s =>
        { s with control := .resume (s.proc.pcb s.proc.activePid).context }
  else s.exceptionHandler PAGE_FAULT

/-- `syscall_halt` -/
def syscallHalt (status : UInt8) (s : State) : State :=
  if s.proc.activePid = 1 then
    (s.printf " root shell of terminal 1 could be be halted\n").bootEnterTerminal1
  else if s.proc.activePid = 2 then
    (s.printf " root shell of terminal 2 could be be halted\n").bootEnterTerminal2
  else if s.proc.activePid = 3 then
    (s.printf " root shell of terminal 3 could be be halted\n").bootEnterTerminal3
  else
    let pid := s.proc.activePid
    if s.pcbMapped pid then
      let proc := { s.proc with processCount := s.proc.processCount - 1 }.releaseProcess pid
      let pcb := (List.range MAX_NUM_FILES).foldl
        (fun pcb (i : Nat) => (fileDescriptorTableClose pcb i).2) (proc.pcb pid)
      let proc := { proc.setPcb pid pcb with activePid := pcb.parentPid }
      let s := { s with proc }
      if s.pcbMapped proc.activePid then
        match (proc.pcb proc.activePid).terminal with
        -- the next statement writes through the pointer
        | none => s.exceptionHandler PAGE_FAULT
        | some t =>
            let proc := { proc with activeTerminal := t }.setCurrent t proc.activePid
            let proc := { proc with esp0 := kernelStackPointer proc.activePid }
            (({ s with proc }.pagingExecute proc.activePid).pagingVideoMemory).andThen fun s =>
              { s with
                control :=
                  .leaveExecute (s.proc.pcb s.proc.activePid).context status.toNat }
      else s.exceptionHandler PAGE_FAULT
    else s.exceptionHandler PAGE_FAULT

end State

end LightOS.Kernel
