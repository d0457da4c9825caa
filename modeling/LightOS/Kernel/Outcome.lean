import LightOS.Kernel.Switching

/-! # The outcomes of a step

`Sound` is what holds between the steps of the kernel, whatever the order they come in:
page tables, cursors, and a set of pids that is closed under parents.  `Outcome` lists
what a step can do in a sound state, and `step_outcome` proves the list complete; the
invariants of the kernel are proved by cases over it.
-/

namespace LightOS.Kernel

open Lib Filesystem Descriptor

/-- The pids in use are among the ones that have been created, and so are their parents. -/
structure Lineage (proc : Proc) (created : Nat → Prop) : Prop where
  roots : ∀ t : TerminalId, created t.number
  range : ∀ pid, created pid → 1 ≤ pid ∧ pid ≤ 6
  parent : ∀ pid, created pid → 4 ≤ pid → created (proc.pcb pid).parentPid
  active : proc.activePid ≠ 0 → created proc.activePid
  current : ∀ t, proc.currentProcessId t ≠ 0 → created (proc.currentProcessId t)
  idle : proc.activePid = 0 → ∀ t, proc.currentProcessId t = 0
  reserved : ∀ pid ≤ 3, proc.processes pid = 1

/-- What holds between the steps. -/
structure Sound (s : State) : Prop where
  valid : s.display.Valid s.proc.activeTerminal
  user : s.proc.activePid ≠ 0 →
    s.display.mmu.pageDir Mmu.userIndex = Mmu.userEntry s.proc.activePid
  lineage : ∃ created, Lineage s.proc created

/-- A page fault: a terminal switch before any process is active, or a child whose parent's
    control block names no terminal. -/
def Faulting (s : State) : Action → Prop
  | .switchTo t => s.proc.activePid = 0 ∧ t ≠ s.display.currentTerminal
  | .halt _ => 4 ≤ s.proc.activePid ∧
      (s.proc.pcb (s.proc.pcb s.proc.activePid).parentPid).terminal = none
  | _ => False

/-- What a step can do in a sound state. -/
inductive Outcome (bootBlock : Option Image) (s : State) : Action → State → Prop
  | putc {c display} : OutputOn (s.display.screenPage s.proc.activeTerminal)
        s.proc.activeTerminal s.display display →
      Outcome bootBlock s (.putc c) { s with display }
  | clear {display} : OutputOn (s.display.screenPage s.proc.activeTerminal)
        s.proc.activeTerminal s.display display →
      Outcome bootBlock s .clear { s with display }
  | echo {c display} : OutputOn (s.display.screenPage s.display.currentTerminal)
        s.display.currentTerminal s.display display →
      Outcome bootBlock s (.echo c) { s with display }
  | echoBack {display} : OutputOn (s.display.screenPage s.display.currentTerminal)
        s.display.currentTerminal s.display display →
      Outcome bootBlock s .echoBack { s with display }
  | echoClear {display} : OutputOn (s.display.screenPage s.display.currentTerminal)
        s.display.currentTerminal s.display display →
      Outcome bootBlock s .echoClear { s with display }
  | userStore {va byte mmu} : Mmu.WritesIn (OnFrame s.proc.activePid) s.display.mmu mmu →
      Outcome bootBlock s (.userStore va byte) { s with display := { s.display with mmu } }
  | kernelCopy {va bytes mmu} : Mmu.WritesIn (OnFrame s.proc.activePid) s.display.mmu mmu →
      Outcome bootBlock s (.kernelCopy va bytes) { s with display := { s.display with mmu } }
  | switchSame {t} : t = s.display.currentTerminal → Outcome bootBlock s (.switchTo t) s
  | switchTo {t display} : t ≠ s.display.currentTerminal →
      Shown s.display display s.proc.activeTerminal t →
      Outcome bootBlock s (.switchTo t) { s with display }
  | enter {t display entryPoint} : Switched s.display display t t.number →
      Outcome bootBlock s (.bootEnter t) ⟨s.proc.entered t, display, .enterUser entryPoint⟩
  | first {interrupted t display entryPoint} : nextTerminal s.proc.activeTerminal = t →
      s.proc.currentProcessId t = 0 → Switched s.display display t t.number →
      Outcome bootBlock s (.schedule interrupted)
        ⟨(s.proc.storeContext (precedingRoot t) interrupted).entered t, display,
          .enterUser entryPoint⟩
  | next {interrupted t display} : nextTerminal s.proc.activeTerminal = t →
      s.proc.currentProcessId t ≠ 0 →
      Switched s.display display t (s.proc.currentProcessId t) →
      Outcome bootBlock s (.schedule interrupted)
        ⟨s.proc.rotated interrupted, display,
          .resume ((s.proc.rotated interrupted).pcb (s.proc.currentProcessId t)).context⟩
  | root {status t message display entryPoint} : s.proc.activePid = t.number →
      Switched (s.display.printf s.proc.activeTerminal (text message)) display t t.number →
      Outcome bootBlock s (.halt status) ⟨s.proc.entered t, display, .enterUser entryPoint⟩
  | child {status t display} : 4 ≤ s.proc.activePid →
      (s.proc.pcb (s.proc.pcb s.proc.activePid).parentPid).terminal = some t →
      Switched s.display display t (s.proc.pcb s.proc.activePid).parentPid →
      Outcome bootBlock s (.halt status)
        ⟨s.proc.reaped t, display,
          .leaveExecute ((s.proc.reaped t).pcb (s.proc.pcb s.proc.activePid).parentPid).context
            status.toNat⟩
  | rejected {stack command caller message argBuf argumentExist} :
      (s.checkCommand bootBlock stack command).2 = none →
      Outcome bootBlock s (.execute stack command caller)
        ⟨{ s.proc with argBuf, argumentExist },
          s.display.printf s.proc.activeTerminal (text message), .returned (-1)⟩
  | full {stack command caller message argBuf argumentExist} :
      (s.checkCommand bootBlock stack command).2 ≠ none →
      (List.range 7).find? (fun i => s.proc.processes i = 0) = none →
      s.proc.processCount ≠ MAX_NUM_PROCESSES →
      Outcome bootBlock s (.execute stack command caller)
        ⟨{ s.proc with argBuf, argumentExist, processCount := s.proc.processCount + 1 },
          s.display.printf s.proc.activeTerminal (text message), .returned (-1)⟩
  | started {stack command caller argBuf argumentExist pid eip paged mmu entryPoint} :
      s.proc.activePid ≠ 0 → (s.checkCommand bootBlock stack command).2 ≠ none →
      (List.range 7).find? (fun i => s.proc.processes i = 0) = some pid →
      4 ≤ pid → pid ≤ 6 → s.proc.processCount ≠ MAX_NUM_PROCESSES →
      Switched s.display paged s.proc.activeTerminal pid →
      Mmu.WritesIn (OnFrame pid) paged.mmu mmu →
      Outcome bootBlock s (.execute stack command caller)
        ⟨{ s.proc with argBuf, argumentExist }.started pid
            (State.newPcb { s with proc := { s.proc with argBuf, argumentExist } } pid eip) caller,
          { paged with mmu }, .enterUser entryPoint⟩
  | fault {action after} : Faulting s action → after.faulted = true →
      (∀ pa, 4096 * (videoPage + 4) ≤ pa →
        after.display.mmu.mem pa = s.display.mmu.mem pa) →
      Outcome bootBlock s action after

namespace State

section Parts

variable {s : State} {bootBlock : Option Image}

theorem printf_output (valid : s.display.Valid s.proc.activeTerminal) (message : String) :
    OutputOn (s.display.screenPage s.proc.activeTerminal) s.proc.activeTerminal s.display
      (s.display.printf s.proc.activeTerminal (text message)) :=
  Display.printf_output valid.window (valid.inside _) _

/-- Stores to the user page are stores to the frame of the active process. -/
theorem storeBytes_frame (small : s.proc.activePid ≤ 6)
    (user : s.display.mmu.pageDir Mmu.userIndex = Mmu.userEntry s.proc.activePid) {va : Nat}
    {bytes : List UInt8} (inside : ∀ i < bytes.length, inUserPage (va + i)) :
    Mmu.WritesIn (OnFrame s.proc.activePid) s.display.mmu (s.display.mmu.storeBytes va bytes) := by
  apply Mmu.storeBytes_writes
  intro i before
  obtain ⟨from_, until_⟩ := inside i before
  refine ⟨_, Mmu.translate_user small user from_ until_, ?_, ?_⟩ <;>
    simp only [VIRTUAL_128MB_START] at * <;> omega

theorem userStore_eq
    (user : s.display.mmu.pageDir Mmu.userIndex = Mmu.userEntry s.proc.activePid) {va : Nat}
    (inside : inUserPage va) (byte : UInt8) :
    s.display.mmu.userStore va byte = s.display.mmu.storeBytes va [byte] := by
  obtain ⟨from_, until_⟩ := inside
  have directory : va / 2 ^ 22 = Mmu.userIndex := by
    simp only [VIRTUAL_128MB_START, Mmu.userIndex, VIRTUAL_ADDRESS_PROGRAM_START] at *
    omega
  have writable : s.display.mmu.userWritable va = true := by
    simp only [Mmu.userWritable, directory, user, Mmu.userEntry, Bool.and_self]
  simp only [Mmu.userStore, writable, if_true, Mmu.storeBytes]

end Parts

section Steps

variable {s : State} {bootBlock : Option Image}

theorem active_range (sound : Sound s) (active : s.proc.activePid ≠ 0) :
    1 ≤ s.proc.activePid ∧ s.proc.activePid ≤ 6 := by
  obtain ⟨created, lineage⟩ := sound.lineage
  exact lineage.range _ (lineage.active active)

theorem schedule_outcome (sound : Sound s) (interrupted : Context) :
    Outcome bootBlock s (.schedule interrupted) (s.schedule interrupted) := by
  have mapped := sound.valid.toMapped
  obtain ⟨created, lineage⟩ := sound.lineage
  by_cases idle : s.proc.currentProcessId (nextTerminal s.proc.activeTerminal) = 0
  · obtain ⟨display, entryPoint, result, switched⟩ := schedule_first mapped interrupted rfl idle
    rw [result]
    exact .first rfl idle switched
  · have active : s.proc.activePid ≠ 0 := fun none => idle (lineage.idle none _)
    obtain ⟨activePositive, activeSmall⟩ := active_range sound active
    obtain ⟨positive, small⟩ := lineage.range _ (lineage.current _ idle)
    obtain ⟨display, result, switched⟩ :=
      schedule_next mapped interrupted activePositive activeSmall positive small
    rw [result]
    exact .next rfl idle switched

theorem execute_outcome (sound : Sound s) (active : s.proc.activePid ≠ 0) (stack : List UInt8)
    (command : CharPtr) (caller : Context) :
    Outcome bootBlock s (.execute stack command caller)
      (s.syscallExecute bootBlock stack command caller) := by
  obtain ⟨activePositive, activeSmall⟩ := active_range sound active
  obtain ⟨created, lineage⟩ := sound.lineage
  cases inode_eq : (s.checkCommand bootBlock stack command).2 with
  | none =>
      obtain ⟨message, argBuf, argumentExist, checked, _⟩ :=
        checkCommand_effect (s := s) bootBlock stack command
      have pair : s.checkCommand bootBlock stack command =
          ((s.checkCommand bootBlock stack command).1, none) := by rw [← inode_eq]
      have result : s.syscallExecute bootBlock stack command caller =
          ⟨{ s.proc with argBuf, argumentExist },
            s.display.printf s.proc.activeTerminal (text message), .returned (-1)⟩ := by
        rw [syscallExecute, pair, checked]
      rw [result]
      exact .rejected inode_eq
  | some inode =>
      have accepted : (s.checkCommand bootBlock stack command).2 ≠ none := by simp [inode_eq]
      obtain ⟨argBuf, argumentExist, notFull, _, starts⟩ := syscallExecute_accepted inode_eq
      rw [starts]
      cases free : (List.range 7).find? (fun i => s.proc.processes i = 0) with
      | none =>
          have noPid : State.startProgram bootBlock inode caller
              ⟨{ s.proc with argBuf, argumentExist }, s.display, s.control⟩ =
                ⟨{ s.proc with argBuf, argumentExist, processCount := s.proc.processCount + 1 },
                  s.display.printf s.proc.activeTerminal
                    (text "Max number of processes reached\n"), .returned (-1)⟩ := by
            simp only [startProgram, Proc.getProcessAvailable, free, printf]
          rw [noPid]
          exact .full accepted free notFull
      | some pid =>
          obtain ⟨isFree, inPool⟩ := Proc.free_of_find free
          have child : 4 ≤ pid := by
            by_contra small
            have taken := lineage.reserved pid (by omega)
            simp [taken] at isFree
          obtain ⟨eip, paged, entryPoint, started, switched⟩ :=
            startProgram_effect (s := ⟨{ s.proc with argBuf, argumentExist }, s.display, s.control⟩)
              sound.valid.toMapped (sound.user active) activePositive activeSmall free (by omega)
              (by omega) bootBlock inode caller
          rw [started]
          exact .started active accepted free child (by omega) notFull switched
            (program_writes (by omega) switched.user bootBlock inode)

theorem halt_outcome (sound : Sound s) (active : s.proc.activePid ≠ 0) (status : UInt8) :
    Outcome bootBlock s (.halt status) (s.syscallHalt status) := by
  obtain ⟨activePositive, activeSmall⟩ := active_range sound active
  obtain ⟨created, lineage⟩ := sound.lineage
  by_cases child : 4 ≤ s.proc.activePid
  · obtain ⟨parentPositive, parentSmall⟩ :=
      lineage.range _ (lineage.parent _ (lineage.active active) child)
    cases terminal : (s.proc.pcb (s.proc.pcb s.proc.activePid).parentPid).terminal with
    | none =>
        obtain ⟨proc, activeTerminal, result⟩ := halt_orphan sound.valid.toMapped status child
          activeSmall parentPositive parentSmall terminal
        obtain ⟨faults, elsewhere⟩ := exceptionHandler_effect proc s.control
          (activeTerminal ▸ sound.valid : s.display.Valid proc.activeTerminal) PAGE_FAULT
        rw [result]
        exact .fault ⟨child, terminal⟩ faults elsewhere
    | some t =>
        obtain ⟨display, result, switched⟩ := halt_child sound.valid.toMapped status child
          activeSmall parentPositive parentSmall terminal
        rw [result]
        exact .child child terminal switched
  · obtain ⟨t, root⟩ := State.exists_number activePositive (by omega)
    obtain ⟨message, result⟩ := halt_root status root
    have printed := sound.valid.toMapped.of_output (printf_output sound.valid message)
    obtain ⟨display, entryPoint, entered, switched⟩ :=
      bootEnterTerminal_effect (s := s.printf message) printed t
    rw [result, entered]
    exact .root root switched

theorem switchTo_outcome (sound : Sound s) (t : TerminalId) :
    Outcome bootBlock s (.switchTo t) (s.switchToTerminal t) := by
  by_cases same : t = s.display.currentTerminal
  · rw [switchToTerminal_same same]
    exact .switchSame same
  · rcases switchToTerminal_effect sound.valid.toMapped same with
      stops | ⟨display, result, shown⟩
    · have none : s.proc.activePid = 0 := by
        by_contra active
        exact stops.outOfReach (active_range sound active)
      exact .fault ⟨none, same⟩ stops.faulted stops.elsewhere
    · rw [result]
      exact .switchTo same shown

/-- Every step has one of the listed outcomes. -/
theorem step_outcome (sound : Sound s) {action : Action} (able : s.able action) :
    Outcome bootBlock s action (s.step bootBlock action) := by
  obtain ⟨running, able⟩ := able
  have window := sound.valid.window
  have direct := sound.valid.toMapped.directWindow
  have inside := sound.valid.inside
  cases action with
  | schedule interrupted => exact schedule_outcome sound interrupted
  | execute stack command caller => exact execute_outcome sound able stack command caller
  | halt status => exact halt_outcome sound able status
  | bootEnter t =>
      obtain ⟨display, entryPoint, result, switched⟩ :=
        bootEnterTerminal_effect sound.valid.toMapped t
      simp only [step, result]
      exact .enter switched
  | putc c => exact .putc (Display.putcOn_output window (inside _) c)
  | clear => exact .clear (Display.clearOn_output window)
  | echo c => exact .echo (Display.putcOn_output direct (inside _) c)
  | echoBack => exact .echoBack (Display.back_output direct (inside _))
  | echoClear => exact .echoClear (Display.clearOn_output direct)
  | switchTo t => exact switchTo_outcome sound t
  | userStore va byte =>
      obtain ⟨active, inPage⟩ := able
      have user := sound.user active
      simp only [step]
      rw [userStore_eq user inPage]
      refine .userStore (storeBytes_frame (active_range sound active).2 user fun i before => ?_)
      obtain rfl : i = 0 := by simpa using before
      exact inPage
  | kernelCopy va bytes =>
      obtain ⟨active, inPage⟩ := able
      exact .kernelCopy (storeBytes_frame (active_range sound active).2 (sound.user active) inPage)

end Steps

end State

end LightOS.Kernel
