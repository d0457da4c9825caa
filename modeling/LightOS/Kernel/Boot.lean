import LightOS.Kernel.Soundness

/-! # Booting

What `entry` leaves behind: the mapping of `page_initialize`, a pool in which only the
reserved pids are taken, no process active, and the control blocks of the root shells that
were found.
-/

namespace LightOS.Kernel

open Lib Filesystem Descriptor

/-- Before the first process runs. -/
structure Fresh (s : State) : Prop where
  valid : s.display.Valid .terminal1
  activeTerminal : s.proc.activeTerminal = .terminal1
  activePid : s.proc.activePid = 0
  processCount : s.proc.processCount = 3
  processes : ∀ i, s.proc.processes i = if i < 4 then 1 else 0
  current : ∀ t, s.proc.currentProcessId t = 0

/-- The checks that `create_terminal_shell` makes. -/
def ShellFound (bootBlock : Option Image) (stack : List UInt8) : Prop :=
  ∃ fd, fileOpen bootBlock (some State.shellName) = some fd ∧ isExecutable bootBlock fd stack = true

/-- The control block of the root shell of `t`. -/
structure RootBlock (s : State) (t : TerminalId) : Prop where
  parentPid : (s.proc.pcb t.number).parentPid = 0
  terminal : (s.proc.pcb t.number).terminal = some t

section Boot

variable {s : State} (bootBlock : Option Image)

theorem Fresh.sound (fresh : Fresh s) : Sound s where
  valid := by
    rw [fresh.activeTerminal]
    exact fresh.valid
  user active := absurd fresh.activePid active
  lineage := by
    refine ⟨fun pid => 1 ≤ pid ∧ pid ≤ 3, State.number_range, fun pid range => by omega,
      fun pid range child => by omega, fun active => absurd fresh.activePid active,
      fun t occupied => absurd (fresh.current t) occupied, fun _ => fresh.current, ?_⟩
    intro pid few
    rw [fresh.processes, if_pos (by omega)]

theorem Fresh.running (fresh : Fresh s) : s.faulted = false := fresh.valid.fault

theorem PowerOn.fresh (on : PowerOn s) : Fresh s.initDevices where
  valid := by
    have tables : s.display.mmu.pageInitialize.LowMapped := by
      refine ⟨rfl, rfl, rfl, ⟨videoPage, rfl⟩, ?_⟩
      rintro (_ | _ | _) <;> rfl
    refine ⟨⟨on.fault, tables, fun _ => rfl, fun _ => rfl, fun _ => ?_⟩, ?_⟩
    · exact ⟨Nat.zero_lt_succ _, Nat.zero_le _, fun _ => rfl⟩
    · simp only [Display.screenPage, State.initDevices, State.pageInitialize, State.keyboardInit,
        on.currentTerminal, if_true]
      rfl
  activeTerminal := on.activeTerminal
  activePid := on.activePid
  processCount := on.processCount
  processes := on.processes
  current _ := rfl

theorem Fresh.of_output (fresh : Fresh s) {page : Nat} {t : TerminalId} {display : Display}
    (output : OutputOn page t s.display display) : Fresh { s with display } :=
  { fresh with valid := fresh.valid.of_output output }

/-- A shell that is not found changes nothing; one that is found gets its page and its
    control block. -/
theorem Fresh.createTerminalShell (fresh : Fresh s) (t : TerminalId) (stack : List UInt8) :
    (¬ ShellFound bootBlock stack ∧ s.createTerminalShell t bootBlock stack = s) ∨
      ∃ mmu block, s.createTerminalShell t bootBlock stack =
          ⟨(s.proc.setPcb t.number block).setCurrent t 0, { s.display with mmu }, s.control⟩ ∧
        Mmu.WritesIn (OnFrame t.number) (s.display.mmu.pagingExecute t.number) mmu ∧
        block.parentPid = 0 ∧ block.terminal = some t := by
  obtain ⟨positive, few⟩ := State.number_range t
  cases opened : fileOpen bootBlock (some State.shellName) with
  | none =>
      refine .inl ⟨?_, by simp only [State.createTerminalShell, opened]⟩
      rintro ⟨fd, found, _⟩
      simp [opened] at found
  | some fd =>
      by_cases executable : isExecutable bootBlock fd stack = true
      · obtain ⟨mmu, loaded, writes⟩ := State.loadProgram_writes
          { s.display with mmu := s.display.mmu.pagingExecute t.number }
          (show t.number ≤ 6 by omega) (Mmu.pagingExecute_user _ _) s.proc s.control bootBlock fd
        have user : mmu.pageDir Mmu.userIndex = Mmu.userEntry t.number := by
          rw [writes.pageDir]
          exact Mmu.pagingExecute_user _ _
        obtain ⟨eip, read⟩ := State.entryPoint_some
          (s := ⟨s.proc, { s.display with mmu }, s.control⟩) (by omega) user
        have inReach : State.pcbMapped ⟨s.proc, { s.display with mmu }, s.control⟩ t.number =
            true :=
          State.pcbMapped_of_mapped
            ((fresh.valid.tables.pagingExecute t.number).of_writes writes) positive (by omega)
        have running : mmu.fault = false := by rw [writes.fault]; exact fresh.valid.fault
        refine .inr ⟨mmu, s.rootPcb t eip, ?_, writes, rfl, rfl⟩
        · simp only [State.createTerminalShell, opened, executable, if_true, State.pagingExecute]
          rw [loaded, State.andThen_running running]
          simp only [inReach, read]
          rfl
      · refine .inl ⟨?_, by simp [State.createTerminalShell, opened, executable]⟩
        rintro ⟨other, found, passes⟩
        obtain rfl : fd = other := by simpa [opened] using found
        exact executable passes

theorem Fresh.of_pages (fresh : Fresh s) {pid : Nat} {region : Nat → Prop} {mmu : Mmu}
    (writes : Mmu.WritesIn region (s.display.mmu.pagingExecute pid) mmu) :
    Fresh { s with display := { s.display with mmu } } :=
  have paged : Display.Valid { s.display with mmu := s.display.mmu.pagingExecute pid }
      .terminal1 := ⟨fresh.valid.toMapped.pagingExecute pid, fresh.valid.entry⟩
  have written := paged.of_writes writes
  { fresh with valid := written }

theorem Fresh.setShell (fresh : Fresh s) (t : TerminalId) (block : Pcb) :
    Fresh { s with proc := (s.proc.setPcb t.number block).setCurrent t 0 } where
  valid := fresh.valid
  activeTerminal := fresh.activeTerminal
  activePid := fresh.activePid
  processCount := fresh.processCount
  processes := fresh.processes
  current u := by
    by_cases this : u = t
    · simp [Proc.setCurrent, this]
    · simp [Proc.setCurrent, Proc.setPcb, this, fresh.current]

theorem Fresh.shellCreated (fresh : Fresh s) (t : TerminalId) (stack : List UInt8) :
    Fresh (s.createTerminalShell t bootBlock stack) ∧
      (ShellFound bootBlock stack → RootBlock (s.createTerminalShell t bootBlock stack) t) ∧
      ∀ u, u ≠ t → RootBlock s u → RootBlock (s.createTerminalShell t bootBlock stack) u := by
  rcases fresh.createTerminalShell bootBlock t stack with
    ⟨missing, result⟩ | ⟨mmu, block, result, writes, parentPid, terminal⟩
  · rw [result]
    exact ⟨fresh, fun found => absurd found missing, fun _ _ root => root⟩
  · rw [result]
    refine ⟨(fresh.of_pages writes).setShell t block, fun _ => ?_, fun u other root => ?_⟩
    · constructor <;> simp [Proc.setCurrent, Proc.setPcb, parentPid, terminal]
    · have apart : u.number ≠ t.number := fun same => other (TerminalId.number_injective same)
      constructor <;>
        simp [Proc.setCurrent, Proc.setPcb, apart, root.parentPid, root.terminal]

/-- The `hlt` loop of `entry`. -/
theorem PowerOn.entry_fresh (on : PowerOn s) (buffers : TerminalId → List UInt8) :
    Fresh (s.entry bootBlock buffers) ∧
      ((∀ t, ShellFound bootBlock (buffers t)) →
        ∀ t, RootBlock (s.entry bootBlock buffers) t) := by
  have fresh := on.fresh
  have printed : Fresh (s.initDevices.printf "Enabling Interrupts\n") :=
    fresh.of_output (State.printf_output fresh.sound.valid _)
  have cleared := printed.of_output
    (Display.clearOn_output (t := s.proc.activeTerminal) printed.sound.valid.window)
  obtain ⟨first, root1, _⟩ :=
    cleared.shellCreated bootBlock .terminal1 (buffers .terminal1)
  obtain ⟨second, root2, keep2⟩ :=
    first.shellCreated bootBlock .terminal2 (buffers .terminal2)
  obtain ⟨third, root3, keep3⟩ :=
    second.shellCreated bootBlock .terminal3 (buffers .terminal3)
  refine ⟨{ third with }, fun found t => ?_⟩
  cases t with
  | terminal1 =>
      have root := keep3 _ (by decide) (keep2 _ (by decide) (root1 (found .terminal1)))
      exact { root with }
  | terminal2 =>
      have root := keep3 _ (by decide) (root2 (found .terminal2))
      exact { root with }
  | terminal3 => exact { root3 (found .terminal3) with }

theorem Fresh.homed (fresh : Fresh s) (roots : ∀ t, RootBlock s t) : Homed s := by
  refine ⟨fun pid => ∃ t : TerminalId, pid = t.number, ?_, ?_⟩
  · constructor
    case roots => exact fun t => ⟨t, rfl⟩
    case range =>
      rintro pid ⟨t, rfl⟩
      obtain ⟨positive, few⟩ := State.number_range t
      omega
    case parent =>
      rintro pid ⟨t, rfl⟩ child
      obtain ⟨_, few⟩ := State.number_range t
      omega
    case active => exact fun active => absurd fresh.activePid active
    case current => exact fun t occupied => absurd (fresh.current t) occupied
    case idle => exact fun _ => fresh.current
    case reserved =>
      intro pid few
      rw [fresh.processes, if_pos (by omega)]
  · rintro pid ⟨t, rfl⟩
    rw [(roots t).terminal]
    exact Option.some_ne_none t

/-- The first tick of the timer enters the shell of terminal 2. -/
theorem Fresh.scheduled (fresh : Fresh s) (context : Context) :
    Sound (s.step bootBlock (.schedule context)) ∧
      (s.step bootBlock (.schedule context)).proc =
        (s.proc.storeContext 1 context).entered .terminal2 ∧
      (s.step bootBlock (.schedule context)).display.currentTerminal =
        s.display.currentTerminal := by
  obtain ⟨sound, proc⟩ := fresh.sound.first_entry bootBlock context (t := .terminal2)
    (by rw [fresh.activeTerminal]; rfl) (fresh.current _)
  exact ⟨sound, proc, (fresh.sound.scheduled bootBlock context).2⟩

/-- The third one enters that of terminal 1. -/
theorem Fresh.three_schedules (fresh : Fresh s) (context : Context) {allowed : Action → Prop}
    (timer : allowed (.schedule context)) :
    ∃ later, ((kernel bootBlock).restrict fun _ action => allowed action).Run s
        (List.replicate 3 (.schedule context)) later ∧
      Sound later ∧ (∀ t, later.proc.currentProcessId t = t.number) ∧ later.proc.activePid = 1 ∧
      later.proc.processCount = 3 ∧ later.proc.processes = fun i => if i < 4 then 1 else 0 := by
  obtain ⟨sound1, proc1, _⟩ := fresh.scheduled bootBlock context
  obtain ⟨sound2, proc2⟩ := sound1.first_entry bootBlock context (t := .terminal3)
    (by rw [proc1]; rfl) (by rw [proc1]; exact fresh.current _)
  obtain ⟨sound3, proc3⟩ := sound2.first_entry bootBlock context (t := .terminal1)
    (by rw [proc2]; rfl) (by rw [proc2, proc1]; exact fresh.current _)
  rw [proc2, proc1] at proc3
  refine ⟨((s.step bootBlock (.schedule context)).step bootBlock (.schedule context)).step bootBlock
    (.schedule context), .cons ⟨⟨fresh.running, trivial⟩, timer⟩
      (.cons ⟨⟨sound1.valid.fault, trivial⟩, timer⟩
        (.cons ⟨⟨sound2.valid.fault, trivial⟩, timer⟩ (.nil _))), sound3, ?_⟩
  rw [proc3]
  refine ⟨fun t => ?_, rfl, fresh.processCount, funext fresh.processes⟩
  cases t <;> rfl

/-- With shells to boot, every process can go on from there. -/
theorem Fresh.going (fresh : Fresh s) (roots : ∀ t, RootBlock s t) (context : Context) :
    Going (s.step bootBlock (.schedule context)) := by
  obtain ⟨sound, proc, _⟩ := fresh.scheduled bootBlock context
  have able : s.able (.schedule context) := ⟨fresh.running, trivial⟩
  have outcome : Outcome bootBlock s _ (s.step bootBlock (.schedule context)) :=
    State.step_outcome fresh.sound able
  refine ⟨sound, outcome.homed (fresh.homed roots) id, ?_⟩
  rw [proc]
  exact Nat.succ_ne_zero 1

/-- From the `hlt` loop of `entry` on: the first tick, and then any steps. -/
theorem PowerOn.run (on : PowerOn s) {buffers : TerminalId → List UInt8}
    (found : ∀ t, ShellFound bootBlock (buffers t)) (context : Context) {allowed : Action → Prop}
    {as : List Action} (timer : allowed (.schedule context))
    (all : ∀ action ∈ as, action.InUserPage ∧ allowed action) :
    ∃ later, ((kernel bootBlock).restrict fun _ action => allowed action).Run
        (s.entry bootBlock buffers) (.schedule context :: as) later ∧ Going later := by
  obtain ⟨fresh, roots⟩ := on.entry_fresh bootBlock buffers
  obtain ⟨later, run, going⟩ := (fresh.going bootBlock (roots found) context).run bootBlock all
  exact ⟨later, .cons ⟨⟨fresh.running, trivial⟩, timer⟩ run, going⟩

/-- What the kernel comes to: from `page_initialize` and `keyboard_init` on, before the shells
    are loaded, or from the end of `entry`. -/
inductive Reached (bootBlock : Option Image) (s : State) : State → Prop
  | booting {as later} : (kernel bootBlock).Run s.initDevices as later → Reached bootBlock s later
  | booted {buffers as later} :
      (kernel bootBlock).Run (s.entry bootBlock buffers) as later → Reached bootBlock s later

variable {bootBlock}

theorem PowerOn.reached_sound (on : PowerOn s) {later : State} (reached : Reached bootBlock s later)
    (running : later.faulted = false) : Sound later := by
  cases reached with
  | booting run => exact sound_of_run run on.fresh.sound running
  | booted run => exact sound_of_run run (on.entry_fresh bootBlock _).1.sound running

end Boot

/-- An image with one file, the four bytes of an executable's magic number, named `shell`. -/
def shellImage : Image where
  byte addr :=
    ([(0, 1), (4, 1), (8, 1), (64, 0x73), (65, 0x68), (66, 0x65), (67, 0x6C), (68, 0x6C), (96, 2),
      (4096, 4), (8192, 0x7F), (8193, 0x45), (8194, 0x4C), (8195, 0x46)].lookup addr).getD 0

theorem shellImage_found (stack : List UInt8) : ShellFound (some shellImage) stack := by
  have opened : fileOpen (some shellImage) (some State.shellName) = some 0 := by decide +kernel
  have magic : readData (some shellImage) 0 0 false 4 = ⟨4, [0x7F, 0x45, 0x4C, 0x46]⟩ := by
    decide +kernel
  refine ⟨0, opened, ?_⟩
  simp [isExecutable, magic]

/-- Switched on with memory all zero. -/
def poweredOn : State where
  proc :=
    { activeTerminal := .terminal1
      activePid := 0
      processCount := 3
      processes := fun i => if i < 4 then 1 else 0
      currentProcessId := fun _ => 0
      argBuf := List.replicate MAX_ARG_LENGTH 0
      argumentExist := 0
      pcb := fun _ =>
        { fileDescriptorArray := fun _ => ⟨none, 0, 0, 0⟩
          currentPid := 0
          parentPid := 0
          currentEsp := 0
          currentEbp := 0
          currentEip := 0
          argBuf := List.replicate MAX_ARG_LENGTH 0
          vidmapFlag := 0
          terminal := none }
      esp0 := 0 }
  display :=
    { mmu :=
        { mem := fun _ => 0
          pageDir := fun _ => Mmu.absentPde
          pgTab1 := fun _ => Mmu.absentPte
          vidmapPgTab1 := fun _ => Mmu.absentPte
          fault := false }
      currentTerminal := .terminal1
      screens := fun _ => ⟨0, 0, 0, 0⟩
      cursor := 0 }
  control := .idle

theorem poweredOn_powerOn : PowerOn poweredOn := ⟨rfl, rfl, rfl, fun _ => rfl, rfl, rfl⟩

end LightOS.Kernel
