import LightOS.Kernel.Sessions

/-! # Kernel stacks

Each pid has 8 KB below 0x800000 for its control block and its kernel stack, and
`tss.esp0` says where the processor starts to push when the active process enters the
kernel.  The boot routines, `schedule` and `halt` point it into the slot of the process they
go on with.  `execute` points it at the bottom of the slot, which is the top of the next one.
-/

namespace LightOS.Kernel

open Lib Filesystem Descriptor

/-- The 8 KB of a pid, from its control block on. -/
def InSlot (pid va : Nat) : Prop := pcbAddress pid ≤ va ∧ va < pcbAddress (pid - 1)

/-- SS, ESP, EFLAGS, CS and EIP, which the processor pushes on its way into the kernel. -/
def INTERRUPT_FRAME_SIZE : Nat := 20

/-- The addresses the active process uses when it enters the kernel: the frame below
    `tss.esp0`, and the stack below that down to the control block. -/
def OnKernelStack (s : State) (va : Nat) : Prop :=
  va < s.proc.esp0 ∧ (s.proc.esp0 ≤ va + INTERRUPT_FRAME_SIZE ∨ pcbAddress s.proc.activePid ≤ va)

/-- `tss.esp0` lies in the slot of the active process, and no system call pushes into the slot
    of another live process. -/
structure StackSeparate (s : State) : Prop where
  own : s.proc.activePid ≠ 0 →
    pcbAddress s.proc.activePid < s.proc.esp0 ∧ s.proc.esp0 ≤ pcbAddress (s.proc.activePid - 1)
  apart : s.proc.activePid ≠ 0 → ∀ pid, 1 ≤ pid → pid ≤ 6 → pid ≠ s.proc.activePid →
    s.proc.processes pid = 1 → ∀ va, OnKernelStack s va → ¬ InSlot pid va

/-- An `execute` call that passes the checks: fewer than six processes, a command that is not
    too long, and a first word that names an executable file. -/
def StartsProgram (bootBlock : Option Image) (s : State) : Action → Prop
  | .execute stack command _ =>
      s.proc.processCount ≠ MAX_NUM_PROCESSES ∧
        toInt32 (strlen command + 1) ≤ (MAX_ARG_LENGTH : Int) + 4 ∧
        programInode bootBlock
          (scanWord command 0 false [] (toInt32 (strlen command + 1)).toNat).chars stack ≠ none
  | _ => False

/-- The process routines and the boot routines. -/
def Action.SwitchesStacks : Action → Prop
  | .bootEnter _ => True
  | action => action.OfProcesses

/-- The kernel, as far as kernel stacks go. -/
def stackMachine (bootBlock : Option Image) : Machine State Action :=
  (kernel bootBlock).restrict fun _ action => action.SwitchesStacks

/-- Only root shells have been running. -/
structure RootsOnly (s : State) : Prop where
  sound : Sound s
  activePid : s.proc.activePid ≤ 3
  current : ∀ t, s.proc.currentProcessId t ≤ 3
  pool : s.proc.processes 4 = 0

section Stack

variable {s : State} {bootBlock : Option Image}

/-- The value that the boot routines, `schedule` and `halt` compute. -/
theorem StackSeparate.of_pointer (esp0 : s.proc.esp0 = kernelStackPointer s.proc.activePid)
    (small : s.proc.activePid ≤ 6) : StackSeparate s where
  own active := by
    simp only [esp0, kernelStackPointer, pcbAddress, KERNEL_STACK_BASE_ADDRESS,
      USER_KERNEL_STACK_SIZE]
    omega
  apart active pid positive few other _ va := by
    rintro ⟨below, used⟩ ⟨from_, before⟩
    simp only [esp0, kernelStackPointer, pcbAddress, KERNEL_STACK_BASE_ADDRESS,
      USER_KERNEL_STACK_SIZE, INTERRUPT_FRAME_SIZE] at below used from_ before
    omega

/-- The value that `execute` computes. -/
theorem not_separate_of_bottom (active : s.proc.activePid ≠ 0)
    (esp0 : s.proc.esp0 = pcbAddress s.proc.activePid) : ¬ StackSeparate s := by
  intro separate
  have own := (separate.own active).1
  omega

theorem StackSeparate.of_same {after : State} (separate : StackSeparate s)
    (activePid : after.proc.activePid = s.proc.activePid) (esp0 : after.proc.esp0 = s.proc.esp0)
    (processes : after.proc.processes = s.proc.processes) : StackSeparate after where
  own := by
    rw [activePid, esp0]
    exact separate.own
  apart := by
    rw [activePid, processes]
    simp only [OnKernelStack, activePid, esp0]
    exact separate.apart

theorem startsProgram_iff {stack : List UInt8} {command : CharPtr} {caller : Context} :
    StartsProgram bootBlock s (.execute stack command caller) ↔
      (s.checkCommand bootBlock stack command).2 ≠ none := by
  by_cases full : s.proc.processCount = MAX_NUM_PROCESSES
  · simp [StartsProgram, State.checkCommand, full]
  · by_cases long : (MAX_ARG_LENGTH : Int) + 4 < toInt32 (strlen command + 1)
    · simp only [StartsProgram, State.checkCommand, if_neg full, if_pos long]
      exact iff_of_false (fun passed => absurd long (Int.not_lt.mpr passed.2.1))
        (fun some => some rfl)
    · simp only [StartsProgram, State.checkCommand, if_neg full, if_neg long]
      exact ⟨fun passed => passed.2.2, fun found => ⟨full, Int.not_lt.mp long, found⟩⟩

/-- A call that passes the checks, with a pid free, starts the program under it. -/
theorem Sound.starts (sound : Sound s) {stack : List UInt8} {command : CharPtr} {caller : Context}
    (able : s.able (.execute stack command caller))
    (starts : StartsProgram bootBlock s (.execute stack command caller))
    (free : (List.range 7).find? (fun i => s.proc.processes i = 0) ≠ none) :
    ∃ pid argBuf argumentExist eip display entryPoint, 4 ≤ pid ∧ s.proc.processes pid = 0 ∧
      s.syscallExecute bootBlock stack command caller =
        ⟨{ s.proc with argBuf, argumentExist }.started pid
            (State.newPcb { s with proc := { s.proc with argBuf, argumentExist } } pid eip) caller,
          display, .enterUser entryPoint⟩ ∧
      display.currentTerminal = s.display.currentTerminal ∧
      display.Valid s.proc.activeTerminal := by
  have outcome : Outcome bootBlock s (.execute stack command caller)
      (s.syscallExecute bootBlock stack command caller) := State.step_outcome sound able
  generalize s.syscallExecute bootBlock stack command caller = after at outcome ⊢
  cases outcome with
  | rejected refused => exact absurd refused (startsProgram_iff.mp starts)
  | full passed noPid notFull => exact absurd noPid free
  | started active passed found child small notFull switched writes =>
      exact ⟨_, _, _, _, _, _, child, (Proc.free_of_find found).1, rfl,
        switched.same.currentTerminal, switched.valid.of_writes writes⟩
  | fault faulting faults elsewhere => exact absurd faulting id

/-- The first shell that the timer enters starts a program. -/
theorem Fresh.child_started (fresh : Fresh s) (context : Context) {stack : List UInt8}
    {command : CharPtr} {caller : Context}
    (starts : ∀ shell : State, shell.proc.processCount = 3 →
      StartsProgram bootBlock shell (.execute stack command caller)) :
    let shell := s.step bootBlock (.schedule context)
    let child := shell.step bootBlock (.execute stack command caller)
    shell.able (.execute stack command caller) ∧ Sound child ∧ 4 ≤ child.proc.activePid ∧
      child.proc.activeTerminal = .terminal2 ∧
      child.proc.currentProcessId .terminal3 = 0 ∧
      ∃ entryPoint, child.control = .enterUser entryPoint := by
  intro shell child
  obtain ⟨sound, proc, _⟩ := fresh.scheduled bootBlock context
  have able : shell.able (.execute stack command caller) :=
    ⟨sound.valid.fault, by rw [proc]; exact Nat.succ_ne_zero 1⟩
  have count : shell.proc.processCount = 3 := by
    rw [proc]
    exact fresh.processCount
  have pool : shell.proc.processes = fun i => if i < 4 then 1 else 0 := by
    rw [proc]
    exact funext fresh.processes
  have free : (List.range 7).find? (fun i => shell.proc.processes i = 0) ≠ none := by
    rw [pool]
    decide
  obtain ⟨pid, argBuf, argumentExist, eip, display, entryPoint, isChild, _, result, _, valid⟩ :=
    sound.starts able (starts shell count) free
  have running : ¬ child.faulted = true := by
    rw [show child = _ from result]
    exact Bool.not_eq_true _ ▸ valid.fault
  refine ⟨able, (State.step_sound sound able).resolve_left running, ?_⟩
  rw [show child = _ from result]
  refine ⟨isChild, by rw [proc]; rfl, ?_, entryPoint, rfl⟩
  rw [proc]
  exact fresh.current .terminal3

/-- And from there every process can go on. -/
theorem Fresh.child_run (fresh : Fresh s) (roots : ∀ t, RootBlock s t) (context : Context)
    {stack : List UInt8} {command : CharPtr} {caller : Context}
    (starts : ∀ shell : State, shell.proc.processCount = 3 →
      StartsProgram bootBlock shell (.execute stack command caller)) {allowed : Action → Prop}
    (timer : allowed (.schedule context)) (call : allowed (.execute stack command caller)) :
    ∃ child, ((kernel bootBlock).restrict fun _ action => allowed action).Run s
        [.schedule context, .execute stack command caller] child ∧ Going child ∧
      4 ≤ child.proc.activePid := by
  have going := fresh.going bootBlock roots context
  obtain ⟨able, _, isChild, _⟩ := fresh.child_started context starts
  obtain ⟨_, goingOn⟩ := going.step bootBlock
    (show (Action.execute stack command caller).InUserPage from trivial)
  exact ⟨_, .cons ⟨⟨fresh.running, trivial⟩, timer⟩ (.cons ⟨able, call⟩ (.nil _)), goingOn, isChild⟩

theorem Fresh.rootsOnly (fresh : Fresh s) : RootsOnly s where
  sound := fresh.sound
  activePid := by rw [fresh.activePid]; omega
  current t := by rw [fresh.current]; omega
  pool := by rw [fresh.processes, if_neg (by omega)]

theorem RootsOnly.calm (roots : RootsOnly s) {action : Action} (kind : action.SwitchesStacks) :
    ¬ Faulting s action := by
  have small := roots.activePid
  cases action with
  | halt status => exact fun faulting => by have child := faulting.1; omega
  | switchTo t => cases kind
  | _ => exact id

/-- While only root shells run, a step of the kernel keeps the stacks apart exactly when it
    does not start a program. -/
theorem Outcome.stackSeparate_iff {action : Action} {after : State}
    (outcome : Outcome bootBlock s action after) (roots : RootsOnly s)
    (separate : StackSeparate s) (kind : action.SwitchesStacks) :
    StackSeparate after ↔ ¬ StartsProgram bootBlock s action := by
  have root (t : TerminalId) : t.number ≤ 6 := by cases t <;> decide
  have free : (List.range 7).find? (fun i => s.proc.processes i = 0) ≠ none := by
    intro none
    have taken := List.find?_eq_none.mp none 4 (by decide)
    exact absurd roots.pool (by simpa using taken)
  cases outcome with
  | putc output | clear output | echo output | echoBack output | echoClear output => cases kind
  | userStore writes | kernelCopy writes => cases kind
  | switchSame same | switchTo other shown => cases kind
  | @enter t _ _ switched | @first _ t _ _ next idle switched | @root _ t _ _ _ root' switched =>
      exact iff_of_true (.of_pointer rfl (root t)) id
  | @next _ t _ next occupied switched =>
      subst next
      exact iff_of_true (.of_pointer rfl (Nat.le_trans (roots.current _) (by omega))) id
  | child child terminal switched => exact absurd roots.activePid (by omega)
  | rejected refused =>
      exact iff_of_true (separate.of_same rfl rfl rfl)
        (fun passed => startsProgram_iff.mp passed refused)
  | full passed noPid notFull => exact absurd noPid free
  | started active passed found child small notFull switched writes =>
      refine iff_of_false (not_separate_of_bottom ?_ rfl)
        (fun refused => refused (startsProgram_iff.mpr passed))
      simp only [Proc.started]
      omega
  | fault faulting faults elsewhere => exact absurd faulting (roots.calm kind)

/-- And then it leads to a state in which only root shells run. -/
theorem Outcome.rootsOnly {action : Action} {after : State}
    (outcome : Outcome bootBlock s action after) (roots : RootsOnly s)
    (kind : action.SwitchesStacks) (refused : ¬ StartsProgram bootBlock s action) :
    RootsOnly after := by
  have root (t : TerminalId) : t.number ≤ 3 := by cases t <;> decide
  have sound := (outcome.sound roots.sound).resolve_left fun faults => roots.calm kind faults.1
  have updated (t u : TerminalId) :
      Function.update s.proc.currentProcessId t t.number u ≤ 3 := by
    by_cases this : u = t
    · rw [this, Function.update_self]
      exact root t
    · rw [Function.update_of_ne this]
      exact roots.current u
  cases outcome with
  | putc output | clear output | echo output | echoBack output | echoClear output => cases kind
  | userStore writes | kernelCopy writes => cases kind
  | switchSame same | switchTo other shown => cases kind
  | @enter t _ _ switched | @first _ t _ _ next idle switched | @root _ t _ _ _ root' switched =>
      exact ⟨sound, root t, updated t, roots.pool⟩
  | next next occupied switched => exact ⟨sound, roots.current _, roots.current, roots.pool⟩
  | child child terminal switched => exact absurd roots.activePid (by omega)
  | rejected refused => exact ⟨sound, roots.activePid, roots.current, roots.pool⟩
  | full passed | started active passed => exact absurd (startsProgram_iff.mpr passed) refused
  | fault faulting faults elsewhere => exact absurd faulting (roots.calm kind)

/-- From the `hlt` loop of `entry` on, in every order of boot routines, timer steps, `execute`
    and `halt`: the stacks stay apart all along a run exactly when every `execute` call of
    it is rejected. -/
theorem stacks_separate_iff (on : PowerOn s) (buffers : TerminalId → List UInt8)
    {as : List Action} {later : State}
    (run : (stackMachine bootBlock).Run (s.entry bootBlock buffers) as later) :
    (stackMachine bootBlock).Always StackSeparate (s.entry bootBlock buffers) as ↔
      (stackMachine bootBlock).EachStep (fun s action => ¬ StartsProgram bootBlock s action)
        (s.entry bootBlock buffers) as := by
  obtain ⟨fresh, _⟩ := on.entry_fresh bootBlock buffers
  refine run.always_iff (I := RootsOnly) ?_ ?_ fresh.rootsOnly ?_
  · rintro s a roots ⟨able, kind⟩ refused
    exact (State.step_outcome roots.sound able).rootsOnly roots kind refused
  · rintro s a roots separate ⟨able, kind⟩
    exact (State.step_outcome roots.sound able).stackSeparate_iff roots separate kind
  · exact ⟨fun active => absurd fresh.activePid active, fun active => absurd fresh.activePid active⟩

end Stack

/-- The shell of terminal 2 is entered, tries a command that there is not, and halts; the timer
    goes on to terminal 3. -/
def refusedCommand : List Action :=
  [.schedule ⟨0x7FFF00, 0x7FFF80⟩, .execute [] (charPtr (text "x")) ⟨0x7FDF00, 0x7FDF80⟩, .halt 0,
    .schedule ⟨0x7FDF00, 0x7FDF80⟩]

theorem refused_command_keeps_separate :
    (∃ later, (stackMachine (some shellImage)).Run (poweredOn.entry (some shellImage) (fun _ => []))
        refusedCommand later) ∧
      (stackMachine (some shellImage)).Always StackSeparate
        (poweredOn.entry (some shellImage) (fun _ => [])) refusedCommand := by
  obtain ⟨later, run, _⟩ : ∃ later, (stackMachine (some shellImage)).Run
      (poweredOn.entry (some shellImage) (fun _ => [])) refusedCommand later ∧ Going later :=
    poweredOn_powerOn.run (some shellImage) (fun _ => shellImage_found []) _ trivial
      (by simp [Action.InUserPage, Action.SwitchesStacks, Action.OfProcesses])
  refine ⟨⟨later, run⟩, (stacks_separate_iff poweredOn_powerOn _ run).mpr ⟨id, ?_, id, id, trivial⟩⟩
  exact fun starts => absurd starts.2.2 (by decide +kernel)

/-- With three processes, every shell can start another. -/
theorem shell_starts {s : State} (count : s.proc.processCount = 3) (caller : Context) :
    StartsProgram (some shellImage) s (.execute [] State.shellName caller) := by
  refine ⟨by rw [count]; decide, by decide +kernel, ?_⟩
  decide +kernel

/-- The shell of terminal 1 starts a program: `tss.esp0` is then the top of the slot of pid 5. -/
theorem Fresh.execute_leaves_slot {s : State} (fresh : Fresh s) (caller : Context) :
    ∃ later, (stackMachine (some shellImage)).Run s
        [.bootEnter .terminal1, .execute [] State.shellName caller] later ∧
      ¬ (stackMachine (some shellImage)).Always StackSeparate s
        [.bootEnter .terminal1, .execute [] State.shellName caller] := by
  obtain ⟨display, entryPoint, entered, switched⟩ :=
    State.bootEnterTerminal_effect fresh.valid.toMapped .terminal1
  have next : (kernel (some shellImage)).next s (.bootEnter .terminal1) =
      ⟨s.proc.entered .terminal1, display, .enterUser entryPoint⟩ := entered
  have booted : Outcome (some shellImage) s (.bootEnter .terminal1)
      ⟨s.proc.entered .terminal1, display, .enterUser entryPoint⟩ := .enter switched
  have roots := booted.rootsOnly fresh.rootsOnly trivial id
  have able : State.able ⟨s.proc.entered .terminal1, display, .enterUser entryPoint⟩
      (.execute [] State.shellName caller) := ⟨switched.valid.fault, Nat.succ_ne_zero 0⟩
  refine ⟨_, .cons ⟨⟨fresh.running, trivial⟩, trivial⟩
    (.cons ⟨next ▸ able, trivial⟩ (.nil _)), ?_⟩
  rintro ⟨_, separate, left⟩
  simp only [stackMachine, Machine.restrict, next] at separate left
  refine ((State.step_outcome roots.sound able).stackSeparate_iff roots separate trivial).mp left ?_
  exact shell_starts fresh.processCount caller

theorem started_program_leaves_slot :
    ∃ later, (stackMachine (some shellImage)).Run
        (poweredOn.entry (some shellImage) (fun _ => []))
        [.bootEnter .terminal1, .execute [] State.shellName ⟨0x7FFF00, 0x7FFF80⟩] later ∧
      ¬ (stackMachine (some shellImage)).Always StackSeparate
        (poweredOn.entry (some shellImage) (fun _ => []))
        [.bootEnter .terminal1, .execute [] State.shellName ⟨0x7FFF00, 0x7FFF80⟩] :=
  (poweredOn_powerOn.entry_fresh (some shellImage) (fun _ => [])).1.execute_leaves_slot _

end LightOS.Kernel
