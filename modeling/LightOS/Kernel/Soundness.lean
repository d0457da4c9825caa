import LightOS.Kernel.Outcome

/-! # Soundness of every run

Each outcome leads from a sound state to a sound state, or to the exception handler.  The
kernel is sound when `entry` reaches its `hlt` loop, whether the shells were found or not.
-/

namespace LightOS.Kernel

open Lib Filesystem Descriptor

/-- The control blocks name the parents and terminals they did. -/
structure Proc.SameLinks (before after : Proc) : Prop where
  parentPid : ∀ pid, (after.pcb pid).parentPid = (before.pcb pid).parentPid
  terminal : ∀ pid, (after.pcb pid).terminal = (before.pcb pid).terminal

section Sound

variable {proc after : Proc} {created : Nat → Prop}

theorem Proc.SameLinks.refl (proc : Proc) : proc.SameLinks proc := ⟨fun _ => rfl, fun _ => rfl⟩

theorem Proc.SameLinks.of_pcb (same : after.pcb = proc.pcb) : proc.SameLinks after := by
  constructor <;> simp [same]

theorem Proc.SameLinks.storeContext (proc : Proc) (pid : Nat) (context : Context) :
    proc.SameLinks (proc.storeContext pid context) := by
  constructor <;> intro other <;> by_cases this : other = pid <;>
    simp [Proc.storeContext, Proc.setPcb, this]

theorem Proc.SameLinks.rotated (proc : Proc) (interrupted : Context) :
    proc.SameLinks (proc.rotated interrupted) :=
  have links := Proc.SameLinks.storeContext proc proc.activePid interrupted
  ⟨links.parentPid, links.terminal⟩

/-- A new block, and a context stored for the process that has made it. -/
theorem Proc.SameLinks.started (proc : Proc) (pid : Nat) (block : Pcb) (caller : Context) :
    (proc.setPcb pid block).SameLinks (proc.started pid block caller) :=
  have links := Proc.SameLinks.storeContext (proc.setPcb pid block) proc.activePid caller
  ⟨links.parentPid, links.terminal⟩

theorem Proc.SameLinks.reaped (proc : Proc) (t : TerminalId) : proc.SameLinks (proc.reaped t) := by
  have tail := Proc.closeAll_tail (proc.pcb proc.activePid)
  constructor <;> intro other <;> by_cases this : other = proc.activePid
  · simp [Proc.reaped, this, tail.parentPid]
  · simp [Proc.reaped, this]
  · simp [Proc.reaped, this, tail.terminal]
  · simp [Proc.reaped, this]

theorem Lineage.entered (lineage : Lineage proc created) (t : TerminalId) :
    Lineage (proc.entered t) created where
  roots := lineage.roots
  range := lineage.range
  parent := lineage.parent
  active _ := lineage.roots t
  current u occupied := by
    simp only [Proc.entered] at occupied ⊢
    by_cases this : u = t
    · rw [this, Function.update_self]
      exact lineage.roots t
    · rw [Function.update_of_ne this] at occupied ⊢
      exact lineage.current u occupied
  idle none := by
    obtain ⟨positive, _⟩ := State.number_range t
    simp only [Proc.entered] at none
    omega
  reserved := lineage.reserved

/-- A step that leaves the pool and the current processes alone, and goes on with one of them. -/
theorem Lineage.of_links (lineage : Lineage proc created) (links : proc.SameLinks after)
    (processes : after.processes = proc.processes)
    (currents : after.currentProcessId = proc.currentProcessId)
    (active : after.activePid = proc.activePid ∨
      ∃ t, proc.currentProcessId t ≠ 0 ∧ after.activePid = proc.currentProcessId t) :
    Lineage after created where
  roots := lineage.roots
  range := lineage.range
  parent pid made child := by
    rw [links.parentPid pid]
    exact lineage.parent pid made child
  active running := by
    rcases active with same | ⟨t, occupied, goesOn⟩
    · rw [same] at running ⊢
      exact lineage.active running
    · rw [goesOn]
      exact lineage.current t occupied
  current t occupied := by
    rw [currents] at occupied ⊢
    exact lineage.current t occupied
  idle none t := by
    rw [currents]
    rcases active with same | ⟨u, occupied, goesOn⟩
    · exact lineage.idle (same ▸ none) t
    · exact absurd (goesOn ▸ none) occupied
  reserved pid few := by rw [processes, lineage.reserved pid few]

theorem Lineage.started (lineage : Lineage proc created) (running : proc.activePid ≠ 0) {pid : Nat}
    (child : 4 ≤ pid) (small : pid ≤ 6) {block : Pcb} (parent : block.parentPid = proc.activePid)
    (caller : Context) :
    Lineage (proc.started pid block caller) (fun other => created other ∨ other = pid) where
  roots t := .inl (lineage.roots t)
  range other := by
    rintro (made | rfl)
    · exact lineage.range other made
    · omega
  parent other made isChild := by
    have parents := (Proc.SameLinks.storeContext
      { proc with pcb := Function.update proc.pcb pid block } proc.activePid caller).parentPid other
    simp only [Proc.storeContext, Proc.setPcb] at parents
    simp only [Proc.started, parents]
    by_cases this : other = pid
    · rw [this, Function.update_self, parent]
      exact .inl (lineage.active running)
    · rw [Function.update_of_ne this]
      exact .inl (lineage.parent other (made.resolve_right this) isChild)
  active _ := .inr rfl
  current t occupied := by
    simp only [Proc.started] at occupied ⊢
    by_cases this : t = proc.activeTerminal
    · rw [this, Function.update_self]
      exact .inr rfl
    · rw [Function.update_of_ne this] at occupied ⊢
      exact .inl (lineage.current t occupied)
  idle none := by
    simp only [Proc.started] at none
    omega
  reserved other few := by
    simp only [Proc.started]
    rw [Function.update_of_ne (by omega), lineage.reserved other few]

theorem Lineage.reaped (lineage : Lineage proc created) (child : 4 ≤ proc.activePid)
    (t : TerminalId) : Lineage (proc.reaped t) created := by
  have made := lineage.parent _ (lineage.active (by omega)) child
  obtain ⟨positive, _⟩ := lineage.range _ made
  constructor
  case roots => exact lineage.roots
  case range => exact lineage.range
  case parent =>
    intro pid made isChild
    rw [(Proc.SameLinks.reaped proc t).parentPid]
    exact lineage.parent pid made isChild
  case active => exact fun _ => made
  case current =>
    intro u occupied
    simp only [Proc.reaped] at occupied ⊢
    by_cases this : u = t
    · rw [this, Function.update_self]
      exact made
    · rw [Function.update_of_ne this] at occupied ⊢
      exact lineage.current u occupied
  case idle =>
    intro none
    simp only [Proc.reaped] at none
    omega
  case reserved =>
    intro pid few
    simp only [Proc.reaped]
    rw [Function.update_of_ne (by omega), lineage.reserved pid few]

variable {s : State} {bootBlock : Option Image}

/-- The display is in step with the globals: 0xB8000 with the active terminal, the user page
    with the active process. -/
structure InStep (proc : Proc) (display : Display) : Prop where
  valid : display.Valid proc.activeTerminal
  user : proc.activePid ≠ 0 → display.mmu.pageDir Mmu.userIndex = Mmu.userEntry proc.activePid

theorem InStep.of_output {display before : Display} {page : Nat} {t : TerminalId}
    (inStep : InStep proc before) (output : OutputOn page t before display)
    (activeTerminal : after.activeTerminal = proc.activeTerminal)
    (activePid : after.activePid = proc.activePid) : InStep after display where
  valid := by
    rw [activeTerminal]
    exact inStep.valid.of_output output
  user := by
    rw [activePid, output.writes.pageDir]
    exact inStep.user

theorem InStep.of_writes {display : Display} (inStep : InStep proc display)
    {region : Nat → Prop} {mmu : Mmu} (writes : Mmu.WritesIn region display.mmu mmu) :
    InStep proc { display with mmu } where
  valid := inStep.valid.of_writes writes
  user active := by
    rw [writes.pageDir]
    exact inStep.user active

theorem InStep.of_switched {before display : Display} {t : TerminalId} {pid : Nat}
    (switched : Switched before display t pid) (activeTerminal : proc.activeTerminal = t)
    (activePid : proc.activePid = pid) : InStep proc display where
  valid := activeTerminal ▸ switched.valid
  user _ := activePid ▸ switched.user

theorem Sound.inStep (sound : Sound s) : InStep s.proc s.display := ⟨sound.valid, sound.user⟩

/-- A step that does not fault leaves the display in step with the globals. -/
theorem Outcome.inStep {action : Action} {after : State}
    (outcome : Outcome bootBlock s action after) (inStep : InStep s.proc s.display) :
    (Faulting s action ∧ after.faulted = true) ∨ InStep after.proc after.display := by
  cases outcome with
  | putc output | clear output | echo output | echoBack output | echoClear output =>
      exact .inr (inStep.of_output output rfl rfl)
  | userStore writes | kernelCopy writes => exact .inr (inStep.of_writes writes)
  | switchSame same => exact .inr inStep
  | switchTo other shown =>
      exact .inr ⟨shown.valid, fun active => by rw [shown.pageDir]; exact inStep.user active⟩
  | enter switched | first next idle switched | root root switched
  | child child terminal switched =>
      exact .inr (.of_switched switched rfl rfl)
  | next next occupied switched =>
      subst next
      exact .inr (.of_switched switched rfl rfl)
  | rejected refused | full passed noPid notFull =>
      exact .inr (inStep.of_output (State.printf_output inStep.valid _) rfl rfl)
  | started active passed free child small notFull switched writes =>
      refine .inr ⟨switched.valid.of_writes writes, fun _ => ?_⟩
      rw [writes.pageDir]
      exact switched.user
  | fault faulting faults elsewhere => exact .inl ⟨faulting, faults⟩

/-- A step that does not fault keeps the lineage, and the terminals of the pids in it. -/
theorem Outcome.lineage {action : Action} {after : State}
    (outcome : Outcome bootBlock s action after) (lineage : Lineage s.proc created) :
    (Faulting s action ∧ after.faulted = true) ∨
      ∃ made, Lineage after.proc made ∧ ∀ pid, made pid →
        created pid ∧ (after.proc.pcb pid).terminal = (s.proc.pcb pid).terminal ∨
          (after.proc.pcb pid).terminal ≠ none := by
  have kept {after : Proc} (links : s.proc.SameLinks after) (lineage : Lineage after created) :
      ∃ made, Lineage after made ∧ ∀ pid, made pid →
        created pid ∧ (after.pcb pid).terminal = (s.proc.pcb pid).terminal ∨
          (after.pcb pid).terminal ≠ none :=
    ⟨created, lineage, fun pid made => .inl ⟨made, links.terminal pid⟩⟩
  cases outcome with
  | putc output | clear output | echo output | echoBack output | echoClear output =>
      exact .inr (kept (.refl _) lineage)
  | userStore writes | kernelCopy writes => exact .inr (kept (.refl _) lineage)
  | switchSame same | switchTo other shown => exact .inr (kept (.refl _) lineage)
  | @enter t _ _ switched | @root _ t _ _ _ root switched =>
      exact .inr (kept (.of_pcb rfl) (lineage.entered t))
  | @first interrupted t _ _ next idle switched =>
      have links := Proc.SameLinks.storeContext s.proc (precedingRoot t) interrupted
      exact .inr (kept ⟨links.parentPid, links.terminal⟩
        ((lineage.of_links links rfl rfl (.inl rfl)).entered t))
  | @next interrupted t _ next occupied switched =>
      subst next
      have links := Proc.SameLinks.rotated s.proc interrupted
      exact .inr (kept links (lineage.of_links links rfl rfl (.inr ⟨_, occupied, rfl⟩)))
  | @child _ t _ child terminal switched =>
      exact .inr (kept (.reaped s.proc t) (lineage.reaped child t))
  | rejected refused | full passed noPid notFull =>
      exact .inr (kept (.of_pcb rfl) (lineage.of_links (.of_pcb rfl) rfl rfl (.inl rfl)))
  | @started _ _ caller argBuf argumentExist pid eip _ _ _ active passed free child small notFull
      switched writes =>
      have same : Lineage { s.proc with argBuf, argumentExist } created :=
        lineage.of_links (.of_pcb rfl) rfl rfl (.inl rfl)
      refine .inr ⟨_, same.started active child small rfl caller, fun other made => ?_⟩
      have links := Proc.SameLinks.started { s.proc with argBuf, argumentExist } pid
        (State.newPcb { s with proc := { s.proc with argBuf, argumentExist } } pid eip) caller
      rw [links.terminal]
      by_cases isNew : other = pid
      · right
        simp [Proc.setPcb, isNew, State.newPcb]
      · left
        simp [Proc.setPcb, isNew, made.resolve_right isNew]
  | fault faulting faults elsewhere => exact .inl ⟨faulting, faults⟩

/-- A step that does not fault leads to a sound state again. -/
theorem Outcome.sound {action : Action} {after : State} (outcome : Outcome bootBlock s action after)
    (sound : Sound s) : (Faulting s action ∧ after.faulted = true) ∨ Sound after := by
  obtain ⟨created, lineage⟩ := sound.lineage
  rcases outcome.inStep sound.inStep with faults | inStep
  · exact .inl faults
  · rcases outcome.lineage lineage with faults | ⟨made, lineage, _⟩
    · exact .inl faults
    · exact .inr ⟨inStep.valid, inStep.user, made, lineage⟩

theorem State.step_sound (sound : Sound s) {action : Action} (able : s.able action) :
    (s.step bootBlock action).faulted = true ∨ Sound (s.step bootBlock action) :=
  ((State.step_outcome sound able).sound sound).imp_left And.right

/-- Sound, as long as no step has faulted. -/
theorem sound_of_run {as : List Action} {later : State} (run : (kernel bootBlock).Run s as later)
    (start : Sound s) (running : later.faulted = false) : Sound later := by
  refine (Lib.Machine.Run.invariant (I := fun s => s.faulted = true ∨ Sound s) ?_ run
    (.inr start)).resolve_left (by simp [running])
  intro s a holds able
  exact State.step_sound (holds.resolve_left (by simp [able.1])) able

end Sound

/-- The created processes have terminals to go back to. -/
def Homed (s : State) : Prop :=
  ∃ created, Lineage s.proc created ∧ ∀ pid, created pid → (s.proc.pcb pid).terminal ≠ none

/-- Between the steps, with a process running: every process can go on. -/
structure Going (s : State) : Prop where
  sound : Sound s
  homed : Homed s
  active : s.proc.activePid ≠ 0

/-- The stores of programs, and the copies to them, are to the user page. -/
def Action.InUserPage : Action → Prop
  | .userStore va _ => State.inUserPage va
  | .kernelCopy va bytes => ∀ i < bytes.length, State.inUserPage (va + i)
  | _ => True

section Going

variable {s after : State} {bootBlock : Option Image} {action : Action}

theorem Homed.calm (homed : Homed s)
    (running : ∀ t, action = .switchTo t → s.proc.activePid ≠ 0) : ¬ Faulting s action := by
  obtain ⟨created, lineage, terminals⟩ := homed
  cases action with
  | halt status =>
      rintro ⟨child, terminal⟩
      exact terminals _ (lineage.parent _ (lineage.active (by omega)) child) terminal
  | switchTo t => exact fun faulting => running t rfl faulting.1
  | _ => exact id

theorem Homed.of_links (homed : Homed s) (links : s.proc.SameLinks after.proc)
    (processes : after.proc.processes = s.proc.processes)
    (currents : after.proc.currentProcessId = s.proc.currentProcessId)
    (active : after.proc.activePid = s.proc.activePid) : Homed after := by
  obtain ⟨created, lineage, terminals⟩ := homed
  refine ⟨created, lineage.of_links links processes currents (.inl active), fun pid made => ?_⟩
  rw [links.terminal]
  exact terminals pid made

theorem Outcome.homed (outcome : Outcome bootBlock s action after) (homed : Homed s)
    (calm : ¬ Faulting s action) : Homed after := by
  obtain ⟨created, lineage, terminals⟩ := homed
  obtain ⟨made, lineage', old⟩ := (outcome.lineage lineage).resolve_left fun faults => calm faults.1
  refine ⟨made, lineage', fun pid isMade => ?_⟩
  rcases old pid isMade with ⟨wasCreated, same⟩ | named
  · rw [same]
    exact terminals pid wasCreated
  · exact named

/-- Where a process has been running, one is running afterwards. -/
theorem Outcome.active (outcome : Outcome bootBlock s action after) (homed : Homed s)
    (calm : ¬ Faulting s action) (active : s.proc.activePid ≠ 0) : after.proc.activePid ≠ 0 := by
  cases outcome with
  | putc output | clear output | echo output | echoBack output | echoClear output => exact active
  | userStore writes | kernelCopy writes => exact active
  | switchSame same | switchTo other shown => exact active
  | rejected refused | full passed noPid notFull => exact active
  | @enter t _ _ switched | @first _ t _ _ next idle switched | @root _ t _ _ _ root switched =>
      obtain ⟨positive, _⟩ := State.number_range t
      exact Nat.ne_of_gt positive
  | next next occupied switched =>
      subst next
      exact occupied
  | child child terminal switched =>
      obtain ⟨created, lineage, _⟩ := homed
      obtain ⟨positive, _⟩ :=
        lineage.range _ (lineage.parent _ (lineage.active active) child)
      exact Nat.ne_of_gt positive
  | started active passed found child small notFull switched writes =>
      exact Nat.ne_of_gt (Nat.lt_of_lt_of_le (by decide) child)
  | fault faulting faults elsewhere => exact absurd faulting calm

theorem Going.running (going : Going s) : s.faulted = false := going.sound.valid.fault

/-- Every step is possible, and leads to such a state again. -/
theorem Going.step (going : Going s) (bootBlock : Option Image) (inPage : action.InUserPage) :
    s.able action ∧ Going (s.step bootBlock action) := by
  have able : s.able action := by
    refine ⟨going.running, ?_⟩
    cases action with
    | userStore va byte => exact ⟨going.active, inPage⟩
    | kernelCopy va bytes => exact ⟨going.active, inPage⟩
    | execute stack command caller => exact going.active
    | halt status => exact going.active
    | _ => trivial
  have outcome : Outcome bootBlock s action (s.step bootBlock action) :=
    State.step_outcome going.sound able
  have calm : ¬ Faulting s action := going.homed.calm fun _ _ => going.active
  exact ⟨able, (outcome.sound going.sound).resolve_left fun faults => calm faults.1,
    outcome.homed going.homed calm, outcome.active going.homed calm going.active⟩

/-- The timer goes on to the next terminal, and shows the one that it has found on display. -/
theorem Sound.scheduled (sound : Sound s) (bootBlock : Option Image) (interrupted : Context) :
    (s.step bootBlock (.schedule interrupted)).proc.activeTerminal =
        nextTerminal s.proc.activeTerminal ∧
      (s.step bootBlock (.schedule interrupted)).display.currentTerminal =
        s.display.currentTerminal := by
  have outcome : Outcome bootBlock s (.schedule interrupted)
      (s.step bootBlock (.schedule interrupted)) := State.schedule_outcome sound interrupted
  generalize s.step bootBlock (.schedule interrupted) = after at outcome ⊢
  cases outcome with
  | first next idle switched => exact ⟨next.symm, switched.same.currentTerminal⟩
  | next next occupied switched => exact ⟨rfl, switched.same.currentTerminal⟩
  | fault faulting faults elsewhere => exact absurd faulting id

/-- Where the timer comes to a terminal for the first time it enters the root shell. -/
theorem Sound.first_entry (sound : Sound s) (bootBlock : Option Image) (interrupted : Context)
    {t : TerminalId} (next : nextTerminal s.proc.activeTerminal = t)
    (idle : s.proc.currentProcessId t = 0) :
    Sound (s.step bootBlock (.schedule interrupted)) ∧
      (s.step bootBlock (.schedule interrupted)).proc =
        (s.proc.storeContext (precedingRoot t) interrupted).entered t := by
  obtain ⟨display, entryPoint, entered, _⟩ :=
    State.schedule_first sound.valid.toMapped interrupted next idle
  have outcome : Outcome bootBlock s (.schedule interrupted)
      (s.step bootBlock (.schedule interrupted)) := State.schedule_outcome sound interrupted
  exact ⟨(outcome.sound sound).resolve_left fun faults => faults.1, congrArg State.proc entered⟩

/-- So any steps are a run. -/
theorem Going.run (going : Going s) (bootBlock : Option Image) {allowed : Action → Prop}
    {as : List Action} (all : ∀ action ∈ as, action.InUserPage ∧ allowed action) :
    ∃ later, ((kernel bootBlock).restrict fun _ action => allowed action).Run s as later ∧
      Going later := by
  refine Lib.Machine.Run.of_invariant (fun action member s going => ?_) going
  obtain ⟨inPage, kind⟩ := all action member
  obtain ⟨able, next⟩ := going.step bootBlock inPage
  exact ⟨⟨able, kind⟩, next⟩

end Going

end LightOS.Kernel
