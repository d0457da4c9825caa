import LightOS.Kernel.Stack

/-! # User memory

Entry 32 of the page directory is the one through which user programs see memory, and
`execute`, `halt`, `schedule` and the boot routines all rewrite it.  Between steps it maps
the frame of the active process, so a step reaches no other frame but that of a process it
creates, and a suspended process finds its memory as it left it.
-/

namespace LightOS.Kernel

open Lib Filesystem

/-- Stores and copies to the user page, the process routines and the boot routines. -/
def Action.OfUserMemory : Action → Prop
  | .userStore .. | .kernelCopy .. => True
  | action => action.SwitchesStacks

/-- The kernel, as far as user memory goes. -/
def memoryMachine (bootBlock : Option Image) : Machine State Action :=
  (kernel bootBlock).restrict fun _ action => action.OfUserMemory

/-- The step is an `execute` call that creates a process under `pid`. -/
def Creates (bootBlock : Option Image) (s : State) (action : Action) (pid : Nat) : Prop :=
  (∃ stack command caller, action = .execute stack command caller) ∧
    s.proc.processes pid = 0 ∧ (s.step bootBlock action).proc.activePid = pid

/-- What holds of user memory at `s` and from `s` on. -/
structure MemoryIsolated (bootBlock : Option Image) (s : State) : Prop where
  present : (s.display.mmu.pageDir 32).present = true
  mapped : ∀ va, VIRTUAL_128MB_START ≤ va → va < VIRTUAL_128MB_START + 2 ^ 22 →
    s.display.mmu.translate va =
      some (0x800000 + 0x400000 * s.proc.activePid + (va - VIRTUAL_128MB_START))
  /-- A step reaches the frame of the active process and of one it creates. -/
  frames : ∀ action, (memoryMachine bootBlock).enabled s action →
    ∀ pid, pid ≠ s.proc.activePid → ¬ Creates bootBlock s action pid →
      ∀ pa, OnFrame pid pa → (s.step bootBlock action).display.mmu.mem pa = s.display.mmu.mem pa
  /-- The step with which a process stops running leaves its frame alone. -/
  leaves : ∀ action, (memoryMachine bootBlock).enabled s action →
    (s.step bootBlock action).proc.activePid ≠ s.proc.activePid →
      ∀ pa, OnFrame s.proc.activePid pa →
        (s.step bootBlock action).display.mmu.mem pa = s.display.mmu.mem pa
  /-- While a live process does not run, its memory stays as it is. -/
  suspended : ∀ pid, s.proc.processes pid = 1 → ∀ as later,
    (memoryMachine bootBlock).Run s as later →
    (memoryMachine bootBlock).EachStep (fun before _ => before.proc.activePid ≠ pid) s as →
      ∀ pa, OnFrame pid pa → later.display.mmu.mem pa = s.display.mmu.mem pa

section Memory

variable {s : State} {bootBlock : Option Image}

/-- Frames lie above the kernel and the screens. -/
theorem OnFrame.high {pid pa : Nat} (onFrame : OnFrame pid pa) :
    0x800000 ≤ pa ∧ 4096 * (videoPage + 4) ≤ pa := by
  simp only [OnFrame, videoPage] at *
  omega

/-- And apart from each other. -/
theorem OnFrame.unique {pid other pa : Nat} (onFrame : OnFrame pid pa)
    (onOther : OnFrame other pa) : pid = other := by
  simp only [OnFrame] at *
  omega

theorem OutputOn.elsewhere {t u : TerminalId} {before display : Display}
    (output : OutputOn (before.screenPage t) u before display) {pa : Nat}
    (high : 4096 * (videoPage + 4) ≤ pa) : display.mmu.mem pa = before.mmu.mem pa := by
  obtain ⟨_, low⟩ := Display.screenPage_range before t
  exact output.writes.mem pa (by simp only [OnPage]; omega)

/-- How a byte above the screens can change: the active process stores it, or `execute` loads
    it for a new process. -/
theorem Outcome.high_memory {action : Action} {after : State}
    (outcome : Outcome bootBlock s action after) (sound : Sound s) {pa : Nat}
    (high : 4096 * (videoPage + 4) ≤ pa) :
    after.display.mmu.mem pa = s.display.mmu.mem pa ∨
      (after.proc = s.proc ∧ OnFrame s.proc.activePid pa) ∨
      ((∃ stack command caller, action = .execute stack command caller) ∧
        s.proc.processes after.proc.activePid = 0 ∧ OnFrame after.proc.activePid pa) := by
  have printed (message : String) :
      (s.printf message).display.mmu.mem pa = s.display.mmu.mem pa :=
    (State.printf_output sound.valid message).elsewhere high
  cases outcome with
  | putc output | clear output | echo output | echoBack output | echoClear output =>
      exact .inl (output.elsewhere high)
  | userStore writes | kernelCopy writes =>
      by_cases own : OnFrame s.proc.activePid pa
      · exact .inr (.inl ⟨rfl, own⟩)
      · exact .inl (writes.mem pa own)
  | switchSame same => exact .inl rfl
  | switchTo other shown => exact .inl (shown.elsewhere pa high)
  | enter switched | first next idle switched | next next occupied switched
  | child child terminal switched => exact .inl (congrFun switched.same.mem pa)
  | root root switched => exact .inl ((congrFun switched.same.mem pa).trans (printed _))
  | rejected refused | full passed noPid notFull => exact .inl (printed _)
  | @started stack command caller _ _ pid _ _ _ _ active passed free child small notFull
      switched writes =>
      have isFree : s.proc.processes pid = 0 := (Proc.free_of_find free).1
      by_cases own : OnFrame pid pa
      · exact .inr (.inr ⟨⟨stack, command, caller, rfl⟩, isFree, own⟩)
      · exact .inl ((writes.mem pa own).trans (congrFun switched.same.mem pa))
  | fault faulting faults elsewhere => exact .inl (elsewhere pa high)

/-- A live process that does not run stays in the pool. -/
theorem Outcome.live_kept {action : Action} {after : State}
    (outcome : Outcome bootBlock s action after) {pid : Nat} (other : pid ≠ s.proc.activePid)
    (live : s.proc.processes pid = 1) : after.faulted = true ∨ after.proc.processes pid = 1 := by
  cases outcome with
  | putc output | clear output | echo output | echoBack output | echoClear output => exact .inr live
  | userStore writes | kernelCopy writes => exact .inr live
  | switchSame same | switchTo different shown => exact .inr live
  | enter switched | first next idle switched | next next occupied switched => exact .inr live
  | root root switched | rejected refused | full passed noPid notFull => exact .inr live
  | child child terminal switched => exact .inr (by simp [Proc.reaped, other, live])
  | @started _ _ _ _ _ new =>
      by_cases isNew : pid = new
      · exact .inr (by simp [Proc.started, isNew])
      · exact .inr (by simp [Proc.started, isNew, live])
  | fault faulting faults elsewhere => exact .inl faults

theorem Sound.suspended_run (sound : Sound s) {pid : Nat} (live : s.proc.processes pid = 1)
    {as : List Action} {later : State} (run : (memoryMachine bootBlock).Run s as later)
    (away : (memoryMachine bootBlock).EachStep (fun before _ => before.proc.activePid ≠ pid) s as)
    {pa : Nat} (onFrame : OnFrame pid pa) :
    later.display.mmu.mem pa = s.display.mmu.mem pa := by
  refine (run.invariant_of_each (I := fun later =>
    (later.faulted = true ∨ Sound later ∧ later.proc.processes pid = 1) ∧
      later.display.mmu.mem pa = s.display.mmu.mem pa) ?_ ⟨.inr ⟨sound, live⟩, rfl⟩ away).2
  rintro here action ⟨holds, same⟩ ⟨able, kind⟩ away
  obtain ⟨sound, live⟩ := holds.resolve_left (by simp [able.1])
  have outcome : Outcome bootBlock here action (here.step bootBlock action) :=
    State.step_outcome sound able
  refine ⟨?_, Eq.trans ?_ same⟩
  · rcases outcome.sound sound with ⟨_, faults⟩ | sound'
    · exact .inl faults
    · exact (outcome.live_kept (Ne.symm away) live).imp_right fun live' => ⟨sound', live'⟩
  · rcases outcome.high_memory sound onFrame.high.2 with kept | ⟨_, own⟩ | ⟨_, isFree, created⟩
    · exact kept
    · exact absurd (own.unique onFrame) away
    · rw [created.unique onFrame, live] at isFree
      cases isFree

theorem Sound.memoryIsolated (sound : Sound s) (active : s.proc.activePid ≠ 0) :
    MemoryIsolated bootBlock s where
  present := by
    rw [show 32 = Mmu.userIndex from rfl, sound.user active]
    rfl
  mapped va from_ before :=
    Mmu.translate_user (State.active_range sound active).2 (sound.user active) from_ before
  frames action able pid other notCreated pa onFrame := by
    have outcome : Outcome bootBlock s action (s.step bootBlock action) :=
      State.step_outcome sound able.1
    rcases outcome.high_memory sound onFrame.high.2 with
      kept | ⟨_, own⟩ | ⟨executes, isFree, created⟩
    · exact kept
    · exact absurd (onFrame.unique own) other
    · rw [created.unique onFrame] at isFree
      exact absurd ⟨executes, isFree, created.unique onFrame⟩ notCreated
  leaves action able stops pa onFrame := by
    have outcome : Outcome bootBlock s action (s.step bootBlock action) :=
      State.step_outcome sound able.1
    rcases outcome.high_memory sound onFrame.high.2 with kept | ⟨same, _⟩ | ⟨_, _, created⟩
    · exact kept
    · exact absurd (by rw [same]) stops
    · exact absurd (created.unique onFrame) stops
  suspended pid live as later run away pa onFrame := sound.suspended_run live run away onFrame

/-- From the `hlt` loop of `entry` on: with shells to boot no step faults; once a process is
    active, and as long as no step has faulted, user memory is isolated; and frames are disjoint,
    from each other and from the first 8 MB. -/
theorem user_memory_isolated (on : PowerOn s) (buffers : TerminalId → List UInt8)
    {as : List Action} {later : State}
    (run : (memoryMachine bootBlock).Run (s.entry bootBlock buffers) as later) :
    ((∀ t, ShellFound bootBlock (buffers t)) → later.faulted = false) ∧
      (later.faulted = false → later.proc.activePid ≠ 0 → MemoryIsolated bootBlock later) ∧
      ∀ pid other pa, OnFrame pid pa → 0x800000 ≤ pa ∧ (OnFrame other pa → other = pid) := by
  obtain ⟨fresh, roots⟩ := on.entry_fresh bootBlock buffers
  refine ⟨fun found => ?_, fun running active => ?_, fun pid other pa onFrame =>
    ⟨onFrame.high.1, fun onOther => onOther.unique onFrame⟩⟩
  · suffices Sound later ∧ Homed later from this.1.valid.fault
    refine run.invariant (I := fun s => Sound s ∧ Homed s) ?_
      ⟨fresh.sound, fresh.homed (roots found)⟩
    rintro s action ⟨sound, homed⟩ ⟨able, kind⟩
    have outcome : Outcome bootBlock s action (s.step bootBlock action) :=
      State.step_outcome sound able
    have calm : ¬ Faulting s action := by
      refine homed.calm ?_
      rintro t rfl
      cases kind
    exact ⟨(outcome.sound sound).resolve_left fun faults => calm faults.1,
      outcome.homed homed calm⟩
  · exact (sound_of_run run.of_restrict fresh.sound running).memoryIsolated active

end Memory

/-- The shells of terminals 2 and 3 store in turn, at one address. -/
def storesInTurn : List Action :=
  [.schedule ⟨0x7FFF00, 0x7FFF80⟩, .userStore VIRTUAL_128MB_START 1,
    .schedule ⟨0x7FBF00, 0x7FBF80⟩, .userStore VIRTUAL_128MB_START 2,
    .execute [] State.shellName ⟨0x7F9F00, 0x7F9F80⟩, .schedule ⟨0x7F7F00, 0x7F7F80⟩,
    .schedule ⟨0x7FDF00, 0x7FDF80⟩, .kernelCopy VIRTUAL_128MB_START [3, 4]]

theorem stores_in_turn_isolated :
    ∃ later, (memoryMachine (some shellImage)).Run (poweredOn.entry (some shellImage) (fun _ => []))
        storesInTurn later ∧ later.faulted = false ∧ MemoryIsolated (some shellImage) later := by
  have found (_ : TerminalId) : ShellFound (some shellImage) [] := shellImage_found []
  obtain ⟨later, run, going⟩ : ∃ later, (memoryMachine (some shellImage)).Run
      (poweredOn.entry (some shellImage) (fun _ => [])) storesInTurn later ∧ Going later :=
    poweredOn_powerOn.run (some shellImage) found _ trivial (by
      have stored (byte : UInt8) : (Action.userStore VIRTUAL_128MB_START byte).InUserPage :=
        ⟨Nat.le_refl _, by decide⟩
      have copied : (Action.kernelCopy VIRTUAL_128MB_START [3, 4]).InUserPage := by
        intro i inside
        rw [show [(3 : UInt8), 4].length = 2 from rfl] at inside
        exact ⟨Nat.le_add_right _ _, by omega⟩
      simp only [List.forall_mem_cons]
      exact ⟨⟨stored 1, trivial⟩, ⟨trivial, trivial⟩, ⟨stored 2, trivial⟩, ⟨trivial, trivial⟩,
        ⟨trivial, trivial⟩, ⟨trivial, trivial⟩, ⟨copied, trivial⟩, List.forall_mem_nil _⟩)
  obtain ⟨running, isolated, _⟩ := user_memory_isolated poweredOn_powerOn _ run
  exact ⟨later, run, running found, isolated (running found) going.active⟩

end LightOS.Kernel
