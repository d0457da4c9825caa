import LightOS.Kernel.Forest

/-! # Stored contexts

The fields `current_esp` and `current_ebp` of a control block serve twice: for a process that
the timer interrupted, and for one that waits in `execute` for its child.  Once every
terminal has a process, `schedule` and `execute` store a context for the active process only,
and while a child is on the stack above it a process is not active.
-/

namespace LightOS.Kernel

open Lib Filesystem Descriptor

/-- All three root shells have been entered. -/
def AllEntered (s : State) : Prop := ∀ t, s.proc.currentProcessId t ≠ 0

/-- What `schedule`, `execute` and `halt` do with stored contexts from `s` on. -/
structure ContextsKept (bootBlock : Option Image) (s : State) : Prop where
  /-- `schedule` stores the interrupted context for the process that was running. -/
  stores : ∀ interrupted, (processMachine bootBlock).enabled s (.schedule interrupted) →
    (s.schedule interrupted).proc.pcb = Function.update s.proc.pcb s.proc.activePid
      ((s.proc.pcb s.proc.activePid).setContext interrupted)
  /-- No step touches the context of a process that is not running. -/
  suspended : ∀ action, (processMachine bootBlock).enabled s action →
    ∀ pid, pid ≠ s.proc.activePid → s.proc.processes pid = 1 →
      ((s.step bootBlock action).proc.pcb pid).context = (s.proc.pcb pid).context
  /-- A process that stops running is resumed with the context it stopped with. -/
  resumes : ∀ action context,
    (action = .schedule context ∨ ∃ stack command, action = .execute stack command context) →
    (processMachine bootBlock).enabled s action →
    ∀ as later, (processMachine bootBlock).Run (s.step bootBlock action) as later →
      (processMachine bootBlock).EachStep (fun before _ => before.proc.activePid ≠ s.proc.activePid)
        (s.step bootBlock action) as →
      later.proc.activePid ≠ s.proc.activePid →
      ∀ interrupted, (processMachine bootBlock).enabled later (.schedule interrupted) →
        (later.schedule interrupted).proc.activePid = s.proc.activePid →
        (later.schedule interrupted).control = .resume context
  /-- A child that halts resumes its creator, out of the `execute` call that created it. -/
  returns : ∀ stack command caller,
    (processMachine bootBlock).enabled s (.execute stack command caller) →
    ∀ child, child ≠ s.proc.activePid →
      (s.step bootBlock (.execute stack command caller)).proc.activePid = child →
      ∀ as later, (processMachine bootBlock).Run
          (s.step bootBlock (.execute stack command caller)) as later →
        (processMachine bootBlock).EachStep (fun before action =>
            ¬ (before.proc.activePid = child ∧ ∃ status, action = .halt status))
          (s.step bootBlock (.execute stack command caller)) as →
        later.proc.activePid = child →
        ∀ status, (processMachine bootBlock).enabled later (.halt status) →
          (later.syscallHalt status).proc.activePid = s.proc.activePid ∧
            (later.syscallHalt status).control = .leaveExecute caller status.toNat

/-- The states the section is about. -/
structure Running (s : State) : Prop where
  forested : Forested s
  entered : AllEntered s

section Contexts

variable {s : State} {bootBlock : Option Image} {sessions : Sessions}

theorem Forest.nonempty {proc : Proc} (forest : Forest proc sessions) {t : TerminalId} :
    proc.currentProcessId t ≠ 0 ↔ sessions t ≠ [] := by
  constructor
  · intro occupied
    obtain ⟨rest, top⟩ := forest.top occupied
    simp [top]
  · intro nonempty idle
    exact nonempty (forest.empty idle)

/-- A stack that is not empty never becomes empty. -/
theorem SessionStep.nonempty {active : TerminalId} {action : Action} {after : Sessions}
    (step : SessionStep active sessions action after) (wellFormed : sessions.WellFormed)
    {t : TerminalId} (nonempty : sessions t ≠ []) : after t ≠ [] := by
  cases step with
  | same => exact nonempty
  | @enter _ u empty =>
      by_cases this : t = u
      · simp [this]
      · rwa [Function.update_of_ne this]
  | push entered new child small =>
      by_cases this : t = active
      · simp [this]
      · rwa [Function.update_of_ne this]
  | pop top child =>
      obtain ⟨parent, below, rfl⟩ := wellFormed.below top child
      by_cases this : t = active
      · simp [this]
      · rwa [Function.update_of_ne this]

theorem Running.outcome (running : Running s) {action : Action}
    (able : (processMachine bootBlock).enabled s action) :
    Outcome bootBlock s action (s.step bootBlock action) :=
  State.step_outcome running.forested.sound able.1

theorem Running.step (running : Running s) {action : Action}
    (able : (processMachine bootBlock).enabled s action) :
    Running (s.step bootBlock action) := by
  have outcome := running.outcome able
  obtain ⟨sessions, forest⟩ := running.forested.forest
  obtain ⟨sessions', step, forest'⟩ := outcome.forest able.2 forest
  refine ⟨outcome.forested able.2 running.forested, fun t => ?_⟩
  exact forest'.nonempty.mpr (step.nonempty forest.wellFormed
    (forest.nonempty.mp (running.entered t)))

/-- The active process is live. -/
theorem Running.active (running : Running s) :
    s.proc.activePid ≠ 0 ∧ s.proc.processes s.proc.activePid = 1 := by
  obtain ⟨sessions, forest⟩ := running.forested.forest
  have occupied := running.entered s.proc.activeTerminal
  obtain ⟨rest, top⟩ := forest.top occupied
  rw [← forest.active] at occupied top
  exact ⟨occupied, (forest.allocated _).mpr (.inr ⟨_, by rw [top]; exact List.mem_cons_self ..⟩)⟩

/-- The context of a live process that is not running, and its place in the pool, are kept. -/
theorem Outcome.suspended {action : Action} {after : State}
    (outcome : Outcome bootBlock s action after) (kind : action.OfProcesses)
    (running : Running s) {pid : Nat} (other : pid ≠ s.proc.activePid)
    (live : s.proc.processes pid = 1) :
    (after.proc.pcb pid).context = (s.proc.pcb pid).context ∧ after.proc.processes pid = 1 := by
  cases outcome with
  | putc output | clear output | echo output | echoBack output | echoClear output => cases kind
  | userStore writes | kernelCopy writes => cases kind
  | switchSame same | switchTo other shown => cases kind
  | enter switched => cases kind
  | first next idle switched => exact absurd idle (running.entered _)
  | next next occupied switched =>
      refine ⟨?_, live⟩
      simp [Proc.rotated, other]
  | root root switched => exact ⟨rfl, live⟩
  | child child terminal switched => simp [Proc.reaped, other, live]
  | rejected refused | full passed noPid notFull => exact ⟨rfl, live⟩
  | @started _ _ caller argBuf argumentExist new _ _ _ _ active passed free child small notFull
      switched writes =>
      have isFree : s.proc.processes new = 0 := (Proc.free_of_find free).1
      have old : pid ≠ new := fun same => by rw [same, isFree] at live; cases live
      simp [Proc.started, other, old, live]
  | fault faulting faults elsewhere =>
      obtain ⟨sessions, forest⟩ := running.forested.forest
      exact absurd faulting (forest.calm kind)

/-- A process that stops running has stored its own context. -/
theorem Outcome.stored {action : Action} {after : State} {context : Context}
    (outcome : Outcome bootBlock s action after) (running : Running s)
    (stores : action = .schedule context ∨ ∃ stack command, action = .execute stack command context)
    (stops : after.proc.activePid ≠ s.proc.activePid) :
    (after.proc.pcb s.proc.activePid).context = context ∧
      after.proc.processes s.proc.activePid = 1 := by
  obtain ⟨_, live⟩ := running.active
  rcases stores with rfl | ⟨stack, command, rfl⟩
  · cases outcome with
    | first next idle switched => exact absurd idle (running.entered _)
    | next next occupied switched => exact ⟨by simp [Proc.rotated], live⟩
    | fault faulting faults elsewhere => exact absurd faulting id
  · cases outcome with
    | rejected refused | full passed noPid notFull => exact absurd rfl stops
    | @started _ _ _ argBuf argumentExist new _ _ _ _ active passed free child small notFull
        switched writes =>
        have isFree : s.proc.processes new = 0 := (Proc.free_of_find free).1
        have old : s.proc.activePid ≠ new := fun same => by rw [same, isFree] at live; cases live
        simp [Proc.started, old, live]
    | fault faulting faults elsewhere => exact absurd faulting id

/-- While a process does not run, its context stays as it is. -/
theorem Running.suspended_run {pid : Nat} {as : List Action} {later : State}
    (run : (processMachine bootBlock).Run s as later) (running : Running s)
    (live : s.proc.processes pid = 1)
    (away : (processMachine bootBlock).EachStep
      (fun before _ => before.proc.activePid ≠ pid) s as) :
    Running later ∧ (later.proc.pcb pid).context = (s.proc.pcb pid).context ∧
      later.proc.processes pid = 1 := by
  refine run.invariant_of_each (I := fun later => Running later ∧
    (later.proc.pcb pid).context = (s.proc.pcb pid).context ∧ later.proc.processes pid = 1)
    ?_ ⟨running, rfl, live⟩ away
  rintro s a ⟨running, same, live⟩ able away
  have outcome := running.outcome able
  obtain ⟨kept, stillLive⟩ := outcome.suspended able.2 running (Ne.symm away) live
  exact ⟨running.step able, kept.trans same, stillLive⟩

theorem Running.resumes (running : Running s) {action : Action} {context : Context}
    (stores : action = .schedule context ∨ ∃ stack command, action = .execute stack command context)
    (able : (processMachine bootBlock).enabled s action) {as : List Action} {later : State}
    (run : (processMachine bootBlock).Run (s.step bootBlock action) as later)
    (away : (processMachine bootBlock).EachStep
      (fun before _ => before.proc.activePid ≠ s.proc.activePid) (s.step bootBlock action) as)
    (stillAway : later.proc.activePid ≠ s.proc.activePid) {interrupted : Context}
    (able' : (processMachine bootBlock).enabled later (.schedule interrupted))
    (back : (later.schedule interrupted).proc.activePid = s.proc.activePid) :
    (later.schedule interrupted).control = .resume context := by
  have stops : (s.step bootBlock action).proc.activePid ≠ s.proc.activePid := by
    cases run with
    | nil => exact stillAway
    | cons => exact away.1
  have outcome := running.outcome able
  obtain ⟨stored, live⟩ := outcome.stored running stores stops
  obtain ⟨running', kept, _⟩ := (running.step able).suspended_run run live away
  have last : Outcome bootBlock later (.schedule interrupted) (later.schedule interrupted) :=
    running'.outcome able'
  generalize later.schedule interrupted = final at last back ⊢
  cases last with
  | first next idle switched => exact absurd idle (running'.entered _)
  | @next _ t _ next occupied switched =>
      subst next
      simp only [Proc.rotated] at back ⊢
      rw [back, Function.update_of_ne (Ne.symm stillAway), kept, stored]
  | fault faulting faults elsewhere => exact absurd faulting id

/-- `parent` waits in the `execute` call that created `child`. -/
structure Waiting (s : State) (parent child : Nat) (context : Context) : Prop where
  running : Running s
  isChild : 4 ≤ child
  onStack : ∃ sessions t above below, Forest s.proc sessions ∧
    sessions t = above ++ child :: parent :: below
  stored : (s.proc.pcb parent).context = context

/-- A pair on a stack stays there until its upper element is popped. -/
theorem SessionStep.keeps_pair {active t : TerminalId} {action : Action} {after : Sessions}
    (step : SessionStep active sessions action after) {above below : List Nat} {child parent : Nat}
    (pair : sessions t = above ++ child :: parent :: below)
    (notPopped : ∀ status, action = .halt status → (sessions active).head? ≠ some child) :
    ∃ above', after t = above' ++ child :: parent :: below := by
  cases step with
  | same => exact ⟨above, pair⟩
  | @enter _ u empty =>
      have other : t ≠ u := by
        rintro rfl
        simp [empty] at pair
      exact ⟨above, by rw [Function.update_of_ne other, pair]⟩
  | @push _ _ _ pid entered new child small =>
      by_cases this : t = active
      · subst this
        exact ⟨pid :: above, by rw [Function.update_self, pair, List.cons_append]⟩
      · exact ⟨above, by rw [Function.update_of_ne this, pair]⟩
  | @pop status pid rest top _ =>
      by_cases this : t = active
      · subst this
        rw [Function.update_self]
        rw [top] at pair
        cases above with
        | nil =>
            obtain ⟨rfl, _⟩ := List.cons.inj pair
            exact absurd (by rw [top, List.head?_cons]) (notPopped status rfl)
        | cons upper above => exact ⟨above, (List.cons.inj pair).2⟩
      · exact ⟨above, by rw [Function.update_of_ne this, pair]⟩

/-- The top of the stack of the active terminal is the active process. -/
theorem Forest.active_top (forest : Forest s.proc sessions) (active : s.proc.activePid ≠ 0) :
    (sessions s.proc.activeTerminal).head? = some s.proc.activePid := by
  rw [forest.active] at active ⊢
  obtain ⟨rest, top⟩ := forest.top active
  rw [top, List.head?_cons]

theorem Waiting.parent_away {parent child : Nat} {context : Context}
    (waiting : Waiting s parent child context) :
    parent ≠ s.proc.activePid ∧ s.proc.processes parent = 1 := by
  obtain ⟨sessions, t, above, below, forest, pair⟩ := waiting.onStack
  have onStack : parent ∈ sessions t := by simp [pair]
  refine ⟨fun same => ?_, (forest.allocated parent).mpr (.inr ⟨t, onStack⟩)⟩
  have top := forest.active_top waiting.running.active.1
  rw [← same] at top
  have own : t = s.proc.activeTerminal :=
    forest.wellFormed.separate.unique _ _ parent onStack (List.mem_of_head? top)
  subst own
  have nodup := forest.wellFormed.separate.nodup s.proc.activeTerminal
  rw [pair] at top nodup
  cases above with
  | nil =>
      obtain rfl : child = parent := by simpa using top
      simp at nodup
  | cons upper above =>
      obtain rfl : upper = parent := by simpa using top
      simp at nodup

theorem Waiting.step {parent child : Nat} {context : Context}
    (waiting : Waiting s parent child context) {action : Action}
    (able : (processMachine bootBlock).enabled s action)
    (notHalted : ¬ (s.proc.activePid = child ∧ ∃ status, action = .halt status)) :
    Waiting (s.step bootBlock action) parent child context := by
  obtain ⟨away, live⟩ := waiting.parent_away
  have outcome := waiting.running.outcome able
  obtain ⟨kept, _⟩ := outcome.suspended able.2 waiting.running away live
  obtain ⟨sessions, t, above, below, forest, pair⟩ := waiting.onStack
  obtain ⟨sessions', step, forest'⟩ := outcome.forest able.2 forest
  have notPopped : ∀ status, action = .halt status →
      (sessions s.proc.activeTerminal).head? ≠ some child := by
    intro status isHalt top
    rw [forest.active_top waiting.running.active.1] at top
    exact notHalted ⟨Option.some.inj top, status, isHalt⟩
  obtain ⟨above', pair'⟩ := step.keeps_pair pair notPopped
  exact ⟨waiting.running.step able, waiting.isChild, ⟨sessions', t, above', below, forest', pair'⟩,
    kept.trans waiting.stored⟩

/-- An `execute` call that starts a program waits for it. -/
theorem Running.waits (running : Running s) {stack : List UInt8} {command : CharPtr}
    {caller : Context} (able : (processMachine bootBlock).enabled s (.execute stack command caller))
    {child : Nat} (other : child ≠ s.proc.activePid)
    (starts : (s.syscallExecute bootBlock stack command caller).proc.activePid = child) :
    Waiting (s.syscallExecute bootBlock stack command caller) s.proc.activePid child caller := by
  obtain ⟨sessions, forest⟩ := running.forested.forest
  have outcome : Outcome bootBlock s (.execute stack command caller)
      (s.syscallExecute bootBlock stack command caller) := running.outcome able
  have next : Running (s.syscallExecute bootBlock stack command caller) := running.step able
  generalize s.syscallExecute bootBlock stack command caller = after at outcome next starts ⊢
  obtain ⟨stored, _⟩ := outcome.stored running (.inr ⟨stack, command, rfl⟩)
    (fun same => other (starts.symm.trans same))
  cases outcome with
  | rejected refused | full passed noPid notFull => exact absurd starts.symm other
  | @started _ _ _ argBuf argumentExist pid eip _ _ _ active passed free isChild small notFull
      switched writes =>
      obtain rfl : pid = child := starts
      have same : Forest { s.proc with argBuf, argumentExist } sessions :=
        forest.of_links (.of_pcb rfl) rfl rfl rfl forest.active
      have isFree : s.proc.processes pid = 0 := (Proc.free_of_find free).1
      obtain ⟨_, forest'⟩ := same.started active isChild small isFree
        (State.newPcb { s with proc := { s.proc with argBuf, argumentExist } } pid eip)
        rfl rfl stack command caller
      obtain ⟨below, top⟩ := List.head?_eq_some_iff.mp (forest.active_top active)
      refine ⟨next, isChild, ⟨_, s.proc.activeTerminal, [], below, forest', ?_⟩, stored⟩
      rw [Function.update_self, top, List.nil_append]
  | fault faulting faults elsewhere => exact absurd faulting id

/-- When the child halts, its parent goes on behind that call. -/
theorem Waiting.halt {parent child : Nat} {context : Context}
    (waiting : Waiting s parent child context) (active : s.proc.activePid = child)
    {status : UInt8} (able : (processMachine bootBlock).enabled s (.halt status)) :
    (s.syscallHalt status).proc.activePid = parent ∧
      (s.syscallHalt status).control = .leaveExecute context status.toNat := by
  obtain ⟨sessions, t, above, below, forest, pair⟩ := waiting.onStack
  have isChild := waiting.isChild
  have isParent : (s.proc.pcb s.proc.activePid).parentPid = parent := by
    have links := forest.links t
    rw [pair, List.isChain_append, List.isChain_cons_cons] at links
    rw [active]
    exact links.2.1.1
  obtain ⟨away, _⟩ := waiting.parent_away
  have outcome : Outcome bootBlock s (.halt status) (s.syscallHalt status) :=
    waiting.running.outcome able
  generalize s.syscallHalt status = after at outcome ⊢
  cases outcome with
  | @root _ u _ _ _ root switched =>
      obtain ⟨_, few⟩ := State.number_range u
      omega
  | child isChild terminal switched =>
      rw [isParent]
      refine ⟨by simp only [Proc.reaped, isParent], ?_⟩
      simp only [Proc.reaped, Function.update_of_ne away, waiting.stored]
  | fault faulting faults elsewhere => exact absurd faulting (forest.calm able.2)

theorem Running.returns (running : Running s) {stack : List UInt8} {command : CharPtr}
    {caller : Context} (able : (processMachine bootBlock).enabled s (.execute stack command caller))
    {child : Nat} (other : child ≠ s.proc.activePid)
    (starts : (s.syscallExecute bootBlock stack command caller).proc.activePid = child)
    {as : List Action} {later : State} (run : (processMachine bootBlock).Run
      (s.syscallExecute bootBlock stack command caller) as later)
    (alive : (processMachine bootBlock).EachStep (fun before action =>
        ¬ (before.proc.activePid = child ∧ ∃ status, action = .halt status))
      (s.syscallExecute bootBlock stack command caller) as) :
    Waiting later s.proc.activePid child caller :=
  run.invariant_of_each (I := fun later => Waiting later s.proc.activePid child caller)
    (fun _ _ waiting able alive => waiting.step able alive) (running.waits able other starts) alive

/-- From the `hlt` loop of `entry` on, when the three shells have been found: whatever
    `schedule`, `execute` and `halt` have done before, once all root shells have been entered
    every process resumes from its own last context. -/
theorem processes_resume_own_context (on : PowerOn s) {buffers : TerminalId → List UInt8}
    (found : ∀ t, ShellFound bootBlock (buffers t)) {as : List Action} {later : State}
    (run : (processMachine bootBlock).Run (s.entry bootBlock buffers) as later)
    (entered : AllEntered later) : ContextsKept bootBlock later := by
  obtain ⟨fresh, roots⟩ := on.entry_fresh bootBlock buffers
  have running : Running later := ⟨(fresh.forested (roots found)).of_run run, entered⟩
  constructor
  case stores =>
    intro interrupted able
    have outcome : Outcome bootBlock later (.schedule interrupted) (later.schedule interrupted) :=
      running.outcome able
    generalize later.schedule interrupted = after at outcome ⊢
    cases outcome with
    | first next idle switched => exact absurd idle (entered _)
    | next next occupied switched => rfl
    | fault faulting faults elsewhere => exact absurd faulting id
  case suspended =>
    intro action able pid other live
    exact ((running.outcome able).suspended able.2 running other live).1
  case resumes =>
    intro action context stores able as final run away stillAway interrupted able' back
    exact running.resumes stores able run away stillAway able' back
  case returns =>
    intro stack command caller able child other starts as final run alive active status able'
    exact (running.returns able other starts run alive).halt active able'

end Contexts

theorem booted_processes_resume :
    ∃ later, (processMachine (some shellImage)).Run
        (poweredOn.entry (some shellImage) (fun _ => []))
        (List.replicate 3 (.schedule ⟨0x7FFFF0, 0x7FFFF8⟩)) later ∧
      ContextsKept (some shellImage) later := by
  have fresh := (poweredOn_powerOn.entry_fresh (some shellImage) (fun _ => [])).1
  obtain ⟨later, run, _, entered, _⟩ := fresh.three_schedules (some shellImage)
    ⟨0x7FFFF0, 0x7FFFF8⟩ (show Action.OfProcesses _ from trivial)
  refine ⟨later, run, processes_resume_own_context poweredOn_powerOn
    (fun _ => shellImage_found []) run fun t => ?_⟩
  rw [entered]
  exact Nat.ne_of_gt (State.number_range t).1

end LightOS.Kernel
