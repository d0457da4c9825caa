import LightOS.Kernel.Stack

/-! # The process forest

The pool, the counter, the parent links, the current process of each terminal and the two
globals for the active process describe one forest.  Every outcome of `schedule`, `execute`
and `halt` is a step of the stacks of `Sessions`, so the relation between the globals and
the stacks holds after every run, and the redundant tables agree.
-/

namespace LightOS.Kernel

open Lib Filesystem Descriptor

/-- The kernel, as far as `schedule`, `execute` and `halt` go. -/
def processMachine (bootBlock : Option Image) : Machine State Action :=
  (kernel bootBlock).restrict fun _ action => action.OfProcesses

/-- Following `parent_pid` from the current process of `t`: the pids passed, down to the
    root shell. -/
structure ParentChain (proc : Proc) (t : TerminalId) (chain : List Nat) : Prop where
  current : chain.head? = some (proc.currentProcessId t)
  links : chain.IsChain (fun child parent => (proc.pcb child).parentPid = parent)
  root : chain.getLast? = some t.number
  nodup : chain.Nodup
  allocated : ∀ pid ∈ chain, proc.processes pid = 1
  terminal : ∀ pid ∈ chain, (proc.pcb pid).terminal = some t

/-- The tables of syscall.c agree on one forest. -/
structure ProcessForest (proc : Proc) : Prop where
  atLeast : 3 ≤ proc.processCount
  atMost : proc.processCount ≤ 6
  counted : proc.processCount = poolCount proc.processes
  reserved : ∀ pid ≤ 3, proc.processes pid = 1
  chains : ∃ chain : TerminalId → List Nat,
    (∀ t, proc.currentProcessId t = 0 → chain t = []) ∧
    (∀ t, proc.currentProcessId t ≠ 0 → ParentChain proc t (chain t)) ∧
    (∀ t u, t ≠ u → (chain t).Disjoint (chain u)) ∧
    ∀ pid, 4 ≤ pid → pid ≤ 6 → proc.processes pid = 1 → ∃! t, pid ∈ chain t
  active : proc.activePid = proc.currentProcessId proc.activeTerminal

/-- A state whose globals describe some stacks. -/
structure Forested (s : State) : Prop where
  sound : Sound s
  forest : ∃ sessions, Forest s.proc sessions

section Forest

variable {s : State} {bootBlock : Option Image} {sessions : Sessions}

/-- The parent of a process that can halt has a terminal. -/
theorem Forest.calm (forest : Forest s.proc sessions) {action : Action}
    (kind : action.OfProcesses) : ¬ Faulting s action := by
  cases action with
  | halt status =>
      rintro ⟨child, terminal⟩
      obtain ⟨below, top⟩ := forest.child child
      rw [forest.terminal s.proc.activeTerminal _ (.inr (by simp [top]))] at terminal
      cases terminal
  | switchTo t => cases kind
  | _ => exact id

/-- A root shell that is active is that of the active terminal. -/
theorem Forest.root_own (forest : Forest s.proc sessions) {t : TerminalId}
    (root : s.proc.activePid = t.number) : s.proc.activeTerminal = t := by
  obtain ⟨positive, _⟩ := State.number_range t
  have current : s.proc.currentProcessId s.proc.activeTerminal = t.number := by
    rw [← forest.active, root]
  obtain ⟨rest, top⟩ := forest.top (t := s.proc.activeTerminal) (by omega)
  exact (forest.wellFormed.root_terminal (by simp [top, current])).symm

/-- A process that is not a root shell has its parent in the active terminal. -/
theorem Forest.parent_own (forest : Forest s.proc sessions) (child : 4 ≤ s.proc.activePid)
    {t : TerminalId} (terminal : (s.proc.pcb (s.proc.pcb s.proc.activePid).parentPid).terminal =
      some t) : s.proc.activeTerminal = t := by
  obtain ⟨below, top⟩ := forest.child child
  have own := forest.terminal s.proc.activeTerminal (s.proc.pcb s.proc.activePid).parentPid
    (.inr (by simp [top]))
  simpa [own] using terminal

/-- With the counter below its maximum, the pool has a free pid. -/
theorem Forest.pid_free (forest : Forest s.proc sessions)
    (notFull : s.proc.processCount ≠ MAX_NUM_PROCESSES) :
    (List.range 7).find? (fun i => s.proc.processes i = 0) ≠ none := by
  intro none
  apply notFull
  have taken : poolCount s.proc.processes = (List.range' 1 6).length := by
    apply List.countP_eq_length.mpr
    intro pid member
    have inPool := List.mem_range'_1.mp member
    have notFree := List.find?_eq_none.mp none pid (List.mem_range.mpr (by omega))
    by_contra notTaken
    exact notFree (by simpa using forest.free pid (by simpa using notTaken))
  rw [forest.count, taken]
  rfl

/-- Every outcome of `schedule`, `execute` and `halt` is a step of the stacks. -/
theorem Outcome.forest {action : Action} {after : State}
    (outcome : Outcome bootBlock s action after) (kind : action.OfProcesses)
    (forest : Forest s.proc sessions) :
    ∃ sessions', SessionStep s.proc.activeTerminal sessions action sessions' ∧
      Forest after.proc sessions' := by
  cases outcome with
  | putc output | clear output | echo output | echoBack output | echoClear output => cases kind
  | userStore writes | kernelCopy writes => cases kind
  | switchSame same | switchTo other shown => cases kind
  | enter switched => cases kind
  | @first interrupted t _ _ next idle switched =>
      have stored := forest.of_links
        (Proc.SameLinks.storeContext s.proc (precedingRoot t) interrupted) rfl rfl rfl forest.active
      exact ⟨_, stored.entered (forest.empty idle) interrupted⟩
  | @next interrupted t _ next occupied switched =>
      exact ⟨_, .same, forest.of_links (.rotated s.proc interrupted) rfl rfl rfl rfl⟩
  | @root _ t _ _ _ root switched =>
      have current : s.proc.currentProcessId t = t.number := by
        rw [← forest.root_own root, ← forest.active, root, forest.root_own root]
      refine ⟨_, .same, forest.of_links (.of_pcb rfl) rfl rfl ?_ current.symm⟩
      simp only [Proc.entered, ← current, Function.update_eq_self]
  | @child status t _ child terminal switched =>
      obtain ⟨below, top⟩ := forest.child child
      obtain rfl := forest.parent_own child terminal
      exact ⟨_, forest.reaped child top status⟩
  | rejected refused =>
      exact ⟨_, .same, forest.of_links (.of_pcb rfl) rfl rfl rfl forest.active⟩
  | full passed noPid notFull => exact absurd noPid (forest.pid_free notFull)
  | @started stack command caller argBuf argumentExist pid eip _ _ _ active passed free child
      small notFull switched writes =>
      have same : Forest { s.proc with argBuf, argumentExist } sessions :=
        forest.of_links (.of_pcb rfl) rfl rfl rfl forest.active
      have isFree : s.proc.processes pid = 0 := (Proc.free_of_find free).1
      exact ⟨_, same.started active child small isFree _ rfl rfl stack command caller⟩
  | fault faulting faults elsewhere => exact absurd faulting (forest.calm kind)

theorem Outcome.forested {action : Action} {after : State}
    (outcome : Outcome bootBlock s action after) (kind : action.OfProcesses)
    (forested : Forested s) : Forested after := by
  obtain ⟨sessions, forest⟩ := forested.forest
  obtain ⟨sessions', _, forest'⟩ := outcome.forest kind forest
  exact ⟨(outcome.sound forested.sound).resolve_left fun faults => forest.calm kind faults.1,
    sessions', forest'⟩

theorem Fresh.forested (fresh : Fresh s) (roots : ∀ t, RootBlock s t) : Forested s where
  sound := fresh.sound
  forest := by
    refine ⟨fun _ => [], ?_⟩
    constructor
    case wellFormed => exact ⟨⟨by simp, by simp⟩, by simp, by simp⟩
    case current => simp [fresh.current]
    case links => simp
    case terminal =>
      rintro t pid (rfl | onStack)
      · exact (roots t).terminal
      · simp at onStack
    case allocated =>
      intro pid
      rw [fresh.processes]
      simp only [List.not_mem_nil, exists_false, or_false]
      split <;> omega
    case free =>
      intro pid notTaken
      rw [fresh.processes] at notTaken ⊢
      split at notTaken <;> simp_all
    case count =>
      rw [fresh.processCount, poolCount]
      simp only [fresh.processes]
      decide
    case active => rw [fresh.activePid, fresh.current]

theorem Forested.of_run {as : List Action} {later : State}
    (run : (processMachine bootBlock).Run s as later) (forested : Forested s) : Forested later :=
  run.invariant (fun _ _ forested ⟨able, kind⟩ =>
    (State.step_outcome forested.sound able).forested kind forested) forested

/-- The stacks are the chains of parents. -/
theorem Forest.parentChain {proc : Proc} (forest : Forest proc sessions) {t : TerminalId}
    (occupied : proc.currentProcessId t ≠ 0) : ParentChain proc t (sessions t) := by
  obtain ⟨rest, top⟩ := forest.top occupied
  exact
    { current := by rw [top, List.head?_cons]
      links := forest.links t
      root := forest.wellFormed.root t (by simp [top])
      nodup := forest.wellFormed.separate.nodup t
      allocated := fun pid onStack => (forest.allocated pid).mpr (.inr ⟨t, onStack⟩)
      terminal := fun pid onStack => forest.terminal t pid (.inr onStack) }

theorem Forest.processForest {proc : Proc} (forest : Forest proc sessions) :
    ProcessForest proc where
  atLeast := by
    have taken (pid : Nat) (few : pid ≤ 3) : proc.processes pid = 1 :=
      (forest.allocated pid).mpr (.inl few)
    rw [forest.count, poolCount]
    simp only [List.range', List.countP_cons, List.countP_nil, taken 1 (by decide),
      taken 2 (by decide), taken 3 (by decide), decide_true, if_true]
    omega
  atMost := by
    have bound := List.countP_le_length (p := fun pid => proc.processes pid = 1)
      (l := List.range' 1 6)
    rw [forest.count, poolCount]
    simp only [List.length_range'] at bound
    omega
  counted := forest.count
  reserved pid few := (forest.allocated pid).mpr (.inl few)
  chains := by
    refine ⟨sessions, fun t => forest.empty, fun t => forest.parentChain, fun t u apart pid => ?_,
      fun pid child small taken => ?_⟩
    · exact fun onT onU => apart (forest.wellFormed.separate.unique t u pid onT onU)
    · obtain ⟨t, onStack⟩ := ((forest.allocated pid).mp taken).resolve_left (by omega)
      exact ⟨t, onStack, fun u onU => forest.wellFormed.separate.unique u t pid onU onStack⟩
  active := forest.active

theorem Forested.pid_available (forested : Forested s) {stack : List UInt8} {command : CharPtr}
    (accepted : (s.checkCommand bootBlock stack command).2 ≠ none) :
    (s.checkCommand bootBlock stack command).1.proc.getProcessAvailable.1 ≠ none := by
  obtain ⟨sessions, forest⟩ := forested.forest
  obtain ⟨message, argBuf, argumentExist, result, passed⟩ :=
    State.checkCommand_effect (s := s) bootBlock stack command
  obtain ⟨pid, free⟩ := Option.ne_none_iff_exists'.mp (forest.pid_free (passed accepted).1)
  simp only [result, Proc.getProcessAvailable, free]
  exact Option.some_ne_none pid

/-- An `execute` call that returns has changed the argument buffer at most. -/
theorem Forested.returned_unchanged (forested : Forested s) {stack : List UInt8}
    {command : CharPtr} {caller : Context} (able : s.able (.execute stack command caller))
    (failed : (s.syscallExecute bootBlock stack command caller).control = .returned (-1)) :
    ∃ argBuf argumentExist, (s.syscallExecute bootBlock stack command caller).proc =
      { s.proc with argBuf, argumentExist } := by
  obtain ⟨sessions, forest⟩ := forested.forest
  have outcome : Outcome bootBlock s (.execute stack command caller)
      (s.syscallExecute bootBlock stack command caller) :=
    State.step_outcome forested.sound able
  generalize s.syscallExecute bootBlock stack command caller = after at outcome failed ⊢
  cases outcome with
  | rejected refused => exact ⟨_, _, rfl⟩
  | full passed noPid notFull => exact absurd noPid (forest.pid_free notFull)
  | started => cases failed
  | fault faulting faults elsewhere => exact absurd faulting id

/-- From the `hlt` loop of `entry` on, when the three shells have been found: after every run
    of `schedule`, `execute` and `halt` the tables agree on one forest; an `execute` call that
    passes its checks always gets a pid, and one that returns -1 changes none of the tables. -/
theorem tables_agree_on_forest (on : PowerOn s) {buffers : TerminalId → List UInt8}
    (found : ∀ t, ShellFound bootBlock (buffers t)) {as : List Action} {later : State}
    (run : (processMachine bootBlock).Run (s.entry bootBlock buffers) as later) :
    ProcessForest later.proc ∧
      ∀ stack command caller, later.able (.execute stack command caller) →
        ((later.checkCommand bootBlock stack command).2 ≠ none →
          (later.checkCommand bootBlock stack command).1.proc.getProcessAvailable.1 ≠ none) ∧
        ((later.syscallExecute bootBlock stack command caller).control = .returned (-1) →
          ∃ argBuf argumentExist, (later.syscallExecute bootBlock stack command caller).proc =
            { later.proc with argBuf, argumentExist }) := by
  obtain ⟨fresh, roots⟩ := on.entry_fresh bootBlock buffers
  have forested := (fresh.forested (roots found)).of_run run
  obtain ⟨sessions, forest⟩ := forested.forest
  exact ⟨forest.processForest, fun stack command caller able =>
    ⟨forested.pid_available, forested.returned_unchanged able⟩⟩

end Forest

/-- The timer goes round, and the process that has been running before halts. -/
def roundAndHalt : List Action :=
  [.schedule ⟨0x7F7F00, 0x7F7F80⟩, .schedule ⟨0x7FBF00, 0x7FBF80⟩, .schedule ⟨0x7FFF00, 0x7FFF80⟩,
    .halt 0, .schedule ⟨0x7FDF00, 0x7FDF80⟩]

/-- The shell of terminal 2 starts another, which halts a round later. -/
theorem started_shell_halts_in_forest :
    ∃ child later, (processMachine (some shellImage)).Run
        (poweredOn.entry (some shellImage) (fun _ => []))
        [.schedule ⟨0x7FFF00, 0x7FFF80⟩, .execute [] State.shellName ⟨0x7FDF00, 0x7FDF80⟩] child ∧
      4 ≤ child.proc.activePid ∧ ProcessForest child.proc ∧
      (processMachine (some shellImage)).Run child roundAndHalt later ∧
      ProcessForest later.proc := by
  obtain ⟨fresh, roots⟩ := poweredOn_powerOn.entry_fresh (some shellImage) (fun _ => [])
  have found (_ : TerminalId) : ShellFound (some shellImage) [] := shellImage_found []
  obtain ⟨child, first, going, isChild⟩ := fresh.child_run (roots found) ⟨0x7FFF00, 0x7FFF80⟩
    (fun shell count => shell_starts count ⟨0x7FDF00, 0x7FDF80⟩)
    (show Action.OfProcesses _ from trivial) trivial
  obtain ⟨later, rest, _⟩ := going.run (some shellImage)
    (show ∀ action ∈ roundAndHalt, action.InUserPage ∧ action.OfProcesses by
      simp [roundAndHalt, Action.InUserPage, Action.OfProcesses])
  exact ⟨child, later, first, isChild, (tables_agree_on_forest poweredOn_powerOn found first).1,
    rest, (tables_agree_on_forest poweredOn_powerOn found (first.append rest)).1⟩

end LightOS.Kernel
