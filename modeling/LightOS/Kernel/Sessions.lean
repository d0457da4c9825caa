import LightOS.Kernel.Boot
import LightOS.Lib.Stacks
import Mathlib.Data.List.Chain

/-! # Sessions

What the process routines are for, apart from the tables they keep it in: every terminal has
a stack of processes, its root shell at the bottom.  `execute` pushes a new process on the
stack of the active terminal, `halt` pops it, and `schedule` goes round the terminals.
`Forest` relates the globals of syscall.c to the stacks, and every step of the kernel is a
step of the stacks.
-/

namespace LightOS.Kernel

open Lib Filesystem Descriptor

/-- `schedule`, `execute` and `halt`. -/
def Action.OfProcesses : Action → Prop
  | .schedule _ | .execute .. | .halt _ => True
  | _ => False

/-- The stacks of the terminals; a terminal that has not been entered has an empty one. -/
abbrev Sessions := TerminalId → List Nat

/-- What a step does to the stacks, when `active` is the active terminal. -/
inductive SessionStep (active : TerminalId) (before : Sessions) : Action → Sessions → Prop
  | same {action} : SessionStep active before action before
  | enter {interrupted t} : before t = [] →
      SessionStep active before (.schedule interrupted)
        (Function.update before t (t.number :: before t))
  | push {stack command caller pid} : before active ≠ [] → (∀ t, pid ∉ before t) → 4 ≤ pid →
      pid ≤ 6 → SessionStep active before (.execute stack command caller)
        (Function.update before active (pid :: before active))
  | pop {status pid rest} : before active = pid :: rest → 4 ≤ pid →
      SessionStep active before (.halt status) (Function.update before active rest)

/-- With a root shell at the bottom of a stack, every other process on its top has its parent below
    it. -/
theorem below_of_bottom {t : TerminalId} {stack rest : List Nat} {pid : Nat}
    (bottom : stack ≠ [] → stack.getLast? = some t.number) (top : stack = pid :: rest)
    (child : 4 ≤ pid) : ∃ parent below, rest = parent :: below := by
  subst top
  cases rest with
  | nil =>
      have last := bottom (by simp)
      obtain ⟨_, few⟩ := State.number_range t
      simp only [List.getLast?_singleton, Option.some.injEq] at last
      omega
  | cons parent below => exact ⟨parent, below, rfl⟩

namespace Sessions

/-- Root shells at the bottom, other pids above them, and no pid twice. -/
structure WellFormed (sessions : Sessions) : Prop where
  separate : Separate sessions
  root : ∀ t, sessions t ≠ [] → (sessions t).getLast? = some t.number
  member : ∀ t pid, pid ∈ sessions t → pid = t.number ∨ (4 ≤ pid ∧ pid ≤ 6)

variable {sessions after : Sessions} {active t : TerminalId}

/-- A root shell is only ever on the stack of its own terminal. -/
theorem WellFormed.root_terminal (wellFormed : sessions.WellFormed) {u : TerminalId}
    (onStack : u.number ∈ sessions t) : u = t := by
  obtain ⟨_, few⟩ := State.number_range u
  rcases wellFormed.member t _ onStack with same | ⟨child, _⟩
  · exact TerminalId.number_injective same
  · omega

/-- Below a process that is not a root shell there is its parent. -/
theorem WellFormed.below (wellFormed : sessions.WellFormed) {pid : Nat} {rest : List Nat}
    (top : sessions t = pid :: rest) (child : 4 ≤ pid) :
    ∃ parent below, rest = parent :: below :=
  below_of_bottom (wellFormed.root t) top child

end Sessions

/-- Stacks stay well formed. -/
theorem SessionStep.wellFormed {active : TerminalId} {before after : Sessions} {action : Action}
    (step : SessionStep active before action after) (wellFormed : before.WellFormed) :
    after.WellFormed := by
  cases step with
  | same => exact wellFormed
  | @enter _ t empty =>
      have new (u : TerminalId) : t.number ∉ before u := by
        intro onStack
        have same := wellFormed.root_terminal onStack
        subst same
        simp [empty] at onStack
      refine ⟨wellFormed.separate.push new t, fun u entered => ?_, fun u pid onStack => ?_⟩
      · by_cases this : u = t
        · subst this
          simp [empty]
        · rw [Function.update_of_ne this] at entered ⊢
          exact wellFormed.root u entered
      · rcases Separate.mem_push.mp onStack with old | ⟨same, isNew⟩
        · exact wellFormed.member u pid old
        · exact .inl (same ▸ isNew)
  | @push _ _ _ pid entered new child small =>
      refine ⟨wellFormed.separate.push new active, fun u nonempty => ?_, fun u other onStack => ?_⟩
      · by_cases this : u = active
        · subst this
          rw [Function.update_self, List.getLast?_cons]
          simp [wellFormed.root u entered]
        · rw [Function.update_of_ne this] at nonempty ⊢
          exact wellFormed.root u nonempty
      · rcases Separate.mem_push.mp onStack with old | ⟨_, rfl⟩
        · exact wellFormed.member u other old
        · exact .inr ⟨child, small⟩
  | @pop _ pid rest top child =>
      obtain ⟨parent, below, isRest⟩ := wellFormed.below top child
      refine ⟨wellFormed.separate.pop top, fun u nonempty => ?_, fun u other onStack => ?_⟩
      · by_cases this : u = active
        · subst this
          have bottom := wellFormed.root u (by simp [top])
          rw [Function.update_self, ← bottom, top, isRest, List.getLast?_cons_cons]
        · rw [Function.update_of_ne this] at nonempty ⊢
          exact wellFormed.root u nonempty
      · exact wellFormed.member u other ((wellFormed.separate.mem_pop top).mp onStack).1

/-- `process_count`, counted in the pool. -/
def poolCount (processes : Nat → Nat) : Nat :=
  (List.range' 1 6).countP (fun pid => processes pid = 1)

/-- The globals of syscall.c describe the stacks. -/
structure Forest (proc : Proc) (sessions : Sessions) : Prop where
  wellFormed : sessions.WellFormed
  current : ∀ t, proc.currentProcessId t = (sessions t).headD 0
  links : ∀ t, (sessions t).IsChain (fun child parent => (proc.pcb child).parentPid = parent)
  terminal : ∀ t pid, pid = t.number ∨ pid ∈ sessions t → (proc.pcb pid).terminal = some t
  allocated : ∀ pid, proc.processes pid = 1 ↔ pid ≤ 3 ∨ ∃ t, pid ∈ sessions t
  free : ∀ pid, proc.processes pid ≠ 1 → proc.processes pid = 0
  count : proc.processCount = poolCount proc.processes
  active : proc.activePid = proc.currentProcessId proc.activeTerminal

/-- A pool of zeros and ones stays one. -/
theorem free_update {processes : Nat → Nat} (free : ∀ pid, processes pid ≠ 1 → processes pid = 0)
    (pid : Nat) {value : Nat} (flag : value ≠ 1 → value = 0) (other : Nat) :
    Function.update processes pid value other ≠ 1 →
      Function.update processes pid value other = 0 := by
  by_cases this : other = pid
  · rw [this, Function.update_self]
    exact flag
  · rw [Function.update_of_ne this]
    exact free other

theorem poolCount_allocate {processes : Nat → Nat} {pid : Nat} (child : 4 ≤ pid) (small : pid ≤ 6)
    (free : processes pid = 0) :
    poolCount (Function.update processes pid 1) = poolCount processes + 1 := by
  obtain rfl | rfl | rfl : pid = 4 ∨ pid = 5 ∨ pid = 6 := by omega
  all_goals
    simp only [poolCount, List.range', List.countP_cons, List.countP_nil, Function.update_apply]
    simp [free]
    try omega

theorem poolCount_release {processes : Nat → Nat} {pid : Nat} (child : 4 ≤ pid) (small : pid ≤ 6)
    (taken : processes pid = 1) :
    poolCount (Function.update processes pid 0) + 1 = poolCount processes := by
  have back : Function.update (Function.update processes pid 0) pid 1 = processes := by
    rw [Function.update_idem, ← taken, Function.update_eq_self]
  have again := poolCount_allocate child small (Function.update_self pid 0 processes)
  rw [back] at again
  exact again.symm

section Forest

variable {proc after : Proc} {sessions : Sessions}

/-- A step that leaves the pool, the current processes and the links alone. -/
theorem Forest.of_links (forest : Forest proc sessions) (links : proc.SameLinks after)
    (processes : after.processes = proc.processes) (count : after.processCount = proc.processCount)
    (current : after.currentProcessId = proc.currentProcessId)
    (active : after.activePid = proc.currentProcessId after.activeTerminal) :
    Forest after sessions where
  wellFormed := forest.wellFormed
  current t := by rw [current, forest.current]
  links t := by
    simp only [links.parentPid]
    exact forest.links t
  terminal t pid mine := by
    rw [links.terminal]
    exact forest.terminal t pid mine
  allocated := by
    rw [processes]
    exact forest.allocated
  free := by
    rw [processes]
    exact forest.free
  count := by
    rw [count, processes]
    exact forest.count
  active := by rw [active, current]

/-- A terminal without a current process has an empty stack. -/
theorem Forest.empty (forest : Forest proc sessions) {t : TerminalId}
    (idle : proc.currentProcessId t = 0) : sessions t = [] := by
  rw [forest.current] at idle
  cases top : sessions t with
  | nil => rfl
  | cons pid rest =>
      obtain ⟨positive, _⟩ := State.number_range t
      have range := forest.wellFormed.member t pid (by simp [top])
      simp only [top, List.headD_cons] at idle
      omega

/-- And one with a current process has it on top. -/
theorem Forest.top (forest : Forest proc sessions) {t : TerminalId}
    (occupied : proc.currentProcessId t ≠ 0) :
    ∃ rest, sessions t = proc.currentProcessId t :: rest := by
  rw [forest.current] at occupied ⊢
  cases top : sessions t with
  | nil => simp [top] at occupied
  | cons pid rest => exact ⟨rest, rfl⟩

theorem Forest.entered (forest : Forest proc sessions) {t : TerminalId} (empty : sessions t = [])
    (interrupted : Context) :
    SessionStep proc.activeTerminal sessions (.schedule interrupted)
        (Function.update sessions t (t.number :: sessions t)) ∧
      Forest (proc.entered t) (Function.update sessions t (t.number :: sessions t)) := by
  have step : SessionStep proc.activeTerminal sessions (.schedule interrupted) _ := .enter empty
  refine ⟨step, ?_⟩
  constructor
  case wellFormed => exact step.wellFormed forest.wellFormed
  case current =>
    intro u
    by_cases this : u = t
    · simp [Proc.entered, this]
    · simp [Proc.entered, this, forest.current]
  case links =>
    intro u
    by_cases this : u = t
    · simp [this, empty]
    · rw [Function.update_of_ne this]
      exact forest.links u
  case terminal =>
    intro u pid mine
    apply forest.terminal u pid
    rcases mine with isRoot | onStack
    · exact .inl isRoot
    · rcases Separate.mem_push.mp onStack with old | ⟨rfl, isRoot⟩
      · exact .inr old
      · exact .inl isRoot
  case allocated =>
    intro pid
    obtain ⟨_, few⟩ := State.number_range t
    simp only [Separate.mem_push]
    rw [show (proc.entered t).processes = proc.processes from rfl, forest.allocated]
    constructor
    · rintro (small | ⟨u, onStack⟩)
      · exact .inl small
      · exact .inr ⟨u, .inl onStack⟩
    · rintro (small | ⟨u, old | ⟨_, isRoot⟩⟩)
      · exact .inl small
      · exact .inr ⟨u, old⟩
      · exact .inl (by omega)
  case free => exact forest.free
  case count => exact forest.count
  case active => simp [Proc.entered]

theorem Forest.started (forest : Forest proc sessions) (active : proc.activePid ≠ 0) {pid : Nat}
    (child : 4 ≤ pid) (small : pid ≤ 6) (free : proc.processes pid = 0) (block : Pcb)
    (parentPid : block.parentPid = proc.activePid)
    (terminal : block.terminal = some proc.activeTerminal) (stack : List UInt8)
    (command : CharPtr) (caller : Context) :
    SessionStep proc.activeTerminal sessions (.execute stack command caller)
        (Function.update sessions proc.activeTerminal (pid :: sessions proc.activeTerminal)) ∧
      Forest (proc.started pid block caller) (Function.update sessions proc.activeTerminal
        (pid :: sessions proc.activeTerminal)) := by
  have new (t : TerminalId) : pid ∉ sessions t := by
    intro onStack
    have taken := (forest.allocated pid).mpr (.inr ⟨t, onStack⟩)
    omega
  obtain ⟨rest, top⟩ := forest.top (forest.active ▸ active)
  rw [← forest.active] at top
  have step : SessionStep proc.activeTerminal sessions (.execute stack command caller) _ :=
    .push (by simp [top]) new child small
  have links := Proc.SameLinks.started proc pid block caller
  have kept {other : Nat} (old : other ≠ pid) :
      (proc.setPcb pid block).pcb other = proc.pcb other := Function.update_of_ne old _ _
  have own : (proc.setPcb pid block).pcb pid = block := Function.update_self ..
  refine ⟨step, ?_⟩
  constructor
  case wellFormed => exact step.wellFormed forest.wellFormed
  case current =>
    intro t
    by_cases this : t = proc.activeTerminal
    · simp [Proc.started, this]
    · simp [Proc.started, this, forest.current]
  case links =>
    intro t
    simp only [links.parentPid]
    have old : (sessions t).IsChain (fun child parent =>
        ((proc.setPcb pid block).pcb child).parentPid = parent) := by
      refine (forest.links t).imp_of_mem_imp fun child parent onStack _ link => ?_
      rw [kept fun same => new t (same ▸ onStack)]
      exact link
    by_cases this : t = proc.activeTerminal
    · subst this
      rw [Function.update_self]
      rw [top] at old ⊢
      exact List.isChain_cons_cons.mpr ⟨by rw [own, parentPid], old⟩
    · rwa [Function.update_of_ne this]
  case terminal =>
    intro t other mine
    rw [links.terminal]
    by_cases isNew : other = pid
    · rw [isNew, own, terminal]
      rcases mine with isRoot | onStack
      · obtain ⟨_, few⟩ := State.number_range t
        omega
      · rcases Separate.mem_push.mp onStack with old | ⟨isActive, _⟩
        · exact absurd (isNew ▸ old) (new t)
        · rw [isActive]
    · rw [kept isNew]
      refine forest.terminal t other (mine.imp_right fun onStack => ?_)
      exact (Separate.mem_push.mp onStack).resolve_right fun top => isNew top.2
  case allocated =>
    intro other
    simp only [Separate.mem_push, Proc.started]
    by_cases isNew : other = pid
    · subst isNew
      rw [Function.update_self]
      exact iff_of_true rfl (.inr ⟨_, .inr ⟨rfl, rfl⟩⟩)
    · rw [Function.update_of_ne isNew, forest.allocated]
      simp [isNew]
  case free => exact free_update forest.free pid fun notOne => absurd rfl notOne
  case count =>
    have counted := forest.count
    simp only [Proc.started, poolCount_allocate child small free]
    omega
  case active => simp [Proc.started]

/-- The stack of the active terminal, when a process that is not a root shell is active. -/
theorem Forest.child (forest : Forest proc sessions) (child : 4 ≤ proc.activePid) :
    ∃ below, sessions proc.activeTerminal =
      proc.activePid :: (proc.pcb proc.activePid).parentPid :: below := by
  have occupied : proc.currentProcessId proc.activeTerminal ≠ 0 := by
    rw [← forest.active]
    omega
  obtain ⟨rest, top⟩ := forest.top occupied
  rw [← forest.active] at top
  obtain ⟨parent, below, rfl⟩ := forest.wellFormed.below top child
  have links := forest.links proc.activeTerminal
  rw [top, List.isChain_cons_cons] at links
  exact ⟨below, by rw [top, links.1]⟩

theorem Forest.reaped (forest : Forest proc sessions) (child : 4 ≤ proc.activePid)
    {below : List Nat} (top : sessions proc.activeTerminal =
      proc.activePid :: (proc.pcb proc.activePid).parentPid :: below) (status : UInt8) :
    SessionStep proc.activeTerminal sessions (.halt status)
        (Function.update sessions proc.activeTerminal
          ((proc.pcb proc.activePid).parentPid :: below)) ∧
      Forest (proc.reaped proc.activeTerminal) (Function.update sessions proc.activeTerminal
        ((proc.pcb proc.activePid).parentPid :: below)) := by
  have step : SessionStep proc.activeTerminal sessions (.halt status) _ := .pop top child
  have links := Proc.SameLinks.reaped proc proc.activeTerminal
  have separate := forest.wellFormed.separate
  have onStack : proc.activePid ∈ sessions proc.activeTerminal := by simp [top]
  have small : proc.activePid ≤ 6 := by
    obtain ⟨_, few⟩ := State.number_range proc.activeTerminal
    have range := forest.wellFormed.member _ _ onStack
    omega
  have taken := (forest.allocated proc.activePid).mpr (.inr ⟨_, onStack⟩)
  refine ⟨step, ?_⟩
  constructor
  case wellFormed => exact step.wellFormed forest.wellFormed
  case current =>
    intro t
    by_cases this : t = proc.activeTerminal
    · simp [Proc.reaped, this]
    · simp [Proc.reaped, this, forest.current]
  case links =>
    intro t
    simp only [links.parentPid]
    by_cases this : t = proc.activeTerminal
    · subst this
      have old := forest.links proc.activeTerminal
      rw [top, List.isChain_cons_cons] at old
      rw [Function.update_self]
      exact old.2
    · rw [Function.update_of_ne this]
      exact forest.links t
  case terminal =>
    intro t other mine
    rw [links.terminal]
    exact forest.terminal t other (mine.imp_right fun old => ((separate.mem_pop top).mp old).1)
  case allocated =>
    intro other
    simp only [separate.mem_pop top, Proc.reaped]
    by_cases isGone : other = proc.activePid
    · rw [isGone, Function.update_self]
      refine iff_of_false (by omega) ?_
      rintro (few | ⟨_, _, other⟩)
      · omega
      · exact other rfl
    · rw [Function.update_of_ne isGone, forest.allocated]
      simp [isGone]
  case free => exact free_update forest.free proc.activePid fun _ => rfl
  case count =>
    have counted := forest.count
    have released := poolCount_release child small taken
    simp only [Proc.reaped]
    omega
  case active => simp [Proc.reaped]

end Forest

end LightOS.Kernel
