import LightOS.Kernel.Preemption
import LightOS.Kernel.Sessions

/-! # The strands of a preempted kernel

For each terminal, the stack of its processes and how far its path has come with them: a
`Strand`.  `Woven` says what the globals, the control blocks and the saved contexts have to do
with the strands.  A statement of the running path moves the strand of its own terminal on, and
nothing that belongs to another one; `Woven.advance` is that argument, and the lemmas after
it are the moves a strand can make.
-/

namespace LightOS

/-- The fields that `halt` reads. -/
structure Pcb.SameKin (pcb other : Pcb) : Prop where
  parentPid : pcb.parentPid = other.parentPid
  terminal : pcb.terminal = other.terminal
  fileDescriptorArray : pcb.fileDescriptorArray = other.fileDescriptorArray

theorem Pcb.SameKin.refl (pcb : Pcb) : pcb.SameKin pcb := ⟨rfl, rfl, rfl⟩

theorem Pcb.SameKin.trans {a b c : Pcb} (first : a.SameKin b) (second : b.SameKin c) :
    a.SameKin c :=
  ⟨first.parentPid.trans second.parentPid, first.terminal.trans second.terminal,
    first.fileDescriptorArray.trans second.fileDescriptorArray⟩

end LightOS

namespace LightOS.Kernel

open Lib Filesystem Descriptor

/-- How far a path has come with the processes of its terminal. -/
inductive Stage
  | idle
  | settled
  /-- `execute` has got a pid. -/
  | creating (pid : Nat)
  /-- The new pid is the current process of the terminal. -/
  | installed (pid : Nat)
  /-- The context of the caller is stored. -/
  | framed (pid : Nat)
  /-- `halt` has released the pid on top. -/
  | released
  /-- The parent is active, the child still the current process. -/
  | leaving (pid : Nat)
  /-- Only the way back into the parent is left. -/
  | left
  | lost
  deriving DecidableEq

namespace Stage

def current (top : Nat) : Stage → Nat
  | installed pid | framed pid | leaving pid => pid
  | _ => top

def reserved : Stage → Option Nat
  | creating pid | installed pid | framed pid => some pid
  | _ => none

/-- The timer may come in. -/
def suspendable : Stage → Bool
  | idle | settled | creating _ | released => true
  | _ => false

/-- The control block of the active process holds the context of its `execute` call. -/
def holdsFrame : Stage → Bool
  | framed _ | leaving _ | left => true
  | _ => false

end Stage

def ExecutePc.stage (newProcessId : Nat) : ExecutePc → Stage
  | initDescriptors | setCurrentPid | setParentPid | setCurrentEsp | setCurrentEbp
  | setCurrentEip | setVidmapFlag | setTerminal | copyArgBuf | setCurrentProcess =>
      .creating newProcessId
  | pagingExecute | pagingVideoMemory | loadProgram | locateCurrent | storeEsp | storeEbp =>
      .installed newProcessId
  | setActivePid => .framed newProcessId
  | _ => .settled

def HaltPc.stage (pid : Nat) : HaltPc → Stage
  | close _ | readParent | setActivePid => .released
  | locateParent | setActiveTerminal | setCurrentProcess => .leaving pid
  | setEsp0 | pagingExecute | pagingVideoMemory | contextSwitch => .left
  | _ => .settled

def Path.stage : Path → Stage
  | idle => .idle
  | user => .settled
  | execute pc call => pc.stage call.newProcessId
  | halt pc call => pc.stage call.pid
  | lost => .lost

structure Strand where
  stage : Stage
  stack : List Nat

namespace Strand

/-- The process on top; 0 in a terminal without one. -/
def top (strand : Strand) : Nat := strand.stack.headD 0

/-- The pids of a terminal, one that `execute` has just got included. -/
def owned (strand : Strand) : List Nat := strand.stage.reserved.toList ++ strand.stack

/-- Those of them that are taken in the pool. -/
def taken (strand : Strand) : List Nat :=
  if strand.stage = .released then strand.owned.tail else strand.owned

end Strand

/-- Root shells at the bottom, other pids above them, and no pid twice. -/
structure StrandsWellFormed (strands : TerminalId → Strand) : Prop where
  separate : Separate fun t => (strands t).owned
  root : ∀ t, (strands t).stack ≠ [] → (strands t).stack.getLast? = some t.number
  member : ∀ t, ∀ pid ∈ (strands t).owned, pid = t.number ∨ (4 ≤ pid ∧ pid ≤ 6)
  reserved : ∀ t pid, (strands t).stage.reserved = some pid → 4 ≤ pid

/-- The first `i` descriptors of a control block, closed one after the other. -/
def closeFirst (i : Nat) (pcb : Pcb) : Pcb :=
  (List.range i).foldl (fun pcb (i : Nat) => (fileDescriptorTableClose pcb i).2) pcb

theorem closeFirst_succ (i : Nat) (pcb : Pcb) :
    closeFirst (i + 1) pcb = (fileDescriptorTableClose (closeFirst i pcb) i).2 := by
  rw [closeFirst, List.range_succ, List.foldl_append]
  rfl

theorem closeFirst_tail (i : Nat) (pcb : Pcb) : (closeFirst i pcb).SameTail pcb := by
  induction i with
  | zero => exact .refl pcb
  | succ i ih =>
      rw [closeFirst_succ]
      exact (close_tail i).trans ih

/-- From the store of `parent_pid` to that of `active_pid`. -/
def ExecutePc.linked : ExecutePc → Bool
  | setCurrentEsp | setCurrentEbp | setCurrentEip | setVidmapFlag | setTerminal | copyArgBuf
  | setCurrentProcess | pagingExecute | pagingVideoMemory | loadProgram | locateCurrent
  | storeEsp | storeEbp | setActivePid => true
  | _ => false

/-- From the store of `terminal` to that of `active_pid`. -/
def ExecutePc.placed : ExecutePc → Bool
  | copyArgBuf | setCurrentProcess | pagingExecute | pagingVideoMemory | loadProgram
  | locateCurrent | storeEsp | storeEbp | setActivePid => true
  | _ => false

/-- What the new control block of an `execute` call holds, and its pointer to that of the
    caller. -/
structure ExecuteCall.Follows (pcb : Nat → Pcb) (t : TerminalId) (top : Nat)
    (call : ExecuteCall) (pc : ExecutePc) : Prop where
  parentPid : pc.linked = true → (pcb call.newProcessId).parentPid = top
  terminal : pc.placed = true → (pcb call.newProcessId).terminal = some t
  located : pc = .storeEsp ∨ pc = .storeEbp → call.currentPcb = top

/-- The process that halts is on top, and its control block the one it began with, apart from
    `closed` descriptors. -/
structure HaltCall.Halts (pcb : Nat → Pcb) (stack : List Nat) (call : HaltCall) (closed : Nat) :
    Prop where
  top : stack.head? = some call.pid
  own : (pcb call.pid).SameKin (closeFirst closed call.block)

/-- What the locals of a `halt` call hold. -/
def HaltCall.Follows (pcb : Nat → Pcb) (t : TerminalId) (stack : List Nat) (call : HaltCall) :
    HaltPc → Prop
  | .locatePcb => True
  | .checkRoot root =>
      call.Halts pcb stack 0 ∧ ∀ u : TerminalId, u.number < root.number → call.pid ≠ u.number
  | .bootEnter root => call.Halts pcb stack 0 ∧ call.pid = root.number
  | .uncountProcess | .releaseProcess => call.Halts pcb stack 0 ∧ 4 ≤ call.pid
  | .close i => call.Halts pcb stack i ∧ 4 ≤ call.pid ∧ i ≤ MAX_NUM_FILES
  | .readParent => call.Halts pcb stack MAX_NUM_FILES ∧ 4 ≤ call.pid
  | .setActivePid =>
      call.Halts pcb stack MAX_NUM_FILES ∧ 4 ≤ call.pid ∧
        stack.tail.head? = some call.parentPid
  | .locateParent => stack.head? = some call.block.parentPid ∧ call.block.terminal = some t
  | .setActiveTerminal => stack.head? = some call.parentPcb ∧ call.block.terminal = some t
  | _ => True

def Path.Follows (pcb : Nat → Pcb) (t : TerminalId) (stack : List Nat) : Path → Prop
  | execute pc call => call.Follows pcb t (stack.headD 0) pc
  | halt pc call => call.Follows pcb t stack pc
  | _ => True

/-- What the state holds for one terminal. -/
structure Thread (s : Interleaved) (t : TerminalId) (strand : Strand) : Prop where
  stage : (s.path t).stage = strand.stage
  alive : strand.stage ≠ .lost
  idle : strand.stack = [] ↔ strand.stage = .idle
  current : s.proc.currentProcessId t = strand.stage.current strand.top
  links : strand.stack.IsChain fun child parent => (s.proc.pcb child).parentPid = parent
  terminal : ∀ pid, pid = t.number ∨ pid ∈ strand.stack → (s.proc.pcb pid).terminal = some t
  frames : ∀ pid ∈ strand.stack.tail, s.saved pid = some .frame
  follows : (s.path t).Follows s.proc.pcb t strand.stack

/-- The state is the one of these strands. -/
structure Woven (s : Interleaved) (strands : TerminalId → Strand) : Prop where
  wellFormed : StrandsWellFormed strands
  thread : ∀ t, Thread s t (strands t)
  suspended : ∀ t, t ≠ s.proc.activeTerminal → (strands t).stage.suspendable = true ∧
    ∀ pid ∈ (strands t).stack.head?, ∃ path, s.saved pid = some (.path path)
  active : s.proc.activePid = (strands s.proc.activeTerminal).top
  booted : (strands s.proc.activeTerminal).stack = [] → ∀ t, (strands t).stack = []
  framed : (strands s.proc.activeTerminal).stage.holdsFrame = true →
    s.saved s.proc.activePid = some .frame
  allocated : ∀ pid, s.proc.processes pid = 1 ↔ pid ≤ 3 ∨ ∃ t, pid ∈ (strands t).taken
  free : ∀ pid, s.proc.processes pid ≠ 1 → s.proc.processes pid = 0

/-- A step keeps to the pids of the active terminal. -/
structure Elsewhere (s after : Interleaved) (owned : List Nat) : Prop where
  current : ∀ t, t ≠ s.proc.activeTerminal →
    after.proc.currentProcessId t = s.proc.currentProcessId t
  pcb : ∀ pid, pid ∉ owned → (after.proc.pcb pid).SameKin (s.proc.pcb pid)
  saved : ∀ pid, pid ∉ owned → after.saved pid = s.saved pid

theorem Elsewhere.of_same {s after : Interleaved} {owned : List Nat}
    (current : after.proc.currentProcessId = s.proc.currentProcessId)
    (pcb : after.proc.pcb = s.proc.pcb) (saved : after.saved = s.saved) :
    Elsewhere s after owned where
  current t _ := by rw [current]
  pcb pid _ := by
    rw [pcb]
    exact .refl _
  saved pid _ := by rw [saved]

namespace Interleaved

@[simp] theorem path_active (s : Interleaved) : s.path s.proc.activeTerminal = s.running := by
  simp [path]

theorem path_of_active {s after : Interleaved}
    (same : after.proc.activeTerminal = s.proc.activeTerminal) :
    after.path s.proc.activeTerminal = after.running := by
  rw [← same, path_active]

end Interleaved

section Strand

variable {strand : Strand} {strands : TerminalId → Strand} {t u : TerminalId} {pid : Nat}

theorem Strand.mem_owned : pid ∈ strand.owned ↔ strand.stage.reserved = some pid ∨
    pid ∈ strand.stack := by
  simp [Strand.owned]

theorem Strand.top_of_cons {rest : List Nat} (isTop : strand.stack = pid :: rest) :
    strand.top = pid := by
  simp [Strand.top, isTop]

/-- A pid of a terminal is free in the pool only when `halt` has released it. -/
theorem Strand.taken_or_released (owns : pid ∈ strand.owned) :
    pid ∈ strand.taken ∨ (strand.stage = .released ∧ strand.stack.head? = some pid) := by
  by_cases released : strand.stage = .released
  · simp only [Strand.owned, released, Stage.reserved, Option.toList_none, List.nil_append] at owns
    cases stack : strand.stack with
    | nil => simp [stack] at owns
    | cons top rest =>
        rw [stack, List.mem_cons] at owns
        rcases owns with rfl | below
        · exact .inr ⟨released, rfl⟩
        · refine .inl ?_
          rw [Strand.taken, if_pos released, Strand.owned, released, stack]
          exact below
  · exact .inl (by rwa [Strand.taken, if_neg released])

theorem Strand.owned_of_taken (taken : pid ∈ strand.taken) : pid ∈ strand.owned := by
  unfold Strand.taken at taken
  split at taken
  · exact List.mem_of_mem_tail taken
  · exact taken

theorem StrandsWellFormed.nonzero (wellFormed : StrandsWellFormed strands)
    (owns : pid ∈ (strands t).owned) : 1 ≤ pid ∧ pid ≤ 6 := by
  obtain ⟨positive, few⟩ := State.number_range t
  have range := wellFormed.member t pid owns
  omega

/-- The root shell of another terminal is not among the pids of this one. -/
theorem StrandsWellFormed.root_elsewhere (wellFormed : StrandsWellFormed strands)
    (other : u ≠ t) : u.number ∉ (strands t).owned := by
  intro owns
  obtain ⟨_, few⟩ := State.number_range u
  rcases wellFormed.member t _ owns with same | ⟨child, _⟩
  · exact other (TerminalId.number_injective same)
  · omega

/-- Below a process that is not a root shell there is its parent. -/
theorem StrandsWellFormed.below (wellFormed : StrandsWellFormed strands) {rest : List Nat}
    (top : (strands t).stack = pid :: rest) (child : 4 ≤ pid) :
    ∃ parent below, rest = parent :: below :=
  below_of_bottom (wellFormed.root t) top child

theorem StrandsWellFormed.owned_nodup (wellFormed : StrandsWellFormed strands) (t : TerminalId) :
    (strands t).owned.Nodup :=
  wellFormed.separate.nodup t

theorem StrandsWellFormed.stack_nodup (wellFormed : StrandsWellFormed strands) (t : TerminalId) :
    (strands t).stack.Nodup :=
  (List.nodup_append.mp (wellFormed.owned_nodup t)).2.1

/-- A pid that `execute` has just got is on no stack. -/
theorem StrandsWellFormed.reserved_new (wellFormed : StrandsWellFormed strands)
    (reserved : (strands t).stage.reserved = some pid) (u : TerminalId) :
    pid ∉ (strands u).stack := by
  intro onStack
  have same := wellFormed.separate.unique t u pid (Strand.mem_owned.mpr (.inl reserved))
    (Strand.mem_owned.mpr (.inr onStack))
  subst same
  have nodup := wellFormed.owned_nodup t
  rw [Strand.owned, reserved, Option.toList_some, List.singleton_append, List.nodup_cons] at nodup
  exact nodup.1 onStack

/-- The strand of one terminal changes. -/
theorem StrandsWellFormed.update (wellFormed : StrandsWellFormed strands) {other : Strand}
    (separate : Separate (Function.update (fun u => (strands u).owned) t other.owned))
    (root : other.stack ≠ [] → other.stack.getLast? = some t.number)
    (member : ∀ pid ∈ other.owned, pid = t.number ∨ (4 ≤ pid ∧ pid ≤ 6))
    (reserved : ∀ pid, other.stage.reserved = some pid → 4 ≤ pid) :
    StrandsWellFormed (Function.update strands t other) := by
  have owned : (fun u => (Function.update strands t other u).owned) =
      Function.update (fun u => (strands u).owned) t other.owned :=
    Function.comp_update Strand.owned strands t other
  constructor
  case separate => rwa [owned]
  case root =>
    intro u entered
    by_cases this : u = t
    · subst this
      rw [Function.update_self] at entered ⊢
      exact root entered
    · rw [Function.update_of_ne this] at entered ⊢
      exact wellFormed.root u entered
  case member =>
    intro u pid owns
    by_cases this : u = t
    · subst this
      rw [Function.update_self] at owns
      exact member pid owns
    · rw [Function.update_of_ne this] at owns
      exact wellFormed.member u pid owns
  case reserved =>
    intro u pid isReserved
    by_cases this : u = t
    · subst this
      rw [Function.update_self] at isReserved
      exact reserved pid isReserved
    · rw [Function.update_of_ne this] at isReserved
      exact wellFormed.reserved u pid isReserved

/-- Another strand with the same pids. -/
theorem StrandsWellFormed.replace (wellFormed : StrandsWellFormed strands) {other : Strand}
    (owned : other.owned = (strands t).owned)
    (root : other.stack.getLast? = (strands t).stack.getLast?)
    (reserved : ∀ pid, other.stage.reserved = some pid → 4 ≤ pid) :
    StrandsWellFormed (Function.update strands t other) := by
  refine wellFormed.update ?_ ?_ ?_ reserved
  · rw [owned, Function.update_eq_self t fun u => (strands u).owned]
    exact wellFormed.separate
  · intro entered
    rw [root]
    refine wellFormed.root t fun empty => entered ?_
    rw [empty, List.getLast?_nil, List.getLast?_eq_none_iff] at root
    exact root
  · rw [owned]
    exact wellFormed.member t

end Strand

section Thread

variable {s after : Interleaved} {t : TerminalId} {strand : Strand}

theorem ExecuteCall.Follows.of_same {pcb pcb' : Nat → Pcb} {top : Nat} {call : ExecuteCall}
    {pc : ExecutePc} (follows : call.Follows pcb t top pc)
    (same : (pc.stage call.newProcessId).reserved = some call.newProcessId →
      (pcb' call.newProcessId).SameKin (pcb call.newProcessId)) :
    call.Follows pcb' t top pc where
  parentPid linked := by
    rw [(same (by cases pc <;> first | rfl | cases linked)).parentPid]
    exact follows.parentPid linked
  terminal placed := by
    rw [(same (by cases pc <;> first | rfl | cases placed)).terminal]
    exact follows.terminal placed
  located := follows.located

theorem HaltCall.Halts.lineage {pcb : Nat → Pcb} {stack : List Nat} {call : HaltCall} {closed : Nat}
    (halts : call.Halts pcb stack closed) : (pcb call.pid).parentPid = call.block.parentPid ∧
      (pcb call.pid).terminal = call.block.terminal := by
  have tail := closeFirst_tail closed call.block
  exact ⟨halts.own.parentPid.trans tail.parentPid, halts.own.terminal.trans tail.terminal⟩

theorem HaltCall.Halts.of_same {pcb pcb' : Nat → Pcb} {stack : List Nat} {call : HaltCall}
    {closed : Nat} (halts : call.Halts pcb stack closed)
    (same : ∀ pid ∈ stack, (pcb' pid).SameKin (pcb pid)) : call.Halts pcb' stack closed where
  top := halts.top
  own := (same call.pid (List.mem_of_mem_head? halts.top)).trans halts.own

theorem HaltCall.Follows.of_same {pcb pcb' : Nat → Pcb} {stack : List Nat} {call : HaltCall}
    {pc : HaltPc} (follows : call.Follows pcb t stack pc)
    (same : ∀ pid ∈ stack, (pcb' pid).SameKin (pcb pid)) : call.Follows pcb' t stack pc := by
  cases pc with
  | checkRoot root | bootEnter root | uncountProcess | releaseProcess | close i | readParent
  | setActivePid => exact ⟨follows.1.of_same same, follows.2⟩
  | _ => exact follows

theorem Path.Follows.of_same {pcb pcb' : Nat → Pcb} {stack : List Nat} {path : Path}
    (follows : path.Follows pcb t stack)
    (same : ∀ pid, path.stage.reserved = some pid ∨ pid ∈ stack →
      (pcb' pid).SameKin (pcb pid)) : path.Follows pcb' t stack := by
  cases path with
  | execute pc call =>
      exact ExecuteCall.Follows.of_same follows fun reserved => same _ (.inl reserved)
  | halt pc call => exact HaltCall.Follows.of_same follows fun pid onStack => same _ (.inr onStack)
  | _ => trivial

/-- What a terminal has is untouched by a step that keeps to other pids. -/
theorem Thread.of_elsewhere (thread : Thread s t strand) (path : after.path t = s.path t)
    (current : after.proc.currentProcessId t = s.proc.currentProcessId t)
    (pcb : ∀ pid, pid = t.number ∨ pid ∈ strand.owned →
      (after.proc.pcb pid).SameKin (s.proc.pcb pid))
    (saved : ∀ pid ∈ strand.stack.tail, after.saved pid = s.saved pid) :
    Thread after t strand where
  stage := by rw [path, thread.stage]
  alive := thread.alive
  idle := thread.idle
  current := by rw [current, thread.current]
  links := by
    refine thread.links.imp_of_mem_imp fun child parent onStack _ link => ?_
    rw [(pcb child (.inr (Strand.mem_owned.mpr (.inr onStack)))).parentPid, link]
  terminal pid mine := by
    rw [(pcb pid (mine.imp_right fun onStack => Strand.mem_owned.mpr (.inr onStack))).terminal]
    exact thread.terminal pid mine
  frames pid below := by rw [saved pid below, thread.frames pid below]
  follows := by
    rw [path]
    refine thread.follows.of_same fun pid mine => pcb pid (.inr ?_)
    rw [thread.stage] at mine
    exact Strand.mem_owned.mpr mine

end Thread

end LightOS.Kernel
