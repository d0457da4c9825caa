import LightOS.Kernel.Strands

/-! # Steps of a preempted kernel

Every statement of `execute` and `halt` moves the strand of the active terminal on, and the
timer suspends one strand and resumes another, as long as it does not come in where a call is
half-way from one process to the next and no pid is handed out whose process is still
halting.
-/

namespace LightOS.Kernel

open Lib Filesystem Descriptor

/-- From the store of `current_process_id` to that of `active_pid`. -/
def ExecutePc.installs : ExecutePc → Bool
  | pagingExecute | pagingVideoMemory | loadProgram | locateCurrent | storeEsp | storeEbp
  | setActivePid => true
  | _ => false

/-- From the store of `active_pid` to the end. -/
def HaltPc.leaves : HaltPc → Bool
  | locateParent | setActiveTerminal | setCurrentProcess | setEsp0 | pagingExecute
  | pagingVideoMemory | contextSwitch => true
  | _ => false

/-- From `release_process` to the end. -/
def HaltPc.hasReleased : HaltPc → Bool
  | locatePcb | checkRoot _ | bootEnter _ | uncountProcess | releaseProcess => false
  | _ => true

/-- Half-way from one process to the next. -/
def Path.exposed : Path → Bool
  | execute pc _ => pc.installs
  | halt pc _ => pc.leaves
  | _ => false

/-- A timer interrupt that comes in half-way from one process to the next, or before the next
    terminal has been entered and while a process that is not the root shell is active. -/
def Spoils (s : Interleaved) : Move → Prop
  | .timer _ =>
      s.running.exposed = true ∨
        s.proc.currentProcessId (nextTerminal s.proc.activeTerminal) = 0 ∧
          s.proc.activePid ≠ 0 ∧
          s.proc.activePid ≠ precedingRoot (nextTerminal s.proc.activeTerminal)
  | _ => False

instance (s : Interleaved) : (move : Move) → Decidable (Spoils s move)
  | .timer _ => inferInstanceAs (Decidable (_ ∨ _))
  | .execute .. | .halt | .statement => inferInstanceAs (Decidable False)

/-- The pid that the `halt` of a terminal has released. -/
def Interleaved.releasedPid (s : Interleaved) (t : TerminalId) : Option Nat :=
  match s.path t with
  | .halt pc call => if pc.hasReleased then some call.pid else none
  | _ => none

/-- A `get_process_available` whose lowest free pid has been released by a `halt` that is
    suspended. -/
def HandsOutHalting (s : Interleaved) : Move → Prop
  | .statement =>
      s.running.atGetProcess = true ∧
        ∃ t, s.releasedPid t ≠ none ∧ s.proc.getProcessAvailable.1 = s.releasedPid t
  | _ => False

instance (s : Interleaved) : (move : Move) → Decidable (HandsOutHalting s move)
  | .statement => inferInstanceAs (Decidable (_ ∧ _))
  | .timer _ | .execute .. | .halt => inferInstanceAs (Decidable False)

/-- Neither of the two. -/
def Orderly (s : Interleaved) (move : Move) : Prop := ¬ Spoils s move ∧ ¬ HandsOutHalting s move

instance (s : Interleaved) (move : Move) : Decidable (Orderly s move) :=
  inferInstanceAs (Decidable (_ ∧ _))

/-- What the strands depend on, besides the running path. -/
def Interleaved.tables (s : Interleaved) :=
  (s.proc.activeTerminal, s.proc.activePid, s.proc.currentProcessId, s.proc.processes, s.proc.pcb,
    s.saved)

/-- A step of the running path: the state is woven again, and the other terminals have what
    they had. -/
structure Advanced (s after : Interleaved) : Prop where
  woven : ∃ strands, Woven after strands
  terminal : after.proc.activeTerminal = s.proc.activeTerminal
  path : ∀ t, t ≠ s.proc.activeTerminal → after.path t = s.path t
  current : ∀ t, t ≠ s.proc.activeTerminal →
    after.proc.currentProcessId t = s.proc.currentProcessId t

section Moves

variable {s after : Interleaved} {strands : TerminalId → Strand}

/-- The stage of a path that may be interrupted. -/
theorem Path.suspendable_of_safe {path : Path} (alive : path.stage ≠ .lost)
    (safe : path.exposed = false) : path.stage.suspendable = true := by
  cases path with
  | idle | user => rfl
  | lost => exact absurd rfl alive
  | execute pc call => cases pc <;> first | rfl | cases safe
  | halt pc call => cases pc <;> first | rfl | cases safe

theorem Stage.current_of_suspendable {stage : Stage} (suspendable : stage.suspendable = true)
    (top : Nat) : stage.current top = top := by
  cases stage <;> first | rfl | cases suspendable

theorem Stage.frameless_of_suspendable {stage : Stage} (suspendable : stage.suspendable = true) :
    stage.holdsFrame = false := by
  cases stage <;> first | rfl | cases suspendable

theorem Woven.suspended_current (woven : Woven s strands) {t : TerminalId}
    (other : t ≠ s.proc.activeTerminal) : s.proc.currentProcessId t = (strands t).top := by
  rw [(woven.thread t).current]
  exact Stage.current_of_suspendable (woven.suspended t other).1 _

/-- The current process of a suspended terminal is on top of its stack. -/
theorem Woven.suspended_top (woven : Woven s strands) {t : TerminalId}
    (other : t ≠ s.proc.activeTerminal) (entered : s.proc.currentProcessId t ≠ 0) :
    ∃ rest, (strands t).stack = s.proc.currentProcessId t :: rest := by
  rw [woven.suspended_current other] at entered ⊢
  cases stack : (strands t).stack with
  | nil => simp [Strand.top, stack] at entered
  | cons pid rest => exact ⟨rest, by rw [Strand.top_of_cons stack]⟩

theorem Woven.entered (woven : Woven s strands) {t : TerminalId}
    (entered : (strands t).stage ≠ .idle) :
    ∃ rest, (strands t).stack = (strands t).top :: rest := by
  cases stack : (strands t).stack with
  | nil => exact absurd ((woven.thread t).idle.mp stack) entered
  | cons pid rest => exact ⟨rest, by rw [Strand.top_of_cons stack]⟩

theorem Woven.running_stage (woven : Woven s strands) :
    (strands s.proc.activeTerminal).stage = s.running.stage := by
  rw [← (woven.thread s.proc.activeTerminal).stage, Interleaved.path_active]

theorem Woven.follows (woven : Woven s strands) :
    s.running.Follows s.proc.pcb s.proc.activeTerminal (strands s.proc.activeTerminal).stack := by
  have follows := (woven.thread s.proc.activeTerminal).follows
  rwa [Interleaved.path_active] at follows

/-- A terminal that stays suspended keeps its path. -/
theorem Woven.path_suspended (woven : Woven s strands) {t : TerminalId}
    (other : t ≠ s.proc.activeTerminal) (still : t ≠ after.proc.activeTerminal)
    (current : after.proc.currentProcessId t = s.proc.currentProcessId t)
    (saved : ∀ pid ∈ (strands t).owned, after.saved pid = s.saved pid) :
    after.path t = s.path t := by
  by_cases entered : s.proc.currentProcessId t = 0
  · simp [Interleaved.path, other, still, current, entered]
  · obtain ⟨rest, top⟩ := woven.suspended_top other entered
    have owned : s.proc.currentProcessId t ∈ (strands t).owned :=
      Strand.mem_owned.mpr (.inr (by rw [top]; exact List.mem_cons_self ..))
    simp [Interleaved.path, other, still, current, entered, saved _ owned]

/-- Other terminals keep their paths. -/
theorem Woven.path_elsewhere (woven : Woven s strands)
    (terminal : after.proc.activeTerminal = s.proc.activeTerminal)
    (elsewhere : Elsewhere s after (strands s.proc.activeTerminal).owned) {t : TerminalId}
    (other : t ≠ s.proc.activeTerminal) : after.path t = s.path t := by
  refine woven.path_suspended other (terminal ▸ other) (elsewhere.current t other) ?_
  intro pid owned
  exact elsewhere.saved pid fun active =>
    other (woven.wellFormed.separate.unique t _ _ owned active)

/-- A step of the running path that keeps to the pids of its terminal. -/
theorem Woven.advance (woven : Woven s strands) (strand : Strand)
    (terminal : after.proc.activeTerminal = s.proc.activeTerminal)
    (elsewhere : Elsewhere s after (strands s.proc.activeTerminal).owned)
    (wellFormed : StrandsWellFormed (Function.update strands s.proc.activeTerminal strand))
    (thread : Thread after s.proc.activeTerminal strand) (entered : strand.stack ≠ [])
    (active : after.proc.activePid = strand.top)
    (framed : strand.stage.holdsFrame = true → after.saved after.proc.activePid = some .frame)
    (allocated : ∀ pid, after.proc.processes pid = 1 ↔ pid ≤ 3 ∨
      ∃ t, pid ∈ (Function.update strands s.proc.activeTerminal strand t).taken)
    (free : ∀ pid, after.proc.processes pid ≠ 1 → after.proc.processes pid = 0) :
    Advanced s after := by
  have apart {t : TerminalId} (other : t ≠ s.proc.activeTerminal) {pid : Nat}
      (owns : pid ∈ (strands t).owned) : pid ∉ (strands s.proc.activeTerminal).owned :=
    fun active => other (woven.wellFormed.separate.unique t _ pid owns active)
  refine ⟨⟨Function.update strands s.proc.activeTerminal strand, ?_⟩, terminal,
    fun t => woven.path_elsewhere terminal elsewhere, elsewhere.current⟩
  constructor
  case wellFormed => exact wellFormed
  case thread =>
    intro t
    by_cases this : t = s.proc.activeTerminal
    · rw [this, Function.update_self]
      exact thread
    · rw [Function.update_of_ne this]
      refine (woven.thread t).of_elsewhere (woven.path_elsewhere terminal elsewhere this)
        (elsewhere.current t this) (fun pid mine => elsewhere.pcb pid ?_)
        (fun pid below => elsewhere.saved pid ?_)
      · rcases mine with rfl | owns
        · exact woven.wellFormed.root_elsewhere this
        · exact apart this owns
      · exact apart this (Strand.mem_owned.mpr (.inr (List.mem_of_mem_tail below)))
  case suspended =>
    intro t other
    rw [terminal] at other
    rw [Function.update_of_ne other]
    obtain ⟨suspendable, saved⟩ := woven.suspended t other
    refine ⟨suspendable, fun pid isTop => ?_⟩
    have onStack := List.mem_of_mem_head? isTop
    rw [elsewhere.saved pid (apart other (Strand.mem_owned.mpr (.inr onStack)))]
    exact saved pid isTop
  case active => rw [terminal, Function.update_self, active]
  case booted =>
    rw [terminal, Function.update_self]
    exact fun empty => absurd empty entered
  case framed =>
    rw [terminal, Function.update_self]
    exact framed
  case allocated => exact allocated
  case free => exact free

/-- The same stack of pids at another stage. -/
theorem Thread.restage {t : TerminalId} {strand : Strand} {stage : Stage}
    (thread : Thread s t strand) (running : (after.path t).stage = stage) (alive : stage ≠ .lost)
    (notIdle : stage ≠ .idle) (entered : strand.stack ≠ [])
    (current : after.proc.currentProcessId t = stage.current strand.top)
    (links : ∀ pid, pid = t.number ∨ pid ∈ strand.stack →
      (after.proc.pcb pid).parentPid = (s.proc.pcb pid).parentPid ∧
        (after.proc.pcb pid).terminal = (s.proc.pcb pid).terminal)
    (saved : ∀ pid ∈ strand.stack.tail, after.saved pid = s.saved pid)
    (follows : (after.path t).Follows after.proc.pcb t strand.stack) :
    Thread after t ⟨stage, strand.stack⟩ where
  stage := running
  alive := alive
  idle := iff_of_false entered notIdle
  current := current
  links := by
    refine thread.links.imp_of_mem_imp fun child parent onStack _ link => ?_
    rw [(links child (.inr onStack)).1, link]
  terminal := by
    intro pid mine
    rw [(links pid mine).2, thread.terminal pid mine]
  frames := by
    intro pid below
    rw [saved pid below, thread.frames pid below]
  follows := follows

/-- A step after which the terminal has the same pids. -/
theorem Woven.keeps (woven : Woven s strands) (stage : Stage)
    (running : after.running.stage = stage) (notIdle : stage ≠ .idle) (alive : stage ≠ .lost)
    (terminal : after.proc.activeTerminal = s.proc.activeTerminal)
    (active : after.proc.activePid = s.proc.activePid)
    (processes : after.proc.processes = s.proc.processes)
    (entered : (strands s.proc.activeTerminal).stage ≠ .idle)
    (reserved : stage.reserved = (strands s.proc.activeTerminal).stage.reserved)
    (released : stage = .released ↔ (strands s.proc.activeTerminal).stage = .released)
    (elsewhere : Elsewhere s after (strands s.proc.activeTerminal).owned)
    (links : ∀ pid, pid = s.proc.activeTerminal.number ∨
        pid ∈ (strands s.proc.activeTerminal).stack →
      (after.proc.pcb pid).parentPid = (s.proc.pcb pid).parentPid ∧
        (after.proc.pcb pid).terminal = (s.proc.pcb pid).terminal)
    (saved : ∀ pid ∈ (strands s.proc.activeTerminal).stack.tail, after.saved pid = s.saved pid)
    (current : after.proc.currentProcessId s.proc.activeTerminal =
      stage.current (strands s.proc.activeTerminal).top)
    (framed : stage.holdsFrame = true → after.saved s.proc.activePid = some .frame)
    (follows : after.running.Follows after.proc.pcb s.proc.activeTerminal
      (strands s.proc.activeTerminal).stack) : Advanced s after := by
  have thread := woven.thread s.proc.activeTerminal
  obtain ⟨rest, top⟩ := woven.entered entered
  have owned : Strand.owned ⟨stage, (strands s.proc.activeTerminal).stack⟩ =
      (strands s.proc.activeTerminal).owned := by
    simp only [Strand.owned, reserved]
  have taken (t : TerminalId) : (Function.update strands s.proc.activeTerminal
      ⟨stage, (strands s.proc.activeTerminal).stack⟩ t).taken = (strands t).taken := by
    by_cases this : t = s.proc.activeTerminal
    · subst this
      simp only [Function.update_self, Strand.taken, owned, released]
    · rw [Function.update_of_ne this]
  have path := Interleaved.path_of_active terminal
  refine woven.advance ⟨stage, (strands s.proc.activeTerminal).stack⟩ terminal elsewhere ?wellFormed
    ?thread (by rw [top]; simp) ?active ?framed ?allocated ?free
  case wellFormed =>
    refine woven.wellFormed.replace owned rfl fun pid isReserved => ?_
    exact woven.wellFormed.reserved s.proc.activeTerminal pid (reserved ▸ isReserved)
  case thread =>
    exact thread.restage (by rw [path, running]) alive notIdle (by rw [top]; simp) current links
      saved (by rw [path]; exact follows)
  case active =>
    rw [active, woven.active]
    rfl
  case framed =>
    rw [active]
    exact framed
  case allocated =>
    intro pid
    rw [processes, woven.allocated]
    simp only [taken]
  case free =>
    rw [processes]
    exact woven.free

/-- A statement that only changes the locals of its call, or data no strand depends on. -/
theorem Woven.goes (woven : Woven s strands) (same : after.tables = s.tables)
    (entered : s.running.stage ≠ .idle) (alive : s.running.stage ≠ .lost)
    (stage : after.running.stage = s.running.stage)
    (follows : after.running.Follows s.proc.pcb s.proc.activeTerminal
      (strands s.proc.activeTerminal).stack) : Advanced s after := by
  simp only [Interleaved.tables, Prod.mk.injEq] at same
  obtain ⟨terminal, active, current, processes, pcb, saved⟩ := same
  have own := woven.running_stage
  exact woven.keeps (strands s.proc.activeTerminal).stage (stage.trans own.symm)
    (by rwa [own]) (by rwa [own]) terminal active processes (by rwa [own]) rfl .rfl
    (.of_same current pcb saved)
    (fun pid _ => by rw [pcb]; exact ⟨rfl, rfl⟩) (fun pid _ => by rw [saved])
    (by rw [current, (woven.thread s.proc.activeTerminal).current])
    (fun holds => by rw [saved]; exact woven.framed holds) (by rwa [pcb])

/-- A store into the control block of the process that `execute` is creating. -/
theorem Woven.fills (woven : Woven s strands) {pc next : ExecutePc} {call : ExecuteCall}
    {block : Pcb} (running : s.running = .execute pc call)
    (creating : pc.stage call.newProcessId = .creating call.newProcessId)
    (later : next.stage call.newProcessId = .creating call.newProcessId)
    (proc : after.proc = s.proc.setPcb call.newProcessId block)
    (path : after.running = .execute next call)
    (saved : ∀ pid, pid ≠ call.newProcessId → after.saved pid = s.saved pid)
    (follows : call.Follows after.proc.pcb s.proc.activeTerminal
      (strands s.proc.activeTerminal).top next) : Advanced s after := by
  have own : (strands s.proc.activeTerminal).stage = .creating call.newProcessId := by
    rw [woven.running_stage, running]
    exact creating
  have reserved : (strands s.proc.activeTerminal).stage.reserved = some call.newProcessId := by
    rw [own]
    rfl
  have child := woven.wellFormed.reserved _ _ reserved
  have new := woven.wellFormed.reserved_new reserved s.proc.activeTerminal
  have kept {pid : Nat} (old : pid ≠ call.newProcessId) : after.proc.pcb pid = s.proc.pcb pid := by
    rw [proc]
    exact Function.update_of_ne old _ _
  have isOwned : call.newProcessId ∈ (strands s.proc.activeTerminal).owned :=
    Strand.mem_owned.mpr (.inl reserved)
  have running' : after.running.stage = .creating call.newProcessId := by rw [path]; exact later
  refine woven.keeps (.creating call.newProcessId) running' (by simp) (by simp)
    (by rw [proc]; rfl) (by rw [proc]; rfl) (by rw [proc]; rfl) (by rw [own]; simp) (by rw [own])
    (by rw [own]) ?elsewhere ?links ?saved ?current (fun holds => by cases holds)
    (by rw [path]; exact follows)
  case elsewhere =>
    constructor
    · intro t _
      rw [proc]
      rfl
    · intro pid foreign
      have old : pid ≠ call.newProcessId := fun same => foreign (same ▸ isOwned)
      rw [kept old]
      exact .refl _
    · intro pid foreign
      exact saved pid fun same => foreign (same ▸ isOwned)
  case links =>
    intro pid mine
    have old : pid ≠ call.newProcessId := by
      rintro rfl
      obtain ⟨_, few⟩ := State.number_range s.proc.activeTerminal
      exact mine.elim (fun isRoot => by omega) new
    rw [kept old]
    exact ⟨rfl, rfl⟩
  case saved =>
    intro pid below
    exact saved pid fun same => new (same ▸ List.mem_of_mem_tail below)
  case current =>
    have current := (woven.thread s.proc.activeTerminal).current
    rw [own] at current
    rw [proc]
    exact current

/-- `get_process_available` gives `execute` a pid that is on no stack. -/
theorem Woven.reserves (woven : Woven s strands) {call : ExecuteCall} {pid : Nat}
    (own : (strands s.proc.activeTerminal).stage = .settled) (new : ∀ t, pid ∉ (strands t).owned)
    (child : 4 ≤ pid) (small : pid ≤ 6)
    (proc : after.proc = { s.proc with processes := Function.update s.proc.processes pid 1 })
    (path : after.running = .execute .initDescriptors { call with newProcessId := pid })
    (saved : after.saved = s.saved) :
    Advanced s after := by
  have thread := woven.thread s.proc.activeTerminal
  obtain ⟨rest, top⟩ := woven.entered (t := s.proc.activeTerminal) (by rw [own]; simp)
  have owned : Strand.owned ⟨.creating pid, (strands s.proc.activeTerminal).stack⟩ =
      pid :: (strands s.proc.activeTerminal).owned := by
    simp [Strand.owned, own, Stage.reserved]
  have taken (t : TerminalId) (other : Nat) : other ∈ (Function.update strands
      s.proc.activeTerminal ⟨.creating pid, (strands s.proc.activeTerminal).stack⟩ t).taken ↔
        other ∈ (strands t).taken ∨ (t = s.proc.activeTerminal ∧ other = pid) := by
    by_cases this : t = s.proc.activeTerminal
    · subst this
      simp [Strand.taken, Strand.owned, own, Stage.reserved, or_comm]
    · simp [this]
  have activePath : after.path s.proc.activeTerminal = after.running :=
    Interleaved.path_of_active (by rw [proc])
  refine woven.advance ⟨.creating pid, (strands s.proc.activeTerminal).stack⟩
    (by rw [proc]) ?elsewhere ?wellFormed ?thread (by rw [top]; simp)
    (by rw [proc]; exact woven.active) (fun holds => by cases holds) ?allocated ?free
  case elsewhere => exact .of_same (by rw [proc]) (by rw [proc]) saved
  case wellFormed =>
    refine woven.wellFormed.update ?_ (woven.wellFormed.root s.proc.activeTerminal) ?_ ?_
    · rw [owned]
      exact woven.wellFormed.separate.push new s.proc.activeTerminal
    · intro other owns
      rw [owned, List.mem_cons] at owns
      rcases owns with rfl | old
      · exact .inr ⟨child, small⟩
      · exact woven.wellFormed.member s.proc.activeTerminal other old
    · intro other isReserved
      obtain rfl := Option.some.inj isReserved
      exact child
  case thread =>
    refine thread.restage (by rw [activePath, path]; rfl) (by simp) (by simp)
      (by rw [top]; simp) ?current (fun _ _ => by rw [proc]; exact ⟨rfl, rfl⟩)
      (fun _ _ => by rw [saved]) ?follows
    case current =>
      have current := thread.current
      rw [own] at current
      rw [proc]
      exact current
    case follows =>
      rw [activePath, path]
      exact ⟨fun linked => (by cases linked), fun placed => (by cases placed),
        fun located => (by simp at located)⟩
  case allocated =>
    intro other
    rw [proc]
    simp only [taken]
    by_cases isNew : other = pid
    · subst isNew
      rw [Function.update_self]
      exact iff_of_true rfl (.inr ⟨_, .inr ⟨rfl, rfl⟩⟩)
    · rw [Function.update_of_ne isNew, woven.allocated]
      simp [isNew]
  case free =>
    rw [proc]
    exact free_update woven.free pid fun notOne => absurd rfl notOne

/-- `execute` makes the new process the active one. -/
theorem Woven.pushes (woven : Woven s strands) {call : ExecuteCall} {pid : Nat}
    (own : (strands s.proc.activeTerminal).stage = .framed pid)
    (link : (s.proc.pcb pid).parentPid = (strands s.proc.activeTerminal).top)
    (place : (s.proc.pcb pid).terminal = some s.proc.activeTerminal)
    (proc : after.proc = { s.proc with activePid := pid })
    (path : after.running = .execute .setEsp0 call) (saved : after.saved = s.saved) :
    Advanced s after := by
  have thread := woven.thread s.proc.activeTerminal
  obtain ⟨rest, top⟩ := woven.entered (t := s.proc.activeTerminal) (by rw [own]; simp)
  have owned : Strand.owned ⟨.settled, pid :: (strands s.proc.activeTerminal).stack⟩ =
      (strands s.proc.activeTerminal).owned := by
    simp [Strand.owned, own, Stage.reserved]
  have taken (t : TerminalId) : (Function.update strands s.proc.activeTerminal
      ⟨.settled, pid :: (strands s.proc.activeTerminal).stack⟩ t).taken = (strands t).taken := by
    by_cases this : t = s.proc.activeTerminal
    · subst this
      simp [Strand.taken, owned, own]
    · rw [Function.update_of_ne this]
  have activePath : after.path s.proc.activeTerminal = after.running :=
    Interleaved.path_of_active (by rw [proc])
  refine woven.advance ⟨.settled, pid :: (strands s.proc.activeTerminal).stack⟩
    (by rw [proc]) ?elsewhere ?wellFormed ?thread (by simp) (by rw [proc]; rfl)
    (fun holds => by cases holds) ?allocated (by rw [proc]; exact woven.free)
  case elsewhere => exact .of_same (by rw [proc]) (by rw [proc]) saved
  case wellFormed =>
    refine woven.wellFormed.replace owned ?_ (fun pid isReserved => by cases isReserved)
    rw [top, List.getLast?_cons_cons]
  case thread =>
    constructor
    case stage =>
      rw [activePath, path]
      rfl
    case alive => simp
    case idle => exact iff_of_false (by simp) (by simp)
    case current =>
      have current := thread.current
      rw [own] at current
      rw [proc]
      exact current
    case links =>
      have links := thread.links
      rw [proc]
      rw [top] at links ⊢
      exact List.isChain_cons_cons.mpr ⟨link, links⟩
    case terminal =>
      rw [proc]
      intro other mine
      rcases mine with isRoot | onStack
      · exact thread.terminal other (.inl isRoot)
      · rcases List.mem_cons.mp onStack with rfl | old
        · exact place
        · exact thread.terminal other (.inr old)
    case frames =>
      intro other below
      rw [List.tail_cons, top, List.mem_cons] at below
      rw [saved]
      rcases below with rfl | below
      · rw [← woven.active]
        exact woven.framed (by rw [own]; rfl)
      · exact thread.frames other (by rw [top]; exact below)
    case follows =>
      rw [activePath, path]
      exact ⟨fun linked => (by cases linked), fun placed => (by cases placed),
        fun located => (by simp at located)⟩
  case allocated =>
    intro other
    rw [proc]
    simp only [taken]
    exact woven.allocated other

/-- `halt` releases the pid on top. -/
theorem Woven.releases (woven : Woven s strands) {call : HaltCall}
    (own : (strands s.proc.activeTerminal).stage = .settled)
    (halts : call.Halts s.proc.pcb (strands s.proc.activeTerminal).stack 0) (child : 4 ≤ call.pid)
    (proc : after.proc =
      { s.proc with processes := Function.update s.proc.processes s.proc.activePid 0 })
    (path : after.running = .halt (.close 0) call) (saved : after.saved = s.saved) :
    Advanced s after := by
  have thread := woven.thread s.proc.activeTerminal
  obtain ⟨rest, top⟩ := woven.entered (t := s.proc.activeTerminal) (by rw [own]; simp)
  have onTop : call.pid = s.proc.activePid := by
    have isTop := halts.top
    rw [top] at isTop
    rw [woven.active]
    exact (Option.some.inj isTop).symm
  have owned : Strand.owned ⟨.released, (strands s.proc.activeTerminal).stack⟩ =
      (strands s.proc.activeTerminal).owned := by
    simp [Strand.owned, own, Stage.reserved]
  have ownedBefore : (strands s.proc.activeTerminal).owned = s.proc.activePid :: rest := by
    rw [woven.active]
    simp only [Strand.owned, own, Stage.reserved, Option.toList_none, List.nil_append]
    exact top
  have taken (t : TerminalId) (other : Nat) : other ∈ (Function.update strands
      s.proc.activeTerminal ⟨.released, (strands s.proc.activeTerminal).stack⟩ t).taken ↔
        other ∈ (strands t).taken ∧ other ≠ s.proc.activePid := by
    by_cases this : t = s.proc.activeTerminal
    · subst this
      have popped := woven.wellFormed.separate.mem_pop ownedBefore (j := s.proc.activeTerminal)
        (q := other)
      rw [Function.update_self] at popped
      simp only [Function.update_self, Strand.taken, owned, if_true, own, reduceCtorEq, if_false]
      rw [ownedBefore, List.tail_cons, popped, ownedBefore]
    · rw [Function.update_of_ne this]
      refine ⟨fun isTaken => ⟨isTaken, ?_⟩, And.left⟩
      rintro rfl
      have owns := Strand.owned_of_taken isTaken
      exact this (woven.wellFormed.separate.unique t _ _ owns
        (ownedBefore ▸ List.mem_cons_self ..))
  have activePath : after.path s.proc.activeTerminal = after.running :=
    Interleaved.path_of_active (by rw [proc])
  refine woven.advance ⟨.released, (strands s.proc.activeTerminal).stack⟩
    (by rw [proc]) ?elsewhere ?wellFormed ?thread (by rw [top]; simp)
    (by rw [proc]; exact woven.active) (fun holds => by cases holds) ?allocated ?free
  case elsewhere => exact .of_same (by rw [proc]) (by rw [proc]) saved
  case wellFormed =>
    exact woven.wellFormed.replace owned rfl fun pid isReserved => by cases isReserved
  case thread =>
    refine thread.restage (by rw [activePath, path]; rfl) (by simp) (by simp)
      (by rw [top]; simp) ?current (fun _ _ => by rw [proc]; exact ⟨rfl, rfl⟩)
      (fun _ _ => by rw [saved]) ?follows
    case current =>
      have current := thread.current
      rw [own] at current
      rw [proc]
      exact current
    case follows =>
      rw [activePath, path, proc]
      exact ⟨halts, child, Nat.zero_le _⟩
  case allocated =>
    intro other
    rw [proc]
    simp only [taken]
    by_cases isGone : other = s.proc.activePid
    · rw [isGone, Function.update_self]
      refine iff_of_false (by omega) ?_
      rintro (few | ⟨_, _, other⟩)
      · omega
      · exact other rfl
    · rw [Function.update_of_ne isGone, woven.allocated]
      simp [isGone]
  case free =>
    rw [proc]
    exact free_update woven.free s.proc.activePid fun _ => rfl

/-- `halt` makes the parent the active process. -/
theorem Woven.pops (woven : Woven s strands) {call : HaltCall}
    (own : (strands s.proc.activeTerminal).stage = .released)
    (halts : call.Halts s.proc.pcb (strands s.proc.activeTerminal).stack MAX_NUM_FILES)
    (parent : (strands s.proc.activeTerminal).stack.tail.head? = some call.parentPid)
    (proc : after.proc = { s.proc with activePid := call.parentPid })
    (path : after.running = .halt .locateParent call) (saved : after.saved = s.saved) :
    Advanced s after := by
  have thread := woven.thread s.proc.activeTerminal
  obtain ⟨below, stack⟩ : ∃ below, (strands s.proc.activeTerminal).stack =
      call.pid :: call.parentPid :: below := by
    have isTop := halts.top
    cases stack : (strands s.proc.activeTerminal).stack with
    | nil => simp [stack] at isTop
    | cons top rest =>
        cases rest with
        | nil => simp [stack] at parent
        | cons next below =>
            simp only [stack, List.head?_cons, List.tail_cons, Option.some.injEq] at isTop parent
            exact ⟨below, by rw [isTop, parent]⟩
  have ownedBefore : (strands s.proc.activeTerminal).owned =
      call.pid :: call.parentPid :: below := by
    simp [Strand.owned, own, Stage.reserved, stack]
  have owned : Strand.owned ⟨.leaving call.pid, call.parentPid :: below⟩ =
      call.parentPid :: below := by
    simp [Strand.owned, Stage.reserved]
  have taken (t : TerminalId) : (Function.update strands s.proc.activeTerminal
      ⟨.leaving call.pid, call.parentPid :: below⟩ t).taken = (strands t).taken := by
    by_cases this : t = s.proc.activeTerminal
    · subst this
      simp [Strand.taken, Strand.owned, own, Stage.reserved, stack]
    · rw [Function.update_of_ne this]
  have activePath : after.path s.proc.activeTerminal = after.running :=
    Interleaved.path_of_active (by rw [proc])
  refine woven.advance ⟨.leaving call.pid, call.parentPid :: below⟩
    (by rw [proc]) ?elsewhere ?wellFormed ?thread (by simp) (by rw [proc]; rfl)
    ?framed ?allocated (by rw [proc]; exact woven.free)
  case elsewhere => exact .of_same (by rw [proc]) (by rw [proc]) saved
  case wellFormed =>
    refine woven.wellFormed.update ?_ ?_ ?_ (fun _ isReserved => by cases isReserved)
    · rw [owned]
      exact woven.wellFormed.separate.pop ownedBefore
    · intro _
      have bottom := woven.wellFormed.root s.proc.activeTerminal (by simp [stack])
      rw [← bottom, stack, List.getLast?_cons_cons]
    · intro other owns
      rw [owned] at owns
      apply woven.wellFormed.member s.proc.activeTerminal
      rw [ownedBefore]
      exact List.mem_cons_of_mem _ owns
  case thread =>
    have links := thread.links
    have frames := thread.frames
    rw [stack] at links frames
    constructor
    case stage =>
      rw [activePath, path]
      rfl
    case alive => simp
    case idle => exact iff_of_false (by simp) (by simp)
    case current =>
      have current := thread.current
      rw [own, Strand.top_of_cons stack] at current
      rw [proc]
      exact current
    case links =>
      rw [proc]
      exact (List.isChain_cons_cons.mp links).2
    case terminal =>
      rw [proc]
      intro other mine
      refine thread.terminal other (mine.imp_right fun onStack => ?_)
      rw [stack]
      exact List.mem_cons_of_mem _ onStack
    case frames =>
      rw [saved]
      intro other isBelow
      exact frames other (List.mem_cons_of_mem _ isBelow)
    case follows =>
      rw [activePath, path]
      refine ⟨?_, ?_⟩
      · rw [← halts.lineage.1, (List.isChain_cons_cons.mp links).1]
        rfl
      · rw [← halts.lineage.2]
        exact thread.terminal call.pid (.inr (List.mem_of_mem_head? halts.top))
  case framed =>
    intro _
    rw [saved, proc]
    exact thread.frames call.parentPid (by simp [stack])
  case allocated =>
    intro other
    rw [proc]
    simp only [taken]
    exact woven.allocated other

end Moves

end LightOS.Kernel
