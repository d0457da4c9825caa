import LightOS.Kernel.Forest

/-! # The round of the terminals

`schedule` goes on from `active_terminal`, and `halt` and the boot routines store to it.
Since the parent of a process and the process itself are in one terminal, these stores
change nothing, and the timer visits the terminals in a fixed order whatever the
processes do in between.
-/

namespace LightOS.Kernel

open Lib Filesystem Descriptor

/-- The boot routines are only called by `schedule` and `halt`. -/
def Action.NoBootCall : Action → Prop
  | .bootEnter _ => False
  | _ => True

/-- The timer, the calls and the output of processes, and the keyboard, in any order. -/
def turnMachine (bootBlock : Option Image) : Machine State Action :=
  (kernel bootBlock).restrict fun _ action => action.NoBootCall

/-- The terminals that the `schedule` steps of a run select. -/
def selections (bootBlock : Option Image) : State → List Action → List TerminalId
  | _, [] => []
  | s, .schedule interrupted :: as =>
      (s.schedule interrupted).proc.activeTerminal ::
        selections bootBlock (s.schedule interrupted) as
  | s, a :: as => selections bootBlock (s.step bootBlock a) as

/-- Terminal 2, 3, 1, 2, 3, 1, … -/
def roundRobin (k : Nat) : TerminalId :=
  match k % 3 with
  | 0 => .terminal2
  | 1 => .terminal3
  | _ => .terminal1

/-- The step starts the root shell of `t` at its entry point. -/
def EntersRoot (bootBlock : Option Image) (s : State) (action : Action) (t : TerminalId) : Prop :=
  action.OfProcesses ∧ (∃ entryPoint, (s.step bootBlock action).control = .enterUser entryPoint) ∧
    (s.step bootBlock action).proc.activePid = t.number

/-- The active process is the top of the chain of its terminal: the links from it lead down to
    the root shell, and it is the parent of no live process. -/
structure OnTop (proc : Proc) : Prop where
  current : proc.activePid = proc.currentProcessId proc.activeTerminal
  chain : ∃ chain, ParentChain proc proc.activeTerminal chain
  childless : ∀ pid, 4 ≤ pid → pid ≤ 6 → proc.processes pid = 1 →
    (proc.pcb pid).parentPid ≠ proc.activePid

/-- What a step leaves of the turns: the active terminal, and which terminals have been
    entered. -/
structure KeepsTurn (before after : Proc) : Prop where
  terminal : after.activeTerminal = before.activeTerminal
  entered : ∀ t, after.currentProcessId t = 0 ↔ before.currentProcessId t = 0

section Forest

variable {s after : State} {bootBlock : Option Image} {sessions : Sessions} {action : Action}

/-- The parent of a live process that is not a root shell is below it in its stack. -/
theorem parent_in_tail {stack : List Nat} {parentPid : Nat → Nat}
    (links : stack.IsChain (fun child parent => parentPid child = parent)) {pid : Nat}
    (onStack : pid ∈ stack) (notLast : stack.getLast? ≠ some pid) :
    parentPid pid ∈ stack.tail := by
  induction stack with
  | nil => cases onStack
  | cons top rest ih =>
      cases rest with
      | nil =>
          obtain rfl := List.mem_singleton.mp onStack
          exact absurd rfl notLast
      | cons below rest =>
          rw [List.isChain_cons_cons] at links
          rcases List.mem_cons.mp onStack with rfl | later
          · rw [links.1]
            exact List.mem_cons_self ..
          · rw [List.getLast?_cons_cons] at notLast
            exact List.mem_of_mem_tail (ih links.2 later notLast)

theorem Forest.onTop {proc : Proc} (forest : Forest proc sessions) (active : proc.activePid ≠ 0) :
    OnTop proc := by
  have occupied : proc.currentProcessId proc.activeTerminal ≠ 0 := forest.active ▸ active
  refine ⟨forest.active, ⟨_, forest.parentChain occupied⟩, ?_⟩
  intro pid child small taken isParent
  obtain ⟨u, onStack⟩ := ((forest.allocated pid).mp taken).resolve_left (by omega)
  have notRoot : (sessions u).getLast? ≠ some pid := by
    rw [forest.wellFormed.root u (List.ne_nil_of_mem onStack)]
    obtain ⟨_, few⟩ := State.number_range u
    intro same
    have := Option.some.inj same
    omega
  have below := parent_in_tail (forest.links u) onStack notRoot
  obtain ⟨rest, top⟩ := forest.top occupied
  rw [isParent, forest.active] at below
  have same := forest.wellFormed.separate.unique u proc.activeTerminal _
    (List.mem_of_mem_tail below) (by simp [top])
  subst same
  have nodup := forest.wellFormed.separate.nodup proc.activeTerminal
  rw [top] at nodup below
  exact (List.nodup_cons.mp nodup).1 below

/-- A step of the keyboard or of a running program leaves the tables alone. -/
theorem Outcome.proc_kept (outcome : Outcome bootBlock s action after)
    (noBoot : action.NoBootCall) (other : ¬ action.OfProcesses) :
    (Faulting s action ∧ after.faulted = true) ∨ after.proc = s.proc := by
  cases outcome with
  | putc output | clear output | echo output | echoBack output | echoClear output => exact .inr rfl
  | userStore writes | kernelCopy writes => exact .inr rfl
  | switchSame same | switchTo unlike shown => exact .inr rfl
  | enter switched => cases noBoot
  | first | next | root | child | rejected | full | started => exact absurd trivial other
  | fault faulting faults elsewhere => exact .inl ⟨faulting, faults⟩

/-- `execute` and `halt` stay in their terminal. -/
theorem Outcome.keepsTurn (outcome : Outcome bootBlock s action after)
    (kind : action.OfProcesses) (notTimer : ∀ interrupted, action ≠ .schedule interrupted)
    (active : s.proc.activePid ≠ 0) (sound : Sound s) (forest : Forest s.proc sessions) :
    KeepsTurn s.proc after.proc := by
  have occupied : s.proc.currentProcessId s.proc.activeTerminal ≠ 0 := forest.active ▸ active
  have updated (pid : Nat) (positive : pid ≠ 0) (t : TerminalId) :
      Function.update s.proc.currentProcessId s.proc.activeTerminal pid t = 0 ↔
        s.proc.currentProcessId t = 0 := by
    by_cases own : t = s.proc.activeTerminal
    · subst own
      simp [occupied, positive]
    · rw [Function.update_of_ne own]
  cases outcome with
  | putc | clear | echo | echoBack | echoClear | userStore | kernelCopy => cases kind
  | switchSame | switchTo | enter => cases kind
  | first | next => exact absurd rfl (notTimer _)
  | @root _ t _ _ _ root switched =>
      have own := forest.root_own root
      subst own
      obtain ⟨positive, _⟩ := State.number_range s.proc.activeTerminal
      exact ⟨rfl, updated _ (by omega)⟩
  | @child _ t _ child terminal switched =>
      have own := forest.parent_own child terminal
      subst own
      obtain ⟨created, lineage⟩ := sound.lineage
      obtain ⟨positive, _⟩ := lineage.range _ (lineage.parent _ (lineage.active active) child)
      exact ⟨rfl, updated _ (by omega)⟩
  | rejected | full => exact ⟨rfl, fun _ => Iff.rfl⟩
  | @started _ _ _ _ _ pid _ _ _ _ _ _ _ child small notFull switched writes =>
      exact ⟨rfl, updated _ (by omega)⟩
  | fault faulting faults elsewhere => exact absurd faulting (forest.calm kind)

/-- `schedule` goes on to the next terminal and makes its current process the active one. -/
theorem schedule_turn (sound : Sound s) (interrupted : Context) :
    let t := nextTerminal s.proc.activeTerminal
    let after := s.schedule interrupted
    after.proc.activeTerminal = t ∧ after.proc.activePid ≠ 0 ∧
      (∀ u, after.proc.currentProcessId u = 0 ↔ s.proc.currentProcessId u = 0 ∧ u ≠ t) ∧
      ((∃ entryPoint, after.control = .enterUser entryPoint) ↔ s.proc.currentProcessId t = 0) ∧
      (s.proc.currentProcessId t = 0 → after.proc.activePid = t.number) := by
  intro t
  have outcome : Outcome none s (.schedule interrupted) (s.schedule interrupted) :=
    State.schedule_outcome sound interrupted
  generalize s.schedule interrupted = after at outcome ⊢
  cases outcome with
  | @first _ u _ entryPoint next idle switched =>
      obtain rfl : t = u := next
      obtain ⟨positive, _⟩ := State.number_range t
      have entered :
          ((s.proc.storeContext (precedingRoot t) interrupted).entered t).currentProcessId =
            Function.update s.proc.currentProcessId t t.number := rfl
      refine ⟨rfl, by simp only [Proc.entered]; omega, ?_, ⟨fun _ => idle, fun _ => ⟨_, rfl⟩⟩,
        fun _ => rfl⟩
      intro u
      rw [entered]
      by_cases same : u = t
      · subst same
        simp
        omega
      · simp [same]
  | @next _ u _ next occupied switched =>
      obtain rfl : t = u := next
      refine ⟨rfl, occupied, ?_, ?_, fun idle => absurd idle occupied⟩
      · intro u
        constructor
        · intro idle
          exact ⟨idle, fun same => occupied (same ▸ idle)⟩
        · exact And.left
      · simp [occupied]
  | fault faulting faults elsewhere => exact absurd faulting id

/-- A step that is not the timer's keeps the turn, unless it faults. -/
theorem step_keepsTurn (forested : Forested s) (able : s.able action)
    (noBoot : action.NoBootCall) (notTimer : ∀ interrupted, action ≠ .schedule interrupted) :
    (s.step bootBlock action).faulted = true ∨
      (Forested (s.step bootBlock action) ∧ KeepsTurn s.proc (s.step bootBlock action).proc) := by
  have outcome : Outcome bootBlock s action (s.step bootBlock action) :=
    State.step_outcome forested.sound able
  obtain ⟨sessions, forest⟩ := forested.forest
  by_cases kind : action.OfProcesses
  · have active : s.proc.activePid ≠ 0 := by
      cases action with
      | schedule interrupted => exact absurd rfl (notTimer interrupted)
      | execute | halt => exact able.2
      | _ => cases kind
    exact .inr ⟨outcome.forested kind forested,
      outcome.keepsTurn kind notTimer active forested.sound forest⟩
  · rcases outcome.proc_kept noBoot kind with ⟨_, faults⟩ | kept
    · exact .inl faults
    · rcases outcome.sound forested.sound with ⟨_, faults⟩ | sound
      · exact .inl faults
      · rw [kept]
        exact .inr ⟨⟨sound, sessions, kept ▸ forest⟩, rfl, fun _ => Iff.rfl⟩

/-- A root shell is started by the timer where its terminal has not been entered, and by its own
    `halt`. -/
theorem entersRoot_iff (forested : Forested s) (able : s.able action) (t : TerminalId) :
    EntersRoot bootBlock s action t ↔
      ((∃ interrupted, action = .schedule interrupted) ∧
          nextTerminal s.proc.activeTerminal = t ∧ s.proc.currentProcessId t = 0) ∨
        (∃ status, action = .halt status) ∧ s.proc.activePid = t.number := by
  obtain ⟨sessions, forest⟩ := forested.forest
  obtain ⟨_, few⟩ := State.number_range t
  cases action with
  | schedule interrupted =>
      obtain ⟨_, _, _, enters, number⟩ := schedule_turn forested.sound interrupted
      simp only [EntersRoot, State.step, Action.OfProcesses, true_and, enters, reduceCtorEq,
        exists_false, false_and, or_false, Action.schedule.injEq, exists_eq']
      constructor
      · rintro ⟨idle, same⟩
        rw [number idle] at same
        have own := TerminalId.number_injective same
        exact ⟨own, own ▸ idle⟩
      · rintro ⟨rfl, idle⟩
        exact ⟨idle, number idle⟩
  | execute stack command caller =>
      have outcome : Outcome bootBlock s (.execute stack command caller)
          (s.syscallExecute bootBlock stack command caller) :=
        State.execute_outcome forested.sound able.2 stack command caller
      simp only [EntersRoot, State.step, reduceCtorEq, exists_false, false_and, or_self, iff_false]
      generalize s.syscallExecute bootBlock stack command caller = after at outcome ⊢
      rintro ⟨_, ⟨entryPoint, enters⟩, root⟩
      cases outcome with
      | rejected | full => cases enters
      | started _ _ _ child =>
          simp only [Proc.started] at root
          omega
      | fault faulting => exact faulting
  | halt status =>
      have outcome : Outcome bootBlock s (.halt status) (s.syscallHalt status) :=
        State.halt_outcome forested.sound able.2 status
      simp only [EntersRoot, State.step, Action.OfProcesses, true_and, reduceCtorEq, exists_false,
        false_and, false_or, Action.halt.injEq, exists_eq']
      generalize s.syscallHalt status = after at outcome ⊢
      cases outcome with
      | root root switched =>
          simp only [Proc.entered, root]
          exact and_iff_right ⟨_, rfl⟩
      | child child terminal switched =>
          simp only [reduceCtorEq, exists_false, false_and, false_iff]
          omega
      | fault faulting => exact absurd faulting (forest.calm trivial)
  | _ => simp [EntersRoot, Action.OfProcesses]

end Forest

section Runs

variable {s later : State} {bootBlock : Option Image} {as : List Action}

theorem nextTerminal_roundRobin (m : Nat) :
    nextTerminal (roundRobin m) = roundRobin (m + 1) := by
  obtain zero | one | two : m % 3 = 0 ∨ m % 3 = 1 ∨ m % 3 = 2 := by omega
  · have after : (m + 1) % 3 = 1 := by omega
    simp only [roundRobin, zero, after, nextTerminal]
  · have after : (m + 1) % 3 = 2 := by omega
    simp only [roundRobin, one, after, nextTerminal]
  · have after : (m + 1) % 3 = 0 := by omega
    simp only [roundRobin, two, after, nextTerminal]

theorem selections_cons {action : Action}
    (notTimer : ∀ interrupted, action ≠ .schedule interrupted) :
    selections bootBlock s (action :: as) = selections bootBlock (s.step bootBlock action) as := by
  cases action with
  | schedule interrupted => exact absurd rfl (notTimer interrupted)
  | _ => simp only [selections]

/-- From a state whose next terminal is number `m` of the round, a run selects the terminals
    from number `m` on, and the terminals it selects are those that it enters. -/
theorem selections_of_run (run : (turnMachine bootBlock).Run s as later) (forested : Forested s)
    {m : Nat} (next : nextTerminal s.proc.activeTerminal = roundRobin m) :
    let n := (selections bootBlock s as).length
    selections bootBlock s as = (List.range' m n).map roundRobin ∧
      (later.faulted = true ∨ (Forested later ∧
        nextTerminal later.proc.activeTerminal = roundRobin (m + n) ∧
        ∀ t, later.proc.currentProcessId t = 0 ↔
          s.proc.currentProcessId t = 0 ∧ t ∉ selections bootBlock s as)) := by
  induction run generalizing m with
  | nil s => exact ⟨rfl, .inr ⟨forested, next, fun t => by simp [selections]⟩⟩
  | @cons s action as later able rest ih =>
      obtain ⟨able, noBoot⟩ := able
      have stepped : (turnMachine bootBlock).next s action = s.step bootBlock action := rfl
      rw [stepped] at rest ih
      by_cases timer : ∃ interrupted, action = .schedule interrupted
      · obtain ⟨interrupted, rfl⟩ := timer
        obtain ⟨selected, _, entered, _⟩ := schedule_turn forested.sound interrupted
        have outcome : Outcome bootBlock s (.schedule interrupted) (s.schedule interrupted) :=
          State.schedule_outcome forested.sound interrupted
        have forested' : Forested (s.schedule interrupted) := outcome.forested trivial forested
        rw [next] at selected entered
        have next' : nextTerminal (s.schedule interrupted).proc.activeTerminal =
            roundRobin (m + 1) := by rw [selected, nextTerminal_roundRobin]
        obtain ⟨order, last⟩ := ih forested' next'
        simp only [selections, List.length_cons]
        constructor
        · rw [selected, List.range'_succ, List.map_cons]
          exact congrArg _ order
        · refine last.imp_right ?_
          rintro ⟨forested'', turn, idle⟩
          refine ⟨forested'', ?_, fun t => ?_⟩
          · rw [turn, Nat.add_assoc, Nat.add_comm 1]
            rfl
          · rw [idle t, selected, List.mem_cons]
            simp only [State.step, entered t]
            tauto
      · have notTimer : ∀ interrupted, action ≠ .schedule interrupted :=
          fun interrupted same => timer ⟨interrupted, same⟩
        rw [selections_cons notTimer]
        have turn : (s.step bootBlock action).faulted = true ∨
            (Forested (s.step bootBlock action) ∧
              KeepsTurn s.proc (s.step bootBlock action).proc) :=
          step_keepsTurn forested able noBoot notTimer
        rcases turn with faults | ⟨forested', keeps⟩
        · -- no step comes after a fault
          cases rest with
          | nil => exact ⟨rfl, .inl faults⟩
          | cons able' _ =>
              rw [able'.1.1] at faults
              cases faults
        · obtain ⟨order, last⟩ := ih forested' (by rw [keeps.terminal]; exact next)
          refine ⟨order, last.imp_right ?_⟩
          rintro ⟨forested'', turn, idle⟩
          exact ⟨forested'', turn, fun t => by rw [idle t, keeps.entered]⟩

/-- Three terminals in a row of the round are all three. -/
theorem count_window {visited : List TerminalId}
    (order : visited = (List.range visited.length).map roundRobin) {k : Nat}
    (inside : k + 3 ≤ visited.length) (t : TerminalId) :
    ((visited.drop k).take 3).count t = 1 := by
  have window : (visited.drop k).take 3 =
      [roundRobin k, roundRobin (k + 1), roundRobin (k + 2)] := by
    apply List.ext_getElem
    · simp
      omega
    · intro i small _
      have within : i < 3 := by simp at small; omega
      have entry : ((visited.drop k).take 3)[i] = roundRobin (k + i) := by
        rw [List.getElem_take, List.getElem_drop, List.getElem_of_eq order]
        simp
      rw [entry]
      obtain rfl | rfl | rfl : i = 0 ∨ i = 1 ∨ i = 2 := by omega
      all_goals rfl
  rw [window, ← nextTerminal_roundRobin (k + 1), ← nextTerminal_roundRobin k]
  cases roundRobin k <;> cases t <;> decide

/-- From the `hlt` loop of `entry` on, when the three shells have been found: whatever happens
    between its steps, the timer selects terminals 2, 3, 1, 2, 3, 1, …, every three steps
    each once; what it selects is the top of the terminal's chain; and a root shell is
    started when its terminal is selected for the first time, and again by its own `halt`. -/
theorem timer_goes_round (on : PowerOn s) {buffers : TerminalId → List UInt8}
    (found : ∀ t, ShellFound bootBlock (buffers t))
    (run : (turnMachine bootBlock).Run (s.entry bootBlock buffers) as later) :
    let visited := selections bootBlock (s.entry bootBlock buffers) as
    visited = (List.range visited.length).map roundRobin ∧
      (∀ k, k + 3 ≤ visited.length → ∀ t, ((visited.drop k).take 3).count t = 1) ∧
      ∀ action, (turnMachine bootBlock).enabled later action →
        (∀ interrupted, action = .schedule interrupted →
          (later.schedule interrupted).proc.activeTerminal = roundRobin visited.length ∧
            OnTop (later.schedule interrupted).proc) ∧
        ∀ t, EntersRoot bootBlock later action t ↔
          ((∃ interrupted, action = .schedule interrupted) ∧ roundRobin visited.length = t ∧
              t ∉ visited) ∨
            (∃ status, action = .halt status) ∧ later.proc.activePid = t.number := by
  obtain ⟨fresh, roots⟩ := on.entry_fresh bootBlock buffers
  have forested := fresh.forested (roots found)
  have next : nextTerminal (s.entry bootBlock buffers).proc.activeTerminal = roundRobin 0 := by
    rw [fresh.activeTerminal]
    rfl
  obtain ⟨order, last⟩ := selections_of_run run forested next
  rw [← List.range_eq_range'] at order
  refine ⟨order, fun k inside t => count_window order inside t, ?_⟩
  rintro action ⟨able, noBoot⟩
  obtain ⟨forested', turn, idle⟩ := last.resolve_left (by rw [able.1]; exact Bool.false_ne_true)
  rw [Nat.zero_add] at turn
  constructor
  · rintro interrupted rfl
    obtain ⟨selected, active, _⟩ := schedule_turn forested'.sound interrupted
    have outcome : Outcome bootBlock later (.schedule interrupted) (later.schedule interrupted) :=
      State.schedule_outcome forested'.sound interrupted
    obtain ⟨sessions, forest⟩ := (outcome.forested trivial forested').forest
    exact ⟨selected.trans turn, forest.onTop active⟩
  · intro t
    have notEntered : later.proc.currentProcessId t = 0 ↔
        t ∉ selections bootBlock (s.entry bootBlock buffers) as := by
      rw [idle t, fresh.current]
      exact and_iff_right rfl
    rw [entersRoot_iff forested' able t, turn, notEntered]

end Runs

/-- Five ticks of the timer, with calls of the processes and the keyboard in between. -/
def fiveTicks : List Action :=
  [.schedule ⟨0x7FFF00, 0x7FFF80⟩, .putc 0x61, .execute [] State.shellName ⟨0x7FDF00, 0x7FDF80⟩,
    .schedule ⟨0x7F7F00, 0x7F7F80⟩, .echo 0x62, .userStore VIRTUAL_128MB_START 1,
    .schedule ⟨0x7FBF00, 0x7FBF80⟩, .switchTo .terminal2, .schedule ⟨0x7FFF00, 0x7FFF80⟩, .halt 0,
    .schedule ⟨0x7FDF00, 0x7FDF80⟩]

theorem shells_started_in_turn :
    ∃ later, (turnMachine (some shellImage)).Run (poweredOn.entry (some shellImage) (fun _ => []))
        fiveTicks later ∧
      selections (some shellImage) (poweredOn.entry (some shellImage) (fun _ => [])) fiveTicks =
        [.terminal2, .terminal3, .terminal1, .terminal2, .terminal3] ∧
      ∀ action, (turnMachine (some shellImage)).enabled later action →
        ∀ t, EntersRoot (some shellImage) later action t ↔
          (∃ status, action = .halt status) ∧ later.proc.activePid = t.number := by
  have found (_ : TerminalId) : ShellFound (some shellImage) [] := shellImage_found []
  obtain ⟨later, run, _⟩ : ∃ later, (turnMachine (some shellImage)).Run
      (poweredOn.entry (some shellImage) (fun _ => [])) fiveTicks later ∧ Going later :=
    poweredOn_powerOn.run (some shellImage) found _ trivial
      (by simp [Action.InUserPage, Action.NoBootCall, State.inUserPage])
  obtain ⟨order, _, next⟩ := timer_goes_round poweredOn_powerOn found run
  have count : (selections (some shellImage) (poweredOn.entry (some shellImage) (fun _ => []))
      fiveTicks).length = 5 := rfl
  rw [count] at order
  refine ⟨later, run, order, fun action able t => ?_⟩
  have visited : t ∈ (List.range 5).map roundRobin := by cases t <;> decide
  rw [(next action able).2 t, order]
  exact or_iff_right fun first => first.2.2 visited

end LightOS.Kernel
