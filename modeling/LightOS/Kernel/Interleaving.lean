import LightOS.Kernel.Statements

/-! # Runs of the preempted kernel

The timer, and whole runs: in every run from the end of `entry` whose steps are `Orderly`, the
state is woven.
-/

namespace LightOS.Kernel

open Lib Filesystem Descriptor

section Timer

variable {s : Interleaved} {strands : TerminalId → Strand} {t u : TerminalId}

theorem nextTerminal_ne (t : TerminalId) : nextTerminal t ≠ t := by
  cases t <;> decide

theorem precedingRoot_next (t : TerminalId) : precedingRoot (nextTerminal t) = t.number := by
  cases t <;> rfl

theorem Woven.stack_empty (woven : Woven s strands) (other : t ≠ s.proc.activeTerminal)
    (idle : s.proc.currentProcessId t = 0) : (strands t).stack = [] := by
  cases stack : (strands t).stack with
  | nil => rfl
  | cons pid rest =>
      have owns : pid ∈ (strands t).owned := Strand.mem_owned.mpr (.inr (by simp [stack]))
      obtain ⟨positive, _⟩ := woven.wellFormed.nonzero owns
      rw [woven.suspended_current other, Strand.top_of_cons stack] at idle
      omega

/-- What the control block of a suspended terminal leads back to. -/
theorem Woven.suspended_path (woven : Woven s strands) (other : t ≠ s.proc.activeTerminal)
    (entered : s.proc.currentProcessId t ≠ 0) :
    s.saved (s.proc.currentProcessId t) = some (.path (s.path t)) := by
  obtain ⟨rest, top⟩ := woven.suspended_top other entered
  obtain ⟨path, saved⟩ := (woven.suspended t other).2 _ (by rw [top]; rfl)
  simp [Interleaved.path, other, entered, saved]

theorem Path.idle_of_stage {path : Path} (idle : path.stage = .idle) : path = .idle := by
  cases path with
  | idle => rfl
  | user | lost => cases idle
  | execute pc call => exact absurd idle (pc.stage_busy call.newProcessId).1
  | halt pc call => exact absurd idle (pc.stage_busy call.pid).1

/-- The interrupted path is the one to resume in its terminal. -/
theorem Woven.active_current (woven : Woven s strands) (safe : s.running.exposed = false) :
    (strands s.proc.activeTerminal).stage.suspendable = true ∧
      s.proc.currentProcessId s.proc.activeTerminal = s.proc.activePid := by
  have alive := (woven.thread s.proc.activeTerminal).alive
  rw [woven.running_stage] at alive
  have suspendable := Path.suspendable_of_safe alive safe
  rw [← woven.running_stage] at suspendable
  refine ⟨suspendable, ?_⟩
  rw [(woven.thread s.proc.activeTerminal).current, woven.active]
  exact Stage.current_of_suspendable suspendable _

theorem Proc.storeContext_kin (proc : Proc) (pid other : Nat) (context : Context) :
    ((proc.storeContext pid context).pcb other).SameKin (proc.pcb other) := by
  by_cases this : other = pid
  · simp only [Proc.storeContext, Proc.setPcb, this, Function.update_self]
    exact ⟨rfl, rfl, rfl⟩
  · simp only [Proc.storeContext, Proc.setPcb, Function.update_of_ne this]
    exact .refl _

/-- The timer suspends the running path and resumes that of the next terminal. -/
theorem Woven.resumes (woven : Woven s strands) {interrupted : Context}
    (safe : ¬ Spoils s (.timer interrupted))
    (entered : s.proc.currentProcessId (nextTerminal s.proc.activeTerminal) ≠ 0) :
    Woven (s.timer interrupted) strands ∧ ∀ u, (s.timer interrupted).path u = s.path u := by
  have next := nextTerminal_ne s.proc.activeTerminal
  generalize isNext : nextTerminal s.proc.activeTerminal = t at next entered
  obtain ⟨rest, top⟩ := woven.suspended_top next entered
  have nonempty : (strands s.proc.activeTerminal).stack ≠ [] := by
    intro empty
    have allEmpty := woven.booted empty t
    rw [top] at allEmpty
    cases allEmpty
  have notIdle : (strands s.proc.activeTerminal).stage ≠ .idle :=
    fun idle => nonempty ((woven.thread s.proc.activeTerminal).idle.mpr idle)
  obtain ⟨suspendable, current⟩ := woven.active_current (by
    by_contra exposed
    exact safe (.inl (by simpa using exposed)))
  have activeOwned := woven.active_owned notIdle
  have nextOwned : s.proc.currentProcessId t ∈ (strands t).owned :=
    Strand.mem_owned.mpr (.inr (by rw [top]; exact List.mem_cons_self ..))
  have apart {u : TerminalId} {pid : Nat} (foreign : u ≠ s.proc.activeTerminal)
      (owns : pid ∈ (strands u).owned) : pid ≠ s.proc.activePid :=
    fun same => foreign (woven.wellFormed.separate.unique u _ _ owns (same ▸ activeOwned))
  have apartNext {u : TerminalId} {pid : Nat} (foreign : u ≠ t)
      (owns : pid ∈ (strands u).owned) : pid ≠ s.proc.currentProcessId t :=
    fun same => foreign (woven.wellFormed.separate.unique u _ _ owns (same ▸ nextOwned))
  have result : s.timer interrupted =
      { proc := s.proc.rotated interrupted
        running := s.path t
        saved := Function.update (Function.update s.saved s.proc.activePid
          (some (.path s.running))) (s.proc.currentProcessId t) none } := by
    simp only [Interleaved.timer, Interleaved.interruptedPcb, isNext, ne_eq, entered,
      not_false_eq_true, if_true, if_false]
    rw [Function.update_of_ne (apart next nextOwned), woven.suspended_path next entered]
  rw [result]
  generalize isAfter : Interleaved.mk (s.proc.rotated interrupted) (s.path t) _ = after
  have activeTerminal : after.proc.activeTerminal = t := by
    rw [← isAfter]
    exact isNext
  have same : after.proc.currentProcessId = s.proc.currentProcessId := by
    rw [← isAfter]
    rfl
  have kin (pid : Nat) : (after.proc.pcb pid).SameKin (s.proc.pcb pid) := by
    rw [← isAfter]
    exact s.proc.storeContext_kin s.proc.activePid pid interrupted
  have kept {pid : Nat} (notActive : pid ≠ s.proc.activePid)
      (notNext : pid ≠ s.proc.currentProcessId t) : after.saved pid = s.saved pid := by
    rw [← isAfter]
    simp only [Function.update_of_ne notNext, Function.update_of_ne notActive]
  have stored : after.saved s.proc.activePid = some (.path s.running) := by
    rw [← isAfter]
    simp only [Function.update_of_ne (Ne.symm (apart next nextOwned)), Function.update_self]
  have paths (u : TerminalId) : after.path u = s.path u := by
    by_cases isT : u = t
    · rw [isT, ← activeTerminal, Interleaved.path_active, activeTerminal, ← isAfter]
    · by_cases isActive : u = s.proc.activeTerminal
      · have positive := (woven.wellFormed.nonzero activeOwned).1
        have notZero : s.proc.activePid ≠ 0 := by omega
        rw [isActive] at isT
        simp only [Interleaved.path, activeTerminal, isActive, if_neg isT, same, current,
          if_neg notZero, stored, if_true]
      · exact woven.path_suspended isActive (activeTerminal ▸ isT) (by rw [same])
          fun pid owns => kept (apart isActive owns) (apartNext isT owns)
  refine ⟨?_, paths⟩
  constructor
  case wellFormed => exact woven.wellFormed
  case thread =>
    intro u
    refine (woven.thread u).of_elsewhere (paths u) (by rw [same]) (fun pid _ => kin pid)
      fun pid below => ?_
    have owns : pid ∈ (strands u).owned :=
      Strand.mem_owned.mpr (.inr (List.mem_of_mem_tail below))
    apply kept
    · by_cases isActive : u = s.proc.activeTerminal
      · rw [isActive] at below
        exact fun same => woven.active_not_below notIdle (same ▸ below)
      · exact apart isActive owns
    · by_cases isT : u = t
      · have nodup := woven.wellFormed.stack_nodup t
        rw [top, List.nodup_cons] at nodup
        rw [isT, top] at below
        exact fun same => nodup.1 (same ▸ below)
      · exact apartNext isT owns
  case suspended =>
    intro u other
    rw [activeTerminal] at other
    by_cases isActive : u = s.proc.activeTerminal
    · rw [isActive]
      refine ⟨suspendable, fun pid isTop => ⟨s.running, ?_⟩⟩
      have sameTop := isTop.symm.trans (woven.active_top notIdle)
      rw [Option.some.inj sameTop, stored]
    · obtain ⟨suspendable, saved⟩ := woven.suspended u isActive
      refine ⟨suspendable, fun pid isTop => ?_⟩
      have owns : pid ∈ (strands u).owned :=
        Strand.mem_owned.mpr (.inr (List.mem_of_mem_head? isTop))
      rw [kept (apart isActive owns) (apartNext other owns)]
      exact saved pid isTop
  case active =>
    rw [activeTerminal, ← woven.suspended_current next, ← isAfter, ← isNext]
    rfl
  case booted =>
    rw [activeTerminal, top]
    exact fun empty => by cases empty
  case framed =>
    rw [activeTerminal]
    intro holds
    rw [Stage.frameless_of_suspendable (woven.suspended t next).1] at holds
    cases holds
  case allocated =>
    rw [← isAfter]
    exact woven.allocated
  case free =>
    rw [← isAfter]
    exact woven.free

/-- Without an active process nothing runs. -/
theorem Woven.idle_of_zero (woven : Woven s strands) (zero : s.proc.activePid = 0) :
    s.running = .idle := by
  apply Path.idle_of_stage
  rw [← woven.running_stage]
  apply (woven.thread s.proc.activeTerminal).idle.mp
  cases stack : (strands s.proc.activeTerminal).stack with
  | nil => rfl
  | cons pid rest =>
      have owns : pid ∈ (strands s.proc.activeTerminal).owned :=
        Strand.mem_owned.mpr (.inr (by simp [stack]))
      obtain ⟨positive, _⟩ := woven.wellFormed.nonzero owns
      rw [woven.active, Strand.top_of_cons stack] at zero
      omega

/-- A terminal gets its root shell. -/
theorem StrandsWellFormed.enters (wellFormed : StrandsWellFormed strands)
    (empty : (strands t).owned = []) :
    StrandsWellFormed (Function.update strands t ⟨.settled, [t.number]⟩) := by
  have owned : Strand.owned ⟨.settled, [t.number]⟩ = t.number :: (strands t).owned := by
    rw [empty]
    rfl
  refine wellFormed.update ?_ (fun _ => rfl) ?_ (fun _ isReserved => by cases isReserved)
  · have new (u : TerminalId) : t.number ∉ (strands u).owned := by
      by_cases this : u = t
      · simp [this, empty]
      · exact wellFormed.root_elsewhere (Ne.symm this)
    rw [owned]
    exact wellFormed.separate.push new t
  · intro pid owns
    rw [owned, empty, List.mem_singleton] at owns
    exact .inl owns

/-- Its root shell runs in user code. -/
theorem Thread.of_user (path : s.path t = .user) (current : s.proc.currentProcessId t = t.number)
    (terminal : (s.proc.pcb t.number).terminal = some t) :
    Thread s t ⟨.settled, [t.number]⟩ where
  stage := by
    rw [path]
    rfl
  alive := by simp
  idle := by simp
  current := current
  links := .singleton _
  terminal pid mine := by
    obtain rfl : pid = t.number := mine.elim id fun onStack => by simpa using onStack
    exact terminal
  frames pid below := by cases below
  follows := by
    rw [path]
    trivial

/-- The pool has had its root shell all along. -/
theorem Woven.allocated_entered (woven : Woven s strands) (stage : (strands t).stage = .idle)
    (empty : (strands t).stack = []) (pid : Nat) : s.proc.processes pid = 1 ↔ pid ≤ 3 ∨
      ∃ u, pid ∈ (Function.update strands t ⟨.settled, [t.number]⟩ u).taken := by
  have taken (u : TerminalId) :
      pid ∈ (Function.update strands t ⟨.settled, [t.number]⟩ u).taken ↔
        pid ∈ (strands u).taken ∨ (u = t ∧ pid = t.number) := by
    by_cases this : u = t
    · subst this
      simp [Strand.taken, Strand.owned, stage, empty, Stage.reserved]
    · simp [this]
  obtain ⟨_, few⟩ := State.number_range t
  rw [woven.allocated]
  simp only [taken]
  constructor
  · rintro (small | ⟨u, isTaken⟩)
    · exact .inl small
    · exact .inr ⟨u, .inl isTaken⟩
  · rintro (small | ⟨u, isTaken | ⟨_, isRoot⟩⟩)
    · exact .inl small
    · exact .inr ⟨u, isTaken⟩
    · exact .inl (by omega)

/-- The timer enters a terminal for the first time. -/
theorem Woven.enters (woven : Woven s strands) {interrupted : Context}
    (safe : ¬ Spoils s (.timer interrupted))
    (idle : s.proc.currentProcessId (nextTerminal s.proc.activeTerminal) = 0) :
    Woven (s.timer interrupted) (Function.update strands (nextTerminal s.proc.activeTerminal)
        ⟨.settled, [(nextTerminal s.proc.activeTerminal).number]⟩) ∧
      s.path (nextTerminal s.proc.activeTerminal) = .idle ∧
      (s.timer interrupted).path (nextTerminal s.proc.activeTerminal) = .user ∧
      ∀ u, u ≠ nextTerminal s.proc.activeTerminal → (s.timer interrupted).path u = s.path u := by
  have next := nextTerminal_ne s.proc.activeTerminal
  have isRoot := precedingRoot_next s.proc.activeTerminal
  generalize isNext : nextTerminal s.proc.activeTerminal = t at next idle isRoot
  obtain ⟨suspendable, current⟩ := woven.active_current (by
    by_contra exposed
    exact safe (.inl (by simpa using exposed)))
  have activeRoot : s.proc.activePid = 0 ∨ s.proc.activePid = s.proc.activeTerminal.number := by
    by_contra other
    obtain ⟨notZero, notRoot⟩ := not_or.mp other
    refine safe (.inr ⟨by rw [isNext, idle], notZero, ?_⟩)
    rw [isNext, isRoot]
    exact notRoot
  have empty := woven.stack_empty next idle
  have stage := (woven.thread t).idle.mp empty
  have emptyOwned : (strands t).owned = [] := by simp [Strand.owned, stage, empty, Stage.reserved]
  have apart {u : TerminalId} {pid : Nat} (foreign : u ≠ s.proc.activeTerminal)
      (owns : pid ∈ (strands u).owned) : pid ≠ s.proc.activeTerminal.number :=
    fun same => woven.wellFormed.root_elsewhere (Ne.symm foreign) (same ▸ owns)
  have result : s.timer interrupted =
      { proc := (s.proc.storeContext s.proc.activeTerminal.number interrupted).entered t
        running := .user
        saved :=
          Function.update s.saved s.proc.activeTerminal.number (some (.path s.running)) } := by
    simp only [Interleaved.timer, Interleaved.interruptedPcb, isNext, idle, ne_eq, not_true,
      if_true, if_false, isRoot]
  rw [result]
  generalize isAfter : Interleaved.mk _ .user _ = after
  have activeTerminal : after.proc.activeTerminal = t := by rw [← isAfter]; rfl
  have same {u : TerminalId} (other : u ≠ t) :
      after.proc.currentProcessId u = s.proc.currentProcessId u := by
    rw [← isAfter]
    exact Function.update_of_ne other _ _
  have kin (pid : Nat) : (after.proc.pcb pid).SameKin (s.proc.pcb pid) := by
    rw [← isAfter]
    exact s.proc.storeContext_kin s.proc.activeTerminal.number pid interrupted
  have kept {pid : Nat} (other : pid ≠ s.proc.activeTerminal.number) :
      after.saved pid = s.saved pid := by
    rw [← isAfter]
    exact Function.update_of_ne other _ _
  have stored : after.saved s.proc.activeTerminal.number = some (.path s.running) := by
    rw [← isAfter]
    exact Function.update_self ..
  have pathT : after.path t = .user := by
    rw [← activeTerminal, Interleaved.path_active, ← isAfter]
  have paths (u : TerminalId) (other : u ≠ t) : after.path u = s.path u := by
    by_cases isActive : u = s.proc.activeTerminal
    · rw [isActive] at other ⊢
      rcases activeRoot with zero | root
      · have noProcess := woven.idle_of_zero zero
        simp [Interleaved.path, activeTerminal, other, same other, current, zero, noProcess]
      · obtain ⟨positive, _⟩ := State.number_range s.proc.activeTerminal
        have notZero : s.proc.activeTerminal.number ≠ 0 := by omega
        simp [Interleaved.path, activeTerminal, other, same other, current, root, notZero, stored]
    · exact woven.path_suspended isActive (activeTerminal ▸ other) (same other)
        fun pid owns => kept (apart isActive owns)
  refine ⟨?_, ?_, pathT, paths⟩
  · constructor
    case wellFormed => exact woven.wellFormed.enters emptyOwned
    case thread =>
      intro u
      by_cases this : u = t
      · subst this
        rw [Function.update_self]
        refine .of_user pathT ?_ ?_
        · rw [← isAfter]
          exact Function.update_self ..
        · rw [(kin u.number).terminal]
          exact (woven.thread u).terminal u.number (.inl rfl)
      · rw [Function.update_of_ne this]
        refine (woven.thread u).of_elsewhere (paths u this) (same this) (fun pid _ => kin pid)
          fun pid below => kept ?_
        by_cases isActive : u = s.proc.activeTerminal
        · rw [isActive] at below
          have notIdle : (strands s.proc.activeTerminal).stage ≠ .idle := by
            intro idle
            rw [(woven.thread _).idle.mpr idle] at below
            cases below
          have notBelow := woven.active_not_below notIdle
          have positive := (woven.wellFormed.nonzero (woven.active_owned notIdle)).1
          rcases activeRoot with zero | root
          · omega
          · rw [← root]
            exact fun same => notBelow (same ▸ below)
        · exact apart isActive (Strand.mem_owned.mpr (.inr (List.mem_of_mem_tail below)))
    case suspended =>
      intro u other
      rw [activeTerminal] at other
      rw [Function.update_of_ne other]
      by_cases isActive : u = s.proc.activeTerminal
      · rw [isActive]
        refine ⟨suspendable, fun pid isTop => ⟨s.running, ?_⟩⟩
        have notIdle : (strands s.proc.activeTerminal).stage ≠ .idle := by
          intro idle
          rw [(woven.thread _).idle.mpr idle] at isTop
          cases isTop
        have positive := (woven.wellFormed.nonzero (woven.active_owned notIdle)).1
        have sameTop := Option.some.inj (isTop.symm.trans (woven.active_top notIdle))
        rcases activeRoot with zero | root
        · omega
        · rw [sameTop, root, stored]
      · obtain ⟨suspendable, saved⟩ := woven.suspended u isActive
        refine ⟨suspendable, fun pid isTop => ?_⟩
        have owns : pid ∈ (strands u).owned :=
          Strand.mem_owned.mpr (.inr (List.mem_of_mem_head? isTop))
        rw [kept (apart isActive owns)]
        exact saved pid isTop
    case active =>
      rw [activeTerminal, Function.update_self, ← isAfter]
      rfl
    case booted =>
      rw [activeTerminal, Function.update_self]
      exact fun isEmpty => by cases isEmpty
    case framed =>
      rw [activeTerminal, Function.update_self]
      exact fun holds => by cases holds
    case allocated =>
      rw [← isAfter]
      exact woven.allocated_entered stage empty
    case free =>
      rw [← isAfter]
      exact woven.free
  · simp [Interleaved.path, next, idle]

end Timer

section Runs

variable {s later : Interleaved} {strands : TerminalId → Strand} {bootBlock : Option Image}
  {proc : Proc} {moves : List Move}

/-- A system call is entered from user code. -/
theorem Woven.calls (woven : Woven s strands) (user : s.running.inUser = true) {path : Path}
    (settled : path.stage = .settled)
    (follows : path.Follows s.proc.pcb s.proc.activeTerminal
      (strands s.proc.activeTerminal).stack) : Advanced s (s.goto path) := by
  have isUser : s.running.stage = .settled := by
    cases running : s.running <;> rw [running] at user <;> first | rfl | cases user
  exact woven.goes rfl (by rw [isUser]; simp) (by rw [isUser]; simp) (settled.trans isUser.symm)
    follows

/-- Everything but the timer. -/
theorem Woven.acts (woven : Woven s strands) (bootBlock : Option Image) {move : Move}
    (able : s.able move)
    (calm : ¬ HandsOutHalting s move) (noTimer : ∀ interrupted, move ≠ .timer interrupted) :
    Advanced s (s.step bootBlock move) := by
  cases move with
  | timer interrupted => exact absurd rfl (noTimer interrupted)
  | execute command stack entryPoint caller =>
      exact woven.calls able rfl (ExecuteCall.Follows.plain rfl)
  | halt => exact woven.calls able rfl trivial
  | statement =>
      cases running : s.running with
      | idle | user | lost =>
          have busy : s.running.inCall = true := able
          rw [running] at busy
          cases busy
      | execute pc call =>
          simp only [Interleaved.step, running]
          exact woven.execute running calm
      | halt pc call =>
          simp only [Interleaved.step, running]
          exact woven.halt running

theorem Woven.step (woven : Woven s strands) (bootBlock : Option Image) {move : Move}
    (able : s.able move) (orderly : Orderly s move) :
    ∃ strands', Woven (s.step bootBlock move) strands' := by
  cases move with
  | timer interrupted =>
      by_cases idle : s.proc.currentProcessId (nextTerminal s.proc.activeTerminal) = 0
      · exact ⟨_, (woven.enters orderly.1 idle).1⟩
      · exact ⟨_, (woven.resumes orderly.1 idle).1⟩
  | execute | halt | statement => exact (woven.acts bootBlock able orderly.2 (by simp)).woven

/-- Nothing has been entered at the end of `entry`. -/
theorem Booted.woven (booted : Booted proc) :
    Woven (.start proc) fun _ => ⟨.idle, []⟩ where
  wellFormed :=
    { separate := ⟨fun _ => .nil, fun t u pid onT => by cases onT⟩
      root := fun t entered => absurd rfl entered
      member := fun t pid owns => by cases owns
      reserved := fun t pid isReserved => by cases isReserved }
  thread t :=
    { stage := by
        have path : (Interleaved.start proc).path t = .idle := by
          simp [Interleaved.path, Interleaved.start, booted.current]
        rw [path]
        rfl
      alive := by simp
      idle := iff_of_true rfl rfl
      current := booted.current t
      links := .nil
      terminal := fun pid mine => by
        obtain rfl : pid = t.number := mine.elim id fun onStack => by cases onStack
        exact (booted.root t).2
      frames := fun pid below => by cases below
      follows := by
        have path : (Interleaved.start proc).path t = .idle := by
          simp [Interleaved.path, Interleaved.start, booted.current]
        rw [path]
        trivial }
  suspended t _ := ⟨rfl, fun pid isTop => by cases isTop⟩
  active := booted.activePid
  booted _ _ := rfl
  framed holds := by cases holds
  allocated pid := by
    have taken : pid ∉ (Strand.mk .idle []).taken := fun isTaken => by cases isTaken
    simp only [Interleaved.start, booted.processes]
    by_cases few : pid < 4
    · simp [few, Nat.le_of_lt_succ few]
    · simp only [few, if_false]
      refine iff_of_false (by omega) ?_
      rintro (small | ⟨t, isTaken⟩)
      · omega
      · exact taken isTaken
  free pid notTaken := by
    simp only [Interleaved.start, booted.processes] at notTaken ⊢
    split at notTaken
    · exact absurd rfl notTaken
    · rename_i many
      rw [if_neg many]

/-- In every orderly run from the end of `entry` the state is woven. -/
theorem Booted.run_woven (booted : Booted proc)
    (run : (preemptible bootBlock).Run (.start proc) moves later)
    (orderly : (preemptible bootBlock).EachStep Orderly (.start proc) moves) :
    ∃ strands, Woven later strands :=
  run.invariant_of_each (I := fun s => ∃ strands, Woven s strands)
    (fun _ _ ⟨_, woven⟩ able calm => woven.step bootBlock able calm) ⟨_, booted.woven⟩ orderly

end Runs

end LightOS.Kernel
