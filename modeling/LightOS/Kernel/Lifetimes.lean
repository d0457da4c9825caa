import LightOS.Kernel.Turns

/-! # Lifetimes of pids

`halt` gives its pid back to the pool at the beginning and goes on with the control block of that
pid.  When the timer stops it in between, an `execute` in another terminal can get the same
pid and fill the block anew, unless a smaller pid is free.  `pids_outlive_halts_iff` says that this
is the only way in which a pid is handed out too early, and that otherwise every `halt` reads
its own block.
-/

namespace LightOS.Kernel

open Lib Filesystem Descriptor

/-- The process of a terminal, while statements of its `halt` are left. -/
def Interleaved.haltingPid (s : Interleaved) (t : TerminalId) : Option Nat :=
  match s.path t with
  | .halt .locatePcb _ => some (s.proc.currentProcessId t)
  | .halt _ call => some call.pid
  | _ => none

/-- `get_process_available` returns no pid of a process that still halts. -/
def GivesFreePid (s : Interleaved) : Move → Prop
  | .statement =>
      s.running.atGetProcess = true →
        ∀ pid ∈ s.proc.getProcessAvailable.1, ∀ t, s.haltingPid t ≠ some pid
  | _ => True

instance (s : Interleaved) : (move : Move) → Decidable (GivesFreePid s move)
  | .statement => inferInstanceAs (Decidable (_ → _))
  | .timer _ | .execute .. | .halt => inferInstanceAs (Decidable True)

/-- How many descriptors `halt` has closed, where it still has its own control block to read. -/
def HaltPc.closed : HaltPc → Option Nat
  | checkRoot _ | uncountProcess | releaseProcess => some 0
  | close i => some i
  | readParent => some MAX_NUM_FILES
  | _ => none

/-- What a `halt` reads is what its process had when the call began: the parent and the terminal,
    the descriptors that it has not closed itself, and the terminal of the parent. -/
structure OwnLifetime (s : Interleaved) : Prop where
  block : ∀ t pc halting closed, s.path t = .halt pc halting → pc.closed = some closed →
    (s.proc.pcb halting.pid).SameKin (closeFirst closed halting.block)
  parent : ∀ t halting, s.path t = .halt .setActivePid halting →
    halting.parentPid = halting.block.parentPid
  terminal : ∀ t halting, s.path t = .halt .setActiveTerminal halting →
    (s.proc.pcb halting.parentPcb).terminal = halting.block.terminal

/-- Behind `release_process` in `halt`. -/
def Path.behindRelease : Path → Bool
  | halt pc _ => pc.hasReleased
  | _ => false

/-- Wherever the timer stops a `halt` behind `release_process` and, before that terminal has its
    next turn, an `execute` of another terminal comes to `get_process_available`, a pid smaller
    than that of the stopped process is free. -/
def SmallerPidsFree (bootBlock : Option Image) (start : Interleaved) (moves : List Move) : Prop :=
  ∀ first interrupted between rest stopped called,
    moves = first ++ .timer interrupted :: (between ++ .statement :: rest) →
    (preemptible bootBlock).Run start first stopped →
    stopped.running.behindRelease = true →
    (preemptible bootBlock).Run (stopped.timer interrupted) between called →
    (preemptible bootBlock).Always
      (fun waiting => waiting.proc.activeTerminal ≠ stopped.proc.activeTerminal)
      (stopped.timer interrupted) between →
    called.running.atGetProcess = true →
    ∃ pid < stopped.proc.activePid, called.proc.processes pid = 0

section Released

variable {s called stopped : Interleaved} {strands : TerminalId → Strand}
  {bootBlock : Option Image} {proc : Proc} {moves first between rest : List Move}
  {interrupted : Context} {t : TerminalId} {pc : HaltPc} {call : HaltCall}

/-- A `halt` that the timer can stop behind `release_process`. -/
theorem HaltPc.stage_released (released : pc.hasReleased = true)
    (stoppable : (pc.stage call.pid).suspendable = true) : pc.stage call.pid = .released := by
  cases pc <;> first | rfl | (cases stoppable; done) | cases released

/-- Its process is on top of the stack of its terminal, and its pid is free. -/
theorem Woven.released_free (woven : Woven s strands) (path : s.path t = .halt pc call)
    (stage : pc.stage call.pid = .released) :
    (strands t).stack.head? = some call.pid ∧ call.pid ≤ 6 ∧ s.proc.processes call.pid = 0 := by
  have isStage := (woven.thread t).stage
  have follows := (woven.thread t).follows
  rw [path] at isStage follows
  have released : (strands t).stage = .released := isStage.symm.trans stage
  obtain ⟨top, child⟩ : (strands t).stack.head? = some call.pid ∧ 4 ≤ call.pid := by
    cases pc with
    | close i => exact ⟨follows.1.top, follows.2.1⟩
    | readParent => exact ⟨follows.1.top, follows.2⟩
    | setActivePid => exact ⟨follows.1.top, follows.2.1⟩
    | _ => cases stage
  have owned : (strands t).owned = (strands t).stack := by
    simp [Strand.owned, released, Stage.reserved]
  have owns : call.pid ∈ (strands t).owned := owned ▸ List.mem_of_mem_head? top
  refine ⟨top, (woven.wellFormed.nonzero owns).2, woven.free _ fun taken => ?_⟩
  obtain small | ⟨u, isTaken⟩ := (woven.allocated _).mp taken
  · omega
  · obtain rfl : u = t :=
      woven.wellFormed.separate.unique u t _ (Strand.owned_of_taken isTaken) owns
    have nodup := woven.wellFormed.owned_nodup u
    rw [Strand.taken, if_pos released, owned] at isTaken
    rw [owned] at nodup
    cases stack : (strands u).stack with
    | nil => simp [stack] at isTaken
    | cons pid below =>
        rw [stack] at top nodup isTaken
        obtain rfl := Option.some.inj top
        exact (List.nodup_cons.mp nodup).1 isTaken

/-- It is the active process while it runs. -/
theorem Woven.released_active (woven : Woven s strands) (running : s.running = .halt pc call)
    (released : pc.hasReleased = true) (safe : ¬ Spoils s (.timer interrupted)) :
    pc.stage call.pid = .released ∧ call.pid = s.proc.activePid := by
  have unexposed : s.running.exposed = false := by
    by_contra exposed
    exact safe (.inl (by simpa using exposed))
  have stoppable := (woven.active_current unexposed).1
  rw [woven.halt_stage running] at stoppable
  have stage := HaltPc.stage_released released stoppable
  have path : s.path s.proc.activeTerminal = .halt pc call := by
    rw [Interleaved.path_active, running]
  have top := woven.active_top (by rw [woven.halt_stage running, stage]; simp)
  exact ⟨stage, Option.some.inj ((woven.released_free path stage).1.symm.trans top)⟩

/-- The lowest free pid is the first in the pool. -/
theorem Proc.getProcessAvailable_iff {pid : Nat} :
    proc.getProcessAvailable.1 = some pid ↔
      pid ≤ 6 ∧ proc.processes pid = 0 ∧ ∀ smaller < pid, proc.processes smaller ≠ 0 := by
  have given : proc.getProcessAvailable.1 =
      (List.range 7).find? (fun i => proc.processes i = 0) := by
    simp only [Proc.getProcessAvailable]
    cases (List.range 7).find? (fun i => proc.processes i = 0) <;> rfl
  rw [given, List.find?_range_eq_some]
  simp only [decide_eq_true_eq, List.mem_range, Bool.not_eq_true', decide_eq_false_iff_not]
  constructor
  · rintro ⟨free, small, others⟩
    exact ⟨by omega, free, others⟩
  · rintro ⟨small, free, others⟩
    exact ⟨free, by omega, others⟩

/-- What the timer has stopped behind `release_process` is handed out when no smaller pid is
    free. -/
theorem Woven.smaller_free (woven : Woven stopped strands)
    (safe : ¬ Spoils stopped (.timer interrupted))
    (behind : stopped.running.behindRelease = true)
    (run : (preemptible bootBlock).Run (stopped.timer interrupted) between called)
    (orderly : (preemptible bootBlock).EachStep Orderly (stopped.timer interrupted) between)
    (away : (preemptible bootBlock).Always
      (fun waiting => waiting.proc.activeTerminal ≠ stopped.proc.activeTerminal)
      (stopped.timer interrupted) between)
    (getting : called.running.atGetProcess = true) (calm : ¬ HandsOutHalting called .statement) :
    ∃ pid < stopped.proc.activePid, called.proc.processes pid = 0 := by
  cases running : stopped.running with
  | idle | user | lost | execute pc call => rw [running] at behind; cases behind
  | halt pc call =>
      have released : pc.hasReleased = true := by
        rw [running] at behind
        exact behind
      obtain ⟨stage, active⟩ := woven.released_active running released safe
      obtain ⟨strands', woven', path, _⟩ := woven.stops safe
      obtain ⟨pathLater, _, _, strandsLater, wovenLater⟩ :=
        Woven.run_waits run woven' orderly away
      have halting : called.path stopped.proc.activeTerminal = .halt pc call := by
        rw [pathLater, path, running]
      obtain ⟨_, small, free⟩ := wovenLater.released_free halting stage
      by_contra none
      refine calm ⟨getting, stopped.proc.activeTerminal, ?_⟩
      simp only [Interleaved.releasedPid, halting, released, if_true]
      refine ⟨by simp, Proc.getProcessAvailable_iff.mpr ⟨small, free, fun smaller less isFree => ?_⟩⟩
      exact none ⟨smaller, active ▸ less, isFree⟩

/-- A pid that is handed out while its `halt` is stopped has been the smallest free one. -/
theorem Booted.calm_of_smaller (booted : Booted proc)
    (run : (preemptible bootBlock).Run (.start proc) first s)
    (orderly : (preemptible bootBlock).EachStep Orderly (.start proc) first) {move : Move}
    (smaller : SmallerPidsFree bootBlock (.start proc) (first ++ move :: rest)) :
    ¬ HandsOutHalting s move := by
  cases move with
  | timer interrupted => exact id
  | execute command stack entryPoint caller => exact id
  | halt => exact id
  | statement =>
      rintro ⟨getting, t, isReleased, given⟩
      cases path : s.path t with
      | idle | user | lost | execute pc call =>
          simp [Interleaved.releasedPid, path] at isReleased
      | halt pc call =>
          have released : pc.hasReleased = true := by
            simp only [Interleaved.releasedPid, path] at isReleased
            by_contra early
            exact isReleased (if_neg early)
          simp only [Interleaved.releasedPid, path, released, if_true] at given
          have waits : s.proc.activeTerminal ≠ t := by
            rintro rfl
            rw [Interleaved.path_active] at path
            rw [path] at getting
            cases getting
          obtain ⟨before, interrupted, between, stopped, rfl, stops, orderlyBefore, rfl, safe, after,
            away, same⟩ := booted.last_turn run orderly waits (by rw [path]; simp)
          have running : stopped.running = .halt pc call := same.symm.trans path
          obtain ⟨strands, woven⟩ := booted.run_woven stops orderlyBefore
          obtain ⟨_, active⟩ := woven.released_active running released safe
          obtain ⟨pid, less, isFree⟩ := smaller before interrupted between rest stopped s
            (by simp) stops (by rw [running]; exact released) after away getting
          obtain ⟨_, _, lowest⟩ := Proc.getProcessAvailable_iff.mp given
          exact lowest pid (active ▸ less) isFree

/-- No pid of a halting process is handed out, said with the timer and the pool. -/
theorem Booted.calm_iff (booted : Booted proc)
    (run : (preemptible bootBlock).Run (.start proc) moves s)
    (unspoiled : (preemptible bootBlock).EachStep (fun s move => ¬ Spoils s move) (.start proc)
      moves) :
    (preemptible bootBlock).EachStep (fun s move => ¬ HandsOutHalting s move) (.start proc) moves ↔
      SmallerPidsFree bootBlock (.start proc) moves := by
  constructor
  · intro calm first interrupted between rest stopped called isMoves stops behind after away getting
    subst isMoves
    have orderly := unspoiled.and calm
    obtain ⟨orderlyFirst, ⟨safe, _⟩, orderlyAfter⟩ := stops.eachStep_append.mp orderly
    obtain ⟨orderlyBetween, ⟨_, here⟩, _⟩ := after.eachStep_append.mp orderlyAfter
    obtain ⟨strands, woven⟩ := booted.run_woven stops orderlyFirst
    exact woven.smaller_free safe behind after orderlyBetween away getting here
  · intro smaller
    -- the steps that have been taken are orderly, and so is the next one
    have onwards (todo : List Move) : ∀ first u, (preemptible bootBlock).Run (.start proc) first u →
        (preemptible bootBlock).EachStep Orderly (.start proc) first →
        (preemptible bootBlock).Run u todo s →
        (preemptible bootBlock).EachStep (fun s move => ¬ Spoils s move) u todo →
        SmallerPidsFree bootBlock (.start proc) (first ++ todo) →
        (preemptible bootBlock).EachStep (fun s move => ¬ HandsOutHalting s move) u todo := by
      induction todo with
      | nil => exact fun _ _ _ _ _ _ _ => trivial
      | cons move todo ih =>
          intro first u before orderly run unspoiled smaller
          cases run with
          | cons able run =>
              have calm := booted.calm_of_smaller before orderly smaller
              have one : (preemptible bootBlock).Run u [move]
                  ((preemptible bootBlock).next u move) := .cons able (.nil _)
              refine ⟨calm, ih (first ++ [move]) _ (before.append one) ?_ run unspoiled.2 ?_⟩
              · exact before.eachStep_append.mpr ⟨orderly, ⟨unspoiled.1, calm⟩, trivial⟩
              · rwa [List.append_assoc, List.singleton_append]
    exact onwards moves [] _ (.nil _) trivial run unspoiled smaller

end Released

section Lifetimes

variable {s later : Interleaved} {strands : TerminalId → Strand} {bootBlock : Option Image}
  {proc : Proc} {moves : List Move} {t : TerminalId}

/-- A process that halts is one of its terminal, as long as it has not left it. -/
theorem Woven.halting_owned (woven : Woven s strands) (other : t ≠ s.proc.activeTerminal)
    {pid : Nat} (halting : s.haltingPid t = some pid) : pid ∈ (strands t).owned := by
  have thread := woven.thread t
  have suspendable := (woven.suspended t other).1
  have stage := thread.stage
  have follows := thread.follows
  unfold Interleaved.haltingPid at halting
  cases path : s.path t with
  | idle | user | lost | execute pc call => simp [path] at halting
  | halt pc call =>
      rw [path] at halting stage follows
      cases pc with
      | locatePcb =>
          obtain rfl := Option.some.inj halting
          obtain ⟨rest, top⟩ := woven.entered (t := t)
            (by rw [← stage]; simp [Path.stage, HaltPc.stage])
          rw [woven.suspended_current other]
          exact Strand.mem_owned.mpr (.inr (by rw [top]; exact List.mem_cons_self ..))
      | checkRoot root | bootEnter root | uncountProcess | releaseProcess | close i | readParent
      | setActivePid =>
          obtain rfl := Option.some.inj halting
          exact Strand.mem_owned.mpr (.inr (List.mem_of_mem_head? follows.1.top))
      | locateParent | setActiveTerminal | setCurrentProcess | setEsp0 | pagingExecute
      | pagingVideoMemory | contextSwitch =>
          rw [← stage] at suspendable
          cases suspendable

/-- A woven state, and no pid of a halting process about to be handed out. -/
theorem Woven.givesFreePid (woven : Woven s strands) {move : Move}
    (calm : ¬ HandsOutHalting s move) : GivesFreePid s move := by
  cases move with
  | timer interrupted => trivial
  | execute command stack entryPoint caller => trivial
  | halt => trivial
  | statement =>
      intro getting pid given t halting
      obtain ⟨call, running⟩ := Path.getProcess_of_at getting
      have found : (List.range 7).find? (fun i => s.proc.processes i = 0) = some pid := by
        simp only [Proc.getProcessAvailable] at given
        cases found : (List.range 7).find? (fun i => s.proc.processes i = 0) with
        | none => simp [found] at given
        | some other => simpa [found] using given
      by_cases active : t = s.proc.activeTerminal
      · simp [Interleaved.haltingPid, active, running] at halting
      · exact woven.pid_new running found calm t (woven.halting_owned active halting)

theorem Woven.ownLifetime (woven : Woven s strands) : OwnLifetime s where
  block t pc halting closed path isClosed := by
    have follows := (woven.thread t).follows
    rw [path] at follows
    cases pc with
    | checkRoot root | uncountProcess | releaseProcess | close i | readParent =>
        obtain rfl := Option.some.inj isClosed
        exact follows.1.own
    | _ => cases isClosed
  parent t halting path := by
    have follows := (woven.thread t).follows
    rw [path] at follows
    obtain ⟨halts, _, parent⟩ := follows
    have links := (woven.thread t).links
    have top := halts.top
    cases stack : (strands t).stack with
    | nil => simp [stack] at top
    | cons child rest =>
        cases rest with
        | nil => simp [stack] at parent
        | cons next below =>
            rw [stack, List.isChain_cons_cons] at links
            simp only [stack, List.head?_cons, List.tail_cons, Option.some.injEq] at top parent
            rw [← parent, ← links.1, top, halts.lineage.1]
  terminal t halting path := by
    have follows := (woven.thread t).follows
    rw [path] at follows
    rw [follows.2]
    exact (woven.thread t).terminal _ (.inr (List.mem_of_mem_head? follows.1))

theorem GivesFreePid.calm {move : Move} (gives : GivesFreePid s move) :
    ¬ HandsOutHalting s move := by
  cases move with
  | timer interrupted => exact id
  | execute command stack entryPoint caller => exact id
  | halt => exact id
  | statement =>
      rintro ⟨getting, t, released, given⟩
      cases path : s.path t with
      | halt pc call =>
          have isReleased : s.releasedPid t = some call.pid := by
            simp only [Interleaved.releasedPid, path] at released ⊢
            split at released
            · rename_i past
              rw [if_pos past]
            · exact absurd rfl released
          refine gives getting call.pid (by rw [given, isReleased]; rfl) t ?_
          simp only [Interleaved.releasedPid, path] at isReleased
          cases pc <;> first | (simp [HaltPc.hasReleased] at isReleased; done) |
            simp [Interleaved.haltingPid, path]
      | _ => simp [Interleaved.releasedPid, path] at released

/-- From the end of `entry` on, in every order of timer interrupts that spoil nothing, system
    calls and statements of `execute` and `halt`: no pid is handed out while its process still
    halts, and every `halt` reads what belongs to its own lifetime, exactly when no timer interrupt
    behind a `release_process` is followed, before the next turn of that terminal, by a
    `get_process_available` that finds no smaller pid free. -/
theorem pids_outlive_halts_iff (booted : Booted proc)
    (run : (preemptible bootBlock).Run (.start proc) moves later)
    (unspoiled : (preemptible bootBlock).EachStep (fun s move => ¬ Spoils s move) (.start proc)
      moves) :
    ((preemptible bootBlock).EachStep GivesFreePid (.start proc) moves ∧
        (preemptible bootBlock).Always OwnLifetime (.start proc) moves) ↔
      SmallerPidsFree bootBlock (.start proc) moves := by
  rw [← booted.calm_iff run unspoiled]
  constructor
  · rintro ⟨gives, _⟩
    exact gives.mono fun s move gives => gives.calm
  · intro calm
    have orderly := unspoiled.and calm
    have preserved (s : Interleaved) (move : Move) (woven : ∃ strands, Woven s strands)
        (able : s.able move) (orderly : Orderly s move) :
        ∃ strands, Woven (s.step bootBlock move) strands :=
      woven.elim fun _ woven => woven.step bootBlock able orderly
    refine ⟨run.eachStep (I := fun s => ∃ strands, Woven s strands) preserved ?_ ⟨_, booted.woven⟩
      orderly, run.always_of_each preserved ?_ ⟨_, booted.woven⟩ orderly⟩
    · rintro s move ⟨strands, woven⟩ _ ⟨_, calm⟩
      exact woven.givesFreePid calm
    · rintro s ⟨strands, woven⟩
      exact woven.ownLifetime

end Lifetimes

/-- Pid 4 in terminal 1 and pid 5 in terminal 2.  Pid 4 halts to the end; pid 5 is stopped behind
    its `release_process`, and the `execute` of terminal 3 finds pid 4 free. -/
def haltsInTurn : List Move :=
  [tick, tick, tick, callExecute State.shellName] ++ statements 28 ++
    [tick, callExecute State.shellName] ++ statements 28 ++ [tick, tick, .halt] ++ statements 24 ++
    [tick, .halt] ++ statements 6 ++ [tick, callExecute State.shellName] ++ statements 28

theorem haltsInTurn_keep_lifetime :
    ((preemptible (some shellImage)).EachStep GivesFreePid (.start bootedProc) haltsInTurn ∧
        (preemptible (some shellImage)).Always OwnLifetime (.start bootedProc) haltsInTurn) ↔
      SmallerPidsFree (some shellImage) (.start bootedProc) haltsInTurn :=
  pids_outlive_halts_iff bootedProc_booted (.of_eachStep (by decide +kernel)) (by decide +kernel)

/-- The shell of terminal 1 has started pid 4, which halts and is interrupted behind
    `release_process`; the `execute` of terminal 2 gets pid 4. -/
theorem pid_of_halting_process_handed_out :
    ∃ moves s, (preemptible (some shellImage)).Run (.start bootedProc) moves s ∧
      s.able .statement ∧ ¬ GivesFreePid s .statement := by
  exact ⟨[tick, tick, tick, callExecute State.shellName] ++ statements 28 ++ [.halt] ++
    statements 6 ++ [tick, callExecute State.shellName] ++ statements 8, _,
    .of_eachStep (by decide +kernel), by decide +kernel⟩

end LightOS.Kernel
