import LightOS.Kernel.Interleaving

/-! # The process counter

`process_count` is a copy of what the pool says, and `execute` and `halt` bring the two in step
in two statements each.  `drift` is what the counter is ahead of the pool when these half-done
updates are accounted for.  Only one step of an orderly run changes it, a `get_process_available`
that finds no pid: the call returns without taking its increment back.
-/

namespace LightOS.Kernel

open Lib Filesystem Descriptor

/-- What `process_count` is ahead of the pool because of a call that has changed one of them. -/
def Path.debt : Path → Int
  | execute .getProcess _ => 1
  | halt .releaseProcess _ => -1
  | _ => 0

namespace Interleaved

/-- The difference between counter and pool, as far as the running path goes. -/
def balance (s : Interleaved) : Int :=
  s.proc.processCount - poolCount s.proc.processes - s.running.debt

/-- The difference between counter and pool that no call will even out. -/
def drift (s : Interleaved) : Int :=
  s.proc.processCount - poolCount s.proc.processes -
    ((s.path .terminal1).debt + (s.path .terminal2).debt + (s.path .terminal3).debt)

/-- No terminal is inside `execute` or `halt`. -/
def Quiet (s : Interleaved) : Prop := ∀ t, (s.path t).inCall = false

instance (s : Interleaved) : Decidable s.Quiet :=
  inferInstanceAs (Decidable (∀ t, (s.path t).inCall = false))

/-- The counter says how many pids are taken, and its limit that none is free. -/
structure CountAgrees (s : Interleaved) : Prop where
  counted : s.proc.processCount = poolCount s.proc.processes
  full : s.proc.processCount = MAX_NUM_PROCESSES ↔ s.proc.getProcessAvailable.1 = none

end Interleaved

/-- A `get_process_available` that finds no pid. -/
def Overbooks (s : Interleaved) : Move → Prop
  | .statement => s.running.atGetProcess = true ∧ s.proc.getProcessAvailable.1 = none
  | _ => False

instance (s : Interleaved) : (move : Move) → Decidable (Overbooks s move)
  | .statement => inferInstanceAs (Decidable (_ ∧ _))
  | .timer _ | .execute .. | .halt => inferInstanceAs (Decidable False)

section Counter

variable {s after later : Interleaved} {strands : TerminalId → Strand} {bootBlock : Option Image}
  {proc : Proc} {moves : List Move}

theorem Advanced.drift (advanced : Advanced s after) :
    after.drift - s.drift = after.balance - s.balance := by
  have terminal := advanced.terminal
  have path := advanced.path
  have active := s.path_active
  have activeAfter := Interleaved.path_of_active terminal
  simp only [Interleaved.drift, Interleaved.balance]
  cases isActive : s.proc.activeTerminal <;> rw [isActive] at path active activeAfter
  · rw [path .terminal2 (by decide), path .terminal3 (by decide), active, activeAfter]
    omega
  · rw [path .terminal1 (by decide), path .terminal3 (by decide), active, activeAfter]
    omega
  · rw [path .terminal1 (by decide), path .terminal2 (by decide), active, activeAfter]
    omega

/-- The statements of `execute`, but for the call of `get_process_available`. -/
theorem Interleaved.execute_balance {pc : ExecutePc} {call : ExecuteCall}
    (running : s.running = .execute pc call) (other : pc ≠ .getProcess) :
    (s.executeStatement bootBlock call pc).balance = s.balance := by
  cases pc with
  | getProcess => exact absurd rfl other
  | checkCount | checkLength | findProgram =>
      simp only [executeStatement]
      split <;> simp [balance, goto, running, Path.debt]
  | countProcess =>
      simp only [executeStatement, balance, running, Path.debt]
      omega
  | parseArgument =>
      simp only [executeStatement, parseArgument]
      split_ifs <;> simp [balance, goto, running, Path.debt]
  | _ =>
      simp [executeStatement, balance, goto, fill, Proc.setPcb, Proc.setCurrent, running, Path.debt]

/-- The pids below 4 are never free. -/
theorem Woven.free_child (woven : Woven s strands) {pid : Nat}
    (found : (List.range 7).find? (fun i => s.proc.processes i = 0) = some pid) :
    4 ≤ pid ∧ pid ≤ 6 ∧ s.proc.processes pid = 0 := by
  obtain ⟨free, small⟩ := Proc.free_of_find found
  refine ⟨?_, small, free⟩
  by_contra few
  have taken := (woven.allocated pid).mpr (.inl (by omega))
  omega

/-- `get_process_available` evens the increment out, if it finds a pid. -/
theorem Woven.getProcess_balance (woven : Woven s strands) {call : ExecuteCall}
    (running : s.running = .execute .getProcess call) :
    (s.executeStatement bootBlock call .getProcess).balance =
      s.balance + if s.proc.getProcessAvailable.1 = none then 1 else 0 := by
  cases found : (List.range 7).find? (fun i => s.proc.processes i = 0) with
  | none =>
      simp only [Interleaved.executeStatement, Interleaved.balance, Interleaved.goto,
        Proc.getProcessAvailable, found, running, Path.debt, if_true]
      omega
  | some pid =>
      obtain ⟨child, small, free⟩ := woven.free_child found
      simp only [Interleaved.executeStatement, Interleaved.balance, Proc.getProcessAvailable, found,
        running, Path.debt, poolCount_allocate child small free, reduceCtorEq, if_false]
      push_cast
      omega

theorem Woven.halt_balance (woven : Woven s strands) {pc : HaltPc} {call : HaltCall}
    (running : s.running = .halt pc call) : (s.haltStatement call pc).balance = s.balance := by
  cases pc with
  | checkRoot root =>
      simp only [Interleaved.haltStatement]
      split
      · simp [Interleaved.balance, Interleaved.goto, running, Path.debt]
      · cases root <;> simp [Interleaved.balance, Interleaved.goto, running, Path.debt]
  | uncountProcess =>
      simp only [Interleaved.haltStatement, Interleaved.balance, running, Path.debt]
      omega
  | releaseProcess =>
      have own : (strands s.proc.activeTerminal).stage = .settled := woven.halt_stage running
      have entered : (strands s.proc.activeTerminal).stage ≠ .idle := by rw [own]; simp
      obtain ⟨halts, child⟩ := woven.halt_follows running
      rw [Option.some.inj (halts.top.symm.trans (woven.active_top entered))] at child
      have owned := woven.active_owned entered
      obtain ⟨_, small⟩ := woven.wellFormed.nonzero owned
      have isTaken : s.proc.activePid ∈ (strands s.proc.activeTerminal).taken :=
        (Strand.taken_or_released owned).resolve_right fun released => by simp [own] at released
      have released := poolCount_release child small
        ((woven.allocated s.proc.activePid).mpr (.inr ⟨_, isTaken⟩))
      simp only [Interleaved.haltStatement, Interleaved.balance, Proc.releaseProcess,
        if_neg (Nat.not_lt.mpr small), running, Path.debt]
      omega
  | close i =>
      simp only [Interleaved.haltStatement]
      split <;> simp [Interleaved.balance, Interleaved.goto, Proc.setPcb, running, Path.debt]
  | setActiveTerminal | contextSwitch =>
      simp only [Interleaved.haltStatement]
      split <;> simp [Interleaved.balance, Interleaved.goto, running, Path.debt]
  | _ =>
      simp [Interleaved.haltStatement, Interleaved.balance, Interleaved.goto, Proc.entered,
        Proc.setCurrent, running, Path.debt]

/-- The timer changes neither the counter nor the pool, and takes no path away. -/
theorem Woven.timer_drift (woven : Woven s strands) {interrupted : Context}
    (safe : ¬ Spoils s (.timer interrupted)) : (s.timer interrupted).drift = s.drift := by
  have tables : (s.timer interrupted).proc.processCount = s.proc.processCount ∧
      (s.timer interrupted).proc.processes = s.proc.processes := by
    simp only [Interleaved.timer]
    split
    · exact ⟨rfl, rfl⟩
    · split <;> exact ⟨rfl, rfl⟩
  have debts (t : TerminalId) : ((s.timer interrupted).path t).debt = (s.path t).debt := by
    by_cases idle : s.proc.currentProcessId (nextTerminal s.proc.activeTerminal) = 0
    · obtain ⟨_, before, after, elsewhere⟩ := woven.enters safe idle
      by_cases next : t = nextTerminal s.proc.activeTerminal
      · rw [next, before, after]
        rfl
      · rw [elsewhere t next]
    · rw [(woven.resumes safe idle).2 t]
  simp only [Interleaved.drift, tables.1, tables.2, debts]

/-- A system call begins with nothing changed. -/
theorem Interleaved.call_balance (user : s.running.inUser = true) (path : Path)
    (even : path.debt = 0) : (s.goto path).balance = s.balance := by
  have noDebt : s.running.debt = 0 := by
    cases running : s.running <;> rw [running] at user <;> first | rfl | cases user
  simp only [balance, goto, even, noDebt]

theorem Woven.acts_balance (woven : Woven s strands) (bootBlock : Option Image) {move : Move}
    (able : s.able move)
    (noTimer : ∀ interrupted, move ≠ .timer interrupted) :
    (s.step bootBlock move).balance = s.balance + if Overbooks s move then 1 else 0 := by
  cases move with
  | timer interrupted => exact absurd rfl (noTimer interrupted)
  | execute command stack entryPoint caller =>
      have same := Interleaved.call_balance able
        (.execute .checkCount (.enter command stack entryPoint caller)) rfl
      rw [if_neg (by exact id), Int.add_zero]
      exact same
  | halt =>
      have same := Interleaved.call_balance able
        (.halt .locatePcb ⟨0, 0, 0, s.proc.pcb s.proc.activePid⟩) rfl
      rw [if_neg (by exact id), Int.add_zero]
      exact same
  | statement =>
      cases running : s.running with
      | idle | user | lost =>
          have busy : s.running.inCall = true := able
          rw [running] at busy
          cases busy
      | execute pc call =>
          simp only [Interleaved.step, running, Overbooks]
          by_cases getting : pc = .getProcess
          · subst getting
            rw [woven.getProcess_balance running]
            simp [Path.atGetProcess]
          · rw [Interleaved.execute_balance running getting]
            cases pc <;> first | exact absurd rfl getting | simp [Path.atGetProcess]
      | halt pc call =>
          simp only [Interleaved.step, running, Overbooks]
          rw [woven.halt_balance running]
          simp [Path.atGetProcess]

theorem Woven.step_drift (woven : Woven s strands) {move : Move} (able : s.able move)
    (orderly : Orderly s move) :
    (s.step bootBlock move).drift = s.drift + if Overbooks s move then 1 else 0 := by
  by_cases timer : ∃ interrupted, move = .timer interrupted
  · obtain ⟨interrupted, rfl⟩ := timer
    rw [if_neg (by exact id), Int.add_zero]
    exact woven.timer_drift orderly.1
  · have noTimer (interrupted : Context) : move ≠ .timer interrupted :=
      fun same => timer ⟨interrupted, same⟩
    have moved := (woven.acts bootBlock able orderly.2 noTimer).drift
    have balance := woven.acts_balance bootBlock able noTimer
    omega

/-- The drift never goes down, and stays where it is exactly in runs that find a pid whenever
    they look for one. -/
theorem Woven.run_drift (run : (preemptible bootBlock).Run s moves later) (woven : Woven s strands)
    (orderly : (preemptible bootBlock).EachStep Orderly s moves) :
    s.drift ≤ later.drift ∧ (later.drift = s.drift ↔
      (preemptible bootBlock).EachStep (fun s move => ¬ Overbooks s move) s moves) := by
  induction run generalizing strands with
  | nil s => exact ⟨Int.le_refl _, iff_of_true rfl trivial⟩
  | @cons s move rest later able run ih =>
      obtain ⟨strands', woven'⟩ := woven.step bootBlock able orderly.1
      obtain ⟨grows, same⟩ := ih woven' orderly.2
      have drift : ((preemptible bootBlock).next s move).drift =
          s.drift + if Overbooks s move then 1 else 0 := woven.step_drift able orderly.1
      by_cases overbooks : Overbooks s move
      · rw [if_pos overbooks] at drift
        refine ⟨by omega, iff_of_false (by omega) fun each => each.1 overbooks⟩
      · rw [if_neg overbooks] at drift
        refine ⟨by omega, ?_⟩
        rw [Machine.EachStep, ← same]
        constructor
        · exact fun kept => ⟨overbooks, by omega⟩
        · rintro ⟨_, kept⟩
          omega

/-- The counter agrees with the pool, as soon as it has not drifted and no call is under way. -/
theorem Woven.countAgrees (woven : Woven s strands) (quiet : s.Quiet) :
    s.CountAgrees ↔ s.drift = 0 := by
  have debt (t : TerminalId) : (s.path t).debt = 0 := by
    have outside := quiet t
    cases path : s.path t <;> rw [path] at outside <;> first | rfl | cases outside
  have isDrift : s.drift = s.proc.processCount - poolCount s.proc.processes := by
    simp only [Interleaved.drift, debt]
    omega
  rw [isDrift]
  refine ⟨fun agrees => by rw [agrees.counted]; omega, fun none => ?_⟩
  have counted : s.proc.processCount = poolCount s.proc.processes := by omega
  refine ⟨counted, ?_⟩
  rw [counted, MAX_NUM_PROCESSES]
  have taken : (poolCount s.proc.processes : Int) = 6 ↔
      ∀ pid ∈ List.range' 1 6, s.proc.processes pid = 1 := by
    rw [show (6 : Int) = ((List.range' 1 6).length : Int) from rfl, Int.natCast_inj, poolCount,
      List.countP_eq_length]
    simp only [decide_eq_true_eq]
  rw [taken]
  cases found : (List.range 7).find? (fun i => s.proc.processes i = 0) with
  | none =>
      simp only [Proc.getProcessAvailable, found, iff_true]
      intro pid member
      have inPool := List.mem_range'_1.mp member
      have notFree := List.find?_eq_none.mp found pid (List.mem_range.mpr (by omega))
      by_contra notTaken
      exact notFree (by simpa using woven.free pid notTaken)
  | some pid =>
      obtain ⟨child, small, free⟩ := woven.free_child found
      simp only [Proc.getProcessAvailable, found, reduceCtorEq, iff_false]
      intro all
      have isTaken := all pid (List.mem_range'_1.mpr (by omega))
      omega

theorem Booted.drift (booted : Booted proc) : (Interleaved.start proc).drift = 0 := by
  have path (t : TerminalId) : (Interleaved.start proc).path t = .idle := by
    simp [Interleaved.path, Interleaved.start, booted.current]
  have pool : poolCount proc.processes = 3 := by
    simp only [poolCount, List.range', List.countP_cons, List.countP_nil, booted.processes]
    decide
  simp only [Interleaved.drift, path, Path.debt]
  rw [show (Interleaved.start proc).proc = proc from rfl, pool, booted.processCount]
  decide

/-- From the end of `entry` on, in every orderly run of timer interrupts, system calls and
    statements of `execute` and `halt`, when no terminal is inside `execute` or `halt`: the counter
    agrees with the pool exactly when every `get_process_available` so far has found a pid. -/
theorem count_agrees_iff (booted : Booted proc)
    (run : (preemptible bootBlock).Run (.start proc) moves later)
    (orderly : (preemptible bootBlock).EachStep Orderly (.start proc) moves)
    (quiet : later.Quiet) :
    later.CountAgrees ↔
      (preemptible bootBlock).EachStep (fun s move => ¬ Overbooks s move) (.start proc) moves := by
  obtain ⟨strands, woven⟩ := booted.run_woven run orderly
  obtain ⟨_, drifts⟩ := Woven.run_drift run booted.woven orderly
  rw [woven.countAgrees quiet, ← drifts, booted.drift]

end Counter

theorem started_program_is_counted :
    (([tick, callExecute State.shellName] ++ statements 28).foldl
        (preemptible (some shellImage)).next (.start bootedProc)).CountAgrees ↔
      (preemptible (some shellImage)).EachStep (fun s move => ¬ Overbooks s move)
        (.start bootedProc) ([tick, callExecute State.shellName] ++ statements 28) :=
  count_agrees_iff bootedProc_booted (.of_eachStep (by decide +kernel)) (by decide +kernel)
    (by decide +kernel)

/-- Five processes run.  The shells of terminals 3 and 1 both get past the check before either has
    counted its program; the second one finds no pid, and the counter stays at 7. -/
theorem two_executes_at_the_limit :
    ∃ moves s, (preemptible (some shellImage)).Run (.start bootedProc) moves s ∧
      s.Quiet ∧ ¬ s.CountAgrees :=
  ⟨[tick, tick, tick, callExecute State.shellName] ++ statements 28 ++
      [tick, callExecute State.shellName] ++ statements 28 ++
      [tick, callExecute State.shellName] ++ statements 1 ++
      [tick, callExecute State.shellName] ++ statements 28 ++ [tick, tick] ++ statements 9, _,
    .of_eachStep (by decide +kernel), by decide +kernel,
    fun agrees => absurd agrees.counted (by decide +kernel)⟩

end LightOS.Kernel
