import LightOS.Kernel.Interleaving

/-! # The turns of the terminals

The scheduler goes by two notions of the process that runs: `active_pid`, whose control block
gets the interrupted context, and the current process of the terminal, whose control block is
resumed on its next turn.  `execute` and `halt` move them one after the other, so a timer interrupt
between the two stores separates them; in an orderly run they agree, and every terminal goes
on where it has been interrupted.
-/

namespace LightOS.Kernel

open Lib Filesystem Descriptor

/-- A timer interrupt, with a process active: it is the current process of its terminal, its
    control block gets the context, and on the next turn of that terminal it is resumed from
    there. -/
structure TurnKept (bootBlock : Option Image) (s : Interleaved) (interrupted : Context) : Prop where
  active : s.proc.activePid = s.proc.currentProcessId s.proc.activeTerminal
  stored : s.interruptedPcb = s.proc.currentProcessId s.proc.activeTerminal
  resumed : ∀ between again,
    (preemptible bootBlock).Run (s.timer interrupted) between again →
    (preemptible bootBlock).EachStep Orderly (s.timer interrupted) between →
    (preemptible bootBlock).Always
      (fun waiting => waiting.proc.activeTerminal ≠ s.proc.activeTerminal)
      (s.timer interrupted) between →
    nextTerminal again.proc.activeTerminal = s.proc.activeTerminal →
    again.proc.currentProcessId s.proc.activeTerminal = s.interruptedPcb ∧
      ∀ interrupted', (again.timer interrupted').running = s.running

section Turns

variable {s later again : Interleaved} {strands : TerminalId → Strand} {bootBlock : Option Image}
  {proc : Proc} {moves between : List Move} {t : TerminalId}

theorem Interleaved.timer_activeTerminal (s : Interleaved) (interrupted : Context) :
    (s.timer interrupted).proc.activeTerminal = nextTerminal s.proc.activeTerminal := by
  simp only [Interleaved.timer]
  split
  · rfl
  · split <;> rfl

/-- A step leaves a terminal alone that is active neither before nor after it. -/
theorem Woven.step_waits (woven : Woven s strands) (bootBlock : Option Image) {move : Move}
    (able : s.able move) (orderly : Orderly s move) (waits : t ≠ s.proc.activeTerminal)
    (still : (s.step bootBlock move).proc.activeTerminal ≠ t) :
    (s.step bootBlock move).path t = s.path t ∧
      (s.step bootBlock move).proc.currentProcessId t = s.proc.currentProcessId t := by
  cases move with
  | timer interrupted =>
      have notNext : t ≠ nextTerminal s.proc.activeTerminal := by
        rintro rfl
        exact still (s.timer_activeTerminal interrupted)
      by_cases idle : s.proc.currentProcessId (nextTerminal s.proc.activeTerminal) = 0
      · refine ⟨(woven.enters orderly.1 idle).2.2.2 t notNext, ?_⟩
        simp only [Interleaved.step, Interleaved.timer, idle, if_true]
        exact Function.update_of_ne notNext _ _
      · refine ⟨(woven.resumes orderly.1 idle).2 t, ?_⟩
        simp only [Interleaved.step, Interleaved.timer, if_neg idle]
        split <;> rfl
  | execute | halt | statement =>
      have advanced := woven.acts bootBlock able orderly.2 (by simp)
      exact ⟨advanced.path t waits, advanced.current t waits⟩

/-- Until its next turn nothing happens in a terminal. -/
theorem Woven.run_waits (run : (preemptible bootBlock).Run s between again)
    (woven : Woven s strands)
    (orderly : (preemptible bootBlock).EachStep Orderly s between)
    (away : (preemptible bootBlock).Always (fun waiting => waiting.proc.activeTerminal ≠ t) s
      between) :
    again.path t = s.path t ∧ again.proc.currentProcessId t = s.proc.currentProcessId t ∧
      again.proc.activeTerminal ≠ t ∧ ∃ strands', Woven again strands' := by
  induction run generalizing strands with
  | nil s => exact ⟨rfl, rfl, away, _, woven⟩
  | @cons s move rest again able run ih =>
      obtain ⟨here, later⟩ := away
      have still : ((preemptible bootBlock).next s move).proc.activeTerminal ≠ t := by
        cases rest with
        | nil => exact later
        | cons next rest => exact later.1
      obtain ⟨strands', woven'⟩ := woven.step bootBlock able orderly.1
      obtain ⟨path, current⟩ := woven.step_waits bootBlock able orderly.1
        (Ne.symm here) still
      obtain ⟨pathLater, currentLater, awayLater, wovenLater⟩ := ih woven' orderly.2 later
      exact ⟨pathLater.trans path, currentLater.trans current, awayLater, wovenLater⟩

/-- Once a terminal has been entered, some process is active. -/
theorem Woven.notIdle (woven : Woven s strands) (other : t ≠ s.proc.activeTerminal)
    (entered : s.proc.currentProcessId t ≠ 0) :
    (strands s.proc.activeTerminal).stage ≠ .idle := by
  intro idle
  obtain ⟨rest, top⟩ := woven.suspended_top other entered
  have empty := woven.booted ((woven.thread _).idle.mpr idle) t
  rw [top] at empty
  cases empty

/-- The turn of a terminal with a process: its path goes on. -/
theorem Woven.turn (woven : Woven s strands) (other : t ≠ s.proc.activeTerminal)
    (next : nextTerminal s.proc.activeTerminal = t) (entered : s.proc.currentProcessId t ≠ 0)
    (interrupted : Context) : (s.timer interrupted).running = s.path t := by
  obtain ⟨rest, top⟩ := woven.suspended_top other entered
  have nextOwned : s.proc.currentProcessId t ∈ (strands t).owned :=
    Strand.mem_owned.mpr (.inr (by rw [top]; exact List.mem_cons_self ..))
  have apart : s.proc.currentProcessId t ≠ s.proc.activePid := fun same =>
    other (woven.wellFormed.separate.unique t _ _ nextOwned
      (same ▸ woven.active_owned (woven.notIdle other entered)))
  simp only [Interleaved.timer, Interleaved.interruptedPcb, next, ne_eq, entered,
    not_false_eq_true, if_true, if_false]
  rw [Function.update_of_ne apart, woven.suspended_path other entered]

/-- A timer interrupt that does not spoil anything stops the running path in its terminal. -/
theorem Woven.stops (woven : Woven s strands) {interrupted : Context}
    (safe : ¬ Spoils s (.timer interrupted)) :
    ∃ strands', Woven (s.timer interrupted) strands' ∧
      (s.timer interrupted).path s.proc.activeTerminal = s.running ∧
      (s.timer interrupted).proc.currentProcessId s.proc.activeTerminal = s.proc.activePid := by
  obtain ⟨_, current⟩ := woven.active_current (by
    by_contra exposed
    exact safe (.inl (by simpa using exposed)))
  have away : s.proc.activeTerminal ≠ nextTerminal s.proc.activeTerminal :=
    Ne.symm (nextTerminal_ne _)
  by_cases idle : s.proc.currentProcessId (nextTerminal s.proc.activeTerminal) = 0
  · obtain ⟨woven', _, _, paths⟩ := woven.enters safe idle
    refine ⟨_, woven', ?_, ?_⟩
    · rw [paths _ away, Interleaved.path_active]
    · simp only [Interleaved.timer, idle, if_true]
      exact (Function.update_of_ne away _ _).trans current
  · obtain ⟨woven', paths⟩ := woven.resumes safe idle
    refine ⟨_, woven', ?_, ?_⟩
    · rw [paths, Interleaved.path_active]
    · rw [← current]
      simp only [Interleaved.timer, if_neg idle]
      split <;> rfl

/-- What a timer interrupt finds and does that does not spoil anything. -/
theorem Woven.turnKept (woven : Woven s strands) {interrupted : Context}
    (safe : ¬ Spoils s (.timer interrupted)) (entered : s.proc.activePid ≠ 0) :
    TurnKept bootBlock s interrupted := by
  obtain ⟨_, current⟩ := woven.active_current (by
    by_contra exposed
    exact safe (.inl (by simpa using exposed)))
  have stored : s.interruptedPcb = s.proc.activePid := by
    simp only [Interleaved.interruptedPcb]
    split
    · rfl
    · rename_i idle
      by_contra other
      exact safe (.inr ⟨not_not.mp idle, entered, Ne.symm other⟩)
  refine ⟨current.symm, by rw [stored, current], fun between again run orderly away next => ?_⟩
  obtain ⟨strands', woven', path, isCurrent⟩ := woven.stops safe
  obtain ⟨pathLater, currentLater, awayLater, strandsLater, wovenLater⟩ :=
    Woven.run_waits run woven' orderly away
  rw [currentLater, isCurrent]
  refine ⟨stored.symm, fun interrupted' => ?_⟩
  rw [wovenLater.turn (Ne.symm awayLater) next (by rwa [currentLater, isCurrent]), pathLater, path]

/-- The last turn of a terminal that has begun something and waits: the timer has stopped there
    what it has still to do. -/
theorem Booted.last_turn (booted : Booted proc)
    (run : (preemptible bootBlock).Run (.start proc) moves s)
    (orderly : (preemptible bootBlock).EachStep Orderly (.start proc) moves)
    (waits : s.proc.activeTerminal ≠ t) (begun : s.path t ≠ .idle) :
    ∃ first interrupted between stopped, moves = first ++ .timer interrupted :: between ∧
      (preemptible bootBlock).Run (.start proc) first stopped ∧
      (preemptible bootBlock).EachStep Orderly (.start proc) first ∧
      stopped.proc.activeTerminal = t ∧ ¬ Spoils stopped (.timer interrupted) ∧
      (preemptible bootBlock).Run (stopped.timer interrupted) between s ∧
      (preemptible bootBlock).Always (fun waiting => waiting.proc.activeTerminal ≠ t)
        (stopped.timer interrupted) between ∧
      s.path t = stopped.running := by
  cases run.last_where (P := fun s => s.proc.activeTerminal = t) waits with
  | inl never =>
      obtain ⟨same, _⟩ := Woven.run_waits run booted.woven orderly never
      refine absurd (same.trans ?_) begun
      simp [Interleaved.path, Interleaved.start, booted.current]
  | inr last =>
      obtain ⟨first, move, between, stopped, rfl, before, rfl, able, after, away⟩ := last
      obtain ⟨orderlyFirst, orderlyMove, orderlyAfter⟩ := before.eachStep_append.mp orderly
      obtain ⟨strands, woven⟩ := booted.run_woven before orderlyFirst
      have isAble : stopped.able move := able
      have left : ((preemptible bootBlock).next stopped move).proc.activeTerminal ≠
          stopped.proc.activeTerminal := by
        cases between with
        | nil => exact away
        | cons next rest => exact away.1
      cases move with
      | timer interrupted =>
          obtain ⟨strands', woven', path, _⟩ := woven.stops orderlyMove.1
          obtain ⟨pathLater, _⟩ := Woven.run_waits after woven' orderlyAfter away
          exact ⟨first, interrupted, between, stopped, rfl, before, orderlyFirst, rfl, orderlyMove.1,
            after, away, pathLater.trans path⟩
      | execute | halt | statement =>
          exact absurd (woven.acts bootBlock isAble orderlyMove.2 (by simp)).terminal left

/-- From the end of `entry` on, in every order of timer interrupts, system calls and statements of
    `execute` and `halt`: as long as no timer interrupt spoils anything and no pid is handed out
    while its process halts, no path is lost, and every further timer interrupt that does not
    spoil anything keeps the turn of the interrupted terminal. -/
theorem timer_keeps_turns (booted : Booted proc)
    (run : (preemptible bootBlock).Run (.start proc) moves s)
    (orderly : (preemptible bootBlock).EachStep Orderly (.start proc) moves) :
    s.running.alive = true ∧ ∀ interrupted, ¬ Spoils s (.timer interrupted) →
      s.proc.activePid ≠ 0 → TurnKept bootBlock s interrupted := by
  obtain ⟨strands, woven⟩ := booted.run_woven run orderly
  refine ⟨?_, fun interrupted safe entered => woven.turnKept safe entered⟩
  have alive := (woven.thread s.proc.activeTerminal).alive
  rw [woven.running_stage] at alive
  cases running : s.running <;> rw [running] at alive <;> first | rfl | exact absurd rfl alive

end Turns

theorem second_turn_kept :
    TurnKept (some shellImage) (([tick, tick, tick, callExecute State.shellName] ++
      statements 12).foldl (preemptible (some shellImage)).next (.start bootedProc))
        ⟨0x7FFF00, 0x7FFF80⟩ :=
  (timer_keeps_turns bootedProc_booted (.of_eachStep (by decide +kernel))
    (by decide +kernel)).2 _ (by decide +kernel) (by decide +kernel)

/-- The shell of terminal 2 starts a program.  Pid 4 is the current process and pid 2 still the
    active one when the timer comes in. -/
theorem timer_between_stores :
    ∃ moves s, (preemptible (some shellImage)).Run (.start bootedProc) moves s ∧ s.able tick ∧
      s.proc.activePid ≠ 0 ∧ s.proc.activePid ≠ s.proc.currentProcessId s.proc.activeTerminal ∧
      s.interruptedPcb ≠ s.proc.currentProcessId s.proc.activeTerminal :=
  ⟨[tick, callExecute State.shellName] ++ statements 20, _, .of_eachStep (by decide +kernel),
    by decide +kernel⟩

end LightOS.Kernel
