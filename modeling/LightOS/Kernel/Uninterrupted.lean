import LightOS.Kernel.Interleaving
import LightOS.Kernel.ArgumentBuffer

/-! # Calls that are not interrupted

The kernel of `Execute` takes a call of `execute` or `halt`, and a timer interrupt, as one step.
Each such step is a run of the preempted kernel in which the timer keeps out of the call, so
everything the one can do to the globals and the control blocks the other can do as well.
-/

namespace LightOS.Kernel

open Lib Filesystem Descriptor

/-- Statements of `execute` and `halt`, one after the other. -/
inductive Alone (bootBlock : Option Image) : Interleaved → Interleaved → Prop
  | refl (s : Interleaved) : Alone bootBlock s s
  | execute {s after : Interleaved} {pc call} : s.running = .execute pc call →
      Alone bootBlock (s.executeStatement bootBlock call pc) after → Alone bootBlock s after
  | halt {s after : Interleaved} {pc call} : s.running = .halt pc call →
      Alone bootBlock (s.haltStatement call pc) after → Alone bootBlock s after

section Alone

variable {s after later : Interleaved} {bootBlock : Option Image}

theorem Alone.trans (first : Alone bootBlock s after) (second : Alone bootBlock after later) :
    Alone bootBlock s later := by
  induction first with
  | refl s => exact second
  | execute running _ ih => exact .execute running (ih second)
  | halt running _ ih => exact .halt running (ih second)

theorem run_statement {rounds : Nat} (inCall : s.running.inCall = true)
    (run : (preemptible bootBlock).Run (s.step bootBlock .statement) (statements rounds) after) :
    (preemptible bootBlock).Run s (statements (rounds + 1)) after :=
  .cons inCall run

/-- A run without timer interrupts. -/
theorem Alone.run (alone : Alone bootBlock s after) :
    ∃ rounds, (preemptible bootBlock).Run s (statements rounds) after := by
  induction alone with
  | refl s => exact ⟨0, .nil s⟩
  | @execute s after pc call running _ ih =>
      obtain ⟨rounds, run⟩ := ih
      refine ⟨rounds + 1, run_statement (by rw [running]; rfl) ?_⟩
      simp only [Interleaved.step, running]
      exact run
  | @halt s after pc call running _ ih =>
      obtain ⟨rounds, run⟩ := ih
      refine ⟨rounds + 1, run_statement (by rw [running]; rfl) ?_⟩
      simp only [Interleaved.step, running]
      exact run

end Alone

section Parse

variable {s : Interleaved} {call : ExecuteCall} (bootBlock : Option Image) {command : CharPtr}
  {word : List UInt8}

/-- A parsing loop keeps what it has stored, and stores one more at most in each round. -/
theorem scanWord_length (command : CharPtr) (i : Nat) (flag : Bool) (word : List UInt8)
    (rounds : Nat) :
    word.length ≤ (scanWord command i flag word rounds).chars.length ∧
      (scanWord command i flag word rounds).chars.length ≤ word.length + rounds := by
  induction rounds generalizing i flag word with
  | zero => exact ⟨Nat.le_refl _, Nat.le_refl _⟩
  | succ rounds ih =>
      unfold scanWord
      split
      · simp
      · split
        · simp
        · split
          · have further := ih (i + 1) true (word ++ [command i])
            rw [List.length_append, List.length_singleton] at further
            omega
          · have further := ih (i + 1) flag word
            omega

/-- After a parsing loop has stored the argument. -/
def Proc.parsed (proc : Proc) (arg : Word) : Proc :=
  { proc with argBuf := padded arg.chars, argumentExist := if arg.seen then 1 else 0 }

/-- The NUL at the end of the argument. -/
theorem Proc.parsed_nul {proc : Proc} {flag : Bool} (stored : proc.argBuf = padded word)
    (noted : proc.argumentExist = if flag then 1 else 0) (room : word.length < MAX_ARG_LENGTH)
    {argIdx : Nat} (index : argIdx = word.length) (i : Nat) :
    { proc with argBuf := proc.argBuf.set argIdx 0 } = proc.parsed ⟨i, word ++ [0], flag⟩ := by
  rw [Proc.parsed, ← padded_set 0 room, ← stored, ← index, ← noted]

/-- The second parsing loop, round by round. -/
theorem Interleaved.parses (rounds : Nat) (running : s.running = .execute .parseArgument call)
    (left : rounds = (call.len - call.i).toNat) (stored : s.proc.argBuf = padded word)
    (index : call.argIdx = word.length)
    (noted : s.proc.argumentExist = if call.flag then 1 else 0)
    (fits : (scanWord call.command call.i call.flag word rounds).chars.length ≤ MAX_ARG_LENGTH) :
    ∃ i argIdx flag, Alone bootBlock s
      { proc := s.proc.parsed (scanWord call.command call.i call.flag word rounds)
        running := .execute .findProgram { call with i, argIdx, flag }
        saved := s.saved } := by
  induction rounds generalizing s call word with
  | zero =>
      have ended : call.len ≤ call.i := by omega
      have same : s.proc.parsed ⟨call.i, word, call.flag⟩ = s.proc := by
        rw [Proc.parsed, ← stored, ← noted]
      refine ⟨call.i, call.argIdx, call.flag, .execute running ?_⟩
      simp only [executeStatement, parseArgument, if_pos ended, scanWord, same]
      exact .refl _
  | succ rounds ih =>
      have inside : ¬ call.len ≤ call.i := by omega
      have further : rounds = (call.len - ((call.i + 1 : Nat) : Int)).toNat := by omega
      by_cases nul : call.command call.i = 0
      · simp only [scanWord, if_pos nul, List.length_append, List.length_singleton] at fits ⊢
        refine ⟨call.i, call.argIdx, call.flag, .execute running ?_⟩
        simp only [executeStatement, parseArgument, if_neg inside, if_pos nul]
        rw [Proc.parsed_nul stored noted fits index call.i]
        exact .refl _
      · by_cases ends : call.command call.i = SPACE ∧ call.flag
        · simp only [scanWord, if_neg nul, if_pos ends, List.length_append,
            List.length_singleton] at fits ⊢
          refine ⟨call.i, call.argIdx, call.flag, .execute running ?_⟩
          simp only [executeStatement, parseArgument, if_neg inside, if_neg nul, if_pos ends]
          rw [Proc.parsed_nul stored noted fits index call.i]
          exact .refl _
        · by_cases blank : call.command call.i ≠ SPACE
          · simp only [scanWord, if_neg nul, if_neg ends, if_pos blank] at fits ⊢
            have room : word.length < MAX_ARG_LENGTH := by
              have grows := (scanWord_length call.command (call.i + 1) true
                (word ++ [call.command call.i]) rounds).1
              rw [List.length_append, List.length_singleton] at grows
              omega
            obtain ⟨i, argIdx, flag, rest⟩ := @ih
              { s with
                proc :=
                  { s.proc with
                    argBuf := s.proc.argBuf.set call.argIdx (call.command call.i)
                    argumentExist := 1 }
                running := .execute .parseArgument
                  { call with i := call.i + 1, argIdx := call.argIdx + 1, flag := true } }
              { call with i := call.i + 1, argIdx := call.argIdx + 1, flag := true }
              (word ++ [call.command call.i]) rfl further
              (by rw [← padded_set _ room, ← stored, ← index]) (by simp [index]) rfl fits
            refine ⟨i, argIdx, flag, .execute running ?_⟩
            simp only [executeStatement, parseArgument, if_neg inside, if_neg nul, if_neg ends,
              if_pos blank]
            exact .execute rfl rest
          · simp only [scanWord, if_neg nul, if_neg ends, if_neg blank] at fits ⊢
            obtain ⟨i, argIdx, flag, rest⟩ := @ih
              (s.goto (.execute .parseArgument { call with i := call.i + 1 }))
              { call with i := call.i + 1 } word rfl further stored index noted fits
            refine ⟨i, argIdx, flag, .execute running ?_⟩
            simp only [executeStatement, parseArgument, if_neg inside, if_neg nul, if_neg ends,
              if_neg blank]
            exact rest

/-- The argument of a command whose words fit, with its NUL. -/
theorem scanWord_fits (fit : WordsFit command)
    (accepted : ¬ (MAX_ARG_LENGTH : Int) + 4 < toInt32 (strlen command + 1)) :
    (scanWord command (scanWord command 0 false [] (toInt32 (strlen command + 1)).toNat).next
      false [] ((toInt32 (strlen command + 1)).toNat -
        (scanWord command 0 false [] (toInt32 (strlen command + 1)).toNat).next)).chars.length ≤
      MAX_ARG_LENGTH := by
  by_cases short : strlen command ≤ MAX_ARG_LENGTH + 3
  · obtain ⟨_, word⟩ := fit short
    rw [MAX_ARG_LENGTH] at short
    have length : (chars command).length = strlen command := by simp [chars]
    have whole : toInt32 (strlen command + 1) = ((strlen command + 1 : Nat) : Int) :=
      toInt32_small (by omega)
    obtain ⟨next, first, spelled, aligned⟩ :=
      scanWord_spells (spells_chars (s := command) (by omega))
    obtain ⟨_, second, _, _⟩ := scanWord_spells spelled
    rw [length] at first aligned
    have rounds : strlen command + 1 - next = (afterWord (chars command)).length + 1 := by omega
    simp only [whole, Int.toNat_natCast, first, rounds, second, List.length_append,
      List.length_singleton]
    exact word
  · have few : (toInt32 (strlen command + 1)).toNat ≤ 1 := by
      obtain ⟨_, bound, _⟩ := strlen_spec command
      rw [MAX_ARG_LENGTH] at accepted short
      simp only [toInt32] at accepted ⊢
      omega
    refine Nat.le_trans (scanWord_length _ _ _ _ _).2 ?_
    rw [List.length_nil, MAX_ARG_LENGTH]
    omega

/-- The first half of `execute`. -/
theorem Interleaved.checks (k : State) (saved : Nat → Option Saved) (fit : WordsFit call.command) :
    ((k.checkCommand bootBlock call.stack call.command).2 = none ∧
      Alone bootBlock ⟨k.proc, .execute .checkCount call, saved⟩
        ⟨(k.checkCommand bootBlock call.stack call.command).1.proc, .user, saved⟩) ∨
    ∃ inode, (k.checkCommand bootBlock call.stack call.command).2 = some inode ∧
      ∃ fn i argIdx flag fd, Alone bootBlock ⟨k.proc, .execute .checkCount call, saved⟩
        ⟨(k.checkCommand bootBlock call.stack call.command).1.proc,
          .execute .countProcess { call with fn, i, argIdx, flag, fd }, saved⟩ := by
  by_cases full : k.proc.processCount = MAX_NUM_PROCESSES
  · left
    simp only [State.checkCommand, if_pos full, State.printf, true_and]
    refine .execute rfl ?_
    simp only [executeStatement, if_pos full]
    exact .execute rfl (.refl _)
  · have counted : Alone bootBlock ⟨k.proc, .execute .checkCount call, saved⟩
        ⟨{ k.proc with argumentExist := 0 }, .execute .checkLength call, saved⟩ := by
      refine .execute rfl ?_
      simp only [executeStatement, if_neg full]
      exact .execute rfl (.refl _)
    by_cases long : (MAX_ARG_LENGTH : Int) + 4 < toInt32 (strlen call.command + 1)
    · left
      have tooLong : (MAX_ARG_LENGTH : Int) + 4 < call.len := long
      simp only [State.checkCommand, if_neg full, if_pos long, State.printf, true_and]
      refine counted.trans (.execute rfl ?_)
      simp only [executeStatement, goto, if_pos tooLong]
      exact .execute rfl (.refl _)
    · have short : ¬ (MAX_ARG_LENGTH : Int) + 4 < call.len := long
      have fits := scanWord_fits fit long
      simp only [State.checkCommand, if_neg full, if_neg long]
      generalize scanned : scanWord call.command 0 false []
        (toInt32 (strlen call.command + 1)).toNat = fn at fits ⊢
      have cleared : Alone bootBlock
          ⟨{ k.proc with argumentExist := 0 }, .execute .checkLength call, saved⟩
          ⟨{ k.proc with argBuf := padded [], argumentExist := 0 }, .execute .parseArgument
            { call with fn := fn.chars, i := fn.next, argIdx := 0, flag := false }, saved⟩ := by
        refine .execute rfl ?_
        simp only [executeStatement, goto, if_neg short]
        refine .execute rfl (.execute rfl ?_)
        simp only [executeStatement, goto]
        rw [show scanWord call.command 0 false [] call.len.toNat = fn from scanned]
        exact .refl _
      have rounds : (toInt32 (strlen call.command + 1)).toNat - fn.next =
          (call.len - fn.next).toNat := by
        rw [show toInt32 (strlen call.command + 1) = call.len from rfl]
        omega
      rw [rounds] at fits ⊢
      obtain ⟨i, argIdx, flag, parsed⟩ := @parses
        ⟨{ k.proc with argBuf := padded [], argumentExist := 0 }, .execute .parseArgument
          { call with fn := fn.chars, i := fn.next, argIdx := 0, flag := false }, saved⟩
        { call with fn := fn.chars, i := fn.next, argIdx := 0, flag := false } bootBlock []
        _ rfl rfl rfl rfl rfl fits
      have stored := (counted.trans cleared).trans parsed
      cases found : programInode bootBlock fn.chars call.stack with
      | none =>
          refine .inl ⟨rfl, stored.trans (.execute rfl ?_)⟩
          simp only [executeStatement, found]
          exact .refl _
      | some inode =>
          refine .inr ⟨inode, rfl, fn.chars, i, argIdx, flag, inode,
            stored.trans (.execute rfl ?_)⟩
          simp only [executeStatement, found]
          exact .refl _

end Parse

section Calls

variable (bootBlock : Option Image)

/-- The stores into the new control block. -/
theorem Interleaved.fills (k : State) (call : ExecuteCall) (saved : Nat → Option Saved) :
    Alone bootBlock ⟨k.proc, .execute .initDescriptors call, saved⟩
      ⟨k.proc.setPcb call.newProcessId (k.newPcb call.newProcessId call.entryPoint),
        .execute .setCurrentProcess call, Function.update saved call.newProcessId none⟩ := by
  refine .execute rfl (.execute rfl (.execute rfl (.execute rfl (.execute rfl (.execute rfl
    (.execute rfl (.execute rfl (.execute rfl ?_))))))))
  simp only [executeStatement, fill, Proc.setPcb, Function.update_self, Function.update_idem,
    State.newPcb]
  exact .refl _

theorem Proc.getProcessAvailable_some {proc : Proc} {pid : Nat}
    (free : (List.range 7).find? (fun i => proc.processes i = 0) = some pid) :
    proc.getProcessAvailable =
      (some pid, { proc with processes := Function.update proc.processes pid 1 }) := by
  simp only [getProcessAvailable, free]

/-- The second half of `execute`. -/
theorem Interleaved.starts (k : State) {pid : Nat}
    (free : (List.range 7).find? (fun i => k.proc.processes i = 0) = some pid)
    (call : ExecuteCall) (saved : Nat → Option Saved) :
    ∃ saved', Alone bootBlock ⟨k.proc, .execute .countProcess call, saved⟩
      ⟨k.proc.started pid (k.newPcb pid call.entryPoint) call.caller, .user, saved'⟩ := by
  let counted : Proc := { k.proc with processCount := k.proc.processCount + 1 }
  let proc : Proc := { counted with processes := Function.update counted.processes pid 1 }
  have found : Alone bootBlock ⟨k.proc, .execute .countProcess call, saved⟩
      ⟨proc, .execute .initDescriptors { call with newProcessId := pid }, saved⟩ := by
    refine .execute rfl (.execute rfl ?_)
    have available : counted.getProcessAvailable = (some pid, proc) :=
      Proc.getProcessAvailable_some free
    simp only [executeStatement]
    rw [available]
    exact .refl _
  have filled := Interleaved.fills bootBlock { k with proc } { call with newProcessId := pid } saved
  have switched : Alone bootBlock
      ⟨proc.setPcb pid (k.newPcb pid call.entryPoint),
        .execute .setCurrentProcess { call with newProcessId := pid },
        Function.update saved pid none⟩
      ⟨k.proc.started pid (k.newPcb pid call.entryPoint) call.caller, .user,
        Function.update (Function.update saved pid none) k.proc.activePid (some .frame)⟩ := by
    refine .execute rfl (.execute rfl (.execute rfl (.execute rfl (.execute rfl (.execute rfl
      (.execute rfl (.execute rfl (.execute rfl (.execute rfl ?_)))))))))
    simp only [executeStatement, goto, Proc.setCurrent, Proc.setPcb, Function.update_self,
      Function.update_idem, Proc.started, Pcb.setContext]
    exact .refl _
  exact ⟨_, (found.trans filled).trans switched⟩

/-- A call of `execute`, with the entry point that it finds in the user page. -/
theorem Interleaved.execute_alone {k : State} (sound : Sound k) (active : k.proc.activePid ≠ 0)
    {command : CharPtr} (fit : WordsFit command) (stack : List UInt8) (caller : Context)
    (saved : Nat → Option Saved) :
    ∃ entryPoint saved', Alone bootBlock
      ⟨k.proc, .execute .checkCount (.enter command stack entryPoint caller), saved⟩
      ⟨(k.syscallExecute bootBlock stack command caller).proc, .user, saved'⟩ := by
  obtain ⟨activePositive, activeSmall⟩ := State.active_range sound active
  have checks (entryPoint : Nat) := @Interleaved.checks
    (.enter command stack entryPoint caller) bootBlock k saved fit
  cases checked : (k.checkCommand bootBlock stack command).2 with
  | none =>
      have pair : k.checkCommand bootBlock stack command =
          ((k.checkCommand bootBlock stack command).1, none) := by rw [← checked]
      obtain ⟨_, refused⟩ | ⟨inode, some, _⟩ := checks 0
      · refine ⟨0, saved, ?_⟩
        rw [State.syscallExecute, pair]
        exact refused
      · exact absurd (checked.symm.trans some) (by simp)
  | some inode =>
      obtain ⟨argBuf, argumentExist, _, effect, starts⟩ := State.syscallExecute_accepted checked
      have result := starts caller
      simp only [ExecuteCall.enter, effect] at checks
      cases free : (List.range 7).find? (fun i => k.proc.processes i = 0) with
      | none =>
          obtain ⟨none, _⟩ | ⟨_, _, fn, i, argIdx, flag, fd, alone⟩ := checks 0
          · exact absurd (checked.symm.trans none) (by simp)
          have full : Proc.getProcessAvailable
              { k.proc with argBuf, argumentExist, processCount := k.proc.processCount + 1 } =
                (none, { k.proc with
                  argBuf, argumentExist, processCount := k.proc.processCount + 1 }) := by
            simp only [Proc.getProcessAvailable, free]
          refine ⟨0, saved, alone.trans (.execute rfl (.execute rfl ?_))⟩
          simp only [executeStatement, result, State.startProgram, full, State.printf]
          exact .execute rfl (.refl _)
      | some pid =>
          obtain ⟨isFree, inPool⟩ := Proc.free_of_find free
          obtain ⟨created, lineage⟩ := sound.lineage
          have positive : 1 ≤ pid := by
            by_contra zero
            have taken := lineage.reserved pid (by omega)
            omega
          obtain ⟨eip, paged, _, started, _⟩ := State.startProgram_effect
            (s := ⟨{ k.proc with argBuf, argumentExist }, k.display, k.control⟩)
            sound.valid.toMapped (sound.user active) activePositive activeSmall free positive
            inPool bootBlock inode caller
          obtain ⟨none, _⟩ | ⟨_, _, fn, i, argIdx, flag, fd, alone⟩ := checks eip
          · exact absurd (checked.symm.trans none) (by simp)
          obtain ⟨saved', starts⟩ := Interleaved.starts bootBlock
            ⟨{ k.proc with argBuf, argumentExist }, k.display, k.control⟩ free _ saved
          refine ⟨eip, saved', ?_⟩
          rw [result, started]
          exact alone.trans starts

/-- The loop of `halt` over the descriptors. -/
theorem Interleaved.closes (s : Interleaved) (call : HaltCall) {i : Nat}
    (few : i ≤ MAX_NUM_FILES) :
    Alone bootBlock { s with running := .halt (.close 0) call }
      { s with
        proc := s.proc.setPcb call.pid (closeFirst i (s.proc.pcb call.pid))
        running := .halt (.close i) call } := by
  induction i with
  | zero =>
      rw [show s.proc.setPcb call.pid (closeFirst 0 (s.proc.pcb call.pid)) = s.proc by
        simp [Proc.setPcb, closeFirst]]
      exact .refl _
  | succ i ih =>
      refine (ih (by omega)).trans (.halt rfl ?_)
      simp only [haltStatement, if_pos (show i < MAX_NUM_FILES by omega), Proc.setPcb,
        Function.update_self, Function.update_idem, closeFirst_succ]
      exact .refl _

/-- A test for a root shell. -/
theorem Interleaved.checksRoot (proc : Proc) (saved : Nat → Option Saved) (call : HaltCall)
    {t : TerminalId} (other : proc.activePid ≠ t.number) :
    Alone bootBlock ⟨proc, .halt (.checkRoot t) call, saved⟩
      ⟨proc, .halt (match t with
        | .terminal1 => .checkRoot .terminal2
        | .terminal2 => .checkRoot .terminal3
        | .terminal3 => .uncountProcess) call, saved⟩ := by
  refine .halt rfl ?_
  simp only [haltStatement, if_neg other]
  cases t <;> exact .refl _

/-- A root shell is started again. -/
theorem Interleaved.restarts (proc : Proc) (saved : Nat → Option Saved) (call : HaltCall)
    {t : TerminalId} (root : proc.activePid = t.number) :
    Alone bootBlock ⟨proc, .halt (.checkRoot .terminal1) call, saved⟩
      ⟨proc.entered t, .user, saved⟩ := by
  have found : Alone bootBlock ⟨proc, .halt (.checkRoot t) call, saved⟩
      ⟨proc.entered t, .user, saved⟩ := by
    refine .halt rfl ?_
    simp only [haltStatement, if_pos root]
    exact .halt rfl (.refl _)
  have other {u : TerminalId} (apart : u ≠ t) : proc.activePid ≠ u.number :=
    fun same => apart (TerminalId.number_injective (same.symm.trans root))
  have first (apart : .terminal1 ≠ t) := checksRoot bootBlock proc saved call (other apart)
  have second (apart : .terminal2 ≠ t) := checksRoot bootBlock proc saved call (other apart)
  cases t with
  | terminal1 => exact found
  | terminal2 => exact (first (by decide)).trans found
  | terminal3 => exact ((first (by decide)).trans (second (by decide))).trans found

/-- A call of `halt`, if there is a frame to go back to. -/
theorem Interleaved.halt_alone {k : State} (sound : Sound k) (active : k.proc.activePid ≠ 0)
    (status : UInt8) (saved : Nat → Option Saved) (block : Pcb)
    (framed : 4 ≤ k.proc.activePid →
      (k.proc.pcb (k.proc.pcb k.proc.activePid).parentPid).terminal ≠ none ∧
        saved (k.proc.pcb k.proc.activePid).parentPid = some .frame) :
    ∃ saved', Alone bootBlock ⟨k.proc, .halt .locatePcb ⟨0, 0, 0, block⟩, saved⟩
      ⟨(k.syscallHalt status).proc, .user, saved'⟩ := by
  obtain ⟨activePositive, activeSmall⟩ := State.active_range sound active
  obtain ⟨created, lineage⟩ := sound.lineage
  by_cases child : 4 ≤ k.proc.activePid
  · obtain ⟨parentPositive, parentSmall⟩ :=
      lineage.range _ (lineage.parent _ (lineage.active active) child)
    obtain ⟨placed, frame⟩ := framed child
    obtain ⟨t, terminal⟩ := Option.ne_none_iff_exists'.mp placed
    obtain ⟨display, result, _⟩ := State.halt_child sound.valid.toMapped status child
        activeSmall parentPositive parentSmall terminal
    rw [result]
    have other (t : TerminalId) : k.proc.activePid ≠ t.number := by
      obtain ⟨_, few⟩ := State.number_range t
      omega
    have checked (call : HaltCall) := ((checksRoot bootBlock k.proc saved call
      (other .terminal1)).trans (checksRoot bootBlock k.proc saved call
      (other .terminal2))).trans (checksRoot bootBlock k.proc saved call (other .terminal3))
    let call : HaltCall := ⟨k.proc.activePid, 0, 0, k.proc.pcb k.proc.activePid⟩
    let released : Proc :=
      { k.proc with
        processCount := k.proc.processCount - 1
        processes := Function.update k.proc.processes k.proc.activePid 0 }
    have frees : Alone bootBlock ⟨k.proc, .halt .uncountProcess call, saved⟩
        ⟨released, .halt (.close 0) call, saved⟩ := by
      have release : Proc.releaseProcess
          { k.proc with processCount := k.proc.processCount - 1 } k.proc.activePid = released :=
        if_neg (by omega)
      refine .halt rfl (.halt rfl ?_)
      simp only [haltStatement]
      rw [release]
      exact .refl _
    have closed := closes bootBlock ⟨released, .user, saved⟩ call (Nat.le_refl MAX_NUM_FILES)
    have leaves : Alone bootBlock
        ⟨released.setPcb call.pid (closeFirst MAX_NUM_FILES (released.pcb call.pid)),
          .halt (.close MAX_NUM_FILES) call, saved⟩
        ⟨k.proc.reaped t, .user,
          Function.update saved (k.proc.pcb k.proc.activePid).parentPid none⟩ := by
      generalize isParent : (k.proc.pcb k.proc.activePid).parentPid = parent at terminal frame
      have tail := closeFirst_tail MAX_NUM_FILES (k.proc.pcb k.proc.activePid)
      generalize isClosed : released.setPcb call.pid
        (closeFirst MAX_NUM_FILES (released.pcb call.pid)) = closed
      have parentPid : (closed.pcb call.pid).parentPid = parent := by
        simp only [← isClosed, Proc.setPcb, Function.update_self]
        exact tail.parentPid.trans isParent
      have placed : (closed.pcb parent).terminal = some t := by
        simp only [← isClosed, Proc.setPcb]
        by_cases self : parent = call.pid
        · rw [self, Function.update_self, tail.terminal, ← terminal, self]
        · rw [Function.update_of_ne self]
          exact terminal
      refine .halt rfl ?_
      simp only [haltStatement, if_neg (Nat.lt_irrefl _), goto]
      refine .halt rfl (.halt rfl (.halt rfl (.halt rfl ?_)))
      simp only [haltStatement, goto, parentPid, placed]
      refine .halt rfl (.halt rfl (.halt rfl (.halt rfl (.halt rfl ?_))))
      simp only [haltStatement, goto, Proc.setCurrent]
      rw [frame]
      subst isClosed isParent
      exact .refl _
    exact ⟨_, .halt rfl ((((checked call).trans frees).trans closed).trans leaves)⟩
  · obtain ⟨t, root⟩ := State.exists_number activePositive (by omega)
    obtain ⟨message, result⟩ := State.halt_root status root
    have printed := sound.valid.toMapped.of_output (State.printf_output sound.valid message)
    obtain ⟨display, entryPoint, entered, _⟩ :=
      State.bootEnterTerminal_effect (s := k.printf message) printed t
    rw [result, entered]
    exact ⟨saved, .halt rfl (restarts bootBlock k.proc saved _ root)⟩

/-- The timer stores and switches as `schedule` does. -/
theorem Interleaved.timer_schedule {k : State} (sound : Sound k) {s : Interleaved}
    (same : s.proc = k.proc) (interrupted : Context) :
    (s.timer interrupted).proc = (k.schedule interrupted).proc := by
  have outcome : Outcome none k (.schedule interrupted) (k.schedule interrupted) :=
    State.schedule_outcome sound interrupted
  generalize k.schedule interrupted = after at outcome
  cases outcome with
  | first next idle switched =>
      subst next
      simp only [timer, same, if_pos idle]
  | next next entered switched =>
      subst next
      simp only [timer, same, if_neg entered]
      split <;> rfl
  | fault faulting => exact faulting.elim

end Calls

/-- Between two steps: no terminal is inside a call. -/
structure Between (k : State) (s : Interleaved) : Prop where
  sound : Sound k
  proc : s.proc = k.proc
  woven : ∃ strands, Woven s strands
  outside : ∀ t, s.path t = .idle ∨ s.path t = .user

/-- The words of a command fit, and a terminal is entered for the first time while a root shell is
    active. -/
def Unspoiled (k : State) : Action → Prop
  | .schedule _ =>
      ¬ (k.proc.currentProcessId (nextTerminal k.proc.activeTerminal) = 0 ∧
        k.proc.activePid ≠ 0 ∧
          k.proc.activePid ≠ precedingRoot (nextTerminal k.proc.activeTerminal))
  | .execute _ command _ => WordsFit command
  | .bootEnter _ => False
  | _ => True

section Simulation

variable {k later : State} {s after : Interleaved} {bootBlock : Option Image}

theorem Interleaved.releasedPid_outside {t : TerminalId}
    (outside : s.path t = .idle ∨ s.path t = .user) : s.releasedPid t = none := by
  rcases outside with path | path <;> simp [releasedPid, path]

theorem Advanced.refl (woven : ∃ strands, Woven s strands) : Advanced s s :=
  ⟨woven, rfl, fun _ _ => rfl, fun _ _ => rfl⟩

theorem Advanced.trans {next : Interleaved} (first : Advanced s next)
    (second : Advanced next after) : Advanced s after where
  woven := second.woven
  terminal := second.terminal.trans first.terminal
  path t other := (second.path t (first.terminal ▸ other)).trans (first.path t other)
  current t other := (second.current t (first.terminal ▸ other)).trans (first.current t other)

/-- A call that is not interrupted keeps to its terminal. -/
theorem Alone.advanced (alone : Alone bootBlock s after) (woven : ∃ strands, Woven s strands)
    (outside : ∀ t, t ≠ s.proc.activeTerminal → s.path t = .idle ∨ s.path t = .user) :
    Advanced s after := by
  induction alone with
  | refl s => exact .refl woven
  | @execute s after pc call running _ ih =>
      obtain ⟨strands, isWoven⟩ := woven
      have calm : ¬ HandsOutHalting s .statement := by
        rintro ⟨_, t, released, _⟩
        by_cases other : t = s.proc.activeTerminal
        · simp [Interleaved.releasedPid, other, running] at released
        · exact released (Interleaved.releasedPid_outside (outside t other))
      have first : Advanced s (s.executeStatement bootBlock call pc) :=
        isWoven.execute running calm
      refine first.trans (ih first.woven fun t other => ?_)
      rw [first.terminal] at other
      rw [first.path t other]
      exact outside t other
  | @halt s after pc call running _ ih =>
      obtain ⟨strands, isWoven⟩ := woven
      have first := isWoven.halt running
      refine first.trans (ih first.woven fun t other => ?_)
      rw [first.terminal] at other
      rw [first.path t other]
      exact outside t other

/-- What a call leaves between two steps again. -/
theorem Between.of_advanced {next : State} (between : Between k s) (advanced : Advanced s after)
    (user : after.running = .user) (sound : Sound next) (proc : after.proc = next.proc) :
    Between next after where
  sound := sound
  proc := proc
  woven := advanced.woven
  outside t := by
    by_cases other : t = s.proc.activeTerminal
    · rw [other, Interleaved.path_of_active advanced.terminal, user]
      exact .inr rfl
    · rw [advanced.path t other]
      exact between.outside t

theorem Between.running (between : Between k s) : s.running = .idle ∨ s.running = .user := by
  have outside := between.outside s.proc.activeTerminal
  rwa [Interleaved.path_active] at outside

/-- A process that can make a call is in user code. -/
theorem Between.user (between : Between k s) (active : k.proc.activePid ≠ 0) :
    s.running = .user := by
  refine between.running.resolve_left fun idle => active ?_
  obtain ⟨strands, woven⟩ := between.woven
  have stage := woven.running_stage
  rw [idle] at stage
  have empty := (woven.thread s.proc.activeTerminal).idle.mpr stage
  rw [← between.proc, woven.active, Strand.top, empty]
  rfl

/-- The timer, between two calls. -/
theorem Between.schedule (between : Between k s) {interrupted : Context}
    (unspoiled : Unspoiled k (.schedule interrupted)) (sound : Sound (k.schedule interrupted)) :
    (preemptible bootBlock).Run s [.timer interrupted] (s.timer interrupted) ∧
      Between (k.schedule interrupted) (s.timer interrupted) := by
  have safe : ¬ Spoils s (.timer interrupted) := by
    rintro (exposed | spoilt)
    · rcases between.running with idle | user
      · rw [idle] at exposed
        cases exposed
      · rw [user] at exposed
        cases exposed
    · rw [between.proc] at spoilt
      exact unspoiled spoilt
  have able : s.running.alive = true := by
    rcases between.running with idle | user
    · rw [idle]
      rfl
    · rw [user]
      rfl
  obtain ⟨strands, woven⟩ := between.woven
  refine ⟨.cons able (.nil _), sound, Interleaved.timer_schedule between.sound between.proc _,
    @Woven.step _ _ woven bootBlock (.timer interrupted) able ⟨safe, id⟩, fun t => ?_⟩
  by_cases idle : s.proc.currentProcessId (nextTerminal s.proc.activeTerminal) = 0
  · obtain ⟨_, _, entered, others⟩ := woven.enters safe idle
    by_cases other : t = nextTerminal s.proc.activeTerminal
    · rw [other, entered]
      exact .inr rfl
    · rw [others t other]
      exact between.outside t
  · rw [(woven.resumes safe idle).2 t]
    exact between.outside t

/-- A call, from its entry on. -/
theorem Between.call {next : State} (between : Between k s) (active : k.proc.activePid ≠ 0)
    {path : Path} {saved : Nat → Option Saved}
    (alone : Alone bootBlock ⟨k.proc, path, s.saved⟩ ⟨next.proc, .user, saved⟩)
    (settled : path.stage = .settled) (follows : ∀ pcb t stack, path.Follows pcb t stack)
    (sound : Sound next) : Between next ⟨next.proc, .user, saved⟩ := by
  have user := between.user active
  obtain ⟨strands, woven⟩ := between.woven
  have entered : Advanced s (s.goto path) :=
    woven.calls (by rw [user]; rfl) settled (follows _ _ _)
  have isEntered : s.goto path = ⟨k.proc, path, s.saved⟩ := by rw [← between.proc]; rfl
  rw [isEntered] at entered
  refine between.of_advanced (entered.trans (alone.advanced entered.woven fun t other => ?_)) rfl
    sound rfl
  rw [entered.terminal] at other
  rw [entered.path t other]
  exact between.outside t

/-- A call of `execute`. -/
theorem Between.execute (between : Between k s) (active : k.proc.activePid ≠ 0)
    {stack : List UInt8} {command : CharPtr} {caller : Context}
    (fit : WordsFit command) (sound : Sound (k.syscallExecute bootBlock stack command caller)) :
    ∃ moves after, (preemptible bootBlock).Run s moves after ∧
      Between (k.syscallExecute bootBlock stack command caller) after := by
  obtain ⟨entryPoint, saved, alone⟩ := Interleaved.execute_alone bootBlock between.sound active fit
    stack caller s.saved
  obtain ⟨rounds, run⟩ := alone.run
  have able : s.able (.execute command stack entryPoint caller) := by
    rw [Interleaved.able, between.user active]
    rfl
  have again := between.call active alone rfl (fun _ _ _ => ExecuteCall.Follows.plain rfl) sound
  refine ⟨.execute command stack entryPoint caller :: statements rounds, _, .cons able ?_, again⟩
  simp only [preemptible, Interleaved.step, Interleaved.goto, between.proc]
  exact run

/-- A call of `halt`. -/
theorem Between.halt (between : Between k s) (active : k.proc.activePid ≠ 0) {status : UInt8}
    (sound : Sound (k.syscallHalt status)) :
    ∃ moves after, (preemptible bootBlock).Run s moves after ∧
      Between (k.syscallHalt status) after := by
  obtain ⟨strands, woven⟩ := between.woven
  have user := between.user active
  have framed (child : 4 ≤ k.proc.activePid) :
      (k.proc.pcb (k.proc.pcb k.proc.activePid).parentPid).terminal ≠ none ∧
        s.saved (k.proc.pcb k.proc.activePid).parentPid = some .frame := by
    have stage := woven.running_stage
    rw [user] at stage
    have top := woven.active_top (by rw [stage]; simp [Path.stage])
    rw [between.proc] at top
    obtain ⟨rest, isTop⟩ := List.head?_eq_some_iff.mp top
    obtain ⟨parent, below, rfl⟩ := woven.wellFormed.below isTop child
    have thread := woven.thread k.proc.activeTerminal
    have links := thread.links
    rw [isTop, List.isChain_cons_cons, between.proc] at links
    have onStack : parent ∈ (strands k.proc.activeTerminal).stack.tail := by
      rw [isTop]
      exact List.mem_cons_self ..
    have terminal := thread.terminal parent (.inr (List.mem_of_mem_tail onStack))
    rw [between.proc] at terminal
    rw [links.1]
    exact ⟨by rw [terminal]; simp, thread.frames parent onStack⟩
  obtain ⟨saved, alone⟩ := Interleaved.halt_alone bootBlock between.sound active status s.saved
    (s.proc.pcb s.proc.activePid) framed
  obtain ⟨rounds, run⟩ := alone.run
  have able : s.able .halt := by
    rw [Interleaved.able, user]
    rfl
  have again := between.call active alone rfl (fun _ _ _ => trivial) sound
  refine ⟨.halt :: statements rounds, _, .cons able ?_, again⟩
  simp only [preemptible, Interleaved.step, Interleaved.goto, between.proc]
  rw [between.proc] at run
  exact run

/-- Each step between two calls is a run of the preempted kernel, unless it ends in a page
    fault. -/
theorem Between.step (between : Between k s) {action : Action} (able : k.able action)
    (unspoiled : Unspoiled k action) : (k.step bootBlock action).faulted = true ∨
      ∃ moves after, (preemptible bootBlock).Run s moves after ∧
        Between (k.step bootBlock action) after := by
  have stepped : (k.step bootBlock action).faulted = true ∨ Sound (k.step bootBlock action) :=
    State.step_sound between.sound able
  rcases stepped with faults | sound
  · exact .inl faults
  · right
    have stays (proc : (k.step bootBlock action).proc = k.proc) :
        ∃ moves after, (preemptible bootBlock).Run s moves after ∧
          Between (k.step bootBlock action) after :=
      ⟨[], s, .nil s, sound, between.proc.trans proc.symm, between.woven, between.outside⟩
    have outcome : Outcome bootBlock k action (k.step bootBlock action) :=
      State.step_outcome between.sound able
    cases action with
    | schedule interrupted => exact ⟨_, _, between.schedule unspoiled sound⟩
    | execute stack command caller => exact between.execute able.2 unspoiled sound
    | halt status => exact between.halt able.2 sound
    | bootEnter t => exact unspoiled.elim
    | switchTo t => exact stays (k.switchToTerminal_shows t).1
    | _ =>
        refine stays ?_
        generalize k.step bootBlock _ = next at outcome ⊢
        cases outcome with
        | fault faulting => exact faulting.elim
        | _ => rfl

/-- What the kernel does step by step between two calls, from the end of `entry` on, the preempted
    kernel can do to the globals and the control blocks. -/
theorem Booted.simulates (booted : Booted k.proc) (sound : Sound k) {actions : List Action}
    (run : (kernel bootBlock).Run k actions later)
    (unspoiled : (kernel bootBlock).EachStep Unspoiled k actions) : later.faulted = true ∨
      ∃ moves after, (preemptible bootBlock).Run (.start k.proc) moves after ∧
        after.proc = later.proc := by
  have outside (t : TerminalId) : (Interleaved.start k.proc).path t = .idle := by
    simp [Interleaved.path, Interleaved.start, booted.current]
  have begun : Between k (.start k.proc) :=
    ⟨sound, rfl, ⟨_, booted.woven⟩, fun t => .inl (outside t)⟩
  have simulated := run.simulated (N := preemptible bootBlock)
    (R := fun k s => k.faulted = true ∨ Between k s) ?_ unspoiled (.inr begun)
  · obtain ⟨moves, after, reached, faults | between⟩ := simulated
    · exact .inl faults
    · exact .inr ⟨moves, after, reached, between.proc⟩
  · intro k s action related able unspoiled
    have between := related.resolve_left (by simp [able.1])
    rcases between.step able unspoiled with faults | ⟨moves, after, reached, again⟩
    · exact ⟨[], s, .nil s, .inl faults⟩
    · exact ⟨moves, after, reached, .inr again⟩

end Simulation

end LightOS.Kernel
