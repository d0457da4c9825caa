import LightOS.Kernel.Parsing

/-! # The caller's limit

A process asks for its argument with `getargs` and says how many bytes it has room for.  Between
the `execute` call that started it and this call anything may happen but another `execute`.
`getargs_within_limit_iff` says for which sizes the answer is the one a caller expects: the check
compares the limit with the length of the word alone.
-/

namespace LightOS.Kernel

open Lib Filesystem Descriptor

/-- What a caller with room for `nbytes` bytes expects of an argument: it is copied with its NUL
    if both fit, and no byte is stored otherwise. -/
structure WithinLimit (transfer : Transfer) (word : List UInt8) (nbytes : Int) : Prop where
  ret : transfer.ret = 0 ↔ (word.length : Int) + 1 ≤ nbytes
  copied : transfer.ret = 0 → transfer.bytes = word ++ [0]
  inside : ∀ k < transfer.bytes.length, (k : Int) < nbytes
  failed : transfer.ret = -1 → transfer.bytes = []

/-- Any step but an `execute`. -/
def VideoAction.NotExecute : VideoAction → Prop
  | .kernel (.execute ..) => False
  | _ => True

/-- In `later` the process is active that an `execute` call has started for `command`, and no other
    `execute` has been made since. -/
structure StartedFor (bootBlock : Option Image) (command : CharPtr) (later : State) : Prop where
  running : later.faulted = false
  history : ∃ (s caller : State) (buffers : TerminalId → List UInt8) (va entryPoint : Nat)
    (stack : List UInt8) (context : Context) (before after : List VideoAction), PowerOn s ∧
      (videoMachine bootBlock).Run (s.entry bootBlock buffers) before caller ∧
      caller.display.mmu.HoldsString va command ∧
      caller.able (.execute stack command context) ∧
      (caller.syscallExecute bootBlock stack command context).control = .enterUser entryPoint ∧
      (videoMachine bootBlock).Run (caller.syscallExecute bootBlock stack command context)
        after later ∧
      (∀ action ∈ after, action.NotExecute) ∧
      later.proc.activePid =
        (caller.syscallExecute bootBlock stack command context).proc.activePid

/-- The argument is in place for a process. -/
structure ArgumentStored (word : List UInt8) (pid : Nat) (s : State) : Prop where
  set : s.proc.argumentExist ≠ 0
  stored : (s.proc.pcb pid).argBuf = padded word

section Steps

variable {s later : State} {bootBlock : Option Image} {word : List UInt8} {pid : Nat}

theorem withinLimit_iff (stored : ArgumentStored word s.proc.activePid s)
    (bound : word.length < MAX_ARG_LENGTH) (nonzero : ∀ c ∈ word, c ≠ 0) (nbytes : Int) :
    WithinLimit (s.syscallGetargs false nbytes) word nbytes ↔ nbytes ≠ word.length := by
  rw [State.getargs_stored stored.set stored.stored bound nonzero]
  split
  · rename_i less
    refine iff_of_true ?_ (by omega)
    exact
      { ret := iff_of_false (by simp [Transfer.failed]) (by omega)
        copied := fun zero => absurd zero (by simp [Transfer.failed])
        inside := fun k none => absurd none (Nat.not_lt_zero k)
        failed := fun _ => rfl }
  · rename_i enough
    constructor
    · rintro within rfl
      have fits := within.ret.mp rfl
      omega
    · intro other
      refine ⟨iff_of_true rfl (by omega), fun _ => rfl, fun k inside => ?_, fun failed => ?_⟩
      · rw [List.length_append, List.length_singleton] at inside
        omega
      · cases failed

/-- A step that starts nothing. -/
theorem ArgumentStored.of_same (stored : ArgumentStored word pid s)
    (set : later.proc.argumentExist = s.proc.argumentExist)
    (argBuf : (later.proc.pcb pid).argBuf = (s.proc.pcb pid).argBuf) :
    ArgumentStored word pid later :=
  ⟨set.symm ▸ stored.set, argBuf.trans stored.stored⟩

theorem ArgumentStored.next (stored : ArgumentStored word pid s) (sound : VideoSound s)
    {action : VideoAction} (able : (videoMachine bootBlock).enabled s action)
    (other : action.NotExecute) :
    ((videoMachine bootBlock).next s action).faulted = true ∨
      ArgumentStored word pid ((videoMachine bootBlock).next s action) := by
  cases action with
  | kernel action =>
      have outcome : Outcome bootBlock s action (s.step bootBlock action) :=
        State.step_outcome sound.sound able
      have notExecute (stack : List UInt8) (command : CharPtr) (caller : Context) :
          action ≠ .execute stack command caller := by
        rintro rfl
        exact other
      exact (outcome.arguments notExecute).imp_right
        fun same => stored.of_same same.1 (same.2 pid)
  | vidmap screenStart =>
      right
      by_cases valid : ScreenStartValid screenStart
      · obtain ⟨mmu, result, _⟩ := syscallVidmap_effect sound.sound able.2 valid
        simp only [videoMachine, result]
        refine stored.of_same rfl ?_
        by_cases this : pid = s.proc.activePid
        · simp only [Proc.setPcb, this, Function.update_self]
        · simp only [Proc.setPcb, Function.update_of_ne this]
      · simp only [videoMachine, syscallVidmap_invalid valid]
        exact stored.of_same rfl rfl

/-- An `execute` call that enters the new program has stored its argument. -/
theorem Sound.execute_stores (sound : Sound s) {stack : List UInt8} {command : CharPtr}
    {context : Context} (able : s.able (.execute stack command context)) {entryPoint : Nat}
    (enters : (s.syscallExecute bootBlock stack command context).control = .enterUser entryPoint)
    (short : strlen command ≤ MAX_ARG_LENGTH + 3)
    (given : secondWord (chars command) ≠ [])
    (fits : (secondWord (chars command)).length < MAX_ARG_LENGTH) :
    ArgumentStored (secondWord (chars command))
      (s.syscallExecute bootBlock stack command context).proc.activePid
      (s.syscallExecute bootBlock stack command context) := by
  have outcome : Outcome bootBlock s (.execute stack command context)
      (s.syscallExecute bootBlock stack command context) := State.step_outcome sound able
  obtain ⟨argumentExist, argBuf⟩ :
      (s.syscallExecute bootBlock stack command context).proc.argumentExist =
          (s.checkCommand bootBlock stack command).1.proc.argumentExist ∧
        (s.syscallExecute bootBlock stack command context).proc.argBuf =
          (s.checkCommand bootBlock stack command).1.proc.argBuf :=
    State.syscallExecute_globals stack command context s
  generalize s.syscallExecute bootBlock stack command context = after
    at outcome enters argumentExist argBuf ⊢
  cases outcome with
  | rejected refused => cases enters
  | full passed noPid notFull => cases enters
  | fault faulting faults elsewhere => exact absurd faulting id
  | @started _ _ _ argBuf' argumentExist' new eip _ _ _ active passed free child small notFull
      switched writes =>
      have scanned : (s.checkCommand bootBlock stack command).1.proc = _ :=
        checkCommand_scans notFull short
      rw [scanned] at argumentExist argBuf
      have filled : argBuf' = padded (secondWord (chars command)) := by
        refine argBuf.trans ?_
        have room : MAX_ARG_LENGTH - (secondWord (chars command)).length =
            MAX_ARG_LENGTH - ((secondWord (chars command)).length + 1) + 1 := by omega
        rw [padded, room, List.replicate_succ, List.append_assoc, List.singleton_append]
      constructor
      · rw [argumentExist, if_neg given]
        exact Nat.one_ne_zero
      · refine (Proc.started_argBuf _ _ _ _ _).trans ((if_pos rfl).trans ?_)
        rw [State.newPcb, filled]
        exact List.take_of_length_le (Nat.le_of_eq (padded_length fits))

/-- A command that enters a program has passed the length check. -/
theorem Sound.accepted_of_enters (sound : Sound s) {stack : List UInt8} {command : CharPtr}
    {context : Context} (able : s.able (.execute stack command context)) {entryPoint : Nat}
    (enters : (s.syscallExecute bootBlock stack command context).control =
      .enterUser entryPoint) : Accepted command := by
  have outcome : Outcome bootBlock s (.execute stack command context)
      (s.syscallExecute bootBlock stack command context) := State.step_outcome sound able
  generalize s.syscallExecute bootBlock stack command context = after at outcome enters
  cases outcome with
  | rejected refused => cases enters
  | full passed noPid notFull => cases enters
  | started active passed free child small notFull switched writes =>
      have starts : StartsProgram bootBlock s (.execute stack command context) :=
        startsProgram_iff.mpr passed
      exact Int.not_lt.mpr starts.2.1
  | fault faulting faults elsewhere => exact absurd faulting id

end Steps

section Runs

variable {later : State} {bootBlock : Option Image} {command : CharPtr}

/-- The argument of the process is still in place. -/
theorem StartedFor.stored (startedFor : StartedFor bootBlock command later)
    (given : 1 ≤ (secondWord (chars command)).length)
    (fits : (secondWord (chars command)).length ≤ 32) :
    ArgumentStored (secondWord (chars command)) later.proc.activePid later := by
  obtain ⟨running, s, caller, buffers, va, entryPoint, stack, context, before, after, on, run, held,
    able, enters, further, others, active⟩ := startedFor
  have sound : VideoSound caller := (on.entry_videoSound buffers).of_run run able.1
  have short : strlen command ≤ MAX_ARG_LENGTH + 3 := by
    have bounded : caller.Bounded := (State.entry_bounded buffers s).of_run run
    exact (sound.sound.accepted_of_enters able enters).short (bounded.strlen_lt held)
  have nonempty : secondWord (chars command) ≠ [] := List.ne_nil_of_length_pos given
  have start := sound.sound.execute_stores able enters short nonempty (Nat.lt_succ_of_le fits)
  let call : VideoAction := .kernel (.execute stack command context)
  have next : ((videoMachine bootBlock).next caller call).faulted = true ∨
      VideoSound ((videoMachine bootBlock).next caller call) := videoMachine_sound sound able
  -- what holds of every state after the call
  have kept := further.invariant_of_each
    (I := fun s => s.faulted = true ∨ VideoSound s ∧ ArgumentStored (secondWord (chars command))
      (caller.syscallExecute bootBlock stack command context).proc.activePid s)
    (P := fun _ action => action.NotExecute) ?_ (next.imp_right fun sound => ⟨sound, start⟩)
    (.of_forall others)
  · rw [active]
    exact (kept.resolve_left (by simp [running])).2
  · intro s action holds able other
    obtain ⟨sound, stored⟩ := holds.resolve_left (by simp [videoMachine_running able])
    exact (videoMachine_sound sound able).elim .inl
      fun sound' => (stored.next sound able other).imp_right fun stored' => ⟨sound', stored'⟩

/-- For a process that was started with an argument of 1 to 32 bytes, `getargs` keeps to the
    caller's limit if and only if the limit is not just the length of the argument.  (Where the
    buffer is NULL nothing is stored, and -1 is returned.) -/
theorem getargs_within_limit_iff (startedFor : StartedFor bootBlock command later)
    (given : 1 ≤ (secondWord (chars command)).length)
    (fits : (secondWord (chars command)).length ≤ 32) (nbytes : Int) :
    WithinLimit (later.syscallGetargs false nbytes) (secondWord (chars command)) nbytes ↔
      nbytes ≠ (secondWord (chars command)).length := by
  have stored := startedFor.stored given fits
  exact withinLimit_iff stored (Nat.lt_succ_of_le fits)
    (fun c inWord => chars_nonzero (mem_of_secondWord inWord)) nbytes

end Runs

theorem shellWithArgument_second : secondWord (chars shellWithArgument) = [0x78] := by
  decide +kernel

/-- The shell of terminal 2 starts a program with the argument `x`. -/
theorem PowerOn.shellWithArgument_startedFor {s : State} (on : PowerOn s) :
    ∃ later, StartedFor (some shellImage) shellWithArgument later := by
  have fresh := (on.entry_fresh (some shellImage) (fun _ => [])).1
  have start : VideoSound (s.entry (some shellImage) fun _ => []) := on.entry_videoSound _
  obtain ⟨caller, run, held, running, active, count, pool⟩ := fresh.command_held (some shellImage)
    ⟨0x7FFF00, 0x7FFF80⟩ (text "shell x") (by decide +kernel) (by decide)
  have able : caller.able (.execute [] shellWithArgument ⟨0x7FDF00, 0x7FDF80⟩) :=
    ⟨running, by rw [active]; decide⟩
  have sound := start.of_run run running
  have free : (List.range 7).find? (fun i => caller.proc.processes i = 0) ≠ none := by
    rw [pool]
    decide
  obtain ⟨pid, argBuf, argumentExist, eip, display, entryPoint, child, _, started, _, valid⟩ :=
    sound.sound.starts able (shellWithArgument_starts count _) free
  refine ⟨_, ?_, s, caller, fun _ => [], VIRTUAL_128MB_START, entryPoint, [],
    ⟨0x7FDF00, 0x7FDF80⟩, _, [], on, run, held, able, ?_, .nil _,
    fun action none => absurd none List.not_mem_nil, rfl⟩
  · rw [started]
    exact valid.fault
  · rw [started]

/-- Room for the one letter, and none for its NUL: both are stored. -/
theorem one_byte_of_room_gets_two : ∃ later,
    StartedFor (some shellImage) shellWithArgument later ∧
      later.syscallGetargs false 1 = ⟨0, [0x78, 0]⟩ ∧
      ¬ WithinLimit (later.syscallGetargs false 1) (secondWord (chars shellWithArgument)) 1 := by
  obtain ⟨later, startedFor⟩ := poweredOn_powerOn.shellWithArgument_startedFor
  have second := shellWithArgument_second
  have stored := startedFor.stored (by rw [second]; decide) (by rw [second]; decide)
  rw [second] at stored ⊢
  refine ⟨later, startedFor, ?_, fun within => ?_⟩
  · exact State.getargs_stored stored.set stored.stored (by decide) (by decide +kernel) 1
  · exact (withinLimit_iff stored (by decide) (by decide +kernel) 1).mp within rfl

theorem two_bytes_of_room_iff : ∃ later,
    StartedFor (some shellImage) shellWithArgument later ∧
      (WithinLimit (later.syscallGetargs false 2) (secondWord (chars shellWithArgument)) 2 ↔
        (2 : Int) ≠ (secondWord (chars shellWithArgument)).length) := by
  obtain ⟨later, startedFor⟩ := poweredOn_powerOn.shellWithArgument_startedFor
  have second := shellWithArgument_second
  exact ⟨later, startedFor, getargs_within_limit_iff startedFor (by rw [second]; decide)
    (by rw [second]; decide) 2⟩

end LightOS.Kernel
