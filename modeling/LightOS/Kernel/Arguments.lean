import LightOS.Kernel.Command
import LightOS.Kernel.Contexts
import LightOS.Kernel.Shows
import LightOS.Kernel.Stack

/-! # The arguments of a process

`execute` leaves the argument of a command in two places: the word itself in the control
block of the new process, and whether there is one in the global `argument_exist`, which every
later `execute` sets again.  `getargs` reads both.  A run is recorded together with the command
that each process was started by, and `getargs_right_iff` says in which states of the record
the answer of `getargs` is the right one.
-/

namespace LightOS.Kernel

open Lib Filesystem Descriptor

namespace State

/-- `syscall_getargs` -/
def syscallGetargs (s : State) (bufIsNull : Bool) (nbytes : Int) : Transfer :=
  if s.proc.argumentExist = 0 then .failed
  else if bufIsNull then .failed
  else
    let argBuf := charPtr (s.proc.pcb s.proc.activePid).argBuf
    let length := toInt32 (strlen argBuf)
    if nbytes < length then .failed
    else ⟨0, (List.range (length + 1).toNat).map argBuf⟩

end State

/-- A word in a buffer of `MAX_ARG_LENGTH` bytes that has been cleared before. -/
def padded (word : List UInt8) : List UInt8 :=
  word ++ List.replicate (MAX_ARG_LENGTH - word.length) 0

/-- A state together with its history: the command each process was started by, and the last
    command that `execute` has looked at. -/
structure Recorded where
  state : State
  startedBy : Nat → Option CharPtr
  lastCommand : Option CharPtr

namespace Recorded

/-- The argument word of a process; a root shell has none. -/
def word (r : Recorded) (pid : Nat) : Option (List UInt8) :=
  (r.startedBy pid).bind argumentWord

/-- The argument word of the last command. -/
def lastWord (r : Recorded) : Option (List UInt8) := r.lastCommand.bind argumentWord

/-- Before any command. -/
def start (s : State) : Recorded := ⟨s, fun _ => none, none⟩

/-- `execute` looks at the command when the counter allows another process, and has started it
    when it does not return. -/
def next (bootBlock : Option Image) (r : Recorded) (action : Action) : Recorded :=
  let state := r.state.step bootBlock action
  match action with
  | .execute _ command _ =>
      { state
        startedBy :=
          match state.control with
          | .enterUser _ => Function.update r.startedBy state.proc.activePid (some command)
          | _ => r.startedBy
        lastCommand :=
          if r.state.proc.processCount = MAX_NUM_PROCESSES then r.lastCommand
          else some command }
  | _ => { r with state }

/-- The active process gets its own argument from `getargs`, and -1 if it has none. -/
def ArgumentsRight (r : Recorded) : Prop :=
  r.state.faulted = false → r.state.proc.activePid ≠ 0 →
    match r.word r.state.proc.activePid with
    | some word => ∀ nbytes, (word.length : Int) ≤ nbytes →
        r.state.syscallGetargs false nbytes = ⟨0, word ++ [0]⟩
    | none => ∀ nbytes, (r.state.syscallGetargs false nbytes).ret = -1

/-- The last command has an argument just when the active process has one. -/
def LastAgrees (r : Recorded) : Prop :=
  r.state.faulted = false → r.state.proc.activePid ≠ 0 →
    (r.lastWord ≠ none ↔ r.word r.state.proc.activePid ≠ none)

end Recorded

/-- `schedule`, `execute` and `halt`, with their history. -/
def recordedMachine (bootBlock : Option Image) : Machine Recorded Action where
  enabled r action := (processMachine bootBlock).enabled r.state action
  next := Recorded.next bootBlock

/-- The words of the command of an `execute`. -/
def Action.WordsFit : Action → Prop
  | .execute _ command _ => Kernel.WordsFit command
  | _ => True

section Words

variable {word text : List UInt8} {command : CharPtr}

theorem mem_of_firstWord {c : UInt8} (inWord : c ∈ firstWord text) : c ∈ text :=
  (List.dropWhile_sublist _).subset ((List.takeWhile_sublist _).subset inWord)

theorem mem_of_secondWord {c : UInt8} (inWord : c ∈ secondWord text) : c ∈ text :=
  (List.dropWhile_sublist _).subset ((List.dropWhile_sublist _).subset (mem_of_firstWord inWord))

theorem chars_nonzero {c : UInt8} (inside : c ∈ chars command) : c ≠ 0 := by
  obtain ⟨nonzero, _, _⟩ := strlen_spec command
  obtain ⟨k, before, rfl⟩ := List.mem_map.mp inside
  exact nonzero k (List.mem_range.mp before)

/-- A command with an argument is short enough, and its argument is the second word. -/
theorem argumentWord_given (given : argumentWord command = some word) :
    strlen command ≤ MAX_ARG_LENGTH + 3 ∧ word = secondWord (chars command) := by
  unfold argumentWord at given
  split at given
  · cases given
  · rename_i short
    split at given
    · cases given
    · exact ⟨Nat.not_lt.mp short, (Option.some.inj given).symm⟩

/-- An argument word fits, and has no NUL. -/
theorem argumentWord_fits (fit : WordsFit command) (given : argumentWord command = some word) :
    word.length < MAX_ARG_LENGTH ∧ ∀ c ∈ word, c ≠ 0 := by
  obtain ⟨short, rfl⟩ := argumentWord_given given
  exact ⟨(fit short).2, fun c inWord => chars_nonzero (mem_of_secondWord inWord)⟩

/-- What `strlen` and the copy loop make of a padded word. -/
theorem spells_padded (short : word.length < MAX_ARG_LENGTH) (nonzero : ∀ c ∈ word, c ≠ 0) :
    Spells (charPtr (padded word)) 0 word where
  char k inside := by
    rw [Nat.zero_add]
    refine ⟨?_, nonzero _ (List.getElem_mem inside)⟩
    rw [charPtr, padded, List.getD_eq_getElem?_getD, List.getElem?_append_left inside,
      List.getElem?_eq_getElem inside, Option.getD_some]
  nul := by
    have present : 0 < MAX_ARG_LENGTH - word.length := by omega
    simp [charPtr, padded, List.getD, present]

end Words

section Command

variable {s : State} {bootBlock : Option Image} {stack : List UInt8} {command : CharPtr}

/-- What the parsing loops leave behind of a command that is not too long. -/
theorem checkCommand_scans (notFull : s.proc.processCount ≠ MAX_NUM_PROCESSES)
    (short : strlen command ≤ MAX_ARG_LENGTH + 3) :
    (s.checkCommand bootBlock stack command).1.proc =
      { s.proc with
        argBuf := secondWord (chars command) ++ [0] ++
          List.replicate (MAX_ARG_LENGTH - ((secondWord (chars command)).length + 1)) 0
        argumentExist := if secondWord (chars command) = [] then 0 else 1 } := by
  have bound : strlen command ≤ 36 := short
  have length : (chars command).length = strlen command := by simp [chars]
  have whole : toInt32 (strlen command + 1) = ((strlen command + 1 : Nat) : Int) :=
    toInt32_small (by omega)
  have fits : ¬ (MAX_ARG_LENGTH : Int) + 4 < ((strlen command + 1 : Nat) : Int) := by
    rw [MAX_ARG_LENGTH]
    omega
  obtain ⟨next, first, spelled, aligned⟩ := scanWord_spells (spells_chars (s := command) (by omega))
  obtain ⟨_, second, _, _⟩ := scanWord_spells spelled
  rw [length] at first aligned
  have rounds : strlen command + 1 - next = (afterWord (chars command)).length + 1 := by omega
  simp only [State.checkCommand, if_neg notFull, whole, if_neg fits, Int.toNat_natCast, first,
    rounds, second]
  by_cases empty : firstWord (afterWord (chars command)) = [] <;> simp [secondWord, empty]

/-- The rounds of a command that is longer than an `int` can say. -/
theorem scanWord_few {rounds : Nat} (few : rounds ≤ 1) (nonempty : command 0 ≠ 0) :
    (scanWord command (scanWord command 0 false [] rounds).next false []
      (rounds - (scanWord command 0 false [] rounds).next)).seen = false := by
  obtain rfl | rfl : rounds = 0 ∨ rounds = 1 := by omega
  · rfl
  · have next : (scanWord command 0 false [] 1).next = 1 := by
      simp only [scanWord, if_neg nonempty, Bool.false_eq_true, and_false, if_false]
      split <;> rfl
    rw [next]
    rfl

/-- After the checks `argument_exist` says whether the command has an argument. -/
theorem checkCommand_argumentExist (notFull : s.proc.processCount ≠ MAX_NUM_PROCESSES) :
    (s.checkCommand bootBlock stack command).1.proc.argumentExist ≠ 0 ↔
      argumentWord command ≠ none := by
  by_cases short : strlen command ≤ MAX_ARG_LENGTH + 3
  · rw [checkCommand_scans notFull short, argumentWord, if_neg (Nat.not_lt.mpr short)]
    by_cases empty : secondWord (chars command) = [] <;> simp [empty]
  · have none : argumentWord command = none := by
      rw [argumentWord, if_pos (Nat.not_le.mp short)]
    rw [none]
    refine iff_of_false (fun set => set ?_) (fun some => some rfl)
    by_cases long : (MAX_ARG_LENGTH : Int) + 4 < toInt32 (strlen command + 1)
    · simp only [State.checkCommand, if_neg notFull, if_pos long]
      rfl
    · obtain ⟨nonzero, bound, _⟩ := strlen_spec command
      have nonempty : command 0 ≠ 0 := nonzero 0 (by omega)
      have few : (toInt32 (strlen command + 1)).toNat ≤ 1 := by
        rw [MAX_ARG_LENGTH] at long short
        simp only [toInt32] at long ⊢
        omega
      simp only [State.checkCommand, if_neg notFull, if_neg long, scanWord_few few nonempty]
      rfl

/-- And `arg_buf` holds the argument. -/
theorem checkCommand_argBuf (notFull : s.proc.processCount ≠ MAX_NUM_PROCESSES)
    (fit : WordsFit command) {word : List UInt8} (given : argumentWord command = some word) :
    (s.checkCommand bootBlock stack command).1.proc.argBuf = padded word := by
  obtain ⟨bound, _⟩ := argumentWord_fits fit given
  obtain ⟨short, rfl⟩ := argumentWord_given given
  have cleared : MAX_ARG_LENGTH - (secondWord (chars command)).length =
      MAX_ARG_LENGTH - ((secondWord (chars command)).length + 1) + 1 := by omega
  rw [checkCommand_scans notFull short, padded, cleared, List.replicate_succ, List.append_assoc,
    List.singleton_append]

end Command

section Kept

variable {s : State} {proc after : Proc} {bootBlock : Option Image}

theorem Proc.storeContext_argBuf (proc : Proc) (pid other : Nat) (context : Context) :
    ((proc.storeContext pid context).pcb other).argBuf = (proc.pcb other).argBuf := by
  by_cases this : other = pid <;> simp [Proc.storeContext, Proc.setPcb, Pcb.setContext, this]

theorem Proc.started_argBuf (proc : Proc) (pid other : Nat) (block : Pcb) (caller : Context) :
    ((proc.started pid block caller).pcb other).argBuf =
      if other = pid then block.argBuf else (proc.pcb other).argBuf := by
  have stored : ((proc.started pid block caller).pcb other).argBuf =
      ((proc.setPcb pid block).pcb other).argBuf :=
    (proc.setPcb pid block).storeContext_argBuf proc.activePid other caller
  rw [stored]
  by_cases this : other = pid <;> simp [Proc.setPcb, this]

theorem Proc.reaped_argBuf (proc : Proc) (t : TerminalId) (other : Nat) :
    ((proc.reaped t).pcb other).argBuf = (proc.pcb other).argBuf := by
  by_cases this : other = proc.activePid
  · simp [Proc.reaped, this, (Proc.closeAll_tail (proc.pcb proc.activePid)).argBuf]
  · simp [Proc.reaped, this]

/-- Starting a program leaves the two globals as the checks have set them. -/
theorem State.startProgram_globals (inode : Int) (caller : Context) (s : State) :
    (s.startProgram bootBlock inode caller).proc.argumentExist = s.proc.argumentExist ∧
      (s.startProgram bootBlock inode caller).proc.argBuf = s.proc.argBuf := by
  suffices (fun s : State => (s.proc.argumentExist, s.proc.argBuf))
      (s.startProgram bootBlock inode caller) = (s.proc.argumentExist, s.proc.argBuf) from
    Prod.mk.inj this
  simp only [startProgram, Proc.getProcessAvailable]
  cases (List.range 7).find? (fun i => s.proc.processes i = 0) with
  | none => rfl
  | some pid =>
      simp only
      split
      · apply andThen_keeps _ (fun s : State => (s.proc.argumentExist, s.proc.argBuf))
        · simp only [pagingVideoMemory_proc]
          rfl
        · intro s
          apply andThen_keeps _ (fun s : State => (s.proc.argumentExist, s.proc.argBuf))
          · rfl
          · intro s
            split
            · simp only [contextSwitchExecute_proc]
              rfl
            · simp only [exceptionHandler_proc]
      · simp only [exceptionHandler_proc]

/-- So does the whole call. -/
theorem State.syscallExecute_globals (stack : List UInt8) (command : CharPtr) (caller : Context)
    (s : State) :
    (s.syscallExecute bootBlock stack command caller).proc.argumentExist =
        (s.checkCommand bootBlock stack command).1.proc.argumentExist ∧
      (s.syscallExecute bootBlock stack command caller).proc.argBuf =
        (s.checkCommand bootBlock stack command).1.proc.argBuf := by
  unfold syscallExecute
  split
  · rename_i checked
    rw [checked]
    exact ⟨rfl, rfl⟩
  · rename_i checked
    rw [checked]
    exact startProgram_globals _ _ _

/-- No other step touches the global or a word. -/
theorem Outcome.arguments {action : Action} {later : State}
    (outcome : Outcome bootBlock s action later)
    (other : ∀ stack command caller, action ≠ .execute stack command caller) :
    later.faulted = true ∨ later.proc.argumentExist = s.proc.argumentExist ∧
      ∀ pid, (later.proc.pcb pid).argBuf = (s.proc.pcb pid).argBuf := by
  cases outcome with
  | putc output | clear output | echo output | echoBack output | echoClear output =>
      exact .inr ⟨rfl, fun _ => rfl⟩
  | userStore writes | kernelCopy writes => exact .inr ⟨rfl, fun _ => rfl⟩
  | switchSame same | switchTo other shown => exact .inr ⟨rfl, fun _ => rfl⟩
  | enter switched => exact .inr ⟨rfl, fun _ => rfl⟩
  | first next idle switched => exact .inr ⟨rfl, fun _ => Proc.storeContext_argBuf _ _ _ _⟩
  | next next occupied switched => exact .inr ⟨rfl, fun _ => Proc.storeContext_argBuf _ _ _ _⟩
  | root root switched => exact .inr ⟨rfl, fun _ => rfl⟩
  | child child terminal switched => exact .inr ⟨rfl, fun _ => Proc.reaped_argBuf _ _ _⟩
  | rejected refused => exact (other _ _ _ rfl).elim
  | full passed noPid notFull => exact (other _ _ _ rfl).elim
  | started active passed free child small notFull switched writes => exact (other _ _ _ rfl).elim
  | fault faulting faults elsewhere => exact .inl faults

/-- What `getargs` makes of a word in the control block of the active process. -/
theorem State.getargs_stored (set : s.proc.argumentExist ≠ 0) {word : List UInt8}
    (stored : (s.proc.pcb s.proc.activePid).argBuf = padded word)
    (bound : word.length < MAX_ARG_LENGTH) (nonzero : ∀ c ∈ word, c ≠ 0) (nbytes : Int) :
    s.syscallGetargs false nbytes =
      if nbytes < word.length then .failed else ⟨0, word ++ [0]⟩ := by
  have spells := spells_padded bound nonzero
  have small : word.length < 2 ^ 31 := by
    rw [MAX_ARG_LENGTH] at bound
    omega
  have length : toInt32 (strlen (charPtr (padded word))) = word.length := by
    rw [spells.strlen_eq (by omega), toInt32_small small]
  have copied : (List.range ((word.length : Int) + 1).toNat).map (charPtr (padded word)) =
      word ++ [0] := by
    apply List.ext_getElem
    · simp
    · intro k inRange inWord
      simp only [List.getElem_map, List.getElem_range]
      by_cases inside : k < word.length
      · rw [List.getElem_append_left inside, ← (spells.char k inside).1, Nat.zero_add]
      · have last : k = word.length := by
          simp at inWord
          omega
        subst last
        have nul := spells.nul
        rw [Nat.zero_add] at nul
        simp [nul]
  simp only [syscallGetargs, if_neg set, stored, length, copied, Bool.false_eq_true, if_false]

namespace Recorded

variable {r : Recorded}

/-- What the two places hold: the global what is said of the last command, the control blocks
    the words of the commands that their processes were started by. -/
structure Kept (r : Recorded) : Prop where
  sound : Sound r.state
  global : r.state.proc.argumentExist ≠ 0 ↔ r.lastWord ≠ none
  stored : ∀ pid word, r.word pid = some word →
    word.length < MAX_ARG_LENGTH ∧ (∀ c ∈ word, c ≠ 0) ∧
      (r.state.proc.pcb pid).argBuf = padded word

/-- What `execute` leaves in the global. -/
theorem Kept.execute_global (kept : Kept r) (stack : List UInt8) (command : CharPtr)
    (caller : Context) :
    (r.state.syscallExecute bootBlock stack command caller).proc.argumentExist ≠ 0 ↔
      (Recorded.next bootBlock r (.execute stack command caller)).lastWord ≠ none := by
  rw [(State.syscallExecute_globals stack command caller r.state).1]
  by_cases full : r.state.proc.processCount = MAX_NUM_PROCESSES
  · have same : (r.state.checkCommand bootBlock stack command).1.proc = r.state.proc := by
      simp only [State.checkCommand, if_pos full, State.printf]
    simp only [same, lastWord, Recorded.next, if_pos full]
    exact kept.global
  · simp only [lastWord, Recorded.next, if_neg full, Option.bind_some]
    exact checkCommand_argumentExist full

/-- A call that returns has started nothing; one that does not return has stored the word of
    its command for the new process. -/
theorem Kept.execute_stored (kept : Kept r) {stack : List UInt8} {command : CharPtr}
    {caller : Context} (able : r.state.able (.execute stack command caller))
    (fit : WordsFit command) :
    ∀ pid word, (Recorded.next bootBlock r (.execute stack command caller)).word pid = some word →
      word.length < MAX_ARG_LENGTH ∧ (∀ c ∈ word, c ≠ 0) ∧
        ((r.state.syscallExecute bootBlock stack command caller).proc.pcb pid).argBuf =
          padded word := by
  intro pid word given
  have outcome : Outcome bootBlock r.state (.execute stack command caller)
      (r.state.syscallExecute bootBlock stack command caller) :=
    State.step_outcome kept.sound able
  have buffer : (r.state.syscallExecute bootBlock stack command caller).proc.argBuf =
      (r.state.checkCommand bootBlock stack command).1.proc.argBuf :=
    (State.syscallExecute_globals stack command caller r.state).2
  simp only [Recorded.word, Recorded.next, State.step] at given
  generalize r.state.syscallExecute bootBlock stack command caller = later
    at outcome buffer given ⊢
  cases outcome with
  | rejected refused => exact kept.stored pid word given
  | full passed noPid notFull => exact kept.stored pid word given
  | fault faulting faults elsewhere => exact absurd faulting id
  | @started _ _ _ argBuf argumentExist new eip _ _ _ active passed free child small notFull
      switched writes =>
      have own : (Proc.started { r.state.proc with argBuf, argumentExist } new
          (State.newPcb { r.state with proc := { r.state.proc with argBuf, argumentExist } } new
            eip) caller).activePid = new := rfl
      rw [Proc.started_argBuf]
      by_cases isNew : pid = new
      · simp only [own, isNew, Function.update_self, Option.bind_some] at given
        obtain ⟨bound, nonzero⟩ := argumentWord_fits fit given
        have filled : argBuf = padded word := buffer.trans (checkCommand_argBuf notFull fit given)
        refine ⟨bound, nonzero, ?_⟩
        rw [if_pos isNew, State.newPcb, filled]
        refine List.take_of_length_le ?_
        simp only [padded, List.length_append, List.length_replicate]
        omega
      · simp only [own, Function.update_of_ne isNew] at given
        rw [if_neg isNew]
        exact kept.stored pid word given

theorem Kept.next {action : Action} (kept : Kept r)
    (able : (processMachine bootBlock).enabled r.state action) (fit : action.WordsFit) :
    (r.next bootBlock action).state.faulted = true ∨ Kept (r.next bootBlock action) := by
  obtain ⟨able, kind⟩ := able
  have outcome : Outcome bootBlock r.state action (r.state.step bootBlock action) :=
    State.step_outcome kept.sound able
  rcases outcome.sound kept.sound with faults | sound
  · refine .inl ?_
    cases action <;> exact faults.2
  · cases action with
    | execute stack command caller =>
        exact .inr ⟨sound, kept.execute_global stack command caller,
          kept.execute_stored able fit⟩
    | schedule interrupted | halt status =>
        refine (outcome.arguments (by simp)).imp_right fun same => ?_
        exact
          { sound
            global := same.1.symm ▸ kept.global
            stored := fun pid word given => same.2 pid ▸ kept.stored pid word given }
    | _ => cases kind

/-- What `getargs` answers, when the global is set. -/
theorem Kept.answer (kept : Kept r) (set : r.state.proc.argumentExist ≠ 0) {word : List UInt8}
    (given : r.word r.state.proc.activePid = some word) {nbytes : Int}
    (enough : (word.length : Int) ≤ nbytes) :
    r.state.syscallGetargs false nbytes = ⟨0, word ++ [0]⟩ := by
  obtain ⟨bound, nonzero, stored⟩ := kept.stored _ word given
  rw [State.getargs_stored set stored bound nonzero, if_neg (Int.not_lt.mpr enough)]

/-- The answer is right just when the last command agrees with the active process. -/
theorem Kept.argumentsRight_iff (kept : Kept r) : r.ArgumentsRight ↔ r.LastAgrees := by
  unfold ArgumentsRight LastAgrees
  refine imp_congr_right fun running => imp_congr_right fun active => ?_
  rw [← kept.global]
  cases given : r.word r.state.proc.activePid with
  | some word =>
      refine ⟨fun right => iff_of_true (fun zero => ?_) (Option.some_ne_none word),
        fun agrees nbytes enough => ?_⟩
      · have answer := right word.length (Int.le_refl _)
        simp [State.syscallGetargs, zero, Transfer.failed] at answer
      · exact kept.answer (agrees.mpr (Option.some_ne_none word)) given enough
  | none =>
      refine ⟨fun right => iff_of_false (fun set => ?_) (fun some => some rfl),
        fun agrees nbytes => ?_⟩
      · have answer := right
          (toInt32 (strlen (charPtr (r.state.proc.pcb r.state.proc.activePid).argBuf)))
        simp [State.syscallGetargs, set] at answer
      · have zero : r.state.proc.argumentExist = 0 := by
          by_contra set
          exact absurd rfl (agrees.mp set)
        simp [State.syscallGetargs, zero, Transfer.failed]

/-- The record of a run, as long as the machine has not stopped in an exception. -/
theorem Kept.of_run {as : List Action} {later : Recorded}
    (run : (recordedMachine bootBlock).Run r as later) (kept : Kept r)
    (fit : (recordedMachine bootBlock).EachStep (fun _ action => action.WordsFit) r as) :
    later.state.faulted = true ∨ Kept later := by
  refine run.invariant_of_each (I := fun r => r.state.faulted = true ∨ Kept r) ?_ (.inr kept) fit
  intro r action holds able fit
  exact (holds.resolve_left (by simp [able.1.1])).next able fit

/-- Before the first command, with `argument_exist` zero. -/
theorem Kept.of_fresh (fresh : Fresh s) (zero : s.proc.argumentExist = 0) : Kept (start s) where
  sound := fresh.sound
  global := iff_of_false (fun set => set zero) (fun some => some rfl)
  stored pid word given := by cases given

end Recorded

/-- `entry` leaves `argument_exist` as the loader does. -/
theorem State.entry_argumentExist (buffers : TerminalId → List UInt8) (s : State) :
    (s.entry bootBlock buffers).proc.argumentExist = s.proc.argumentExist := by
  have created (t : TerminalId) (s : State) (stack : List UInt8) :
      (s.createTerminalShell t bootBlock stack).proc.argumentExist = s.proc.argumentExist := by
    simp only [createTerminalShell]
    split
    · rfl
    · split
      · apply andThen_keeps _ (fun s : State => s.proc.argumentExist)
        · rfl
        · intro s
          split
          · rfl
          · exact congrArg Proc.argumentExist (exceptionHandler_proc s PAGE_FAULT)
      · rfl
  simp only [entry, createTerminal1Shell, createTerminal2Shell, createTerminal3Shell, created,
    printf, initDevices, pageInitialize, keyboardInit]

/-- After every run of `schedule`, `execute` and `halt` from the `hlt` loop of `entry` on, whose
    commands have words that fit: `getargs` answers the active process rightly if and only if the
    last command that `execute` has looked at has an argument just when the command has that the
    process was started by. -/
theorem getargs_right_iff (on : PowerOn s) (zero : s.proc.argumentExist = 0)
    {buffers : TerminalId → List UInt8} {as : List Action} {later : Recorded}
    (run : (recordedMachine bootBlock).Run (Recorded.start (s.entry bootBlock buffers)) as later)
    (fit : (recordedMachine bootBlock).EachStep (fun _ action => action.WordsFit)
      (Recorded.start (s.entry bootBlock buffers)) as) :
    later.ArgumentsRight ↔ later.LastAgrees := by
  have fresh := (on.entry_fresh bootBlock buffers).1
  have start := Recorded.Kept.of_fresh fresh ((State.entry_argumentExist buffers s).trans zero)
  rcases start.of_run run fit with faults | kept
  · refine iff_of_true (fun running => ?_) (fun running => ?_) <;>
    · rw [faults] at running
      cases running
  · exact kept.argumentsRight_iff

end Kept

/-- A command with an argument. -/
def shellWithArgument : CharPtr := charPtr (text "shell x")

theorem shellWithArgument_word : argumentWord shellWithArgument = some [0x78] := by decide +kernel

theorem shellWithArgument_fits : WordsFit shellWithArgument :=
  fun _ => ⟨by decide +kernel, by decide +kernel⟩

/-- With three processes, every shell can start another with an argument. -/
theorem shellWithArgument_starts {s : State} (count : s.proc.processCount = 3)
    (caller : Context) :
    StartsProgram (some shellImage) s (.execute [] shellWithArgument caller) := by
  refine ⟨by rw [count]; decide, by decide +kernel, ?_⟩
  decide +kernel

/-- The shell of terminal 2 starts a program with an argument. -/
theorem Fresh.argument_given {s : State} (fresh : Fresh s) (context caller : Context) :
    let child := (s.step (some shellImage) (.schedule context)).step (some shellImage)
      (.execute [] shellWithArgument caller)
    (recordedMachine (some shellImage)).Run (Recorded.start s)
        [.schedule context, .execute [] shellWithArgument caller]
        ⟨child, Function.update (fun _ => none) child.proc.activePid (some shellWithArgument),
          some shellWithArgument⟩ ∧
      Sound child ∧ 4 ≤ child.proc.activePid ∧ child.proc.activeTerminal = .terminal2 ∧
      child.proc.currentProcessId .terminal3 = 0 := by
  intro child
  obtain ⟨able, sound, isChild, terminal, idle, entryPoint, control⟩ :=
    fresh.child_started context fun _ count => shellWithArgument_starts count caller
  obtain ⟨_, proc, _⟩ := fresh.scheduled (some shellImage) context
  have count : (s.step (some shellImage) (.schedule context)).proc.processCount = 3 := by
    rw [proc]
    exact fresh.processCount
  have notFull :
      (s.step (some shellImage) (.schedule context)).proc.processCount ≠ MAX_NUM_PROCESSES := by
    rw [count]
    decide
  have record : (recordedMachine (some shellImage)).next
      (Recorded.start (s.step (some shellImage) (.schedule context)))
      (.execute [] shellWithArgument caller) =
        ⟨child, Function.update (fun _ => none) child.proc.activePid (some shellWithArgument),
          some shellWithArgument⟩ := by
    simp only [recordedMachine, Recorded.next, Recorded.start, control, if_neg notFull, child]
  refine ⟨.cons ⟨⟨fresh.running, trivial⟩, trivial⟩ (.cons ⟨able, trivial⟩ ?_), sound, isChild,
    terminal, idle⟩
  exact record ▸ .nil _

/-- The timer then enters the shell of terminal 3. -/
theorem Fresh.argument_elsewhere {s : State} (fresh : Fresh s)
    (zero : s.proc.argumentExist = 0) (context caller interrupted : Context) :
    ∃ later, (recordedMachine (some shellImage)).Run (Recorded.start s)
        [.schedule context, .execute [] shellWithArgument caller, .schedule interrupted] later ∧
      ¬ later.ArgumentsRight := by
  obtain ⟨run, sound, isChild, terminal, idle⟩ := fresh.argument_given context caller
  generalize (s.step (some shellImage) (.schedule context)).step (some shellImage)
    (.execute [] shellWithArgument caller) = child at run sound isChild terminal idle
  obtain ⟨display, entryPoint, entered, switched⟩ := State.schedule_first sound.valid.toMapped
    interrupted (t := .terminal3) (by rw [terminal]; rfl) idle
  generalize entered_eq : State.mk ((child.proc.storeContext 2 interrupted).entered .terminal3)
    display (.enterUser entryPoint) = shell
  have reached : child.step (some shellImage) (.schedule interrupted) = shell :=
    entered.trans entered_eq
  have running : shell.faulted = false := entered_eq ▸ switched.valid.fault
  have active : shell.proc.activePid = 3 := entered_eq ▸ rfl
  have next : (recordedMachine (some shellImage)).next
      ⟨child, Function.update (fun _ => none) child.proc.activePid (some shellWithArgument),
        some shellWithArgument⟩ (.schedule interrupted) =
      ⟨shell, Function.update (fun _ => none) child.proc.activePid (some shellWithArgument),
        some shellWithArgument⟩ := by
    simp only [recordedMachine, Recorded.next, reached]
  have last := Machine.Run.cons (M := recordedMachine (some shellImage)) (s := ⟨child,
    Function.update (fun _ => none) child.proc.activePid (some shellWithArgument),
    some shellWithArgument⟩) (a := .schedule interrupted)
    ⟨⟨sound.valid.fault, trivial⟩, trivial⟩ (.nil _)
  rw [next] at last
  have whole := run.append last
  refine ⟨_, whole, fun right => ?_⟩
  have kept := ((Recorded.Kept.of_fresh fresh zero).of_run whole
    ⟨trivial, shellWithArgument_fits, trivial, trivial⟩).resolve_left
    (by simp [running])
  have agrees := kept.argumentsRight_iff.mp right running (by rw [active]; decide)
  have none : Recorded.word ⟨shell, Function.update (fun _ => none) child.proc.activePid
      (some shellWithArgument), some shellWithArgument⟩ shell.proc.activePid = none := by
    have apart : shell.proc.activePid ≠ child.proc.activePid := by omega
    simp only [Recorded.word, Function.update_of_ne apart, Option.bind_none]
  refine agrees.mp ?_ none
  simp only [Recorded.lastWord, Option.bind_some, shellWithArgument_word]
  exact Option.some_ne_none _

/-- A shell that has been started without an argument is given another process's. -/
theorem root_shell_is_given_an_argument :
    ∃ later, (recordedMachine (some shellImage)).Run
        (Recorded.start (poweredOn.entry (some shellImage) (fun _ => [])))
        [.schedule ⟨0x7FFF00, 0x7FFF80⟩, .execute [] shellWithArgument ⟨0x7FDF00, 0x7FDF80⟩,
          .schedule ⟨0x7F7F00, 0x7F7F80⟩] later ∧
      ¬ later.ArgumentsRight := by
  have fresh := (poweredOn_powerOn.entry_fresh (some shellImage) (fun _ => [])).1
  exact fresh.argument_elsewhere (State.entry_argumentExist _ _) _ _ _

theorem started_program_gets_argument :
    ∃ later, (recordedMachine (some shellImage)).Run
        (Recorded.start (poweredOn.entry (some shellImage) (fun _ => [])))
        [.schedule ⟨0x7FFF00, 0x7FFF80⟩, .execute [] shellWithArgument ⟨0x7FDF00, 0x7FDF80⟩] later ∧
      later.word later.state.proc.activePid = some [0x78] ∧ later.ArgumentsRight := by
  have fresh := (poweredOn_powerOn.entry_fresh (some shellImage) (fun _ => [])).1
  obtain ⟨child, run⟩ : ∃ child, (recordedMachine (some shellImage)).Run
      (Recorded.start (poweredOn.entry (some shellImage) (fun _ => [])))
      [.schedule ⟨0x7FFF00, 0x7FFF80⟩, .execute [] shellWithArgument ⟨0x7FDF00, 0x7FDF80⟩]
      ⟨child, Function.update (fun _ => none) child.proc.activePid (some shellWithArgument),
        some shellWithArgument⟩ := ⟨_, (fresh.argument_given _ _).1⟩
  refine ⟨_, run, ?_, (getargs_right_iff poweredOn_powerOn rfl run
    ⟨trivial, shellWithArgument_fits, trivial⟩).mpr fun _ _ => ?_⟩
  · simp [Recorded.word, shellWithArgument_word]
  · simp [Recorded.word, Recorded.lastWord, shellWithArgument_word]

end LightOS.Kernel
