import LightOS.Kernel.Arguments
import LightOS.Kernel.Preemption

/-! # The one argument buffer

Every `execute` clears the global `arg_buf`, collects the argument of its command in it and copies
it, many statements later, into the control block of the new process.  In between the buffer
has to stay as the call has left it.  A run is recorded together with the command for which each
control block was filled last, and `arguments_kept` says that no control block ever holds
anything but the argument of that command, if no call stores into the buffer while
another one is still using it.
-/

namespace LightOS.Kernel

open Lib Filesystem Descriptor

/-- The argument of a command; empty if it has none. -/
def argumentOf (command : CharPtr) : List UInt8 := (argumentWord command).getD []

/-- A state together with its history: the command of the `execute` call that has last copied
    `arg_buf` into a control block. -/
structure Traced where
  state : Interleaved
  filledBy : Nat → Option CharPtr

namespace Traced

def start (proc : Proc) : Traced := ⟨.start proc, fun _ => none⟩

def next (bootBlock : Option Image) (r : Traced) (move : Move) : Traced where
  state := r.state.step bootBlock move
  filledBy :=
    match move, r.state.running with
    | .statement, .execute .copyArgBuf call =>
        Function.update r.filledBy call.newProcessId (some call.command)
    | _, _ => r.filledBy

/-- Every control block holds the argument of the command it was filled for. -/
def ArgumentsKept (r : Traced) : Prop :=
  ∀ pid, ∀ command ∈ r.filledBy pid,
    (r.state.proc.pcb pid).argBuf = padded (argumentOf command)

end Traced

/-- The preempted kernel, with its history. -/
def tracedMachine (bootBlock : Option Image) : Machine Traced Move where
  enabled r move := r.state.able move
  next := Traced.next bootBlock

instance (bootBlock : Option Image) (r : Traced) (move : Move) :
    Decidable ((tracedMachine bootBlock).enabled r move) :=
  inferInstanceAs (Decidable (r.state.able move))

/-- The words of the command of an `execute`. -/
def Move.WordsFit : Move → Prop
  | .execute command _ _ _ => Kernel.WordsFit command
  | _ => True

def Move.isTimer : Move → Bool
  | .timer _ => true
  | _ => false

/-- From the `memset` of `arg_buf` to the `memcpy` from it. -/
def ExecutePc.usesArgBuf : ExecutePc → Bool
  | parseName | parseArgument | noteArgument | findProgram | countProcess | getProcess
  | initDescriptors | setCurrentPid | setParentPid | setCurrentEsp | setCurrentEbp
  | setCurrentEip | setVidmapFlag | setTerminal | copyArgBuf => true
  | _ => false

namespace Path

def usesArgBuf : Path → Bool
  | execute pc _ => pc.usesArgBuf
  | _ => false

/-- About to store into `arg_buf`. -/
def storesArgBuf : Path → Bool
  | execute .clearArgBuf _ | execute .parseArgument _ => true
  | _ => false

end Path

/-- A store into `arg_buf` while a suspended call is using it. -/
def Intrudes (s : Interleaved) : Move → Prop
  | .statement =>
      s.running.storesArgBuf = true ∧
        ∃ pid path, s.saved pid = some (.path path) ∧ path.usesArgBuf = true
  | _ => False

/-- The second parsing loop, before a round: what it has taken of the argument, and what is left
    of the command; or it has come to the end of the command as an `int` counts it. -/
def ExecuteCall.Parsing (argBuf : List UInt8) (call : ExecuteCall) : Prop :=
  ∃ taken, argBuf = padded taken ∧ taken.length = call.argIdx ∧
    ((call.len ≤ call.i ∧ taken = argumentOf call.command) ∨
      ∃ rest, Spells call.command call.i rest ∧ (call.i + rest.length + 1 : Int) = call.len ∧
        if call.flag then taken ++ rest.takeWhile (· ≠ SPACE) = argumentOf call.command
        else taken = [] ∧ firstWord rest = argumentOf call.command)

/-- What `arg_buf` holds for a call. -/
def ExecuteCall.Sound (argBuf : List UInt8) (call : ExecuteCall) : ExecutePc → Prop
  | .clearArgBuf => call.len ≤ MAX_ARG_LENGTH + 4
  | .parseName => call.len ≤ MAX_ARG_LENGTH + 4 ∧ argBuf = padded []
  | .parseArgument => call.Parsing argBuf
  | .noteArgument => { call with i := call.i + 1 }.Parsing argBuf
  | pc => pc.usesArgBuf = true → argBuf = padded (argumentOf call.command)

def Path.Sound (argBuf : List UInt8) : Path → Prop
  | execute pc call => WordsFit call.command ∧ call.Sound argBuf pc
  | _ => True

/-- No call has been disturbed. -/
structure Undisturbed (r : Traced) : Prop where
  running : r.state.running.Sound r.state.proc.argBuf
  saved : ∀ pid path, r.state.saved pid = some (.path path) → path.Sound r.state.proc.argBuf
  kept : r.ArgumentsKept

section Buffer

variable {word rest : List UInt8} {command : CharPtr}

theorem argumentOf_short (fit : WordsFit command) :
    (argumentOf command).length < MAX_ARG_LENGTH := by
  unfold argumentOf
  cases given : argumentWord command with
  | none => decide
  | some word => exact (argumentWord_fits fit given).1

theorem argumentOf_spelled (short : strlen command ≤ MAX_ARG_LENGTH + 3) :
    argumentOf command = secondWord (chars command) := by
  unfold argumentOf argumentWord
  rw [if_neg (Nat.not_lt.mpr short)]
  split
  · rename_i none
    rw [none]
    rfl
  · rfl

theorem argumentOf_long (long : MAX_ARG_LENGTH + 3 < strlen command) : argumentOf command = [] := by
  unfold argumentOf argumentWord
  rw [if_pos long]
  rfl

/-- The NUL behind a word is there already. -/
theorem padded_set_nul (word : List UInt8) : (padded word).set word.length 0 = padded word := by
  rw [padded, List.set_append_right _ _ (Nat.le_refl _), Nat.sub_self]
  cases MAX_ARG_LENGTH - word.length with
  | zero => rfl
  | succ n => rfl

theorem padded_set (c : UInt8) (fits : word.length < MAX_ARG_LENGTH) :
    (padded word).set word.length c = padded (word ++ [c]) := by
  obtain ⟨room, isRoom⟩ : ∃ room, MAX_ARG_LENGTH - word.length = room + 1 :=
    ⟨MAX_ARG_LENGTH - word.length - 1, by omega⟩
  have less : MAX_ARG_LENGTH - (word ++ [c]).length = room := by
    rw [List.length_append, List.length_singleton]
    omega
  rw [padded, padded, List.set_append_right _ _ (Nat.le_refl _), Nat.sub_self, isRoom, less,
    List.replicate_succ, List.set_cons_zero, List.append_assoc, List.singleton_append]

theorem padded_length (fits : word.length < MAX_ARG_LENGTH) :
    (padded word).length = MAX_ARG_LENGTH := by
  rw [padded, List.length_append, List.length_replicate]
  omega

end Buffer

section Parse

variable {s : Interleaved} {call : ExecuteCall}

theorem scanWord_next_few {command : CharPtr} {rounds : Nat} (few : rounds ≤ 1)
    (nonempty : command 0 ≠ 0) : (scanWord command 0 false [] rounds).next = rounds := by
  obtain rfl | rfl : rounds = 0 ∨ rounds = 1 := by omega
  · rfl
  · simp only [scanWord, if_neg nonempty, Bool.false_eq_true, and_false, if_false]
    split <;> rfl

/-- The first parsing loop stops in front of the argument. -/
theorem ExecuteCall.parsing_start (accepted : call.len ≤ MAX_ARG_LENGTH + 4) (fn : List UInt8) :
    ExecuteCall.Parsing (padded [])
      { call with
        fn := fn
        i := (scanWord call.command 0 false [] call.len.toNat).next
        argIdx := 0
        flag := false } := by
  refine ⟨[], rfl, rfl, ?_⟩
  obtain ⟨nonzero, bound, _⟩ := strlen_spec call.command
  rw [MAX_ARG_LENGTH] at accepted
  by_cases short : strlen call.command ≤ MAX_ARG_LENGTH + 3
  · rw [MAX_ARG_LENGTH] at short
    have length : (chars call.command).length = strlen call.command := by simp [chars]
    have len : toInt32 (strlen call.command + 1) = ((strlen call.command + 1 : Nat) : Int) :=
      toInt32_small (by omega)
    obtain ⟨next, scanned, spelled, aligned⟩ :=
      scanWord_spells (spells_chars (s := call.command) (by omega))
    rw [length] at scanned aligned
    refine .inr ⟨afterWord (chars call.command), ?_, ?_, ?_⟩
    · simp only [ExecuteCall.len, len, Int.toNat_natCast, scanned]
      exact spelled
    · simp only [ExecuteCall.len, len, Int.toNat_natCast, scanned]
      omega
    · exact ⟨rfl, (argumentOf_spelled short).symm⟩
  · have long := Nat.not_le.mp short
    rw [MAX_ARG_LENGTH] at long
    refine .inl ⟨?_, (argumentOf_long (Nat.not_le.mp short)).symm⟩
    have few : call.len.toNat ≤ 1 := by
      simp only [ExecuteCall.len, toInt32] at accepted ⊢
      omega
    rw [scanWord_next_few few (nonzero 0 (by omega))]
    exact Int.self_le_toNat _

/-- One round of the second parsing loop. -/
theorem Interleaved.parseArgument_sound (fit : WordsFit call.command)
    (parsing : call.Parsing s.proc.argBuf) :
    (s.parseArgument call).running.Sound (s.parseArgument call).proc.argBuf := by
  obtain ⟨taken, isTaken, index, ended | ⟨rest, spells, left, collected⟩⟩ := parsing
  · simp only [parseArgument, if_pos ended.1]
    exact ⟨fit, fun _ => by rw [← ended.2]; exact isTaken⟩
  · have inside : ¬ call.len ≤ call.i := by omega
    have short := argumentOf_short fit
    have closed : s.proc.argBuf.set call.argIdx 0 = padded taken := by
      rw [isTaken, ← index, padded_set_nul]
    cases rest with
    | nil =>
        have ended : call.command call.i = 0 := spells.nul
        have whole : taken = argumentOf call.command := by
          split at collected
          · simpa using collected
          · rw [collected.1, ← collected.2]
            rfl
        simp only [parseArgument, if_neg inside, ended, if_true]
        exact ⟨fit, fun _ => by rw [← whole]; exact closed⟩
    | cons c rest =>
        obtain ⟨here, notNul⟩ := spells.head
        have further : (((call.i + 1 : Nat) : Int) + rest.length + 1 : Int) = call.len := by
          rw [List.length_cons] at left
          omega
        by_cases blank : c = SPACE
        · cases flag : call.flag with
          | true =>
              have whole : taken = argumentOf call.command := by
                simpa [flag, blank] using collected
              simp only [parseArgument, if_neg inside, here, blank, flag, true_and, if_true]
              rw [if_neg (blank ▸ notNul)]
              exact ⟨fit, fun _ => by rw [← whole]; exact closed⟩
          | false =>
              obtain ⟨nothing, word⟩ : taken = [] ∧ firstWord (c :: rest) =
                  argumentOf call.command := by simpa [flag] using collected
              simp only [parseArgument, if_neg inside, here, blank, flag, Bool.false_eq_true,
                and_false, if_false, ne_eq, not_true]
              rw [if_neg (blank ▸ notNul)]
              refine ⟨fit, taken, isTaken, index, .inr ⟨rest, spells.tail, further, ?_⟩⟩
              simp only [Bool.false_eq_true, if_false]
              refine ⟨nothing, ?_⟩
              rw [← word]
              simp [firstWord, blank]
        · have whole : (taken ++ [c]) ++ rest.takeWhile (· ≠ SPACE) = argumentOf call.command := by
            split at collected
            · simpa [blank] using collected
            · rw [← collected.2, collected.1]
              simp [firstWord, blank]
          have fits : taken.length < MAX_ARG_LENGTH := by
            rw [← whole, List.length_append, List.length_append, List.length_singleton] at short
            omega
          simp only [parseArgument, if_neg inside, here, if_neg notNul, blank, false_and, if_false,
            ne_eq, not_false_eq_true, if_true]
          refine ⟨fit, taken ++ [c], ?_, by simp [index], .inr ⟨rest, spells.tail, further, ?_⟩⟩
          · rw [isTaken, ← index, padded_set c fits]
          · simpa using whole

end Parse

section Steps

variable {s : Interleaved} {bootBlock : Option Image} {argBuf argBuf' : List UInt8}
  {proc : Proc}

/-- A call that is not using the buffer does not care what is in it. -/
theorem Path.Sound.of_unused {path : Path} (sound : path.Sound argBuf)
    (unused : path.usesArgBuf = false) : path.Sound argBuf' := by
  cases path with
  | execute pc call =>
      refine ⟨sound.1, ?_⟩
      have isSound := sound.2
      cases pc with
      | clearArgBuf => exact isSound
      | parseName | parseArgument | noteArgument => cases unused
      | _ => exact fun uses => Bool.noConfusion (uses.symm.trans unused)
  | _ => trivial

/-- The statements of `execute`, for the call itself. -/
theorem Interleaved.execute_sound {pc : ExecutePc} {call : ExecuteCall}
    (sound : (Path.execute pc call).Sound s.proc.argBuf) :
    (s.executeStatement bootBlock call pc).running.Sound
      (s.executeStatement bootBlock call pc).proc.argBuf := by
  obtain ⟨fit, holds⟩ := sound
  cases pc with
  | checkCount =>
      simp only [executeStatement]
      split
      · exact ⟨fit, fun uses => by cases uses⟩
      · exact ⟨fit, fun uses => by cases uses⟩
  | checkLength =>
      simp only [executeStatement]
      split
      · exact ⟨fit, fun uses => by cases uses⟩
      · rename_i accepted
        exact ⟨fit, Int.not_lt.mp accepted⟩
  | clearArgBuf => exact ⟨fit, holds, rfl⟩
  | parseName =>
      refine ⟨fit, ?_⟩
      obtain ⟨accepted, cleared⟩ := holds
      simp only [executeStatement, goto, cleared]
      exact ExecuteCall.parsing_start accepted _
  | parseArgument => exact s.parseArgument_sound fit holds
  | noteArgument => exact ⟨fit, holds⟩
  | findProgram =>
      simp only [executeStatement]
      split
      · trivial
      · exact ⟨fit, fun _ => holds rfl⟩
  | getProcess =>
      simp only [executeStatement]
      cases found : (List.range 7).find? (fun i => s.proc.processes i = 0) with
      | none =>
          simp only [Proc.getProcessAvailable, found]
          exact ⟨fit, fun uses => by cases uses⟩
      | some pid =>
          simp only [Proc.getProcessAvailable, found]
          exact ⟨fit, fun _ => holds rfl⟩
  | countProcess | initDescriptors | setCurrentPid | setParentPid | setCurrentEsp | setCurrentEbp
  | setCurrentEip | setVidmapFlag | setTerminal => exact ⟨fit, fun _ => holds rfl⟩
  | refuse | contextSwitch => trivial
  | _ => exact ⟨fit, fun uses => by cases uses⟩

theorem Interleaved.halt_sound (pc : HaltPc) (call : HaltCall) :
    (s.haltStatement call pc).running.Sound argBuf := by
  cases pc with
  | checkRoot root =>
      simp only [haltStatement]
      split
      · trivial
      · cases root <;> trivial
  | close i =>
      simp only [haltStatement]
      split <;> trivial
  | setActiveTerminal | contextSwitch =>
      simp only [haltStatement]
      split <;> trivial
  | _ => trivial

/-- Only the two stores change the buffer. -/
theorem Interleaved.execute_argBuf {pc : ExecutePc} {call : ExecuteCall}
    (noStore : (Path.execute pc call).storesArgBuf = false) :
    (s.executeStatement bootBlock call pc).proc.argBuf = s.proc.argBuf := by
  cases pc with
  | clearArgBuf | parseArgument => cases noStore
  | checkCount | checkLength | findProgram =>
      simp only [executeStatement]
      split <;> rfl
  | getProcess =>
      simp only [executeStatement, Proc.getProcessAvailable]
      cases (List.range 7).find? (fun i => s.proc.processes i = 0) <;> rfl
  | _ => rfl

/-- No statement suspends a path. -/
theorem Interleaved.execute_saved {pc : ExecutePc} {call : ExecuteCall} {pid : Nat} {path : Path}
    (saved : (s.executeStatement bootBlock call pc).saved pid = some (.path path)) :
    s.saved pid = some (.path path) := by
  have erased {other : Nat} {left : Option Saved} (notPath : ∀ path, left ≠ some (.path path))
      (after : Function.update s.saved other left pid = some (.path path)) :
      s.saved pid = some (.path path) := by
    by_cases this : pid = other
    · rw [this, Function.update_self] at after
      exact absurd after (notPath path)
    · rwa [Function.update_of_ne this] at after
  cases pc with
  | checkCount | checkLength | findProgram | getProcess =>
      simp only [executeStatement] at saved
      split at saved <;> exact saved
  | parseArgument =>
      simp only [executeStatement, parseArgument] at saved
      split_ifs at saved <;> exact saved
  | setCurrentEsp | setCurrentEbp | storeEsp => exact erased (fun path => by simp) saved
  | storeEbp => exact erased (fun path => by simp) saved
  | _ => exact saved

theorem Interleaved.halt_saved {pc : HaltPc} {call : HaltCall} {pid : Nat} {path : Path}
    (saved : (s.haltStatement call pc).saved pid = some (.path path)) :
    s.saved pid = some (.path path) := by
  cases pc with
  | checkRoot root =>
      simp only [haltStatement] at saved
      split at saved
      · exact saved
      · cases root <;> exact saved
  | close i =>
      simp only [haltStatement] at saved
      split at saved <;> exact saved
  | setActiveTerminal =>
      simp only [haltStatement] at saved
      split at saved <;> exact saved
  | contextSwitch =>
      simp only [haltStatement] at saved
      split at saved
      · by_cases this : pid = s.proc.activePid
        · simp [this] at saved
        · simpa [Function.update_of_ne this] using saved
      · exact saved
  | _ => exact saved

theorem Proc.setPcb_argBuf (proc : Proc) {pid : Nat} {block : Pcb}
    (same : block.argBuf = (proc.pcb pid).argBuf) (other : Nat) :
    ((proc.setPcb pid block).pcb other).argBuf = (proc.pcb other).argBuf := by
  by_cases this : other = pid
  · simp only [Proc.setPcb, this, Function.update_self, same]
  · simp only [Proc.setPcb, Function.update_of_ne this]

/-- Only the `memcpy` changes the argument in a control block. -/
theorem Interleaved.execute_kept {pc : ExecutePc} {call : ExecuteCall} (other : pc ≠ .copyArgBuf)
    (pid : Nat) : ((s.executeStatement bootBlock call pc).proc.pcb pid).argBuf =
      (s.proc.pcb pid).argBuf := by
  cases pc with
  | copyArgBuf => exact absurd rfl other
  | checkCount | checkLength | findProgram =>
      simp only [executeStatement]
      split <;> rfl
  | parseArgument =>
      simp only [executeStatement, parseArgument]
      split_ifs <;> rfl
  | getProcess =>
      simp only [executeStatement, Proc.getProcessAvailable]
      cases (List.range 7).find? (fun i => s.proc.processes i = 0) <;> rfl
  | initDescriptors | setCurrentPid | setParentPid | setCurrentEsp | setCurrentEbp
  | setCurrentEip | setVidmapFlag | setTerminal | storeEsp | storeEbp =>
      simp only [executeStatement, fill]
      refine s.proc.setPcb_argBuf ?_ pid
      rfl
  | _ => rfl

/-- `halt` leaves the buffers alone. -/
theorem Interleaved.halt_buffers (pc : HaltPc) (call : HaltCall) :
    (s.haltStatement call pc).proc.argBuf = s.proc.argBuf ∧
      ∀ pid, ((s.haltStatement call pc).proc.pcb pid).argBuf = (s.proc.pcb pid).argBuf := by
  cases pc with
  | checkRoot root =>
      simp only [haltStatement]
      split
      · exact ⟨rfl, fun _ => rfl⟩
      · cases root <;> exact ⟨rfl, fun _ => rfl⟩
  | releaseProcess =>
      simp only [haltStatement, Proc.releaseProcess]
      split <;> exact ⟨rfl, fun _ => rfl⟩
  | close i =>
      simp only [haltStatement]
      split
      · exact ⟨rfl, s.proc.setPcb_argBuf (close_tail i).argBuf⟩
      · exact ⟨rfl, fun _ => rfl⟩
  | setActiveTerminal | contextSwitch =>
      simp only [haltStatement]
      split <;> exact ⟨rfl, fun _ => rfl⟩
  | _ => exact ⟨rfl, fun _ => rfl⟩

/-- The timer leaves the buffers alone, and suspends no other path than the running one. -/
theorem Interleaved.timer_buffers (interrupted : Context) :
    (s.timer interrupted).proc.argBuf = s.proc.argBuf ∧
      ∀ pid, ((s.timer interrupted).proc.pcb pid).argBuf = (s.proc.pcb pid).argBuf := by
  simp only [timer]
  split
  · exact ⟨rfl, fun pid => s.proc.storeContext_argBuf _ pid interrupted⟩
  · split
    · exact ⟨rfl, fun pid => s.proc.storeContext_argBuf _ pid interrupted⟩
    · exact ⟨rfl, fun pid => s.proc.storeContext_argBuf _ pid interrupted⟩

theorem Interleaved.timer_paths (interrupted : Context) {P : Path → Prop} (user : P .user)
    (lost : P .lost) (running : P s.running)
    (saved : ∀ pid path, s.saved pid = some (.path path) → P path) :
    P (s.timer interrupted).running ∧
      ∀ pid path, (s.timer interrupted).saved pid = some (.path path) → P path := by
  have stored (pid : Nat) (path : Path) (after : Function.update s.saved s.interruptedPcb
      (some (.path s.running)) pid = some (.path path)) : P path := by
    by_cases this : pid = s.interruptedPcb
    · rw [this, Function.update_self] at after
      cases after
      exact running
    · rw [Function.update_of_ne this] at after
      exact saved pid path after
  simp only [timer]
  split
  · exact ⟨user, stored⟩
  · split
    · rename_i path resumed
      refine ⟨stored _ path resumed, fun pid other after => ?_⟩
      by_cases this : pid = s.proc.currentProcessId (nextTerminal s.proc.activeTerminal)
      · simp only [this, Function.update_self] at after
        cases after
      · simp only [Function.update_of_ne this] at after
        exact stored pid other after
    · exact ⟨lost, stored⟩

end Steps

section Runs

variable {r later : Traced} {bootBlock : Option Image} {proc : Proc} {moves : List Move}

/-- A statement of `execute` keeps every call undisturbed, if it does not intrude. -/
theorem Undisturbed.execute (undisturbed : Undisturbed r) {pc : ExecutePc} {call : ExecuteCall}
    (running : r.state.running = .execute pc call) (calm : ¬ Intrudes r.state .statement) :
    Undisturbed (r.next bootBlock .statement) := by
  have sound := undisturbed.running
  rw [running] at sound
  have state : (r.next bootBlock .statement).state =
      r.state.executeStatement bootBlock call pc := by
    simp only [Traced.next, Interleaved.step, running]
  constructor
  case running =>
    rw [state]
    exact r.state.execute_sound sound
  case saved =>
    intro pid path saved
    rw [state] at saved ⊢
    have before := r.state.execute_saved saved
    have isSound := undisturbed.saved pid path before
    cases stores : (Path.execute pc call).storesArgBuf with
    | false =>
        rw [r.state.execute_argBuf stores]
        exact isSound
    | true =>
        refine isSound.of_unused ?_
        by_contra uses
        exact calm ⟨by rw [running, stores], pid, path, before, by simpa using uses⟩
  case kept =>
    intro pid command filled
    rw [state]
    by_cases copies : pc = .copyArgBuf
    · subst copies
      simp only [Traced.next, running] at filled
      by_cases new : pid = call.newProcessId
      · rw [new, Function.update_self] at filled
        obtain rfl : call.command = command := Option.some.inj filled
        have short := argumentOf_short sound.1
        have whole := padded_length short
        simp only [Interleaved.executeStatement, Interleaved.fill, Proc.setPcb, new,
          Function.update_self]
        rw [show r.state.proc.argBuf = _ from sound.2 rfl, ← whole, List.take_length]
      · rw [Function.update_of_ne new] at filled
        simp only [Interleaved.executeStatement, Interleaved.fill, Proc.setPcb,
          Function.update_of_ne new]
        exact undisturbed.kept pid command filled
    · rw [r.state.execute_kept copies]
      refine undisturbed.kept pid command ?_
      have same : (r.next bootBlock .statement).filledBy = r.filledBy := by
        simp only [Traced.next, running]
        cases pc <;> first | rfl | exact absurd rfl copies
      rwa [same] at filled

theorem Undisturbed.step (undisturbed : Undisturbed r) {move : Move}
    (able : r.state.able move) (fit : move.WordsFit) (calm : ¬ Intrudes r.state move) :
    Undisturbed (r.next bootBlock move) := by
  cases move with
  | timer interrupted =>
      obtain ⟨argBuf, kept⟩ := r.state.timer_buffers interrupted
      obtain ⟨running, saved⟩ := r.state.timer_paths interrupted
        (P := fun path => path.Sound r.state.proc.argBuf) trivial trivial undisturbed.running
        undisturbed.saved
      constructor
      case running =>
        simp only [Traced.next, Interleaved.step, argBuf]
        exact running
      case saved =>
        simp only [Traced.next, Interleaved.step, argBuf]
        exact saved
      case kept =>
        intro pid command filled
        simp only [Traced.next, Interleaved.step, kept]
        exact undisturbed.kept pid command filled
  | execute command stack entryPoint caller =>
      exact ⟨⟨fit, fun uses => by cases uses⟩, undisturbed.saved, undisturbed.kept⟩
  | halt => exact ⟨trivial, undisturbed.saved, undisturbed.kept⟩
  | statement =>
      cases running : r.state.running with
      | idle | user | lost =>
          have busy : r.state.running.inCall = true := able
          rw [running] at busy
          cases busy
      | execute pc call => exact undisturbed.execute running calm
      | halt pc call =>
          have state : (r.next bootBlock .statement).state = r.state.haltStatement call pc := by
            simp only [Traced.next, Interleaved.step, running]
          have same : (r.next bootBlock .statement).filledBy = r.filledBy := by
            simp only [Traced.next, running]
          constructor
          case running =>
            rw [state]
            exact r.state.halt_sound pc call
          case saved =>
            intro pid path saved
            rw [state] at saved ⊢
            rw [(r.state.halt_buffers pc call).1]
            exact undisturbed.saved pid path (r.state.halt_saved saved)
          case kept =>
            intro pid command filled
            rw [same] at filled
            rw [state, (r.state.halt_buffers pc call).2]
            exact undisturbed.kept pid command filled

/-- From the hlt loop of `entry` on, in every order of timer interrupts, system calls and statements
    of `execute` and `halt`, with commands whose words fit the buffers: as long as no call stores
    into `arg_buf` while a suspended one is between its `memset` and its `memcpy`, every control
    block holds the argument of the command it was filled for. -/
theorem arguments_kept (run : (tracedMachine bootBlock).Run (.start proc) moves later)
    (fit : (tracedMachine bootBlock).EachStep (fun _ move => move.WordsFit) (.start proc) moves)
    (calm : (tracedMachine bootBlock).EachStep (fun r move => ¬ Intrudes r.state move)
      (.start proc) moves) :
    (tracedMachine bootBlock).Always Traced.ArgumentsKept (.start proc) moves := by
  have begun : Undisturbed (.start proc) := by
    constructor
    case running => trivial
    case saved =>
      intro pid path saved
      cases saved
    case kept =>
      intro pid command filled
      cases filled
  refine run.always_of_each (I := Undisturbed) ?_ (fun r undisturbed => undisturbed.kept) begun
    (fit.and calm)
  rintro r move undisturbed able ⟨fit, calm⟩
  exact undisturbed.step able fit calm

/-- No call intrudes if the timer interrupts none that is using the buffer. -/
theorem calm_of_uninterrupted (run : (tracedMachine bootBlock).Run (.start proc) moves later)
    (uninterrupted : (tracedMachine bootBlock).EachStep
      (fun r move => move.isTimer = true → r.state.running.usesArgBuf = false)
      (.start proc) moves) :
    (tracedMachine bootBlock).EachStep (fun r move => ¬ Intrudes r.state move)
      (.start proc) moves := by
  refine run.eachStep (I := fun r => ∀ pid path, r.state.saved pid = some (.path path) →
    path.usesArgBuf = false) ?_ ?_ (fun pid path saved => by cases saved) uninterrupted
  · intro r move unused able uninterrupted
    cases move with
    | timer interrupted =>
        exact (r.state.timer_paths interrupted (P := fun path => path.usesArgBuf = false) rfl rfl
          (uninterrupted rfl) unused).2
    | execute command stack entryPoint caller => exact unused
    | halt => exact unused
    | statement =>
        intro pid path saved
        simp only [tracedMachine, Traced.next, Interleaved.step] at saved
        split at saved
        · exact unused pid path (r.state.execute_saved saved)
        · exact unused pid path (r.state.halt_saved saved)
        · exact unused pid path saved
  · intro r move unused able _ intrudes
    cases move with
    | timer interrupted => exact intrudes
    | execute command stack entryPoint caller => exact intrudes
    | halt => exact intrudes
    | statement =>
        obtain ⟨_, pid, path, saved, uses⟩ := intrudes
        exact Bool.noConfusion (uses.symm.trans (unused pid path saved))

end Runs

theorem statements_fit (rounds : Nat) : ∀ move ∈ statements rounds, move.WordsFit := by
  intro move inside
  rw [List.eq_of_mem_replicate inside]
  trivial

/-- The shell of terminal 2 starts a program with an argument. -/
theorem argument_of_one_call_kept :
    (tracedMachine (some shellImage)).Always Traced.ArgumentsKept (.start bootedProc)
      ([tick, callExecute shellWithArgument] ++ statements 31) := by
  have fit : ∀ move ∈ [tick, callExecute shellWithArgument] ++ statements 31, move.WordsFit := by
    rw [List.forall_mem_append, List.forall_mem_cons, List.forall_mem_singleton]
    exact ⟨⟨trivial, shellWithArgument_fits⟩, statements_fit 31⟩
  exact arguments_kept (.of_eachStep (by decide +kernel)) (.of_forall fit)
    (calm_of_uninterrupted (.of_eachStep (by decide +kernel)) (by decide +kernel))

/-- A command with another argument. -/
def shellWithOtherArgument : CharPtr := charPtr (text "shell y")

theorem shellWithOtherArgument_fits : WordsFit shellWithOtherArgument :=
  fun _ => ⟨by decide +kernel, by decide +kernel⟩

/-- The shell of terminal 1 is interrupted in front of its `memcpy`, and the process that it
    starts gets the argument that the shell of terminal 2 has passed to its own. -/
theorem argument_of_other_terminal :
    ∃ moves r, (tracedMachine (some shellImage)).Run (.start bootedProc) moves r ∧
      (tracedMachine (some shellImage)).EachStep (fun _ move => move.WordsFit)
        (.start bootedProc) moves ∧
      r.filledBy 4 = some shellWithArgument ∧
      (r.state.proc.pcb 4).argBuf = padded (argumentOf shellWithOtherArgument) ∧
      ¬ r.ArgumentsKept := by
  have fit : ∀ move ∈ [tick, tick, tick, callExecute shellWithArgument] ++ statements 20 ++
      [tick, callExecute shellWithOtherArgument] ++ statements 9 ++ [tick, tick] ++ statements 1,
      move.WordsFit := by
    simp only [List.forall_mem_append, List.forall_mem_cons, List.not_mem_nil, false_implies,
      implies_true, and_true]
    exact ⟨⟨⟨⟨⟨⟨trivial, trivial, trivial, shellWithArgument_fits⟩, statements_fit 20⟩,
      trivial, shellWithOtherArgument_fits⟩, statements_fit 9⟩, trivial, trivial⟩,
      statements_fit 1⟩
  refine ⟨_, _, .of_eachStep (by decide +kernel), .of_forall fit, rfl, by decide +kernel, ?_⟩
  intro kept
  exact absurd (kept 4 shellWithArgument rfl) (by decide +kernel)

end LightOS.Kernel
