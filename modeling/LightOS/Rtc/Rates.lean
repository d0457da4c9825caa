import LightOS.Kernel.Stack
import LightOS.Rtc.Waiting

/-! # Whose rate a read waits for

The rate belongs to the terminal, and `file_descriptor_table_open` does not call `rtc_open`,
which would set it to 2.  So what a read waits for is the rate last written on its terminal,
whoever wrote it.  `Recorded` runs the calls of the processes, and keeps a record of the rates
beside them: for every open descriptor of the RTC the rate its own process has asked for since
it was opened, and for every terminal the last rate that anybody has.
-/

namespace LightOS.Rtc

open Lib Filesystem Descriptor Kernel

/-- What can happen, with the calls that processes make on their descriptors. -/
inductive Syscall
  | tick
  | process (action : Action)
  | next
  | openName (filename : Option CharPtr)
  | close (fd : Int)
  | read (fd : Int) (bufIsNull : Bool) (nbytes : Int) (answer : Transfer)
  /-- `buf` is the rate it points at, for a write that gets to the RTC. -/
  | write (fd : Int) (buf : Option Int) (answer : Int)

/-- The driver behind a descriptor of the process that runs. -/
def Clock.driver (s : Clock) (fd : Int) : Option FileOps :=
  match descriptorIndex fd with
  | none => none
  | some slot => (s.activePcb.fileDescriptorArray slot).fileOps

/-- A read or write on a descriptor of the RTC gets to its driver. -/
def Syscall.event (s : Clock) : Syscall → Event
  | .tick => .tick
  | .process action => .process action
  | .next => .next
  | .openName filename => .files (.openName filename)
  | .close fd => .files (.close fd)
  | .read fd bufIsNull nbytes answer =>
      if s.driver fd = some .rtc then .read else .files (.read fd bufIsNull nbytes answer)
  | .write fd buf answer =>
      if s.driver fd = some .rtc then .write buf else .files (.write fd answer)

/-- Whether a name is that of the RTC. -/
def isRtcEntry (bootBlock : Option Image) (filename : Option CharPtr) : Bool :=
  match readDentryByName bootBlock filename with
  | none => false
  | some dirEntry => dirEntry.filetype = TYPE_RTC

/-- Whether a step of the process routines has started `pid`, or ended it. -/
def startsOrEnds (before after : State) (pid : Nat) : Action → Bool
  | .execute .. => after.control ≠ .returned (-1) ∧ pid = after.proc.activePid
  | .halt _ => 4 ≤ before.proc.activePid ∧ pid = before.proc.activePid
  | _ => false

/-- The clocks, with a record of the rates. -/
structure Recorded where
  clock : Clock
  /-- By process and open descriptor of the RTC, the last rate that the process has written
      since it opened it, or 2. -/
  ownRate : Nat → Int → Option Int
  /-- The last rate written in a terminal, by whatever process, or 2. -/
  lastWritten : TerminalId → Int

namespace Recorded

def activePid (r : Recorded) : Nat := r.clock.kernel.proc.activePid

/-- The record, when the process that runs has opened a descriptor or closed it. -/
def setOwn (r : Recorded) (fd : Int) (rate : Option Int) : Nat → Int → Option Int :=
  Function.update r.ownRate r.activePid (Function.update (r.ownRate r.activePid) fd rate)

/-- The record, when the process that runs has written a rate. -/
def written (r : Recorded) (rate : Int) : Nat → Int → Option Int :=
  Function.update r.ownRate r.activePid fun fd => (r.ownRate r.activePid fd).map fun _ => rate

def step (bootBlock : Option Image) (r : Recorded) (call : Syscall) : Recorded :=
  let clock := r.clock.step bootBlock (call.event r.clock)
  match call with
  | .tick | .next | .read .. => { r with clock }
  | .process action =>
      { r with
        clock
        ownRate := fun pid =>
          if startsOrEnds r.clock.kernel clock.kernel pid action then fun _ => none
          else r.ownRate pid }
  | .openName filename =>
      let fd := (fileDescriptorTableOpen bootBlock r.clock.activePcb filename).1
      if fd ≠ -1 ∧ isRtcEntry bootBlock filename then
        { r with clock, ownRate := r.setOwn fd (some 2) }
      else { r with clock }
  | .close fd =>
      if (fileDescriptorTableClose r.clock.activePcb fd).1 = 0 then
        { r with clock, ownRate := r.setOwn fd none }
      else { r with clock }
  | .write fd buf _ =>
      match r.clock.driver fd, acceptedRate buf with
      | some .rtc, some rate =>
          { clock
            ownRate := r.written rate
            lastWritten := Function.update r.lastWritten r.clock.activeTerminal rate }
      | _, _ => { r with clock }

/-- System calls are made by a process. -/
def able (r : Recorded) (call : Syscall) : Prop :=
  r.clock.able (call.event r.clock) ∧
    match call with
    | .tick | .process _ | .next => True
    | .openName _ | .close _ | .read .. | .write .. => r.activePid ≠ 0

end Recorded

/-- The processes and their clocks, for one file-system image. -/
def descriptors (bootBlock : Option Image) : Machine Recorded Syscall where
  enabled := Recorded.able
  next := Recorded.step bootBlock

/-- `entry`, which calls `keyboard_init`; nothing has been opened or written. -/
def Recorded.entry (bootBlock : Option Image) (buffers : TerminalId → List UInt8) (s : Clock) :
    Recorded where
  clock :=
    { s.keyboardInit with kernel := s.kernel.entry bootBlock buffers }
  ownRate := fun _ _ => none
  lastWritten := fun _ => 2

/-- A read on a descriptor of the RTC waits for the ticks of the rate that its process has asked
    for since it opened it. -/
def WaitsOwnRate (bootBlock : Option Image) (r : Recorded) (call : Syscall) : Prop :=
  match call with
  | .read fd .. => ∀ rate, r.ownRate r.activePid fd = some rate →
      WaitsFor bootBlock (r.step bootBlock call).clock r.clock.activeTerminal (1024 / rate).toNat
  | _ => True

/-- The last rate written in the terminal of a read is the one its process has asked for. -/
def LastWrittenOwn (r : Recorded) : Syscall → Prop
  | .read fd .. => ∀ rate, r.ownRate r.activePid fd = some rate →
      r.lastWritten r.clock.activeTerminal = rate
  | _ => True

/-- An open descriptor of the RTC. -/
def OpenRtc (descriptor : FileDescriptor) : Prop :=
  descriptor.fileOps = some .rtc ∧ descriptor.flags = 1

section Tables

variable {bootBlock : Option Image} {pcb : Pcb} {slot : Fin MAX_NUM_FILES}

/-- An open takes a descriptor that is not in use. -/
theorem openRtc_open (isOpen : OpenRtc (pcb.fileDescriptorArray slot))
    (filename : Option CharPtr) :
    OpenRtc ((fileDescriptorTableOpen bootBlock pcb filename).2.fileDescriptorArray slot) := by
  have outcome := fileDescriptorTableOpen_opened bootBlock pcb filename
  generalize fileDescriptorTableOpen bootBlock pcb filename = result at outcome ⊢
  cases outcome with
  | full busy =>
      rw [Pcb.storeWord_flags_past]
      exact isOpen
  | @missing fd inside free | @untyped fd dirEntry inside free
  | @bound fd dirEntry ops inside free =>
      have other : slot ≠ fd := fun same => free (same ▸ isOpen.2)
      rwa [Pcb.setDescriptor_other other]

theorem openRtc_close (isOpen : OpenRtc (pcb.fileDescriptorArray slot)) {fd : Int}
    (other : (fileDescriptorTableClose pcb fd).1 = 0 → (slot.val : Int) ≠ fd) :
    OpenRtc ((fileDescriptorTableClose pcb fd).2.fileDescriptorArray slot) := by
  rcases fileDescriptorTableClose_cases pcb fd with ⟨unchanged, _⟩ | ⟨taken, same, _, closed⟩
  · rwa [unchanged]
  · rw [closed] at other ⊢
    have apart : slot ≠ taken := fun equal => other rfl (equal ▸ same)
    rwa [Pcb.setDescriptor_other apart]

theorem openRtc_read (isOpen : OpenRtc (pcb.fileDescriptorArray slot)) (fd : Int)
    (bufIsNull : Bool) (length : Int) (answer : Transfer) :
    OpenRtc ((fileDescriptorTableRead bootBlock pcb fd bufIsNull length
      answer).2.fileDescriptorArray slot) := by
  simp only [fileDescriptorTableRead]
  split
  · exact isOpen
  · rename_i taken _
    split
    · exact isOpen
    · split
      · by_cases same : slot = taken
        · subst same
          simpa [OpenRtc] using isOpen
        · rwa [Pcb.setDescriptor_other same]
      · exact isOpen

/-- What an open that has found the RTC leaves behind. -/
theorem openRtc_opened {filename : Option CharPtr}
    (found : (fileDescriptorTableOpen bootBlock pcb filename).1 ≠ -1)
    (isRtc : isRtcEntry bootBlock filename = true) :
    ∃ slot : Fin MAX_NUM_FILES,
      (slot.val : Int) = (fileDescriptorTableOpen bootBlock pcb filename).1 ∧
      OpenRtc ((fileDescriptorTableOpen bootBlock pcb filename).2.fileDescriptorArray slot) := by
  have outcome := fileDescriptorTableOpen_opened bootBlock pcb filename
  generalize fileDescriptorTableOpen bootBlock pcb filename = result at outcome found ⊢
  cases outcome with
  | full busy | missing inside free none => exact absurd rfl found
  | @untyped fd dirEntry inside free entry untyped =>
      simp only [isRtcEntry, entry, decide_eq_true_eq] at isRtc
      simp [opsOfType, isRtc, TYPE_RTC, TYPE_FILE, TYPE_DIRECTORY] at untyped
  | @bound fd dirEntry ops inside free entry typed =>
      simp only [isRtcEntry, entry, decide_eq_true_eq] at isRtc
      obtain rfl : .rtc = ops := by
        simpa [opsOfType, isRtc, TYPE_RTC, TYPE_FILE, TYPE_DIRECTORY] using typed
      exact ⟨fd, rfl, by simp [OpenRtc]⟩

/-- No call changes what the block says about the parent and the terminal. -/
theorem run_links (bootBlock : Option Image) (pcb : Pcb) (call : Descriptor.Call) :
    (call.run bootBlock pcb).2.parentPid = pcb.parentPid ∧
      (call.run bootBlock pcb).2.terminal = pcb.terminal := by
  by_cases full : OpensFull pcb call
  · cases call with
    | openName filename =>
        have outcome := fileDescriptorTableOpen_opened bootBlock pcb filename
        simp only [Descriptor.Call.run]
        generalize fileDescriptorTableOpen bootBlock pcb filename = result at outcome ⊢
        cases outcome <;> exact ⟨rfl, rfl⟩
    | close | read | write => exact absurd full id
  · have tail := (run_tail bootBlock pcb call).mpr full
    exact ⟨tail.parentPid, tail.terminal⟩

end Tables

section Kernel

variable {bootBlock : Option Image} {s : State}

/-- A call on the table of the process that runs. -/
theorem sound_setPcb (sound : Sound s) {pcb : Pcb}
    (parentPid : pcb.parentPid = (s.proc.pcb s.proc.activePid).parentPid)
    (terminal : pcb.terminal = (s.proc.pcb s.proc.activePid).terminal) :
    Sound { s with proc := s.proc.setPcb s.proc.activePid pcb } where
  valid := sound.valid
  user := sound.user
  lineage := by
    obtain ⟨created, lineage⟩ := sound.lineage
    have links : s.proc.SameLinks (s.proc.setPcb s.proc.activePid pcb) := by
      constructor <;> intro pid <;> by_cases this : pid = s.proc.activePid <;>
        simp [Proc.setPcb, this, parentPid, terminal]
    exact ⟨created, lineage.of_links links rfl rfl (.inl rfl)⟩

theorem storeContext_table (proc : Proc) (pid : Nat) (context : Context) (other : Nat) :
    ((proc.storeContext pid context).pcb other).fileDescriptorArray =
      (proc.pcb other).fileDescriptorArray := by
  by_cases same : other = pid
  · simp [Proc.storeContext, Proc.setPcb, same, Pcb.setContext]
  · simp [Proc.storeContext, Proc.setPcb, same]

/-- The process routines leave the tables of all processes alone but of one that is started or
    ended. -/
theorem outcome_tables {action : Action} {after : State}
    (outcome : Outcome bootBlock s action after) (ofProcesses : action.OfProcesses) (pid : Nat) :
    after.faulted = true ∨ startsOrEnds s after pid action = true ∨
      (after.proc.pcb pid).fileDescriptorArray = (s.proc.pcb pid).fileDescriptorArray := by
  cases outcome with
  | putc output | clear output | echo output | echoBack output | echoClear output =>
      exact absurd ofProcesses id
  | userStore writes | kernelCopy writes => exact absurd ofProcesses id
  | switchSame same | switchTo other shown => exact absurd ofProcesses id
  | enter switched => exact absurd ofProcesses id
  | first next idle switched => exact .inr (.inr (storeContext_table _ _ _ _))
  | next next occupied switched => exact .inr (.inr (storeContext_table _ _ _ _))
  | root root switched => exact .inr (.inr rfl)
  | child child terminal switched =>
      by_cases ended : pid = s.proc.activePid
      · exact .inr (.inl (by simp [startsOrEnds, child, ended]))
      · exact .inr (.inr (by simp [Proc.reaped, ended]))
  | rejected refused | full passed noPid notFull => exact .inr (.inr rfl)
  | @started _ _ caller _ _ new _ _ _ _ active passed free child small notFull switched writes =>
      by_cases begun : pid = new
      · exact .inr (.inl (by simp [startsOrEnds, begun, Proc.started]))
      · refine .inr (.inr ?_)
        by_cases parent : pid = s.proc.activePid
        · subst parent
          simp [Proc.started, Pcb.setContext, begun]
        · simp [Proc.started, begun, parent]
  | fault faulting faults elsewhere => exact .inl faults

end Kernel

/-- What the processes and the record keep. -/
structure Kept (r : Recorded) : Prop where
  sound : Sound r.clock.kernel
  valid : Valid r.clock.rtc
  own : ∀ pid fd rate, r.ownRate pid fd = some rate → rate ∈ rates ∧
    ∃ slot : Fin MAX_NUM_FILES, (slot.val : Int) = fd ∧
      OpenRtc ((r.clock.kernel.proc.pcb pid).fileDescriptorArray slot)
  lastWritten : r.clock.rtc.virtualRate = r.lastWritten

section Step

variable {bootBlock : Option Image} {r : Recorded}

/-- A descriptor that is in the record is one of the RTC. -/
theorem Kept.driver (kept : Kept r) {fd rate : Int}
    (own : r.ownRate r.activePid fd = some rate) : r.clock.driver fd = some .rtc := by
  obtain ⟨_, slot, index, isOpen⟩ := kept.own _ _ _ own
  simp only [Clock.driver, descriptorIndex_eq_some.mpr index]
  exact isOpen.1

/-- Rates are only written by `rtc_write`. -/
theorem Clock.step_rate (bootBlock : Option Image) {s : Clock} (valid : Valid s.rtc) (event : Event)
    (noWrite : ∀ buf, event ≠ .write buf) :
    (s.step bootBlock event).rtc.virtualRate = s.rtc.virtualRate := by
  cases event with
  | tick | process | files => rfl
  | read => simp only [step, rtcRead, storeCount_valid valid]
  | write buf => exact absurd rfl (noWrite buf)
  | next =>
      simp only [step, nextStatement]
      cases s.call s.activeTerminal with
      | idle | returned => rfl
      | storing => simp only [storeCount_valid valid]
      | waiting =>
          dsimp only
          split <;> rfl

/-- The process that runs makes a call on its own table; `own` is what becomes of the record of
    its descriptors. -/
theorem Kept.files (kept : Kept r) (call : Descriptor.Call) {own : Int → Option Int}
    (good : ∀ fd rate, own fd = some rate → rate ∈ rates ∧
      ∃ slot : Fin MAX_NUM_FILES, (slot.val : Int) = fd ∧
        OpenRtc ((call.run bootBlock r.clock.activePcb).2.fileDescriptorArray slot)) :
    Kept { r with
      clock := r.clock.step bootBlock (.files call)
      ownRate := Function.update r.ownRate r.activePid own } where
  sound := by
    obtain ⟨parentPid, terminal⟩ := run_links bootBlock r.clock.activePcb call
    exact sound_setPcb kept.sound parentPid terminal
  valid := kept.valid
  own pid fd rate recorded := by
    dsimp only at recorded
    by_cases running : pid = r.activePid
    · subst running
      rw [Function.update_self] at recorded
      obtain ⟨valid, slot, index, isOpen⟩ := good fd rate recorded
      refine ⟨valid, slot, index, ?_⟩
      simpa [Clock.step, Clock.setActivePcb, Proc.setPcb, Recorded.activePid] using isOpen
    · rw [Function.update_of_ne running] at recorded
      obtain ⟨valid, slot, index, isOpen⟩ := kept.own pid fd rate recorded
      refine ⟨valid, slot, index, ?_⟩
      have other : pid ≠ r.clock.kernel.proc.activePid := running
      simpa [Clock.step, Clock.setActivePcb, Proc.setPcb, other] using isOpen
  lastWritten := kept.lastWritten

/-- A call that changes nothing in the record. -/
theorem Kept.filesSame (kept : Kept r) (call : Descriptor.Call)
    (open_ : ∀ slot : Fin MAX_NUM_FILES, OpenRtc (r.clock.activePcb.fileDescriptorArray slot) →
      OpenRtc ((call.run bootBlock r.clock.activePcb).2.fileDescriptorArray slot)) :
    Kept { r with clock := r.clock.step bootBlock (.files call) } := by
  have own : Function.update r.ownRate r.activePid (r.ownRate r.activePid) = r.ownRate :=
    Function.update_eq_self _ _
  rw [← own]
  refine kept.files call ?_
  intro fd rate recorded
  obtain ⟨valid, slot, index, isOpen⟩ := kept.own _ fd rate recorded
  exact ⟨valid, slot, index, open_ slot isOpen⟩

/-- A step of the clocks that leaves the kernel and the rates alone. -/
theorem Kept.clock (kept : Kept r) {clock : Clock} (kernel : clock.kernel = r.clock.kernel)
    (valid : Valid clock.rtc) (rate : clock.rtc.virtualRate = r.clock.rtc.virtualRate) :
    Kept { r with clock } where
  sound := by
    rw [kernel]
    exact kept.sound
  valid := valid
  own := by
    rw [kernel]
    exact kept.own
  lastWritten := rate.trans kept.lastWritten

theorem Kept.process (kept : Kept r) {action : Action} (able : r.able (.process action)) :
    (r.step bootBlock (.process action)).clock.kernel.faulted = true ∨
      Kept (r.step bootBlock (.process action)) := by
  obtain ⟨⟨running, able⟩, _⟩ := able
  have ofProcesses : action.OfProcesses := by
    cases action with
    | schedule => trivial
    | _ => exact able.1
  have kernelAble : r.clock.kernel.able action := by
    cases action with
    | schedule => exact ⟨running, trivial⟩
    | _ => exact able.2.1
  have outcome : Outcome bootBlock r.clock.kernel action (r.clock.kernel.step bootBlock action) :=
    State.step_outcome kept.sound kernelAble
  have stepped : (r.step bootBlock (.process action)).clock.kernel =
      r.clock.kernel.step bootBlock action := rfl
  generalize r.clock.kernel.step bootBlock action = after at outcome stepped
  rcases outcome.sound kept.sound with ⟨_, faults⟩ | sound
  · exact .inl (stepped ▸ faults)
  · by_cases faults : after.faulted = true
    · exact .inl (stepped ▸ faults)
    · refine .inr ⟨stepped ▸ sound, kept.valid, ?_, kept.lastWritten⟩
      intro pid fd rate recorded
      have record : (r.step bootBlock (.process action)).ownRate pid =
          if startsOrEnds r.clock.kernel (r.step bootBlock (.process action)).clock.kernel pid
            action then fun _ => none else r.ownRate pid := rfl
      rw [record, stepped] at recorded
      rw [stepped]
      cases changes : startsOrEnds r.clock.kernel after pid action with
      | true =>
          rw [changes] at recorded
          cases recorded
      | false =>
          rw [changes] at recorded
          have same := ((outcome_tables outcome ofProcesses pid).resolve_left faults).resolve_left
            (by simp [changes])
          rw [same]
          exact kept.own pid fd rate recorded

/-- A read changes neither the rates nor the record. -/
theorem Kept.read (kept : Kept r) (fd : Int) (bufIsNull : Bool) (nbytes : Int)
    (answer : Transfer) : Kept (r.step bootBlock (.read fd bufIsNull nbytes answer)) := by
  simp only [Recorded.step, Syscall.event]
  split
  · refine kept.clock ?_ (Clock.step_keeps bootBlock kept.valid .read) ?_
    · exact Clock.step_kernel bootBlock kept.valid (by simp) (by simp)
    · exact Clock.step_rate bootBlock kept.valid .read (by simp)
  · exact kept.filesSame _ fun slot isOpen => openRtc_read isOpen fd bufIsNull nbytes answer

theorem Kept.write (kept : Kept r) (fd : Int) (buf : Option Int) (answer : Int) :
    Kept (r.step bootBlock (.write fd buf answer)) := by
  by_cases isRtc : r.clock.driver fd = some .rtc
  · cases accepted : acceptedRate buf with
    | none =>
        have unchanged : r.step bootBlock (.write fd buf answer) =
            { r with clock := r.clock.setCall r.clock.activeTerminal (.returned (-1)) } := by
          simp [Recorded.step, Syscall.event, isRtc, accepted, Clock.step, Clock.rtcWrite]
        rw [unchanged]
        exact kept.clock rfl kept.valid rfl
    | some rate =>
        have valid := (acceptedRate_spec.mp accepted).2
        have stored : r.step bootBlock (.write fd buf answer) =
            { clock := r.clock.rtcWrite buf
              ownRate := r.written rate
              lastWritten := Function.update r.lastWritten r.clock.activeTerminal rate } := by
          simp [Recorded.step, Syscall.event, isRtc, accepted, Clock.step]
        have same : (r.clock.rtcWrite buf).kernel = r.clock.kernel :=
          @Clock.step_kernel r.clock none kept.valid (.write buf) (by simp) (by simp)
        rw [stored]
        constructor
        case sound => exact same ▸ kept.sound
        case valid => exact Clock.rtcWrite_keeps kept.valid buf
        case own =>
          intro pid open_ own recorded
          dsimp only at recorded ⊢
          rw [same]
          by_cases running : pid = r.activePid
          · subst running
            simp only [Recorded.written, Function.update_self, Option.map_eq_some_iff] at recorded
            obtain ⟨before, owned, rfl⟩ := recorded
            exact ⟨valid, (kept.own _ _ _ owned).2⟩
          · rw [Recorded.written, Function.update_of_ne running] at recorded
            exact kept.own _ _ _ recorded
        case lastWritten =>
          simp [Clock.rtcWrite, accepted, Clock.setCall, kept.lastWritten]
  · have unchanged : r.step bootBlock (.write fd buf answer) =
        { r with clock := r.clock.step bootBlock (.files (.write fd answer)) } := by
      simp only [Recorded.step, Syscall.event, isRtc, if_false]
      split
      case h_1 rtc _ => exact absurd rtc isRtc
      case h_2 => rfl
    rw [unchanged]
    exact kept.filesSame _ fun slot isOpen => isOpen

theorem Kept.openName (kept : Kept r) (filename : Option CharPtr) :
    Kept (r.step bootBlock (.openName filename)) := by
  have others : ∀ slot : Fin MAX_NUM_FILES, OpenRtc (r.clock.activePcb.fileDescriptorArray slot) →
      OpenRtc ((Descriptor.Call.run bootBlock r.clock.activePcb
        (.openName filename)).2.fileDescriptorArray slot) :=
    fun _ isOpen => openRtc_open isOpen filename
  simp only [Recorded.step, Syscall.event]
  split
  case isTrue found =>
    refine kept.files _ ?_
    intro fd rate recorded
    by_cases new : fd = (fileDescriptorTableOpen bootBlock r.clock.activePcb filename).1
    · rw [new, Function.update_self] at recorded
      cases recorded
      obtain ⟨slot, index, isOpen⟩ := openRtc_opened found.1 found.2
      exact ⟨by simp [rates], slot, index.trans new.symm, isOpen⟩
    · rw [Function.update_of_ne new] at recorded
      obtain ⟨valid, slot, index, isOpen⟩ := kept.own _ fd rate recorded
      exact ⟨valid, slot, index, others slot isOpen⟩
  case isFalse => exact kept.filesSame _ others

theorem Kept.close (kept : Kept r) (fd : Int) : Kept (r.step bootBlock (.close fd)) := by
  simp only [Recorded.step, Syscall.event]
  split
  case isTrue closed =>
    refine kept.files _ ?_
    intro other rate recorded
    by_cases same : other = fd
    · rw [same, Function.update_self] at recorded
      cases recorded
    · rw [Function.update_of_ne same] at recorded
      obtain ⟨valid, slot, index, isOpen⟩ := kept.own _ other rate recorded
      exact ⟨valid, slot, index, openRtc_close isOpen fun _ => index ▸ same⟩
  case isFalse failed =>
    exact kept.filesSame _ fun slot isOpen =>
      openRtc_close isOpen fun closed => absurd closed failed

theorem Kept.next (kept : Kept r) : Kept (r.step bootBlock .next) := by
  refine kept.clock ?_ (Clock.step_keeps bootBlock kept.valid .next) ?_
  · exact @Clock.step_kernel r.clock bootBlock kept.valid .next (by simp) (by simp)
  · exact Clock.step_rate bootBlock kept.valid .next (by simp)

theorem Kept.step (kept : Kept r) {call : Syscall} (able : r.able call) :
    (r.step bootBlock call).clock.kernel.faulted = true ∨ Kept (r.step bootBlock call) := by
  cases call with
  | tick => exact .inr (kept.clock rfl kept.valid.rtcHandler rfl)
  | process action => exact kept.process able
  | next => exact .inr kept.next
  | openName filename => exact .inr (kept.openName filename)
  | close fd => exact .inr (kept.close fd)
  | read fd bufIsNull nbytes answer => exact .inr (kept.read fd bufIsNull nbytes answer)
  | write fd buf answer => exact .inr (kept.write fd buf answer)

/-- A read waits for the rate last written in its terminal. -/
theorem Kept.waitsOwnRate_iff (kept : Kept r) {call : Syscall} (able : r.able call) :
    WaitsOwnRate bootBlock r call ↔ LastWrittenOwn r call := by
  cases call with
  | read fd bufIsNull nbytes answer =>
      refine forall₂_congr fun rate recorded => ?_
      obtain ⟨valid, _⟩ := kept.own _ _ _ recorded
      have isRtc := kept.driver recorded
      have stepped : (r.step bootBlock (.read fd bufIsNull nbytes answer)).clock =
          r.clock.step bootBlock .read := by
        simp [Recorded.step, Syscall.event, isRtc]
      have waits : WaitsFor bootBlock (r.clock.step bootBlock .read) r.clock.activeTerminal
          (1024 / r.clock.rtc.virtualRate r.clock.activeTerminal).toNat := read_waitsFor kept.valid
      have kernel : (r.clock.step bootBlock .read).kernel = r.clock.kernel :=
        Clock.step_kernel bootBlock kept.valid (by simp) (by simp)
      rw [stepped, ← kept.lastWritten]
      constructor
      · intro own
        have here : (r.clock.step bootBlock .read).activeTerminal = r.clock.activeTerminal := by
          rw [Clock.activeTerminal, kernel]
          rfl
        rw [← here] at waits own
        have counts := waits.unique (by rw [kernel]; exact able.1.1) own
        rw [here] at counts
        exact count_injective (kept.valid.rate _) valid counts
      · intro same
        rwa [same] at waits
  | tick | process | next | openName | close | write => exact Iff.rfl

theorem entry_kept {s : Clock} (on : PowerOn s.kernel) (loaded : Loaded s)
    (buffers : TerminalId → List UInt8) : Kept (Recorded.entry bootBlock buffers s) where
  sound := (on.entry_fresh bootBlock buffers).1.sound
  valid := loaded.valid
  own _ _ _ recorded := nomatch recorded
  lastWritten := rfl

/-- From the `hlt` loop of `entry` on, in every order of timer and clock interrupts, process
    routines and calls on descriptors: every read on a descriptor of the RTC waits for the rate
    its own process has asked for exactly when, at every such read, that is the rate last
    written in its terminal. -/
theorem reads_wait_own_rate_iff {s : Clock} (on : PowerOn s.kernel) (loaded : Loaded s)
    {buffers : TerminalId → List UInt8} {as : List Syscall} {later : Recorded}
    (run : (descriptors bootBlock).Run (Recorded.entry bootBlock buffers s) as later) :
    (descriptors bootBlock).EachStep (WaitsOwnRate bootBlock)
        (Recorded.entry bootBlock buffers s) as ↔
      (descriptors bootBlock).EachStep LastWrittenOwn (Recorded.entry bootBlock buffers s) as := by
  refine run.eachStep_congr (I := fun r => r.clock.kernel.faulted = true ∨ Kept r) ?_ ?_
    (.inr (entry_kept on loaded buffers))
  · intro r call holds able
    exact (holds.resolve_left (by simp [able.1.1])).step able
  · intro r call holds able
    exact (holds.resolve_left (by simp [able.1.1])).waitsOwnRate_iff able

end Step

/-- A directory with an executable named `shell` and the RTC under the name `rtc`. -/
def rtcImage : Image where
  byte addr :=
    ([(0, 2), (4, 1), (8, 1), (64, 0x73), (65, 0x68), (66, 0x65), (67, 0x6C), (68, 0x6C), (96, 2),
      (128, 0x72), (129, 0x74), (130, 0x63), (4096, 4), (8192, 0x7F), (8193, 0x45), (8194, 0x4C),
      (8195, 0x46)].lookup addr).getD 0

/-- `"rtc"` -/
def rtcName : CharPtr := charPtr (text "rtc")

/-- A process runs and makes its calls on descriptor 2. -/
structure AtCall (r : Recorded) : Prop where
  kept : Kept r
  running : r.clock.kernel.faulted = false
  active : r.activePid ≠ 0
  idle : (r.clock.call r.clock.activeTerminal).running = false

section Reopened

variable {r : Recorded}

theorem rtcName_found : ∃ dirEntry, readDentryByName (some rtcImage) (some rtcName) =
    some dirEntry ∧ dirEntry.filetype = TYPE_RTC ∧ toInt32 dirEntry.inodeNum = 0 := by
  have found : (readDentryByName (some rtcImage) (some rtcName)).map
      (fun dirEntry => (dirEntry.filetype, toInt32 dirEntry.inodeNum)) = some (TYPE_RTC, 0) := by
    decide +kernel
  obtain ⟨dirEntry, read, fields⟩ := Option.map_eq_some_iff.mp found
  exact ⟨dirEntry, read, congrArg Prod.fst fields, congrArg Prod.snd fields⟩

def slot2 : Fin MAX_NUM_FILES := ⟨2, by decide⟩

/-- The search stops at once. -/
theorem open_second {pcb : Pcb} (free : (pcb.fileDescriptorArray slot2).flags ≠ 1) :
    fileDescriptorTableOpen (some rtcImage) pcb (some rtcName) =
      (2, pcb.setDescriptor slot2
        { fileOps := some .rtc, inode := 0, filePos := 0, flags := 1 }) := by
  obtain ⟨dirEntry, found, isRtc, inode⟩ := rtcName_found
  have inRange : 2 < MAX_NUM_FILES := by decide
  have search : searchFree pcb 2 (MAX_NUM_FILES - 2) = 2 := by
    have free : ¬ (pcb.fileDescriptorArray ⟨2, inRange⟩).flags = 1 := free
    have slots : MAX_NUM_FILES - 2 = 5 + 1 := rfl
    rw [slots, searchFree, dif_pos inRange, if_neg free]
  have store := pcb.storeWord_flags slot2
  have typed : opsOfType dirEntry.filetype = some .rtc := by rw [isRtc]; rfl
  rw [slot2] at store ⊢
  simp only [fileDescriptorTableOpen, search, dif_pos inRange, store, found, typed, inode,
    Pcb.setDescriptor_self, Pcb.setDescriptor_twice]
  rfl

/-- What an open makes of descriptor 2 when it is free. -/
theorem AtCall.opens (ready : AtCall r)
    (free : (r.clock.activePcb.fileDescriptorArray slot2).flags ≠ 1) :
    ∃ opened, (descriptors (some rtcImage)).Run r [.openName (some rtcName)] opened ∧
      AtCall opened ∧ opened.lastWritten = r.lastWritten ∧
      opened.clock.activeTerminal = r.clock.activeTerminal ∧
      opened.ownRate opened.activePid 2 = some 2 ∧
      (opened.clock.activePcb.fileDescriptorArray slot2).inode = 0 := by
  have result := open_second free
  have isRtc : isRtcEntry (some rtcImage) (some rtcName) = true := by
    obtain ⟨dirEntry, found, isRtc, _⟩ := rtcName_found
    simp [isRtcEntry, found, isRtc]
  have stepped : r.step (some rtcImage) (.openName (some rtcName)) =
      { r with
        clock := r.clock.setActivePcb (fileDescriptorTableOpen (some rtcImage) r.clock.activePcb
          (some rtcName)).2
        ownRate := r.setOwn 2 (some 2) } := by
    simp [Recorded.step, Syscall.event, Clock.step, Descriptor.Call.run, result, isRtc]
  have run : (descriptors (some rtcImage)).Run r [.openName (some rtcName)] _ :=
    .cons ⟨⟨ready.running, ready.idle⟩, ready.active⟩ (.nil _)
  refine ⟨_, run, ⟨ready.kept.openName _, ?_, ?_, ?_⟩, ?_, ?_, ?_, ?_⟩ <;>
    simp only [descriptors, stepped]
  · exact ready.running
  · exact ready.active
  · exact ready.idle
  · rfl
  · show r.setOwn 2 (some 2) r.activePid 2 = some 2
    simp [Recorded.setOwn]
  · rw [result]
    simp [Clock.setActivePcb, Clock.activePcb, Proc.setPcb]

/-- A rate is accepted; the call has its second store before it. -/
theorem AtCall.write_step (ready : AtCall r) {own : Int}
    (isOpen : r.ownRate r.activePid 2 = some own) :
    ∃ stored, (descriptors (some rtcImage)).Run r [.write 2 (some 32) 0] stored ∧ Kept stored ∧
      stored.clock.kernel = r.clock.kernel ∧
      stored.clock.call r.clock.activeTerminal = .storing ∧
      stored.lastWritten r.clock.activeTerminal = 32 := by
  have isRtc := ready.kept.driver isOpen
  have accepted : acceptedRate (some 32) = some 32 := acceptedRate_spec.mpr ⟨rfl, by decide⟩
  have event : Syscall.event r.clock (.write 2 (some 32) 0) = .write (some 32) := by
    simp [Syscall.event, isRtc]
  have stepped : r.step (some rtcImage) (.write 2 (some 32) 0) =
      { clock := r.clock.rtcWrite (some 32)
        ownRate := r.written 32
        lastWritten := Function.update r.lastWritten r.clock.activeTerminal 32 } := by
    simp [Recorded.step, event, isRtc, accepted, Clock.step]
  have able : r.able (.write 2 (some 32) 0) := by
    refine ⟨?_, ready.active⟩
    rw [event]
    exact ⟨ready.running, ready.idle⟩
  refine ⟨_, .cons able (.nil _), ready.kept.write 2 (some 32) 0, ?_, ?_, ?_⟩ <;>
    simp only [descriptors, stepped]
  · simp [Clock.rtcWrite, accepted, Clock.setCall]
  · simp [Clock.rtcWrite, accepted, Clock.setCall]
  · simp

/-- A rate is written, and the call returns. -/
theorem AtCall.writes (ready : AtCall r) {own : Int}
    (isOpen : r.ownRate r.activePid 2 = some own) :
    ∃ written, (descriptors (some rtcImage)).Run r [.write 2 (some 32) 0, .next] written ∧
      AtCall written ∧ written.lastWritten written.clock.activeTerminal = 32 ∧
      written.clock.activePcb = r.clock.activePcb := by
  obtain ⟨stored, first, kept, kernel, storing, last⟩ := ready.write_step isOpen
  have here : stored.clock.activeTerminal = r.clock.activeTerminal := by
    rw [Clock.activeTerminal, kernel]
    rfl
  rw [← here] at storing last
  have running : stored.clock.kernel.faulted = false := kernel ▸ ready.running
  have able : stored.able .next := ⟨⟨running, by rw [storing]; rfl⟩, trivial⟩
  have run := first.append (.cons able (.nil _))
  have same : (stored.step (some rtcImage) .next).clock.kernel = stored.clock.kernel :=
    @Clock.step_kernel stored.clock (some rtcImage) kept.valid .next (by simp) (by simp)
  have returned : (stored.step (some rtcImage) .next).clock.call stored.clock.activeTerminal =
      .returned 0 := by
    simp [Recorded.step, Syscall.event, Clock.step, Clock.nextStatement, storing,
      Clock.storeCount_valid kept.valid]
  have still : (stored.step (some rtcImage) .next).clock.activeTerminal =
      stored.clock.activeTerminal := by
    rw [Clock.activeTerminal, same]
    rfl
  refine ⟨_, run, ⟨kept.next, ?_, ?_, ?_⟩, ?_, ?_⟩ <;> simp only [descriptors]
  · rw [same]
    exact running
  · rw [Recorded.activePid, same, kernel]
    exact ready.active
  · rw [still, returned]
    rfl
  · rw [still]
    exact last
  · rw [Clock.activePcb, same, kernel]
    rfl

theorem AtCall.closes (ready : AtCall r)
    (isOpen : (r.clock.activePcb.fileDescriptorArray slot2).inode ≠ -1) :
    ∃ closed, (descriptors (some rtcImage)).Run r [.close 2] closed ∧ AtCall closed ∧
      closed.lastWritten = r.lastWritten ∧
      closed.clock.activeTerminal = r.clock.activeTerminal ∧
      (closed.clock.activePcb.fileDescriptorArray slot2).flags ≠ 1 := by
  have result : fileDescriptorTableClose r.clock.activePcb 2 =
      (0, r.clock.activePcb.setDescriptor slot2 (initialDescriptor none)) := by
    rcases fileDescriptorTableClose_cases r.clock.activePcb 2 with
      ⟨_, absent⟩ | ⟨slot, index, _, closed⟩
    · exact absurd (absent slot2 rfl) isOpen
    · obtain rfl : slot = slot2 := Fin.ext (by simpa [slot2] using Int.ofNat.inj index)
      exact closed
  have stepped : r.step (some rtcImage) (.close 2) =
      { r with
        clock := r.clock.setActivePcb (r.clock.activePcb.setDescriptor slot2
          (initialDescriptor none))
        ownRate := r.setOwn 2 none } := by
    simp [Recorded.step, Syscall.event, Clock.step, Descriptor.Call.run, result]
  have able : r.able (.close 2) := ⟨⟨ready.running, ready.idle⟩, ready.active⟩
  refine ⟨_, .cons able (.nil _), ⟨ready.kept.close _, ?_, ?_, ?_⟩, ?_, ?_, ?_⟩ <;>
    simp only [descriptors, stepped]
  · exact ready.running
  · exact ready.active
  · exact ready.idle
  · rfl
  · simp [Clock.setActivePcb, Clock.activePcb, Proc.setPcb, initialDescriptor]

/-- What the process does: it opens the RTC, asks for 32 Hz, closes it, opens it again and
    reads. -/
def reopening : List Syscall :=
  [.openName (some rtcName), .write 2 (some 32) 0, .next, .close 2, .openName (some rtcName),
    .read 2 true 4 .failed]

/-- The read waits for the rate from before. -/
theorem AtCall.waits_old_rate (ready : AtCall r)
    (free : (r.clock.activePcb.fileDescriptorArray slot2).flags ≠ 1) :
    ∃ later, (descriptors (some rtcImage)).Run r reopening later ∧
      ¬ (descriptors (some rtcImage)).EachStep (WaitsOwnRate (some rtcImage)) r reopening := by
  obtain ⟨opened, run1, ready1, _, _, own, inode⟩ := ready.opens free
  obtain ⟨written, run2, ready2, last, same⟩ := ready1.writes own
  obtain ⟨closed, run3, ready3, last3, terminal3, free3⟩ :=
    ready2.closes (by rw [same, inode]; decide)
  obtain ⟨reopened, run4, ready4, last4, terminal4, own4, _⟩ := ready3.opens free3
  have isRtc := ready4.kept.driver own4
  have able : reopened.able (.read 2 true 4 .failed) := by
    refine ⟨?_, ready4.active⟩
    simp only [Syscall.event, isRtc, if_true]
    exact ⟨ready4.running, ready4.idle⟩
  have run := run1.append (run2.append (run3.append run4))
  refine ⟨_, run.append (.cons able (.nil _)), fun each => ?_⟩
  have last5 : (descriptors (some rtcImage)).EachStep (WaitsOwnRate (some rtcImage)) reopened
      [.read 2 true 4 .failed] := (run.eachStep_append.mp each).2
  have own := (ready4.kept.waitsOwnRate_iff able).mp last5.1 2 own4
  rw [last4, terminal4, last3, terminal3, last] at own
  cases own

/-- With three processes, a shell can start another. -/
theorem rtcImage_starts {s : State} (count : s.proc.processCount = 3) (caller : Context) :
    StartsProgram (some rtcImage) s (.execute [] State.shellName caller) := by
  refine ⟨by rw [count]; decide, by decide +kernel, ?_⟩
  decide +kernel

/-- The new process has descriptor 2 free. -/
theorem AtCall.starts_child (ready : AtCall r) (root : r.activePid ≤ 3)
    (count : r.clock.kernel.proc.processCount = 3)
    (pool : r.clock.kernel.proc.processes 4 = 0) (caller : Context) :
    ∃ child, (descriptors (some rtcImage)).Run r
        [.process (.execute [] State.shellName caller)] child ∧ AtCall child ∧
      (child.clock.activePcb.fileDescriptorArray slot2).flags ≠ 1 := by
  have kernelAble : r.clock.kernel.able (.execute [] State.shellName caller) :=
    ⟨ready.running, ready.active⟩
  have able : r.able (.process (.execute [] State.shellName caller)) :=
    ⟨⟨ready.running, trivial, kernelAble, ready.idle⟩, trivial⟩
  have free : (List.range 7).find? (fun i => r.clock.kernel.proc.processes i = 0) ≠ none := by
    intro none
    have taken := List.find?_eq_none.mp none 4 (by decide)
    simp [pool] at taken
  obtain ⟨pid, argBuf, argumentExist, eip, display, entryPoint, isChild, _, started, _, valid⟩ :=
    ready.kept.sound.starts kernelAble (rtcImage_starts count caller) free
  have kernel :
      (r.step (some rtcImage) (.process (.execute [] State.shellName caller))).clock.kernel = _ :=
    started
  have call : (r.step (some rtcImage) (.process (.execute [] State.shellName caller))).clock.call =
      r.clock.call := rfl
  have kept := (ready.kept.process able).resolve_left (by
    rw [kernel]
    exact Bool.eq_false_iff.mp valid.fault)
  have run := Machine.Run.cons (M := descriptors (some rtcImage)) able (.nil _)
  have next : (descriptors (some rtcImage)).next r
      (.process (.execute [] State.shellName caller)) =
        r.step (some rtcImage) (.process (.execute [] State.shellName caller)) := rfl
  rw [next] at run
  generalize r.step (some rtcImage) (.process (.execute [] State.shellName caller)) = child
    at kernel call kept run
  refine ⟨child, run, ⟨kept, ?_, ?_, ?_⟩, ?_⟩
  · rw [kernel]
    exact valid.fault
  · rw [Recorded.activePid, kernel]
    simp only [Proc.started]
    omega
  · have terminal : child.clock.activeTerminal = r.clock.activeTerminal := by
      rw [Clock.activeTerminal, kernel]
      rfl
    rw [call, terminal]
    exact ready.idle
  · have other : pid ≠ r.clock.kernel.proc.activePid := by
      have small : r.clock.kernel.proc.activePid ≤ 3 := root
      omega
    rw [Clock.activePcb, kernel]
    simp [Proc.started, other, State.newPcb, fileDescriptorTableInit, initialDescriptor, slot2]

end Reopened

/-- Entering a root shell leaves the pool alone. -/
theorem entered_pool (proc : Proc) (pid : Nat) (context : Context) (t : TerminalId) :
    ((proc.storeContext pid context).entered t).processCount = proc.processCount ∧
      ((proc.storeContext pid context).entered t).processes = proc.processes :=
  ⟨rfl, rfl⟩

/-- The timer enters the shell of terminal 2. -/
theorem shell_ready {s : Clock} (on : PowerOn s.kernel) (loaded : Loaded s)
    (buffers : TerminalId → List UInt8) (context : Context) :
    ∃ shell, (descriptors (some rtcImage)).Run (Recorded.entry (some rtcImage) buffers s)
        [.process (.schedule context)] shell ∧
      AtCall shell ∧ shell.activePid = 2 ∧ shell.clock.kernel.proc.processCount = 3 ∧
      shell.clock.kernel.proc.processes 4 = 0 := by
  have kept : Kept (Recorded.entry (some rtcImage) buffers s) := entry_kept on loaded buffers
  have idle : ∀ t, (Recorded.entry (some rtcImage) buffers s).clock.call t = .idle := loaded.call
  have fresh : Fresh (Recorded.entry (some rtcImage) buffers s).clock.kernel :=
    (on.entry_fresh (some rtcImage) buffers).1
  generalize Recorded.entry (some rtcImage) buffers s = start at kept idle fresh ⊢
  obtain ⟨display, entryPoint, entered, switched⟩ := State.schedule_first fresh.valid.toMapped
    context (t := .terminal2) (by rw [fresh.activeTerminal]; rfl) (fresh.current _)
  have able : start.able (.process (.schedule context)) := ⟨⟨fresh.running, trivial⟩, trivial⟩
  have scheduled : (start.step (some rtcImage) (.process (.schedule context))).clock.kernel =
      ⟨(start.clock.kernel.proc.storeContext 1 context).entered .terminal2, display,
        .enterUser entryPoint⟩ := entered
  have call : (start.step (some rtcImage) (.process (.schedule context))).clock.call =
      start.clock.call := rfl
  have kept := (kept.process able).resolve_left (by
    rw [scheduled]
    exact Bool.eq_false_iff.mp switched.valid.fault)
  have run := Machine.Run.cons (M := descriptors (some rtcImage)) able (.nil _)
  have next : (descriptors (some rtcImage)).next start (.process (.schedule context)) =
      start.step (some rtcImage) (.process (.schedule context)) := rfl
  rw [next] at run
  generalize start.step (some rtcImage) (.process (.schedule context)) = shell
    at scheduled call kept run
  refine ⟨shell, run, ⟨kept, ?_, ?_, ?_⟩, ?_, ?_, ?_⟩
  · rw [scheduled]
    exact switched.valid.fault
  · rw [Recorded.activePid, scheduled]
    exact Nat.succ_ne_zero 1
  · rw [call, idle]
    rfl
  · rw [Recorded.activePid, scheduled]
    rfl
  · rw [scheduled, (entered_pool _ _ _ _).1]
    exact fresh.processCount
  · rw [scheduled, (entered_pool _ _ _ _).2, fresh.processes]
    rfl

/-- The shell of terminal 2 starts a program that opens the RTC twice. -/
def reopeningRun : List Syscall :=
  [.process (.schedule ⟨0x7FFFF0, 0x7FFFF8⟩)] ++
    [.process (.execute [] State.shellName ⟨0x7FFF00, 0x7FFF80⟩)] ++ reopening

theorem reopening_fails {s : Clock} (on : PowerOn s.kernel) (loaded : Loaded s)
    (buffers : TerminalId → List UInt8) :
    ∃ later, (descriptors (some rtcImage)).Run (Recorded.entry (some rtcImage) buffers s)
        reopeningRun later ∧
      ¬ (descriptors (some rtcImage)).EachStep (WaitsOwnRate (some rtcImage))
        (Recorded.entry (some rtcImage) buffers s) reopeningRun := by
  obtain ⟨shell, run1, ready, active, count, pool⟩ :=
    shell_ready on loaded buffers ⟨0x7FFFF0, 0x7FFFF8⟩
  obtain ⟨child, run2, ready, free⟩ :=
    ready.starts_child (by omega) count pool ⟨0x7FFF00, 0x7FFF80⟩
  obtain ⟨later, run3, late⟩ := ready.waits_old_rate free
  have run := run1.append run2
  refine ⟨later, run.append run3, fun each => late ?_⟩
  exact (run.eachStep_append.mp each).2

theorem reopened_rtc_waits_old_rate :
    ∃ later, (descriptors (some rtcImage)).Run
        (Recorded.entry (some rtcImage) (fun _ => []) poweredClock) reopeningRun later ∧
      ¬ (descriptors (some rtcImage)).EachStep (WaitsOwnRate (some rtcImage))
        (Recorded.entry (some rtcImage) (fun _ => []) poweredClock) reopeningRun :=
  reopening_fails poweredOn_powerOn poweredClock_loaded (fun _ => [])

theorem reopening_waits_own_rate_iff :
    ∃ later, (descriptors (some rtcImage)).Run
        (Recorded.entry (some rtcImage) (fun _ => []) poweredClock) reopeningRun later ∧
      ((descriptors (some rtcImage)).EachStep (WaitsOwnRate (some rtcImage))
          (Recorded.entry (some rtcImage) (fun _ => []) poweredClock) reopeningRun ↔
        (descriptors (some rtcImage)).EachStep LastWrittenOwn
          (Recorded.entry (some rtcImage) (fun _ => []) poweredClock) reopeningRun) := by
  obtain ⟨later, run, _⟩ :=
    reopening_fails poweredOn_powerOn poweredClock_loaded (fun _ => [])
  exact ⟨later, run, reads_wait_own_rate_iff poweredOn_powerOn poweredClock_loaded run⟩

end LightOS.Rtc
