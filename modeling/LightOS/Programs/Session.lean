import LightOS.Descriptor.Frame
import LightOS.Kernel.Command
import LightOS.Lib.Interaction
import LightOS.Programs.Grep
import LightOS.Rtc.Driver

/-! # The system calls of a program

A program is what it asks of the kernel; the calls are answered here by the routines behind them,
on the control block of the process.  A session also has what comes from outside: the lines
that are typed, and what becomes of the programs it starts.

`INT 0x80` is taken to come back to the program with what the routine has returned.  The code of
syscallWrapper.S does not do so; what is said of programs is said of a kernel where it does.
-/

namespace LightOS.Programs

open Lib Lib.Interaction Filesystem Descriptor
open Kernel (NEWLINE text chars)

/-- The calls of ece391syscall.h that the programs make.  A buffer to be filled is left to the
    answer, which says what is stored at its beginning. -/
inductive Syscall where
  | getargs (nbytes : Int)
  | openName (filename : CharPtr)
  | read (fd nbytes : Int)
  | write (fd : Int) (buf : CharPtr) (nbytes : Int)
  | close (fd : Int)
  | execute (command : CharPtr)

abbrev UserProgram (α : Type) := Program Syscall Transfer α

/-- `ece391_fdputs` -/
def fdputs (rounds : Nat) (fd : Int) (s : CharPtr) : UserProgram Unit :=
  match ece391Strlen s 0 rounds with
  | none => .spent
  | some len => do
      let _ ← .ask (.write fd s len)
      return ()

/-- A text for the terminal. -/
def message (rounds : Nat) (string : String) : UserProgram Unit :=
  fdputs rounds 1 (charPtr (text string))

structure Session where
  pcb : Pcb
  argumentExist : Nat
  /-- The lines that have been typed, each with its newline. -/
  typed : List (List UInt8)
  /-- What the programs started next return, and what they print. -/
  children : List (Int × List UInt8)
  /-- What has been sent to the terminal. -/
  screen : List UInt8
  /-- The commands that have been executed. -/
  commands : List (List UInt8)

/-- `syscall_getargs`, with a buffer. -/
def getargs (argumentExist : Nat) (pcb : Pcb) (nbytes : Int) : Transfer :=
  if argumentExist = 0 then .failed
  else
    let argBuf := charPtr pcb.argBuf
    let length := toInt32 (strlen argBuf)
    if nbytes < length then .failed
    else ⟨0, (List.range (length + 1).toNat).map argBuf⟩

/-- What `terminal_read` makes of a line, once there is one. -/
def terminalRead (line : List UInt8) (n : Nat) : Transfer :=
  let copied := line.take n
  match copied.findIdx? (· = NEWLINE) with
  | some index => ⟨index + 1, copied.take (index + 1)⟩
  | none => ⟨toInt32 copied.length, copied.dropLast ++ [NEWLINE]⟩

/-- The bytes that are written from a buffer. -/
def written (buf : CharPtr) (nbytes : Int) : List UInt8 := (List.range (toUint32 nbytes)).map buf

/-- `*(int32_t *) buf` -/
def wordAt (buf : CharPtr) : Int :=
  toInt32 ((buf 0).toNat + 256 * (buf 1).toNat + 256 ^ 2 * (buf 2).toNat + 256 ^ 3 * (buf 3).toNat)

/-- The driver behind a descriptor. -/
def driverOf (pcb : Pcb) (fd : Int) : Option FileOps :=
  (descriptorIndex fd).bind fun slot => (pcb.fileDescriptorArray slot).fileOps

/-- What `terminal_write` and `rtc_write` return. -/
def deviceWrite (pcb : Pcb) (fd : Int) (buf : CharPtr) (nbytes : Int) : Int :=
  if driverOf pcb fd = some .rtc then
    if Rtc.acceptedRate (some (wordAt buf)) = none then -1 else 0
  else toInt32 (toUint32 nbytes)

namespace Session

def setPcb (s : Session) (pcb : Pcb) : Session := { s with pcb }
def print (s : Session) (bytes : List UInt8) : Session := { s with screen := s.screen ++ bytes }

/-- What the terminal answers to a read, and the lines that are left.  A read of the RTC comes
    back with 0, with nothing stored. -/
def device (s : Session) (fd nbytes : Int) : Option (Transfer × List (List UInt8)) :=
  if driverOf s.pcb fd = some .terminalStdin ∧ toUint32 nbytes ≠ 0 then
    match s.typed with
    | [] => none
    | line :: typed => some (terminalRead line (toUint32 nbytes), typed)
  else some (⟨0, []⟩, s.typed)

/-- A call, or `none` while it has not returned. -/
def serve (bootBlock : Option Image) (s : Session) : Syscall → Option (Transfer × Session)
  | .getargs nbytes => some (getargs s.argumentExist s.pcb nbytes, s)
  | .openName filename =>
      let opened := (Call.openName (some filename)).run bootBlock s.pcb
      some (opened.1, s.setPcb opened.2)
  | .read fd nbytes =>
      (s.device fd nbytes).map fun (answer, typed) =>
        let read := (Call.read fd false nbytes answer).run bootBlock s.pcb
        (read.1, { s.setPcb read.2 with typed })
  | .write fd buf nbytes =>
      let answered := (Call.write fd (deviceWrite s.pcb fd buf nbytes)).run bootBlock s.pcb
      some (answered.1,
        if driverOf s.pcb fd = some .terminalStdout then s.print (written buf nbytes) else s)
  | .close fd =>
      let closed := (Call.close fd).run bootBlock s.pcb
      some (closed.1, s.setPcb closed.2)
  | .execute command =>
      match s.children with
      | [] => none
      | (status, printed) :: children =>
          some (⟨status, []⟩,
            { s.print printed with children, commands := s.commands ++ [chars command] })

end Session

/-- A session of a new process. -/
def newSession (pcb : Pcb) (typed : List (List UInt8)) (children : List (Int × List UInt8)) :
    Session :=
  ⟨fileDescriptorTableInit pcb, 0, typed, children, [], []⟩

/-- The first two descriptors are those of the terminal. -/
structure OnTerminal (pcb : Pcb) : Prop where
  stdin : (pcb.fileDescriptorArray ⟨0, by decide⟩).fileOps = some .terminalStdin
  stdout : (pcb.fileDescriptorArray ⟨1, by decide⟩).fileOps = some .terminalStdout

section Serving

variable {bootBlock : Option Image} {s s' : Session} {pcb : Pcb} {t : List UInt8}

theorem OnTerminal.driver_stdin (on : OnTerminal pcb) : driverOf pcb 0 = some .terminalStdin :=
  on.stdin

theorem OnTerminal.driver_stdout (on : OnTerminal pcb) : driverOf pcb 1 = some .terminalStdout :=
  on.stdout

/-- Of a new process only the terminal is open. -/
theorem new_descriptors {old : Pcb}
    (new : pcb.fileDescriptorArray = (fileDescriptorTableInit old).fileDescriptorArray) :
    OnTerminal pcb ∧ ¬ AllBusy pcb := by
  constructor
  · constructor <;> rw [new] <;> rfl
  · intro busy
    have second := busy ⟨2, by decide⟩ (Nat.le_refl 2)
    rw [new] at second
    have free : (initialDescriptor none).flags = 1 := second
    exact absurd free (by decide)

/-- A descriptor behind those of the terminal is changed. -/
theorem OnTerminal.setDescriptor (on : OnTerminal pcb) {slot : Fin MAX_NUM_FILES}
    (behind : 2 ≤ slot.val) (descriptor : FileDescriptor) :
    OnTerminal (pcb.setDescriptor slot descriptor) where
  stdin := by
    have other : (⟨0, by decide⟩ : Fin MAX_NUM_FILES) ≠ slot := by
      rintro rfl
      exact absurd behind (by decide)
    simp only [Pcb.setDescriptor, Function.update_of_ne other]
    exact on.stdin
  stdout := by
    have other : (⟨1, by decide⟩ : Fin MAX_NUM_FILES) ≠ slot := by
      rintro rfl
      exact absurd behind (by decide)
    simp only [Pcb.setDescriptor, Function.update_of_ne other]
    exact on.stdout

theorem OnTerminal.opened (on : OnTerminal pcb) (filename : Option CharPtr) :
    OnTerminal (fileDescriptorTableOpen bootBlock pcb filename).2 := by
  have outcome := fileDescriptorTableOpen_opened bootBlock pcb filename
  generalize fileDescriptorTableOpen bootBlock pcb filename = result at outcome ⊢
  cases outcome with
  | full busy =>
      rw [Pcb.storeWord_flags_past]
      exact ⟨on.stdin, on.stdout⟩
  | missing behind free => exact on.setDescriptor behind _
  | untyped behind free => exact on.setDescriptor behind _
  | bound behind free => exact on.setDescriptor behind _

/-- A read moves a position, and no driver. -/
theorem read_fileOps (fd nbytes : Int) (answer : Transfer) (other : Fin MAX_NUM_FILES) :
    ((fileDescriptorTableRead bootBlock pcb fd false nbytes answer).2.fileDescriptorArray
      other).fileOps = (pcb.fileDescriptorArray other).fileOps := by
  have moved (slot : Fin MAX_NUM_FILES) (filePos : Nat) : ((pcb.setDescriptor slot
      { pcb.fileDescriptorArray slot with filePos }).fileDescriptorArray other).fileOps =
        (pcb.fileDescriptorArray other).fileOps := by
    by_cases this : other = slot
    · rw [this, Pcb.setDescriptor_self]
    · simp only [Pcb.setDescriptor, Function.update_of_ne this]
  simp only [fileDescriptorTableRead]
  split
  · rfl
  · split
    · rfl
    · split
      · exact moved _ _
      · rfl

theorem OnTerminal.read (on : OnTerminal pcb) (fd nbytes : Int) (answer : Transfer) :
    OnTerminal (fileDescriptorTableRead bootBlock pcb fd false nbytes answer).2 :=
  ⟨(read_fileOps ..).trans on.stdin, (read_fileOps ..).trans on.stdout⟩

theorem driver_read (pcb : Pcb) (fd nbytes : Int) (answer : Transfer) (other : Int) :
    driverOf (fileDescriptorTableRead bootBlock pcb fd false nbytes answer).2 other =
      driverOf pcb other := by
  simp only [driverOf]
  cases descriptorIndex other with
  | none => rfl
  | some slot => exact read_fileOps ..

/-- A read of a file or a directory. -/
theorem serve_read {fd nbytes : Int} (other : driverOf s.pcb fd ≠ some .terminalStdin) :
    s.serve bootBlock (.read fd nbytes) =
      some ((fileDescriptorTableRead bootBlock s.pcb fd false nbytes ⟨0, []⟩).1,
        s.setPcb (fileDescriptorTableRead bootBlock s.pcb fd false nbytes ⟨0, []⟩).2) := by
  simp only [Session.serve, Session.device, other, false_and, if_false, Option.map_some, Call.run]
  rfl

/-- A write to the terminal. -/
theorem OnTerminal.serve_write (on : OnTerminal s.pcb) (buf : CharPtr) {n : Nat}
    (small : n < 2 ^ 31) :
    s.serve bootBlock (.write 1 buf n) =
      some (⟨n, []⟩, s.print ((List.range n).map buf)) := by
  have driver := on.driver_stdout
  have count : toUint32 (n : Int) = n := toUint32_natCast (by omega)
  have ret : toInt32 n = n := toInt32_small small
  have slot : descriptorIndex 1 = some ⟨1, by decide⟩ := rfl
  simp only [Session.serve, deviceWrite, driver, if_true, Option.some.injEq, reduceCtorEq,
    if_false, Call.run, fileDescriptorTableWrite, slot, on.stdout, FileOps.hasWrite, driverWrite,
    written, count, ret]

theorem OnTerminal.run_fdputs (on : OnTerminal s.pcb) {buf : CharPtr} (spells : Spells buf 0 t)
    {rounds : Nat} (enough : t.length < rounds) (small : t.length < 2 ^ 31) :
    (fdputs rounds 1 buf).run (Session.serve bootBlock) s =
      .returned () (s.print t) := by
  have length := ece391Strlen_spells spells enough
  have bytes : (List.range t.length).map buf = t := by
    have puts := ece391Fdputs_spells spells enough
    rw [ece391Fdputs, length, Option.map_some, Option.some.injEq, Nat.zero_add] at puts
    exact puts
  have answered : s.serve bootBlock (.write 1 buf t.length) =
      some (⟨t.length, []⟩, s.print ((List.range t.length).map buf)) := on.serve_write buf small
  rw [bytes] at answered
  rw [fdputs, length, Nat.zero_add]
  exact run_after (run_ask answered) _

/-- A message without NUL. -/
theorem OnTerminal.run_message (on : OnTerminal s.pcb) {string : String}
    (plain : ∀ c ∈ text string, c ≠ 0) {rounds : Nat} (enough : (text string).length < rounds)
    (small : (text string).length < 2 ^ 31) :
    (message rounds string).run (Session.serve bootBlock) s =
      .returned () (s.print (text string)) :=
  on.run_fdputs (spells_charPtr plain) enough small

end Serving

end LightOS.Programs
