import LightOS.Descriptor.Pcb
import LightOS.Filesystem.Read

/-! # The file descriptor table

general_file.c on the descriptor array of one process.  A read or write that reaches the
terminal or the RTC gets its answer from the device; `answer` stands for it, since
neither driver touches the descriptor it is called for.  Buffers lie outside the control block of
the caller, so that what a read stores is not in the table.
-/

namespace LightOS.Descriptor

open Lib Filesystem

/-- A slot of the table that `file_descriptor_table_init` leaves behind. -/
def initialDescriptor (fileOps : Option FileOps) : FileDescriptor where
  fileOps := fileOps
  inode := -1
  filePos := 0
  flags := 0

/-- `file_descriptor_table_init` -/
def fileDescriptorTableInit (pcb : Pcb) : Pcb :=
  { pcb with
    fileDescriptorArray := fun i =>
      if i.val = 0 then initialDescriptor (some .terminalStdin)
      else if i.val = 1 then initialDescriptor (some .terminalStdout)
      else initialDescriptor none }

/-- The bounds check the calls on a descriptor start with. -/
def descriptorIndex (fd : Int) : Option (Fin MAX_NUM_FILES) :=
  if inRange : fd.toNat < MAX_NUM_FILES then
    if fd < 0 then none else some ⟨fd.toNat, inRange⟩
  else none

/-- The search loop of `file_descriptor_table_open`, `rounds` rounds from its end. -/
def searchFree (pcb : Pcb) (fdNum : Nat) : Nat → Nat
  | 0 => fdNum
  | rounds + 1 =>
      if inRange : fdNum < MAX_NUM_FILES then
        if (pcb.fileDescriptorArray ⟨fdNum, inRange⟩).flags = 1 then
          searchFree pcb (fdNum + 1) rounds
        else fdNum
      else fdNum

/-- The driver for a file type; no branch of the code handles other types. -/
def opsOfType (filetype : Nat) : Option FileOps :=
  if filetype = TYPE_FILE then some .file
  else if filetype = TYPE_DIRECTORY then some .dir
  else if filetype = TYPE_RTC then some .rtc
  else none

/-- `file_descriptor_table_open` -/
def fileDescriptorTableOpen (bootBlock : Option Image) (pcb : Pcb) (filename : Option CharPtr) :
    Int × Pcb :=
  let fdNum := searchFree pcb 2 (MAX_NUM_FILES - 2)
  let pcb := pcb.storeWord (Pcb.flagsOffset fdNum) 1
  if inRange : fdNum < MAX_NUM_FILES then
    match readDentryByName bootBlock filename with
    | none => (-1, pcb)
    | some dirEntry =>
        match opsOfType dirEntry.filetype with
        | none => (fdNum, pcb)
        | some ops =>
            (fdNum, pcb.setDescriptor ⟨fdNum, inRange⟩
              { pcb.fileDescriptorArray ⟨fdNum, inRange⟩ with
                fileOps := some ops
                inode := toInt32 dirEntry.inodeNum
                filePos := 0 })
  else (-1, pcb)

/-- `file_descriptor_table_close` -/
def fileDescriptorTableClose (pcb : Pcb) (fd : Int) : Int × Pcb :=
  match descriptorIndex fd with
  | none => (-1, pcb)
  | some fd =>
      let closed := fileClose (pcb.fileDescriptorArray fd).inode
      if closed.1 = -1 then (-1, pcb)
      else
        (0, pcb.setDescriptor fd { fileOps := none, inode := closed.2, filePos := 0, flags := 0 })

/-- Whether `file_ops_t->read` is a function. -/
def FileOps.hasRead : FileOps → Bool
  | .terminalStdout => false
  | _ => true

/-- Whether `file_ops_t->write` is a function. -/
def FileOps.hasWrite : FileOps → Bool
  | .terminalStdin => false
  | _ => true

/-- The call through `file_ops_t->read`, with the position afterwards. -/
def driverRead (bootBlock : Option Image) (ops : FileOps) (inode : Int) (bufIsNull : Bool)
    (length filePos : Nat) (answer : Transfer) : Transfer × Nat :=
  match ops with
  | .file => fileRead bootBlock inode bufIsNull length filePos
  | .dir => dirRead bootBlock inode bufIsNull length filePos
  | .terminalStdin | .terminalStdout | .rtc => (answer, filePos)

/-- The call through `file_ops_t->write`; no driver moves the position. -/
def driverWrite (ops : FileOps) (answer : Int) : Int :=
  match ops with
  | .file | .dir => readOnlyWrite
  | .terminalStdin | .terminalStdout | .rtc => answer

/-- `file_descriptor_table_read` -/
def fileDescriptorTableRead (bootBlock : Option Image) (pcb : Pcb) (fd : Int) (bufIsNull : Bool)
    (length : Int) (answer : Transfer) : Transfer × Pcb :=
  match descriptorIndex fd with
  | none => (.failed, pcb)
  | some fd =>
      let descriptor := pcb.fileDescriptorArray fd
      match descriptor.fileOps with
      | none => (.failed, pcb)
      | some ops =>
          if FileOps.hasRead ops then
            let result := driverRead bootBlock ops descriptor.inode bufIsNull (toUint32 length)
              descriptor.filePos answer
            (result.1, pcb.setDescriptor fd { descriptor with filePos := result.2 })
          else (.failed, pcb)

/-- `file_descriptor_table_write` -/
def fileDescriptorTableWrite (pcb : Pcb) (fd : Int) (answer : Int) : Int :=
  match descriptorIndex fd with
  | none => -1
  | some fd =>
      match (pcb.fileDescriptorArray fd).fileOps with
      | none => -1
      | some ops => if FileOps.hasWrite ops then driverWrite ops answer else -1

/-- A call a process can make on its table, with what the device has to say to it. -/
inductive Call
  | openName (filename : Option CharPtr)
  | close (fd : Int)
  | read (fd : Int) (bufIsNull : Bool) (nbytes : Int) (answer : Transfer)
  | write (fd : Int) (answer : Int)

/-- `syscall_open`, `syscall_close`, `syscall_read` and `syscall_write`, on the control block of
    the process that makes the call. -/
def Call.run (bootBlock : Option Image) (pcb : Pcb) : Call → Transfer × Pcb
  | .openName filename =>
      let result := fileDescriptorTableOpen bootBlock pcb filename
      (⟨result.1, []⟩, result.2)
  | .close fd =>
      let result := fileDescriptorTableClose pcb fd
      (⟨result.1, []⟩, result.2)
  | .read fd bufIsNull nbytes answer =>
      fileDescriptorTableRead bootBlock pcb fd bufIsNull nbytes answer
  | .write fd answer => (⟨fileDescriptorTableWrite pcb fd answer, []⟩, pcb)

/-- Six descriptors can be opened, and all of them are marked as in use. -/
def AllBusy (pcb : Pcb) : Prop :=
  ∀ fd : Fin MAX_NUM_FILES, 2 ≤ fd.val → (pcb.fileDescriptorArray fd).flags = 1

/-- The ways a call of `file_descriptor_table_open` goes. -/
inductive Opened (bootBlock : Option Image) (pcb : Pcb) (filename : Option CharPtr) :
    Int × Pcb → Prop
  | full : AllBusy pcb →
      Opened bootBlock pcb filename (-1, pcb.storeWord (Pcb.flagsOffset MAX_NUM_FILES) 1)
  | missing {fd : Fin MAX_NUM_FILES} : 2 ≤ fd.val → (pcb.fileDescriptorArray fd).flags ≠ 1 →
      readDentryByName bootBlock filename = none →
      Opened bootBlock pcb filename
        (-1, pcb.setDescriptor fd { pcb.fileDescriptorArray fd with flags := 1 })
  | untyped {fd : Fin MAX_NUM_FILES} {dirEntry : DirEntry} : 2 ≤ fd.val →
      (pcb.fileDescriptorArray fd).flags ≠ 1 →
      readDentryByName bootBlock filename = some dirEntry → opsOfType dirEntry.filetype = none →
      Opened bootBlock pcb filename
        (fd.val, pcb.setDescriptor fd { pcb.fileDescriptorArray fd with flags := 1 })
  | bound {fd : Fin MAX_NUM_FILES} {dirEntry : DirEntry} {ops : FileOps} : 2 ≤ fd.val →
      (pcb.fileDescriptorArray fd).flags ≠ 1 →
      readDentryByName bootBlock filename = some dirEntry → opsOfType dirEntry.filetype = some ops →
      Opened bootBlock pcb filename
        (fd.val, pcb.setDescriptor fd
          { fileOps := some ops, inode := toInt32 dirEntry.inodeNum, filePos := 0, flags := 1 })

theorem descriptorIndex_eq_some {fd : Int} {slot : Fin MAX_NUM_FILES} :
    descriptorIndex fd = some slot ↔ (slot.val : Int) = fd := by
  have bound := slot.isLt
  unfold descriptorIndex
  split
  · split
    · simp only [reduceCtorEq, false_iff]
      omega
    · simp only [Option.some.injEq, Fin.ext_iff]
      omega
  · simp only [reduceCtorEq, false_iff]
    omega

theorem descriptorIndex_eq_none {fd : Int} (outside : descriptorIndex fd = none)
    (slot : Fin MAX_NUM_FILES) : (slot.val : Int) ≠ fd := by
  intro same
  rw [descriptorIndex_eq_some.mpr same] at outside
  cases outside

section Spec

variable (bootBlock : Option Image) (pcb : Pcb)

/-- The search stops at the first free descriptor, or behind the last one. -/
theorem searchFree_spec (fdNum rounds : Nat) (left : fdNum + rounds = MAX_NUM_FILES) :
    fdNum ≤ searchFree pcb fdNum rounds ∧ searchFree pcb fdNum rounds ≤ MAX_NUM_FILES ∧
      (∀ fd : Fin MAX_NUM_FILES, fdNum ≤ fd.val → fd.val < searchFree pcb fdNum rounds →
        (pcb.fileDescriptorArray fd).flags = 1) ∧
      ∀ inRange : searchFree pcb fdNum rounds < MAX_NUM_FILES,
        (pcb.fileDescriptorArray ⟨searchFree pcb fdNum rounds, inRange⟩).flags ≠ 1 := by
  induction rounds generalizing fdNum with
  | zero =>
      unfold searchFree
      refine ⟨Nat.le_refl _, by omega, ?_, ?_⟩
      · intro fd _ before
        omega
      · intro inRange
        omega
  | succ rounds ih =>
      have inRange : fdNum < MAX_NUM_FILES := by omega
      by_cases busy : (pcb.fileDescriptorArray ⟨fdNum, inRange⟩).flags = 1
      · obtain ⟨after, bounded, passed, stopped⟩ := ih (fdNum + 1) (by omega)
        simp only [searchFree, dif_pos inRange, if_pos busy]
        refine ⟨by omega, bounded, ?_, stopped⟩
        intro fd from_ before
        rcases Nat.eq_or_lt_of_le from_ with rfl | later
        · exact busy
        · exact passed fd later before
      · simp only [searchFree, dif_pos inRange, if_neg busy]
        refine ⟨Nat.le_refl _, by omega, ?_, fun _ => busy⟩
        intro fd from_ before
        omega

theorem fileDescriptorTableOpen_opened (filename : Option CharPtr) :
    Opened bootBlock pcb filename (fileDescriptorTableOpen bootBlock pcb filename) := by
  obtain ⟨after, bounded, passed, stopped⟩ :=
    searchFree_spec pcb 2 (MAX_NUM_FILES - 2) rfl
  unfold fileDescriptorTableOpen
  generalize searchFree pcb 2 (MAX_NUM_FILES - 2) = fdNum at after bounded passed stopped ⊢
  by_cases inRange : fdNum < MAX_NUM_FILES
  · have store := pcb.storeWord_flags ⟨fdNum, inRange⟩
    simp only [dif_pos inRange, store]
    cases found : readDentryByName bootBlock filename with
    | none => exact .missing after (stopped inRange) found
    | some dirEntry =>
        cases typed : opsOfType dirEntry.filetype with
        | none =>
            simp only [typed]
            exact .untyped after (stopped inRange) found typed
        | some ops =>
            simp only [typed, Pcb.setDescriptor_self, Pcb.setDescriptor_twice]
            exact .bound after (stopped inRange) found typed
  · obtain rfl : fdNum = MAX_NUM_FILES := by omega
    simp only [dif_neg inRange]
    exact .full (fun fd from_ => passed fd from_ fd.isLt)

/-- A close fails on what has no inode, and otherwise leaves an empty slot. -/
theorem fileDescriptorTableClose_cases (fd : Int) :
    (fileDescriptorTableClose pcb fd = (-1, pcb) ∧
      ∀ slot : Fin MAX_NUM_FILES, (slot.val : Int) = fd →
        (pcb.fileDescriptorArray slot).inode = -1) ∨
    ∃ slot : Fin MAX_NUM_FILES, (slot.val : Int) = fd ∧
      (pcb.fileDescriptorArray slot).inode ≠ -1 ∧
      fileDescriptorTableClose pcb fd = (0, pcb.setDescriptor slot (initialDescriptor none)) := by
  unfold fileDescriptorTableClose
  cases index : descriptorIndex fd with
  | none => exact .inl ⟨rfl, fun slot same => absurd same (descriptorIndex_eq_none index slot)⟩
  | some slot =>
      obtain rfl := descriptorIndex_eq_some.mp index
      by_cases inode : (pcb.fileDescriptorArray slot).inode = -1
      · refine .inl ⟨by simp [fileClose, inode], ?_⟩
        intro other same
        obtain rfl : other = slot := Fin.ext (by omega)
        exact inode
      · exact .inr ⟨slot, rfl, inode, by simp [fileClose, inode, initialDescriptor]⟩

end Spec

end LightOS.Descriptor
