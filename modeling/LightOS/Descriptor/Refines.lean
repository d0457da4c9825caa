import LightOS.Descriptor.OpenFiles
import LightOS.Descriptor.Frame

/-! # general_file.c refines the map of open files

One lemma for each call, then the sequence of calls.  A slot that a failed open has left
marked as in use looks like a free one here: only its flags differ.
-/

namespace LightOS.Descriptor

open Lib Filesystem

section Represents

variable {pcb : Pcb} {files : OpenFiles}

/-- A slot takes part in what the map says only through its view and its mark. -/
theorem Represents.keep (shown : Represents pcb files) (fd : Fin MAX_NUM_FILES)
    {descriptor : FileDescriptor} (same : view descriptor = view (pcb.fileDescriptorArray fd))
    (marked : (pcb.fileDescriptorArray fd).flags = 1 → descriptor.flags = 1) :
    Represents (pcb.setDescriptor fd descriptor) files where
  views other := by
    by_cases this : other = fd
    · subst this
      rw [Pcb.setDescriptor_self, same, shown.views]
    · rw [Pcb.setDescriptor_other this, shown.views]
  busy user bound := by
    by_cases this : user.val = fd
    · subst this
      rw [Pcb.setDescriptor_self]
      exact marked (shown.busy user bound)
    · rw [Pcb.setDescriptor_other this]
      exact shown.busy user bound

theorem Represents.update (shown : Represents pcb files) (user : UserFd)
    {descriptor : FileDescriptor} {file : Option OpenFile} (look : view descriptor = fileView file)
    (marked : file.isSome → descriptor.flags = 1) :
    Represents (pcb.setDescriptor user.val descriptor) (Function.update files user file) where
  views other := by
    rw [OpenFiles.view_update]
    by_cases this : other = user.val
    · subst this
      rw [Pcb.setDescriptor_self, if_pos rfl, look]
    · rw [Pcb.setDescriptor_other this, if_neg this, shown.views]
  busy other bound := by
    by_cases this : other = user
    · subst this
      rw [Pcb.setDescriptor_self]
      exact marked (by simpa using bound)
    · have slot : other.val ≠ user.val := fun same => this (Subtype.ext same)
      rw [Pcb.setDescriptor_other slot]
      exact shown.busy other (by simpa [Function.update_of_ne this] using bound)

/-- What the three parts of a user's slot are. -/
theorem Represents.slot (shown : Represents pcb files) (user : UserFd) :
    view (pcb.fileDescriptorArray user.val) = fileView (files user) := by
  rw [shown.views, OpenFiles.view_user]

/-- The table of a user's slot is that of its open file. -/
theorem Represents.fileOps (shown : Represents pcb files) (user : UserFd) :
    (pcb.fileDescriptorArray user.val).fileOps = (files user).map OpenFile.driver := by
  have look := shown.slot user
  cases bound : files user <;> simp_all [view, fileView]

theorem Represents.system (shown : Represents pcb files) {fd : Fin MAX_NUM_FILES}
    (system : ¬ 2 ≤ fd.val) :
    (pcb.fileDescriptorArray fd).fileOps =
        (if fd.val = 0 then some .terminalStdin else some .terminalStdout) ∧
      (pcb.fileDescriptorArray fd).inode = -1 := by
  have look := shown.views fd
  rw [OpenFiles.view, dif_neg system] at look
  split at look <;> simp_all [view]

theorem represents_init (pcb : Pcb) :
    Represents (fileDescriptorTableInit pcb) OpenFiles.empty where
  views fd := by
    have small : fd.val = 0 ∨ fd.val = 1 ∨ 2 ≤ fd.val := by omega
    rcases small with h | h | h
    · simp [fileDescriptorTableInit, OpenFiles.view, initialDescriptor, view, h]
    · simp [fileDescriptorTableInit, OpenFiles.view, initialDescriptor, view, h]
    · have notStdin : fd.val ≠ 0 := by omega
      have notStdout : fd.val ≠ 1 := by omega
      simp [fileDescriptorTableInit, OpenFiles.view, OpenFiles.empty, initialDescriptor, view,
        fileView, h, notStdin, notStdout]
  busy user bound := by simp [OpenFiles.empty] at bound

end Represents

section Simulation

variable {img : Image} {pcb : Pcb} {files : OpenFiles}

/-- An entry that was found has a driver, and an inode number other than -1. -/
theorem KnownTypes.entry (known : KnownTypes img) {filename dirEntry}
    (found : readDentryByName (some img) filename = some dirEntry) :
    ∃ ops, opsOfType dirEntry.filetype = some ops ∧ (ops = .file ∨ ops = .dir ∨ ops = .rtc) ∧
      toInt32 dirEntry.inodeNum ≠ -1 := by
  obtain ⟨index, inside, rfl⟩ := readDentryByName_entry found
  have number : toInt32 (img.direntries index).inodeNum ≠ -1 := by
    have word : (img.direntries index).inodeNum < 2 ^ 32 := img.u32_lt _
    rw [Ne, toInt32_eq_neg_one word]
    exact known.inodes index inside
  rcases known.types index inside with h | h | h
  · exact ⟨.rtc, by rw [h]; rfl, by simp, number⟩
  · exact ⟨.dir, by rw [h]; rfl, by simp, number⟩
  · exact ⟨.file, by rw [h]; rfl, by simp, number⟩

theorem open_refines (known : KnownTypes img) (shown : Represents pcb files)
    (filename : Option CharPtr) :
    ∃ files', OpenFiles.Step (some img) files (.openName filename)
        ((Call.openName filename).run (some img) pcb).1 files' ∧
      Represents ((Call.openName filename).run (some img) pcb).2 files' := by
  simp only [Call.run]
  have outcome := fileDescriptorTableOpen_opened (some img) pcb filename
  generalize fileDescriptorTableOpen (some img) pcb filename = result at outcome ⊢
  cases outcome with
  | full busy => exact ⟨files, .openFails, ⟨shown.views, shown.busy⟩⟩
  | missing inside free lost => exact ⟨files, .openFails, shown.keep _ rfl (fun _ => rfl)⟩
  | untyped inside free found unknown =>
      obtain ⟨ops, typed, _⟩ := known.entry found
      rw [unknown] at typed
      cases typed
  | @bound fd dirEntry ops inside free found typed =>
      obtain ⟨ops', typed', onDisk, closable⟩ := known.entry found
      obtain rfl : ops' = ops := by simpa [typed] using typed'.symm
      have unbound : files ⟨fd, inside⟩ = none := by
        rw [← Option.not_isSome_iff_eq_none]
        exact fun bound => free (shown.busy ⟨fd, inside⟩ bound)
      exact ⟨_, .opens ⟨fd, inside⟩ ⟨ops', _, 0, onDisk, closable⟩ unbound
        found typed rfl rfl, shown.update ⟨fd, inside⟩ rfl (fun _ => rfl)⟩

theorem close_refines (shown : Represents pcb files) (fd : Int) :
    ∃ files', OpenFiles.Step (some img) files (.close fd)
        ((Call.close fd).run (some img) pcb).1 files' ∧
      Represents ((Call.close fd).run (some img) pcb).2 files' := by
  simp only [Call.run]
  rcases fileDescriptorTableClose_cases pcb fd with
    ⟨unchanged, noInode⟩ | ⟨slot, rfl, inode, closed⟩
  · rw [unchanged]
    refine ⟨files, .closeUnbound ?_, shown⟩
    intro user same
    have look := shown.slot user
    cases bound : files user with
    | none => rfl
    | some file =>
        rw [bound] at look
        exact absurd (congrArg View.inode look).symm
          (by simpa [view, fileView, noInode user.val same] using file.closable)
  · rw [closed]
    by_cases user : 2 ≤ slot.val
    · have look := shown.slot ⟨slot, user⟩
      cases bound : files ⟨slot, user⟩ with
      | none =>
          rw [bound] at look
          exact absurd (congrArg View.inode look) inode
      | some file =>
          exact ⟨_, .closes ⟨slot, user⟩ bound, shown.update ⟨slot, user⟩ rfl (by simp)⟩
    · exact absurd (shown.system user).2 inode

theorem read_refines (shown : Represents pcb files) (fd : Int) (bufIsNull : Bool) (nbytes : Int)
    (answer : Transfer) :
    ∃ files', OpenFiles.Step (some img) files (.read fd bufIsNull nbytes answer)
        ((Call.read fd bufIsNull nbytes answer).run (some img) pcb).1 files' ∧
      Represents ((Call.read fd bufIsNull nbytes answer).run (some img) pcb).2 files' := by
  simp only [Call.run, fileDescriptorTableRead]
  cases index : descriptorIndex fd with
  | none =>
      have unbound : files.Unbound fd := OpenFiles.unbound_of_outside index
      have notStdin : fd ≠ 0 := fun same => by
        subst same
        cases index
      exact ⟨files, .readUnbound unbound notStdin, shown⟩
  | some slot =>
      obtain rfl := descriptorIndex_eq_some.mp index
      by_cases user : 2 ≤ slot.val
      · have look := shown.slot ⟨slot, user⟩
        cases bound : files ⟨slot, user⟩ with
        | none =>
            have ops := shown.fileOps ⟨slot, user⟩
            rw [bound] at ops
            simp only [ops, Option.map_none]
            exact ⟨files, .readUnbound (OpenFiles.unbound_of_none bound) (by omega), shown⟩
        | some file =>
            simp only [bound, view, fileView, View.mk.injEq] at look
            obtain ⟨ops, inode, filePos⟩ := look
            have readable : FileOps.hasRead file.driver = true := by
              rcases file.onDisk with h | h | h <;> rw [h] <;> rfl
            simp only [ops, readable, if_true, inode, filePos]
            refine ⟨_, .reads ⟨slot, user⟩ bound rfl, shown.update ⟨slot, user⟩ rfl ?_⟩
            intro _
            exact shown.busy ⟨slot, user⟩ (by rw [bound]; rfl)
      · have ops := (shown.system user).1
        by_cases stdin : slot.val = 0
        · rw [if_pos stdin] at ops
          have zero : (slot.val : Int) = 0 := by omega
          simp only [ops, FileOps.hasRead, if_true, driverRead, zero]
          exact ⟨files, .readStdin, shown.keep slot (by simp only [view, ops]) id⟩
        · rw [if_neg stdin] at ops
          simp only [ops, FileOps.hasRead, Bool.false_eq_true, if_false]
          exact ⟨files, .readUnbound (OpenFiles.unbound_of_system user) (by omega), shown⟩

theorem write_refines (shown : Represents pcb files) (fd answer : Int) :
    ∃ files', OpenFiles.Step (some img) files (.write fd answer)
        ((Call.write fd answer).run (some img) pcb).1 files' ∧
      Represents ((Call.write fd answer).run (some img) pcb).2 files' := by
  simp only [Call.run, fileDescriptorTableWrite]
  refine ⟨files, ?_, shown⟩
  cases index : descriptorIndex fd with
  | none =>
      have notStdout : fd ≠ 1 := fun same => by
        subst same
        cases index
      exact .writeUnbound (OpenFiles.unbound_of_outside index) notStdout
  | some slot =>
      obtain rfl := descriptorIndex_eq_some.mp index
      by_cases user : 2 ≤ slot.val
      · have ops := shown.fileOps ⟨slot, user⟩
        cases bound : files ⟨slot, user⟩ with
        | none =>
            rw [bound] at ops
            simp only [ops, Option.map_none]
            exact .writeUnbound (OpenFiles.unbound_of_none bound) (by omega)
        | some file =>
            rw [bound] at ops
            have writable : FileOps.hasWrite file.driver = true := by
              rcases file.onDisk with h | h | h <;> rw [h] <;> rfl
            simp only [ops, Option.map_some, writable, if_true]
            exact .writes ⟨slot, user⟩ bound
      · have ops := (shown.system user).1
        by_cases stdin : slot.val = 0
        · rw [if_pos stdin] at ops
          simp only [ops, FileOps.hasWrite, Bool.false_eq_true, if_false]
          exact .writeUnbound (OpenFiles.unbound_of_system user) (by omega)
        · rw [if_neg stdin] at ops
          have one : (slot.val : Int) = 1 := by omega
          simp only [ops, FileOps.hasWrite, if_true, driverWrite, one]
          exact .writeStdout

theorem run_refines (known : KnownTypes img) (shown : Represents pcb files) (call : Call) :
    ∃ files', OpenFiles.Step (some img) files call (call.run (some img) pcb).1 files' ∧
      Represents (call.run (some img) pcb).2 files' := by
  cases call with
  | openName filename => exact open_refines known shown filename
  | close fd => exact close_refines shown fd
  | read fd bufIsNull nbytes answer => exact read_refines shown fd bufIsNull nbytes answer
  | write fd answer => exact write_refines shown fd answer

end Simulation

/-- A call leaves the view of every descriptor but its own, and a failed open that of all. -/
theorem run_other_view (bootBlock : Option Image) (pcb : Pcb) (call : Call)
    {slot : Fin MAX_NUM_FILES}
    (other : (slot.val : Int) ≠ call.target (call.run bootBlock pcb).1.ret) :
    view ((call.run bootBlock pcb).2.fileDescriptorArray slot) =
      view (pcb.fileDescriptorArray slot) := by
  cases call with
  | openName filename =>
      have outcome := fileDescriptorTableOpen_opened bootBlock pcb filename
      simp only [Call.run, Call.target] at other ⊢
      generalize fileDescriptorTableOpen bootBlock pcb filename = result at outcome other ⊢
      cases outcome with
      | full busy => rw [Pcb.storeWord_flags_past]
      | @missing fd =>
          by_cases same : slot = fd
          · subst same
            rw [Pcb.setDescriptor_self]
            rfl
          · rw [Pcb.setDescriptor_other same]
      | untyped | bound =>
          rw [Pcb.setDescriptor_other (fun same => other (by rw [same]))]
  | close fd =>
      simp only [Call.run, Call.target] at other ⊢
      rcases fileDescriptorTableClose_cases pcb fd with ⟨unchanged, _⟩ | ⟨own, rfl, _, closed⟩
      · rw [unchanged]
      · rw [closed, Pcb.setDescriptor_other (fun same => other (by rw [same]))]
  | read fd bufIsNull nbytes answer =>
      simp only [Call.run, Call.target, fileDescriptorTableRead] at other ⊢
      cases index : descriptorIndex fd with
      | none => rfl
      | some own =>
          have ne : slot ≠ own := fun same => other (by rw [same, descriptorIndex_eq_some.mp index])
          simp only
          split
          · rfl
          · split
            · rw [Pcb.setDescriptor_other ne]
            · rfl
  | write fd answer => rfl

/-- From a table just initialised, every sequence of calls gets the answers of a map of
    open files; and no call touches a descriptor it is not about.  No buffer is one over the
    control block of the caller. -/
theorem table_refines_open_files {img : Image} (known : KnownTypes img) (pcb : Pcb)
    (calls : List Call) :
    Tracks (fun pcb call => Call.run (some img) pcb call) (OpenFiles.Step (some img)) Represents
        (fileDescriptorTableInit pcb) OpenFiles.empty calls ∧
      (callMachine (some img)).EachStep
        (fun before call => ∀ slot : Fin MAX_NUM_FILES,
          (slot.val : Int) ≠ call.target (call.run (some img) before).1.ret →
          view ((call.run (some img) before).2.fileDescriptorArray slot) =
            view (before.fileDescriptorArray slot))
        (fileDescriptorTableInit pcb) calls := by
  refine ⟨Tracks.of_simulation (R := Represents)
    (fun _ _ call shown => run_refines known shown call) (represents_init pcb) calls, ?_⟩
  generalize fileDescriptorTableInit pcb = before
  induction calls generalizing before with
  | nil => trivial
  | cons call calls ih => exact ⟨fun slot other => run_other_view _ _ _ other, ih _⟩

theorem oneEntry_known : KnownTypes oneEntry where
  types := by decide +kernel
  inodes := by decide +kernel

theorem rtc_calls_refine :
    Tracks (fun pcb call => Call.run (some oneEntry) pcb call)
        (OpenFiles.Step (some oneEntry)) Represents (fileDescriptorTableInit freshPcb)
        OpenFiles.empty [.openName (some (charPtr [0x66])), .close 2, .close 2] ∧
      (callMachine (some oneEntry)).EachStep
        (fun before call => ∀ slot : Fin MAX_NUM_FILES,
          (slot.val : Int) ≠ call.target (call.run (some oneEntry) before).1.ret →
          view ((call.run (some oneEntry) before).2.fileDescriptorArray slot) =
            view (before.fileDescriptorArray slot))
        (fileDescriptorTableInit freshPcb)
        [.openName (some (charPtr [0x66])), .close 2, .close 2] :=
  table_refines_open_files oneEntry_known freshPcb _

end LightOS.Descriptor
