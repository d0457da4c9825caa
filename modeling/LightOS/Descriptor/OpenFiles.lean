import LightOS.Descriptor.Table
import LightOS.Lib.Refinement

/-! # The table as a map of open files

What a process may rely on: the descriptors 2 to 7 name open files, 0 and 1 the
terminal.  `OpenFiles.Step` says this of each call without mentioning slots, flags or
driver pointers; `table_refines_open_files` connects it to general_file.c.
-/

namespace LightOS.Descriptor

open Lib Filesystem

/-- The descriptors a process can open. -/
abbrev UserFd := { fd : Fin MAX_NUM_FILES // 2 ≤ fd.val }

/-- A file, directory or RTC that a process has open. -/
structure OpenFile where
  driver : FileOps
  inode : Int
  pos : Nat
  onDisk : driver = .file ∨ driver = .dir ∨ driver = .rtc
  closable : inode ≠ -1

/-- The files of a process, by descriptor. -/
abbrev OpenFiles := UserFd → Option OpenFile

namespace OpenFiles

/-- No file is open under `fd`, which may be any number. -/
def Unbound (files : OpenFiles) (fd : Int) : Prop :=
  ∀ user : UserFd, (user.val.val : Int) = fd → files user = none

/-- The calls on a map of open files and the answers they may give. -/
inductive Step (bootBlock : Option Image) (files : OpenFiles) :
    Call → Transfer → OpenFiles → Prop
  | openFails {filename} : Step bootBlock files (.openName filename) .failed files
  | opens {filename dirEntry} (fd : UserFd) (file : OpenFile) : files fd = none →
      readDentryByName bootBlock filename = some dirEntry →
      opsOfType dirEntry.filetype = some file.driver →
      file.inode = toInt32 dirEntry.inodeNum → file.pos = 0 →
      Step bootBlock files (.openName filename) ⟨fd.val.val, []⟩
        (Function.update files fd (some file))
  | closes (fd : UserFd) {file} : files fd = some file →
      Step bootBlock files (.close fd.val.val) ⟨0, []⟩ (Function.update files fd none)
  | closeUnbound {fd} : files.Unbound fd → Step bootBlock files (.close fd) .failed files
  | reads (fd : UserFd) {file bufIsNull nbytes answer result} : files fd = some file →
      driverRead bootBlock file.driver file.inode bufIsNull (toUint32 nbytes) file.pos answer =
        result →
      Step bootBlock files (.read fd.val.val bufIsNull nbytes answer) result.1
        (Function.update files fd (some { file with pos := result.2 }))
  | readStdin {bufIsNull nbytes answer} :
      Step bootBlock files (.read 0 bufIsNull nbytes answer) answer files
  | readUnbound {fd bufIsNull nbytes answer} : files.Unbound fd → fd ≠ 0 →
      Step bootBlock files (.read fd bufIsNull nbytes answer) .failed files
  | writes (fd : UserFd) {file answer} : files fd = some file →
      Step bootBlock files (.write fd.val.val answer) ⟨driverWrite file.driver answer, []⟩ files
  | writeStdout {answer} : Step bootBlock files (.write 1 answer) ⟨answer, []⟩ files
  | writeUnbound {fd answer} : files.Unbound fd → fd ≠ 1 →
      Step bootBlock files (.write fd answer) .failed files

/-- Nothing is open. -/
def empty : OpenFiles := fun _ => none

end OpenFiles

/-- The parts of a descriptor that say what is open, and where. -/
structure View where
  fileOps : Option FileOps
  inode : Int
  filePos : Nat
  deriving DecidableEq

def view (descriptor : FileDescriptor) : View :=
  ⟨descriptor.fileOps, descriptor.inode, descriptor.filePos⟩

/-- How an entry of a map of open files looks in the table. -/
def fileView : Option OpenFile → View
  | none => ⟨none, -1, 0⟩
  | some file => ⟨some file.driver, file.inode, file.pos⟩

/-- How the whole map looks there, beside the two descriptors of the terminal. -/
def OpenFiles.view (files : OpenFiles) (fd : Fin MAX_NUM_FILES) : View :=
  if user : 2 ≤ fd.val then fileView (files ⟨fd, user⟩)
  else if fd.val = 0 then ⟨some .terminalStdin, -1, 0⟩
  else ⟨some .terminalStdout, -1, 0⟩

/-- The table shows these files, and the search loop passes over the slots they are in. -/
structure Represents (pcb : Pcb) (files : OpenFiles) : Prop where
  views : ∀ fd, view (pcb.fileDescriptorArray fd) = files.view fd
  busy : ∀ user, (files user).isSome → (pcb.fileDescriptorArray user.val).flags = 1

/-- The types and inode numbers a directory may have: those the code knows, and no inode
    number that reads as -1. -/
structure KnownTypes (img : Image) : Prop where
  types : ∀ index < MAX_DIRECTORY_NUMBER, (img.direntries index).filetype = TYPE_RTC ∨
    (img.direntries index).filetype = TYPE_DIRECTORY ∨ (img.direntries index).filetype = TYPE_FILE
  inodes : ∀ index < MAX_DIRECTORY_NUMBER, (img.direntries index).inodeNum ≠ 0xFFFFFFFF

/-- The descriptor a call is about: its argument, or the one an open returns. -/
def Call.target (ret : Int) : Call → Int
  | .openName _ => ret
  | .close fd => fd
  | .read fd _ _ _ => fd
  | .write fd _ => fd

namespace OpenFiles

variable {files : OpenFiles}

theorem view_user (user : UserFd) : files.view user.val = fileView (files user) := by
  simp only [OpenFiles.view, dif_pos user.property]

theorem view_update (user : UserFd) (file : Option OpenFile) (fd : Fin MAX_NUM_FILES) :
    OpenFiles.view (Function.update files user file) fd =
      if fd = user.val then fileView file else files.view fd := by
  by_cases same : fd = user.val
  · subst same
    simp [view_user]
  · rw [if_neg same]
    unfold OpenFiles.view
    split
    · next user' =>
        have other : (⟨fd, user'⟩ : UserFd) ≠ user := by
          rintro rfl
          exact same rfl
        rw [Function.update_of_ne other]
    · rfl

theorem unbound_of_none {user : UserFd} (free : files user = none) :
    files.Unbound user.val.val := by
  intro other same
  obtain rfl : other = user := Subtype.ext (Fin.ext (by omega))
  exact free

theorem unbound_of_system {fd : Fin MAX_NUM_FILES} (system : ¬ 2 ≤ fd.val) :
    files.Unbound fd.val := by
  intro user same
  exact absurd (by omega : 2 ≤ fd.val) system

theorem unbound_of_outside {fd : Int} (outside : descriptorIndex fd = none) :
    files.Unbound fd := by
  intro user same
  exact absurd same (descriptorIndex_eq_none outside user.val)

end OpenFiles

end LightOS.Descriptor
