import LightOS.Descriptor.SequentialRead

/-! # Two ways to a file

`syscall_execute` loads a program with `read_data` on the inode of its directory entry; a
process opens the same name and reads the descriptor.  `file_read` takes inode 0 for NULL,
`read_data` does not.
-/

namespace LightOS.Descriptor

open Lib Filesystem

/-- `UINT32_MAX`, the most a single `read_data` can be asked for. -/
def MAX_REQUEST : Nat := 2 ^ 32 - 1

/-- Positive sizes only add up to nothing where there are none. -/
theorem sum_eq_zero_iff_nil {sizes : List Nat} (positive : ∀ size ∈ sizes, 0 < size) :
    sizes.sum = 0 ↔ sizes = [] := by
  cases sizes with
  | nil => simp
  | cons size sizes =>
      have first := positive size (List.mem_cons_self ..)
      rw [List.sum_cons]
      exact iff_of_false (by omega) (List.cons_ne_nil _ _)

section Inode

variable {img : Image} {pcb : Pcb} {slot : Fin MAX_NUM_FILES} {pos : Nat} (answer : Transfer)

/-- No read of the file of inode 0 delivers anything. -/
theorem readInOrder_inode_zero (reading : ReadingAt pcb slot 0 pos) (sizes : List Nat) :
    (readInOrder img answer slot.val pcb sizes).1 = [] := by
  induction sizes generalizing pcb with
  | nil => rfl
  | cons size sizes ih =>
      obtain ⟨transfer, next⟩ := request_reading img answer reading ⟨false, size⟩
      have refused : ∀ length, fileRead (some img) 0 false length pos = (.failed, pos) :=
        fun _ => rfl
      rw [refused] at transfer next
      have rest := ih next
      simp only [Request.run] at transfer rest
      rw [readInOrder, transfer, rest]
      rfl

end Inode

/-- A successful open of a regular file and reads of positive sizes deliver what one call of
    `read_data` on the inode of the entry does, if and only if the inode is not 0, its
    file is empty, or nothing is read. -/
theorem descriptor_reads_as_loader_iff {img : Image} (wellFormed : img.WellFormed) {pcb : Pcb}
    {filename : Option CharPtr} {dirEntry : DirEntry}
    (found : readDentryByName (some img) filename = some dirEntry)
    (regular : dirEntry.filetype = TYPE_FILE) (inRange : dirEntry.inodeNum < img.inodeCount)
    (opened : (fileDescriptorTableOpen (some img) pcb filename).1 ≠ -1)
    (answer : Transfer) {sizes : List Nat} (int32 : ∀ size ∈ sizes, 0 < size ∧ size < 2 ^ 31) :
    (readInOrder img answer (fileDescriptorTableOpen (some img) pcb filename).1
        (fileDescriptorTableOpen (some img) pcb filename).2 sizes).1 =
        (readData (some img) (toInt32 dirEntry.inodeNum) 0 false
          (min sizes.sum MAX_REQUEST)).bytes ↔
      dirEntry.inodeNum ≠ 0 ∨ img.fileLength dirEntry.inodeNum = 0 ∨ sizes = [] := by
  have inodeSmall : dirEntry.inodeNum < 2 ^ 31 := by
    have := wellFormed.fits
    simp only [BLOCK_SIZE] at this
    omega
  have signed : toInt32 dirEntry.inodeNum = dirEntry.inodeNum := toInt32_small inodeSmall
  have lengthBound : img.fileLength dirEntry.inodeNum < 2 ^ 32 := img.u32_lt _
  obtain ⟨slot, fd, start⟩ := open_reading found regular inodeSmall opened
  have loaded := @readData_spec img 0 (min sizes.sum MAX_REQUEST) dirEntry.inodeNum
    ⟨by omega, by omega⟩
  have clipped : min (min sizes.sum MAX_REQUEST) (img.fileLength dirEntry.inodeNum) =
      min sizes.sum (img.fileLength dirEntry.inodeNum) := by
    simp only [MAX_REQUEST]
    omega
  simp only [Int.toNat_natCast, Nat.sub_zero, Nat.zero_add, clipped] at loaded
  rw [fd, signed, loaded]
  by_cases zero : dirEntry.inodeNum = 0
  · simp only [zero, Int.natCast_zero] at start
    rw [readInOrder_inode_zero answer start, eq_comm, ← List.length_eq_zero_iff, slice_length,
      ← sum_eq_zero_iff_nil fun size member => (int32 size member).1]
    omega
  · have positive : 0 < (dirEntry.inodeNum : Int) ∧
        (dirEntry.inodeNum : Int).toNat < img.inodeCount := by omega
    have delivered := (readInOrder_delivers answer wellFormed positive start
      (fun size member => (int32 size member).2)).1
    simp only [Int.toNat_natCast, Nat.zero_add, Nat.zero_min] at delivered
    simp [delivered, zero]

theorem oneFile_reads_as_loader_iff :
    (readInOrder oneFile .failed
        (fileDescriptorTableOpen (some oneFile) freshPcb (some (charPtr [0x66]))).1
        (fileDescriptorTableOpen (some oneFile) freshPcb (some (charPtr [0x66]))).2 [2, 7]).1 =
        (readData (some oneFile) (toInt32 (oneFile.direntries 0).inodeNum) 0 false
          (min [2, 7].sum MAX_REQUEST)).bytes ↔
      (oneFile.direntries 0).inodeNum ≠ 0 ∨
        oneFile.fileLength (oneFile.direntries 0).inodeNum = 0 ∨ [2, 7] = [] :=
  descriptor_reads_as_loader_iff oneFile_wellFormed (by decide +kernel) (by decide +kernel)
    (by decide +kernel) (by decide +kernel) .failed (by decide)

/-- The image `oneFile` with the file in inode 0. -/
def firstInodeFile : Image where
  byte addr :=
    ([(0, 1), (4, 1), (8, 1), (64, 0x66), (96, 2), (4096, 5), (8192, 0x68),
      (8193, 0x65), (8194, 0x6C), (8195, 0x6C), (8196, 0x6F)].lookup addr).getD 0

theorem firstInodeFile_wellFormed : firstInodeFile.WellFormed :=
  .of_short (by decide +kernel) (by decide +kernel)

/-- The file can be loaded and opened, but not read. -/
theorem firstInodeFile_read_fails :
    firstInodeFile.WellFormed ∧
      readDentryByName (some firstInodeFile) (some (charPtr [0x66])) =
        some (firstInodeFile.direntries 0) ∧
      (firstInodeFile.direntries 0).filetype = TYPE_FILE ∧
      (firstInodeFile.direntries 0).inodeNum = 0 ∧ 0 < firstInodeFile.inodeCount ∧
      (fileDescriptorTableOpen (some firstInodeFile) freshPcb (some (charPtr [0x66]))).1 = 2 ∧
      (readInOrder firstInodeFile .failed 2
        (fileDescriptorTableOpen (some firstInodeFile) freshPcb (some (charPtr [0x66]))).2
        [5]).1 = [] ∧
      (readData (some firstInodeFile) 0 0 false 5).bytes = [0x68, 0x65, 0x6C, 0x6C, 0x6F] :=
  ⟨firstInodeFile_wellFormed, by decide +kernel, by decide +kernel, by decide +kernel,
    by decide +kernel, by decide +kernel, by decide +kernel, by decide +kernel⟩

end LightOS.Descriptor
