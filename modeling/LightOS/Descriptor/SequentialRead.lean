import LightOS.Descriptor.Frame
import Mathlib.Algebra.GroupWithZero.Nat

/-! # Reading a file to its end

`file_read` moves the position by what was asked for, not by what it delivered, so after a
short read the position lies behind the end of the file.  The bytes delivered so far are
the file up to `min filePos length` all the same, and since nothing is delivered from
there on the position stays where it is.
-/

namespace LightOS.Descriptor

open Lib Filesystem

/-- The bytes that reads of these sizes deliver one after the other on one descriptor, and
    the block afterwards. -/
def readInOrder (img : Image) (answer : Transfer) (fd : Int) (pcb : Pcb) :
    List Nat → List UInt8 × Pcb
  | [] => ([], pcb)
  | size :: sizes =>
      let result := fileDescriptorTableRead (some img) pcb fd false size answer
      let rest := readInOrder img answer fd result.2 sizes
      (result.1.bytes ++ rest.1, rest.2)

/-- A call of `syscall_read` on some descriptor. -/
structure Request where
  bufIsNull : Bool
  nbytes : Int

/-- The call, made on one descriptor of a process. -/
def Request.run (img : Image) (answer : Transfer) (fd : Int) (pcb : Pcb) (request : Request) :
    Transfer × Pcb :=
  fileDescriptorTableRead (some img) pcb fd request.bufIsNull request.nbytes answer

/-- Any calls of `syscall_read` on one descriptor. -/
def readMachine (img : Image) (answer : Transfer) (fd : Int) : Machine Pcb Request where
  enabled _ _ := True
  next pcb request := (request.run img answer fd pcb).2

/-- A descriptor open on a regular file, at a position. -/
structure ReadingAt (pcb : Pcb) (slot : Fin MAX_NUM_FILES) (inode : Int) (pos : Nat) : Prop where
  fileOps : (pcb.fileDescriptorArray slot).fileOps = some .file
  inode : (pcb.fileDescriptorArray slot).inode = inode
  filePos : (pcb.fileDescriptorArray slot).filePos = pos

section Reading

variable {img : Image} {pcb : Pcb} {slot : Fin MAX_NUM_FILES} {inode : Int} {pos : Nat}
  (answer : Transfer)

variable (img) in
/-- A read on a descriptor whose driver can read is the call of the driver. -/
theorem request_run {ops : FileOps} (bound : (pcb.fileDescriptorArray slot).fileOps = some ops)
    (readable : FileOps.hasRead ops) (request : Request) :
    let result := driverRead (some img) ops (pcb.fileDescriptorArray slot).inode request.bufIsNull
      (toUint32 request.nbytes) (pcb.fileDescriptorArray slot).filePos answer
    request.run img answer slot.val pcb =
      (result.1,
        pcb.setDescriptor slot { pcb.fileDescriptorArray slot with filePos := result.2 }) := by
  have index : descriptorIndex slot.val = some slot := descriptorIndex_eq_some.mpr rfl
  simp only [Request.run, fileDescriptorTableRead, index, bound, readable, if_true]

variable (img) in
/-- A read on a regular file. -/
theorem request_reading (reading : ReadingAt pcb slot inode pos) (request : Request) :
    (request.run img answer slot.val pcb).1 =
        (fileRead (some img) inode request.bufIsNull (toUint32 request.nbytes) pos).1 ∧
      ReadingAt (request.run img answer slot.val pcb).2 slot inode
        (fileRead (some img) inode request.bufIsNull (toUint32 request.nbytes) pos).2 := by
  rw [request_run img answer reading.fileOps rfl request]
  simp only [driverRead, reading.inode, reading.filePos]
  exact ⟨trivial, by simp [reading.fileOps], by simp, by simp⟩

/-- What one read delivers, and where it leaves the position. -/
theorem read_step (wellFormed : img.WellFormed)
    (valid : 0 < inode ∧ inode.toNat < img.inodeCount) (reading : ReadingAt pcb slot inode pos)
    {size : Nat} (small : size < 2 ^ 31) :
    let length := img.fileLength inode.toNat
    let result := fileDescriptorTableRead (some img) pcb slot.val false size answer
    let delivered := min size (length - pos)
    result.1 = ⟨delivered, slice (img.fileByte inode.toNat) pos (pos + delivered)⟩ ∧
      (0 < delivered → pos + size < 2 ^ 32) ∧
      ReadingAt result.2 slot inode (if 0 < delivered then pos + size else pos) := by
  intro length result delivered
  have lengthBound : length ≤ 1023 * BLOCK_SIZE := wellFormed.length _ valid.2
  simp only [BLOCK_SIZE] at lengthBound
  have index : descriptorIndex slot.val = some slot := descriptorIndex_eq_some.mpr rfl
  have sizeWord : toUint32 (size : Int) = size := toUint32_natCast (by omega)
  have read := fileRead_spec pos size valid (by omega)
  have computed : result =
      (⟨delivered, slice (img.fileByte inode.toNat) pos (pos + delivered)⟩,
        pcb.setDescriptor slot { pcb.fileDescriptorArray slot with
          filePos := if 0 < delivered then wrap32 (pos + size) else pos }) := by
    simp only [result, fileDescriptorTableRead, index, reading.fileOps, FileOps.hasRead, if_true,
      driverRead, reading.inode, reading.filePos, sizeWord, read]
    rfl
  have noWrap : 0 < delivered → pos + size < 2 ^ 32 := by
    intro some_
    omega
  refine ⟨by rw [computed], noWrap, ?_⟩
  rw [computed]
  refine ⟨by simp [reading.fileOps], by simp [reading.inode], ?_⟩
  rw [Pcb.setDescriptor_self]
  by_cases advances : 0 < delivered
  · simp only [if_pos advances, wrap32_small (noWrap advances)]
  · simp only [if_neg advances]

/-- Reads from any position reassemble the rest of the file. -/
theorem readInOrder_delivers (wellFormed : img.WellFormed)
    (valid : 0 < inode ∧ inode.toNat < img.inodeCount) (reading : ReadingAt pcb slot inode pos)
    {sizes : List Nat} (small : ∀ size ∈ sizes, size < 2 ^ 31) :
    let length := img.fileLength inode.toNat
    let result := readInOrder img answer slot.val pcb sizes
    result.1 = slice (img.fileByte inode.toNat) (min pos length) (min (pos + sizes.sum) length) ∧
      ∃ pos', ReadingAt result.2 slot inode pos' ∧
        min pos' length = min (pos + sizes.sum) length := by
  intro length
  -- on the list of sizes; the position before the first read is what varies
  induction sizes generalizing pcb pos with
  | nil => exact ⟨(slice_empty _ _).symm, pos, reading, by simp⟩
  | cons size sizes ih =>
      obtain ⟨transfer, _, next⟩ := read_step answer wellFormed valid reading
        (small size (List.mem_cons_self ..))
      obtain ⟨bytes, pos', last, total⟩ := ih next
        (fun other member => small other (List.mem_cons_of_mem _ member))
      have here : slice (img.fileByte inode.toNat) pos (pos + min size (length - pos)) =
          slice (img.fileByte inode.toNat) (min pos length) (min (pos + size) length) := by
        rcases Nat.lt_or_ge pos length with inside | past
        · have whole : min pos length = pos := by omega
          have part : min (pos + size) length = pos + min size (length - pos) := by omega
          rw [whole, part]
        · have still : pos + min size (length - pos) = pos := by omega
          have ended : min pos length = length := by omega
          have ends : min (pos + size) length = length := by omega
          rw [still, ended, ends, slice_empty, slice_empty]
      -- whether or not the position moved, clipped to the file it is the same
      have moved : min (if 0 < min size (length - pos) then pos + size else pos) length =
          min (pos + size) length := by
        split <;> omega
      have sum :
          min ((if 0 < min size (length - pos) then pos + size else pos) + sizes.sum) length =
            min (pos + (size :: sizes).sum) length := by
        rw [List.sum_cons]
        split <;> omega
      refine ⟨?_, pos', last, total.trans sum⟩
      calc (readInOrder img answer slot.val pcb (size :: sizes)).1
        _ = slice (img.fileByte inode.toNat) pos (pos + min size (length - pos)) ++
              slice (img.fileByte inode.toNat) (min (pos + size) length)
                (min (pos + (size :: sizes).sum) length) := by
            rw [readInOrder, bytes, transfer, moved, sum]
        _ = slice (img.fileByte inode.toNat) (min pos length)
              (min (pos + (size :: sizes).sum) length) := by
            rw [here, slice_append _ (by omega) (by rw [List.sum_cons]; omega)]

/-- What a successful open leaves in the descriptor it returns. -/
theorem open_bound {filename : Option CharPtr} {dirEntry : DirEntry} {ops : FileOps}
    (found : readDentryByName (some img) filename = some dirEntry)
    (typed : opsOfType dirEntry.filetype = some ops)
    (opened : (fileDescriptorTableOpen (some img) pcb filename).1 ≠ -1) :
    ∃ slot : Fin MAX_NUM_FILES, (fileDescriptorTableOpen (some img) pcb filename).1 = slot.val ∧
      (fileDescriptorTableOpen (some img) pcb filename).2.fileDescriptorArray slot =
        { fileOps := some ops, inode := toInt32 dirEntry.inodeNum, filePos := 0, flags := 1 } := by
  have outcome := fileDescriptorTableOpen_opened (some img) pcb filename
  generalize fileDescriptorTableOpen (some img) pcb filename = result at outcome opened ⊢
  cases outcome with
  | full | missing => exact absurd rfl opened
  | untyped _ _ found' unknown =>
      obtain rfl := Option.some.inj (found.symm.trans found')
      rw [typed] at unknown
      cases unknown
  | @bound slot _ ops' _ _ found' typed' =>
      obtain rfl := Option.some.inj (found.symm.trans found')
      obtain rfl := Option.some.inj (typed.symm.trans typed')
      exact ⟨slot, rfl, Pcb.setDescriptor_self _ _⟩

/-- A successful open of a regular file starts at position 0. -/
theorem open_reading {filename : Option CharPtr} {dirEntry : DirEntry}
    (found : readDentryByName (some img) filename = some dirEntry)
    (regular : dirEntry.filetype = TYPE_FILE) (small : dirEntry.inodeNum < 2 ^ 31)
    (opened : (fileDescriptorTableOpen (some img) pcb filename).1 ≠ -1) :
    ∃ slot : Fin MAX_NUM_FILES, (fileDescriptorTableOpen (some img) pcb filename).1 = slot.val ∧
      ReadingAt (fileDescriptorTableOpen (some img) pcb filename).2 slot dirEntry.inodeNum 0 := by
  have typed : opsOfType dirEntry.filetype = some .file := by
    rw [regular]
    rfl
  obtain ⟨slot, fd, descriptor⟩ := open_bound found typed opened
  have inodeNumber : toInt32 dirEntry.inodeNum = dirEntry.inodeNum := toInt32_small small
  exact ⟨slot, fd, by simp [descriptor], by simp [descriptor, inodeNumber], by simp [descriptor]⟩

end Reading

/-- After a successful open of a regular file, reads of any sizes deliver the file from its
    start; each returns what it asked for, as far as there is that much left, and moves
    the position without wrapping. -/
theorem sequential_reads_reassemble {img : Image} (wellFormed : img.WellFormed) {pcb : Pcb}
    {filename : Option CharPtr} {dirEntry : DirEntry}
    (found : readDentryByName (some img) filename = some dirEntry)
    (regular : dirEntry.filetype = TYPE_FILE)
    (valid : 0 < dirEntry.inodeNum ∧ dirEntry.inodeNum < img.inodeCount)
    (opened : (fileDescriptorTableOpen (some img) pcb filename).1 ≠ -1)
    (answer : Transfer) {sizes : List Nat} (small : ∀ size ∈ sizes, size < 2 ^ 31) :
    ∃ slot : Fin MAX_NUM_FILES,
      (fileDescriptorTableOpen (some img) pcb filename).1 = slot.val ∧
      let content := img.fileBytes dirEntry.inodeNum
      let past := readInOrder img answer slot.val
        (fileDescriptorTableOpen (some img) pcb filename).2 sizes
      past.1 = content.take (min sizes.sum content.length) ∧
      ∀ size : Nat, size < 2 ^ 31 →
        let next := fileDescriptorTableRead (some img) past.2 slot.val false size answer
        next.1.ret = min size (content.length - past.1.length) ∧
        (past.1.length = content.length → next.1.ret = 0) ∧
        (0 < next.1.ret → (past.2.fileDescriptorArray slot).filePos + size < 2 ^ 32) := by
  have inodeSmall : dirEntry.inodeNum < 2 ^ 31 := by
    have := wellFormed.fits
    simp only [BLOCK_SIZE] at this
    omega
  have validInt : 0 < (dirEntry.inodeNum : Int) ∧
      (dirEntry.inodeNum : Int).toNat < img.inodeCount := by omega
  obtain ⟨slot, fd, start⟩ := open_reading found regular inodeSmall opened
  refine ⟨slot, fd, ?_⟩
  obtain ⟨bytes, pos, reading, clipped⟩ :=
    readInOrder_delivers answer wellFormed validInt start small
  simp only [Int.toNat_natCast, Nat.zero_add, Nat.zero_min] at bytes clipped
  generalize readInOrder img answer slot.val _ sizes = past at bytes reading ⊢
  have pastLength : past.1.length = min pos (img.fileLength dirEntry.inodeNum) := by
    rw [bytes, slice_length, clipped, Nat.sub_zero]
  constructor
  · rw [bytes, slice_eq_take_drop (n := img.fileLength dirEntry.inodeNum) _ (Nat.min_le_right _ _)]
    simp [Image.fileBytes]
  · intro size fits
    obtain ⟨transfer, noWrap, _⟩ :=
      read_step answer wellFormed validInt reading fits
    simp only [Int.toNat_natCast] at transfer noWrap
    have returned : (fileDescriptorTableRead (some img) past.2 slot.val false size answer).1.ret =
        (min size (img.fileLength dirEntry.inodeNum - pos) : Nat) := by rw [transfer]
    simp only [returned, Image.fileBytes_length, pastLength, reading.filePos]
    exact ⟨by omega, by omega, fun advances => noWrap (by omega)⟩

/-- A directory with one entry: a regular file with five bytes, under the name `f`. -/
def oneFile : Image where
  byte addr :=
    ([(0, 1), (4, 2), (8, 1), (64, 0x66), (96, 2), (100, 1), (8192, 5), (12288, 0x68),
      (12289, 0x65), (12290, 0x6C), (12291, 0x6C), (12292, 0x6F)].lookup addr).getD 0

theorem oneFile_wellFormed : oneFile.WellFormed :=
  .of_short (by decide +kernel) (by decide +kernel)

theorem oneFile_reads_reassemble :
    ∃ slot : Fin MAX_NUM_FILES,
      (fileDescriptorTableOpen (some oneFile) freshPcb (some (charPtr [0x66]))).1 = slot.val ∧
      let content := oneFile.fileBytes 1
      let past := readInOrder oneFile .failed slot.val
        (fileDescriptorTableOpen (some oneFile) freshPcb (some (charPtr [0x66]))).2 [2, 0, 1]
      past.1 = content.take (min [2, 0, 1].sum content.length) ∧
      ∀ size : Nat, size < 2 ^ 31 →
        let next := fileDescriptorTableRead (some oneFile) past.2 slot.val false size .failed
        next.1.ret = min size (content.length - past.1.length) ∧
        (past.1.length = content.length → next.1.ret = 0) ∧
        (0 < next.1.ret → (past.2.fileDescriptorArray slot).filePos + size < 2 ^ 32) := by
  have found : readDentryByName (some oneFile) (some (charPtr [0x66])) =
      some (oneFile.direntries 0) := by decide +kernel
  have inode : (oneFile.direntries 0).inodeNum = 1 := by decide +kernel
  rw [← inode]
  exact sequential_reads_reassemble oneFile_wellFormed found (by decide +kernel)
    (by decide +kernel) (by decide +kernel) .failed (by decide)

end LightOS.Descriptor
