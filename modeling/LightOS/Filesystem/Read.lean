import LightOS.Filesystem.Lookup

/-! # Reading file data

`read_data` copies block by block; `readData_spec` says what the blocks add up to.
The file driver (`file_open`, `file_read`, `file_write`, `file_close`) and the directory
driver (`dir_read`, `dir_write`) of filesystem.c are thin layers over it.
-/

namespace LightOS.Filesystem

open Lib

/-- What a call that fills a buffer does: its return value, and the bytes it stores
    at `buf[0]`, `buf[1]`, … -/
structure Transfer where
  ret : Int
  bytes : List UInt8
  deriving DecidableEq

/-- -1, with nothing stored. -/
def Transfer.failed : Transfer := ⟨-1, []⟩

/-- The `memcpy` of one round of the copy loop in `read_data`. -/
def readBlock (img : Image) (inode offset length index : Nat) : List UInt8 :=
  let first := offset / BLOCK_SIZE
  let last := wrap32 (offset + length) / BLOCK_SIZE
  let dataBlockNumber := img.dataBlockNum inode index
  let blockByteBegin := if index = first then offset % BLOCK_SIZE else 0
  let blockByteEnd := if index = last then wrap32 (offset + length) % BLOCK_SIZE else BLOCK_SIZE
  img.bytes (img.dataBlockAddr dataBlockNumber + blockByteBegin)
    (wrap32 (blockByteEnd + (2 ^ 32 - blockByteBegin)))

/-- `read_data`; `return_val` counts the bytes copied. -/
def readData (bootBlock : Option Image) (inode : Int) (offset : Nat) (bufIsNull : Bool)
    (length : Nat) : Transfer :=
  match bootBlock with
  | none => .failed
  | some img =>
      if bufIsNull then .failed
      else if img.inodeCount ≤ toUint32 inode ∨ inode < 0 then .failed
      else
        let fileLength := img.fileLength inode.toNat
        if fileLength ≤ offset then ⟨0, []⟩
        else
          let length := if fileLength - offset < length then fileLength - offset else length
          let first := offset / BLOCK_SIZE
          let last := wrap32 (offset + length) / BLOCK_SIZE
          let copied := ((List.range' first (last + 1 - first)).map
            (readBlock img inode.toNat offset length)).flatten
          ⟨toInt32 copied.length, copied⟩

/-- `file_open`: the inode number of a regular file; `none` is -1. -/
def fileOpen (bootBlock : Option Image) (filename : Option CharPtr) : Option Int :=
  match filename, bootBlock with
  | none, _ => none
  | _, none => none
  | some filename, some img =>
      match readDentryByName (some img) (some filename) with
      | none => none
      | some dentry => if dentry.filetype ≠ TYPE_FILE then none else some (toInt32 dentry.inodeNum)

/-- `file_close`: the return value and `*fd` afterwards. -/
def fileClose (fd : Int) : Int × Int := if fd = -1 then (-1, fd) else (0, -1)

/-- `file_read`: the transfer and `*offset` afterwards. -/
def fileRead (bootBlock : Option Image) (fd : Int) (bufIsNull : Bool) (length offset : Nat) :
    Transfer × Nat :=
  if fd = 0 ∨ bufIsNull then (.failed, offset)
  else if bootBlock.isNone then (.failed, offset)
  else
    let transfer := readData bootBlock fd offset bufIsNull length
    if 0 < transfer.ret then (transfer, wrap32 (offset + length)) else (transfer, offset)

/-- `dir_read`: the transfer and `*offset` afterwards.  The `memcpy` takes `length` bytes
    from the name field of entry `*offset` on. -/
def dirRead (bootBlock : Option Image) (fd : Int) (bufIsNull : Bool) (length offset : Nat) :
    Transfer × Nat :=
  if fd = -1 ∨ bufIsNull then (.failed, offset)
  else
    match bootBlock with
    | none => (.failed, offset)
    | some img =>
        if img.inodeCount ≤ offset then (.failed, offset)
        else
          let copied := img.bytes (Image.direntryAddr offset) length
          let offset := wrap32 (offset + 1)
          if 18 ≤ offset then (⟨0, copied⟩, offset) else (⟨toInt32 length, copied⟩, offset)

/-- `file_write` and `dir_write`: the file system is read-only. -/
def readOnlyWrite : Int := -1

section Spec

variable {img : Image} {inode offset length : Nat}

/-- Inside one block, file positions and addresses run in step. -/
theorem bytes_eq_slice {index first last : Nat} (le : first ≤ last) (inside : last ≤ BLOCK_SIZE) :
    img.bytes (img.dataBlockAddr (img.dataBlockNum inode index) + first) (last - first) =
      slice (img.fileByte inode) (index * BLOCK_SIZE + first) (index * BLOCK_SIZE + last) := by
  have split : index * BLOCK_SIZE + last = index * BLOCK_SIZE + first + (last - first) := by omega
  rw [split, slice_eq_range, Image.bytes]
  apply List.map_congr_left
  intro i member
  have small : first + i < BLOCK_SIZE := by
    have := List.mem_range.mp member
    omega
  have quotient : (index * BLOCK_SIZE + first + i) / BLOCK_SIZE = index := by
    simp only [BLOCK_SIZE] at small ⊢
    omega
  have remainder : (index * BLOCK_SIZE + first + i) % BLOCK_SIZE = first + i := by
    simp only [BLOCK_SIZE] at small ⊢
    omega
  rw [Image.fileByte, quotient, remainder, Nat.add_assoc]

/-- One round copies the part of its block that lies in the requested range. -/
theorem readBlock_eq (fits : offset + length < 2 ^ 32) :
    readBlock img inode offset length =
      blockPart (img.fileByte inode) BLOCK_SIZE offset (offset + length) := by
  funext index
  simp only [readBlock, blockPart, wrap32_small fits]
  generalize first : (if index = offset / BLOCK_SIZE then offset % BLOCK_SIZE else 0) = blockBegin
  generalize last : (if index = (offset + length) / BLOCK_SIZE then
    (offset + length) % BLOCK_SIZE else BLOCK_SIZE) = blockEnd
  have start : (if index = offset / BLOCK_SIZE then offset else index * BLOCK_SIZE) =
      index * BLOCK_SIZE + blockBegin := by
    split at first <;> split <;> simp only [BLOCK_SIZE] at * <;> omega
  have finish : (if index = (offset + length) / BLOCK_SIZE then offset + length
      else (index + 1) * BLOCK_SIZE) = index * BLOCK_SIZE + blockEnd := by
    split at last <;> split <;> simp only [BLOCK_SIZE] at * <;> omega
  have inside : blockBegin ≤ blockEnd ∧ blockEnd ≤ BLOCK_SIZE := by
    split at first <;> split at last <;> simp only [BLOCK_SIZE] at * <;> omega
  have count : wrap32 (blockEnd + (2 ^ 32 - blockBegin)) = blockEnd - blockBegin := by
    simp only [wrap32, BLOCK_SIZE] at inside ⊢
    omega
  rw [start, finish, count, bytes_eq_slice inside.1 inside.2]

/-- The copy loop, for a request cut down to the file, reads a slice of the file. -/
theorem readBlocks_flatten (fits : offset + length < 2 ^ 32) :
    ((List.range' (offset / BLOCK_SIZE)
        (wrap32 (offset + length) / BLOCK_SIZE + 1 - offset / BLOCK_SIZE)).map
      (readBlock img inode offset length)).flatten =
      slice (img.fileByte inode) offset (offset + length) := by
  rw [wrap32_small fits, ← blockParts_flatten _ (show 0 < BLOCK_SIZE by decide)
    (Nat.le_add_right offset length), readBlock_eq fits]

variable (offset length)

/-- What `read_data` hands over: the bytes from `offset` on, as many as were asked for
    and are left. -/
theorem readData_accepted {inode : Int}
    (accepted : ¬ (img.inodeCount ≤ toUint32 inode ∨ inode < 0)) :
    readData (some img) inode offset false length =
      let count := min length (img.fileLength inode.toNat - offset)
      ⟨toInt32 count, slice (img.fileByte inode.toNat) offset (offset + count)⟩ := by
  simp only [readData, if_neg accepted]
  by_cases past : img.fileLength inode.toNat ≤ offset
  · simp [past, Nat.sub_eq_zero_of_le past, slice_empty, toInt32]
  · have shortened : (if img.fileLength inode.toNat - offset < length then
        img.fileLength inode.toNat - offset else length) =
          min length (img.fileLength inode.toNat - offset) := by
      split <;> omega
    have fits : offset + min length (img.fileLength inode.toNat - offset) < 2 ^ 32 := by
      have : img.fileLength inode.toNat < 2 ^ 32 := img.u32_lt _
      omega
    simp only [Bool.false_eq_true, if_false, if_neg past, shortened, readBlocks_flatten fits,
      slice_length, Nat.add_sub_cancel_left]

theorem readData_spec {inode : Int} (valid : 0 ≤ inode ∧ inode.toNat < img.inodeCount) :
    readData (some img) inode offset false length =
      let count := min length (img.fileLength inode.toNat - offset)
      ⟨toInt32 count, slice (img.fileByte inode.toNat) offset (offset + count)⟩ := by
  apply readData_accepted
  have : img.inodeCount < 2 ^ 32 := img.u32_lt 4
  rw [toUint32_nonneg valid.1 (by omega)]
  omega

/-- From the beginning of a file of the image. -/
theorem readData_start {inode : Nat} (inRange : inode < img.inodeCount) (length : Nat) :
    readData (some img) inode 0 false length =
      let count := min length (img.fileLength inode)
      ⟨toInt32 count, slice (img.fileByte inode) 0 count⟩ := by
  have valid : (0 : Int) ≤ inode ∧ (inode : Int).toNat < img.inodeCount :=
    ⟨Int.natCast_nonneg inode, by rwa [Int.toNat_natCast]⟩
  have read := readData_spec 0 length valid
  simpa only [Int.toNat_natCast, Nat.sub_zero, Nat.zero_add] using read

/-- No call hands over more than it was asked for. -/
theorem readData_length_le (bootBlock : Option Image) (inode : Int) (bufIsNull : Bool) :
    (readData bootBlock inode offset bufIsNull length).bytes.length ≤ length := by
  cases bootBlock with
  | none => simp [readData, Transfer.failed]
  | some img =>
      cases bufIsNull with
      | true => simp [readData, Transfer.failed]
      | false =>
          by_cases rejected : img.inodeCount ≤ toUint32 inode ∨ inode < 0
          · simp [readData, if_pos rejected, Transfer.failed]
          · rw [readData_accepted offset length rejected]
            simp only [slice_length]
            omega

/-- `file_read` moves the position by `length`, but only if it delivers something. -/
theorem fileRead_spec {inode : Int} (valid : 0 < inode ∧ inode.toNat < img.inodeCount)
    (small : img.fileLength inode.toNat < 2 ^ 31) :
    fileRead (some img) inode false length offset =
      let count := min length (img.fileLength inode.toNat - offset)
      (⟨count, slice (img.fileByte inode.toNat) offset (offset + count)⟩,
        if 0 < count then wrap32 (offset + length) else offset) := by
  have notNull : ¬ (inode = 0 ∨ False) := by
    rw [or_false]
    omega
  have signed : toInt32 (min length (img.fileLength inode.toNat - offset)) =
      (min length (img.fileLength inode.toNat - offset) : Nat) := toInt32_small (by omega)
  simp only [fileRead, Bool.false_eq_true, if_neg notNull, Option.isNone_some, if_false,
    readData_spec offset length ⟨Int.le_of_lt valid.1, valid.2⟩, signed, Int.natCast_pos]
  split <;> rfl

end Spec

end LightOS.Filesystem
