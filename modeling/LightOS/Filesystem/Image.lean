import LightOS.Lib.Blocks
import Mathlib.Algebra.Group.Nat.Defs

/-! # The file-system image

The image is the memory behind `boot_block_pointer`, byte by byte: a boot block with
three counts and 63 directory entries, then one 4 KB block for each inode, then the
data blocks.  Structure fields are read at their C offsets, so an index one past the
end of an array reads what really lies there.
-/

namespace LightOS.Filesystem

open Lib

def FILENAME_LEN : Nat := 32
def MAX_DIRECTORY_NUMBER : Nat := 63
def BLOCK_SIZE : Nat := 4096

/-- `63 * 4096` -/
def MAX_FILE_SIZE : Nat := 63 * 4096

def TYPE_RTC : Nat := 0
def TYPE_DIRECTORY : Nat := 1
def TYPE_FILE : Nat := 2

/-- Memory from `boot_block_pointer` on. -/
structure Image where
  byte : Nat → UInt8

/-- `dir_entry_t` -/
structure DirEntry where
  filename : List UInt8
  filetype : Nat
  inodeNum : Nat
  reserved : List UInt8
  deriving DecidableEq

namespace Image

variable (img : Image)

/-- The `n` bytes from `addr` on. -/
def bytes (addr n : Nat) : List UInt8 := (List.range n).map (fun i => img.byte (addr + i))

/-- A little-endian `uint32_t`. -/
def u32 (addr : Nat) : Nat :=
  (img.byte addr).toNat + 2 ^ 8 * (img.byte (addr + 1)).toNat +
    2 ^ 16 * (img.byte (addr + 2)).toNat + 2 ^ 24 * (img.byte (addr + 3)).toNat

def inodeCount : Nat := img.u32 4
def dataCount : Nat := img.u32 8

/-- `&direntries[index]`: the boot block starts with three counts and 52 reserved bytes. -/
def direntryAddr (index : Nat) : Nat := 64 + 64 * index

def direntries (index : Nat) : DirEntry where
  filename := img.bytes (direntryAddr index) FILENAME_LEN
  filetype := img.u32 (direntryAddr index + 32)
  inodeNum := img.u32 (direntryAddr index + 36)
  reserved := img.bytes (direntryAddr index + 40) 24

/-- `(i_node_t *) boot_block_pointer + (1 + inode)` -/
def inodeAddr (inode : Nat) : Nat := BLOCK_SIZE * (1 + inode)

/-- The field `length` of an inode. -/
def fileLength (inode : Nat) : Nat := img.u32 (inodeAddr inode)

def dataBlockNum (inode index : Nat) : Nat := img.u32 (inodeAddr inode + 4 + 4 * index)

/-- `(data_block_t *) boot_block_pointer + (inode_count + 1 + block)` -/
def dataBlockAddr (block : Nat) : Nat := BLOCK_SIZE * (img.inodeCount + 1 + block)

/-- Byte `k` of the concatenation of an inode's data blocks in `data_block_num` order. -/
def fileByte (inode k : Nat) : UInt8 :=
  img.byte (img.dataBlockAddr (img.dataBlockNum inode (k / BLOCK_SIZE)) + k % BLOCK_SIZE)

/-- The contents of a file. -/
def fileBytes (inode : Nat) : List UInt8 := slice (img.fileByte inode) 0 (img.fileLength inode)

/-- The image lies in the address space, every file fits the block list of its inode, and
    the blocks it uses are there. -/
structure WellFormed : Prop where
  fits : BLOCK_SIZE * (1 + img.inodeCount + img.dataCount) ≤ 2 ^ 32
  length : ∀ inode < img.inodeCount, img.fileLength inode ≤ 1023 * BLOCK_SIZE
  blocks : ∀ inode < img.inodeCount, ∀ index,
    index * BLOCK_SIZE < img.fileLength inode → img.dataBlockNum inode index < img.dataCount

variable {img} in
/-- An image whose files take one block at most. -/
theorem WellFormed.of_short (fits : BLOCK_SIZE * (1 + img.inodeCount + img.dataCount) ≤ 2 ^ 32)
    (short : ∀ inode < img.inodeCount,
      img.fileLength inode ≤ BLOCK_SIZE ∧ img.dataBlockNum inode 0 < img.dataCount) :
    img.WellFormed where
  fits := fits
  length inode inRange := by
    have small := (short inode inRange).1
    simp only [BLOCK_SIZE] at small ⊢
    omega
  blocks inode inRange index inside := by
    obtain ⟨small, listed⟩ := short inode inRange
    obtain rfl : index = 0 := by
      simp only [BLOCK_SIZE] at small inside
      omega
    exact listed

theorem u32_lt (addr : Nat) : img.u32 addr < 2 ^ 32 := by
  have b0 := (img.byte addr).toNat_lt
  have b1 := (img.byte (addr + 1)).toNat_lt
  have b2 := (img.byte (addr + 2)).toNat_lt
  have b3 := (img.byte (addr + 3)).toNat_lt
  simp only [u32]
  omega

variable {img} in
@[simp] theorem fileBytes_length (inode : Nat) :
    (img.fileBytes inode).length = img.fileLength inode := by
  simp [fileBytes]

end Image

end LightOS.Filesystem
