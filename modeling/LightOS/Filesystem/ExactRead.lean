import LightOS.Filesystem.Read
import Mathlib.Algebra.GroupWithZero.Nat

/-! # Exactness of `read_data`

The copy loop of `read_data` with its two cut points named, on images that are only asked
for what the loop uses: file lengths an inode can list blocks for, and block numbers below
`data_count`.
-/

namespace LightOS.Filesystem

open Lib

/-- The blocks a file of this length takes up. -/
def blocksOf (fileLength : Nat) : Nat := (fileLength + BLOCK_SIZE - 1) / BLOCK_SIZE

/-- The data blocks of a file one after the other, in `data_block_num` order. -/
def Image.dataBlocks (img : Image) (inode : Nat) : List UInt8 :=
  ((List.range (blocksOf (img.fileLength inode))).map fun index =>
    img.bytes (img.dataBlockAddr (img.dataBlockNum inode index)) BLOCK_SIZE).flatten

/-- Every file fits the block list of its inode, and the blocks it uses are there. -/
structure Image.BlocksListed (img : Image) : Prop where
  length : ∀ inode < img.inodeCount, img.fileLength inode ≤ 1023 * BLOCK_SIZE
  blocks : ∀ inode < img.inodeCount, ∀ index < blocksOf (img.fileLength inode),
    img.dataBlockNum inode index < img.dataCount

/-- `length` after the test against the bytes that are left. -/
def shortened (img : Image) (inode offset length : Nat) : Nat :=
  if img.fileLength inode - offset < length then img.fileLength inode - offset else length

/-- The values `index` takes in the copy loop, for a `length` that is already shortened. -/
def rounds (offset length : Nat) : List Nat :=
  let first := offset / BLOCK_SIZE
  let last := wrap32 (offset + length) / BLOCK_SIZE
  List.range' first (last + 1 - first)

/-- `block_byte_begin` as a round of the copy loop leaves it. -/
def blockByteBegin (offset index : Nat) : Nat :=
  if index = offset / BLOCK_SIZE then offset % BLOCK_SIZE else 0

/-- `block_byte_end` as a round of the copy loop leaves it. -/
def blockByteEnd (offset length index : Nat) : Nat :=
  if index = wrap32 (offset + length) / BLOCK_SIZE then wrap32 (offset + length) % BLOCK_SIZE
  else BLOCK_SIZE

/-- `block_byte_end - block_byte_begin`, as a `uint32_t`. -/
def blockByteCount (offset length index : Nat) : Nat :=
  wrap32 (blockByteEnd offset length index + (2 ^ 32 - blockByteBegin offset index))

/-- The bytes the `memcpy` of a round takes. -/
def copied (img : Image) (inode offset length index : Nat) : List UInt8 :=
  img.bytes (img.dataBlockAddr (img.dataBlockNum inode index) + blockByteBegin offset index)
    (blockByteCount offset length index)

/-- No 32-bit byte count of a call of `read_data` wraps: not the bytes that are left, not the
    end of the request, not the size of a round, and not `return_val` after any round.
    What a round takes, it takes from one data block of the image. -/
structure CountsFit (img : Image) (inode offset length : Nat) : Prop where
  left : offset ≤ img.fileLength inode
  stop : offset + shortened img inode offset length < 2 ^ 32
  round : ∀ index ∈ rounds offset (shortened img inode offset length),
    blockByteBegin offset index ≤ blockByteEnd offset (shortened img inode offset length) index
  total : ∀ done, (((rounds offset (shortened img inode offset length)).take done).map
    (blockByteCount offset (shortened img inode offset length))).sum < 2 ^ 32
  source : ∀ index ∈ rounds offset (shortened img inode offset length),
    blockByteBegin offset index < blockByteEnd offset (shortened img inode offset length) index →
      img.dataBlockNum inode index < img.dataCount ∧
        blockByteEnd offset (shortened img inode offset length) index ≤ BLOCK_SIZE

section Rounds

variable {img : Image} {inode offset length index : Nat}

theorem dataBlocks_eq_slice (inode : Nat) : img.dataBlocks inode =
    slice (img.fileByte inode) 0 (blocksOf (img.fileLength inode) * BLOCK_SIZE) := by
  rw [Image.dataBlocks]
  induction blocksOf (img.fileLength inode) with
  | zero => simp [slice]
  | succ n ih =>
      have block := @bytes_eq_slice img inode n 0 BLOCK_SIZE (Nat.zero_le _) (Nat.le_refl _)
      simp only [Nat.add_zero, Nat.sub_zero] at block
      rw [List.range_succ, List.map_append, List.flatten_append, ih, List.map_singleton,
        List.flatten_singleton, block, slice_append _ (Nat.zero_le _) (Nat.le_add_right _ _),
        Nat.add_mul, Nat.one_mul]

theorem fileLength_le_blocks (fileLength : Nat) :
    fileLength ≤ blocksOf fileLength * BLOCK_SIZE := by
  simp only [blocksOf, BLOCK_SIZE]
  omega

theorem shortened_eq_min : shortened img inode offset length =
    min length (img.fileLength inode - offset) := by
  unfold shortened
  split <;> omega

/-- A call that gets to the loop copies round by round. -/
theorem readData_rounds {inode : Int} (valid : 0 ≤ inode ∧ inode.toNat < img.inodeCount)
    (inside : offset < img.fileLength inode.toNat) :
    (readData (some img) inode offset false length).bytes =
      let length := shortened img inode.toNat offset length
      ((rounds offset length).map (copied img inode.toNat offset length)).flatten := by
  have count : img.inodeCount < 2 ^ 32 := img.u32_lt 4
  have accepted : ¬ (img.inodeCount ≤ toUint32 inode ∨ inode < 0) := by
    rw [toUint32_nonneg valid.1 (by omega)]
    omega
  simp only [readData, Bool.false_eq_true, if_false, if_neg accepted,
    if_neg (Nat.not_le.mpr inside)]
  rfl

theorem mem_rounds (fits : offset + length < 2 ^ 32) :
    index ∈ rounds offset length ↔
      offset / BLOCK_SIZE ≤ index ∧ index ≤ (offset + length) / BLOCK_SIZE := by
  simp only [rounds, wrap32_small fits, List.mem_range'_1, BLOCK_SIZE]
  omega

/-- In every round the bytes taken lie in one block and in the request. -/
theorem round_inside (fits : offset + length < 2 ^ 32) (round : index ∈ rounds offset length) :
    blockByteBegin offset index ≤ blockByteEnd offset length index ∧
      blockByteEnd offset length index ≤ BLOCK_SIZE ∧
      index * BLOCK_SIZE + blockByteEnd offset length index ≤ offset + length := by
  have bounds := (mem_rounds fits).mp round
  simp only [blockByteBegin, blockByteEnd, wrap32_small fits]
  split <;> split <;> simp only [BLOCK_SIZE] at * <;> omega

/-- The rounds together copy what was asked for. -/
theorem rounds_total (fits : offset + length < 2 ^ 32) :
    ((rounds offset length).map (blockByteCount offset length)).sum = length := by
  have taken := congrArg List.length
    (@readBlocks_flatten ⟨fun _ => 0⟩ 0 offset length fits)
  rw [slice_length, Nat.add_sub_cancel_left, List.length_flatten, List.map_map] at taken
  refine Eq.trans (congrArg List.sum ?_) taken
  apply List.map_congr_left
  intro index _
  simp [readBlock, Image.bytes, blockByteCount, blockByteBegin, blockByteEnd]

/-- The counts of a call on a listed file that starts before its end. -/
theorem countsFit (listed : img.BlocksListed) (valid : inode < img.inodeCount)
    (inside : offset < img.fileLength inode) : CountsFit img inode offset length := by
  have ends : offset + shortened img inode offset length ≤ img.fileLength inode := by
    rw [shortened_eq_min]
    omega
  have fits : offset + shortened img inode offset length < 2 ^ 32 :=
    Nat.lt_of_le_of_lt ends (img.u32_lt _)
  refine ⟨Nat.le_of_lt inside, fits, ?_, ?_, ?_⟩
  · intro index round
    exact (round_inside fits round).1
  · intro done
    have total := rounds_total fits
    rw [← List.take_append_drop done (rounds offset (shortened img inode offset length)),
      List.map_append, List.sum_append] at total
    omega
  · intro index round takes
    obtain ⟨_, small, within⟩ := round_inside fits round
    refine ⟨listed.blocks inode valid index ?_, small⟩
    -- a byte is taken, so the block starts before the end of the file
    simp only [blocksOf, BLOCK_SIZE] at *
    omega

end Rounds

/-- On every listed image `read_data` is the slice of the file: for an inode of the image it
    delivers the bytes of the data blocks from `offset` on, as many as were asked for and
    are left, and no byte count wraps on the way; for any other inode it fails. -/
theorem readData_exact_slice {img : Image} (listed : img.BlocksListed) {inode : Int}
    (word : -2 ^ 31 ≤ inode ∧ inode < 2 ^ 31) (offset length : Nat) :
    let transfer := readData (some img) inode offset false length
    if 0 ≤ inode ∧ inode.toNat < img.inodeCount then
      let fileLength := img.fileLength inode.toNat
      if fileLength ≤ offset then transfer = ⟨0, []⟩
      else
        let count := min length (fileLength - offset)
        let asked := shortened img inode.toNat offset length
        transfer = ⟨count, ((img.dataBlocks inode.toNat).drop offset).take count⟩ ∧
          transfer.bytes.length = count ∧
          transfer.bytes =
            ((rounds offset asked).map (copied img inode.toNat offset asked)).flatten ∧
          CountsFit img inode.toNat offset length
    else transfer = ⟨-1, []⟩ := by
  intro transfer
  by_cases valid : 0 ≤ inode ∧ inode.toNat < img.inodeCount
  · rw [if_pos valid]
    intro fileLength
    have spec : transfer = _ := readData_spec offset length valid
    by_cases past : fileLength ≤ offset
    · rw [if_pos past, spec]
      have none : img.fileLength inode.toNat - offset = 0 := by omega
      simp [none, slice_empty, toInt32]
    · rw [if_neg past]
      intro count asked
      have bound : fileLength ≤ 1023 * BLOCK_SIZE := listed.length _ valid.2
      have signed : toInt32 count = count := by
        apply toInt32_small
        simp only [BLOCK_SIZE] at bound
        omega
      have covered : offset + count ≤ blocksOf fileLength * BLOCK_SIZE :=
        Nat.le_trans (by omega) (fileLength_le_blocks fileLength)
      have bytes : slice (img.fileByte inode.toNat) offset (offset + count) =
          ((img.dataBlocks inode.toNat).drop offset).take count := by
        rw [slice_eq_take_drop _ covered, ← dataBlocks_eq_slice, Nat.add_sub_cancel_left]
      have exact : transfer = ⟨count, ((img.dataBlocks inode.toNat).drop offset).take count⟩ := by
        rw [spec, ← bytes, ← signed]
      have inside : offset < fileLength := Nat.lt_of_not_le past
      refine ⟨exact, ?_, readData_rounds valid inside, countsFit listed valid.2 inside⟩
      rw [exact, ← bytes, slice_length, Nat.add_sub_cancel_left]
  · rw [if_neg valid]
    have rejected : img.inodeCount ≤ toUint32 inode ∨ inode < 0 := by
      rcases Int.lt_or_le inode 0 with negative | nonneg
      · exact .inr negative
      · rw [toUint32_nonneg nonneg (by omega)]
        omega
    simp [transfer, readData, if_pos rejected, Transfer.failed]

/-- An image without directory entries: one inode, whose file is data block 1 and the first
    four bytes of data block 0. -/
def twoBlockFile : Image where
  byte addr := ([(4, 1), (8, 2), (4096, 4), (4097, 16), (4100, 1)].lookup addr).getD 0

theorem twoBlockFile_listed : twoBlockFile.BlocksListed where
  length := by decide +kernel
  blocks := by decide +kernel

theorem twoBlockFile_exact_slice :
    let transfer := readData (some twoBlockFile) 0 4094 false 10
    transfer = ⟨6, ((twoBlockFile.dataBlocks 0).drop 4094).take 6⟩ ∧
      transfer.bytes.length = 6 ∧
      transfer.bytes = ((rounds 4094 6).map (copied twoBlockFile 0 4094 6)).flatten ∧
      CountsFit twoBlockFile 0 4094 10 := by
  have valid : 0 ≤ (0 : Int) ∧ (0 : Int).toNat < twoBlockFile.inodeCount := by decide +kernel
  have length : twoBlockFile.fileLength 0 = 4100 := by decide +kernel
  have slice := @readData_exact_slice twoBlockFile twoBlockFile_listed 0 (by decide) 4094 10
  rw [if_pos valid] at slice
  simp only [Int.toNat_zero, length, shortened] at slice
  exact slice

end LightOS.Filesystem
