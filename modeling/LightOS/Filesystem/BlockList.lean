import LightOS.Filesystem.ExactRead

/-! # The block list of a file

What the copy loop of `read_data` consults round by round: a slot of `data_block_num`, and the
data block whose address it forms from it.  The last round is the one for
`(offset + length) / BLOCK_SIZE`, whether or not there is a byte left for it to copy.
-/

namespace LightOS.Filesystem

open Lib

/-- The slots of `data_block_num` in an `i_node_t`. -/
def DATA_BLOCK_SLOTS : Nat := 1023

/-- One round of the copy loop: the index into `data_block_num`, the address of
    `data_block_pointer`, and the bytes of the `memcpy`. -/
structure Round where
  slot : Nat
  address : Nat
  bytes : List UInt8

/-- The rounds of the copy loop of `read_data`; a call that returns before the loop has none. -/
def readDataRounds (bootBlock : Option Image) (inode : Int) (offset : Nat) (bufIsNull : Bool)
    (length : Nat) : List Round :=
  match bootBlock with
  | none => []
  | some img =>
      if bufIsNull then []
      else if img.inodeCount ≤ toUint32 inode ∨ inode < 0 then []
      else if img.fileLength inode.toNat ≤ offset then []
      else
        let length := shortened img inode.toNat offset length
        (rounds offset length).map fun index =>
          { slot := index
            address := img.dataBlockAddr (img.dataBlockNum inode.toNat index)
            bytes := readBlock img inode.toNat offset length index }

/-- A round stays in the block list of its file, and in the data blocks of the image. -/
structure Round.Own (img : Image) (inode : Nat) (round : Round) : Prop where
  listed : round.slot < blocksOf (img.fileLength inode)
  inArray : round.slot < DATA_BLOCK_SLOTS
  inImage : ∃ block < img.dataCount, round.address = img.dataBlockAddr block

/-- The request ends where the file does, and the file ends where a block does. -/
def EndsOnBlock (img : Image) (inode offset length : Nat) : Prop :=
  offset < img.fileLength inode ∧ img.fileLength inode ≤ offset + length ∧
    BLOCK_SIZE ∣ img.fileLength inode

section BlockList

variable {img : Image} {inode : Int} {offset length : Nat}

/-- What a call delivers is what its rounds copy. -/
theorem readData_bytes (bootBlock : Option Image) (bufIsNull : Bool) :
    (readData bootBlock inode offset bufIsNull length).bytes =
      ((readDataRounds bootBlock inode offset bufIsNull length).map Round.bytes).flatten := by
  cases bootBlock with
  | none => rfl
  | some img =>
      simp only [readData, readDataRounds]
      split
      · rfl
      · split
        · rfl
        · split
          · rfl
          · rw [List.map_map]
            rfl

/-- The rounds of a call that gets to the loop. -/
theorem readDataRounds_accepted (valid : 0 ≤ inode ∧ inode.toNat < img.inodeCount)
    (inside : offset < img.fileLength inode.toNat) :
    readDataRounds (some img) inode offset false length =
      (rounds offset (shortened img inode.toNat offset length)).map fun index =>
        { slot := index
          address := img.dataBlockAddr (img.dataBlockNum inode.toNat index)
          bytes := readBlock img inode.toNat offset (shortened img inode.toNat offset length)
            index } := by
  have count : img.inodeCount < 2 ^ 32 := img.u32_lt 4
  have accepted : ¬ (img.inodeCount ≤ toUint32 inode ∨ inode < 0) := by
    rw [toUint32_nonneg valid.1 (by omega)]
    omega
  simp only [readDataRounds, Bool.false_eq_true, if_false, if_neg accepted,
    if_neg (Nat.not_le.mpr inside)]

/-- The end of a shortened request that starts inside the file. -/
theorem shortened_end (length : Nat) (inside : offset < img.fileLength inode.toNat) :
    offset + shortened img inode.toNat offset length ≤ img.fileLength inode.toNat ∧
      offset + shortened img inode.toNat offset length < 2 ^ 32 := by
  have word : img.fileLength inode.toNat < 2 ^ 32 := img.u32_lt _
  rw [shortened_eq_min]
  omega

/-- A slot below the number of blocks is one of the array, and lists a block of the image. -/
theorem Round.own_of_listed (wellFormed : img.WellFormed) {inode : Nat}
    (valid : inode < img.inodeCount) {round : Round}
    (listed : round.slot < blocksOf (img.fileLength inode))
    (address : round.address = img.dataBlockAddr (img.dataBlockNum inode round.slot)) :
    round.Own img inode where
  listed := listed
  inArray := by
    have bound := wellFormed.length inode valid
    simp only [blocksOf, BLOCK_SIZE] at listed bound
    simp only [DATA_BLOCK_SLOTS]
    omega
  inImage := by
    refine ⟨_, wellFormed.blocks inode valid round.slot ?_, address⟩
    simp only [blocksOf, BLOCK_SIZE] at listed ⊢
    omega

/-- The rounds of a request that does not end with the file at the end of a block. -/
theorem rounds_listed (inside : offset < img.fileLength inode.toNat)
    (apart : ¬ EndsOnBlock img inode.toNat offset length) {index : Nat}
    (round : index ∈ rounds offset (shortened img inode.toNat offset length)) :
    index < blocksOf (img.fileLength inode.toNat) := by
  obtain ⟨ends, fits⟩ := shortened_end length inside
  have last := ((mem_rounds fits).mp round).2
  rw [shortened_eq_min] at last ends
  simp only [EndsOnBlock, not_and, inside, true_implies] at apart
  by_cases whole : img.fileLength inode.toNat ≤ offset + length
  · have rest := apart whole
    simp only [blocksOf, BLOCK_SIZE] at *
    omega
  · simp only [blocksOf, BLOCK_SIZE] at *
    omega

/-- The last round of a request that does: its slot is the one behind the file's own. -/
theorem rounds_past (inside : offset < img.fileLength inode.toNat)
    (onBlock : EndsOnBlock img inode.toNat offset length) :
    blocksOf (img.fileLength inode.toNat) ∈
      rounds offset (shortened img inode.toNat offset length) := by
  obtain ⟨_, whole, aligned⟩ := onBlock
  obtain ⟨_, fits⟩ := shortened_end length inside
  rw [mem_rounds fits, shortened_eq_min]
  simp only [blocksOf, BLOCK_SIZE] at *
  omega

end BlockList

/-- Every round of a call of `read_data` stays in the block list of its file and in the data
    blocks of the image, if and only if the call does not read up to the end of a file that
    fills its last block. -/
theorem readData_own_blocks_iff {img : Image} (wellFormed : img.WellFormed) {inode : Int}
    (valid : 0 ≤ inode ∧ inode.toNat < img.inodeCount) (offset length : Nat) :
    (∀ round ∈ readDataRounds (some img) inode offset false length,
        round.Own img inode.toNat) ↔
      ¬ EndsOnBlock img inode.toNat offset length := by
  by_cases inside : offset < img.fileLength inode.toNat
  · rw [readDataRounds_accepted valid inside, List.forall_mem_map]
    constructor
    · intro own onBlock
      exact Nat.lt_irrefl _ (own _ (rounds_past inside onBlock)).listed
    · intro apart index round
      exact Round.own_of_listed wellFormed valid.2 (rounds_listed inside apart round) rfl
  · have none : readDataRounds (some img) inode offset false length = [] := by
      simp [readDataRounds, Nat.not_lt.mp inside]
    rw [none]
    exact iff_of_true (fun _ member => nomatch member) (fun onBlock => inside onBlock.1)

/-- A file of one full block, in an image that has no other. -/
def fullBlockFile : Image where
  byte addr := ([(4, 1), (8, 1), (4097, 16)].lookup addr).getD 0

theorem fullBlockFile_wellFormed : fullBlockFile.WellFormed :=
  .of_short (by decide +kernel) (by decide +kernel)

/-- A read that stops short of its end stays in its one block. -/
theorem fullBlockFile_own_blocks_iff :
    (∀ round ∈ readDataRounds (some fullBlockFile) 0 0 false 4095,
        round.Own fullBlockFile 0) ↔
      ¬ EndsOnBlock fullBlockFile 0 0 4095 :=
  have valid : 0 ≤ (0 : Int) ∧ (0 : Int).toNat < fullBlockFile.inodeCount := by decide +kernel
  readData_own_blocks_iff fullBlockFile_wellFormed valid 0 4095

/-- A read of the whole file consults slot 1 as well. -/
theorem fullBlockFile_reads_past_list :
    fullBlockFile.WellFormed ∧ (0 : Nat) < fullBlockFile.inodeCount ∧
      ¬ ∀ round ∈ readDataRounds (some fullBlockFile) 0 0 false 4096,
        round.Own fullBlockFile 0 := by
  have valid : 0 ≤ (0 : Int) ∧ (0 : Int).toNat < fullBlockFile.inodeCount := by decide +kernel
  have inside : 0 < fullBlockFile.fileLength (0 : Int).toNat := by decide +kernel
  have onBlock : EndsOnBlock fullBlockFile (0 : Int).toNat 0 4096 :=
    ⟨inside, by decide +kernel, by decide +kernel⟩
  refine ⟨fullBlockFile_wellFormed, valid.2, fun own => ?_⟩
  rw [readDataRounds_accepted valid inside, List.forall_mem_map] at own
  exact Nat.lt_irrefl _ (own _ (rounds_past inside onBlock)).listed

end LightOS.Filesystem
