import LightOS.Descriptor.SequentialRead

/-! # The position of an open file

`file_read` takes `nbytes` as an unsigned length, `read_data` cuts it down to the file, and
the position moves by what was asked for, modulo 2^32.  A negative `nbytes` is a length
just below 2^32, and adding it takes the position back.
-/

namespace LightOS.Descriptor

open Lib Filesystem

/-- The part of the file a read delivers: from the position on, as many bytes as it stores. -/
def delivery (img : Image) (answer : Transfer) (slot : Fin MAX_NUM_FILES) (pcb : Pcb)
    (request : Request) : Nat × Nat :=
  let pos := (pcb.fileDescriptorArray slot).filePos
  (pos, pos + (request.run img answer slot.val pcb).1.bytes.length)

/-- The deliveries of a run of reads. -/
def deliveries (img : Image) (answer : Transfer) (slot : Fin MAX_NUM_FILES) :
    Pcb → List Request → List (Nat × Nat)
  | _, [] => []
  | pcb, request :: requests =>
      delivery img answer slot pcb request ::
        deliveries img answer slot (request.run img answer slot.val pcb).2 requests

/-- No position lies in both parts. -/
def Apart (first second : Nat × Nat) : Prop :=
  ∀ k, first.1 ≤ k → k < first.2 → ¬ (second.1 ≤ k ∧ k < second.2)

/-- No read takes the position back, and no byte is delivered by two of them. -/
structure MovesForward (img : Image) (answer : Transfer) (slot : Fin MAX_NUM_FILES) (pcb : Pcb)
    (requests : List Request) : Prop where
  forward : (readMachine img answer slot.val).EachStep (fun pcb request =>
    (pcb.fileDescriptorArray slot).filePos ≤
      ((request.run img answer slot.val pcb).2.fileDescriptorArray slot).filePos) pcb requests
  once : (deliveries img answer slot pcb requests).Pairwise Apart

/-- The buffer is there, the inode is one of the image, and its file goes on at the position. -/
def BeforeEnd (img : Image) (inode : Int) (bufIsNull : Bool) (pos : Nat) : Prop :=
  bufIsNull = false ∧ 0 ≤ inode ∧ inode.toNat < img.inodeCount ∧ pos < img.fileLength inode.toNat

/-- There is something to deliver, and `nbytes` is negative, but by no more than the position. -/
def AsksBackwards (img : Image) (descriptor : FileDescriptor) (request : Request) : Prop :=
  BeforeEnd img descriptor.inode request.bufIsNull descriptor.filePos ∧
    request.nbytes < 0 ∧ -request.nbytes ≤ descriptor.filePos

section Reading

variable {img : Image} {inode : Int} {pos : Nat}

/-- Whatever `file_read` stores are bytes of the file from the position on. -/
theorem fileRead_bytes (bufIsNull : Bool) (length : Nat) :
    let stored := (fileRead (some img) inode bufIsNull length pos).1.bytes
    stored = slice (img.fileByte inode.toNat) pos (pos + stored.length) := by
  intro stored
  by_cases refused : inode = 0 ∨ bufIsNull
  · have none : stored = [] := by simp [stored, fileRead, if_pos refused, Transfer.failed]
    rw [none, List.length_nil, Nat.add_zero, slice_empty]
  · have read : stored = (readData (some img) inode pos false length).bytes := by
      obtain ⟨nonzero, notNull⟩ := not_or.mp refused
      simp only [stored, fileRead, nonzero, notNull, Option.isNone_some, Bool.false_eq_true,
        or_self, if_false]
      split <;> rfl
    by_cases rejected : img.inodeCount ≤ toUint32 inode ∨ inode < 0
    · have none : stored = [] := by simp [read, readData, if_pos rejected, Transfer.failed]
      rw [none, List.length_nil, Nat.add_zero, slice_empty]
    · rw [read, readData_accepted pos length rejected, slice_length, Nat.add_sub_cancel_left]

/-- Either nothing is delivered and the position stays, or what is asked for and left is
    delivered, and the position moves by what was asked for. -/
theorem fileRead_moves (wellFormed : img.WellFormed) (word : -2 ^ 31 ≤ inode ∧ inode < 2 ^ 31)
    (nonzero : inode ≠ 0) (bufIsNull : Bool) (length : Nat) :
    let result := fileRead (some img) inode bufIsNull length pos
    (¬ (BeforeEnd img inode bufIsNull pos ∧ 0 < length) ∧ result.1.bytes.length = 0 ∧
      result.2 = pos) ∨
    (BeforeEnd img inode bufIsNull pos ∧ 0 < length ∧
      result.1.bytes.length = min length (img.fileLength inode.toNat - pos) ∧
      result.2 = wrap32 (pos + length)) := by
  intro result
  cases bufIsNull with
  | true =>
      have refused : result = (.failed, pos) := by simp [result, fileRead]
      rw [refused]
      exact .inl ⟨by simp [BeforeEnd], rfl, rfl⟩
  | false =>
      by_cases valid : 0 ≤ inode ∧ inode.toNat < img.inodeCount
      · have bound := wellFormed.length _ valid.2
        simp only [BLOCK_SIZE] at bound
        have spec : result = _ := fileRead_spec pos length ⟨by omega, valid.2⟩ (by omega)
        have count : result.1.bytes.length = min length (img.fileLength inode.toNat - pos) := by
          rw [spec, slice_length, Nat.add_sub_cancel_left]
        have moved : result.2 = if 0 < min length (img.fileLength inode.toNat - pos) then
            wrap32 (pos + length) else pos := by rw [spec]
        by_cases some_ : 0 < min length (img.fileLength inode.toNat - pos)
        · refine .inr ⟨⟨rfl, valid.1, valid.2, by omega⟩, by omega, count, ?_⟩
          rw [moved, if_pos some_]
        · refine .inl ⟨?_, by omega, by rw [moved, if_neg some_]⟩
          rintro ⟨⟨_, _, _, inside⟩, asked⟩
          omega
      · have rejected : img.inodeCount ≤ toUint32 inode ∨ inode < 0 := by
          rcases Int.lt_or_le inode 0 with negative | nonneg
          · exact .inr negative
          · rw [toUint32_nonneg nonneg (by omega)]
            omega
        have refused : result = (.failed, pos) := by
          simp [result, fileRead, nonzero, readData, rejected, Transfer.failed]
        rw [refused]
        refine .inl ⟨?_, rfl, rfl⟩
        rintro ⟨⟨_, nonneg, inRange, _⟩, _⟩
        exact valid ⟨nonneg, inRange⟩

/-- A read asks backwards exactly where the position wraps; otherwise it moves past all that is
    delivered. -/
theorem position_step (wellFormed : img.WellFormed) (word : -2 ^ 31 ≤ inode ∧ inode < 2 ^ 31)
    (nonzero : inode ≠ 0) (small : pos < 2 ^ 32) (bufIsNull : Bool) {nbytes : Int}
    (int32 : -2 ^ 31 ≤ nbytes ∧ nbytes < 2 ^ 31) :
    let result := fileRead (some img) inode bufIsNull (toUint32 nbytes) pos
    let backwards := BeforeEnd img inode bufIsNull pos ∧ nbytes < 0 ∧ -nbytes ≤ pos
    (backwards → result.2 < pos) ∧
      (¬ backwards → pos + result.1.bytes.length ≤ result.2) ∧ result.2 < 2 ^ 32 := by
  intro result backwards
  rcases @fileRead_moves _ _ pos wellFormed word nonzero bufIsNull (toUint32 nbytes) with
    ⟨nothing, count, stays⟩ | ⟨before, asked, count, moves⟩
  · refine ⟨?_, ?_, by simp only [result, stays]; exact small⟩
    · rintro ⟨before, negative, _⟩
      refine absurd ⟨before, ?_⟩ nothing
      simp only [toUint32]
      omega
    · intro _
      simp only [result, count, stays]
      omega
  · have bound := wellFormed.length _ before.2.2.1
    have inside := before.2.2.2
    simp only [BLOCK_SIZE] at bound
    have length : (toUint32 nbytes : Int) = nbytes % 2 ^ 32 := by
      simp only [toUint32]
      omega
    have moved : result.2 = (pos + toUint32 nbytes) % 2 ^ 32 := moves
    have counted : result.1.bytes.length = _ := count
    rw [moved, counted]
    refine ⟨?_, ?_, by omega⟩
    · rintro ⟨_, negative, reaches⟩
      omega
    · intro forwards
      have apart : ¬ (nbytes < 0 ∧ -nbytes ≤ pos) := fun backwards => forwards ⟨before, backwards⟩
      omega

end Reading

section Run

variable {img : Image} {slot : Fin MAX_NUM_FILES} {inode : Int} (wellFormed : img.WellFormed)
  (word : -2 ^ 31 ≤ inode ∧ inode < 2 ^ 31) (nonzero : inode ≠ 0) (answer : Transfer)

/-- A descriptor open on the file, at a position that is a `uint32_t`. -/
def Follows (slot : Fin MAX_NUM_FILES) (inode : Int) (pcb : Pcb) : Prop :=
  ∃ pos < 2 ^ 32, ReadingAt pcb slot inode pos

/-- What a read stores is its part of the file. -/
theorem reads_deliver {pcb : Pcb} {pos : Nat} (reading : ReadingAt pcb slot inode pos)
    (answer : Transfer) (requests : List Request) :
    (readMachine img answer slot.val).EachStep (fun pcb request =>
      (request.run img answer slot.val pcb).1.bytes =
        slice (img.fileByte inode.toNat) (delivery img answer slot pcb request).1
          (delivery img answer slot pcb request).2) pcb requests := by
  have run := Machine.Run.of_enabled (M := readMachine img answer slot.val)
    (fun _ _ => trivial) pcb requests
  refine run.eachStep (I := fun pcb => ∃ pos, ReadingAt pcb slot inode pos)
    (P := fun _ _ => True) ?_ ?_ ⟨pos, reading⟩ (.of_forall fun _ _ => trivial)
  · rintro pcb request ⟨pos, reading⟩ _ _
    exact ⟨_, (request_reading img answer reading request).2⟩
  · rintro pcb request ⟨pos, reading⟩ _ _
    simp only [delivery, (request_reading img answer reading request).1, reading.filePos]
    exact fileRead_bytes request.bufIsNull (toUint32 request.nbytes)

include wellFormed word nonzero

/-- One read of an open file, on its descriptor. -/
theorem follows_step {pcb : Pcb} (follows : Follows slot inode pcb) {request : Request}
    (int32 : -2 ^ 31 ≤ request.nbytes ∧ request.nbytes < 2 ^ 31) :
    let next := (request.run img answer slot.val pcb).2
    let pos := (pcb.fileDescriptorArray slot).filePos
    let pos' := (next.fileDescriptorArray slot).filePos
    Follows slot inode next ∧
      (AsksBackwards img (pcb.fileDescriptorArray slot) request → pos' < pos) ∧
      (¬ AsksBackwards img (pcb.fileDescriptorArray slot) request →
        (delivery img answer slot pcb request).2 ≤ pos') := by
  obtain ⟨pos, small, reading⟩ := follows
  obtain ⟨transfer, moved⟩ := request_reading img answer reading request
  obtain ⟨back, onwards, small'⟩ :=
    position_step wellFormed word nonzero small request.bufIsNull int32
  simp only [AsksBackwards, delivery, transfer, moved.filePos, reading.filePos, reading.inode]
  exact ⟨⟨_, small', moved⟩, back, onwards⟩

/-- In a run without such reads, all deliveries lie behind the position the run starts at, one
    behind the other. -/
theorem deliveries_ordered {pcb : Pcb} (follows : Follows slot inode pcb)
    {requests : List Request}
    (int32 : ∀ request ∈ requests, -2 ^ 31 ≤ request.nbytes ∧ request.nbytes < 2 ^ 31)
    (each : (readMachine img answer slot.val).EachStep (fun pcb request =>
      ¬ AsksBackwards img (pcb.fileDescriptorArray slot) request) pcb requests) :
    (∀ part ∈ deliveries img answer slot pcb requests,
        (pcb.fileDescriptorArray slot).filePos ≤ part.1) ∧
      (deliveries img answer slot pcb requests).Pairwise (fun first second =>
        first.2 ≤ second.1) := by
  induction requests generalizing pcb with
  | nil => exact ⟨by simp [deliveries], .nil⟩
  | cons request requests ih =>
      rw [List.forall_mem_cons] at int32
      obtain ⟨next, _, onwards⟩ := follows_step wellFormed word nonzero answer follows int32.1
      obtain ⟨behind, ordered⟩ := ih next int32.2 each.2
      have passed := onwards each.1
      have start : (delivery img answer slot pcb request).1 =
          (pcb.fileDescriptorArray slot).filePos := rfl
      have positive : (delivery img answer slot pcb request).1 ≤
          (delivery img answer slot pcb request).2 := Nat.le_add_right _ _
      rw [deliveries, List.forall_mem_cons, List.pairwise_cons]
      refine ⟨⟨Nat.le_of_eq start.symm, ?_⟩, ?_, ordered⟩
      · intro part member
        have later := behind part member
        omega
      · intro part member
        exact Nat.le_trans passed (behind part member)

/-- The position goes back at the reads that ask backwards. -/
theorem positions_forward_iff {pcb : Pcb} (follows : Follows slot inode pcb)
    {requests : List Request}
    (int32 : ∀ request ∈ requests, -2 ^ 31 ≤ request.nbytes ∧ request.nbytes < 2 ^ 31) :
    (readMachine img answer slot.val).EachStep (fun pcb request =>
        (pcb.fileDescriptorArray slot).filePos ≤
          ((request.run img answer slot.val pcb).2.fileDescriptorArray slot).filePos) pcb requests ↔
      (readMachine img answer slot.val).EachStep (fun pcb request =>
        ¬ AsksBackwards img (pcb.fileDescriptorArray slot) request) pcb requests := by
  induction requests generalizing pcb with
  | nil => exact Iff.rfl
  | cons request requests ih =>
      rw [List.forall_mem_cons] at int32
      obtain ⟨next, back, onwards⟩ := follows_step wellFormed word nonzero answer follows int32.1
      refine and_congr ⟨?_, ?_⟩ (ih next int32.2)
      · intro ahead backwards
        exact absurd ahead (Nat.not_le.mpr (back backwards))
      · intro forwards
        exact Nat.le_trans (Nat.le_add_right _ _) (onwards forwards)

end Run

/-- What the reads of an open regular file store are the bytes of their parts of the file; and in
    a run of them the position never moves back, and no byte is delivered twice, if and only
    if no read asks backwards. -/
theorem reads_move_forward_iff {img : Image} (wellFormed : img.WellFormed) {pcb : Pcb}
    {slot : Fin MAX_NUM_FILES} {inode : Int} {pos : Nat} (reading : ReadingAt pcb slot inode pos)
    (small : pos < 2 ^ 32) (word : -2 ^ 31 ≤ inode ∧ inode < 2 ^ 31) (nonzero : inode ≠ 0)
    (answer : Transfer) {requests : List Request}
    (int32 : ∀ request ∈ requests, -2 ^ 31 ≤ request.nbytes ∧ request.nbytes < 2 ^ 31) :
    (readMachine img answer slot.val).EachStep (fun pcb request =>
        (request.run img answer slot.val pcb).1.bytes =
          slice (img.fileByte inode.toNat) (delivery img answer slot pcb request).1
            (delivery img answer slot pcb request).2) pcb requests ∧
      (MovesForward img answer slot pcb requests ↔
        (readMachine img answer slot.val).EachStep (fun pcb request =>
          ¬ AsksBackwards img (pcb.fileDescriptorArray slot) request) pcb requests) := by
  have follows : Follows slot inode pcb := ⟨pos, small, reading⟩
  have forward := positions_forward_iff wellFormed word nonzero answer follows int32
  refine ⟨reads_deliver reading answer requests, ?_, ?_⟩
  · intro moves
    exact forward.mp moves.forward
  · intro each
    refine ⟨forward.mpr each, ?_⟩
    obtain ⟨_, ordered⟩ := deliveries_ordered wellFormed word nonzero answer follows int32 each
    refine ordered.imp ?_
    intro first second behind k _ inFirst inSecond
    omega

theorem oneFile_moves_forward_iff :
    let pcb := (fileDescriptorTableOpen (some oneFile) freshPcb (some (charPtr [0x66]))).2
    let slot : Fin MAX_NUM_FILES := ⟨2, by decide⟩
    let requests : List Request := [⟨false, 2⟩, ⟨false, -3⟩, ⟨false, 4⟩]
    (readMachine oneFile .failed slot.val).EachStep (fun pcb request =>
        (request.run oneFile .failed slot.val pcb).1.bytes =
          slice (oneFile.fileByte 1) (delivery oneFile .failed slot pcb request).1
            (delivery oneFile .failed slot pcb request).2) pcb requests ∧
      (MovesForward oneFile .failed slot pcb requests ↔
        (readMachine oneFile .failed slot.val).EachStep (fun pcb request =>
          ¬ AsksBackwards oneFile (pcb.fileDescriptorArray slot) request) pcb requests) :=
  @reads_move_forward_iff oneFile oneFile_wellFormed _ _ 1 0
    ⟨by decide +kernel, by decide +kernel, by decide +kernel⟩ (by decide) (by decide) (by decide)
    .failed _ (by decide)

/-- Two bytes, then -2 bytes: the second call delivers the other three and takes the position
    back to 0, so that the third delivers the first two again. -/
theorem oneFile_moves_back :
    let pcb := (fileDescriptorTableOpen (some oneFile) freshPcb (some (charPtr [0x66]))).2
    let requests : List Request := [⟨false, 2⟩, ⟨false, -2⟩, ⟨false, 2⟩]
    deliveries oneFile .failed ⟨2, by decide⟩ pcb requests = [(0, 2), (2, 5), (0, 2)] ∧
      ¬ MovesForward oneFile .failed ⟨2, by decide⟩ pcb requests := by
  intro pcb requests
  refine ⟨by decide +kernel, ?_⟩
  intro moves
  have forward := moves.forward
  revert forward
  decide +kernel

end LightOS.Descriptor
