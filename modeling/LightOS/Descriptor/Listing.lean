import LightOS.Descriptor.SequentialRead
import LightOS.Filesystem.ExactLookup

/-! # Listing a directory

`dir_read` knows neither `dir_count` nor the 63 entries of the boot block: it goes on to
`inode_count`, reports the end from the eighteenth entry on, and copies as many bytes as
it was asked for.  `listing_transfer` is the whole answer it gives to a listing, and
`request_listing` what one read does to a descriptor.
-/

namespace LightOS.Descriptor

open Lib Filesystem

/-- A descriptor open on a directory, at a position. -/
structure ListingAt (pcb : Pcb) (slot : Fin MAX_NUM_FILES) (inode : Int) (pos : Nat) : Prop where
  fileOps : (pcb.fileDescriptorArray slot).fileOps = some .dir
  inode : (pcb.fileDescriptorArray slot).inode = inode
  filePos : (pcb.fileDescriptorArray slot).filePos = pos

/-- A listing asks for one name after the other. -/
def oneName : Request := ⟨false, FILENAME_LEN⟩

/-- What call number `k` of a listing transfers, counted from 0. -/
def listingTransfer (img : Image) (answer : Transfer) (fd : Int) (pcb : Pcb) (k : Nat) :
    Transfer :=
  (oneName.run img answer fd
    ((List.replicate k oneName).foldl (readMachine img answer fd).next pcb)).1

/-- The names are listed in order, each once, and then 0 is returned. -/
structure ListsNames (img : Image) (transfers : Nat → Transfer) : Prop where
  names : ∀ index < img.dirCount, transfers index = ⟨FILENAME_LEN, (img.direntries index).filename⟩
  ended : (transfers img.dirCount).ret = 0

/-- And 0 is all that is returned from then on. -/
structure ListsExactly (img : Image) (transfers : Nat → Transfer) : Prop
    extends ListsNames img transfers where
  afterEnd : ∀ k, img.dirCount ≤ k → (transfers k).ret = 0

/-- The read returns -1 and has stored nothing, or the index is that of an entry, the bytes are the
    beginning of its name field, and no more bytes are promised than were written. -/
def ReadsInside (img : Image) (pos : Nat) (transfer : Transfer) : Prop :=
  transfer = .failed ∨
    pos < MAX_DIRECTORY_NUMBER ∧ transfer.bytes.length ≤ FILENAME_LEN ∧
      transfer.bytes = (img.direntries pos).filename.take transfer.bytes.length ∧
      transfer.ret ≤ transfer.bytes.length

/-- The read is refused, or asks one of the 63 entries for no more than its name. -/
def AsksInside (img : Image) (descriptor : FileDescriptor) (request : Request) : Prop :=
  descriptor.inode = -1 ∨ request.bufIsNull ∨ img.inodeCount ≤ descriptor.filePos ∨
    descriptor.filePos < MAX_DIRECTORY_NUMBER ∧ toUint32 request.nbytes ≤ FILENAME_LEN

instance (img : Image) (pos : Nat) (transfer : Transfer) :
    Decidable (ReadsInside img pos transfer) :=
  inferInstanceAs (Decidable (_ ∨ _))

section Reading

variable {img : Image} {pcb : Pcb} {slot : Fin MAX_NUM_FILES} {inode : Int} {pos : Nat}
  (answer : Transfer)

/-- `dir_read` without the wrap of the position, which `inode_count` rules out. -/
theorem dirRead_eq {bufIsNull : Bool} (accepted : ¬ (inode = -1 ∨ bufIsNull)) (length : Nat) :
    dirRead (some img) inode bufIsNull length pos =
      if img.inodeCount ≤ pos then (.failed, pos)
      else
        (⟨if 18 ≤ pos + 1 then 0 else toInt32 length,
          img.bytes (Image.direntryAddr pos) length⟩, pos + 1) := by
  simp only [dirRead, if_neg accepted]
  split
  · rfl
  · have bound : img.inodeCount < 2 ^ 32 := img.u32_lt 4
    rw [wrap32_small (by omega)]
    split <;> rfl

variable (img) in
/-- One read on a directory. -/
theorem request_listing (listing : ListingAt pcb slot inode pos) (request : Request) :
    (request.run img answer slot.val pcb).1 =
        (dirRead (some img) inode request.bufIsNull (toUint32 request.nbytes) pos).1 ∧
      ListingAt (request.run img answer slot.val pcb).2 slot inode
        (dirRead (some img) inode request.bufIsNull (toUint32 request.nbytes) pos).2 := by
  rw [request_run img answer listing.fileOps rfl request]
  simp only [driverRead, listing.inode, listing.filePos]
  exact ⟨trivial, by simp [listing.fileOps], by simp, by simp⟩

/-- Where `k` calls of a listing leave the position. -/
theorem listing_position (valid : inode ≠ -1) (listing : ListingAt pcb slot inode 0) (k : Nat) :
    ListingAt ((List.replicate k oneName).foldl (readMachine img answer slot.val).next pcb) slot
      inode (min k img.inodeCount) := by
  have accepted : ¬ (inode = -1 ∨ oneName.bufIsNull) := by simp [valid, oneName]
  induction k with
  | zero => rwa [Nat.zero_min]
  | succ k ih =>
      rw [List.replicate_succ', List.foldl_append]
      have step := (request_listing img answer ih oneName).2
      rw [dirRead_eq accepted] at step
      rcases Nat.lt_or_ge k img.inodeCount with inside | past
      · have onwards : min k img.inodeCount + 1 = min (k + 1) img.inodeCount := by omega
        rw [if_neg (by omega), onwards] at step
        exact step
      · have still : min k img.inodeCount = min (k + 1) img.inodeCount := by omega
        rw [if_pos (by omega), still] at step
        exact step

/-- The answers to a listing: names up to the eighteenth call, 0 up to `inode_count`, and -1
    from there on. -/
theorem listing_transfer (valid : inode ≠ -1) (listing : ListingAt pcb slot inode 0) (k : Nat) :
    listingTransfer img answer slot.val pcb k =
      if img.inodeCount ≤ k then .failed
      else ⟨if 18 ≤ k + 1 then 0 else FILENAME_LEN, (img.direntries k).filename⟩ := by
  have accepted : ¬ (inode = -1 ∨ oneName.bufIsNull) := by simp [valid, oneName]
  have position := @listing_position img _ _ _ answer valid listing k
  rw [listingTransfer, (request_listing img answer position oneName).1, dirRead_eq accepted]
  rcases Nat.lt_or_ge k img.inodeCount with inside | past
  · rw [if_neg (by omega), if_neg (Nat.not_le.mpr inside), Nat.min_eq_left (Nat.le_of_lt inside)]
    rfl
  · rw [if_pos (by omega), if_pos past]

/-- Without an inode every call fails. -/
theorem listing_refused (listing : ListingAt pcb slot (-1) 0) (k : Nat) :
    listingTransfer img answer slot.val pcb k = .failed := by
  have stays : ∀ k, ListingAt ((List.replicate k oneName).foldl
      (readMachine img answer slot.val).next pcb) slot (-1) 0 := by
    intro k
    induction k with
    | zero => exact listing
    | succ k ih =>
        rw [List.replicate_succ', List.foldl_append]
        exact (request_listing img answer ih oneName).2
  rw [listingTransfer, (request_listing img answer (stays k) oneName).1]
  rfl

/-- A listing that ends as it should is one of exactly 17 names, in an image with more than
    17 inodes. -/
theorem lists_names_iff (listing : ListingAt pcb slot inode 0) :
    ListsNames img (listingTransfer img answer slot.val pcb) ↔
      inode ≠ -1 ∧ img.dirCount = 17 ∧ 18 ≤ img.inodeCount := by
  by_cases valid : inode = -1
  · subst valid
    simp only [ne_eq, not_true, false_and, iff_false]
    intro lists
    have ended := lists.ended
    rw [listing_refused answer listing] at ended
    cases ended
  · have transfers := @listing_transfer img _ _ _ answer valid listing
    constructor
    · rintro ⟨names, ended⟩
      rw [transfers] at ended
      have notFailed : ¬ img.inodeCount ≤ img.dirCount := by
        intro past
        rw [if_pos past] at ended
        cases ended
      rw [if_neg notFailed] at ended
      have late : 18 ≤ img.dirCount + 1 := by
        by_contra early
        simp only [if_neg early] at ended
        cases ended
      have early : ¬ 17 < img.dirCount := by
        intro many
        have seventeenth := names 17 many
        rw [transfers, if_neg (by omega)] at seventeenth
        cases congrArg Transfer.ret seventeenth
      exact ⟨valid, by omega, by omega⟩
    · rintro ⟨_, seventeen, enough⟩
      constructor
      · intro index below
        rw [transfers, if_neg (by omega), if_neg (by omega)]
      · rw [transfers, if_neg (by omega), seventeen, if_pos (by decide)]

/-- No directory is listed exactly: after `inode_count` calls there is nothing but -1. -/
theorem not_lists_exactly (listing : ListingAt pcb slot inode 0) :
    ¬ ListsExactly img (listingTransfer img answer slot.val pcb) := by
  intro lists
  have later := lists.afterEnd (max img.dirCount img.inodeCount) (Nat.le_max_left _ _)
  by_cases valid : inode = -1
  · subst valid
    rw [listing_refused answer listing] at later
    cases later
  · rw [listing_transfer answer valid listing, if_pos (Nat.le_max_right _ _)] at later
    cases later

/-- One read stays inside the directory exactly where it asks for that. -/
theorem reads_inside_iff (listing : ListingAt pcb slot inode pos) (request : Request) :
    ReadsInside img (pcb.fileDescriptorArray slot).filePos
        (request.run img answer slot.val pcb).1 ↔
      AsksInside img (pcb.fileDescriptorArray slot) request := by
  rw [(request_listing img answer listing request).1, AsksInside, listing.inode, listing.filePos]
  by_cases refused : inode = -1 ∨ request.bufIsNull
  · simp only [dirRead, if_pos refused, ReadsInside, true_or, true_iff]
    rcases refused with none | null
    · exact .inl none
    · exact .inr (.inl null)
  · rw [dirRead_eq refused]
    generalize toUint32 request.nbytes = length
    rw [← or_assoc, or_iff_right refused]
    by_cases past : img.inodeCount ≤ pos
    · simp [past, ReadsInside]
    · rw [if_neg past, or_iff_right past]
      have written : (img.bytes (Image.direntryAddr pos) length).length = length := by
        simp [Image.bytes]
      have field : length ≤ FILENAME_LEN → img.bytes (Image.direntryAddr pos) length =
          (img.direntries pos).filename.take length := by
        intro short
        simp only [Image.direntries, Image.bytes, ← List.map_take, List.take_range,
          Nat.min_eq_left short]
      simp only [ReadsInside, written]
      constructor
      · rintro (failed | ⟨below, short, _, _⟩)
        · -- -1 would be the answer to 2^32 - 1 bytes, and they have been stored
          obtain ⟨answer, none⟩ := Transfer.mk.inj failed
          rw [none, List.length_nil] at written
          rw [← written] at answer
          split at answer
          · cases answer
          · cases answer
        · exact ⟨below, short⟩
      · rintro ⟨below, short⟩
        refine .inr ⟨below, short, field short, ?_⟩
        split
        · exact Int.natCast_nonneg _
        · rw [toInt32_small (by simp only [FILENAME_LEN] at short; omega)]

end Reading

section Open

variable {img : Image} {pcb : Pcb} {filename : Option CharPtr} {dirEntry : DirEntry}

/-- A successful open of a directory starts at position 0. -/
theorem open_listing (found : readDentryByName (some img) filename = some dirEntry)
    (directory : dirEntry.filetype = TYPE_DIRECTORY)
    (opened : (fileDescriptorTableOpen (some img) pcb filename).1 ≠ -1) :
    ∃ slot : Fin MAX_NUM_FILES, (fileDescriptorTableOpen (some img) pcb filename).1 = slot.val ∧
      ListingAt (fileDescriptorTableOpen (some img) pcb filename).2 slot
        (toInt32 dirEntry.inodeNum) 0 := by
  have typed : opsOfType dirEntry.filetype = some .dir := by
    rw [directory]
    rfl
  obtain ⟨slot, fd, descriptor⟩ := open_bound found typed opened
  exact ⟨slot, fd, by simp [descriptor], by simp [descriptor], by simp [descriptor]⟩

/-- Whatever the image, reading a freshly opened directory does not list it exactly. -/
theorem directory_never_listed_exactly
    (found : readDentryByName (some img) filename = some dirEntry)
    (directory : dirEntry.filetype = TYPE_DIRECTORY)
    (opened : (fileDescriptorTableOpen (some img) pcb filename).1 ≠ -1) (answer : Transfer) :
    ¬ ListsExactly img (listingTransfer img answer
      (fileDescriptorTableOpen (some img) pcb filename).1
      (fileDescriptorTableOpen (some img) pcb filename).2) := by
  obtain ⟨slot, fd, listing⟩ := open_listing found directory opened
  rw [fd]
  exact not_lists_exactly answer listing

/-- In any run of reads on a freshly opened directory, all reads stay inside the directory if
    and only if all of them ask for that. -/
theorem directory_reads_inside_iff
    (found : readDentryByName (some img) filename = some dirEntry)
    (directory : dirEntry.filetype = TYPE_DIRECTORY)
    (opened : (fileDescriptorTableOpen (some img) pcb filename).1 ≠ -1) (answer : Transfer)
    (requests : List Request) :
    ∃ slot : Fin MAX_NUM_FILES,
      (fileDescriptorTableOpen (some img) pcb filename).1 = slot.val ∧
      ((readMachine img answer slot.val).EachStep (fun pcb request =>
          ReadsInside img (pcb.fileDescriptorArray slot).filePos
            (request.run img answer slot.val pcb).1)
          (fileDescriptorTableOpen (some img) pcb filename).2 requests ↔
        (readMachine img answer slot.val).EachStep (fun pcb request =>
          AsksInside img (pcb.fileDescriptorArray slot) request)
          (fileDescriptorTableOpen (some img) pcb filename).2 requests) := by
  obtain ⟨slot, fd, listing⟩ := open_listing found directory opened
  refine ⟨slot, fd, ?_⟩
  have run := Machine.Run.of_enabled (M := readMachine img answer slot.val) (fun _ _ => trivial)
    (fileDescriptorTableOpen (some img) pcb filename).2 requests
  refine run.eachStep_congr
    (I := fun pcb => ∃ pos, ListingAt pcb slot (toInt32 dirEntry.inodeNum) pos) ?_ ?_ ⟨0, listing⟩
  · rintro pcb request ⟨pos, listing⟩ _
    exact ⟨_, (request_listing img answer listing request).2⟩
  · rintro pcb request ⟨pos, listing⟩ _
    exact reads_inside_iff answer listing request

end Open

/-- A directory with itself as its only entry, in an image with one inode. -/
def dotOnly : Image where
  byte addr := ([(0, 1), (4, 1), (64, 0x2E), (96, 1)].lookup addr).getD 0

theorem dotOnly_found : readDentryByName (some dotOnly) (some (charPtr [0x2E])) =
    some (dotOnly.direntries 0) := by decide +kernel

theorem dotOnly_never_listed_exactly :
    ¬ ListsExactly dotOnly (listingTransfer dotOnly .failed
      (fileDescriptorTableOpen (some dotOnly) freshPcb (some (charPtr [0x2E]))).1
      (fileDescriptorTableOpen (some dotOnly) freshPcb (some (charPtr [0x2E]))).2) :=
  directory_never_listed_exactly dotOnly_found (by decide +kernel) (by decide +kernel) .failed

/-- The call after the only name fails, where the listing should end with 0. -/
theorem dotOnly_listing_fails :
    dotOnly.dirCount = 1 ∧ (dotOnly.direntries 0).filetype = TYPE_DIRECTORY ∧
      (fileDescriptorTableOpen (some dotOnly) freshPcb (some (charPtr [0x2E]))).1 = 2 ∧
      listingTransfer dotOnly .failed 2
        (fileDescriptorTableOpen (some dotOnly) freshPcb (some (charPtr [0x2E]))).2 1 = .failed ∧
      ¬ ListsExactly dotOnly (listingTransfer dotOnly .failed 2
        (fileDescriptorTableOpen (some dotOnly) freshPcb (some (charPtr [0x2E]))).2) := by
  have failed : listingTransfer dotOnly .failed 2
      (fileDescriptorTableOpen (some dotOnly) freshPcb (some (charPtr [0x2E]))).2 1 = .failed := by
    decide +kernel
  refine ⟨by decide +kernel, by decide +kernel, by decide +kernel, failed, ?_⟩
  intro lists
  have ended := lists.afterEnd 1 (by decide +kernel)
  rw [failed] at ended
  cases ended

theorem dotOnly_reads_inside_iff :
    ∃ slot : Fin MAX_NUM_FILES,
      (fileDescriptorTableOpen (some dotOnly) freshPcb (some (charPtr [0x2E]))).1 = slot.val ∧
      ((readMachine dotOnly .failed slot.val).EachStep (fun pcb request =>
          ReadsInside dotOnly (pcb.fileDescriptorArray slot).filePos
            (request.run dotOnly .failed slot.val pcb).1)
          (fileDescriptorTableOpen (some dotOnly) freshPcb (some (charPtr [0x2E]))).2
          [⟨false, 32⟩, ⟨true, 8⟩, ⟨false, -1⟩] ↔
        (readMachine dotOnly .failed slot.val).EachStep (fun pcb request =>
          AsksInside dotOnly (pcb.fileDescriptorArray slot) request)
          (fileDescriptorTableOpen (some dotOnly) freshPcb (some (charPtr [0x2E]))).2
          [⟨false, 32⟩, ⟨true, 8⟩, ⟨false, -1⟩]) :=
  directory_reads_inside_iff dotOnly_found (by decide +kernel) (by decide +kernel) .failed _

/-- Asked for 40 bytes, the only entry gives away its filetype and inode number as well. -/
theorem dotOnly_read_leaks :
    (dotOnly.direntries 0).filetype = TYPE_DIRECTORY ∧
      (fileDescriptorTableOpen (some dotOnly) freshPcb (some (charPtr [0x2E]))).1 = 2 ∧
      ¬ (readMachine dotOnly .failed 2).EachStep (fun pcb request =>
          ReadsInside dotOnly (pcb.fileDescriptorArray ⟨2, by decide⟩).filePos
            (request.run dotOnly .failed 2 pcb).1)
          (fileDescriptorTableOpen (some dotOnly) freshPcb (some (charPtr [0x2E]))).2
          [⟨false, 40⟩] := by
  decide +kernel

end LightOS.Descriptor
