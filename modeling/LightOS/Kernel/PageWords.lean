import LightOS.Kernel.Video
import LightOS.Lib.Bitfields
import LightOS.Lib.Tables
import Mathlib.Tactic.IntervalCases

/-! # The words of the page tables

`pde` and `pte` as paging.h lays them out, the routines as the stores to their members that they
are, and the walk of the processor over the words that come out.  It reads positions of bits and
knows of no member; it translates as `Mmu.translate` does.
-/

namespace LightOS.Kernel

open Lib

/-- The number of entries of a table. -/
def SIZE : Nat := 1024

/-- A member of `pde` and `pte`: its lowest bit and its width. -/
structure Member where
  low : Nat
  width : Nat

namespace Member

def present : Member := ⟨0, 1⟩
def writeRead : Member := ⟨1, 1⟩
def uS : Member := ⟨2, 1⟩
def writeThrough : Member := ⟨3, 1⟩
def cacheDisable : Member := ⟨4, 1⟩
def access : Member := ⟨5, 1⟩
def dirty : Member := ⟨6, 1⟩

/-- In a `pte` it is called `pat`. -/
def pageSize : Member := ⟨7, 1⟩

def glob : Member := ⟨8, 1⟩
def avail : Member := ⟨9, 3⟩
def address : Member := ⟨12, 20⟩

def read (m : Member) (word : Nat) : Nat := bitsAt word m.low m.width

/-- No bit of one is a bit of the other. -/
def apart (m other : Member) : Bool :=
  m.low + m.width ≤ other.low || other.low + other.width ≤ m.low

end Member

/-- Assignments to members, one after the other. -/
def assign (word : Nat) (assignments : List (Member × Nat)) : Nat :=
  assignments.foldl (fun word a => setBits word a.1.low a.1.width a.2) word

/-- All members of an entry, in the order in which every routine that sets up an entry does it.
    The others are set to 0 everywhere. -/
def entry (present writeRead uS cacheDisable pageSize glob address : Nat) :
    List (Member × Nat) :=
  [(.present, present), (.writeRead, writeRead), (.uS, uS), (.writeThrough, 0),
    (.cacheDisable, cacheDisable), (.access, 0), (.dirty, 0), (.pageSize, pageSize),
    (.glob, glob), (.avail, 0), (.address, address)]

def absentEntry : List (Member × Nat) := entry 0 0 0 0 0 0 0

def setEntry (table : Nat → Nat) (i : Nat) (assignments : List (Member × Nat)) : Nat → Nat :=
  Function.update table i (assign (table i) assignments)

/-- `page_dir`, `pg_tab_1` and `vidmap_pg_tab_1` -/
structure PageWords where
  pageDir : Nat → Nat
  pgTab1 : Nat → Nat
  vidmapPgTab1 : Nat → Nat

/-- Where the linker has put them, on multiples of `ALIGNER`. -/
structure Placement where
  pageDir : Nat
  pgTab1 : Nat
  vidmapPgTab1 : Nat
  aligned : pageDir % 2 ^ 12 = 0 ∧ pgTab1 % 2 ^ 12 = 0 ∧ vidmapPgTab1 % 2 ^ 12 = 0
  small : pageDir < 2 ^ 32 ∧ pgTab1 < 2 ^ 32 ∧ vidmapPgTab1 < 2 ^ 32

/-- The pages that `page_initialize` maps, by index, with the frames that it maps them to. -/
def videoFrames : List (Nat × Nat) :=
  [(VIDEO_DIRECT / 2 ^ 12, VIDEO_MEM / 2 ^ 12), (VIDEO_MEM / 2 ^ 12, VIDEO_MEM / 2 ^ 12),
    (0xB9, 0xB9), (0xBA, 0xBA), (0xBB, 0xBB)]

/-- The loops over entries that are not present. -/
def clearEntries (indices : List Nat) (table : Nat → Nat) : Nat → Nat :=
  indices.foldl (fun table i => setEntry table i absentEntry) table

/-- The entries of video memory. -/
def mapVideoFrames (table : Nat → Nat) : Nat → Nat :=
  videoFrames.foldl (fun table page => setEntry table page.1 (entry 1 1 0 0 0 0 page.2)) table

namespace PageWords

variable (at_ : Placement)

/-- `page_initialize` -/
def pageInitialize (w : PageWords) : PageWords :=
  let first := setEntry w.pageDir 0 (entry 1 1 0 0 0 0 (at_.pgTab1 / 2 ^ 12))
  let kernel := setEntry first 1 (entry 1 1 0 1 1 1 0x00400)
  { pageDir := clearEntries (List.range' 2 (SIZE - 2)) kernel
    pgTab1 := mapVideoFrames (clearEntries (List.range SIZE) w.pgTab1)
    vidmapPgTab1 := clearEntries (List.range SIZE) w.vidmapPgTab1 }

/-- `paging_execute` -/
def pagingExecute (w : PageWords) (pid : Nat) : PageWords :=
  { w with
    pageDir := setEntry w.pageDir Mmu.userIndex
      (entry 1 1 1 0 1 0 (0x00400 + 0x00400 + pid * 0x00400)) }

/-- `paging_video_memory`, with the page that it chooses and the flag that it finds in the
    control block. -/
def pagingVideoMemory (w : PageWords) (page : Nat) (vidmap : Bool) : PageWords :=
  { w with
    pgTab1 := setEntry w.pgTab1 (VIDEO_MEM / 2 ^ 12) [(.address, page)]
    vidmapPgTab1 := setEntry (setEntry w.vidmapPgTab1 0 [(.address, page)]) 0
      [(.present, vidmap.toNat)] }

/-- `syscall_enable_vidmap_paging` -/
def enableVidmapPaging (w : PageWords) : PageWords :=
  { w with
    pageDir := setEntry w.pageDir vidmapIndex (entry 1 1 1 0 0 0 (at_.vidmapPgTab1 / 2 ^ 12))
    vidmapPgTab1 := setEntry w.vidmapPgTab1 0 (entry 1 1 1 0 0 0 (VIDEO_MEM / 2 ^ 12)) }

end PageWords

/-- What `paging_video_memory` does to the tables of an `Mmu`. -/
def Mmu.pagingVideoMemory (mmu : Mmu) (page : Nat) (vidmap : Bool) : Mmu :=
  { mmu with
    pgTab1 := Function.update mmu.pgTab1 (VIDEO_MEM / PAGE_SIZE)
      { mmu.pgTab1 (VIDEO_MEM / PAGE_SIZE) with address := page }
    vidmapPgTab1 := Function.update (Function.update mmu.vidmapPgTab1 0
      { mmu.vidmapPgTab1 0 with address := page }) 0
      { mmu.vidmapPgTab1 0 with address := page, present := vidmap } }

/-- The tables, by the members of `PageWords`. -/
inductive TableName
  | pageDir | pgTab1 | vidmapPgTab1

/-- What happens to the tables: the routines that write entries, and the processor, which marks
    entries as accessed or dirty when it uses them. -/
inductive PageEvent
  | pagingExecute (pid : Nat)
  | pagingVideoMemory (page : Nat) (vidmap : Bool)
  | enableVidmapPaging
  | mark (table : TableName) (i : Nat) (dirty : Bool)

/-- The mark of the processor. -/
def marked (word : Nat) (dirty : Bool) : Nat :=
  assign word ((.access, 1) :: if dirty then [(.dirty, 1)] else [])

def PageWords.step (at_ : Placement) (w : PageWords) : PageEvent → PageWords
  | .pagingExecute pid => w.pagingExecute pid
  | .pagingVideoMemory page vidmap => w.pagingVideoMemory page vidmap
  | .enableVidmapPaging => w.enableVidmapPaging at_
  | .mark .pageDir i dirty =>
      { w with pageDir := Function.update w.pageDir i (marked (w.pageDir i) dirty) }
  | .mark .pgTab1 i dirty =>
      { w with pgTab1 := Function.update w.pgTab1 i (marked (w.pgTab1 i) dirty) }
  | .mark .vidmapPgTab1 i dirty =>
      { w with vidmapPgTab1 := Function.update w.vidmapPgTab1 i (marked (w.vidmapPgTab1 i) dirty) }

def Mmu.pageStep (mmu : Mmu) : PageEvent → Mmu
  | .pagingExecute pid => mmu.pagingExecute pid
  | .pagingVideoMemory page vidmap => mmu.pagingVideoMemory page vidmap
  | .enableVidmapPaging => mmu.enableVidmapPaging
  | .mark _ _ _ => mmu

/-- The registers that control paging. -/
structure ControlRegisters where
  cr0 : Nat
  cr3 : Nat
  cr4 : Nat

/-- `paging_enable` -/
def pagingEnable (pageDir : Nat) (registers : ControlRegisters) : ControlRegisters where
  cr0 := registers.cr0 ||| 0x80000001
  cr3 := pageDir
  cr4 := registers.cr4 ||| 0x90

/-- The processor's walk over the tables in memory: a frame of 4 MB if bit 7 of the directory
    entry is set and CR4 allows it, else a table.  In the entry of such a frame the bits from 13
    to 21 are reserved. -/
def walk (registers : ControlRegisters) (load : Nat → Nat) (va : Nat) : Option Nat :=
  if registers.cr0.testBit 31 then
    let pde := load (2 ^ 12 * (registers.cr3 / 2 ^ 12) + 4 * (va / 2 ^ 22))
    if bitsAt pde 0 1 = 0 then none
    else if bitsAt pde 7 1 = 1 ∧ registers.cr4.testBit 4 then
      if bitsAt pde 13 9 = 0 then some (2 ^ 22 * bitsAt pde 22 10 + va % 2 ^ 22) else none
    else
      let pte := load (2 ^ 12 * bitsAt pde 12 20 + 4 * (va / 2 ^ 12 % 2 ^ 10))
      if bitsAt pte 0 1 = 0 then none else some (2 ^ 12 * bitsAt pte 12 20 + va % 2 ^ 12)
  else some va

/-- The entries that the walk uses let a program of level 3 write. -/
def walkPermits (registers : ControlRegisters) (load : Nat → Nat) (va : Nat) : Bool :=
  let pde := load (2 ^ 12 * (registers.cr3 / 2 ^ 12) + 4 * (va / 2 ^ 22))
  let pte := load (2 ^ 12 * bitsAt pde 12 20 + 4 * (va / 2 ^ 12 % 2 ^ 10))
  bitsAt pde 2 1 == 1 && bitsAt pde 1 1 == 1 &&
    (bitsAt pde 7 1 == 1 || bitsAt pte 2 1 == 1 && bitsAt pte 1 1 == 1)

/-- Memory holds the tables where they have been put. -/
structure Placement.Loads (at_ : Placement) (load : Nat → Nat) (w : PageWords) : Prop where
  pageDir : ∀ i < SIZE, load (at_.pageDir + 4 * i) = w.pageDir i
  pgTab1 : ∀ i < SIZE, load (at_.pgTab1 + 4 * i) = w.pgTab1 i
  vidmapPgTab1 : ∀ i < SIZE, load (at_.vidmapPgTab1 + 4 * i) = w.vidmapPgTab1 i

/-- The address member of a directory entry. -/
def PdeAddress.field (at_ : Placement) : PdeAddress → Nat
  | .frame number => number
  | .pgTab1 => at_.pgTab1 / 2 ^ 12
  | .vidmapPgTab1 => at_.vidmapPgTab1 / 2 ^ 12

/-- A word holds an entry, whatever its other members are. -/
structure Pde.In (at_ : Placement) (pde : Pde) (word : Nat) : Prop where
  present : Member.present.read word = pde.present.toNat
  writeRead : Member.writeRead.read word = pde.writeRead.toNat
  uS : Member.uS.read word = pde.uS.toNat
  pageSize : Member.pageSize.read word = pde.pageSize.toNat
  address : Member.address.read word = pde.address.field at_
  /-- Large pages are frames of 4 MB, and nothing else is. -/
  large : pde.present → match pde.address with
    | .frame number => pde.pageSize = true ∧ number % 2 ^ 10 = 0
    | _ => pde.pageSize = false

structure Pte.In (pte : Pte) (word : Nat) : Prop where
  present : Member.present.read word = pte.present.toNat
  writeRead : Member.writeRead.read word = pte.writeRead.toNat
  uS : Member.uS.read word = pte.uS.toNat
  address : Member.address.read word = pte.address

/-- The words hold the tables of an `Mmu`. -/
structure PageWords.Hold (at_ : Placement) (w : PageWords) (mmu : Mmu) : Prop where
  pageDir : ∀ i < SIZE, (mmu.pageDir i).In at_ (w.pageDir i)
  pgTab1 : ∀ i < SIZE, (mmu.pgTab1 i).In (w.pgTab1 i)
  vidmapPgTab1 : ∀ i < SIZE, (mmu.vidmapPgTab1 i).In (w.vidmapPgTab1 i)

section PageWords

variable {at_ : Placement} {w : PageWords} {mmu : Mmu} {word : Nat}

/-- A member after stores to others. -/
theorem read_assign_of_apart {m : Member} {assignments : List (Member × Nat)}
    (apart : (assignments.map Prod.fst).all m.apart) :
    m.read (assign word assignments) = m.read word := by
  induction assignments generalizing word with
  | nil => rfl
  | cons first rest ih =>
      rw [List.map_cons, List.all_cons, Bool.and_eq_true] at apart
      have other : m.low + m.width ≤ first.1.low ∨ first.1.low + first.1.width ≤ m.low := by
        simpa [Member.apart] using apart.1
      rw [assign, List.foldl_cons, ← assign, ih apart.2]
      exact bitsAt_setBits_of_apart word first.2 other

/-- A member after a store to it, with stores to others behind it. -/
theorem read_assign {m : Member} {value : Nat} (before : List (Member × Nat))
    {behind : List (Member × Nat)} (apart : (behind.map Prod.fst).all m.apart) :
    m.read (assign word (before ++ (m, value) :: behind)) = value % 2 ^ m.width := by
  have split : assign word (before ++ (m, value) :: behind) =
      assign (setBits (assign word before) m.low m.width value) behind := by
    rw [assign, List.foldl_append, List.foldl_cons]
    rfl
  rw [split, read_assign_of_apart apart]
  exact bitsAt_setBits _ _ _ _

/-- The members of an entry that has been set up. -/
theorem read_entry (word present writeRead uS cacheDisable pageSize glob address : Nat) :
    let stored := assign word (entry present writeRead uS cacheDisable pageSize glob address)
    Member.present.read stored = present % 2 ∧ Member.writeRead.read stored = writeRead % 2 ∧
      Member.uS.read stored = uS % 2 ∧ Member.pageSize.read stored = pageSize % 2 ∧
      Member.address.read stored = address % 2 ^ 20 :=
  ⟨read_assign [] rfl, read_assign [_] rfl, read_assign [_, _] rfl,
    read_assign [_, _, _, _, _, _, _] rfl, read_assign [_, _, _, _, _, _, _, _, _, _] rfl⟩

theorem pde_in_entry (pde : Pde) (word cacheDisable glob : Nat) {address : Nat}
    (field : address % 2 ^ 20 = pde.address.field at_)
    (large : pde.present → match pde.address with
      | .frame number => pde.pageSize = true ∧ number % 2 ^ 10 = 0
      | _ => pde.pageSize = false) :
    pde.In at_ (assign word (entry pde.present.toNat pde.writeRead.toNat pde.uS.toNat cacheDisable
      pde.pageSize.toNat glob address)) := by
  obtain ⟨present, writeRead, uS, pageSize, stored⟩ := read_entry word pde.present.toNat
    pde.writeRead.toNat pde.uS.toNat cacheDisable pde.pageSize.toNat glob address
  have flag : ∀ b : Bool, b.toNat % 2 = b.toNat := fun b => Nat.mod_eq_of_lt b.toNat_lt
  constructor
  · rw [present, flag]
  · rw [writeRead, flag]
  · rw [uS, flag]
  · rw [pageSize, flag]
  · rw [stored, field]
  · exact large

theorem pte_in_entry (pte : Pte) (word : Nat) (small : pte.address < 2 ^ 20) :
    pte.In (assign word (entry pte.present.toNat pte.writeRead.toNat pte.uS.toNat 0 0 0
      pte.address)) := by
  obtain ⟨present, writeRead, uS, _, stored⟩ := read_entry word pte.present.toNat
    pte.writeRead.toNat pte.uS.toNat 0 0 0 pte.address
  have flag : ∀ b : Bool, b.toNat % 2 = b.toNat := fun b => Nat.mod_eq_of_lt b.toNat_lt
  constructor
  · rw [present, flag]
  · rw [writeRead, flag]
  · rw [uS, flag]
  · rw [stored, Nat.mod_eq_of_lt small]

/-- The marks of the processor touch no other member. -/
theorem read_marked {m : Member} (word : Nat) (dirty : Bool) (access : m.apart .access)
    (dirty_ : m.apart .dirty) : m.read (marked word dirty) = m.read word := by
  cases dirty with
  | false => exact read_assign_of_apart (by simp [access])
  | true => exact read_assign_of_apart (by simp [access, dirty_])

theorem Pde.In.marked {pde : Pde} (held : pde.In at_ word) (dirty : Bool) :
    pde.In at_ (marked word dirty) := by
  constructor
  · rw [read_marked word dirty rfl rfl, held.present]
  · rw [read_marked word dirty rfl rfl, held.writeRead]
  · rw [read_marked word dirty rfl rfl, held.uS]
  · rw [read_marked word dirty rfl rfl, held.pageSize]
  · rw [read_marked word dirty rfl rfl, held.address]
  · exact held.large

theorem Pte.In.marked {pte : Pte} (held : pte.In word) (dirty : Bool) :
    pte.In (marked word dirty) := by
  constructor
  · rw [read_marked word dirty rfl rfl, held.present]
  · rw [read_marked word dirty rfl rfl, held.writeRead]
  · rw [read_marked word dirty rfl rfl, held.uS]
  · rw [read_marked word dirty rfl rfl, held.address]

/-- `.address = page` -/
theorem Pte.In.setAddress {pte : Pte} (held : pte.In word) {page : Nat} (small : page < 2 ^ 20) :
    { pte with address := page }.In (assign word [(.address, page)]) := by
  constructor
  · rw [read_assign_of_apart rfl, held.present]
  · rw [read_assign_of_apart rfl, held.writeRead]
  · rw [read_assign_of_apart rfl, held.uS]
  · exact (read_assign [] rfl).trans (Nat.mod_eq_of_lt small)

/-- `.present = present` -/
theorem Pte.In.setPresent {pte : Pte} (held : pte.In word) (present : Bool) :
    { pte with present }.In (assign word [(.present, present.toNat)]) := by
  constructor
  · exact (read_assign [] rfl).trans (Nat.mod_eq_of_lt present.toNat_lt)
  · rw [read_assign_of_apart rfl, held.writeRead]
  · rw [read_assign_of_apart rfl, held.uS]
  · rw [read_assign_of_apart rfl, held.address]

/-- One entry of a table is replaced, in the words and in the `Mmu` alike. -/
theorem update_in {ε : Type} {In : ε → Nat → Prop} {entries : Nat → ε} {words : Nat → Nat}
    (held : ∀ i < SIZE, In (entries i) (words i)) {k : Nat} {new : ε} {newWord : Nat}
    (replaced : In new newWord) :
    ∀ i < SIZE, In (Function.update entries k new i) (Function.update words k newWord i) := by
  intro i inside
  by_cases here : i = k
  · subst here
    rw [Function.update_self, Function.update_self]
    exact replaced
  · rw [Function.update_of_ne here, Function.update_of_ne here]
    exact held i inside

theorem frame_lt {address : Nat} (small : address < 2 ^ 32) : address / 2 ^ 12 < 2 ^ 20 := by
  omega

theorem videoFrames_lookup (i : Nat) : videoFrames.lookup i =
    if i = VIDEO_DIRECT / PAGE_SIZE then some (VIDEO_MEM / PAGE_SIZE)
    else if VIDEO_MEM / PAGE_SIZE ≤ i ∧ i ≤ VIDEO_MEM / PAGE_SIZE + 3 then some i else none := by
  have direct : VIDEO_DIRECT / PAGE_SIZE = 0xB7 := rfl
  have video : VIDEO_MEM / PAGE_SIZE = 0xB8 := rfl
  rw [direct, video]
  by_cases listed : 0xB7 ≤ i ∧ i ≤ 0xBB
  · obtain ⟨low, high⟩ := listed
    interval_cases i <;> rfl
  · have absent : videoFrames.lookup i = none := by
      rw [List.lookup_eq_none_iff]
      intro page member
      rw [bne_iff_ne]
      rintro rfl
      have range : ∀ page ∈ videoFrames, 0xB7 ≤ page.1 ∧ page.1 ≤ 0xBB := by decide
      exact listed (range page member)
    rw [absent, if_neg (by omega), if_neg (by omega)]

theorem clearEntries_entry {indices : List Nat} (distinct : indices.Nodup) (table : Nat → Nat)
    (i : Nat) : clearEntries indices table i =
      if i ∈ indices then assign (table i) absentEntry else table i :=
  foldl_update_list (fun _ word => assign word absentEntry) distinct table i

theorem mapVideoFrames_entry (table : Nat → Nat) (i : Nat) : mapVideoFrames table i =
    ((videoFrames.lookup i).map fun frame => assign (table i) (entry 1 1 0 0 0 0 frame)).getD
      (table i) := by
  have distinct : (videoFrames.map Prod.fst).Nodup := by decide
  exact foldl_update_lookup (fun frame word => assign word (entry 1 1 0 0 0 0 frame)) distinct table i

/-- `page_initialize` fills the tables of an `Mmu`. -/
theorem PageWords.pageInitialize_hold (at_ : Placement) (w : PageWords) (mmu : Mmu) :
    (w.pageInitialize at_).Hold at_ mmu.pageInitialize := by
  have absent : ∀ word, Mmu.absentPte.In (assign word absentEntry) :=
    fun word => pte_in_entry _ word (by decide)
  constructor
  · intro i inside
    simp only [pageInitialize, clearEntries_entry List.nodup_range', List.mem_range'_1]
    match i with
    | 0 =>
        rw [if_neg (by omega)]
        exact pde_in_entry ⟨true, true, false, false, .pgTab1⟩ (w.pageDir 0) 0 0
          (Nat.mod_eq_of_lt (frame_lt at_.small.2.1)) fun _ => rfl
    | 1 =>
        rw [if_neg (by omega)]
        exact pde_in_entry ⟨true, true, false, true, .frame 0x400⟩ (w.pageDir 1) 1 1 rfl
          fun _ => ⟨rfl, rfl⟩
    | i + 2 =>
        rw [if_pos (by simp only [SIZE] at inside ⊢; omega)]
        exact pde_in_entry Mmu.absentPde _ 0 0 rfl fun present => nomatch present
  · intro i inside
    simp only [pageInitialize, mapVideoFrames_entry, clearEntries_entry List.nodup_range,
      List.mem_range, inside, ite_true, videoFrames_lookup, Mmu.pageInitialize]
    have frameFits : VIDEO_MEM / PAGE_SIZE < 2 ^ 20 := by decide
    by_cases direct : i = VIDEO_DIRECT / PAGE_SIZE
    · rw [if_pos direct, if_pos direct, Option.map_some, Option.getD_some]
      exact pte_in_entry ⟨true, true, false, VIDEO_MEM / PAGE_SIZE⟩ _ frameFits
    · rw [if_neg direct, if_neg direct]
      by_cases video : VIDEO_MEM / PAGE_SIZE ≤ i ∧ i ≤ VIDEO_MEM / PAGE_SIZE + 3
      · rw [if_pos video, if_pos video, Option.map_some, Option.getD_some]
        have small : i < 2 ^ 20 := Nat.lt_trans inside (by decide)
        exact pte_in_entry ⟨true, true, false, i⟩ _ small
      · rw [if_neg video, if_neg video, Option.map_none, Option.getD_none]
        exact absent _
  · intro i inside
    simp only [pageInitialize, clearEntries_entry List.nodup_range, List.mem_range, inside, ite_true]
    exact absent _

/-- Pages are numbered with 20 bits. -/
def PageEvent.Fits : PageEvent → Prop
  | .pagingVideoMemory page _ => page < 2 ^ 20
  | _ => True

/-- One entry is replaced, or left as it is, in the words alone. -/
theorem update_word_in {ε : Type} {In : ε → Nat → Prop} {entries : Nat → ε} {words : Nat → Nat}
    (held : ∀ i < SIZE, In (entries i) (words i)) {k newWord : Nat}
    (replaced : k < SIZE → In (entries k) newWord) :
    ∀ i < SIZE, In (entries i) (Function.update words k newWord i) := by
  intro i inside
  by_cases here : i = k
  · subst here
    rw [Function.update_self]
    exact replaced inside
  · rw [Function.update_of_ne here]
    exact held i inside

theorem PageWords.Hold.step (hold : w.Hold at_ mmu) {event : PageEvent} (fits : event.Fits) :
    (w.step at_ event).Hold at_ (mmu.pageStep event) := by
  cases event with
  | pagingExecute pid =>
      constructor
      · refine update_in hold.pageDir (pde_in_entry (Mmu.userEntry pid) _ 0 0 rfl fun _ => ⟨rfl, ?_⟩)
        omega
      · exact hold.pgTab1
      · exact hold.vidmapPgTab1
  | pagingVideoMemory page vidmap =>
      have inside : VIDEO_MEM / 2 ^ 12 < SIZE := by decide
      have first := (hold.vidmapPgTab1 0 (by decide)).setAddress fits
      constructor
      · exact hold.pageDir
      · exact update_in hold.pgTab1 ((hold.pgTab1 _ inside).setAddress fits)
      · have second := first.setPresent vidmap
        refine update_in (update_in hold.vidmapPgTab1 first) ?_
        rw [setEntry, Function.update_self]
        exact second
  | enableVidmapPaging =>
      constructor
      · exact update_in hold.pageDir (pde_in_entry vidmapPde _ 0 0
          (Nat.mod_eq_of_lt (frame_lt at_.small.2.2)) fun _ => rfl)
      · exact hold.pgTab1
      · exact update_in hold.vidmapPgTab1 (pte_in_entry
          ⟨true, true, true, VIDEO_MEM / PAGE_SIZE⟩ _ (by decide))
  | mark table i dirty =>
      cases table with
      | pageDir =>
          exact ⟨update_word_in hold.pageDir fun inside => (hold.pageDir i inside).marked dirty,
            hold.pgTab1, hold.vidmapPgTab1⟩
      | pgTab1 =>
          exact ⟨hold.pageDir, update_word_in hold.pgTab1 fun inside =>
            (hold.pgTab1 i inside).marked dirty, hold.vidmapPgTab1⟩
      | vidmapPgTab1 =>
          exact ⟨hold.pageDir, hold.pgTab1, update_word_in hold.vidmapPgTab1 fun inside =>
            (hold.vidmapPgTab1 i inside).marked dirty⟩

theorem PageWords.Hold.steps (hold : w.Hold at_ mmu) {events : List PageEvent}
    (fits : ∀ event ∈ events, event.Fits) :
    (events.foldl (PageWords.step at_) w).Hold at_ (events.foldl Mmu.pageStep mmu) := by
  induction events generalizing w mmu with
  | nil => exact hold
  | cons event events ih =>
      rw [List.forall_mem_cons] at fits
      exact ih (hold.step fits.1) fits.2

/-- The frame of a large page is what is left of the address member without its lower half, and
    nothing is in the lower half. -/
theorem largeFrame {number : Nat} (held : bitsAt word 12 20 = number)
    (aligned : number % 2 ^ 10 = 0) :
    bitsAt word 13 9 = 0 ∧ bitsAt word 22 10 = number / 2 ^ 10 := by
  have reserved := bitsAt_upper word 12 1 9
  have lower := bitsAt_lower word 12 10 10
  have upper := bitsAt_upper word 12 10 10
  rw [held] at lower upper
  constructor
  · rw [reserved, lower, aligned]
    rfl
  · exact upper

/-- A table entry is found where the walk looks for it, and gives the page. -/
theorem walk_table {table : Nat} {words : Nat → Nat} {entries : Nat → Pte} {load : Nat → Nat}
    (aligned : table % 2 ^ 12 = 0) (loads : ∀ i < SIZE, load (table + 4 * i) = words i)
    (held : ∀ i < SIZE, (entries i).In (words i)) (field : bitsAt word 12 20 = table / 2 ^ 12)
    (va : Nat) :
    let pte := load (2 ^ 12 * bitsAt word 12 20 + 4 * (va / 2 ^ 12 % 2 ^ 10))
    (if bitsAt pte 0 1 = 0 then none else some (2 ^ 12 * bitsAt pte 12 20 + va % 2 ^ 12)) =
      Mmu.pageOf (entries (va / PAGE_SIZE % 1024)) va := by
  have index : va / 2 ^ 12 % 2 ^ 10 < SIZE := Nat.mod_lt _ (by decide)
  have base : 2 ^ 12 * bitsAt word 12 20 = table := by
    rw [field]
    omega
  have entry := held _ index
  have present : bitsAt (words (va / 2 ^ 12 % 2 ^ 10)) 0 1 = _ := entry.present
  have address : bitsAt (words (va / 2 ^ 12 % 2 ^ 10)) 12 20 = _ := entry.address
  simp only [base, loads _ index, present, address]
  show _ = Mmu.pageOf (entries (va / 2 ^ 12 % 2 ^ 10)) va
  generalize entries (va / 2 ^ 12 % 2 ^ 10) = pte
  cases flag : pte.present with
  | false => simp [Mmu.pageOf, flag]
  | true => simp [Mmu.pageOf, flag, PAGE_SIZE]

/-- The walk over the words of an `Mmu` gives its translation. -/
theorem PageWords.Hold.walk_eq (hold : w.Hold at_ mmu) {load : Nat → Nat} (loads : at_.Loads load w)
    (registers : ControlRegisters) {va : Nat} (small : va < 2 ^ 32) :
    walk (pagingEnable at_.pageDir registers) load va = mmu.translate va := by
  have enabled : (registers.cr0 ||| 0x80000001).testBit 31 = true := by
    rw [Nat.testBit_or]
    exact Bool.or_true _
  have large : (registers.cr4 ||| 0x90).testBit 4 = true := by
    rw [Nat.testBit_or]
    exact Bool.or_true _
  have index : va / 2 ^ 22 < SIZE := by
    simp only [SIZE]
    omega
  have aligned : 2 ^ 12 * (at_.pageDir / 2 ^ 12) = at_.pageDir := by
    have := at_.aligned.1
    omega
  have held := hold.pageDir _ index
  simp only [walk, pagingEnable, enabled, large, aligned, loads.pageDir _ index, ite_true, and_true,
    Mmu.translate]
  generalize mmu.pageDir (va / 2 ^ 22) = pde at held
  generalize w.pageDir (va / 2 ^ 22) = word at held
  have present : bitsAt word 0 1 = _ := held.present
  have pageSize : bitsAt word 7 1 = _ := held.pageSize
  have address : bitsAt word 12 20 = _ := held.address
  rw [present, pageSize]
  cases flag : pde.present with
  | false => simp
  | true =>
      have shape := held.large flag
      cases target : pde.address with
      | frame number =>
          rw [target] at shape address
          obtain ⟨reserved, frame⟩ := largeFrame address shape.2
          simp [shape.1, reserved, frame, PdeAddress.field]
      | pgTab1 =>
          rw [target] at shape address
          have table := walk_table at_.aligned.2.1 loads.pgTab1 hold.pgTab1 address va
          rw [show pde.pageSize = false from shape, if_neg (by decide), if_neg (by decide),
            if_pos rfl]
          exact table
      | vidmapPgTab1 =>
          rw [target] at shape address
          have table := walk_table at_.aligned.2.2 loads.vidmapPgTab1 hold.vidmapPgTab1 address va
          rw [show pde.pageSize = false from shape, if_neg (by decide), if_neg (by decide),
            if_pos rfl]
          exact table

/-- The members of a table entry that decide on writes. -/
theorem permits_table {table : Nat} {words : Nat → Nat} {entries : Nat → Pte} {load : Nat → Nat}
    (aligned : table % 2 ^ 12 = 0) (loads : ∀ i < SIZE, load (table + 4 * i) = words i)
    (held : ∀ i < SIZE, (entries i).In (words i)) (field : bitsAt word 12 20 = table / 2 ^ 12)
    (va : Nat) :
    let pte := load (2 ^ 12 * bitsAt word 12 20 + 4 * (va / 2 ^ 12 % 2 ^ 10))
    (bitsAt pte 2 1 == 1 && bitsAt pte 1 1 == 1) =
      ((entries (va / PAGE_SIZE % 1024)).uS && (entries (va / PAGE_SIZE % 1024)).writeRead) := by
  have index : va / 2 ^ 12 % 2 ^ 10 < SIZE := Nat.mod_lt _ (by decide)
  have base : 2 ^ 12 * bitsAt word 12 20 = table := by
    rw [field]
    omega
  have entry := held _ index
  have uS : bitsAt (words (va / 2 ^ 12 % 2 ^ 10)) 2 1 = _ := entry.uS
  have writeRead : bitsAt (words (va / 2 ^ 12 % 2 ^ 10)) 1 1 = _ := entry.writeRead
  simp only [base, loads _ index, uS, writeRead]
  show _ = ((entries (va / 2 ^ 12 % 2 ^ 10)).uS && (entries (va / 2 ^ 12 % 2 ^ 10)).writeRead)
  generalize entries (va / 2 ^ 12 % 2 ^ 10) = pte
  cases pte.uS <;> cases pte.writeRead <;> rfl

/-- And lets programs write where the `Mmu` does. -/
theorem PageWords.Hold.permits_eq (hold : w.Hold at_ mmu) {load : Nat → Nat}
    (loads : at_.Loads load w) (registers : ControlRegisters) {va : Nat} (small : va < 2 ^ 32)
    (mapped : (mmu.translate va).isSome) :
    walkPermits (pagingEnable at_.pageDir registers) load va = mmu.userWritable va := by
  have index : va / 2 ^ 22 < SIZE := by
    simp only [SIZE]
    omega
  have aligned : 2 ^ 12 * (at_.pageDir / 2 ^ 12) = at_.pageDir := by
    have := at_.aligned.1
    omega
  have held := hold.pageDir _ index
  simp only [walkPermits, pagingEnable, aligned, loads.pageDir _ index, Mmu.userWritable,
    Mmu.translate] at mapped ⊢
  generalize mmu.pageDir (va / 2 ^ 22) = pde at held mapped ⊢
  generalize w.pageDir (va / 2 ^ 22) = word at held ⊢
  have writeRead : bitsAt word 1 1 = _ := held.writeRead
  have uS : bitsAt word 2 1 = _ := held.uS
  have pageSize : bitsAt word 7 1 = _ := held.pageSize
  have address : bitsAt word 12 20 = _ := held.address
  have one : ∀ b : Bool, (b.toNat == 1) = b := by decide
  rw [writeRead, uS, pageSize, one, one, one]
  cases flag : pde.present with
  | false => simp [flag] at mapped
  | true =>
      have shape := held.large flag
      cases target : pde.address with
      | frame number =>
          rw [target] at shape
          rw [shape.1, Bool.true_or]
      | pgTab1 =>
          rw [target] at shape address
          rw [show pde.pageSize = false from shape, Bool.false_or]
          exact congrArg _ (permits_table at_.aligned.2.1 loads.pgTab1 hold.pgTab1 address va)
      | vidmapPgTab1 =>
          rw [target] at shape address
          rw [show pde.pageSize = false from shape, Bool.false_or]
          exact congrArg _
            (permits_table at_.aligned.2.2 loads.vidmapPgTab1 hold.vidmapPgTab1 address va)

/-- What the kernel does in `paging_video_memory` is the step of that name. -/
theorem pagingVideoMemory_mmu (display : Display) (active : TerminalId) (vidmap : Bool) :
    ((display.mapVideo active).setVidmapPresent vidmap).mmu =
      display.mmu.pagingVideoMemory (display.ownPage active) vidmap := by
  simp only [Display.setVidmapPresent, Display.mapVideo, Function.update_self]
  rfl

/-- From `page_initialize` on, whatever the memory held before, whatever routines have written
    entries and wherever the processor has left its marks: the walk over the words takes every
    address where the tables of the model take it, and permits programs to write where they do. -/
theorem hardware_walks_the_tables (at_ : Placement) (w : PageWords) (mmu : Mmu)
    (registers : ControlRegisters) {events : List PageEvent} (fits : ∀ event ∈ events, event.Fits)
    {load : Nat → Nat}
    (loads : at_.Loads load (events.foldl (PageWords.step at_) (w.pageInitialize at_)))
    {va : Nat} (small : va < 2 ^ 32) :
    let tables := events.foldl Mmu.pageStep mmu.pageInitialize
    walk (pagingEnable at_.pageDir registers) load va = tables.translate va ∧
      ((tables.translate va).isSome →
        walkPermits (pagingEnable at_.pageDir registers) load va = tables.userWritable va) := by
  have hold := (PageWords.pageInitialize_hold at_ w mmu).steps fits
  exact ⟨hold.walk_eq loads registers small, hold.permits_eq loads registers small⟩

/-- Three tables in a row. -/
def inARow : Placement where
  pageDir := 0x403000
  pgTab1 := 0x404000
  vidmapPgTab1 := 0x405000
  aligned := by decide
  small := by decide

/-- The memory that they make up. -/
def rowMemory (w : PageWords) (addr : Nat) : Nat :=
  if addr < 0x404000 then w.pageDir ((addr - 0x403000) / 4)
  else if addr < 0x405000 then w.pgTab1 ((addr - 0x404000) / 4)
  else w.vidmapPgTab1 ((addr - 0x405000) / 4)

theorem inARow_loads (w : PageWords) : inARow.Loads (rowMemory w) w where
  pageDir i inside := by
    have small : i < 1024 := inside
    show rowMemory w (0x403000 + 4 * i) = w.pageDir i
    rw [rowMemory, if_pos (by omega)]
    congr 1
    omega
  pgTab1 i inside := by
    have small : i < 1024 := inside
    show rowMemory w (0x404000 + 4 * i) = w.pgTab1 i
    rw [rowMemory, if_neg (by omega), if_pos (by omega)]
    congr 1
    omega
  vidmapPgTab1 i inside := by
    have small : i < 1024 := inside
    show rowMemory w (0x405000 + 4 * i) = w.vidmapPgTab1 i
    rw [rowMemory, if_neg (by omega), if_neg (by omega)]
    congr 1
    omega

/-- A program that has called `vidmap` runs in the background. -/
def backgroundVideo : List PageEvent :=
  [.pagingExecute 4, .enableVidmapPaging, .mark .pageDir 32 false, .pagingVideoMemory 0xB9 true,
    .mark .vidmapPgTab1 0 true]

/-- Tables that nothing has been stored in. -/
def blankWords : PageWords :=
  ⟨fun _ => 0, fun _ => 0, fun _ => 0⟩

theorem backgroundVideo_walk :
    let mmu : Mmu :=
      ⟨fun _ => 0, fun _ => Mmu.absentPde, fun _ => Mmu.absentPte, fun _ => Mmu.absentPte, false⟩
    walk (pagingEnable inARow.pageDir ⟨0x11, 0, 0⟩)
        (rowMemory (backgroundVideo.foldl (PageWords.step inARow)
          (blankWords.pageInitialize inARow)))
        VIDMAP_ADDRESS =
      (backgroundVideo.foldl Mmu.pageStep mmu.pageInitialize).translate VIDMAP_ADDRESS := by
  have fits : ∀ event ∈ backgroundVideo, event.Fits := by
    simp [backgroundVideo, PageEvent.Fits]
  exact (hardware_walks_the_tables inARow blankWords
    ⟨fun _ => 0, fun _ => Mmu.absentPde, fun _ => Mmu.absentPte, fun _ => Mmu.absentPte, false⟩
    ⟨0x11, 0, 0⟩ fits (inARow_loads _) (by decide)).1

end PageWords

end LightOS.Kernel
