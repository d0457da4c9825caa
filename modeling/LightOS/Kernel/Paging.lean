import LightOS.Lib.Word32
import Mathlib.Logic.Function.Basic

/-! # Page tables and physical memory

The page directory, the two page tables of paging.c and the memory they translate to.
Of an entry only the bits that decide a translation are kept; every routine that writes
an entry writes the others as constants.  Loads and stores of the kernel go through the
tables as they are in memory, since each routine that changes an entry reloads `cr3`.
-/

namespace LightOS.Kernel

open Lib

def PAGE_SIZE : Nat := 4096

/-- `VIDEO_ADDRESS_TO_PHYSICAL`, and `VIDEO_DIRECT` in lib.c -/
def VIDEO_DIRECT : Nat := 0xB7000

/-- `VIDEO_MEM`, and `VIDEO` in lib.c -/
def VIDEO_MEM : Nat := 0xB8000

def VIRTUAL_128MB_START : Nat := 0x08000000
def VIRTUAL_ADDRESS_PROGRAM_START : Nat := 0x08048000
def USER_STACK_BASE_ADDRESS : Nat := 0x08400000 - 4

/-- The address field of a directory entry: a frame number, or the frame of one of the
    tables, wherever the linker has put it. -/
inductive PdeAddress
  | frame (number : Nat)
  | pgTab1
  | vidmapPgTab1
  deriving DecidableEq

/-- `pde` -/
structure Pde where
  present : Bool
  writeRead : Bool
  uS : Bool
  pageSize : Bool
  address : PdeAddress
  deriving DecidableEq

/-- `pte` -/
structure Pte where
  present : Bool
  writeRead : Bool
  uS : Bool
  address : Nat
  deriving DecidableEq

/-- Memory and the tables that translate to it.  `fault` is raised by an access that the
    tables do not translate, and never taken back. -/
structure Mmu where
  mem : Nat → UInt8
  pageDir : Nat → Pde
  pgTab1 : Nat → Pte
  vidmapPgTab1 : Nat → Pte
  fault : Bool

namespace Mmu

/-- The address a table entry translates to, for the page offset of `va`. -/
def pageOf (pte : Pte) (va : Nat) : Option Nat :=
  if pte.present then some (PAGE_SIZE * pte.address + va % PAGE_SIZE) else none

/-- The physical address behind a virtual one.  A 4 MB page starts at the upper ten bits of
    its address field. -/
def translate (mmu : Mmu) (va : Nat) : Option Nat :=
  let pde := mmu.pageDir (va / 2 ^ 22)
  if pde.present then
    match pde.address with
    | .frame number =>
        if pde.pageSize then some (2 ^ 22 * (number / 2 ^ 10) + va % 2 ^ 22) else none
    | .pgTab1 => pageOf (mmu.pgTab1 (va / PAGE_SIZE % 1024)) va
    | .vidmapPgTab1 => pageOf (mmu.vidmapPgTab1 (va / PAGE_SIZE % 1024)) va
  else none

/-- A byte store by the kernel. -/
def store (mmu : Mmu) (va : Nat) (byte : UInt8) : Mmu :=
  match mmu.translate va with
  | some pa => { mmu with mem := Function.update mmu.mem pa byte }
  | none => { mmu with fault := true }

/-- `*dest = *src` for bytes. -/
def copyByte (mmu : Mmu) (dest src : Nat) : Mmu :=
  match mmu.translate src with
  | some pa => mmu.store dest (mmu.mem pa)
  | none => { mmu with fault := true }

/-- Stores one after the other, from `va` on. -/
def storeBytes (mmu : Mmu) (va : Nat) : List UInt8 → Mmu
  | [] => mmu
  | byte :: bytes => (mmu.store va byte).storeBytes (va + 1) bytes

/-- `memcpy` -/
def memcpy (mmu : Mmu) (dest src n : Nat) : Mmu :=
  (List.range n).foldl (fun mmu i => mmu.copyByte (dest + i) (src + i)) mmu

def loadByte (mmu : Mmu) (va : Nat) : Option UInt8 := (mmu.translate va).map mmu.mem

/-- `*(uint32_t *) va` -/
def loadWord (mmu : Mmu) (va : Nat) : Option Nat := do
  let b0 ← mmu.loadByte va
  let b1 ← mmu.loadByte (va + 1)
  let b2 ← mmu.loadByte (va + 2)
  let b3 ← mmu.loadByte (va + 3)
  return b0.toNat + 2 ^ 8 * b1.toNat + 2 ^ 16 * b2.toNat + 2 ^ 24 * b3.toNat

/-- Whether the entries for `va` let a user program write there. -/
def userWritable (mmu : Mmu) (va : Nat) : Bool :=
  let pde := mmu.pageDir (va / 2 ^ 22)
  pde.uS && pde.writeRead &&
    match pde.address with
    | .frame _ => true
    | .pgTab1 => (mmu.pgTab1 (va / PAGE_SIZE % 1024)).uS &&
        (mmu.pgTab1 (va / PAGE_SIZE % 1024)).writeRead
    | .vidmapPgTab1 => (mmu.vidmapPgTab1 (va / PAGE_SIZE % 1024)).uS &&
        (mmu.vidmapPgTab1 (va / PAGE_SIZE % 1024)).writeRead

/-- A byte store by a user program. -/
def userStore (mmu : Mmu) (va : Nat) (byte : UInt8) : Mmu :=
  if mmu.userWritable va then mmu.store va byte else { mmu with fault := true }

/-- The index of the user page in the page directory. -/
def userIndex : Nat := VIRTUAL_ADDRESS_PROGRAM_START / 2 ^ 22

/-- The entry `paging_execute` writes for a process. -/
def userEntry (pid : Nat) : Pde where
  present := true
  writeRead := true
  uS := true
  pageSize := true
  address := .frame ((0x400 + 0x400 + pid * 0x400) % 2 ^ 20)

/-- `paging_execute` -/
def pagingExecute (mmu : Mmu) (pid : Nat) : Mmu :=
  { mmu with pageDir := Function.update mmu.pageDir userIndex (userEntry pid) }

@[simp] theorem pagingExecute_user (mmu : Mmu) (pid : Nat) :
    (mmu.pagingExecute pid).pageDir userIndex = userEntry pid := by
  simp [pagingExecute]

def absentPde : Pde := ⟨false, false, false, false, .frame 0⟩
def absentPte : Pte := ⟨false, false, false, 0⟩

/-- `page_initialize` -/
def pageInitialize (mmu : Mmu) : Mmu :=
  { mmu with
    pageDir := fun i =>
      if i = 0 then ⟨true, true, false, false, .pgTab1⟩
      else if i = 1 then ⟨true, true, false, true, .frame 0x400⟩
      else absentPde
    pgTab1 := fun i =>
      if i = VIDEO_DIRECT / PAGE_SIZE then ⟨true, true, false, VIDEO_MEM / PAGE_SIZE⟩
      else if VIDEO_MEM / PAGE_SIZE ≤ i ∧ i ≤ VIDEO_MEM / PAGE_SIZE + 3 then ⟨true, true, false, i⟩
      else absentPte
    vidmapPgTab1 := fun _ => absentPte }

/-- The step changes memory inside `region` at most. -/
structure WritesIn (region : Nat → Prop) (before after : Mmu) : Prop where
  pageDir : after.pageDir = before.pageDir
  pgTab1 : after.pgTab1 = before.pgTab1
  vidmapPgTab1 : after.vidmapPgTab1 = before.vidmapPgTab1
  fault : after.fault = before.fault
  mem : ∀ pa, ¬ region pa → after.mem pa = before.mem pa

section WritesIn

variable {region : Nat → Prop} {mmu before after : Mmu}

theorem WritesIn.refl (region : Nat → Prop) (mmu : Mmu) : WritesIn region mmu mmu :=
  ⟨rfl, rfl, rfl, rfl, fun _ _ => rfl⟩

theorem WritesIn.trans {later : Mmu} (first : WritesIn region before after)
    (second : WritesIn region after later) : WritesIn region before later where
  pageDir := second.pageDir.trans first.pageDir
  pgTab1 := second.pgTab1.trans first.pgTab1
  vidmapPgTab1 := second.vidmapPgTab1.trans first.vidmapPgTab1
  fault := second.fault.trans first.fault
  mem pa outside := (second.mem pa outside).trans (first.mem pa outside)

theorem WritesIn.translate (writes : WritesIn region before after) (va : Nat) :
    after.translate va = before.translate va := by
  simp only [Mmu.translate, writes.pageDir, writes.pgTab1, writes.vidmapPgTab1]

theorem store_mem {va pa : Nat} (mapped : mmu.translate va = some pa) (byte : UInt8) :
    mmu.store va byte = { mmu with mem := Function.update mmu.mem pa byte } := by
  simp only [store, mapped]

theorem store_writes {va pa : Nat} (mapped : mmu.translate va = some pa) (inside : region pa)
    (byte : UInt8) : WritesIn region mmu (mmu.store va byte) := by
  rw [store_mem mapped]
  refine ⟨rfl, rfl, rfl, rfl, fun other outside => ?_⟩
  have ne : other ≠ pa := by
    rintro rfl
    exact outside inside
  exact Function.update_of_ne ne _ _

theorem copyByte_mem {dest src target source : Nat} (mappedDest : mmu.translate dest = some target)
    (mappedSrc : mmu.translate src = some source) :
    mmu.copyByte dest src =
      { mmu with mem := Function.update mmu.mem target (mmu.mem source) } := by
  simp only [copyByte, mappedSrc, store_mem mappedDest]

theorem copyByte_writes {dest src target source : Nat}
    (mappedDest : mmu.translate dest = some target) (mappedSrc : mmu.translate src = some source)
    (inside : region target) : WritesIn region mmu (mmu.copyByte dest src) := by
  simp only [copyByte, mappedSrc]
  exact store_writes mappedDest inside _

/-- A loop writes where each of its rounds does. -/
theorem WritesIn.foldl {ι : Type*} {round : Mmu → ι → Mmu} {indices : List ι}
    (each : ∀ mmu i, i ∈ indices → WritesIn region before mmu → WritesIn region mmu (round mmu i)) :
    WritesIn region before (indices.foldl round before) := by
  suffices ∀ mmu, WritesIn region before mmu → WritesIn region before (indices.foldl round mmu)
    from this before (.refl _ _)
  induction indices with
  | nil => exact fun mmu writes => writes
  | cons i indices ih =>
      intro mmu writes
      apply ih (fun mmu j member => each mmu j (List.mem_cons_of_mem _ member)) _
      exact writes.trans (each mmu i (List.mem_cons_self ..) writes)

theorem storeBytes_writes {va : Nat} {bytes : List UInt8}
    (mapped : ∀ i < bytes.length, ∃ pa, mmu.translate (va + i) = some pa ∧ region pa) :
    WritesIn region mmu (mmu.storeBytes va bytes) := by
  induction bytes generalizing mmu va with
  | nil => exact .refl _ _
  | cons byte bytes ih =>
      obtain ⟨pa, here, inside⟩ := mapped 0 (by simp)
      have first : WritesIn region mmu (mmu.store va byte) := store_writes here inside byte
      refine first.trans (ih fun i small => ?_)
      obtain ⟨pa', there, inside'⟩ := mapped (i + 1) (by simpa using small)
      refine ⟨pa', ?_, inside'⟩
      rw [first.translate, ← there]
      congr 1
      omega

end WritesIn

end Mmu

end LightOS.Kernel
