import LightOS.Kernel.Console

/-! # Which page is where

The mapping the kernel relies on: the low pages of the screens, the 4 MB page of the kernel,
and the page of the active process.  `Display.Valid` is what has to hold between steps:
virtual 0xB8000 is the page on display while the active terminal is the displayed one,
and the backing page of the active terminal otherwise.
-/

namespace LightOS.Kernel

/-- The page number of virtual 0xB8000. -/
def videoPage : Nat := 0xB8

/-- The frames of user programs: 4 MB each, from 8 MB + 4 MB on. -/
def OnFrame (pid pa : Nat) : Prop :=
  0x800000 + 0x400000 * pid ≤ pa ∧ pa < 0x800000 + 0x400000 * pid + 0x400000

namespace Mmu

variable {mmu : Mmu}

/-- The tables translate what `page_initialize` has set up, whatever 0xB8000 is mapped to. -/
structure LowMapped (mmu : Mmu) : Prop where
  low : mmu.pageDir 0 = ⟨true, true, false, false, .pgTab1⟩
  kernel : mmu.pageDir 1 = ⟨true, true, false, true, .frame 0x400⟩
  direct : mmu.pgTab1 (videoPage - 1) = ⟨true, true, false, videoPage⟩
  window : ∃ page, mmu.pgTab1 videoPage = ⟨true, true, false, page⟩
  backing : ∀ t : TerminalId, mmu.pgTab1 (videoPage + t.number) =
    ⟨true, true, false, videoPage + t.number⟩

/-- Translation below 4 MB goes through `pg_tab_1`. -/
theorem window_of_entry (low : mmu.pageDir 0 = ⟨true, true, false, false, .pgTab1⟩)
    (index : Nat) {page : Nat} (small : index < 1024) {writeRead uS : Bool}
    (entry : mmu.pgTab1 index = ⟨true, writeRead, uS, page⟩) :
    mmu.Window (4096 * index) page := by
  intro va from_ before
  have directory : va / 2 ^ 22 = 0 := by omega
  have table : va / PAGE_SIZE % 1024 = index := by
    simp only [PAGE_SIZE]
    omega
  have offset : va % PAGE_SIZE = va - 4096 * index := by
    simp only [PAGE_SIZE]
    omega
  simp only [translate, directory, low, if_true, table, entry, pageOf, offset]
  rfl

theorem LowMapped.directWindow (mapped : mmu.LowMapped) : mmu.Window VIDEO_DIRECT videoPage :=
  window_of_entry mapped.low (videoPage - 1) (by decide) mapped.direct

theorem LowMapped.backingWindow (mapped : mmu.LowMapped) (t : TerminalId) :
    mmu.Window (VIDEO_MEM + 4096 * t.number) (videoPage + t.number) := by
  have window := window_of_entry mapped.low _ (by cases t <;> decide) (mapped.backing t)
  rwa [show VIDEO_MEM + 4096 * t.number = 4096 * (videoPage + t.number) by
    simp only [VIDEO_MEM, videoPage]; omega]

theorem LowMapped.of_writes {region : Nat → Prop} {before after : Mmu}
    (writes : WritesIn region before after) (mapped : before.LowMapped) : after.LowMapped where
  low := by rw [writes.pageDir, mapped.low]
  kernel := by rw [writes.pageDir, mapped.kernel]
  direct := by rw [writes.pgTab1, mapped.direct]
  window := by rw [writes.pgTab1]; exact mapped.window
  backing t := by rw [writes.pgTab1, mapped.backing]

theorem LowMapped.pagingExecute (mapped : mmu.LowMapped) (pid : Nat) :
    (mmu.pagingExecute pid).LowMapped :=
  ⟨mapped.low, mapped.kernel, mapped.direct, mapped.window, mapped.backing⟩

/-- An address in the user page, and the frame it is in. -/
theorem translate_user {pid : Nat} (small : pid ≤ 6)
    (entry : mmu.pageDir userIndex = userEntry pid) {va : Nat} (from_ : VIRTUAL_128MB_START ≤ va)
    (before : va < VIRTUAL_128MB_START + 2 ^ 22) :
    mmu.translate va =
      some (0x800000 + 0x400000 * pid + (va - VIRTUAL_128MB_START)) := by
  simp only [VIRTUAL_128MB_START] at *
  have directory : va / 2 ^ 22 = userIndex := by
    simp only [userIndex, VIRTUAL_ADDRESS_PROGRAM_START]
    omega
  simp only [translate, directory, entry, userEntry, if_true, Option.some.injEq]
  omega

/-- The control blocks of pids 1 to 6 lie in the kernel page. -/
theorem LowMapped.translate_kernel (mapped : mmu.LowMapped) {va : Nat} (from_ : 2 ^ 22 ≤ va)
    (before : va < 2 ^ 23) : (mmu.translate va).isSome := by
  have directory : va / 2 ^ 22 = 1 := by omega
  simp only [translate, directory, mapped.kernel, if_true, Option.isSome_some]

/-- `memcpy` of a page. -/
theorem memcpy_page {dest src to_ from_ : Nat} (destWindow : mmu.Window dest to_)
    (srcWindow : mmu.Window src from_) (differ : to_ ≠ from_) {n : Nat} (small : n ≤ 4096) :
    WritesIn (OnPage to_) mmu (mmu.memcpy dest src n) ∧
      ∀ i < n, (mmu.memcpy dest src n).mem (4096 * to_ + i) = mmu.mem (4096 * from_ + i) := by
  induction n with
  | zero => exact ⟨.refl _ _, fun i none => absurd none (Nat.not_lt_zero i)⟩
  | succ n ih =>
      obtain ⟨writes, copied⟩ := ih (by omega)
      have target := destWindow.of_writes writes (dest + n) (by omega) (by omega)
      have source := srcWindow.of_writes writes (src + n) (by omega) (by omega)
      rw [Nat.add_sub_cancel_left] at target source
      have last : mmu.memcpy dest src (n + 1) =
          (mmu.memcpy dest src n).copyByte (dest + n) (src + n) := by
        simp only [memcpy, List.range_succ, List.foldl_append, List.foldl_cons, List.foldl_nil]
      have round : WritesIn (OnPage to_) (mmu.memcpy dest src n)
          ((mmu.memcpy dest src n).copyByte (dest + n) (src + n)) :=
        copyByte_writes target source ⟨by omega, by omega⟩
      rw [last]
      refine ⟨writes.trans round, fun i before => ?_⟩
      simp only [copyByte_mem target source]
      by_cases same : i = n
      · subst same
        rw [Function.update_self]
        apply writes.mem _
        unfold OnPage
        omega
      · rw [Function.update_of_ne (by omega), copied i (by omega)]

end Mmu

namespace Display

variable {display : Display} {active t : TerminalId}

/-- The page that output of terminal `t` belongs on: its logical screen. -/
def screenPage (display : Display) (t : TerminalId) : Nat :=
  if t = display.currentTerminal then videoPage else videoPage + t.number

/-- What the console routines need of the display, for any active terminal. -/
structure Mapped (display : Display) : Prop where
  fault : display.mmu.fault = false
  tables : display.mmu.LowMapped
  terminalId : ∀ t, (display.screens t).terminalId = t.number
  videoAddress : ∀ t, (display.screens t).videoAddress = VIDEO_MEM + 4096 * t.number
  inside : ∀ t, (display.screens t).Inside

/-- And 0xB8000 is mapped to the logical screen of the active terminal. -/
structure Valid (display : Display) (active : TerminalId) : Prop extends Mapped display where
  entry : display.mmu.pgTab1 videoPage = ⟨true, true, false, display.screenPage active⟩

theorem Valid.window (valid : display.Valid active) :
    display.mmu.Window VIDEO_MEM (display.screenPage active) :=
  Mmu.window_of_entry valid.tables.low videoPage (by decide) valid.entry

theorem Mapped.directWindow (mapped : display.Mapped) :
    display.mmu.Window VIDEO_DIRECT (display.screenPage display.currentTerminal) := by
  rw [screenPage, if_pos rfl]
  exact mapped.tables.directWindow

/-- Logical screens are on low pages, and different ones. -/
theorem screenPage_range (display : Display) (t : TerminalId) :
    videoPage ≤ display.screenPage t ∧ display.screenPage t ≤ videoPage + 3 := by
  simp only [screenPage, videoPage]
  cases t <;> simp only [TerminalId.number] <;> split <;> omega

theorem screenPage_injective {u : TerminalId}
    (same : display.screenPage t = display.screenPage u) : t = u := by
  apply TerminalId.number_injective
  unfold screenPage at same
  split at same <;> split at same
  · next h h' => rw [h, h']
  · cases u <;> simp only [TerminalId.number] at same <;> omega
  · cases t <;> simp only [TerminalId.number] at same <;> omega
  · omega

theorem Mapped.of_output {page : Nat} {after : Display} (output : OutputOn page t display after)
    (mapped : display.Mapped) : after.Mapped where
  fault := by rw [output.writes.fault, mapped.fault]
  tables := mapped.tables.of_writes output.writes
  terminalId u := by
    by_cases this : u = t
    · subst this
      rw [output.terminalId, mapped.terminalId]
    · rw [output.others u this, mapped.terminalId]
  videoAddress u := by
    by_cases this : u = t
    · subst this
      rw [output.videoAddress, mapped.videoAddress]
    · rw [output.others u this, mapped.videoAddress]
  inside u := by
    by_cases this : u = t
    · subst this
      exact output.inside (mapped.inside u)
    · rw [output.others u this]
      exact mapped.inside u

theorem Valid.of_output {page : Nat} {after : Display} (output : OutputOn page t display after)
    (valid : display.Valid active) : after.Valid active where
  toMapped := valid.toMapped.of_output output
  entry := by
    rw [output.writes.pgTab1, valid.entry]
    simp only [screenPage, output.currentTerminal]

theorem Valid.of_writes {region : Nat → Prop} {mmu : Mmu}
    (writes : Mmu.WritesIn region display.mmu mmu) (valid : display.Valid active) :
    Valid { display with mmu } active where
  fault := by rw [writes.fault, valid.fault]
  tables := valid.tables.of_writes writes
  terminalId := valid.terminalId
  videoAddress := valid.videoAddress
  inside := valid.inside
  entry := by
    rw [writes.pgTab1, valid.entry]
    rfl

/-- Nothing but page-table entries has changed. -/
structure SameContents (before after : Display) : Prop where
  mem : after.mmu.mem = before.mmu.mem
  fault : after.mmu.fault = before.mmu.fault
  currentTerminal : after.currentTerminal = before.currentTerminal
  screens : after.screens = before.screens

theorem SameContents.trans {first second third : Display} (h : SameContents first second)
    (h' : SameContents second third) : SameContents first third :=
  ⟨h'.mem.trans h.mem, h'.fault.trans h.fault, h'.currentTerminal.trans h.currentTerminal,
    h'.screens.trans h.screens⟩

theorem pagingExecute_same (display : Display) (pid : Nat) :
    SameContents display { display with mmu := display.mmu.pagingExecute pid } :=
  ⟨rfl, rfl, rfl, rfl⟩

theorem Mapped.pagingExecute (mapped : display.Mapped) (pid : Nat) :
    Mapped { display with mmu := display.mmu.pagingExecute pid } :=
  ⟨mapped.fault, mapped.tables.pagingExecute pid, mapped.terminalId, mapped.videoAddress,
    mapped.inside⟩

theorem mapVideo_same (display : Display) (active : TerminalId) :
    SameContents display (display.mapVideo active) := ⟨rfl, rfl, rfl, rfl⟩

theorem setVidmapPresent_same (display : Display) (present : Bool) :
    SameContents display (display.setVidmapPresent present) := ⟨rfl, rfl, rfl, rfl⟩

/-- `paging_video_memory` brings the mapping in step with the active terminal. -/
theorem Mapped.mapVideo (mapped : display.Mapped) (active : TerminalId) :
    (display.mapVideo active).Valid active where
  fault := mapped.fault
  tables := by
    obtain ⟨page, entry⟩ := mapped.tables.window
    refine ⟨mapped.tables.low, mapped.tables.kernel, ?_, ?_, ?_⟩
    · simpa [Display.mapVideo, VIDEO_MEM, PAGE_SIZE, videoPage] using mapped.tables.direct
    · simp only [Display.mapVideo]
      rw [show VIDEO_MEM / PAGE_SIZE = videoPage from rfl, Function.update_self, entry]
      exact ⟨_, rfl⟩
    · intro t
      have other : videoPage + t.number ≠ VIDEO_MEM / PAGE_SIZE := by cases t <;> decide
      simp only [Display.mapVideo]
      rw [Function.update_of_ne other, mapped.tables.backing]
  terminalId := mapped.terminalId
  videoAddress := mapped.videoAddress
  inside := mapped.inside
  entry := by
    obtain ⟨page, entry⟩ := mapped.tables.window
    simp only [Display.mapVideo, mapped.terminalId]
    rw [show VIDEO_MEM / PAGE_SIZE = videoPage from rfl, Function.update_self, entry]
    rfl

theorem Valid.setVidmapPresent (valid : display.Valid active) (present : Bool) :
    (display.setVidmapPresent present).Valid active :=
  ⟨⟨valid.fault, ⟨valid.tables.low, valid.tables.kernel, valid.tables.direct, valid.tables.window,
    valid.tables.backing⟩, valid.terminalId, valid.videoAddress, valid.inside⟩, valid.entry⟩

end Display

end LightOS.Kernel
