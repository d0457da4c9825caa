import LightOS.Kernel.Shows
import LightOS.Kernel.Stack

/-! # The video page of user programs

`vidmap` gives a process a page of video memory at virtual 0x8400000.  There is one entry
for it, `vidmap_pg_tab_1[0]`: `vidmap` sets it for the active process, and
`paging_video_memory` sets it again whenever the kernel goes on with another process or shows
another terminal.  `Refreshed` is what `paging_video_memory` leaves in it, and the routines
of the kernel are gone through one by one.
-/

namespace LightOS.Kernel

open Lib Filesystem Descriptor

/-- The address of the video page of user programs. -/
def VIDMAP_ADDRESS : Nat := VIRTUAL_128MB_START + KERNEL_STACK_BASE_ADDRESS / 2

/-- Its index in the page directory. -/
def vidmapIndex : Nat := VIDMAP_ADDRESS / 2 ^ 22

/-- The directory entry that `syscall_enable_vidmap_paging` writes. -/
def vidmapPde : Pde := ⟨true, true, true, false, .vidmapPgTab1⟩

/-- `syscall_enable_vidmap_paging` -/
def Mmu.enableVidmapPaging (mmu : Mmu) : Mmu :=
  { mmu with
    pageDir := Function.update mmu.pageDir vidmapIndex vidmapPde
    vidmapPgTab1 := Function.update mmu.vidmapPgTab1 0 ⟨true, true, true, VIDEO_MEM / PAGE_SIZE⟩ }

/-- The bytes of a 32-bit word, the lowest first. -/
def wordBytes (word : Nat) : List UInt8 :=
  (List.range 4).map fun i => UInt8.ofNat (word / 2 ^ (8 * i))

namespace State

def syscallEnableVidmapPaging (s : State) : State :=
  { s with display := { s.display with mmu := s.display.mmu.enableVidmapPaging } }

/-- `syscall_vidmap` -/
def syscallVidmap (screenStart : Nat) (s : State) : State :=
  if screenStart = 0 then { s with control := .returned (-1) }
  else if screenStart < VIRTUAL_128MB_START ∨
      VIRTUAL_128MB_START + KERNEL_STACK_BASE_ADDRESS / 2 < screenStart then
    { s with control := .returned (-1) }
  else if s.pcbMapped s.proc.activePid then
    let pcb := { s.proc.pcb s.proc.activePid with vidmapFlag := 1 }
    let s := { s with proc := s.proc.setPcb s.proc.activePid pcb }.syscallEnableVidmapPaging
    let mmu := s.display.mmu.storeBytes screenStart (wordBytes VIDMAP_ADDRESS)
    let s := { s with display := { s.display with mmu } }
    if s.faulted then s.exceptionHandler PAGE_FAULT
    else { s with control := .returned VIDMAP_ADDRESS }
  else s.exceptionHandler PAGE_FAULT

/-- `vidmap_pg_tab_1[0]` -/
def video (s : State) : Pte := s.display.mmu.vidmapPgTab1 0

end State

/-- The page `paging_video_memory` chooses for a terminal. -/
def Display.ownPage (active : TerminalId) (display : Display) : Nat :=
  if active = display.currentTerminal then VIDEO_MEM / PAGE_SIZE
  else VIDEO_MEM / PAGE_SIZE + (display.screens active).terminalId

theorem Display.Mapped.ownPage {display : Display} (mapped : display.Mapped) (t : TerminalId) :
    display.ownPage t = display.screenPage t := by
  simp only [Display.ownPage, screenPage, mapped.terminalId]
  rfl

/-- The video entry is the one `paging_video_memory` writes for `pid`; the directory entry for
    it is what it was. -/
structure Refreshed (before : State) (pid : Nat) (after : State) : Prop where
  present : after.video.present = decide ((after.proc.pcb pid).vidmapFlag = 1)
  address : after.video.address = after.display.ownPage after.proc.activeTerminal
  directory : after.display.mmu.pageDir vidmapIndex = before.display.mmu.pageDir vidmapIndex

/-- What else a routine may change after it. -/
structure SameVideo (before after : State) : Prop where
  video : after.video = before.video
  directory : after.display.mmu.pageDir vidmapIndex = before.display.mmu.pageDir vidmapIndex
  flags : ∀ pid, (after.proc.pcb pid).vidmapFlag = (before.proc.pcb pid).vidmapFlag
  activeTerminal : after.proc.activeTerminal = before.proc.activeTerminal
  currentTerminal : after.display.currentTerminal = before.display.currentTerminal
  terminalId : ∀ t,
    (after.display.screens t).terminalId = (before.display.screens t).terminalId

section Refreshed

variable {s before after : State} {pid : Nat}

theorem Refreshed.of_same (refreshed : Refreshed before pid s) (same : SameVideo s after) :
    Refreshed before pid after where
  present := by rw [same.video, same.flags, refreshed.present]
  address := by
    rw [same.video, refreshed.address]
    simp only [Display.ownPage, same.activeTerminal, same.currentTerminal, same.terminalId]
  directory := same.directory.trans refreshed.directory

theorem SameVideo.trans {later : State} (first : SameVideo before s) (second : SameVideo s later) :
    SameVideo before later where
  video := second.video.trans first.video
  directory := second.directory.trans first.directory
  flags pid := (second.flags pid).trans (first.flags pid)
  activeTerminal := second.activeTerminal.trans first.activeTerminal
  currentTerminal := second.currentTerminal.trans first.currentTerminal
  terminalId t := (second.terminalId t).trans (first.terminalId t)

/-- Output and stores. -/
theorem SameVideo.of_writes (s : State) {region : Nat → Prop} {mmu : Mmu}
    (writes : Mmu.WritesIn region s.display.mmu mmu) :
    SameVideo s { s with display := { s.display with mmu } } :=
  ⟨congrFun writes.vidmapPgTab1 0, congrFun writes.pageDir _, fun _ => rfl, rfl, rfl, fun _ => rfl⟩

theorem SameVideo.of_output (s : State) {page : Nat} {t : TerminalId} {display : Display}
    (output : OutputOn page t s.display display) : SameVideo s { s with display } where
  video := congrFun output.writes.vidmapPgTab1 0
  directory := congrFun output.writes.pageDir _
  flags _ := rfl
  activeTerminal := rfl
  currentTerminal := output.currentTerminal
  terminalId u := by
    by_cases this : u = t
    · rw [this]
      exact output.terminalId
    · rw [output.others u this]

/-- After a part that leaves the directory entry alone. -/
theorem Refreshed.of_before {earlier : State} (refreshed : Refreshed before pid s)
    (directory : before.display.mmu.pageDir vidmapIndex =
      earlier.display.mmu.pageDir vidmapIndex) : Refreshed earlier pid s :=
  ⟨refreshed.present, refreshed.address, refreshed.directory.trans directory⟩

end Refreshed

theorem Proc.storeContext_vidmapFlag (proc : Proc) (pid other : Nat) (context : Context) :
    ((proc.storeContext pid context).pcb other).vidmapFlag = (proc.pcb other).vidmapFlag := by
  by_cases this : other = pid <;> simp [Proc.storeContext, Proc.setPcb, Pcb.setContext, this]

section Tables

/-- Stores leave the tables alone, also where they fault. -/
theorem Mmu.store_tables (mmu : Mmu) (va : Nat) (byte : UInt8) :
    (mmu.store va byte).pageDir = mmu.pageDir ∧
      (mmu.store va byte).vidmapPgTab1 = mmu.vidmapPgTab1 := by
  unfold store
  split <;> exact ⟨rfl, rfl⟩

theorem Mmu.storeBytes_tables (mmu : Mmu) (va : Nat) (bytes : List UInt8) :
    (mmu.storeBytes va bytes).pageDir = mmu.pageDir ∧
      (mmu.storeBytes va bytes).vidmapPgTab1 = mmu.vidmapPgTab1 := by
  induction bytes generalizing mmu va with
  | nil => exact ⟨rfl, rfl⟩
  | cons byte bytes ih =>
      obtain ⟨pageDir, vidmapPgTab1⟩ := ih (mmu.store va byte) (va + 1)
      obtain ⟨first, second⟩ := mmu.store_tables va byte
      exact ⟨pageDir.trans first, vidmapPgTab1.trans second⟩

theorem Mmu.copyByte_tables (mmu : Mmu) (dest src : Nat) :
    (mmu.copyByte dest src).pageDir = mmu.pageDir ∧
      (mmu.copyByte dest src).vidmapPgTab1 = mmu.vidmapPgTab1 := by
  unfold copyByte
  split
  · exact Mmu.store_tables _ _ _
  · exact ⟨rfl, rfl⟩

theorem Mmu.memcpy_tables (mmu : Mmu) (dest src n : Nat) :
    (mmu.memcpy dest src n).pageDir = mmu.pageDir ∧
      (mmu.memcpy dest src n).vidmapPgTab1 = mmu.vidmapPgTab1 := by
  induction n with
  | zero => exact ⟨rfl, rfl⟩
  | succ n ih =>
      have last : mmu.memcpy dest src (n + 1) =
          (mmu.memcpy dest src n).copyByte (dest + n) (src + n) := by
        simp only [memcpy, List.range_succ, List.foldl_append, List.foldl_cons, List.foldl_nil]
      obtain ⟨first, second⟩ := (mmu.memcpy dest src n).copyByte_tables (dest + n) (src + n)
      rw [last]
      exact ⟨first.trans ih.1, second.trans ih.2⟩

end Tables

namespace State

section Routines

variable {s : State}

theorem exceptionHandler_faulted (s : State) (vectorNumber : Nat) :
    (s.exceptionHandler vectorNumber).faulted = true := by
  simp only [exceptionHandler, faulted]

/-- A routine in two parts, each of which may fault. -/
theorem andThen_or {P Q : State → Prop} {rest : State → State} (first : s.faulted = true ∨ P s)
    (then_ : ∀ s, P s → (rest s).faulted = true ∨ Q (rest s)) :
    (s.andThen rest).faulted = true ∨ Q (s.andThen rest) := by
  unfold andThen
  split
  · exact .inl ‹_›
  · exact then_ s (first.resolve_left ‹_›)

/-- `paging_video_memory` writes the entry for the active process. -/
theorem pagingVideoMemory_refreshed (s : State) : s.pagingVideoMemory.faulted = true ∨
    s.pagingVideoMemory.proc = s.proc ∧ Refreshed s s.proc.activePid s.pagingVideoMemory := by
  simp only [pagingVideoMemory]
  split
  · right
    refine ⟨rfl, ?_⟩
    constructor
    · simp [video, Display.setVidmapPresent]
    · simp [video, Display.setVidmapPresent, Display.mapVideo, Display.ownPage]
    · rfl
  · exact .inl (exceptionHandler_faulted _ _)

theorem contextSwitchExecute_video (s : State) :
    s.contextSwitchExecute.faulted = true ∨ SameVideo s s.contextSwitchExecute := by
  unfold contextSwitchExecute
  split
  · exact .inr ⟨rfl, rfl, fun _ => rfl, rfl, rfl, fun _ => rfl⟩
  · exact .inl (exceptionHandler_faulted s PAGE_FAULT)

theorem pagingExecute_directory (s : State) (pid : Nat) :
    (s.pagingExecute pid).display.mmu.pageDir vidmapIndex =
      s.display.mmu.pageDir vidmapIndex := by
  have apart : vidmapIndex ≠ Mmu.userIndex := by decide
  simp only [pagingExecute, Mmu.pagingExecute, Function.update_of_ne apart]

/-- `paging_execute` and `paging_video_memory`, and then parts that leave the entry alone. -/
theorem switched_refreshed (s : State) (pid : Nat) {rest : State → State}
    (keeps : ∀ s, (rest s).faulted = true ∨ SameVideo s (rest s)) :
    (((s.pagingExecute pid).pagingVideoMemory).andThen rest).faulted = true ∨
      Refreshed s s.proc.activePid (((s.pagingExecute pid).pagingVideoMemory).andThen rest) := by
  apply andThen_or (P := Refreshed s s.proc.activePid)
  · exact (pagingVideoMemory_refreshed (s.pagingExecute pid)).imp_right
      fun paged => paged.2.of_before (s.pagingExecute_directory pid)
  · exact fun paged refreshed => (keeps paged).imp_right refreshed.of_same

theorem bootEnterTerminal_refreshed (s : State) (t : TerminalId) :
    (s.bootEnterTerminal t).faulted = true ∨ Refreshed s t.number (s.bootEnterTerminal t) := by
  simp only [bootEnterTerminal]
  refine (switched_refreshed _ t.number fun paged => ?_).imp_right
    fun refreshed => refreshed.of_before rfl
  refine (contextSwitchExecute_video _).imp_right fun same => ?_
  exact ⟨same.video, same.directory, same.flags, same.activeTerminal, same.currentTerminal,
    same.terminalId⟩

/-- The scheduler goes on with a process of the next terminal, or with its root shell. -/
theorem schedule_refreshed (s : State) (interrupted : Context) {t : TerminalId}
    (next : nextTerminal s.proc.activeTerminal = t) :
    (s.schedule interrupted).faulted = true ∨
      Refreshed s (if s.proc.currentProcessId t = 0 then t.number else s.proc.currentProcessId t)
        (s.schedule interrupted) := by
  simp only [schedule, next]
  by_cases idle : s.proc.currentProcessId t = 0
  · simp only [idle, ne_eq, not_true, if_true, if_false, Proc.storeContext, Proc.setPcb]
    split
    · cases t
      · exact (bootEnterTerminal_refreshed _ .terminal1).imp_right fun shell => shell.of_before rfl
      · exact (bootEnterTerminal_refreshed _ .terminal2).imp_right fun shell => shell.of_before rfl
      · exact (bootEnterTerminal_refreshed _ .terminal3).imp_right fun shell => shell.of_before rfl
    · exact .inl (exceptionHandler_faulted _ _)
  · simp only [idle, ne_eq, not_false_eq_true, if_true, if_false, Proc.storeContext, Proc.setPcb]
    split
    · refine (switched_refreshed _ _ fun paged => ?_).imp_right fun resumed => resumed.of_before rfl
      exact .inr ⟨rfl, rfl, fun _ => rfl, rfl, rfl, fun _ => rfl⟩
    · exact .inl (exceptionHandler_faulted _ _)

/-- `halt` goes on with the parent, or with the root shell that cannot be halted. -/
theorem syscallHalt_refreshed (sound : Sound s) (active : s.proc.activePid ≠ 0) (status : UInt8) :
    (s.syscallHalt status).faulted = true ∨
      Refreshed s (if s.proc.activePid < 4 then s.proc.activePid
        else (s.proc.pcb s.proc.activePid).parentPid) (s.syscallHalt status) := by
  obtain ⟨activePositive, activeSmall⟩ := active_range sound active
  obtain ⟨created, lineage⟩ := sound.lineage
  by_cases child : 4 ≤ s.proc.activePid
  · obtain ⟨parentPositive, parentSmall⟩ :=
      lineage.range _ (lineage.parent _ (lineage.active active) child)
    rw [halt_child_result sound.valid.toMapped status child activeSmall parentPositive parentSmall,
      if_neg (Nat.not_lt.mpr child)]
    split
    · exact .inl (exceptionHandler_faulted _ _)
    · refine (switched_refreshed _ _ fun paged => ?_).imp_right fun parent => parent.of_before rfl
      exact .inr ⟨rfl, rfl, fun _ => rfl, rfl, rfl, fun _ => rfl⟩
  · obtain ⟨t, root⟩ := State.exists_number activePositive (by omega)
    obtain ⟨message, result⟩ := halt_root status root
    rw [result, if_pos (Nat.not_le.mp child), root]
    have printed := SameVideo.of_output s (printf_output sound.valid message)
    exact (bootEnterTerminal_refreshed (s.printf message) t).imp_right
      fun shell => shell.of_before printed.directory

theorem withMmu_pageDir (display : Display) (mmu : Mmu) :
    ({ display with mmu } : Display).mmu.pageDir = mmu.pageDir := rfl

theorem SameVideo.of_tables (s : State) {mmu : Mmu} (pageDir : mmu.pageDir = s.display.mmu.pageDir)
    (vidmapPgTab1 : mmu.vidmapPgTab1 = s.display.mmu.vidmapPgTab1) :
    SameVideo s { s with display := ({ s.display with mmu } : Display).showCursor } :=
  ⟨congrFun vidmapPgTab1 0, congrFun pageDir _, fun _ => rfl, rfl, rfl, fun _ => rfl⟩

theorem loadScreen_video (s : State) :
    SameVideo s { s with display := s.display.loadScreen.showCursor } :=
  have tables := s.display.mmu.memcpy_tables VIDEO_DIRECT
    (s.display.screens s.display.currentTerminal).videoAddress 4096
  SameVideo.of_tables s tables.1 tables.2

theorem loadScreen_pageDir (display : Display) :
    display.loadScreen.mmu.pageDir = display.mmu.pageDir :=
  (withMmu_pageDir _ _).trans (display.mmu.memcpy_tables _ _ _).1

theorem saveScreen_pageDir (display : Display) :
    display.saveScreen.mmu.pageDir = display.mmu.pageDir :=
  (withMmu_pageDir _ _).trans (display.mmu.memcpy_tables _ _ _).1

/-- `paging_video_memory` on a display that has been written to, and then parts that leave the
    entry alone. -/
theorem shown_refreshed (s : State) {display : Display} {rest : State → State}
    (pageDir : display.mmu.pageDir = s.display.mmu.pageDir)
    (keeps : ∀ s, SameVideo s (rest s)) :
    ((({ s with display } : State).pagingVideoMemory).andThen rest).faulted = true ∨
      Refreshed s s.proc.activePid
        ((({ s with display } : State).pagingVideoMemory).andThen rest) := by
  apply andThen_or (P := Refreshed s s.proc.activePid)
  · exact (pagingVideoMemory_refreshed _).imp_right
      fun paged => paged.2.of_before (congrFun pageDir vidmapIndex)
  · exact fun paged refreshed => .inr (refreshed.of_same (keeps paged))

theorem switchByMapping_refreshed (s : State) {t : TerminalId}
    (other : t ≠ s.display.currentTerminal) :
    (s.switchByMapping t).faulted = true ∨ Refreshed s s.proc.activePid (s.switchByMapping t) := by
  have saved := saveScreen_pageDir s.display
  simp only [switchByMapping, if_neg (Ne.symm other)]
  exact s.shown_refreshed saved loadScreen_video

theorem switchToTerminal2_refreshed (s : State) (other : .terminal2 ≠ s.display.currentTerminal) :
    s.switchToTerminal2.faulted = true ∨ Refreshed s s.proc.activePid s.switchToTerminal2 := by
  have saved := saveScreen_pageDir s.display
  have loaded := loadScreen_pageDir { s.display.saveScreen with currentTerminal := .terminal2 }
  simp only [switchToTerminal2, if_neg (Ne.symm other)]
  exact s.shown_refreshed (loaded.trans saved)
    fun _ => ⟨rfl, rfl, fun _ => rfl, rfl, rfl, fun _ => rfl⟩

/-- A terminal switch goes on with the active process. -/
theorem switchToTerminal_refreshed (s : State) {t : TerminalId}
    (other : t ≠ s.display.currentTerminal) :
    (s.switchToTerminal t).faulted = true ∨
      Refreshed s s.proc.activePid (s.switchToTerminal t) := by
  cases t with
  | terminal1 => exact s.switchByMapping_refreshed other
  | terminal2 => exact s.switchToTerminal2_refreshed other
  | terminal3 => exact s.switchByMapping_refreshed other

theorem loadProgram_video (s : State) (bootBlock : Option Image) (inode : Int) :
    SameVideo s (s.loadProgram bootBlock inode) := by
  obtain ⟨pageDir, vidmapPgTab1⟩ := s.display.mmu.storeBytes_tables VIRTUAL_ADDRESS_PROGRAM_START
    (readData bootBlock inode 0 false MAX_FILE_SIZE).bytes
  exact ⟨congrFun vidmapPgTab1 0, congrFun pageDir _, fun _ => rfl, rfl, rfl, fun _ => rfl⟩

/-- `execute` calls `paging_video_memory` before it sets `active_pid`: the entry is the one for
    the process that made the call. -/
theorem startProgram_refreshed (s : State) (bootBlock : Option Image) (inode : Int)
    (caller : Context) (found : (List.range 7).find? (fun i => s.proc.processes i = 0) ≠ none) :
    (s.startProgram bootBlock inode caller).faulted = true ∨
      Refreshed s s.proc.activePid (s.startProgram bootBlock inode caller) := by
  obtain ⟨pid, free⟩ := Option.ne_none_iff_exists'.mp found
  simp only [startProgram, Proc.getProcessAvailable, free]
  split
  · refine (switched_refreshed _ pid fun paged => ?_).imp_right fun parent => parent.of_before rfl
    apply andThen_or (P := SameVideo paged) (.inr (loadProgram_video paged bootBlock inode))
    intro loaded same
    split
    · refine (contextSwitchExecute_video _).imp_right fun entered => same.trans ?_
      exact ⟨entered.video, entered.directory, fun other => (entered.flags other).trans
        (Proc.storeContext_vidmapFlag ..), entered.activeTerminal, entered.currentTerminal,
        entered.terminalId⟩
    · exact .inl (exceptionHandler_faulted _ _)
  · exact .inl (exceptionHandler_faulted _ _)

/-- A call of `execute` that passes the checks, with a pid free. -/
theorem syscallExecute_refreshed (s : State) {bootBlock : Option Image} {stack : List UInt8}
    {command : CharPtr} {caller : Context}
    (accepted : (s.checkCommand bootBlock stack command).2 ≠ none)
    (found : (List.range 7).find? (fun i => s.proc.processes i = 0) ≠ none) :
    (s.syscallExecute bootBlock stack command caller).faulted = true ∨
      Refreshed s s.proc.activePid (s.syscallExecute bootBlock stack command caller) := by
  obtain ⟨inode, inode_eq⟩ := Option.ne_none_iff_exists'.mp accepted
  obtain ⟨argBuf, argumentExist, _, _, started⟩ := syscallExecute_accepted inode_eq
  rw [started]
  exact (startProgram_refreshed ⟨{ s.proc with argBuf, argumentExist }, s.display, s.control⟩
    bootBlock inode caller found).imp_right fun refreshed => refreshed.of_before rfl

end Routines

end State

end LightOS.Kernel
