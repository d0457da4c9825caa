import LightOS.Kernel.Addressable
import LightOS.Kernel.PageWords

/-! # What a program of level 3 reaches

The routines of the kernel gone through once more, for all three tables and all four stores to
them.  What they write between `page_initialize` and any later state leaves two doors open for
programs, the user page and the page of `vidmap`, and the walk of the processor finds no third.
-/

namespace LightOS.Kernel

open Lib Filesystem Descriptor

/-- The three tables of paging.c. -/
def Mmu.tables (mmu : Mmu) : (Nat → Pde) × (Nat → Pte) × (Nat → Pte) :=
  (mmu.pageDir, mmu.pgTab1, mmu.vidmapPgTab1)

/-- The tables, and the numbers by which `paging_video_memory` finds the backing pages. -/
def Display.layout (display : Display) :
    ((Nat → Pde) × (Nat → Pte) × (Nat → Pte)) × (TerminalId → Nat) :=
  (display.mmu.tables, fun t => (display.screens t).terminalId)

def State.layout (s : State) : ((Nat → Pde) × (Nat → Pte) × (Nat → Pte)) × (TerminalId → Nat) :=
  s.display.layout

/-- The stores of the routines, for terminals with these numbers. -/
def PageEvent.ByKernel (ids : TerminalId → Nat) : PageEvent → Prop
  | .pagingExecute _ => True
  | .pagingVideoMemory page _ =>
      page = VIDEO_MEM / PAGE_SIZE ∨ ∃ t, page = VIDEO_MEM / PAGE_SIZE + ids t
  | .enableVidmapPaging => True
  | .mark _ _ _ => False

/-- The routines lead from the tables of one state to those of another. -/
structure State.Repaged (before after : State) : Prop where
  stores : ∃ events : List PageEvent,
    (∀ event ∈ events, event.ByKernel before.layout.2) ∧
      (events.foldl Mmu.pageStep before.display.mmu).tables = after.display.mmu.tables
  ids : after.layout.2 = before.layout.2

/-- The entries that the walk uses are open to level 3; what is open there may be read. -/
def walkReads (registers : ControlRegisters) (load : Nat → Nat) (va : Nat) : Bool :=
  let pde := load (2 ^ 12 * (registers.cr3 / 2 ^ 12) + 4 * (va / 2 ^ 22))
  let pte := load (2 ^ 12 * bitsAt pde 12 20 + 4 * (va / 2 ^ 12 % 2 ^ 10))
  bitsAt pde 2 1 == 1 && (bitsAt pde 7 1 == 1 || bitsAt pte 2 1 == 1)

/-- What the processor lets a program do when the tables are those of process `pid`. -/
structure Confined (pid : Nat) (registers : ControlRegisters) (load : Nat → Nat) : Prop where
  /-- Its own page is there for it. -/
  own : ∀ va, State.inUserPage va →
    walk registers load va = some (0x800000 + 0x400000 * pid + (va - VIRTUAL_128MB_START)) ∧
      walkPermits registers load va = true
  /-- And beside it the page of `vidmap`, which is video memory. -/
  reach : ∀ va < 2 ^ 32, ∀ pa, walk registers load va = some pa →
    walkReads registers load va = true →
      State.inUserPage va ∧ OnFrame pid pa ∨
        (VIDMAP_ADDRESS ≤ va ∧ va < VIDMAP_ADDRESS + PAGE_SIZE) ∧
          ∃ k ≤ 3, OnPage (videoPage + k) pa

/-- The directory is closed to level 3 but for two entries, and of those the second leads to video
    memory, if anywhere. -/
structure Mmu.Guarded (mmu : Mmu) : Prop where
  closed : ∀ i, i ≠ Mmu.userIndex → i ≠ vidmapIndex → (mmu.pageDir i).uS = false
  vidmap : mmu.pageDir vidmapIndex = Mmu.absentPde ∨ mmu.pageDir vidmapIndex = vidmapPde
  video : (mmu.vidmapPgTab1 0).present = true →
    videoPage ≤ (mmu.vidmapPgTab1 0).address ∧ (mmu.vidmapPgTab1 0).address ≤ videoPage + 3
  behind : ∀ i, i ≠ 0 → mmu.vidmapPgTab1 i = Mmu.absentPte

section Tables

variable {mmu : Mmu} {display : Display}

theorem tables_of_parts {before after : Mmu} (pageDir : after.pageDir = before.pageDir)
    (pgTab1 : after.pgTab1 = before.pgTab1)
    (vidmapPgTab1 : after.vidmapPgTab1 = before.vidmapPgTab1) : after.tables = before.tables := by
  simp only [Mmu.tables, pageDir, pgTab1, vidmapPgTab1]

/-- What is stored depends on the tables alone. -/
theorem pageStep_tables {before after : Mmu} (same : after.tables = before.tables)
    (event : PageEvent) : (after.pageStep event).tables = (before.pageStep event).tables := by
  simp only [Mmu.tables, Prod.mk.injEq] at same
  obtain ⟨pageDir, pgTab1, vidmapPgTab1⟩ := same
  cases event with
  | pagingExecute pid =>
      simp only [Mmu.tables, Mmu.pageStep, Mmu.pagingExecute, pageDir, pgTab1, vidmapPgTab1]
  | pagingVideoMemory page vidmap =>
      simp only [Mmu.tables, Mmu.pageStep, Mmu.pagingVideoMemory, pageDir, pgTab1, vidmapPgTab1]
  | enableVidmapPaging =>
      simp only [Mmu.tables, Mmu.pageStep, Mmu.enableVidmapPaging, pageDir, pgTab1, vidmapPgTab1]
  | mark table i dirty => simp only [Mmu.tables, Mmu.pageStep, pageDir, pgTab1, vidmapPgTab1]

theorem pageSteps_tables {before after : Mmu} (same : after.tables = before.tables)
    (events : List PageEvent) :
    (events.foldl Mmu.pageStep after).tables = (events.foldl Mmu.pageStep before).tables := by
  induction events generalizing before after with
  | nil => exact same
  | cons event events ih => exact ih (pageStep_tables same event)

theorem store_tables_eq (mmu : Mmu) (va : Nat) (byte : UInt8) :
    (mmu.store va byte).tables = mmu.tables := by
  unfold Mmu.store
  split <;> rfl

theorem twoStores_tables (mmu : Mmu) (va va' : Nat) (byte byte' : UInt8) :
    ((mmu.store va byte).store va' byte').tables = mmu.tables :=
  (store_tables_eq _ _ _).trans (store_tables_eq _ _ _)

theorem copyByte_tables_eq (mmu : Mmu) (dest src : Nat) :
    (mmu.copyByte dest src).tables = mmu.tables := by
  unfold Mmu.copyByte
  split
  · exact store_tables_eq _ _ _
  · rfl

theorem foldl_tables {ι : Type*} {round : Mmu → ι → Mmu}
    (each : ∀ mmu i, (round mmu i).tables = mmu.tables) (indices : List ι) :
    (indices.foldl round mmu).tables = mmu.tables := by
  induction indices generalizing mmu with
  | nil => rfl
  | cons i indices ih => exact ih.trans (each mmu i)

theorem storeBytes_tables_eq (mmu : Mmu) (va : Nat) (bytes : List UInt8) :
    (mmu.storeBytes va bytes).tables = mmu.tables := by
  induction bytes generalizing mmu va with
  | nil => rfl
  | cons byte bytes ih => exact (ih _ _).trans (store_tables_eq mmu va byte)

theorem memcpy_tables_eq (mmu : Mmu) (dest src n : Nat) :
    (mmu.memcpy dest src n).tables = mmu.tables :=
  foldl_tables (fun mmu _ => copyByte_tables_eq mmu _ _) _

theorem scroll_tables (base : Nat) (mmu : Mmu) : (scroll base mmu).tables = mmu.tables := by
  unfold scroll
  refine (foldl_tables (fun mmu _ => twoStores_tables mmu _ _ _ _) _).trans
    (foldl_tables (fun _ _ => ?_) _)
  exact (copyByte_tables_eq _ _ _).trans (copyByte_tables_eq _ _ _)

/-- A routine that stores to memory only. -/
theorem layout_of_tables {mmu : Mmu} (same : mmu.tables = display.mmu.tables) :
    ({ display with mmu } : Display).layout = display.layout := by
  simp only [Display.layout, same]

theorem moveTo_layout (display : Display) (t : TerminalId) (x y : Nat) :
    (display.moveTo t x y).layout = display.layout := by
  simp only [Display.layout, Display.moveTo, Prod.mk.injEq, true_and]
  funext u
  by_cases this : u = t
  · rw [this, Function.update_self]
  · rw [Function.update_of_ne this]

theorem rollIfFull_layout (base : Nat) (t : TerminalId) (display : Display) :
    (display.rollIfFull base t).layout = display.layout := by
  unfold Display.rollIfFull
  split
  · exact (moveTo_layout _ _ _ _).trans (layout_of_tables (scroll_tables base display.mmu))
  · rfl

theorem writeChar_layout (base : Nat) (t : TerminalId) (display : Display) (c : UInt8) :
    (display.writeChar base t c).layout = display.layout := by
  simp only [Display.writeChar]
  split
  · split
    · exact (moveTo_layout _ _ _ _).trans (layout_of_tables (scroll_tables base display.mmu))
    · exact moveTo_layout _ _ _ _
  · split
    · exact (moveTo_layout _ _ _ _).trans (layout_of_tables (twoStores_tables _ _ _ _ _))
    · exact (moveTo_layout _ _ _ _).trans (layout_of_tables (twoStores_tables _ _ _ _ _))

theorem putcOn_layout (base : Nat) (t : TerminalId) (display : Display) (c : UInt8) :
    (display.putcOn base t c).layout = display.layout :=
  (writeChar_layout base t _ c).trans (rollIfFull_layout base t display)

theorem showCursor_layout (display : Display) : display.showCursor.layout = display.layout := rfl

theorem showTerminal_layout (display : Display) (t : TerminalId) :
    ({ display with currentTerminal := t } : Display).layout = display.layout := rfl

theorem clearOn_layout (base : Nat) (t : TerminalId) (display : Display) :
    (display.clearOn base t).layout = display.layout := by
  have blank : ((List.range (NUM_ROWS * NUM_COLS)).foldl (fun mmu i =>
      (mmu.store (base + 2 * i) SPACE).store (base + 2 * i + 1) ATTRIB) display.mmu).tables =
      display.mmu.tables :=
    foldl_tables (fun mmu _ => twoStores_tables mmu _ _ _ _) _
  simp only [Display.clearOn, showCursor_layout, moveTo_layout]
  exact layout_of_tables blank

theorem printf_layout (active : TerminalId) (display : Display) (message : List UInt8) :
    (display.printf active message).layout = display.layout := by
  induction message generalizing display with
  | nil => rfl
  | cons c message ih => exact (ih _).trans (putcOn_layout VIDEO_MEM active display c)

theorem blueScreen_layout (display : Display) : display.blueScreen.layout = display.layout :=
  layout_of_tables (foldl_tables (fun mmu _ => store_tables_eq mmu _ _) _)

theorem currentTerminalBackPutc_layout (display : Display) :
    display.currentTerminalBackPutc.layout = display.layout := by
  simp only [Display.currentTerminalBackPutc]
  split
  · rfl
  · split
    · exact (layout_of_tables (twoStores_tables _ _ _ _ _)).trans (moveTo_layout _ _ _ _)
    · exact (layout_of_tables (twoStores_tables _ _ _ _ _)).trans (moveTo_layout _ _ _ _)

theorem saveScreen_layout (display : Display) : display.saveScreen.layout = display.layout :=
  layout_of_tables (memcpy_tables_eq _ _ _ _)

theorem loadScreen_layout (display : Display) : display.loadScreen.layout = display.layout :=
  layout_of_tables (memcpy_tables_eq _ _ _ _)

end Tables

namespace State

section Routines

variable {s before after : State}

theorem Repaged.of_layout (same : after.layout = before.layout) : Repaged before after where
  stores := ⟨[], fun _ member => absurd member List.not_mem_nil,
    (congrArg Prod.fst same).symm⟩
  ids := congrArg Prod.snd same

/-- One of the four stores. -/
theorem Repaged.of_event (event : PageEvent) (byKernel : event.ByKernel before.layout.2)
    (tables : (before.display.mmu.pageStep event).tables = after.display.mmu.tables)
    (ids : after.layout.2 = before.layout.2) : Repaged before after where
  stores := by
    refine ⟨[event], fun other member => ?_, tables⟩
    cases List.mem_singleton.mp member
    exact byKernel
  ids := ids

theorem Repaged.trans {later : State} (first : Repaged before after)
    (second : Repaged after later) : Repaged before later where
  stores := by
    obtain ⟨events, byKernel, tables⟩ := first.stores
    obtain ⟨events', byKernel', tables'⟩ := second.stores
    refine ⟨events ++ events', fun event member => ?_, ?_⟩
    · cases List.mem_append.mp member with
      | inl member => exact byKernel event member
      | inr member =>
          rw [← first.ids]
          exact byKernel' event member
    · rw [List.foldl_append]
      exact (pageSteps_tables tables events').trans tables'
  ids := second.ids.trans first.ids

theorem Repaged.andThen {rest : State → State} (first : Repaged before s)
    (keeps : ∀ s, Repaged s (rest s)) : Repaged before (s.andThen rest) := by
  unfold State.andThen
  split
  · exact first
  · exact first.trans (keeps s)

/-- The globals and the way on do not matter. -/
theorem Repaged.of_display {proc : Proc} {control : Control}
    (repaged : Repaged ⟨proc, s.display, control⟩ after) : Repaged s after :=
  ⟨repaged.stores, repaged.ids⟩

theorem exceptionHandler_layout (s : State) (vectorNumber : Nat) :
    (s.exceptionHandler vectorNumber).layout = s.layout := by
  obtain ⟨message, _, result⟩ := exceptionHandler_display s vectorNumber
  have printed : (s.display.blueScreen.printf s.proc.activeTerminal message).layout = s.layout :=
    (printf_layout _ _ _).trans (blueScreen_layout _)
  rw [← printed]
  simp only [layout, result]
  rfl

theorem exceptionHandler_repaged (s : State) (vectorNumber : Nat) :
    Repaged s (s.exceptionHandler vectorNumber) :=
  .of_layout (exceptionHandler_layout s vectorNumber)

theorem pagingExecute_repaged (s : State) (pid : Nat) : Repaged s (s.pagingExecute pid) :=
  .of_event (.pagingExecute pid) trivial rfl rfl

/-- Where the control block is out of reach the entry stays present or absent, as it is. -/
theorem pagingVideoMemory_repaged (s : State) : Repaged s s.pagingVideoMemory := by
  have chosen (vidmap : Bool) :
      (PageEvent.pagingVideoMemory (s.display.ownPage s.proc.activeTerminal) vidmap).ByKernel
        s.layout.2 := by
    simp only [PageEvent.ByKernel, Display.ownPage]
    split
    · exact .inl rfl
    · exact .inr ⟨_, rfl⟩
  have mapped : Repaged s { s with display := s.display.mapVideo s.proc.activeTerminal } := by
    refine .of_event _ (chosen (s.display.mmu.vidmapPgTab1 0).present) ?_ rfl
    exact tables_of_parts rfl rfl (Function.update_idem ..)
  simp only [pagingVideoMemory]
  split
  · refine .of_event _ (chosen ((s.proc.pcb s.proc.activePid).vidmapFlag = 1)) ?_ rfl
    exact congrArg Mmu.tables (pagingVideoMemory_mmu _ _ _).symm
  · exact mapped.trans (exceptionHandler_repaged _ _)

theorem contextSwitchExecute_repaged (s : State) : Repaged s s.contextSwitchExecute := by
  unfold contextSwitchExecute
  split
  · exact .of_layout rfl
  · exact exceptionHandler_repaged s PAGE_FAULT

/-- The two parts of every switch, and then parts of any kind. -/
theorem switched_repaged (s : State) (pid : Nat) {rest : State → State}
    (keeps : ∀ s, Repaged s (rest s)) :
    Repaged s (((s.pagingExecute pid).pagingVideoMemory).andThen rest) :=
  ((pagingExecute_repaged s pid).trans (pagingVideoMemory_repaged _)).andThen keeps

theorem resumed_repaged (s : State) (proc : Proc) (control : Control) (pid : Nat)
    {rest : State → State} (keeps : ∀ s, Repaged s (rest s)) :
    Repaged s (((State.pagingExecute ⟨proc, s.display, control⟩ pid).pagingVideoMemory).andThen
      rest) :=
  (switched_repaged ⟨proc, s.display, control⟩ pid keeps).of_display

theorem stopped_repaged (s : State) (proc : Proc) (control : Control) :
    Repaged s (State.exceptionHandler ⟨proc, s.display, control⟩ PAGE_FAULT) :=
  (exceptionHandler_repaged ⟨proc, s.display, control⟩ PAGE_FAULT).of_display

theorem entered_repaged (s : State) (proc : Proc) (control : Control) :
    Repaged s (State.contextSwitchExecute ⟨proc, s.display, control⟩) :=
  (contextSwitchExecute_repaged ⟨proc, s.display, control⟩).of_display

theorem bootEnterTerminal_repaged (s : State) (t : TerminalId) :
    Repaged s (s.bootEnterTerminal t) := by
  simp only [bootEnterTerminal]
  exact resumed_repaged s _ _ _ fun s => entered_repaged s _ _

theorem shell_repaged (s : State) (proc : Proc) (control : Control) (t : TerminalId) :
    Repaged s (State.bootEnterTerminal t ⟨proc, s.display, control⟩) :=
  (bootEnterTerminal_repaged ⟨proc, s.display, control⟩ t).of_display

theorem schedule_repaged (s : State) (interrupted : Context) :
    Repaged s (s.schedule interrupted) := by
  simp only [schedule]
  generalize nextTerminal s.proc.activeTerminal = t
  generalize (if s.proc.currentProcessId t ≠ 0 then s.proc.activePid else precedingRoot t) = saved
  split
  · split
    · cases t with
      | terminal1 => exact shell_repaged s _ _ .terminal1
      | terminal2 => exact shell_repaged s _ _ .terminal2
      | terminal3 => exact shell_repaged s _ _ .terminal3
    · exact resumed_repaged s _ _ _ fun s => .of_layout rfl
  · exact stopped_repaged s _ _

theorem printf_repaged (s : State) (message : String) : Repaged s (s.printf message) :=
  .of_layout (printf_layout s.proc.activeTerminal s.display (text message))

theorem syscallHalt_repaged (s : State) (status : UInt8) : Repaged s (s.syscallHalt status) := by
  have root (message : String) (t : TerminalId) :
      Repaged s ((s.printf message).bootEnterTerminal t) :=
    (printf_repaged s message).trans (bootEnterTerminal_repaged _ t)
  unfold syscallHalt
  split
  · exact root _ .terminal1
  split
  · exact root _ .terminal2
  split
  · exact root _ .terminal3
  simp only
  split
  · split
    · split
      · exact stopped_repaged s _ _
      · exact resumed_repaged s _ _ _ fun s => .of_layout rfl
    · exact stopped_repaged s _ _
  · exact exceptionHandler_repaged s _

theorem loadProgram_repaged (s : State) (bootBlock : Option Image) (inode : Int) :
    Repaged s (s.loadProgram bootBlock inode) :=
  .of_layout (layout_of_tables (storeBytes_tables_eq _ _ _))

theorem startProgram_repaged (s : State) (bootBlock : Option Image) (inode : Int)
    (caller : Context) : Repaged s (s.startProgram bootBlock inode caller) := by
  have printed (proc : Proc) (control : Control) (message : List UInt8) :
      Repaged s ⟨proc, s.display.printf s.proc.activeTerminal message, control⟩ :=
    .of_layout (printf_layout s.proc.activeTerminal s.display message)
  simp only [startProgram, printf]
  split
  · exact printed _ _ _
  · split
    · refine resumed_repaged s _ _ _ fun s => (loadProgram_repaged s _ _).andThen fun s => ?_
      split
      · exact entered_repaged s _ _
      · exact exceptionHandler_repaged s _
    · exact stopped_repaged s _ _

theorem checkCommand_repaged (s : State) (bootBlock : Option Image) (stack : List UInt8)
    (command : CharPtr) : Repaged s (s.checkCommand bootBlock stack command).1 := by
  obtain ⟨message, _, _, result, _⟩ := checkCommand_effect (s := s) bootBlock stack command
  rw [result]
  exact .of_layout (printf_layout _ _ (text message))

theorem syscallExecute_repaged (s : State) (bootBlock : Option Image) (stack : List UInt8)
    (command : CharPtr) (caller : Context) :
    Repaged s (s.syscallExecute bootBlock stack command caller) := by
  have checked := s.checkCommand_repaged bootBlock stack command
  unfold syscallExecute
  split
  · rename_i result
    rw [result] at checked
    exact ⟨checked.stores, checked.ids⟩
  · rename_i result
    rw [result] at checked
    exact checked.trans (startProgram_repaged _ _ _ _)

/-- A terminal switch stores to memory before and after `paging_video_memory`. -/
theorem shown_repaged (s : State) {display : Display} {rest : State → State}
    (same : display.layout = s.layout) (keeps : ∀ s, (rest s).layout = s.layout) :
    Repaged s ((({ s with display } : State).pagingVideoMemory).andThen rest) := by
  have stored : Repaged s { s with display } := .of_layout same
  exact (stored.trans (pagingVideoMemory_repaged _)).andThen fun s => .of_layout (keeps s)

theorem switchToTerminal_repaged (s : State) (t : TerminalId) :
    Repaged s (s.switchToTerminal t) := by
  have saved (t : TerminalId) :
      Display.layout { s.display.saveScreen with currentTerminal := t } = s.layout :=
    (showTerminal_layout _ t).trans (saveScreen_layout s.display)
  have loaded (s : State) :
      State.layout { s with display := s.display.loadScreen.showCursor } = s.layout :=
    (showCursor_layout s.display.loadScreen).trans (loadScreen_layout s.display)
  have byMapping (t : TerminalId) : Repaged s (s.switchByMapping t) := by
    simp only [switchByMapping]
    split
    · exact .of_layout rfl
    · exact shown_repaged s (saved t) fun s => loaded s
  cases t with
  | terminal1 => exact byMapping .terminal1
  | terminal3 => exact byMapping .terminal3
  | terminal2 =>
      simp only [switchToTerminal, switchToTerminal2]
      split
      · exact .of_layout rfl
      · exact shown_repaged s ((loadScreen_layout _).trans (saved .terminal2)) fun s => rfl

theorem userStore_tables (mmu : Mmu) (va : Nat) (byte : UInt8) :
    (mmu.userStore va byte).tables = mmu.tables := by
  unfold Mmu.userStore
  split
  · exact store_tables_eq mmu va byte
  · rfl

theorem step_repaged (s : State) (bootBlock : Option Image) (action : Action) :
    Repaged s (s.step bootBlock action) := by
  cases action with
  | schedule interrupted => exact schedule_repaged s interrupted
  | execute stack command caller => exact syscallExecute_repaged s bootBlock stack command caller
  | halt status => exact syscallHalt_repaged s status
  | bootEnter t => exact bootEnterTerminal_repaged s t
  | putc c => exact .of_layout (putcOn_layout _ _ _ c)
  | clear => exact .of_layout (clearOn_layout _ _ _)
  | echo c => exact .of_layout (putcOn_layout _ _ _ c)
  | echoBack => exact .of_layout (currentTerminalBackPutc_layout _)
  | echoClear => exact .of_layout (clearOn_layout _ _ _)
  | switchTo t => exact switchToTerminal_repaged s t
  | userStore va byte => exact .of_layout (layout_of_tables (userStore_tables _ va byte))
  | kernelCopy va bytes => exact .of_layout (layout_of_tables (storeBytes_tables_eq _ va bytes))

theorem syscallVidmap_repaged (s : State) (screenStart : Nat) :
    Repaged s (s.syscallVidmap screenStart) := by
  have enabled (proc : Proc) (bytes : List UInt8) (control : Control) :
      Repaged s ⟨proc, { s.display with
        mmu := s.display.mmu.enableVidmapPaging.storeBytes screenStart bytes }, control⟩ :=
    .of_event .enableVidmapPaging trivial (storeBytes_tables_eq _ _ _).symm rfl
  simp only [syscallVidmap]
  split
  · exact .of_layout rfl
  · split
    · exact .of_layout rfl
    · split
      · split
        · exact (enabled _ _ _).trans (exceptionHandler_repaged _ _)
        · exact enabled _ _ _
      · exact exceptionHandler_repaged _ _

theorem createTerminalShell_repaged (s : State) (t : TerminalId) (bootBlock : Option Image)
    (stack : List UInt8) : Repaged s (s.createTerminalShell t bootBlock stack) := by
  simp only [createTerminalShell]
  split
  · exact .of_layout rfl
  · split
    · refine Repaged.andThen ?_ fun s => ?_
      · exact (pagingExecute_repaged s _).trans (loadProgram_repaged _ _ _)
      · split
        · exact .of_layout rfl
        · exact exceptionHandler_repaged s PAGE_FAULT
    · exact .of_layout rfl

/-- From `page_initialize` to the `hlt` loop. -/
theorem entry_repaged (bootBlock : Option Image) (buffers : TerminalId → List UInt8) (s : State) :
    Repaged s.initDevices (s.entry bootBlock buffers) := by
  have cleared (s : State) :
      Repaged s { s with display := s.display.clear s.proc.activeTerminal } :=
    .of_layout (clearOn_layout VIDEO_MEM s.proc.activeTerminal s.display)
  have idle (s : State) : Repaged s { s with control := .idle } := .of_layout rfl
  simp only [entry, createTerminal1Shell, createTerminal2Shell, createTerminal3Shell]
  apply Repaged.trans ?_ (idle _)
  apply Repaged.trans ?_ (createTerminalShell_repaged _ .terminal3 _ _)
  apply Repaged.trans ?_ (createTerminalShell_repaged _ .terminal2 _ _)
  apply Repaged.trans ?_ (createTerminalShell_repaged _ .terminal1 _ _)
  exact (printf_repaged _ _).trans (cleared _)

end Routines

end State

section Guarded

variable {mmu : Mmu} {ids : TerminalId → Nat}

/-- Four pages of video memory can be chosen. -/
theorem PageEvent.ByKernel.fits {event : PageEvent} (byKernel : event.ByKernel TerminalId.number) :
    event.Fits := by
  cases event with
  | pagingVideoMemory page vidmap =>
      have base : VIDEO_MEM / PAGE_SIZE = 0xB8 := rfl
      simp only [PageEvent.Fits]
      cases byKernel with
      | inl shown => omega
      | inr backing =>
          obtain ⟨t, backing⟩ := backing
          have := (State.number_range t).2
          omega
  | pagingExecute pid => trivial
  | enableVidmapPaging => trivial
  | mark table i dirty => trivial

theorem pageInitialize_guarded (mmu : Mmu) : mmu.pageInitialize.Guarded where
  closed i _ _ := by
    match i with
    | 0 => rfl
    | 1 => rfl
    | i + 2 => rfl
  vidmap := .inl rfl
  video present := by cases present
  behind _ _ := rfl

theorem Mmu.Guarded.pageStep (guarded : mmu.Guarded) (small : ∀ t, ids t ≤ 3)
    {event : PageEvent} (byKernel : event.ByKernel ids) : (mmu.pageStep event).Guarded := by
  have apart : vidmapIndex ≠ Mmu.userIndex := by decide
  cases event with
  | pagingExecute pid =>
      constructor
      · intro i notUser notVidmap
        simp only [Mmu.pageStep, Mmu.pagingExecute, Function.update_of_ne notUser]
        exact guarded.closed i notUser notVidmap
      · simp only [Mmu.pageStep, Mmu.pagingExecute, Function.update_of_ne apart]
        exact guarded.vidmap
      · exact guarded.video
      · exact guarded.behind
  | pagingVideoMemory page vidmap =>
      have video : videoPage ≤ page ∧ page ≤ videoPage + 3 := by
        have base : VIDEO_MEM / PAGE_SIZE = videoPage := rfl
        cases byKernel with
        | inl shown => omega
        | inr backing =>
            obtain ⟨t, backing⟩ := backing
            have := small t
            omega
      constructor
      · exact guarded.closed
      · exact guarded.vidmap
      · intro present
        simp only [Mmu.pageStep, Mmu.pagingVideoMemory, Function.update_self]
        exact video
      · intro i notFirst
        simp only [Mmu.pageStep, Mmu.pagingVideoMemory, Function.update_of_ne notFirst]
        exact guarded.behind i notFirst
  | enableVidmapPaging =>
      constructor
      · intro i notUser notVidmap
        simp only [Mmu.pageStep, Mmu.enableVidmapPaging, Function.update_of_ne notVidmap]
        exact guarded.closed i notUser notVidmap
      · right
        simp only [Mmu.pageStep, Mmu.enableVidmapPaging, Function.update_self]
      · intro present
        simp only [Mmu.pageStep, Mmu.enableVidmapPaging, Function.update_self]
        decide
      · intro i notFirst
        simp only [Mmu.pageStep, Mmu.enableVidmapPaging, Function.update_of_ne notFirst]
        exact guarded.behind i notFirst
  | mark table i dirty => exact byKernel.elim

theorem Mmu.Guarded.of_tables {after : Mmu} (guarded : mmu.Guarded)
    (same : mmu.tables = after.tables) : after.Guarded := by
  simp only [Mmu.tables, Prod.mk.injEq] at same
  obtain ⟨pageDir, _, vidmapPgTab1⟩ := same
  obtain ⟨closed, vidmap, video, behind⟩ := guarded
  rw [pageDir] at closed vidmap
  rw [vidmapPgTab1] at video behind
  exact ⟨closed, vidmap, video, behind⟩

/-- Whatever the routines store. -/
theorem Mmu.Guarded.of_repaged {before after : State} (guarded : before.display.mmu.Guarded)
    (small : ∀ t, before.layout.2 t ≤ 3) (repaged : before.Repaged after) :
    after.display.mmu.Guarded := by
  obtain ⟨events, byKernel, tables⟩ := repaged.stores
  apply Mmu.Guarded.of_tables ?_ tables
  clear tables
  generalize before.display.mmu = mmu at guarded
  induction events generalizing mmu with
  | nil => exact guarded
  | cons event events ih =>
      rw [List.forall_mem_cons] at byKernel
      exact ih byKernel.2 _ (guarded.pageStep small byKernel.1)

/-- The walk finds the two doors only. -/
theorem Mmu.Guarded.reach (guarded : mmu.Guarded) {pid : Nat} (few : pid ≤ 6)
    (user : mmu.pageDir userIndex = userEntry pid) {va pa : Nat}
    (mapped : mmu.translate va = some pa) (uS : (mmu.pageDir (va / 2 ^ 22)).uS = true) :
    State.inUserPage va ∧ OnFrame pid pa ∨
      (VIDMAP_ADDRESS ≤ va ∧ va < VIDMAP_ADDRESS + PAGE_SIZE) ∧
        ∃ k ≤ 3, OnPage (videoPage + k) pa := by
  by_cases isUser : va / 2 ^ 22 = userIndex
  · left
    have inside : State.inUserPage va := by
      simp only [userIndex, VIRTUAL_ADDRESS_PROGRAM_START] at isUser
      simp only [State.inUserPage, VIRTUAL_128MB_START]
      omega
    rw [translate_user few user inside.1 inside.2, Option.some.injEq] at mapped
    obtain ⟨from_, until_⟩ := inside
    refine ⟨⟨from_, until_⟩, ?_⟩
    simp only [OnFrame]
    omega
  · by_cases isVidmap : va / 2 ^ 22 = vidmapIndex
    · right
      rw [isVidmap] at uS
      cases guarded.vidmap with
      | inl absent =>
          rw [absent] at uS
          cases uS
      | inr entry =>
          have through : pageOf (mmu.vidmapPgTab1 (va / PAGE_SIZE % 1024)) va = some pa := by
            rw [← mapped, translate, isVidmap, entry]
            rfl
          by_cases first : va / PAGE_SIZE % 1024 = 0
          · rw [first, pageOf] at through
            split at through
            · rename_i present
              obtain ⟨low, high⟩ := guarded.video present
              rw [Option.some.injEq] at through
              simp only [PAGE_SIZE] at first through
              refine ⟨?_, (mmu.vidmapPgTab1 0).address - videoPage, by omega, ?_⟩
              · simp only [vidmapIndex, VIDMAP_ADDRESS, VIRTUAL_128MB_START,
                  KERNEL_STACK_BASE_ADDRESS] at isVidmap
                simp only [VIDMAP_ADDRESS, VIRTUAL_128MB_START, KERNEL_STACK_BASE_ADDRESS,
                  PAGE_SIZE]
                omega
              · simp only [OnPage]
                omega
            · cases through
          · rw [guarded.behind _ first] at through
            cases through
    · rw [guarded.closed _ isUser isVidmap] at uS
      cases uS

end Guarded

section Hardware

variable {at_ : Placement} {w : PageWords} {mmu : Mmu}

theorem PageWords.Hold.of_tables {after : Mmu} (hold : w.Hold at_ mmu)
    (same : mmu.tables = after.tables) : w.Hold at_ after := by
  simp only [Mmu.tables, Prod.mk.injEq] at same
  obtain ⟨pageDir, pgTab1, vidmapPgTab1⟩ := same
  exact ⟨pageDir ▸ hold.pageDir, pgTab1 ▸ hold.pgTab1, vidmapPgTab1 ▸ hold.vidmapPgTab1⟩

/-- The walk looks at bit 2 of the directory entry. -/
theorem PageWords.Hold.uS_of_reads (hold : w.Hold at_ mmu) {load : Nat → Nat}
    (loads : at_.Loads load w) (registers : ControlRegisters) {va : Nat} (small : va < 2 ^ 32)
    (reads : walkReads (pagingEnable at_.pageDir registers) load va = true) :
    (mmu.pageDir (va / 2 ^ 22)).uS = true := by
  have index : va / 2 ^ 22 < SIZE := by
    simp only [SIZE]
    omega
  have aligned : 2 ^ 12 * (at_.pageDir / 2 ^ 12) = at_.pageDir := by
    have := at_.aligned.1
    omega
  have uS : bitsAt (w.pageDir (va / 2 ^ 22)) 2 1 = _ := (hold.pageDir _ index).uS
  simp only [walkReads, pagingEnable, aligned, loads.pageDir _ index, uS, Bool.and_eq_true] at reads
  have one : ∀ b : Bool, (b.toNat == 1) = b := by decide
  rw [one] at reads
  exact reads.1

theorem Mmu.Guarded.confined (guarded : mmu.Guarded) {pid : Nat} (few : pid ≤ 6)
    (user : mmu.pageDir Mmu.userIndex = Mmu.userEntry pid) (hold : w.Hold at_ mmu)
    {load : Nat → Nat} (loads : at_.Loads load w) (registers : ControlRegisters) :
    Confined pid (pagingEnable at_.pageDir registers) load where
  own va inside := by
    obtain ⟨from_, until_⟩ := inside
    have small : va < 2 ^ 32 := by
      simp only [VIRTUAL_128MB_START] at until_
      omega
    have mapped := Mmu.translate_user few user from_ until_
    constructor
    · rw [hold.walk_eq loads registers small, mapped]
    · have directory : va / 2 ^ 22 = Mmu.userIndex := by
        simp only [VIRTUAL_128MB_START] at from_ until_
        simp only [Mmu.userIndex, VIRTUAL_ADDRESS_PROGRAM_START]
        omega
      rw [hold.permits_eq loads registers small (by rw [mapped]; rfl), Mmu.userWritable, directory,
        user]
      rfl
  reach va small pa walked reads := by
    rw [hold.walk_eq loads registers small] at walked
    exact guarded.reach few user walked (hold.uS_of_reads loads registers small reads)

end Hardware

section Runs

variable {s later : State} {bootBlock : Option Image} {buffers : TerminalId → List UInt8}
  {as : List VideoAction}

theorem State.Repaged.of_run (run : (videoMachine bootBlock).Run s as later) :
    s.Repaged later := by
  apply run.invariant (I := State.Repaged s) ?_ (.of_layout rfl)
  intro before action repaged _
  cases action with
  | kernel action => exact repaged.trans (before.step_repaged bootBlock action)
  | vidmap screenStart => exact repaged.trans (before.syscallVidmap_repaged screenStart)

/-- In every state that the kernel comes to with a process active, in every order of steps: the
    tables are what stores of the four routines have made of those of `page_initialize`, and
    whatever such stores have left in memory, marked by the processor or not, lets the program in
    its own page and in video memory and nowhere else. -/
theorem hardware_confines_programs (on : PowerOn s)
    (run : (videoMachine bootBlock).Run (s.entry bootBlock buffers) as later)
    (running : later.faulted = false) (active : later.proc.activePid ≠ 0) :
    (∃ stores : List PageEvent, (∀ event ∈ stores, event.ByKernel TerminalId.number) ∧
      (stores.foldl Mmu.pageStep s.display.mmu.pageInitialize).tables =
        later.display.mmu.tables) ∧
      ∀ events : List PageEvent, (∀ event ∈ events, event.Fits) →
        (events.foldl Mmu.pageStep s.display.mmu.pageInitialize).tables =
          later.display.mmu.tables →
        ∀ (at_ : Placement) (w : PageWords) (registers : ControlRegisters) (load : Nat → Nat),
          at_.Loads load (events.foldl (PageWords.step at_) (w.pageInitialize at_)) →
          Confined later.proc.activePid (pagingEnable at_.pageDir registers) load := by
  have repaged : s.initDevices.Repaged later :=
    (State.entry_repaged bootBlock buffers s).trans (.of_run run)
  have sound : Sound later := ((on.entry_videoSound buffers).of_run run running).sound
  have start : s.initDevices.display.mmu.Guarded := pageInitialize_guarded s.display.mmu
  have small : ∀ t, s.initDevices.layout.2 t ≤ 3 := fun t => (State.number_range t).2
  have guarded : later.display.mmu.Guarded := start.of_repaged small repaged
  constructor
  · exact repaged.stores
  · intro events fits same at_ w registers load loads
    have hold := (PageWords.pageInitialize_hold at_ w s.display.mmu).steps fits
    exact guarded.confined (State.active_range sound active).2 (sound.user active)
      (hold.of_tables same) loads registers

/-- Tables of zeros, to start with. -/
def zeroWords : PageWords := ⟨fun _ => 0, fun _ => 0, fun _ => 0⟩

/-- Programs are started, ask for the video page and halt, while the timer goes on and another
    terminal is put on display. -/
def manyPages : List VideoAction :=
  [.kernel (.schedule ⟨0x7FFF00, 0x7FFF80⟩), .vidmap VIRTUAL_128MB_START,
    .kernel (.execute [] State.shellName ⟨0x7FDF00, 0x7FDF80⟩),
    .kernel (.schedule ⟨0x7F7F00, 0x7F7F80⟩), .kernel (.switchTo .terminal3),
    .vidmap VIRTUAL_128MB_START, .kernel (.userStore VIDMAP_ADDRESS.pred 7),
    .kernel (.schedule ⟨0x7FBF00, 0x7FBF80⟩), .kernel (.schedule ⟨0x7FFF00, 0x7FFF80⟩),
    .kernel (.halt 0)]

theorem many_pages_confined :
    ∃ later, (videoMachine (some shellImage)).Run (poweredOn.entry (some shellImage) (fun _ => []))
        manyPages later ∧
      ∃ stores : List PageEvent,
        (stores.foldl Mmu.pageStep poweredOn.display.mmu.pageInitialize).tables =
          later.display.mmu.tables ∧
        Confined later.proc.activePid (pagingEnable inARow.pageDir ⟨0, 0, 0⟩)
          (rowMemory (stores.foldl (PageWords.step inARow) (zeroWords.pageInitialize inARow))) := by
  obtain ⟨later, run, going⟩ : ∃ later, (videoMachine (some shellImage)).Run
      (poweredOn.entry (some shellImage) (fun _ => [])) manyPages later ∧ Going later :=
    poweredOn_powerOn.videoRun (fun _ => shellImage_found []) _ (by
      simp [VideoAction.InUserPage, Action.InUserPage, State.inUserPage, VIDMAP_ADDRESS,
        VIRTUAL_128MB_START, KERNEL_STACK_BASE_ADDRESS])
  obtain ⟨⟨stores, byKernel, tables⟩, confined⟩ :=
    hardware_confines_programs poweredOn_powerOn run going.running going.active
  have fits : ∀ event ∈ stores, event.Fits := fun event member => (byKernel event member).fits
  exact ⟨later, run, stores, tables, confined stores fits tables inARow zeroWords ⟨0, 0, 0⟩ _
    (inARow_loads _)⟩

end Runs

end LightOS.Kernel
