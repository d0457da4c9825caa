import LightOS.Filesystem.Strings
import LightOS.Kernel.Vidmap

/-! # How far memory reaches

The kernel fills four entries of the page directory: the low 4 MB, its own page, the user page
and the video page behind it.  All the others stay absent, whatever happens, and so a string
that can be read up to its NUL is never as long as an `int` can count.
-/

namespace LightOS.Kernel

open Lib Filesystem Descriptor

/-- The directory entries behind the video page. -/
def State.upper (s : State) (i : Nat) : Pde := s.display.mmu.pageDir (vidmapIndex + 1 + i)

/-- Nothing is mapped behind the video page. -/
def State.Bounded (s : State) : Prop := ∀ i, s.upper i = Mmu.absentPde

/-- The bytes of a string, up to its NUL, as the kernel reads them from `va` on. -/
def Mmu.HoldsString (mmu : Mmu) (va : Nat) (string : CharPtr) : Prop :=
  ∀ k ≤ strlen string, mmu.loadByte (va + k) = some (string k)

section Stores

variable {mmu : Mmu} {display : Display}

theorem foldl_pageDir {ι : Type*} {round : Mmu → ι → Mmu}
    (each : ∀ mmu i, (round mmu i).pageDir = mmu.pageDir) (indices : List ι) :
    (indices.foldl round mmu).pageDir = mmu.pageDir := by
  induction indices generalizing mmu with
  | nil => rfl
  | cons i indices ih => exact ih.trans (each mmu i)

theorem store_pageDir (mmu : Mmu) (va : Nat) (byte : UInt8) :
    (mmu.store va byte).pageDir = mmu.pageDir := (mmu.store_tables va byte).1

theorem twoStores_pageDir (mmu : Mmu) (va va' : Nat) (byte byte' : UInt8) :
    ((mmu.store va byte).store va' byte').pageDir = mmu.pageDir :=
  (store_pageDir _ _ _).trans (store_pageDir _ _ _)

theorem scroll_pageDir (base : Nat) (mmu : Mmu) : (scroll base mmu).pageDir = mmu.pageDir := by
  unfold scroll
  refine (foldl_pageDir (fun mmu _ => twoStores_pageDir mmu _ _ _ _) _).trans
    (foldl_pageDir (fun _ _ => ?_) _)
  exact (Mmu.copyByte_tables _ _ _).1.trans (Mmu.copyByte_tables _ _ _).1

theorem putcOn_pageDir (base : Nat) (t : TerminalId) (display : Display) (c : UInt8) :
    (display.putcOn base t c).mmu.pageDir = display.mmu.pageDir := by
  have rolled : (display.rollIfFull base t).mmu.pageDir = display.mmu.pageDir := by
    unfold Display.rollIfFull
    split
    · exact scroll_pageDir base display.mmu
    · rfl
  have written (display : Display) :
      (display.writeChar base t c).mmu.pageDir = display.mmu.pageDir := by
    simp only [Display.writeChar]
    split
    · split
      · exact scroll_pageDir base display.mmu
      · rfl
    · split <;> exact twoStores_pageDir _ _ _ _ _
  exact (written _).trans rolled

theorem clearOn_pageDir (base : Nat) (t : TerminalId) (display : Display) :
    (display.clearOn base t).mmu.pageDir = display.mmu.pageDir :=
  foldl_pageDir (fun mmu _ => twoStores_pageDir mmu _ _ _ _) _

theorem printf_pageDir (active : TerminalId) (display : Display) (message : List UInt8) :
    (display.printf active message).mmu.pageDir = display.mmu.pageDir := by
  induction message generalizing display with
  | nil => rfl
  | cons c message ih => exact (ih _).trans (putcOn_pageDir VIDEO_MEM active display c)

theorem blueScreen_pageDir (display : Display) :
    display.blueScreen.mmu.pageDir = display.mmu.pageDir :=
  foldl_pageDir (fun mmu _ => store_pageDir mmu _ _) _

theorem backPutc_pageDir (display : Display) :
    display.currentTerminalBackPutc.mmu.pageDir = display.mmu.pageDir := by
  simp only [Display.currentTerminalBackPutc]
  split
  · rfl
  · split <;> exact twoStores_pageDir _ _ _ _ _

end Stores

namespace State

section Routines

variable {s : State}

theorem upper_of_pageDir {before after : State}
    (same : after.display.mmu.pageDir = before.display.mmu.pageDir) :
    after.upper = before.upper := by
  funext i
  exact congrFun same _

theorem exceptionHandler_upper (s : State) (vectorNumber : Nat) :
    (s.exceptionHandler vectorNumber).upper = s.upper := by
  obtain ⟨message, _, result⟩ := exceptionHandler_display s vectorNumber
  refine upper_of_pageDir ?_
  rw [result]
  exact (printf_pageDir _ _ _).trans (blueScreen_pageDir _)

theorem pagingExecute_upper (s : State) (pid : Nat) : (s.pagingExecute pid).upper = s.upper := by
  funext i
  have apart : vidmapIndex + 1 + i ≠ Mmu.userIndex := by
    have below : Mmu.userIndex < vidmapIndex + 1 := by decide
    omega
  simp only [upper, pagingExecute, Mmu.pagingExecute, Function.update_of_ne apart]

theorem pagingVideoMemory_upper (s : State) : s.pagingVideoMemory.upper = s.upper := by
  simp only [pagingVideoMemory]
  split
  · rfl
  · exact exceptionHandler_upper _ _

theorem contextSwitchExecute_upper (s : State) : s.contextSwitchExecute.upper = s.upper := by
  unfold contextSwitchExecute
  split
  · rfl
  · exact exceptionHandler_upper s PAGE_FAULT

/-- The two parts of every switch, and then parts that leave the directory alone. -/
theorem switched_upper (s : State) (pid : Nat) {rest : State → State}
    (keeps : ∀ s, (rest s).upper = s.upper) :
    (((s.pagingExecute pid).pagingVideoMemory).andThen rest).upper = s.upper :=
  andThen_keeps _ upper ((pagingVideoMemory_upper _).trans (pagingExecute_upper s pid)) keeps

theorem bootEnterTerminal_upper (s : State) (t : TerminalId) :
    (s.bootEnterTerminal t).upper = s.upper := by
  simp only [bootEnterTerminal]
  exact switched_upper _ _ fun s => contextSwitchExecute_upper _

/-- The globals do not matter. -/
theorem shell_upper (s : State) (proc : Proc) (control : Control) (t : TerminalId) :
    (State.bootEnterTerminal t ⟨proc, s.display, control⟩).upper = s.upper :=
  bootEnterTerminal_upper ⟨proc, s.display, control⟩ t

theorem resumed_upper (s : State) (proc : Proc) (control : Control) (pid : Nat)
    {rest : State → State} (keeps : ∀ s, (rest s).upper = s.upper) :
    (((State.pagingExecute ⟨proc, s.display, control⟩ pid).pagingVideoMemory).andThen
      rest).upper = s.upper :=
  switched_upper ⟨proc, s.display, control⟩ pid keeps

theorem stopped_upper (s : State) (proc : Proc) (control : Control) :
    (State.exceptionHandler ⟨proc, s.display, control⟩ PAGE_FAULT).upper = s.upper :=
  exceptionHandler_upper ⟨proc, s.display, control⟩ PAGE_FAULT

theorem schedule_upper (s : State) (interrupted : Context) :
    (s.schedule interrupted).upper = s.upper := by
  simp only [schedule]
  generalize nextTerminal s.proc.activeTerminal = t
  by_cases idle : s.proc.currentProcessId t = 0
  · simp only [idle, ne_eq, not_true, if_true, if_false, Proc.storeContext, Proc.setPcb]
    split
    · cases t with
      | terminal1 => exact shell_upper s _ _ .terminal1
      | terminal2 => exact shell_upper s _ _ .terminal2
      | terminal3 => exact shell_upper s _ _ .terminal3
    · exact stopped_upper s _ _
  · simp only [idle, ne_eq, not_false_eq_true, if_true, if_false, Proc.storeContext, Proc.setPcb]
    split
    · exact resumed_upper s _ _ _ fun s => rfl
    · exact stopped_upper s _ _

theorem printf_upper (s : State) (message : String) : (s.printf message).upper = s.upper :=
  upper_of_pageDir (printf_pageDir _ _ _)

theorem syscallHalt_upper (s : State) (status : UInt8) :
    (s.syscallHalt status).upper = s.upper := by
  have root (message : String) (t : TerminalId) :
      ((s.printf message).bootEnterTerminal t).upper = s.upper :=
    (bootEnterTerminal_upper _ t).trans (printf_upper s message)
  unfold syscallHalt
  split
  · exact root _ .terminal1
  split
  · exact root _ .terminal2
  split
  · exact root _ .terminal3
  simp only
  split
  · split
    · split
      · exact stopped_upper s _ s.control
      · exact resumed_upper s _ s.control _ fun s => rfl
    · exact stopped_upper s _ s.control
  · exact exceptionHandler_upper s _

theorem loadProgram_upper (s : State) (bootBlock : Option Image) (inode : Int) :
    (s.loadProgram bootBlock inode).upper = s.upper :=
  upper_of_pageDir (Mmu.storeBytes_tables _ _ _).1

theorem startProgram_upper (s : State) (bootBlock : Option Image) (inode : Int)
    (caller : Context) : (s.startProgram bootBlock inode caller).upper = s.upper := by
  have printed (proc : Proc) (control : Control) (message : List UInt8) :
      State.upper ⟨proc, s.display.printf s.proc.activeTerminal message, control⟩ = s.upper :=
    upper_of_pageDir (printf_pageDir s.proc.activeTerminal s.display message)
  simp only [startProgram, printf]
  split
  · exact printed _ _ _
  · split
    · refine switched_upper _ _ fun s => andThen_keeps _ upper (loadProgram_upper s _ _) fun s => ?_
      split
      · exact contextSwitchExecute_upper _
      · exact exceptionHandler_upper _ _
    · exact exceptionHandler_upper _ _

theorem checkCommand_upper (s : State) (bootBlock : Option Image) (stack : List UInt8)
    (command : CharPtr) : (s.checkCommand bootBlock stack command).1.upper = s.upper := by
  obtain ⟨message, _, _, result, _⟩ := checkCommand_effect (s := s) bootBlock stack command
  rw [result]
  exact upper_of_pageDir (printf_pageDir _ _ (text message))

theorem syscallExecute_upper (s : State) (bootBlock : Option Image) (stack : List UInt8)
    (command : CharPtr) (caller : Context) :
    (s.syscallExecute bootBlock stack command caller).upper = s.upper := by
  have checked := s.checkCommand_upper bootBlock stack command
  unfold syscallExecute
  split
  · rename_i result
    rw [result] at checked
    exact checked
  · rename_i result
    rw [result] at checked
    exact (startProgram_upper _ _ _ _).trans checked

theorem switchByMapping_upper (s : State) (t : TerminalId) :
    (s.switchByMapping t).upper = s.upper := by
  simp only [switchByMapping]
  split
  · rfl
  · refine andThen_keeps _ upper ((pagingVideoMemory_upper _).trans ?_) fun s => ?_
    · exact upper_of_pageDir (saveScreen_pageDir s.display)
    · exact upper_of_pageDir (loadScreen_pageDir s.display)

theorem switchToTerminal2_upper (s : State) : s.switchToTerminal2.upper = s.upper := by
  simp only [switchToTerminal2]
  split
  · rfl
  · refine andThen_keeps _ upper ((pagingVideoMemory_upper _).trans ?_) fun s => rfl
    exact upper_of_pageDir ((loadScreen_pageDir _).trans (saveScreen_pageDir s.display))

theorem userStore_pageDir (mmu : Mmu) (va : Nat) (byte : UInt8) :
    (mmu.userStore va byte).pageDir = mmu.pageDir := by
  unfold Mmu.userStore
  split
  · exact store_pageDir mmu va byte
  · rfl

theorem step_upper (s : State) (bootBlock : Option Image) (action : Action) :
    (s.step bootBlock action).upper = s.upper := by
  cases action with
  | schedule interrupted => exact schedule_upper s interrupted
  | execute stack command caller => exact syscallExecute_upper s bootBlock stack command caller
  | halt status => exact syscallHalt_upper s status
  | bootEnter t => exact bootEnterTerminal_upper s t
  | putc c => exact upper_of_pageDir (putcOn_pageDir _ _ _ c)
  | clear => exact upper_of_pageDir (clearOn_pageDir _ _ _)
  | echo c => exact upper_of_pageDir (putcOn_pageDir _ _ _ c)
  | echoBack => exact upper_of_pageDir (backPutc_pageDir _)
  | echoClear => exact upper_of_pageDir (clearOn_pageDir _ _ _)
  | switchTo t =>
      cases t with
      | terminal1 => exact switchByMapping_upper s .terminal1
      | terminal2 => exact switchToTerminal2_upper s
      | terminal3 => exact switchByMapping_upper s .terminal3
  | userStore va byte => exact upper_of_pageDir (userStore_pageDir _ va byte)
  | kernelCopy va bytes => exact upper_of_pageDir (Mmu.storeBytes_tables _ va bytes).1

theorem syscallVidmap_upper (s : State) (screenStart : Nat) :
    (s.syscallVidmap screenStart).upper = s.upper := by
  have enabled (proc : Proc) (bytes : List UInt8) (control : Control) :
      State.upper ⟨proc, { s.display with
        mmu := s.display.mmu.enableVidmapPaging.storeBytes screenStart bytes }, control⟩ =
        s.upper := by
    funext i
    have apart : vidmapIndex + 1 + i ≠ vidmapIndex := by omega
    simp only [upper, (Mmu.storeBytes_tables _ _ _).1, Mmu.enableVidmapPaging,
      Function.update_of_ne apart]
  simp only [syscallVidmap]
  split
  · rfl
  · split
    · rfl
    · split
      · split
        · exact (exceptionHandler_upper _ _).trans (enabled _ _ _)
        · exact enabled _ _ _
      · exact exceptionHandler_upper _ _

theorem createTerminalShell_upper (s : State) (t : TerminalId) (bootBlock : Option Image)
    (stack : List UInt8) : (s.createTerminalShell t bootBlock stack).upper = s.upper := by
  simp only [createTerminalShell]
  split
  · rfl
  · split
    · refine andThen_keeps _ upper ?_ fun s => ?_
      · exact (loadProgram_upper _ _ _).trans (pagingExecute_upper s _)
      · split
        · rfl
        · exact exceptionHandler_upper s PAGE_FAULT
    · rfl

end Routines

end State

section Runs

variable {s later : State} {bootBlock : Option Image} {as : List VideoAction}

/-- `page_initialize` leaves everything behind the kernel page absent. -/
theorem State.entry_bounded (buffers : TerminalId → List UInt8) (s : State) :
    (s.entry bootBlock buffers).Bounded := by
  intro i
  have started : (s.entry bootBlock buffers).upper = s.initDevices.upper := by
    have cleared (s : State) :
        State.upper { s with display := s.display.clear s.proc.activeTerminal } = s.upper :=
      upper_of_pageDir (clearOn_pageDir VIDEO_MEM s.proc.activeTerminal s.display)
    have idle (s : State) : State.upper { s with control := .idle } = s.upper := rfl
    simp only [entry, createTerminal1Shell, createTerminal2Shell, createTerminal3Shell]
    rw [idle, createTerminalShell_upper, createTerminalShell_upper, createTerminalShell_upper,
      cleared, printf_upper]
  have high : vidmapIndex + 1 + i ≠ 0 ∧ vidmapIndex + 1 + i ≠ 1 := by
    have above : 1 < vidmapIndex := by decide
    omega
  rw [started]
  simp only [upper, initDevices, pageInitialize, Mmu.pageInitialize, if_neg high.1, if_neg high.2]

theorem State.Bounded.of_run (bounded : s.Bounded) (run : (videoMachine bootBlock).Run s as later) :
    later.Bounded := by
  refine run.invariant (I := State.Bounded) ?_ bounded
  intro s action bounded _ i
  cases action with
  | kernel action => exact (congrFun (s.step_upper bootBlock action) i).trans (bounded i)
  | vidmap screenStart => exact (congrFun (s.syscallVidmap_upper screenStart) i).trans (bounded i)

/-- A string that can be read up to its NUL is shorter than the mapped part of memory. -/
theorem State.Bounded.strlen_lt (bounded : s.Bounded) {va : Nat} {string : CharPtr}
    (held : s.display.mmu.HoldsString va string) : strlen string < 2 ^ 31 - 1 := by
  by_contra long
  -- the byte that lies behind the video page
  have far : (vidmapIndex + 1) * 2 ^ 22 ≤ strlen string := by
    have below : (vidmapIndex + 1) * 2 ^ 22 ≤ 2 ^ 31 - 1 := by decide
    omega
  have read := held _ far
  have entry : s.display.mmu.pageDir ((va + (vidmapIndex + 1) * 2 ^ 22) / 2 ^ 22) =
      Mmu.absentPde := by
    rw [Nat.add_mul_div_right _ _ (by decide), Nat.add_comm]
    exact bounded _
  simp only [Mmu.loadByte, Mmu.translate, entry, Mmu.absentPde, Bool.false_eq_true, if_false,
    Option.map_none, reduceCtorEq] at read

end Runs

namespace Mmu

section Copies

variable {mmu : Mmu} {va pa : Nat}

/-- Stores to addresses that follow each other in memory as well. -/
theorem storeBytes_linear {bytes : List UInt8}
    (mapped : ∀ i < bytes.length, mmu.translate (va + i) = some (pa + i)) :
    WritesIn (fun p => pa ≤ p ∧ p < pa + bytes.length) mmu (mmu.storeBytes va bytes) ∧
      ∀ i, ∀ inside : i < bytes.length, (mmu.storeBytes va bytes).mem (pa + i) = bytes[i] := by
  refine ⟨storeBytes_writes fun i inside => ⟨_, mapped i inside, by omega, by omega⟩, ?_⟩
  induction bytes generalizing mmu va pa with
  | nil => exact fun i inside => absurd inside (Nat.not_lt_zero i)
  | cons byte bytes ih =>
      have here : mmu.translate va = some pa := mapped 0 (Nat.succ_pos _)
      have first : WritesIn (Eq pa) mmu (mmu.store va byte) := store_writes here rfl byte
      have rest (i : Nat) (inside : i < bytes.length) :
          (mmu.store va byte).translate (va + 1 + i) = some (pa + 1 + i) := by
        rw [first.translate, Nat.add_assoc, Nat.add_comm 1 i,
          mapped (i + 1) (Nat.succ_lt_succ inside), Nat.add_assoc, Nat.add_comm 1 i]
      intro i inside
      cases i with
      | zero =>
          -- the later stores are all above
          have later : WritesIn (fun p => pa + 1 ≤ p) (mmu.store va byte)
              ((mmu.store va byte).storeBytes (va + 1) bytes) :=
            storeBytes_writes fun i inside => ⟨_, rest i inside, by omega⟩
          simp only [storeBytes, Nat.add_zero, List.getElem_cons_zero]
          rw [later.mem pa (by omega), store_mem here]
          exact Function.update_self pa byte mmu.mem
      | succ i =>
          have copied := ih rest i (Nat.lt_of_succ_lt_succ inside)
          rwa [Nat.add_assoc, Nat.add_comm 1 i] at copied

theorem storeBytes_user {pid : Nat} (small : pid ≤ 6)
    (user : mmu.pageDir userIndex = userEntry pid) {bytes : List UInt8}
    (inside : ∀ i < bytes.length, State.inUserPage (va + i)) :
    WritesIn (fun p => 0x800000 + 0x400000 * pid + (va - VIRTUAL_128MB_START) ≤ p ∧
        p < 0x800000 + 0x400000 * pid + (va - VIRTUAL_128MB_START) + bytes.length)
        mmu (mmu.storeBytes va bytes) ∧
      ∀ i, ∀ inside : i < bytes.length, (mmu.storeBytes va bytes).mem
        (0x800000 + 0x400000 * pid + (va - VIRTUAL_128MB_START) + i) = bytes[i] := by
  apply storeBytes_linear
  intro i before
  obtain ⟨from_, until_⟩ := inside i before
  have first : VIRTUAL_128MB_START ≤ va := (inside 0 (by omega)).1
  have place : va + i - VIRTUAL_128MB_START = va - VIRTUAL_128MB_START + i := by omega
  rw [translate_user small user from_ until_, place, ← Nat.add_assoc]

/-- A string that has been copied to the user page can be read there. -/
theorem storeBytes_holds {pid : Nat} (small : pid ≤ 6)
    (user : mmu.pageDir userIndex = userEntry pid) {text : List UInt8}
    (nonzero : ∀ c ∈ text, c ≠ 0) (short : text.length < 2 ^ 32)
    (inside : ∀ i < (text ++ [0]).length, State.inUserPage (va + i)) :
    (mmu.storeBytes va (text ++ [0])).HoldsString va (charPtr text) := by
  obtain ⟨writes, copied⟩ := storeBytes_user small user inside
  have length : strlen (charPtr text) = text.length := (spells_charPtr nonzero).strlen_eq short
  intro k before
  rw [length] at before
  have within : k < (text ++ [0]).length := by
    rw [List.length_append, List.length_singleton]
    omega
  obtain ⟨from_, until_⟩ := inside k within
  have first : VIRTUAL_128MB_START ≤ va := (inside 0 (by omega)).1
  have place : va + k - VIRTUAL_128MB_START = va - VIRTUAL_128MB_START + k := by omega
  rw [loadByte, writes.translate, translate_user small user from_ until_, Option.map_some, place,
    ← Nat.add_assoc, copied k within]
  apply congrArg some
  by_cases last : k < text.length
  · simp [charPtr, last]
  · have isLast : k = text.length := by omega
    subst isLast
    simp [charPtr]

end Copies

end Mmu

end LightOS.Kernel
