import LightOS.Kernel.Boot

/-! # Three screens

The logical screen of a terminal is the page on display while the terminal is displayed and
its backing page otherwise.  Along every run without a page fault a process writes on the
screen of the active terminal, the keyboard on the screen of the displayed one, and nothing
else that happens moves a byte of a screen.
-/

namespace LightOS.Kernel

open Lib Filesystem Descriptor

/-- The logical screen of `t` is the same, byte for byte. -/
def Display.SameScreen (before after : Display) (t : TerminalId) : Prop :=
  ∀ i < 4096, after.mmu.mem (4096 * after.screenPage t + i) =
    before.mmu.mem (4096 * before.screenPage t + i)

/-- Output of terminal `t`: nothing changes but the logical screen and the cursor of `t`. -/
structure ScreenOutput (t : TerminalId) (before after : State) : Prop where
  proc : after.proc = before.proc
  currentTerminal : after.display.currentTerminal = before.display.currentTerminal
  others : ∀ u, u ≠ t → before.display.SameScreen after.display u ∧
    after.display.screens u = before.display.screens u
  elsewhere : ∀ pa, ¬ OnPage (before.display.screenPage t) pa →
    after.display.mmu.mem pa = before.display.mmu.mem pa

/-- All three logical screens and their cursors are what they were. -/
structure SameScreens (before after : State) : Prop where
  contents : ∀ t, before.display.SameScreen after.display t
  cursors : after.display.screens = before.display.screens

/-- What a step may do to the screens.  `execute` and `halt` print a message at most. -/
def ScreensKept (before : State) (action : Action) (after : State) : Prop :=
  match action with
  | .putc _ | .clear => ScreenOutput before.proc.activeTerminal before after
  | .echo _ | .echoBack | .echoClear => ScreenOutput before.display.currentTerminal before after
  | .execute .. | .halt _ => ∃ message,
      ScreenOutput before.proc.activeTerminal before (before.printf message) ∧
        SameScreens (before.printf message) after
  | _ => SameScreens before after

section Screens

variable {s : State} {bootBlock : Option Image} {display : Display} {t : TerminalId}

theorem Display.SameScreen.of_mem {before after : Display}
    (currentTerminal : after.currentTerminal = before.currentTerminal)
    (mem : ∀ pa, OnPage (before.screenPage t) pa → after.mmu.mem pa = before.mmu.mem pa) :
    before.SameScreen after t := by
  intro i inside
  simp only [Display.screenPage, currentTerminal]
  exact mem _ ⟨Nat.le_add_right .., Nat.add_lt_add_left inside _⟩

/-- Output on the logical screen of `t`. -/
theorem ScreenOutput.of_output (output : OutputOn (s.display.screenPage t) t s.display display) :
    ScreenOutput t s { s with display } where
  proc := rfl
  currentTerminal := output.currentTerminal
  others u other := by
    refine ⟨.of_mem output.currentTerminal fun pa onPage => output.writes.mem pa fun onOther => ?_,
      output.others u other⟩
    have apart : s.display.screenPage u ≠ s.display.screenPage t :=
      fun same => other (Display.screenPage_injective same)
    simp only [OnPage] at onPage onOther
    omega
  elsewhere pa outside := output.writes.mem pa outside

theorem SameScreens.refl (s : State) : SameScreens s s := ⟨fun _ _ _ => rfl, rfl⟩

theorem SameScreens.of_switched {proc : Proc} {control : Control} {active : TerminalId} {pid : Nat}
    (switched : Switched s.display display active pid) :
    SameScreens s ⟨proc, display, control⟩ where
  contents _ := .of_mem switched.same.currentTerminal fun pa _ => congrFun switched.same.mem pa
  cursors := switched.same.screens

/-- The frames of user programs are far from the screens. -/
theorem SameScreens.of_frame {proc : Proc} {control : Control} {mmu : Mmu} {pid : Nat}
    (same : SameScreens s ⟨proc, display, control⟩)
    (writes : Mmu.WritesIn (OnFrame pid) display.mmu mmu) :
    SameScreens s ⟨proc, { display with mmu }, control⟩ where
  contents t i inside := by
    refine (writes.mem _ fun onFrame => ?_).trans (same.contents t i inside)
    obtain ⟨_, low⟩ := Display.screenPage_range display t
    simp only [OnFrame, videoPage, Display.screenPage] at onFrame low
    omega
  cursors := same.cursors

theorem SameScreens.of_shown {active t : TerminalId} (shown : Shown s.display display active t) :
    SameScreens s { s with display } where
  contents := shown.logical
  cursors := shown.screens

/-- What each outcome does to the screens. -/
theorem Outcome.screensKept {action : Action} {after : State}
    (outcome : Outcome bootBlock s action after) (sound : Sound s)
    (running : ¬ Faulting s action) : ScreensKept s action after := by
  have printed (message : String) :
      ScreenOutput s.proc.activeTerminal s (s.printf message) :=
    .of_output (State.printf_output sound.valid message)
  have silent : s.printf "" = s := rfl
  cases outcome with
  | putc output | clear output | echo output | echoBack output | echoClear output =>
      exact .of_output output
  | userStore writes | kernelCopy writes => exact (SameScreens.refl s).of_frame writes
  | switchSame same => exact .refl s
  | switchTo other shown => exact .of_shown shown
  | enter switched | first next idle switched | next next occupied switched =>
      exact .of_switched switched
  | root root switched => exact ⟨_, printed _, .of_switched switched⟩
  | child child terminal switched => exact ⟨"", printed "", .of_switched switched⟩
  | rejected refused => exact ⟨_, printed _, fun _ _ _ => rfl, rfl⟩
  | full passed noPid notFull => exact ⟨_, printed _, fun _ _ _ => rfl, rfl⟩
  | started active passed free child small notFull switched writes =>
      exact ⟨"", printed "", (SameScreens.of_switched switched).of_frame writes⟩
  | fault faulting faults elsewhere => exact absurd faulting running

/-- From the state after `page_initialize` and `keyboard_init` on, in every run in which no
    step faults, every step keeps the screens apart. -/
theorem screens_stay_apart (on : PowerOn s) {as : List Action} {later : State}
    (run : (kernel bootBlock).Run s.initDevices as later)
    (noFault : (kernel bootBlock).EachStep (fun s action => ¬ Faulting s action)
      s.initDevices as) :
    (kernel bootBlock).EachStep (fun s action =>
      ScreensKept s action (s.step bootBlock action)) s.initDevices as := by
  refine run.eachStep (I := fun s => s.faulted = true ∨ Sound s) ?_ ?_ (.inr on.fresh.sound) noFault
  · intro s a holds able running
    exact State.step_sound (holds.resolve_left (by simp [able.1])) able
  · intro s a holds able running
    have sound := holds.resolve_left (by simp [able.1])
    exact (State.step_outcome sound able).screensKept sound running

end Screens

theorem boot_and_switch_stay_apart :
    (kernel none).EachStep (fun s action => ScreensKept s action (s.step none action))
      poweredOn.initDevices [.bootEnter .terminal1, .switchTo .terminal2] := by
  have fresh := poweredOn_powerOn.fresh
  obtain ⟨display, entryPoint, entered, switched⟩ :=
    State.bootEnterTerminal_effect fresh.valid.toMapped .terminal1
  have next : (kernel none).next poweredOn.initDevices (.bootEnter .terminal1) =
      ⟨poweredOn.initDevices.proc.entered .terminal1, display, .enterUser entryPoint⟩ := entered
  refine screens_stay_apart poweredOn_powerOn
    (.cons ⟨fresh.valid.fault, trivial⟩ (.cons ⟨?_, trivial⟩ (.nil _))) ⟨id, ?_, trivial⟩
  · rw [next]
    exact switched.valid.fault
  · rw [next]
    rintro ⟨idle, _⟩
    exact absurd idle (Nat.succ_ne_zero 0)

section Painted

variable {s : State} {display : Display} {page base : Nat} {t : TerminalId}

/-- `blue_screen` ends with the colour of the last cell. -/
theorem Display.blueScreen_last (window : display.mmu.Window VIDEO_MEM page) :
    display.blueScreen.mmu.mem (4096 * page + 3999) = BLUE := by
  have rounds : List.range (NUM_ROWS * NUM_COLS) = List.range 1999 ++ [1999] :=
    List.range_succ
  have before : Mmu.WritesIn (OnPage page) display.mmu
      ((List.range 1999).foldl (fun mmu i => mmu.store (VIDEO_MEM + 2 * i + 1) BLUE)
        display.mmu) := by
    apply Mmu.WritesIn.foldl
    intro here i member writes
    have small := List.mem_range.mp member
    exact (window.of_writes writes).store _ (by omega) (by omega) _
  have last := window.of_writes before (VIDEO_MEM + 2 * 1999 + 1) (by omega) (by omega)
  have place : VIDEO_MEM + 2 * 1999 + 1 - VIDEO_MEM = 3999 := rfl
  rw [place] at last
  simp only [Display.blueScreen, rounds, List.foldl_append, List.foldl_cons, List.foldl_nil,
    Mmu.store_mem last, Function.update_self]

/-- The cells above the last row of the screen on a page. -/
def AboveLastRow (page pa : Nat) : Prop := 4096 * page ≤ pa ∧ pa < 4096 * page + 3840

/-- A character above the last row stays there, and the cursor goes down by one row at most. -/
theorem Display.putcOn_above (window : display.mmu.Window base page)
    (inside : (display.screens t).Inside) (row : (display.screens t).screenY + 1 < NUM_ROWS)
    (c : UInt8) :
    Mmu.WritesIn (AboveLastRow page) display.mmu (display.putcOn base t c).mmu ∧
      ((display.putcOn base t c).screens t).screenY ≤ (display.screens t).screenY + 1 := by
  have column := inside.column
  simp only [NUM_ROWS, NUM_COLS] at row column
  have notFull : ¬ NUM_ROWS * NUM_COLS ≤
      NUM_COLS * (display.screens t).screenY + (display.screens t).screenX := by
    simp only [NUM_ROWS, NUM_COLS]
    omega
  have notLast : ¬ NUM_ROWS ≤ (display.screens t).screenY + 1 := by
    simp only [NUM_ROWS]
    omega
  simp only [putcOn, rollIfFull, if_neg notFull, writeChar, if_neg notLast]
  split
  · exact ⟨.refl _ _, by simp [showCursor, setCursorPosition, moveTo]⟩
  · refine ⟨?_, by split <;> simp [showCursor, setCursorPosition, moveTo]⟩
    generalize cell_eq : base + 2 * (NUM_COLS * (display.screens t).screenY +
      (display.screens t).screenX) = cell
    simp only [NUM_COLS] at cell_eq
    have char : Mmu.WritesIn (AboveLastRow page) display.mmu (display.mmu.store cell c) :=
      Mmu.store_writes (window cell (by omega) (by omega)) ⟨by omega, by omega⟩ c
    have colour : Mmu.WritesIn (AboveLastRow page) (display.mmu.store cell c)
        ((display.mmu.store cell c).store (cell + 1) ATTRIB) :=
      Mmu.store_writes (window.of_writes char (cell + 1) (by omega) (by omega))
        ⟨by omega, by omega⟩ ATTRIB
    split <;> exact char.trans colour

theorem Display.printf_above (window : display.mmu.Window VIDEO_MEM page)
    (inside : (display.screens t).Inside) (text : List UInt8)
    (rows : (display.screens t).screenY + text.length < NUM_ROWS) :
    Mmu.WritesIn (AboveLastRow page) display.mmu (display.printf t text).mmu := by
  induction text generalizing display with
  | nil => exact .refl _ _
  | cons c text ih =>
      rw [List.length_cons] at rows
      obtain ⟨writes, row⟩ := putcOn_above window inside (by omega) c
      have output := putcOn_output window inside c
      have room : ((display.putcOn VIDEO_MEM t c).screens t).screenY + text.length < NUM_ROWS := by
        omega
      exact writes.trans (ih (window.of_writes writes) (output.inside inside) room)

theorem exceptionHandler_paints {proc : Proc} {control : Control}
    (valid : display.Valid proc.activeTerminal)
    (top : (display.screens proc.activeTerminal).screenY = 0) {after : State}
    (stops : after = State.exceptionHandler ⟨proc, display, control⟩ PAGE_FAULT) :
    after.display.mmu.mem (4096 * after.display.screenPage proc.activeTerminal + 3999) = BLUE := by
  obtain ⟨message, message_eq, result⟩ :=
    State.exceptionHandler_display ⟨proc, display, control⟩ PAGE_FAULT
  rw [← stops] at result
  have short : message.length = 11 := by
    rw [message_eq]
    decide +kernel
  have painted : OutputOn (display.screenPage proc.activeTerminal) proc.activeTerminal display
      display.blueScreen := Display.blueScreen_output valid.window
  have window := valid.window.of_writes painted.writes
  have inside := painted.inside (valid.inside proc.activeTerminal)
  have output := Display.printf_output window inside message
  have rows : (display.blueScreen.screens proc.activeTerminal).screenY + message.length <
      NUM_ROWS := by
    simp only [Display.blueScreen, top, short, NUM_ROWS]
    decide
  have page : after.display.screenPage proc.activeTerminal =
      display.screenPage proc.activeTerminal := by
    rw [result]
    simp only [Display.screenPage, output.currentTerminal, painted.currentTerminal]
  have above : ¬ AboveLastRow (display.screenPage proc.activeTerminal)
      (4096 * display.screenPage proc.activeTerminal + 3999) := by
    unfold AboveLastRow
    omega
  rw [page, result]
  exact ((Display.printf_above window inside message rows).mem _ above).trans
    (Display.blueScreen_last valid.window)

/-- `paging_video_memory` without an active process reads a control block at 8 MB. -/
theorem pagingVideoMemory_idle {proc : Proc} (control : Control) (idle : proc.activePid = 0)
    (absent : display.mmu.pageDir 2 = Mmu.absentPde) :
    State.pagingVideoMemory ⟨proc, display, control⟩ =
      State.exceptionHandler ⟨proc, display.mapVideo proc.activeTerminal, control⟩ PAGE_FAULT := by
  have unmapped : State.pcbMapped ⟨proc, display.mapVideo proc.activeTerminal, control⟩
      proc.activePid = false := by
    rw [idle]
    simp only [State.pcbMapped, Mmu.translate, Display.mapVideo,
      show pcbAddress 0 / 2 ^ 22 = 2 from rfl, absent]
    rfl
  simp only [State.pagingVideoMemory, unmapped, Bool.false_eq_true, if_false]

/-- A terminal switch before any process is active ends in `exception_handler`, which paints
    the screen of the active terminal. -/
theorem idle_switch_paints (mapped : s.display.Mapped) (idle : s.proc.activePid = 0)
    (absent : s.display.mmu.pageDir 2 = Mmu.absentPde) (other : t ≠ s.display.currentTerminal)
    (top : (s.display.screens s.proc.activeTerminal).screenY = 0) :
    (s.switchByMapping t).display.mmu.mem
      (4096 * (s.switchByMapping t).display.screenPage s.proc.activeTerminal + 3999) = BLUE := by
  obtain ⟨saved, saved_eq, save, _⟩ := State.saveScreen_effect mapped
  have valid := (State.showTerminal_mapped mapped save t).mapVideo s.proc.activeTerminal
  have unpaged : saved.pageDir 2 = Mmu.absentPde := by rw [save.pageDir, absent]
  have faults := (State.exceptionHandler_effect s.proc s.control valid PAGE_FAULT).1
  refine exceptionHandler_paints valid top (?_ : _ = State.exceptionHandler ⟨_, _, s.control⟩ _)
  simp only [State.switchByMapping, if_neg (Ne.symm other), saved_eq]
  rw [pagingVideoMemory_idle _ idle (by exact unpaged), State.andThen,
    if_pos faults]

theorem idle_switch_not_kept {bootBlock : Option Image} (fresh : Fresh s)
    (absent : s.display.mmu.pageDir 2 = Mmu.absentPde)
    (other : TerminalId.terminal3 ≠ s.display.currentTerminal)
    (top : (s.display.screens .terminal1).screenY = 0)
    (colour : s.display.mmu.mem (4096 * s.display.screenPage .terminal1 + 3999) ≠ BLUE) :
    ¬ ScreensKept s (.switchTo .terminal3) (s.step bootBlock (.switchTo .terminal3)) := by
  intro kept
  have painted := idle_switch_paints fresh.valid.toMapped fresh.activePid absent other
    (by rw [fresh.activeTerminal, top])
  rw [fresh.activeTerminal] at painted
  exact colour ((kept.contents .terminal1 3999 (by decide)).symm.trans painted)

end Painted

theorem third_terminal_before_a_process_paints :
    PowerOn poweredOn ∧ (kernel none).enabled poweredOn.initDevices (.switchTo .terminal3) ∧
      ¬ (kernel none).EachStep (fun s action => ScreensKept s action (s.step none action))
        poweredOn.initDevices [.switchTo .terminal3] := by
  refine ⟨poweredOn_powerOn, ⟨poweredOn_powerOn.fresh.valid.fault, trivial⟩, ?_⟩
  rintro ⟨kept, _⟩
  exact idle_switch_not_kept poweredOn_powerOn.fresh rfl (by decide) rfl
    (show (0 : UInt8) ≠ BLUE by decide) kept

end LightOS.Kernel
