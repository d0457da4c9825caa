import LightOS.Kernel.Cells
import LightOS.Kernel.Video

/-! # The hardware cursor

Seven routines program the cursor of the CRT controller.  It should be where the next ordinary
character sent to the terminal on display comes out.  It is not while the screen of that
terminal is full and has yet to roll up, nor after `back_putc` at the top left corner of another
terminal; everything else keeps it there.
-/

namespace LightOS.Kernel

open Lib Filesystem Descriptor

namespace Screen

/-- The cell that the next ordinary character is written to. -/
def nextCell (screen : Screen) : Nat :=
  if screen.Full then (NUM_ROWS - 1) * NUM_COLS else NUM_COLS * screen.screenY + screen.screenX

/-- The character fills the screen. -/
def Fills (screen : Screen) (c : UInt8) : Prop :=
  ¬ isNewline c ∧ screen.screenX = NUM_COLS - 1 ∧ screen.screenY = NUM_ROWS - 1

/-- The cursor is in the top left corner. -/
def Home (screen : Screen) : Prop := screen.screenX = 0 ∧ screen.screenY = 0

end Screen

namespace Display

/-- The screen on display. -/
def shownScreen (display : Display) : Screen := display.screens display.currentTerminal

/-- The position in the CRT registers is the cell of the screen where the next ordinary character
    sent to the terminal on display comes out, whichever that is. -/
def CursorShowsNext (display : Display) : Prop :=
  display.cursor < NUM_ROWS * NUM_COLS ∧
    ∀ c, ¬ isNewline c →
      cellsOf videoPage (display.currentTerminalPutc c).mmu.mem display.cursor = (c, ATTRIB)

/-- The position in the CRT registers is the one that `set_cursor_position` makes of the cursor
    of the terminal on display. -/
def CursorSet (display : Display) : Prop :=
  display.cursor =
    (display.shownScreen.screenY * NUM_COLS + display.shownScreen.screenX) % (NUM_ROWS * NUM_COLS)

end Display

/-- The routines that program the cursor, and the timer, which changes the active terminal. -/
inductive ConsoleCall
  | putc (c : UInt8)
  | backPutc
  | clear
  | currentTerminalPutc (c : UInt8)
  | currentTerminalBackPutc
  | currentTerminalClear
  | switchTo (t : TerminalId)
  | schedule (interrupted : Context)

/-- The step of the kernel that a call is; no code of the kernel calls `back_putc`. -/
def ConsoleCall.action : ConsoleCall → Option Action
  | .putc c => some (.putc c)
  | .backPutc => none
  | .clear => some .clear
  | .currentTerminalPutc c => some (.echo c)
  | .currentTerminalBackPutc => some .echoBack
  | .currentTerminalClear => some .echoClear
  | .switchTo t => some (.switchTo t)
  | .schedule interrupted => some (.schedule interrupted)

/-- The calls that return: those that do not end in `exception_handler`. -/
def console (bootBlock : Option Image) : Machine State ConsoleCall where
  enabled s call := s.faulted = false ∧ ∀ action, call.action = some action → ¬ Faulting s action
  next s call :=
    match call.action with
    | some action => s.step bootBlock action
    | none => { s with display := s.display.backPutc s.proc.activeTerminal }

/-- The calls after which the cursor is where it should be: none leaves the terminal on display
    with a full screen, and none moves the cursor to the corner of another terminal. -/
def KeepsCursor (s : State) (call : ConsoleCall) : Prop :=
  let other := s.proc.activeTerminal ≠ s.display.currentTerminal
  let shown := s.display.shownScreen
  match call with
  | .putc c => (other → ¬ shown.Full) ∧ (¬ other → ¬ shown.Fills c)
  | .backPutc => other →
      ¬ shown.Full ∧ ((s.display.screens s.proc.activeTerminal).Home → shown.Home)
  | .clear => other → ¬ shown.Full
  | .currentTerminalPutc c => ¬ shown.Fills c
  | .switchTo t => t ≠ s.display.currentTerminal → ¬ (s.display.screens t).Full
  | .currentTerminalBackPutc | .currentTerminalClear | .schedule _ => True

section Cursor

variable {s : State} {display : Display} {base page : Nat} {t : TerminalId}

/-- What a screen shows before an ordinary character is written on it. -/
def Screen.rolledCells (screen : Screen) (cells : Nat → Cell) : Nat → Cell :=
  if screen.Full then scrollSteps.foldl CellStep.onCells cells else cells

/-- An ordinary character comes out at the next cell, and nowhere else. -/
theorem putcOn_cells (window : display.mmu.Window base page)
    (inside : (display.screens t).Inside) {c : UInt8} (ordinary : ¬ isNewline c) :
    cellsOf page (display.putcOn base t c).mmu.mem =
      Function.update ((display.screens t).rolledCells (cellsOf page display.mmu.mem))
        (display.screens t).nextCell (c, ATTRIB) := by
  rw [putcOn_steps, steps_cells window (inside.putcSteps_onScreen c)]
  unfold Screen.putcSteps Screen.rolledCells Screen.nextCell
  split <;>
  simp only [charSteps, if_neg ordinary, List.foldl_append, List.foldl_cons, List.foldl_nil,
    CellStep.onCells, Nat.add_zero, Nat.mul_comm NUM_COLS (NUM_ROWS - 1)]

theorem Screen.nextCell_lt (screen : Screen) : screen.nextCell < NUM_ROWS * NUM_COLS := by
  unfold nextCell
  split
  · decide
  · next room => exact Nat.not_le.mp room

/-- Two characters tell the next cell from all others. -/
theorem Display.Mapped.cursorShowsNext_iff (mapped : display.Mapped) :
    display.CursorShowsNext ↔ display.cursor = display.shownScreen.nextCell := by
  have inside := mapped.inside display.currentTerminal
  have written {c : UInt8} (ordinary : ¬ isNewline c) :
      cellsOf videoPage (display.currentTerminalPutc c).mmu.mem =
        Function.update (display.shownScreen.rolledCells (cellsOf videoPage display.mmu.mem))
          display.shownScreen.nextCell (c, ATTRIB) :=
    putcOn_cells mapped.tables.directWindow inside ordinary
  constructor
  · intro shows
    by_contra elsewhere
    have first := shows.2 0x61 (by decide)
    have second := shows.2 0x62 (by decide)
    rw [written (by decide), Function.update_of_ne elsewhere] at first second
    rw [first] at second
    exact absurd (congrArg Prod.fst second) (by decide)
  · intro next
    constructor
    · rw [next]
      exact Screen.nextCell_lt _
    · intro c ordinary
      rw [written ordinary, next, Function.update_self]

/-- Once the cursor is set, it is where it should be unless the screen is full. -/
theorem Display.CursorSet.shows_iff (set : display.CursorSet) (mapped : display.Mapped) :
    display.CursorShowsNext ↔ ¬ display.shownScreen.Full := by
  have inside := mapped.inside display.currentTerminal
  rw [mapped.cursorShowsNext_iff, set, Screen.nextCell]
  by_cases full : display.shownScreen.Full
  · have row : display.shownScreen.screenY = NUM_ROWS := inside.full_iff.mp full
    have column : display.shownScreen.screenX = 0 := inside.below row
    rw [if_pos full, row, column]
    exact iff_of_false (by decide) (fun room => room full)
  · rw [if_neg full]
    refine iff_of_true ?_ full
    have small := Nat.not_le.mp full
    rw [Nat.mul_comm, Nat.mod_eq_of_lt small]

/-- After output of terminal `t`. -/
theorem Display.CursorSet.shows_output {after : Display} (set : after.CursorSet)
    (mapped : after.Mapped) (output : OutputOn page t display after) :
    after.CursorShowsNext ↔
      (t ≠ display.currentTerminal → ¬ display.shownScreen.Full) ∧
        (t = display.currentTerminal → ¬ (after.screens t).Full) := by
  rw [set.shows_iff mapped]
  unfold Display.shownScreen
  rw [output.currentTerminal]
  by_cases shown : t = display.currentTerminal
  · subst shown
    simp
  · rw [output.others _ (Ne.symm shown)]
    simp [shown]

/-- A character fills the screen from its last cell only. -/
theorem writeChar_full_iff (base : Nat) (column : (display.screens t).screenX < NUM_COLS)
    (row : (display.screens t).screenY < NUM_ROWS) (c : UInt8) :
    ((display.writeChar base t c).screens t).Full ↔ (display.screens t).Fills c := by
  by_cases newline : isNewline c
  · have newline' : c = NEWLINE ∨ c = RETURN := newline
    refine iff_of_false ?_ (fun fills => fills.1 newline)
    simp only [Display.writeChar, if_pos newline']
    split <;>
    · rw [Display.moveTo_screen]
      simp only [Screen.Full, NUM_ROWS, NUM_COLS] at *
      omega
  · rw [writeChar_screen base t display newline]
    simp only [Screen.Fills, newline, not_false_eq_true, true_and]
    split <;>
    · simp only [Screen.Full, NUM_ROWS, NUM_COLS] at *
      omega

/-- With room on the screen nothing is rolled up first. -/
theorem putcOn_screen_room (base : Nat) (room : ¬ (display.screens t).Full) (c : UInt8) :
    (display.putcOn base t c).screens = (display.writeChar base t c).screens := by
  have kept : display.rollIfFull base t = display := if_neg room
  rw [Display.putcOn, Display.showCursor_screens, kept]

theorem putcOn_full_iff (base : Nat) (inside : (display.screens t).Inside) (c : UInt8) :
    ((display.putcOn base t c).screens t).Full ↔ (display.screens t).Fills c := by
  by_cases full : (display.screens t).Full
  · have last := inside.full_iff.mp full
    have rolled : display.rollIfFull base t =
        { display with mmu := scroll base display.mmu }.moveTo t 0 (NUM_ROWS - 1) := if_pos full
    rw [Display.putcOn, Display.showCursor_screens, rolled,
      writeChar_full_iff base (by rw [Display.moveTo_screenX]; decide)
        (by rw [Display.moveTo_screenY]; decide)]
    apply iff_of_false
    · intro fills
      have column := fills.2.1
      rw [Display.moveTo_screenX] at column
      exact absurd column (by decide)
    · intro fills
      exact absurd (last.symm.trans fills.2.2) (by decide)
  · have row := inside.row
    rw [putcOn_screen_room base full]
    rw [inside.full_iff] at full
    rw [writeChar_full_iff base inside.column (by omega)]

theorem clearOn_room (base : Nat) (t : TerminalId) (display : Display) :
    ¬ ((display.clearOn base t).screens t).Full := by
  rw [Display.clearOn, Display.showCursor_screens, Screen.Full, Display.moveTo_screenX,
    Display.moveTo_screenY]
  decide

theorem clearOn_set {t : TerminalId} (shown : t = display.currentTerminal) (base : Nat) :
    (display.clearOn base t).CursorSet ∧ ¬ (display.clearOn base t).shownScreen.Full := by
  refine ⟨rfl, ?_⟩
  rw [Display.shownScreen, Display.clearOn_currentTerminal, ← shown]
  exact clearOn_room base t display

/-- Most routines end with `set_cursor_position` for the terminal on display. -/
theorem Display.showCursor_set (display : Display) : display.showCursor.CursorSet := rfl

theorem Display.Mapped.putcOn_shows_iff (mapped : display.Mapped)
    (window : display.mmu.Window base page) (c : UInt8) :
    (display.putcOn base t c).CursorShowsNext ↔
      (t ≠ display.currentTerminal → ¬ display.shownScreen.Full) ∧
        (t = display.currentTerminal → ¬ display.shownScreen.Fills c) := by
  have output := Display.putcOn_output window (mapped.inside t) c
  have set : (display.putcOn base t c).CursorSet := Display.showCursor_set _
  rw [set.shows_output (mapped.of_output output) output, putcOn_full_iff base (mapped.inside t)]
  apply and_congr_right
  intro _
  apply forall_congr'
  rintro rfl
  rfl

theorem Display.Mapped.clearOn_shows_iff (mapped : display.Mapped)
    (window : display.mmu.Window base page) :
    (display.clearOn base t).CursorShowsNext ↔
      (t ≠ display.currentTerminal → ¬ display.shownScreen.Full) := by
  have output := Display.clearOn_output (t := t) window
  have set : (display.clearOn base t).CursorSet := Display.showCursor_set _
  rw [set.shows_output (mapped.of_output output) output]
  exact and_iff_left fun _ => clearOn_room base t display

end Cursor

section Timer

variable (s : State)

theorem pagingVideoMemory_cursor : s.pagingVideoMemory.faulted = true ∨
    s.pagingVideoMemory.display.cursor = s.display.cursor := by
  simp only [State.pagingVideoMemory]
  split
  · exact .inr rfl
  · exact .inl (State.exceptionHandler_faulted _ _)

theorem bootEnterTerminal_cursor (t : TerminalId) : (s.bootEnterTerminal t).faulted = true ∨
    (s.bootEnterTerminal t).display.cursor = s.display.cursor := by
  simp only [State.bootEnterTerminal]
  apply State.andThen_or (P := fun paged => paged.display.cursor = s.display.cursor)
    (Q := fun entered => entered.display.cursor = s.display.cursor)
  · exact pagingVideoMemory_cursor _
  · intro paged same
    unfold State.contextSwitchExecute
    split
    · exact .inr same
    · exact .inl (State.exceptionHandler_faulted _ _)

/-- The timer does not move the cursor. -/
theorem schedule_cursor (interrupted : Context) : (s.schedule interrupted).faulted = true ∨
    (s.schedule interrupted).display.cursor = s.display.cursor := by
  simp only [State.schedule]
  generalize nextTerminal s.proc.activeTerminal = t
  by_cases idle : s.proc.currentProcessId t = 0
  · simp only [idle, ne_eq, not_true, if_true, if_false, Proc.storeContext, Proc.setPcb]
    split
    · cases t
      · exact bootEnterTerminal_cursor _ .terminal1
      · exact bootEnterTerminal_cursor _ .terminal2
      · exact bootEnterTerminal_cursor _ .terminal3
    · exact .inl (State.exceptionHandler_faulted _ _)
  · simp only [idle, ne_eq, not_false_eq_true, if_true, if_false, Proc.storeContext, Proc.setPcb]
    split
    · apply State.andThen_or (P := fun paged => paged.display.cursor = s.display.cursor)
        (Q := fun resumed => resumed.display.cursor = s.display.cursor)
      · exact pagingVideoMemory_cursor _
      · exact fun paged same => .inr same
    · exact .inl (State.exceptionHandler_faulted _ _)

/-- A terminal switch ends with `set_cursor_position`. -/
theorem switchToTerminal_cursor {t : TerminalId} (other : t ≠ s.display.currentTerminal) :
    (s.switchToTerminal t).faulted = true ∨ (s.switchToTerminal t).display.CursorSet := by
  have byMapping (t : TerminalId) (other : t ≠ s.display.currentTerminal) :
      (s.switchByMapping t).faulted = true ∨ (s.switchByMapping t).display.CursorSet := by
    simp only [State.switchByMapping, if_neg (Ne.symm other)]
    apply State.andThen_or (P := fun _ => True) (Q := fun shown => shown.display.CursorSet)
    · exact .inr trivial
    · exact fun paged _ => .inr (Display.showCursor_set _)
  cases t with
  | terminal1 => exact byMapping .terminal1 other
  | terminal2 =>
      simp only [State.switchToTerminal, State.switchToTerminal2, if_neg (Ne.symm other)]
      apply State.andThen_or (P := fun _ => True) (Q := fun shown => shown.display.CursorSet)
      · exact .inr trivial
      · exact fun paged _ => .inr (Display.showCursor_set _)
  | terminal3 => exact byMapping .terminal3 other

end Timer

section Calls

variable {s : State} {bootBlock : Option Image} {display : Display}

theorem Sound.backPutc_output (sound : Sound s) :
    OutputOn (s.display.screenPage s.proc.activeTerminal) s.proc.activeTerminal s.display
      (s.display.backPutc s.proc.activeTerminal) :=
  Display.backPutc_output sound.valid.window (sound.valid.inside _)

theorem Sound.of_output (sound : Sound s) {page : Nat} {t : TerminalId}
    (output : OutputOn page t s.display display) : Sound { s with display } where
  valid := sound.valid.of_output output
  user active := by
    rw [output.writes.pageDir]
    exact sound.user active
  lineage := sound.lineage

/-- A call that returns leaves a sound state. -/
theorem Sound.console_sound (sound : Sound s) {call : ConsoleCall}
    (able : (console bootBlock).enabled s call) : Sound ((console bootBlock).next s call) := by
  obtain ⟨running, returns⟩ := able
  have kernelStep (action : Action) (isAction : call.action = some action)
      (can : s.able action) : Sound (s.step bootBlock action) :=
    ((State.step_outcome sound can).sound sound).resolve_left
      fun faults => returns action isAction faults.1
  cases call with
  | backPutc => exact sound.of_output sound.backPutc_output
  | _ => exact kernelStep _ rfl ⟨running, trivial⟩

/-- There is room on the screen behind a character that has been erased. -/
theorem stepBack_room {t : TerminalId} {moved : Display} (inside : (display.screens t).Inside)
    (moved_eq : (if (display.screens t).screenX = 0 then
        display.moveTo t (NUM_COLS - 1) ((display.screens t).screenY - 1)
      else display.moveTo t ((display.screens t).screenX - 1) (display.screens t).screenY) =
        moved) : ¬ (moved.screens t).Full := by
  obtain ⟨_, column, row⟩ : OutputOn 0 t display moved ∧ _ :=
    Display.stepBack_output inside moved_eq
  simp only [Screen.Full, NUM_ROWS, NUM_COLS] at *
  omega

/-- `current_terminal_back_putc` sets the cursor, and leaves room on the screen. -/
theorem currentTerminalBackPutc_set (inside : display.shownScreen.Inside) :
    display.currentTerminalBackPutc.CursorSet ∧
      ¬ (display.currentTerminalBackPutc.screens display.currentTerminal).Full := by
  simp only [Display.currentTerminalBackPutc]
  split
  · next home =>
      refine ⟨Display.showCursor_set _, ?_⟩
      rw [Display.showCursor_screens, Screen.Full, home.1, home.2]
      decide
  · have room := stepBack_room inside rfl
    exact ⟨Display.showCursor_set _, room⟩

/-- `back_putc` does so unless it is called at the top left corner. -/
theorem backPutc_set {t : TerminalId} (inside : (display.screens t).Inside)
    (away : ¬ (display.screens t).Home) :
    (display.backPutc t).CursorSet ∧ ¬ ((display.backPutc t).screens t).Full := by
  have away' : ¬ ((display.screens t).screenX = 0 ∧ (display.screens t).screenY = 0) := away
  simp only [Display.backPutc, if_neg away']
  have room := stepBack_room inside rfl
  exact ⟨Display.showCursor_set _, room⟩

/-- There it moves the cursor to the corner of the screen. -/
theorem backPutc_home {t : TerminalId} (home : (display.screens t).Home) :
    display.backPutc t = { display with cursor := 0 } := by
  have home' : (display.screens t).screenX = 0 ∧ (display.screens t).screenY = 0 := home
  rw [Display.backPutc, if_pos home', Display.setCursorPosition, home'.1, home'.2]
  rfl

/-- The next character goes to the corner only if the cursor is there. -/
theorem Screen.nextCell_eq_zero {screen : Screen} :
    screen.nextCell = 0 ↔ screen.Home := by
  unfold Screen.nextCell Screen.Home
  split
  · next full =>
      simp only [Screen.Full, NUM_ROWS, NUM_COLS] at *
      omega
  · simp only [NUM_COLS]
    omega

/-- A call of `back_putc` keeps the cursor where it should be, if and only if it is made by a
    process of the terminal on display, or that terminal has room and its cursor is in the
    corner if that of the caller is. -/
theorem Sound.backPutc_shows_iff (sound : Sound s) :
    (s.display.backPutc s.proc.activeTerminal).CursorShowsNext ↔ KeepsCursor s .backPutc := by
  have output := sound.backPutc_output
  have mapped := sound.valid.toMapped.of_output output
  have inside := sound.valid.inside s.proc.activeTerminal
  by_cases home : (s.display.screens s.proc.activeTerminal).Home
  · rw [mapped.cursorShowsNext_iff, backPutc_home home]
    have corner : (0 = s.display.shownScreen.nextCell) ↔ s.display.shownScreen.Home :=
      eq_comm.trans Screen.nextCell_eq_zero
    refine corner.trans ?_
    by_cases other : s.proc.activeTerminal = s.display.currentTerminal
    · have shown : s.display.shownScreen.Home := by rwa [other] at home
      simp [KeepsCursor, other, shown]
    · have room : s.display.shownScreen.Home → ¬ s.display.shownScreen.Full := by
        intro corner
        rw [Screen.Full, corner.1, corner.2]
        decide
      simp only [KeepsCursor, ne_eq, other, not_false_eq_true, home, true_implies]
      exact ⟨fun corner => ⟨room corner, corner⟩, And.right⟩
  · obtain ⟨set, room⟩ := backPutc_set inside home
    rw [set.shows_output mapped output]
    simp [KeepsCursor, home, room]

/-- A terminal switch that returns shows the next terminal, with its cursor. -/
theorem Sound.switchTo_shows_iff (sound : Sound s) {t : TerminalId}
    (other : t ≠ s.display.currentTerminal) (running : (s.switchToTerminal t).faulted = false) :
    (s.switchToTerminal t).display.CursorShowsNext ↔ ¬ (s.display.screens t).Full := by
  rcases State.switchToTerminal_effect sound.valid.toMapped other with
    stops | ⟨display, result, shown⟩
  · exact absurd stops.faulted (by simp [running])
  · have set := (switchToTerminal_cursor s other).resolve_left (by simp [running])
    rw [result] at set ⊢
    rw [set.shows_iff shown.valid.toMapped, Display.shownScreen, shown.currentTerminal,
      shown.screens]

/-- A page-table switch moves neither the cursor nor a screen. -/
theorem Sound.shows_kept (sound : Sound s) {after : Display} {active : TerminalId}
    (valid : after.Valid active) (same : Display.SameContents s.display after)
    (cursor : after.cursor = s.display.cursor) (shows : s.display.CursorShowsNext) :
    after.CursorShowsNext := by
  rw [sound.valid.toMapped.cursorShowsNext_iff] at shows
  rw [valid.toMapped.cursorShowsNext_iff, cursor, shows]
  simp only [Display.shownScreen, same.screens, same.currentTerminal]

theorem Sound.schedule_shows (sound : Sound s) (interrupted : Context)
    (shows : s.display.CursorShowsNext) : (s.schedule interrupted).display.CursorShowsNext := by
  have outcome : Outcome none s (.schedule interrupted) (s.schedule interrupted) :=
    State.schedule_outcome sound interrupted
  have unmoved := schedule_cursor s interrupted
  revert outcome unmoved
  generalize s.schedule interrupted = after
  intro outcome unmoved
  cases outcome with
  | first next idle switched =>
      have cursor := unmoved.resolve_left (ne_true_of_eq_false switched.valid.fault)
      exact sound.shows_kept switched.valid switched.same cursor shows
  | next next occupied switched =>
      have cursor := unmoved.resolve_left (ne_true_of_eq_false switched.valid.fault)
      exact sound.shows_kept switched.valid switched.same cursor shows
  | fault faulting faults elsewhere => exact False.elim faulting

/-- A call keeps the cursor where it should be, if and only if it is one of these. -/
theorem Sound.console_shows_iff (sound : Sound s) (shows : s.display.CursorShowsNext)
    {call : ConsoleCall} (able : (console bootBlock).enabled s call) :
    ((console bootBlock).next s call).display.CursorShowsNext ↔ KeepsCursor s call := by
  have mapped := sound.valid.toMapped
  have next := sound.console_sound able
  have window := sound.valid.window
  have direct := sound.valid.tables.directWindow
  cases call with
  | putc c =>
      refine (mapped.putcOn_shows_iff window c).trans ?_
      simp only [KeepsCursor, ne_eq, not_not]
  | backPutc => exact sound.backPutc_shows_iff
  | clear => exact mapped.clearOn_shows_iff window
  | currentTerminalPutc c =>
      refine (mapped.putcOn_shows_iff direct c).trans ?_
      simp only [KeepsCursor, ne_eq, not_true_eq_false, false_implies, true_and, true_implies]
  | currentTerminalBackPutc =>
      have inside := mapped.inside s.display.currentTerminal
      obtain ⟨set, room⟩ := currentTerminalBackPutc_set inside
      refine (set.shows_output next.valid.toMapped (Display.back_output direct inside)).trans ?_
      exact iff_of_true ⟨fun other => absurd rfl other, fun _ => room⟩ trivial
  | currentTerminalClear =>
      refine (mapped.clearOn_shows_iff direct).trans ?_
      exact iff_of_true (fun other => absurd rfl other) trivial
  | switchTo t =>
      by_cases same : t = s.display.currentTerminal
      · have kept : (console bootBlock).next s (.switchTo t) = s :=
          State.switchToTerminal_same same
        rw [kept]
        exact iff_of_true shows (fun other => absurd same other)
      · have running : (s.switchToTerminal t).faulted = false := next.valid.fault
        refine (sound.switchTo_shows_iff same running).trans ?_
        simp only [KeepsCursor, ne_eq, same, not_false_eq_true, true_implies]
  | schedule interrupted => exact iff_of_true (sound.schedule_shows interrupted shows) trivial

/-- Loading a shell does not touch the console. -/
theorem Fresh.shell_cursor (fresh : Fresh s) (bootBlock : Option Image) (t : TerminalId)
    (stack : List UInt8) (set : s.display.CursorSet) (room : ¬ s.display.shownScreen.Full) :
    (s.createTerminalShell t bootBlock stack).display.CursorSet ∧
      ¬ (s.createTerminalShell t bootBlock stack).display.shownScreen.Full := by
  rcases fresh.createTerminalShell bootBlock t stack with
    ⟨missing, result⟩ | ⟨mmu, block, result, writes, parentPid, terminal⟩
  · rw [result]
    exact ⟨set, room⟩
  · rw [result]
    exact ⟨set, room⟩

/-- The cursor is in its place when `entry` has come to its `hlt` loop. -/
theorem PowerOn.entry_shows (on : PowerOn s) (bootBlock : Option Image)
    (buffers : TerminalId → List UInt8) :
    (s.entry bootBlock buffers).display.CursorShowsNext := by
  have fresh := on.fresh
  have output := State.printf_output fresh.sound.valid "Enabling Interrupts\n"
  have printed : Fresh (s.initDevices.printf "Enabling Interrupts\n") := fresh.of_output output
  have cleared := printed.of_output
    (Display.clearOn_output (t := s.proc.activeTerminal) printed.sound.valid.window)
  have shown : s.proc.activeTerminal =
      (s.initDevices.printf "Enabling Interrupts\n").display.currentTerminal :=
    (on.activeTerminal.trans on.currentTerminal.symm).trans output.currentTerminal.symm
  obtain ⟨set, room⟩ := clearOn_set shown VIDEO_MEM
  obtain ⟨set, room⟩ := cleared.shell_cursor bootBlock .terminal1 (buffers .terminal1) set room
  have first := (cleared.shellCreated bootBlock .terminal1 (buffers .terminal1)).1
  obtain ⟨set, room⟩ := first.shell_cursor bootBlock .terminal2 (buffers .terminal2) set room
  have second := (first.shellCreated bootBlock .terminal2 (buffers .terminal2)).1
  obtain ⟨set, room⟩ := second.shell_cursor bootBlock .terminal3 (buffers .terminal3) set room
  have mapped := (on.entry_fresh bootBlock buffers).1.valid.toMapped
  exact (Display.CursorSet.shows_iff set mapped).mpr room

/-- In a run of calls from any state that the kernel comes to with the cursor in its place, the
    cursor is in its place after every call, if and only if every call is one that keeps it
    there. -/
theorem cursor_shows_next_iff (on : PowerOn s) {start : State} (reached : Reached bootBlock s start)
    (running : start.faulted = false) (shows : start.display.CursorShowsNext)
    {calls : List ConsoleCall} {later : State} (run : (console bootBlock).Run start calls later) :
    (console bootBlock).Always (fun s => s.display.CursorShowsNext) start calls ↔
      (console bootBlock).EachStep KeepsCursor start calls := by
  have sound := on.reached_sound reached running
  refine run.always_iff (I := Sound) ?_ ?_ sound shows
  · exact fun s call sound able _ => sound.console_sound able
  · exact fun s call sound shows able => sound.console_shows_iff shows able

/-- A newline above the last row. -/
theorem newline_moves {y : Nat} (above : y + 1 < NUM_ROWS)
    (column : display.shownScreen.screenX = 0) (row : display.shownScreen.screenY = y) :
    (display.currentTerminalPutc NEWLINE).shownScreen.screenX = 0 ∧
      (display.currentTerminalPutc NEWLINE).shownScreen.screenY = y + 1 := by
  unfold Display.shownScreen at column row
  have room : ¬ (display.screens display.currentTerminal).Full := by
    simp only [Screen.Full, column, row, NUM_ROWS, NUM_COLS] at *
    omega
  have newline : NEWLINE = NEWLINE ∨ NEWLINE = RETURN := .inl rfl
  rw [Display.shownScreen, Display.currentTerminalPutc, Display.putcOn_currentTerminal,
    putcOn_screen_room _ room, Display.writeChar, if_pos newline, row,
    if_neg (Nat.not_le.mpr above), Display.moveTo_screen]
  exact ⟨rfl, rfl⟩

/-- A letter in front of the last column. -/
theorem letter_moves {x y : Nat} (before : x + 1 < NUM_COLS) (onScreen : y < NUM_ROWS)
    (column : display.shownScreen.screenX = x) (row : display.shownScreen.screenY = y) :
    (display.currentTerminalPutc 0x61).shownScreen.screenX = x + 1 ∧
      (display.currentTerminalPutc 0x61).shownScreen.screenY = y := by
  unfold Display.shownScreen at column row
  have room : ¬ (display.screens display.currentTerminal).Full := by
    simp only [Screen.Full, column, row, NUM_ROWS, NUM_COLS] at *
    omega
  rw [Display.shownScreen, Display.currentTerminalPutc, Display.putcOn_currentTerminal,
    putcOn_screen_room _ room, writeChar_screen _ _ _ (by decide), column,
    if_neg (Nat.not_le.mpr before)]
  exact ⟨rfl, row⟩

/-- Output returns in every sound state. -/
theorem Sound.output_enabled (sound : Sound s) (bootBlock : Option Image) {call : ConsoleCall}
    (output : ∀ t, call ≠ .switchTo t) : (console bootBlock).enabled s call := by
  refine ⟨sound.valid.fault, ?_⟩
  cases call with
  | switchTo t => exact absurd rfl (output t)
  | backPutc => nofun
  | _ =>
      rintro action ⟨⟩
      exact id

theorem Sound.putc_enabled (sound : Sound s) (bootBlock : Option Image) (c : UInt8) :
    (console bootBlock).enabled s (.currentTerminalPutc c) :=
  sound.output_enabled bootBlock fun _ => nofun

/-- From the top left corner, 24 newlines and 79 letters lead to the last cell. -/
theorem Sound.last_cell_run (sound : Sound s) (bootBlock : Option Image)
    (home : s.display.shownScreen.Home) :
    ∃ later, (console bootBlock).Run s
        (List.replicate 24 (.currentTerminalPutc NEWLINE) ++
          List.replicate 79 (.currentTerminalPutc 0x61)) later ∧
      Sound later ∧ later.display.shownScreen.screenX = 79 ∧
      later.display.shownScreen.screenY = 24 := by
  obtain ⟨below, newlines, soundBelow, column, row⟩ := Machine.Run.replicate
    (M := console bootBlock) (n := 24) (a := .currentTerminalPutc NEWLINE)
    (I := fun k s => Sound s ∧ s.display.shownScreen.screenX = 0 ∧
      s.display.shownScreen.screenY = k)
    (fun k before s ⟨sound, column, row⟩ =>
      have able := sound.putc_enabled bootBlock _
      ⟨able, sound.console_sound able, newline_moves (Nat.succ_lt_succ before) column row⟩)
    ⟨sound, home⟩
  obtain ⟨later, letters, holds⟩ := Machine.Run.replicate
    (M := console bootBlock) (n := 79) (a := .currentTerminalPutc 0x61)
    (I := fun k s => Sound s ∧ s.display.shownScreen.screenX = k ∧
      s.display.shownScreen.screenY = 24)
    (fun k before s ⟨sound, column, row⟩ =>
      have able := sound.putc_enabled bootBlock _
      have onScreen : 24 < NUM_ROWS := by decide
      ⟨able, sound.console_sound able,
        letter_moves (Nat.succ_lt_succ before) onScreen column row⟩)
    ⟨soundBelow, column, row⟩
  exact ⟨later, newlines.append letters, holds⟩

/-- One letter more fills the screen, and the cursor goes to the top left corner. -/
theorem Sound.fills_screen (sound : Sound s) (bootBlock : Option Image)
    (home : s.display.shownScreen.Home) :
    ∃ later, (console bootBlock).Run s
        (List.replicate 24 (.currentTerminalPutc NEWLINE) ++
          List.replicate 80 (.currentTerminalPutc 0x61)) later ∧
      later.display.cursor = 0 ∧ ¬ later.display.CursorShowsNext := by
  obtain ⟨last, run, soundLast, column, row⟩ := sound.last_cell_run bootBlock home
  have able := soundLast.putc_enabled bootBlock 0x61
  have mapped := (soundLast.console_sound able).valid.toMapped
  have set : (last.display.currentTerminalPutc 0x61).CursorSet := Display.showCursor_set _
  have fills : last.display.shownScreen.Fills 0x61 := ⟨by decide, column, row⟩
  have full : (last.display.currentTerminalPutc 0x61).shownScreen.Full := by
    rw [Display.shownScreen, Display.currentTerminalPutc, Display.putcOn_currentTerminal]
    exact (putcOn_full_iff VIDEO_DIRECT (soundLast.valid.inside _) 0x61).mpr fills
  have inside : (last.display.currentTerminalPutc 0x61).shownScreen.Inside := mapped.inside _
  have below := inside.full_iff.mp full
  refine ⟨{ last with display := last.display.currentTerminalPutc 0x61 }, ?_, ?_,
    fun shows => (set.shows_iff mapped).mp shows full⟩
  · rw [List.replicate_succ' (n := 79), ← List.append_assoc]
    exact run.append (.cons able (.nil _))
  · refine Eq.trans set ?_
    rw [below, inside.below below]
    rfl

/-- A letter and its erasure, after `entry`. -/
theorem PowerOn.erased_letter_run (on : PowerOn s) (bootBlock : Option Image)
    (buffers : TerminalId → List UInt8) :
    ∃ later, (console bootBlock).Run (s.entry bootBlock buffers)
      [.currentTerminalPutc 0x61, .currentTerminalBackPutc] later := by
  have sound := (on.entry_fresh bootBlock buffers).1.sound
  have letter := sound.putc_enabled bootBlock 0x61
  have erasure : (console bootBlock).enabled _ .currentTerminalBackPutc :=
    (sound.console_sound letter).output_enabled bootBlock fun _ => nofun
  exact ⟨_, .cons letter (.cons erasure (.nil _))⟩

end Calls

theorem erased_letter_shows_next_iff :
    (console none).Always (fun s => s.display.CursorShowsNext) (poweredOn.entry none fun _ => [])
        [.currentTerminalPutc 0x61, .currentTerminalBackPutc] ↔
      (console none).EachStep KeepsCursor (poweredOn.entry none fun _ => [])
        [.currentTerminalPutc 0x61, .currentTerminalBackPutc] := by
  obtain ⟨later, run⟩ := poweredOn_powerOn.erased_letter_run none fun _ => []
  exact cursor_shows_next_iff poweredOn_powerOn (.booted (.nil _))
    (poweredOn_powerOn.entry_fresh none _).1.running (poweredOn_powerOn.entry_shows none _) run

/-- A screen that is filled to its last cell. -/
theorem filled_screen_loses_cursor :
    poweredOn.initDevices.display.CursorShowsNext ∧
      ∃ later, (console none).Run poweredOn.initDevices
          (List.replicate 24 (.currentTerminalPutc NEWLINE) ++
            List.replicate 80 (.currentTerminalPutc 0x61)) later ∧
        later.display.cursor = 0 ∧ ¬ later.display.CursorShowsNext := by
  have sound := poweredOn_powerOn.fresh.sound
  have shows : poweredOn.initDevices.display.CursorShowsNext :=
    (sound.valid.toMapped.cursorShowsNext_iff).mpr rfl
  exact ⟨shows, sound.fills_screen none ⟨rfl, rfl⟩⟩

end LightOS.Kernel
