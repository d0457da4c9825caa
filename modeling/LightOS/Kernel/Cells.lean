import LightOS.Kernel.Mapping
import LightOS.Lib.Teletype

/-! # The console, cell by cell

Every store of the console routines belongs to a cell of the screen, a character and its
colour.  Here each routine is a list of such steps: the routine does to memory what the list
does, and through a window on a page it does to the cells of that page what the list says.
On the cells a byte sent to the console is one input of a screen of 25 rows and 80 columns.
-/

namespace LightOS.Kernel

open Lib

/-- What a round of a loop of the console does, to both bytes of a cell. -/
inductive CellStep
  | write (cell : Nat) (char : UInt8)
  | copy (dest src : Nat)

/-- The cells a step reads or writes. -/
def CellStep.cells : CellStep → List Nat
  | .write cell _ => [cell]
  | .copy dest src => [dest, src]

/-- The step, at the virtual address `base` of the screen. -/
def CellStep.run (base : Nat) (mmu : Mmu) : CellStep → Mmu
  | .write cell char => (mmu.store (base + 2 * cell) char).store (base + 2 * cell + 1) ATTRIB
  | .copy dest src =>
      (mmu.copyByte (base + 2 * dest) (base + 2 * src)).copyByte (base + 2 * dest + 1)
        (base + 2 * src + 1)

/-- A character and its colour. -/
abbrev Cell := UInt8 × UInt8

/-- What the step means for the cells of a page. -/
def CellStep.onCells (cells : Nat → Cell) : CellStep → Nat → Cell
  | .write cell char => Function.update cells cell (char, ATTRIB)
  | .copy dest src => Function.update cells dest (cells src)

/-- The steps of the two loops that roll a screen up. -/
def scrollSteps : List CellStep :=
  (List.range ((NUM_ROWS - 1) * NUM_COLS)).map (fun index => .copy index (index + NUM_COLS)) ++
    (List.range' ((NUM_ROWS - 1) * NUM_COLS) NUM_COLS).map (.write · SPACE)

/-- The steps of `clear`. -/
def clearSteps : List CellStep := (List.range (NUM_ROWS * NUM_COLS)).map (.write · SPACE)

def isNewline (c : UInt8) : Prop := c = NEWLINE ∨ c = RETURN

instance (c : UInt8) : Decidable (isNewline c) :=
  inferInstanceAs (Decidable (c = NEWLINE ∨ c = RETURN))

/-- The steps for the character itself, with the cursor at `x`, `y`. -/
def charSteps (x y : Nat) (c : UInt8) : List CellStep :=
  if isNewline c then if NUM_ROWS ≤ y + 1 then scrollSteps else []
  else [.write (NUM_COLS * y + x) c]

namespace Screen

/-- The screen is full: the next character rolls it up first. -/
def Full (screen : Screen) : Prop :=
  NUM_ROWS * NUM_COLS ≤ NUM_COLS * screen.screenY + screen.screenX

instance (screen : Screen) : Decidable screen.Full :=
  inferInstanceAs (Decidable (NUM_ROWS * NUM_COLS ≤ NUM_COLS * screen.screenY + screen.screenX))

/-- The steps of `putc` for the terminal with this cursor. -/
def putcSteps (screen : Screen) (c : UInt8) : List CellStep :=
  if screen.Full then scrollSteps ++ charSteps 0 (NUM_ROWS - 1) c
  else charSteps screen.screenX screen.screenY c

end Screen

/-- The cells of physical page `page`. -/
def cellsOf (page : Nat) (mem : Nat → UInt8) (cell : Nat) : Cell :=
  (mem (4096 * page + 2 * cell), mem (4096 * page + 2 * cell + 1))

section Steps

variable {page base : Nat} {t : TerminalId} {mmu : Mmu} {display : Display}

/-- All cells of the steps are on the screen. -/
def OnScreen (steps : List CellStep) : Prop :=
  ∀ step ∈ steps, ∀ cell ∈ step.cells, cell < NUM_ROWS * NUM_COLS

theorem OnScreen.append {first second : List CellStep} (onFirst : OnScreen first)
    (onSecond : OnScreen second) : OnScreen (first ++ second) := by
  intro step member
  cases List.mem_append.mp member with
  | inl early => exact onFirst step early
  | inr late => exact onSecond step late

theorem scrollSteps_onScreen : OnScreen scrollSteps := by
  intro step member cell touched
  simp only [scrollSteps, NUM_ROWS, NUM_COLS, List.mem_append, List.mem_map, List.mem_range,
    List.mem_range'_1] at member
  cases member with
  | inl copied =>
      obtain ⟨index, small, rfl⟩ := copied
      simp only [CellStep.cells, List.mem_cons, List.not_mem_nil, or_false] at touched
      simp only [NUM_ROWS, NUM_COLS]
      omega
  | inr blanked =>
      obtain ⟨index, small, rfl⟩ := blanked
      simp only [CellStep.cells, List.mem_singleton] at touched
      simp only [NUM_ROWS, NUM_COLS]
      omega

theorem clearSteps_onScreen : OnScreen clearSteps := by
  intro step member cell touched
  obtain ⟨index, small, rfl⟩ := List.mem_map.mp member
  obtain rfl : cell = index := by simpa [CellStep.cells] using touched
  exact List.mem_range.mp small

theorem charSteps_onScreen {x y : Nat} (column : x < NUM_COLS) (row : y < NUM_ROWS) (c : UInt8) :
    OnScreen (charSteps x y c) := by
  unfold charSteps
  split
  · split
    · exact scrollSteps_onScreen
    · exact fun step none => nomatch none
  · intro step member cell touched
    obtain rfl := List.mem_singleton.mp member
    obtain rfl := List.mem_singleton.mp touched
    simp only [NUM_ROWS, NUM_COLS] at *
    omega

/-- Only the row below the screen is full. -/
theorem Screen.Inside.full_iff {screen : Screen} (inside : screen.Inside) :
    screen.Full ↔ screen.screenY = NUM_ROWS := by
  obtain ⟨column, row, _⟩ := inside
  simp only [Screen.Full, NUM_ROWS, NUM_COLS] at *
  omega

theorem Screen.Inside.putcSteps_onScreen {screen : Screen} (inside : screen.Inside) (c : UInt8) :
    OnScreen (screen.putcSteps c) := by
  unfold Screen.putcSteps
  split
  · exact scrollSteps_onScreen.append (charSteps_onScreen (by decide) (by decide) c)
  · next room =>
      rw [inside.full_iff] at room
      have row := inside.row
      exact charSteps_onScreen inside.column (by omega) c

@[simp] theorem Display.moveTo_mmu (display : Display) (t : TerminalId) (x y : Nat) :
    (display.moveTo t x y).mmu = display.mmu := rfl

@[simp] theorem Display.moveTo_screen (display : Display) (t : TerminalId) (x y : Nat) :
    (display.moveTo t x y).screens t =
      { display.screens t with screenX := x, screenY := y } := Function.update_self ..

theorem Display.moveTo_screenX (display : Display) (t : TerminalId) (x y : Nat) :
    ((display.moveTo t x y).screens t).screenX = x := by rw [moveTo_screen]

theorem Display.moveTo_screenY (display : Display) (t : TerminalId) (x y : Nat) :
    ((display.moveTo t x y).screens t).screenY = y := by rw [moveTo_screen]

@[simp] theorem Display.showCursor_mmu (display : Display) :
    display.showCursor.mmu = display.mmu := rfl

@[simp] theorem Display.showCursor_screens (display : Display) :
    display.showCursor.screens = display.screens := rfl

theorem scroll_steps (base : Nat) (mmu : Mmu) :
    scroll base mmu = scrollSteps.foldl (CellStep.run base) mmu := by
  simp only [scroll, scrollSteps, List.foldl_append, List.foldl_map, CellStep.run]

theorem writeChar_steps (base : Nat) (t : TerminalId) (display : Display) (c : UInt8) :
    (display.writeChar base t c).mmu =
      (charSteps (display.screens t).screenX (display.screens t).screenY c).foldl
        (CellStep.run base) display.mmu := by
  by_cases newline : isNewline c
  · have newline' : c = NEWLINE ∨ c = RETURN := newline
    simp only [Display.writeChar, charSteps, if_pos newline, if_pos newline']
    by_cases last : NUM_ROWS ≤ (display.screens t).screenY + 1
    · rw [if_pos last, if_pos last, Display.moveTo_mmu, scroll_steps]
    · rw [if_neg last, if_neg last, Display.moveTo_mmu, List.foldl_nil]
  · have ordinary : ¬ (c = NEWLINE ∨ c = RETURN) := newline
    simp only [Display.writeChar, charSteps, if_neg newline, if_neg ordinary]
    split <;> rw [Display.moveTo_mmu, List.foldl_cons, List.foldl_nil, CellStep.run]

/-- `putc` does to memory what its steps do. -/
theorem putcOn_steps (base : Nat) (t : TerminalId) (display : Display) (c : UInt8) :
    (display.putcOn base t c).mmu =
      ((display.screens t).putcSteps c).foldl (CellStep.run base) display.mmu := by
  rw [Display.putcOn, Display.showCursor_mmu, writeChar_steps, Screen.putcSteps]
  by_cases full : (display.screens t).Full
  · have rolled : display.rollIfFull base t =
        { display with mmu := scroll base display.mmu }.moveTo t 0 (NUM_ROWS - 1) := if_pos full
    rw [rolled, if_pos full, List.foldl_append, ← scroll_steps, Display.moveTo_mmu,
      Display.moveTo_screen]
  · have kept : display.rollIfFull base t = display := if_neg full
    rw [kept, if_neg full]

/-- And so does `clear`. -/
theorem clearOn_steps (base : Nat) (t : TerminalId) (display : Display) :
    (display.clearOn base t).mmu = clearSteps.foldl (CellStep.run base) display.mmu := by
  rw [Display.clearOn, Display.showCursor_mmu, Display.moveTo_mmu, clearSteps, List.foldl_map]
  simp only [CellStep.run]

end Steps

section OnCells

variable {page base : Nat} {t : TerminalId} {mmu : Mmu} {display : Display}

theorem cellsOf_write (mem : Nat → UInt8) (cell : Nat) (char colour : UInt8) :
    cellsOf page (Function.update (Function.update mem (4096 * page + 2 * cell) char)
        (4096 * page + 2 * cell + 1) colour) =
      Function.update (cellsOf page mem) cell (char, colour) := by
  funext other
  by_cases same : other = cell
  · subst same
    simp [cellsOf]
  · rw [Function.update_of_ne same]
    simp only [cellsOf, Prod.mk.injEq]
    constructor <;> rw [Function.update_of_ne (by omega), Function.update_of_ne (by omega)]

/-- The two bytes of a cell, through a window. -/
theorem Mmu.Window.cell (window : mmu.Window base page) {cell : Nat}
    (onScreen : cell < NUM_ROWS * NUM_COLS) :
    mmu.translate (base + 2 * cell) = some (4096 * page + 2 * cell) ∧
      mmu.translate (base + 2 * cell + 1) = some (4096 * page + 2 * cell + 1) := by
  simp only [NUM_ROWS, NUM_COLS] at onScreen
  constructor <;> rw [window _ (by omega) (by omega)] <;> congr 1 <;> omega

/-- One step through a window changes the page by whole cells. -/
theorem CellStep.run_cells (window : mmu.Window base page) (step : CellStep)
    (onScreen : ∀ cell ∈ step.cells, cell < NUM_ROWS * NUM_COLS) :
    Mmu.WritesIn (OnPage page) mmu (step.run base mmu) ∧
      cellsOf page (step.run base mmu).mem = step.onCells (cellsOf page mmu.mem) := by
  cases step with
  | write cell char =>
      have small : cell < NUM_ROWS * NUM_COLS := onScreen cell (List.mem_cons_self ..)
      have writes := window.storeCell small char ATTRIB
      obtain ⟨first, second⟩ := window.cell small
      refine ⟨writes, ?_⟩
      have second' : (mmu.store (base + 2 * cell) char).translate (base + 2 * cell + 1) =
          some (4096 * page + 2 * cell + 1) := by
        rw [Mmu.store_mem first]
        exact second
      rw [CellStep.run, Mmu.store_mem second', Mmu.store_mem first]
      exact cellsOf_write _ _ _ _
  | copy dest src =>
      have destSmall : dest < NUM_ROWS * NUM_COLS := onScreen dest (by simp [CellStep.cells])
      have srcSmall : src < NUM_ROWS * NUM_COLS := onScreen src (by simp [CellStep.cells])
      obtain ⟨destFirst, destSecond⟩ := window.cell destSmall
      obtain ⟨srcFirst, srcSecond⟩ := window.cell srcSmall
      have first : Mmu.WritesIn (OnPage page) mmu
          (mmu.copyByte (base + 2 * dest) (base + 2 * src)) := by
        simp only [NUM_ROWS, NUM_COLS] at destSmall srcSmall
        exact window.copyByte _ _ (by omega) (by omega) (by omega) (by omega)
      have destSecond' := (first.translate _).trans destSecond
      have srcSecond' := (first.translate _).trans srcSecond
      have inside : OnPage page (4096 * page + 2 * dest + 1) := by
        simp only [NUM_ROWS, NUM_COLS] at destSmall
        unfold OnPage
        omega
      refine ⟨first.trans (Mmu.copyByte_writes destSecond' srcSecond' inside), ?_⟩
      have apart : 4096 * page + 2 * src + 1 ≠ 4096 * page + 2 * dest := by omega
      rw [CellStep.run, Mmu.copyByte_mem destSecond' srcSecond',
        Mmu.copyByte_mem destFirst srcFirst]
      simp only [Function.update_of_ne apart, cellsOf_write, CellStep.onCells]
      rfl

/-- And so do all the steps of a routine. -/
theorem steps_cells (window : mmu.Window base page) {steps : List CellStep}
    (onScreen : OnScreen steps) :
    cellsOf page (steps.foldl (CellStep.run base) mmu).mem =
      steps.foldl CellStep.onCells (cellsOf page mmu.mem) := by
  induction steps generalizing mmu with
  | nil => rfl
  | cons step steps ih =>
      obtain ⟨here, later⟩ := List.forall_mem_cons.mp onScreen
      obtain ⟨writes, cells⟩ := step.run_cells window here
      rw [List.foldl_cons, List.foldl_cons, ih (window.of_writes writes) later, cells]

/-- What the first loop of a scroll leaves after `n` rounds. -/
theorem copy_rounds (cells : Nat → Cell) (n : Nat) :
    ((List.range n).map (fun index => CellStep.copy index (index + NUM_COLS))).foldl
        CellStep.onCells cells =
      fun cell => if cell < n then cells (cell + NUM_COLS) else cells cell := by
  induction n with
  | zero => rfl
  | succ n ih =>
      rw [List.range_succ, List.map_append, List.foldl_append, ih]
      funext cell
      simp only [List.map_cons, List.map_nil, List.foldl_cons, List.foldl_nil, CellStep.onCells,
        Function.update_apply, NUM_COLS]
      grind

/-- What a loop that blanks cells leaves. -/
theorem blank_rounds (cells : Nat → Cell) (from_ n : Nat) :
    ((List.range' from_ n).map (CellStep.write · SPACE)).foldl CellStep.onCells cells =
      fun cell => if from_ ≤ cell ∧ cell < from_ + n then (SPACE, ATTRIB) else cells cell := by
  induction n with
  | zero =>
      funext cell
      rw [if_neg (by omega)]
      rfl
  | succ n ih =>
      rw [List.range'_1_concat, List.map_append, List.foldl_append, ih]
      funext cell
      simp only [List.map_cons, List.map_nil, List.foldl_cons, List.foldl_nil, CellStep.onCells,
        Function.update_apply]
      grind

theorem scroll_cells (cells : Nat → Cell) :
    scrollSteps.foldl CellStep.onCells cells = fun cell =>
      if cell < (NUM_ROWS - 1) * NUM_COLS then cells (cell + NUM_COLS)
      else if cell < NUM_ROWS * NUM_COLS then (SPACE, ATTRIB) else cells cell := by
  rw [scrollSteps, List.foldl_append, copy_rounds, blank_rounds]
  funext cell
  simp only [NUM_ROWS, NUM_COLS]
  grind

theorem clear_cells (cells : Nat → Cell) :
    clearSteps.foldl CellStep.onCells cells = fun cell =>
      if cell < NUM_ROWS * NUM_COLS then (SPACE, ATTRIB) else cells cell := by
  rw [clearSteps, List.range_eq_range', blank_rounds]
  funext cell
  simp only [Nat.zero_le, true_and, Nat.zero_add]

end OnCells

/-- A cell with nothing in it. -/
def blankCell : Cell := (SPACE, ATTRIB)

/-- The screen of terminal `t` on physical page `page`, with its cursor. -/
def Display.sheet (display : Display) (page : Nat) (t : TerminalId) : Sheet Cell where
  cell i j :=
    if i < NUM_ROWS ∧ j < NUM_COLS then cellsOf page display.mmu.mem (NUM_COLS * i + j)
    else blankCell
  row := (display.screens t).screenY
  column := (display.screens t).screenX

/-- What a byte is to a teletype. -/
def teletypeInput (c : UInt8) : Option Cell := if isNewline c then none else some (c, ATTRIB)

section Sheets

variable {page base : Nat} {t : TerminalId} {display : Display}

theorem scroll_sheet (window : display.mmu.Window base page) :
    ({ display with mmu := scroll base display.mmu }.moveTo t 0 (NUM_ROWS - 1)).sheet page t =
      (display.sheet page t).rollUp NUM_ROWS blankCell := by
  have cells := steps_cells window scrollSteps_onScreen
  rw [← scroll_steps, scroll_cells] at cells
  apply Sheet.ext
  · funext i j
    simp only [Display.sheet, Sheet.rollUp, Display.moveTo_mmu, cells]
    simp only [NUM_ROWS, NUM_COLS, blankCell]
    grind
  · simp only [Display.sheet, Sheet.rollUp, Display.moveTo_screen]
  · simp only [Display.sheet, Sheet.rollUp, Display.moveTo_screen]

theorem rollIfFull_sheet (window : display.mmu.Window base page)
    (inside : (display.screens t).Inside) :
    (display.rollIfFull base t).sheet page t =
      if NUM_ROWS ≤ (display.sheet page t).row then
        (display.sheet page t).rollUp NUM_ROWS blankCell
      else display.sheet page t := by
  have row := inside.row
  by_cases full : (display.screens t).Full
  · have last : NUM_ROWS ≤ (display.sheet page t).row := Nat.le_of_eq (inside.full_iff.mp full).symm
    have rolled : display.rollIfFull base t =
        { display with mmu := scroll base display.mmu }.moveTo t 0 (NUM_ROWS - 1) := if_pos full
    rw [rolled, if_pos last, scroll_sheet window]
  · have room : ¬ NUM_ROWS ≤ (display.sheet page t).row := fun last =>
      full (inside.full_iff.mpr (Nat.le_antisymm row last))
    have kept : display.rollIfFull base t = display := if_neg full
    rw [kept, if_neg room]

/-- The cursor behind an ordinary character. -/
theorem writeChar_screen (base : Nat) (t : TerminalId) (display : Display) {c : UInt8}
    (ordinary : ¬ isNewline c) :
    (display.writeChar base t c).screens t =
      if NUM_COLS ≤ (display.screens t).screenX + 1 then
        { display.screens t with screenX := 0, screenY := (display.screens t).screenY + 1 }
      else { display.screens t with screenX := (display.screens t).screenX + 1 } := by
  have ordinary' : ¬ (c = NEWLINE ∨ c = RETURN) := ordinary
  simp only [Display.writeChar, if_neg ordinary']
  split <;> exact Display.moveTo_screen _ _ _ _

/-- An ordinary character on the screen. -/
theorem print_sheet (window : display.mmu.Window base page)
    (column : (display.screens t).screenX < NUM_COLS)
    (row : (display.screens t).screenY < NUM_ROWS) {c : UInt8} (ordinary : ¬ isNewline c) :
    (display.writeChar base t c).sheet page t =
      (display.sheet page t).print NUM_COLS (c, ATTRIB) := by
  have onScreen := charSteps_onScreen column row c
  have cells := steps_cells window onScreen
  rw [← writeChar_steps, charSteps, if_neg ordinary] at cells
  simp only [List.foldl_cons, List.foldl_nil, CellStep.onCells] at cells
  have cursor := writeChar_screen base t display ordinary
  apply Sheet.ext
  · funext i j
    simp only [Display.sheet, Sheet.print, cells, Function.update_apply]
    simp only [NUM_ROWS, NUM_COLS] at *
    grind
  · simp only [Display.sheet, Sheet.print, cursor, apply_ite Screen.screenY]
    rfl
  · simp only [Display.sheet, Sheet.print, cursor, apply_ite Screen.screenX]
    rfl

/-- A newline on the screen. -/
theorem newline_sheet (window : display.mmu.Window base page) {c : UInt8} (newline : isNewline c) :
    (display.writeChar base t c).sheet page t =
      if NUM_ROWS ≤ (display.sheet page t).row + 1 then
        (display.sheet page t).rollUp NUM_ROWS blankCell
      else (display.sheet page t).newline := by
  have newline' : c = NEWLINE ∨ c = RETURN := newline
  simp only [Display.writeChar, if_pos newline']
  have same : (display.sheet page t).row = (display.screens t).screenY := rfl
  rw [same]
  split
  · exact scroll_sheet window
  · simp only [Display.sheet, Sheet.newline, Display.moveTo_screen, Display.moveTo_mmu]

/-- A byte sent to the console is one input of the screen. -/
theorem putcOn_sheet (window : display.mmu.Window base page)
    (inside : (display.screens t).Inside) (c : UInt8) :
    (display.putcOn base t c).sheet page t =
      (display.sheet page t).feedOn NUM_ROWS NUM_COLS blankCell (teletypeInput c) := by
  have shown : (display.putcOn base t c).sheet page t =
      ((display.rollIfFull base t).writeChar base t c).sheet page t := rfl
  have rolled := Display.rollIfFull_output (t := t) window
  have window' := window.of_writes rolled.writes
  rw [shown]
  unfold Sheet.feedOn
  rw [← rollIfFull_sheet window inside]
  by_cases newline : isNewline c
  · simp only [teletypeInput, if_pos newline, newline_sheet window' newline]
  · simp only [teletypeInput, if_neg newline, print_sheet window' (rolled.inside inside).column
      (Display.rollIfFull_row inside) newline]

/-- A clear screen. -/
theorem clearOn_sheet (window : display.mmu.Window base page) :
    (display.clearOn base t).sheet page t = Sheet.empty blankCell := by
  have cells := steps_cells window clearSteps_onScreen
  rw [← clearOn_steps base t display, clear_cells] at cells
  apply Sheet.ext
  · funext i j
    simp only [Display.sheet, Sheet.empty, cells]
    simp only [NUM_ROWS, NUM_COLS, blankCell]
    grind
  · simp only [Display.sheet, Sheet.empty, Display.clearOn, Display.showCursor_screens,
      Display.moveTo_screen]
  · simp only [Display.sheet, Sheet.empty, Display.clearOn, Display.showCursor_screens,
      Display.moveTo_screen]

end Sheets

end LightOS.Kernel
