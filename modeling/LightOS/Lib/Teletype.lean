import Mathlib.Tactic.TypeStar

/-! # Teletypes and screens

A teletype writes on a sheet that has no last row.  A screen has room for `height` rows of it:
it rolls up when the cursor leaves the last row, at once after a newline, and otherwise only
when the next character comes.  What the screen shows is a window of the sheet all the same,
and the window only moves down.
-/

namespace LightOS.Lib

/-- Rows of cells, without end, and a cursor. -/
@[ext]
structure Sheet (α : Type*) where
  cell : Nat → Nat → α
  row : Nat
  column : Nat

namespace Sheet

variable {α : Type*}

/-- A sheet that nothing has been written on. -/
def empty (blank : α) : Sheet α := ⟨fun _ _ => blank, 0, 0⟩

/-- A character at the cursor, which moves on, to the next row after the last column. -/
def print (width : Nat) (sheet : Sheet α) (a : α) : Sheet α where
  cell i j := if i = sheet.row ∧ j = sheet.column then a else sheet.cell i j
  row := if width ≤ sheet.column + 1 then sheet.row + 1 else sheet.row
  column := if width ≤ sheet.column + 1 then 0 else sheet.column + 1

def newline (sheet : Sheet α) : Sheet α := { sheet with row := sheet.row + 1, column := 0 }

/-- One input of a teletype, where `none` is the newline. -/
def feed (width : Nat) (sheet : Sheet α) : Option α → Sheet α
  | some a => sheet.print width a
  | none => sheet.newline

/-- The rows move up by one, and the cursor is in the last. -/
def rollUp (height : Nat) (blank : α) (sheet : Sheet α) : Sheet α where
  cell i j := if i + 1 < height then sheet.cell (i + 1) j else blank
  row := height - 1
  column := 0

/-- One input of a screen. -/
def feedOn (height width : Nat) (blank : α) (screen : Sheet α) (char : Option α) : Sheet α :=
  let screen := if height ≤ screen.row then screen.rollUp height blank else screen
  match char with
  | some a => screen.print width a
  | none => if height ≤ screen.row + 1 then screen.rollUp height blank else screen.newline

/-- The character before the cursor is taken back; at the very beginning there is none. -/
def back (width : Nat) (blank : α) (screen : Sheet α) : Sheet α :=
  if screen.row = 0 ∧ screen.column = 0 then screen
  else
    let row := if screen.column = 0 then screen.row - 1 else screen.row
    let column := if screen.column = 0 then width - 1 else screen.column - 1
    { cell := fun i j => if i = row ∧ j = column then blank else screen.cell i j
      row := row
      column := column }

/-- The screen shows the rows of the paper from `scrolled` on, which is beyond the first only
    once the last row has been used. -/
structure WindowOf (height width : Nat) (screen paper : Sheet α) (scrolled : Nat) : Prop where
  cells : ∀ i < height, ∀ j < width, screen.cell i j = paper.cell (scrolled + i) j
  row : paper.row = scrolled + screen.row
  column : paper.column = screen.column
  inside : screen.column < width
  bottom : screen.row ≤ height
  pending : screen.row = height → screen.column = 0
  used : 0 < scrolled → height ≤ screen.row + 1

/-- Nothing has been written at the cursor or behind it. -/
def BlankAhead (blank : α) (paper : Sheet α) : Prop :=
  ∀ i j, paper.row < i ∨ (paper.row = i ∧ paper.column ≤ j) → paper.cell i j = blank

variable {height width scrolled : Nat} {blank : α} {screen paper : Sheet α}

theorem BlankAhead.print (ahead : BlankAhead blank paper) (a : α) :
    BlankAhead blank (paper.print width a) := by
  intro i j behind
  have past : paper.row < i ∨ (paper.row = i ∧ paper.column < j) := by
    simp only [Sheet.print] at behind
    grind
  have untouched : (paper.print width a).cell i j = paper.cell i j := by
    simp only [Sheet.print]
    grind
  rw [untouched]
  exact ahead i j (by omega)

theorem BlankAhead.newline (ahead : BlankAhead blank paper) : BlankAhead blank paper.newline := by
  intro i j behind
  apply ahead i j
  simp only [Sheet.newline] at behind
  omega

/-- What a teletype has not come to yet is blank, whatever it is fed. -/
theorem BlankAhead.feed (ahead : BlankAhead blank paper) (char : Option α) :
    BlankAhead blank (paper.feed width char) := by
  cases char with
  | some a => exact ahead.print a
  | none => exact ahead.newline

theorem blankAhead_empty (blank : α) : BlankAhead blank (empty blank) := fun _ _ _ => rfl

/-- A screen rolls up when the cursor of the teletype has come to the row below it. -/
theorem WindowOf.rollUp (roomy : 0 < height) (wide : 0 < width)
    (cells : ∀ i < height, ∀ j < width, screen.cell i j = paper.cell (scrolled + i) j)
    (row : paper.row = scrolled + height) (column : paper.column = 0)
    (ahead : BlankAhead blank paper) :
    WindowOf height width (screen.rollUp height blank) paper (scrolled + 1) where
  cells i small j inside := by
    simp only [Sheet.rollUp]
    split
    · next above =>
        rw [cells (i + 1) above j inside]
        congr 1
        omega
    · exact (ahead _ j (by omega)).symm
  row := by
    simp only [Sheet.rollUp]
    omega
  column := column
  inside := wide
  bottom := Nat.sub_le ..
  pending _ := rfl
  used _ := by
    simp only [Sheet.rollUp]
    omega

theorem WindowOf.print (window : WindowOf height width screen paper scrolled)
    (onScreen : screen.row < height) (a : α) :
    WindowOf height width (screen.print width a) (paper.print width a) scrolled where
  cells i small j before := by
    have here := window.cells i small j before
    have row := window.row
    simp only [Sheet.print, row, window.column]
    grind
  row := by
    have row := window.row
    simp only [Sheet.print, window.column]
    split <;> omega
  column := by simp only [Sheet.print, window.column]
  inside := by
    have inside := window.inside
    simp only [Sheet.print]
    split <;> omega
  bottom := by
    simp only [Sheet.print]
    split <;> omega
  pending := by
    simp only [Sheet.print]
    split <;> omega
  used scrolls := by
    have used := window.used scrolls
    simp only [Sheet.print]
    split <;> omega

theorem WindowOf.newline (window : WindowOf height width screen paper scrolled)
    (above : screen.row + 1 < height) :
    WindowOf height width screen.newline paper.newline scrolled where
  cells := window.cells
  row := by
    have row := window.row
    simp only [Sheet.newline]
    omega
  column := rfl
  inside := Nat.zero_lt_of_lt window.inside
  bottom := Nat.le_of_lt above
  pending _ := rfl
  used scrolls := Nat.le_succ_of_le (window.used scrolls)

/-- A screen that is full rolls up before the next character, and the paper stays. -/
theorem WindowOf.settle (window : WindowOf height width screen paper scrolled)
    (roomy : 0 < height) (ahead : BlankAhead blank paper) :
    ∃ later, scrolled ≤ later ∧
      (if height ≤ screen.row then screen.rollUp height blank else screen).row < height ∧
      WindowOf height width
        (if height ≤ screen.row then screen.rollUp height blank else screen) paper later := by
  split
  · next full =>
      have last : screen.row = height := Nat.le_antisymm window.bottom full
      have row : paper.row = scrolled + height := by rw [window.row, last]
      have column : paper.column = 0 := by rw [window.column, window.pending last]
      refine ⟨scrolled + 1, Nat.le_succ _, Nat.sub_lt roomy Nat.one_pos, ?_⟩
      exact .rollUp roomy (Nat.zero_lt_of_lt window.inside) window.cells row column ahead
  · next room => exact ⟨scrolled, Nat.le_refl _, Nat.not_le.mp room, window⟩

/-- One input keeps the window, which moves down or stays. -/
theorem WindowOf.feed (window : WindowOf height width screen paper scrolled)
    (roomy : 0 < height) (ahead : BlankAhead blank paper) (char : Option α) :
    ∃ later, scrolled ≤ later ∧
      WindowOf height width (screen.feedOn height width blank char) (paper.feed width char)
        later := by
  obtain ⟨settled, moved, onScreen, window⟩ := window.settle roomy ahead
  unfold feedOn
  revert onScreen window
  generalize (if height ≤ screen.row then screen.rollUp height blank else screen) = screen
  intro onScreen window
  cases char with
  | some a => exact ⟨settled, moved, window.print onScreen a⟩
  | none =>
      by_cases last : height ≤ screen.row + 1
      · have row : paper.newline.row = settled + height := by
          have here := window.row
          simp only [Sheet.newline]
          omega
        refine ⟨settled + 1, Nat.le_succ_of_le moved, ?_⟩
        simp only [if_pos last]
        exact .rollUp roomy (Nat.zero_lt_of_lt window.inside) window.cells row rfl ahead.newline
      · simp only [if_neg last]
        exact ⟨settled, moved, window.newline (Nat.not_le.mp last)⟩

/-- Before anything is written. -/
theorem windowOf_empty (wide : 0 < width) :
    WindowOf height width (empty blank) (empty blank) 0 where
  cells _ _ _ _ := rfl
  row := rfl
  column := rfl
  inside := wide
  bottom := Nat.zero_le _
  pending _ := rfl
  used none := absurd none (Nat.lt_irrefl 0)

end Sheet

end LightOS.Lib
