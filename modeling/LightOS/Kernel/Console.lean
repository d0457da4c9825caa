import LightOS.Kernel.Screen

/-! # What console output touches

A console routine that is given a window, 4 KB of virtual addresses mapped to one page,
writes to that page only and moves the cursor of one terminal, which stays on the screen.
-/

namespace LightOS.Kernel

/-- The bytes of physical page `page`. -/
def OnPage (page pa : Nat) : Prop := 4096 * page ≤ pa ∧ pa < 4096 * page + 4096

/-- The page at `base` is mapped to `page`. -/
def Mmu.Window (mmu : Mmu) (base page : Nat) : Prop :=
  ∀ va, base ≤ va → va < base + 4096 → mmu.translate va = some (4096 * page + (va - base))

/-- The cursor is on the screen, or at the start of the row below it. -/
structure Screen.Inside (screen : Screen) : Prop where
  column : screen.screenX < NUM_COLS
  row : screen.screenY ≤ NUM_ROWS
  below : screen.screenY = NUM_ROWS → screen.screenX = 0

/-- Output of terminal `t` through a window on `page`. -/
structure OutputOn (page : Nat) (t : TerminalId) (before after : Display) : Prop where
  writes : Mmu.WritesIn (OnPage page) before.mmu after.mmu
  currentTerminal : after.currentTerminal = before.currentTerminal
  others : ∀ u, u ≠ t → after.screens u = before.screens u
  terminalId : (after.screens t).terminalId = (before.screens t).terminalId
  videoAddress : (after.screens t).videoAddress = (before.screens t).videoAddress
  inside : (before.screens t).Inside → (after.screens t).Inside

section Output

variable {page base : Nat} {t : TerminalId} {mmu : Mmu} {display : Display}

theorem OutputOn.refl (page : Nat) (t : TerminalId) (display : Display) :
    OutputOn page t display display :=
  ⟨.refl _ _, rfl, fun _ _ => rfl, rfl, rfl, id⟩

theorem OutputOn.trans {first second third : Display} (h : OutputOn page t first second)
    (h' : OutputOn page t second third) : OutputOn page t first third where
  writes := h.writes.trans h'.writes
  currentTerminal := h'.currentTerminal.trans h.currentTerminal
  others u ne := (h'.others u ne).trans (h.others u ne)
  terminalId := h'.terminalId.trans h.terminalId
  videoAddress := h'.videoAddress.trans h.videoAddress
  inside start := h'.inside (h.inside start)

theorem Mmu.Window.of_writes {region : Nat → Prop} {before after : Mmu}
    (writes : Mmu.WritesIn region before after) (window : before.Window base page) :
    after.Window base page := by
  intro va low high
  rw [writes.translate, window va low high]

/-- A store at an address of the window. -/
theorem Mmu.Window.store (window : mmu.Window base page) (va : Nat) (low : base ≤ va)
    (high : va < base + 4096) (byte : UInt8) : Mmu.WritesIn (OnPage page) mmu (mmu.store va byte) :=
  Mmu.store_writes (window va low high) ⟨by omega, by omega⟩ byte

theorem Mmu.Window.copyByte (window : mmu.Window base page) (dest src : Nat) (low : base ≤ dest)
    (high : dest < base + 4096) (srcLow : base ≤ src) (srcHigh : src < base + 4096) :
    Mmu.WritesIn (OnPage page) mmu (mmu.copyByte dest src) :=
  Mmu.copyByte_writes (window dest low high) (window src srcLow srcHigh) ⟨by omega, by omega⟩

/-- Two bytes of a cell. -/
theorem Mmu.Window.storeCell (window : mmu.Window base page) {cell : Nat}
    (onScreen : cell < NUM_ROWS * NUM_COLS) (char colour : UInt8) :
    Mmu.WritesIn (OnPage page) mmu
      ((mmu.store (base + 2 * cell) char).store (base + 2 * cell + 1) colour) := by
  simp only [NUM_ROWS, NUM_COLS] at onScreen
  have first := window.store (base + 2 * cell) (by omega) (by omega) char
  exact first.trans ((window.of_writes first).store _ (by omega) (by omega) colour)

theorem scroll_writes (window : mmu.Window base page) :
    Mmu.WritesIn (OnPage page) mmu (scroll base mmu) := by
  have up : Mmu.WritesIn (OnPage page) mmu
      ((List.range ((NUM_ROWS - 1) * NUM_COLS)).foldl (fun mmu index =>
        (mmu.copyByte (base + 2 * index) (base + 2 * (index + NUM_COLS))).copyByte
          (base + 2 * index + 1) (base + 2 * (index + NUM_COLS) + 1)) mmu) := by
    apply Mmu.WritesIn.foldl
    intro here index member writes
    have small := List.mem_range.mp member
    simp only [NUM_ROWS, NUM_COLS] at small ⊢
    have first := (window.of_writes writes).copyByte (base + 2 * index)
      (base + 2 * (index + 80)) (by omega) (by omega) (by omega) (by omega)
    exact first.trans (((window.of_writes writes).of_writes first).copyByte _ _ (by omega)
      (by omega) (by omega) (by omega))
  refine up.trans (Mmu.WritesIn.foldl fun here index member writes => ?_)
  obtain ⟨_, small⟩ := List.mem_range'_1.mp member
  simp only [NUM_ROWS, NUM_COLS] at small
  exact ((window.of_writes up).of_writes writes).storeCell
    (by simp only [NUM_ROWS, NUM_COLS]; omega) _ _

namespace Display

theorem showCursor_output : OutputOn page t display display.showCursor :=
  ⟨.refl _ _, rfl, fun _ _ => rfl, rfl, rfl, id⟩

theorem moveTo_output {x y : Nat} (column : x < NUM_COLS) (row : y ≤ NUM_ROWS)
    (below : y = NUM_ROWS → x = 0) : OutputOn page t display (display.moveTo t x y) where
  writes := .refl _ _
  currentTerminal := rfl
  others u ne := by simp [moveTo, ne]
  terminalId := by simp [moveTo]
  videoAddress := by simp [moveTo]
  inside _ := by
    simp only [moveTo, Function.update_self]
    exact ⟨column, row, below⟩

theorem write_output {mmu : Mmu} (writes : Mmu.WritesIn (OnPage page) display.mmu mmu) :
    OutputOn page t display { display with mmu } :=
  ⟨writes, rfl, fun _ _ => rfl, rfl, rfl, id⟩

/-- Rolling the screen up puts the cursor in the last row. -/
theorem scroll_output (window : display.mmu.Window base page) :
    OutputOn page t display
      ({ display with mmu := scroll base display.mmu }.moveTo t 0 (NUM_ROWS - 1)) :=
  (write_output (scroll_writes window)).trans
    (moveTo_output (by decide) (by decide) (fun _ => rfl))

theorem rollIfFull_output (window : display.mmu.Window base page) :
    OutputOn page t display (display.rollIfFull base t) := by
  unfold rollIfFull
  split
  · exact scroll_output window
  · exact .refl _ _ _

theorem rollIfFull_row (inside : (display.screens t).Inside) :
    ((display.rollIfFull base t).screens t).screenY < NUM_ROWS := by
  have row := inside.row
  unfold rollIfFull
  split
  · simp [moveTo, NUM_ROWS]
  · next notFull =>
      simp only [NUM_ROWS, NUM_COLS] at *
      omega

theorem writeChar_output (window : display.mmu.Window base page)
    (column : (display.screens t).screenX < NUM_COLS)
    (row : (display.screens t).screenY < NUM_ROWS) (c : UInt8) :
    OutputOn page t display (display.writeChar base t c) := by
  simp only [writeChar]
  generalize (display.screens t).screenX = x at column ⊢
  generalize (display.screens t).screenY = y at row ⊢
  have onScreen : NUM_COLS * y + x < NUM_ROWS * NUM_COLS := by
    simp only [NUM_ROWS, NUM_COLS] at *
    omega
  split
  · split
    · exact scroll_output window
    · exact moveTo_output (by decide) (by omega) (fun _ => rfl)
  · refine (write_output (window.storeCell onScreen c ATTRIB)).trans ?_
    split
    · exact moveTo_output (by decide) (by omega) (fun _ => rfl)
    · exact moveTo_output (by omega) (by omega) (fun last => by omega)

theorem putcOn_output (window : display.mmu.Window base page) (inside : (display.screens t).Inside)
    (c : UInt8) : OutputOn page t display (display.putcOn base t c) := by
  have rolled := rollIfFull_output (t := t) window
  have written := writeChar_output (window.of_writes rolled.writes) (rolled.inside inside).column
    (rollIfFull_row inside) c
  exact (rolled.trans written).trans showCursor_output

theorem clearOn_output (window : display.mmu.Window base page) :
    OutputOn page t display (display.clearOn base t) := by
  have blank : Mmu.WritesIn (OnPage page) display.mmu
      ((List.range (NUM_ROWS * NUM_COLS)).foldl (fun mmu i =>
        (mmu.store (base + 2 * i) SPACE).store (base + 2 * i + 1) ATTRIB) display.mmu) := by
    apply Mmu.WritesIn.foldl
    intro here i member writes
    exact (window.of_writes writes).storeCell (List.mem_range.mp member) _ _
  exact ((write_output blank).trans (moveTo_output (by decide) (by decide) (by decide))).trans
    showCursor_output

/-- Where the cursor goes when it goes back by one character. -/
theorem stepBack_output {moved : Display} (inside : (display.screens t).Inside)
    (moved_eq : (if (display.screens t).screenX = 0 then
        display.moveTo t (NUM_COLS - 1) ((display.screens t).screenY - 1)
      else display.moveTo t ((display.screens t).screenX - 1) (display.screens t).screenY) =
        moved) :
    OutputOn page t display moved ∧ (moved.screens t).screenX < NUM_COLS ∧
      (moved.screens t).screenY < NUM_ROWS := by
  obtain ⟨column, row, below⟩ := inside
  generalize (display.screens t).screenX = x at *
  generalize (display.screens t).screenY = y at *
  subst moved_eq
  simp only [NUM_ROWS, NUM_COLS] at *
  split
  · refine ⟨moveTo_output (by decide) ?_ ?_, ?_, ?_⟩ <;>
      simp [moveTo, NUM_ROWS] <;> omega
  · refine ⟨moveTo_output ?_ ?_ ?_, ?_, ?_⟩ <;>
      simp [moveTo, NUM_ROWS, NUM_COLS] <;> omega

/-- Erasing the character behind the cursor. -/
theorem erase_output {moved : Display} (window : display.mmu.Window base page)
    (back : OutputOn page t display moved) (column : (moved.screens t).screenX < NUM_COLS)
    (row : (moved.screens t).screenY < NUM_ROWS) :
    let cell := base + 2 * (NUM_COLS * (moved.screens t).screenY + (moved.screens t).screenX)
    OutputOn page t display
      { moved with mmu := (moved.mmu.store cell SPACE).store (cell + 1) ATTRIB }.showCursor := by
  have onScreen : NUM_COLS * (moved.screens t).screenY + (moved.screens t).screenX <
      NUM_ROWS * NUM_COLS := by
    simp only [NUM_ROWS, NUM_COLS] at *
    omega
  have written := (window.of_writes back.writes).storeCell onScreen SPACE ATTRIB
  exact (back.trans (write_output written)).trans showCursor_output

theorem back_output (window : display.mmu.Window VIDEO_DIRECT page)
    (inside : (display.screens display.currentTerminal).Inside) :
    OutputOn page display.currentTerminal display display.currentTerminalBackPutc := by
  simp only [currentTerminalBackPutc]
  split
  · exact showCursor_output
  · obtain ⟨back, column, row⟩ := stepBack_output inside rfl
    exact erase_output window back column row

theorem backPutc_output (window : display.mmu.Window VIDEO_MEM page)
    (inside : (display.screens t).Inside) : OutputOn page t display (display.backPutc t) := by
  simp only [backPutc]
  split
  · exact ⟨.refl _ _, rfl, fun _ _ => rfl, rfl, rfl, id⟩
  · obtain ⟨back, column, row⟩ := stepBack_output inside rfl
    exact erase_output window back column row

theorem printf_output (window : display.mmu.Window VIDEO_MEM page)
    (inside : (display.screens t).Inside) (text : List UInt8) :
    OutputOn page t display (display.printf t text) := by
  unfold printf
  induction text generalizing display with
  | nil => exact .refl _ _ _
  | cons c text ih =>
      have first := putcOn_output window inside c
      exact first.trans (ih (window.of_writes first.writes) (first.inside inside))

theorem blueScreen_output (window : display.mmu.Window VIDEO_MEM page) :
    OutputOn page t display display.blueScreen := by
  refine write_output (Mmu.WritesIn.foldl fun here i member writes => ?_)
  have small := List.mem_range.mp member
  simp only [NUM_ROWS, NUM_COLS] at small
  exact (window.of_writes writes).store _ (by omega) (by omega) _

end Display

end Output

end LightOS.Kernel
