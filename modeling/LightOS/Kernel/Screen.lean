import LightOS.Kernel.Paging
import LightOS.Descriptor.Pcb

/-! # The screen

The console routines of lib.c.  A process writes through `video_mem`, the page that
`paging_video_memory` moves, at the cursor of the active terminal; the keyboard echoes
through `video_mem_direct`, at the cursor of the terminal on display.  Apart from that the
two families are the same code, and here the same definition.
-/

namespace LightOS

/-- The number in a terminal's name. -/
def TerminalId.number : TerminalId → Nat
  | .terminal1 => 1
  | .terminal2 => 2
  | .terminal3 => 3

theorem TerminalId.number_injective {t u : TerminalId} (same : t.number = u.number) : t = u := by
  cases t <;> cases u <;> first | rfl | cases same

end LightOS

namespace LightOS.Kernel

def NUM_COLS : Nat := 80
def NUM_ROWS : Nat := 25
def ATTRIB : UInt8 := 0x7
def BLUE : UInt8 := 0x16
def SPACE : UInt8 := 0x20
def NEWLINE : UInt8 := 0x0A
def RETURN : UInt8 := 0x0D

/-- What `terminal_t` records for the screen of a terminal. -/
structure Screen where
  terminalId : Nat
  screenX : Nat
  screenY : Nat
  videoAddress : Nat

/-- What the console routines work on; `cursor` is the position in the CRT registers. -/
structure Display where
  mmu : Mmu
  currentTerminal : TerminalId
  screens : TerminalId → Screen
  cursor : Nat

/-- The two loops that roll the screen at `base` up by one row. -/
def scroll (base : Nat) (mmu : Mmu) : Mmu :=
  let mmu := (List.range ((NUM_ROWS - 1) * NUM_COLS)).foldl (fun mmu index =>
    (mmu.copyByte (base + 2 * index) (base + 2 * (index + NUM_COLS))).copyByte
      (base + 2 * index + 1) (base + 2 * (index + NUM_COLS) + 1)) mmu
  (List.range' ((NUM_ROWS - 1) * NUM_COLS) NUM_COLS).foldl (fun mmu index =>
    (mmu.store (base + 2 * index) SPACE).store (base + 2 * index + 1) ATTRIB) mmu

namespace Display

/-- `set_cursor_position` -/
def setCursorPosition (display : Display) (x y : Nat) : Display :=
  { display with cursor := (y * NUM_COLS + x) % (NUM_ROWS * NUM_COLS) }

/-- The cursor goes where the terminal on display has it. -/
def showCursor (display : Display) : Display :=
  display.setCursorPosition (display.screens display.currentTerminal).screenX
    (display.screens display.currentTerminal).screenY

def moveTo (display : Display) (t : TerminalId) (x y : Nat) : Display :=
  { display with
    screens := Function.update display.screens t
      { display.screens t with screenX := x, screenY := y } }

/-- The first lines of `putc`: a screen that is full is rolled up before the character. -/
def rollIfFull (base : Nat) (t : TerminalId) (display : Display) : Display :=
  if NUM_ROWS * NUM_COLS ≤
      NUM_COLS * (display.screens t).screenY + (display.screens t).screenX then
    { display with mmu := scroll base display.mmu }.moveTo t 0 (NUM_ROWS - 1)
  else display

/-- The character itself, and the cursor behind it. -/
def writeChar (base : Nat) (t : TerminalId) (display : Display) (c : UInt8) : Display :=
  let x := (display.screens t).screenX
  let y := (display.screens t).screenY
  if c = NEWLINE ∨ c = RETURN then
    if NUM_ROWS ≤ y + 1 then
      { display with mmu := scroll base display.mmu }.moveTo t 0 (NUM_ROWS - 1)
    else display.moveTo t 0 (y + 1)
  else
    let cell := base + 2 * (NUM_COLS * y + x)
    let display := { display with mmu := (display.mmu.store cell c).store (cell + 1) ATTRIB }
    if NUM_COLS ≤ x + 1 then display.moveTo t 0 (y + 1) else display.moveTo t (x + 1) y

/-- The body that `putc` and `current_terminal_putc` share. -/
def putcOn (base : Nat) (t : TerminalId) (display : Display) (c : UInt8) : Display :=
  ((display.rollIfFull base t).writeChar base t c).showCursor

/-- The body that `clear` and `current_terminal_clear` share. -/
def clearOn (base : Nat) (t : TerminalId) (display : Display) : Display :=
  let mmu := (List.range (NUM_ROWS * NUM_COLS)).foldl (fun mmu i =>
    (mmu.store (base + 2 * i) SPACE).store (base + 2 * i + 1) ATTRIB) display.mmu
  ({ display with mmu }.moveTo t 0 0).showCursor

/-- `putc` -/
def putc (active : TerminalId) (display : Display) (c : UInt8) : Display :=
  display.putcOn VIDEO_MEM active c

/-- `clear` -/
def clear (active : TerminalId) (display : Display) : Display := display.clearOn VIDEO_MEM active

/-- `printf` and `puts`, for a text without conversions. -/
def printf (active : TerminalId) (display : Display) (text : List UInt8) : Display :=
  text.foldl (putc active) display

/-- `current_terminal_putc` -/
def currentTerminalPutc (display : Display) (c : UInt8) : Display :=
  display.putcOn VIDEO_DIRECT display.currentTerminal c

/-- `current_terminal_clear` -/
def currentTerminalClear (display : Display) : Display :=
  display.clearOn VIDEO_DIRECT display.currentTerminal

/-- `current_terminal_back_putc` -/
def currentTerminalBackPutc (display : Display) : Display :=
  let t := display.currentTerminal
  let screen := display.screens t
  if screen.screenX = 0 ∧ screen.screenY = 0 then display.showCursor
  else
    let display :=
      if screen.screenX = 0 then display.moveTo t (NUM_COLS - 1) (screen.screenY - 1)
      else display.moveTo t (screen.screenX - 1) screen.screenY
    let screen := display.screens t
    let cell := VIDEO_DIRECT + 2 * (NUM_COLS * screen.screenY + screen.screenX)
    { display with mmu := (display.mmu.store cell SPACE).store (cell + 1) ATTRIB }.showCursor

/-- `back_putc`, which at the top left corner moves the cursor to the terminal of the caller,
    not to the one on display. -/
def backPutc (active : TerminalId) (display : Display) : Display :=
  let screen := display.screens active
  if screen.screenX = 0 ∧ screen.screenY = 0 then
    display.setCursorPosition screen.screenX screen.screenY
  else
    let display :=
      if screen.screenX = 0 then display.moveTo active (NUM_COLS - 1) (screen.screenY - 1)
      else display.moveTo active (screen.screenX - 1) screen.screenY
    let screen := display.screens active
    let cell := VIDEO_MEM + 2 * (NUM_COLS * screen.screenY + screen.screenX)
    { display with mmu := (display.mmu.store cell SPACE).store (cell + 1) ATTRIB }.showCursor

/-- `blue_screen` -/
def blueScreen (display : Display) : Display :=
  { display with
    mmu := (List.range (NUM_ROWS * NUM_COLS)).foldl (fun mmu i =>
      mmu.store (VIDEO_MEM + 2 * i + 1) BLUE) display.mmu }

/-- The entries `paging_video_memory` writes before it looks at the control block. -/
def mapVideo (active : TerminalId) (display : Display) : Display :=
  let page :=
    if active = display.currentTerminal then VIDEO_MEM / PAGE_SIZE
    else VIDEO_MEM / PAGE_SIZE + (display.screens active).terminalId
  { display with
    mmu := { display.mmu with
      pgTab1 := Function.update display.mmu.pgTab1 (VIDEO_MEM / PAGE_SIZE)
        { display.mmu.pgTab1 (VIDEO_MEM / PAGE_SIZE) with address := page }
      vidmapPgTab1 := Function.update display.mmu.vidmapPgTab1 0
        { display.mmu.vidmapPgTab1 0 with address := page } } }

/-- `vidmap_pg_tab_1[0].present` -/
def setVidmapPresent (display : Display) (present : Bool) : Display :=
  { display with
    mmu := { display.mmu with
      vidmapPgTab1 := Function.update display.mmu.vidmapPgTab1 0
        { display.mmu.vidmapPgTab1 0 with present } } }

/-- `memcpy(current_terminal->video_address, VIDEO_ADDRESS_TO_PHYSICAL, 4096)` -/
def saveScreen (display : Display) : Display :=
  { display with
    mmu := display.mmu.memcpy (display.screens display.currentTerminal).videoAddress
      VIDEO_DIRECT 4096 }

/-- `memcpy(VIDEO_ADDRESS_TO_PHYSICAL, current_terminal->video_address, 4096)` -/
def loadScreen (display : Display) : Display :=
  { display with
    mmu := display.mmu.memcpy VIDEO_DIRECT
      (display.screens display.currentTerminal).videoAddress 4096 }

end Display

end LightOS.Kernel
