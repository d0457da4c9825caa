import LightOS.Kernel.Boot
import LightOS.Kernel.Cells

/-! # The screen as a window on a teletype

What is sent to the terminal on display after a clear comes out as on a teletype: the screen
shows a window of 25 rows of it.  Processes write through `putc` while their terminal is both
the active and the displayed one, the keyboard through `current_terminal_putc`, in any order,
and in between the kernel may do whatever leaves the screen of that terminal alone.
-/

namespace LightOS.Kernel

open Lib Filesystem Descriptor

/-- The byte that a step sends to the terminal on display. -/
def State.sent (s : State) : Action → Option UInt8
  | .putc c => if s.proc.activeTerminal = s.display.currentTerminal then some c else none
  | .echo c => some c
  | _ => none

/-- Steps that send a byte to the terminal on display, or leave it alone.  A process of
    another terminal may clear its own screen, start programs and halt. -/
def State.SendsOnly (s : State) : Action → Prop
  | .clear | .execute .. => s.proc.activeTerminal ≠ s.display.currentTerminal
  | .halt status => s.proc.activeTerminal ≠ s.display.currentTerminal ∧
      ¬ Faulting s (.halt status)
  | .echoBack | .echoClear => False
  | .switchTo t => t = s.display.currentTerminal
  | _ => True

/-- A clear of the terminal on display, by its active process or by the keyboard. -/
def State.ClearsDisplay (s : State) : Action → Prop
  | .clear => s.proc.activeTerminal = s.display.currentTerminal
  | .echoClear => True
  | _ => False

/-- What a run sends to the terminal on display. -/
def sentAlong (bootBlock : Option Image) : State → List Action → List UInt8
  | _, [] => []
  | s, a :: as => (s.sent a).toList ++ sentAlong bootBlock (s.step bootBlock a) as

/-- The reference: a newline or a carriage return goes to the next row, any other byte is
    written with the default colour. -/
def teletype (paper : Sheet Cell) (bytes : List UInt8) : Sheet Cell :=
  bytes.foldl (fun paper c => paper.feed NUM_COLS (teletypeInput c)) paper

/-- The video memory shows the rows of the paper from `scrolled` on, with the cursor of the
    terminal on display at that of the paper. -/
def State.ShowsWindow (s : State) (paper : Sheet Cell) (scrolled : Nat) : Prop :=
  Sheet.WindowOf NUM_ROWS NUM_COLS (s.display.sheet videoPage s.display.currentTerminal) paper
    scrolled

/-- What the console goes through in a step, cell by cell. -/
def State.cellSteps (s : State) : Action → List CellStep
  | .putc c => (s.display.screens s.proc.activeTerminal).putcSteps c
  | .echo c => (s.display.screens s.display.currentTerminal).putcSteps c
  | .clear | .echoClear => clearSteps
  | _ => []

/-- The terminal on display and its screen are the same. -/
structure Display.SameShown (before after : Display) : Prop where
  currentTerminal : after.currentTerminal = before.currentTerminal
  screen : after.screens before.currentTerminal = before.screens before.currentTerminal
  contents : ∀ pa, OnPage videoPage pa → after.mmu.mem pa = before.mmu.mem pa

section Shown

variable {before after : Display} {s : State} {bootBlock : Option Image}

theorem Display.SameShown.refl (display : Display) : display.SameShown display :=
  ⟨rfl, rfl, fun _ _ => rfl⟩

theorem Display.SameShown.trans {later : Display} (first : before.SameShown after)
    (second : after.SameShown later) : before.SameShown later where
  currentTerminal := second.currentTerminal.trans first.currentTerminal
  screen := by
    have screen := second.screen
    rw [first.currentTerminal] at screen
    exact screen.trans first.screen
  contents pa onPage := (second.contents pa onPage).trans (first.contents pa onPage)

/-- Only page-table entries have changed. -/
theorem Display.SameShown.of_contents (same : Display.SameContents before after) :
    before.SameShown after :=
  ⟨same.currentTerminal, congrFun same.screens _, fun pa _ => congrFun same.mem pa⟩

/-- Output of another terminal. -/
theorem Display.SameShown.of_output {t : TerminalId} (other : t ≠ before.currentTerminal)
    (output : OutputOn (before.screenPage t) t before after) : before.SameShown after where
  currentTerminal := output.currentTerminal
  screen := output.others _ (Ne.symm other)
  contents pa onPage := by
    refine output.writes.mem pa fun onOther => ?_
    obtain ⟨positive, _⟩ := State.number_range t
    simp only [Display.screenPage, if_neg other, OnPage] at onOther onPage
    omega

/-- Stores to the page of a program. -/
theorem Display.SameShown.of_frame {mmu : Mmu} {pid : Nat}
    (writes : Mmu.WritesIn (OnFrame pid) before.mmu mmu) :
    before.SameShown { before with mmu } where
  currentTerminal := rfl
  screen := rfl
  contents pa onPage := by
    refine writes.mem pa fun onFrame => ?_
    simp only [OnFrame, OnPage, videoPage] at onFrame onPage
    omega

theorem Display.SameShown.sheet_eq (same : before.SameShown after) :
    after.sheet videoPage after.currentTerminal =
      before.sheet videoPage before.currentTerminal := by
  rw [same.currentTerminal]
  apply Sheet.ext
  · funext i j
    simp only [Display.sheet]
    split
    · next inside =>
        simp only [NUM_ROWS, NUM_COLS] at inside
        have first := same.contents (4096 * videoPage + 2 * (NUM_COLS * i + j)) (by
          simp only [OnPage, NUM_COLS]
          omega)
        have second := same.contents (4096 * videoPage + 2 * (NUM_COLS * i + j) + 1) (by
          simp only [OnPage, NUM_COLS]
          omega)
        simp only [cellsOf, first, second]
    · rfl
  · simp only [Display.sheet, same.screen]
  · simp only [Display.sheet, same.screen]

/-- A step that sends nothing to the terminal on display leaves it alone. -/
theorem Outcome.sameShown {action : Action} {later : State}
    (outcome : Outcome bootBlock s action later) (sound : Sound s)
    (sends : s.SendsOnly action) (silent : s.sent action = none) :
    s.display.SameShown later.display := by
  have printed (message : String) (other : s.proc.activeTerminal ≠ s.display.currentTerminal) :
      s.display.SameShown (s.display.printf s.proc.activeTerminal (text message)) :=
    .of_output other (State.printf_output sound.valid message)
  cases outcome with
  | putc output =>
      simp only [State.sent, ite_eq_right_iff, reduceCtorEq] at silent
      exact .of_output silent output
  | clear output => exact .of_output sends output
  | echo output => simp [State.sent] at silent
  | echoBack output | echoClear output => exact False.elim sends
  | userStore writes | kernelCopy writes => exact .of_frame writes
  | switchSame same => exact .refl _
  | switchTo other shown => exact absurd sends other
  | enter switched | first next idle switched | next next occupied switched =>
      exact .of_contents switched.same
  | root root switched => exact (printed _ sends.1).trans (.of_contents switched.same)
  | child child terminal switched => exact .of_contents switched.same
  | rejected refused | full passed noPid notFull => exact printed _ sends
  | started active passed free child small notFull switched writes =>
      exact (Display.SameShown.of_contents switched.same).trans (.of_frame writes)
  | @fault action _ faulting faults elsewhere =>
      cases action with
      | switchTo t => exact absurd sends faulting.2
      | halt status => exact absurd faulting sends.2
      | _ => exact False.elim faulting

end Shown

section Runs

variable {s later : State} {bootBlock : Option Image} {paper : Sheet Cell} {scrolled : Nat}

/-- The console does to memory what the cell steps do. -/
theorem State.step_cells (s : State) (bootBlock : Option Image) (c : UInt8) :
    (s.step bootBlock (.putc c)).display.mmu =
        (s.cellSteps (.putc c)).foldl (CellStep.run VIDEO_MEM) s.display.mmu ∧
      (s.step bootBlock (.echo c)).display.mmu =
        (s.cellSteps (.echo c)).foldl (CellStep.run VIDEO_DIRECT) s.display.mmu ∧
      (s.step bootBlock .clear).display.mmu =
        (s.cellSteps .clear).foldl (CellStep.run VIDEO_MEM) s.display.mmu ∧
      (s.step bootBlock .echoClear).display.mmu =
        (s.cellSteps .echoClear).foldl (CellStep.run VIDEO_DIRECT) s.display.mmu :=
  ⟨putcOn_steps .., putcOn_steps .., clearOn_steps .., clearOn_steps ..⟩

/-- Every access of the console is to a cell of the screen. -/
theorem Sound.cellSteps_onScreen (sound : Sound s) (action : Action) :
    OnScreen (s.cellSteps action) := by
  have inside := sound.valid.inside
  cases action with
  | putc c => exact (inside _).putcSteps_onScreen c
  | echo c => exact (inside _).putcSteps_onScreen c
  | clear | echoClear => exact clearSteps_onScreen
  | _ => exact fun step none => nomatch none

/-- A byte sent to the terminal on display, through either of the two windows. -/
theorem Display.putcOn_shown {display : Display} {base : Nat}
    (window : display.mmu.Window base videoPage)
    (inside : (display.screens display.currentTerminal).Inside) (c : UInt8) :
    let after := display.putcOn base display.currentTerminal c
    after.sheet videoPage after.currentTerminal =
      (display.sheet videoPage display.currentTerminal).feedOn NUM_ROWS NUM_COLS blankCell
        (teletypeInput c) := by
  simp only [(putcOn_output window inside c).currentTerminal]
  exact putcOn_sheet window inside c

/-- A step of the kernel is the input it sends to the terminal on display. -/
theorem Sound.sheet_step (sound : Sound s) {action : Action} (able : s.able action)
    (sends : s.SendsOnly action) :
    let after := s.step bootBlock action
    after.display.sheet videoPage after.display.currentTerminal =
      (s.sent action).toList.foldl (fun screen c =>
        screen.feedOn NUM_ROWS NUM_COLS blankCell (teletypeInput c))
        (s.display.sheet videoPage s.display.currentTerminal) := by
  have inside := sound.valid.inside
  cases silent : s.sent action with
  | none =>
      have outcome : Outcome bootBlock s _ (s.step bootBlock _) := State.step_outcome sound able
      exact (outcome.sameShown sound sends silent).sheet_eq
  | some byte =>
      cases action with
      | putc c =>
          obtain ⟨active, rfl⟩ : s.proc.activeTerminal = s.display.currentTerminal ∧ c = byte := by
            simpa [State.sent] using silent
          have window := sound.valid.window
          rw [active, Display.screenPage, if_pos rfl] at window
          simp only [State.step, Display.putc, active]
          exact Display.putcOn_shown window (inside _) c
      | echo c =>
          obtain rfl : c = byte := by simpa [State.sent] using silent
          exact Display.putcOn_shown sound.valid.tables.directWindow (inside _) c
      | _ => simp [State.sent] at silent

/-- One step keeps the window, which moves down or stays. -/
theorem Sound.window_step (sound : Sound s) {action : Action} (able : s.able action)
    (sends : s.SendsOnly action) (shows : s.ShowsWindow paper scrolled)
    (ahead : Sheet.BlankAhead blankCell paper) :
    ∃ moved, scrolled ≤ moved ∧
      (s.step bootBlock action).ShowsWindow (teletype paper (s.sent action).toList) moved ∧
      Sheet.BlankAhead blankCell (teletype paper (s.sent action).toList) := by
  unfold State.ShowsWindow
  rw [sound.sheet_step able sends]
  cases s.sent action with
  | none => exact ⟨scrolled, Nat.le_refl _, shows, ahead⟩
  | some byte =>
      obtain ⟨moved, further, window⟩ :=
        Sheet.WindowOf.feed shows (by decide) ahead (teletypeInput byte)
      exact ⟨moved, further, window, ahead.feed _⟩

/-- Steps that only send do not fault. -/
theorem Sound.sends_sound (sound : Sound s) {action : Action} (able : s.able action)
    (sends : s.SendsOnly action) : Sound (s.step bootBlock action) := by
  have outcome : Outcome bootBlock s _ (s.step bootBlock _) := State.step_outcome sound able
  refine (outcome.sound sound).resolve_left fun faults => ?_
  cases action with
  | switchTo t => exact faults.1.2 sends
  | halt status => exact sends.2 faults.1
  | _ => exact faults.1

theorem teletype_append (paper : Sheet Cell) (bytes more : List UInt8) :
    teletype paper (bytes ++ more) = teletype (teletype paper bytes) more :=
  List.foldl_append

/-- And so does a run. -/
theorem Sound.window_run {as : List Action} (sound : Sound s)
    (run : (kernel bootBlock).Run s as later)
    (sends : (kernel bootBlock).EachStep State.SendsOnly s as)
    (shows : s.ShowsWindow paper scrolled) (ahead : Sheet.BlankAhead blankCell paper) :
    ∃ moved, scrolled ≤ moved ∧
      later.ShowsWindow (teletype paper (sentAlong bootBlock s as)) moved ∧
      Sheet.BlankAhead blankCell (teletype paper (sentAlong bootBlock s as)) ∧ Sound later := by
  induction run generalizing paper scrolled with
  | nil => exact ⟨scrolled, Nat.le_refl _, shows, ahead, sound⟩
  | cons able _ ih =>
      obtain ⟨here, rest⟩ := sends
      obtain ⟨first, further, window, blank⟩ := sound.window_step able here shows ahead
      obtain ⟨moved, beyond, result⟩ := ih (sound.sends_sound able here) rest window blank
      rw [sentAlong, teletype_append]
      exact ⟨moved, Nat.le_trans further beyond, result⟩

theorem sentAlong_append {as bs : List Action} (run : (kernel bootBlock).Run s as later) :
    sentAlong bootBlock s (as ++ bs) =
      sentAlong bootBlock s as ++ sentAlong bootBlock later bs := by
  induction run with
  | nil => rfl
  | cons able _ ih =>
      simp only [List.cons_append, sentAlong, List.append_assoc]
      exact congrArg _ ih

/-- A clear of the terminal on display shows the first rows of an empty sheet. -/
theorem Sound.window_clear (sound : Sound s) {first : Action} (able : s.able first)
    (clears : s.ClearsDisplay first) :
    (s.step bootBlock first).ShowsWindow (.empty blankCell) 0 ∧
      Sound (s.step bootBlock first) := by
  have outcome : Outcome bootBlock s _ (s.step bootBlock _) := State.step_outcome sound able
  have blank : Sheet.WindowOf NUM_ROWS NUM_COLS (.empty blankCell) (.empty blankCell) 0 :=
    Sheet.windowOf_empty (by decide)
  cases first with
  | clear =>
      have active : s.proc.activeTerminal = s.display.currentTerminal := clears
      have window := sound.valid.window
      rw [active, Display.screenPage, if_pos rfl] at window
      have current := (Display.clearOn_output (t := s.display.currentTerminal)
        window).currentTerminal
      refine ⟨?_, (outcome.sound sound).resolve_left (fun faults => faults.1)⟩
      simp only [State.ShowsWindow, State.step, Display.clear, active, current,
        clearOn_sheet window]
      exact blank
  | echoClear =>
      have window := sound.valid.tables.directWindow
      have current := (Display.clearOn_output (t := s.display.currentTerminal)
        window).currentTerminal
      refine ⟨?_, (outcome.sound sound).resolve_left (fun faults => faults.1)⟩
      simp only [State.ShowsWindow, State.step, Display.currentTerminalClear, current,
        clearOn_sheet window]
      exact blank
  | _ => exact False.elim clears

/-- From a clear of the terminal on display on, the screen shows a window of the sheet that a
    teletype writes when it is sent the same bytes.  The window only moves down, and only once
    the last row is used, and the console stays on the cells of the screen. -/
theorem screen_shows_teletype (on : PowerOn s) {start middle : State}
    (reached : Reached bootBlock s start) {first : Action} {as bs : List Action}
    (clears : start.ClearsDisplay first) (run : (kernel bootBlock).Run start (first :: as) middle)
    (rest : (kernel bootBlock).Run middle bs later)
    (sends : (kernel bootBlock).EachStep State.SendsOnly (start.step bootBlock first)
      (as ++ bs)) :
    let paper (actions : List Action) :=
      teletype (.empty blankCell) (sentAlong bootBlock (start.step bootBlock first) actions)
    (∃ scrolled moved, scrolled ≤ moved ∧ middle.ShowsWindow (paper as) scrolled ∧
      later.ShowsWindow (paper (as ++ bs)) moved) ∧
      (kernel bootBlock).EachStep (fun s action => OnScreen (s.cellSteps action)) start
        (first :: (as ++ bs)) := by
  cases run with
  | cons able run =>
      have sound := on.reached_sound reached able.1
      obtain ⟨shows, cleared⟩ := sound.window_clear able clears
      obtain ⟨sendsFirst, sendsRest⟩ := (run.eachStep_append).mp sends
      obtain ⟨scrolled, _, window, ahead, soundMiddle⟩ :=
        cleared.window_run run sendsFirst shows (Sheet.blankAhead_empty blankCell)
      obtain ⟨moved, further, windowLater, _⟩ :=
        soundMiddle.window_run rest sendsRest window ahead
      have whole : sentAlong bootBlock (start.step bootBlock first) (as ++ bs) =
          sentAlong bootBlock (start.step bootBlock first) as ++ sentAlong bootBlock middle bs :=
        sentAlong_append run
      rw [← teletype_append, ← whole] at windowLater
      refine ⟨⟨scrolled, moved, further, window, windowLater⟩, sound.cellSteps_onScreen _, ?_⟩
      exact (run.append rest).eachStep
        (fun _ _ sound able sends => Sound.sends_sound sound able sends)
        (fun _ action sound _ _ => sound.cellSteps_onScreen action) cleared sends

/-- Bytes that are typed, or written by the process that runs. -/
def sendings (bytes : List (Bool × UInt8)) : List Action :=
  bytes.map fun (typed, c) => if typed then .echo c else .putc c

/-- With the active terminal on display they can be sent in any order. -/
theorem Sound.send_run (sound : Sound s)
    (displayed : s.proc.activeTerminal = s.display.currentTerminal) (bootBlock : Option Image)
    (bytes : List (Bool × UInt8)) :
    ∃ later, (kernel bootBlock).Run s (sendings bytes) later ∧ Sound later ∧
      later.proc.activeTerminal = later.display.currentTerminal ∧
      (kernel bootBlock).EachStep State.SendsOnly s (sendings bytes) ∧
      sentAlong bootBlock s (sendings bytes) = bytes.map Prod.snd := by
  induction bytes generalizing s with
  | nil => exact ⟨s, .nil s, sound, displayed, trivial, rfl⟩
  | cons byte bytes ih =>
      obtain ⟨typed, c⟩ := byte
      let action : Action := if typed then .echo c else .putc c
      have step : s.able action ∧ s.SendsOnly action ∧ s.sent action = some c ∧
          (s.step bootBlock action).proc.activeTerminal =
            (s.step bootBlock action).display.currentTerminal := by
        cases typed with
        | true =>
            have output := Display.putcOn_output (t := s.display.currentTerminal)
              sound.valid.tables.directWindow (sound.valid.inside _) c
            exact ⟨⟨sound.valid.fault, trivial⟩, trivial, rfl,
              displayed.trans output.currentTerminal.symm⟩
        | false =>
            have output := Display.putcOn_output (t := s.proc.activeTerminal)
              sound.valid.window (sound.valid.inside _) c
            exact ⟨⟨sound.valid.fault, trivial⟩, trivial, if_pos displayed,
              displayed.trans output.currentTerminal.symm⟩
      obtain ⟨able, sends, sent, still⟩ := step
      have next : Sound (s.step bootBlock action) := sound.sends_sound able sends
      obtain ⟨later, run, ends, shown, rest, sentRest⟩ := ih next still
      refine ⟨later, .cons able run, ends, shown, ⟨sends, rest⟩, ?_⟩
      show (s.sent action).toList ++
        sentAlong bootBlock (s.step bootBlock action) (sendings bytes) = _
      rw [sent, sentRest]
      rfl

end Runs

/-- Thirty times a letter that is typed, and a newline of the process that runs. -/
def thirtyLines : List (Bool × UInt8) :=
  (List.replicate 30 [(true, 0x61), (false, NEWLINE)]).flatten

/-- The screen rolls up, first by five rows at least, and then further. -/
theorem thirty_lines_roll :
    ∃ middle later scrolled moved,
      (kernel none).Run poweredOn.initDevices (.echoClear :: sendings thirtyLines) middle ∧
      (kernel none).Run middle (sendings thirtyLines) later ∧ 5 ≤ scrolled ∧ scrolled < moved ∧
      middle.ShowsWindow (teletype (.empty blankCell) (thirtyLines.map Prod.snd)) scrolled ∧
      later.ShowsWindow
        (teletype (.empty blankCell) (thirtyLines.map Prod.snd ++ thirtyLines.map Prod.snd))
        moved := by
  have start := poweredOn_powerOn.fresh.sound
  have able : poweredOn.initDevices.able .echoClear := ⟨start.valid.fault, trivial⟩
  have clears : poweredOn.initDevices.ClearsDisplay .echoClear := trivial
  have cleared : Sound (poweredOn.initDevices.step none .echoClear) :=
    (start.window_clear able clears).2
  have output := Display.clearOn_output (t := poweredOn.initDevices.display.currentTerminal)
    start.valid.tables.directWindow
  obtain ⟨middle, run, soundMiddle, displayed, sends, sent⟩ :=
    cleared.send_run output.currentTerminal.symm none thirtyLines
  obtain ⟨later, rest, _, _, sendsRest, sentRest⟩ :=
    soundMiddle.send_run displayed none thirtyLines
  obtain ⟨⟨scrolled, moved, _, first, second⟩, _⟩ :=
    screen_shows_teletype poweredOn_powerOn (.booting (.nil _)) clears (.cons able run) rest
      (run.eachStep_append.mpr ⟨sends, sendsRest⟩)
  beta_reduce at first second
  rw [sent] at first
  rw [sentAlong_append run, sent, sentRest] at second
  have row1 : (teletype (.empty blankCell) (thirtyLines.map Prod.snd)).row = 30 := by
    decide +kernel
  have row2 : (teletype (.empty blankCell)
      (thirtyLines.map Prod.snd ++ thirtyLines.map Prod.snd)).row = 60 := by
    decide +kernel
  have rows1 := first.row
  have rows2 := second.row
  have bottom1 := first.bottom
  have bottom2 := second.bottom
  simp only [NUM_ROWS] at bottom1 bottom2
  exact ⟨middle, later, scrolled, moved, .cons able run, rest, by omega, by omega, first, second⟩

end LightOS.Kernel
