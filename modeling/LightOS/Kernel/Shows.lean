import LightOS.Kernel.Effects

/-! # The terminal on display

Which routines change `current_terminal` and `active_terminal`: the terminal switches the
one, the scheduler and the boot routines the other, and console output neither.  All of it
holds in every state, also where a routine goes on to fault.
-/

namespace LightOS.Kernel

namespace Display

variable (display : Display)

theorem withMmu_currentTerminal (mmu : Mmu) :
    ({ display with mmu } : Display).currentTerminal = display.currentTerminal := rfl

@[simp] theorem moveTo_currentTerminal (t : TerminalId) (x y : Nat) :
    (display.moveTo t x y).currentTerminal = display.currentTerminal := rfl

@[simp] theorem showCursor_currentTerminal :
    display.showCursor.currentTerminal = display.currentTerminal := rfl

@[simp] theorem rollIfFull_currentTerminal (base : Nat) (t : TerminalId) :
    (display.rollIfFull base t).currentTerminal = display.currentTerminal := by
  unfold rollIfFull
  split
  · exact moveTo_currentTerminal _ _ _ _
  · rfl

@[simp] theorem writeChar_currentTerminal (base : Nat) (t : TerminalId) (c : UInt8) :
    (display.writeChar base t c).currentTerminal = display.currentTerminal := by
  simp only [writeChar]
  split
  · split <;> exact moveTo_currentTerminal _ _ _ _
  · split <;> exact moveTo_currentTerminal _ _ _ _

@[simp] theorem putcOn_currentTerminal (base : Nat) (t : TerminalId) (c : UInt8) :
    (display.putcOn base t c).currentTerminal = display.currentTerminal := by
  rw [putcOn, showCursor_currentTerminal, writeChar_currentTerminal, rollIfFull_currentTerminal]

@[simp] theorem printf_currentTerminal (t : TerminalId) (text : List UInt8) :
    (display.printf t text).currentTerminal = display.currentTerminal := by
  unfold printf
  induction text generalizing display with
  | nil => rw [List.foldl_nil]
  | cons c text ih => rw [List.foldl_cons, ih, putc, putcOn_currentTerminal]

@[simp] theorem currentTerminalBackPutc_currentTerminal :
    display.currentTerminalBackPutc.currentTerminal = display.currentTerminal := by
  have moved (x y x' y' : Nat) (home : Prop) [Decidable home] :
      (if home then display.moveTo display.currentTerminal x y
        else display.moveTo display.currentTerminal x' y').currentTerminal =
          display.currentTerminal := by
    split <;> exact moveTo_currentTerminal _ _ _ _
  simp only [currentTerminalBackPutc]
  split
  · exact showCursor_currentTerminal _
  · exact (showCursor_currentTerminal _).trans (moved ..)

@[simp] theorem blueScreen_currentTerminal :
    display.blueScreen.currentTerminal = display.currentTerminal :=
  withMmu_currentTerminal _ _

@[simp] theorem saveScreen_currentTerminal :
    display.saveScreen.currentTerminal = display.currentTerminal :=
  withMmu_currentTerminal _ _

@[simp] theorem loadScreen_currentTerminal :
    display.loadScreen.currentTerminal = display.currentTerminal :=
  withMmu_currentTerminal _ _

@[simp] theorem clearOn_currentTerminal (base : Nat) (t : TerminalId) :
    (display.clearOn base t).currentTerminal = display.currentTerminal := by
  unfold clearOn
  exact (showCursor_currentTerminal _).trans (moveTo_currentTerminal _ _ _ _)

end Display

namespace State

variable (s : State)

theorem exceptionHandler_proc (vectorNumber : Nat) :
    (s.exceptionHandler vectorNumber).proc = s.proc := by
  simp only [exceptionHandler]

theorem exceptionHandler_currentTerminal (vectorNumber : Nat) :
    (s.exceptionHandler vectorNumber).display.currentTerminal = s.display.currentTerminal := by
  obtain ⟨message, _, result⟩ := exceptionHandler_display s vectorNumber
  rw [result]
  exact (Display.printf_currentTerminal _ _ _).trans (Display.blueScreen_currentTerminal _)

theorem pagingVideoMemory_proc : s.pagingVideoMemory.proc = s.proc := by
  simp only [pagingVideoMemory]
  split
  · rfl
  · exact exceptionHandler_proc _ _

theorem pagingVideoMemory_currentTerminal :
    s.pagingVideoMemory.display.currentTerminal = s.display.currentTerminal := by
  simp only [pagingVideoMemory]
  split
  · rfl
  · exact exceptionHandler_currentTerminal _ _

theorem contextSwitchExecute_proc : s.contextSwitchExecute.proc = s.proc := by
  unfold contextSwitchExecute
  split
  · rfl
  · exact exceptionHandler_proc s PAGE_FAULT

theorem contextSwitchExecute_currentTerminal :
    s.contextSwitchExecute.display.currentTerminal = s.display.currentTerminal := by
  unfold contextSwitchExecute
  split
  · rfl
  · exact exceptionHandler_currentTerminal s PAGE_FAULT

/-- What neither a routine nor its continuation changes. -/
theorem andThen_keeps {β : Type*} (observe : State → β) {rest : State → State} {value : β}
    (before : observe s = value) (keeps : ∀ s, observe (rest s) = observe s) :
    observe (s.andThen rest) = value := by
  unfold andThen
  split
  · exact before
  · exact (keeps s).trans before

/-- `paging_video_memory` and a continuation that only moves the cursor. -/
theorem pagedThen_shows (display : Display) (rest : State → State)
    (proc : ∀ s, (rest s).proc = s.proc)
    (current : ∀ s, (rest s).display.currentTerminal = s.display.currentTerminal) :
    ((({ s with display } : State).pagingVideoMemory).andThen rest).proc = s.proc ∧
      ((({ s with display } : State).pagingVideoMemory).andThen rest).display.currentTerminal =
        display.currentTerminal := by
  constructor
  · exact andThen_keeps _ State.proc (pagingVideoMemory_proc _) proc
  · apply andThen_keeps _ (fun s => s.display.currentTerminal)
    · exact pagingVideoMemory_currentTerminal _
    · exact current

theorem switchByMapping_shows (t : TerminalId) :
    (s.switchByMapping t).proc = s.proc ∧
      (s.switchByMapping t).display.currentTerminal = t := by
  simp only [switchByMapping]
  generalize s.display.saveScreen = saved
  split
  · exact ⟨rfl, ‹_›⟩
  · apply pagedThen_shows
    · exact fun _ => rfl
    · intro s
      rw [Display.showCursor_currentTerminal, Display.loadScreen_currentTerminal]

theorem switchToTerminal2_shows :
    s.switchToTerminal2.proc = s.proc ∧
      s.switchToTerminal2.display.currentTerminal = .terminal2 := by
  simp only [switchToTerminal2]
  generalize s.display.saveScreen = saved
  split
  · exact ⟨rfl, ‹_›⟩
  · obtain ⟨proc, current⟩ := s.pagedThen_shows
      (Display.loadScreen { saved with currentTerminal := .terminal2 })
      (fun s => { s with display := s.display.showCursor }) (fun _ => rfl) (fun _ => rfl)
    exact ⟨proc, current.trans (Display.loadScreen_currentTerminal _)⟩

/-- A terminal switch shows the terminal, even where it goes on to fault. -/
theorem switchToTerminal_shows (t : TerminalId) :
    (s.switchToTerminal t).proc = s.proc ∧
      (s.switchToTerminal t).display.currentTerminal = t := by
  cases t with
  | terminal1 => exact s.switchByMapping_shows .terminal1
  | terminal2 => exact s.switchToTerminal2_shows
  | terminal3 => exact s.switchByMapping_shows .terminal3

/-- `boot_enter_terminal` leaves the terminal on display alone. -/
theorem bootEnterTerminal_shows (t : TerminalId) :
    (s.bootEnterTerminal t).proc.activeTerminal = t ∧
      (s.bootEnterTerminal t).display.currentTerminal = s.display.currentTerminal := by
  simp only [bootEnterTerminal]
  constructor
  · apply andThen_keeps _ (fun s => s.proc.activeTerminal)
    · exact congrArg Proc.activeTerminal (pagingVideoMemory_proc _)
    · intro s
      rw [contextSwitchExecute_proc]
  · apply andThen_keeps _ (fun s => s.display.currentTerminal)
    · exact pagingVideoMemory_currentTerminal _
    · intro s
      rw [contextSwitchExecute_currentTerminal]

/-- The scheduler goes on to the next terminal and leaves the one on display alone. -/
theorem schedule_shows (interrupted : Context) :
    (s.schedule interrupted).proc.activeTerminal = nextTerminal s.proc.activeTerminal ∧
      (s.schedule interrupted).display.currentTerminal = s.display.currentTerminal := by
  simp only [schedule]
  generalize nextTerminal s.proc.activeTerminal = t
  by_cases idle : s.proc.currentProcessId t = 0 <;>
    simp only [idle, ne_eq, not_true, not_false_eq_true, if_true, if_false, Proc.storeContext,
      Proc.setPcb]
  · split
    · cases t
      · exact bootEnterTerminal_shows _ .terminal1
      · exact bootEnterTerminal_shows _ .terminal2
      · exact bootEnterTerminal_shows _ .terminal3
    · exact ⟨congrArg Proc.activeTerminal (exceptionHandler_proc _ _),
        exceptionHandler_currentTerminal _ _⟩
  · split
    · constructor
      · apply andThen_keeps _ (fun s => s.proc.activeTerminal)
        · exact congrArg Proc.activeTerminal (pagingVideoMemory_proc _)
        · exact fun _ => rfl
      · apply andThen_keeps _ (fun s => s.display.currentTerminal)
        · exact pagingVideoMemory_currentTerminal _
        · exact fun _ => rfl
    · exact ⟨congrArg Proc.activeTerminal (exceptionHandler_proc _ _),
        exceptionHandler_currentTerminal _ _⟩

end State

end LightOS.Kernel
