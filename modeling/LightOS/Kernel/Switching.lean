import LightOS.Kernel.Effects

/-! # Terminal switches

`switch_to_terminal` copies the page on display to the backing page of the terminal that
goes, and the backing page of the terminal that comes to the page on display.  Seen from
the terminals nothing has moved: every logical screen holds what it held.
-/

namespace LightOS.Kernel

open Lib

/-- What a terminal switch does to the display. -/
structure Shown (before after : Display) (active t : TerminalId) : Prop where
  valid : after.Valid active
  currentTerminal : after.currentTerminal = t
  screens : after.screens = before.screens
  pageDir : after.mmu.pageDir = before.mmu.pageDir
  logical : ∀ u, ∀ i < 4096, after.mmu.mem (4096 * after.screenPage u + i) =
    before.mmu.mem (4096 * before.screenPage u + i)
  elsewhere : ∀ pa, 4096 * (videoPage + 4) ≤ pa → after.mmu.mem pa = before.mmu.mem pa

/-- A switch that faults, since the control block of the active process is out of reach. -/
structure StopsIn (before after : State) : Prop where
  outOfReach : ¬ (1 ≤ before.proc.activePid ∧ before.proc.activePid ≤ 6)
  faulted : after.faulted = true
  elsewhere : ∀ pa, 4096 * (videoPage + 4) ≤ pa →
    after.display.mmu.mem pa = before.display.mmu.mem pa

namespace State

section Copies

variable {s : State}

/-- The two copies of a terminal switch, with the mapping changed before, between or after
    them: the screen of `old` goes to its backing page, that of `new` on display. -/
theorem copies_logical {before saved remapped after : Mmu} {old new : TerminalId}
    (differ : new ≠ old) (save : Mmu.WritesIn (OnPage (videoPage + old.number)) before saved)
    (savedContents : ∀ i < 4096, saved.mem (4096 * (videoPage + old.number) + i) =
      before.mem (4096 * videoPage + i)) (remap : remapped.mem = saved.mem)
    (load : Mmu.WritesIn (OnPage videoPage) remapped after)
    (loadedContents : ∀ i < 4096, after.mem (4096 * videoPage + i) =
      remapped.mem (4096 * (videoPage + new.number) + i)) :
    (∀ u : TerminalId, ∀ i < 4096,
      after.mem (4096 * (if u = new then videoPage else videoPage + u.number) + i) =
        before.mem (4096 * (if u = old then videoPage else videoPage + u.number) + i)) ∧
      ∀ pa, 4096 * (videoPage + 4) ≤ pa → after.mem pa = before.mem pa := by
  have numbers (u v : TerminalId) (ne : u ≠ v) : u.number ≠ v.number :=
    fun same => ne (TerminalId.number_injective same)
  refine ⟨fun u i inside => ?_, fun pa high => ?_⟩
  · obtain ⟨positive, _⟩ := number_range u
    by_cases isNew : u = new
    · have notOld : u ≠ old := isNew ▸ differ
      have apart := numbers u old notOld
      rw [if_pos isNew, if_neg notOld, loadedContents i inside, remap, ← isNew]
      exact save.mem _ (by simp only [OnPage]; omega)
    · rw [if_neg isNew, load.mem _ (by simp only [OnPage]; omega), remap]
      by_cases isOld : u = old
      · rw [if_pos isOld, isOld, savedContents i inside]
      · have apart := numbers u old isOld
        rw [if_neg isOld, save.mem _ (by simp only [OnPage]; omega)]
  · obtain ⟨_, small⟩ := number_range old
    rw [load.mem _ (by simp only [OnPage]; omega), remap,
      save.mem _ (by simp only [OnPage]; omega)]

/-- The first copy of a switch, from the page on display to a backing page. -/
theorem saveScreen_effect {display : Display} (mapped : display.Mapped) :
    ∃ mmu, display.saveScreen = { display with mmu } ∧
      Mmu.WritesIn (OnPage (videoPage + display.currentTerminal.number)) display.mmu mmu ∧
      ∀ i < 4096, mmu.mem (4096 * (videoPage + display.currentTerminal.number) + i) =
        display.mmu.mem (4096 * videoPage + i) := by
  obtain ⟨positive, _⟩ := number_range display.currentTerminal
  refine ⟨_, rfl, ?_⟩
  rw [mapped.videoAddress]
  exact Mmu.memcpy_page (mapped.tables.backingWindow _) mapped.tables.directWindow (by omega)
    (Nat.le_refl _)

/-- The second copy, the other way. -/
theorem loadScreen_effect {display : Display} (mapped : display.Mapped) :
    ∃ mmu, display.loadScreen = { display with mmu } ∧
      Mmu.WritesIn (OnPage videoPage) display.mmu mmu ∧
      ∀ i < 4096, mmu.mem (4096 * videoPage + i) =
        display.mmu.mem (4096 * (videoPage + display.currentTerminal.number) + i) := by
  obtain ⟨positive, _⟩ := number_range display.currentTerminal
  refine ⟨_, rfl, ?_⟩
  rw [mapped.videoAddress]
  exact Mmu.memcpy_page mapped.tables.directWindow (mapped.tables.backingWindow _) (by omega)
    (Nat.le_refl _)

theorem showTerminal_mapped {display : Display} {mmu : Mmu} {region : Nat → Prop}
    (mapped : display.Mapped) (writes : Mmu.WritesIn region display.mmu mmu) (t : TerminalId) :
    Display.Mapped { display with mmu, currentTerminal := t } :=
  ⟨by rw [writes.fault, mapped.fault], mapped.tables.of_writes writes, mapped.terminalId,
    mapped.videoAddress, mapped.inside⟩

/-- `switch_to_terminal_1` and `switch_to_terminal_3`, to another terminal. -/
theorem switchByMapping_effect (mapped : s.display.Mapped) {t : TerminalId}
    (other : t ≠ s.display.currentTerminal) :
    StopsIn s (s.switchByMapping t) ∨
      ∃ display, s.switchByMapping t = { s with display } ∧
        Shown s.display display s.proc.activeTerminal t := by
  obtain ⟨saved, saved_eq, save, savedContents⟩ := saveScreen_effect mapped
  simp only [switchByMapping, if_neg (Ne.symm other), saved_eq]
  rcases pagingVideoMemory_cases s.proc s.control (showTerminal_mapped mapped save t) with
    ⟨outOfReach, faults, elsewhere⟩ | ⟨paged, result, same, valid, directory⟩
  · left
    rw [andThen, if_pos faults]
    refine ⟨outOfReach, faults, fun pa high => (elsewhere pa high).trans (save.mem pa ?_)⟩
    obtain ⟨_, small⟩ := number_range s.display.currentTerminal
    unfold OnPage
    omega
  · right
    obtain ⟨loaded, loaded_eq, load, loadedContents⟩ := loadScreen_effect valid.toMapped
    have current : paged.currentTerminal = t := same.currentTerminal
    rw [current] at loadedContents
    rw [result, andThen_running valid.fault]
    simp only [loaded_eq]
    obtain ⟨logical, elsewhere⟩ := copies_logical other save savedContents same.mem load
      loadedContents
    refine ⟨_, rfl, ?_, current, same.screens, ?_, ?_, elsewhere⟩
    · exact valid.of_output ((Display.write_output load).trans (Display.showCursor_output (t := t)))
    · rw [← save.pageDir]
      exact load.pageDir.trans directory
    · intro u i inside
      simpa only [Display.screenPage, Display.showCursor, Display.setCursorPosition, current]
        using logical u i inside

/-- `switch_to_terminal_2`, from another terminal. -/
theorem switchToTerminal2_effect (mapped : s.display.Mapped)
    (other : TerminalId.terminal2 ≠ s.display.currentTerminal) :
    StopsIn s s.switchToTerminal2 ∨
      ∃ display, s.switchToTerminal2 = { s with display } ∧
        Shown s.display display s.proc.activeTerminal .terminal2 := by
  obtain ⟨saved, saved_eq, save, savedContents⟩ := saveScreen_effect mapped
  have shown := showTerminal_mapped mapped save .terminal2
  obtain ⟨loaded, loaded_eq, load, loadedContents⟩ := loadScreen_effect shown
  obtain ⟨logical, elsewhere⟩ := copies_logical other save savedContents rfl load loadedContents
  simp only [switchToTerminal2, if_neg (Ne.symm other), saved_eq, loaded_eq]
  rcases pagingVideoMemory_cases s.proc s.control (showTerminal_mapped shown load .terminal2) with
    ⟨outOfReach, faults, kept⟩ | ⟨paged, result, same, valid, directory⟩
  · left
    rw [andThen, if_pos faults]
    exact ⟨outOfReach, faults, fun pa high => (kept pa high).trans (elsewhere pa high)⟩
  · right
    have current : paged.currentTerminal = .terminal2 := same.currentTerminal
    have contents : paged.mmu.mem = loaded.mem := same.mem
    rw [result, andThen_running valid.fault]
    refine ⟨_, rfl, ?_, current, same.screens, ?_, ?_, ?_⟩
    · exact valid.of_output (Display.showCursor_output : OutputOn videoPage .terminal2 _ _)
    · rw [← save.pageDir]
      exact directory.trans load.pageDir
    · intro u i inside
      have moved := logical u i inside
      rw [← contents] at moved
      simpa only [Display.screenPage, Display.showCursor, Display.setCursorPosition, current]
        using moved
    · intro pa high
      rw [← elsewhere pa high, ← contents]
      rfl

theorem switchToTerminal_effect (mapped : s.display.Mapped) {t : TerminalId}
    (other : t ≠ s.display.currentTerminal) :
    StopsIn s (s.switchToTerminal t) ∨
      ∃ display, s.switchToTerminal t = { s with display } ∧
        Shown s.display display s.proc.activeTerminal t := by
  cases t with
  | terminal1 => exact switchByMapping_effect mapped other
  | terminal2 => exact switchToTerminal2_effect mapped other
  | terminal3 => exact switchByMapping_effect mapped other

/-- To the terminal on display there is nothing to switch. -/
theorem switchToTerminal_same {t : TerminalId} (same : t = s.display.currentTerminal) :
    s.switchToTerminal t = s := by
  cases t <;> simp [switchToTerminal, switchToTerminal1, switchToTerminal2, switchToTerminal3,
    switchByMapping, ← same]

end Copies

end State

end LightOS.Kernel
