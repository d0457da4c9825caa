import LightOS.Kernel.Video

/-! # Who may write to video memory

Runs of the kernel in which processes also call `vidmap`.  `VideoOutcome` says what a step
does to the video entry; over it there are the two questions of this file, whether the entry
is present just for processes that have asked for it, and whether it leads to the screen of
the terminal that its process runs in.
-/

namespace LightOS.Kernel

open Lib Filesystem Descriptor

/-- The steps of the kernel, and `vidmap` by the active process. -/
inductive VideoAction
  | kernel (action : Action)
  | vidmap (screenStart : Nat)

def videoMachine (bootBlock : Option Image) : Machine State VideoAction where
  enabled s action :=
    match action with
    | .kernel action => s.able action
    | .vidmap _ => s.faulted = false ∧ s.proc.activePid ≠ 0
  next s action :=
    match action with
    | .kernel action => s.step bootBlock action
    | .vidmap screenStart => s.syscallVidmap screenStart

/-- The check of `vidmap` on the pointer it is given. -/
def ScreenStartValid (screenStart : Nat) : Prop :=
  VIRTUAL_128MB_START ≤ screenStart ∧ screenStart ≤ VIDMAP_ADDRESS

/-- The video page is present if and only if the active process has asked for it. -/
def VideoFollowsProcess (s : State) : Prop :=
  s.faulted = false → s.proc.activePid ≠ 0 →
    (s.video.present = true ↔ (s.proc.pcb s.proc.activePid).vidmapFlag = 1)

/-- A present video page is the logical screen of the active terminal, and a user program that
    stores through it changes no other one. -/
structure VideoOnOwnScreen (s : State) : Prop where
  address : s.faulted = false → s.video.present = true →
    s.video.address = s.display.screenPage s.proc.activeTerminal
  store : s.faulted = false → ∀ va byte, VIDMAP_ADDRESS ≤ va → va < VIDMAP_ADDRESS + PAGE_SIZE →
    ∀ t, t ≠ s.proc.activeTerminal → ∀ pa, OnPage (s.display.screenPage t) pa →
      (s.display.mmu.userStore va byte).mem pa = s.display.mmu.mem pa

/-- An `execute` call that starts a program, made by a process that has asked for the video
    page. -/
def InheritsVideo (bootBlock : Option Image) (s : State) : VideoAction → Prop
  | .kernel action => StartsProgram bootBlock s action ∧
      (s.proc.pcb s.proc.activePid).vidmapFlag = 1 ∧
      ∃ pid, pid ≠ s.proc.activePid ∧
        (List.range 7).find? (fun i => s.proc.processes i = 0) = some pid
  | .vidmap _ => False

/-- A successful `vidmap` call of a process whose terminal is not on display. -/
def BackgroundVidmap (s : State) : VideoAction → Prop
  | .kernel _ => False
  | .vidmap screenStart => ScreenStartValid screenStart ∧
      s.proc.activeTerminal ≠ s.display.currentTerminal

/-- What a step of the kernel does to the video entry. -/
inductive VideoOutcome (bootBlock : Option Image) (s : State) : Action → State → Prop
  | same {action after} : SameVideo s after → after.proc.activePid = s.proc.activePid →
      ¬ InheritsVideo bootBlock s (.kernel action) → VideoOutcome bootBlock s action after
  | refreshed {action after} : Refreshed s after.proc.activePid after →
      ¬ InheritsVideo bootBlock s (.kernel action) → VideoOutcome bootBlock s action after
  | started {stack command caller pid after} :
      StartsProgram bootBlock s (.execute stack command caller) →
      (List.range 7).find? (fun i => s.proc.processes i = 0) = some pid → 4 ≤ pid →
      Refreshed s s.proc.activePid after → after.proc.activePid = pid →
      (after.proc.pcb pid).vidmapFlag = 0 →
      (pid ≠ s.proc.activePid → (after.proc.pcb s.proc.activePid).vidmapFlag =
        (s.proc.pcb s.proc.activePid).vidmapFlag) →
      VideoOutcome bootBlock s (.execute stack command caller) after

section Steps

variable {s after : State} {bootBlock : Option Image}

theorem not_inheritsVideo {action : Action} (other : ∀ stack command caller,
    action ≠ .execute stack command caller) : ¬ InheritsVideo bootBlock s (.kernel action) := by
  rintro ⟨starts, _⟩
  cases action with
  | execute stack command caller => exact other stack command caller rfl
  | _ => exact starts

/-- The globals may change as long as the flags and the active terminal do not. -/
theorem SameVideo.with_proc (same : SameVideo s after) {proc : Proc} {control : Control}
    (pcb : proc.pcb = after.proc.pcb)
    (activeTerminal : proc.activeTerminal = after.proc.activeTerminal) :
    SameVideo s ⟨proc, after.display, control⟩ :=
  ⟨same.video, same.directory, fun pid => by rw [pcb, same.flags],
    activeTerminal.trans same.activeTerminal, same.currentTerminal, same.terminalId⟩

theorem execute_video (sound : Sound s) (active : s.proc.activePid ≠ 0) {stack : List UInt8}
    {command : CharPtr} {caller : Context}
    (running : (s.syscallExecute bootBlock stack command caller).faulted = false) :
    VideoOutcome bootBlock s (.execute stack command caller)
      (s.syscallExecute bootBlock stack command caller) := by
  have outcome : Outcome bootBlock s (.execute stack command caller)
      (s.syscallExecute bootBlock stack command caller) :=
    State.execute_outcome sound active stack command caller
  have refreshed (accepted : (s.checkCommand bootBlock stack command).2 ≠ none)
      (found : (List.range 7).find? (fun i => s.proc.processes i = 0) ≠ none) :
      Refreshed s s.proc.activePid (s.syscallExecute bootBlock stack command caller) :=
    (s.syscallExecute_refreshed accepted found).resolve_left (by simp [running])
  generalize s.syscallExecute bootBlock stack command caller = after at outcome refreshed ⊢
  cases outcome with
  | rejected refused =>
      refine .same ((SameVideo.of_output s (State.printf_output sound.valid _)).with_proc rfl rfl)
        rfl ?_
      rintro ⟨starts, _⟩
      exact startsProgram_iff.mp starts refused
  | full passed noPid notFull =>
      refine .same ((SameVideo.of_output s (State.printf_output sound.valid _)).with_proc rfl rfl)
        rfl ?_
      rintro ⟨_, _, pid, _, found⟩
      rw [noPid] at found
      cases found
  | @started _ _ _ argBuf argumentExist pid eip _ _ _ active passed free child small notFull
      switched writes =>
      have flag (other : Nat) := Proc.storeContext_vidmapFlag
        ({ s.proc with argBuf, argumentExist }.setPcb pid (State.newPcb
          { s with proc := { s.proc with argBuf, argumentExist } } pid eip))
        s.proc.activePid other caller
      refine .started (startsProgram_iff.mpr passed) free child (refreshed passed (by simp [free]))
        rfl ?_ ?_
      · refine (flag pid).trans ?_
        simp [Proc.setPcb, State.newPcb]
      · intro other
        refine (flag s.proc.activePid).trans ?_
        simp [Proc.setPcb, Ne.symm other]
  | fault faulting faults elsewhere => exact absurd faulting id

/-- `execute` does not fault. -/
theorem syscallExecute_running (sound : Sound s) (active : s.proc.activePid ≠ 0)
    {stack : List UInt8} {command : CharPtr} {caller : Context} :
    (s.syscallExecute bootBlock stack command caller).faulted = false := by
  have outcome : Outcome bootBlock s (.execute stack command caller)
      (s.syscallExecute bootBlock stack command caller) :=
    State.execute_outcome sound active stack command caller
  generalize s.syscallExecute bootBlock stack command caller = after at outcome ⊢
  cases outcome with
  | rejected refused | full passed noPid notFull =>
      exact (State.printf_output sound.valid _).writes.fault.trans sound.valid.fault
  | started active passed free child small notFull switched writes =>
      exact writes.fault.trans switched.valid.fault
  | fault faulting faults elsewhere => exact absurd faulting id

/-- Every step of the kernel that does not fault has one of the listed effects. -/
theorem kernel_video (sound : Sound s) {action : Action} (able : s.able action)
    (running : (s.step bootBlock action).faulted = false) :
    VideoOutcome bootBlock s action (s.step bootBlock action) := by
  have outcome : Outcome bootBlock s action (s.step bootBlock action) :=
    State.step_outcome sound able
  have stays : (s.step bootBlock action).faulted ≠ true := by simp [running]
  generalize result : s.step bootBlock action = after at outcome stays
  cases outcome with
  | putc output | clear output | echo output | echoBack output | echoClear output =>
      exact .same (SameVideo.of_output s output) rfl (not_inheritsVideo (by simp))
  | userStore writes | kernelCopy writes =>
      exact .same (SameVideo.of_writes s writes) rfl (not_inheritsVideo (by simp))
  | switchSame same =>
      exact .same ⟨rfl, rfl, fun _ => rfl, rfl, rfl, fun _ => rfl⟩ rfl (not_inheritsVideo (by simp))
  | switchTo other shown =>
      have refreshed := s.switchToTerminal_refreshed other
      rw [show s.switchToTerminal _ = _ from result] at refreshed
      exact .refreshed (refreshed.resolve_left stays) (not_inheritsVideo (by simp))
  | @enter t _ _ switched =>
      have refreshed := s.bootEnterTerminal_refreshed t
      rw [show s.bootEnterTerminal t = _ from result] at refreshed
      exact .refreshed (refreshed.resolve_left stays) (not_inheritsVideo (by simp))
  | @first interrupted _ _ _ next idle switched =>
      have refreshed := s.schedule_refreshed interrupted next
      rw [show s.schedule _ = _ from result, if_pos idle] at refreshed
      exact .refreshed (refreshed.resolve_left stays) (not_inheritsVideo (by simp))
  | @next interrupted _ _ next occupied switched =>
      have refreshed := s.schedule_refreshed interrupted next
      rw [show s.schedule _ = _ from result, if_neg occupied] at refreshed
      subst next
      exact .refreshed (refreshed.resolve_left stays) (not_inheritsVideo (by simp))
  | @root status t _ _ _ root switched =>
      obtain ⟨positive, few⟩ := State.number_range t
      have refreshed := State.syscallHalt_refreshed sound able.2 status
      rw [show s.syscallHalt status = _ from result, if_pos (by omega), root] at refreshed
      exact .refreshed (refreshed.resolve_left stays) (not_inheritsVideo (by simp))
  | @child status t _ child terminal switched =>
      have refreshed := State.syscallHalt_refreshed sound able.2 status
      rw [show s.syscallHalt status = _ from result, if_neg (by omega)] at refreshed
      exact .refreshed (refreshed.resolve_left stays) (not_inheritsVideo (by simp))
  | rejected refused | full passed noPid notFull =>
      rw [← result]
      exact execute_video sound able.2 running
  | started active passed free child small notFull switched writes =>
      rw [← result]
      exact execute_video sound able.2 running
  | fault faulting faults elsewhere => exact absurd faults stays

/-- The video page lies behind its own directory entry. -/
theorem vidmapIndex_eq {va : Nat} (from_ : VIDMAP_ADDRESS ≤ va)
    (before : va < VIDMAP_ADDRESS + PAGE_SIZE) : va / 2 ^ 22 = vidmapIndex := by
  have start : VIDMAP_ADDRESS = 0x8400000 := rfl
  have index : vidmapIndex = 33 := rfl
  simp only [PAGE_SIZE] at before
  omega

/-- An address in the video page. -/
theorem translate_vidmap {mmu : Mmu} (directory : mmu.pageDir vidmapIndex = vidmapPde) {va : Nat}
    (from_ : VIDMAP_ADDRESS ≤ va) (before : va < VIDMAP_ADDRESS + PAGE_SIZE) :
    mmu.translate va = if (mmu.vidmapPgTab1 0).present then
      some (PAGE_SIZE * (mmu.vidmapPgTab1 0).address + (va - VIDMAP_ADDRESS)) else none := by
  have start : VIDMAP_ADDRESS = 0x8400000 := rfl
  have size : PAGE_SIZE = 4096 := rfl
  have index := vidmapIndex_eq from_ before
  have entry : va / PAGE_SIZE % 1024 = 0 := by
    rw [size] at before ⊢
    omega
  have offset : va % PAGE_SIZE = va - VIDMAP_ADDRESS := by
    rw [size] at before ⊢
    omega
  unfold Mmu.translate
  rw [index, directory]
  simp only [vidmapPde, if_true, entry, Mmu.pageOf, offset]

/-- What `vidmap` does with a pointer it accepts. -/
theorem syscallVidmap_effect (sound : Sound s) (active : s.proc.activePid ≠ 0) {screenStart : Nat}
    (valid : ScreenStartValid screenStart) :
    ∃ mmu, s.syscallVidmap screenStart =
        ⟨s.proc.setPcb s.proc.activePid { s.proc.pcb s.proc.activePid with vidmapFlag := 1 },
          { s.display with mmu }, .returned VIDMAP_ADDRESS⟩ ∧
      Mmu.WritesIn (fun pa => OnFrame s.proc.activePid pa ∨ OnPage videoPage pa)
        s.display.mmu.enableVidmapPaging mmu := by
  obtain ⟨positive, small⟩ := State.active_range sound active
  obtain ⟨from_, until_⟩ := valid
  have apart : Mmu.userIndex ≠ vidmapIndex := by decide
  have user : s.display.mmu.enableVidmapPaging.pageDir Mmu.userIndex =
      Mmu.userEntry s.proc.activePid := by
    simp only [Mmu.enableVidmapPaging, Function.update_of_ne apart, sound.user active]
  have directory : s.display.mmu.enableVidmapPaging.pageDir vidmapIndex = vidmapPde := by
    simp [Mmu.enableVidmapPaging]
  have entry : s.display.mmu.enableVidmapPaging.vidmapPgTab1 0 =
      ⟨true, true, true, VIDEO_MEM / PAGE_SIZE⟩ := by
    simp [Mmu.enableVidmapPaging]
  have writes : Mmu.WritesIn (fun pa => OnFrame s.proc.activePid pa ∨ OnPage videoPage pa)
      s.display.mmu.enableVidmapPaging
      (s.display.mmu.enableVidmapPaging.storeBytes screenStart (wordBytes VIDMAP_ADDRESS)) := by
    apply Mmu.storeBytes_writes
    intro i inside
    have few : i < 4 := by simpa [wordBytes] using inside
    have start : VIRTUAL_128MB_START = 0x8000000 := rfl
    have stop : VIDMAP_ADDRESS = 0x8400000 := rfl
    have size : PAGE_SIZE = 4096 := rfl
    by_cases inPage : screenStart + i < VIDMAP_ADDRESS
    · have below : screenStart + i < VIRTUAL_128MB_START + 2 ^ 22 := by
        rw [start]
        omega
      refine ⟨_, Mmu.translate_user small user (by omega) below, .inl ⟨?_, ?_⟩⟩ <;> omega
    · have fromVideo : VIDMAP_ADDRESS ≤ screenStart + i := by omega
      have inVideo := translate_vidmap directory fromVideo (by omega)
      simp only [entry, if_true] at inVideo
      refine ⟨_, inVideo, .inr ⟨?_, ?_⟩⟩ <;> simp only [size, VIDEO_MEM, videoPage] <;> omega
  refine ⟨_, ?_, writes⟩
  have positiveStart : screenStart ≠ 0 := by
    have start : VIRTUAL_128MB_START = 0x8000000 := rfl
    omega
  have inRange : ¬ (screenStart < VIRTUAL_128MB_START ∨
      VIRTUAL_128MB_START + KERNEL_STACK_BASE_ADDRESS / 2 < screenStart) := by
    rw [not_or, Nat.not_lt, Nat.not_lt]
    exact ⟨from_, until_⟩
  have running : (s.display.mmu.enableVidmapPaging.storeBytes screenStart
      (wordBytes VIDMAP_ADDRESS)).fault = false :=
    writes.fault.trans sound.valid.fault
  simp only [State.syscallVidmap, if_neg positiveStart, if_neg inRange,
    State.pcbMapped_of_mapped sound.valid.tables positive small, if_true,
    State.syscallEnableVidmapPaging, State.faulted, running, Bool.false_eq_true, if_false]

theorem syscallVidmap_invalid {screenStart : Nat} (invalid : ¬ ScreenStartValid screenStart) :
    s.syscallVidmap screenStart = { s with control := .returned (-1) } := by
  have outside : screenStart < VIRTUAL_128MB_START ∨
      VIRTUAL_128MB_START + KERNEL_STACK_BASE_ADDRESS / 2 < screenStart := by
    by_contra inside
    rw [not_or, Nat.not_lt, Nat.not_lt] at inside
    exact invalid inside
  simp only [State.syscallVidmap, if_pos outside, ite_self]

theorem enableVidmapPaging_valid {display : Display} {active : TerminalId}
    (valid : display.Valid active) :
    Display.Valid { display with mmu := display.mmu.enableVidmapPaging } active := by
  have kept (index : Nat) (other : index ≠ vidmapIndex) :
      display.mmu.enableVidmapPaging.pageDir index = display.mmu.pageDir index :=
    Function.update_of_ne other _ _
  have tables : display.mmu.enableVidmapPaging.LowMapped :=
    ⟨(kept 0 (by decide)).trans valid.tables.low, (kept 1 (by decide)).trans valid.tables.kernel,
      valid.tables.direct, valid.tables.window, valid.tables.backing⟩
  exact ⟨⟨valid.fault, tables, valid.terminalId, valid.videoAddress, valid.inside⟩, valid.entry⟩

theorem syscallVidmap_sound (sound : Sound s) (active : s.proc.activePid ≠ 0) (screenStart : Nat) :
    Sound (s.syscallVidmap screenStart) := by
  by_cases valid : ScreenStartValid screenStart
  · obtain ⟨mmu, result, writes⟩ := syscallVidmap_effect sound active valid
    obtain ⟨created, lineage⟩ := sound.lineage
    have apart : Mmu.userIndex ≠ vidmapIndex := by decide
    rw [result]
    constructor
    case valid =>
      have written := (enableVidmapPaging_valid sound.valid).of_writes writes
      exact written
    case user =>
      intro running
      rw [writes.pageDir]
      simp only [Mmu.enableVidmapPaging, Function.update_of_ne apart]
      exact sound.user running
    case lineage =>
      refine ⟨created, lineage.of_links ⟨fun pid => ?_, fun pid => ?_⟩ rfl rfl (.inl rfl)⟩ <;>
        by_cases this : pid = s.proc.activePid <;> simp [Proc.setPcb, this]
  · rw [syscallVidmap_invalid valid]
    exact ⟨sound.valid, sound.user, sound.lineage⟩

/-- The directory entry for the video page is absent, or the one `vidmap` writes. -/
def VideoDirectory (s : State) : Prop :=
  s.display.mmu.pageDir vidmapIndex = Mmu.absentPde ∨
    s.display.mmu.pageDir vidmapIndex = vidmapPde

theorem VideoOutcome.directory {action : Action}
    (outcome : VideoOutcome bootBlock s action after) :
    after.display.mmu.pageDir vidmapIndex = s.display.mmu.pageDir vidmapIndex := by
  cases outcome with
  | same same active calm => exact same.directory
  | refreshed refreshed calm => exact refreshed.directory
  | started starts found child refreshed active flag parent => exact refreshed.directory

/-- What holds between the steps, as long as the machine runs. -/
structure VideoSound (s : State) : Prop where
  sound : Sound s
  directory : VideoDirectory s

theorem videoMachine_sound (videoSound : VideoSound s) {action : VideoAction}
    (able : (videoMachine bootBlock).enabled s action) :
    ((videoMachine bootBlock).next s action).faulted = true ∨
      VideoSound ((videoMachine bootBlock).next s action) := by
  cases action with
  | kernel action =>
      cases running : (s.step bootBlock action).faulted with
      | true => exact .inl running
      | false =>
          have sound : Sound (s.step bootBlock action) :=
            (State.step_sound videoSound.sound able).resolve_left (by simp [running])
          have outcome := kernel_video videoSound.sound able running
          exact .inr
            ⟨sound, videoSound.directory.imp outcome.directory.trans outcome.directory.trans⟩
  | vidmap screenStart =>
      refine .inr ⟨syscallVidmap_sound videoSound.sound able.2 screenStart, ?_⟩
      simp only [videoMachine]
      by_cases valid : ScreenStartValid screenStart
      · obtain ⟨mmu, result, writes⟩ := syscallVidmap_effect videoSound.sound able.2 valid
        rw [result]
        right
        rw [show (mmu.pageDir = _) from writes.pageDir]
        simp [Mmu.enableVidmapPaging]
      · rw [syscallVidmap_invalid valid]
        exact videoSound.directory

/-- After a step the video page follows the active process, unless the step has started a
    program for a process that has the page. -/
theorem videoFollowsProcess_iff (sound : Sound s) (holds : VideoFollowsProcess s)
    {action : VideoAction} (able : (videoMachine bootBlock).enabled s action) :
    VideoFollowsProcess ((videoMachine bootBlock).next s action) ↔
      ¬ InheritsVideo bootBlock s action := by
  cases action with
  | kernel action =>
      simp only [videoMachine]
      cases running : (s.step bootBlock action).faulted with
      | true =>
          refine iff_of_true (fun stays => absurd running (by simp [stays])) ?_
          apply not_inheritsVideo
          rintro stack command caller rfl
          have runs : (s.step bootBlock (.execute stack command caller)).faulted = false :=
            syscallExecute_running sound able.2
          simp [runs] at running
      | false =>
          have outcome := kernel_video sound able running
          generalize s.step bootBlock action = after at outcome running
          cases outcome with
          | same same active calm =>
              refine iff_of_true (fun _ current => ?_) calm
              rw [active] at current ⊢
              rw [same.video, same.flags]
              exact holds able.1 current
          | refreshed refreshed calm =>
              refine iff_of_true (fun _ current => ?_) calm
              rw [refreshed.present, decide_eq_true_eq]
          | @started _ _ _ pid _ starts found child refreshed active flag parent =>
              have absent : VideoFollowsProcess after ↔
                  (after.proc.pcb s.proc.activePid).vidmapFlag ≠ 1 := by
                have current : pid ≠ 0 := by omega
                rw [VideoFollowsProcess, active, flag, refreshed.present]
                simp [running, current]
              rw [absent, not_iff_not]
              by_cases own : pid = s.proc.activePid
              · rw [← own, flag]
                refine iff_of_false (by decide) ?_
                rintro ⟨_, _, other, apart, isFree⟩
                rw [found] at isFree
                exact apart (Option.some.inj isFree ▸ own)
              · rw [parent own]
                exact ⟨fun asked => ⟨starts, asked, pid, own, found⟩, fun inherits => inherits.2.1⟩
  | vidmap screenStart =>
      simp only [videoMachine, InheritsVideo, not_false_eq_true, iff_true]
      by_cases valid : ScreenStartValid screenStart
      · obtain ⟨mmu, result, writes⟩ := syscallVidmap_effect sound able.2 valid
        rw [result]
        intro _ _
        refine iff_of_true ?_ (by simp [Proc.setPcb])
        rw [State.video, show mmu.vidmapPgTab1 = _ from writes.vidmapPgTab1]
        simp [Mmu.enableVidmapPaging]
      · rw [syscallVidmap_invalid valid]
        exact holds

/-- Where the video entry leads to the screen of the active terminal, stores do. -/
theorem VideoOnOwnScreen.of_address (videoSound : VideoSound s)
    (address : s.faulted = false → s.video.present = true →
      s.video.address = s.display.screenPage s.proc.activeTerminal) : VideoOnOwnScreen s where
  address := address
  store running va byte from_ before t other pa onPage := by
    have index := vidmapIndex_eq from_ before
    rcases videoSound.directory with absent | present
    · have closed : s.display.mmu.userWritable va = false := by
        unfold Mmu.userWritable
        rw [index, absent]
        rfl
      rw [Mmu.userStore, closed]
      rfl
    · unfold Mmu.userStore Mmu.store
      rw [translate_vidmap present from_ before]
      cases mapped : (s.display.mmu.vidmapPgTab1 0).present with
      | false => split <;> rfl
      | true =>
          have own : (s.display.mmu.vidmapPgTab1 0).address = _ := address running mapped
          have apart : s.display.screenPage t ≠ s.display.screenPage s.proc.activeTerminal :=
            fun same => other (Display.screenPage_injective same)
          rw [if_pos (rfl : true = true), own]
          generalize target_eq :
            PAGE_SIZE * s.display.screenPage s.proc.activeTerminal + (va - VIDMAP_ADDRESS) = target
          have differ : pa ≠ target := by
            simp only [OnPage, PAGE_SIZE] at onPage before target_eq
            omega
          split
          · exact Function.update_of_ne differ _ _
          · rfl

theorem VideoOnOwnScreen.of_faulted (faulted : s.faulted = true) : VideoOnOwnScreen s := by
  constructor <;> intro running <;> simp [faulted] at running

/-- Whatever the kernel does, the entry leads to the screen of the active terminal again. -/
theorem kernel_onOwnScreen (videoSound : VideoSound s) (holds : VideoOnOwnScreen s)
    {action : Action} (able : s.able action) : VideoOnOwnScreen (s.step bootBlock action) := by
  cases running : (s.step bootBlock action).faulted with
  | true => exact .of_faulted running
  | false =>
      have enabled : (videoMachine bootBlock).enabled s (.kernel action) := able
      have next : VideoSound (s.step bootBlock action) :=
        (videoMachine_sound videoSound enabled).resolve_left (by simp [videoMachine, running])
      have outcome := kernel_video videoSound.sound able running
      refine .of_address next fun _ present => ?_
      rw [← next.sound.valid.toMapped.ownPage]
      generalize s.step bootBlock action = after at outcome present
      cases outcome with
      | same same active calm =>
          rw [same.video] at present ⊢
          rw [holds.address able.1 present, ← videoSound.sound.valid.toMapped.ownPage]
          simp only [Display.ownPage, same.activeTerminal, same.currentTerminal, same.terminalId]
      | refreshed refreshed calm => exact refreshed.address
      | started starts found child refreshed active flag parent => exact refreshed.address

/-- After a step the video page is where it should be, unless the step was a `vidmap` call in
    the background. -/
theorem videoOnOwnScreen_iff (videoSound : VideoSound s) (holds : VideoOnOwnScreen s)
    {action : VideoAction} (able : (videoMachine bootBlock).enabled s action) :
    VideoOnOwnScreen ((videoMachine bootBlock).next s action) ↔ ¬ BackgroundVidmap s action := by
  cases action with
  | kernel action => exact iff_of_true (kernel_onOwnScreen videoSound holds able) id
  | vidmap screenStart =>
      have next : ((videoMachine bootBlock).next s (.vidmap screenStart)).faulted = true ∨
          VideoSound ((videoMachine bootBlock).next s (.vidmap screenStart)) :=
        videoMachine_sound videoSound able
      simp only [videoMachine] at next ⊢
      by_cases valid : ScreenStartValid screenStart
      · obtain ⟨mmu, result, writes⟩ := syscallVidmap_effect videoSound.sound able.2 valid
        have running : mmu.fault = false := writes.fault.trans videoSound.sound.valid.fault
        have entry : mmu.vidmapPgTab1 0 = ⟨true, true, true, VIDEO_MEM / PAGE_SIZE⟩ := by
          rw [writes.vidmapPgTab1]
          simp [Mmu.enableVidmapPaging]
        rw [result] at next ⊢
        have sound := next.resolve_left (by simp [State.faulted, running])
        have foreground : videoPage = s.display.screenPage s.proc.activeTerminal ↔
            s.proc.activeTerminal = s.display.currentTerminal := by
          obtain ⟨positive, _⟩ := State.number_range s.proc.activeTerminal
          unfold Display.screenPage
          split
          · exact iff_of_true rfl ‹_›
          · refine iff_of_false ?_ ‹_›
            omega
        constructor
        · rintro right ⟨_, background⟩
          have own := right.address running (by simp only [State.video, entry])
          simp only [State.video, entry] at own
          exact background (foreground.mp own)
        · intro allowed
          refine .of_address sound fun _ _ => ?_
          simp only [State.video, entry]
          exact foreground.mpr (by_contra fun background => allowed ⟨valid, background⟩)
      · rw [syscallVidmap_invalid valid]
        refine iff_of_true ⟨holds.address, holds.store⟩ ?_
        rintro ⟨isValid, _⟩
        exact valid isValid

end Steps

section Runs

variable {s later : State} {bootBlock : Option Image} {as : List VideoAction}

theorem videoMachine_running {action : VideoAction}
    (able : (videoMachine bootBlock).enabled s action) : s.faulted = false := by
  cases action with
  | kernel action => exact able.1
  | vidmap screenStart => exact able.1

theorem videoMachine_invariant {action : VideoAction} (holds : s.faulted = true ∨ VideoSound s)
    (able : (videoMachine bootBlock).enabled s action) :
    ((videoMachine bootBlock).next s action).faulted = true ∨
      VideoSound ((videoMachine bootBlock).next s action) :=
  videoMachine_sound (holds.resolve_left (by simp [videoMachine_running able])) able

theorem VideoSound.of_run (videoSound : VideoSound s)
    (run : (videoMachine bootBlock).Run s as later) (running : later.faulted = false) :
    VideoSound later :=
  (run.invariant (I := fun s => s.faulted = true ∨ VideoSound s)
    (fun _ _ holds able => videoMachine_invariant holds able) (.inr videoSound)).resolve_left
      (by simp [running])

theorem VideoSound.follows_iff (videoSound : VideoSound s) (holds : VideoFollowsProcess s)
    (run : (videoMachine bootBlock).Run s as later) :
    (videoMachine bootBlock).Always VideoFollowsProcess s as ↔
      (videoMachine bootBlock).EachStep
        (fun s action => ¬ InheritsVideo bootBlock s action) s as := by
  refine run.always_iff (I := fun s => s.faulted = true ∨ VideoSound s)
    (fun _ _ holds able _ => videoMachine_invariant holds able) ?_ (.inr videoSound) holds
  intro s action invariant follows able
  have running := videoMachine_running able
  exact videoFollowsProcess_iff (invariant.resolve_left (by simp [running])).sound follows able

theorem VideoSound.onOwnScreen_iff (videoSound : VideoSound s) (holds : VideoOnOwnScreen s)
    (run : (videoMachine bootBlock).Run s as later) :
    (videoMachine bootBlock).Always VideoOnOwnScreen s as ↔
      (videoMachine bootBlock).EachStep (fun s action => ¬ BackgroundVidmap s action) s as := by
  refine run.always_iff (I := fun s => s.faulted = true ∨ VideoSound s)
    (fun _ _ holds able _ => videoMachine_invariant holds able) ?_ (.inr videoSound) holds
  intro s action invariant own able
  have running := videoMachine_running able
  exact videoOnOwnScreen_iff (invariant.resolve_left (by simp [running])) own able

end Runs

section Boot

variable {s : State} {bootBlock : Option Image}

/-- No video page for user programs. -/
structure NoVideo (s : State) : Prop where
  video : s.video = Mmu.absentPte
  directory : s.display.mmu.pageDir vidmapIndex = Mmu.absentPde

theorem NoVideo.of_same {after : State} (noVideo : NoVideo s) (same : SameVideo s after) :
    NoVideo after :=
  ⟨same.video.trans noVideo.video, same.directory.trans noVideo.directory⟩

theorem NoVideo.createTerminalShell (bootBlock : Option Image) (noVideo : NoVideo s)
    (fresh : Fresh s) (t : TerminalId) (stack : List UInt8) :
    NoVideo (s.createTerminalShell t bootBlock stack) := by
  rcases fresh.createTerminalShell bootBlock t stack with
    ⟨_, result⟩ | ⟨mmu, block, result, writes, _⟩
  · rw [result]
    exact noVideo
  · rw [result]
    constructor
    · exact (congrFun writes.vidmapPgTab1 0).trans noVideo.video
    · exact (congrFun writes.pageDir _).trans
        ((s.pagingExecute_directory t.number).trans noVideo.directory)

theorem PowerOn.entry_noVideo (on : PowerOn s) (buffers : TerminalId → List UInt8) :
    NoVideo (s.entry bootBlock buffers) := by
  have fresh := on.fresh
  have none : NoVideo s.initDevices := ⟨rfl, rfl⟩
  have printed : Fresh (s.initDevices.printf "Enabling Interrupts\n") :=
    fresh.of_output (State.printf_output fresh.sound.valid _)
  have output := Display.clearOn_output (t := s.proc.activeTerminal) printed.sound.valid.window
  have cleared := printed.of_output output
  have start := (none.of_same (.of_output _ (State.printf_output fresh.sound.valid _))).of_same
    (.of_output _ output)
  have shell1 := start.createTerminalShell bootBlock cleared .terminal1 (buffers .terminal1)
  have first := (cleared.shellCreated bootBlock .terminal1 (buffers .terminal1)).1
  have shell2 := shell1.createTerminalShell bootBlock first .terminal2 (buffers .terminal2)
  have second := (first.shellCreated bootBlock .terminal2 (buffers .terminal2)).1
  have shell3 := shell2.createTerminalShell bootBlock second .terminal3 (buffers .terminal3)
  exact ⟨shell3.video, shell3.directory⟩

theorem PowerOn.entry_videoSound (on : PowerOn s) (buffers : TerminalId → List UInt8) :
    VideoSound (s.entry bootBlock buffers) :=
  ⟨(on.entry_fresh bootBlock buffers).1.sound, .inl (on.entry_noVideo buffers).directory⟩

theorem PowerOn.entry_follows (on : PowerOn s) (buffers : TerminalId → List UInt8) :
    VideoFollowsProcess (s.entry bootBlock buffers) :=
  fun _ active => absurd (on.entry_fresh bootBlock buffers).1.activePid active

theorem PowerOn.entry_onOwnScreen (on : PowerOn s) (buffers : TerminalId → List UInt8) :
    VideoOnOwnScreen (s.entry bootBlock buffers) := by
  refine .of_address (on.entry_videoSound buffers) fun _ present => ?_
  rw [(on.entry_noVideo buffers).video] at present
  cases present

/-- From the `hlt` loop of `entry` on, in every order of steps: the video page follows the
    active process in every state if and only if no step starts a program for a process that
    has the page. -/
theorem video_follows_process_iff (on : PowerOn s) {buffers : TerminalId → List UInt8}
    {as : List VideoAction} {later : State}
    (run : (videoMachine bootBlock).Run (s.entry bootBlock buffers) as later) :
    (videoMachine bootBlock).Always VideoFollowsProcess (s.entry bootBlock buffers) as ↔
      (videoMachine bootBlock).EachStep (fun s action => ¬ InheritsVideo bootBlock s action)
        (s.entry bootBlock buffers) as :=
  (on.entry_videoSound buffers).follows_iff (on.entry_follows buffers) run

/-- And it is on the screen of the active terminal in every state if and only if no step is a
    `vidmap` call in the background. -/
theorem video_on_own_screen_iff (on : PowerOn s) {buffers : TerminalId → List UInt8}
    {as : List VideoAction} {later : State}
    (run : (videoMachine bootBlock).Run (s.entry bootBlock buffers) as later) :
    (videoMachine bootBlock).Always VideoOnOwnScreen (s.entry bootBlock buffers) as ↔
      (videoMachine bootBlock).EachStep (fun s action => ¬ BackgroundVidmap s action)
        (s.entry bootBlock buffers) as :=
  (on.entry_videoSound buffers).onOwnScreen_iff (on.entry_onOwnScreen buffers) run

end Boot

section Examples

variable {s : State} {bootBlock : Option Image}

theorem State.entry_currentTerminal (buffers : TerminalId → List UInt8) (s : State) :
    (s.entry bootBlock buffers).display.currentTerminal = s.display.currentTerminal := by
  have created (t : TerminalId) (s : State) (stack : List UInt8) :
      (s.createTerminalShell t bootBlock stack).display.currentTerminal =
        s.display.currentTerminal := by
    simp only [createTerminalShell]
    split
    · rfl
    · split
      · apply andThen_keeps _ (fun s : State => s.display.currentTerminal)
        · exact Display.withMmu_currentTerminal _ _
        · intro s
          split
          · rfl
          · exact exceptionHandler_currentTerminal s PAGE_FAULT
      · rfl
  simp only [entry, createTerminal1Shell, createTerminal2Shell, createTerminal3Shell, created,
    Display.clear, Display.clearOn_currentTerminal, printf, Display.printf_currentTerminal]
  rfl

/-- The timer enters the shell of terminal 2, which asks for the video page. -/
theorem Fresh.shell_asks (bootBlock : Option Image) (fresh : Fresh s) (context : Context) :
    ∃ shell asked, (videoMachine bootBlock).Run s [.kernel (.schedule context)] shell ∧
      Sound shell ∧ shell.faulted = false ∧ shell.proc.activePid = 2 ∧
      shell.proc.activeTerminal = .terminal2 ∧
      shell.display.currentTerminal = s.display.currentTerminal ∧
      (videoMachine bootBlock).Run shell [.vidmap VIRTUAL_128MB_START] asked ∧ Sound asked ∧
      asked.faulted = false ∧ asked.proc.activePid = 2 ∧
      (asked.proc.pcb 2).vidmapFlag = 1 ∧ asked.proc.processCount = s.proc.processCount ∧
      asked.proc.processes = s.proc.processes := by
  obtain ⟨sound, proc, shown⟩ := fresh.scheduled bootBlock context
  have first : (videoMachine bootBlock).Run s [.kernel (.schedule context)]
      (s.step bootBlock (.schedule context)) := .cons ⟨fresh.running, trivial⟩ (.nil _)
  generalize s.step bootBlock (.schedule context) = shell at sound proc shown first
  have running : shell.faulted = false := sound.valid.fault
  have active : shell.proc.activePid = 2 := by rw [proc]; rfl
  have valid : ScreenStartValid VIRTUAL_128MB_START := ⟨Nat.le_refl _, by decide⟩
  have current : shell.proc.activePid ≠ 0 := by rw [active]; decide
  obtain ⟨mmu, asks, writes⟩ := syscallVidmap_effect sound current valid
  have soundAsked : Sound (shell.syscallVidmap VIRTUAL_128MB_START) :=
    syscallVidmap_sound sound current _
  refine ⟨shell, _, first, sound, running, active, by rw [proc]; rfl, shown,
    .cons ⟨running, current⟩ (.nil _), soundAsked, ?_⟩
  rw [show (videoMachine bootBlock).next shell (.vidmap VIRTUAL_128MB_START) = _ from asks]
  refine ⟨writes.fault.trans sound.valid.fault, active, ?_, ?_, ?_⟩
  · simp [active, Proc.setPcb]
  · show shell.proc.processCount = s.proc.processCount
    rw [proc]
    rfl
  · show shell.proc.processes = s.proc.processes
    rw [proc]
    rfl

/-- A process that the shell then starts has the page without asking. -/
theorem Fresh.child_inherits (fresh : Fresh s) (videoSound : VideoSound s) (context : Context) :
    ∃ later, (videoMachine (some shellImage)).Run s
        [.kernel (.schedule context), .vidmap VIRTUAL_128MB_START,
          .kernel (.execute [] State.shellName context)] later ∧
      ¬ (videoMachine (some shellImage)).Always VideoFollowsProcess s
        [.kernel (.schedule context), .vidmap VIRTUAL_128MB_START,
          .kernel (.execute [] State.shellName context)] := by
  obtain ⟨shell, asked, first, _, _, _, _, _, second, _, running, active, flag, count, pool⟩ :=
    fresh.shell_asks (some shellImage) context
  have current : asked.proc.activePid ≠ 0 := by rw [active]; decide
  have third : (videoMachine (some shellImage)).Run asked
      [.kernel (.execute [] State.shellName context)] _ :=
    .cons ⟨running, current⟩ (.nil _)
  have run := first.append (second.append third)
  refine ⟨_, run, fun always => ?_⟩
  have follows : VideoFollowsProcess s := fun _ active => absurd fresh.activePid active
  have each := (videoSound.follows_iff follows run).mp always
  rw [first.eachStep_append, second.eachStep_append] at each
  refine each.2.2.1 ⟨shell_starts (count.trans fresh.processCount) context, ?_, 4, ?_, ?_⟩
  · rw [active, flag]
  · rw [active]
    decide
  · simp only [pool, fresh.processes]
    decide

theorem child_has_video_page_of_parent :
    ∃ later, (videoMachine (some shellImage)).Run
        (poweredOn.entry (some shellImage) (fun _ => []))
        [.kernel (.schedule ⟨0x7FFF00, 0x7FFF80⟩), .vidmap VIRTUAL_128MB_START,
          .kernel (.execute [] State.shellName ⟨0x7FFF00, 0x7FFF80⟩)] later ∧
      ¬ (videoMachine (some shellImage)).Always VideoFollowsProcess
        (poweredOn.entry (some shellImage) (fun _ => []))
        [.kernel (.schedule ⟨0x7FFF00, 0x7FFF80⟩), .vidmap VIRTUAL_128MB_START,
          .kernel (.execute [] State.shellName ⟨0x7FFF00, 0x7FFF80⟩)] :=
  (poweredOn_powerOn.entry_fresh (some shellImage) (fun _ => [])).1.child_inherits
    (poweredOn_powerOn.entry_videoSound _) _

theorem background_vidmap_maps_the_display :
    ∃ later, (videoMachine (some shellImage)).Run
        (poweredOn.entry (some shellImage) (fun _ => []))
        [.kernel (.schedule ⟨0x7FFF00, 0x7FFF80⟩), .vidmap VIRTUAL_128MB_START] later ∧
      ¬ (videoMachine (some shellImage)).Always VideoOnOwnScreen
        (poweredOn.entry (some shellImage) (fun _ => []))
        [.kernel (.schedule ⟨0x7FFF00, 0x7FFF80⟩), .vidmap VIRTUAL_128MB_START] := by
  have fresh := (poweredOn_powerOn.entry_fresh (some shellImage) (fun _ => [])).1
  obtain ⟨shell, asked, first, _, _, _, terminal, displayed, second, _⟩ :=
    fresh.shell_asks (some shellImage) ⟨0x7FFF00, 0x7FFF80⟩
  have run := first.append second
  refine ⟨_, run, fun always => ?_⟩
  have each := ((poweredOn_powerOn.entry_videoSound _).onOwnScreen_iff
    (poweredOn_powerOn.entry_onOwnScreen _) run).mp always
  rw [first.eachStep_append] at each
  refine each.2.1 ⟨⟨Nat.le_refl _, by decide⟩, ?_⟩
  rw [terminal, displayed, State.entry_currentTerminal]
  decide

theorem entered_shell_has_own_video :
    (videoMachine (some shellImage)).Always VideoFollowsProcess
        (poweredOn.entry (some shellImage) (fun _ => [])) [.kernel (.schedule ⟨0x7FFF00, 0x7FFF80⟩),
          .vidmap VIRTUAL_128MB_START] ↔
      (videoMachine (some shellImage)).EachStep
        (fun s action => ¬ InheritsVideo (some shellImage) s action)
        (poweredOn.entry (some shellImage) (fun _ => [])) [.kernel (.schedule ⟨0x7FFF00, 0x7FFF80⟩),
          .vidmap VIRTUAL_128MB_START] := by
  have fresh := (poweredOn_powerOn.entry_fresh (some shellImage) (fun _ => [])).1
  obtain ⟨shell, asked, first, _, _, _, _, _, second, _⟩ :=
    fresh.shell_asks (some shellImage) ⟨0x7FFF00, 0x7FFF80⟩
  exact video_follows_process_iff poweredOn_powerOn (first.append second)

theorem Going.vidmap (going : Going s) (screenStart : Nat) :
    Going (s.syscallVidmap screenStart) := by
  have sound := syscallVidmap_sound going.sound going.active screenStart
  by_cases valid : ScreenStartValid screenStart
  · obtain ⟨mmu, result, _⟩ := syscallVidmap_effect going.sound going.active valid
    rw [result] at sound ⊢
    refine ⟨sound, going.homed.of_links ⟨fun pid => ?_, fun pid => ?_⟩ rfl rfl rfl, going.active⟩
      <;> by_cases this : pid = s.proc.activePid <;> simp [Proc.setPcb, this]
  · rw [syscallVidmap_invalid valid] at sound ⊢
    exact ⟨sound, going.homed, going.active⟩

def VideoAction.InUserPage : VideoAction → Prop
  | .kernel action => action.InUserPage
  | .vidmap _ => True

/-- Once a process runs, any steps are a run here as well. -/
theorem Going.videoRun (going : Going s) (bootBlock : Option Image) {as : List VideoAction}
    (inPage : ∀ action ∈ as, action.InUserPage) :
    ∃ later, (videoMachine bootBlock).Run s as later ∧ Going later := by
  refine Machine.Run.of_invariant (fun action member s going => ?_) going
  cases action with
  | kernel action => exact going.step bootBlock (inPage _ member)
  | vidmap screenStart => exact ⟨⟨going.running, going.active⟩, going.vidmap screenStart⟩

theorem PowerOn.videoRun (on : PowerOn s) {buffers : TerminalId → List UInt8}
    (found : ∀ t, ShellFound bootBlock (buffers t)) (context : Context) {as : List VideoAction}
    (inPage : ∀ action ∈ as, action.InUserPage) :
    ∃ later, (videoMachine bootBlock).Run (s.entry bootBlock buffers)
        (.kernel (.schedule context) :: as) later ∧ Going later := by
  obtain ⟨fresh, roots⟩ := on.entry_fresh bootBlock buffers
  obtain ⟨later, run, going⟩ :=
    (fresh.going bootBlock (roots found) context).videoRun bootBlock inPage
  exact ⟨later, .cons ⟨fresh.running, trivial⟩ run, going⟩

/-- The timer goes round to terminal 1, whose shell asks for the video page. -/
theorem Fresh.displayed_asks (bootBlock : Option Image) (fresh : Fresh s)
    (roots : ∀ t, RootBlock s t) (displayed : s.display.currentTerminal = .terminal1)
    (context : Context) :
    ∃ asked, (videoMachine bootBlock).Run s
        [.kernel (.schedule context), .kernel (.schedule context), .kernel (.schedule context),
          .vidmap VIRTUAL_128MB_START] asked ∧
      (videoMachine bootBlock).EachStep (fun s action => ¬ BackgroundVidmap s action) s
        [.kernel (.schedule context), .kernel (.schedule context), .kernel (.schedule context),
          .vidmap VIRTUAL_128MB_START] ∧
      Going asked ∧ asked.video.present = true := by
  have inPage : (Action.schedule context).InUserPage := trivial
  have going1 := fresh.going bootBlock roots context
  obtain ⟨turn1, same1⟩ := fresh.sound.scheduled bootBlock context
  obtain ⟨able2, going2⟩ := going1.step bootBlock inPage
  obtain ⟨turn2, same2⟩ := going1.sound.scheduled bootBlock context
  obtain ⟨able3, going3⟩ := going2.step bootBlock inPage
  obtain ⟨turn3, same3⟩ := going2.sound.scheduled bootBlock context
  have valid : ScreenStartValid VIRTUAL_128MB_START := ⟨Nat.le_refl _, by decide⟩
  refine ⟨_, .cons ⟨fresh.running, trivial⟩ (.cons able2 (.cons able3
    (.cons ⟨going3.running, going3.active⟩ (.nil _)))), ⟨id, id, id, ?_, trivial⟩,
    going3.vidmap VIRTUAL_128MB_START, ?_⟩
  · rintro ⟨_, background⟩
    rw [turn2, turn1, fresh.activeTerminal] at turn3
    exact background (turn3.trans (same3.trans (same2.trans (same1.trans displayed))).symm)
  · obtain ⟨mmu, result, writes⟩ := syscallVidmap_effect going3.sound going3.active valid
    simp only [videoMachine] at result ⊢
    rw [result, State.video, writes.vidmapPgTab1]
    simp [Mmu.enableVidmapPaging]

theorem displayed_vidmap_is_on_own_screen :
    ∃ asked later, (videoMachine (some shellImage)).Run
        (poweredOn.entry (some shellImage) (fun _ => []))
        [.kernel (.schedule ⟨0x7FFF00, 0x7FFF80⟩), .kernel (.schedule ⟨0x7FFF00, 0x7FFF80⟩),
          .kernel (.schedule ⟨0x7FFF00, 0x7FFF80⟩), .vidmap VIRTUAL_128MB_START] asked ∧
      asked.video.present = true ∧
      (videoMachine (some shellImage)).Run asked
        [.kernel (.schedule ⟨0x7FBF00, 0x7FBF80⟩), .kernel (.switchTo .terminal2)] later ∧
      (videoMachine (some shellImage)).Always VideoOnOwnScreen
        (poweredOn.entry (some shellImage) (fun _ => []))
        [.kernel (.schedule ⟨0x7FFF00, 0x7FFF80⟩), .kernel (.schedule ⟨0x7FFF00, 0x7FFF80⟩),
          .kernel (.schedule ⟨0x7FFF00, 0x7FFF80⟩), .vidmap VIRTUAL_128MB_START,
          .kernel (.schedule ⟨0x7FBF00, 0x7FBF80⟩), .kernel (.switchTo .terminal2)] := by
  obtain ⟨fresh, roots⟩ := poweredOn_powerOn.entry_fresh (some shellImage) (fun _ => [])
  obtain ⟨asked, first, inFront, going, present⟩ := fresh.displayed_asks (some shellImage)
    (roots fun _ => shellImage_found []) (State.entry_currentTerminal _ _) ⟨0x7FFF00, 0x7FFF80⟩
  obtain ⟨later, rest, _⟩ : ∃ later, (videoMachine (some shellImage)).Run asked
      [.kernel (.schedule ⟨0x7FBF00, 0x7FBF80⟩), .kernel (.switchTo .terminal2)] later ∧
        Going later :=
    going.videoRun (some shellImage) (by simp [VideoAction.InUserPage, Action.InUserPage])
  exact ⟨asked, later, first, present, rest,
    (video_on_own_screen_iff poweredOn_powerOn (first.append rest)).mpr
      (first.eachStep_append.mpr ⟨inFront, id, id, trivial⟩)⟩

end Examples

end LightOS.Kernel
