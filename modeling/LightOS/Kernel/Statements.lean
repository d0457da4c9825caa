import LightOS.Kernel.Weaving

/-! # The statements of `execute` and `halt`

One statement after the other: the state is woven again, and nothing changes in the terminals that
are not active.
-/

namespace LightOS.Kernel

open Lib Filesystem Descriptor

section Execute

variable {s after : Interleaved} {strands : TerminalId → Strand} {bootBlock : Option Image}
  {pc next : ExecutePc} {call call' : ExecuteCall}

theorem ExecutePc.linked_of_placed (placed : pc.placed = true) : pc.linked = true := by
  cases pc <;> first | rfl | cases placed

/-- Outside the stores into the new control block nothing is said about it. -/
theorem ExecuteCall.Follows.plain {pcb : Nat → Pcb} {t : TerminalId} {top : Nat}
    (unlinked : pc.linked = false) : call.Follows pcb t top pc where
  parentPid linked := by
    rw [unlinked] at linked
    cases linked
  terminal placed := by
    rw [ExecutePc.linked_of_placed placed] at unlinked
    cases unlinked
  located := by rintro (rfl | rfl) <;> cases unlinked

/-- From one linked statement to the next. -/
theorem ExecuteCall.Follows.linked {pcb : Nat → Pcb} {t : TerminalId} {top : Nat}
    (follows : call.Follows pcb t top pc) (linked : pc.linked = true) (placed : pc.placed = true)
    (same : call'.newProcessId = call.newProcessId)
    (located : next = .storeEsp ∨ next = .storeEbp → call'.currentPcb = top) :
    call'.Follows pcb t top next where
  parentPid _ := by rw [same, follows.parentPid linked]
  terminal _ := by rw [same, follows.terminal placed]
  located := located

theorem Woven.execute_stage (woven : Woven s strands) (running : s.running = .execute pc call) :
    (strands s.proc.activeTerminal).stage = pc.stage call.newProcessId := by
  rw [woven.running_stage, running]
  rfl

theorem Woven.execute_follows (woven : Woven s strands) (running : s.running = .execute pc call) :
    call.Follows s.proc.pcb s.proc.activeTerminal (strands s.proc.activeTerminal).top pc := by
  have follows := woven.follows
  rwa [running] at follows

theorem ExecutePc.stage_busy (pc : ExecutePc) (pid : Nat) :
    pc.stage pid ≠ .idle ∧ pc.stage pid ≠ .lost ∧ pc.stage pid ≠ .released := by
  cases pc <;> simp [ExecutePc.stage]

/-- On to a statement with the same stage. -/
theorem Woven.continues (woven : Woven s strands) (running : s.running = .execute pc call)
    (same : after.tables = s.tables) (path : after.running = .execute next call')
    (stage : next.stage call'.newProcessId = pc.stage call.newProcessId)
    (follows : call'.Follows s.proc.pcb s.proc.activeTerminal
      (strands s.proc.activeTerminal).top next) : Advanced s after := by
  obtain ⟨notIdle, alive, _⟩ := pc.stage_busy call.newProcessId
  have isStage : s.running.stage = pc.stage call.newProcessId := by
    rw [running]
    rfl
  refine woven.goes same (by rwa [isStage]) (by rwa [isStage]) ?_ ?_
  · rw [isStage, path]
    exact stage
  · rw [path]
    exact follows

/-- Back to user code. -/
theorem Woven.returns (woven : Woven s strands) (settled : s.running.stage = .settled)
    (same : after.tables = s.tables) (path : after.running = .user) :
    Advanced s after := by
  refine woven.goes same (by rw [settled]; simp) (by rw [settled]; simp) ?_ ?_
  · rw [settled, path]
    rfl
  · rw [path]
    trivial

/-- The new pid becomes the current process of the terminal. -/
theorem Woven.installs (woven : Woven s strands)
    (running : s.running = .execute .setCurrentProcess call) :
    Advanced s (s.executeStatement bootBlock call .setCurrentProcess) := by
  have own := woven.execute_stage running
  have follows := woven.execute_follows running
  refine woven.keeps (.installed call.newProcessId) rfl (by simp) (by simp) rfl rfl
    rfl (by rw [own]; simp [ExecutePc.stage]) (by rw [own]; rfl)
    (by rw [own]; simp [ExecutePc.stage])
    ⟨?_, fun pid _ => .refl _, fun pid _ => rfl⟩ (fun pid _ => ⟨rfl, rfl⟩) (fun pid _ => rfl) ?_
    (fun holds => by cases holds) (follows.linked rfl rfl rfl fun located => (by simp at located))
  · intro t other
    exact Function.update_of_ne other _ _
  · exact Function.update_self ..

/-- The stores of `esp` and `ebp` into the control block of the caller. -/
theorem Woven.stores (woven : Woven s strands) {block : Pcb} {saved : Option Saved}
    (running : s.running = .execute pc call) (storing : pc = .storeEsp ∨ pc = .storeEbp)
    (stage : next.stage call.newProcessId = .installed call.newProcessId ∨
      (next.stage call.newProcessId = .framed call.newProcessId ∧ saved = some .frame))
    (same : block.SameKin (s.proc.pcb call.currentPcb)) :
    Advanced s
      { proc := s.proc.setPcb call.currentPcb block
        running := .execute next call
        saved := Function.update s.saved call.currentPcb saved } := by
  have own : (strands s.proc.activeTerminal).stage = .installed call.newProcessId := by
    rw [woven.execute_stage running]
    rcases storing with rfl | rfl <;> rfl
  have follows := woven.execute_follows running
  have isLinked : pc.linked = true ∧ pc.placed = true := by
    rcases storing with rfl | rfl <;> exact ⟨rfl, rfl⟩
  have located : call.currentPcb = (strands s.proc.activeTerminal).top := follows.located storing
  obtain ⟨rest, top⟩ := woven.entered (t := s.proc.activeTerminal) (by rw [own]; simp)
  have isOwned : call.currentPcb ∈ (strands s.proc.activeTerminal).owned := by
    rw [located]
    exact Strand.mem_owned.mpr (.inr (by rw [top]; exact List.mem_cons_self ..))
  have nodup := woven.wellFormed.stack_nodup s.proc.activeTerminal
  rw [top, List.nodup_cons, ← located] at nodup
  have kin (pid : Nat) : ((s.proc.setPcb call.currentPcb block).pcb pid).SameKin
      (s.proc.pcb pid) := by
    by_cases this : pid = call.currentPcb
    · simp only [Proc.setPcb, this, Function.update_self]
      exact same
    · simp only [Proc.setPcb, Function.update_of_ne this]
      exact .refl _
  have isStage : next.stage call.newProcessId = .installed call.newProcessId ∨
      next.stage call.newProcessId = .framed call.newProcessId := stage.imp_right And.left
  refine woven.keeps (next.stage call.newProcessId) rfl ?_ ?_ rfl rfl rfl ?_ ?_ ?_
    ⟨fun t _ => rfl, fun pid _ => kin pid, fun pid foreign => ?_⟩
    (fun pid _ => ⟨(kin pid).parentPid, (kin pid).terminal⟩) (fun pid below => ?_) ?_
    (fun holds => ?_) ?_
  · rcases isStage with stage | stage <;> simp [stage]
  · rcases isStage with stage | stage <;> simp [stage]
  · simp [own]
  · rcases isStage with stage | stage <;> simp [stage, own, Stage.reserved]
  · rcases isStage with stage | stage <;> simp [stage, own]
  · have other : pid ≠ call.currentPcb := fun same => foreign (same ▸ isOwned)
    exact Function.update_of_ne other _ _
  · rw [top, List.tail_cons] at below
    have other : pid ≠ call.currentPcb := fun same => nodup.1 (same ▸ below)
    exact Function.update_of_ne other _ _
  · have current := (woven.thread s.proc.activeTerminal).current
    rw [own] at current
    rcases isStage with stage | stage <;> rw [stage] <;> exact current
  · rcases stage with stage | ⟨_, isFrame⟩
    · rw [stage] at holds
      cases holds
    · rw [woven.active, ← located, isFrame]
      exact Function.update_self ..
  · have linkedThere : call.Follows (s.proc.setPcb call.currentPcb block).pcb
        s.proc.activeTerminal (strands s.proc.activeTerminal).top pc :=
      follows.of_same fun _ => kin _
    exact linkedThere.linked isLinked.1 isLinked.2 rfl fun _ => located

/-- The lowest free pid is on no stack, unless its process is still halting. -/
theorem Woven.pid_new (woven : Woven s strands) (running : s.running = .execute .getProcess call)
    {pid : Nat} (found : (List.range 7).find? (fun i => s.proc.processes i = 0) = some pid)
    (calm : ¬ HandsOutHalting s .statement) (t : TerminalId) : pid ∉ (strands t).owned := by
  intro owns
  obtain ⟨free, _⟩ := Proc.free_of_find found
  rcases Strand.taken_or_released owns with taken | ⟨released, onTop⟩
  · have allocated := (woven.allocated pid).mpr (.inr ⟨t, taken⟩)
    omega
  · have stage := (woven.thread t).stage
    have follows := (woven.thread t).follows
    rw [released] at stage
    cases isPath : s.path t with
    | idle | user | lost => rw [isPath] at stage; cases stage
    | execute pc call =>
        rw [isPath] at stage
        exact absurd stage (pc.stage_busy call.newProcessId).2.2
    | halt pc halting =>
        rw [isPath] at stage follows
        have top : (strands t).stack.head? = some halting.pid := by
          cases pc with
          | close i | readParent | setActivePid => exact follows.1.top
          | _ => cases stage
        obtain rfl : pid = halting.pid := Option.some.inj (onTop.symm.trans top)
        have isReleased : s.releasedPid t = some halting.pid := by
          have past : pc.hasReleased = true := by cases pc <;> first | rfl | cases stage
          simp only [Interleaved.releasedPid, isPath, past, if_true]
        refine calm ⟨by rw [running]; rfl, t, by simp [isReleased], ?_⟩
        rw [Proc.getProcessAvailable, found, isReleased]

theorem Woven.execute (woven : Woven s strands) (running : s.running = .execute pc call)
    (calm : ¬ HandsOutHalting s .statement) :
    Advanced s (s.executeStatement bootBlock call pc) := by
  have follows := woven.execute_follows running
  have own := woven.execute_stage running
  have settled (isSettled : pc.stage call.newProcessId = .settled) :
      s.running.stage = .settled := by
    rw [running]
    exact isSettled
  cases pc with
  | checkCount =>
      simp only [Interleaved.executeStatement]
      split
      · exact woven.continues running rfl rfl rfl (.plain rfl)
      · exact woven.continues running rfl rfl rfl (.plain rfl)
  | refuse => exact woven.returns (settled rfl) rfl rfl
  | clearArgumentExist => exact woven.continues running rfl rfl rfl (.plain rfl)
  | checkLength =>
      simp only [Interleaved.executeStatement]
      split
      · exact woven.continues running rfl rfl rfl (.plain rfl)
      · exact woven.continues running rfl rfl rfl (.plain rfl)
  | clearArgBuf => exact woven.continues running rfl rfl rfl (.plain rfl)
  | parseName => exact woven.continues running rfl rfl rfl (.plain rfl)
  | parseArgument =>
      simp only [Interleaved.executeStatement, Interleaved.parseArgument]
      split_ifs
      all_goals exact woven.continues running rfl rfl rfl (.plain rfl)
  | noteArgument => exact woven.continues running rfl rfl rfl (.plain rfl)
  | findProgram =>
      simp only [Interleaved.executeStatement]
      split
      · exact woven.returns (settled rfl) rfl rfl
      · exact woven.continues running rfl rfl rfl (.plain rfl)
  | countProcess => exact woven.continues running rfl rfl rfl (.plain rfl)
  | getProcess =>
      cases found : (List.range 7).find? (fun i => s.proc.processes i = 0) with
      | none =>
          simp only [Interleaved.executeStatement, Proc.getProcessAvailable, found]
          exact woven.continues running rfl rfl rfl (.plain rfl)
      | some pid =>
          obtain ⟨free, small⟩ := Proc.free_of_find found
          have child : 4 ≤ pid := by
            by_contra few
            have taken := (woven.allocated pid).mpr (.inl (by omega))
            omega
          simp only [Interleaved.executeStatement, Proc.getProcessAvailable, found]
          exact woven.reserves own (woven.pid_new running found calm) child small rfl rfl rfl
  | initDescriptors =>
      exact woven.fills running rfl rfl rfl rfl (fun pid _ => rfl) (.plain rfl)
  | setCurrentPid =>
      exact woven.fills running rfl rfl rfl rfl (fun pid _ => rfl) (.plain rfl)
  | setParentPid =>
      refine woven.fills running rfl rfl rfl rfl (fun pid _ => rfl)
        ⟨fun _ => ?_, fun placed => (by cases placed), fun located => (by simp at located)⟩
      simp [Interleaved.executeStatement, Interleaved.fill, Proc.setPcb, woven.active]
  | setCurrentEsp =>
      refine woven.fills running rfl rfl rfl rfl (fun pid old => Function.update_of_ne old _ _)
        ⟨fun _ => ?_, fun placed => (by cases placed), fun located => (by simp at located)⟩
      simpa [Interleaved.executeStatement, Interleaved.fill, Proc.setPcb] using
        follows.parentPid rfl
  | setCurrentEbp =>
      refine woven.fills running rfl rfl rfl rfl (fun pid old => Function.update_of_ne old _ _)
        ⟨fun _ => ?_, fun placed => (by cases placed), fun located => (by simp at located)⟩
      simpa [Interleaved.executeStatement, Interleaved.fill, Proc.setPcb] using
        follows.parentPid rfl
  | setCurrentEip =>
      refine woven.fills running rfl rfl rfl rfl (fun pid _ => rfl)
        ⟨fun _ => ?_, fun placed => (by cases placed), fun located => (by simp at located)⟩
      simpa [Interleaved.executeStatement, Interleaved.fill, Proc.setPcb] using
        follows.parentPid rfl
  | setVidmapFlag =>
      refine woven.fills running rfl rfl rfl rfl (fun pid _ => rfl)
        ⟨fun _ => ?_, fun placed => (by cases placed), fun located => (by simp at located)⟩
      simpa [Interleaved.executeStatement, Interleaved.fill, Proc.setPcb] using
        follows.parentPid rfl
  | setTerminal =>
      refine woven.fills running rfl rfl rfl rfl (fun pid _ => rfl)
        ⟨fun _ => ?_, fun _ => ?_, fun located => (by simp at located)⟩
      · simpa [Interleaved.executeStatement, Interleaved.fill, Proc.setPcb] using
          follows.parentPid rfl
      · simp [Interleaved.executeStatement, Interleaved.fill, Proc.setPcb]
  | copyArgBuf =>
      refine woven.fills running rfl rfl rfl rfl (fun pid _ => rfl)
        ⟨fun _ => ?_, fun _ => ?_, fun located => (by simp at located)⟩
      · simpa [Interleaved.executeStatement, Interleaved.fill, Proc.setPcb] using
          follows.parentPid rfl
      · simpa [Interleaved.executeStatement, Interleaved.fill, Proc.setPcb] using
          follows.terminal rfl
  | setCurrentProcess => exact woven.installs running
  | pagingExecute =>
      exact woven.continues running rfl rfl rfl
        (follows.linked rfl rfl rfl fun located => (by simp at located))
  | pagingVideoMemory =>
      exact woven.continues running rfl rfl rfl
        (follows.linked rfl rfl rfl fun located => (by simp at located))
  | loadProgram =>
      exact woven.continues running rfl rfl rfl
        (follows.linked rfl rfl rfl fun located => (by simp at located))
  | locateCurrent =>
      exact woven.continues running rfl rfl rfl (follows.linked rfl rfl rfl fun _ => woven.active)
  | storeEsp => exact woven.stores running (.inl rfl) (.inl rfl) ⟨rfl, rfl, rfl⟩
  | storeEbp => exact woven.stores running (.inr rfl) (.inr ⟨rfl, rfl⟩) ⟨rfl, rfl, rfl⟩
  | setActivePid =>
      exact woven.pushes own (follows.parentPid rfl) (follows.terminal rfl) rfl rfl rfl
  | setEsp0 => exact woven.continues running rfl rfl rfl (.plain rfl)
  | contextSwitch => exact woven.returns (settled rfl) rfl rfl

end Execute

section Halt

variable {s after : Interleaved} {strands : TerminalId → Strand} {pc next : HaltPc}
  {call call' : HaltCall}

theorem HaltPc.stage_busy (pc : HaltPc) (pid : Nat) :
    pc.stage pid ≠ .idle ∧ pc.stage pid ≠ .lost := by
  cases pc <;> simp [HaltPc.stage]

theorem Woven.halt_stage (woven : Woven s strands) (running : s.running = .halt pc call) :
    (strands s.proc.activeTerminal).stage = pc.stage call.pid := by
  rw [woven.running_stage, running]
  rfl

theorem Woven.halt_follows (woven : Woven s strands) (running : s.running = .halt pc call) :
    call.Follows s.proc.pcb s.proc.activeTerminal (strands s.proc.activeTerminal).stack pc := by
  have follows := woven.follows
  rwa [running] at follows

theorem Woven.halt_continues (woven : Woven s strands) (running : s.running = .halt pc call)
    (same : after.tables = s.tables) (path : after.running = .halt next call')
    (stage : next.stage call'.pid = pc.stage call.pid)
    (follows : call'.Follows s.proc.pcb s.proc.activeTerminal
      (strands s.proc.activeTerminal).stack next) :
    Advanced s after := by
  obtain ⟨notIdle, alive⟩ := pc.stage_busy call.pid
  have isStage : s.running.stage = pc.stage call.pid := by
    rw [running]
    rfl
  refine woven.goes same (by rwa [isStage]) (by rwa [isStage]) ?_ ?_
  · rw [isStage, path]
    exact stage
  · rw [path]
    exact follows

/-- The active process is on top of the stack of its terminal. -/
theorem Woven.active_top (woven : Woven s strands)
    (entered : (strands s.proc.activeTerminal).stage ≠ .idle) :
    (strands s.proc.activeTerminal).stack.head? = some s.proc.activePid := by
  obtain ⟨rest, top⟩ := woven.entered entered
  rw [woven.active, top, List.head?_cons, Strand.top_of_cons top]

theorem Woven.active_owned (woven : Woven s strands)
    (entered : (strands s.proc.activeTerminal).stage ≠ .idle) :
    s.proc.activePid ∈ (strands s.proc.activeTerminal).owned :=
  Strand.mem_owned.mpr (.inr (List.mem_of_mem_head? (woven.active_top entered)))

/-- It is on it once. -/
theorem Woven.active_not_below (woven : Woven s strands)
    (entered : (strands s.proc.activeTerminal).stage ≠ .idle) :
    s.proc.activePid ∉ (strands s.proc.activeTerminal).stack.tail := by
  obtain ⟨rest, top⟩ := woven.entered entered
  have nodup := woven.wellFormed.stack_nodup s.proc.activeTerminal
  rw [top, List.nodup_cons, ← woven.active] at nodup
  rw [top]
  exact nodup.1

/-- The root shell of a terminal is started again. -/
theorem Woven.reenters (woven : Woven s strands) {t : TerminalId}
    (own : (strands s.proc.activeTerminal).stage = .settled)
    (root : (strands s.proc.activeTerminal).stack.head? = some t.number) :
    Advanced s { s with proc := s.proc.entered t, running := .user } := by
  have onTop := woven.active_top (by rw [own]; simp)
  have active : s.proc.activePid = t.number := Option.some.inj (onTop.symm.trans root)
  obtain rfl : t = s.proc.activeTerminal := by
    by_contra other
    refine woven.wellFormed.root_elsewhere other ?_
    rw [← active]
    exact woven.active_owned (by rw [own]; simp)
  have current := (woven.thread s.proc.activeTerminal).current
  rw [own] at current
  refine woven.keeps .settled rfl (by simp) (by simp) rfl active.symm rfl
    (by rw [own]; simp) (by rw [own]) (by rw [own]) ⟨?_, fun pid _ => .refl _, fun pid _ => rfl⟩
    (fun pid _ => ⟨rfl, rfl⟩) (fun pid _ => rfl) ?_ (fun holds => by cases holds) trivial
  · intro u other
    exact Function.update_of_ne other _ _
  · simp only [Proc.entered, Function.update_self]
    rw [← active, woven.active]
    rfl

/-- Closing looks at the descriptors only. -/
theorem close_same {pcb other : Pcb} (same : pcb.SameKin other) (fd : Int) :
    (fileDescriptorTableClose pcb fd).2.SameKin (fileDescriptorTableClose other fd).2 := by
  have pcbTail : (fileDescriptorTableClose pcb fd).2.SameTail pcb := close_tail fd
  have otherTail : (fileDescriptorTableClose other fd).2.SameTail other := close_tail fd
  refine ⟨?_, ?_, ?_⟩
  · rw [pcbTail.parentPid, otherTail.parentPid, same.parentPid]
  · rw [pcbTail.terminal, otherTail.terminal, same.terminal]
  · simp only [fileDescriptorTableClose]
    cases descriptorIndex fd with
    | none => exact same.fileDescriptorArray
    | some fd =>
        simp only [same.fileDescriptorArray]
        split
        · exact same.fileDescriptorArray
        · simp only [Pcb.setDescriptor, same.fileDescriptorArray]

/-- A descriptor of the process that halts is closed. -/
theorem Woven.closes (woven : Woven s strands) {i : Nat}
    (running : s.running = .halt (.close i) call) (inside : i < MAX_NUM_FILES) :
    Advanced s
      { s with
        proc := s.proc.setPcb call.pid (fileDescriptorTableClose (s.proc.pcb call.pid) i).2
        running := .halt (.close (i + 1)) call } := by
  have own : (strands s.proc.activeTerminal).stage = .released := woven.halt_stage running
  obtain ⟨halts, child, _⟩ := woven.halt_follows running
  have isOwned : call.pid ∈ (strands s.proc.activeTerminal).owned :=
    Strand.mem_owned.mpr (.inr (List.mem_of_mem_head? halts.top))
  have tail : (fileDescriptorTableClose (s.proc.pcb call.pid) i).2.SameTail
      (s.proc.pcb call.pid) := close_tail i
  have links (pid : Nat) :
      ((s.proc.setPcb call.pid (fileDescriptorTableClose (s.proc.pcb call.pid) i).2).pcb
          pid).parentPid = (s.proc.pcb pid).parentPid ∧
        ((s.proc.setPcb call.pid (fileDescriptorTableClose (s.proc.pcb call.pid) i).2).pcb
          pid).terminal = (s.proc.pcb pid).terminal := by
    by_cases this : pid = call.pid
    · simp only [Proc.setPcb, this, Function.update_self]
      exact ⟨tail.parentPid, tail.terminal⟩
    · simp only [Proc.setPcb, Function.update_of_ne this, and_self]
  refine woven.keeps .released rfl (by simp) (by simp) rfl rfl rfl
    (by rw [own]; simp) (by rw [own]) (by rw [own]) ⟨fun t _ => rfl, ?_, fun pid _ => rfl⟩
    (fun pid _ => links pid) (fun pid _ => rfl) ?_ (fun holds => by cases holds) ?_
  · intro pid foreign
    have other : pid ≠ call.pid := fun same => foreign (same ▸ isOwned)
    simp only [Proc.setPcb, Function.update_of_ne other]
    exact .refl _
  · have current := (woven.thread s.proc.activeTerminal).current
    rw [own] at current
    exact current
  · refine ⟨⟨halts.top, ?_⟩, child, inside⟩
    simp only [Proc.setPcb, Function.update_self, closeFirst_succ]
    exact close_same halts.own i

/-- The parent becomes the current process of the terminal. -/
theorem Woven.uninstalls (woven : Woven s strands)
    (running : s.running = .halt .setCurrentProcess call) :
    Advanced s (s.haltStatement call .setCurrentProcess) := by
  have own : (strands s.proc.activeTerminal).stage = .leaving call.pid := woven.halt_stage running
  refine woven.keeps .left rfl (by simp) (by simp) rfl rfl rfl (by rw [own]; simp)
    (by rw [own]; rfl) (by rw [own]; simp) ⟨?_, fun pid _ => .refl _, fun pid _ => rfl⟩
    (fun pid _ => ⟨rfl, rfl⟩) (fun pid _ => rfl) ?_ (fun _ => ?_) trivial
  · intro t other
    exact Function.update_of_ne other _ _
  · simp only [Interleaved.haltStatement, Proc.setCurrent, Function.update_self]
    exact woven.active
  · exact woven.framed (by rw [own]; rfl)

/-- `context_switch_halt` finds the context that the parent has left in its `execute` call. -/
theorem Woven.goesBack (woven : Woven s strands) (running : s.running = .halt .contextSwitch call) :
    Advanced s (s.haltStatement call .contextSwitch) := by
  have own : (strands s.proc.activeTerminal).stage = .left := woven.halt_stage running
  have entered : (strands s.proc.activeTerminal).stage ≠ .idle := by rw [own]; simp
  have frame : s.saved s.proc.activePid = some .frame := woven.framed (by rw [own]; rfl)
  simp only [Interleaved.haltStatement, frame]
  refine woven.keeps .settled rfl (by simp) (by simp) rfl rfl rfl entered
    (by rw [own]; rfl) (by rw [own]; simp) ⟨fun t _ => rfl, fun pid _ => .refl _, ?_⟩
    (fun pid _ => ⟨rfl, rfl⟩) ?_ ?_ (fun holds => by cases holds) trivial
  · intro pid foreign
    have other : pid ≠ s.proc.activePid := fun same => foreign (same ▸ woven.active_owned entered)
    exact Function.update_of_ne other _ _
  · intro pid below
    have other : pid ≠ s.proc.activePid :=
      fun same => woven.active_not_below entered (same ▸ below)
    exact Function.update_of_ne other _ _
  · have current := (woven.thread s.proc.activeTerminal).current
    rw [own] at current
    exact current

theorem Woven.halt (woven : Woven s strands) (running : s.running = .halt pc call) :
    Advanced s (s.haltStatement call pc) := by
  have follows := woven.halt_follows running
  have own := woven.halt_stage running
  have entered : (strands s.proc.activeTerminal).stage ≠ .idle := by
    rw [own]
    exact (pc.stage_busy call.pid).1
  have onTop := woven.active_top entered
  cases pc with
  | locatePcb =>
      refine woven.halt_continues running rfl rfl rfl ⟨⟨onTop, .refl _⟩, fun u before => ?_⟩
      obtain ⟨positive, _⟩ := State.number_range u
      have first : u.number < 1 := before
      omega
  | checkRoot t =>
      obtain ⟨halts, others⟩ := follows
      have active : call.pid = s.proc.activePid := Option.some.inj (halts.top.symm.trans onTop)
      simp only [Interleaved.haltStatement]
      split
      · rename_i root
        exact woven.halt_continues running rfl rfl rfl ⟨halts, active.trans root⟩
      · rename_i notRoot
        rw [← active] at notRoot
        cases t with
        | terminal1 =>
            refine woven.halt_continues running rfl rfl rfl ⟨halts, fun u before => ?_⟩
            cases u with
            | terminal1 => exact notRoot
            | terminal2 | terminal3 => exact absurd before (by decide)
        | terminal2 =>
            refine woven.halt_continues running rfl rfl rfl ⟨halts, fun u before => ?_⟩
            cases u with
            | terminal1 => exact others .terminal1 (by decide)
            | terminal2 => exact notRoot
            | terminal3 => exact absurd before (by decide)
        | terminal3 =>
            refine woven.halt_continues running rfl rfl rfl ⟨halts, ?_⟩
            have not1 : call.pid ≠ 1 := others .terminal1 (by decide)
            have not2 : call.pid ≠ 2 := others .terminal2 (by decide)
            have not3 : call.pid ≠ 3 := notRoot
            obtain ⟨positive, _⟩ := woven.wellFormed.nonzero (woven.active_owned entered)
            omega
  | bootEnter t =>
      obtain ⟨halts, root⟩ := follows
      exact woven.reenters own (by rw [halts.top, root])
  | uncountProcess => exact woven.halt_continues running rfl rfl rfl follows
  | releaseProcess =>
      obtain ⟨halts, child⟩ := follows
      obtain ⟨_, small⟩ := woven.wellFormed.nonzero (woven.active_owned entered)
      simp only [Interleaved.haltStatement, Proc.releaseProcess, if_neg (Nat.not_lt.mpr small)]
      exact woven.releases own halts child rfl rfl rfl
  | close i =>
      obtain ⟨halts, child, bound⟩ := follows
      simp only [Interleaved.haltStatement]
      split
      · rename_i inside
        exact woven.closes running inside
      · rename_i outside
        obtain rfl : i = MAX_NUM_FILES := Nat.le_antisymm bound (Nat.not_lt.mp outside)
        exact woven.halt_continues running rfl rfl rfl ⟨halts, child⟩
  | readParent =>
      obtain ⟨halts, child⟩ := follows
      refine woven.halt_continues running rfl rfl rfl ⟨⟨halts.top, halts.own⟩, child, ?_⟩
      obtain ⟨rest, stack⟩ := woven.entered entered
      have isTop := halts.top
      rw [stack, List.head?_cons, Option.some.injEq] at isTop
      rw [isTop] at stack
      obtain ⟨parent, below, rfl⟩ := woven.wellFormed.below stack child
      have links := (woven.thread s.proc.activeTerminal).links
      rw [stack, List.isChain_cons_cons] at links
      rw [stack, links.1]
      rfl
  | setActivePid =>
      obtain ⟨halts, child, parent⟩ := follows
      exact woven.pops own halts parent rfl rfl rfl
  | locateParent => exact woven.halt_continues running rfl rfl rfl ⟨onTop, follows.2⟩
  | setActiveTerminal =>
      have terminal : (s.proc.pcb call.parentPcb).terminal = some s.proc.activeTerminal :=
        (woven.thread s.proc.activeTerminal).terminal call.parentPcb
          (.inr (List.mem_of_mem_head? follows.1))
      simp only [Interleaved.haltStatement, terminal]
      exact woven.halt_continues running rfl rfl rfl trivial
  | setCurrentProcess => exact woven.uninstalls running
  | setEsp0 => exact woven.halt_continues running rfl rfl rfl trivial
  | pagingExecute => exact woven.halt_continues running rfl rfl rfl trivial
  | pagingVideoMemory => exact woven.halt_continues running rfl rfl rfl trivial
  | contextSwitch => exact woven.goesBack running

end Halt

end LightOS.Kernel
