import LightOS.Interrupt.Service
import LightOS.Lib.Parts

/-! # Requests, masks and urgency

Which request the controllers ask the CPU to serve, in any state that steps in any order lead
to: the most urgent one that is let through, where a line counts as busy while a handler for it
has not ended its `send_eoi`, be it on the stack of a process that does not run.  Each request
is taken once, and a mask is as the driver was last told.
-/

namespace LightOS.Interrupt

open Lib

/-- A request that could be served: it has come, nothing on its way is masked, and no handler
    is at work, on whatever stack, for a line of at least its priority. -/
structure Ready (s : Interrupts) (irq : Nat) : Prop where
  requested : s.pics.requested irq = true
  unmasked : s.pics.masked irq = false
  cascade : 8 ≤ irq → s.pics.masked 2 = false
  free : ∀ a ∈ s.activations, a.unfinished → masterLine irq < masterLine a.irq

/-- At least as urgent: the lines of the slave are between lines 1 and 3 of the master. -/
def Urgent (irq other : Nat) : Prop :=
  masterLine irq < masterLine other ∨ (masterLine irq = masterLine other ∧ irq ≤ other)

/-- What an event says about the mask of a line. -/
def Event.masks (irq : Nat) : Event → Option Bool
  | .enableIrq irqNum => if irqNum.toNat = irq then some false else none
  | .disableIrq irqNum => if irqNum.toNat = irq then some true else none
  | _ => none

/-- Requests of a line that come while none is waiting. -/
def requestsAlong (irq : Nat) : Interrupts → List Event → Nat
  | _, [] => 0
  | s, event :: events =>
      (match event with
        | .request other => if other = irq ∧ s.pics.requested irq = false then 1 else 0
        | _ => 0) + requestsAlong irq (s.step event) events

/-- The times that the handler of a line is entered. -/
def entriesAlong (irq : Nat) : Interrupts → List Event → Nat
  | _, [] => 0
  | s, event :: events =>
      (match event with
        | .acknowledge => if s.pics.pending = some irq then 1 else 0
        | _ => 0) + entriesAlong irq (s.step event) events

section Results

variable {s later : Interrupts} {irq line : Nat} {events : List Event}

/-- No line of at least the priority of `line` is in service. -/
theorem Serviced.clear_iff (serviced : Serviced s) (small : line < 8) :
    (∀ other ≤ line, s.pics.master.isr.getLsbD other = false) ↔
      ∀ a ∈ s.activations, a.unfinished → line < masterLine a.irq := by
  constructor
  · intro clear a member working
    by_contra notLess
    have atWork := (serviced.master _ (masterLine_lt a.irq)).mpr
      (mem_linesAtWork.mpr ⟨a, member, working, rfl⟩)
    rw [clear _ (Nat.not_lt.mp notLess)] at atWork
    cases atWork
  · intro free other less
    by_contra inService
    rw [Bool.not_eq_false, serviced.master other (by omega), mem_linesAtWork] at inService
    obtain ⟨a, member, working, rfl⟩ := inService
    exact absurd (free a member working) (Nat.not_lt.mpr less)

theorem wired_irr (p : Pics) (small : line < 8) :
    p.wired.irr.getLsbD line =
      if line = 2 then p.slave.highest.isSome else p.master.irr.getLsbD line := by
  unfold Pics.wired
  simp only
  cases p.slave.highest.isSome with
  | true =>
      rw [if_pos rfl, or_lineBit _ _ small]
      split <;> simp [*]
  | false =>
      rw [if_neg Bool.false_ne_true, and_not_lineBit _ _ small]
      split <;> simp [*]

/-- A line of the master without the slave. -/
theorem Serviced.ready_master (serviced : Serviced s) (small : line < 8) (device : line ≠ 2) :
    s.pics.wired.servable line = true ↔ Ready s line := by
  have place : masterLine line = line := if_pos small
  rw [Chip.servable_iff, wired_irr _ small, if_neg device, wired_isr, serviced.clear_iff small]
  constructor
  · rintro ⟨requested, unmasked, free⟩
    refine ⟨?_, ?_, fun upper => absurd small (Nat.not_lt.mpr upper), by rwa [place]⟩
    · rwa [Pics.requested, if_pos small]
    · rwa [Pics.masked, if_pos small]
  · rintro ⟨requested, unmasked, _, free⟩
    rw [Pics.requested, if_pos small] at requested
    rw [Pics.masked, if_pos small] at unmasked
    rw [place] at free
    exact ⟨requested, unmasked, free⟩

/-- A line of the slave, where its master lets it through. -/
theorem Serviced.ready_slave (serviced : Serviced s) (small : line < 8) :
    Ready s (8 + line) ↔
      s.pics.slave.servable line = true ∧ s.pics.masked 2 = false ∧
        ∀ a ∈ s.activations, a.unfinished → 2 < masterLine a.irq := by
  have place : masterLine (8 + line) = 2 := if_neg (by omega)
  have upper : ¬ 8 + line < 8 := by omega
  have requested : s.pics.requested (8 + line) = s.pics.slave.irr.getLsbD line := by
    rw [Pics.requested, if_neg upper, Nat.add_sub_cancel_left]
  have masked : s.pics.masked (8 + line) = s.pics.slave.imr.getLsbD line := by
    rw [Pics.masked, if_neg upper, Nat.add_sub_cancel_left]
  rw [Chip.servable_iff]
  constructor
  · rintro ⟨waiting, unmasked, cascade, free⟩
    rw [requested] at waiting
    rw [masked] at unmasked
    rw [place] at free
    refine ⟨⟨waiting, unmasked, fun other less => ?_⟩, cascade (Nat.le_add_right 8 line), free⟩
    -- a handler of the slave would be at work for line 2 of the master
    by_contra inService
    rw [Bool.not_eq_false, serviced.slave other (by omega)] at inService
    obtain ⟨a, member, number, whole⟩ := inService
    have working : a.unfinished := by
      simp [Activation.unfinished, whole, sendEoi_ne_nil (show a.irq < 16 by omega)]
    have less := free a member working
    rw [masterLine, if_neg (by omega)] at less
    exact Nat.lt_irrefl 2 less
  · rintro ⟨⟨waiting, unmasked, _⟩, cascade, free⟩
    rw [← requested] at waiting
    rw [← masked] at unmasked
    rw [← place] at free
    exact ⟨waiting, unmasked, fun _ => cascade, free⟩

/-- The line of the master that the slave is on. -/
theorem Serviced.ready_cascade (serviced : Serviced s) :
    s.pics.wired.servable 2 = true ↔ ∃ line < 8, Ready s (8 + line) := by
  rw [Chip.servable_iff, wired_irr _ (by decide), if_pos rfl, wired_isr,
    serviced.clear_iff (by decide)]
  constructor
  · rintro ⟨some, unmasked, free⟩
    obtain ⟨line, highest⟩ := Option.isSome_iff_exists.mp some
    obtain ⟨small, servable, _⟩ := Chip.highest_eq_some.mp highest
    exact ⟨line, small, (serviced.ready_slave small).mpr ⟨servable, unmasked, free⟩⟩
  · rintro ⟨line, small, ready⟩
    obtain ⟨servable, unmasked, free⟩ := (serviced.ready_slave small).mp ready
    refine ⟨?_, unmasked, free⟩
    rw [Option.isSome_iff_ne_none]
    intro none
    rw [Chip.highest_eq_none.mp none line small] at servable
    cases servable

/-- The master asks for a line of its own. -/
theorem Serviced.pending_master (serviced : Serviced s) (lower : irq < 8) (device : irq ≠ 2) :
    s.pics.wired.highest = some irq ↔
      Ready s irq ∧ ∀ other < 16, other ≠ 2 → Ready s other → Urgent irq other := by
  have urgent {other : Nat} (inRange : other < 16) :
      Urgent irq other ↔ irq ≤ other ∧ (8 ≤ other → irq ≤ 2) := by
    unfold Urgent masterLine
    grind
  rw [Chip.highest_eq_some]
  constructor
  · rintro ⟨_, servable, best⟩
    have notBefore {line : Nat} (other : s.pics.wired.servable line = true) : irq ≤ line := by
      by_contra before
      rw [best line (Nat.not_le.mp before)] at other
      cases other
    refine ⟨(serviced.ready_master lower device).mp servable, fun other inRange real ready => ?_⟩
    rw [urgent inRange]
    by_cases own : other < 8
    · have here := notBefore ((serviced.ready_master own real).mpr ready)
      exact ⟨here, fun upper => absurd own (Nat.not_lt.mpr upper)⟩
    · have place : 8 + (other - 8) = other := by omega
      have cascade := notBefore (serviced.ready_cascade.mpr
        ⟨other - 8, by omega, by rwa [place]⟩)
      exact ⟨by omega, fun _ => cascade⟩
  · rintro ⟨ready, best⟩
    refine ⟨lower, (serviced.ready_master lower device).mpr ready, fun line before => ?_⟩
    by_contra servable
    rw [Bool.not_eq_false] at servable
    by_cases cascade : line = 2
    · subst cascade
      obtain ⟨slaveLine, small, waiting⟩ := serviced.ready_cascade.mp servable
      have most := best (8 + slaveLine) (by omega) (by omega) waiting
      rw [urgent (by omega)] at most
      have := most.2 (Nat.le_add_right 8 slaveLine)
      omega
    · have waiting := (serviced.ready_master (by omega) cascade).mp servable
      have most := best line (by omega) cascade waiting
      rw [urgent (by omega)] at most
      omega

/-- The master asks for the line of the slave, and the slave for a line of its own. -/
theorem Serviced.pending_slave (serviced : Serviced s) (small : line < 8) :
    (s.pics.wired.highest = some 2 ∧ s.pics.slave.highest = some line) ↔
      Ready s (8 + line) ∧ ∀ other < 16, other ≠ 2 → Ready s other → Urgent (8 + line) other := by
  have urgent {other : Nat} (inRange : other < 16) :
      Urgent (8 + line) other ↔ if other < 8 then 2 < other else 8 + line ≤ other := by
    unfold Urgent masterLine
    grind
  rw [Chip.highest_eq_some, Chip.highest_eq_some]
  constructor
  · rintro ⟨⟨_, cascade, bestMaster⟩, _, servable, bestSlave⟩
    obtain ⟨someLine, someSmall, someReady⟩ := serviced.ready_cascade.mp cascade
    have through := ((serviced.ready_slave someSmall).mp someReady).2
    refine ⟨(serviced.ready_slave small).mpr ⟨servable, through⟩,
      fun other inRange real ready => ?_⟩
    rw [urgent inRange]
    split
    · next own =>
        by_contra before
        have waiting := (serviced.ready_master own real).mpr ready
        rw [bestMaster other (by omega)] at waiting
        cases waiting
    · next upper =>
        have place : 8 + (other - 8) = other := by omega
        rw [← place] at ready
        have waiting := ((serviced.ready_slave (by omega)).mp ready).1
        by_contra before
        rw [bestSlave (other - 8) (by omega)] at waiting
        cases waiting
  · rintro ⟨ready, best⟩
    have cascade := serviced.ready_cascade.mpr ⟨line, small, ready⟩
    refine ⟨⟨by decide, cascade, fun other before => ?_⟩, small,
      ((serviced.ready_slave small).mp ready).1, fun other before => ?_⟩
    · by_contra servable
      rw [Bool.not_eq_false] at servable
      have waiting := (serviced.ready_master (by omega) (by omega)).mp servable
      have most := best other (by omega) (by omega) waiting
      rw [urgent (by omega), if_pos (by omega)] at most
      omega
    · by_contra servable
      rw [Bool.not_eq_false] at servable
      have through := ((serviced.ready_slave small).mp ready).2
      have waiting := (serviced.ready_slave (by omega)).mpr ⟨servable, through⟩
      have most := best (8 + other) (by omega) (by omega) waiting
      rw [urgent (by omega), if_neg (by omega)] at most
      omega

/-- The controllers ask for the most urgent of the requests that are ready. -/
theorem Serviced.pending_iff (serviced : Serviced s) (small : irq < 16) (device : irq ≠ 2) :
    s.pics.pending = some irq ↔
      Ready s irq ∧ ∀ other < 16, other ≠ 2 → Ready s other → Urgent irq other := by
  rw [pending_eq_some]
  by_cases lower : irq < 8
  · rw [← serviced.pending_master lower device]
    constructor
    · rintro (⟨highest, _⟩ | ⟨_, upper, _⟩)
      · exact highest
      · exact absurd lower (Nat.not_lt.mpr upper)
    · intro highest
      exact .inl ⟨highest, lower, device⟩
  · have place : 8 + (irq - 8) = irq := by omega
    have small : irq - 8 < 8 := by omega
    have slave := serviced.pending_slave small
    rw [place] at slave
    rw [← slave]
    constructor
    · rintro (⟨_, own, _⟩ | ⟨highest, _, slaveHighest⟩)
      · exact absurd own lower
      · exact ⟨highest, slaveHighest⟩
    · rintro ⟨highest, slaveHighest⟩
      exact .inr ⟨highest, Nat.not_lt.mp lower, slaveHighest⟩

theorem request_requested (p : Pics) {other : Nat} (small : irq < 16) (inRange : other < 16) :
    (p.request other).requested irq = (p.requested irq || decide (irq = other)) := by
  unfold Pics.request Pics.requested
  by_cases lower : other < 8 <;> by_cases here : irq < 8
  · simp only [lower, here, if_true, Chip.request, or_lineBit _ _ here]
  · have apart : ¬ irq = other := by omega
    simp only [lower, here, if_true, if_false, apart, decide_false, Bool.or_false]
  · have apart : ¬ irq = other := by omega
    simp only [lower, here, if_true, if_false, apart, decide_false, Bool.or_false]
  · have same : irq - 8 = other - 8 ↔ irq = other := by omega
    simp only [lower, here, if_false, Chip.request,
      or_lineBit _ _ (show irq - 8 < 8 by omega), same]

theorem acknowledge_requested (p : Pics) {taken : Nat} (small : irq < 16) (device : irq ≠ 2)
    (inRange : taken < 16) :
    (p.acknowledge taken).requested irq = (p.requested irq && !decide (irq = taken)) := by
  unfold Pics.acknowledge Pics.requested
  by_cases lower : taken < 8 <;> by_cases here : irq < 8
  · simp only [lower, here, if_true, Chip.acknowledge, and_not_lineBit _ _ here]
  · have apart : ¬ irq = taken := by omega
    simp only [lower, here, if_true, if_false, apart, decide_false, Bool.not_false, Bool.and_true]
  · have apart : ¬ irq = taken := by omega
    simp only [lower, here, if_true, if_false, Chip.acknowledge, and_not_lineBit _ _ here,
      wired_irr p here, device, apart, decide_false]
  · have same : irq - 8 = taken - 8 ↔ irq = taken := by omega
    simp only [lower, here, if_false, Chip.acknowledge,
      and_not_lineBit _ _ (show irq - 8 < 8 by omega), same]

theorem Pics.SameButMasks.requested {p q : Pics} (same : p.SameButMasks q) (irq : Nat) :
    q.requested irq = p.requested irq := by
  have master := congrArg Chip.irr same.master
  have slave := congrArg Chip.irr same.slave
  simp only at master slave
  simp only [Pics.requested, master, slave]

/-- A write of a handler changes nothing but in-service bits. -/
theorem Serviced.writeNext_same (serviced : Serviced s) {a : Activation} (top : s.top = some a) :
    { (s.writeNext a).pics.master with isr := s.pics.master.isr } = s.pics.master ∧
      { (s.writeNext a).pics.slave with isr := s.pics.slave.isr } = s.pics.slave := by
  obtain ⟨before, after, stack, _⟩ := exists_top top
  obtain ⟨small, _, part⟩ := serviced.handlers a
    (stack ▸ List.mem_append_right _ List.mem_cons_self)
  by_cases some : a.todo = []
  · simp only [Interrupts.writeNext, some, and_self]
  · rcases todo_cases small part some with ⟨lower, todo⟩ | ⟨upper, todo⟩ | ⟨upper, todo⟩
    · simp only [Interrupts.writeNext, todo, Interrupts.setTop, (outb_eoi s.pics lower).1,
        and_self]
    · simp only [Interrupts.writeNext, todo, Interrupts.setTop,
        (outb_eoi s.pics (show a.irq - 8 < 8 by omega)).2, and_self]
    · simp only [Interrupts.writeNext, todo, Interrupts.setTop,
        (outb_eoi s.pics (show 2 < 8 by decide)).1, and_self]

theorem Serviced.writeNext_requested (serviced : Serviced s) {a : Activation}
    (top : s.top = some a) (irq : Nat) :
    (s.writeNext a).pics.requested irq = s.pics.requested irq ∧
      (s.writeNext a).pics.masked irq = s.pics.masked irq := by
  obtain ⟨master, slave⟩ := serviced.writeNext_same top
  have irrMaster := congrArg Chip.irr master
  have irrSlave := congrArg Chip.irr slave
  have imrMaster := congrArg Chip.imr master
  have imrSlave := congrArg Chip.imr slave
  simp only at irrMaster irrSlave imrMaster imrSlave
  simp only [Pics.requested, Pics.masked, irrMaster, irrSlave, imrMaster, imrSlave, and_self]

/-- What one step does to a request. -/
theorem Serviced.step_requested (serviced : Serviced s) (small : irq < 16) (device : irq ≠ 2)
    {event : Event} (able : s.able event) :
    requestsAlong irq s [event] + (s.pics.requested irq).toNat =
      entriesAlong irq s [event] + ((s.step event).pics.requested irq).toNat := by
  simp only [requestsAlong, entriesAlong, Nat.add_zero]
  cases event with
  | request other =>
      simp only [Interrupts.step, request_requested s.pics small able.1, Nat.zero_add]
      by_cases same : other = irq
      · subst same
        cases s.pics.requested other <;> simp
      · simp [same, show ¬ irq = other from fun eq => same eq.symm]
  | acknowledge =>
      obtain ⟨taken, pending⟩ := Option.isSome_iff_exists.mp able
      obtain ⟨inRange, real, _⟩ := pending_line pending
      have waiting := ((serviced.pending_iff inRange real).mp pending).1.requested
      simp only [Interrupts.step, pending, Option.map_some, Option.getD_some, Interrupts.enter,
        acknowledge_requested s.pics small device inRange, Option.some.injEq, Nat.zero_add]
      by_cases same : taken = irq
      · subst same
        simp [waiting]
      · simp [same, show ¬ irq = taken from fun eq => same eq.symm]
  | endOfInterrupt =>
      obtain ⟨a, top, _⟩ := (Option.any_eq_true _ _).mp able
      simp only [Interrupts.step, top, Option.map_some, Option.getD_some,
        (serviced.writeNext_requested top irq).1]
  | iret => rfl
  | switchTo pid => rfl
  | enableIrq irqNum =>
      have same := (Pics.enableIrq_same serviced.programmed irqNum).requested irq
      simp only [Interrupts.step, same]
  | disableIrq irqNum =>
      have same := (Pics.disableIrq_same serviced.programmed irqNum).requested irq
      simp only [Interrupts.step, same]

/-- Taking a request leaves the masks alone. -/
theorem acknowledge_masked (p : Pics) (taken irq : Nat) :
    (p.acknowledge taken).masked irq = p.masked irq := by
  unfold Pics.acknowledge
  split <;> rfl

theorem request_masked (p : Pics) (other irq : Nat) :
    (p.request other).masked irq = p.masked irq := by
  unfold Pics.request
  split <;> rfl

/-- What one step does to a mask. -/
theorem Serviced.step_masked (serviced : Serviced s) (small : irq < 16) {event : Event}
    (able : s.able event) :
    (s.step event).pics.masked irq = (event.masks irq).getD (s.pics.masked irq) := by
  cases event with
  | request other => exact request_masked s.pics other irq
  | acknowledge =>
      obtain ⟨taken, pending⟩ := Option.isSome_iff_exists.mp able
      simp only [Interrupts.step, pending, Option.map_some, Option.getD_some, Interrupts.enter,
        acknowledge_masked, Event.masks, Option.getD_none]
  | endOfInterrupt =>
      obtain ⟨a, top, _⟩ := (Option.any_eq_true _ _).mp able
      simp only [Interrupts.step, top, Option.map_some, Option.getD_some,
        (serviced.writeNext_requested top irq).2, Event.masks, Option.getD_none]
  | iret => rfl
  | switchTo pid => rfl
  | enableIrq irqNum =>
      simp only [Interrupts.step, Pics.enableIrq_masked serviced.programmed irqNum small,
        Event.masks]
      by_cases same : irqNum.toNat = irq
      · simp [same]
      · simp [same, show ¬ irq = irqNum.toNat from fun eq => same eq.symm]
  | disableIrq irqNum =>
      simp only [Interrupts.step, Pics.disableIrq_masked serviced.programmed irqNum small,
        Event.masks]
      by_cases same : irqNum.toNat = irq
      · simp [same]
      · simp [same, show ¬ irq = irqNum.toNat from fun eq => same eq.symm]

theorem Serviced.run_masked (serviced : Serviced s) (small : irq < 16)
    (run : interrupts.Run s events later) :
    later.pics.masked irq =
      (events.reverse.findSome? (Event.masks irq)).getD (s.pics.masked irq) :=
  run.last_set (fun s => s.pics.masked irq) (Event.masks irq)
    (fun _ event serviced able => serviced.step event able)
    (fun _ _ serviced able => serviced.step_masked small able) serviced

theorem Serviced.run_requested (serviced : Serviced s) (small : irq < 16) (device : irq ≠ 2)
    (run : interrupts.Run s events later) :
    requestsAlong irq s events + (s.pics.requested irq).toNat =
      entriesAlong irq s events + (later.pics.requested irq).toNat := by
  induction run with
  | nil => rfl
  | @cons s event events later able _ ih =>
      have here := serviced.step_requested small device able
      have rest := ih (serviced.step event able)
      simp only [requestsAlong, entriesAlong, Nat.add_zero] at here rest ⊢
      have same : interrupts.next s event = s.step event := rfl
      rw [same] at rest
      omega

end Results

section System

variable {pics : Pics} {running irq : Nat} {events : List Event} {s : Interrupts}

/-- After the initialization, in any order of steps, a line is masked as the last call that
    names it has left it, and without one if it is not the line of the slave. -/
theorem masked_as_last_called (run : interrupts.Run (.started pics running) events s)
    (small : irq < 16) :
    s.pics.masked irq = (events.reverse.findSome? (Event.masks irq)).getD (decide (irq ≠ 2)) := by
  rw [(started_serviced pics running).run_masked small run]
  exact congrArg _ (pics.i8259Init_masked small)

theorem timerInClock_masked :
    (timerInClock.foldl interrupts.next (.started ⟨blankChip, blankChip⟩ 4)).pics.masked 8 =
      (timerInClock.reverse.findSome? (Event.masks 8)).getD (decide (8 ≠ 2)) :=
  masked_as_last_called timerInClock_run (by decide)

/-- In every state reached, the CPU is asked to serve a request exactly if that one is ready
    and the most urgent of those that are. -/
theorem most_urgent_served (run : interrupts.Run (.started pics running) events s)
    (small : irq < 16) (device : irq ≠ 2) :
    s.pics.pending = some irq ↔
      Ready s irq ∧ ∀ other < 16, other ≠ 2 → Ready s other → Urgent irq other :=
  (Serviced.of_run run).pending_iff small device

theorem timerInClock_served :
    let s := timerInClock.foldl interrupts.next (.started ⟨blankChip, blankChip⟩ 4)
    s.pics.pending = some 0 ↔
      Ready s 0 ∧ ∀ other < 16, other ≠ 2 → Ready s other → Urgent 0 other :=
  most_urgent_served timerInClock_run (by decide) (by decide)

/-- No request is lost and none is served twice: of the requests that have come while none was
    waiting, each has been taken once or is waiting still. -/
theorem requests_served_once (run : interrupts.Run (.started pics running) events s)
    (small : irq < 16) (device : irq ≠ 2) :
    requestsAlong irq (.started pics running) events =
      entriesAlong irq (.started pics running) events + (s.pics.requested irq).toNat := by
  have served := (started_serviced pics running).run_requested small device run
  have none : (Interrupts.started pics running).pics.requested irq = false := by
    simp [Interrupts.started, Pics.i8259Init_eq, Pics.requested]
  rwa [none, Bool.toNat_false, Nat.add_zero] at served

theorem timerInClock_once :
    let start := Interrupts.started ⟨blankChip, blankChip⟩ 4
    requestsAlong 8 start timerInClock = entriesAlong 8 start timerInClock +
      ((timerInClock.foldl interrupts.next start).pics.requested 8).toNat :=
  requests_served_once timerInClock_run (by decide) (by decide)

end System

end LightOS.Interrupt
