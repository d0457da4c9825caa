import LightOS.Interrupt.Pic
import LightOS.Lib.Machine
import Mathlib.Data.List.Nodup

/-! # Interrupts in service

The handlers on the kernel stacks of all processes, and the controllers.  Whatever a handler
does, it makes the writes of its `send_eoi` one after the other and then returns.  The handler
of the PIT calls the scheduler after its own, and that goes on with the stack of another
process.  The gates leave the interrupt flag alone, so a handler can be interrupted between any
two of its steps, and nothing here rests on the flag.
-/

namespace LightOS.Interrupt

open Lib

def IRQ_PIT : Nat := 0

/-- A handler that has been entered and has not returned: the process on whose stack it runs,
    its request, and the writes of its `send_eoi` that it has still to make. -/
structure Activation where
  pid : Nat
  irq : Nat
  todo : List PortWrite
  deriving DecidableEq

/-- The handler has not come to the end of its `send_eoi`. -/
def Activation.unfinished (a : Activation) : Bool := !a.todo.isEmpty

/-- `activations` are those on all stacks, the latest first; `running` is the process whose
    stack is in use. -/
structure Interrupts where
  pics : Pics
  activations : List Activation
  running : Nat

/-- What can happen: a device requests an interrupt, the CPU takes the one that the controllers
    ask for, the handler on top of the stack in use makes its next write or returns, the kernel
    goes on with the stack of another process, or calls the driver of the controllers. -/
inductive Event
  | request (irq : Nat)
  | acknowledge
  | endOfInterrupt
  | iret
  | switchTo (pid : Nat)
  | enableIrq (irqNum : BitVec 32)
  | disableIrq (irqNum : BitVec 32)

/-- The line of the master that a request comes through. -/
def masterLine (irq : Nat) : Nat := if irq < 8 then irq else 2

/-- The lines of the master that handlers are at work for. -/
def linesAtWork (activations : List Activation) : List Nat :=
  (activations.filter Activation.unfinished).map fun a => masterLine a.irq

/-- The latest activation of a process, replaced. -/
def replaceTop (pid : Nat) (new : List Activation) : List Activation → List Activation
  | [] => []
  | a :: as => if a.pid = pid then new ++ as else a :: replaceTop pid new as

namespace Interrupts

/-- The handler on top of the stack in use. -/
def top (s : Interrupts) : Option Activation := s.activations.find? fun a => a.pid = s.running

/-- The entry of a handler. -/
def enter (s : Interrupts) (irq : Nat) : Interrupts :=
  { s with
    pics := s.pics.acknowledge irq
    activations := ⟨s.running, irq, sendEoi (BitVec.ofNat 32 irq)⟩ :: s.activations }

def setTop (s : Interrupts) (new : List Activation) : Interrupts :=
  { s with activations := replaceTop s.running new s.activations }

/-- The next write of the `send_eoi` of a handler. -/
def writeNext (s : Interrupts) (a : Activation) : Interrupts :=
  match a.todo with
  | [] => s
  | (value, port) :: rest =>
      { s with pics := s.pics.outb value port }.setTop [{ a with todo := rest }]

def step (s : Interrupts) : Event → Interrupts
  | .request irq => { s with pics := s.pics.request irq }
  | .acknowledge => (s.pics.pending.map s.enter).getD s
  | .endOfInterrupt => (s.top.map s.writeNext).getD s
  | .iret => s.setTop []
  | .switchTo pid => { s with running := pid }
  | .enableIrq irqNum => { s with pics := s.pics.enableIrq irqNum }
  | .disableIrq irqNum => { s with pics := s.pics.disableIrq irqNum }

/-- No device is wired to line 2.  The kernel leaves a stack from `schedule`, which the handler
    of the PIT calls, and from a system call, when no handler is on it. -/
def able (s : Interrupts) : Event → Prop
  | .request irq => irq < 16 ∧ irq ≠ 2
  | .acknowledge => s.pics.pending.isSome
  | .endOfInterrupt => s.top.any Activation.unfinished
  | .iret => s.top.any (!·.unfinished)
  | .switchTo _ => s.top.all fun a => a.irq = IRQ_PIT && !a.unfinished
  | .enableIrq _ | .disableIrq _ => True

instance (s : Interrupts) : (event : Event) → Decidable (s.able event)
  | .request irq => inferInstanceAs (Decidable (irq < 16 ∧ irq ≠ 2))
  | .acknowledge => inferInstanceAs (Decidable (_ = true))
  | .endOfInterrupt => inferInstanceAs (Decidable (_ = true))
  | .iret => inferInstanceAs (Decidable (_ = true))
  | .switchTo _ => inferInstanceAs (Decidable (_ = true))
  | .enableIrq _ | .disableIrq _ => inferInstanceAs (Decidable True)

/-- After `i8259_init`, before the first interrupt. -/
def started (pics : Pics) (running : Nat) : Interrupts := ⟨pics.i8259Init, [], running⟩

end Interrupts

/-- The controllers and the handlers, with steps in any order. -/
def interrupts : Machine Interrupts Event where
  enabled := Interrupts.able
  next := Interrupts.step

instance (s : Interrupts) (event : Event) : Decidable (interrupts.enabled s event) :=
  inferInstanceAs (Decidable (s.able event))

/-- What holds between the controllers and the handlers. -/
structure Serviced (s : Interrupts) : Prop where
  programmed : s.pics.Programmed
  handlers : ∀ a ∈ s.activations,
    a.irq < 16 ∧ a.irq ≠ 2 ∧ a.todo <:+ sendEoi (BitVec.ofNat 32 a.irq)
  nested : (linesAtWork s.activations).Pairwise (· < ·)
  master : ∀ line < 8,
    s.pics.master.isr.getLsbD line = true ↔ line ∈ linesAtWork s.activations
  slave : ∀ line < 8, s.pics.slave.isr.getLsbD line = true ↔
    ∃ a ∈ s.activations, a.irq = 8 + line ∧ a.todo = sendEoi (BitVec.ofNat 32 a.irq)

section Stacks

variable {as before after : List Activation} {a b : Activation} {pid line : Nat}

/-- The latest activation of a process lies between those before and after it. -/
theorem exists_top (top : as.find? (fun a => a.pid = pid) = some a) :
    ∃ before after, as = before ++ a :: after ∧
      ∀ new, replaceTop pid new as = before ++ (new ++ after) := by
  induction as with
  | nil => cases top
  | cons first as ih =>
      by_cases here : first.pid = pid
      · rw [List.find?_cons_of_pos (by simpa using here), Option.some.injEq] at top
        subst top
        exact ⟨[], as, rfl, fun new => by simp [replaceTop, here]⟩
      · rw [List.find?_cons_of_neg (by simpa using here)] at top
        obtain ⟨before, after, rfl, replaced⟩ := ih top
        refine ⟨first :: before, after, rfl, fun new => ?_⟩
        rw [replaceTop, if_neg here, replaced, List.cons_append]

theorem linesAtWork_append (before after : List Activation) :
    linesAtWork (before ++ after) = linesAtWork before ++ linesAtWork after := by
  simp [linesAtWork]

theorem linesAtWork_cons (a : Activation) (as : List Activation) :
    linesAtWork (a :: as) =
      if a.unfinished then masterLine a.irq :: linesAtWork as else linesAtWork as := by
  unfold linesAtWork
  cases unfinished : a.unfinished with
  | true => rw [List.filter_cons_of_pos unfinished, if_pos rfl, List.map_cons]
  | false =>
      rw [List.filter_cons_of_neg (by rw [unfinished]; exact Bool.false_ne_true),
        if_neg Bool.false_ne_true]

theorem mem_linesAtWork :
    line ∈ linesAtWork as ↔ ∃ a ∈ as, a.unfinished ∧ masterLine a.irq = line := by
  simp [linesAtWork, and_assoc]

/-- No two handlers are at work for the same line. -/
theorem alone (nested : (linesAtWork (before ++ a :: after)).Pairwise (· < ·))
    (working : a.unfinished) (other : b ∈ before ++ after) (busy : b.unfinished) :
    masterLine b.irq ≠ masterLine a.irq := by
  rw [linesAtWork_append, linesAtWork_cons, if_pos working] at nested
  have line : masterLine b.irq ∈ linesAtWork before ++ linesAtWork after := by
    rw [← linesAtWork_append, mem_linesAtWork]
    exact ⟨b, other, busy, rfl⟩
  have nodup := nested.imp (S := (· ≠ ·)) fun less => Nat.ne_of_lt less
  rintro same
  rw [same] at line
  exact (List.nodup_middle.mp nodup).notMem line

/-- What is at work once a handler has finished. -/
theorem mem_linesAtWork_finished (nested : (linesAtWork (before ++ a :: after)).Pairwise (· < ·))
    (working : a.unfinished) (finished : ¬ b.unfinished) :
    line ∈ linesAtWork (before ++ ([b] ++ after)) ↔
      line ∈ linesAtWork (before ++ a :: after) ∧ line ≠ masterLine a.irq := by
  have same : linesAtWork (before ++ ([b] ++ after)) = linesAtWork (before ++ after) := by
    rw [List.singleton_append, linesAtWork_append, linesAtWork_cons, if_neg finished,
      linesAtWork_append]
  rw [same]
  constructor
  · intro member
    obtain ⟨c, inside, busy, rfl⟩ := mem_linesAtWork.mp member
    refine ⟨?_, alone nested working inside busy⟩
    rw [mem_linesAtWork]
    exact ⟨c, by grind, busy, rfl⟩
  · rintro ⟨member, other⟩
    obtain ⟨c, inside, busy, rfl⟩ := mem_linesAtWork.mp member
    rw [mem_linesAtWork]
    refine ⟨c, ?_, busy, rfl⟩
    rcases List.mem_append.mp inside with first | last
    · exact List.mem_append_left _ first
    · rcases List.mem_cons.mp last with rfl | last
      · exact absurd rfl other
      · exact List.mem_append_right _ last

/-- A handler that makes a write that is not its last stays at work. -/
theorem linesAtWork_kept (working : a.unfinished) (busy : b.unfinished) (same : b.irq = a.irq) :
    linesAtWork (before ++ ([b] ++ after)) = linesAtWork (before ++ a :: after) := by
  rw [List.singleton_append, linesAtWork_append, linesAtWork_append, linesAtWork_cons,
    linesAtWork_cons, if_pos working, if_pos busy, same]

theorem masterLine_lt (irq : Nat) : masterLine irq < 8 := by
  unfold masterLine
  split
  · assumption
  · decide

end Stacks

section Steps

variable {s : Interrupts} {irq line : Nat} {a : Activation}

/-- The request that is served next is one that both controllers let through. -/
theorem pending_eq_some (p : Pics) :
    p.pending = some irq ↔
      (p.wired.highest = some irq ∧ irq < 8 ∧ irq ≠ 2) ∨
        (p.wired.highest = some 2 ∧ 8 ≤ irq ∧ p.slave.highest = some (irq - 8)) := by
  unfold Pics.pending
  cases highest : p.wired.highest with
  | none => simp
  | some found =>
      have small := (Chip.highest_eq_some.mp highest).1
      rw [Option.bind_some]
      by_cases cascade : found = 2
      · subst cascade
        simp only [if_true, Option.map_eq_some_iff, Option.some.injEq, true_and]
        constructor
        · rintro ⟨lower, slave, rfl⟩
          refine .inr ⟨Nat.le_add_right 8 lower, ?_⟩
          rwa [Nat.add_sub_cancel_left]
        · rintro (⟨rfl, _, other⟩ | ⟨upper, slave⟩)
          · exact absurd rfl other
          · exact ⟨irq - 8, slave, by omega⟩
      · simp only [cascade, if_false, Option.some.injEq, false_and, or_false]
        constructor
        · rintro rfl
          exact ⟨rfl, small, cascade⟩
        · rintro ⟨same, _⟩
          exact same

theorem wired_isr (p : Pics) : p.wired.isr = p.master.isr := rfl

/-- What is served next comes through a line of the master with nothing of its priority in
    service. -/
theorem pending_line {p : Pics} (pending : p.pending = some irq) :
    irq < 16 ∧ irq ≠ 2 ∧ p.wired.highest = some (masterLine irq) ∧
      (8 ≤ irq → p.slave.highest = some (irq - 8)) := by
  rcases (pending_eq_some p).mp pending with ⟨highest, lower, other⟩ | ⟨highest, upper, slave⟩
  · refine ⟨by omega, other, ?_, fun upper => absurd lower (Nat.not_lt.mpr upper)⟩
    rwa [masterLine, if_pos lower]
  · have small := (Chip.highest_eq_some.mp slave).1
    refine ⟨by omega, by omega, ?_, fun _ => slave⟩
    rwa [masterLine, if_neg (Nat.not_lt.mpr upper)]

theorem sendEoi_ne_nil (small : irq < 16) : sendEoi (BitVec.ofNat 32 irq) ≠ [] := by
  revert irq
  decide

/-- The in-service bits after a request has been taken. -/
theorem acknowledge_isr (p : Pics) (irq : Nat) (small : line < 8) :
    (p.acknowledge irq).master.isr.getLsbD line =
        (p.master.isr.getLsbD line || decide (line = masterLine irq)) ∧
      (p.acknowledge irq).slave.isr.getLsbD line =
        (p.slave.isr.getLsbD line || decide (8 + line = irq)) := by
  unfold Pics.acknowledge masterLine
  split
  · have other : ¬ 8 + line = irq := by omega
    simp only [Chip.acknowledge, or_lineBit _ _ small, other, decide_false, Bool.or_false,
      and_self]
  · have same : line = irq - 8 ↔ 8 + line = irq := by omega
    simp only [Chip.acknowledge, or_lineBit _ _ small, wired_isr, same, and_self]

theorem Pics.Programmed.acknowledge {p : Pics} (programmed : p.Programmed) (irq : Nat) :
    (p.acknowledge irq).Programmed := by
  unfold Pics.acknowledge
  split <;>
    exact ⟨programmed.1, programmed.2, programmed.3, programmed.4, programmed.5, programmed.6⟩

theorem Pics.Programmed.request {p : Pics} (programmed : p.Programmed) (irq : Nat) :
    (p.request irq).Programmed := by
  unfold Pics.request
  split <;>
    exact ⟨programmed.1, programmed.2, programmed.3, programmed.4, programmed.5, programmed.6⟩

/-- Steps that leave the in-service registers and the handlers alone. -/
theorem Serviced.of_same {t : Interrupts} (serviced : Serviced s) (programmed : t.pics.Programmed)
    (master : t.pics.master.isr = s.pics.master.isr) (slave : t.pics.slave.isr = s.pics.slave.isr)
    (same : t.activations = s.activations) : Serviced t where
  programmed := programmed
  handlers := same ▸ serviced.handlers
  nested := same ▸ serviced.nested
  master line small := by rw [master, same, serviced.master line small]
  slave line small := by rw [slave, same, serviced.slave line small]

/-- The entry of a handler: nothing of its priority is in service, so it is the most urgent. -/
theorem Serviced.enter (serviced : Serviced s) (pending : s.pics.pending = some irq) :
    Serviced (s.enter irq) := by
  obtain ⟨small, notCascade, highest, _⟩ := pending_line pending
  have clear := (Chip.servable_iff.mp (Chip.highest_eq_some.mp highest).2.1).2.2
  have working : Activation.unfinished ⟨s.running, irq, sendEoi (BitVec.ofNat 32 irq)⟩ := by
    simp [Activation.unfinished, sendEoi_ne_nil small]
  have lines : linesAtWork (s.enter irq).activations =
      masterLine irq :: linesAtWork s.activations := by
    rw [Interrupts.enter, linesAtWork_cons, if_pos working]
  constructor
  case programmed => exact serviced.programmed.acknowledge irq
  case handlers =>
    intro a member
    rcases List.mem_cons.mp member with rfl | member
    · exact ⟨small, notCascade, List.suffix_refl _⟩
    · exact serviced.handlers a member
  case nested =>
    rw [lines, List.pairwise_cons]
    refine ⟨fun line atWork => ?_, serviced.nested⟩
    obtain ⟨a, _, _, rfl⟩ := mem_linesAtWork.mp atWork
    have inService := (serviced.master _ (masterLine_lt a.irq)).mpr atWork
    rw [← wired_isr] at inService
    by_contra notLess
    rw [clear _ (Nat.not_lt.mp notLess)] at inService
    cases inService
  case master =>
    intro line inside
    rw [lines, List.mem_cons, ← serviced.master line inside, Interrupts.enter,
      (acknowledge_isr s.pics irq inside).1, Bool.or_eq_true, decide_eq_true_iff, or_comm]
  case slave =>
    intro line inside
    rw [Interrupts.enter, (acknowledge_isr s.pics irq inside).2, Bool.or_eq_true,
      decide_eq_true_iff, serviced.slave line inside]
    constructor
    · rintro (⟨a, member, rest⟩ | same)
      · exact ⟨a, List.mem_cons_of_mem _ member, rest⟩
      · exact ⟨_, List.mem_cons_self, same.symm, rfl⟩
    · rintro ⟨a, member, number, whole⟩
      rcases List.mem_cons.mp member with rfl | member
      · exact .inr number.symm
      · exact .inl ⟨a, member, number, whole⟩

end Steps

section EndOfInterrupt

variable {s t : Interrupts} {irq line : Nat} {a b : Activation} {before after : List Activation}

/-- The byte that names a line. -/
def eoiByte (line : Nat) : BitVec 8 := (EOI ||| BitVec.ofNat 32 line).setWidth 8

theorem outb_eoi (p : Pics) (small : line < 8) :
    p.outb (eoiByte line) MASTER_8259_PORT =
        { p with master := { p.master with isr := p.master.isr &&& ~~~ lineBit line } } ∧
      p.outb (eoiByte line) SLAVE_8259_PORT =
        { p with slave := { p.slave with isr := p.slave.isr &&& ~~~ lineBit line } } := by
  constructor
  · rw [Pics.outb, if_pos rfl, eoiByte, Chip.command_eoi _ small]
  · rw [Pics.outb, if_neg (by decide), if_neg (by decide), if_pos rfl, eoiByte,
      Chip.command_eoi _ small]

theorem Pics.Programmed.outb_eoi {p : Pics} (programmed : p.Programmed) (small : line < 8) :
    (p.outb (eoiByte line) MASTER_8259_PORT).Programmed ∧
      (p.outb (eoiByte line) SLAVE_8259_PORT).Programmed := by
  rw [(Interrupt.outb_eoi p small).1, (Interrupt.outb_eoi p small).2]
  obtain ⟨h1, h2, h3, h4, h5, h6⟩ := programmed
  exact ⟨⟨h1, h2, h3, h4, h5, h6⟩, ⟨h1, h2, h3, h4, h5, h6⟩⟩

/-- Where a handler that is at work has got to in its `send_eoi`. -/
theorem todo_cases (small : irq < 16) {todo : List PortWrite}
    (part : todo <:+ sendEoi (BitVec.ofNat 32 irq)) (some : todo ≠ []) :
    (irq < 8 ∧ todo = [(eoiByte irq, MASTER_8259_PORT)]) ∨
      (8 ≤ irq ∧
        todo = [(eoiByte (irq - 8), SLAVE_8259_PORT), (eoiByte 2, MASTER_8259_PORT)]) ∨
      (8 ≤ irq ∧ todo = [(eoiByte 2, MASTER_8259_PORT)]) := by
  by_cases lower : irq < 8
  · rw [sendEoi_master lower, List.suffix_cons_iff, List.suffix_nil] at part
    exact .inl ⟨lower, part.resolve_right some⟩
  · have upper := Nat.not_lt.mp lower
    rw [sendEoi_slave upper small, List.suffix_cons_iff, List.suffix_cons_iff,
      List.suffix_nil] at part
    rcases part with full | last | none
    · exact .inr (.inl ⟨upper, full⟩)
    · exact .inr (.inr ⟨upper, last⟩)
    · exact absurd none some

/-- An activation that does not have the property makes no difference. -/
theorem exists_mem_without {P : Activation → Prop} (not : ¬ P a) :
    (∃ c ∈ before ++ a :: after, P c) ↔ ∃ c ∈ before ++ after, P c := by
  simp only [List.mem_append, List.mem_cons]
  constructor
  · rintro ⟨c, first | rfl | last, holds⟩
    · exact ⟨c, .inl first, holds⟩
    · exact absurd holds not
    · exact ⟨c, .inr last, holds⟩
  · rintro ⟨c, first | last, holds⟩
    · exact ⟨c, .inl first, holds⟩
    · exact ⟨c, .inr (.inr last), holds⟩

theorem forall_mem_replaced {P : Activation → Prop} (old : ∀ c ∈ before ++ a :: after, P c)
    (new : P b) : ∀ c ∈ before ++ ([b] ++ after), P c := by
  intro c member
  rw [List.singleton_append, List.mem_append, List.mem_cons] at member
  rcases member with first | rfl | last
  · exact old c (List.mem_append_left _ first)
  · exact new
  · exact old c (List.mem_append_right _ (List.mem_cons_of_mem _ last))

/-- The last write of a `send_eoi`, to the master. -/
theorem Serviced.finish (serviced : Serviced s) (stack : s.activations = before ++ a :: after)
    (todo : a.todo = [(eoiByte (masterLine a.irq), MASTER_8259_PORT)])
    (pics : t.pics = s.pics.outb (eoiByte (masterLine a.irq)) MASTER_8259_PORT)
    (rest : t.activations = before ++ ([{ a with todo := [] }] ++ after)) : Serviced t := by
  have small := masterLine_lt a.irq
  have working : a.unfinished := by simp [Activation.unfinished, todo]
  have finished : ¬ Activation.unfinished { a with todo := [] } := Bool.false_ne_true
  have nested := serviced.nested
  have handlers := serviced.handlers
  rw [stack] at nested handlers
  have here := handlers a (List.mem_append_right _ List.mem_cons_self)
  have written := (outb_eoi s.pics small).1
  constructor
  case programmed =>
    rw [pics]
    exact (serviced.programmed.outb_eoi small).1
  case handlers =>
    rw [rest]
    exact forall_mem_replaced handlers ⟨here.1, here.2.1, List.nil_suffix⟩
  case nested =>
    rw [linesAtWork_append, linesAtWork_cons, if_pos working] at nested
    rw [rest, List.singleton_append, linesAtWork_append, linesAtWork_cons, if_neg finished]
    exact List.Pairwise.sublist (List.Sublist.append_left (List.sublist_cons_self _ _) _) nested
  case master =>
    intro line inside
    rw [rest, mem_linesAtWork_finished nested working finished, ← stack,
      ← serviced.master line inside, pics, written, and_not_lineBit _ _ inside]
    simp
  case slave =>
    intro line inside
    rw [rest, pics, written, serviced.slave line inside, stack, List.singleton_append,
      exists_mem_without, exists_mem_without]
    · rintro ⟨_, whole⟩
      exact sendEoi_ne_nil here.1 whole.symm
    · -- the write before this one has taken the handler off the slave
      rintro ⟨number, whole⟩
      rw [todo, number, sendEoi_slave (Nat.le_add_right 8 line) (by omega)] at whole
      simp at whole

/-- The first write of the `send_eoi` for a line of the slave. -/
theorem Serviced.finishSlave (serviced : Serviced s)
    (stack : s.activations = before ++ a :: after) (upper : 8 ≤ a.irq)
    (todo : a.todo = [(eoiByte (a.irq - 8), SLAVE_8259_PORT), (eoiByte 2, MASTER_8259_PORT)])
    (pics : t.pics = s.pics.outb (eoiByte (a.irq - 8)) SLAVE_8259_PORT)
    (rest : t.activations =
      before ++ ([{ a with todo := [(eoiByte 2, MASTER_8259_PORT)] }] ++ after)) :
    Serviced t := by
  have working : a.unfinished := by simp [Activation.unfinished, todo]
  have nested := serviced.nested
  have handlers := serviced.handlers
  rw [stack] at nested handlers
  obtain ⟨small, notCascade, _⟩ := handlers a (List.mem_append_right _ List.mem_cons_self)
  have line : a.irq - 8 < 8 := by omega
  have written := (outb_eoi s.pics line).2
  have lines : linesAtWork t.activations = linesAtWork s.activations := by
    rw [rest, stack]
    exact linesAtWork_kept working rfl rfl
  constructor
  case programmed =>
    rw [pics]
    exact (serviced.programmed.outb_eoi line).2
  case handlers =>
    rw [rest]
    refine forall_mem_replaced handlers ⟨small, notCascade, ?_⟩
    rw [sendEoi_slave upper small]
    exact List.suffix_cons _ _
  case nested =>
    rw [lines]
    exact serviced.nested
  case master =>
    intro line inside
    rw [lines, pics, written]
    exact serviced.master line inside
  case slave =>
    intro line inside
    -- the handler has just made its first write
    have begun : ¬ ([(eoiByte 2, MASTER_8259_PORT)] = sendEoi (BitVec.ofNat 32 a.irq)) := by
      simp [sendEoi_slave upper small]
    rw [rest, pics, written, and_not_lineBit _ _ inside, Bool.and_eq_true,
      serviced.slave line inside, List.singleton_append,
      exists_mem_without fun whole => begun whole.2, stack]
    by_cases same : a.irq = 8 + line
    · -- no other handler is at work for the slave
      have cleared : line = a.irq - 8 := by omega
      simp only [cleared, decide_true, Bool.not_true, Bool.false_eq_true, and_false, false_iff]
      rintro ⟨b, member, number, whole⟩
      have busy : b.unfinished := by
        simp [Activation.unfinished, whole, sendEoi_ne_nil (show b.irq < 16 by omega)]
      have apart := alone nested working member busy
      rw [masterLine, masterLine, if_neg (by omega), if_neg (by omega)] at apart
      exact apart rfl
    · have kept : line ≠ a.irq - 8 := by omega
      rw [exists_mem_without fun whole => same whole.1]
      simp [kept]

/-- The next write of a handler on top of the stack in use. -/
theorem Serviced.writeNext (serviced : Serviced s) (top : s.top = some a)
    (working : a.unfinished) : Serviced (s.writeNext a) := by
  obtain ⟨before, after, stack, replaced⟩ := exists_top top
  obtain ⟨small, _, part⟩ := serviced.handlers a
    (stack ▸ List.mem_append_right _ List.mem_cons_self)
  have some : a.todo ≠ [] := by simpa [Activation.unfinished] using working
  rcases todo_cases small part some with ⟨lower, todo⟩ | ⟨upper, todo⟩ | ⟨upper, todo⟩
  · have line : masterLine a.irq = a.irq := if_pos lower
    apply serviced.finish stack
    · rw [line, todo]
    · simp only [Interrupts.writeNext, todo, line]
      rfl
    · simp only [Interrupts.writeNext, todo]
      exact replaced _
  · apply serviced.finishSlave stack upper todo
    · simp only [Interrupts.writeNext, todo]
      rfl
    · simp only [Interrupts.writeNext, todo]
      exact replaced _
  · have line : masterLine a.irq = 2 := if_neg (Nat.not_lt.mpr upper)
    apply serviced.finish stack
    · rw [line, todo]
    · simp only [Interrupts.writeNext, todo, line]
      rfl
    · simp only [Interrupts.writeNext, todo]
      exact replaced _

/-- A handler that has finished returns. -/
theorem Serviced.iret (serviced : Serviced s) (top : s.top = some a)
    (finished : ¬ a.unfinished) : Serviced (s.setTop []) := by
  obtain ⟨before, after, stack, replaced⟩ := exists_top top
  have rest : (s.setTop []).activations = before ++ after := replaced []
  have here := serviced.handlers a (stack ▸ List.mem_append_right _ List.mem_cons_self)
  have lines : linesAtWork (before ++ after) = linesAtWork s.activations := by
    rw [stack, linesAtWork_append, linesAtWork_append, linesAtWork_cons, if_neg finished]
  constructor
  case programmed => exact serviced.programmed
  case handlers =>
    intro b member
    apply serviced.handlers b
    rw [rest] at member
    rw [stack]
    exact List.Sublist.subset (List.Sublist.append_left (List.sublist_cons_self _ _) _) member
  case nested =>
    rw [rest, lines]
    exact serviced.nested
  case master =>
    rw [rest, lines]
    exact serviced.master
  case slave =>
    intro line inside
    have slave := serviced.slave line inside
    rw [stack, exists_mem_without] at slave
    · rw [rest]
      exact slave
    · rintro ⟨_, whole⟩
      apply finished
      simp [Activation.unfinished, whole, sendEoi_ne_nil here.1]

end EndOfInterrupt

section Runs

variable {s : Interrupts}

theorem started_serviced (pics : Pics) (running : Nat) :
    Serviced (Interrupts.started pics running) := by
  have bits (line : Nat) : (0 : BitVec 8).getLsbD line = false := BitVec.getLsbD_zero
  constructor
  case programmed => exact pics.i8259Init_programmed
  case handlers =>
    intro a member
    cases member
  case nested => exact .nil
  case master =>
    intro line _
    simp [Interrupts.started, Pics.i8259Init_eq, linesAtWork]
  case slave =>
    intro line _
    simp [Interrupts.started, Pics.i8259Init_eq]

theorem Pics.SameButMasks.isr {p q : Pics} (same : p.SameButMasks q) :
    q.master.isr = p.master.isr ∧ q.slave.isr = p.slave.isr := by
  have master := congrArg Chip.isr same.master
  have slave := congrArg Chip.isr same.slave
  exact ⟨master, slave⟩

theorem Pics.SameButMasks.programmed {p q : Pics} (same : p.SameButMasks q)
    (programmed : p.Programmed) : q.Programmed := by
  obtain ⟨master, slave⟩ := same
  obtain ⟨h1, h2, h3, h4, h5, h6⟩ := programmed
  rw [← master] at h1 h3 h5
  rw [← slave] at h2 h4 h6
  exact ⟨h1, h2, h3, h4, h5, h6⟩

/-- One step, whatever it is. -/
theorem Serviced.step (serviced : Serviced s) (event : Event) (able : s.able event) :
    Serviced (s.step event) := by
  cases event with
  | request irq =>
      have same : (s.pics.request irq).master.isr = s.pics.master.isr ∧
          (s.pics.request irq).slave.isr = s.pics.slave.isr := by
        unfold Pics.request
        split <;> exact ⟨rfl, rfl⟩
      exact serviced.of_same (serviced.programmed.request irq) same.1 same.2 rfl
  | acknowledge =>
      obtain ⟨irq, pending⟩ := Option.isSome_iff_exists.mp able
      simp only [Interrupts.step, pending, Option.map_some, Option.getD_some]
      exact serviced.enter pending
  | endOfInterrupt =>
      obtain ⟨a, top, working⟩ := (Option.any_eq_true _ _).mp able
      simp only [Interrupts.step, top, Option.map_some, Option.getD_some]
      exact serviced.writeNext top working
  | iret =>
      obtain ⟨a, top, finished⟩ := (Option.any_eq_true _ _).mp able
      exact serviced.iret top (by simpa using finished)
  | switchTo pid => exact serviced.of_same serviced.programmed rfl rfl rfl
  | enableIrq irqNum =>
      have same := Pics.enableIrq_same serviced.programmed irqNum
      exact serviced.of_same (same.programmed serviced.programmed) same.isr.1 same.isr.2 rfl
  | disableIrq irqNum =>
      have same := Pics.disableIrq_same serviced.programmed irqNum
      exact serviced.of_same (same.programmed serviced.programmed) same.isr.1 same.isr.2 rfl

/-- From the initialization of the controllers on. -/
theorem Serviced.of_run {pics : Pics} {running : Nat} {events : List Event}
    (run : interrupts.Run (.started pics running) events s) : Serviced s :=
  run.invariant (fun _ event serviced able => serviced.step event able)
    (started_serviced pics running)

end Runs

/-- A controller has a request in service. -/
def Pics.inService (p : Pics) (irq : Nat) : Bool :=
  if irq < 8 then p.master.isr.getLsbD irq else p.slave.isr.getLsbD (irq - 8)

section Results

variable {s : Interrupts} {irq : Nat}

/-- The in-service bits of the controllers are the handlers that have not yet told them of
    their end, and each of these was entered while those before it were of less priority. -/
theorem Serviced.inService_iff (serviced : Serviced s) (small : irq < 16) (device : irq ≠ 2) :
    s.pics.inService irq = true ↔
      ∃ a ∈ s.activations, a.irq = irq ∧ a.todo = sendEoi (BitVec.ofNat 32 irq) := by
  unfold Pics.inService
  split
  · next lower =>
      rw [serviced.master irq lower, mem_linesAtWork]
      constructor
      · rintro ⟨a, member, working, line⟩
        have same : a.irq = irq := by
          unfold masterLine at line
          split at line <;> omega
        obtain ⟨inRange, _, part⟩ := serviced.handlers a member
        have some : a.todo ≠ [] := by simpa [Activation.unfinished] using working
        refine ⟨a, member, same, ?_⟩
        rw [same, sendEoi_master lower, List.suffix_cons_iff, List.suffix_nil] at part
        rw [sendEoi_master lower]
        exact part.resolve_right some
      · rintro ⟨a, member, rfl, whole⟩
        refine ⟨a, member, ?_, if_pos lower⟩
        simp [Activation.unfinished, whole, sendEoi_ne_nil small]
  · next upper =>
      rw [serviced.slave (irq - 8) (by omega)]
      have number : 8 + (irq - 8) = irq := by omega
      rw [number]
      apply exists_congr
      intro a
      apply and_congr_right
      intro _
      constructor
      · rintro ⟨rfl, whole⟩
        exact ⟨rfl, whole⟩
      · rintro ⟨rfl, whole⟩
        exact ⟨rfl, whole⟩

/-- In every state reached, in any order of steps, a request is in service at its controller
    exactly while a handler for it, on whatever stack, has not begun its `send_eoi`.  The
    handlers that have not ended theirs are for different lines of the master, each of more
    priority than those before it. -/
theorem in_service_while_handled {pics : Pics} {running : Nat} {events : List Event}
    (run : interrupts.Run (.started pics running) events s) :
    (∀ irq < 16, irq ≠ 2 → (s.pics.inService irq = true ↔
      ∃ a ∈ s.activations, a.irq = irq ∧ a.todo = sendEoi (BitVec.ofNat 32 irq))) ∧
      (s.activations.filter Activation.unfinished).Pairwise fun newer older =>
        masterLine newer.irq < masterLine older.irq := by
  have serviced := Serviced.of_run run
  exact ⟨fun irq small device => serviced.inService_iff small device,
    List.pairwise_map.mp serviced.nested⟩

end Results

/-- A controller as it is before its initialization. -/
def blankChip : Chip := ⟨0, 0, 0, 0, 0, 0, .icw2⟩

/-- The clock interrupts process 4, the timer interrupts the handler of the clock, and the
    scheduler goes on with process 5. -/
def timerInClock : List Event :=
  [.enableIrq 8, .enableIrq 0, .request 8, .acknowledge, .request 0, .acknowledge,
    .endOfInterrupt, .switchTo 5]

theorem timerInClock_run : interrupts.Run (.started ⟨blankChip, blankChip⟩ 4) timerInClock
    (timerInClock.foldl interrupts.next (.started ⟨blankChip, blankChip⟩ 4)) :=
  .of_eachStep (by decide +kernel)

/-- The clock stays in service for its handler on the stack of process 4. -/
theorem timerInClock_in_service :
    let s := timerInClock.foldl interrupts.next (.started ⟨blankChip, blankChip⟩ 4)
    (∀ irq < 16, irq ≠ 2 → (s.pics.inService irq = true ↔
      ∃ a ∈ s.activations, a.irq = irq ∧ a.todo = sendEoi (BitVec.ofNat 32 irq))) ∧
      (s.activations.filter Activation.unfinished).Pairwise fun newer older =>
        masterLine newer.irq < masterLine older.irq :=
  in_service_while_handled timerInClock_run

end LightOS.Interrupt
