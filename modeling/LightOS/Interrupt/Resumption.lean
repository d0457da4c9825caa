import LightOS.Interrupt.Linkage
import Mathlib.Tactic.Common

/-! # The code that was interrupted

Every instruction keeps the frames on all kernel stacks, whatever else it does.  So the `iret`
that takes an interrupt off its stack gives the CPU back as the interrupt found it.
-/

namespace LightOS.Interrupt

open Lib Lib.Ia32 Kernel

section Resumption

variable {text : Text} {pid : Nat} {mem : Nat → Word} {h : Handling} {hs : List Handling}
  {s : Stacks}

/-- A step of the process that is running that touches only its own stack. -/
theorem Stacks.Sound.of_own {t : Stacks} (sound : s.Sound text) (running : t.running = s.running)
    (parked : t.parked = s.parked)
    (handlings : ∀ pid ≠ s.running, t.handlings pid = s.handlings pid)
    (others : ∀ pid ≠ s.running, ∀ p, OnStack pid p → t.core.mem p = s.core.mem p)
    (nested : Nested text s.running t.core.mem (t.handlings s.running))
    (placed : Placed text s.running t.core.mem t.core.toContext (t.handlings s.running)) :
    t.Sound text where
  valid := running ▸ sound.valid
  nested pid := by
    cases own : decide (pid = s.running) with
    | true =>
        rw [decide_eq_true_eq] at own
        subst own
        exact nested
    | false =>
        rw [decide_eq_false_iff_not] at own
        rw [handlings pid own]
        exact (sound.nested pid).of_same fun h _ p onStack _ => others pid own p onStack
  placed := by
    rw [running]
    exact placed
  parked pid other esp ebp stored := by
    rw [running] at other
    rw [parked] at stored
    rw [handlings pid other]
    exact (sound.parked pid other esp ebp stored).of_same (sound.nested pid)
      fun p onStack _ => others pid other p onStack

/-- Writes below a stack pointer that is itself on the stack stay on it. -/
theorem off_other_stacks (sound : s.Sound text) {low high p : Nat} (bottom : stackLow s.running ≤ low)
    (limit : high ≤ kernelStackPointer s.running) (other : pid ≠ s.running)
    (onStack : OnStack pid p) : p < low ∨ high ≤ p := by
  by_contra inside
  rw [not_or, Nat.not_lt, Nat.not_le] at inside
  exact other (OnStack.unique ⟨sound.valid.1, sound.valid.2, by omega, by omega⟩ onStack)

theorem Stacks.Sound.interrupt (sound : s.Sound text) {l : Linkage}
    (able : s.able text (.interrupt l)) : (s.step text (.interrupt l)).Sound text := by
  obtain ⟨esp0, room⟩ := able
  have frameTop : s.core.frameTop s.esp0 = s.core.frameTop (kernelStackPointer s.running) := by
    cases level : s.core.user with
    | false => simp [Context.frameTop, level]
    | true => rw [esp0 level]
  have bounds : s.core.frameTop (kernelStackPointer s.running) ≤ kernelStackPointer s.running ∧
      s.core.frameTop (kernelStackPointer s.running) % 4 = 0 := by
    cases level : s.core.user with
    | false =>
        have placed := sound.placed.bounds (sound.nested _) level
        simp only [Context.frameTop, level, Bool.false_eq_true, ite_false]
        exact ⟨placed.2.1, placed.2.2.1⟩
    | true =>
        have slot := kernelStackPointer_eq sound.valid
        simp only [Context.frameTop, level, ite_true]
        omega
  have entered : s.core.enterGate s.esp0 (BitVec.ofNat 32 KERNEL_DS) (BitVec.ofNat 32 KERNEL_CS)
      (text.linkage l) = s.core.enterGate (kernelStackPointer s.running) (BitVec.ofNat 32 KERNEL_DS)
        (BitVec.ofNat 32 KERNEL_CS) (text.linkage l) := by
    simp only [Core.enterGate, frameTop]
  rw [frameTop] at room
  have fits : 4 * s.core.frameWords.length ≤ s.core.frameTop (kernelStackPointer s.running) := by
    omega
  have base : s.core.frameBase (kernelStackPointer s.running) +
      4 * s.core.frameWords.length = s.core.frameTop (kernelStackPointer s.running) :=
    Nat.sub_add_cancel fits
  have kept : ∀ p, p < s.core.frameBase (kernelStackPointer s.running) ∨
      s.core.frameTop (kernelStackPointer s.running) ≤ p →
      (s.step text (.interrupt l)).core.mem p = s.core.mem p := by
    intro p outside
    rw [step, entered]
    exact Core.enterGate_mem fits outside
  have placed : Placed text s.running (s.step text (.interrupt l)).core.mem s.core.toContext
      (s.handlings s.running) := by
    refine sound.placed.of_same (sound.nested _) fun kernel p _ from_ => kept p (.inr ?_)
    simpa [Context.frameTop, kernel] using from_
  have nested : Nested text s.running (s.step text (.interrupt l)).core.mem
      (s.handlings s.running) := by
    refine (sound.nested _).of_same fun h head p _ from_ => kept p (.inr ?_)
    cases level : s.core.user with
    | true =>
        rw [(sound.placed.of_user level).1] at head
        cases head
    | false =>
        have bound := (sound.placed.bounds (sound.nested _) level).2.2.2 h head
        simp only [Context.frameTop, level, Bool.false_eq_true, ite_false]
        omega
  have handlings : (s.step text (.interrupt l)).handlings s.running =
      ⟨l, s.core.toContext, s.core.mem⟩ :: s.handlings s.running :=
    Function.update_self _ _ _
  refine sound.of_own rfl rfl (fun pid other => Function.update_of_ne other _ _) ?_ ?_ ?_
  · intro pid other p onStack
    exact kept p (off_other_stacks sound (by omega) bounds.1 other onStack)
  · rw [handlings]
    refine ⟨?_, nested⟩
    constructor
    · exact sound.valid
    · rw [step, entered]
      exact Core.enterGate_framed fits
    · simp only [Handling.base]
      omega
    · have length := s.core.frameWords_length
      simp only [Handling.base]
      omega
    · exact base
    · exact bounds.1
    · exact fun p _ from_ => kept p (.inr from_)
    · exact placed
  · have start : text.linkage l = text.address l .pushal := (BitVec.add_zero _).symm
    have ss : (if s.core.user then BitVec.ofNat 32 KERNEL_DS else s.core.ss) =
        BitVec.ofNat 32 KERNEL_DS := by
      cases level : s.core.user with
      | false =>
          rw [if_neg Bool.false_ne_true]
          exact (sound.placed.bounds (sound.nested _) level).1
      | true => rw [if_pos rfl]
    rw [handlings]
    have kernel : (s.step text (.interrupt l)).core.user = false := by
      show ((BitVec.ofNat 32 KERNEL_CS).toNat % 4 == 3) = false
      decide
    refine placed_linkage start kernel ss ?_ ?_
    · rw [step, entered, Core.enterGate_esp]
      rfl
    · rw [if_pos (show LinkageInstr.pushal.depth = 0 from rfl)]
      exact Core.enterGate_reg ..

/-- One instruction of the linkage of the latest interrupt: it only writes below the stack
    pointer, and it gets the context to its next place. -/
theorem execute_placed (kept : h.Kept text pid mem hs) {c : Core} {i : LinkageInstr}
    (memory : c.mem = mem) (eip : c.eip = text.address h.linkage i) (kernel : c.user = false)
    (ss : c.ss = BitVec.ofNat 32 KERNEL_DS) (esp : c.esp + i.depth = h.base pid)
    (regs : if i.depth = 0 then c.reg = h.saved.reg else SavedBelow (h.base pid) h.saved.reg mem)
    (inside : i ≠ .iret) :
    (∀ p, p < h.base pid - 40 ∨ h.base pid ≤ p →
        (Stacks.execute text c h.linkage i).mem p = mem p) ∧
      Placed text pid (Stacks.execute text c h.linkage i).mem
        (Stacks.execute text c h.linkage i).toContext (h :: hs) := by
  subst memory
  have low := kept.low
  have next := text.address_next h.linkage
  cases i with
  | pushal =>
      have base : c.esp = h.base pid := esp
      have room : 32 ≤ c.esp := by omega
      have saved := Core.pushal_saved room
      rw [base, show c.reg = h.saved.reg from regs] at saved
      rw [Stacks.execute, Core.pushal_eq]
      constructor
      · intro p outside
        exact Core.pushal_mem room (by omega)
      · refine placed_linkage (i := .pushfl) ?_ kernel ss ?_ saved
        · rw [← next.1, ← eip]
        · show c.esp - 32 + 32 = _
          omega
  | pushfl =>
      have depth : c.esp + 32 = h.base pid := esp
      have written : ∀ p, p < h.base pid - 40 ∨ h.base pid - 32 ≤ p →
          (c.push c.eflags).mem p = c.mem p :=
        fun p outside => Core.push_mem _ (by omega)
      constructor
      · intro p outside
        exact written p (by omega)
      · refine placed_linkage (i := .call) ?_ kernel ss ?_ ?_
        · rw [Stacks.execute, ← next.2.1, ← eip]
        · show c.esp - 4 + 36 = _
          omega
        · exact SavedBelow.of_same regs (fun p from_ _ => written p (by omega)) (by omega)
  | call =>
      have depth : c.esp + 36 = h.base pid := esp
      have written : ∀ p, p < h.base pid - 40 ∨ h.base pid - 36 ≤ p →
          (c.push (c.eip + 5)).mem p = c.mem p :=
        fun p outside => Core.push_mem _ (by omega)
      have aligned := kept.aligned
      constructor
      · intro p outside
        exact written p (by omega)
      · refine placed_code (text.fetch_func h.linkage) kernel ss ⟨⟨?_, ?_, ?_⟩, ?_⟩
        · show _ ≤ c.esp - 4
          omega
        · show (c.esp - 4) % 4 = 0
          omega
        · show c.esp - 4 + 40 ≤ _
          omega
        · intro first head
          obtain rfl : h = first := by simpa using head
          constructor
          · exact SavedBelow.of_same regs (fun p from_ _ => written p (by omega)) (by omega)
          · rw [← next.2.2.1, ← eip, show h.base pid - 40 = c.esp - 4 by omega]
            exact Function.update_self _ _ _
  | popfl =>
      have depth : c.esp + 36 = h.base pid := esp
      constructor
      · intro p _
        rfl
      · refine placed_linkage (i := .popal) ?_ kernel ss ?_ regs
        · rw [Stacks.execute, ← next.2.2.2.1, ← eip]
        · show c.esp + 4 + 32 = _
          omega
  | popal =>
      have depth : c.esp + 32 = h.base pid := esp
      have saved : SavedBelow (c.esp + 32) h.saved.reg c.mem := depth ▸ regs
      constructor
      · intro p _
        rfl
      · refine placed_linkage (i := .iret) ?_ kernel ss depth ?_
        · rw [Stacks.execute, ← next.2.2.2.2, ← eip]
        · exact Core.popal_reg saved
  | iret => exact absurd rfl inside

/-- Code of the linkage runs on top of an interrupt. -/
theorem Stacks.Sound.at_linkage (sound : s.Sound text) {l : Linkage} {i : LinkageInstr}
    (fetched : text.fetch s.core.eip = some (l, i)) :
    s.core.user = false ∧ s.core.ss = BitVec.ofNat 32 KERNEL_DS ∧
      ∃ h hs, s.handlings s.running = h :: hs ∧ h.linkage = l ∧
        s.core.esp + i.depth = h.base s.running ∧
        (if i.depth = 0 then s.core.reg = h.saved.reg
          else SavedBelow (h.base s.running) h.saved.reg s.core.mem) ∧
        h.Kept text s.running s.core.mem hs ∧ Nested text s.running s.core.mem hs := by
  have placed := sound.placed
  have nested := sound.nested s.running
  rw [Placed, fetched] at placed
  obtain ⟨kernel, ss, h, hs, stack, linkage, esp, regs⟩ := placed
  rw [stack] at nested
  exact ⟨kernel, ss, h, hs, stack, linkage, esp, regs, nested.1, nested.2⟩

/-- `iret` ends the latest interrupt with the context that it found. -/
theorem Stacks.Sound.returns (sound : s.Sound text) {l : Linkage}
    (fetched : text.fetch s.core.eip = some (l, .iret)) :
    ∃ h hs, s.handlings s.running = h :: hs ∧ h.Kept text s.running s.core.mem hs ∧
      Nested text s.running s.core.mem hs ∧ (s.step text .linkage).core.toContext = h.saved ∧
      (s.step text .linkage).core.mem = s.core.mem ∧
      (s.step text .linkage).handlings = Function.update s.handlings s.running hs := by
  obtain ⟨kernel, ss, h, hs, stack, rfl, esp, regs, kept, rest⟩ := sound.at_linkage fetched
  have core : (s.step text .linkage).core = s.core.iret := by
    simp only [step, fetched, execute]
  have base : h.base s.running = s.core.esp := esp.symm
  have framed := kept.framed
  rw [base] at framed
  have small : h.saved.esp < 2 ^ 32 := by
    cases level : h.saved.user with
    | true => exact (kept.placed.of_user level).2
    | false =>
        have bound := (kept.placed.bounds rest level).2.1
        have slot := kernelStackPointer_eq kept.valid
        omega
  have same : h.saved.user = false → s.core.esp + 12 = h.saved.esp ∧ s.core.ss = h.saved.ss := by
    intro level
    have size := kept.size
    rw [h.saved.frameWords_length] at size
    simp only [level, Bool.false_eq_true, ite_false, Context.frameTop, base] at size
    exact ⟨size, ss.trans (kept.placed.bounds rest level).1.symm⟩
  refine ⟨h, hs, stack, kept, rest, ?_, ?_, ?_⟩
  · rw [core]
    exact Core.iret_framed framed kernel small regs same
  · rw [core, Core.iret_mem]
  · simp only [step, fetched, ite_true, stack, List.tail_cons]

theorem Stacks.Sound.linkage (sound : s.Sound text) (able : s.able text .linkage) :
    (s.step text .linkage).Sound text := by
  cases fetched : text.fetch s.core.eip with
  | none =>
      rw [Stacks.able, fetched] at able
      nomatch able
  | some place =>
      obtain ⟨l, i⟩ := place
      have running : (s.step text .linkage).running = s.running := by
        simp only [step, fetched]
      have parked : (s.step text .linkage).parked = s.parked := by
        simp only [step, fetched]
      cases last : decide (i = .iret) with
      | true =>
          rw [decide_eq_true_eq] at last
          subst last
          obtain ⟨h, hs, stack, kept, rest, saved, mem, handlings⟩ := sound.returns fetched
          have top : (s.step text .linkage).handlings s.running = hs := by
            rw [handlings, Function.update_self]
          refine sound.of_own running parked ?_ ?_ ?_ ?_
          · intro pid other
            rw [handlings, Function.update_of_ne other]
          · intro pid _ p _
            rw [mem]
          · rw [mem, top]
            exact rest
          · rw [mem, top, saved]
            exact kept.placed
      | false =>
          rw [decide_eq_false_iff_not] at last
          obtain ⟨kernel, ss, h, hs, stack, rfl, esp, regs, kept, rest⟩ := sound.at_linkage fetched
          have core : (s.step text .linkage).core = execute text s.core h.linkage i := by
            simp only [step, fetched]
          have handlings : (s.step text .linkage).handlings = s.handlings := by
            simp only [step, fetched, if_neg last]
          obtain ⟨written, placed⟩ :=
            execute_placed kept rfl (Text.eq_of_fetch fetched) kernel ss esp regs last
          have low := kept.low
          have size := kept.size
          have limit := kept.top
          refine sound.of_own running parked ?_ ?_ ?_ ?_
          · intro pid _
            rw [handlings]
          · intro pid other p onStack
            rw [core]
            exact written p (off_other_stacks sound (by omega) (by omega) other onStack)
          · rw [core, handlings, stack]
            have nested : Nested text s.running s.core.mem (h :: hs) := ⟨kept, rest⟩
            refine nested.of_same fun first head p _ from_ => written p (.inr ?_)
            obtain rfl : h = first := by simpa using head
            exact from_
          · rw [core, handlings, stack]
            exact placed

theorem Stacks.Sound.code (sound : s.Sound text) {after : Core}
    (able : s.able text (.code after)) : (s.step text (.code after)).Sound text := by
  have keeps : s.KeepsBelow text after := able
  have nested := sound.nested s.running
  refine sound.of_own rfl rfl (fun _ _ => rfl) (fun pid other p onStack =>
    keeps.others pid other p onStack) ?_ ?_
  · exact nested.of_same fun h head p onStack from_ =>
      keeps.own h head p onStack (Nat.le_trans from_ (Nat.le_add_right p 40))
  · show Placed text s.running after.mem after.toContext (s.handlings s.running)
    cases level : after.user with
    | true =>
        obtain ⟨empty, small⟩ := keeps.user level
        rw [empty]
        exact placed_user keeps.staysInCode level small
    | false =>
        obtain ⟨ss, bounds⟩ := keeps.kernel level
        refine placed_code keeps.staysInCode level ss ⟨bounds, fun h head => ?_⟩
        cases hs : s.handlings s.running with
        | nil =>
            rw [hs] at head
            nomatch head
        | cons first rest =>
            rw [hs] at head nested
            obtain rfl : first = h := by simpa using head
            have kernel : s.core.user = false := by
              cases before : s.core.user with
              | false => rfl
              | true =>
                  have empty := (sound.placed.of_user before).1
                  rw [hs] at empty
                  nomatch empty
            have resumable := (sound.placed.of_code keeps.inCode kernel).2
            have own := keeps.own first (by rw [hs]; rfl)
            have low := nested.1.low
            have size := nested.1.size
            have limit := nested.1.top
            have length := first.saved.frameWords_length
            have positive : 0 < first.saved.frameWords.length := by
              rw [length]
              split <;> omega
            obtain ⟨below, return_⟩ := resumable.2 first (by rw [hs]; rfl)
            constructor
            · exact below.of_same (fun p from_ before => own p
                ⟨sound.valid.1, sound.valid.2, by omega, by omega⟩ (by omega)) (by omega)
            · rw [own _ ⟨sound.valid.1, sound.valid.2, by omega, by omega⟩ (by omega)]
              exact return_

theorem Stacks.Sound.ret (sound : s.Sound text) (able : s.able text .ret) :
    (s.step text .ret).Sound text := by
  obtain ⟨⟨code, kernel⟩, h, head, esp⟩ := able
  obtain ⟨ss, bounds, words⟩ := sound.placed.of_code code kernel
  obtain ⟨below, return_⟩ := words h head
  have nested := sound.nested s.running
  refine sound.of_own rfl rfl (fun _ _ => rfl) (fun _ _ _ _ => rfl) nested ?_
  cases hs : s.handlings s.running with
  | nil =>
      rw [hs] at head
      nomatch head
  | cons first rest =>
      rw [hs] at head
      obtain rfl : first = h := by simpa using head
      have eip : (s.step text .ret).core.eip = text.address first.linkage .popfl := by
        show s.core.mem (s.core.esp + 4 * 0) = _
        rw [← return_, show first.base s.running - 40 = s.core.esp by omega]
        rfl
      show Placed text s.running s.core.mem (s.step text .ret).core.toContext
        (s.handlings s.running)
      rw [hs]
      refine placed_linkage (i := .popfl) eip kernel ss ?_ below
      show s.core.esp + 4 + 36 = _
      omega

/-- The process that was running is left with a stack pointer that it can go on with. -/
theorem Stacks.Sound.park (sound : s.Sound text) (inKernel : s.InKernel text) {next : Nat}
    (other : pid ≠ next) {esp : Nat} {ebp : Word} (stored : s.park pid = some (esp, ebp)) :
    Resumable text pid s.core.mem esp (s.handlings pid) := by
  cases own : decide (pid = s.running) with
  | true =>
      rw [decide_eq_true_eq] at own
      subst own
      rw [Stacks.park, Function.update_self, Option.some.injEq, Prod.mk.injEq] at stored
      rw [← stored.1]
      exact (sound.placed.of_code inKernel.1 inKernel.2).2
  | false =>
      rw [decide_eq_false_iff_not] at own
      rw [Stacks.park, Function.update_of_ne own] at stored
      exact sound.parked pid own esp ebp stored

theorem Stacks.Sound.resume (sound : s.Sound text) (able : s.able text (.resume pid)) :
    (s.step text (.resume pid)).Sound text := by
  obtain ⟨inKernel, low, high, other, some⟩ := able
  obtain ⟨⟨esp, ebp⟩, stored⟩ := Option.isSome_iff_exists.mp some
  simp only [step, stored]
  have ss := (sound.placed.of_code inKernel.1 inKernel.2).1
  constructor
  · exact ⟨low, high⟩
  · exact sound.nested
  · exact placed_code inKernel.1 inKernel.2 ss (sound.parked pid other esp ebp stored)
  · exact fun waiting apart esp ebp stored => sound.park inKernel apart stored

theorem Stacks.Sound.start (sound : s.Sound text) {esp0 : Nat} {program : Ia32.Context}
    (able : s.able text (.start pid esp0 program)) :
    (s.step text (.start pid esp0 program)).Sound text := by
  obtain ⟨inKernel, low, high, other, empty, user, small, code⟩ := able
  constructor
  · exact ⟨low, high⟩
  · exact sound.nested
  · show Placed text pid s.core.mem program (s.handlings pid)
    rw [empty]
    exact placed_user code user small
  · exact fun waiting apart esp ebp stored => sound.park inKernel apart stored

theorem Stacks.Sound.step (sound : s.Sound text) (instruction : Instruction)
    (able : s.able text instruction) : (s.step text instruction).Sound text := by
  cases instruction with
  | interrupt l => exact sound.interrupt able
  | linkage => exact sound.linkage able
  | code after => exact sound.code able
  | ret => exact sound.ret able
  | resume pid => exact sound.resume able
  | start pid esp0 program => exact sound.start able

/-- A CPU with no interrupt on any stack, in a program or in the kernel's own code. -/
structure Stacks.Quiet (text : Text) (s : Stacks) : Prop where
  valid : 1 ≤ s.running ∧ s.running ≤ 6
  inCode : text.fetch s.core.eip = none
  level : if s.core.user then s.core.esp < 2 ^ 32 else
    s.core.ss = BitVec.ofNat 32 KERNEL_DS ∧ InBounds s.running s.core.esp []
  handlings : ∀ pid, s.handlings pid = []
  parked : ∀ pid, s.parked pid = none

theorem Stacks.Quiet.sound (quiet : s.Quiet text) : s.Sound text where
  valid := quiet.valid
  nested pid := by
    rw [quiet.handlings pid]
    trivial
  placed := by
    have level := quiet.level
    rw [quiet.handlings]
    cases user : s.core.user with
    | true =>
        rw [user] at level
        exact placed_user quiet.inCode user level
    | false =>
        rw [user, if_neg Bool.false_ne_true] at level
        exact placed_code quiet.inCode user level.1 ⟨level.2, fun h head => nomatch head⟩
  parked pid _ esp ebp stored := by
    rw [quiet.parked] at stored
    nomatch stored

theorem Stacks.Sound.of_run {t : Stacks} {instructions : List Instruction}
    (run : (linkageMachine text).Run s instructions t) (sound : s.Sound text) : t.Sound text :=
  run.invariant (fun _ instruction sound able => sound.step instruction able) sound

/-- A step adds an interrupt to a stack, takes the latest one off it, at an `iret`, or leaves
    the stack alone. -/
theorem step_handlings (text : Text) (s : Stacks) (instruction : Instruction) (pid : Nat) :
    (∃ h, (s.step text instruction).handlings pid = h :: s.handlings pid) ∨
      (s.step text instruction).handlings pid = s.handlings pid ∨
      instruction = .linkage ∧ (∃ l, text.fetch s.core.eip = some (l, .iret)) ∧
        pid = s.running ∧ (s.step text instruction).handlings pid = (s.handlings pid).tail := by
  cases instruction with
  | interrupt l =>
      cases own : decide (pid = s.running) with
      | true =>
          rw [decide_eq_true_eq] at own
          subst own
          exact .inl ⟨_, Function.update_self _ _ _⟩
      | false =>
          rw [decide_eq_false_iff_not] at own
          exact .inr (.inl (Function.update_of_ne own _ _))
  | linkage =>
      cases fetched : text.fetch s.core.eip with
      | none => simp [Stacks.step, fetched]
      | some place =>
          obtain ⟨l, i⟩ := place
          cases i with
          | iret =>
              cases own : decide (pid = s.running) with
              | true =>
                  rw [decide_eq_true_eq] at own
                  subst own
                  exact .inr (.inr ⟨rfl, ⟨l, rfl⟩, rfl, by simp [Stacks.step, fetched]⟩)
              | false =>
                  rw [decide_eq_false_iff_not] at own
                  exact .inr (.inl (by simp [Stacks.step, fetched, own]))
          | _ => simp [Stacks.step, fetched]
  | code after => exact .inr (.inl rfl)
  | ret => exact .inr (.inl rfl)
  | resume pid =>
      cases stored : s.parked pid with
      | none => simp [Stacks.step, stored]
      | some parked => simp [Stacks.step, stored]
  | start pid esp0 program => exact .inr (.inl rfl)

/-- As long as there are more than `hs`, an interrupt on top of `hs` stays where it is. -/
theorem handlings_suffix {t : Stacks} {instructions : List Instruction}
    (run : (linkageMachine text).Run s instructions t)
    (inside : (linkageMachine text).Always (fun u => hs.length < (u.handlings pid).length) s
      instructions) (start : (h :: hs) <:+ s.handlings pid) : (h :: hs) <:+ t.handlings pid := by
  induction run with
  | nil => exact start
  | @cons s instruction rest t able later ih =>
      obtain ⟨_, inside⟩ := inside
      refine ih inside ?_
      have more : hs.length < ((s.step text instruction).handlings pid).length := by
        cases rest with
        | nil => exact inside
        | cons next rest => exact inside.1
      rcases step_handlings text s instruction pid with
        ⟨added, pushed⟩ | same | ⟨_, _, _, popped⟩
      · show _ <:+ (s.step text instruction).handlings pid
        rw [pushed]
        exact start.trans (List.suffix_cons added _)
      · show _ <:+ (s.step text instruction).handlings pid
        rw [same]
        exact start
      · show _ <:+ (s.step text instruction).handlings pid
        rw [popped] at more ⊢
        obtain ⟨front, split⟩ := start
        cases front with
        | nil =>
            rw [← split] at more
            exact absurd more (Nat.lt_irrefl _)
        | cons first front =>
            rw [← split]
            exact List.suffix_append front _

/-- Whatever is interrupted, a program with its `esp0`, a handler or the linkage itself, and
    whatever interrupts and other processes come in between: the instruction that takes the
    interrupt off its stack is the `iret` of its linkage, and it leaves all registers, the flags,
    the stack pointer and the stack above it as the interrupt found them. -/
theorem interrupted_code_goes_on {s₀ t : Stacks} {before later : List Instruction} {l : Linkage}
    {instruction : Instruction} (quiet : s₀.Quiet text)
    (reached : (linkageMachine text).Run s₀ before s) (able : s.able text (.interrupt l))
    (handled : (linkageMachine text).Run (s.step text (.interrupt l)) later t)
    (inside : (linkageMachine text).Always (fun u =>
      (s.handlings s.running).length < (u.handlings s.running).length)
      (s.step text (.interrupt l)) later)
    (last : t.able text instruction)
    (back : ((t.step text instruction).handlings s.running).length =
      (s.handlings s.running).length) :
    (∃ l, text.fetch t.core.eip = some (l, .iret)) ∧ t.running = s.running ∧
      (t.step text instruction).core.toContext = s.core.toContext ∧
      (t.step text instruction).handlings s.running = s.handlings s.running ∧
      ∀ p, OnStack s.running p → s.core.frameTop (kernelStackPointer s.running) ≤ p →
        (t.step text instruction).core.mem p = s.core.mem p := by
  have entered := (quiet.sound.of_run reached).interrupt able
  have soundAtEnd := entered.of_run handled
  have start : (⟨l, s.core.toContext, s.core.mem⟩ :: s.handlings s.running) <:+
      (s.step text (.interrupt l)).handlings s.running := by
    rw [show (s.step text (.interrupt l)).handlings s.running =
      ⟨l, s.core.toContext, s.core.mem⟩ :: s.handlings s.running from Function.update_self _ _ _]
  obtain ⟨front, split⟩ := handlings_suffix handled inside start
  have length := congrArg List.length split
  rw [List.length_append, List.length_cons] at length
  rcases step_handlings text t instruction s.running with
    ⟨added, pushed⟩ | same | ⟨rfl, ⟨l', fetched⟩, running, popped⟩
  · rw [pushed, List.length_cons] at back
    omega
  · rw [same] at back
    omega
  · obtain ⟨h, hs, stack, kept, rest, saved, mem, handlings⟩ := soundAtEnd.returns fetched
    rw [← running] at stack kept handlings
    rw [popped, stack, List.tail_cons] at back
    rw [stack, List.length_cons] at length
    have empty : front = [] := List.eq_nil_of_length_eq_zero (by omega)
    rw [empty, List.nil_append, stack, List.cons.injEq] at split
    obtain ⟨rfl, rfl⟩ := split
    refine ⟨⟨l', fetched⟩, running.symm, saved, ?_, ?_⟩
    · rw [handlings, Function.update_self]
    · intro p onStack from_
      rw [mem]
      exact kept.memory p onStack from_

/-- The stubs 16 bytes apart, and the three functions behind them. -/
def Linkage.index : Linkage → Nat
  | .pitHandlerLinkage => 0
  | .rtcHandlerLinkage => 1
  | .keyboardHandlerLinkage => 2

theorem LinkageInstr.offset_lt (i : LinkageInstr) : i.offset < 16 := by
  cases i <;> decide

def loadedText : Text where
  linkage l := BitVec.ofNat 32 (0x1000 + 16 * l.index)
  func l := BitVec.ofNat 32 (0x2000 + l.index)
  distinct l i m j same := by
    have place := congrArg BitVec.toNat same
    have first := i.offset_lt
    have second := j.offset_lt
    have lines : l.index < 3 ∧ m.index < 3 := by cases l <;> cases m <;> decide
    simp only [BitVec.toNat_add, BitVec.toNat_ofNat] at place
    have index : l.index = m.index := by omega
    have offset : i.offset = j.offset := by omega
    constructor
    · cases l <;> cases m <;> first | rfl | nomatch index
    · revert offset
      cases i <;> cases j <;> decide
  outside l m i same := by
    have place := congrArg BitVec.toNat same
    have first := i.offset_lt
    have lines : l.index < 3 ∧ m.index < 3 := by cases l <;> cases m <;> decide
    simp only [BitVec.toNat_add, BitVec.toNat_ofNat] at place
    omega

/-- A program of process 1. -/
def programRunning : Stacks where
  core :=
    { reg := fun _ => 7, esp := 0x83FFFF0, eflags := 0x202, cs := 0x23, ss := 0x2B,
      eip := 0x8048100, mem := fun _ => 0 }
  running := 1
  esp0 := kernelStackPointer 1
  parked _ := none
  handlings _ := []

/-- The keyboard interrupts the linkage of the timer after its first instruction. -/
def keyInTick : List Instruction :=
  [.linkage, .interrupt .keyboardHandlerLinkage, .linkage, .linkage, .linkage, .ret, .linkage,
    .linkage, .linkage, .linkage, .linkage, .ret, .linkage, .linkage]

def tickTaken : Stacks := programRunning.step loadedText (.interrupt .pitHandlerLinkage)

theorem programRunning_quiet : programRunning.Quiet loadedText where
  valid := by decide
  inCode := rfl
  level := by
    rw [if_pos (show programRunning.core.user = true from rfl)]
    decide
  handlings _ := rfl
  parked _ := rfl

theorem keyInTick_able : (linkageMachine loadedText).EachStep
    (fun u instruction => u.able loadedText instruction) tickTaken keyInTick :=
  ⟨rfl, ⟨(fun user => nomatch user), by decide⟩, rfl, rfl, rfl, ⟨⟨rfl, rfl⟩, _, rfl, rfl⟩, rfl, rfl,
    rfl, rfl, rfl, ⟨⟨rfl, rfl⟩, _, rfl, rfl⟩, rfl, rfl, trivial⟩

/-- The interrupt of the timer has not returned yet. -/
theorem keyInTick_inside : (linkageMachine loadedText).Always
    (fun u => (programRunning.handlings 1).length < (u.handlings 1).length) tickTaken keyInTick := by
  simp only [keyInTick, Machine.Always]
  refine ⟨?_, ?_, ?_, ?_, ?_, ?_, ?_, ?_, ?_, ?_, ?_, ?_, ?_, ?_, ?_⟩ <;> exact Nat.succ_pos _

theorem keyInTick_goes_on :
    ((keyInTick.foldl (Stacks.step loadedText) tickTaken).step loadedText .linkage).core.toContext =
      programRunning.core.toContext := by
  have last : (keyInTick.foldl (Stacks.step loadedText) tickTaken).able loadedText .linkage := rfl
  have goesOn := interrupted_code_goes_on programRunning_quiet (.nil programRunning)
    ⟨fun _ => rfl, by decide⟩ (.of_eachStep keyInTick_able) keyInTick_inside last rfl
  exact goesOn.2.2.1

end Resumption

end LightOS.Interrupt
