import LightOS.Interrupt.Gates
import LightOS.Kernel.Process
import LightOS.Lib.Ia32Gates

/-! # The linkage of the interrupt handlers

`pit_handler_linkage`, `rtc_handler_linkage` and `keyboard_handler_linkage` save the registers
on the kernel stack of the process that is running and call their handlers.  The gates leave
the interrupt flag alone, so the next interrupt can come between any two instructions, the
linkage's own included, and the PIT handler can go on with the stack of another process in the
middle.  Still the code that was interrupted finds everything as it was, as long as a program is
interrupted with `tss.esp0` at the top of the kernel stack of its process.
-/

namespace LightOS.Interrupt

open Lib Lib.Ia32 Kernel

def KERNEL_DS : Nat := 0x18

/-- The size of `pcb_t`, which lies at the bottom of the kernel stack. -/
def PCB_SIZE : Nat := 192

inductive Linkage
  | pitHandlerLinkage | rtcHandlerLinkage | keyboardHandlerLinkage
  deriving DecidableEq

inductive LinkageInstr
  | pushal | pushfl | call | popfl | popal | iret
  deriving DecidableEq

/-- `INTERRUPT_WRAPPER` -/
def interruptWrapper : List LinkageInstr := [.pushal, .pushfl, .call, .popfl, .popal, .iret]

def linkages : List Linkage := [.pitHandlerLinkage, .rtcHandlerLinkage, .keyboardHandlerLinkage]

/-- In bytes. -/
def LinkageInstr.size : LinkageInstr → Nat
  | .call => 5
  | _ => 1

def LinkageInstr.offset (i : LinkageInstr) : Nat :=
  ((interruptWrapper.takeWhile (· ≠ i)).map size).sum

/-- How far below the frame the stack pointer is when an instruction is reached. -/
def LinkageInstr.depth : LinkageInstr → Nat
  | .pushal | .iret => 0
  | .pushfl | .popal => 32
  | .call | .popfl => 36

/-- Where the stubs and the functions that they call have been loaded. -/
structure Text where
  linkage : Linkage → Word
  func : Linkage → Word
  distinct : ∀ l i m j, linkage l + BitVec.ofNat 32 (LinkageInstr.offset i) =
    linkage m + BitVec.ofNat 32 (LinkageInstr.offset j) → l = m ∧ i = j
  outside : ∀ l m i, func l ≠ linkage m + BitVec.ofNat 32 (LinkageInstr.offset i)

def Text.address (text : Text) (l : Linkage) (i : LinkageInstr) : Word :=
  text.linkage l + BitVec.ofNat 32 i.offset

/-- The instruction of a stub that EIP is at; `none` in the code of C functions and programs. -/
def Text.fetch (text : Text) (eip : Word) : Option (Linkage × LinkageInstr) :=
  (linkages.product interruptWrapper).find? fun place => text.address place.1 place.2 = eip

/-- An interrupt that has not returned: `saved` and `memory` are what it interrupted. -/
structure Handling where
  linkage : Linkage
  saved : Ia32.Context
  memory : Nat → Word

/-- Where the frame of an interrupt starts on the stack of `pid`. -/
def Handling.base (h : Handling) (pid : Nat) : Nat := h.saved.frameBase (kernelStackPointer pid)

/-- The CPU, the process that is running, `tss.esp0`, the fields `current_esp` and
    `current_ebp` of the control blocks, and the interrupts on each kernel stack. -/
structure Stacks where
  core : Core
  running : Nat
  esp0 : Nat
  parked : Nat → Option (Nat × Word)
  handlings : Nat → List Handling

def stackLow (pid : Nat) : Nat := pcbAddress pid + PCB_SIZE

/-- The words of a kernel stack, above the control block. -/
def OnStack (pid p : Nat) : Prop :=
  1 ≤ pid ∧ pid ≤ 6 ∧ stackLow pid ≤ p ∧ p < kernelStackPointer pid

/-- An interrupt arrives; the next instruction of a stub; some instruction of a C function or of
    a program; the return of a handler to its stub; `schedule` or `halt` goes on with another
    process; `execute` starts a program. -/
inductive Instruction
  | interrupt (l : Linkage)
  | linkage
  | code (after : Core)
  | ret
  | resume (pid : Nat)
  | start (pid esp0 : Nat) (program : Ia32.Context)

namespace Stacks

variable (text : Text)

/-- The processor after an instruction of a stub. -/
def execute (c : Core) (l : Linkage) : LinkageInstr → Core
  | .pushal => { c.pushal with eip := c.eip + 1 }
  | .pushfl => { c.push c.eflags with eip := c.eip + 1 }
  | .call => { c.push (c.eip + 5) with eip := text.func l }
  | .popfl => { c.drop with eflags := c.top 0, eip := c.eip + 1 }
  | .popal => { c.popal with eip := c.eip + 1 }
  | .iret => c.iret

/-- `current_esp` and `current_ebp` of the process that is running. -/
def park (s : Stacks) : Nat → Option (Nat × Word) :=
  Function.update s.parked s.running (some (s.core.esp, s.core.reg .ebp))

def step (s : Stacks) : Instruction → Stacks
  | .interrupt l =>
      { s with
        core := s.core.enterGate s.esp0 (BitVec.ofNat 32 KERNEL_DS) (BitVec.ofNat 32 KERNEL_CS)
          (text.linkage l)
        handlings := Function.update s.handlings s.running
          (⟨l, s.core.toContext, s.core.mem⟩ :: s.handlings s.running) }
  | .linkage =>
      match text.fetch s.core.eip with
      | none => s
      | some (l, i) =>
          { s with
            core := execute text s.core l i
            handlings := if i = .iret then
              Function.update s.handlings s.running (s.handlings s.running).tail else s.handlings }
  | .code after => { s with core := after }
  | .ret => { s with core := { s.core.drop with eip := s.core.top 0 } }
  | .resume pid =>
      match s.parked pid with
      | none => s
      | some (esp, ebp) =>
          { s with
            core := { s.core with esp := esp, reg := Function.update s.core.reg .ebp ebp }
            running := pid
            esp0 := kernelStackPointer pid
            parked := s.park }
  | .start pid esp0 program =>
      { s with
        core := { program with mem := s.core.mem }
        running := pid
        esp0 := esp0
        parked := s.park }

/-- The stack pointer of the kernel's own code on the stack of `pid`: below what the linkage of
    the latest interrupt has pushed. -/
def InBounds (pid esp : Nat) (handlings : List Handling) : Prop :=
  stackLow pid ≤ esp ∧ esp % 4 = 0 ∧
    match handlings with
    | [] => esp ≤ kernelStackPointer pid
    | h :: _ => esp + 40 ≤ h.base pid

/-- C code of the kernel at level 0. -/
def InKernel (s : Stacks) : Prop := text.fetch s.core.eip = none ∧ s.core.user = false

/-- What compiled code keeps to: it stays out of the stubs and of the stacks of other
    processes, and handlers stay below the words that the linkage pushed for them. -/
structure KeepsBelow (s : Stacks) (after : Core) : Prop where
  inCode : text.fetch s.core.eip = none
  staysInCode : text.fetch after.eip = none
  user : after.user → s.handlings s.running = [] ∧ after.esp < 2 ^ 32
  kernel : after.user = false → after.ss = BitVec.ofNat 32 KERNEL_DS ∧
    InBounds s.running after.esp (s.handlings s.running)
  own : ∀ h ∈ (s.handlings s.running).head?, ∀ p, OnStack s.running p →
    h.base s.running ≤ p + 40 → after.mem p = s.core.mem p
  others : ∀ pid ≠ s.running, ∀ p, OnStack pid p → after.mem p = s.core.mem p

/-- Where each of them can happen.  An interrupt needs room on the stack for its frame and for
    what the linkage pushes, and a program has to be interrupted with `tss.esp0` at the top of
    its own kernel stack: not so a program that `execute` has started, up to the next switch to
    it.  A handler returns with the stack as it found it. -/
def able (s : Stacks) : Instruction → Prop
  | .interrupt _ =>
      (s.core.user → s.esp0 = kernelStackPointer s.running) ∧
        stackLow s.running + 40 + 4 * s.core.frameWords.length ≤ s.core.frameTop s.esp0
  | .linkage => (text.fetch s.core.eip).isSome
  | .code after => s.KeepsBelow text after
  | .ret => s.InKernel text ∧
      ∃ h ∈ (s.handlings s.running).head?, s.core.esp + 40 = h.base s.running
  | .resume pid => s.InKernel text ∧ 1 ≤ pid ∧ pid ≤ 6 ∧ pid ≠ s.running ∧ (s.parked pid).isSome
  | .start pid _ program => s.InKernel text ∧ 1 ≤ pid ∧ pid ≤ 6 ∧ pid ≠ s.running ∧
      s.handlings pid = [] ∧ program.user ∧ program.esp < 2 ^ 32 ∧ text.fetch program.eip = none

end Stacks

/-- The kernel with interrupts anywhere. -/
def linkageMachine (text : Text) : Machine Stacks Instruction where
  enabled s instruction := s.able text instruction
  next s instruction := s.step text instruction

/-- At a stack pointer in bounds, what the linkage pushed for the handler above is in place. -/
def Resumable (text : Text) (pid : Nat) (mem : Nat → Word) (esp : Nat)
    (handlings : List Handling) : Prop :=
  Stacks.InBounds pid esp handlings ∧ ∀ h ∈ handlings.head?,
    SavedBelow (h.base pid) h.saved.reg mem ∧ mem (h.base pid - 40) = text.address h.linkage .popfl

/-- A context is that of a program, of the kernel's own code, or of the linkage at one of its
    instructions: the registers are saved below the frame, or still where they were. -/
def Placed (text : Text) (pid : Nat) (mem : Nat → Word) (context : Ia32.Context)
    (handlings : List Handling) : Prop :=
  match text.fetch context.eip with
  | none =>
      if context.user then handlings = [] ∧ context.esp < 2 ^ 32
      else context.ss = BitVec.ofNat 32 KERNEL_DS ∧ Resumable text pid mem context.esp handlings
  | some (l, i) =>
      context.user = false ∧ context.ss = BitVec.ofNat 32 KERNEL_DS ∧
        ∃ h hs, handlings = h :: hs ∧ h.linkage = l ∧ context.esp + i.depth = h.base pid ∧
          if i.depth = 0 then context.reg = h.saved.reg
          else SavedBelow (h.base pid) h.saved.reg mem

/-- The frame of an interrupt, and the stack above it, are as the interrupt found them. -/
structure Handling.Kept (text : Text) (pid : Nat) (mem : Nat → Word) (h : Handling)
    (below : List Handling) : Prop where
  valid : 1 ≤ pid ∧ pid ≤ 6
  framed : Framed h.saved (h.base pid) mem
  low : stackLow pid + 40 ≤ h.base pid
  aligned : h.base pid % 4 = 0
  size : h.base pid + 4 * h.saved.frameWords.length = h.saved.frameTop (kernelStackPointer pid)
  top : h.saved.frameTop (kernelStackPointer pid) ≤ kernelStackPointer pid
  memory : ∀ p, OnStack pid p → h.saved.frameTop (kernelStackPointer pid) ≤ p → mem p = h.memory p
  placed : Placed text pid mem h.saved below

/-- All interrupts on a stack. -/
def Nested (text : Text) (pid : Nat) (mem : Nat → Word) : List Handling → Prop
  | [] => True
  | h :: hs => h.Kept text pid mem hs ∧ Nested text pid mem hs

structure Stacks.Sound (text : Text) (s : Stacks) : Prop where
  valid : 1 ≤ s.running ∧ s.running ≤ 6
  nested : ∀ pid, Nested text pid s.core.mem (s.handlings pid)
  placed : Placed text s.running s.core.mem s.core.toContext (s.handlings s.running)
  parked : ∀ pid ≠ s.running, ∀ esp ebp, s.parked pid = some (esp, ebp) →
    Resumable text pid s.core.mem esp (s.handlings pid)

section Linkage

variable {text : Text} {pid esp : Nat} {mem mem' : Nat → Word} {context : Ia32.Context}
  {h : Handling} {hs : List Handling} {s : Stacks}

theorem kernelStackPointer_eq (valid : 1 ≤ pid ∧ pid ≤ 6) :
    kernelStackPointer pid + 4 + pid * 0x2000 = 0x802000 ∧
      pcbAddress pid + pid * 0x2000 = 0x800000 := by
  simp only [kernelStackPointer, pcbAddress, KERNEL_STACK_BASE_ADDRESS, USER_KERNEL_STACK_SIZE]
  omega

/-- The kernel stacks do not overlap. -/
theorem OnStack.unique {other p : Nat} (first : OnStack pid p) (second : OnStack other p) :
    other = pid := by
  obtain ⟨low, high, from_, before⟩ := first
  obtain ⟨low', high', from', before'⟩ := second
  have slot := kernelStackPointer_eq ⟨low, high⟩
  have slot' := kernelStackPointer_eq ⟨low', high'⟩
  simp only [stackLow] at from_ from'
  omega

theorem Text.fetch_address (text : Text) (l : Linkage) (i : LinkageInstr) :
    text.fetch (text.address l i) = some (l, i) := by
  have member : (l, i) ∈ linkages.product interruptWrapper := by
    cases l <;> cases i <;> decide
  cases found : text.fetch (text.address l i) with
  | none =>
      rw [fetch, List.find?_eq_none] at found
      exact absurd (decide_eq_true rfl) (found (l, i) member)
  | some place =>
      rw [fetch] at found
      have same := List.find?_some found
      rw [decide_eq_true_eq] at same
      obtain ⟨rfl, rfl⟩ := text.distinct _ _ _ _ same
      rfl

theorem Text.eq_of_fetch {eip : Word} {l : Linkage} {i : LinkageInstr}
    (found : text.fetch eip = some (l, i)) : eip = text.address l i := by
  rw [fetch] at found
  have same := List.find?_some found
  rw [decide_eq_true_eq] at same
  exact same.symm

theorem Text.fetch_func (text : Text) (l : Linkage) : text.fetch (text.func l) = none := by
  rw [fetch, List.find?_eq_none]
  intro place _
  rw [decide_eq_true_eq]
  exact fun same => text.outside l place.1 place.2 same.symm

/-- The addresses of the instructions follow one another. -/
theorem Text.address_next (text : Text) (l : Linkage) :
    text.address l .pushal + 1 = text.address l .pushfl ∧
      text.address l .pushfl + 1 = text.address l .call ∧
      text.address l .call + 5 = text.address l .popfl ∧
      text.address l .popfl + 1 = text.address l .popal ∧
      text.address l .popal + 1 = text.address l .iret := by
  simp only [address, BitVec.add_assoc]
  exact ⟨rfl, rfl, rfl, rfl, rfl⟩

theorem Resumable.of_same (resumable : Resumable text pid mem esp hs)
    (nested : Nested text pid mem hs)
    (same : ∀ p, OnStack pid p → esp ≤ p → mem' p = mem p) : Resumable text pid mem' esp hs := by
  refine ⟨resumable.1, fun h head => ?_⟩
  obtain ⟨below, return_⟩ := resumable.2 h head
  cases hs with
  | nil => nomatch head
  | cons first hs =>
      obtain rfl : first = h := by simpa using head
      obtain ⟨kept, _⟩ := nested
      have low := kept.low
      have bounds : esp + 40 ≤ first.base pid := resumable.1.2.2
      have size := kept.size
      have top := kept.top
      have onStack : ∀ p, first.base pid ≤ p + 40 → p < first.base pid → OnStack pid p :=
        fun p from_ before => ⟨kept.valid.1, kept.valid.2, by omega, by
          have length := first.saved.frameWords_length
          omega⟩
      constructor
      · exact below.of_same (fun p from_ before => same p (onStack p (by omega) before) (by omega))
          (by omega)
      · have length : 0 < first.saved.frameWords.length := by
          rw [first.saved.frameWords_length]
          split <;> omega
        rw [same _ (onStack _ (by omega) (by omega)) (by omega)]
        exact return_

/-- Programs run with nothing on their kernel stack. -/
theorem Placed.of_user (placed : Placed text pid mem context hs) (user : context.user = true) :
    hs = [] ∧ context.esp < 2 ^ 32 := by
  rw [Placed] at placed
  cases fetched : text.fetch context.eip with
  | none => simpa [fetched, user] using placed
  | some place =>
      simp only [fetched, user] at placed
      nomatch placed.1

/-- The kernel's own code. -/
theorem Placed.of_code (placed : Placed text pid mem context hs)
    (code : text.fetch context.eip = none) (kernel : context.user = false) :
    context.ss = BitVec.ofNat 32 KERNEL_DS ∧ Resumable text pid mem context.esp hs := by
  rw [Placed] at placed
  simpa [code, kernel] using placed

theorem placed_code (code : text.fetch context.eip = none) (kernel : context.user = false)
    (ss : context.ss = BitVec.ofNat 32 KERNEL_DS)
    (resumable : Resumable text pid mem context.esp hs) : Placed text pid mem context hs := by
  rw [Placed]
  simpa [code, kernel] using ⟨ss, resumable⟩

theorem placed_user (code : text.fetch context.eip = none) (user : context.user = true)
    (small : context.esp < 2 ^ 32) : Placed text pid mem context [] := by
  rw [Placed]
  simpa [code, user] using small

/-- The linkage of the latest interrupt, at one of its instructions. -/
theorem placed_linkage {i : LinkageInstr} (eip : context.eip = text.address h.linkage i)
    (kernel : context.user = false) (ss : context.ss = BitVec.ofNat 32 KERNEL_DS)
    (esp : context.esp + i.depth = h.base pid)
    (regs : if i.depth = 0 then context.reg = h.saved.reg
      else SavedBelow (h.base pid) h.saved.reg mem) : Placed text pid mem context (h :: hs) := by
  rw [Placed, eip, text.fetch_address]
  exact ⟨kernel, ss, h, hs, rfl, rfl, esp, regs⟩

/-- Where a context of the kernel has its stack pointer. -/
theorem Placed.bounds (placed : Placed text pid mem context hs) (nested : Nested text pid mem hs)
    (kernel : context.user = false) :
    context.ss = BitVec.ofNat 32 KERNEL_DS ∧ context.esp ≤ kernelStackPointer pid ∧
      context.esp % 4 = 0 ∧ ∀ h ∈ hs.head?, context.esp ≤ h.base pid := by
  have below : ∀ first rest, hs = first :: rest → first.base pid ≤ kernelStackPointer pid ∧
      first.base pid % 4 = 0 := by
    rintro first rest rfl
    have size := nested.1.size
    have top := nested.1.top
    exact ⟨by omega, nested.1.aligned⟩
  rw [Placed] at placed
  cases fetched : text.fetch context.eip with
  | none =>
      simp only [fetched, kernel, Bool.false_eq_true, ite_false] at placed
      obtain ⟨ss, ⟨_, aligned, bounds⟩, _⟩ := placed
      cases hs with
      | nil => exact ⟨ss, bounds, aligned, fun h head => nomatch head⟩
      | cons first rest =>
          have limit : context.esp + 40 ≤ first.base pid := bounds
          have base := below first rest rfl
          refine ⟨ss, by omega, aligned, fun h head => ?_⟩
          obtain rfl : first = h := by simpa using head
          omega
  | some place =>
      simp only [fetched] at placed
      obtain ⟨_, ss, first, rest, rfl, _, esp, _⟩ := placed
      have base := below first rest rfl
      have depth : place.2.depth % 4 = 0 := by cases place.2 <;> rfl
      refine ⟨ss, by omega, by omega, fun h head => ?_⟩
      obtain rfl : first = h := by simpa using head
      omega

theorem Placed.of_same (placed : Placed text pid mem context hs) (nested : Nested text pid mem hs)
    (same : context.user = false → ∀ p, OnStack pid p → context.esp ≤ p → mem' p = mem p) :
    Placed text pid mem' context hs := by
  rw [Placed] at placed ⊢
  cases fetched : text.fetch context.eip with
  | none =>
      simp only [fetched] at placed ⊢
      cases level : context.user with
      | true => simpa [level] using placed
      | false =>
          simp only [level, Bool.false_eq_true, ite_false] at placed ⊢
          exact ⟨placed.1, placed.2.of_same nested (same level)⟩
  | some place =>
      simp only [fetched] at placed ⊢
      obtain ⟨kernel, ss, first, rest, rfl, linkage, esp, regs⟩ := placed
      refine ⟨kernel, ss, first, rest, rfl, linkage, esp, ?_⟩
      cases depth : decide (place.2.depth = 0) with
      | true =>
          rw [decide_eq_true_eq] at depth
          rw [if_pos depth] at regs ⊢
          exact regs
      | false =>
          rw [decide_eq_false_iff_not] at depth
          rw [if_neg depth] at regs ⊢
          have deep : 32 ≤ place.2.depth := by
            cases instr : place.2 <;> rw [instr] at depth <;> first | decide | exact absurd rfl depth
          obtain ⟨kept, _⟩ := nested
          have low := kept.low
          have size := kept.size
          have top := kept.top
          have length := first.saved.frameWords_length
          have positive : 0 < first.saved.frameWords.length := by
            rw [length]
            split <;> omega
          exact regs.of_same (fun p from_ before => same kernel p
            ⟨kept.valid.1, kept.valid.2, by omega, by omega⟩ (by omega)) (by omega)

/-- What is on a stack depends on the words from the latest frame on. -/
theorem Nested.of_same (nested : Nested text pid mem hs)
    (same : ∀ h ∈ hs.head?, ∀ p, OnStack pid p → h.base pid ≤ p → mem' p = mem p) :
    Nested text pid mem' hs := by
  induction hs with
  | nil => trivial
  | cons h hs ih =>
      obtain ⟨kept, rest⟩ := nested
      have unchanged := same h rfl
      have low := kept.low
      have size := kept.size
      have top := kept.top
      have savedEsp : h.saved.user = false →
          h.saved.frameTop (kernelStackPointer pid) = h.saved.esp := by
        intro kernel
        simp [Context.frameTop, kernel]
      constructor
      · constructor
        · exact kept.valid
        · exact kept.framed.of_same fun p from_ before => unchanged p
            ⟨kept.valid.1, kept.valid.2, by omega, by omega⟩ from_
        · exact low
        · exact kept.aligned
        · exact size
        · exact top
        · intro p onStack from_
          rw [unchanged p onStack (by omega)]
          exact kept.memory p onStack from_
        · refine kept.placed.of_same rest fun kernel p onStack from_ => unchanged p onStack ?_
          have esp := savedEsp kernel
          omega
      · refine ih rest fun next head p onStack from_ => unchanged p onStack ?_
        have kernel : h.saved.user = false := by
          cases level : h.saved.user with
          | false => rfl
          | true =>
              rw [(kept.placed.of_user level).1] at head
              nomatch head
        have esp := savedEsp kernel
        have bound := (kept.placed.bounds rest kernel).2.2.2 next head
        omega
end Linkage

end LightOS.Interrupt
