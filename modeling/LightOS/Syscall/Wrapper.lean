import LightOS.Lib.Ia32
import Mathlib.Tactic.Common

/-! # The system-call entry stub

`syscall_wrapper` as it stands in syscallWrapper.S: six registers are pushed, EAX is
checked against 1..10, the handler is called through `jumptable`, and both ways out
execute `iret`.  Six words go on the stack; on the way out of a dispatched call one
comes off (`popfl`), on the fail path none does.  So `iret` never finds the five
words the CPU pushed at INT 0x80, although everything else the stub owes its caller
(arguments, result, callee-saved registers) is in order.
-/

namespace LightOS.Syscall

open Lib.Ia32

/-- Index of the label `fail` in `syscallWrapper`. -/
def fail : Nat := 13

def syscallWrapper : List Instr :=
  [ .pushl .ebp, .pushl .esi, .pushl .edi,
    .pushl .edx, .pushl .ecx, .pushl .ebx,
    .cmpl 1 .eax, .jl fail,
    .cmpl 10 .eax, .jg fail,
    .callTable .eax,
    .popfl,
    .iret,
    -- fail:
    .movl (-1) .eax,
    .iret ]

/-- EAX names an entry of the jumptable: the numbers 1..10, compared as signed words. -/
def ValidNumber (eax : Word) : Prop := 1 ≤ eax.toInt ∧ eax.toInt ≤ 10

instance (eax : Word) : Decidable (ValidNumber eax) := inferInstanceAs (Decidable (_ ∧ _))

/-- The handlers behind the ten valid numbers: three arguments, and above them the
    stub's three saved registers and the CPU's five words. -/
def CdeclTable (jumptable : Table) : Prop :=
  ∀ i, ValidNumber i → Cdecl 3 8 (jumptable i)

/-- What the stub owes to the program that executed INT 0x80 in state `c` (the CPU's
five words already pushed), read off the state `m` in which it executes `iret`; all
of it but the place of the stack pointer. -/
structure CallContract (c : Cpu) (m : State) : Prop where
  frame : ∀ k < 5, m.cpu.mem (c.esp + BitVec.ofNat 32 (4 * k)) = c.top k
  saved : ∀ r ∈ [Reg.ebx, .esi, .edi, .ebp], m.cpu.reg r = c.reg r
  dispatched : ValidNumber (c.reg .eax) →
    ∃ result, m.calls = [⟨c.reg .eax, [c.reg .ebx, c.reg .ecx, c.reg .edx], result⟩] ∧
      m.cpu.reg .eax = result
  failed : ¬ ValidNumber (c.reg .eax) → m.calls = [] ∧ m.cpu.reg .eax = -1

/-- `iret` finds the CPU's five words on top of the stack. -/
structure StackDiscipline (c : Cpu) (m : State) : Prop extends CallContract c m where
  esp : m.cpu.esp = c.esp

/-- The system call made in state `c` gets to an `iret`, and gets there in order. -/
def ReturnsInOrder (jumptable : Table) (c : Cpu) : Prop :=
  ∃ m, ReachesIret syscallWrapper 3 jumptable c m ∧ StackDiscipline c m

/-- The six pushes. -/
def pushed (c : Cpu) : Cpu :=
  (((((c.push (c.reg .ebp)).push (c.reg .esi)).push (c.reg .edi)).push (c.reg .edx)).push
    (c.reg .ecx)).push (c.reg .ebx)

theorem prologue_run (jumptable : Table) (c : Cpu) :
    run syscallWrapper 3 jumptable 6 ⟨c, 0, []⟩ = ⟨pushed c, 6, []⟩ := rfl

theorem pushed_reg (c : Cpu) : (pushed c).reg = c.reg := rfl

theorem pushed_esp (c : Cpu) : (pushed c).esp = c.esp - 24 := by
  simp only [pushed, Cpu.push]
  bv_omega

/-- The last three pushes are the handler's arguments. -/
theorem pushed_args (c : Cpu) :
    (List.range 3).map (pushed c).top = [c.reg .ebx, c.reg .ecx, c.reg .edx] := by
  simp [List.range_succ, pushed, Cpu.top_push_succ]

/-- The CPU's five words lie above the six pushed ones. -/
theorem pushed_frame (c : Cpu) {k : Nat} (small : k < 5) : (pushed c).top (k + 6) = c.top k := by
  unfold pushed
  repeat rw [Cpu.top_push_succ _ _ (by omega)]

/-- Both checks that lead to `fail`: nothing has been popped, nothing is called. -/
theorem fail_run (jumptable : Table) (c : Cpu) (invalid : ¬ ValidNumber (c.reg .eax)) :
    ∃ order, ReachesIret syscallWrapper 3 jumptable c
      ⟨{ (pushed c).setReg .eax (-1) with order := order }, 14, []⟩ := by
  by_cases low : (c.reg .eax).toInt < 1
  · refine ⟨.lt, ⟨9, ?_⟩, rfl⟩
    have less : compare (c.reg .eax).toInt 1 = .lt := Int.compare_eq_lt.mpr low
    rw [show 9 = 6 + 3 from rfl, run_add, prologue_run]
    simp [run, step, syscallWrapper, fail, pushed_reg, less, Cpu.setReg]
  · have high : 10 < (c.reg .eax).toInt := by
      unfold ValidNumber at invalid
      omega
    refine ⟨.gt, ⟨11, ?_⟩, rfl⟩
    have first : compare (c.reg .eax).toInt 1 ≠ .lt := by
      rw [ne_eq, Int.compare_eq_lt]; exact low
    have second : compare (c.reg .eax).toInt 10 = .gt := Int.compare_eq_gt.mpr high
    rw [show 11 = 6 + 5 from rfl, run_add, prologue_run]
    simp [run, step, syscallWrapper, fail, pushed_reg, first, second, Cpu.setReg]

/-- The handler is entered on top of the six pushed words and its return address. -/
def entered (c : Cpu) (order : Ordering) : Cpu :=
  Cpu.push { pushed c with order := order } 11

/-- After the handler, `popfl` takes the saved EBX off the stack. -/
def afterPopfl (c : Cpu) : Cpu :=
  Cpu.drop { c with eflags := c.top 0, order := orderOfFlags (c.top 0) }

theorem dispatch_run (jumptable : Table) (c : Cpu) (valid : ValidNumber (c.reg .eax)) :
    ∃ order, ReachesIret syscallWrapper 3 jumptable c
      ⟨afterPopfl (jumptable (c.reg .eax) (entered c order)), 12,
        [⟨c.reg .eax, [c.reg .ebx, c.reg .ecx, c.reg .edx],
          (jumptable (c.reg .eax) (entered c order)).reg .eax⟩]⟩ := by
  refine ⟨compare (c.reg .eax).toInt 10, ⟨12, ?_⟩, rfl⟩
  have first : compare (c.reg .eax).toInt 1 ≠ .lt := Int.compare_ne_lt.mpr valid.1
  have second : compare (c.reg .eax).toInt 10 ≠ .gt := Int.compare_ne_gt.mpr valid.2
  have args := pushed_args c
  rw [show 12 = 6 + 6 from rfl, run_add, prologue_run]
  simp only [run, step, syscallWrapper, fail, List.length_cons, List.length_nil, Nat.reduceAdd,
    Nat.reduceLT, getElem?_pos, List.getElem_cons_succ, List.getElem_cons_zero, pushed_reg,
    BitVec.ofNat_eq_ofNat, BitVec.reduceToInt, first, second, ↓reduceIte, List.nil_append,
    afterPopfl, entered, State.mk.injEq, List.cons.injEq, Call.mk.injEq, and_true, true_and]
  exact args

theorem entered_esp (c : Cpu) (order : Ordering) : (entered c order).esp = c.esp - 28 := by
  simp only [entered, Cpu.push_esp, pushed_esp]
  bv_omega

theorem entered_frame (c : Cpu) (order : Ordering) {k : Nat} (small : k < 5) :
    (entered c order).mem (c.esp + BitVec.ofNat 32 (4 * k)) = c.top k := by
  have place : (entered c order).esp + BitVec.ofNat 32 (4 * (k + 6 + 1)) =
      c.esp + BitVec.ofNat 32 (4 * k) := by
    rw [entered_esp]; bv_omega
  have above : (entered c order).top (k + 6 + 1) = (pushed c).top (k + 6) :=
    Cpu.top_push_succ _ _ (by omega)
  rw [← pushed_frame c small, ← above, Cpu.top, place]

/-- Everything but the stack pointer is as it should be on every path: the CPU's words
    are intact where they are, the arguments, the result and the saved registers are right. -/
theorem call_contract {jumptable : Table} (table : CdeclTable jumptable) (c : Cpu) {m : State}
    (reached : ReachesIret syscallWrapper 3 jumptable c m) : CallContract c m := by
  by_cases valid : ValidNumber (c.reg .eax)
  · obtain ⟨order, arrives⟩ := dispatch_run jumptable c valid
    obtain rfl := reached.unique arrives
    have callee := table _ valid
    refine ⟨?_, ?_, fun _ => ⟨_, rfl, rfl⟩, fun invalid => absurd valid invalid⟩
    · intro k small
      have kept := callee.frame (entered c order) (k + 7) (by omega) (by omega)
      have place : (entered c order).esp + BitVec.ofNat 32 (4 * (k + 7)) =
          c.esp + BitVec.ofNat 32 (4 * k) := by
        rw [entered_esp]; bv_omega
      rw [place] at kept
      exact kept.trans (entered_frame c order small)
    · intro r callerOwns
      exact callee.saved _ r callerOwns
  · obtain ⟨order, arrives⟩ := fail_run jumptable c valid
    obtain rfl := reached.unique arrives
    refine ⟨?_, ?_, fun ok => absurd ok valid, fun _ => ⟨rfl, rfl⟩⟩
    · intro k small
      have place : (pushed c).esp + BitVec.ofNat 32 (4 * (k + 6)) =
          c.esp + BitVec.ofNat 32 (4 * k) := by
        rw [pushed_esp]; bv_omega
      rw [← pushed_frame c small, Cpu.top, place]
      rfl
    · intro r callerOwns
      have other : r ≠ .eax := by rintro rfl; simp at callerOwns
      simp only [Cpu.setReg, pushed_reg, Function.update_of_ne other]

/-- Where `iret` does find the stack pointer: five words too low after a dispatched
    call, six words too low on the fail path. -/
theorem iret_esp {jumptable : Table} (table : CdeclTable jumptable) (c : Cpu) {m : State}
    (reached : ReachesIret syscallWrapper 3 jumptable c m) :
    m.cpu.esp = c.esp - if ValidNumber (c.reg .eax) then 20 else 24 := by
  by_cases valid : ValidNumber (c.reg .eax)
  · obtain ⟨order, arrives⟩ := dispatch_run jumptable c valid
    obtain rfl := reached.unique arrives
    have back := (table _ valid).esp (entered c order)
    simp only [afterPopfl, Cpu.drop, back, entered_esp, if_pos valid]
    bv_omega
  · obtain ⟨order, arrives⟩ := fail_run jumptable c valid
    obtain rfl := reached.unique arrives
    simp only [Cpu.setReg, pushed_esp, if_neg valid]

/-- No system call returns in order, whatever EAX is and whatever the handlers do. -/
theorem no_call_returns_in_order (jumptable : Table) (table : CdeclTable jumptable) (c : Cpu) :
    ¬ ReturnsInOrder jumptable c := by
  rintro ⟨m, reached, discipline⟩
  have low := iret_esp table c reached
  rw [discipline.esp] at low
  split at low <;> bv_omega

/-- The least a handler can do: return. -/
def idle (c : Cpu) : Cpu := c.drop

theorem idle_cdecl : Cdecl 3 8 idle :=
  ⟨fun _ => rfl, fun _ _ _ => rfl, fun _ _ _ _ => rfl⟩

/-- A program that executes INT 0x80 with `eax` and zeros everywhere else. -/
def caller (eax : Word) : Cpu where
  reg := fun r => if r = .eax then eax else 0
  esp := 0x7fffe8
  eflags := 0x202
  order := .eq
  mem := fun _ => 0

theorem idle_call_not_in_order : ¬ ReturnsInOrder (fun _ => idle) (caller 9) :=
  no_call_returns_in_order (fun _ => idle) (fun _ _ => idle_cdecl) (caller 9)

/-- System call number 0, as err_syscall_num makes it: `iret` takes the saved EBX for EIP. -/
theorem bad_number_not_in_order : ¬ ReturnsInOrder (fun _ => idle) (caller 0) := by
  rintro ⟨m, reached, discipline⟩
  have low := iret_esp (fun _ _ => idle_cdecl) (caller 0) reached
  rw [discipline.esp] at low
  exact absurd low (by decide)

end LightOS.Syscall
