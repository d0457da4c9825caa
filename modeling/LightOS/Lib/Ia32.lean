import Mathlib.Algebra.Group.Nat.Defs
import Mathlib.Logic.Function.Basic

/-! # A small IA-32 core for entry stubs

Registers, a word-addressed stack, and the handful of instructions that interrupt
and system-call stubs are made of.  A call through a table runs a callee that is
only known by its contract: `Cdecl` says what a C function compiled under the usual
convention leaves alone.  Nothing here knows which stub is being executed.
-/

namespace LightOS.Lib.Ia32

abbrev Word := BitVec 32

/-- The general registers except `esp`, which `Cpu` keeps apart. -/
inductive Reg where
  | eax | ecx | edx | ebx | esi | edi | ebp
  deriving Repr, DecidableEq

/-- `order` is the signed order of the operands of the last `cmp`: the part of
    the condition codes that `jl` and `jg` look at. -/
structure Cpu where
  reg : Reg → Word
  esp : Word
  eflags : Word
  order : Ordering
  mem : Word → Word

/-- The `k`-th word of the stack, counted from the top. -/
def Cpu.top (c : Cpu) (k : Nat) : Word := c.mem (c.esp + BitVec.ofNat 32 (4 * k))

def Cpu.push (c : Cpu) (w : Word) : Cpu :=
  { c with esp := c.esp - 4, mem := Function.update c.mem (c.esp - 4) w }

/-- Discard the top word. -/
def Cpu.drop (c : Cpu) : Cpu := { c with esp := c.esp + 4 }

def Cpu.setReg (c : Cpu) (r : Reg) (w : Word) : Cpu :=
  { c with reg := Function.update c.reg r w }

/-- The order that the sign, overflow and zero bits of an EFLAGS word stand for. -/
def orderOfFlags (w : Word) : Ordering :=
  if w.getLsbD 6 then .eq else if w.getLsbD 7 != w.getLsbD 11 then .lt else .gt

inductive Instr where
  | pushl (r : Reg)
  | popl (r : Reg)
  | pushfl
  | popfl
  | movl (imm : Word) (r : Reg)
  | cmpl (imm : Word) (r : Reg)
  | jl (target : Nat)
  | jg (target : Nat)
  /-- `call *table(, r, 4)` -/
  | callTable (r : Reg)
  | iret
  deriving Repr, DecidableEq

/-- One call made through the table: which entry, the words found where a C callee
    looks for its arguments, and the value it left in `eax`. -/
structure Call where
  entry : Word
  args : List Word
  result : Word
  deriving DecidableEq

structure State where
  cpu : Cpu
  pc : Nat
  calls : List Call

/-- What entry `i` of the call table does, from the moment it is entered (return
    address on top of the stack) to the moment after its `ret`. -/
abbrev Table := Word → Cpu → Cpu

/-- One instruction; `none` at `iret`, where control leaves the stub, and outside the code. -/
def step (code : List Instr) (arity : Nat) (table : Table) (s : State) : Option State :=
  let c := s.cpu
  match code[s.pc]? with
  | some (.pushl r) => some { s with cpu := c.push (c.reg r), pc := s.pc + 1 }
  | some (.popl r) =>
      some { s with cpu := (c.setReg r (c.top 0)).drop, pc := s.pc + 1 }
  | some .pushfl => some { s with cpu := c.push c.eflags, pc := s.pc + 1 }
  | some .popfl =>
      some { s with
        cpu := Cpu.drop { c with eflags := c.top 0, order := orderOfFlags (c.top 0) }
        pc := s.pc + 1 }
  | some (.movl imm r) => some { s with cpu := c.setReg r imm, pc := s.pc + 1 }
  | some (.cmpl imm r) =>
      some { s with cpu := { c with order := compare (c.reg r).toInt imm.toInt }, pc := s.pc + 1 }
  | some (.jl target) => some { s with pc := if c.order = .lt then target else s.pc + 1 }
  | some (.jg target) => some { s with pc := if c.order = .gt then target else s.pc + 1 }
  | some (.callTable r) =>
      let after := table (c.reg r) (c.push (BitVec.ofNat 32 (s.pc + 1)))
      some
        { cpu := after
          pc := s.pc + 1
          calls := s.calls ++ [⟨c.reg r, (List.range arity).map c.top, after.reg .eax⟩] }
  | some .iret => none
  | none => none

/-- At most `n` instructions, stopping where `step` stops. -/
def run (code : List Instr) (arity : Nat) (table : Table) : Nat → State → State
  | 0, s => s
  | n + 1, s =>
      match step code arity table s with
      | none => s
      | some next => run code arity table n next

/-- Execution from the first instruction of `code` arrives at an `iret` in state `m`. -/
def ReachesIret (code : List Instr) (arity : Nat) (table : Table) (c : Cpu) (m : State) : Prop :=
  (∃ n, run code arity table n ⟨c, 0, []⟩ = m) ∧ code[m.pc]? = some .iret

/-- The convention a C callee of `arity` word arguments returns under: the stack is
    back where it was before the call, the callee-saved registers are intact, and so
    are the `kept` words of its caller above the argument slots. -/
structure Cdecl (arity kept : Nat) (callee : Cpu → Cpu) : Prop where
  esp : ∀ c, (callee c).esp = c.esp + 4
  saved : ∀ c, ∀ r ∈ [Reg.ebx, .esi, .edi, .ebp], (callee c).reg r = c.reg r
  frame : ∀ c k, arity < k → k ≤ arity + kept →
    (callee c).mem (c.esp + BitVec.ofNat 32 (4 * k)) = c.mem (c.esp + BitVec.ofNat 32 (4 * k))

@[simp] theorem Cpu.push_reg (c : Cpu) (w : Word) : (c.push w).reg = c.reg := rfl

@[simp] theorem Cpu.push_esp (c : Cpu) (w : Word) : (c.push w).esp = c.esp - 4 := rfl

@[simp] theorem Cpu.top_push_zero (c : Cpu) (w : Word) : (c.push w).top 0 = w := by
  simp [Cpu.top, Cpu.push]

/-- A push moves every word already on the stack one place down. -/
theorem Cpu.top_push_succ (c : Cpu) (w : Word) {k : Nat} (small : k < 2 ^ 20) :
    (c.push w).top (k + 1) = c.top k := by
  have place : c.esp - 4 + BitVec.ofNat 32 (4 * (k + 1)) = c.esp + BitVec.ofNat 32 (4 * k) := by
    bv_omega
  have other : c.esp + BitVec.ofNat 32 (4 * k) ≠ c.esp - 4 := by bv_omega
  simp only [Cpu.top, Cpu.push, place, Function.update_of_ne other]

theorem run_stops {code arity table s} (stop : step code arity table s = none) (n : Nat) :
    run code arity table n s = s := by
  cases n with
  | zero => rfl
  | succ n => simp only [run, stop]

theorem run_add {code arity table} (m n : Nat) (s : State) :
    run code arity table (m + n) s = run code arity table n (run code arity table m s) := by
  induction m generalizing s with
  | zero => simp only [Nat.zero_add, run]
  | succ m ih =>
      rw [Nat.succ_add]
      simp only [run]
      cases stop : step code arity table s with
      | none => simp only [run_stops stop]
      | some next => exact ih next

/-- The machine is deterministic: there is at most one state at an `iret`. -/
theorem ReachesIret.unique {code arity table c m m'} (first : ReachesIret code arity table c m)
    (second : ReachesIret code arity table c m') : m = m' := by
  obtain ⟨⟨n, runN⟩, atN⟩ := first
  obtain ⟨⟨n', runN'⟩, atN'⟩ := second
  have stopped : step code arity table m = none := by simp only [step, atN]
  have stopped' : step code arity table m' = none := by simp only [step, atN']
  rcases Nat.le_total n n' with le | le
  · obtain ⟨k, rfl⟩ := Nat.exists_eq_add_of_le le
    rw [run_add, runN, run_stops stopped] at runN'
    exact runN'
  · obtain ⟨k, rfl⟩ := Nat.exists_eq_add_of_le le
    rw [run_add, runN', run_stops stopped'] at runN
    exact runN.symm

end LightOS.Lib.Ia32
