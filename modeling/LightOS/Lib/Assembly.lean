import LightOS.Lib.ByteMemory
import Mathlib.Computability.StateTransition

/-! # IA-32 assembly over byte memory

The instructions that inline assembly for filling and copying memory is made of: loops over
bytes, and a string instruction under `rep` that moves double words.  A listing is run from
its first line until it falls off its end; what is still to be run of it stands for the
instruction pointer.  Nothing here knows which listing is being run.
-/

namespace LightOS.Lib.Assembly

open StateTransition

inductive Reg where
  | eax | ecx | edx | esi | edi
  deriving Repr, DecidableEq

/-- `zero` is the zero flag and `direction` the direction flag.  The segment that `ds` selects
    is the whole address space; what another selector stands for is not known here. -/
structure Cpu where
  reg : Reg → UInt32
  ds : UInt16
  es : UInt16
  zero : Bool
  direction : Bool
  mem : UInt32 → UInt8

def Cpu.setReg (c : Cpu) (r : Reg) (w : UInt32) : Cpu :=
  { c with reg := Function.update c.reg r w }

/-- The result of an arithmetic instruction, and the flag that goes with it. -/
def Cpu.result (c : Cpu) (r : Reg) (w : UInt32) : Cpu := { c.setReg r w with zero := w == 0 }

/-- The bytes of a double word in memory. -/
def dwordBytes (w : UInt32) : List UInt8 :=
  (List.range 4).map fun i => UInt8.ofNat (w.toNat / 256 ^ i)

/-- The double word at an address. -/
def dwordAt (mem : UInt32 → UInt8) (address : UInt32) : UInt32 :=
  UInt32.ofNat ((mem address).toNat + 256 * (mem (address + 1)).toNat +
    256 ^ 2 * (mem (address + 2)).toNat + 256 ^ 3 * (mem (address + 3)).toNat)

/-- A register with another low byte. -/
def setLowByte (w : UInt32) (byte : UInt8) : UInt32 :=
  UInt32.ofNat (w.toNat / 2 ^ 8 * 2 ^ 8 + byte.toNat)

/-- A register with another low half. -/
def setLowHalf (w : UInt32) (half : UInt16) : UInt32 :=
  UInt32.ofNat (w.toNat / 2 ^ 16 * 2 ^ 16 + half.toNat)

/-- Instructions that neither jump nor fault. -/
inductive Op where
  /-- `testl a, b` -/
  | testl (a b : Reg)
  /-- `testl $imm, r` -/
  | testImm (imm : UInt32) (r : Reg)
  | addl (imm : UInt32) (r : Reg)
  | subl (imm : UInt32) (r : Reg)
  | andl (imm : UInt32) (r : Reg)
  | shrl (imm : UInt32) (r : Reg)
  /-- `movl a, b` -/
  | movl (a b : Reg)
  /-- `movb %al, (base)` -/
  | storeAl (base : Reg)
  /-- `movb (base), %al` -/
  | loadAl (base : Reg)
  /-- `movw %ds, r` for the low half of `r` -/
  | movwDs (r : Reg)
  /-- `movw r, %es` for the low half of `r` -/
  | movwEs (r : Reg)
  | cld
  deriving Repr, DecidableEq

def Op.exec (c : Cpu) : Op → Cpu
  | .testl a b => { c with zero := c.reg a &&& c.reg b == 0 }
  | .testImm imm r => { c with zero := imm &&& c.reg r == 0 }
  | .addl imm r => c.result r (c.reg r + imm)
  | .subl imm r => c.result r (c.reg r - imm)
  | .andl imm r => c.result r (imm &&& c.reg r)
  -- a shift by nothing leaves the flags alone
  | .shrl imm r => if imm % 32 = 0 then c else c.result r (c.reg r >>> imm)
  | .movl a b => c.setReg b (c.reg a)
  | .storeAl base => { c with mem := Function.update c.mem (c.reg base) (c.reg .eax).toUInt8 }
  | .loadAl base => c.setReg .eax (setLowByte (c.reg .eax) (c.mem (c.reg base)))
  | .movwDs r => c.setReg r (setLowHalf (c.reg r) c.ds)
  | .movwEs r => { c with es := (c.reg r).toUInt16 }
  | .cld => { c with direction := false }

/-- Instructions in a row. -/
def execAll (ops : List Op) (c : Cpu) : Cpu := ops.foldl Op.exec c

/-- The string instructions on double words. -/
inductive StringOp where
  | stosl | movsl
  deriving Repr, DecidableEq

/-- A string instruction goes on to the next double word in the direction of the flag. -/
def Cpu.advance (c : Cpu) (r : Reg) : Cpu :=
  c.setReg r (if c.direction then c.reg r - 4 else c.reg r + 4)

/-- The double word at the address does not reach over the end of the address space. -/
def DwordFits (address : UInt32) : Prop := address.toNat + 4 ≤ 2 ^ 32

instance (address : UInt32) : Decidable (DwordFits address) := inferInstanceAs (Decidable (_ ≤ _))

/-- `none` where `es` does not select the known segment or a double word does not fit. -/
def StringOp.exec (c : Cpu) : StringOp → Option Cpu
  | .stosl =>
      if c.es = c.ds ∧ DwordFits (c.reg .edi) then
        some ({ c with
          mem := overlay c.mem (c.reg .edi) (dwordBytes (c.reg .eax)) }.advance .edi)
      else none
  | .movsl =>
      if c.es = c.ds ∧ DwordFits (c.reg .edi) ∧ DwordFits (c.reg .esi) then
        some (({ c with
          mem := overlay c.mem (c.reg .edi)
            (dwordBytes (dwordAt c.mem (c.reg .esi))) }.advance .edi).advance .esi)
      else none

inductive Line (L : Type) where
  | label (l : L)
  | op (o : Op)
  | jz (l : L)
  | jmp (l : L)
  | rep (o : StringOp)
  deriving Repr, DecidableEq

structure State (L : Type) where
  rest : List (Line L)
  cpu : Cpu

variable {L : Type} [DecidableEq L]

/-- The listing from below a label on. -/
def below (l : L) : List (Line L) → Option (List (Line L))
  | [] => none
  | line :: rest => if line = .label l then some rest else below l rest

/-- One instruction, of `rep` one round; `none` at the end of the listing and at a fault. -/
def step (code : List (Line L)) : State L → Option (State L)
  | ⟨[], _⟩ => none
  | ⟨.label _ :: rest, c⟩ => some ⟨rest, c⟩
  | ⟨.op o :: rest, c⟩ => some ⟨rest, o.exec c⟩
  | ⟨.jz l :: rest, c⟩ =>
      if c.zero then (below l code).map fun target => ⟨target, c⟩ else some ⟨rest, c⟩
  | ⟨.jmp l :: _, c⟩ => (below l code).map fun target => ⟨target, c⟩
  | ⟨.rep o :: rest, c⟩ =>
      if c.reg .ecx = 0 then some ⟨rest, c⟩
      else (o.exec c).map fun moved =>
        ⟨.rep o :: rest, moved.setReg .ecx (moved.reg .ecx - 1)⟩

/-- From the first line on, the listing runs to its end and leaves the machine as `c'`. -/
def Completes (code : List (Line L)) (c c' : Cpu) : Prop :=
  ⟨[], c'⟩ ∈ eval (step code) ⟨code, c⟩

section Bytes

variable {mem : UInt32 → UInt8} {address : UInt32}

theorem dwordAt_toNat (mem : UInt32 → UInt8) (address : UInt32) :
    (dwordAt mem address).toNat =
      (mem address).toNat + 256 * (mem (address + 1)).toNat +
        256 ^ 2 * (mem (address + 2)).toNat + 256 ^ 3 * (mem (address + 3)).toNat := by
  have fits0 := (mem address).toNat_lt
  have fits1 := (mem (address + 1)).toNat_lt
  have fits2 := (mem (address + 2)).toNat_lt
  have fits3 := (mem (address + 3)).toNat_lt
  exact toNat_ofNat_small (by omega)

theorem eq_ofNat_of_mod {byte : UInt8} {n : Nat} (same : n % 256 = byte.toNat) :
    UInt8.ofNat n = byte :=
  UInt8.toNat_inj.mp (by rw [UInt8.toNat_ofNat']; exact same)

/-- The bytes of a double word from its value. -/
theorem dwordBytes_of_toNat {w : UInt32} {b0 b1 b2 b3 : UInt8}
    (value : w.toNat =
      b0.toNat + 256 * b1.toNat + 256 ^ 2 * b2.toNat + 256 ^ 3 * b3.toNat) :
    dwordBytes w = [b0, b1, b2, b3] := by
  have fits0 := b0.toNat_lt
  have fits1 := b1.toNat_lt
  have fits2 := b2.toNat_lt
  have fits3 := b3.toNat_lt
  have byte0 : w.toNat / 256 ^ 0 % 256 = b0.toNat := by omega
  have byte1 : w.toNat / 256 ^ 1 % 256 = b1.toNat := by omega
  have byte2 : w.toNat / 256 ^ 2 % 256 = b2.toNat := by omega
  have byte3 : w.toNat / 256 ^ 3 % 256 = b3.toNat := by omega
  rw [← eq_ofNat_of_mod byte0, ← eq_ofNat_of_mod byte1, ← eq_ofNat_of_mod byte2,
    ← eq_ofNat_of_mod byte3]
  rfl

/-- A double word that is loaded and stored again is its four bytes. -/
theorem dwordBytes_dwordAt (mem : UInt32 → UInt8) (address : UInt32) :
    dwordBytes (dwordAt mem address) =
      [mem address, mem (address + 1), mem (address + 2), mem (address + 3)] :=
  dwordBytes_of_toNat (dwordAt_toNat mem address)

theorem setLowByte_low (w : UInt32) (byte : UInt8) : (setLowByte w byte).toUInt8 = byte := by
  have fits := byte.toNat_lt
  have whole := w.toNat_lt
  have sum : (setLowByte w byte).toNat = w.toNat / 2 ^ 8 * 2 ^ 8 + byte.toNat :=
    toNat_ofNat_small (by omega)
  rw [← UInt8.toNat_inj, UInt32.toNat_toUInt8, sum]
  omega

theorem setLowHalf_low (w : UInt32) (half : UInt16) : (setLowHalf w half).toUInt16 = half := by
  have fits := half.toNat_lt
  have whole := w.toNat_lt
  have sum : (setLowHalf w half).toNat = w.toNat / 2 ^ 16 * 2 ^ 16 + half.toNat :=
    toNat_ofNat_small (by omega)
  rw [← UInt16.toNat_inj, UInt32.toNat_toUInt16, sum]
  omega

end Bytes

section Counters

variable {c : Cpu} {r : Reg} {k : Nat}

/-- A counter is tested against itself. -/
theorem testl_zero (count : (c.reg r).toNat = 0) : (Op.exec c (.testl r r)).zero = true := by
  have zero : c.reg r = 0 := UInt32.toNat_inj.mp count
  simp only [Op.exec, zero]
  rfl

theorem testl_nonzero (count : (c.reg r).toNat = k + 1) :
    (Op.exec c (.testl r r)).zero = false := by
  have nonzero : c.reg r ≠ 0 := by
    intro zero
    rw [zero] at count
    exact absurd count (Nat.succ_ne_zero k).symm
  simp only [Op.exec, UInt32.and_self]
  exact beq_false_of_ne nonzero

theorem toNat_sub_one {w : UInt32} (count : w.toNat = k + 1) : (w - 1).toNat = k := by
  have one : (1 : UInt32) ≤ w := by
    rw [UInt32.le_iff_toNat_le, count]
    exact Nat.le_add_left 1 k
  rw [UInt32.toNat_sub_of_le _ _ one, count]
  rfl

end Counters

section Runs

variable {code rest : List (Line L)} {c c' : Cpu} {l : L}

theorem completes_iff :
    Completes code c c' ↔ Reaches (step code) ⟨code, c⟩ ⟨[], c'⟩ := by
  constructor
  · intro completes
    exact (mem_eval.mp completes).1
  · intro reaches
    exact mem_eval.mpr ⟨reaches, rfl⟩

/-- A listing leaves one machine behind. -/
theorem Completes.unique {c'' : Cpu} (completes : Completes code c c')
    (other : Completes code c c'') : c' = c'' := by
  have same := Part.mem_unique completes other
  cases same
  rfl

theorem reaches_cons {s n t : State L} (first : step code s = some n)
    (later : Reaches (step code) n t) : Reaches (step code) s t :=
  Relation.ReflTransGen.head first later

theorem reaches_label {t : State L} (later : Reaches (step code) ⟨rest, c⟩ t) :
    Reaches (step code) ⟨.label l :: rest, c⟩ t :=
  reaches_cons rfl later

/-- Straight-line code. -/
theorem reaches_ops (ops : List Op) {t : State L}
    (later : Reaches (step code) ⟨rest, execAll ops c⟩ t) :
    Reaches (step code) ⟨ops.map .op ++ rest, c⟩ t := by
  induction ops generalizing c with
  | nil => exact later
  | cons o ops ih => exact reaches_cons rfl (ih later)

theorem reaches_jmp {target : List (Line L)} {t : State L} (known : below l code = some target)
    (later : Reaches (step code) ⟨target, c⟩ t) :
    Reaches (step code) ⟨.jmp l :: rest, c⟩ t := by
  apply reaches_cons (n := ⟨target, c⟩) _ later
  simp only [step, known, Option.map_some]

theorem reaches_jz_taken {target : List (Line L)} {t : State L} (zero : c.zero = true)
    (known : below l code = some target) (later : Reaches (step code) ⟨target, c⟩ t) :
    Reaches (step code) ⟨.jz l :: rest, c⟩ t := by
  apply reaches_cons (n := ⟨target, c⟩) _ later
  simp only [step, zero, if_true, known, Option.map_some]

theorem reaches_jz_passed {t : State L} (nonzero : c.zero = false)
    (later : Reaches (step code) ⟨rest, c⟩ t) :
    Reaches (step code) ⟨.jz l :: rest, c⟩ t := by
  apply reaches_cons (n := ⟨rest, c⟩) _ later
  simp only [step, nonzero, Bool.false_eq_true, if_false]

/-- The rounds of `rep`: `inv k` holds while `k` of them are left. -/
theorem reaches_rep {o : StringOp} {inv : Nat → Cpu → Prop}
    (count : ∀ {k c}, inv k c → (c.reg .ecx).toNat = k)
    (round : ∀ {k c}, inv (k + 1) c → ∃ moved, o.exec c = some moved ∧
      inv k (moved.setReg .ecx (moved.reg .ecx - 1))) {k : Nat} (start : inv k c) :
    ∃ c', inv 0 c' ∧ Reaches (step code) ⟨.rep o :: rest, c⟩ ⟨rest, c'⟩ := by
  induction k generalizing c with
  | zero =>
      have none : c.reg .ecx = 0 := UInt32.toNat_inj.mp (count start)
      refine ⟨c, start, reaches_cons ?_ Relation.ReflTransGen.refl⟩
      simp only [step, none, if_true]
  | succ k ih =>
      have some : c.reg .ecx ≠ 0 := by
        intro zero
        have counted := count start
        rw [zero] at counted
        exact absurd counted (Nat.succ_ne_zero k).symm
      obtain ⟨moved, executes, kept⟩ := round start
      obtain ⟨last, done, reaches⟩ := ih kept
      refine ⟨last, done, reaches_cons ?_ reaches⟩
      simp only [step, some, if_false, executes, Option.map_some]

theorem below_ops (ops : List Op) : below l (ops.map .op ++ rest) = below l rest := by
  induction ops with
  | nil => rfl
  | cons o ops ih =>
      rw [List.map_cons, List.cons_append, below, if_neg (by intro same; cases same), ih]

end Runs

end LightOS.Lib.Assembly
