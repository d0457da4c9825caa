import LightOS.Lib.Assembly

/-! # String instructions in both directions

Listings that set up the direction flag and end in a string instruction under `rep`: bytes that
are moved up or down in memory, and words that are stored over and over.  A move that goes up
never reads what it has written if the source is not below the destination, and one that goes
down never does if it is.  Nothing here knows which listing is being run.
-/

namespace LightOS.Lib.StringMoves

open Assembly StateTransition

/-- The string instructions, by what they store in a round. -/
inductive MoveOp where
  | movsb | stosw | stosl
  deriving Repr, DecidableEq

def MoveOp.size : MoveOp → Nat
  | .movsb => 1
  | .stosw => 2
  | .stosl => 4

inductive Line (L : Type) where
  | label (l : L)
  /-- `movw %ds, r` for the low half of `r` -/
  | movwDs (r : Reg)
  /-- `movw r, %es` for the low half of `r` -/
  | movwEs (r : Reg)
  | cld
  | std
  /-- `cmp a, b` -/
  | cmp (a b : Reg)
  | jae (l : L)
  /-- `leal disp(base, index), target` -/
  | leal (disp : UInt32) (base index target : Reg)
  | rep (o : MoveOp)
  deriving Repr, DecidableEq

/-- `carry` is the carry flag; among these instructions only `cmp` sets it. -/
structure State (L : Type) where
  rest : List (Line L)
  cpu : Cpu
  carry : Bool

/-- The registers of a string instruction go on in the direction of the flag. -/
def moveOn (c : Cpu) (size : Nat) (r : Reg) : Cpu :=
  c.setReg r (if c.direction then c.reg r - UInt32.ofNat size else c.reg r + UInt32.ofNat size)

/-- What a round of `stosw` or `stosl` stores. -/
def MoveOp.stored (o : MoveOp) (eax : UInt32) : List UInt8 := (dwordBytes eax).take o.size

/-- One round; `none` where `es` does not select the known segment or what is stored reaches over
    the end of the address space. -/
def MoveOp.exec (c : Cpu) (o : MoveOp) : Option Cpu :=
  if c.es = c.ds ∧ (c.reg .edi).toNat + o.size ≤ 2 ^ 32 then
    match o with
    | .movsb =>
        some (moveOn (moveOn { c with
          mem := Function.update c.mem (c.reg .edi) (c.mem (c.reg .esi)) } 1 .edi) 1 .esi)
    | .stosw | .stosl =>
        some (moveOn { c with
          mem := overlay c.mem (c.reg .edi) (o.stored (c.reg .eax)) } o.size .edi)
  else none

variable {L : Type} [DecidableEq L]

/-- The listing from below a label on. -/
def below (l : L) : List (Line L) → Option (List (Line L))
  | [] => none
  | line :: rest => if line = .label l then some rest else below l rest

/-- One instruction, of `rep` one round; `none` at the end of the listing and at a fault. -/
def step (code : List (Line L)) : State L → Option (State L)
  | ⟨[], _, _⟩ => none
  | ⟨.label _ :: rest, c, carry⟩ => some ⟨rest, c, carry⟩
  | ⟨.movwDs r :: rest, c, carry⟩ => some ⟨rest, c.setReg r (setLowHalf (c.reg r) c.ds), carry⟩
  | ⟨.movwEs r :: rest, c, carry⟩ => some ⟨rest, { c with es := (c.reg r).toUInt16 }, carry⟩
  | ⟨.cld :: rest, c, carry⟩ => some ⟨rest, { c with direction := false }, carry⟩
  | ⟨.std :: rest, c, carry⟩ => some ⟨rest, { c with direction := true }, carry⟩
  | ⟨.cmp a b :: rest, c, _⟩ => some ⟨rest, c, c.reg b < c.reg a⟩
  | ⟨.jae l :: rest, c, carry⟩ =>
      if carry then some ⟨rest, c, carry⟩
      else (below l code).map fun target => ⟨target, c, carry⟩
  | ⟨.leal disp base index target :: rest, c, carry⟩ =>
      some ⟨rest, c.setReg target (c.reg base + c.reg index + disp), carry⟩
  | ⟨.rep o :: rest, c, carry⟩ =>
      if c.reg .ecx = 0 then some ⟨rest, c, carry⟩
      else (o.exec c).map fun moved =>
        ⟨.rep o :: rest, moved.setReg .ecx (moved.reg .ecx - 1), carry⟩

/-- From the first line on, whatever the carry flag is, the listing runs to its end and leaves
    the machine as `c'`. -/
def Completes (code : List (Line L)) (c c' : Cpu) : Prop :=
  ∀ carry, ∃ carry', ⟨[], c', carry'⟩ ∈ eval (step code) ⟨code, c, carry⟩

/-- Memory with the bytes from place `low` to place `high` of the destination moved there from
    the source. -/
def movedPart (before : UInt32 → UInt8) (dest src : UInt32) (low high : Nat) : UInt32 → UInt8 :=
  fun address =>
    if low ≤ (address - dest).toNat ∧ (address - dest).toNat < high then
      before (src + (address - dest))
    else before address

/-- Memory with the first `count` bytes from `start` on overwritten with a pattern. -/
def patterned (before : UInt32 → UInt8) (start : UInt32) (pattern : List UInt8) (count : Nat) :
    UInt32 → UInt8 :=
  fun address =>
    if (address - start).toNat < count then
      pattern.getD ((address - start).toNat % pattern.length) 0
    else before address

section Parts

variable {before : UInt32 → UInt8} {dest src : UInt32} {low high : Nat}

theorem movedPart_empty (place : Nat) : movedPart before dest src place place = before := by
  funext address
  rw [movedPart, if_neg (by omega)]

/-- The next byte up. -/
theorem movedPart_up (ordered : low ≤ high) (small : high < 2 ^ 32) :
    Function.update (movedPart before dest src low high) (dest + UInt32.ofNat high)
        (before (src + UInt32.ofNat high)) = movedPart before dest src low (high + 1) := by
  funext address
  by_cases here : address = dest + UInt32.ofNat high
  · have place := (eq_add_ofNat_iff small).mp here
    have offset : address - dest = UInt32.ofNat high := by
      rw [here, UInt32.add_comm, UInt32.add_sub_cancel]
    rw [here, Function.update_self, ← here, movedPart, if_pos (by omega), offset]
  · have place : (address - dest).toNat ≠ high := fun same => here ((eq_add_ofNat_iff small).mpr same)
    rw [Function.update_of_ne here, movedPart, movedPart]
    have same : (low ≤ (address - dest).toNat ∧ (address - dest).toNat < high) ↔
        low ≤ (address - dest).toNat ∧ (address - dest).toNat < high + 1 := by omega
    simp only [same]

/-- The next byte down. -/
theorem movedPart_down (ordered : low < high) (small : high ≤ 2 ^ 32) :
    Function.update (movedPart before dest src (low + 1) high) (dest + UInt32.ofNat low)
        (before (src + UInt32.ofNat low)) = movedPart before dest src low high := by
  funext address
  have fits : low < 2 ^ 32 := by omega
  by_cases here : address = dest + UInt32.ofNat low
  · have place := (eq_add_ofNat_iff fits).mp here
    have offset : address - dest = UInt32.ofNat low := by
      rw [here, UInt32.add_comm, UInt32.add_sub_cancel]
    rw [here, Function.update_self, ← here, movedPart, if_pos (by omega), offset]
  · have place : (address - dest).toNat ≠ low := fun same => here ((eq_add_ofNat_iff fits).mpr same)
    rw [Function.update_of_ne here, movedPart, movedPart]
    have same : (low + 1 ≤ (address - dest).toNat ∧ (address - dest).toNat < high) ↔
        low ≤ (address - dest).toNat ∧ (address - dest).toNat < high := by omega
    simp only [same]

/-- What has not been overwritten yet. -/
theorem movedPart_source {i : Nat} (outside : (src + UInt32.ofNat i - dest).toNat < low ∨
      high ≤ (src + UInt32.ofNat i - dest).toNat) :
    movedPart before dest src low high (src + UInt32.ofNat i) = before (src + UInt32.ofNat i) := by
  rw [movedPart, if_neg (by omega)]

/-- All of it, as a region that is set exactly. -/
theorem movedPart_exactly (n : UInt32) :
    Exactly dest n (fun i => before (src + UInt32.ofNat i)) before
      (movedPart before dest src 0 n.toNat) := by
  have small := n.toNat_lt
  constructor
  · intro i inside
    have place : (dest + UInt32.ofNat i - dest).toNat = i := toNat_add_ofNat_sub dest (by omega)
    have offset : dest + UInt32.ofNat i - dest = UInt32.ofNat i := by
      rw [UInt32.add_comm, UInt32.add_sub_cancel]
    rw [movedPart, if_pos (by omega), offset]
  · intro address outside
    rw [movedPart, if_neg]
    rintro ⟨_, inside⟩
    exact outside _ inside ((eq_add_ofNat_iff (by omega)).mpr rfl)

/-- The next copy of the pattern. -/
theorem patterned_more (before : UInt32 → UInt8) (start : UInt32) {pattern : List UInt8}
    {k : Nat} (nonempty : pattern ≠ []) (small : pattern.length * (k + 1) ≤ 2 ^ 32) :
    overlay (patterned before start pattern (pattern.length * k))
        (start + UInt32.ofNat (pattern.length * k)) pattern =
      patterned before start pattern (pattern.length * (k + 1)) := by
  have positive := List.length_pos_iff.mpr nonempty
  rw [Nat.mul_succ] at small ⊢
  generalize reached : pattern.length * k = count at small
  funext address
  have whole := (address - start).toNat_lt
  have offset : (address - (start + UInt32.ofNat count)).toNat =
      ((address - start).toNat + (2 ^ 32 - count)) % 2 ^ 32 := by
    have startFits := start.toNat_lt
    rw [UInt32.toNat_sub, UInt32.toNat_sub, UInt32.toNat_add, toNat_ofNat_small (by omega)]
    omega
  rw [overlay, offset, patterned, patterned]
  generalize (address - start).toNat = place at whole
  by_cases before_ : place < count
  · have far : pattern.length ≤ (place + (2 ^ 32 - count)) % 2 ^ 32 := by omega
    rw [List.getElem?_eq_none far, Option.getD_none, if_pos before_, if_pos (by omega)]
  · by_cases inside : place < count + pattern.length
    · have near : (place + (2 ^ 32 - count)) % 2 ^ 32 = place - count := by omega
      have index : place % pattern.length = place - count := by
        obtain ⟨rest, rfl⟩ := Nat.exists_eq_add_of_le (Nat.not_lt.mp before_)
        rw [← reached, Nat.mul_add_mod, Nat.add_sub_cancel_left]
        exact Nat.mod_eq_of_lt (by omega)
      rw [near, if_pos inside, index, List.getElem?_eq_getElem (by omega), Option.getD_some,
        List.getD_eq_getElem?_getD, List.getElem?_eq_getElem (by omega), Option.getD_some]
    · have far : pattern.length ≤ (place + (2 ^ 32 - count)) % 2 ^ 32 := by omega
      rw [List.getElem?_eq_none far, Option.getD_none, if_neg before_, if_neg inside]

end Parts

section Runs

variable {code rest : List (Line L)} {c c' : Cpu}

theorem completes_of_reaches
    (reaches : ∀ carry, ∃ carry', Reaches (step code) ⟨code, c, carry⟩ ⟨[], c', carry'⟩) :
    Completes code c c' := by
  intro carry
  obtain ⟨carry', there⟩ := reaches carry
  exact ⟨carry', mem_eval.mpr ⟨there, rfl⟩⟩

/-- A listing leaves one machine behind. -/
theorem Completes.unique {c'' : Cpu} (completes : Completes code c c')
    (other : Completes code c c'') : c' = c'' := by
  obtain ⟨_, first⟩ := completes false
  obtain ⟨_, second⟩ := other false
  have same := Part.mem_unique first second
  cases same
  rfl

/-- The rounds of `rep`: `inv k` holds while `k` of them are left. -/
theorem reaches_rep {o : MoveOp} {inv : Nat → Cpu → Prop}
    (count : ∀ {k c}, inv k c → (c.reg .ecx).toNat = k)
    (round : ∀ {k c}, inv (k + 1) c → ∃ moved, o.exec c = some moved ∧
      inv k (moved.setReg .ecx (moved.reg .ecx - 1))) {k : Nat} (start : inv k c) :
    ∃ c', inv 0 c' ∧
      ∀ carry, Reaches (step code) ⟨.rep o :: rest, c, carry⟩ ⟨rest, c', carry⟩ := by
  induction k generalizing c with
  | zero =>
      have none : c.reg .ecx = 0 := UInt32.toNat_inj.mp (count start)
      refine ⟨c, start, fun carry => Relation.ReflTransGen.single ?_⟩
      simp only [step, none, if_true]
      rfl
  | succ k ih =>
      have some : c.reg .ecx ≠ 0 := by
        intro zero
        have counted := count start
        rw [zero] at counted
        exact absurd counted (Nat.succ_ne_zero k).symm
      obtain ⟨moved, executes, kept⟩ := round start
      obtain ⟨last, done, reaches⟩ := ih kept
      refine ⟨last, done, fun carry => Relation.ReflTransGen.head ?_ (reaches carry)⟩
      simp only [step, some, if_false, executes, Option.map_some]
      rfl

/-- While bytes are moved up: `k` of `n` are left. -/
structure MovingUp (before : UInt32 → UInt8) (dest src : UInt32) (n k : Nat) (c : Cpu) : Prop where
  count : (c.reg .ecx).toNat = k
  left : k ≤ n
  edi : c.reg .edi = dest + UInt32.ofNat (n - k)
  esi : c.reg .esi = src + UInt32.ofNat (n - k)
  segment : c.es = c.ds
  direction : c.direction = false
  mem : c.mem = movedPart before dest src 0 (n - k)

/-- While bytes are moved down. -/
structure MovingDown (before : UInt32 → UInt8) (dest src : UInt32) (n k : Nat) (c : Cpu) :
    Prop where
  count : (c.reg .ecx).toNat = k
  left : k ≤ n
  edi : c.reg .edi = dest + UInt32.ofNat k - 1
  esi : c.reg .esi = src + UInt32.ofNat k - 1
  segment : c.es = c.ds
  direction : c.direction = true
  mem : c.mem = movedPart before dest src k n

/-- While words are stored. -/
structure Storing (before : UInt32 → UInt8) (start : UInt32) (o : MoveOp) (eax : UInt32)
    (n k : Nat) (c : Cpu) : Prop where
  count : (c.reg .ecx).toNat = k
  left : k ≤ n
  edi : c.reg .edi = start + UInt32.ofNat (o.size * (n - k))
  word : c.reg .eax = eax
  segment : c.es = c.ds
  direction : c.direction = false
  mem : c.mem = patterned before start (o.stored eax) (o.size * (n - k))

variable {before : UInt32 → UInt8} {dest src : UInt32} {n : Nat}

theorem MoveOp.stored_length (o : MoveOp) (eax : UInt32) : (o.stored eax).length = o.size := by
  cases o <;> rfl

theorem movsb_exec (segment : c.es = c.ds) : MoveOp.movsb.exec c =
    some (moveOn (moveOn { c with
      mem := Function.update c.mem (c.reg .edi) (c.mem (c.reg .esi)) } 1 .edi) 1 .esi) := by
  have fits : (c.reg .edi).toNat + 1 ≤ 2 ^ 32 := (c.reg .edi).toNat_lt
  rw [MoveOp.exec, if_pos ⟨segment, fits⟩]

/-- Going up, what is read next has not been overwritten if the source is not below. -/
theorem MovingUp.round {k : Nat} (moving : MovingUp before dest src n (k + 1) c)
    (order : dest.toNat ≤ src.toNat) (fits : src.toNat + n ≤ 2 ^ 32) :
    ∃ moved, MoveOp.movsb.exec c = some moved ∧
      MovingUp before dest src n k (moved.setReg .ecx (moved.reg .ecx - 1)) := by
  have left := moving.left
  have done : n - (k + 1) + 1 = n - k := by omega
  have small : n ≤ 2 ^ 32 := by omega
  have place : (src + UInt32.ofNat (n - (k + 1))).toNat = src.toNat + (n - (k + 1)) :=
    toNat_add_small (by omega)
  have unread : n - (k + 1) ≤ (src + UInt32.ofNat (n - (k + 1)) - dest).toNat := by
    rw [UInt32.toNat_sub_of_le _ _ (UInt32.le_iff_toNat_le.mpr (by omega)), place]
    omega
  have read : c.mem (c.reg .esi) = before (src + UInt32.ofNat (n - (k + 1))) := by
    rw [moving.mem, moving.esi]
    exact movedPart_source (.inr unread)
  refine ⟨_, movsb_exec moving.segment, ?_⟩
  constructor
  · exact toNat_sub_one moving.count
  · omega
  · show (if c.direction then c.reg .edi - UInt32.ofNat 1 else c.reg .edi + UInt32.ofNat 1) = _
    rw [moving.direction, if_neg Bool.false_ne_true, moving.edi, UInt32.add_assoc,
      ← UInt32.ofNat_add, done]
  · show (if c.direction then c.reg .esi - UInt32.ofNat 1 else c.reg .esi + UInt32.ofNat 1) = _
    rw [moving.direction, if_neg Bool.false_ne_true, moving.esi, UInt32.add_assoc,
      ← UInt32.ofNat_add, done]
  · exact moving.segment
  · exact moving.direction
  · show Function.update c.mem (c.reg .edi) (c.mem (c.reg .esi)) = _
    rw [read, moving.mem, moving.edi, movedPart_up (Nat.zero_le _) (by omega), done]

/-- Going down, it has not been overwritten if the source is below. -/
theorem MovingDown.round {k : Nat} (moving : MovingDown before dest src n (k + 1) c)
    (order : src.toNat < dest.toNat) (fits : dest.toNat + n ≤ 2 ^ 32) :
    ∃ moved, MoveOp.movsb.exec c = some moved ∧
      MovingDown before dest src n k (moved.setReg .ecx (moved.reg .ecx - 1)) := by
  have left := moving.left
  have last : ∀ address : UInt32, address + UInt32.ofNat (k + 1) - 1 = address + UInt32.ofNat k := by
    intro address
    rw [UInt32.ofNat_add, ← UInt32.add_assoc]
    exact UInt32.add_sub_cancel _ _
  have place : (src + UInt32.ofNat k).toNat = src.toNat + k := toNat_add_small (by omega)
  have unread : (src + UInt32.ofNat k - dest).toNat < k + 1 ∨
      n ≤ (src + UInt32.ofNat k - dest).toNat := by
    rw [UInt32.toNat_sub, place]
    omega
  have read : c.mem (c.reg .esi) = before (src + UInt32.ofNat k) := by
    rw [moving.mem, moving.esi, last]
    exact movedPart_source unread
  refine ⟨_, movsb_exec moving.segment, ?_⟩
  constructor
  · exact toNat_sub_one moving.count
  · omega
  · show (if c.direction then c.reg .edi - UInt32.ofNat 1 else c.reg .edi + UInt32.ofNat 1) = _
    rw [moving.direction, if_pos rfl, moving.edi, last]
    rfl
  · show (if c.direction then c.reg .esi - UInt32.ofNat 1 else c.reg .esi + UInt32.ofNat 1) = _
    rw [moving.direction, if_pos rfl, moving.esi, last]
    rfl
  · exact moving.segment
  · exact moving.direction
  · show Function.update c.mem (c.reg .edi) (c.mem (c.reg .esi)) = _
    rw [read, moving.mem, moving.edi, last, movedPart_down (by omega) (by omega)]

theorem Storing.round {o : MoveOp} (stores : o ≠ .movsb) {start eax : UInt32} {k : Nat}
    (storing : Storing before start o eax n (k + 1) c)
    (fits : start.toNat + o.size * n ≤ 2 ^ 32) :
    ∃ moved, o.exec c = some moved ∧
      Storing before start o eax n k (moved.setReg .ecx (moved.reg .ecx - 1)) := by
  have left := storing.left
  have done : n - (k + 1) + 1 = n - k := by omega
  have positive : 0 < o.size := by cases o <;> decide
  have reached : o.size * (n - (k + 1)) + o.size ≤ o.size * n := by
    rw [← Nat.mul_succ]
    exact Nat.mul_le_mul_left _ (by omega)
  have place : (start + UInt32.ofNat (o.size * (n - (k + 1)))).toNat =
      start.toNat + o.size * (n - (k + 1)) := toNat_add_small (by omega)
  have inside : (c.reg .edi).toNat + o.size ≤ 2 ^ 32 := by
    rw [storing.edi, place]
    omega
  have executes : o.exec c = some (moveOn { c with
      mem := overlay c.mem (c.reg .edi) (o.stored (c.reg .eax)) } o.size .edi) := by
    cases o with
    | movsb => exact absurd rfl stores
    | stosw => rw [MoveOp.exec, if_pos ⟨storing.segment, inside⟩]
    | stosl => rw [MoveOp.exec, if_pos ⟨storing.segment, inside⟩]
  refine ⟨_, executes, ?_⟩
  constructor
  · exact toNat_sub_one storing.count
  · omega
  · show (if c.direction then c.reg .edi - UInt32.ofNat o.size
      else c.reg .edi + UInt32.ofNat o.size) = _
    rw [storing.direction, if_neg Bool.false_ne_true, storing.edi, UInt32.add_assoc,
      ← UInt32.ofNat_add, ← Nat.mul_succ, Nat.succ_eq_add_one, done]
  · exact storing.word
  · exact storing.segment
  · exact storing.direction
  · have length := o.stored_length eax
    have nonempty : o.stored eax ≠ [] := by
      intro empty
      rw [empty, List.length_nil] at length
      omega
    have next := patterned_more before start (k := n - (k + 1)) nonempty
      (by rw [length, Nat.mul_succ]; omega)
    rw [length, done] at next
    show overlay c.mem (c.reg .edi) (o.stored (c.reg .eax)) = _
    rw [storing.mem, storing.edi, storing.word, next]

end Runs

end LightOS.Lib.StringMoves
