import LightOS.Lib.StringMoves

/-! # `memmove`, `memset_word` and `memset_dword`

The inline assembly of lib.c that ends in a string instruction.  `memmove` compares the two
pointers and goes down from the last byte if the source lies below the destination; then it
returns with the direction flag still set.
-/

namespace LightOS.Library

open Lib Lib.Assembly Lib.StringMoves StateTransition

/-- `.memmove_go` -/
inductive MoveLabel where
  | memmoveGo
  deriving Repr, DecidableEq

/-- The assembly of `memmove`. -/
def memmoveCode : List (StringMoves.Line MoveLabel) :=
  [.movwDs .edx,
    .movwEs .edx,
    .cld,
    .cmp .edi .esi,
    .jae .memmoveGo,
    .leal (-1) .esi .ecx .esi,
    .leal (-1) .edi .ecx .edi,
    .std,
    .label .memmoveGo,
    .rep .movsb]

/-- The assembly of `memset_word`, with `stosw`, and of `memset_dword`, with `stosl`. -/
def memsetCodeOf (o : MoveOp) : List (StringMoves.Line MoveLabel) :=
  [.movwDs .edx, .movwEs .edx, .cld, .rep o]

def memsetWordCode : List (StringMoves.Line MoveLabel) := memsetCodeOf .stosw
def memsetDwordCode : List (StringMoves.Line MoveLabel) := memsetCodeOf .stosl

/-- The registers `memmove(dest, src, n)` enters its assembly with. -/
def memmoveEntry (cpu : Cpu) (dest src n : UInt32) : Cpu :=
  ((cpu.setReg .esi src).setReg .edi dest).setReg .ecx n

/-- The registers `memset_word(s, c, n)` and `memset_dword(s, c, n)` enter theirs with. -/
def memsetWordsEntry (cpu : Cpu) (s c n : UInt32) : Cpu :=
  ((cpu.setReg .eax c).setReg .edi s).setReg .ecx n

/-- The first three instructions of all of them. -/
def prepared (cpu : Cpu) : Cpu :=
  let half := setLowHalf (cpu.reg .edx) cpu.ds
  { cpu.setReg .edx half with es := half.toUInt16, direction := false }

/-- Both pointers at the last byte, and the direction flag set. -/
def fromTheEnd (cpu : Cpu) : Cpu :=
  let cpu := cpu.setReg .esi (cpu.reg .esi + cpu.reg .ecx + -1)
  { cpu.setReg .edi (cpu.reg .edi + cpu.reg .ecx + -1) with direction := true }

section Moves

variable {cpu : Cpu} {dest src s c n : UInt32} {carry : Bool}

theorem prepared_segment (cpu : Cpu) : (prepared cpu).es = (prepared cpu).ds :=
  setLowHalf_low _ _

theorem fromTheEnd_segment (segment : cpu.es = cpu.ds) :
    (fromTheEnd cpu).es = (fromTheEnd cpu).ds := by
  cases cpu
  exact segment

/-- Up to the comparison. -/
theorem memmove_compares (cpu : Cpu) (carry : Bool) :
    Reaches (step memmoveCode) ⟨memmoveCode, cpu, carry⟩
      ⟨memmoveCode.drop 4, prepared cpu, decide (cpu.reg .esi < cpu.reg .edi)⟩ :=
  .head rfl (.head rfl (.head rfl (.head rfl .refl)))

theorem memmove_up (cpu : Cpu) (order : dest.toNat ≤ src.toNat) (srcFits : NoWrap src n) :
    ∃ last, Completes memmoveCode (memmoveEntry cpu dest src n) last ∧
      last.mem = movedPart cpu.mem dest src 0 n.toNat ∧ last.direction = false := by
  have start : MovingUp cpu.mem dest src n.toNat n.toNat (prepared (memmoveEntry cpu dest src n)) :=
    { count := rfl
      left := Nat.le_refl _
      edi := by rw [Nat.sub_self]; exact (UInt32.add_zero dest).symm
      esi := by rw [Nat.sub_self]; exact (UInt32.add_zero src).symm
      segment := prepared_segment _
      direction := rfl
      mem := by rw [Nat.sub_self, movedPart_empty]; rfl }
  have above : decide ((memmoveEntry cpu dest src n).reg .esi <
      (memmoveEntry cpu dest src n).reg .edi) = false := by
    show decide (src < dest) = false
    rw [decide_eq_false_iff_not, UInt32.lt_iff_toNat_lt]
    omega
  obtain ⟨last, moved, reaches⟩ : ∃ last, MovingUp cpu.mem dest src n.toNat 0 last ∧ ∀ carry,
      Reaches (step memmoveCode) ⟨[.rep .movsb], prepared (memmoveEntry cpu dest src n), carry⟩
        ⟨[], last, carry⟩ :=
    reaches_rep (fun moving => moving.count) (fun moving => moving.round order srcFits) start
  refine ⟨last, completes_of_reaches fun carry => ⟨false, ?_⟩, moved.mem, moved.direction⟩
  have compared := memmove_compares (memmoveEntry cpu dest src n) carry
  rw [above] at compared
  exact compared.trans (.head rfl (reaches false))

theorem memmove_down (cpu : Cpu) (order : src.toNat < dest.toNat) (destFits : NoWrap dest n) :
    ∃ last, Completes memmoveCode (memmoveEntry cpu dest src n) last ∧
      last.mem = movedPart cpu.mem dest src 0 n.toNat ∧ last.direction = true := by
  have edi : (fromTheEnd (prepared (memmoveEntry cpu dest src n))).reg .edi = dest + n + -1 := rfl
  have esi : (fromTheEnd (prepared (memmoveEntry cpu dest src n))).reg .esi = src + n + -1 := rfl
  have start : MovingDown cpu.mem dest src n.toNat n.toNat
      (fromTheEnd (prepared (memmoveEntry cpu dest src n))) :=
    { count := rfl
      left := Nat.le_refl _
      edi := by rw [UInt32.ofNat_toNat, UInt32.sub_eq_add_neg]; exact edi
      esi := by rw [UInt32.ofNat_toNat, UInt32.sub_eq_add_neg]; exact esi
      segment := fromTheEnd_segment (prepared_segment _)
      direction := rfl
      mem := by rw [movedPart_empty]; rfl }
  have below : decide ((memmoveEntry cpu dest src n).reg .esi <
      (memmoveEntry cpu dest src n).reg .edi) = true := by
    show decide (src < dest) = true
    rw [decide_eq_true_eq, UInt32.lt_iff_toNat_lt]
    exact order
  obtain ⟨last, moved, reaches⟩ : ∃ last, MovingDown cpu.mem dest src n.toNat 0 last ∧ ∀ carry,
      Reaches (step memmoveCode)
        ⟨[.rep .movsb], fromTheEnd (prepared (memmoveEntry cpu dest src n)), carry⟩
        ⟨[], last, carry⟩ :=
    reaches_rep (fun moving => moving.count) (fun moving => moving.round order destFits) start
  refine ⟨last, completes_of_reaches fun carry => ⟨true, ?_⟩, moved.mem, moved.direction⟩
  have compared := memmove_compares (memmoveEntry cpu dest src n) carry
  rw [below] at compared
  exact compared.trans (.head rfl (.head rfl (.head rfl (.head rfl (.head rfl (reaches true))))))

/-- However the two regions overlap: `memmove` runs to its end, and the destination holds what the
    source held before, with nothing else changed.  It returns with the direction flag set just
    where the source lies below. -/
theorem memmove_moves (cpu : Cpu) (destFits : NoWrap dest n) (srcFits : NoWrap src n) :
    ∃ last, Completes memmoveCode (memmoveEntry cpu dest src n) last ∧
      (∀ other, Completes memmoveCode (memmoveEntry cpu dest src n) other → other = last) ∧
      Exactly dest n (fun i => cpu.mem (src + UInt32.ofNat i)) cpu.mem last.mem ∧
      last.direction = decide (src < dest) := by
  cases order : decide (src < dest) with
  | false =>
      rw [decide_eq_false_iff_not, UInt32.lt_iff_toNat_lt, Nat.not_lt] at order
      obtain ⟨last, completes, mem, direction⟩ := memmove_up cpu order srcFits
      refine ⟨last, completes, fun other also => also.unique completes, ?_, direction⟩
      rw [mem]
      exact movedPart_exactly n
  | true =>
      rw [decide_eq_true_eq, UInt32.lt_iff_toNat_lt] at order
      obtain ⟨last, completes, mem, direction⟩ := memmove_down cpu order destFits
      refine ⟨last, completes, fun other also => also.unique completes, ?_, direction⟩
      rw [mem]
      exact movedPart_exactly n

/-- Seven bytes moved up by two places, onto themselves. -/
theorem memmove_moves_overlap :
    let cpu : Cpu := ⟨fun _ => 0, 0x18, 0x2B, false, false, fun address => address.toUInt8⟩
    ∃ last, Completes memmoveCode (memmoveEntry cpu 12 10 7) last ∧ last.mem 18 = 16 ∧
      last.mem 11 = 11 ∧ last.direction = true := by
  intro cpu
  have destFits : NoWrap 12 7 := by decide
  have srcFits : NoWrap 10 7 := by decide
  obtain ⟨last, completes, _, moved, direction⟩ := memmove_moves cpu destFits srcFits
  exact ⟨last, completes, moved.inside 6 (by decide), moved.outside 11 (by decide), direction⟩

theorem stored_byte (o : MoveOp) (c : UInt32) {i : Nat} (inside : i < o.size) :
    (o.stored c).getD i 0 = UInt8.ofNat (c.toNat / 256 ^ i) := by
  have size : o.size ≤ 4 := by cases o <;> decide
  have place : i < (o.stored c).length := by
    rw [o.stored_length]
    exact inside
  rw [List.getD_eq_getElem?_getD, List.getElem?_eq_getElem place, Option.getD_some]
  simp only [MoveOp.stored, dwordBytes, List.getElem_take, List.getElem_map, List.getElem_range]

/-- A region filled with the words, byte for byte. -/
theorem patterned_words {before : UInt32 → UInt8} {o : MoveOp} {count : Nat} (small : count ≤ 2 ^ 32) :
    (∀ i < count, patterned before s (o.stored c) count (s + UInt32.ofNat i) =
        UInt8.ofNat (c.toNat / 256 ^ (i % o.size))) ∧
      ∀ address, (∀ i < count, address ≠ s + UInt32.ofNat i) →
        patterned before s (o.stored c) count address = before address := by
  have positive : 0 < o.size := by cases o <;> decide
  constructor
  · intro i inside
    have place : (s + UInt32.ofNat i - s).toNat = i := toNat_add_ofNat_sub s (by omega)
    rw [patterned, place, if_pos inside, o.stored_length]
    exact stored_byte o c (Nat.mod_lt i positive)
  · intro address outside
    rw [patterned, if_neg]
    intro inside
    exact outside _ inside ((eq_add_ofNat_iff (by omega)).mpr rfl)

/-- `n` words of two or of four bytes, the lowest bytes of `c` first, and nothing else: that is
    what `memset_word` and `memset_dword` store. -/
theorem memset_words_store (cpu : Cpu) {o : MoveOp} (stores : o ≠ .movsb)
    (fits : s.toNat + o.size * n.toNat ≤ 2 ^ 32) :
    ∃ last, Completes (memsetCodeOf o) (memsetWordsEntry cpu s c n) last ∧
      (∀ other, Completes (memsetCodeOf o) (memsetWordsEntry cpu s c n) other → other = last) ∧
      (∀ i < o.size * n.toNat,
        last.mem (s + UInt32.ofNat i) = UInt8.ofNat (c.toNat / 256 ^ (i % o.size))) ∧
      ∀ address, (∀ i < o.size * n.toNat, address ≠ s + UInt32.ofNat i) →
        last.mem address = cpu.mem address := by
  have start : Storing cpu.mem s o c n.toNat n.toNat (prepared (memsetWordsEntry cpu s c n)) :=
    { count := rfl
      left := Nat.le_refl _
      edi := by rw [Nat.sub_self, Nat.mul_zero]; exact (UInt32.add_zero s).symm
      word := rfl
      segment := prepared_segment _
      direction := rfl
      mem := by
        funext address
        rw [Nat.sub_self, Nat.mul_zero, patterned, if_neg (Nat.not_lt_zero _)]
        rfl }
  obtain ⟨last, stored, reaches⟩ : ∃ last, Storing cpu.mem s o c n.toNat 0 last ∧ ∀ carry,
      Reaches (step (memsetCodeOf o)) ⟨[.rep o], prepared (memsetWordsEntry cpu s c n), carry⟩
        ⟨[], last, carry⟩ :=
    reaches_rep (fun storing => storing.count) (fun storing => storing.round stores fits) start
  have completes : Completes (memsetCodeOf o) (memsetWordsEntry cpu s c n) last :=
    completes_of_reaches fun carry => ⟨carry, .head rfl (.head rfl (.head rfl (reaches carry)))⟩
  have small : o.size * n.toNat ≤ 2 ^ 32 := by omega
  refine ⟨last, completes, fun other also => also.unique completes, ?_⟩
  rw [stored.mem, Nat.sub_zero]
  exact patterned_words small

/-- Three cells of the text screen, from an odd address on. -/
theorem memset_words_store_cells :
    let cpu : Cpu := ⟨fun _ => 0, 0x18, 0x2B, false, true, fun _ => 0xFF⟩
    ∃ last, Completes memsetWordCode (memsetWordsEntry cpu 0xB8001 0x0720 3) last ∧
      last.mem 0xB8005 = 0x20 ∧ last.mem 0xB8006 = 0x07 ∧ last.mem 0xB8007 = 0xFF := by
  intro cpu
  have fits : (0xB8001 : UInt32).toNat + MoveOp.stosw.size * (3 : UInt32).toNat ≤ 2 ^ 32 := by decide
  obtain ⟨last, completes, _, inside, outside⟩ :=
    memset_words_store cpu (c := 0x0720) (show MoveOp.stosw ≠ .movsb by decide) fits
  exact ⟨last, completes, inside 4 (by decide), inside 5 (by decide), outside 0xB8007 (by decide)⟩

end Moves

end LightOS.Library
