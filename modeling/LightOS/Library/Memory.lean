import LightOS.Lib.Assembly

/-! # `memset` and `memcpy`

The two routines of `lib.c` that fill and copy memory are inline assembly of one shape: bytes
until the destination is aligned, double words under `rep`, and bytes for what is left.  The
listings are the source's, line by line; that shape is a listing with the two moves as
parameters, and what it leaves behind is proved once.
-/

namespace LightOS.Library

open Lib Lib.Assembly StateTransition

/-- `.memset_top` or `.memcpy_top`, and so on. -/
inductive Label where
  | top | aligned | bottom | done
  deriving Repr, DecidableEq

/-- The assembly of `memset`. -/
def memsetCode : List (Line Label) :=
  [.label .top,
    .op (.testl .ecx .ecx),
    .jz .done,
    .op (.testImm 0x3 .edi),
    .jz .aligned,
    .op (.storeAl .edi),
    .op (.addl 1 .edi),
    .op (.subl 1 .ecx),
    .jmp .top,
    .label .aligned,
    .op (.movwDs .edx),
    .op (.movwEs .edx),
    .op (.movl .ecx .edx),
    .op (.shrl 2 .ecx),
    .op (.andl 0x3 .edx),
    .op .cld,
    .rep .stosl,
    .label .bottom,
    .op (.testl .edx .edx),
    .jz .done,
    .op (.storeAl .edi),
    .op (.addl 1 .edi),
    .op (.subl 1 .edx),
    .jmp .bottom,
    .label .done]

/-- The assembly of `memcpy`. -/
def memcpyCode : List (Line Label) :=
  [.label .top,
    .op (.testl .ecx .ecx),
    .jz .done,
    .op (.testImm 0x3 .edi),
    .jz .aligned,
    .op (.loadAl .esi),
    .op (.storeAl .edi),
    .op (.addl 1 .edi),
    .op (.addl 1 .esi),
    .op (.subl 1 .ecx),
    .jmp .top,
    .label .aligned,
    .op (.movwDs .edx),
    .op (.movwEs .edx),
    .op (.movl .ecx .edx),
    .op (.shrl 2 .ecx),
    .op (.andl 0x3 .edx),
    .op .cld,
    .rep .movsl,
    .label .bottom,
    .op (.testl .edx .edx),
    .jz .done,
    .op (.loadAl .esi),
    .op (.storeAl .edi),
    .op (.addl 1 .edi),
    .op (.addl 1 .esi),
    .op (.subl 1 .edx),
    .jmp .bottom,
    .label .done]

/-- `c << 24 | c << 16 | c << 8 | c` after `c &= 0xFF` -/
def memsetValue (c : UInt32) : UInt32 :=
  let c := c &&& 0xFF
  c <<< 24 ||| c <<< 16 ||| c <<< 8 ||| c

/-- The registers `memset(s, c, n)` enters its assembly with. -/
def memsetEntry (cpu : Cpu) (s c n : UInt32) : Cpu :=
  ((cpu.setReg .eax (memsetValue c)).setReg .edi s).setReg .ecx n

/-- The registers `memcpy(dest, src, n)` enters its assembly with. -/
def memcpyEntry (cpu : Cpu) (dest src n : UInt32) : Cpu :=
  ((cpu.setReg .esi src).setReg .edi dest).setReg .ecx n

/-- Byte by byte, what `memset` is for. -/
def setBytes (mem : UInt32 → UInt8) (s c : UInt32) (n : Nat) : UInt32 → UInt8 :=
  (List.range n).foldl (fun mem i => Function.update mem (s + UInt32.ofNat i) c.toUInt8) mem

/-- Byte by byte, what `memcpy` is for. -/
def copyBytes (mem : UInt32 → UInt8) (dest src : UInt32) (n : Nat) : UInt32 → UInt8 :=
  (List.range n).foldl
    (fun mem i => Function.update mem (dest + UInt32.ofNat i) (mem (src + UInt32.ofNat i))) mem

/-- From the bottom loop on. -/
def wordwiseTail (moveByte : List Op) : List (Line Label) :=
  .op (.testl .edx .edx) :: .jz .done ::
    (moveByte.map .op ++ [.op (.subl 1 .edx), .jmp .bottom, .label .done])

/-- From the double words on. -/
def wordwiseMiddle (moveByte : List Op) (moveWord : StringOp) : List (Line Label) :=
  [Op.movwDs .edx, .movwEs .edx, .movl .ecx .edx, .shrl 2 .ecx, .andl 0x3 .edx, .cld].map .op ++
    .rep moveWord :: .label .bottom :: wordwiseTail moveByte

/-- The loop for the bytes up to an aligned destination. -/
def wordwiseLoop (moveByte : List Op) (moveWord : StringOp) : List (Line Label) :=
  .op (.testl .ecx .ecx) :: .jz .done :: .op (.testImm 0x3 .edi) :: .jz .aligned ::
    (moveByte.map .op ++
      .op (.subl 1 .ecx) :: .jmp .top :: .label .aligned :: wordwiseMiddle moveByte moveWord)

/-- The shape of both routines. -/
def wordwise (moveByte : List Op) (moveWord : StringOp) : List (Line Label) :=
  .label .top :: wordwiseLoop moveByte moveWord

def memsetByte : List Op := [.storeAl .edi, .addl 1 .edi]

def memcpyByte : List Op := [.loadAl .esi, .storeAl .edi, .addl 1 .edi, .addl 1 .esi]

theorem memsetCode_eq : memsetCode = wordwise memsetByte .stosl := rfl

theorem memcpyCode_eq : memcpyCode = wordwise memcpyByte .movsl := rfl

/-- What a move works on: `eax`, `esi`, `edi` and the memory. -/
structure Operands where
  eax : UInt32
  esi : UInt32
  edi : UInt32
  mem : UInt32 → UInt8

def operands (c : Cpu) : Operands := ⟨c.reg .eax, c.reg .esi, c.reg .edi, c.mem⟩

/-- The moves of a routine, as far as the shape needs to know them.  `moved k` is what holds of
    the operands after `k` bytes of `length`. -/
structure Moves (moveByte : List Op) (moveWord : StringOp) (length : Nat)
    (moved : Nat → Operands → Prop) : Prop where
  byte : ∀ {k c}, k < length → moved k (operands c) → moved (k + 1) (operands (execAll moveByte c))
  counters : ∀ c, (execAll moveByte c).reg .ecx = c.reg .ecx ∧
    (execAll moveByte c).reg .edx = c.reg .edx
  word : ∀ {k c}, k + 4 ≤ length → c.es = c.ds → c.direction = false → moved k (operands c) →
    ∃ c', moveWord.exec c = some c' ∧ moved (k + 4) (operands c') ∧
      c'.reg .ecx = c.reg .ecx ∧ c'.reg .edx = c.reg .edx ∧ c'.es = c'.ds ∧ c'.direction = false

section Wordwise

variable {moveByte : List Op} {moveWord : StringOp}

theorem below_top : below .top (wordwise moveByte moveWord) =
    some (wordwiseLoop moveByte moveWord) := rfl

theorem below_aligned : below .aligned (wordwise moveByte moveWord) =
    some (wordwiseMiddle moveByte moveWord) := by
  simp [wordwise, wordwiseLoop, below, below_ops]

theorem below_bottom : below .bottom (wordwise moveByte moveWord) =
    some (wordwiseTail moveByte) := by
  simp [wordwise, wordwiseLoop, wordwiseMiddle, below, below_ops]

theorem below_done : below .done (wordwise moveByte moveWord) = some [] := by
  simp [wordwise, wordwiseLoop, wordwiseMiddle, wordwiseTail, below, below_ops]

variable {length : Nat} {moved : Nat → Operands → Prop}

/-- The bytes that are left at the end. -/
theorem Moves.tail (moves : Moves moveByte moveWord length moved) {r k : Nat} {c : Cpu}
    (count : (c.reg .edx).toNat = r) (total : k + r = length) (started : moved k (operands c)) :
    ∃ c', moved length (operands c') ∧
      Reaches (step (wordwise moveByte moveWord)) ⟨wordwiseTail moveByte, c⟩ ⟨[], c'⟩ := by
  induction r generalizing k c with
  | zero =>
      have finished : k = length := total
      subst finished
      refine ⟨Op.exec c (.testl .edx .edx), started, reaches_cons rfl ?_⟩
      apply reaches_jz_taken _ below_done Relation.ReflTransGen.refl
      exact testl_zero count
  | succ r ih =>
      let tested := Op.exec c (.testl .edx .edx)
      let stepped := execAll moveByte tested
      have counter : (stepped.reg .edx).toNat = r + 1 := by
        rw [(moves.counters tested).2]
        exact count
      have next := moves.byte (c := tested) (by omega) started
      obtain ⟨last, finished, reaches⟩ := ih (k := k + 1)
        (c := Op.exec stepped (.subl 1 .edx)) (toNat_sub_one counter) (by omega) next
      refine ⟨last, finished, reaches_cons rfl ?_⟩
      apply reaches_jz_passed
      · exact testl_nonzero count
      · exact reaches_ops moveByte (reaches_cons rfl (reaches_jmp below_bottom reaches))

/-- While double words are moved: `j` of them are left, and `left` bytes after them. -/
structure Rounds (length : Nat) (moved : Nat → Operands → Prop) (left j : Nat) (c : Cpu) :
    Prop where
  count : (c.reg .ecx).toNat = j
  after : (c.reg .edx).toNat = left
  started : ∃ k, k + 4 * j + left = length ∧ moved k (operands c)
  segment : c.es = c.ds
  forward : c.direction = false

theorem Moves.round (moves : Moves moveByte moveWord length moved) {left j : Nat} {c : Cpu}
    (rounds : Rounds length moved left (j + 1) c) :
    ∃ c', moveWord.exec c = some c' ∧
      Rounds length moved left j (c'.setReg .ecx (c'.reg .ecx - 1)) := by
  obtain ⟨k, total, started⟩ := rounds.started
  obtain ⟨c', executes, next, ecx, edx, segment, forward⟩ :=
    moves.word (by omega) rounds.segment rounds.forward started
  refine ⟨c', executes, ?_, ?_, ⟨k + 4, by omega, next⟩, segment, forward⟩
  · exact toNat_sub_one ((congrArg UInt32.toNat ecx).trans rounds.count)
  · exact (congrArg UInt32.toNat edx).trans rounds.after

/-- The double words and what comes after them. -/
theorem Moves.middle (moves : Moves moveByte moveWord length moved) {k : Nat} {c : Cpu}
    (total : k + (c.reg .ecx).toNat = length) (started : moved k (operands c)) :
    ∃ c', moved length (operands c') ∧
      Reaches (step (wordwise moveByte moveWord)) ⟨wordwiseMiddle moveByte moveWord, c⟩
        ⟨[], c'⟩ := by
  let split := execAll
    [Op.movwDs .edx, .movwEs .edx, .movl .ecx .edx, .shrl 2 .ecx, .andl 0x3 .edx, .cld] c
  have rounds : Rounds length moved ((c.reg .ecx).toNat % 4) ((c.reg .ecx).toNat / 4) split :=
    { count := by
        show (c.reg .ecx >>> 2).toNat = _
        rw [UInt32.toNat_shiftRight]
        exact Nat.shiftRight_eq_div_pow _ 2
      after := by
        show (0x3 &&& c.reg .ecx).toNat = _
        rw [UInt32.toNat_and, Nat.and_comm]
        exact Nat.and_two_pow_sub_one_eq_mod _ 2
      started := ⟨k, by omega, started⟩
      segment := setLowHalf_low _ _
      forward := rfl }
  obtain ⟨copied, done, reaches⟩ : ∃ copied, Rounds length moved _ 0 copied ∧
      Reaches (step (wordwise moveByte moveWord))
        ⟨.rep moveWord :: .label .bottom :: wordwiseTail moveByte, split⟩
        ⟨.label .bottom :: wordwiseTail moveByte, copied⟩ :=
    reaches_rep (fun rounds => rounds.count) moves.round rounds
  obtain ⟨k', total', started'⟩ := done.started
  obtain ⟨last, finished, tail⟩ := moves.tail done.after (by omega) started'
  exact ⟨last, finished, reaches_ops _ (reaches.trans (reaches_label tail))⟩

/-- The whole routine. -/
theorem Moves.loop (moves : Moves moveByte moveWord length moved) {m k : Nat} {c : Cpu}
    (count : (c.reg .ecx).toNat = m) (total : k + m = length) (started : moved k (operands c)) :
    ∃ c', moved length (operands c') ∧
      Reaches (step (wordwise moveByte moveWord)) ⟨wordwiseLoop moveByte moveWord, c⟩
        ⟨[], c'⟩ := by
  induction m generalizing k c with
  | zero =>
      have finished : k = length := total
      subst finished
      refine ⟨Op.exec c (.testl .ecx .ecx), started, reaches_cons rfl ?_⟩
      apply reaches_jz_taken _ below_done Relation.ReflTransGen.refl
      exact testl_zero count
  | succ m ih =>
      let tested := Op.exec (Op.exec c (.testl .ecx .ecx)) (.testImm 0x3 .edi)
      have remaining : (Op.exec c (.testl .ecx .ecx)).zero = false := testl_nonzero count
      cases aligned : tested.zero with
      | true =>
          obtain ⟨last, finished, reaches⟩ := moves.middle (c := tested)
            (by rw [← total, ← count]; rfl) started
          exact ⟨last, finished, reaches_cons rfl (reaches_jz_passed remaining
            (reaches_cons rfl (reaches_jz_taken aligned below_aligned reaches)))⟩
      | false =>
          let stepped := execAll moveByte tested
          have counter : (stepped.reg .ecx).toNat = m + 1 := by
            rw [(moves.counters tested).1]
            exact count
          have next := moves.byte (c := tested) (by omega) started
          obtain ⟨last, finished, reaches⟩ := ih (k := k + 1)
            (c := Op.exec stepped (.subl 1 .ecx)) (toNat_sub_one counter) (by omega) next
          refine ⟨last, finished, reaches_cons rfl (reaches_jz_passed remaining
            (reaches_cons rfl (reaches_jz_passed aligned ?_)))⟩
          exact reaches_ops moveByte (reaches_cons rfl (reaches_jmp below_top reaches))

/-- A routine of the shape moves all its bytes, wherever it starts. -/
theorem Moves.completes (moves : Moves moveByte moveWord length moved) {c : Cpu}
    (count : (c.reg .ecx).toNat = length) (started : moved 0 (operands c)) :
    ∃ c', moved length (operands c') ∧ Completes (wordwise moveByte moveWord) c c' := by
  obtain ⟨last, finished, reaches⟩ := moves.loop count (Nat.zero_add _) started
  exact ⟨last, finished, completes_iff.mpr (reaches_label reaches)⟩

end Wordwise

/-- The first `k` of the bytes are stored, and nothing else has changed. -/
structure Stored (before : UInt32 → UInt8) (dest : UInt32) (bytes : List UInt8) (k : Nat)
    (o : Operands) : Prop where
  mem : o.mem = overlay before dest (bytes.take k)
  edi : o.edi = dest + UInt32.ofNat k

section Stored

variable {before : UInt32 → UInt8} {dest : UInt32} {bytes : List UInt8} {k : Nat}
  {o o' : Operands}

theorem stored_start (mem : o.mem = before) (edi : o.edi = dest) :
    Stored before dest bytes 0 o where
  mem := by rw [mem, List.take_zero, overlay_nil]
  edi := by rw [edi]; exact (UInt32.add_zero dest).symm

/-- The next bytes are stored where `edi` points. -/
theorem Stored.more (stored : Stored before dest bytes k o) (size : Nat)
    (small : bytes.length ≤ 2 ^ 32) (inside : k + size ≤ bytes.length)
    (mem : o'.mem = overlay o.mem o.edi ((bytes.drop k).take size))
    (edi : o'.edi = o.edi + UInt32.ofNat size) : Stored before dest bytes (k + size) o' where
  mem := by
    have first : (bytes.take k).length = k := List.length_take_of_le (by omega)
    have next : ((bytes.drop k).take size).length = size :=
      List.length_take_of_le (by rw [List.length_drop]; omega)
    have joined : overlay (overlay before dest (bytes.take k))
        (dest + UInt32.ofNat (bytes.take k).length) ((bytes.drop k).take size) =
          overlay before dest (bytes.take k ++ (bytes.drop k).take size) :=
      overlay_append _ (by omega)
    rw [first] at joined
    rw [mem, stored.mem, stored.edi, joined, ← List.take_add]
  edi := by rw [edi, stored.edi, UInt32.add_assoc, UInt32.ofNat_add]

theorem Stored.all (stored : Stored before dest bytes k o) (all : bytes.length ≤ k) :
    o.mem = overlay before dest bytes := by
  rw [stored.mem, List.take_of_length_le all]

theorem update_eq_overlay (mem : UInt32 → UInt8) (address : UInt32) (byte : UInt8) :
    Function.update mem address byte = overlay mem address [byte] := by
  have one : overlay mem address ([] ++ [byte]) =
      Function.update (overlay mem address []) (address + UInt32.ofNat 0) byte :=
    overlay_concat (by decide) byte
  rw [List.nil_append, overlay_nil] at one
  exact (one.trans (congrArg (Function.update mem · byte) (UInt32.add_zero address))).symm

theorem Stored.dwordFits (stored : Stored before dest bytes k o)
    (noWrap : dest.toNat + bytes.length ≤ 2 ^ 32) (inside : k + 4 ≤ bytes.length) :
    DwordFits o.edi := by
  have small : k < 2 ^ 32 := by omega
  rw [DwordFits, stored.edi, UInt32.toNat_add, toNat_ofNat_small small,
    Nat.mod_eq_of_lt (by omega)]
  omega

end Stored

section Memset

variable {cpu : Cpu} {s c n : UInt32}

/-- The low byte of `c`, four times. -/
theorem memsetValue_toNat (c : UInt32) :
    (memsetValue c).toNat = c.toUInt8.toNat + 256 * c.toUInt8.toNat +
      256 ^ 2 * c.toUInt8.toNat + 256 ^ 3 * c.toUInt8.toNat := by
  generalize value : c.toUInt8.toNat = b
  have fits : b < 2 ^ 8 := value ▸ c.toUInt8.toNat_lt
  have low : (c &&& 0xFF).toNat = b := by
    rw [UInt32.toNat_and, ← value, UInt32.toNat_toUInt8]
    exact Nat.and_two_pow_sub_one_eq_mod _ 8
  have shifted (i : Nat) (small : i ≤ 24) :
      ((c &&& 0xFF) <<< UInt32.ofNat i).toNat = 2 ^ i * b := by
    have bound : 2 ^ i * b < 2 ^ 32 := by
      calc 2 ^ i * b < 2 ^ i * 2 ^ 8 := Nat.mul_lt_mul_of_pos_left fits (Nat.two_pow_pos i)
        _ = 2 ^ (i + 8) := (Nat.pow_add 2 i 8).symm
        _ ≤ 2 ^ 32 := Nat.pow_le_pow_right (by decide) (by omega)
    have count : i % 32 = i := Nat.mod_eq_of_lt (by omega)
    rw [UInt32.toNat_shiftLeft, toNat_ofNat_small (by omega), count, low, Nat.shiftLeft_eq,
      Nat.mul_comm, Nat.mod_eq_of_lt bound]
  have joined : (memsetValue c).toNat = 2 ^ 24 * b ||| 2 ^ 16 * b ||| 2 ^ 8 * b ||| b := by
    simp only [memsetValue, UInt32.toNat_or, low]
    rw [← shifted 24 (by decide), ← shifted 16 (by decide), ← shifted 8 (by decide)]
    rfl
  have third : 2 ^ 8 * b ||| b = 2 ^ 8 * b + b := (Nat.two_pow_add_eq_or_of_lt fits b).symm
  have second : 2 ^ 16 * b ||| (2 ^ 8 * b + b) = 2 ^ 16 * b + (2 ^ 8 * b + b) :=
    (Nat.two_pow_add_eq_or_of_lt (by omega) b).symm
  have first : 2 ^ 24 * b ||| (2 ^ 16 * b + (2 ^ 8 * b + b)) =
      2 ^ 24 * b + (2 ^ 16 * b + (2 ^ 8 * b + b)) :=
    (Nat.two_pow_add_eq_or_of_lt (by omega) b).symm
  rw [joined, Nat.or_assoc, Nat.or_assoc, third, second, first]
  omega

theorem memsetValue_low (c : UInt32) : (memsetValue c).toUInt8 = c.toUInt8 := by
  have value := memsetValue_toNat c
  have fits := c.toUInt8.toNat_lt
  rw [← UInt8.toNat_inj, UInt32.toNat_toUInt8 (memsetValue c)]
  omega

theorem dwordBytes_memsetValue (c : UInt32) :
    dwordBytes (memsetValue c) = List.replicate 4 c.toUInt8 :=
  dwordBytes_of_toNat (memsetValue_toNat c)

/-- `k` bytes are set, and `eax` is as it was. -/
def MemsetMoved (before : UInt32 → UInt8) (s c n : UInt32) (k : Nat) (o : Operands) : Prop :=
  Stored before s (List.replicate n.toNat c.toUInt8) k o ∧ o.eax = memsetValue c

theorem memset_moves (before : UInt32 → UInt8) (noWrap : NoWrap s n) :
    Moves memsetByte .stosl n.toNat (MemsetMoved before s c n) where
  byte := by
    intro k cpu inside ⟨stored, value⟩
    have small := n.toNat_lt
    refine ⟨stored.more 1 (by simp; omega) (by simp; omega) ?_ rfl, value⟩
    have next : ((List.replicate n.toNat c.toUInt8).drop k).take 1 =
        [(cpu.reg .eax).toUInt8] := by
      rw [show cpu.reg .eax = memsetValue c from value, memsetValue_low, List.drop_replicate,
        List.take_replicate, Nat.min_eq_left (by omega)]
      rfl
    rw [next]
    exact update_eq_overlay _ _ _
  counters _ := ⟨rfl, rfl⟩
  word := by
    intro k cpu inside segment forward ⟨stored, value⟩
    have small := n.toNat_lt
    have fits : DwordFits (cpu.reg .edi) :=
      stored.dwordFits (by rw [List.length_replicate]; exact noWrap)
        (by rw [List.length_replicate]; exact inside)
    refine ⟨_, if_pos ⟨segment, fits⟩, ⟨stored.more 4 (by simp; omega) (by simp; omega)
      ?_ ?_, value⟩, rfl, rfl, segment, forward⟩
    · have next : ((List.replicate n.toNat c.toUInt8).drop k).take 4 =
          dwordBytes (cpu.reg .eax) := by
        rw [show cpu.reg .eax = memsetValue c from value, dwordBytes_memsetValue,
          List.drop_replicate, List.take_replicate, Nat.min_eq_left (by omega)]
      rw [next]
      rfl
    · simp [operands, Cpu.advance, Cpu.setReg, forward]

end Memset

section Memcpy

variable {before : UInt32 → UInt8} {dest src n : UInt32} {k : Nat} {o : Operands}

/-- The bytes that `memcpy` copies. -/
def sourceBytes (mem : UInt32 → UInt8) (src n : UInt32) : List UInt8 :=
  (List.range n.toNat).map fun i => mem (src + UInt32.ofNat i)

@[simp] theorem sourceBytes_length : (sourceBytes before src n).length = n.toNat := by
  simp [sourceBytes]

/-- `k` bytes are copied, and `esi` is as far as `edi`. -/
def MemcpyMoved (before : UInt32 → UInt8) (dest src n : UInt32) (k : Nat) (o : Operands) : Prop :=
  Stored before dest (sourceBytes before src n) k o ∧ o.esi = src + UInt32.ofNat k

/-- The bytes from `esi` on are those still to be copied. -/
theorem MemcpyMoved.next (moved : MemcpyMoved before dest src n k o) (apart : Apart dest src n)
    (destFits : NoWrap dest n) (srcFits : NoWrap src n) (size : Nat)
    (inside : k + size ≤ n.toNat) :
    ((sourceBytes before src n).drop k).take size =
      (List.range size).map fun i => o.mem (o.esi + UInt32.ofNat i) := by
  apply List.ext_getElem
  · simp
    omega
  · intro i inLeft inRight
    have here : i < size := by simpa using inRight
    have kept : overlay before dest ((sourceBytes before src n).take k)
        (src + UInt32.ofNat (k + i)) = before (src + UInt32.ofNat (k + i)) :=
      apart.overlay_source destFits srcFits (by simp) (by omega)
    simp [sourceBytes, moved.1.mem, moved.2, UInt32.add_assoc, ← UInt32.ofNat_add] at kept ⊢
    exact kept.symm

theorem memcpy_moves (apart : Apart dest src n) (destFits : NoWrap dest n)
    (srcFits : NoWrap src n) :
    Moves memcpyByte .movsl n.toNat (MemcpyMoved before dest src n) where
  byte := by
    intro k cpu inside moved
    have small := n.toNat_lt
    have next := moved.next apart destFits srcFits 1 inside
    refine ⟨moved.1.more 1 (by simp; omega) (by simp; omega) ?_ rfl, ?_⟩
    · have byte : (setLowByte (cpu.reg .eax) (cpu.mem (cpu.reg .esi))).toUInt8 =
          cpu.mem (cpu.reg .esi + UInt32.ofNat 0) := by
        rw [setLowByte_low]
        exact congrArg cpu.mem (UInt32.add_zero _).symm
      rw [next]
      exact (congrArg (Function.update cpu.mem (cpu.reg .edi)) byte).trans
        (update_eq_overlay _ _ _)
    · show cpu.reg .esi + 1 = _
      rw [show cpu.reg .esi = _ from moved.2, UInt32.add_assoc, UInt32.ofNat_add]
      rfl
  counters _ := ⟨rfl, rfl⟩
  word := by
    intro k cpu inside segment forward moved
    have small := n.toNat_lt
    have next := moved.next apart destFits srcFits 4 inside
    have fits : DwordFits (cpu.reg .edi) :=
      moved.1.dwordFits (by rw [sourceBytes_length]; exact destFits)
        (by rw [sourceBytes_length]; exact inside)
    have sourceFits : DwordFits (cpu.reg .esi) := by
      unfold NoWrap at srcFits
      rw [DwordFits, show cpu.reg .esi = _ from moved.2, UInt32.toNat_add,
        toNat_ofNat_small (by omega), Nat.mod_eq_of_lt (by omega)]
      omega
    refine ⟨_, if_pos ⟨segment, fits, sourceFits⟩, ⟨moved.1.more 4 (by simp; omega)
      (by simp; omega) ?_ ?_, ?_⟩, rfl, rfl, segment, forward⟩
    · have bytes : dwordBytes (dwordAt cpu.mem (cpu.reg .esi)) =
          (List.range 4).map fun i => cpu.mem (cpu.reg .esi + UInt32.ofNat i) := by
        rw [dwordBytes_dwordAt]
        exact congrArg (fun a => [cpu.mem a, _, _, _]) (UInt32.add_zero _).symm
      rw [next]
      exact congrArg (overlay cpu.mem (cpu.reg .edi)) bytes
    · simp [operands, Cpu.advance, Cpu.setReg, forward]
    · have esi : cpu.reg .esi = src + UInt32.ofNat k := moved.2
      simp [operands, Cpu.advance, Cpu.setReg, forward, esi, UInt32.add_assoc, UInt32.ofNat_add]

end Memcpy

section Bytewise

variable {mem : UInt32 → UInt8} {s c dest src n : UInt32}

theorem setBytes_eq {k : Nat} (small : k ≤ 2 ^ 32) :
    setBytes mem s c k = overlay mem s (List.replicate k c.toUInt8) := by
  induction k with
  | zero => rfl
  | succ k ih =>
      have last : setBytes mem s c (k + 1) =
          Function.update (setBytes mem s c k) (s + UInt32.ofNat k) c.toUInt8 := by
        simp only [setBytes, List.range_succ, List.foldl_append, List.foldl_cons, List.foldl_nil]
      rw [last, ih (by omega), List.replicate_succ',
        overlay_concat (by rw [List.length_replicate]; omega), List.length_replicate]

theorem copyBytes_eq (apart : Apart dest src n) (destFits : NoWrap dest n)
    (srcFits : NoWrap src n) :
    copyBytes mem dest src n.toNat = overlay mem dest (sourceBytes mem src n) := by
  have small := n.toNat_lt
  have prefixes (k : Nat) (inside : k ≤ n.toNat) :
      copyBytes mem dest src k = overlay mem dest ((sourceBytes mem src n).take k) := by
    induction k with
    | zero => rfl
    | succ k ih =>
        have last : copyBytes mem dest src (k + 1) =
            Function.update (copyBytes mem dest src k) (dest + UInt32.ofNat k)
              (copyBytes mem dest src k (src + UInt32.ofNat k)) := by
          simp only [copyBytes, List.range_succ, List.foldl_append, List.foldl_cons,
            List.foldl_nil]
        have first : ((sourceBytes mem src n).take k).length = k := by simp; omega
        have next : (sourceBytes mem src n)[k]? = some (mem (src + UInt32.ofNat k)) := by
          rw [sourceBytes, List.getElem?_map, List.getElem?_range (by omega), Option.map_some]
        rw [last, ih (by omega), apart.overlay_source destFits srcFits (by simp) (by omega),
          List.take_add_one, next, Option.toList_some, overlay_concat (by omega), first]
  rw [prefixes n.toNat (Nat.le_refl _), List.take_of_length_le (by simp)]

theorem memset_completes (cpu : Cpu) (c : UInt32) (noWrap : NoWrap s n) :
    ∃ last, Completes memsetCode (memsetEntry cpu s c n) last ∧
      last.mem = setBytes cpu.mem s c n.toNat := by
  have start : MemsetMoved cpu.mem s c n 0 (operands (memsetEntry cpu s c n)) :=
    ⟨stored_start rfl rfl, rfl⟩
  obtain ⟨last, ⟨stored, _⟩, completes⟩ := (memset_moves cpu.mem noWrap).completes rfl start
  rw [← memsetCode_eq] at completes
  refine ⟨last, completes, ?_⟩
  rw [setBytes_eq (Nat.le_of_lt n.toNat_lt)]
  exact stored.all (by simp)

theorem memcpy_completes (cpu : Cpu) (apart : Apart dest src n) (destFits : NoWrap dest n)
    (srcFits : NoWrap src n) :
    ∃ last, Completes memcpyCode (memcpyEntry cpu dest src n) last ∧
      last.mem = copyBytes cpu.mem dest src n.toNat := by
  have start : MemcpyMoved cpu.mem dest src n 0 (operands (memcpyEntry cpu dest src n)) :=
    ⟨stored_start rfl rfl, (UInt32.add_zero src).symm⟩
  obtain ⟨last, ⟨stored, _⟩, completes⟩ :=
    (memcpy_moves apart destFits srcFits).completes rfl start
  rw [← memcpyCode_eq] at completes
  refine ⟨last, completes, ?_⟩
  rw [copyBytes_eq apart destFits srcFits]
  exact stored.all (by simp)

theorem exactly_setBytes :
    Exactly s n (fun _ => c.toUInt8) mem (setBytes mem s c n.toNat) := by
  rw [setBytes_eq (Nat.le_of_lt n.toNat_lt)]
  apply exactly_overlay List.length_replicate
  intro i inside
  rw [List.getElem_replicate]

theorem exactly_copyBytes (apart : Apart dest src n) (destFits : NoWrap dest n)
    (srcFits : NoWrap src n) :
    Exactly dest n (fun i => mem (src + UInt32.ofNat i)) mem
      (copyBytes mem dest src n.toNat) := by
  rw [copyBytes_eq apart destFits srcFits]
  apply exactly_overlay sourceBytes_length
  intro i inside
  simp [sourceBytes]

/-- Whatever the registers, flags and memory before: `memset` and `memcpy` run to their end,
    leave the memory as the loops over bytes would, and so set or copy exactly `n` bytes. -/
theorem memset_memcpy_bytewise (cpu : Cpu) :
    (∀ s c n, NoWrap s n → ∃ last, Completes memsetCode (memsetEntry cpu s c n) last ∧
      (∀ other, Completes memsetCode (memsetEntry cpu s c n) other → other = last) ∧
      last.mem = setBytes cpu.mem s c n.toNat ∧
      Exactly s n (fun _ => c.toUInt8) cpu.mem last.mem) ∧
    ∀ dest src n, NoWrap dest n → NoWrap src n → Apart dest src n →
      ∃ last, Completes memcpyCode (memcpyEntry cpu dest src n) last ∧
        (∀ other, Completes memcpyCode (memcpyEntry cpu dest src n) other → other = last) ∧
        last.mem = copyBytes cpu.mem dest src n.toNat ∧
        Exactly dest n (fun i => cpu.mem (src + UInt32.ofNat i)) cpu.mem last.mem := by
  constructor
  · intro s c n noWrap
    obtain ⟨last, completes, mem⟩ := memset_completes cpu c noWrap
    refine ⟨last, completes, fun other also => also.unique completes, mem, ?_⟩
    rw [mem]
    exact exactly_setBytes
  · intro dest src n destFits srcFits apart
    obtain ⟨last, completes, mem⟩ := memcpy_completes cpu apart destFits srcFits
    refine ⟨last, completes, fun other also => also.unique completes, mem, ?_⟩
    rw [mem]
    exact exactly_copyBytes apart destFits srcFits

/-- Three bytes up to an aligned address, a double word and two more; and a copy whose source
    is at no double word together with its destination. -/
theorem memset_memcpy_bytewise_unaligned :
    let cpu : Cpu := ⟨fun _ => 0, 0x18, 0x2B, false, true, fun address => address.toUInt8⟩
    (NoWrap 5 9 ∧ ∃ last, Completes memsetCode (memsetEntry cpu 5 0x1FF 9) last ∧
      last.mem 13 = 0xFF ∧ last.mem 14 = 14) ∧
    NoWrap 0xFFFFFFF9 7 ∧ NoWrap 2 7 ∧ Apart 0xFFFFFFF9 2 7 ∧
      ∃ last, Completes memcpyCode (memcpyEntry cpu 0xFFFFFFF9 2 7) last ∧
        last.mem 0xFFFFFFFF = 8 ∧ last.mem 0 = 0 := by
  intro cpu
  obtain ⟨set, copied⟩ := memset_memcpy_bytewise cpu
  have setFits : NoWrap 5 9 := by decide
  have destFits : NoWrap 0xFFFFFFF9 7 := by decide
  have srcFits : NoWrap 2 7 := by decide
  have apart : Apart 0xFFFFFFF9 2 7 := by decide
  refine ⟨⟨setFits, ?_⟩, destFits, srcFits, apart, ?_⟩
  · obtain ⟨last, completes, _, _, exact_⟩ := set 5 0x1FF 9 setFits
    exact ⟨last, completes, exact_.inside 8 (by decide), exact_.outside 14 (by decide)⟩
  · obtain ⟨last, completes, _, _, exact_⟩ := copied 0xFFFFFFF9 2 7 destFits srcFits apart
    exact ⟨last, completes, exact_.inside 6 (by decide), exact_.outside 0 (by decide)⟩

end Bytewise

end LightOS.Library
