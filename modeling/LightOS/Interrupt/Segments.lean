import LightOS.Interrupt.Gates

/-! # The descriptors of segments

The GDT of x86_desc.S, with the two entries that `entry` puts together member by member for the
LDT and the task segment, and what the CPU makes of the quadwords when a selector is loaded.
-/

namespace LightOS.Interrupt

open Lib

def USER_CS : Nat := 0x23
def USER_DS : Nat := 0x2B
def KERNEL_TSS : Nat := 0x30
def KERNEL_LDT : Nat := 0x38

/-- `seg_desc_t` -/
structure SegDesc where
  segLim15_00 : Nat
  base15_00 : Nat
  base23_16 : Nat
  type : Nat
  sys : Nat
  dpl : Nat
  present : Nat
  segLim19_16 : Nat
  avail : Nat
  reserved : Nat
  opsize : Nat
  granularity : Nat
  base31_24 : Nat

/-- The two words that a descriptor is stored as. -/
def SegDesc.word (d : SegDesc) : Nat :=
  packFields [⟨16, d.segLim15_00⟩, ⟨16, d.base15_00⟩, ⟨8, d.base23_16⟩, ⟨4, d.type⟩, ⟨1, d.sys⟩,
    ⟨2, d.dpl⟩, ⟨1, d.present⟩, ⟨4, d.segLim19_16⟩, ⟨1, d.avail⟩, ⟨1, d.reserved⟩, ⟨1, d.opsize⟩,
    ⟨1, d.granularity⟩, ⟨8, d.base31_24⟩]

/-- `SET_LDT_PARAMS` and `SET_TSS_PARAMS`, which are the same. -/
def SegDesc.setParams (addr lim : UInt32) (d : SegDesc) : SegDesc :=
  { d with
    base31_24 := ((addr &&& 0xFF000000) >>> 24).toNat
    base23_16 := ((addr &&& 0x00FF0000) >>> 16).toNat
    base15_00 := (addr &&& 0x0000FFFF).toNat
    segLim19_16 := ((lim &&& 0x000F0000) >>> 16).toNat
    segLim15_00 := (lim &&& 0x0000FFFF).toNat }

/-- `ldt_size` and `tss_size`: the last byte of the four entries of the LDT, and of the task
    segment. -/
def ldtSize : UInt32 := 4 * 8 - 1
def tssSize : UInt32 := 104 - 1

/-- The entry of the LDT, over what the variable on the stack holds. -/
def theLdtDesc (ldt : UInt32) (d : SegDesc) : SegDesc :=
  SegDesc.setParams ldt ldtSize
    { d with
      granularity := 0, opsize := 1, reserved := 0, avail := 0, present := 1, dpl := 0, sys := 0
      type := 2 }

/-- The entry of the task segment. -/
def theTssDesc (tss : UInt32) (d : SegDesc) : SegDesc :=
  SegDesc.setParams tss tssSize
    { d with
      granularity := 0, opsize := 0, reserved := 0, avail := 0, present := 1, dpl := 0, sys := 0
      type := 9 }

/-- The GDT after `entry`.  The first two entries cannot be used. -/
def gdt (ldt tss : UInt32) (d d' : SegDesc) : List Nat :=
  [0, 0, 0x00CF9A000000FFFF, 0x00CF92000000FFFF, 0x00CFFA000000FFFF, 0x00CFF2000000FFFF,
    (theTssDesc tss d).word, (theLdtDesc ldt d').word]

/-- What the CPU keeps of a descriptor: the first and the last byte of the segment, the type with
    the bit that tells memory from system segments, and the privilege level. -/
structure Segment where
  base : Nat
  last : Nat
  type : Nat
  dpl : Nat
  deriving DecidableEq

/-- The CPU takes a descriptor apart. -/
def decodeSegment (word : Nat) : Option Segment :=
  if bitsAt word 47 1 = 0 then none
  else
    let limit := bitsAt word 0 16 + 2 ^ 16 * bitsAt word 48 4
    some
      { base := bitsAt word 16 16 + 2 ^ 16 * (bitsAt word 32 8 + 2 ^ 8 * bitsAt word 56 8)
        last := if bitsAt word 55 1 = 1 then 2 ^ 12 * limit + 0xFFF else limit
        type := bitsAt word 40 5
        dpl := bitsAt word 45 2 }

/-- The descriptor that a selector names: its upper thirteen bits are the index. -/
def loadSelector (table : List Nat) (selector : Nat) : Option Segment :=
  table[selector / 8]?.bind decodeSegment

section Words

variable {d : SegDesc}

theorem SegDesc.bitsAt_base (d : SegDesc) :
    bitsAt d.word 16 16 = d.base15_00 % 2 ^ 16 ∧ bitsAt d.word 32 8 = d.base23_16 % 2 ^ 8 ∧
      bitsAt d.word 56 8 = d.base31_24 % 2 ^ 8 :=
  ⟨bitsAt_packFields [_] ⟨16, d.base15_00⟩ _, bitsAt_packFields [_, _] ⟨8, d.base23_16⟩ _,
    bitsAt_packFields [_, _, _, _, _, _, _, _, _, _, _, _] ⟨8, d.base31_24⟩ []⟩

theorem SegDesc.bitsAt_limit (d : SegDesc) :
    bitsAt d.word 0 16 = d.segLim15_00 % 2 ^ 16 ∧ bitsAt d.word 48 4 = d.segLim19_16 % 2 ^ 4 ∧
      bitsAt d.word 55 1 = d.granularity % 2 ^ 1 :=
  ⟨bitsAt_packFields [] ⟨16, d.segLim15_00⟩ _,
    bitsAt_packFields [_, _, _, _, _, _, _] ⟨4, d.segLim19_16⟩ _,
    bitsAt_packFields [_, _, _, _, _, _, _, _, _, _, _] ⟨1, d.granularity⟩ [_]⟩

theorem SegDesc.bitsAt_access (d : SegDesc) :
    bitsAt d.word 40 5 = d.type % 2 ^ 4 + 2 ^ 4 * (d.sys % 2) ∧
      bitsAt d.word 45 2 = d.dpl % 2 ^ 2 ∧ bitsAt d.word 47 1 = d.present % 2 ^ 1 := by
  have type : bitsAt d.word 40 4 = d.type % 2 ^ 4 :=
    bitsAt_packFields [_, _, _] ⟨4, d.type⟩ _
  have sys : bitsAt d.word 44 1 = d.sys % 2 ^ 1 :=
    bitsAt_packFields [_, _, _, _] ⟨1, d.sys⟩ _
  have dpl : bitsAt d.word 45 2 = d.dpl % 2 ^ 2 :=
    bitsAt_packFields [_, _, _, _, _] ⟨2, d.dpl⟩ _
  have present : bitsAt d.word 47 1 = d.present % 2 ^ 1 :=
    bitsAt_packFields [_, _, _, _, _, _] ⟨1, d.present⟩ _
  refine ⟨?_, dpl, present⟩
  rw [bitsAt_add d.word 40 4 1, type, sys, Nat.pow_one]

/-- The part of a word that a mask of `width` bits from bit `low` on leaves. -/
theorem masked_part (word mask : UInt32) {low width : Nat} (shift : low < 32)
    (run : mask.toNat >>> low = 2 ^ width - 1) :
    ((word &&& mask) >>> UInt32.ofNat low).toNat = word.toNat / 2 ^ low % 2 ^ width := by
  have amount : (UInt32.ofNat low).toNat % 32 = low := by
    rw [UInt32.toNat_ofNat']
    omega
  rw [UInt32.toNat_shiftRight, amount, UInt32.toNat_and, Nat.shiftRight_and_distrib, run,
    Nat.and_two_pow_sub_one_eq_mod, Nat.shiftRight_eq_div_pow]

/-- The parts that the macros cut an address and a limit into. -/
theorem SegDesc.setParams_parts (addr lim : UInt32) (d : SegDesc) :
    let stored := d.setParams addr lim
    stored.base31_24 = addr.toNat / 2 ^ 24 % 2 ^ 8 ∧
      stored.base23_16 = addr.toNat / 2 ^ 16 % 2 ^ 8 ∧ stored.base15_00 = addr.toNat % 2 ^ 16 ∧
      stored.segLim19_16 = lim.toNat / 2 ^ 16 % 2 ^ 4 ∧
      stored.segLim15_00 = lim.toNat % 2 ^ 16 := by
  have lowest : ∀ word : UInt32, (word &&& 0x0000FFFF).toNat = word.toNat % 2 ^ 16 := by
    intro word
    rw [UInt32.toNat_and]
    exact Nat.and_two_pow_sub_one_eq_mod _ 16
  exact ⟨masked_part addr 0xFF000000 (by decide) (by decide),
    masked_part addr 0x00FF0000 (by decide) (by decide), lowest addr,
    masked_part lim 0x000F0000 (by decide) (by decide), lowest lim⟩

/-- A descriptor in units of bytes is decoded to the address and the limit that it was set to. -/
theorem decode_setParams (addr lim : UInt32) (small : lim.toNat < 2 ^ 20)
    (present : d.present = 1) (bytes : d.granularity = 0) :
    decodeSegment (d.setParams addr lim).word =
      some ⟨addr.toNat, lim.toNat, d.type % 2 ^ 4 + 2 ^ 4 * (d.sys % 2), d.dpl % 2 ^ 2⟩ := by
  obtain ⟨high, middle, low, limHigh, limLow⟩ := d.setParams_parts addr lim
  obtain ⟨b0, b1, b2⟩ := (d.setParams addr lim).bitsAt_base
  obtain ⟨l0, l1, unit⟩ := (d.setParams addr lim).bitsAt_limit
  obtain ⟨type, dpl, flag⟩ := (d.setParams addr lim).bitsAt_access
  have presentStored : (d.setParams addr lim).present = 1 := present
  have bytesStored : (d.setParams addr lim).granularity = 0 := bytes
  rw [presentStored] at flag
  rw [bytesStored] at unit
  have bound := addr.toNat_lt
  have base : addr.toNat % 2 ^ 16 % 2 ^ 16 + 2 ^ 16 * (addr.toNat / 2 ^ 16 % 2 ^ 8 % 2 ^ 8 +
      2 ^ 8 * (addr.toNat / 2 ^ 24 % 2 ^ 8 % 2 ^ 8)) = addr.toNat := by omega
  have limit : lim.toNat % 2 ^ 16 % 2 ^ 16 + 2 ^ 16 * (lim.toNat / 2 ^ 16 % 2 ^ 4 % 2 ^ 4) =
      lim.toNat := by omega
  rw [decodeSegment, flag, if_neg (by decide), b0, b1, b2, l0, l1, unit, type, dpl, low, middle,
    high, limLow, limHigh, base, limit]
  rfl

/-- Wherever the LDT and the task segment are, and whatever was on the stack: the selectors name
    four flat segments of 4 GB, for code and data of the levels 0 and 3, the 104 bytes of the task
    segment, and the 32 bytes of the LDT. -/
theorem gdt_describes_segments (ldt tss : UInt32) (d d' : SegDesc) :
    let load := loadSelector (gdt ldt tss d d')
    load 0 = none ∧ load KERNEL_CS = some ⟨0, 2 ^ 32 - 1, 0x1A, 0⟩ ∧
      load 0x18 = some ⟨0, 2 ^ 32 - 1, 0x12, 0⟩ ∧ load USER_CS = some ⟨0, 2 ^ 32 - 1, 0x1A, 3⟩ ∧
      load USER_DS = some ⟨0, 2 ^ 32 - 1, 0x12, 3⟩ ∧
      load KERNEL_TSS = some ⟨tss.toNat, 103, 9, 0⟩ ∧
      load KERNEL_LDT = some ⟨ldt.toNat, 31, 2, 0⟩ := by
  refine ⟨rfl, rfl, rfl, rfl, rfl, ?_, ?_⟩
  · exact decode_setParams tss tssSize (by decide) rfl rfl
  · exact decode_setParams ldt ldtSize (by decide) rfl rfl

end Words

end LightOS.Interrupt
