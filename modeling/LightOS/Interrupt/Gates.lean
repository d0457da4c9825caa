import LightOS.Interrupt.Urgency
import LightOS.Lib.Bitfields
import LightOS.Lib.Tables

/-! # The interrupt descriptor table

`idt_init` fills the table, and the CPU reads the gates from the bits that the descriptors are
stored as.  What it finds for each vector is the handler that was set for it, wherever the
linker has put that.
-/

namespace LightOS.Interrupt

open Lib

def KERNEL_CS : Nat := 0x10
def SYSTEM_CALL : Nat := 0x80
def LARGEST_VECTOR : Nat := 0xFF
def IRQ_NUMBER_KEYBOARD : Nat := 1
def IRQ_NUMBER_REAL_TIME_CLOCK : Nat := 8

/-- The stubs of exceptionWrapper.S, interruptWrapper.S and syscallWrapper.S. -/
inductive Handler
  | exceptionDivideByZero | exceptionDebug | exceptionNonMaskableInterrupt | exceptionBreakpoint
  | exceptionOverflow | exceptionBoundRangeExceeded | exceptionInvalidOpcode
  | exceptionDeviceNotAvailable | exceptionDoubleFault | exceptionCoprocessorSegmentOverrun
  | exceptionInvalidTss | exceptionSegmentNotPresent | exceptionStackSegmentFault
  | exceptionGeneralProtection | exceptionPageFault | exceptionFpuFloatingPointError
  | exceptionAlignmentCheck | exceptionMachineCheck | exceptionSimdFloatingPointException
  | pitHandlerLinkage | keyboardHandlerLinkage | rtcHandlerLinkage
  | syscallWrapper
  deriving DecidableEq

/-- `idt_desc_t` -/
structure IdtDesc where
  offset15_00 : Nat
  segSelector : Nat
  reserved4 : Nat
  reserved3 : Nat
  reserved2 : Nat
  reserved1 : Nat
  size : Nat
  reserved0 : Nat
  dpl : Nat
  present : Nat
  offset31_16 : Nat

/-- The two words that a descriptor is stored as. -/
def IdtDesc.word (d : IdtDesc) : Nat :=
  packFields [⟨16, d.offset15_00⟩, ⟨16, d.segSelector⟩, ⟨8, d.reserved4⟩, ⟨1, d.reserved3⟩,
    ⟨1, d.reserved2⟩, ⟨1, d.reserved1⟩, ⟨1, d.size⟩, ⟨1, d.reserved0⟩, ⟨2, d.dpl⟩,
    ⟨1, d.present⟩, ⟨16, d.offset31_16⟩]

/-- The body of the loop of `idt_init`. -/
def initEntry (index : Nat) (d : IdtDesc) : IdtDesc :=
  { d with
    present := 0
    size := 1
    segSelector := KERNEL_CS
    dpl := if index = SYSTEM_CALL then 3 else 0
    reserved0 := 0
    reserved1 := 1
    reserved2 := 1
    reserved3 := 1
    reserved4 := 0 }

/-- `SET_IDT_ENTRY` -/
def setIdtEntry (handler : UInt32) (d : IdtDesc) : IdtDesc :=
  { d with
    present := 1
    offset31_16 := ((handler &&& 0xFFFF0000) >>> 16).toNat
    offset15_00 := (handler &&& 0xFFFF).toNat }

/-- The entries that `idt_init` sets, in its order. -/
def idtEntries : List (Nat × Handler) :=
  [(0x00, .exceptionDivideByZero), (0x01, .exceptionDebug),
    (0x02, .exceptionNonMaskableInterrupt), (0x03, .exceptionBreakpoint),
    (0x04, .exceptionOverflow), (0x05, .exceptionBoundRangeExceeded),
    (0x06, .exceptionInvalidOpcode), (0x07, .exceptionDeviceNotAvailable),
    (0x08, .exceptionDoubleFault), (0x09, .exceptionCoprocessorSegmentOverrun),
    (0x0A, .exceptionInvalidTss), (0x0B, .exceptionSegmentNotPresent),
    (0x0C, .exceptionStackSegmentFault), (0x0D, .exceptionGeneralProtection),
    (0x0E, .exceptionPageFault), (0x10, .exceptionFpuFloatingPointError),
    (0x11, .exceptionAlignmentCheck), (0x12, .exceptionMachineCheck),
    (0x13, .exceptionSimdFloatingPointException),
    (0x20, .pitHandlerLinkage), (0x21, .keyboardHandlerLinkage), (0x28, .rtcHandlerLinkage),
    (SYSTEM_CALL, .syscallWrapper)]

/-- `idt_init`, with the addresses of the stubs as the linker has set them. -/
def idtInit (address : Handler → UInt32) (idt : Nat → IdtDesc) : Nat → IdtDesc :=
  let idt := (List.range (LARGEST_VECTOR + 1)).foldl
    (fun idt index => Function.update idt index (initEntry index (idt index))) idt
  idtEntries.foldl
    (fun idt entry =>
      Function.update idt entry.1 (setIdtEntry (address entry.2) (idt entry.1))) idt

/-- The lines that the kernel enables, in `pit_init`, `keyboard_init` and `entry`, and the stubs
    for them. -/
def kernelLines : List (Nat × Handler) :=
  [(IRQ_PIT, .pitHandlerLinkage), (IRQ_NUMBER_KEYBOARD, .keyboardHandlerLinkage),
    (IRQ_NUMBER_REAL_TIME_CLOCK, .rtcHandlerLinkage)]

/-- The kernel enables no other lines. -/
def Event.OfKernel : Event → Prop
  | .enableIrq irqNum => irqNum.toNat ∈ kernelLines.map Prod.fst
  | _ => True

instance : (event : Event) → Decidable event.OfKernel
  | .enableIrq _ => inferInstanceAs (Decidable (_ ∈ _))
  | .disableIrq _ | .request _ | .acknowledge | .endOfInterrupt | .iret | .switchTo _ =>
      inferInstanceAs (Decidable True)

/-- What makes the CPU go to a vector. -/
inductive Cause
  /-- An exception, or a request from the controllers. -/
  | hardware
  /-- The instruction INT, executed at a privilege level. -/
  | instruction (cpl : Fin 4)

/-- An instruction is held to the privilege level of the gate. -/
def Cause.refusedAt (dpl : Nat) : Cause → Bool
  | .hardware => false
  | .instruction cpl => dpl < cpl.val

/-- Where the CPU goes. -/
inductive Arrival
  | enters (selector offset : Nat) (keepsInterruptFlag : Bool)
  | generalProtection
  | notPresent
  deriving DecidableEq

/-- The CPU at a gate: its type, for an instruction its privilege, whether it is present. -/
def takeGate (word : Nat) (cause : Cause) : Arrival :=
  let type := bitsAt word 40 5
  if type ≠ 0xE ∧ type ≠ 0xF then .generalProtection
  else if cause.refusedAt (bitsAt word 45 2) then .generalProtection
  else if bitsAt word 47 1 = 0 then .notPresent
  else .enters (bitsAt word 16 16) (bitsAt word 0 16 + 2 ^ 16 * bitsAt word 48 16) (type = 0xF)

section Words

variable {d : IdtDesc} {address : Handler → UInt32} {idt : Nat → IdtDesc} {vector : Nat}

/-- The members of a descriptor where the CPU looks for them. -/
theorem IdtDesc.bitsAt_word (d : IdtDesc) :
    bitsAt d.word 0 16 = d.offset15_00 % 2 ^ 16 ∧ bitsAt d.word 16 16 = d.segSelector % 2 ^ 16 ∧
      bitsAt d.word 45 2 = d.dpl % 2 ^ 2 ∧ bitsAt d.word 47 1 = d.present % 2 ^ 1 ∧
      bitsAt d.word 48 16 = d.offset31_16 % 2 ^ 16 :=
  ⟨bitsAt_packFields [] ⟨16, d.offset15_00⟩ _, bitsAt_packFields [_] ⟨16, d.segSelector⟩ _,
    bitsAt_packFields [_, _, _, _, _, _, _, _] ⟨2, d.dpl⟩ _,
    bitsAt_packFields [_, _, _, _, _, _, _, _, _] ⟨1, d.present⟩ _,
    bitsAt_packFields [_, _, _, _, _, _, _, _, _, _] ⟨16, d.offset31_16⟩ []⟩

/-- The five bits that tell the CPU what a descriptor is. -/
theorem IdtDesc.bitsAt_type (d : IdtDesc) :
    bitsAt d.word 40 5 = d.reserved3 % 2 + 2 * (d.reserved2 % 2 + 2 * (d.reserved1 % 2 +
      2 * (d.size % 2 + 2 * (d.reserved0 % 2)))) := by
  rw [bitsAt_add d.word 40 1 4, bitsAt_add d.word 41 1 3, bitsAt_add d.word 42 1 2,
    bitsAt_add d.word 43 1 1]
  have h3 : bitsAt d.word 40 1 = d.reserved3 % 2 ^ 1 :=
    bitsAt_packFields [_, _, _] ⟨1, d.reserved3⟩ _
  have h2 : bitsAt d.word 41 1 = d.reserved2 % 2 ^ 1 :=
    bitsAt_packFields [_, _, _, _] ⟨1, d.reserved2⟩ _
  have h1 : bitsAt d.word 42 1 = d.reserved1 % 2 ^ 1 :=
    bitsAt_packFields [_, _, _, _, _] ⟨1, d.reserved1⟩ _
  have size : bitsAt d.word 43 1 = d.size % 2 ^ 1 :=
    bitsAt_packFields [_, _, _, _, _, _] ⟨1, d.size⟩ _
  have h0 : bitsAt d.word 44 1 = d.reserved0 % 2 ^ 1 :=
    bitsAt_packFields [_, _, _, _, _, _, _] ⟨1, d.reserved0⟩ _
  simp only [h3, h2, h1, size, h0, Nat.pow_one]

/-- An address is put together again from its halves. -/
theorem address_halves (handler : UInt32) :
    (handler &&& 0xFFFF).toNat % 2 ^ 16 +
      2 ^ 16 * (((handler &&& 0xFFFF0000) >>> 16).toNat % 2 ^ 16) = handler.toNat := by
  have bound := handler.toNat_lt
  have low : (handler &&& 0xFFFF).toNat = handler.toNat % 2 ^ 16 := by
    rw [UInt32.toNat_and]
    exact Nat.and_two_pow_sub_one_eq_mod _ 16
  have high : ((handler &&& 0xFFFF0000) >>> 16).toNat = handler.toNat / 2 ^ 16 := by
    rw [UInt32.toNat_shiftRight, UInt32.toNat_and]
    change (handler.toNat &&& 0xFFFF0000) >>> 16 = _
    rw [Nat.shiftRight_and_distrib, Nat.shiftRight_eq_div_pow]
    have all := Nat.and_two_pow_sub_one_eq_mod (handler.toNat / 2 ^ 16) 16
    rw [Nat.mod_eq_of_lt (by omega)] at all
    exact all
  rw [low, high]
  omega

/-- A gate that the loop of `idt_init` has gone over. -/
theorem takeGate_word (code : d.segSelector = KERNEL_CS) (trap : d.reserved3 = 1 ∧
    d.reserved2 = 1 ∧ d.reserved1 = 1 ∧ d.size = 1 ∧ d.reserved0 = 0) (level : d.dpl < 4)
    (flag : d.present < 2) (cause : Cause) :
    takeGate d.word cause =
      if cause.refusedAt d.dpl then .generalProtection
      else if d.present = 0 then .notPresent
      else .enters KERNEL_CS (d.offset15_00 % 2 ^ 16 + 2 ^ 16 * (d.offset31_16 % 2 ^ 16)) true := by
  obtain ⟨low, selector, dpl, present, high⟩ := d.bitsAt_word
  obtain ⟨h3, h2, h1, size, h0⟩ := trap
  have type : bitsAt d.word 40 5 = 0xF := by
    rw [d.bitsAt_type, h3, h2, h1, size, h0]
  have levelBits : bitsAt d.word 45 2 = d.dpl := dpl.trans (Nat.mod_eq_of_lt level)
  have flagBit : bitsAt d.word 47 1 = d.present := present.trans (Nat.mod_eq_of_lt flag)
  have codeBits : bitsAt d.word 16 16 = KERNEL_CS := by rw [selector, code]; rfl
  simp [takeGate, type, levelBits, flagBit, codeBits, low, high]

/-- What `idt_init` leaves at a vector: the defaults, and over them the handler. -/
theorem idtInit_entry (address : Handler → UInt32) (idt : Nat → IdtDesc) (inTable : vector < 256) :
    idtInit address idt vector =
      ((idtEntries.lookup vector).map fun handler =>
        setIdtEntry (address handler) (initEntry vector (idt vector))).getD
          (initEntry vector (idt vector)) := by
  have loop := foldl_update_range initEntry idt (LARGEST_VECTOR + 1) vector
  rw [if_pos (show vector < LARGEST_VECTOR + 1 from inTable)] at loop
  have distinct : (idtEntries.map Prod.fst).Nodup := by decide
  have set := foldl_update_lookup (fun handler => setIdtEntry (address handler)) distinct
    ((List.range (LARGEST_VECTOR + 1)).foldl
      (fun idt index => Function.update idt index (initEntry index (idt index))) idt) vector
  rw [loop] at set
  exact set

/-- For every vector, and wherever the stubs are: an instruction of a program, outside level 0,
    gets through to the system calls only, and apart from that the CPU goes to the stub that was
    set, with the interrupt flag as it is, or finds that there is none. -/
theorem gates_lead_to_handlers (address : Handler → UInt32) (idt : Nat → IdtDesc)
    (vector : UInt8) (cause : Cause) :
    takeGate (idtInit address idt vector.toNat).word cause =
      if cause.refusedAt 0 ∧ vector.toNat ≠ SYSTEM_CALL then .generalProtection
      else
        match idtEntries.lookup vector.toNat with
        | none => .notPresent
        | some handler => .enters KERNEL_CS (address handler).toNat true := by
  have inTable : vector.toNat < 256 := vector.toNat_lt
  generalize vector.toNat = vector at inTable
  rw [idtInit_entry address idt inTable]
  have level : (if vector = SYSTEM_CALL then 3 else 0) < 4 := by split <;> decide
  have refused : cause.refusedAt (if vector = SYSTEM_CALL then 3 else 0) = true ↔
      cause.refusedAt 0 = true ∧ vector ≠ SYSTEM_CALL := by
    cases cause with
    | hardware => simp [Cause.refusedAt]
    | instruction cpl =>
        have top := cpl.isLt
        by_cases call : vector = SYSTEM_CALL
        · simp only [Cause.refusedAt, call, if_true, decide_eq_true_eq, ne_eq, not_true,
            and_false, iff_false]
          omega
        · simp [Cause.refusedAt, call]
  cases idtEntries.lookup vector with
  | none =>
      rw [Option.map_none, Option.getD_none, takeGate_word rfl ⟨rfl, rfl, rfl, rfl, rfl⟩ level
        Nat.two_pos]
      simp only [initEntry, refused]
      rfl
  | some handler =>
      rw [Option.map_some, Option.getD_some, takeGate_word rfl ⟨rfl, rfl, rfl, rfl, rfl⟩ level
        Nat.one_lt_two]
      simp only [setIdtEntry, initEntry, refused, address_halves]
      rfl

end Words

/-- Only the lines of the kernel, and that of the slave, are let through and handled. -/
structure KernelOnly (s : Interrupts) : Prop where
  serviced : Serviced s
  masked : ∀ irq < 16, irq ≠ 2 → irq ∉ kernelLines.map Prod.fst → s.pics.masked irq = true
  handled : ∀ a ∈ s.activations, a.irq ∈ kernelLines.map Prod.fst

section Lines

variable {s : Interrupts} {pics : Pics} {running irq pid : Nat} {events : List Event}

theorem mem_replaceTop {a : Activation} {new as : List Activation}
    (member : a ∈ replaceTop pid new as) : a ∈ new ∨ a ∈ as := by
  induction as with
  | nil => cases member
  | cons first as ih =>
      unfold replaceTop at member
      split at member
      · rcases List.mem_append.mp member with here | later
        · exact .inl here
        · exact .inr (List.mem_cons_of_mem _ later)
      · rcases List.mem_cons.mp member with rfl | later
        · exact .inr List.mem_cons_self
        · exact (ih later).imp_right (List.mem_cons_of_mem _)

/-- What the CPU is asked to serve is a line of the kernel. -/
theorem KernelOnly.pending_mem (only : KernelOnly s) (pending : s.pics.pending = some irq) :
    irq ∈ kernelLines.map Prod.fst := by
  obtain ⟨small, device, _⟩ := pending_line pending
  have ready := ((only.serviced.pending_iff small device).mp pending).1
  by_contra other
  have masked := only.masked irq small device other
  rw [ready.unmasked] at masked
  cases masked

/-- A call of the driver for a line of the kernel leaves the others masked. -/
theorem masks_of_kernel {event : Event} (kernel : event.OfKernel)
    (other : irq ∉ kernelLines.map Prod.fst) : (event.masks irq).getD true = true := by
  cases event with
  | enableIrq irqNum =>
      have apart : ¬ irqNum.toNat = irq := by
        intro same
        exact other (same ▸ kernel)
      rw [Event.masks, if_neg apart, Option.getD_none]
  | disableIrq irqNum =>
      simp only [Event.masks]
      split <;> rfl
  | _ => rfl

theorem KernelOnly.step (only : KernelOnly s) {event : Event} (able : s.able event)
    (kernel : event.OfKernel) : KernelOnly (s.step event) := by
  constructor
  case serviced => exact only.serviced.step event able
  case masked =>
    intro irq small device other
    rw [only.serviced.step_masked small able, only.masked irq small device other]
    exact masks_of_kernel kernel other
  case handled =>
    intro a member
    cases event with
    | acknowledge =>
        obtain ⟨taken, pending⟩ := Option.isSome_iff_exists.mp able
        simp only [Interrupts.step, pending, Option.map_some, Option.getD_some] at member
        rcases List.mem_cons.mp member with rfl | member
        · exact only.pending_mem pending
        · exact only.handled a member
    | endOfInterrupt =>
        obtain ⟨top, here, _⟩ := (Option.any_eq_true _ _).mp able
        have inside : top ∈ s.activations := List.mem_of_find?_eq_some here
        simp only [Interrupts.step, here, Option.map_some, Option.getD_some,
          Interrupts.writeNext] at member
        split at member
        · exact only.handled a member
        · rcases mem_replaceTop member with new | old
          · rw [List.mem_singleton.mp new]
            exact only.handled top inside
          · exact only.handled a old
    | iret =>
        rcases mem_replaceTop member with new | old
        · cases new
        · exact only.handled a old
    | _ => exact only.handled a member

theorem started_kernelOnly (pics : Pics) (running : Nat) :
    KernelOnly (Interrupts.started pics running) where
  serviced := started_serviced pics running
  masked irq small device _ := by
    rw [Interrupts.started, pics.i8259Init_masked small, decide_eq_true device]
  handled a member := nomatch member

theorem KernelOnly.of_run (run : interrupts.Run (.started pics running) events s)
    (kernel : ∀ event ∈ events, event.OfKernel) : KernelOnly s :=
  run.invariant_of_each (P := fun _ event => event.OfKernel)
    (fun _ _ only able ofKernel => only.step able ofKernel) (started_kernelOnly pics running)
    (.of_forall kernel)

/-- The vectors that the controllers are programmed for. -/
theorem Pics.Programmed.vector {p : Pics} (programmed : p.Programmed) (small : irq < 16) :
    p.vector irq = 0x20 + irq := by
  obtain ⟨_, _, masterBase, slaveBase, masterCascade, slaveCascade⟩ := programmed
  unfold Pics.vector
  rw [masterBase, slaveBase, masterCascade, slaveCascade]
  have master : (ICW2_MASTER &&& 0xF8).toNat = 0x20 := by decide
  have slave : (ICW2_SLAVE &&& 0xF8).toNat = 0x28 := by decide
  have cascade : ICW3_MASTER.getLsbD 2 = true ∧ ICW3_SLAVE &&& 7 = 2 := by decide
  rw [master, slave, if_pos cascade]
  split <;> omega

theorem kernelLines_entries : ∀ line ∈ kernelLines,
    idtEntries.lookup (0x20 + line.1) = some line.2 := by
  decide

/-- After `i8259_init` and `idt_init`, in any order of steps, every request that the CPU takes
    leads it to the stub of that line, and at most three handlers on all stacks together have
    not ended their `send_eoi`. -/
theorem requests_reach_their_stubs (address : Handler → UInt32) (idt : Nat → IdtDesc)
    (run : interrupts.Run (.started pics running) events s)
    (kernel : ∀ event ∈ events, event.OfKernel) :
    (∀ irq, s.pics.pending = some irq → ∃ handler, (irq, handler) ∈ kernelLines ∧
      takeGate (idtInit address idt (s.pics.vector irq)).word .hardware =
        .enters KERNEL_CS (address handler).toNat true) ∧
      (s.activations.filter Activation.unfinished).length ≤ 3 := by
  have only := KernelOnly.of_run run kernel
  constructor
  · intro irq pending
    obtain ⟨⟨irq, handler⟩, line, rfl⟩ := List.mem_map.mp (only.pending_mem pending)
    have entry := kernelLines_entries _ line
    have small := (pending_line pending).1
    simp only at entry small ⊢
    have vector : (UInt8.ofNat (0x20 + irq)).toNat = 0x20 + irq :=
      UInt8.toNat_ofNat_of_lt' (show 0x20 + irq < 256 by omega)
    have gate := gates_lead_to_handlers address idt (UInt8.ofNat (0x20 + irq)) .hardware
    rw [vector, entry] at gate
    rw [only.serviced.programmed.vector small]
    exact ⟨handler, line, gate⟩
  · have nodup : (linesAtWork s.activations).Nodup :=
      only.serviced.nested.imp fun less => Nat.ne_of_lt less
    have inside : linesAtWork s.activations ⊆ [0, 1, 2] := by
      intro line atWork
      obtain ⟨a, member, _, rfl⟩ := mem_linesAtWork.mp atWork
      have lines : ∀ irq ∈ kernelLines.map Prod.fst, masterLine irq ∈ [0, 1, 2] := by decide
      exact lines a.irq (only.handled a member)
    have count := (List.subperm_of_subset nodup inside).length_le
    rwa [linesAtWork, List.length_map] at count

/-- The first tick of the clock, with all stubs at one address. -/
theorem firstTick_reaches_stub :
    let s := [Event.enableIrq 8, .request 8].foldl interrupts.next
      (.started ⟨blankChip, blankChip⟩ 4)
    s.pics.pending = some 8 ∧
      (∀ irq, s.pics.pending = some irq → ∃ handler, (irq, handler) ∈ kernelLines ∧
        takeGate (idtInit (fun _ => 0x00401234)
          (fun _ => ⟨0, 0, 0, 0, 0, 0, 0, 0, 0, 0, 0⟩) (s.pics.vector irq)).word .hardware =
            .enters KERNEL_CS 0x00401234 true) ∧
      (s.activations.filter Activation.unfinished).length ≤ 3 := by
  have run : interrupts.Run (.started ⟨blankChip, blankChip⟩ 4) [.enableIrq 8, .request 8] _ :=
    .of_eachStep (by decide)
  exact ⟨by decide, requests_reach_their_stubs (fun _ => 0x00401234) _ run (by decide)⟩

end Lines

end LightOS.Interrupt
