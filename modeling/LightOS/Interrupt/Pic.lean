import Mathlib.Data.BitVec
import Mathlib.Data.Fin.Basic

/-! # The interrupt controllers

The pair of 8259A controllers with the registers that the driver and the arrival of requests
work on, and i8259.c, which talks to them through their four ports.  The controllers run fully
nested: a request waits while one of at least its priority is in service.
-/

namespace LightOS.Interrupt

def MASTER_8259_PORT : BitVec 16 := 0x20
def SLAVE_8259_PORT : BitVec 16 := 0xA0
def PORT_MASTER : BitVec 16 := 0x21
def PORT_SLAVE : BitVec 16 := 0xA1
def MASK_ALL : BitVec 8 := 0xff
def MAXIMUM_IRQ_NUMBER : BitVec 32 := 15
def NUMBER_IRQ_MASTER : BitVec 32 := 8
def IRQ_NUMBER_OF_SLAVE : BitVec 32 := 2
def ICW1 : BitVec 8 := 0x11
def ICW2_MASTER : BitVec 8 := 0x20
def ICW2_SLAVE : BitVec 8 := 0x28
def ICW3_MASTER : BitVec 8 := 0x04
def ICW3_SLAVE : BitVec 8 := 0x02
def ICW4 : BitVec 8 := 0x01
def EOI : BitVec 32 := 0x60

/-- What a controller takes the next byte at its data port for. -/
inductive DataPort
  | icw2 | icw3 | icw4 | mask
  deriving DecidableEq, Repr

/-- One 8259A: the request, in-service and mask registers, and the initialization words. -/
structure Chip where
  irr : BitVec 8
  isr : BitVec 8
  imr : BitVec 8
  icw2 : BitVec 8
  icw3 : BitVec 8
  icw4 : BitVec 8
  dataPort : DataPort
  deriving DecidableEq

/-- One bit of a register. -/
def lineBit (line : Nat) : BitVec 8 := 1#8 <<< line

namespace Chip

/-- A byte at the command port: the first initialization word, or the end of an interrupt that
    is named.  The driver sends no other command. -/
def command (c : Chip) (value : BitVec 8) : Chip :=
  if value.getLsbD 4 then { c with irr := 0, isr := 0, imr := 0, dataPort := .icw2 }
  else if value &&& 0xF8 = 0x60 then
    { c with isr := c.isr &&& ~~~ lineBit (value &&& 7).toNat }
  else c

/-- A byte at the data port. -/
def data (c : Chip) (value : BitVec 8) : Chip :=
  match c.dataPort with
  | .icw2 => { c with icw2 := value, dataPort := .icw3 }
  | .icw3 => { c with icw3 := value, dataPort := .icw4 }
  | .icw4 => { c with icw4 := value, dataPort := .mask }
  | .mask => { c with imr := value }

/-- A line whose request can be served: it is not masked, and nothing of at least its priority
    is in service. -/
def servable (c : Chip) (line : Nat) : Bool :=
  c.irr.getLsbD line && !c.imr.getLsbD line && (List.range (line + 1)).all (!c.isr.getLsbD ·)

/-- The line that the controller asks to serve. -/
def highest (c : Chip) : Option Nat := (List.range 8).find? c.servable

/-- The edge of a request. -/
def request (c : Chip) (line : Nat) : Chip := { c with irr := c.irr ||| lineBit line }

/-- The request is taken. -/
def acknowledge (c : Chip) (line : Nat) : Chip :=
  { c with irr := c.irr &&& ~~~ lineBit line, isr := c.isr ||| lineBit line }

end Chip

/-- Both controllers.  The output of the slave is wired to line 2 of the master. -/
structure Pics where
  master : Chip
  slave : Chip
  deriving DecidableEq

namespace Pics

/-- `outb` to one of the four ports. -/
def outb (p : Pics) (value : BitVec 8) (port : BitVec 16) : Pics :=
  if port = MASTER_8259_PORT then { p with master := p.master.command value }
  else if port = PORT_MASTER then { p with master := p.master.data value }
  else if port = SLAVE_8259_PORT then { p with slave := p.slave.command value }
  else if port = PORT_SLAVE then { p with slave := p.slave.data value }
  else p

/-- `inb` from a data port is the mask. -/
def inb (p : Pics) (port : BitVec 16) : BitVec 8 :=
  if port = PORT_MASTER then p.master.imr else p.slave.imr

/-- The port and the line of the controller that serves a request number. -/
def lineOf (irqNum : BitVec 32) : BitVec 16 × BitVec 32 :=
  if irqNum < NUMBER_IRQ_MASTER then (PORT_MASTER, irqNum)
  else (PORT_SLAVE, irqNum - NUMBER_IRQ_MASTER)

/-- `enable_irq` -/
def enableIrq (p : Pics) (irqNum : BitVec 32) : Pics :=
  if MAXIMUM_IRQ_NUMBER < irqNum then p
  else
    let (port, irqNum) := lineOf irqNum
    let value := (p.inb port).setWidth 32 &&& ~~~ (1#32 <<< irqNum.toNat)
    p.outb (value.setWidth 8) port

/-- `disable_irq` -/
def disableIrq (p : Pics) (irqNum : BitVec 32) : Pics :=
  if MAXIMUM_IRQ_NUMBER < irqNum then p
  else
    let (port, irqNum) := lineOf irqNum
    let value := (p.inb port).setWidth 32 ||| 1#32 <<< irqNum.toNat
    p.outb (value.setWidth 8) port

/-- `i8259_init` -/
def i8259Init (p : Pics) : Pics :=
  let p := p.outb ICW1 MASTER_8259_PORT
  let p := p.outb ICW1 SLAVE_8259_PORT
  let p := p.outb ICW2_MASTER PORT_MASTER
  let p := p.outb ICW2_SLAVE PORT_SLAVE
  let p := p.outb ICW3_MASTER PORT_MASTER
  let p := p.outb ICW3_SLAVE PORT_SLAVE
  let p := p.outb ICW4 PORT_MASTER
  let p := p.outb ICW4 PORT_SLAVE
  let p := p.outb MASK_ALL PORT_MASTER
  let p := p.outb MASK_ALL PORT_SLAVE
  p.enableIrq IRQ_NUMBER_OF_SLAVE

/-- The master with the output of the slave on its line. -/
def wired (p : Pics) : Chip :=
  { p.master with
    irr := if p.slave.highest.isSome then p.master.irr ||| lineBit 2
      else p.master.irr &&& ~~~ lineBit 2 }

/-- The number of the request that the controllers ask the CPU to serve. -/
def pending (p : Pics) : Option Nat :=
  p.wired.highest.bind fun line => if line = 2 then p.slave.highest.map (8 + ·) else some line

/-- The CPU takes request `irq`: both controllers on the way note it. -/
def acknowledge (p : Pics) (irq : Nat) : Pics :=
  if irq < 8 then { p with master := p.master.acknowledge irq }
  else { p with master := p.wired.acknowledge 2, slave := p.slave.acknowledge (irq - 8) }

/-- The vector of request `irq` on the bus.  The slave gives it if the master has a slave on
    that line and the slave knows that it is the one meant. -/
def vector (p : Pics) (irq : Nat) : Nat :=
  if irq < 8 then (p.master.icw2 &&& 0xF8).toNat + irq
  else if p.master.icw3.getLsbD 2 ∧ p.slave.icw3 &&& 7 = 2 then
    (p.slave.icw2 &&& 0xF8).toNat + (irq - 8)
  else (p.master.icw2 &&& 0xF8).toNat + 2

/-- The edge of a request from a device. -/
def request (p : Pics) (irq : Nat) : Pics :=
  if irq < 8 then { p with master := p.master.request irq }
  else { p with slave := p.slave.request (irq - 8) }

/-- A line is masked at its controller. -/
def masked (p : Pics) (irq : Nat) : Bool :=
  if irq < 8 then p.master.imr.getLsbD irq else p.slave.imr.getLsbD (irq - 8)

/-- A request has come and has not been taken. -/
def requested (p : Pics) (irq : Nat) : Bool :=
  if irq < 8 then p.master.irr.getLsbD irq else p.slave.irr.getLsbD (irq - 8)

/-- The controllers are as `i8259_init` sets them up, up to requests and masks. -/
structure Programmed (p : Pics) : Prop where
  masterPort : p.master.dataPort = .mask
  slavePort : p.slave.dataPort = .mask
  masterBase : p.master.icw2 = ICW2_MASTER
  slaveBase : p.slave.icw2 = ICW2_SLAVE
  masterCascade : p.master.icw3 = ICW3_MASTER
  slaveCascade : p.slave.icw3 = ICW3_SLAVE

end Pics

/-- A byte and the port that it goes to. -/
abbrev PortWrite := BitVec 8 × BitVec 16

/-- `send_eoi`, the writes that it makes. -/
def sendEoi (irqNum : BitVec 32) : List PortWrite :=
  if MAXIMUM_IRQ_NUMBER < irqNum then []
  else if NUMBER_IRQ_MASTER ≤ irqNum then
    ((EOI ||| irqNum - NUMBER_IRQ_MASTER).setWidth 8, SLAVE_8259_PORT) ::
      [((EOI ||| IRQ_NUMBER_OF_SLAVE).setWidth 8, MASTER_8259_PORT)]
  else [((EOI ||| irqNum).setWidth 8, MASTER_8259_PORT)]

section Bits

variable {i j : Nat}

theorem lineBit_getLsbD (i : Nat) (small : j < 8) : (lineBit i).getLsbD j = decide (j = i) := by
  rw [lineBit, BitVec.getLsbD_shiftLeft, BitVec.getLsbD_one]
  simp only [small, decide_true, Bool.true_and]
  by_cases same : j = i
  · simp [same]
  · have apart : decide (j < i) = false → j - i ≠ 0 := by
      intro after
      have := of_decide_eq_false after
      omega
    cases before : decide (j < i) with
    | true => simp [same]
    | false => simp [same, apart before]

/-- Setting one bit of a register. -/
theorem or_lineBit (v : BitVec 8) (i : Nat) (small : j < 8) :
    (v ||| lineBit i).getLsbD j = (v.getLsbD j || decide (j = i)) := by
  rw [BitVec.getLsbD_or, lineBit_getLsbD i small]

/-- Clearing one bit of a register. -/
theorem and_not_lineBit (v : BitVec 8) (i : Nat) (small : j < 8) :
    (v &&& ~~~ lineBit i).getLsbD j = (v.getLsbD j && !decide (j = i)) := by
  rw [BitVec.getLsbD_and, BitVec.getLsbD_not, lineBit_getLsbD i small]
  simp only [small, decide_true, Bool.true_and]

/-- The driver sets and clears bits of a mask in 32-bit words. -/
theorem setWidth_or (v : BitVec 8) (i : Nat) :
    ((v.setWidth 32 ||| 1#32 <<< i).setWidth 8) = v ||| lineBit i := by
  apply BitVec.eq_of_getLsbD_eq
  intro j small
  have wide : j < 32 := Nat.lt_trans small (by decide)
  simp only [lineBit, BitVec.getLsbD_setWidth, BitVec.getLsbD_or, BitVec.getLsbD_shiftLeft,
    BitVec.getLsbD_one, small, wide, decide_true, Bool.true_and]
  rfl

theorem setWidth_and_not (v : BitVec 8) (i : Nat) :
    ((v.setWidth 32 &&& ~~~ (1#32 <<< i)).setWidth 8) = v &&& ~~~ lineBit i := by
  apply BitVec.eq_of_getLsbD_eq
  intro j small
  have wide : j < 32 := Nat.lt_trans small (by decide)
  simp only [lineBit, BitVec.getLsbD_setWidth, BitVec.getLsbD_and, BitVec.getLsbD_not,
    BitVec.getLsbD_shiftLeft, BitVec.getLsbD_one, small, wide, decide_true, Bool.true_and]
  rfl

end Bits

namespace Pics

variable {p : Pics} {irq : Nat}

/-- The mask of the controller that serves a request number, changed at the line of it. -/
def changeMask (p : Pics) (change : BitVec 8 → Nat → BitVec 8) (irq : Nat) : Pics :=
  if irq < 8 then { p with master := { p.master with imr := change p.master.imr irq } }
  else { p with slave := { p.slave with imr := change p.slave.imr (irq - 8) } }

theorem lineOf_eq (irqNum : BitVec 32) :
    lineOf irqNum =
      if irqNum.toNat < 8 then (PORT_MASTER, irqNum) else (PORT_SLAVE, irqNum - 8#32) := by
  simp only [lineOf, NUMBER_IRQ_MASTER, BitVec.lt_def]
  rfl

theorem beyond_iff (irqNum : BitVec 32) : MAXIMUM_IRQ_NUMBER < irqNum ↔ 15 < irqNum.toNat := by
  simp only [MAXIMUM_IRQ_NUMBER, BitVec.lt_def]
  rfl

theorem toNat_sub_eight {irqNum : BitVec 32} (upper : ¬ irqNum.toNat < 8) :
    (irqNum - 8#32).toNat = irqNum.toNat - 8 := by
  bv_omega

/-- A byte for the mask of one of the controllers. -/
theorem outb_mask (programmed : p.Programmed) (value : BitVec 8) :
    p.outb value PORT_MASTER = { p with master := { p.master with imr := value } } ∧
      p.outb value PORT_SLAVE = { p with slave := { p.slave with imr := value } } := by
  constructor
  · simp only [outb, Chip.data, programmed.masterPort, if_pos]
    rfl
  · simp only [outb, Chip.data, programmed.slavePort, if_pos]
    rfl

theorem enableIrq_eq (programmed : p.Programmed) (irqNum : BitVec 32) :
    p.enableIrq irqNum =
      if 15 < irqNum.toNat then p else p.changeMask (· &&& ~~~ lineBit ·) irqNum.toNat := by
  simp only [enableIrq, beyond_iff, lineOf_eq, changeMask]
  split
  · rfl
  · split
    · simp only [setWidth_and_not, (outb_mask programmed _).1]
      rfl
    · next upper =>
        simp only [setWidth_and_not, (outb_mask programmed _).2, toNat_sub_eight upper]
        rfl

theorem disableIrq_eq (programmed : p.Programmed) (irqNum : BitVec 32) :
    p.disableIrq irqNum =
      if 15 < irqNum.toNat then p else p.changeMask (· ||| lineBit ·) irqNum.toNat := by
  simp only [disableIrq, beyond_iff, lineOf_eq, changeMask]
  split
  · rfl
  · split
    · simp only [setWidth_or, (outb_mask programmed _).1]
      rfl
    · next upper =>
        simp only [setWidth_or, (outb_mask programmed _).2, toNat_sub_eight upper]
        rfl

/-- A change of one line's bit in its mask is a change of that line alone. -/
theorem changeMask_masked {change : BitVec 8 → Nat → BitVec 8} (bit : Bool → Bool → Bool)
    (changes : ∀ v i j, j < 8 → (change v i).getLsbD j = bit (v.getLsbD j) (decide (j = i)))
    (keeps : ∀ b, bit b false = b) {line : Nat} (inRange : line < 16) (small : irq < 16) :
    (p.changeMask change line).masked irq = bit (p.masked irq) (decide (irq = line)) := by
  simp only [changeMask, masked]
  by_cases lower : line < 8 <;> by_cases here : irq < 8
  · simp only [lower, here, if_true, changes _ _ _ here]
  · have other : ¬ irq = line := by omega
    simp only [lower, here, if_true, if_false, other, decide_false, keeps]
  · have other : ¬ irq = line := by omega
    simp only [lower, here, if_true, if_false, other, decide_false, keeps]
  · have same : (irq - 8 = line - 8) ↔ irq = line := by omega
    simp only [lower, here, if_false, changes _ _ (irq - 8) (by omega), same]

/-- `enable_irq` unmasks the line that it is called for, and no other. -/
theorem enableIrq_masked (programmed : p.Programmed) (irqNum : BitVec 32) (small : irq < 16) :
    (p.enableIrq irqNum).masked irq = (p.masked irq && !decide (irq = irqNum.toNat)) := by
  rw [enableIrq_eq programmed]
  split
  · next beyond =>
      have other : ¬ irq = irqNum.toNat := by omega
      simp only [other, decide_false, Bool.not_false, Bool.and_true]
  · next inRange =>
      apply changeMask_masked (fun b here => b && !here)
        (fun v i j inside => and_not_lineBit v i inside)
      · intro b
        exact Bool.and_true b
      · omega
      · exact small

/-- `disable_irq` masks the line that it is called for, and no other. -/
theorem disableIrq_masked (programmed : p.Programmed) (irqNum : BitVec 32) (small : irq < 16) :
    (p.disableIrq irqNum).masked irq = (p.masked irq || decide (irq = irqNum.toNat)) := by
  rw [disableIrq_eq programmed]
  split
  · next beyond =>
      have other : ¬ irq = irqNum.toNat := by omega
      simp only [other, decide_false, Bool.or_false]
  · next inRange =>
      apply changeMask_masked or (fun v i j inside => or_lineBit v i inside)
      · intro b
        exact Bool.or_false b
      · omega
      · exact small

/-- Nothing but the masks has changed. -/
structure SameButMasks (p q : Pics) : Prop where
  master : { q.master with imr := p.master.imr } = p.master
  slave : { q.slave with imr := p.slave.imr } = p.slave

theorem changeMask_same (change : BitVec 8 → Nat → BitVec 8) (line : Nat) :
    SameButMasks p (p.changeMask change line) := by
  unfold changeMask
  split <;> exact ⟨rfl, rfl⟩

theorem enableIrq_same (programmed : p.Programmed) (irqNum : BitVec 32) :
    SameButMasks p (p.enableIrq irqNum) := by
  rw [enableIrq_eq programmed]
  split
  · exact ⟨rfl, rfl⟩
  · exact changeMask_same _ _

theorem disableIrq_same (programmed : p.Programmed) (irqNum : BitVec 32) :
    SameButMasks p (p.disableIrq irqNum) := by
  rw [disableIrq_eq programmed]
  split
  · exact ⟨rfl, rfl⟩
  · exact changeMask_same _ _

/-- From whatever state the controllers are in, `i8259_init` leaves them programmed, with
    nothing requested or in service, and every line masked but the one of the slave. -/
theorem i8259Init_eq (p : Pics) :
    p.i8259Init =
      { master := ⟨0, 0, 0xFB, ICW2_MASTER, ICW3_MASTER, ICW4, .mask⟩
        slave := ⟨0, 0, 0xFF, ICW2_SLAVE, ICW3_SLAVE, ICW4, .mask⟩ } := by
  have restarts : ICW1.getLsbD 4 = true := by decide
  simp [i8259Init, outb, Chip.command, Chip.data, restarts, MASTER_8259_PORT, SLAVE_8259_PORT,
    PORT_MASTER, PORT_SLAVE, enableIrq, lineOf, inb, MAXIMUM_IRQ_NUMBER, NUMBER_IRQ_MASTER,
    IRQ_NUMBER_OF_SLAVE, MASK_ALL]

theorem i8259Init_programmed (p : Pics) : p.i8259Init.Programmed := by
  rw [i8259Init_eq]
  constructor <;> rfl

theorem i8259Init_masked (p : Pics) (small : irq < 16) :
    p.i8259Init.masked irq = decide (irq ≠ 2) := by
  rw [i8259Init_eq]
  revert irq
  decide

end Pics

/-- The bytes that name a line at the end of an interrupt. -/
theorem eoi_bytes : ∀ line < 8,
    let value := (EOI ||| BitVec.ofNat 32 line).setWidth 8
    value.getLsbD 4 = false ∧ value &&& 0xF8 = 0x60 ∧ (value &&& 7).toNat = line := by
  decide

namespace Chip

variable {c : Chip} {line : Nat}

theorem command_eoi (c : Chip) (small : line < 8) :
    c.command ((EOI ||| BitVec.ofNat 32 line).setWidth 8) =
      { c with isr := c.isr &&& ~~~ lineBit line } := by
  obtain ⟨again, named, number⟩ := eoi_bytes line small
  simp only [command, again, named, number, Bool.false_eq_true, if_false, if_true]

theorem servable_iff :
    c.servable line = true ↔
      c.irr.getLsbD line = true ∧ c.imr.getLsbD line = false ∧
        ∀ other ≤ line, c.isr.getLsbD other = false := by
  simp only [servable, Bool.and_eq_true, Bool.not_eq_true', List.all_eq_true, List.mem_range,
    and_assoc]
  exact and_congr_right fun _ => and_congr_right fun _ =>
    forall_congr' fun _ => imp_congr_left Nat.lt_succ_iff

theorem highest_eq_some :
    c.highest = some line ↔
      line < 8 ∧ c.servable line = true ∧ ∀ other < line, c.servable other = false := by
  simp [highest, List.find?_range_eq_some]
  tauto

theorem highest_eq_none : c.highest = none ↔ ∀ line < 8, c.servable line = false := by
  simp [highest]

end Chip

theorem sendEoi_master {irq : Nat} (lower : irq < 8) :
    sendEoi (BitVec.ofNat 32 irq) =
      [((EOI ||| BitVec.ofNat 32 irq).setWidth 8, MASTER_8259_PORT)] := by
  revert irq
  decide

theorem sendEoi_slave {irq : Nat} (upper : 8 ≤ irq) (small : irq < 16) :
    sendEoi (BitVec.ofNat 32 irq) =
      [((EOI ||| BitVec.ofNat 32 (irq - 8)).setWidth 8, SLAVE_8259_PORT),
        ((EOI ||| BitVec.ofNat 32 2).setWidth 8, MASTER_8259_PORT)] := by
  revert irq
  decide

end LightOS.Interrupt
