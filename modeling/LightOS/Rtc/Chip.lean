import LightOS.Interrupt.Gates
import LightOS.Lib.Parts
import LightOS.Rtc.Waiting
import Mathlib.Tactic.IntervalCases

/-! # The clock and its interrupt line

The registers of the clock behind ports 0x70 and 0x71, the routines of rtc.c that program them,
and the line from the clock to the interrupt controllers.  The line stays up until register C
has been read, and only its rise is a request.
-/

namespace LightOS.Rtc

open Lib Interrupt Filesystem

def REGISTER_A : BitVec 8 := 0x8A
def REGISTER_B : BitVec 8 := 0x8B
def REGISTER_C : BitVec 8 := 0x8C
def RTC_PORT_0x70 : BitVec 16 := 0x70
def RTC_PORT_0x71 : BitVec 16 := 0x71

/-- The registers that the driver works on, and the number of the one at port 0x71. -/
structure Registers where
  index : BitVec 8
  a : BitVec 8
  b : BitVec 8
  c : BitVec 8
  deriving DecidableEq

namespace Registers

/-- `outb`.  Bit 7 of a number is for the NMI, bit 7 of register A and register C are read-only. -/
def outb (r : Registers) (value : BitVec 8) (port : BitVec 16) : Registers :=
  if port = RTC_PORT_0x70 then { r with index := value }
  else if port = RTC_PORT_0x71 then
    match (r.index &&& 0x7F).toNat with
    | 0x0A => { r with a := (r.a &&& 0x80) ||| (value &&& 0x7F) }
    | 0x0B => { r with b := value }
    | _ => r
  else r

/-- `inb` from port 0x71.  Register C is cleared when it is read. -/
def inb (r : Registers) : BitVec 8 × Registers :=
  match (r.index &&& 0x7F).toNat with
  | 0x0A => (r.a, r)
  | 0x0B => (r.b, r)
  | 0x0C => (r.c, { r with c := 0 })
  | _ => (0, r)

/-- `rtc_enable_pie` -/
def rtcEnablePie (r : Registers) : Registers :=
  let r := r.outb REGISTER_B RTC_PORT_0x70
  let (prev, r) := r.inb
  let r := r.outb REGISTER_B RTC_PORT_0x70
  r.outb (prev ||| 0x40) RTC_PORT_0x71

/-- `rtc_disable_pie` -/
def rtcDisablePie (r : Registers) : Registers :=
  let r := r.outb REGISTER_B RTC_PORT_0x70
  let (prev, r) := r.inb
  let r := r.outb REGISTER_B RTC_PORT_0x70
  r.outb (prev &&& 0xBF) RTC_PORT_0x71

/-- `rtc_set_interrupt_rate` -/
def rtcSetInterruptRate (r : Registers) (rate : BitVec 8) : Registers :=
  let r := r.outb REGISTER_A RTC_PORT_0x70
  let (prev, r) := r.inb
  let r := r.outb REGISTER_A RTC_PORT_0x70
  r.outb ((prev &&& 0xF0) ||| rate) RTC_PORT_0x71

/-- `rtc_handler` throws the contents of register C away. -/
def fetch (r : Registers) : Registers := (r.outb REGISTER_C RTC_PORT_0x70).inb.2

/-- The end of a period is noted in register C, whether it is to interrupt or not. -/
def period (r : Registers) : Registers := { r with c := r.c ||| 0x40 }

def pie (r : Registers) : Bool := r.b.getLsbD 6

/-- The interrupt line, with the alarm and the update interrupt off. -/
def line (r : Registers) : Bool := r.pie && r.c.getLsbD 6

end Registers

/-- The periods in a second for a rate code; the first two are special, and 0 is off. -/
def codeFrequency (code : BitVec 8) : Int :=
  match code.toNat with
  | 0 => 0
  | 1 => 256
  | 2 => 128
  | code => 32768 / 2 ^ (code - 1)

def Registers.frequency (r : Registers) : Int := codeFrequency (r.a &&& 0x0F)

/-- The clock on the line of its controller, with the globals of rtc.c. -/
structure Wired where
  registers : Registers
  rtc : Device
  interrupts : Interrupts
  /-- The handler has been entered and has not come to register C. -/
  unread : Bool

namespace Wired

/-- After a write to the clock; if its line has gone up, that is a request. -/
def setRegisters (s : Wired) (registers : Registers) : Wired :=
  { s with
    registers
    interrupts :=
      if registers.line && !s.registers.line then
        s.interrupts.step (.request IRQ_NUMBER_REAL_TIME_CLOCK)
      else s.interrupts }

/-- The switch of `rtc_write_device`. -/
def rateCode : Int → Option (BitVec 8)
  | 2 => some 0x0F
  | 4 => some 0x0E
  | 8 => some 0x0D
  | 16 => some 0x0C
  | 32 => some 0x0B
  | 64 => some 0x0A
  | 128 => some 0x09
  | 256 => some 0x08
  | 512 => some 0x07
  | 1024 => some 0x06
  | _ => none

/-- The rate that `rtc_write_device` sets, with its code. -/
def deviceRate (buf : Option Int) : Option (Int × BitVec 8) :=
  match buf with
  | none => none
  | some rate => if rate < 2 ∨ 1024 < rate then none else (rateCode rate).map (rate, ·)

/-- `rtc_write_device` -/
def rtcWriteDevice (s : Wired) (buf : Option Int) : Int × Wired :=
  match deviceRate buf with
  | none => (-1, s)
  | some (rate, code) =>
      let s := s.setRegisters (s.registers.rtcSetInterruptRate code)
      (0, { s with rtc.physicalRate := rate })

/-- `rtc_open`, which checks what `file_open` checks, in terminal `t`: what it stores in `*fd`, or
    `none` for -1. -/
def rtcOpen (bootBlock : Option Image) (s : Wired) (filename : Option CharPtr)
    (t : TerminalId) : Option Int × Wired :=
  match fileOpen bootBlock filename with
  | none => (none, s)
  | some fd =>
      let s := s.setRegisters s.registers.rtcEnablePie
      let s := { s with rtc.physicalRate := 1024 }
      let s := s.setRegisters (s.registers.rtcSetInterruptRate 0x06)
      let s := { s with rtc.virtualRate := Function.update s.rtc.virtualRate t 2 }
      (some fd, { s with interrupts :=
        s.interrupts.step (.enableIrq (BitVec.ofNat 32 IRQ_NUMBER_REAL_TIME_CLOCK)) })

/-- `rtc_close` -/
def rtcClose (s : Wired) : Int × Wired := (0, s.setRegisters s.registers.rtcDisablePie)

/-- `rtc_handler` up to its `send_eoi`. -/
def rtcHandler (s : Wired) : Wired :=
  { s.setRegisters s.registers.fetch with rtc := s.rtc.rtcHandler, unread := false }

/-- The handler of the clock runs, and has not written an end of interrupt. -/
def clockOnTop (s : Wired) : Bool :=
  s.interrupts.top.any fun a =>
    a.irq = IRQ_NUMBER_REAL_TIME_CLOCK &&
      a.todo = sendEoi (BitVec.ofNat 32 IRQ_NUMBER_REAL_TIME_CLOCK)

end Wired

/-- A period of the clock ends, something happens between the controllers and the handlers, the
    handler of the clock comes to register C, or a routine of the driver is called. -/
inductive WireEvent
  | period
  | interrupts (event : Interrupt.Event)
  | handler
  | enablePie
  | disablePie
  | writeDevice (buf : Option Int)
  | open (filename : Option CharPtr) (t : TerminalId)
  | close

namespace Wired

def step (bootBlock : Option Image) (s : Wired) : WireEvent → Wired
  | .period => s.setRegisters s.registers.period
  | .interrupts event =>
      { s with
        interrupts := s.interrupts.step event
        unread :=
          match event with
          | .acknowledge =>
              s.unread || s.interrupts.pics.pending = some IRQ_NUMBER_REAL_TIME_CLOCK
          | _ => s.unread }
  | .handler => s.rtcHandler
  | .enablePie => s.setRegisters s.registers.rtcEnablePie
  | .disablePie => s.setRegisters s.registers.rtcDisablePie
  | .writeDevice buf => (s.rtcWriteDevice buf).2
  | .open filename t => (s.rtcOpen bootBlock filename t).2
  | .close => s.rtcClose.2

/-- The clock alone requests its interrupt, and its handler reads register C before the end of
    interrupt. -/
def able (s : Wired) : WireEvent → Prop
  | .interrupts event =>
      s.interrupts.able event ∧
        match event with
        | .request irq => irq ≠ IRQ_NUMBER_REAL_TIME_CLOCK
        | .endOfInterrupt => ¬ (s.unread = true ∧ s.clockOnTop = true)
        | _ => True
  | .handler => s.unread = true ∧ s.clockOnTop = true
  | _ => True

instance (s : Wired) : (event : WireEvent) → Decidable (s.able event)
  | .interrupts (.request irq) => inferInstanceAs (Decidable (_ ∧ irq ≠ 8))
  | .interrupts .endOfInterrupt => inferInstanceAs (Decidable (_ ∧ ¬ (_ = true ∧ _ = true)))
  | .interrupts .acknowledge => inferInstanceAs (Decidable (_ ∧ True))
  | .interrupts .iret => inferInstanceAs (Decidable (_ ∧ True))
  | .interrupts (.switchTo pid) =>
      inferInstanceAs (Decidable (s.interrupts.able (.switchTo pid) ∧ True))
  | .interrupts (.enableIrq _) | .interrupts (.disableIrq _) =>
      inferInstanceAs (Decidable (True ∧ True))
  | .handler => inferInstanceAs (Decidable (_ = true ∧ _ = true))
  | .period | .enablePie | .disablePie | .writeDevice _ | .open _ _ | .close =>
      inferInstanceAs (Decidable True)

end Wired

/-- The clock, its driver, the controllers and the handlers, with steps in any order.  A call of a
    routine is one step: `entry` calls `rtc_enable_pie` while the line of the clock is still
    masked, and the others have no caller in the kernel. -/
def wired (bootBlock : Option Image) : Machine Wired WireEvent where
  enabled := Wired.able
  next := Wired.step bootBlock

instance (bootBlock : Option Image) (s : Wired) (event : WireEvent) :
    Decidable ((wired bootBlock).enabled s event) :=
  inferInstanceAs (Decidable (s.able event))

/-- What an event sets the rate of the clock to: what `rtc_write` would set a virtual rate to. -/
def WireEvent.rate (bootBlock : Option Image) : WireEvent → Option Int
  | .writeDevice buf => acceptedRate buf
  | .open filename _ => (fileOpen bootBlock filename).map fun _ => 1024
  | _ => none

/-- Whether an event turns the periodic interrupt on or off. -/
def WireEvent.pie (bootBlock : Option Image) : WireEvent → Option Bool
  | .enablePie => some true
  | .disablePie | .close => some false
  | .open filename _ => (fileOpen bootBlock filename).map fun _ => true
  | _ => none

/-- The handler of the clock has begun, and has still to come to register C. -/
def Wired.Fetching (s : Wired) : Prop :=
  s.unread = true ∧ ∃ a ∈ s.interrupts.activations, a.irq = IRQ_NUMBER_REAL_TIME_CLOCK ∧
    a.todo = sendEoi (BitVec.ofNat 32 IRQ_NUMBER_REAL_TIME_CLOCK)

/-- The clock before its first interrupt, with the controllers initialized. -/
def Wired.started (registers : Registers) (rtc : Device) (pics : Pics) (running : Nat) : Wired :=
  ⟨registers, rtc, .started pics running, false⟩

section Registers

variable (r : Registers)

theorem rtcEnablePie_eq :
    r.rtcEnablePie = { r with index := REGISTER_B, b := r.b ||| 0x40 } := by
  simp [Registers.rtcEnablePie, Registers.outb, Registers.inb, REGISTER_B, RTC_PORT_0x70,
    RTC_PORT_0x71]

theorem rtcDisablePie_eq :
    r.rtcDisablePie = { r with index := REGISTER_B, b := r.b &&& 0xBF } := by
  simp [Registers.rtcDisablePie, Registers.outb, Registers.inb, REGISTER_B, RTC_PORT_0x70,
    RTC_PORT_0x71]

theorem rtcSetInterruptRate_eq (rate : BitVec 8) :
    r.rtcSetInterruptRate rate =
      { r with
        index := REGISTER_A
        a := (r.a &&& 0x80) ||| (((r.a &&& 0xF0) ||| rate) &&& 0x7F) } := by
  simp [Registers.rtcSetInterruptRate, Registers.outb, Registers.inb, REGISTER_A, RTC_PORT_0x70,
    RTC_PORT_0x71]

theorem fetch_eq : r.fetch = { r with index := REGISTER_C, c := 0 } := by
  simp [Registers.fetch, Registers.outb, Registers.inb, REGISTER_C, RTC_PORT_0x70]

/-- Bit 6 of register B, and the other bits of it. -/
theorem pie_in_b (b : BitVec 8) :
    (b ||| 0x40).getLsbD 6 = true ∧ (b ||| 0x40) &&& 0xBF = b &&& 0xBF ∧
      (b &&& 0xBF).getLsbD 6 = false ∧ (b &&& 0xBF) &&& 0xBF = b &&& 0xBF := by
  refine ⟨by simp, ?_, by simp, ?_⟩
  · apply BitVec.eq_of_getLsbD_eq
    intro i inside
    interval_cases i <;> simp
  · rw [BitVec.and_assoc]
    rfl

/-- A rate code goes to the lower half of register A, and the upper half stays. -/
theorem code_in_a (a : BitVec 8) {code : BitVec 8} (small : code &&& 0xF0 = 0) :
    let after := (a &&& 0x80) ||| (((a &&& 0xF0) ||| code) &&& 0x7F)
    after &&& 0x0F = code ∧ after &&& 0xF0 = a &&& 0xF0 := by
  have high (i : Nat) (inside : i < 8) (upper : 4 ≤ i) : code.getLsbD i = false := by
    have bit := congrArg (BitVec.getLsbD · i) small
    simp only [BitVec.getLsbD_and] at bit
    interval_cases i <;> simpa using bit
  constructor
  · apply BitVec.eq_of_getLsbD_eq
    intro i inside
    by_cases upper : 4 ≤ i
    · rw [high i inside upper]
      interval_cases i <;> simp
    · interval_cases i <;> simp at upper ⊢
  · apply BitVec.eq_of_getLsbD_eq
    intro i inside
    by_cases upper : 4 ≤ i
    · simp only [BitVec.getLsbD_and, BitVec.getLsbD_or, high i inside upper, Bool.or_false]
      interval_cases i <;> simp
    · interval_cases i <;> simp at upper ⊢

theorem rateCode_cases (rate : Int) :
    (Wired.rateCode rate = none ∧ rate ∉ rates) ∨
      ∃ code, Wired.rateCode rate = some code ∧ rate ∈ rates ∧ code &&& 0xF0 = 0 ∧
        codeFrequency code = rate := by
  unfold Wired.rateCode
  split
  case h_11 => exact .inl ⟨rfl, by simp only [rates, List.mem_cons, List.not_mem_nil]; tauto⟩
  all_goals exact .inr ⟨_, rfl, by decide, by decide, by decide⟩

/-- The device takes the rates that `rtc_write` takes, each with the code for it. -/
theorem deviceRate_cases (buf : Option Int) :
    (Wired.deviceRate buf = none ∧ acceptedRate buf = none) ∨
      ∃ rate code, Wired.deviceRate buf = some (rate, code) ∧ acceptedRate buf = some rate ∧
        code &&& 0xF0 = 0 ∧ codeFrequency code = rate := by
  have within : ∀ rate ∈ rates, ¬ (rate < 2 ∨ 1024 < rate) := by decide
  cases buf with
  | none => exact .inl ⟨rfl, rfl⟩
  | some rate =>
      cases rateCode_cases rate with
      | inl unknown =>
          have refused : acceptedRate (some rate) = none := by
            apply Option.eq_none_iff_forall_not_mem.mpr
            intro other accepted
            obtain ⟨same, listed⟩ := acceptedRate_spec.mp accepted
            cases same
            exact unknown.2 listed
          refine .inl ⟨?_, refused⟩
          simp only [Wired.deviceRate, unknown.1, Option.map_none, ite_self]
      | inr known =>
          obtain ⟨code, found, listed, valid, frequency⟩ := known
          refine .inr ⟨rate, code, ?_, acceptedRate_spec.mpr ⟨rfl, listed⟩, valid, frequency⟩
          rw [Wired.deviceRate, if_neg (within rate listed), found, Option.map_some]

end Registers

/-- What a step leaves of the settings of the clock. -/
structure Settles (bootBlock : Option Image) (event : WireEvent) (s after : Wired) : Prop where
  pie : after.registers.pie = (event.pie bootBlock).getD s.registers.pie
  restOfB : after.registers.b &&& 0xBF = s.registers.b &&& 0xBF
  restOfA : after.registers.a &&& 0xF0 = s.registers.a &&& 0xF0
  rate : after.rtc.physicalRate = (event.rate bootBlock).getD s.rtc.physicalRate
  frequency : s.registers.frequency = s.rtc.physicalRate →
    after.registers.frequency = after.rtc.physicalRate

section Settings

variable {bootBlock : Option Image} {s later : Wired} {events : List WireEvent}

theorem settles_same {event : WireEvent} {after : Wired}
    (pie : event.pie bootBlock = none) (rate : event.rate bootBlock = none)
    (a : after.registers.a = s.registers.a) (b : after.registers.b = s.registers.b)
    (physicalRate : after.rtc.physicalRate = s.rtc.physicalRate) :
    Settles bootBlock event s after where
  pie := by
    rw [pie, Registers.pie, b]
    rfl
  restOfB := by rw [b]
  restOfA := by rw [a]
  rate := by
    rw [rate, physicalRate]
    rfl
  frequency agree := by
    rw [Registers.frequency, a, physicalRate]
    exact agree

theorem settles_pie {event : WireEvent} (b : BitVec 8)
    (pie : event.pie bootBlock = some (b.getLsbD 6)) (rate : event.rate bootBlock = none)
    (rest : b &&& 0xBF = s.registers.b &&& 0xBF) :
    Settles bootBlock event s
      (s.setRegisters { s.registers with index := REGISTER_B, b }) where
  pie := by
    rw [pie]
    rfl
  restOfB := rest
  restOfA := rfl
  rate := by
    rw [rate]
    rfl
  frequency agree := agree

theorem settles_rate {event : WireEvent} {after : Wired} {before : Registers} {rate : Int}
    {code : BitVec 8} (small : code &&& 0xF0 = 0) (frequency : codeFrequency code = rate)
    (registers : after.registers = before.rtcSetInterruptRate code)
    (physicalRate : after.rtc.physicalRate = rate) (sets : event.rate bootBlock = some rate)
    (a : before.a = s.registers.a)
    (pie : before.pie = (event.pie bootBlock).getD s.registers.pie)
    (rest : before.b &&& 0xBF = s.registers.b &&& 0xBF) :
    Settles bootBlock event s after := by
  obtain ⟨lower, upper⟩ := code_in_a before.a small
  rw [rtcSetInterruptRate_eq] at registers
  constructor
  · rw [registers]
    exact pie
  · rw [registers]
    exact rest
  · rw [registers, ← a]
    exact upper
  · rw [physicalRate, sets]
    rfl
  · intro _
    rw [registers, physicalRate]
    exact (congrArg codeFrequency lower).trans frequency

/-- What each routine of the driver sets, and that the others set nothing. -/
theorem Wired.step_settles (bootBlock : Option Image) (s : Wired) (event : WireEvent) :
    Settles bootBlock event s (s.step bootBlock event) := by
  obtain ⟨on, keepsOn, off, keepsOff⟩ := pie_in_b s.registers.b
  cases event with
  | period => exact settles_same rfl rfl rfl rfl rfl
  | interrupts event => exact settles_same rfl rfl rfl rfl rfl
  | handler =>
      have registers : (s.step bootBlock .handler).registers = s.registers.fetch := rfl
      rw [fetch_eq] at registers
      apply settles_same rfl rfl
      · rw [registers]
      · rw [registers]
      · rfl
  | enablePie =>
      rw [Wired.step, rtcEnablePie_eq]
      apply settles_pie _ _ rfl keepsOn
      rw [on]
      rfl
  | disablePie | close =>
      simp only [Wired.step, Wired.rtcClose, rtcDisablePie_eq]
      apply settles_pie _ _ rfl keepsOff
      rw [off]
      rfl
  | writeDevice buf =>
      cases deviceRate_cases buf with
      | inl refused =>
          have result : s.step bootBlock (.writeDevice buf) = s := by
            simp only [Wired.step, Wired.rtcWriteDevice, refused.1]
          rw [result]
          exact settles_same rfl refused.2 rfl rfl rfl
      | inr accepted =>
          obtain ⟨rate, code, found, accepts, small, frequency⟩ := accepted
          have registers : (s.step bootBlock (.writeDevice buf)).registers =
              s.registers.rtcSetInterruptRate code := by
            simp only [Wired.step, Wired.rtcWriteDevice, found, Wired.setRegisters]
          have physicalRate : (s.step bootBlock (.writeDevice buf)).rtc.physicalRate = rate := by
            simp only [Wired.step, Wired.rtcWriteDevice, found]
          exact settles_rate small frequency registers physicalRate accepts rfl rfl rfl
  | «open» filename t =>
      cases found : fileOpen bootBlock filename with
      | none =>
          have result : s.step bootBlock (.open filename t) = s := by
            simp only [Wired.step, Wired.rtcOpen, found]
          rw [result]
          apply settles_same ?_ ?_ rfl rfl rfl
          · simp only [WireEvent.pie, found, Option.map_none]
          · simp only [WireEvent.rate, found, Option.map_none]
      | some fd =>
          have registers : (s.step bootBlock (.open filename t)).registers =
              s.registers.rtcEnablePie.rtcSetInterruptRate 0x06 := by
            simp only [Wired.step, Wired.rtcOpen, found, Wired.setRegisters]
          have physicalRate : (s.step bootBlock (.open filename t)).rtc.physicalRate = 1024 := by
            simp only [Wired.step, Wired.rtcOpen, found, Wired.setRegisters]
          rw [rtcEnablePie_eq] at registers
          apply settles_rate (by decide) (by decide) registers physicalRate ?_ rfl ?_ keepsOn
          · simp only [WireEvent.rate, found, Option.map_some]
          · simp only [WireEvent.pie, found, Option.map_some, Option.getD_some]
            exact on

/-- In every order of periods, interrupts and calls of the driver: the clock runs at the rate that
    the driver takes it to run at, the last that was accepted; the periodic interrupt is on or off
    as it was last turned; and the other bits of the registers are as they were. -/
theorem clock_runs_as_set (run : (wired bootBlock).Run s events later)
    (start : s.registers.frequency = s.rtc.physicalRate) :
    later.registers.frequency = later.rtc.physicalRate ∧
      later.rtc.physicalRate =
        (events.reverse.findSome? (WireEvent.rate bootBlock)).getD s.rtc.physicalRate ∧
      later.registers.pie =
        (events.reverse.findSome? (WireEvent.pie bootBlock)).getD s.registers.pie ∧
      later.registers.b &&& 0xBF = s.registers.b &&& 0xBF ∧
      later.registers.a &&& 0xF0 = s.registers.a &&& 0xF0 := by
  have agree : later.registers.frequency = later.rtc.physicalRate :=
    run.invariant (fun s event agree _ => (s.step_settles bootBlock event).frequency agree) start
  have kept : later.registers.b &&& 0xBF = s.registers.b &&& 0xBF ∧
      later.registers.a &&& 0xF0 = s.registers.a &&& 0xF0 := by
    induction run with
    | nil => exact ⟨rfl, rfl⟩
    | @cons s event events later able _ ih =>
        have step := s.step_settles bootBlock event
        obtain ⟨b, a⟩ := ih (step.frequency start) agree
        exact ⟨b.trans step.restOfB, a.trans step.restOfA⟩
  refine ⟨agree, ?_, ?_, kept⟩
  · exact run.last_set (I := fun _ => True) (fun s => s.rtc.physicalRate) _
      (fun _ _ _ _ => trivial) (fun s event _ _ => (s.step_settles bootBlock event).rate) trivial
  · exact run.last_set (I := fun _ => True) (fun s => s.registers.pie) _
      (fun _ _ _ _ => trivial) (fun s event _ _ => (s.step_settles bootBlock event).pie) trivial

end Settings

section Activations

variable {s : Interrupts} {event : Interrupt.Event} {a : Activation} {irq : Nat}

/-- A request stays until it is taken. -/
theorem requested_kept (serviced : Serviced s) (small : irq < 16) (device : irq ≠ 2)
    (able : s.able event) (requested : s.pics.requested irq = true) :
    (s.step event).pics.requested irq = true ∨
      (event = .acknowledge ∧ s.pics.pending = some irq) := by
  have counted := serviced.step_requested small device able
  cases after : (s.step event).pics.requested irq with
  | true => exact .inl rfl
  | false =>
      rw [requested, after] at counted
      cases event with
      | acknowledge =>
          refine .inr ⟨rfl, ?_⟩
          by_contra other
          simp only [requestsAlong, entriesAlong, if_neg other] at counted
          cases counted
      | request other =>
          simp only [requestsAlong, entriesAlong, Bool.toNat_true, Bool.toNat_false] at counted
          omega
      | _ => cases counted

/-- A handler that has not ended its interrupt stays, unless it makes a write of its own. -/
theorem activation_kept (able : s.able event) (member : a ∈ s.activations)
    (working : a.unfinished = true) (otherTop : event = .endOfInterrupt → s.top ≠ some a) :
    a ∈ (s.step event).activations := by
  cases event with
  | request irq => exact member
  | switchTo pid => exact member
  | enableIrq irqNum => exact member
  | disableIrq irqNum => exact member
  | acknowledge =>
      obtain ⟨irq, pending⟩ := Option.isSome_iff_exists.mp able
      simp only [Interrupts.step, pending, Option.map_some, Option.getD_some]
      exact List.mem_cons_of_mem _ member
  | endOfInterrupt =>
      obtain ⟨b, top, _⟩ := (Option.any_eq_true _ _).mp able
      obtain ⟨before, after, stack, replaced⟩ := exists_top top
      have apart : a ≠ b := fun same => otherTop rfl (same ▸ top)
      rw [stack] at member
      simp only [Interrupts.step, top, Option.map_some, Option.getD_some, Interrupts.writeNext]
      split
      · rw [stack]
        exact member
      · simp only [Interrupts.setTop, replaced]
        simp only [List.mem_append, List.mem_cons, apart, false_or] at member ⊢
        exact member.imp id .inr
  | iret =>
      obtain ⟨b, top, finished⟩ := (Option.any_eq_true _ _).mp able
      obtain ⟨before, after, stack, replaced⟩ := exists_top top
      have apart : a ≠ b := by
        rintro rfl
        rw [working] at finished
        cases finished
      rw [stack] at member
      simp only [Interrupts.step, Interrupts.setTop, replaced]
      simp only [List.mem_append, List.mem_cons, apart, false_or] at member
      simpa using member

end Activations

/-- What holds between the line of the clock, the controllers and the handler. -/
structure Sensed (s : Wired) : Prop where
  serviced : Serviced s.interrupts
  fetching : s.unread = true → s.Fetching
  owed : s.registers.line = true →
    s.interrupts.pics.requested IRQ_NUMBER_REAL_TIME_CLOCK = true ∨ s.unread = true

section Line

variable {s : Wired}

/-- A rise of the line is a request. -/
theorem Sensed.setRegisters (sensed : Sensed s) (registers : Registers) :
    Sensed (s.setRegisters registers) := by
  by_cases rises : (registers.line && !s.registers.line) = true
  · have requested : (s.interrupts.step (.request IRQ_NUMBER_REAL_TIME_CLOCK)).pics.requested
        IRQ_NUMBER_REAL_TIME_CLOCK = true := by
      have small : IRQ_NUMBER_REAL_TIME_CLOCK < 16 := by decide
      simp only [Interrupts.step, request_requested _ small small, decide_true, Bool.or_true]
    rw [Wired.setRegisters, if_pos rises]
    exact
      { serviced := sensed.serviced.step (.request IRQ_NUMBER_REAL_TIME_CLOCK)
          ⟨by decide, by decide⟩
        fetching := sensed.fetching
        owed := fun _ => .inl requested }
  · rw [Wired.setRegisters, if_neg rises]
    refine ⟨sensed.serviced, sensed.fetching, fun up => sensed.owed ?_⟩
    cases before : s.registers.line with
    | true => rfl
    | false =>
        rw [show registers.line = true from up, before] at rises
        exact absurd rfl rises

theorem Sensed.of_rtc (sensed : Sensed s) (rtc : Device) : Sensed { s with rtc } :=
  ⟨sensed.serviced, sensed.fetching, sensed.owed⟩

/-- The handler has come to register C. -/
theorem Sensed.rtcHandler (sensed : Sensed s) : Sensed s.rtcHandler := by
  have down : s.registers.fetch.line = false := by
    rw [fetch_eq]
    simp [Registers.line]
  have fetched := sensed.setRegisters s.registers.fetch
  refine ⟨fetched.serviced, fun unread => absurd unread Bool.false_ne_true, fun up => ?_⟩
  rw [show s.rtcHandler.registers.line = s.registers.fetch.line from rfl, down] at up
  cases up

/-- Between the controllers and the handlers. -/
theorem Sensed.interrupts (sensed : Sensed s) (bootBlock : Option Image)
    (event : Interrupt.Event) (able : s.able (.interrupts event)) :
    Sensed (s.step bootBlock (.interrupts event)) where
  serviced := sensed.serviced.step event able.1
  fetching unread := by
    cases before : s.unread with
    | true =>
        obtain ⟨_, a, member, clock, full⟩ := sensed.fetching before
        have working : a.unfinished = true := by
          rw [Activation.unfinished, full]
          rfl
        have otherTop : event = .endOfInterrupt → s.interrupts.top ≠ some a := by
          rintro rfl top
          apply able.2
          refine ⟨before, ?_⟩
          simp only [Wired.clockOnTop, top, Option.any_some, clock, full, decide_true,
            Bool.and_self]
        exact ⟨unread, a, activation_kept able.1 member working otherTop, clock, full⟩
    | false =>
        cases event with
        | acknowledge =>
            have taken : s.interrupts.pics.pending = some IRQ_NUMBER_REAL_TIME_CLOCK := by
              simpa only [Wired.step, before, Bool.false_or, decide_eq_true_eq] using unread
            refine ⟨unread, ⟨s.interrupts.running, IRQ_NUMBER_REAL_TIME_CLOCK, _⟩, ?_, rfl, rfl⟩
            simp only [Wired.step, Interrupts.step, taken, Option.map_some, Option.getD_some]
            exact List.mem_cons_self
        | _ => exact absurd (before.symm.trans unread) Bool.false_ne_true
  owed up := by
    cases sensed.owed up with
    | inl requested =>
        cases requested_kept sensed.serviced (by decide) (by decide) able.1 requested with
        | inl still => exact .inl still
        | inr taken =>
            obtain ⟨rfl, pending⟩ := taken
            exact .inr (by simp only [Wired.step, pending, decide_true, Bool.or_true])
    | inr unread =>
        cases event with
        | acknowledge => exact .inr (by simp only [Wired.step, unread, Bool.true_or])
        | _ => exact .inr unread

theorem Sensed.enableIrq (sensed : Sensed s) (irqNum : BitVec 32) :
    Sensed { s with interrupts := s.interrupts.step (.enableIrq irqNum) } :=
  sensed.interrupts none (.enableIrq irqNum) ⟨trivial, trivial⟩

theorem Sensed.step (sensed : Sensed s) (bootBlock : Option Image) (event : WireEvent)
    (able : s.able event) : Sensed (s.step bootBlock event) := by
  cases event with
  | period => exact sensed.setRegisters _
  | interrupts event => exact sensed.interrupts bootBlock event able
  | handler => exact sensed.rtcHandler
  | enablePie => exact sensed.setRegisters _
  | disablePie => exact sensed.setRegisters _
  | close => exact sensed.setRegisters _
  | writeDevice buf =>
      simp only [Wired.step, Wired.rtcWriteDevice]
      cases Wired.deviceRate buf with
      | none => exact sensed
      | some found => exact (sensed.setRegisters _).of_rtc _
  | «open» filename t =>
      cases found : fileOpen bootBlock filename with
      | none =>
          simp only [Wired.step, Wired.rtcOpen, found]
          exact sensed
      | some fd =>
          simp only [Wired.step, Wired.rtcOpen, found]
          let on := s.setRegisters s.registers.rtcEnablePie
          have enabled : Sensed { on with rtc.physicalRate := 1024 } :=
            (sensed.setRegisters s.registers.rtcEnablePie).of_rtc _
          have programmed :=
            (enabled.setRegisters (on.registers.rtcSetInterruptRate 0x06)).enableIrq
              (BitVec.ofNat 32 IRQ_NUMBER_REAL_TIME_CLOCK)
          exact ⟨programmed.serviced, programmed.fetching, programmed.owed⟩

end Line

section Runs

variable {bootBlock : Option Image} {registers : Registers} {rtc : Device} {pics : Pics}
  {running : Nat} {events : List WireEvent} {s : Wired}

/-- From the initialization of the controllers on, in every order of steps: while the line of the
    clock is up, its request is waiting, or its handler has begun and will bring the line down.  So
    no period that is to interrupt ends without a handler for it. -/
theorem clock_never_stalls
    (run : (wired bootBlock).Run (.started registers rtc pics running) events s)
    (quiet : registers.line = false) :
    (s.registers.line = true →
      s.interrupts.pics.requested IRQ_NUMBER_REAL_TIME_CLOCK = true ∨ s.Fetching) ∧
      (s.registers.pie = true →
        (s.step bootBlock .period).interrupts.pics.requested IRQ_NUMBER_REAL_TIME_CLOCK = true ∨
          (s.step bootBlock .period).Fetching) := by
  have start : Sensed (.started registers rtc pics running) := by
    refine ⟨started_serviced pics running, fun unread => absurd unread Bool.false_ne_true, ?_⟩
    intro up
    rw [show (Wired.started registers rtc pics running).registers = registers from rfl, quiet] at up
    cases up
  have sensed : Sensed s :=
    run.invariant (fun _ event sensed able => sensed.step bootBlock event able) start
  have answered {s : Wired} (sensed : Sensed s) (up : s.registers.line = true) :
      s.interrupts.pics.requested IRQ_NUMBER_REAL_TIME_CLOCK = true ∨ s.Fetching :=
    (sensed.owed up).imp_right sensed.fetching
  refine ⟨answered sensed, fun pie => answered (sensed.step bootBlock .period trivial) ?_⟩
  have noted : (s.registers.c ||| 0x40).getLsbD 6 = true := (pie_in_b s.registers.c).1
  show (s.registers.pie && (s.registers.c ||| 0x40).getLsbD 6) = true
  rw [pie, noted]
  rfl

/-- As the BIOS leaves it. -/
def biosClock : Wired :=
  .started ⟨0x0D, 0x26, 0x02, 0⟩ ⟨0, 1024, fun _ => 2, fun _ => 0⟩ ⟨blankChip, blankChip⟩ 4

/-- A second period ends before the first has been fetched, and the rate is set to 512. -/
def twoPeriods : List WireEvent :=
  [.enablePie, .interrupts (.enableIrq 8), .period, .interrupts .acknowledge, .period, .handler,
    .interrupts .endOfInterrupt, .interrupts .endOfInterrupt, .interrupts .iret,
    .writeDevice (some 512), .period]

theorem twoPeriods_run : (wired none).Run biosClock twoPeriods
    (twoPeriods.foldl (wired none).next biosClock) :=
  .of_eachStep (by decide +kernel)

theorem twoPeriods_set :
    (twoPeriods.foldl (wired none).next biosClock).registers.frequency =
      (twoPeriods.foldl (wired none).next biosClock).rtc.physicalRate :=
  (clock_runs_as_set twoPeriods_run (by decide)).1

theorem twoPeriods_never_stall :
    let s := twoPeriods.foldl (wired none).next biosClock
    s.registers.line = true →
      s.interrupts.pics.requested IRQ_NUMBER_REAL_TIME_CLOCK = true ∨ s.Fetching :=
  (clock_never_stalls twoPeriods_run (by decide)).1

end Runs

end LightOS.Rtc
