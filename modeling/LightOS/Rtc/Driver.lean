import LightOS.Kernel.Sessions

/-! # The virtual real-time clocks

rtc.c: the physical clock ticks at 1024 Hz, and each terminal has a rate and a counter of its
own.  `rtc_read` sets the counter of the active terminal and waits until the interrupt
handler has counted it down; it is taken statement by statement, so that ticks and the
scheduler can come between any two of them.
-/

namespace LightOS.Rtc

open Lib Kernel

/-- The globals of rtc.c, and the fields of the terminals that it uses. -/
structure Device where
  rtcReadFlag : Int
  physicalRate : Int
  virtualRate : TerminalId → Int
  virtualCount : TerminalId → Int

/-- `rtc_handler` -/
def Device.rtcHandler (rtc : Device) : Device :=
  { rtc with
    rtcReadFlag := 0
    virtualCount := fun t =>
      if 0 < rtc.virtualCount t then rtc.virtualCount t - 1 else rtc.virtualCount t }

/-- The loop of `rtc_write` over the powers of 2, `rounds` rounds from its end. -/
def isRate (rate i : Int) : Nat → Bool
  | 0 => false
  | rounds + 1 => if i < 1030 then if i = rate then true else isRate rate (i * 2) rounds else false

/-- The checks of `rtc_write` on what `buf` points at; `buf` is `none` where it is NULL.  An
    `int32_t` can be doubled 31 times. -/
def acceptedRate (buf : Option Int) : Option Int :=
  match buf with
  | none => none
  | some rate =>
      if rate < 2 ∨ 1024 < rate then none else if isRate rate 2 31 then some rate else none

/-- The next statement of a call of `rtc_read` or `rtc_write`. -/
inductive RtcPc
  /-- No call yet. -/
  | idle
  /-- `while (active_terminal->virtual_count != 0)` -/
  | waiting
  /-- `active_terminal->virtual_count = …` in `rtc_write` -/
  | storing
  | returned (value : Int)
  deriving DecidableEq

def RtcPc.running : RtcPc → Bool
  | .idle | .returned _ => false
  | .waiting | .storing => true

/-- The kernel with its clocks, and at most one call under way in each terminal. -/
structure Clock where
  kernel : State
  rtc : Device
  call : TerminalId → RtcPc

/-- What can happen: an interrupt of the clock, a step of the scheduler or of a process, a call
    on the descriptors of the process that runs, a call that gets to its clock, and the next
    statement of that. -/
inductive Event
  | tick
  | process (action : Action)
  | files (call : Descriptor.Call)
  | read
  | write (buf : Option Int)
  | next

namespace Clock

def activeTerminal (s : Clock) : TerminalId := s.kernel.proc.activeTerminal

/-- `keyboard_init`, which also sets the rates. -/
def keyboardInit (s : Clock) : Clock :=
  { s with
    kernel := s.kernel.keyboardInit
    rtc := { s.rtc with virtualRate := fun _ => 2 } }

def setCall (s : Clock) (t : TerminalId) (pc : RtcPc) : Clock :=
  { s with call := Function.update s.call t pc }

/-- `active_terminal->virtual_count = physical_rate / active_terminal->virtual_rate`, and what
    comes after it. -/
def storeCount (s : Clock) (pc : RtcPc) : Clock :=
  let t := s.activeTerminal
  if s.rtc.virtualRate t = 0 then { s with kernel := s.kernel.exceptionHandler 0 }
  else
    { s with
      rtc := { s.rtc with
        virtualCount := Function.update s.rtc.virtualCount t
          (s.rtc.physicalRate.tdiv (s.rtc.virtualRate t)) } }.setCall t pc

/-- `rtc_read` up to its loop. -/
def rtcRead (s : Clock) : Clock := s.storeCount .waiting

/-- `rtc_write` up to its second store. -/
def rtcWrite (s : Clock) (buf : Option Int) : Clock :=
  let t := s.activeTerminal
  match acceptedRate buf with
  | none => s.setCall t (.returned (-1))
  | some rate =>
      { s with
        rtc := { s.rtc with virtualRate := Function.update s.rtc.virtualRate t rate } }.setCall t
          .storing

/-- The next statement of the call in the active terminal. -/
def nextStatement (s : Clock) : Clock :=
  let t := s.activeTerminal
  match s.call t with
  | .idle | .returned _ => s
  | .waiting => if s.rtc.virtualCount t ≠ 0 then s else s.setCall t (.returned 0)
  | .storing => s.storeCount (.returned 0)

/-- The control block of the process that runs. -/
def activePcb (s : Clock) : Pcb := s.kernel.proc.pcb s.kernel.proc.activePid

def setActivePcb (s : Clock) (pcb : Pcb) : Clock :=
  { s with
    kernel := { s.kernel with proc := s.kernel.proc.setPcb s.kernel.proc.activePid pcb } }

def step (bootBlock : Option Filesystem.Image) (s : Clock) : Event → Clock
  | .tick => { s with rtc := s.rtc.rtcHandler }
  | .process action => { s with kernel := s.kernel.step bootBlock action }
  | .files call => s.setActivePcb (call.run bootBlock s.activePcb).2
  | .read => s.rtcRead
  | .write buf => s.rtcWrite buf
  | .next => s.nextStatement

/-- A process makes one call after the other, and `execute` and `halt` are calls as well;
    the model ends at a fault. -/
def able (s : Clock) (event : Event) : Prop :=
  s.kernel.faulted = false ∧
    match event with
    | .tick => True
    | .process (.schedule _) => True
    | .process action =>
        action.OfProcesses ∧ s.kernel.able action ∧ (s.call s.activeTerminal).running = false
    | .files _ | .read | .write _ => (s.call s.activeTerminal).running = false
    | .next => (s.call s.activeTerminal).running = true

end Clock

/-- The kernel and its clocks, for one file-system image. -/
def clocks (bootBlock : Option Filesystem.Image) : Machine Clock Event where
  enabled := Clock.able
  next := Clock.step bootBlock

/-- The globals as the loader leaves them. -/
structure Loaded (s : Clock) : Prop where
  physicalRate : s.rtc.physicalRate = 1024
  virtualCount : ∀ t, s.rtc.virtualCount t = 0
  call : ∀ t, s.call t = .idle

end LightOS.Rtc
