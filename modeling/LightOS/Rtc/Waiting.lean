import LightOS.Lib.Countdown
import LightOS.Rtc.Driver

/-! # How long a read waits

Each counter stays between 0 and 512, and while a call of `rtc_read` is in its loop only
ticks change the counter of its terminal.  So the call leaves the loop with its first check
after as many ticks as it has stored, whatever the other terminals do with their clocks.
-/

namespace LightOS.Rtc

open Lib Kernel

/-- The rates `rtc_write` accepts. -/
def rates : List Int := [2, 4, 8, 16, 32, 64, 128, 256, 512, 1024]

/-- The values the loop of `rtc_write` compares with, `rounds` rounds from its end. -/
def compared (i : Int) : Nat → List Int
  | 0 => []
  | rounds + 1 => if i < 1030 then i :: compared (i * 2) rounds else []

theorem isRate_compared {rate : Int} (i : Int) (rounds : Nat) :
    isRate rate i rounds = true ↔ rate ∈ compared i rounds := by
  induction rounds generalizing i with
  | zero => simp [isRate, compared]
  | succ rounds ih =>
      rw [isRate, compared]
      split
      case isTrue below => grind
      case isFalse above => simp

theorem acceptedRate_spec {buf : Option Int} {rate : Int} :
    acceptedRate buf = some rate ↔ buf = some rate ∧ rate ∈ rates := by
  have all : compared 2 31 = rates := by decide
  have within : ∀ r ∈ rates, ¬ (r < 2 ∨ 1024 < r) := by decide
  cases buf with
  | none => simp [acceptedRate]
  | some value =>
      have found : isRate value 2 31 = true ↔ value ∈ compared 2 31 := isRate_compared 2 31
      rw [all] at found
      grind [acceptedRate]

/-- What is stored for a rate. -/
theorem tdiv_rate {rate : Int} (valid : rate ∈ rates) :
    Int.tdiv 1024 rate = 1024 / rate ∧ 1 ≤ 1024 / rate ∧ 1024 / rate ≤ 512 ∧ rate ≠ 0 := by
  simp only [rates, List.mem_cons, List.not_mem_nil, or_false] at valid
  rcases valid with rfl | rfl | rfl | rfl | rfl | rfl | rfl | rfl | rfl | rfl <;> decide

/-- The ticks among the events of a run. -/
def Event.isTick : Event → Bool
  | .tick => true
  | _ => false

/-- What the clocks keep. -/
structure Valid (rtc : Device) : Prop where
  physicalRate : rtc.physicalRate = 1024
  rate : ∀ t, rtc.virtualRate t ∈ rates
  count : ∀ t, 0 ≤ rtc.virtualCount t ∧ rtc.virtualCount t ≤ 512

theorem Valid.rtcHandler {rtc : Device} (valid : Valid rtc) : Valid rtc.rtcHandler where
  physicalRate := valid.physicalRate
  rate := valid.rate
  count t := by
    have range := valid.count t
    simp only [Device.rtcHandler]
    split <;> omega

/-- One terminal gets a rate that is accepted. -/
theorem Valid.setRate {rtc : Device} (valid : Valid rtc) (t : TerminalId) {rate : Int}
    (accepted : rate ∈ rates) :
    Valid { rtc with virtualRate := Function.update rtc.virtualRate t rate } where
  physicalRate := valid.physicalRate
  rate u := by
    by_cases same : u = t
    · simpa [same] using accepted
    · simpa [same] using valid.rate u
  count := valid.count

/-- One counter gets the count of a rate that is accepted. -/
theorem Valid.setCount {rtc : Device} (valid : Valid rtc) (t : TerminalId) {rate : Int}
    (accepted : rate ∈ rates) :
    Valid { rtc with virtualCount := Function.update rtc.virtualCount t (1024 / rate) } where
  physicalRate := valid.physicalRate
  rate := valid.rate
  count u := by
    have stored := tdiv_rate accepted
    have range := valid.count u
    by_cases same : u = t
    · subst same
      simp only [Function.update_self]
      omega
    · simpa [same] using range

namespace Clock

variable {s : Clock} {t : TerminalId}

/-- No division by zero: the store goes through. -/
theorem storeCount_valid (valid : Valid s.rtc) (pc : RtcPc) :
    s.storeCount pc =
      { s with
        rtc := { s.rtc with
          virtualCount := Function.update s.rtc.virtualCount s.activeTerminal
            (1024 / s.rtc.virtualRate s.activeTerminal) }
        call := Function.update s.call s.activeTerminal pc } := by
  obtain ⟨stored, _, _, nonzero⟩ := tdiv_rate (valid.rate s.activeTerminal)
  simp only [storeCount, nonzero, ↓reduceIte, setCall, valid.physicalRate, stored]

theorem storeCount_keeps (valid : Valid s.rtc) (pc : RtcPc) : Valid (s.storeCount pc).rtc := by
  rw [storeCount_valid valid]
  exact valid.setCount s.activeTerminal (valid.rate s.activeTerminal)

theorem rtcWrite_keeps (valid : Valid s.rtc) (buf : Option Int) : Valid (s.rtcWrite buf).rtc := by
  unfold rtcWrite
  cases accepted : acceptedRate buf with
  | none => exact valid
  | some rate => exact valid.setRate s.activeTerminal (acceptedRate_spec.mp accepted).2

theorem nextStatement_keeps (valid : Valid s.rtc) : Valid s.nextStatement.rtc := by
  simp only [nextStatement]
  cases s.call s.activeTerminal with
  | idle | returned => exact valid
  | storing => exact storeCount_keeps valid _
  | waiting =>
      dsimp only
      split
      · exact valid
      · exact valid

theorem step_keeps (bootBlock : Option Filesystem.Image) (valid : Valid s.rtc) (event : Event) :
    Valid (s.step bootBlock event).rtc := by
  cases event with
  | tick => exact valid.rtcHandler
  | process action => exact valid
  | files call => exact valid
  | read => exact storeCount_keeps valid .waiting
  | write buf => exact rtcWrite_keeps valid buf
  | next => exact nextStatement_keeps valid

/-- The calls of `rtc_read` and `rtc_write` do nothing to the kernel, and raise no exception. -/
theorem step_kernel (bootBlock : Option Filesystem.Image) (valid : Valid s.rtc) {event : Event}
    (notProcess : ∀ action, event ≠ .process action) (notFiles : ∀ call, event ≠ .files call) :
    (s.step bootBlock event).kernel = s.kernel := by
  cases event with
  | tick => rfl
  | process action => exact absurd rfl (notProcess action)
  | files call => exact absurd rfl (notFiles call)
  | read => simp only [step, rtcRead, storeCount_valid valid]
  | write buf =>
      simp only [step, rtcWrite]
      cases acceptedRate buf <;> rfl
  | next =>
      simp only [step, nextStatement]
      cases s.call s.activeTerminal with
      | idle | returned => rfl
      | storing => simp only [storeCount_valid valid]
      | waiting =>
          dsimp only
          split <;> rfl

/-- The call of `t` is in its loop. -/
def Waits (t : TerminalId) (s : Clock) : Prop := s.call t = .waiting

/-- What a call in its loop leaves to happen: the counter of its terminal goes down with
    every tick, and the loop is left only by the check that finds it 0. -/
theorem step_waiting (bootBlock : Option Filesystem.Image) (valid : Valid s.rtc) {event : Event}
    (able : s.able event) (waits : s.Waits t) :
    (s.step bootBlock event).Waits t ∧
        ((s.step bootBlock event).rtc.virtualCount t).toNat =
          (s.rtc.virtualCount t).toNat - (if event.isTick then 1 else 0) ∨
      event = .next ∧ s.activeTerminal = t ∧ s.rtc.virtualCount t = 0 := by
  have range := valid.count t
  unfold Waits at waits ⊢
  -- The terminals other than the active one are left alone.
  have elsewhere : (s.call s.activeTerminal).running = false → s.activeTerminal ≠ t := by
    intro stopped same
    rw [same, waits] at stopped
    cases stopped
  cases event with
  | tick =>
      refine .inl ⟨waits, ?_⟩
      simp only [step, Device.rtcHandler, Event.isTick, ↓reduceIte]
      split <;> omega
  | process action | files call => exact .inl ⟨waits, rfl⟩
  | read =>
      have other := (elsewhere able.2).symm
      simp [step, rtcRead, storeCount_valid valid, other, waits, Event.isTick]
  | write buf =>
      have other := (elsewhere able.2).symm
      simp only [step, rtcWrite]
      cases acceptedRate buf <;> simp [setCall, other, waits, Event.isTick]
  | next =>
      simp only [step, nextStatement]
      by_cases same : s.activeTerminal = t
      · simp only [same, waits]
        by_cases zero : s.rtc.virtualCount t = 0
        · exact .inr ⟨trivial, trivial, zero⟩
        · simp [zero, waits, Event.isTick]
      · have other : t ≠ s.activeTerminal := fun equal => same equal.symm
        cases call : s.call s.activeTerminal with
        | idle | returned => simp [waits, Event.isTick]
        | storing => simp [storeCount_valid valid, other, waits, Event.isTick]
        | waiting =>
            dsimp only
            split <;> simp [setCall, other, waits, Event.isTick]

end Clock

/-- Rates and counters stay in range along a run. -/
theorem valid_of_run {bootBlock : Option Filesystem.Image} {s later : Clock} {events : List Event}
    (run : (clocks bootBlock).Run s events later) (valid : Valid s.rtc) : Valid later.rtc :=
  run.invariant (I := fun s => Valid s.rtc)
    (fun _ event valid _ => Clock.step_keeps bootBlock valid event) valid

/-- The counter of a terminal whose call is in its loop counts the ticks. -/
theorem countdown (bootBlock : Option Filesystem.Image) (t : TerminalId) :
    Countdown (clocks bootBlock) (fun s => Valid s.rtc) (Clock.Waits t) Event.isTick
      (fun s => (s.rtc.virtualCount t).toNat) where
  keeps s event valid _ := Clock.step_keeps bootBlock valid event
  step s event valid able waits still := by
    rcases Clock.step_waiting bootBlock valid able waits with ⟨_, counted⟩ | ⟨rfl, here, zero⟩
    · exact counted
    · -- The check that leaves the loop: the call does not wait any more.
      have left : (s.step bootBlock .next).call t = .returned 0 := by
        subst here
        unfold Clock.Waits at waits
        simp [Clock.step, Clock.nextStatement, waits, zero, Clock.setCall]
      have still : (s.step bootBlock .next).call t = .waiting := still
      rw [left] at still
      cases still

/-- The call of `t` stays in its loop for exactly `ticks` ticks from here: in a run that it
    spends waiting, it is left by its own check only, not before that many ticks, and by the
    first check after them. -/
structure WaitsFor (bootBlock : Option Filesystem.Image) (s : Clock) (t : TerminalId)
    (ticks : Nat) : Prop where
  waits : s.Waits t
  notBefore : ∀ bs later event, (clocks bootBlock).Run s bs later →
    (clocks bootBlock).Always (Clock.Waits t) s bs → later.able event →
    ¬ (later.step bootBlock event).Waits t →
      event = .next ∧ later.activeTerminal = t ∧ ticks ≤ bs.countP Event.isTick
  after : ∀ bs later, (clocks bootBlock).Run s bs later →
    (clocks bootBlock).Always (Clock.Waits t) s bs → later.activeTerminal = t →
    ticks ≤ bs.countP Event.isTick → (later.step bootBlock .next).call t = .returned 0

/-- A call in its loop waits for as many ticks as its counter says. -/
theorem waitsFor_count {bootBlock : Option Filesystem.Image} {s : Clock} {t : TerminalId}
    (valid : Valid s.rtc) (waits : s.Waits t) :
    WaitsFor bootBlock s t (s.rtc.virtualCount t).toNat where
  waits := waits
  notBefore bs later event run stays able leaves := by
    have count := (countdown bootBlock t).run run valid stays
    rcases Clock.step_waiting bootBlock (valid_of_run run valid) able (run.always_last stays) with
      ⟨still, _⟩ | ⟨isNext, here, zero⟩
    · exact absurd still leaves
    · refine ⟨isNext, here, ?_⟩
      simp only [zero] at count
      omega
  after bs later run stays here enough := by
    have count := (countdown bootBlock t).run run valid stays
    have zero : later.rtc.virtualCount t = 0 := by
      have range := (valid_of_run run valid).count t
      omega
    have still : later.call t = .waiting := run.always_last stays
    subst here
    simp [Clock.step, Clock.nextStatement, still, zero, Clock.setCall]

/-- A row of ticks, in which a call stays in its loop. -/
theorem run_ticks (bootBlock : Option Filesystem.Image) {s : Clock} {t : TerminalId}
    (running : s.kernel.faulted = false) (waits : s.Waits t) (ticks : Nat) :
    ∃ later, (clocks bootBlock).Run s (List.replicate ticks .tick) later ∧
      (clocks bootBlock).Always (Clock.Waits t) s (List.replicate ticks .tick) ∧
      later.kernel = s.kernel ∧ later.Waits t := by
  induction ticks generalizing s with
  | zero => exact ⟨s, .nil s, waits, rfl, waits⟩
  | succ ticks ih =>
      obtain ⟨later, run, stays, same, still⟩ := @ih (s.step bootBlock .tick) running waits
      exact ⟨later, .cons ⟨running, trivial⟩ run, ⟨waits, stays⟩, same, still⟩

/-- A call in the active terminal waits for one number of ticks only. -/
theorem WaitsFor.unique {bootBlock : Option Filesystem.Image} {s : Clock} {first second : Nat}
    (running : s.kernel.faulted = false)
    (waitsFirst : WaitsFor bootBlock s s.activeTerminal first)
    (waitsSecond : WaitsFor bootBlock s s.activeTerminal second) : first = second := by
  have bounded {long short : Nat} (waitsLong : WaitsFor bootBlock s s.activeTerminal long)
      (waitsShort : WaitsFor bootBlock s s.activeTerminal short) : long ≤ short := by
    obtain ⟨later, run, stays, same, still⟩ := run_ticks bootBlock running waitsLong.waits short
    have here : later.activeTerminal = s.activeTerminal := by rw [Clock.activeTerminal, same]; rfl
    have count : (List.replicate short Event.tick).countP Event.isTick = short := by
      simp [List.countP_replicate, Event.isTick]
    have returned := waitsShort.after _ later run stays here (Nat.le_of_eq count.symm)
    have able : later.able .next := by
      have waiting : later.call s.activeTerminal = .waiting := still
      refine ⟨same ▸ running, ?_⟩
      rw [here, waiting]
      rfl
    have leaves : ¬ (later.step bootBlock .next).Waits s.activeTerminal := by
      rw [Clock.Waits, returned]
      simp
    exact count ▸ (waitsLong.notBefore _ later .next run stays able leaves).2.2
  exact Nat.le_antisymm (bounded waitsFirst waitsSecond) (bounded waitsSecond waitsFirst)

/-- Different rates have different counts. -/
theorem count_injective {first second : Int} (firstValid : first ∈ rates)
    (secondValid : second ∈ rates) (same : (1024 / first).toNat = (1024 / second).toNat) :
    first = second := by
  have all : ∀ a ∈ rates, ∀ b ∈ rates, (1024 / a).toNat = (1024 / b).toNat → a = b := by decide
  exact all first firstValid second secondValid same

/-- A read waits for as many ticks as the rate of its terminal asks for. -/
theorem read_waitsFor {bootBlock : Option Filesystem.Image} {s : Clock} (valid : Valid s.rtc) :
    WaitsFor bootBlock (s.step bootBlock .read) s.activeTerminal
      (1024 / s.rtc.virtualRate s.activeTerminal).toNat := by
  have stored := Clock.storeCount_valid valid .waiting
  have count : (s.step bootBlock .read).rtc.virtualCount s.activeTerminal =
      1024 / s.rtc.virtualRate s.activeTerminal := by
    simp [Clock.step, Clock.rtcRead, stored]
  have waits : (s.step bootBlock .read).Waits s.activeTerminal := by
    simp [Clock.Waits, Clock.step, Clock.rtcRead, stored]
  rw [← count]
  exact waitsFor_count (Clock.step_keeps bootBlock valid .read) waits

theorem Loaded.valid {s : Clock} (loaded : Loaded s) : Valid s.keyboardInit.rtc where
  physicalRate := loaded.physicalRate
  rate _ := by simp [Clock.keyboardInit, rates]
  count t := by
    have zero : s.keyboardInit.rtc.virtualCount t = 0 := loaded.virtualCount t
    omega

/-- Whatever the clock, the scheduler and the processes do after `keyboard_init`: the rates and
    counters stay in range, no call raises an exception, and a call of `rtc_read` returns after
    the ticks of its own rate. -/
theorem rtc_waits_exactly {bootBlock : Option Filesystem.Image} {start s : Clock}
    {as : List Event} (loaded : Loaded start)
    (run : (clocks bootBlock).Run start.keyboardInit as s) :
    (∀ t, s.rtc.virtualRate t ∈ rates ∧ 0 ≤ s.rtc.virtualCount t ∧ s.rtc.virtualCount t ≤ 512) ∧
    (∀ event, (∀ action, event ≠ .process action) → (∀ call, event ≠ .files call) →
      (s.step bootBlock event).kernel = s.kernel) ∧
    (s.able .read → WaitsFor bootBlock (s.step bootBlock .read) s.activeTerminal
      (1024 / s.rtc.virtualRate s.activeTerminal).toNat) := by
  have valid : Valid s.rtc := valid_of_run run loaded.valid
  exact ⟨fun t => ⟨valid.rate t, valid.count t⟩,
    fun _ notProcess notFiles => Clock.step_kernel bootBlock valid notProcess notFiles,
    fun _ => read_waitsFor valid⟩

/-- Switched on, with the values the globals of rtc.c are given. -/
def poweredClock : Clock where
  kernel := poweredOn
  rtc :=
    { rtcReadFlag := 0
      physicalRate := 1024
      virtualRate := fun _ => 0
      virtualCount := fun _ => 0 }
  call := fun _ => .idle

theorem poweredClock_loaded : Loaded poweredClock := ⟨rfl, fun _ => rfl, fun _ => rfl⟩

theorem write_then_read_waits : ∃ later,
    (clocks none).Run poweredClock.keyboardInit [.write (some 32), .tick, .next] later ∧
      WaitsFor none (later.step none .read) .terminal1 32 := by
  have run : (clocks none).Run poweredClock.keyboardInit [.write (some 32), .tick, .next] _ :=
    .cons ⟨rfl, rfl⟩ (.cons ⟨rfl, trivial⟩ (.cons ⟨rfl, rfl⟩ (.nil _)))
  exact ⟨_, run, (rtc_waits_exactly poweredClock_loaded run).2.2 ⟨rfl, rfl⟩⟩

end LightOS.Rtc
