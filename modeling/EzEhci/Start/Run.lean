import EzEhci.Runner.Ticks
import EzEhci.Runner.World

/-!
# The runner from its creation

`Runner::run` waits for a start request, stops and resets the controller, sets
it up and serves it from then on. `RunWorld` is the driver with the runner
somewhere in this loop and the callers of `EhciControl::start`. The steps of
the clients and the interrupt handler fall between any two ticks of a poll, and
between the polls. The readings of registers, of the clock and of timers are
part of a tick.
-/

namespace EzEhci

open Lib

/-- `Duration::MAX` in nanoseconds. -/
def durationMax : Nat := 2 ^ 64 * 10 ^ 9 - 1

/-- The sum of two durations; it panics if there is no such `Duration`. -/
def addDuration (a b : Nat) : Option Nat := if a + b ≤ durationMax then some (a + b) else none

/-- `PollStrategy`; durations are in nanoseconds. -/
structure PollStrategy where
  checkInterval : Nat
  timeout : Nat
  deriving DecidableEq, Repr

structure StartConfig where
  stopStrategy : PollStrategy
  resetStrategy : PollStrategy
  ctrlDsSegment : CtrlDsSegment
  periodicFrameListMem : MappedMem
  qh : MappedMem

inductive ControlReq where
  | start (config : StartConfig)

structure ControlSharedState (W : Type) where
  reqSignal : Signal W ControlReq
  resSignal : Signal W (Except DriverError Unit)

def ControlSharedState.default {W : Type} : ControlSharedState W := ⟨.none, .none⟩

/-- `RunnerState`; what the runner owns while it is running is in `RunnerWorld`. -/
inductive RunnerState where
  | stopped (error : Option DriverError)
  | stopping (startTime : Nat) (startConfig : StartConfig)
  | resetting (startTime : Nat) (startConfig : StartConfig)
  | running

def RunnerState.isRunning : RunnerState → Bool
  | .running => true
  | _ => false

def RunnerState.isStarting : RunnerState → Bool
  | .stopping _ _ | .resetting _ _ => true
  | _ => false

inductive OpRegWrite where
  | usbCmd (v : UsbCmdReg)
  | usbSts (v : UsbStsReg)
  | usbIntr (v : UsbIntrReg)
  | ctrlDsSegment (v : BitVec 32)
  | periodicListBase (v : BitVec 32)
  | asyncListAddr (v : AsyncListAddrReg)
  | configFlag (v : ConfigFlagReg)
  deriving DecidableEq, Repr

/-- What one iteration of the loop reads: the clock, USBSTS, USBCMD (with the two updates of it that
turn on the schedules), a capability, and whether the timer awaited is over. -/
structure StartReadings where
  now : Nat
  usbSts : UsbStsReg
  usbCmd : UsbCmdReg
  usbCmdPeriodic : UsbCmdReg
  usbCmdAsync : UsbCmdReg
  addressingCap64 : Bool
  delayReady : Bool
  deriving DecidableEq, Repr

inductive RunPc where
  | enter
  | waitReq
  | delay
  | running (pc : PollPc)
  deriving DecidableEq, Repr

/-- Where a poll that returned at this point goes on. -/
def RunPc.resumes : RunPc → RunPc
  | .running _ => .running .register
  | pc => pc

/-- A point in the loop and the state of the runner there. -/
def RunPc.Fits (state : RunnerState) : RunPc → Prop
  | .enter => True
  | .waitReq => ∃ error, state = .stopped error
  | .delay => state.isStarting = true
  | .running _ => state = .running

/-- What is recorded of the callers of `start` and of the runner's dealings with them. -/
inductive StartEvent where
  | called (config : StartConfig)
  | returned (result : Except DriverError Unit)
  | dropped
  | consumed (config : StartConfig)
  | answered (result : Except DriverError Unit)

/-- A call of `start` is in progress. -/
def startActive (log : List StartEvent) : Bool :=
  log.foldl (fun b e => match e with
    | .called _ => true
    | .returned _ | .dropped => false
    | _ => b) false

structure RunWorld (W : Type) where
  state : RunnerState
  control : ControlSharedState W
  driver : DriverWorld W
  delayUntil : Nat
  written : List OpRegWrite
  /-- Where the next poll goes on. -/
  resume : RunPc
  poll : Option (W × RunPc)
  log : List StartEvent

namespace RunWorld

variable {W : Type} [Wakers W]

def wake (s : RunWorld W) (waker : Option W) : RunWorld W :=
  { s with driver := { s.driver with runner := s.driver.runner.wake waker } }

/-! ## The runner -/

def write (s : RunWorld W) (regs : List OpRegWrite) : RunWorld W := { s with written := s.written ++ regs }

/-- `res_signal.signal`. -/
def respond (s : RunWorld W) (result : Except DriverError Unit) : RunWorld W :=
  let r := s.control.resSignal.signal result
  wake { s with
    control := { s.control with resSignal := r.1 }
    log := s.log ++ [.answered result] } r.2

/-- A check that failed: the wait goes on until the next check, or the timeout is over. -/
def checkAgain (s : RunWorld W) (now startTime : Nat) (strategy : PollStrategy) (error : DriverError) :
    Option (RunWorld W × RunPc) :=
  if now < startTime then none
  else if now - startTime ≥ strategy.timeout then
    some ({ s with state := .stopped (some error) }.respond (.error error), .enter)
  else do
    let nextCheck ← addDuration now strategy.checkInterval
    let deadline ← addDuration startTime strategy.timeout
    some ({ s with delayUntil := min nextCheck deadline }, .delay)

/-- `RunnerState::Stopping`. -/
def checkHalted (s : RunWorld W) (rds : StartReadings) (startTime : Nat) (config : StartConfig) :
    Option (RunWorld W × RunPc) :=
  if rds.usbSts.hcHalted then
    some ({ s with state := .resetting rds.now config }.write [.usbCmd (rds.usbCmd.withHcReset true)], .enter)
  else s.checkAgain rds.now startTime config.stopStrategy .stopTimeout

/-- The value that clears every status bit of USBSTS. -/
def clearUsbSts : UsbStsReg := handlerBits.foldl UsbStsReg.set .zero

/-- What the runner owns when it starts running. -/
def startRunning (r : RunnerWorld W) (config : StartConfig) (heap : Heap QhWithMetaA)
    (usbCmd : UsbCmdReg) : RunnerWorld W :=
  { r with
    resettingDevice := none
    addrAllocator := .default
    ctrlDsSegment := config.ctrlDsSegment
    async := ⟨heap, .new config.qh config.ctrlDsSegment, usbCmd, r.async.rung, r.async.sent⟩
    devices := []
    periodic := ⟨r.periodic.heap, .new .empty config.ctrlDsSegment⟩
    interruptEndpoints := []
    controlEndpoints := [] }

def setUp (s : RunWorld W) (rds : StartReadings) (config : StartConfig) : Option (RunWorld W) := do
  let seg := config.ctrlDsSegment
  if seg.baseAddrUpper ≠ 0 ∧ !rds.addressingCap64 then none
  let s := s.write [.ctrlDsSegment seg.baseAddrUpper, .usbSts clearUsbSts, .usbIntr .enabled]
  let periodicListBase ← getAddrOffset config.periodicFrameListMem.physAddr seg
  let s := s.write [.periodicListBase periodicListBase, .usbCmd (rds.usbCmd.withRs true),
    .configFlag .configured, .usbCmd (rds.usbCmdPeriodic.withPeriodicScheduleEnable true)]
  let qhAddrOffset ← getAddrOffset config.qh.physAddr seg
  let heap ← writeAnchor s.driver.runner.async.heap config.qh seg
  let usbCmd := rds.usbCmdAsync.withAsyncScheduleEnable true
  let s := s.write [.asyncListAddr (.new qhAddrOffset), .usbCmd usbCmd]
  some { s with
    state := .running
    driver := { s.driver with runner := startRunning s.driver.runner config heap usbCmd } }

/-- `RunnerState::Resetting`. -/
def checkReset (s : RunWorld W) (rds : StartReadings) (startTime : Nat) (config : StartConfig) :
    Option (RunWorld W × RunPc) :=
  if !rds.usbCmd.hcReset then (s.setUp rds config).map fun s => (s.respond (.ok ()), .enter)
  else s.checkAgain rds.now startTime config.resetStrategy .resetTimeout

/-- One iteration of the loop, up to its wait. -/
def enter (s : RunWorld W) (rds : StartReadings) : Option (RunWorld W × RunPc) :=
  match s.state with
  | .stopped _ => some (s, .waitReq)
  | .stopping startTime config => s.checkHalted rds startTime config
  | .resetting startTime config => s.checkReset rds startTime config
  | .running => some (s, .running .register)

/-- A start request was taken: stop the controller. -/
def startStopping (s : RunWorld W) (rds : StartReadings) : ControlReq → RunWorld W
  | .start config =>
    write { s with
      state := .stopping rds.now config
      log := s.log ++ [.consumed config] } [.usbCmd (rds.usbCmd.withRs false)]

def pollReq (s : RunWorld W) (w : W) (rds : StartReadings) : RunWorld W × Option RunPc :=
  let r := s.control.reqSignal.pollWait w
  let s := { s with control := { s.control with reqSignal := r.state } }.wake r.woken
  match r.ready with
  | some req => (s.startStopping rds req, some .enter)
  | none => (s, none)

/-- The next step of a poll; the poll returns if no program counter is left. -/
def tick (oc : OverflowChecks) (w : W) (rds : StartReadings) (reset : ResetReadings) (s : RunWorld W) :
    RunPc → Option (RunWorld W × Option RunPc)
  | .enter => (s.enter rds).map fun t => (t.1, some t.2)
  | .waitReq => some (s.pollReq w rds)
  | .delay => some (s, if rds.delayReady then some .enter else none)
  | .running pc => (s.driver.runner.tick oc w reset pc).map fun t =>
    ({ s with driver := { s.driver with runner := t.1 } }, t.2.map .running)

/-! ## What a tick does -/

inductive Ticked (oc : OverflowChecks) (w : W) (rds : StartReadings) (reset : ResetReadings)
    (s : RunWorld W) : RunPc → RunWorld W → Option RunPc → Prop
  | idle {error : Option DriverError} (hstate : s.state = .stopped error) :
      Ticked oc w rds reset s .enter s (some .waitReq)
  | halted {startTime : Nat} {config : StartConfig} (hstate : s.state = .stopping startTime config)
      (hread : rds.usbSts.hcHalted = true) :
      Ticked oc w rds reset s .enter
        ({ s with state := .resetting rds.now config }.write [.usbCmd (rds.usbCmd.withHcReset true)])
        (some .enter)
  | isReset {startTime : Nat} {config : StartConfig} {m : RunWorld W}
      (hstate : s.state = .resetting startTime config) (hread : rds.usbCmd.hcReset = false)
      (hm : s.setUp rds config = some m) :
      Ticked oc w rds reset s .enter (m.respond (.ok ())) (some .enter)
  | timedOut {startTime : Nat} {config : StartConfig} {error : DriverError}
      (hstate : s.state = .stopping startTime config ∧ error = .stopTimeout ∧
          config.stopStrategy.timeout ≤ rds.now - startTime ∧ rds.usbSts.hcHalted = false ∨
        s.state = .resetting startTime config ∧ error = .resetTimeout ∧
          config.resetStrategy.timeout ≤ rds.now - startTime ∧ rds.usbCmd.hcReset = true) :
      Ticked oc w rds reset s .enter ({ s with state := .stopped (some error) }.respond (.error error))
        (some .enter)
  | delays {startTime : Nat} {config : StartConfig} {strategy : PollStrategy}
      (hstate : s.state = .stopping startTime config ∧ strategy = config.stopStrategy ∧
          rds.usbSts.hcHalted = false ∨
        s.state = .resetting startTime config ∧ strategy = config.resetStrategy ∧
          rds.usbCmd.hcReset = true)
      (hnow : startTime ≤ rds.now) (htime : rds.now - startTime < strategy.timeout) :
      Ticked oc w rds reset s .enter
        { s with delayUntil := min (rds.now + strategy.checkInterval) (startTime + strategy.timeout) }
        (some .delay)
  | runs (hstate : s.state = .running) : Ticked oc w rds reset s .enter s (some (.running .register))
  | taken {req : ControlReq} (hreq : s.control.reqSignal.value? = some req) :
      Ticked oc w rds reset s .waitReq
        (({ s with control := { s.control with
            reqSignal := (s.control.reqSignal.pollWait w).state } }.wake
          (s.control.reqSignal.pollWait w).woken).startStopping rds req) (some .enter)
  | noReq (hreq : s.control.reqSignal.value? = none) :
      Ticked oc w rds reset s .waitReq
        ({ s with control := { s.control with
            reqSignal := (s.control.reqSignal.pollWait w).state } }.wake
          (s.control.reqSignal.pollWait w).woken) none
  | delayed {pc' : Option RunPc} (hdelay : pc' = if rds.delayReady then some .enter else none) :
      Ticked oc w rds reset s .delay s pc'
  | running {pc : PollPc} {pc' : Option PollPc} {r : RunnerWorld W}
      (hr : s.driver.runner.tick oc w reset pc = some (r, pc')) :
      Ticked oc w rds reset s (.running pc) { s with driver := { s.driver with runner := r } }
        (pc'.map .running)

section Ticked

variable {oc : OverflowChecks} {w : W} {rds : StartReadings} {reset : ResetReadings} {s s' : RunWorld W}

theorem addDuration_eq_some {a b c : Nat} (h : addDuration a b = some c) : c = a + b := by
  unfold addDuration at h
  split at h <;> cases h
  rfl

theorem checkAgain_eq_some {startTime : Nat} {strategy : PollStrategy} {error : DriverError} {pc : RunPc}
    (h : s.checkAgain rds.now startTime strategy error = some (s', pc)) :
    (strategy.timeout ≤ rds.now - startTime ∧ pc = .enter ∧
      s' = { s with state := .stopped (some error) }.respond (.error error)) ∨
    (startTime ≤ rds.now ∧ rds.now - startTime < strategy.timeout ∧ pc = .delay ∧
      s' = { s with
        delayUntil := min (rds.now + strategy.checkInterval) (startTime + strategy.timeout) }) := by
  unfold checkAgain at h
  split at h
  · cases h
  next hnow =>
    split at h
    next htimeout =>
      cases h
      exact .inl ⟨htimeout, rfl, rfl⟩
    next htime =>
      obtain ⟨nextCheck, hnext, h⟩ := Option.bind_eq_some_iff.mp h
      obtain ⟨deadline, hdeadline, h⟩ := Option.bind_eq_some_iff.mp h
      cases h
      rw [addDuration_eq_some hnext, addDuration_eq_some hdeadline]
      exact .inr ⟨by omega, by omega, rfl, rfl⟩

omit [Wakers W] in
theorem setUp_eq_some {config : StartConfig} {m : RunWorld W} (h : s.setUp rds config = some m) :
    ∃ heap usbCmd regs, m = { s with
      state := .running
      driver := { s.driver with runner := startRunning s.driver.runner config heap usbCmd }
      written := s.written ++ regs } := by
  simp only [setUp, Option.bind_eq_bind] at h
  split at h
  · cases h
  · obtain ⟨base, -, h⟩ := Option.bind_eq_some_iff.mp h
    obtain ⟨offset, -, h⟩ := Option.bind_eq_some_iff.mp h
    obtain ⟨heap, -, h⟩ := Option.bind_eq_some_iff.mp h
    simp only [write, List.append_assoc] at h
    cases h
    exact ⟨heap, _, _, rfl⟩

theorem Ticked.of_enter {pc : RunPc} (h : s.enter rds = some (s', pc)) :
    Ticked oc w rds reset s .enter s' (some pc) := by
  unfold enter at h
  split at h
  next error hstate =>
    cases h
    exact .idle hstate
  next startTime config hstate =>
    unfold checkHalted at h
    split at h
    next hread =>
      cases h
      exact .halted hstate hread
    next hread =>
      rw [Bool.not_eq_true] at hread
      rcases checkAgain_eq_some h with ⟨htimeout, rfl, rfl⟩ | ⟨hnow, htime, rfl, rfl⟩
      · exact .timedOut (.inl ⟨hstate, rfl, htimeout, hread⟩)
      · exact .delays (.inl ⟨hstate, rfl, hread⟩) hnow htime
  next startTime config hstate =>
    unfold checkReset at h
    split at h
    next hread =>
      obtain ⟨m, hm, he⟩ := Option.map_eq_some_iff.mp h
      cases he
      exact .isReset hstate (by simpa using hread) hm
    next hread =>
      have hread : rds.usbCmd.hcReset = true := by simpa using hread
      rcases checkAgain_eq_some h with ⟨htimeout, rfl, rfl⟩ | ⟨hnow, htime, rfl, rfl⟩
      · exact .timedOut (.inr ⟨hstate, rfl, htimeout, hread⟩)
      · exact .delays (.inr ⟨hstate, rfl, hread⟩) hnow htime
  next hstate =>
    cases h
    exact .runs hstate

/-- **Inversion of a tick.** -/
theorem Ticked.of_tick {pc : RunPc} {pc' : Option RunPc} (h : s.tick oc w rds reset pc = some (s', pc')) :
    Ticked oc w rds reset s pc s' pc' := by
  cases pc with
  | enter =>
    obtain ⟨⟨m, pc⟩, hm, he⟩ := Option.map_eq_some_iff.mp h
    cases he
    exact .of_enter hm
  | waitReq =>
    simp only [tick, pollReq, Signal.ready_pollWait] at h
    split at h
    next req hreq =>
      cases h
      exact .taken hreq
    next hreq =>
      cases h
      exact .noReq hreq
  | delay =>
    cases h
    exact .delayed rfl
  | running pc =>
    obtain ⟨⟨r, pc'⟩, hr, he⟩ := Option.map_eq_some_iff.mp h
    cases he
    exact .running hr

end Ticked

end RunWorld

/-! ## The driver -/

/-- The runner is polled at once. -/
def DriverLabel.isPoll {W : Type} : DriverLabel W → Bool
  | .poll _ _ => true
  | _ => false

inductive RunLabel (W : Type) where
  | client (a : DriverLabel W)
  | pollReset (i : Nat) (w : W)
  | callStart (config : StartConfig)
  | pollStart (w : W)
  | dropStart
  | startPoll (w : W)
  | tick (rds : StartReadings) (reset : ResetReadings)

namespace RunWorld

variable {W : Type} [Wakers W]

def callStart (s : RunWorld W) (config : StartConfig) : RunWorld W :=
  let r := s.control.reqSignal.signal (.start config)
  wake { s with
    control := { s.control with reqSignal := r.1 }
    log := s.log ++ [.called config] } r.2

def pollStart (s : RunWorld W) (w : W) : RunWorld W :=
  let r := s.control.resSignal.pollWait w
  wake { s with
    control := { s.control with resSignal := r.state }
    log := s.log ++ r.ready.toList.map .returned } r.woken

def pollReset (s : RunWorld W) (i : Nat) (w : W) : RunWorld W :=
  let r := s.driver.runner
  let p := (r.rootPorts i).resSignal.pollWait w
  { s with driver := { s.driver with
      runner := { r with rootPorts := r.rootPorts.modify i fun sh => { sh with resSignal := p.state } } } }.wake
    p.woken

/-- The runner is created, with no request made. -/
def new (driver : DriverWorld W) : RunWorld W := ⟨.stopped none, .default, driver, 0, [], .enter, none, []⟩

/-- One step of the driver; `none` if it is not enabled, or if the runner panics. -/
def step (oc : OverflowChecks) (s : RunWorld W) : RunLabel W → Option (RunWorld W)
  | .client a => if a.isPoll then none else (s.driver.step oc a).map fun driver => { s with driver }
  | .pollReset i w => some (s.pollReset i w)
  | .callStart config => if startActive s.log then none else some (s.callStart config)
  | .pollStart w => if startActive s.log then some (s.pollStart w) else none
  | .dropStart => if startActive s.log then some { s with log := s.log ++ [.dropped] } else none
  | .startPoll w =>
    if s.poll.isNone ∧ Wakers.task w = s.driver.runner.runnerTask then
      some { s with
        driver := { s.driver with runner := s.driver.runner.startPoll }
        poll := some (w, s.resume) }
    else none
  | .tick rds reset =>
    match s.poll with
    | none => none
    | some (w, pc) => (s.tick oc w rds reset pc).map fun t => { t.1 with
        poll := t.2.map (w, ·)
        resume := if t.2.isSome then s.resume else pc.resumes }

/-! ## What a step does -/

/-- What each step changes, and when it is enabled. -/
inductive Stepped (oc : OverflowChecks) (s : RunWorld W) : RunLabel W → RunWorld W → Prop
  | client {a : DriverLabel W} (driver : DriverWorld W) (ha : a.isPoll = false)
      (hd : s.driver.step oc a = some driver) : Stepped oc s (.client a) { s with driver }
  | pollReset (i : Nat) (w : W) : Stepped oc s (.pollReset i w) (s.pollReset i w)
  | callStart (config : StartConfig) (hidle : startActive s.log = false) :
      Stepped oc s (.callStart config) (s.callStart config)
  | pollStart (w : W) (hactive : startActive s.log = true) : Stepped oc s (.pollStart w) (s.pollStart w)
  | dropStart (hactive : startActive s.log = true) :
      Stepped oc s .dropStart { s with log := s.log ++ [.dropped] }
  | startPoll (w : W) (hnone : s.poll = none) (hw : Wakers.task w = s.driver.runner.runnerTask) :
      Stepped oc s (.startPoll w) { s with
        driver := { s.driver with runner := s.driver.runner.startPoll }
        poll := some (w, s.resume) }
  | tick {rds : StartReadings} {reset : ResetReadings} {w : W} {pc : RunPc} {m : RunWorld W}
      {pc' : Option RunPc} (hpoll : s.poll = some (w, pc)) (ht : Ticked oc w rds reset s pc m pc') :
      Stepped oc s (.tick rds reset) { m with
        poll := pc'.map (w, ·)
        resume := if pc'.isSome then s.resume else pc.resumes }

/-- **Inversion of a step.** -/
theorem Stepped.of_step {oc : OverflowChecks} {s s' : RunWorld W} {a : RunLabel W}
    (h : s.step oc a = some s') : Stepped oc s a s' := by
  cases a with
  | client a =>
    obtain ⟨ha, h⟩ := Option.ite_none_left_eq_some.mp h
    obtain ⟨driver, hd, rfl⟩ := Option.map_eq_some_iff.mp h
    exact .client driver (eq_false_of_ne_true ha) hd
  | pollReset i w =>
    cases h
    exact .pollReset i w
  | callStart config =>
    obtain ⟨hidle, h⟩ := Option.ite_none_left_eq_some.mp h
    cases h
    exact .callStart config (eq_false_of_ne_true hidle)
  | pollStart w =>
    obtain ⟨hactive, h⟩ := Option.ite_none_right_eq_some.mp h
    cases h
    exact .pollStart w hactive
  | dropStart =>
    obtain ⟨hactive, h⟩ := Option.ite_none_right_eq_some.mp h
    cases h
    exact .dropStart hactive
  | startPoll w =>
    obtain ⟨⟨hnone, hw⟩, h⟩ := Option.ite_none_right_eq_some.mp h
    cases h
    exact .startPoll w (Option.isNone_iff_eq_none.mp hnone) hw
  | tick rds reset =>
    simp only [step] at h
    split at h
    next => cases h
    next w pc hpoll =>
      obtain ⟨⟨m, pc'⟩, hm, rfl⟩ := Option.map_eq_some_iff.mp h
      exact .tick hpoll (.of_tick hm)

/-! ## Where the runner is -/

section Place

variable {oc : OverflowChecks} {s s' : RunWorld W}

/-- The runner is, or will go on, where its state says. -/
structure InPlace (s : RunWorld W) : Prop where
  resume : s.poll = none → s.resume.Fits s.state
  poll : ∀ w pc, s.poll = some (w, pc) → pc.Fits s.state

theorem Ticked.stays {w : W} {rds : StartReadings} {reset : ResetReadings} {pc : RunPc}
    {pc' : Option RunPc} (ht : Ticked oc w rds reset s pc s' pc') (hpc : pc.Fits s.state)
    (h : s.state = .running) : s'.state = .running := by
  cases ht with
  | idle hstate => rw [h] at hstate; cases hstate
  | halted hstate => rw [h] at hstate; cases hstate
  | isReset hstate => rw [h] at hstate; cases hstate
  | timedOut hstate => rcases hstate with ⟨hs, -⟩ | ⟨hs, -⟩ <;> (rw [h] at hs; cases hs)
  | taken =>
    obtain ⟨error, hstate⟩ := hpc
    rw [h] at hstate
    cases hstate
  | noReq | delays | runs | delayed | running => exact h

theorem Ticked.fits {w : W} {rds : StartReadings} {reset : ResetReadings} {pc : RunPc}
    {pc' : Option RunPc} (ht : Ticked oc w rds reset s pc s' pc') (hpc : pc.Fits s.state) :
    pc'.elim (pc.resumes.Fits s'.state) (·.Fits s'.state) := by
  cases ht with
  | idle hstate => exact ⟨_, hstate⟩
  | delays hstate =>
    show RunnerState.isStarting _ = true
    rcases hstate with ⟨hs, -⟩ | ⟨hs, -⟩ <;> (rw [hs]; rfl)
  | runs hstate => exact hstate
  | noReq => exact hpc
  | @delayed pc' h =>
    rw [h]
    split
    · trivial
    · exact hpc
  | @running pc pc' r hr => cases pc' <;> exact hpc
  | halted | isReset | timedOut | taken => trivial

theorem InPlace.step (h : s.InPlace) {a : RunLabel W} (hs : s.step oc a = some s') :
    s'.InPlace ∧ (s.state = .running → s'.state = .running) := by
  cases Stepped.of_step hs with
  | client | pollReset | callStart | pollStart | dropStart => exact ⟨⟨h.resume, h.poll⟩, id⟩
  | startPoll w hnone hw =>
    refine ⟨⟨nofun, fun w' pc hpoll => ?_⟩, id⟩
    cases hpoll
    exact h.resume hnone
  | @tick _ _ w pc m pc' hpoll ht =>
    have hpc := h.poll w pc hpoll
    have hfits := ht.fits hpc
    refine ⟨⟨fun hnone => ?_, fun w' pc'' hp => ?_⟩, ht.stays hpc⟩
    · obtain rfl : pc' = none := Option.map_eq_none_iff.mp hnone
      exact hfits
    · obtain ⟨pc₁, rfl, he⟩ := Option.map_eq_some_iff.mp hp
      cases he
      exact hfits

end Place

/-! ## A run -/

/-- A configuration: the controller halts within 2 ns and is reset within 10. -/
def exampleConfig : StartConfig :=
  ⟨⟨1, 2⟩, ⟨1, 10⟩, .lower4G, ⟨0x6000, 0x6000⟩, ⟨0x1000, 0x1000⟩⟩

/-- At time `now`, the controller is halted or not and its reset is over. -/
def exampleReadings (now : Nat) (halted : Bool) : StartReadings :=
  ⟨now, ⟨setBit 12 halted 0⟩, ⟨0⟩, ⟨0⟩, ⟨0⟩, true, true⟩

def exampleTicks (n now : Nat) (halted : Bool) : List (RunLabel TaskWaker) :=
  List.replicate n (.tick (exampleReadings now halted) DriverWorld.exampleReadings)

/-- A call of `start`, and the poll in which the controller starts running. -/
def exampleStart : List (RunLabel TaskWaker) :=
  .callStart exampleConfig :: .startPoll ⟨0⟩ :: exampleTicks 4 0 true

end RunWorld

end EzEhci
