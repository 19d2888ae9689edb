import EzEhci.Lib.Paced
import EzEhci.Lib.Trace
import EzEhci.Start.Run

/-!
# The start protocol

`StartWorld` is the driver from its creation with a clock that never runs
backwards and timers that do not fire early. It records what the runner does
with a start request: that it takes the request, its checks of the controller,
the ends of its delays, its writes to USBCMD and its response. The record is
observed from the states before and after a tick. `StartProtocol` says what a
request comes to: boundedly many checks, then one response, and a controller
reset only once it was read as halted.
-/

namespace EzEhci

open Lib

/-- What is recorded of the work on start requests. -/
inductive StartAct where
  | taken (config : StartConfig)
  | checkedHalted (halted : Bool)
  | checkedReset (isReset : Bool)
  | resumed
  | wroteUsbCmd (v : UsbCmdReg)
  | responded (result : Except DriverError Unit)

namespace StartAct

def isTaken : StartAct → Bool
  | .taken _ => true
  | _ => false

def isHaltedCheck : StartAct → Bool
  | .checkedHalted _ => true
  | _ => false

def isResetCheck : StartAct → Bool
  | .checkedReset _ => true
  | _ => false

def isResumed : StartAct → Bool
  | .resumed => true
  | _ => false

def response : StartAct → Option (Except DriverError Unit)
  | .responded result => some result
  | _ => none

/-- Work on a request: a check, or the end of the delay before the next one. -/
def isWork (e : StartAct) : Bool := e.isHaltedCheck || e.isResetCheck || e.isResumed

end StartAct

/-! ## What a record says -/

/-- The last request taken and what is recorded since. -/
def lastRequest (acts : List StartAct) : Option (StartConfig × List StartAct) :=
  acts.foldl (fun o e => match e with
    | .taken config => some (config, [])
    | e => o.map fun r => (r.1, r.2 ++ [e])) none

def haltedChecks (l : List StartAct) : Nat := l.countP StartAct.isHaltedCheck

def resetChecks (l : List StartAct) : Nat := l.countP StartAct.isResetCheck

def resumes (l : List StartAct) : Nat := l.countP StartAct.isResumed

def responses (l : List StartAct) : List (Except DriverError Unit) := l.filterMap StartAct.response

/-- HCRESET is set only once the controller was read as halted. -/
def ResetsHalted (l : List StartAct) (e : StartAct) : Prop :=
  ∀ v, e = .wroteUsbCmd v → v.hcReset = true → .checkedHalted true ∈ l

/-- The number of checks that a strategy allows. -/
def PollStrategy.maxChecks (p : PollStrategy) : Nat := p.timeout ⌈/⌉ p.checkInterval + 1

/-- What a request came to so far, by the record since it was taken. -/
structure RequestServed (config : StartConfig) (l : List StartAct) (state : RunnerState) : Prop where
  halted : haltedChecks l ≤ config.stopStrategy.maxChecks
  reset : resetChecks l ≤ config.resetStrategy.maxChecks
  delays : resumes l ≤ haltedChecks l + resetChecks l
  begun : state ≠ .stopped none
  starting : state.isStarting = true ↔ responses l = []
  running : state = .running ↔ responses l = [.ok ()]
  stopped : ∀ error, state = .stopped (some error) ↔ responses l = [.error error]
  timeouts : ∀ error, .error error ∈ responses l → error = .stopTimeout ∨ error = .resetTimeout
  last : ∀ result ∈ responses l, l.getLast? = some (.responded result)
  hcReset : Each ResetsHalted [] l

/-! ## The world -/

/-- What is asked of a configuration: the controller supports 64-bit addresses or not. -/
structure StartConfig.Valid (cap64 : Bool) (config : StartConfig) : Prop where
  stopInterval : 0 < config.stopStrategy.checkInterval
  resetInterval : 0 < config.resetStrategy.checkInterval
  periodicList : config.ctrlDsSegment.Contains config.periodicFrameListMem.physAddr
  qh : config.ctrlDsSegment.Contains config.qh.physAddr
  segment : config.ctrlDsSegment.baseAddrUpper ≠ 0 → cap64 = true

instance (cap64 : Bool) (config : StartConfig) : Decidable (config.Valid cap64) :=
  decidable_of_iff
    (0 < config.stopStrategy.checkInterval ∧ 0 < config.resetStrategy.checkInterval ∧
      config.ctrlDsSegment.Contains config.periodicFrameListMem.physAddr ∧
      config.ctrlDsSegment.Contains config.qh.physAddr ∧
      (config.ctrlDsSegment.baseAddrUpper ≠ 0 → cap64 = true))
    ⟨fun ⟨h1, h2, h3, h4, h5⟩ => ⟨h1, h2, h3, h4, h5⟩, fun ⟨h1, h2, h3, h4, h5⟩ => ⟨h1, h2, h3, h4, h5⟩⟩

def StartEvent.taken? : StartEvent → Option StartAct
  | .consumed config => some (.taken config)
  | _ => none

def StartEvent.responded? : StartEvent → Option StartAct
  | .answered result => some (.responded result)
  | _ => none

def OpRegWrite.usbCmd? : OpRegWrite → Option StartAct
  | .usbCmd v => some (.wroteUsbCmd v)
  | _ => none

namespace RunWorld

variable {W : Type} [Wakers W]

/-- The check a tick makes, or the delay that is over. -/
def workActs (s : RunWorld W) (rds : StartReadings) : RunPc → List StartAct
  | .enter =>
    match s.state with
    | .stopping _ _ => [.checkedHalted rds.usbSts.hcHalted]
    | .resetting _ _ => [.checkedReset !rds.usbCmd.hcReset]
    | _ => []
  | .delay => if rds.delayReady then [.resumed] else []
  | _ => []

/-- What is recorded of a tick from `s` to `s'`. -/
def tickActs (s s' : RunWorld W) (rds : StartReadings) (pc : RunPc) : List StartAct :=
  (s'.log.drop s.log.length).filterMap StartEvent.taken? ++ s.workActs rds pc ++
    (s'.written.drop s.written.length).filterMap OpRegWrite.usbCmd? ++
    (s'.log.drop s.log.length).filterMap StartEvent.responded?

/-- Where the runner is, or will go on. -/
def pc (s : RunWorld W) : RunPc := (s.poll.map Prod.snd).getD s.resume

omit [Wakers W] in
theorem pc_of_poll {s : RunWorld W} {w : W} {pc : RunPc} (h : s.poll = some (w, pc)) : s.pc = pc := by
  rw [RunWorld.pc, h]
  rfl

end RunWorld

structure StartWorld (W : Type) where
  run : RunWorld W
  clock : Nat
  acts : List StartAct

namespace StartWorld

variable {W : Type} [Wakers W]

/-- The clock is monotone, a delay is over no earlier than asked, the capability is the controller's
and requests are valid. -/
def Permitted (cap64 : Bool) (s : StartWorld W) : RunLabel W → Prop
  | .tick rds _ => s.clock ≤ rds.now ∧ rds.addressingCap64 = cap64 ∧
    (s.run.pc = .delay → rds.delayReady = true → s.run.delayUntil ≤ rds.now)
  | .callStart config => config.Valid cap64
  | _ => True

instance (cap64 : Bool) (s : StartWorld W) : (a : RunLabel W) → Decidable (s.Permitted cap64 a)
  | .tick rds _ => inferInstanceAs (Decidable (s.clock ≤ rds.now ∧ rds.addressingCap64 = cap64 ∧
      (s.run.pc = .delay → rds.delayReady = true → s.run.delayUntil ≤ rds.now)))
  | .callStart config => inferInstanceAs (Decidable (config.Valid cap64))
  | .client _ | .pollReset _ _ | .pollStart _ | .dropStart | .startPoll _ => .isTrue trivial

def new (driver : DriverWorld W) : StartWorld W := ⟨.new driver, 0, []⟩

/-- The time after a step. -/
def time (s : StartWorld W) : RunLabel W → Nat
  | .tick rds _ => rds.now
  | _ => s.clock

def newActs (s : StartWorld W) (run : RunWorld W) : RunLabel W → List StartAct
  | .tick rds _ => s.run.tickActs run rds s.run.pc
  | _ => []

/-- One step; `none` if it is not permitted, not enabled, or if the runner panics. -/
def step (cap64 : Bool) (oc : OverflowChecks) (s : StartWorld W) (a : RunLabel W) : Option (StartWorld W) :=
  if s.Permitted cap64 a then
    (s.run.step oc a).map fun run => ⟨run, s.time a, s.acts ++ s.newActs run a⟩
  else none

/-! ## The property -/

/-- While a request is worked on, the runner can be polled, and a tick makes a check or ends a delay and
the poll goes on, unless it finds that the delay is not over. -/
structure GoesOn (cap64 : Bool) (oc : OverflowChecks) (Allowed : StartWorld W → RunLabel W → Prop)
    (s : StartWorld W) : Prop where
  poll : ∀ w, s.run.poll = none → Wakers.task w = s.run.driver.runner.runnerTask →
    (s.step cap64 oc (.startPoll w)).isSome
  tick : ∀ rds reset, s.run.poll.isSome → s.Permitted cap64 (.tick rds reset) →
    Allowed s (.tick rds reset) → ∃ s', s.step cap64 oc (.tick rds reset) = some s' ∧
      (s.run.pc = .delay ∧ rds.delayReady = false ∨
        s'.run.poll.isSome ∧ ∃ e, e.isWork = true ∧ e ∈ s'.acts.drop s.acts.length)

/-- The first `n` ticks with the given readings. -/
def ticks (readings : Nat → StartReadings × ResetReadings) (n : Nat) : List (RunLabel W) :=
  (List.range n).map fun i => .tick (readings i).1 (readings i).2

/-- Whatever is read, the request is answered within `bound` ticks in which the timers are over. -/
def AnswersWithin (cap64 : Bool) (oc : OverflowChecks) (Allowed : StartWorld W → RunLabel W → Prop)
    (bound : Nat) (s : StartWorld W) : Prop :=
  ∀ readings, s.run.poll.isSome →
    (∀ n m, exec (step cap64 oc) s (ticks readings n) = some m → m.run.state.isStarting = true →
      m.Permitted cap64 (.tick (readings n).1 (readings n).2) ∧
      Allowed m (.tick (readings n).1 (readings n).2) ∧ (readings n).1.delayReady = true) →
    ∃ n ≤ bound, ∃ m, exec (step cap64 oc) s (ticks readings n) = some m ∧
      m.run.state.isStarting = false

/-- The runner takes a request made now, as soon as it is polled. -/
def Accepts (cap64 : Bool) (oc : OverflowChecks) (s : StartWorld W) : Prop :=
  ∀ config w rds reset, s.run.control.reqSignal.value? = some (.start config) →
    Wakers.task w = s.run.driver.runner.runnerTask → s.clock ≤ rds.now → rds.addressingCap64 = cap64 →
    ∃ tr s', (∀ a ∈ tr, a = .startPoll w ∨ a = .tick rds reset) ∧
      exec (step cap64 oc) s tr = some s' ∧ s'.run.state = .stopping rds.now config

/-- **The start protocol**: the last request is served, it is worked on until it is answered, which it
is, and after an error the next one is taken. -/
structure StartProtocol (cap64 : Bool) (oc : OverflowChecks) (Allowed : StartWorld W → RunLabel W → Prop)
    (s : StartWorld W) : Prop where
  served : ∀ config l, lastRequest s.acts = some (config, l) → RequestServed config l s.run.state
  goesOn : s.run.state.isStarting = true → s.GoesOn cap64 oc Allowed
  answers : ∀ config l, lastRequest s.acts = some (config, l) → s.run.state.isStarting = true →
    s.AnswersWithin cap64 oc Allowed
      (2 * (config.stopStrategy.maxChecks + config.resetStrategy.maxChecks) + 1)
  accepts : ∀ error, s.run.state = .stopped (some error) → s.Accepts cap64 oc

end StartWorld

/-! ## The condition -/

/-- If the timeout is not over, the time of the next check and the deadline are durations. -/
def PollStrategy.SumsFit (p : PollStrategy) (startTime now : Nat) : Prop :=
  now - startTime < p.timeout → now + p.checkInterval ≤ durationMax ∧ startTime + p.timeout ≤ durationMax

instance (p : PollStrategy) (startTime now : Nat) : Decidable (p.SumsFit startTime now) :=
  inferInstanceAs (Decidable (_ → _))

/-- Where a check fails the sums fit. -/
def RunnerState.CheckFits (rds : StartReadings) : RunnerState → Prop
  | .stopping startTime config =>
    rds.usbSts.hcHalted = false → config.stopStrategy.SumsFit startTime rds.now
  | .resetting startTime config =>
    rds.usbCmd.hcReset = true → config.resetStrategy.SumsFit startTime rds.now
  | _ => True

instance (rds : StartReadings) : (state : RunnerState) → Decidable (state.CheckFits rds)
  | .stopping _ _ | .resetting _ _ => inferInstanceAs (Decidable (_ → _))
  | .stopped _ | .running => .isTrue trivial

namespace StartWorld

variable {W : Type} [Wakers W]

/-- HCRESET reads clear where a request is taken, and where a check fails the sums fit. -/
def Unhindered (s : StartWorld W) : RunLabel W → Prop
  | .tick rds _ =>
    (s.run.pc = .waitReq → s.run.control.reqSignal.isSignaled = true → rds.usbCmd.hcReset = false) ∧
      (s.run.pc = .enter → s.run.state.CheckFits rds)
  | _ => True

instance (s : StartWorld W) : (a : RunLabel W) → Decidable (s.Unhindered a)
  | .tick _ _ => inferInstanceAs (Decidable (_ ∧ _))
  | .callStart _ | .client _ | .pollReset _ _ | .pollStart _ | .dropStart | .startPoll _ => .isTrue trivial

end StartWorld

end EzEhci
