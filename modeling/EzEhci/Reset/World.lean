import EzEhci.Reset.Machine
import EzEhci.Runner.Ticks
import EzEhci.Runner.World

/-!
# Resets in the running driver

`ResetWorld` is the driver with the runner inside a poll: the steps of the
clients and the interrupt handler fall between any two ticks. Clients call
`reset_device`, poll the future it returns and may drop it. The log is observed
from the states before and after a tick.
-/

namespace EzEhci

open Lib AsyncListManager

/-! ## The protocol's view of the runner -/

def ResetDeviceStep.stage {W : Type} : ResetDeviceStep W → ResetStage
  | .waitingToStopReset => .waitingToStopReset
  | .waitForPortToBeEnabled => .waitForPortToBeEnabled
  | .waitForSetAddr addr => .waitForSetAddr addr
  | .waitForQhRemove addr sender _ => .waitForQhRemove addr sender

def ResettingDevice.ongoing {W : Type} (rd : ResettingDevice W) : OngoingReset :=
  ⟨rd.req, rd.rootPort.toNat, rd.step.stage⟩

namespace RunnerWorld

variable {W : Type} [Wakers W]

/-- The state of the reset protocol in the runner's world. -/
def resetState (s : RunnerWorld W) : ResetState where
  ongoing := s.resettingDevice.map ResettingDevice.ongoing
  addrAllocator := s.addrAllocator
  async := s.async
  devicePorts := s.devices.map Prod.fst
  nextSender := s.nextSender
  portReq i := (s.rootPorts i).reqSignal.value?
  portRes i := (s.rootPorts i).resSignal.value?
  controlReq e := (s.controlShared e).reqSignal.value?

/-! ## Observing a tick -/

def writeEvents (s s' : RunnerWorld W) : List ResetEvent :=
  (s'.portScWritten.drop s.portScWritten.length).map fun x => .wrote x.1 x.2

def answerEvents (req : ResetDeviceResources) (s s' : RunnerWorld W) : List ResetEvent :=
  (s'.answers.drop s.answers.length).map fun a => .answered a.rootPort req a.result s'.async.heap

def assignEvents (r : OngoingReset) (s' : RunnerWorld W) : List ResetEvent :=
  match r.stage, s'.resetState.ongoing with
  | .waitForPortToBeEnabled, some ⟨_, i, .waitForSetAddr addr⟩ => [.assigned i addr]
  | _, _ => []

/-- A request for the removal of a queue head. -/
def removeEvents (rds : ResetReadings) (r : OngoingReset) (s s' : RunnerWorld W) : List ResetEvent :=
  match r.stage with
  | .waitForSetAddr _ =>
    (if rds.statusToken.active then [] else [.statusInactive r.req]) ++
      (List.range' s.nextSender (s'.nextSender - s.nextSender)).map (.removalQueued r.req)
  | _ => []

/-- What is observed of an iteration of the reset loop, apart from the connection. -/
def iterEvents (rds : ResetReadings) (r : OngoingReset) (s s' : RunnerWorld W) (goesOn : Bool) :
    List ResetEvent :=
  writeEvents s s' ++ assignEvents r s' ++ removeEvents rds r s s' ++ answerEvents r.req s s' ++
    if goesOn then [] else [.pollEnded]

/-- What is observed of a tick from `s` to `s'`. -/
def tickEvents (rds : ResetReadings) (s s' : RunnerWorld W) : PollPc → Option PollPc → List ResetEvent
  | .rootPorts (i :: _), _ =>
    match s.resetState.portReq i with
    | some req => .consumed i req :: writeEvents s s'
    | none => []
  | .rootPorts [], none => [.pollEnded]
  | .fireRemoved, _ => (s'.async.sent.drop s.async.sent.length).map .fired
  | .reset, pc' =>
    match s.resetState.ongoing with
    | some r => disconnectedEvents rds r ++ iterEvents rds r s s' pc'.isSome
    | none => []
  | _, _ => []

/-- The readings with which a tick works on a reset in progress. -/
def readings (s : RunnerWorld W) (rds : ResetReadings) : PollPc → Option ResetReadings
  | .reset => s.resettingDevice.map fun _ => rds
  | _ => none

end RunnerWorld

/-! ## The world -/

/-- The driver, the poll of the runner in progress and what was observed. -/
structure ResetWorld (W : Type) where
  driver : DriverWorld W
  poll : Option (W × PollPc)
  log : List ResetEvent

inductive ResetLabel (W : Type) where
  | client (a : DriverLabel W)
  | pollReset (i : Nat) (w : W)
  | dropReset (i : Nat)
  | startPoll (w : W)
  | tick (rds : ResetReadings)

def DriverLabel.events {W : Type} : DriverLabel W → List ResetEvent
  | .resetDevice i req => [.called i req]
  | .load _ qhMem => [.loaded qhMem]
  | _ => []

namespace ResetWorld

variable {W : Type} [Wakers W]

def state (s : ResetWorld W) : ResetState := s.driver.runner.resetState

/-- What the clients promise: a port has one call at a time, and memory that is lent is not in use. -/
def Permitted (dma : Dma) (s : ResetWorld W) : DriverLabel W → Prop
  | .resetDevice i req => callActive s.log i = false ∧ s.state.Fresh dma s.log req.qh
  | .load _ qhMem => s.state.Fresh dma s.log qhMem
  | .poll _ _ => False
  | _ => True

instance (dma : Dma) (s : ResetWorld W) : (a : DriverLabel W) → Decidable (s.Permitted dma a)
  | .resetDevice _ _ => inferInstanceAs (Decidable (_ ∧ _))
  | .load _ _ => inferInstanceAs (Decidable (ResetState.Fresh ..))
  | .poll _ _ => .isFalse id
  | .setConfiguration .. | .configure _ | .watch .. | .irq _ | .wakeRunner => .isTrue trivial

def pollFuture (r : RunnerWorld W) (i : Nat) (w : W) : RunnerWorld W :=
  let p := (r.rootPorts i).resSignal.pollWait w
  { r with rootPorts := r.rootPorts.modify i fun sh => { sh with resSignal := p.state } }.wake p.woken

/-- One step; `none` if it is not enabled, or if the runner panics. -/
def step (dma : Dma) (oc : OverflowChecks) (s : ResetWorld W) : ResetLabel W → Option (ResetWorld W)
  | .client a =>
    if s.Permitted dma a then
      (s.driver.step oc a).map fun driver => { s with driver, log := s.log ++ a.events }
    else none
  | .pollReset i w =>
    if callActive s.log i then
      some { s with
        driver := { s.driver with runner := pollFuture s.driver.runner i w }
        log := s.log ++ ((s.driver.runner.rootPorts i).resSignal.pollWait w).ready.toList.map
          (.returned i) }
    else none
  | .dropReset i =>
    if callActive s.log i then some { s with log := s.log ++ [.dropped i] } else none
  | .startPoll w =>
    if s.poll.isNone ∧ Wakers.task w = s.driver.runner.runnerTask then
      some { s with
        driver := { s.driver with runner := s.driver.runner.startPoll }
        poll := some (w, .register) }
    else none
  | .tick rds =>
    match s.poll with
    | none => none
    | some (w, pc) => (s.driver.runner.tick oc w rds pc).map fun t =>
      { driver := { s.driver with runner := t.1 }
        poll := t.2.map (w, ·)
        log := s.log ++ s.driver.runner.tickEvents rds t.1 pc t.2 }

def readings (s : ResetWorld W) : ResetLabel W → Option ResetReadings
  | .tick rds => s.poll.bind fun p => s.driver.runner.readings rds p.2
  | _ => none

/-- The driver of a controller with `nPorts` root ports when the runner starts running: the ring holds
the anchor alone and nothing was recorded. -/
def Begun (dma : Dma) (nPorts : Nat) (s : ResetWorld W) : Prop :=
  ∃ seg anchor list heap₀ heap periodicHeap qtds runnerTask, anchor.Usable dma seg ∧
    writeAnchor heap₀ anchor seg = some heap ∧
    s = ⟨.start nPorts seg anchor list heap periodicHeap qtds runnerTask, none, []⟩

/-! ## A run -/

/-- A driver of a controller with two root ports, at the start of its Running phase. -/
def example₀ : ResetWorld TaskWaker :=
  ⟨.start 2 .lower4G ⟨0x1000, 0x1000⟩ .empty
    ((writeAnchor (fun _ => ⟨Qh.new .zero .zero, 0, 0⟩) ⟨0x1000, 0x1000⟩ .lower4G).getD
      fun _ => ⟨Qh.new .zero .zero, 0, 0⟩)
    DriverWorld.exampleDriver.runner.periodic.heap (fun _ => Qtd.new .zero .zero) 0, none, []⟩

def exampleRequest (qh : BitVec 64) : ResetDeviceResources :=
  ⟨⟨qh, qh.toNat⟩, ⟨0x3000, 0x3000⟩, ⟨0x3040, 0x3040⟩, ⟨0x4000, 0x4000⟩⟩

def examplePoll (n : Nat) (rds : ResetReadings) : List (ResetLabel TaskWaker) :=
  .startPoll ⟨0⟩ :: List.replicate n (.tick rds)

/-- A reset of port 1 from its request to the answer: the poll that takes it gets as far as the
removal of the queue head, the next one finds it done. -/
def exampleReset : List (ResetLabel TaskWaker) :=
  .client (.resetDevice 1 (exampleRequest 0x2000)) :: examplePoll 15 DriverWorld.exampleReadings ++
    .client (.irq (UsbStsReg.zero.set .asyncAdvance)) :: examplePoll 14 DriverWorld.exampleReadings

theorem example₀_begun : example₀.Begun .identity 2 :=
  ⟨.lower4G, ⟨0x1000, 0x1000⟩, .empty, fun _ => ⟨Qh.new .zero .zero, 0, 0⟩, _, _, _, _, by decide, rfl, rfl⟩

end ResetWorld

end EzEhci
