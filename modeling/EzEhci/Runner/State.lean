import EzEhci.Async.Manager
import EzEhci.Device.Address
import EzEhci.Device.Configure
import EzEhci.Endpoint.Control
import EzEhci.Irq.Handler
import EzEhci.Sync.Signal

/-!
# The state of the running driver

What the runner owns in its Running phase (`RunnerState::Running`), what it
shares with the clients (the signals of root ports, devices and endpoints, by
the identity of their `Arc`) and what it shares with the hardware. `woken` says
which tasks were woken since they were last polled.
-/

namespace EzEhci

open Lib

/-- `Error`. -/
inductive DriverError where
  | stopTimeout
  | resetTimeout
  | deviceDisconnected
  | deviceIsFullSpeed
  deriving DecidableEq, Repr

abbrev RootPortNumber := BitVec 4

structure ResetDeviceResources where
  qh : MappedMem
  setupQtd : MappedMem
  statusQtd : MappedMem
  buffer : MappedMem
  deriving DecidableEq, Repr

structure AddInterruptQhReq where
  qh : MappedMem
  interval : NormalizedInterval
  callback : SenderId
  deriving DecidableEq

structure RootPortSharedState (W : Type) where
  portChangedSignal : Signal W Unit
  reqSignal : Signal W ResetDeviceResources
  resSignal : Signal W (Except DriverError Device)

/-- `DeviceSharedState`; the request is the endpoint's shared state. -/
structure DeviceSharedState (W : Type) where
  reqSignal : Signal W InterruptEpId
  usbIntSignal : Signal W Unit

structure InterruptEndpointSharedState (W : Type) where
  reqSignal : Signal W AddInterruptQhReq
  intSignal : Signal W Unit

structure ControlEndpointSharedState (W : Type) where
  reqSignal : Signal W MappedMem
  intSignal : Signal W Unit

def RootPortSharedState.default {W : Type} : RootPortSharedState W := ⟨.none, .none, .none⟩
def DeviceSharedState.default {W : Type} : DeviceSharedState W := ⟨.none, .none⟩
def InterruptEndpointSharedState.default {W : Type} : InterruptEndpointSharedState W := ⟨.none, .none⟩
def ControlEndpointSharedState.default {W : Type} : ControlEndpointSharedState W := ⟨.none, .none⟩

/-- `ResetDeviceStep`. The timers are in the readings of a poll; the receiver of the removal is its
sender's identity and the waker registered with it. -/
inductive ResetDeviceStep (W : Type) where
  | waitingToStopReset
  | waitForPortToBeEnabled
  | waitForSetAddr (addr : BitVec 7)
  | waitForQhRemove (addr : BitVec 7) (sender : SenderId) (waker : Option W)

/-- `ResettingDevice`. `statusRead` is the token with which the status descriptor was found
inactive. -/
structure ResettingDevice (W : Type) where
  req : ResetDeviceResources
  rootPort : RootPortNumber
  step : ResetDeviceStep W
  statusRead : Option TransferToken

/-- An answer to a reset request, with the token of its status descriptor. -/
structure ResetAnswer where
  rootPort : Nat
  result : Except DriverError Device
  statusRead : Option TransferToken

structure RunnerWorld (W : Type) where
  -- `RunnerState::Running`
  resettingDevice : Option (ResettingDevice W)
  addrAllocator : AddressAllocator
  ctrlDsSegment : CtrlDsSegment
  async : AsyncState
  periodic : PeriodicState
  devices : List (RootPortNumber × DeviceId)
  interruptEndpoints : List InterruptEpId
  controlEndpoints : List ControlEpId
  -- the shared states
  nPorts : Nat
  rootPorts : Heap (RootPortSharedState W)
  deviceShared : Heap (DeviceSharedState W)
  interruptShared : Heap (InterruptEndpointSharedState W)
  controlShared : Heap (ControlEndpointSharedState W)
  nextDevice : DeviceId
  nextInterrupt : InterruptEpId
  nextControl : ControlEpId
  nextSender : SenderId
  -- the hardware's side
  irq : IrqHandlerSharedState
  qtds : Heap Qtd
  setupPackets : Heap SetupPacket
  portScWritten : List (Nat × PortScReg)
  -- the executor's side
  runnerTask : TaskId
  pending : Bool
  woken : TaskId → Bool
  -- what the runner answered
  answers : List ResetAnswer
  callbacks : List SenderId

/-- What one iteration of the reset loop reads. -/
structure ResetReadings where
  portSc : PortScReg
  portScUpdate : PortScReg
  timerReady : Bool
  statusToken : TransferToken
  deriving DecidableEq, Repr

namespace RunnerWorld

variable {W : Type} [Wakers W]

def wake (s : RunnerWorld W) (waker : Option W) : RunnerWorld W :=
  { s with woken := fun t => s.woken t || waker.any fun w => Wakers.task w = t }

def runnerWoken (s : RunnerWorld W) : Bool := s.woken s.runnerTask

def deviceIds (s : RunnerWorld W) : List DeviceId := s.devices.map Prod.snd

end RunnerWorld

end EzEhci
