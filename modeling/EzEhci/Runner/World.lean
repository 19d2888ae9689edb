import EzEhci.Lib.Run
import EzEhci.Runner.Poll

/-!
# The driver: clients, interrupts and the runner

`DriverWorld.step` interleaves the calls of the clients, the interrupt handler
and the polls of the runner. A client owns what a call gave it and gives it up
when it passes it on: a `Device` is loaded once, a loaded device configured
once, an `InterruptEndpoint` watched once. A call of `set_configuration` goes
on endpoint by endpoint, and other steps may fall in between.
-/

namespace EzEhci

open Lib

/-! ## The clients' part -/

namespace RunnerWorld

variable {W : Type} [Wakers W]

/-- The runner's last poll returned `Pending` and nothing woke it since. -/
def asleep (s : RunnerWorld W) : Bool := s.pending && !s.runnerWoken

def resetDevice (s : RunnerWorld W) (i : Nat) (req : ResetDeviceResources) : RunnerWorld W :=
  let r := (s.rootPorts i).reqSignal.signal req
  { s with rootPorts := s.rootPorts.modify i fun sh => { sh with reqSignal := r.1 } }.wake r.2

def load (s : RunnerWorld W) (device : Device) (qhMem : MappedMem) : RunnerWorld W :=
  let r := (s.controlShared device.ep0).reqSignal.signal qhMem
  { s with
    async.heap := s.async.heap.modify qhMem.ptr fun m => { m with qh := loadedQh device.address 0 }
    controlShared := s.controlShared.modify device.ep0 fun sh => { sh with reqSignal := r.1 } }.wake
    r.2

/-- The registration of a new interrupt endpoint by `set_configuration`. -/
def register (s : RunnerWorld W) (d : DeviceId) : RunnerWorld W :=
  let r := (s.deviceShared d).reqSignal.signal s.nextInterrupt
  { s with
    interruptShared := s.interruptShared.modify s.nextInterrupt fun _ => .default
    nextInterrupt := s.nextInterrupt + 1
    deviceShared := s.deviceShared.modify d fun sh => { sh with reqSignal := r.1 } }.wake r.2

/-- `watch` up to its wait, with the queue head it prepared. -/
def startWatch (s : RunnerWorld W) (ep : InterruptEndpoint) (qhMem : MappedMem) (qh : Qh)
    (interval : NormalizedInterval) : RunnerWorld W :=
  let r := (s.interruptShared ep.shared).reqSignal.signal ⟨qhMem, interval, s.nextSender⟩
  { s with
    periodic.heap := s.periodic.heap.modify qhMem.ptr fun m => { m with qh }
    nextSender := s.nextSender + 1
    interruptShared := s.interruptShared.modify ep.shared fun sh => { sh with reqSignal := r.1 } }.wake
    r.2

/-- An interrupt: a registered waker of the runner is woken. -/
def interrupt (s : RunnerWorld W) (usbSts : UsbStsReg) : RunnerWorld W :=
  { s with
    irq := (handleIrq usbSts s.irq).2
    woken := fun t => s.woken t || (t == s.runnerTask && s.irq.runnerWaker == .registered) }

/-- Anything else that wakes the runner, such as a timer. -/
def wakeRunner (s : RunnerWorld W) : RunnerWorld W :=
  { s with woken := Function.update s.woken s.runnerTask true }

end RunnerWorld

inductive DeviceClient where
  | loaded (device : Device)
  | configuring (c : Configuring)
  | configured (c : Configuring) (result : ConfiguredDeviceOrHub)
  deriving DecidableEq, Repr

/-- The interrupt endpoints registered for the device. -/
def DeviceClient.registered : DeviceClient → List InterruptEpId
  | .loaded _ => []
  | .configuring c => c.interruptIds
  | .configured c _ => c.interruptIds

/-! ## The driver -/

/-- The runner's world and the clients': what they have of each device, the control endpoints they
loaded and the interrupt endpoints they watched. -/
structure DriverWorld (W : Type) where
  runner : RunnerWorld W
  clients : Heap (Option DeviceClient)
  loaded : List ControlEpId
  watched : List InterruptEpId

inductive DriverLabel (W : Type) where
  | resetDevice (i : Nat) (req : ResetDeviceResources)
  | load (device : Device) (qhMem : MappedMem)
  | setConfiguration (d : DeviceId) (info : DeviceInfo) (index : Nat)
  | configure (d : DeviceId)
  | watch (d : DeviceId) (ep : InterruptEndpoint) (res : WatchInterruptResources)
  | irq (usbSts : UsbStsReg)
  | wakeRunner
  | poll (w : W) (rds : List ResetReadings)

/-- The label is a call of a client, or something else that wakes the runner. -/
def DriverLabel.isCall {W : Type} : DriverLabel W → Bool
  | .irq _ | .poll _ _ => false
  | _ => true

namespace DriverWorld

variable {W : Type} [Wakers W]

/-- The interrupt endpoints registered for a device. -/
def registered (s : DriverWorld W) (d : DeviceId) : List InterruptEpId :=
  (s.clients d).elim [] DeviceClient.registered

/-- The call of `set_configuration` in progress for a device. -/
def configuring (s : DriverWorld W) (d : DeviceId) : Option Configuring :=
  match s.clients d with
  | some (.configuring c) => some c
  | _ => none

def setClient (s : DriverWorld W) (d : DeviceId) (client : DeviceClient) : DriverWorld W :=
  { s with clients := s.clients.modify d fun _ => some client }

/-- A call of `set_configuration` makes one endpoint, closes an interface, or returns. -/
def configureNext (s : DriverWorld W) (d : DeviceId) (c : Configuring) : Option (DriverWorld W) :=
  if c.todo.isEmpty then c.result.map fun r => s.setClient d (.configured c r)
  else
    let s' := s.setClient d (.configuring (c.next s.runner.nextInterrupt))
    some { s' with runner := if c.registers then s.runner.register d else s.runner }

/-- One step of the driver; `none` if it is not enabled. -/
def step (oc : OverflowChecks) (s : DriverWorld W) : DriverLabel W → Option (DriverWorld W)
  | .resetDevice i req =>
    if i < s.runner.nPorts then some { s with runner := s.runner.resetDevice i req } else none
  | .load device qhMem =>
    -- the device was answered, and neither it nor its endpoint was given up
    if (s.runner.answers.any fun a => a.result.toOption == some device) ∧
        device.ep0 ∉ s.loaded ∧ s.clients device.shared = none then
      some { s.setClient device.shared (.loaded device) with
        runner := s.runner.load device qhMem
        loaded := device.ep0 :: s.loaded }
    else none
  | .setConfiguration d info index =>
    match s.clients d with
    | some (.loaded device) =>
      (Configuring.start device info index).map fun c => s.setClient d (.configuring c)
    | _ => none
  | .configure d => (s.configuring d).bind (s.configureNext d)
  | .watch d ep res =>
    match s.clients d with
    | some (.configured _ r) =>
      if ep ∈ r.interruptEndpoints ∧ ep.shared ∉ s.watched then
        (ep.prepareWatch oc res).map fun q => { s with
          runner := s.runner.startWatch ep res.qh q.1 q.2
          watched := ep.shared :: s.watched }
      else none
    | _ => none
  | .irq usbSts => some { s with runner := s.runner.interrupt usbSts }
  | .wakeRunner => some { s with runner := s.runner.wakeRunner }
  | .poll w rds =>
    if Wakers.task w = s.runner.runnerTask then
      (s.runner.poll oc w rds).map fun runner => { s with runner }
    else none

/-- What each step changes, and when it is enabled. -/
inductive Stepped (oc : OverflowChecks) (s : DriverWorld W) : DriverLabel W → DriverWorld W → Prop where
  | resetDevice {i req} (hi : i < s.runner.nPorts) :
      Stepped oc s (.resetDevice i req) { s with runner := s.runner.resetDevice i req }
  | load {device qhMem} (a : ResetAnswer) (ha : a ∈ s.runner.answers) (hr : a.result = .ok device)
      (hnew : device.ep0 ∉ s.loaded) (hcl : s.clients device.shared = none) :
      Stepped oc s (.load device qhMem) { s.setClient device.shared (.loaded device) with
        runner := s.runner.load device qhMem
        loaded := device.ep0 :: s.loaded }
  | setConfiguration {d info index} (device : Device) (c : Configuring)
      (hcl : s.clients d = some (.loaded device)) (hc : Configuring.start device info index = some c) :
      Stepped oc s (.setConfiguration d info index) (s.setClient d (.configuring c))
  | returns {d} (c : Configuring) (r : ConfiguredDeviceOrHub)
      (hcl : s.clients d = some (.configuring c)) (htodo : c.todo = []) (hr : c.result = some r) :
      Stepped oc s (.configure d) (s.setClient d (.configured c r))
  | registers {d} (c : Configuring) (hcl : s.clients d = some (.configuring c))
      (hreg : c.registers = true) :
      Stepped oc s (.configure d) { s.setClient d (.configuring (c.next s.runner.nextInterrupt)) with
        runner := s.runner.register d }
  | goesOn {d} (c : Configuring) (hcl : s.clients d = some (.configuring c))
      (hreg : c.registers = false) :
      Stepped oc s (.configure d) (s.setClient d (.configuring (c.next s.runner.nextInterrupt)))
  | watch {d ep res} (c : Configuring) (r : ConfiguredDeviceOrHub) (qh : Qh) (iv : NormalizedInterval)
      (hcl : s.clients d = some (.configured c r)) (hep : ep ∈ r.interruptEndpoints)
      (hnew : ep.shared ∉ s.watched) (hq : ep.prepareWatch oc res = some (qh, iv)) :
      Stepped oc s (.watch d ep res) { s with
        runner := s.runner.startWatch ep res.qh qh iv
        watched := ep.shared :: s.watched }
  | irq {usbSts} : Stepped oc s (.irq usbSts) { s with runner := s.runner.interrupt usbSts }
  | wakeRunner : Stepped oc s .wakeRunner { s with runner := s.runner.wakeRunner }
  | poll {w rds} (runner : RunnerWorld W) (hw : Wakers.task w = s.runner.runnerTask)
      (hp : s.runner.poll oc w rds = some runner) : Stepped oc s (.poll w rds) { s with runner }

section Stepped

variable {oc : OverflowChecks} {s s' : DriverWorld W}

omit [Wakers W] in
theorem clients_of_configuring {d : DeviceId} {c : Configuring} (hc : s.configuring d = some c) :
    s.clients d = some (.configuring c) := by
  unfold configuring at hc
  split at hc
  next hcl =>
    cases hc
    exact hcl
  next => cases hc

theorem Stepped.of_configureNext {d : DeviceId} {c : Configuring}
    (hcl : s.clients d = some (.configuring c)) (hs : s.configureNext d c = some s') :
    Stepped oc s (.configure d) s' := by
  unfold configureNext at hs
  split at hs
  next htodo =>
    obtain ⟨r, hr, rfl⟩ := Option.map_eq_some_iff.mp hs
    exact .returns c r hcl (List.isEmpty_iff.mp htodo) hr
  next =>
    cases hs
    cases hreg : c.registers with
    | true => exact .registers c hcl hreg
    | false => exact .goesOn c hcl hreg

/-- **Inversion of a step.** -/
theorem Stepped.of_step {a : DriverLabel W} (hs : s.step oc a = some s') : Stepped oc s a s' := by
  cases a with
  | resetDevice i req =>
    obtain ⟨hi, he⟩ := Option.ite_none_right_eq_some.mp hs
    cases he
    exact .resetDevice hi
  | load device qhMem =>
    obtain ⟨⟨hans, hnew, hnone⟩, he⟩ := Option.ite_none_right_eq_some.mp hs
    cases he
    obtain ⟨a, ha, hd⟩ := List.any_eq_true.mp hans
    refine .load a ha ?_ hnew hnone
    cases hr : a.result <;> simp_all [Except.toOption]
  | setConfiguration d info index =>
    simp only [DriverWorld.step] at hs
    split at hs
    next device hcl =>
      obtain ⟨c, hc, rfl⟩ := Option.map_eq_some_iff.mp hs
      exact .setConfiguration device c hcl hc
    next => cases hs
  | configure d =>
    obtain ⟨c, hc, hs⟩ := Option.bind_eq_some_iff.mp hs
    exact .of_configureNext (clients_of_configuring hc) hs
  | watch d ep res =>
    simp only [DriverWorld.step] at hs
    split at hs
    next c r hcl =>
      obtain ⟨⟨hep, hnew⟩, hs⟩ := Option.ite_none_right_eq_some.mp hs
      obtain ⟨⟨qh, iv⟩, hq, rfl⟩ := Option.map_eq_some_iff.mp hs
      exact .watch c r qh iv hcl hep hnew hq
    next => cases hs
  | irq usbSts =>
    cases hs
    exact .irq
  | wakeRunner =>
    cases hs
    exact .wakeRunner
  | poll w rds =>
    obtain ⟨hw, hs⟩ := Option.ite_none_right_eq_some.mp hs
    obtain ⟨runner, hp, rfl⟩ := Option.map_eq_some_iff.mp hs
    exact .poll runner hw hp

end Stepped

/-- The driver when the runner enters its Running phase. -/
structure Started (s : DriverWorld W) : Prop where
  resettingDevice : s.runner.resettingDevice = none
  devices : s.runner.devices = []
  interruptEndpoints : s.runner.interruptEndpoints = []
  controlEndpoints : s.runner.controlEndpoints = []
  removedBefore : s.runner.async.mgr.qhsRemovedBeforeDoorbell = []
  queuedToRemove : s.runner.async.mgr.qhsQueuedToRemove = []
  sent : s.runner.async.sent = []
  answers : s.runner.answers = []
  pending : s.runner.pending = false
  rootPort : ∀ i w, (s.runner.rootPorts i).reqSignal ≠ .waiting w
  device : ∀ d, (s.runner.deviceShared d).reqSignal = .none
  interrupt : ∀ e, (s.runner.interruptShared e).reqSignal = .none
  control : ∀ e, (s.runner.controlShared e).reqSignal = .none
  clients : ∀ d, s.clients d = none
  loaded : s.loaded = []
  watched : s.watched = []

/-- What the runner writes into its state when it starts running, on a controller with `nPorts`
root ports. -/
def start (nPorts : Nat) (seg : CtrlDsSegment) (anchor : MappedMem) (list : PeriodicFrameList)
    (asyncHeap : Heap QhWithMetaA) (periodicHeap : Heap QhWithMetaP) (qtds : Heap Qtd)
    (runnerTask : TaskId) : DriverWorld W where
  runner := {
    resettingDevice := none
    addrAllocator := .default
    ctrlDsSegment := seg
    async := ⟨asyncHeap, .new anchor seg, ⟨0⟩, 0, []⟩
    periodic := ⟨periodicHeap, .new list seg⟩
    devices := []
    interruptEndpoints := []
    controlEndpoints := []
    nPorts
    rootPorts := fun _ => .default
    deviceShared := fun _ => .default
    interruptShared := fun _ => .default
    controlShared := fun _ => .default
    nextDevice := 0
    nextInterrupt := 0
    nextControl := 0
    nextSender := 0
    irq := .default
    qtds
    setupPackets := fun _ => ⟨0, 0, 0, 0, 0⟩
    portScWritten := []
    runnerTask
    pending := false
    woken := fun _ => false
    answers := []
    callbacks := [] }
  clients := fun _ => none
  loaded := []
  watched := []

omit [Wakers W] in
theorem started_start (nPorts : Nat) (seg : CtrlDsSegment) (anchor : MappedMem)
    (list : PeriodicFrameList) (asyncHeap : Heap QhWithMetaA) (periodicHeap : Heap QhWithMetaP)
    (qtds : Heap Qtd) (runnerTask : TaskId) :
    (start nPorts seg anchor list asyncHeap periodicHeap qtds runnerTask : DriverWorld W).Started := by
  constructor <;> first | rfl | exact fun _ => rfl | exact fun _ _ h => by cases h

/-! ## A run -/

/-- A driver of a controller with one root port. -/
def exampleDriver : DriverWorld TaskWaker :=
  start 1 .lower4G ⟨0x1000, 0x1000⟩ .empty (fun _ => ⟨Qh.new .zero .zero, 0x1000, 0x1000⟩)
    (fun _ => ⟨Qh.new .zero .zero, none, none, ⟨3, by decide⟩⟩) (fun _ => Qtd.new .zero .zero) 0

/-- The port is connected and enabled, the timer has run out and the status descriptor is retired with
`token`. -/
def readings (token : TransferToken) : ResetReadings := ⟨⟨5⟩, ⟨5⟩, true, token⟩

def exampleReadings : ResetReadings := readings .zero

def exampleDevice : Device := ⟨1, 0, .lower4G, 0⟩

def exampleReset (token : TransferToken) : List (DriverLabel TaskWaker) :=
  [.poll ⟨0⟩ [exampleReadings],
   .resetDevice 0 ⟨⟨0x2000, 0x2000⟩, ⟨0x3000, 0x3000⟩, ⟨0x3040, 0x3040⟩, ⟨0x4000, 0x4000⟩⟩,
   .poll ⟨0⟩ (List.replicate 5 (readings token)),
   .irq (UsbStsReg.zero.set .asyncAdvance),
   .poll ⟨0⟩ [exampleReadings, exampleReadings]]

/-- A reset, answered, and the load of the device. -/
def exampleLoad : List (DriverLabel TaskWaker) :=
  exampleReset .zero ++ [.load exampleDevice ⟨0x5000, 0x5000⟩, .poll ⟨0⟩ [exampleReadings]]

/-- An interrupt endpoint with packets of eight bytes, polled every frame. -/
def exampleEndpointInfo : EndpointInfo := ⟨⟨0x81⟩, ⟨3⟩, ⟨8⟩, 4⟩

/-- A device with two interrupt endpoints in one interface. -/
def exampleInfo : DeviceInfo :=
  ⟨0, [⟨1, 0x80, 50, [⟨0, 0, 3, 0, 0, [exampleEndpointInfo, exampleEndpointInfo]⟩]⟩]⟩

/-- The interrupt endpoint made for it with the shared state `shared`. -/
def exampleInterrupt (shared : InterruptEpId) : InterruptEndpoint :=
  ⟨1, shared, exampleEndpointInfo, .lower4G⟩

end DriverWorld

end EzEhci
