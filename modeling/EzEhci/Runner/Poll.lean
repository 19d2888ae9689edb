import EzEhci.Runner.State

/-!
# A poll of the runner

`RunnerWorld.poll` is one poll in the Running phase, in source order: the
interrupt flags, the request signals of devices and endpoints, and the reset
loop with the four steps of a reset. It is `none` where the driver panics. The
reset loop takes its readings of registers, timers and descriptors from a list,
one entry an iteration, and is `none` when the list is too short.
-/

namespace EzEhci

open Lib

namespace RunnerWorld

variable {W : Type} [Wakers W]

/-! ## Interrupt flags -/

def signalUsbInt (s : RunnerWorld W) (d : DeviceId) : RunnerWorld W :=
  let r := (s.deviceShared d).usbIntSignal.signal ()
  { s with deviceShared := s.deviceShared.modify d fun sh => { sh with usbIntSignal := r.1 } }.wake r.2

def signalInterruptInt (s : RunnerWorld W) (e : InterruptEpId) : RunnerWorld W :=
  let r := (s.interruptShared e).intSignal.signal ()
  { s with interruptShared := s.interruptShared.modify e fun sh => { sh with intSignal := r.1 } }.wake
    r.2

def signalControlInt (s : RunnerWorld W) (e : ControlEpId) : RunnerWorld W :=
  let r := (s.controlShared e).intSignal.signal ()
  { s with controlShared := s.controlShared.modify e fun sh => { sh with intSignal := r.1 } }.wake r.2

def signalPortChanged (s : RunnerWorld W) (i : Nat) : RunnerWorld W :=
  let r := (s.rootPorts i).portChangedSignal.signal ()
  { s with rootPorts := s.rootPorts.modify i fun sh => { sh with portChangedSignal := r.1 } }.wake r.2

/-- Forward `usb_int` and `usb_err_int` to every waiter. -/
def forwardUsbInt (s : RunnerWorld W) : RunnerWorld W :=
  let usbInt := s.irq.newUsbInt
  let usbErrInt := s.irq.newUsbErrInt
  let s := { s with irq := { s.irq with newUsbInt := false, newUsbErrInt := false } }
  if usbInt || usbErrInt then
    let s := s.deviceIds.foldl signalUsbInt s
    let s := s.interruptEndpoints.foldl signalInterruptInt s
    s.controlEndpoints.foldl signalControlInt s
  else s

/-- The sender of the removal the runner waits for was fired: its receiver's waker is woken. -/
def wakeReceiver (s : RunnerWorld W) (fired : List SenderId) : RunnerWorld W :=
  match s.resettingDevice with
  | some rd =>
    match rd.step with
    | .waitForQhRemove addr sender waker =>
      if sender ∈ fired then
        { s with resettingDevice := some { rd with step := .waitForQhRemove addr sender none } }.wake
          waker
      else s
    | _ => s
  | none => s

/-- `handle_async_advance` fires the senders of the queue heads removed before the doorbell. -/
def fireRemoved (s : RunnerWorld W) : RunnerWorld W :=
  let fired := s.async.mgr.qhsRemovedBeforeDoorbell
  { s with async := AsyncListManager.handleAsyncAdvance s.async }.wakeReceiver fired

def handleAsyncAdvance (s : RunnerWorld W) : RunnerWorld W :=
  let asyncAdvance := s.irq.newAsyncAdvance
  let s := { s with irq := { s.irq with newAsyncAdvance := false } }
  if asyncAdvance then s.fireRemoved else s

def forwardPortChange (s : RunnerWorld W) : RunnerWorld W :=
  let portChangeDetect := s.irq.newPortChangeDetect
  let s := { s with irq := { s.irq with newPortChangeDetect := false } }
  if portChangeDetect then (List.range s.nPorts).foldl signalPortChanged s else s

/-! ## Requests -/

/-- Poll the request signal of a device: a new interrupt endpoint. -/
def pollDevice (w : W) (s : RunnerWorld W) (d : DeviceId) : RunnerWorld W :=
  let r := (s.deviceShared d).reqSignal.pollWait w
  let s := { s with
    deviceShared := s.deviceShared.modify d fun sh => { sh with reqSignal := r.state } }.wake r.woken
  match r.ready with
  | some ep => { s with interruptEndpoints := s.interruptEndpoints ++ [ep] }
  | none => s

/-- Poll the request signal of an interrupt endpoint: a queue head for the periodic list. -/
def pollInterruptEndpoint (w : W) (s : RunnerWorld W) (e : InterruptEpId) : Option (RunnerWorld W) :=
  let r := (s.interruptShared e).reqSignal.pollWait w
  let s := { s with
    interruptShared := s.interruptShared.modify e fun sh => { sh with reqSignal := r.state } }.wake
    r.woken
  match r.ready with
  | some req =>
    (PeriodicListManager.addQh s.periodic req.qh req.interval).map fun periodic =>
      { s with periodic, callbacks := s.callbacks ++ [req.callback] }
  | none => some s

/-- Poll the request signal of a control endpoint: a queue head for the asynchronous list. -/
def pollControlEndpoint (w : W) (s : RunnerWorld W) (e : ControlEpId) : Option (RunnerWorld W) :=
  let r := (s.controlShared e).reqSignal.pollWait w
  let s := { s with
    controlShared := s.controlShared.modify e fun sh => { sh with reqSignal := r.state } }.wake r.woken
  match r.ready with
  | some qh => (AsyncListManager.addQhToAsyncList s.async qh).map fun async => { s with async }
  | none => some s

/-! ## The reset loop -/

def writePortSc (s : RunnerWorld W) (i : Nat) (v : PortScReg) : RunnerWorld W :=
  { s with portScWritten := s.portScWritten ++ [(i, v)] }

/-- Answer the request in progress; the reset is over. -/
def answer (s : RunnerWorld W) (rd : ResettingDevice W) (result : Except DriverError Device) :
    RunnerWorld W :=
  let i := rd.rootPort.toNat
  let r := (s.rootPorts i).resSignal.signal result
  { s with
    rootPorts := s.rootPorts.modify i fun sh => { sh with resSignal := r.1 }
    resettingDevice := none
    answers := s.answers ++ [ResetAnswer.mk i result rd.statusRead] }.wake r.2

def pollRootPort (w : W) (s : RunnerWorld W) (i : Nat) : RunnerWorld W :=
  let r := (s.rootPorts i).reqSignal.pollWait w
  { s with rootPorts := s.rootPorts.modify i fun sh => { sh with reqSignal := r.state } }.wake r.woken

def startReset (rds : ResetReadings) (s : RunnerWorld W) (i : Nat) (req : ResetDeviceResources) :
    Option (RunnerWorld W) :=
  if i < 16 then
    let s := s.writePortSc i (rds.portScUpdate.withPortReset true).withoutWriteToClearBits
    let rd : ResettingDevice W := ⟨req, BitVec.ofNat 4 i, .waitingToStopReset, none⟩
    some { s with resettingDevice := some rd }
  else none

/-- Poll the root ports in order; the first request starts a reset. The flag says that the loop
goes on. -/
def pollRootPorts (w : W) (rds : ResetReadings) :
    List Nat → RunnerWorld W → Option (RunnerWorld W × Bool)
  | [], s => some (s, false)
  | i :: is, s =>
    match ((s.rootPorts i).reqSignal.pollWait w).ready with
    | none => pollRootPorts w rds is (s.pollRootPort w i)
    | some req => ((s.pollRootPort w i).startReset rds i req).map (·, true)

/-- The port is enabled: give the device an address. -/
def startSetAddr (oc : OverflowChecks) (s : RunnerWorld W) (rd : ResettingDevice W) :
    Option (RunnerWorld W) := do
  let (alloc, addr) ← s.addrAllocator.allocateAddr
  let q : Queue := ⟨(s.async.heap rd.req.qh.ptr).qh, s.qtds⟩
  let q ← setAddressStart oc s.ctrlDsSegment q rd.req.buffer rd.req.setupQtd rd.req.statusQtd
  let heap := s.async.heap.modify rd.req.qh.ptr fun m => { m with qh := q.qh }
  let async ← AsyncListManager.addQhToAsyncList { s.async with heap } rd.req.qh
  some { s with
    addrAllocator := alloc
    setupPackets := s.setupPackets.modify rd.req.buffer.ptr fun _ => .newSetAddress addr
    qtds := q.qtds
    async
    resettingDevice := some { rd with step := .waitForSetAddr addr } }

/-- The status descriptor is no longer active: ask for the removal of the queue head. -/
def queueRemove (s : RunnerWorld W) (rds : ResetReadings) (rd : ResettingDevice W) (addr : BitVec 7) :
    RunnerWorld W :=
  { s with
    async := AsyncListManager.queueRemoveQh s.async rd.req.qh s.nextSender
    nextSender := s.nextSender + 1
    resettingDevice := some { rd with
      step := .waitForQhRemove addr s.nextSender none
      statusRead := some rds.statusToken } }

/-- `devices.insert`. -/
def insertDevice (p : RootPortNumber) (d : DeviceId) :
    List (RootPortNumber × DeviceId) → List (RootPortNumber × DeviceId)
  | [] => [(p, d)]
  | (p', d') :: l =>
    if p < p' then (p, d) :: (p', d') :: l
    else if p = p' then (p, d) :: l
    else (p', d') :: insertDevice p d l

/-- The shared states of a new device and its endpoint 0. -/
def addDevice (s : RunnerWorld W) (port : RootPortNumber) : RunnerWorld W :=
  { s with
    deviceShared := s.deviceShared.modify s.nextDevice fun _ => .default
    controlShared := s.controlShared.modify s.nextControl fun _ => .default
    nextDevice := s.nextDevice + 1
    nextControl := s.nextControl + 1
    devices := insertDevice port s.nextDevice s.devices
    controlEndpoints := s.controlEndpoints ++ [s.nextControl] }

/-- The queue head is out of the list: the device is ready. -/
def finishReset (s : RunnerWorld W) (rd : ResettingDevice W) (addr : BitVec 7) : RunnerWorld W :=
  let device : Device := ⟨addr, s.nextDevice, s.ctrlDsSegment, s.nextControl⟩
  (s.addDevice rd.rootPort).answer rd (.ok device)

def resetStep (oc : OverflowChecks) (w : W) (rds : ResetReadings) (s : RunnerWorld W)
    (rd : ResettingDevice W) : Option (RunnerWorld W × Bool) :=
  match rd.step with
  | .waitingToStopReset =>
    if !rds.portSc.currentConnectStatus then some (s.answer rd (.error .deviceDisconnected), true)
    else if rds.timerReady then
      let s := s.writePortSc rd.rootPort.toNat
        (rds.portScUpdate.withPortReset false).withoutWriteToClearBits
      some ({ s with resettingDevice := some { rd with step := .waitForPortToBeEnabled } }, true)
    else some (s, false)
  | .waitForPortToBeEnabled =>
    if !rds.portSc.currentConnectStatus then some (s.answer rd (.error .deviceDisconnected), true)
    else if rds.portSc.portEnabled then (s.startSetAddr oc rd).map (·, true)
    else if rds.timerReady then some (s.answer rd (.error .deviceIsFullSpeed), true)
    else some (s, false)
  | .waitForSetAddr addr =>
    if !rds.statusToken.active then some (s.queueRemove rds rd addr, true) else some (s, false)
  | .waitForQhRemove addr sender _ =>
    if sender ∈ s.async.sent then some (s.finishReset rd addr, true)
    else some ({ s with resettingDevice := some { rd with
      step := .waitForQhRemove addr sender (some w) } }, false)

def resetIter (oc : OverflowChecks) (w : W) (rds : ResetReadings) (s : RunnerWorld W) :
    Option (RunnerWorld W × Bool) :=
  match s.resettingDevice with
  | none => pollRootPorts w rds (List.range s.nPorts) s
  | some rd => resetStep oc w rds s rd

def resetLoop (oc : OverflowChecks) (w : W) : List ResetReadings → RunnerWorld W → Option (RunnerWorld W)
  | [], _ => none
  | rds :: rest, s =>
    match resetIter oc w rds s with
    | none => none
    | some (s, true) => resetLoop oc w rest s
    | some (s, false) => some s

/-! ## The poll -/

/-- The runner is polled: it registers its waker. -/
def beginPoll (s : RunnerWorld W) : RunnerWorld W :=
  { s with irq := s.irq.register, woken := Function.update s.woken s.runnerTask false }

def pollFlags (s : RunnerWorld W) : RunnerWorld W :=
  s.forwardUsbInt.handleAsyncAdvance.forwardPortChange

def pollDevices (w : W) (s : RunnerWorld W) : RunnerWorld W := s.deviceIds.foldl (pollDevice w) s

def pollInterruptEndpoints (w : W) (s : RunnerWorld W) : Option (RunnerWorld W) :=
  s.interruptEndpoints.foldlM (pollInterruptEndpoint w) s

def pollControlEndpoints (w : W) (s : RunnerWorld W) : Option (RunnerWorld W) :=
  s.controlEndpoints.foldlM (pollControlEndpoint w) s

/-- One poll of the runner; it always returns `Pending`. -/
def poll (oc : OverflowChecks) (w : W) (rds : List ResetReadings) (s : RunnerWorld W) :
    Option (RunnerWorld W) := do
  let s := (s.beginPoll.pollFlags).pollDevices w
  let s ← s.pollInterruptEndpoints w
  let s ← s.pollControlEndpoints w
  let s ← resetLoop oc w rds s
  some { s with pending := true }

end RunnerWorld

end EzEhci
