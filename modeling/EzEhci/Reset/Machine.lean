import EzEhci.Runner.State

/-!
# The reset protocol

What the reset of a device is about: the request signals and response signals
of the root ports, the reset in progress and its stage, the asynchronous list
its queue head goes through, and the addresses. `ResetStep` lists the steps of
this machine with the events a run records; between two of them anything else
may happen. Clients lend a queue head to the driver with a request and get it
back with the answer (`lent`).
-/

namespace EzEhci

open Lib AsyncListManager

/-- The stages of a reset: `ResetDeviceStep` without its timers and wakers. -/
inductive ResetStage where
  | waitingToStopReset
  | waitForPortToBeEnabled
  | waitForSetAddr (addr : BitVec 7)
  | waitForQhRemove (addr : BitVec 7) (sender : SenderId)
  deriving DecidableEq, Repr

structure OngoingReset where
  req : ResetDeviceResources
  rootPort : Nat
  stage : ResetStage
  deriving DecidableEq, Repr

/-- The state of the reset protocol. The signals are the values they hold. -/
structure ResetState where
  ongoing : Option OngoingReset
  addrAllocator : AddressAllocator
  async : AsyncState
  devicePorts : List RootPortNumber
  nextSender : SenderId
  portReq : Nat → Option ResetDeviceResources
  portRes : Nat → Option (Except DriverError Device)
  controlReq : ControlEpId → Option MappedMem

/-- What a run of the protocol records. An answer comes with the queue heads in memory at that
moment. -/
inductive ResetEvent where
  | called (i : Nat) (req : ResetDeviceResources)
  | returned (i : Nat) (result : Except DriverError Device)
  | dropped (i : Nat)
  | loaded (qhMem : MappedMem)
  | consumed (i : Nat) (req : ResetDeviceResources)
  | wrote (i : Nat) (v : PortScReg)
  | disconnected (i : Nat) (req : ResetDeviceResources)
  | assigned (i : Nat) (addr : BitVec 7)
  | statusInactive (req : ResetDeviceResources)
  | removalQueued (req : ResetDeviceResources) (sender : SenderId)
  | fired (sender : SenderId)
  | answered (i : Nat) (req : ResetDeviceResources) (result : Except DriverError Device)
      (heap : Heap QhWithMetaA)
  | pollEnded

/-! ## What a record says -/

/-- The queue heads in the hands of the driver. -/
def lend (l : List Ptr) : ResetEvent → List Ptr
  | .called _ req => req.qh.ptr :: l
  | .loaded qhMem => qhMem.ptr :: l
  | .answered _ req _ _ => l.filter (· ≠ req.qh.ptr)
  | _ => l

def lent (log : List ResetEvent) : List Ptr := log.foldl lend []

/-- A call of `reset_device` on port `i` is in progress. -/
def callEvent (i : Nat) (b : Bool) : ResetEvent → Bool
  | .called j _ => b || i == j
  | .returned j _ => b && i != j
  | .dropped j => b && i != j
  | _ => b

def callActive (log : List ResetEvent) (i : Nat) : Bool := log.foldl (callEvent i) false

theorem lent_append (log l : List ResetEvent) : lent (log ++ l) = l.foldl lend (lent log) :=
  List.foldl_append

/-! ## The steps -/

namespace ResetState

/-- A queue head that a client may lend to the driver. -/
def Fresh (dma : Dma) (s : ResetState) (log : List ResetEvent) (m : MappedMem) : Prop :=
  m.Usable dma s.async.mgr.ctrlDsSegment ∧ m.ptr ≠ s.async.mgr.anchorQh.ptr ∧ m.ptr ∉ lent log

instance (dma : Dma) (s : ResetState) (log : List ResetEvent) (m : MappedMem) :
    Decidable (s.Fresh dma log m) := inferInstanceAs (Decidable (_ ∧ _ ∧ _))

def answer (s : ResetState) (i : Nat) (result : Except DriverError Device) : ResetState :=
  { s with ongoing := none, portRes := Function.update s.portRes i (some result) }

/-- The reset in progress goes on to another stage. -/
def setStage (s : ResetState) (r : OngoingReset) (stage : ResetStage) : ResetState :=
  { s with ongoing := some { r with stage } }

/-- The SET_ADDRESS transfer is prepared in the queue head and the queue head linked. -/
def linkQh (s : ResetState) (qh : MappedMem) (prepared : Qh) : Option AsyncState :=
  addQhToAsyncList
    { s.async with heap := s.async.heap.modify qh.ptr fun m => { m with qh := prepared } } qh

end ResetState

def disconnectedEvents (rds : ResetReadings) (r : OngoingReset) : List ResetEvent :=
  if rds.portSc.currentConnectStatus then [] else [.disconnected r.rootPort r.req]

/-- The steps of the reset loop on a reset in progress. -/
inductive ResetProgress (s : ResetState) (rds : ResetReadings) (r : OngoingReset) :
    List ResetEvent → ResetState → Prop
  | disconnected (hstage : r.stage = .waitingToStopReset ∨ r.stage = .waitForPortToBeEnabled)
      (hread : rds.portSc.currentConnectStatus = false) :
      ResetProgress s rds r
        [.answered r.rootPort r.req (.error .deviceDisconnected) s.async.heap]
        (s.answer r.rootPort (.error .deviceDisconnected))
  | resetDone (v : PortScReg) (hstage : r.stage = .waitingToStopReset)
      (hread : rds.portSc.currentConnectStatus = true) (hv : v.portReset = false) :
      ResetProgress s rds r [.wrote r.rootPort v] (s.setStage r .waitForPortToBeEnabled)
  | fullSpeed (hstage : r.stage = .waitForPortToBeEnabled)
      (hread : rds.portSc.currentConnectStatus = true) :
      ResetProgress s rds r
        [.answered r.rootPort r.req (.error .deviceIsFullSpeed) s.async.heap]
        (s.answer r.rootPort (.error .deviceIsFullSpeed))
  | enabled (alloc : AddressAllocator) (addr : BitVec 7) (prepared : Qh) (async : AsyncState)
      (hstage : r.stage = .waitForPortToBeEnabled) (hread : rds.portSc.currentConnectStatus = true)
      (halloc : s.addrAllocator.allocateAddr = some (alloc, addr))
      (hasync : s.linkQh r.req.qh prepared = some async) :
      ResetProgress s rds r [.assigned r.rootPort addr]
        { s.setStage r (.waitForSetAddr addr) with addrAllocator := alloc, async }
  | addressed (addr : BitVec 7) (hstage : r.stage = .waitForSetAddr addr)
      (hread : rds.statusToken.active = false) :
      ResetProgress s rds r [.statusInactive r.req, .removalQueued r.req s.nextSender]
        { s.setStage r (.waitForQhRemove addr s.nextSender) with
          async := queueRemoveQh s.async r.req.qh s.nextSender
          nextSender := s.nextSender + 1 }
  | removed (addr : BitVec 7) (sender : SenderId) (device : Device) (e : ControlEpId)
      (hstage : r.stage = .waitForQhRemove addr sender) (hsent : sender ∈ s.async.sent)
      (hdevice : device.address = addr) (ports : List RootPortNumber)
      (hports : ∀ p, p ∈ ports ↔ p.toNat = r.rootPort ∨ p ∈ s.devicePorts)
      (hsorted : s.devicePorts.Pairwise (· < ·) → ports.Pairwise (· < ·)) :
      ResetProgress s rds r [.answered r.rootPort r.req (.ok device) s.async.heap]
        { s.answer r.rootPort (.ok device) with
          devicePorts := ports
          controlReq := Function.update s.controlReq e none }
  | waits (hwait : (r.stage = .waitingToStopReset ∨ r.stage = .waitForPortToBeEnabled) ∧
          rds.portSc.currentConnectStatus = true ∨
        (∃ addr, r.stage = .waitForSetAddr addr ∧ rds.statusToken.active = true) ∨
        ∃ addr sender, r.stage = .waitForQhRemove addr sender ∧ sender ∉ s.async.sent) :
      ResetProgress s rds r [.pollEnded] s

theorem ResetProgress.of_eq {s t t' : ResetState} {rds : ResetReadings} {r : OngoingReset}
    {l l' : List ResetEvent} (h : ResetProgress s rds r l t) (hl : l' = l) (ht : t' = t) :
    ResetProgress s rds r l' t' :=
  hl ▸ ht ▸ h

/-- The steps of the protocol, after the events `log`. A step of the reset in progress is taken with
readings. -/
inductive ResetStep (dma : Dma) (log : List ResetEvent) (s : ResetState) :
    Option ResetReadings → List ResetEvent → ResetState → Prop
  | quiet : ResetStep dma log s none [] s
  | called (i : Nat) (req : ResetDeviceResources) (hfresh : s.Fresh dma log req.qh)
      (hidle : callActive log i = false) :
      ResetStep dma log s none [.called i req]
        { s with portReq := Function.update s.portReq i (some req) }
  | returned (i : Nat) (result : Except DriverError Device) (hactive : callActive log i = true)
      (hres : s.portRes i = some result) :
      ResetStep dma log s none [.returned i result]
        { s with portRes := Function.update s.portRes i none }
  | dropped (i : Nat) (hactive : callActive log i = true) : ResetStep dma log s none [.dropped i] s
  | loaded (e : ControlEpId) (m : MappedMem) (prepared : Qh) (hfresh : s.Fresh dma log m) :
      ResetStep dma log s none [.loaded m]
        { s with
          controlReq := Function.update s.controlReq e (some m)
          async := { s.async with
            heap := s.async.heap.modify m.ptr fun q => { q with qh := prepared } } }
  | watched : ResetStep dma log s none [] { s with nextSender := s.nextSender + 1 }
  | fired : ResetStep dma log s none (s.async.mgr.qhsRemovedBeforeDoorbell.map .fired)
      { s with async := handleAsyncAdvance s.async }
  | control (e : ControlEpId) (m : MappedMem) (async : AsyncState) (hreq : s.controlReq e = some m)
      (hasync : addQhToAsyncList s.async m = some async) :
      ResetStep dma log s none []
        { s with async, controlReq := Function.update s.controlReq e none }
  | consumed (i : Nat) (req : ResetDeviceResources) (v : PortScReg) (hreq : s.portReq i = some req)
      (hnone : s.ongoing = none) (hi : i < 16) (hv : v.portReset = true) :
      ResetStep dma log s none [.consumed i req, .wrote i v]
        { s with
          portReq := Function.update s.portReq i none
          ongoing := some ⟨req, i, .waitingToStopReset⟩ }
  | ended (hnone : s.ongoing = none) : ResetStep dma log s none [.pollEnded] s
  | progress {rds : ResetReadings} {r : OngoingReset} {l : List ResetEvent} {s' : ResetState}
      (hr : s.ongoing = some r) (h : ResetProgress s rds r l s') :
      ResetStep dma log s (some rds) (disconnectedEvents rds r ++ l) s'

theorem ResetStep.of_eq {dma : Dma} {log l : List ResetEvent} {s t t' : ResetState}
    {o : Option ResetReadings} (h : ResetStep dma log s o l t) (ht : t' = t) :
    ResetStep dma log s o l t' :=
  ht ▸ h

/-! ## Events that concern no request -/

/-- The event neither takes nor answers a request nor writes PORTSC. -/
def ResetEvent.neutral : ResetEvent → Bool
  | .consumed _ _ | .wrote _ _ | .answered .. => false
  | _ => true

/-- The event is none of a reset in progress: a client's, a callback or the end of a poll. -/
def ResetEvent.outside : ResetEvent → Bool
  | .called .. | .returned .. | .dropped _ | .loaded _ | .fired _ | .pollEnded => true
  | _ => false

theorem ResetEvent.neutral_of_outside {l : List ResetEvent} (hl : ∀ e ∈ l, e.outside = true) :
    ∀ e ∈ l, e.neutral = true := by
  intro e he
  have hout := hl e he
  cases e <;> first | rfl | cases hout

theorem neutral_fired (xs : List SenderId) : ∀ e ∈ xs.map ResetEvent.fired, e.neutral = true := by
  intro e he
  obtain ⟨x, -, rfl⟩ := List.mem_map.mp he
  rfl

theorem neutral_disconnected (rds : ResetReadings) (r : OngoingReset) :
    ∀ e ∈ disconnectedEvents rds r, e.neutral = true := by
  unfold disconnectedEvents
  split <;> simp [ResetEvent.neutral]

theorem neutral_read (rds : ResetReadings) (r : OngoingReset) {l : List ResetEvent}
    (hl : ∀ e ∈ l, e.neutral = true) : ∀ e ∈ disconnectedEvents rds r ++ l, e.neutral = true := by
  intro e he
  rcases List.mem_append.mp he with he | he
  · exact neutral_disconnected rds r e he
  · exact hl e he

theorem neutral_singleton {e : ResetEvent} (he : e.neutral = true) : ∀ e' ∈ [e], e'.neutral = true :=
  fun _ hmem => List.mem_singleton.mp hmem ▸ he

/-- A step leaves the reset in progress alone, takes a request, or works on the reset in progress. -/
theorem ResetStep.kinds {dma : Dma} {log l : List ResetEvent} {s s' : ResetState}
    {o : Option ResetReadings} (h : ResetStep dma log s o l s') :
    (o = none ∧ (∀ e ∈ l, e.outside = true) ∧ s'.ongoing = s.ongoing ∧
      s'.addrAllocator = s.addrAllocator ∧ s'.devicePorts = s.devicePorts) ∨
    (∃ i req v, o = none ∧ l = [.consumed i req, .wrote i v] ∧ s.portReq i = some req ∧
      s.ongoing = none ∧ i < 16 ∧ v.portReset = true ∧ s' = { s with
        portReq := Function.update s.portReq i none
        ongoing := some ⟨req, i, .waitingToStopReset⟩ }) ∨
    ∃ rds r l', o = some rds ∧ s.ongoing = some r ∧ l = disconnectedEvents rds r ++ l' ∧
      ResetProgress s rds r l' s' := by
  cases h with
  | consumed i req v hreq hnone hi hv =>
    exact .inr (.inl ⟨i, req, v, rfl, rfl, hreq, hnone, hi, hv, rfl⟩)
  | progress hr hp => exact .inr (.inr ⟨_, _, _, rfl, hr, rfl, hp⟩)
  | fired => exact .inl ⟨rfl, by simp [ResetEvent.outside], rfl, rfl, rfl⟩
  | quiet | watched | control => exact .inl ⟨rfl, nofun, rfl, rfl, rfl⟩
  | called | returned | dropped | loaded | ended =>
    exact .inl ⟨rfl, by simp [ResetEvent.outside], rfl, rfl, rfl⟩

end EzEhci
