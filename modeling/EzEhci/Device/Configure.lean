import EzEhci.Endpoint.Interrupt

/-!
# Choosing a configuration

`Device` and `DeviceWithInfo::set_configuration` after its control transfer:
the call goes through the interfaces of the configuration and their endpoints
in order, one at a time, and makes the shared state of each interrupt endpoint.
A class 9 device becomes a hub, which keeps only its first endpoint.
-/

namespace EzEhci

open Lib

/-- The identity of an `Arc<DeviceSharedState>`. -/
abbrev DeviceId := Nat

/-- The identity of an `Arc<ControlEndpointSharedState>`. -/
abbrev ControlEpId := Nat

structure Device where
  address : BitVec 7
  shared : DeviceId
  ctrlDsSegment : CtrlDsSegment
  ep0 : ControlEpId
  deriving DecidableEq, Repr

inductive EndpointEnum where
  | control
  | bulk
  | interrupt (ep : InterruptEndpoint)
  | isochronous
  deriving DecidableEq, Repr

def EndpointEnum.interrupt? : EndpointEnum → Option InterruptEndpoint
  | .interrupt ep => some ep
  | _ => none

structure Interface where
  endpoints : List EndpointEnum
  deriving DecidableEq, Repr

/-- The interrupt endpoints of a list of interfaces. -/
def interruptEndpointsOf (interfaces : List Interface) : List InterruptEndpoint :=
  (interfaces.flatMap Interface.endpoints).filterMap EndpointEnum.interrupt?

inductive ConfiguredDeviceOrHub where
  | device (interfaces : List Interface)
  | hub (interruptEndpoint : InterruptEndpoint)
  deriving DecidableEq, Repr

/-- The interrupt endpoints a call of `set_configuration` returned. -/
def ConfiguredDeviceOrHub.interruptEndpoints : ConfiguredDeviceOrHub → List InterruptEndpoint
  | .device interfaces => interruptEndpointsOf interfaces
  | .hub ep => [ep]

/-- A call of `set_configuration`: the endpoints to go, interface by interface, those made of the
interface at hand and the interfaces made. -/
structure Configuring where
  device : Device
  info : DeviceInfo
  index : Nat
  todo : List (List EndpointInfo)
  current : List EndpointEnum
  made : List Interface
  deriving DecidableEq, Repr

namespace Configuring

/-- The call after its control transfer; `none` if there is no such configuration. -/
def start (device : Device) (info : DeviceInfo) (index : Nat) : Option Configuring :=
  info.configurations[index]?.map fun configuration =>
    ⟨device, info, index, configuration.interfaces.map InterfaceInfo.endpoints, [], []⟩

/-- The endpoint made from its description, with the shared state `shared` if it is an interrupt
endpoint. -/
def makeEndpoint (c : Configuring) (endpoint : EndpointInfo) (shared : InterruptEpId) : EndpointEnum :=
  match endpoint.transferType with
  | .control => .control
  | .isochronous => .isochronous
  | .interrupt => .interrupt ⟨c.device.address, shared, endpoint, c.device.ctrlDsSegment⟩
  | .bulk => .bulk

/-- The call makes an interrupt endpoint next, and registers it. -/
def registers (c : Configuring) : Bool :=
  match c.todo with
  | (endpoint :: _) :: _ => endpoint.transferType = .interrupt
  | _ => false

/-- The call makes the next endpoint, or closes the interface at hand. -/
def next (c : Configuring) (shared : InterruptEpId) : Configuring :=
  match c.todo with
  | [] => c
  | [] :: todo => { c with todo, current := [], made := c.made ++ [⟨c.current⟩] }
  | (endpoint :: rest) :: todo =>
    { c with todo := rest :: todo, current := c.current ++ [c.makeEndpoint endpoint shared] }

/-- What the call returns when it is through; `none` is the panic of a hub whose first endpoint is
missing or no interrupt endpoint. -/
def result (c : Configuring) : Option ConfiguredDeviceOrHub :=
  if c.info.deviceClass = 0x9 then
    match c.made with
    | ⟨.interrupt ep :: _⟩ :: _ => some (.hub ep)
    | _ => none
  else some (.device c.made)

def interruptEndpoints (c : Configuring) : List InterruptEndpoint :=
  interruptEndpointsOf (c.made ++ [⟨c.current⟩])

def interruptIds (c : Configuring) : List InterruptEpId := c.interruptEndpoints.map (·.shared)

end Configuring

/-! ## The endpoints it makes -/

@[simp] theorem interruptEndpointsOf_nil : interruptEndpointsOf [] = [] := rfl

@[simp] theorem interruptEndpointsOf_append (l l' : List Interface) :
    interruptEndpointsOf (l ++ l') = interruptEndpointsOf l ++ interruptEndpointsOf l' := by
  simp [interruptEndpointsOf]

@[simp] theorem interruptEndpointsOf_cons (i : Interface) (l : List Interface) :
    interruptEndpointsOf (i :: l) =
      i.endpoints.filterMap EndpointEnum.interrupt? ++ interruptEndpointsOf l := by
  simp [interruptEndpointsOf]

namespace Configuring

variable {c : Configuring} {shared : InterruptEpId}

theorem makeEndpoint_interrupt? (c : Configuring) (shared : InterruptEpId) (endpoint : EndpointInfo) :
    ((c.makeEndpoint endpoint shared).interrupt?.map (·.shared)) =
      if endpoint.transferType = .interrupt then some shared else none := by
  unfold makeEndpoint
  cases endpoint.transferType <;> rfl

/-- A step of the call makes the identity it is given exactly when it registers. -/
theorem interruptIds_next (c : Configuring) (shared : InterruptEpId) :
    (c.next shared).interruptIds = c.interruptIds ++ if c.registers then [shared] else [] := by
  unfold next registers
  split
  next htodo => simp [htodo]
  next htodo => simp [interruptIds, interruptEndpoints, htodo]
  next endpoint rest todo htodo =>
    have h := makeEndpoint_interrupt? c shared endpoint
    by_cases hi : endpoint.transferType = .interrupt
    · rw [if_pos hi, Option.map_eq_some_iff] at h
      obtain ⟨ep, hep, rfl⟩ := h
      simp [interruptIds, interruptEndpoints, htodo, hi, List.filterMap_append, hep]
    · rw [if_neg hi, Option.map_eq_none_iff] at h
      simp [interruptIds, interruptEndpoints, htodo, hi, List.filterMap_append, h]

theorem interruptIds_of_not_registers (c : Configuring) (shared : InterruptEpId)
    (h : c.registers = false) : (c.next shared).interruptIds = c.interruptIds := by
  rw [interruptIds_next, h, if_neg Bool.false_ne_true, List.append_nil]

theorem mem_interruptEndpoints_of_result {r : ConfiguredDeviceOrHub} (h : c.result = some r)
    {ep : InterruptEndpoint} (hep : ep ∈ r.interruptEndpoints) : ep ∈ interruptEndpointsOf c.made := by
  unfold result at h
  split at h
  · split at h
    next ep' rest ifs hmade =>
      cases h
      rw [ConfiguredDeviceOrHub.interruptEndpoints, List.mem_singleton] at hep
      subst hep
      simp [interruptEndpointsOf, hmade, EndpointEnum.interrupt?]
    · cases h
  · cases h
    exact hep

/-! ## The shape of a configuration -/

end Configuring

def EndpointEnum.transferType : EndpointEnum → TransferType
  | .control => .control
  | .bulk => .bulk
  | .interrupt _ => .interrupt
  | .isochronous => .isochronous

/-- The transfer types of the endpoints a configuration describes, interface by interface. -/
def DeviceInfo.shape (info : DeviceInfo) (index : Nat) : List (List TransferType) :=
  info.configurations[index]?.elim [] fun configuration =>
    configuration.interfaces.map fun i => i.endpoints.map EndpointInfo.transferType

def Interface.shape (i : Interface) : List TransferType := i.endpoints.map EndpointEnum.transferType

/-- How many interrupt endpoints a shape has. -/
def interruptCount (shape : List (List TransferType)) : Nat := shape.flatten.count .interrupt

theorem filterMap_interrupt?_length (l : List EndpointEnum) :
    (l.filterMap EndpointEnum.interrupt?).length =
      (l.map EndpointEnum.transferType).count .interrupt := by
  induction l with
  | nil => rfl
  | cons e l ih =>
    rw [List.filterMap_cons, List.map_cons, List.count_cons, ← ih]
    cases e <;> simp [EndpointEnum.interrupt?, EndpointEnum.transferType]

theorem interruptEndpointsOf_length (l : List Interface) :
    (interruptEndpointsOf l).length = interruptCount (l.map Interface.shape) := by
  induction l with
  | nil => rfl
  | cons i l ih =>
    rw [interruptEndpointsOf_cons, List.length_append, ih, filterMap_interrupt?_length]
    simp [interruptCount, Interface.shape]

namespace Configuring

variable {c : Configuring} {shared : InterruptEpId}

/-- The shape of what the call has made and has to go through. -/
def shape (c : Configuring) : List (List TransferType) :=
  c.made.map Interface.shape ++
    match c.todo with
    | [] => []
    | endpoints :: todo =>
      (c.current.map EndpointEnum.transferType ++ endpoints.map EndpointInfo.transferType) ::
        todo.map fun endpoints => endpoints.map EndpointInfo.transferType

/-- The call goes through the configuration it was given. -/
structure Follows (c : Configuring) : Prop where
  shape : c.shape = c.info.shape c.index
  closed : c.todo = [] → c.current = []

theorem makeEndpoint_transferType (endpoint : EndpointInfo) :
    (c.makeEndpoint endpoint shared).transferType = endpoint.transferType := by
  unfold makeEndpoint
  split <;> simp_all [EndpointEnum.transferType]

theorem start_follows {device : Device} {info : DeviceInfo} {index : Nat}
    (h : start device info index = some c) : c.Follows ∧ c.interruptIds = [] := by
  obtain ⟨configuration, hc, rfl⟩ := Option.map_eq_some_iff.mp h
  refine ⟨⟨?_, fun _ => rfl⟩, rfl⟩
  simp only [Configuring.shape, DeviceInfo.shape, hc, Option.elim_some, List.map_nil, List.nil_append]
  cases configuration.interfaces <;> simp

theorem next_shape : (c.next shared).shape = c.shape := by
  unfold next
  split
  next htodo => rfl
  next todo htodo =>
    simp only [Configuring.shape, htodo]
    cases todo <;> simp [Interface.shape]
  next endpoint rest todo htodo =>
    simp [Configuring.shape, htodo, makeEndpoint_transferType]

theorem next_info : (c.next shared).info = c.info ∧ (c.next shared).index = c.index := by
  unfold next
  split <;> exact ⟨rfl, rfl⟩

theorem Follows.next (h : c.Follows) : (c.next shared).Follows where
  shape := by rw [next_shape, next_info.1, next_info.2, h.shape]
  closed hnil := by
    unfold Configuring.next at hnil ⊢
    split at hnil
    next htodo => exact h.closed htodo
    next => rfl
    next => cases hnil

theorem Follows.interruptIds_length (h : c.Follows) (htodo : c.todo = []) :
    c.interruptIds.length = interruptCount (c.info.shape c.index) := by
  rw [← h.shape, interruptIds, List.length_map, interruptEndpoints, interruptEndpointsOf_append,
    h.closed htodo]
  simp [interruptEndpointsOf_length, Configuring.shape, htodo]

/-- A call that is through returns, unless it is for a hub without a first interrupt endpoint. -/
theorem Follows.result_eq_none_iff (h : c.Follows) (htodo : c.todo = []) :
    c.result = none ↔
      c.info.deviceClass = 0x9 ∧ (c.info.shape c.index).head?.bind List.head? ≠ some .interrupt := by
  rw [← h.shape]
  simp only [result, Configuring.shape, htodo, List.append_nil]
  by_cases hclass : c.info.deviceClass = 9#8
  · rcases hmade : c.made with _ | ⟨⟨_ | ⟨e, es⟩⟩, l⟩
    · simp [hclass]
    · simp [hclass, Interface.shape]
    · cases e <;> simp [hclass, Interface.shape, EndpointEnum.transferType]
  · simp [hclass]

theorem Follows.result_head (h : c.Follows) (htodo : c.todo = []) {r : ConfiguredDeviceOrHub}
    (hr : c.result = some r) (hne : c.interruptIds ≠ []) :
    ∃ ep ∈ r.interruptEndpoints, c.interruptIds.head? = some ep.shared := by
  have hids : c.interruptIds = (interruptEndpointsOf c.made).map (·.shared) := by
    simp [interruptIds, interruptEndpoints, h.closed htodo]
  unfold result at hr
  split at hr
  · split at hr
    next ep rest ifs hmade =>
      cases hr
      exact ⟨ep, List.mem_singleton_self ep, by simp [hids, hmade, EndpointEnum.interrupt?]⟩
    · cases hr
  · cases hr
    rw [hids] at hne ⊢
    cases hl : interruptEndpointsOf c.made with
    | nil => simp [hl] at hne
    | cons ep l =>
      exact ⟨ep, by simp [ConfiguredDeviceOrHub.interruptEndpoints, hl], rfl⟩

end Configuring

end EzEhci
