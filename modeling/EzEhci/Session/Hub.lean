import EzEhci.Session.HubDescriptor
import EzEhci.Session.Info

/-!
# Hubs

`Hub::get_info` reads the hub descriptor and goes through the ports: power,
wait, status, and a reset with a second look if a device is connected. What it
would do with a device behind a port is not written yet (`todo!`), so it
returns only if no port is enabled after its reset.

The conversation with any device that answers, a hub or not, has the form
`Returned` or `Failed`; nothing is assumed about what the answers are.
-/

namespace EzEhci

open Lib

/-! ## Port status -/

structure PortStatusData where
  wPortStatus : BitVec 16
  wPortChange : BitVec 16
  deriving DecidableEq, Repr

/-- `transmute!` of the four bytes that were asserted to be there. -/
def PortStatusData.ofBytes : List Byte → Option PortStatusData
  | [s0, s1, c0, c1] => some ⟨u16le s0 s1, u16le c0 c1⟩
  | _ => none

inductive DeviceSpeed where
  | low
  | full
  | high
  deriving DecidableEq, Repr

structure PortStatus where
  raw : BitVec 16
  deriving DecidableEq, Repr

namespace PortStatus

def currentConnectStatus (s : PortStatus) : Bool := bit 0 s.raw

def portEnable (s : PortStatus) : Bool := bit 1 s.raw

def lowSpeedDeviceAttached (s : PortStatus) : Bool := bit 9 s.raw

def highSpeedDeviceAttached (s : PortStatus) : Bool := bit 10 s.raw

def attachedDeviceSpeed (s : PortStatus) : Option DeviceSpeed :=
  if s.portEnable then
    some (match s.lowSpeedDeviceAttached, s.highSpeedDeviceAttached with
      | true, _ => .low
      | false, false => .full
      | false, true => .high)
  else none

end PortStatus

/-! ## The program -/

namespace Hub

def getPortStatus (portNumber : Byte) : SessionProg PortStatusData := do
  let bytes ← Prog.request (.transferIn (.newGetPortStatus portNumber) 4)
  match PortStatusData.ofBytes bytes with
  | none => .fail .panicked
  | some data => pure data

/-- The reset of a port with a device, and the second look at it. -/
def resetPort (portNumber : Byte) : SessionProg Unit := do
  let _ ← Prog.request (.transferNoData (.newSetFeaturePortReset portNumber))
  let _ ← Prog.request (.delay 50)
  let data ← getPortStatus portNumber
  match PortStatus.attachedDeviceSpeed ⟨data.wPortStatus⟩ with
  | some _ => .fail .panicked
  | none => pure ()

def pollPort (oc : OverflowChecks) (fields : HubDescriptorFixedSizeFields) (i : Byte) : SessionProg Unit :=
  match addU oc 1 i with
  | none => .fail .panicked
  | some portNumber => do
    let _ ← Prog.request (.transferNoData (.newSetFeaturePortPower portNumber))
    let _ ← Prog.request (.delay (2 * fields.bPwrOn2PwrGood.toNat))
    let data ← getPortStatus portNumber
    if PortStatus.currentConnectStatus ⟨data.wPortStatus⟩ then resetPort portNumber else pure ()

def getInfo (oc : OverflowChecks) : SessionProg Unit := do
  let bytes ← Prog.request
    (.transferIn (.newGetHubDescriptor (BitVec.ofNat 16 HubDescriptor.size)) HubDescriptor.size)
  match HubDescriptor.fromBytes bytes with
  | none => .fail .panicked
  | some hubDescriptor =>
    Prog.loop (fun i _ => pollPort oc hubDescriptor.fixedSizeFields i)
      (byteRange hubDescriptor.fixedSizeFields.bNbrPorts) ()

/-! ## Conversations -/

def descriptorRead (bytes : List Byte) : QuestionAnswer :=
  (.transferIn (.newGetHubDescriptor (BitVec.ofNat 16 HubDescriptor.size)) HubDescriptor.size, bytes)

def powered (port : Byte) : QuestionAnswer := (.transferNoData (.newSetFeaturePortPower port), [])

def waited (ms : Nat) : QuestionAnswer := (.delay ms, [])

def statusRead (port : Byte) (bytes : List Byte) : QuestionAnswer :=
  (.transferIn (.newGetPortStatus port) 4, bytes)

def resetSent (port : Byte) : QuestionAnswer := (.transferNoData (.newSetFeaturePortReset port), [])

/-- The bytes say that a device is connected, or not. -/
def Says (connected : Bool) (bytes : List Byte) : Prop :=
  ∃ data, PortStatusData.ofBytes bytes = some data ∧
    PortStatus.currentConnectStatus ⟨data.wPortStatus⟩ = connected

/-- The bytes say whether the port is enabled, and for which speed. -/
def Enabled (speed : Option DeviceSpeed) (bytes : List Byte) : Prop :=
  ∃ data, PortStatusData.ofBytes bytes = some data ∧
    PortStatus.attachedDeviceSpeed ⟨data.wPortStatus⟩ = speed

def firstLook (fields : HubDescriptorFixedSizeFields) (port : Byte) (bytes : List Byte) :
    List QuestionAnswer :=
  [powered port, waited (2 * fields.bPwrOn2PwrGood.toNat), statusRead port bytes]

def secondLook (port : Byte) (bytes : List Byte) : List QuestionAnswer :=
  [resetSent port, waited 50, statusRead port bytes]

/-- A port that is done with: empty, or not enabled by the reset. -/
inductive Polled (fields : HubDescriptorFixedSizeFields) (port : Byte) : List QuestionAnswer → Prop where
  | empty {bytes : List Byte} (empty : Says false bytes) : Polled fields port (firstLook fields port bytes)
  | disabled {bytes bytes' : List Byte} (connected : Says true bytes) (disabled : Enabled none bytes') :
      Polled fields port (firstLook fields port bytes ++ secondLook port bytes')

/-- A port that `get_info` stops at: a status of the wrong length, or an enabled device. -/
inductive StoppedAt (fields : HubDescriptorFixedSizeFields) (port : Byte) : List QuestionAnswer → Prop where
  | malformed {bytes : List Byte} (malformed : PortStatusData.ofBytes bytes = none) :
      StoppedAt fields port (firstLook fields port bytes)
  | malformedAgain {bytes bytes' : List Byte} (connected : Says true bytes)
      (malformed : PortStatusData.ofBytes bytes' = none) :
      StoppedAt fields port (firstLook fields port bytes ++ secondLook port bytes')
  | attached {bytes bytes' : List Byte} (speed : DeviceSpeed) (connected : Says true bytes)
      (enabled : Enabled (some speed) bytes') :
      StoppedAt fields port (firstLook fields port bytes ++ secondLook port bytes')

def ports (fields : HubDescriptorFixedSizeFields) : List Byte := (byteRange fields.bNbrPorts).map (1 + ·)

/-- The ports `done` were polled after the descriptor was read. -/
def PolledAll (bytes : List Byte) (fields : HubDescriptorFixedSizeFields) (done : List Byte)
    (log : List QuestionAnswer) : Prop :=
  ∃ blocks, List.Forall₂ (Polled fields) done blocks ∧ log = descriptorRead bytes :: blocks.flatten

/-- The conversation of a run that returns. -/
def Returned (log : List QuestionAnswer) : Prop :=
  ∃ bytes d, HubDescriptor.fromBytes bytes = some d ∧
    PolledAll bytes d.fixedSizeFields (ports d.fixedSizeFields) log

/-- The conversation of a run that panics. -/
inductive Failed : List QuestionAnswer → Prop where
  | descriptor {bytes : List Byte} (malformed : HubDescriptor.fromBytes bytes = none) :
      Failed [descriptorRead bytes]
  | port {bytes : List Byte} {d : HubDescriptor} {done rest : List Byte} {port : Byte}
      {log block : List QuestionAnswer} (read : HubDescriptor.fromBytes bytes = some d)
      (split : ports d.fixedSizeFields = done ++ port :: rest)
      (polled : PolledAll bytes d.fixedSizeFields done log)
      (stopped : StoppedAt d.fixedSizeFields port block) : Failed (log ++ block)

/-- What may be asked of a hub: a port is looked at after it was powered or reset and given time, and
reset right after it said that a device is connected. -/
structure Asks {δ : Type} (s : Session δ) (q : Question) : Prop where
  disciplined : q.Disciplined
  bufferLen : q.bufferLen ≤ HubDescriptor.size
  status : ∀ port len, q = .transferIn (.newGetPortStatus port) len → ∃ log,
    (∃ bytes d, descriptorRead bytes ∈ s.log ∧ HubDescriptor.fromBytes bytes = some d ∧
      s.log = log ++ [powered port, waited (2 * d.fixedSizeFields.bPwrOn2PwrGood.toNat)]) ∨
    s.log = log ++ [resetSent port, waited 50]
  reset : ∀ port, q = .transferNoData (.newSetFeaturePortReset port) →
    ∃ log bytes, Says true bytes ∧ s.log = log ++ [statusRead port bytes]

/-! ## The conversation of `get_info` -/

section Conversation

variable {δ : Type} {dev : UsbDevice δ} {s : Session δ} {port : Byte}

theorem asks_delay (ms : Nat) : Asks s (.delay ms) where
  disciplined := trivial
  bufferLen := Nat.zero_le _
  status _ _ h := by cases h
  reset _ h := by cases h

theorem asks_descriptor (bytes : List Byte) : Asks s (descriptorRead bytes).1 where
  disciplined := ⟨by decide, by decide, by decide⟩
  bufferLen := le_rfl
  status port _ h := by
    cases @DriverRequest.packet_injective (.getHubDescriptor _) (.getPortStatus port)
      (Question.transferIn.inj h).1
  reset _ h := by cases h

theorem disciplined_setPortFeature (feature : HubFeature) (port : Byte) :
    (Question.transferNoData (.newSetPortFeature feature port)).Disciplined := by
  refine ⟨?_, rfl⟩
  show (BmRequestType.build .other .class_ .hostToDeviceOrNoDataTransfer).direction = false
  decide

theorem asks_power : Asks s (powered port).1 where
  disciplined := disciplined_setPortFeature .portPower port
  bufferLen := Nat.zero_le _
  status _ _ h := by cases h
  reset port' h := by
    cases @DriverRequest.packet_injective (.setFeaturePortPower port) (.setFeaturePortReset port')
      (Question.transferNoData.inj h)

theorem asks_reset {log : List QuestionAnswer} {bytes : List Byte} (hsaid : Says true bytes)
    (hlog : s.log = log ++ [statusRead port bytes]) : Asks s (resetSent port).1 where
  disciplined := disciplined_setPortFeature .portReset port
  bufferLen := Nat.zero_le _
  status _ _ h := by cases h
  reset port' h := by
    cases @DriverRequest.packet_injective (.setFeaturePortReset port) (.setFeaturePortReset port')
      (Question.transferNoData.inj h)
    exact ⟨log, bytes, hsaid, hlog⟩

theorem asks_status (h : ∃ log, (∃ bytes d, descriptorRead bytes ∈ s.log ∧
      HubDescriptor.fromBytes bytes = some d ∧
      s.log = log ++ [powered port, waited (2 * d.fixedSizeFields.bPwrOn2PwrGood.toNat)]) ∨
    s.log = log ++ [resetSent port, waited 50]) : Asks s (statusRead port []).1 where
  disciplined := by
    refine ⟨?_, by decide, le_rfl⟩
    show (BmRequestType.build .other .class_ .deviceToHost).direction = true
    decide
  bufferLen := by
    show 4 ≤ HubDescriptor.size
    decide
  status port' _ h' := by
    cases @DriverRequest.packet_injective (.getPortStatus port) (.getPortStatus port')
      (Question.transferIn.inj h').1
    exact h
  reset _ h := by cases h

theorem wp_getPortStatus {post : PortStatusData → Session δ → Prop} {err : SessionError → Session δ → Prop}
    (hask : Asks s (statusRead port []).1)
    (h : ∀ bytes s', s'.log = s.log ++ [statusRead port bytes] →
      (PortStatusData.ofBytes bytes = none → err .panicked s') ∧
      ∀ data, PortStatusData.ofBytes bytes = some data → post data s') :
    Prog.wp dev.answer Asks post err (getPortStatus port) s := by
  simp only [getPortStatus, Prog.wp_bind_eq, Prog.wp_request]
  refine ⟨hask, ?_⟩
  generalize hs : dev.answer s _ = r
  obtain ⟨s', bytes⟩ := r
  obtain ⟨hnone, hsome⟩ := h bytes s' (by cases hs; rfl)
  dsimp only
  cases hr : PortStatusData.ofBytes bytes with
  | none => exact hnone hr
  | some data => exact hsome data hr

theorem wp_resetPort {log : List QuestionAnswer} {bytes : List Byte} (hsaid : Says true bytes)
    (hlog : s.log = log ++ [statusRead port bytes]) :
    Prog.wp dev.answer Asks
      (fun _ s' => ∃ bytes', Enabled none bytes' ∧ s'.log = s.log ++ secondLook port bytes')
      (fun e s' => e = .panicked ∧ ∃ bytes', s'.log = s.log ++ secondLook port bytes' ∧
        (PortStatusData.ofBytes bytes' = none ∨ ∃ speed, Enabled (some speed) bytes'))
      (resetPort port) s := by
  simp only [resetPort, Prog.wp_bind_eq, Prog.wp_request]
  refine ⟨asks_reset hsaid hlog, asks_delay 50, ?_⟩
  refine wp_getPortStatus (asks_status ⟨s.log, .inr ?_⟩) fun bytes' s' hs' => ?_
  · simp [UsbDevice.answer, UsbDevice.react, resetSent, waited]
  · have hs : s'.log = s.log ++ secondLook port bytes' := by
      rw [hs']
      simp [UsbDevice.answer, UsbDevice.react, secondLook, resetSent, waited]
    refine ⟨fun hnone => ⟨rfl, bytes', hs, .inl hnone⟩, fun data hdata => ?_⟩
    cases hspeed : PortStatus.attachedDeviceSpeed ⟨data.wPortStatus⟩ with
    | none => exact ⟨bytes', ⟨data, hdata, hspeed⟩, hs⟩
    | some speed => exact ⟨rfl, bytes', hs, .inr ⟨speed, data, hdata, hspeed⟩⟩

/-- **One port** is polled, or stopped at. -/
theorem wp_pollPort {oc : OverflowChecks} {bytes : List Byte} {d : HubDescriptor} {i : Byte}
    (hi : i.toNat < 255) (hread : HubDescriptor.fromBytes bytes = some d)
    (hlog : descriptorRead bytes ∈ s.log) :
    Prog.wp dev.answer Asks
      (fun _ s' => ∃ block, Polled d.fixedSizeFields (1 + i) block ∧ s'.log = s.log ++ block)
      (fun e s' => e = .panicked ∧ ∃ block, StoppedAt d.fixedSizeFields (1 + i) block ∧
        s'.log = s.log ++ block)
      (pollPort oc d.fixedSizeFields i) s := by
  have hadd : addU oc 1 i = some (1 + i) := by
    rw [addU, if_neg]
    rintro ⟨-, h⟩
    have h1 : (1 : Byte).toNat = 1 := rfl
    omega
  simp only [pollPort, hadd, Prog.wp_bind_eq, Prog.wp_request]
  refine ⟨asks_power, asks_delay _, ?_⟩
  refine wp_getPortStatus (asks_status ⟨s.log, .inl ⟨bytes, d, ?_, hread, ?_⟩⟩) fun status s' hs' => ?_
  · simp [UsbDevice.answer, hlog]
  · simp [UsbDevice.answer, UsbDevice.react, powered, waited]
  have hs : s'.log = s.log ++ firstLook d.fixedSizeFields (1 + i) status := by
    rw [hs']
    simp [UsbDevice.answer, UsbDevice.react, firstLook, powered, waited]
  refine ⟨fun hnone => ⟨rfl, _, .malformed hnone, hs⟩, fun data hdata => ?_⟩
  cases hc : PortStatus.currentConnectStatus ⟨data.wPortStatus⟩ with
  | false => exact ⟨_, .empty ⟨data, hdata, hc⟩, hs⟩
  | true =>
    have hsaid : Says true status := ⟨data, hdata, hc⟩
    have hboth : ∀ {s'' : Session δ} {bytes' : List Byte}, s''.log = s'.log ++ secondLook (1 + i) bytes' →
        s''.log = s.log ++ (firstLook d.fixedSizeFields (1 + i) status ++ secondLook (1 + i) bytes') :=
      fun h => by rw [h, hs, List.append_assoc]
    refine Prog.wp_mono (wp_resetPort hsaid hs') ?_ ?_
    · rintro _ s'' ⟨bytes', hdisabled, hs''⟩
      exact ⟨_, .disabled hsaid hdisabled, hboth hs''⟩
    · rintro e s'' ⟨rfl, bytes', hs'', hnone | ⟨speed, henabled⟩⟩
      · exact ⟨rfl, _, .malformedAgain hsaid hnone, hboth hs''⟩
      · exact ⟨rfl, _, .attached speed hsaid henabled, hboth hs''⟩

/-- **The conversation with any device.** -/
theorem wp_hub (oc : OverflowChecks) (dev : UsbDevice δ) (d : δ) :
    Prog.wp dev.answer Asks (fun _ s => Returned s.log) (fun e s => e = .panicked ∧ Failed s.log)
      (getInfo oc) ⟨d, []⟩ := by
  simp only [getInfo, Prog.wp_bind_eq, Prog.wp_request]
  refine ⟨asks_descriptor [], ?_⟩
  generalize hs : dev.answer _ _ = r
  obtain ⟨s, bytes⟩ := r
  have hlog : s.log = [descriptorRead bytes] := by
    cases hs
    rfl
  dsimp only
  cases hread : HubDescriptor.fromBytes bytes with
  | none =>
    refine ⟨rfl, ?_⟩
    rw [hlog]
    exact .descriptor hread
  | some hub =>
    refine Prog.wp_mono (Prog.wp_loop (fun done _ s => PolledAll bytes hub.fixedSizeFields
      (done.map (1 + ·)) s.log) ?_ ⟨[], .nil, hlog⟩) ?_ fun _ _ h => h
    · intro done i rest _ s hsplit hpolled
      obtain ⟨hlt, rfl⟩ := byteRange_split hsplit
      obtain ⟨blocks, hblocks, hs⟩ := hpolled
      have hn := hub.fixedSizeFields.bNbrPorts.isLt
      have hi : (BitVec.ofNat 8 done.length).toNat < 255 := by
        rw [BitVec.toNat_ofNat, Nat.mod_eq_of_lt (by omega)]
        omega
      refine Prog.wp_mono (wp_pollPort hi hread (by simp [hs])) ?_ ?_
      · rintro _ s' ⟨block, hblock, hs'⟩
        refine ⟨blocks ++ [block], ?_, by rw [hs', hs]; simp⟩
        rw [List.map_append]
        exact List.rel_append hblocks (.cons hblock .nil)
      · rintro e s' ⟨rfl, block, hstopped, hs'⟩
        refine ⟨rfl, ?_⟩
        rw [hs']
        have hports : ports hub.fixedSizeFields = done.map (1 + ·) ++
            (1 + BitVec.ofNat 8 done.length) :: rest.map (1 + ·) := by
          rw [ports, hsplit, List.map_append, List.map_cons]
        exact .port hread hports ⟨blocks, hblocks, hs⟩ hstopped
    · rintro _ s hpolled
      exact ⟨bytes, hub, hread, hpolled⟩

end Conversation

/-! ## On the bus -/

/-- What a hub with two ports and a device at the second sends. -/
def exampleHubResponse (reset : Bool) : UsbRequest → List Byte
  | .getDescriptor .class_ _ _ _ => [9, 0x29, 2, 0, 0, 50, 0, 0]
  | .getPortStatus port => if port = 2 then if reset then [3, 5, 0, 0] else [1, 1, 0, 0] else [0, 1, 0, 0]
  | _ => []

/-- The state of the hub is whether the second port was reset; this enables it. -/
def exampleHub : UsbDevice Bool where
  respond d p := (d || p.decode == some (.setPortFeature 4 2),
    ((p.decode.map (exampleHubResponse d)).getD []).take p.wLength.toNat)
  pass d _ := d
  bounded _ _ := List.length_take_le _ _

def exampleNoData : List BusLabel :=
  .issue :: .writeToken :: ([.fetch, .retire, .fetch, .retire].map .controller ++ [.resume])

def exampleLook : List BusLabel := exampleNoData ++ .issue :: exampleTransferIn 4

end Hub

end EzEhci
