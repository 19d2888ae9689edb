import EzEhci.Device.Tree
import EzEhci.Endpoint.Control

/-!
# Setup packets

The requests the driver makes of devices and hubs, as the eight bytes of a
setup packet. `UsbRequest` is what a device understands from these bytes
(`decode`); a request the driver encodes is understood as it was meant
(`decode_packet`).
-/

namespace EzEhci

open Lib

/-! ## The fields -/

inductive Recipient where
  | device
  | interface
  | endpoint
  | other
  deriving DecidableEq, Repr

/-- `u5::from(Recipient)`. -/
def Recipient.toU5 : Recipient → BitVec 5
  | .device => 0
  | .interface => 1
  | .endpoint => 2
  | .other => 3

inductive RequestType where
  | standard
  | class_
  | vendor
  deriving DecidableEq, Repr

/-- `u2::from(RequestType)`. -/
def RequestType.toU2 : RequestType → BitVec 2
  | .standard => 0
  | .class_ => 1
  | .vendor => 2

inductive Direction where
  | hostToDeviceOrNoDataTransfer
  | deviceToHost
  deriving DecidableEq, Repr

/-- `bool::from(Direction)`. -/
def Direction.toBool : Direction → Bool
  | .hostToDeviceOrNoDataTransfer => false
  | .deviceToHost => true

structure BmRequestType where
  raw : Byte
  deriving DecidableEq, Repr

namespace BmRequestType

def recipient (t : BmRequestType) : BitVec 5 := field 0 5 t.raw

def requestType (t : BmRequestType) : BitVec 2 := field 5 2 t.raw

def direction (t : BmRequestType) : Bool := bit 7 t.raw

/-- The bit field with all three fields written. -/
def build (recipient : Recipient) (requestType : RequestType) (direction : Direction) : BmRequestType :=
  ⟨setBit 7 direction.toBool (setField 5 requestType.toU2 (setField 0 recipient.toU5 0))⟩

end BmRequestType

inductive BRequest where
  | getStatus
  | setFeature
  | setAddress
  | getDescriptor
  | setConfiguration
  deriving DecidableEq, Repr

/-- `u8::from(BRequest)`. -/
def BRequest.toU8 : BRequest → Byte
  | .getStatus => 0
  | .setFeature => 3
  | .setAddress => 5
  | .getDescriptor => 6
  | .setConfiguration => 9

/-- `DescriptorType` and `HubDescriptorType`; the members that are asked for. -/
inductive AskedDescriptorType where
  | device
  | configuration
  | hub
  deriving DecidableEq, Repr

def AskedDescriptorType.toU8 : AskedDescriptorType → Byte
  | .device => 1
  | .configuration => 2
  | .hub => 0x29

inductive HubFeature where
  | portPower
  | portReset
  deriving DecidableEq, Repr

/-- `u16::from(HubFeature)`. -/
def HubFeature.toU16 : HubFeature → BitVec 16
  | .portPower => 8
  | .portReset => 4

/-! ## The packets -/

namespace SetupPacket

def newGetDeviceDescriptor (wLength : BitVec 16) : SetupPacket where
  bmRequestType := (BmRequestType.build .device .standard .deviceToHost).raw
  bRequest := BRequest.getDescriptor.toU8
  wValue := u16le 0x00 AskedDescriptorType.device.toU8
  wIndex := 0
  wLength := wLength

def newGetConfigurationDescriptor (wLength : BitVec 16) (num : Byte) : SetupPacket where
  bmRequestType := (BmRequestType.build .device .standard .deviceToHost).raw
  bRequest := BRequest.getDescriptor.toU8
  wValue := u16le num AskedDescriptorType.configuration.toU8
  wIndex := 0
  wLength := wLength

def newGetHubDescriptor (wLength : BitVec 16) : SetupPacket where
  bmRequestType := (BmRequestType.build .device .class_ .deviceToHost).raw
  bRequest := BRequest.getDescriptor.toU8
  wValue := u16le 0 AskedDescriptorType.hub.toU8
  wIndex := 0
  wLength := wLength

/-- The two `SET_FEATURE` requests to a port of a hub. -/
def newSetPortFeature (feature : HubFeature) (portNumber : Byte) : SetupPacket where
  bmRequestType := (BmRequestType.build .other .class_ .hostToDeviceOrNoDataTransfer).raw
  bRequest := BRequest.setFeature.toU8
  wValue := feature.toU16
  wIndex := portNumber.setWidth 16
  wLength := 0

def newSetFeaturePortPower (portNumber : Byte) : SetupPacket := newSetPortFeature .portPower portNumber

def newSetFeaturePortReset (portNumber : Byte) : SetupPacket := newSetPortFeature .portReset portNumber

def newGetPortStatus (portNumber : Byte) : SetupPacket where
  bmRequestType := (BmRequestType.build .other .class_ .deviceToHost).raw
  bRequest := BRequest.getStatus.toU8
  wValue := 0
  wIndex := portNumber.setWidth 16
  wLength := 4

def bytes (p : SetupPacket) : List Byte :=
  [p.bmRequestType, p.bRequest, p.wValue.extractLsb' 0 8, p.wValue.extractLsb' 8 8,
    p.wIndex.extractLsb' 0 8, p.wIndex.extractLsb' 8 8, p.wLength.extractLsb' 0 8, p.wLength.extractLsb' 8 8]

def ofBytes : List Byte → Option SetupPacket
  | [a, b, c, d, e, f, g, h] => some ⟨a, b, u16le c d, u16le e f, u16le g h⟩
  | _ => none

@[simp] theorem length_bytes (p : SetupPacket) : p.bytes.length = 8 := rfl

@[simp] theorem ofBytes_bytes (p : SetupPacket) : ofBytes p.bytes = some p := by
  simp only [bytes, ofBytes, u16le_extract]

end SetupPacket

/-! ## What a device understands -/

inductive UsbRequest where
  | getDescriptor (type : RequestType) (kind index : Byte) (length : BitVec 16)
  | setAddress (address : BitVec 7)
  | setConfiguration (value : Byte)
  | setPortFeature (feature : BitVec 16) (port : Byte)
  | getPortStatus (port : Byte)
  deriving DecidableEq, Repr

/-- The request in a setup packet, from the direction, type and recipient in its first byte and the
number of the request. -/
def SetupPacket.decode (p : SetupPacket) : Option UsbRequest :=
  let type : BmRequestType := ⟨p.bmRequestType⟩
  let value := p.wValue
  match type.direction, type.requestType.toNat, type.recipient.toNat, p.bRequest.toNat with
  | true, 0, 0, 6 =>
    some (.getDescriptor .standard (value.extractLsb' 8 8) (value.extractLsb' 0 8) p.wLength)
  | true, 1, 0, 6 =>
    some (.getDescriptor .class_ (value.extractLsb' 8 8) (value.extractLsb' 0 8) p.wLength)
  | false, 0, 0, 5 => some (.setAddress (value.setWidth 7))
  | false, 0, 0, 9 => some (.setConfiguration (value.setWidth 8))
  | false, 1, 3, 3 => some (.setPortFeature value (p.wIndex.setWidth 8))
  | true, 1, 3, 0 => if p.wLength = 4 then some (.getPortStatus (p.wIndex.setWidth 8)) else none
  | _, _, _, _ => none

inductive DriverRequest where
  | getDeviceDescriptor (wLength : BitVec 16)
  | getConfigurationDescriptor (wLength : BitVec 16) (num : Byte)
  | setAddress (newAddress : BitVec 7)
  | setConfiguration (configurationNumber : Byte)
  | getHubDescriptor (wLength : BitVec 16)
  | setFeaturePortPower (portNumber : Byte)
  | setFeaturePortReset (portNumber : Byte)
  | getPortStatus (portNumber : Byte)
  deriving DecidableEq, Repr

namespace DriverRequest

def packet : DriverRequest → SetupPacket
  | .getDeviceDescriptor wLength => .newGetDeviceDescriptor wLength
  | .getConfigurationDescriptor wLength num => .newGetConfigurationDescriptor wLength num
  | .setAddress newAddress => .newSetAddress newAddress
  | .setConfiguration number => .newSetConfiguration number
  | .getHubDescriptor wLength => .newGetHubDescriptor wLength
  | .setFeaturePortPower port => .newSetFeaturePortPower port
  | .setFeaturePortReset port => .newSetFeaturePortReset port
  | .getPortStatus port => .newGetPortStatus port

def meaning : DriverRequest → UsbRequest
  | .getDeviceDescriptor wLength => .getDescriptor .standard 1 0 wLength
  | .getConfigurationDescriptor wLength num => .getDescriptor .standard 2 num wLength
  | .setAddress newAddress => .setAddress newAddress
  | .setConfiguration number => .setConfiguration number
  | .getHubDescriptor wLength => .getDescriptor .class_ 0x29 0 wLength
  | .setFeaturePortPower port => .setPortFeature 8 port
  | .setFeaturePortReset port => .setPortFeature 4 port
  | .getPortStatus port => .getPortStatus port

end DriverRequest

theorem u16le_lo (lo hi : Byte) : (u16le lo hi).extractLsb' 0 8 = lo := by
  apply BitVec.eq_of_getLsbD_eq
  intro i hi'
  simp only [u16le, BitVec.getLsbD_extractLsb', BitVec.getLsbD_append, hi', decide_true, Bool.true_and,
    Nat.zero_add, if_true]

theorem u16le_hi (lo hi : Byte) : (u16le lo hi).extractLsb' 8 8 = hi := by
  apply BitVec.eq_of_getLsbD_eq
  intro i hi'
  have h8 : ¬ 8 + i < 8 := by omega
  simp only [u16le, BitVec.getLsbD_extractLsb', BitVec.getLsbD_append, hi', h8, decide_true,
    Bool.true_and, if_false, Nat.add_sub_cancel_left]

/-- **Requests are understood**: a device decodes the driver's packet to what the driver meant. -/
theorem DriverRequest.decode_packet (r : DriverRequest) : r.packet.decode = some r.meaning := by
  cases r with
  | getDeviceDescriptor wLength =>
    simp only [packet, SetupPacket.decode, SetupPacket.newGetDeviceDescriptor, u16le_lo, u16le_hi]
    rfl
  | getConfigurationDescriptor wLength num =>
    simp only [packet, SetupPacket.decode, SetupPacket.newGetConfigurationDescriptor, u16le_lo, u16le_hi]
    rfl
  | setAddress newAddress =>
    have h : (newAddress.setWidth 16).setWidth 7 = newAddress := by simp
    simp only [packet, SetupPacket.decode, SetupPacket.newSetAddress, h]
    rfl
  | setConfiguration number =>
    have h : (number.setWidth 16).setWidth 8 = number := by simp
    simp only [packet, SetupPacket.decode, SetupPacket.newSetConfiguration, h]
    rfl
  | getHubDescriptor wLength =>
    simp only [packet, SetupPacket.decode, SetupPacket.newGetHubDescriptor, u16le_lo, u16le_hi]
    rfl
  | setFeaturePortPower port | setFeaturePortReset port | getPortStatus port =>
    have h : (port.setWidth 16).setWidth 8 = port := by simp
    simp only [packet, SetupPacket.decode, SetupPacket.newSetFeaturePortPower,
      SetupPacket.newSetFeaturePortReset, SetupPacket.newSetPortFeature, SetupPacket.newGetPortStatus, h]
    rfl

theorem DriverRequest.packet_injective : Function.Injective packet := by
  intro r r' h
  have hmeaning : r.meaning = r'.meaning :=
    Option.some.inj (by rw [← r.decode_packet, ← r'.decode_packet, h])
  cases r <;> cases r' <;> simp_all [meaning]

end EzEhci
