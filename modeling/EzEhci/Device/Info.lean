import EzEhci.Lib.Bits

/-!
# What a device says about itself

Endpoints, interfaces and configurations as the driver keeps them after it
parsed the descriptors. Names and the identification fields of a device, which
no modelled function reads, are left out.
-/

namespace EzEhci

open Lib

inductive TransferType where
  | control
  | isochronous
  | bulk
  | interrupt
  deriving DecidableEq, Repr

/-- `TransferType::from(u2)`. -/
def TransferType.ofU2 (v : BitVec 2) : TransferType :=
  match v.toNat with
  | 0 => .control
  | 1 => .isochronous
  | 2 => .bulk
  | _ => .interrupt

structure EndpointAddress where
  raw : BitVec 8
  deriving DecidableEq, Repr

def EndpointAddress.endpointNumber (a : EndpointAddress) : BitVec 4 := field 0 4 a.raw

structure EndpointAttributes where
  raw : BitVec 8
  deriving DecidableEq, Repr

def EndpointAttributes.transferType (a : EndpointAttributes) : BitVec 2 := field 0 2 a.raw

structure EndpointMaxPacketSize where
  raw : BitVec 16
  deriving DecidableEq, Repr

def EndpointMaxPacketSize.maxPacketSize (m : EndpointMaxPacketSize) : BitVec 11 := field 0 11 m.raw

structure EndpointInfo where
  endpointAddress : EndpointAddress
  attributes : EndpointAttributes
  maxPacketSize : EndpointMaxPacketSize
  interval : BitVec 8
  deriving DecidableEq, Repr

def EndpointInfo.transferType (e : EndpointInfo) : TransferType := .ofU2 e.attributes.transferType

structure InterfaceInfo where
  interfaceNumber : BitVec 8
  alternateSetting : BitVec 8
  class_ : BitVec 8
  subClass : BitVec 8
  protocol : BitVec 8
  endpoints : List EndpointInfo
  deriving DecidableEq, Repr

structure ConfigurationInfo where
  number : BitVec 8
  attributes : BitVec 8
  maxPower : BitVec 8
  interfaces : List InterfaceInfo
  deriving DecidableEq, Repr

structure DeviceInfo where
  deviceClass : BitVec 8
  configurations : List ConfigurationInfo
  deriving DecidableEq, Repr

end EzEhci
