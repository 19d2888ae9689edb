import EzEhci.Lib.Iterate
import EzEhci.Device.Info

/-!
# Parsing configuration descriptors

`ConfigurationInfo::from_descriptor` walks the byte string a device returned
for one of its configurations. Two nested loops look for interface and
endpoint descriptors; both step over a descriptor by its length byte, whether
it is what they look for or not, and both are bounded by a count the device
gave. `parseStep` is one test of a loop condition with the body that follows
it; a slice that is out of range is a panic.
-/

namespace EzEhci

open Lib

/-! ## The descriptors -/

/-- `DescriptorType`; the members the parser compares with. -/
inductive DescriptorType where
  | interface
  | endpoint
  deriving DecidableEq, Repr

/-- `u8::from(DescriptorType)`. -/
def DescriptorType.toU8 : DescriptorType → Byte
  | .interface => 4
  | .endpoint => 5

structure CommonDescriptor where
  bLength : Byte
  bDescriptorType : Byte
  deriving DecidableEq, Repr

/-- `ConfigurationDescriptor`, with the two bytes of `w_total_length`. -/
structure ConfigurationDescriptor where
  bLength : Byte
  bDescriptorType : Byte
  wTotalLength : BitVec 16
  bNumInterfaces : Byte
  bConfigurationValue : Byte
  iConfiguration : Byte
  bmAttributes : Byte
  bMaxPower : Byte
  deriving DecidableEq, Repr

structure InterfaceDescriptor where
  bLength : Byte
  bDescriptorType : Byte
  bInterfaceNumber : Byte
  bAlternateSetting : Byte
  bNumEndpoints : Byte
  bInterfaceClass : Byte
  bInterfaceSubClass : Byte
  bInterfaceProtocol : Byte
  iInterface : Byte
  deriving DecidableEq, Repr

structure EndpointDescriptor where
  bLength : Byte
  bDescriptorType : Byte
  bEndpointAddress : Byte
  bmAttributes : Byte
  wMaxPacketSize : BitVec 16
  bInterval : Byte
  deriving DecidableEq, Repr

def u16le (lo hi : Byte) : BitVec 16 := hi ++ lo

/-- `&bytes[position..position + n]`; `none` is the panic. -/
def slice (bytes : List Byte) (position n : Nat) : Option (List Byte) :=
  if position + n ≤ bytes.length then some ((bytes.drop position).take n) else none

/-- `CommonDescriptor::ref_from_bytes` on the slice at `position`. -/
def CommonDescriptor.at (bytes : List Byte) (position : Nat) : Option CommonDescriptor :=
  (slice bytes position 2).bind fun
    | [a, b] => some ⟨a, b⟩
    | _ => none

/-- `ConfigurationDescriptor::ref_from_bytes` on the first slice. -/
def ConfigurationDescriptor.at (bytes : List Byte) (position : Nat) : Option ConfigurationDescriptor :=
  (slice bytes position 9).bind fun
    | [a, b, c, d, e, f, g, h, i] => some ⟨a, b, u16le c d, e, f, g, h, i⟩
    | _ => none

/-- `InterfaceDescriptor::ref_from_bytes` on the slice at `position`. -/
def InterfaceDescriptor.at (bytes : List Byte) (position : Nat) : Option InterfaceDescriptor :=
  (slice bytes position 9).bind fun
    | [a, b, c, d, e, f, g, h, i] => some ⟨a, b, c, d, e, f, g, h, i⟩
    | _ => none

/-- `EndpointDescriptor::ref_from_bytes` on the slice at `position`. -/
def EndpointDescriptor.at (bytes : List Byte) (position : Nat) : Option EndpointDescriptor :=
  (slice bytes position 7).bind fun
    | [a, b, c, d, e, f, g] => some ⟨a, b, c, d, u16le e f, g⟩
    | _ => none

/-! ## The loops -/

/-- The endpoint that is pushed for a descriptor. -/
def EndpointDescriptor.info (d : EndpointDescriptor) : EndpointInfo where
  endpointAddress := ⟨d.bEndpointAddress⟩
  attributes := ⟨d.bmAttributes⟩
  maxPacketSize := ⟨d.wMaxPacketSize⟩
  interval := d.bInterval

/-- The interface that is pushed for a descriptor and the endpoints found behind it. -/
def InterfaceDescriptor.info (d : InterfaceDescriptor) (endpoints : List EndpointInfo) :
    InterfaceInfo where
  interfaceNumber := d.bInterfaceNumber
  alternateSetting := d.bAlternateSetting
  class_ := d.bInterfaceClass
  subClass := d.bInterfaceSubClass
  protocol := d.bInterfaceProtocol
  endpoints := endpoints

structure EndpointLoop where
  interfaceDescriptor : InterfaceDescriptor
  endpoints : List EndpointInfo
  endpointIndex : Nat
  deriving DecidableEq, Repr

/-- The locals of the parser; `inner` while the inner loop runs. -/
structure ParseState where
  interfaces : List InterfaceInfo
  position : Nat
  interfaceIndex : Nat
  inner : Option EndpointLoop
  deriving DecidableEq, Repr

inductive Parsed where
  | returned (info : ConfigurationInfo)
  | panicked
  deriving DecidableEq, Repr

section Parse

variable (fullDescriptor : List Byte) (configuration : ConfigurationDescriptor)

/-- One iteration of the inner loop, or its end. -/
def endpointStep (s : ParseState) (l : EndpointLoop) : Iter ParseState Parsed :=
  if l.endpointIndex < l.interfaceDescriptor.bNumEndpoints.toNat then
    match CommonDescriptor.at fullDescriptor s.position with
    | none => .stop .panicked
    | some descriptor =>
      if descriptor.bDescriptorType = DescriptorType.endpoint.toU8 then
        match EndpointDescriptor.at fullDescriptor s.position with
        | none => .stop .panicked
        | some endpointDescriptor => .next { s with
            position := s.position + descriptor.bLength.toNat
            inner := some { l with
              endpoints := l.endpoints ++ [endpointDescriptor.info]
              endpointIndex := l.endpointIndex + 1 } }
      else .next { s with position := s.position + descriptor.bLength.toNat }
  else .next { s with
    interfaces := s.interfaces ++ [l.interfaceDescriptor.info l.endpoints]
    interfaceIndex := s.interfaceIndex + 1
    inner := none }

/-- One iteration of the outer loop up to the inner loop, or its end. -/
def interfaceStep (s : ParseState) : Iter ParseState Parsed :=
  if s.interfaceIndex < configuration.bNumInterfaces.toNat then
    match CommonDescriptor.at fullDescriptor s.position with
    | none => .stop .panicked
    | some descriptor =>
      if descriptor.bDescriptorType = DescriptorType.interface.toU8 then
        match InterfaceDescriptor.at fullDescriptor s.position with
        | none => .stop .panicked
        | some interfaceDescriptor => .next { s with
            position := s.position + descriptor.bLength.toNat
            inner := some ⟨interfaceDescriptor, [], 0⟩ }
      else .next { s with position := s.position + descriptor.bLength.toNat }
  else .stop (.returned {
    number := configuration.bConfigurationValue
    attributes := configuration.bmAttributes
    maxPower := configuration.bMaxPower
    interfaces := s.interfaces })

def parseStep (s : ParseState) : Iter ParseState Parsed :=
  match s.inner with
  | none => interfaceStep fullDescriptor configuration s
  | some l => endpointStep fullDescriptor s l

end Parse

def ParseState.start : ParseState := ⟨[], 9, 0, none⟩

/-- `ConfigurationInfo::from_descriptor`, stopped after `n` iterations if it has not ended by then. -/
def ConfigurationInfo.fromDescriptor (fullDescriptor : List Byte) (n : Nat) : Option Parsed :=
  match ConfigurationDescriptor.at fullDescriptor 0 with
  | none => some .panicked
  | some configuration => iterate (parseStep fullDescriptor configuration) n .start

/-- What `from_descriptor` returns does not depend on when it is stopped. -/
theorem fromDescriptor_unique {fullDescriptor : List Byte} {n m : Nat} {r r' : Parsed}
    (h : ConfigurationInfo.fromDescriptor fullDescriptor n = some r)
    (h' : ConfigurationInfo.fromDescriptor fullDescriptor m = some r') : r = r' := by
  unfold ConfigurationInfo.fromDescriptor at h h'
  cases hc : ConfigurationDescriptor.at fullDescriptor 0 with
  | none =>
    simp only [hc, Option.some.injEq] at h h'
    exact h.symm.trans h'
  | some c =>
    simp only [hc] at h h'
    exact iterate_unique h h'

/-- `from_descriptor` ends after finitely many iterations. -/
def ParseEnds (fullDescriptor : List Byte) : Prop :=
  ∃ n r, ConfigurationInfo.fromDescriptor fullDescriptor n = some r

/-! ## What an iteration does -/

section Steps

variable {fullDescriptor : List Byte} {configuration : ConfigurationDescriptor} {s s' : ParseState}

theorem interfaceStep_next (h : interfaceStep fullDescriptor configuration s = .next s') :
    s.interfaceIndex < configuration.bNumInterfaces.toNat ∧
    ∃ d, CommonDescriptor.at fullDescriptor s.position = some d ∧
      ((∃ i, InterfaceDescriptor.at fullDescriptor s.position = some i ∧
          d.bDescriptorType = DescriptorType.interface.toU8 ∧ s' = { s with
            position := s.position + d.bLength.toNat, inner := some ⟨i, [], 0⟩ }) ∨
        (d.bDescriptorType ≠ DescriptorType.interface.toU8 ∧
          s' = { s with position := s.position + d.bLength.toNat })) := by
  unfold interfaceStep at h
  split at h
  case isFalse => cases h
  rename_i hidx
  refine ⟨hidx, ?_⟩
  split at h
  · cases h
  · rename_i d hd
    refine ⟨d, hd, ?_⟩
    split at h
    · rename_i ht
      split at h
      · cases h
      next i hi =>
        cases h
        exact .inl ⟨i, hi, ht, rfl⟩
    · rename_i ht
      cases h
      exact .inr ⟨ht, rfl⟩

theorem endpointStep_next {l : EndpointLoop} (h : endpointStep fullDescriptor s l = .next s') :
    (l.endpointIndex < l.interfaceDescriptor.bNumEndpoints.toNat ∧
      ∃ d, CommonDescriptor.at fullDescriptor s.position = some d ∧
        ((∃ e, EndpointDescriptor.at fullDescriptor s.position = some e ∧
          d.bDescriptorType = DescriptorType.endpoint.toU8 ∧ s' = { s with
            position := s.position + d.bLength.toNat
            inner := some ⟨l.interfaceDescriptor, l.endpoints ++ [e.info], l.endpointIndex + 1⟩ }) ∨
          (d.bDescriptorType ≠ DescriptorType.endpoint.toU8 ∧
            s' = { s with position := s.position + d.bLength.toNat }))) ∨
    l.interfaceDescriptor.bNumEndpoints.toNat ≤ l.endpointIndex ∧ s' = { s with
      interfaces := s.interfaces ++ [l.interfaceDescriptor.info l.endpoints]
      interfaceIndex := s.interfaceIndex + 1
      inner := none } := by
  unfold endpointStep at h
  split at h
  · rename_i hidx
    refine .inl ⟨hidx, ?_⟩
    split at h
    · cases h
    · rename_i d hd
      refine ⟨d, hd, ?_⟩
      split at h
      · rename_i ht
        split at h
        · cases h
        next e he =>
          cases h
          exact .inl ⟨e, he, ht, rfl⟩
      · rename_i ht
        cases h
        exact .inr ⟨ht, rfl⟩
  · rename_i hidx
    cases h
    exact .inr ⟨Nat.le_of_not_lt hidx, rfl⟩

theorem CommonDescriptor.at_le {position : Nat} {d : CommonDescriptor}
    (h : CommonDescriptor.at fullDescriptor position = some d) :
    position + 2 ≤ fullDescriptor.length := by
  obtain ⟨b, hb, -⟩ := Option.bind_eq_some_iff.mp h
  unfold slice at hb
  split at hb
  · assumption
  · cases hb

end Steps

end EzEhci
