import EzEhci.Lib.Interact
import EzEhci.Session.SetupPacket

/-!
# Reading the descriptors of a device

`get_info` and `set_configuration` as programs that ask for control transfers.
A device is any function from setup packets to responses that sends no more
than it was asked for; what it does may depend on everything that happened
before, and on time.

`Describes` is a device that answers with its descriptors. `getInfo` returns
what is in them (`wp_getInfo`), and asks for nothing else.
-/

namespace EzEhci

open Lib

/-! ## Sessions -/

/-- What a program on a control endpoint waits for. -/
inductive Question where
  | transferIn (packet : SetupPacket) (len : Nat)
  | transferNoData (packet : SetupPacket)
  | delay (ms : Nat)
  deriving DecidableEq, Repr

/-- How a program ends early: by a panic, or because its parser was stopped. -/
inductive SessionError where
  | panicked
  | stopped
  deriving DecidableEq, Repr

/-- A program on a control endpoint. The answer to a transfer is what was read. -/
abbrev SessionProg := Prog Question (List Byte) SessionError

structure UsbDevice (δ : Type) where
  /-- The device receives a setup packet and sends its response. -/
  respond : δ → SetupPacket → δ × List Byte
  /-- Time passes, in milliseconds. -/
  pass : δ → Nat → δ
  bounded : ∀ d p, (respond d p).2.length ≤ p.wLength.toNat

abbrev QuestionAnswer := Question × List Byte

structure Session (δ : Type) where
  device : δ
  log : List QuestionAnswer

def Session.questions {δ : Type} (s : Session δ) : List Question := s.log.map Prod.fst

/-- What the device does about a question, and its answer. -/
def UsbDevice.react {δ : Type} (dev : UsbDevice δ) (d : δ) : Question → δ × List Byte
  | .transferIn p _ => dev.respond d p
  | .transferNoData p => ((dev.respond d p).1, [])
  | .delay ms => (dev.pass d ms, [])

def UsbDevice.answer {δ : Type} (dev : UsbDevice δ) (s : Session δ) (q : Question) :
    Session δ × List Byte :=
  (⟨(dev.react s.device q).1, s.log ++ [(q, (dev.react s.device q).2)]⟩, (dev.react s.device q).2)

@[simp] theorem UsbDevice.questions_answer {δ : Type} (dev : UsbDevice δ) (s : Session δ) (q : Question) :
    (dev.answer s q).1.questions = s.questions ++ [q] := by
  simp [answer, Session.questions]

/-- The stages of the transfer are those the packet announces, and the buffer holds the response. -/
def Question.Disciplined : Question → Prop
  | .transferIn p len =>
    (BmRequestType.mk p.bmRequestType).direction = true ∧ 0 < len ∧ p.wLength.toNat ≤ len
  | .transferNoData p => (BmRequestType.mk p.bmRequestType).direction = false ∧ p.wLength = 0
  | .delay _ => True

/-- The part of the buffer the transfer uses. -/
def Question.bufferLen : Question → Nat
  | .transferIn _ len => len
  | .transferNoData _ | .delay _ => 0

def Session.Within {δ : Type} (questions : List Question) (s : Session δ) (q : Question) : Prop :=
  q.Disciplined ∧ s.questions ++ [q] <+: questions

/-! ## The descriptor of the device -/

structure DeviceDescriptor where
  bLength : Byte
  bDescriptorType : Byte
  bcdUsb : Byte × Byte
  bDeviceClass : Byte
  bDeviceSubClass : Byte
  bDeviceProtocol : Byte
  bMaxPacketSize : Byte
  idVendor : BitVec 16
  idProduct : BitVec 16
  bcdDevice : BitVec 16
  iManufacturer : Byte
  iProduct : Byte
  iSerialNumber : Byte
  bNumConfigurations : Byte
  deriving DecidableEq, Repr

namespace DeviceDescriptor

/-- `DeviceDescriptor::read_from_bytes`; the length has to be exact. -/
def readFromBytes : List Byte → Option DeviceDescriptor
  | [len, type, minor, major, class_, subClass, protocol, size, v0, v1, p0, p1, d0, d1, m, p, s, n] =>
    some ⟨len, type, (minor, major), class_, subClass, protocol, size, u16le v0 v1, u16le p0 p1,
      u16le d0 d1, m, p, s, n⟩
  | _ => none

def bytes (d : DeviceDescriptor) : List Byte :=
  [d.bLength, d.bDescriptorType, d.bcdUsb.1, d.bcdUsb.2, d.bDeviceClass, d.bDeviceSubClass,
    d.bDeviceProtocol, d.bMaxPacketSize, d.idVendor.extractLsb' 0 8, d.idVendor.extractLsb' 8 8,
    d.idProduct.extractLsb' 0 8, d.idProduct.extractLsb' 8 8, d.bcdDevice.extractLsb' 0 8,
    d.bcdDevice.extractLsb' 8 8, d.iManufacturer, d.iProduct, d.iSerialNumber, d.bNumConfigurations]

@[simp] theorem readFromBytes_bytes (d : DeviceDescriptor) : readFromBytes d.bytes = some d := by
  simp only [bytes, readFromBytes, u16le_extract]

end DeviceDescriptor

structure UsbVersion where
  minor : Byte
  major : Byte
  deriving DecidableEq, Repr

/-- `DeviceInfo` with the fields that identify the device. -/
structure IdentifiedDeviceInfo extends DeviceInfo where
  usbVersion : UsbVersion
  deviceSubClass : Byte
  deviceProtocol : Byte
  maxPacketSize : Byte
  vendorId : BitVec 16
  productId : BitVec 16
  bcdDevice : BitVec 16
  manufacturer : Option String
  product : Option String
  serialNumber : Option String
  deriving DecidableEq, Repr

def IdentifiedDeviceInfo.fromDescriptor (d : DeviceDescriptor) (configurations : List ConfigurationInfo) :
    IdentifiedDeviceInfo where
  deviceClass := d.bDeviceClass
  configurations := configurations
  usbVersion := ⟨d.bcdUsb.1, d.bcdUsb.2⟩
  deviceSubClass := d.bDeviceSubClass
  deviceProtocol := d.bDeviceProtocol
  maxPacketSize := d.bMaxPacketSize
  vendorId := d.idVendor
  productId := d.idProduct
  bcdDevice := d.bcdDevice
  manufacturer := none
  product := none
  serialNumber := none

/-! ## The programs -/

def maxConfigurationDescriptorLen : Nat := 4096

/-- `get_descriptor`, with the packet that was written to the setup buffer. -/
def getDescriptor (packet : SetupPacket) : SessionProg (List Byte) :=
  .request (.transferIn packet maxConfigurationDescriptorLen)

def getConfigurationDescriptor (descriptorNum : Byte) : SessionProg (List Byte) :=
  getDescriptor (.newGetConfigurationDescriptor (BitVec.ofNat 16 maxConfigurationDescriptorLen) descriptorNum)

/-- How the parser ends after at most `n` iterations. -/
def parsed (n : Nat) (fullDescriptor : List Byte) : Except SessionError ConfigurationInfo :=
  match ConfigurationInfo.fromDescriptor fullDescriptor n with
  | none => .error .stopped
  | some .panicked => .error .panicked
  | some (.returned info) => .ok info

def getConfiguration (n : Nat) (num : Byte) (configurations : List ConfigurationInfo) :
    SessionProg (List ConfigurationInfo) := do
  let fullDescriptor ← getConfigurationDescriptor num
  let info ← Prog.ofExcept (parsed n fullDescriptor)
  pure (configurations ++ [info])

def byteRange (n : Byte) : List Byte := (List.range n.toNat).map (BitVec.ofNat 8)

/-- `LoadedDevice::get_info`, with `n` iterations for the parser of each configuration. -/
def getInfo (n : Nat) : SessionProg IdentifiedDeviceInfo := do
  let bytes ← getDescriptor (.newGetDeviceDescriptor 18)
  match DeviceDescriptor.readFromBytes bytes with
  | none => .fail .panicked
  | some descriptor =>
    let configurations ← Prog.loop (getConfiguration n) (byteRange descriptor.bNumConfigurations) []
    pure (.fromDescriptor descriptor configurations)

/-- `DeviceWithInfo::set_configuration` up to the endpoints it creates. -/
def setConfiguration (info : DeviceInfo) (configurationIndex : Nat) : SessionProg ConfigurationInfo :=
  match info.configurations[configurationIndex]? with
  | none => .fail .panicked
  | some configuration => do
    let _ ← Prog.request (.transferNoData (.newSetConfiguration configuration.number))
    pure configuration

/-! ## Devices with descriptors -/

/-- The descriptors of a device, in bytes as far as the configurations are concerned. -/
structure DescriptorSet where
  device : DeviceDescriptor
  configurations : List (List Byte)
  counted : device.bNumConfigurations.toNat = configurations.length

/-- The device answers a request for one of its descriptors with as much of it as was asked for. -/
structure UsbDevice.Describes {δ : Type} (dev : UsbDevice δ) (D : DescriptorSet) : Prop where
  device : ∀ d p len, p.decode = some (.getDescriptor .standard 1 0 len) →
    (dev.respond d p).2 = D.device.bytes.take len.toNat
  configuration : ∀ d p len i full, D.configurations[i]? = some full →
    p.decode = some (.getDescriptor .standard 2 (BitVec.ofNat 8 i) len) →
    (dev.respond d p).2 = full.take len.toNat

namespace DescriptorSet

/-- The question for one of the configurations. -/
def configurationQuestion (num : Byte) : Question :=
  .transferIn (.newGetConfigurationDescriptor (BitVec.ofNat 16 maxConfigurationDescriptorLen) num)
    maxConfigurationDescriptorLen

def questions (D : DescriptorSet) : List Question :=
  .transferIn (.newGetDeviceDescriptor 18) maxConfigurationDescriptorLen ::
    (byteRange D.device.bNumConfigurations).map configurationQuestion

/-- What the parser makes of the configurations, one after the other. -/
def parsedAll (n : Nat) (configurations : List (List Byte)) : Except SessionError (List ConfigurationInfo) :=
  configurations.mapM fun full => parsed n (full.take maxConfigurationDescriptorLen)

end DescriptorSet

section Described

variable {δ : Type} {dev : UsbDevice δ} {D : DescriptorSet}

theorem UsbDevice.Describes.answer_device (h : dev.Describes D) (s : Session δ) :
    (dev.answer s (.transferIn (.newGetDeviceDescriptor 18) maxConfigurationDescriptorLen)).2 =
      D.device.bytes :=
  h.device s.device _ 18 (DriverRequest.decode_packet (.getDeviceDescriptor 18))

theorem UsbDevice.Describes.answer_configuration (h : dev.Describes D) (s : Session δ) {i : Nat}
    {full : List Byte} (hi : D.configurations[i]? = some full) :
    (dev.answer s (DescriptorSet.configurationQuestion (BitVec.ofNat 8 i))).2 =
      full.take maxConfigurationDescriptorLen :=
  h.configuration s.device _ _ i full hi
    (DriverRequest.decode_packet (.getConfigurationDescriptor _ (BitVec.ofNat 8 i)))

theorem byteRange_split {n : Byte} {done rest : List Byte} {num : Byte}
    (h : byteRange n = done ++ num :: rest) :
    done.length < n.toNat ∧ num = BitVec.ofNat 8 done.length := by
  have hlen := congrArg List.length h
  have hget := congrArg (·[done.length]?) h
  simp only [byteRange, List.length_map, List.length_range, List.length_append, List.length_cons] at hlen
  have hlt : done.length < n.toNat := by omega
  simp only [byteRange, List.getElem?_map, List.getElem?_range hlt, Option.map_some,
    List.getElem?_append_right (le_refl done.length), Nat.sub_self, List.getElem?_cons_zero,
    Option.some.injEq] at hget
  exact ⟨hlt, hget.symm⟩

theorem parsedAll_snoc {n : Nat} {l : List (List Byte)} {infos : List ConfigurationInfo}
    (h : DescriptorSet.parsedAll n l = .ok infos) (full : List Byte) :
    DescriptorSet.parsedAll n (l ++ [full]) =
      (parsed n (full.take maxConfigurationDescriptorLen)).map fun info => infos ++ [info] := by
  simp only [DescriptorSet.parsedAll] at h ⊢
  simp only [List.mapM_append, h, List.mapM_cons, List.mapM_nil]
  cases parsed n (full.take maxConfigurationDescriptorLen) <;> rfl

theorem parsedAll_of_error {n : Nat} {l l' : List (List Byte)} {e : SessionError}
    (h : DescriptorSet.parsedAll n l = .error e) : DescriptorSet.parsedAll n (l ++ l') = .error e := by
  simp only [DescriptorSet.parsedAll] at h ⊢
  rw [List.mapM_append, h]
  rfl

structure Enumerated (n : Nat) (D : DescriptorSet) (k : Nat) (configurations : List ConfigurationInfo)
    (s : Session δ) : Prop where
  log : s.questions = D.questions.take (k + 1)
  parsed : DescriptorSet.parsedAll n (D.configurations.take k) = .ok configurations

theorem DescriptorSet.questions_getElem? (D : DescriptorSet) {k : Nat} (hk : k < D.configurations.length) :
    D.questions[k + 1]? = some (configurationQuestion (BitVec.ofNat 8 k)) := by
  have hk' : k < D.device.bNumConfigurations.toNat := D.counted ▸ hk
  rw [questions, List.getElem?_cons_succ, List.getElem?_map, byteRange, List.getElem?_map,
    List.getElem?_range hk']
  rfl

theorem disciplined_configurationQuestion (num : Byte) :
    (DescriptorSet.configurationQuestion num).Disciplined := by
  refine ⟨?_, by decide, ?_⟩
  · show (BmRequestType.build .device .standard .deviceToHost).direction = true
    decide
  · show (BitVec.ofNat 16 maxConfigurationDescriptorLen).toNat ≤ maxConfigurationDescriptorLen
    decide

theorem wp_getConfiguration (h : dev.Describes D) {n k : Nat} {configurations : List ConfigurationInfo}
    {s : Session δ} (hk : k < D.configurations.length) (hs : Enumerated n D k configurations s) :
    Prog.wp dev.answer (Session.Within D.questions) (Enumerated n D (k + 1))
      (fun e _ => DescriptorSet.parsedAll n D.configurations = .error e)
      (getConfiguration n (BitVec.ofNat 8 k) configurations) s := by
  have hq := D.questions_getElem? hk
  have hfull : D.configurations[k]? = some D.configurations[k] := List.getElem?_eq_getElem hk
  have htake : D.configurations.take (k + 1) = D.configurations.take k ++ [D.configurations[k]] := by
    rw [List.take_add_one, hfull]
    rfl
  have hlog : s.questions ++ [DescriptorSet.configurationQuestion (BitVec.ofNat 8 k)] =
      D.questions.take (k + 1 + 1) := by
    rw [List.take_add_one, hq, hs.log]
    rfl
  have hsnoc := parsedAll_snoc hs.parsed D.configurations[k]
  simp only [getConfiguration, getConfigurationDescriptor, getDescriptor, Prog.wp_bind_eq,
    Prog.wp_request, Prog.wp_ofExcept, Prog.wp_pure]
  refine ⟨⟨disciplined_configurationQuestion _, ?_⟩, ?_⟩
  · exact hlog ▸ List.take_prefix _ _
  rw [show (dev.answer s (.transferIn (.newGetConfigurationDescriptor
    (BitVec.ofNat 16 maxConfigurationDescriptorLen) (BitVec.ofNat 8 k)) maxConfigurationDescriptorLen)).2 =
      D.configurations[k].take maxConfigurationDescriptorLen from h.answer_configuration s hfull]
  cases hp : parsed n (D.configurations[k].take maxConfigurationDescriptorLen) with
  | ok info =>
    refine ⟨?_, by rw [htake, hsnoc, hp]; rfl⟩
    rw [← hlog]
    exact dev.questions_answer s _
  | error e =>
    -- the configurations behind this one do not matter
    show DescriptorSet.parsedAll n D.configurations = .error e
    rw [← List.take_append_drop (k + 1) D.configurations, htake]
    exact parsedAll_of_error (by rw [hsnoc, hp]; rfl)

/-- **`get_info` reads the descriptors.** On a device with the descriptors `D` it asks for the device
descriptor and for every configuration, in this order; it ends as the parser does on them. -/
theorem wp_getInfo (h : dev.Describes D) (n : Nat) (d : δ) :
    Prog.wp dev.answer (Session.Within D.questions)
      (fun info s => s.questions = D.questions ∧ ∃ infos,
        DescriptorSet.parsedAll n D.configurations = .ok infos ∧ info = .fromDescriptor D.device infos)
      (fun e _ => DescriptorSet.parsedAll n D.configurations = .error e) (getInfo n) ⟨d, []⟩ := by
  simp only [getInfo, getDescriptor, Prog.wp_bind_eq, Prog.wp_request, h.answer_device,
    DeviceDescriptor.readFromBytes_bytes, Prog.wp_pure]
  have hlen : (byteRange D.device.bNumConfigurations).length = D.configurations.length := by
    rw [byteRange, List.length_map, List.length_range, D.counted]
  refine ⟨⟨⟨by decide, by decide, by decide⟩, ?_⟩, ?_⟩
  · exact List.prefix_append [_] _
  refine Prog.wp_mono (Prog.wp_loop (fun done configurations s => Enumerated n D done.length configurations s)
    ?_ ⟨rfl, rfl⟩) ?_ fun _ _ h => h
  · intro done num rest configurations s hsplit hs
    obtain ⟨hlt, rfl⟩ := byteRange_split hsplit
    rw [D.counted] at hlt
    simp only [List.length_append, List.length_singleton]
    exact wp_getConfiguration h hlt hs
  · rintro configurations s ⟨hlog, hparsed⟩
    rw [hlen] at hlog hparsed
    rw [List.take_of_length_le (le_refl _)] at hparsed
    refine ⟨hlog.trans (List.take_of_length_le ?_), configurations, hparsed, rfl⟩
    rw [DescriptorSet.questions, List.length_cons, List.length_map, hlen]

end Described

end EzEhci
