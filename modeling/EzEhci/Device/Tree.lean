import EzEhci.Device.Parse
import Mathlib.Data.List.Dedup
import Mathlib.Data.List.Perm.Subperm

/-!
# Serialised configurations

A configuration as a device sends it: interface descriptors, each with the
endpoint descriptors behind it, among descriptors the parser does not know.
Descriptors may be longer than the fields the driver reads. The parser follows
the bytes from one descriptor to the next, so what it does is stated about the
bytes that are left at its position (`Rest`).

The outer loop counts interface descriptors, one for each alternate setting,
while the configuration descriptor counts interfaces. It therefore returns the
first `b_num_interfaces` settings of the configuration.
-/

namespace EzEhci

open Lib

/-! ## Descriptors as bytes -/

/-- Any descriptor: its type and what is behind the two header bytes. -/
structure RawDescriptor where
  typ : Byte
  body : List Byte
  fits : body.length + 2 < 256

def RawDescriptor.bytes (d : RawDescriptor) : List Byte :=
  BitVec.ofNat 8 (d.body.length + 2) :: d.typ :: d.body

/-- An endpoint descriptor, with the descriptors between it and the one before. -/
structure EndpointItem where
  before : List RawDescriptor
  endpoint : EndpointInfo
  extra : List Byte
  others : ∀ d ∈ before, d.typ ≠ DescriptorType.interface.toU8 ∧ d.typ ≠ DescriptorType.endpoint.toU8
  fits : extra.length + 7 < 256

def EndpointItem.descriptor (e : EndpointItem) : RawDescriptor where
  typ := DescriptorType.endpoint.toU8
  body := [e.endpoint.endpointAddress.raw, e.endpoint.attributes.raw,
    e.endpoint.maxPacketSize.raw.extractLsb' 0 8, e.endpoint.maxPacketSize.raw.extractLsb' 8 8,
    e.endpoint.interval] ++ e.extra
  fits := by
    have := e.fits
    simp
    omega

def EndpointItem.bytes (e : EndpointItem) : List Byte :=
  e.before.flatMap RawDescriptor.bytes ++ e.descriptor.bytes

/-- A setting of an interface with its endpoints, and the descriptors before it. -/
structure InterfaceItem where
  before : List RawDescriptor
  number : Byte
  alternate : Byte
  class_ : Byte
  subClass : Byte
  protocol : Byte
  iInterface : Byte
  extra : List Byte
  endpoints : List EndpointItem
  others : ∀ d ∈ before, d.typ ≠ DescriptorType.interface.toU8
  fits : extra.length + 9 < 256
  count : endpoints.length < 256

def InterfaceItem.descriptor (i : InterfaceItem) : RawDescriptor where
  typ := DescriptorType.interface.toU8
  body := [i.number, i.alternate, BitVec.ofNat 8 i.endpoints.length, i.class_, i.subClass, i.protocol,
    i.iInterface] ++ i.extra
  fits := by
    have := i.fits
    simp
    omega

def InterfaceItem.bytes (i : InterfaceItem) : List Byte :=
  i.before.flatMap RawDescriptor.bytes ++ (i.descriptor.bytes ++ i.endpoints.flatMap EndpointItem.bytes)

/-- What the driver is to know about the setting. -/
def InterfaceItem.info (i : InterfaceItem) : InterfaceInfo where
  interfaceNumber := i.number
  alternateSetting := i.alternate
  class_ := i.class_
  subClass := i.subClass
  protocol := i.protocol
  endpoints := i.endpoints.map EndpointItem.endpoint

def ConfigurationDescriptor.bytes (c : ConfigurationDescriptor) : List Byte :=
  [c.bLength, c.bDescriptorType, c.wTotalLength.extractLsb' 0 8, c.wTotalLength.extractLsb' 8 8,
    c.bNumInterfaces, c.bConfigurationValue, c.iConfiguration, c.bmAttributes, c.bMaxPower]

/-- A configuration, followed by any bytes. -/
def serialize (c : ConfigurationDescriptor) (items : List InterfaceItem) (trailing : List Byte) :
    List Byte :=
  c.bytes ++ (items.flatMap InterfaceItem.bytes ++ trailing)

/-- The configuration with the given interfaces. -/
def ConfigurationDescriptor.info (c : ConfigurationDescriptor) (interfaces : List InterfaceInfo) :
    ConfigurationInfo :=
  ⟨c.bConfigurationValue, c.bmAttributes, c.bMaxPower, interfaces⟩

theorem u16le_extract (v : BitVec 16) : u16le (v.extractLsb' 0 8) (v.extractLsb' 8 8) = v := by
  apply BitVec.eq_of_getLsbD_eq
  intro i hi
  simp only [u16le, BitVec.getLsbD_append, BitVec.getLsbD_extractLsb']
  by_cases h : i < 8
  · simp [h]
  · have : 8 + (i - 8) = i := by omega
    simp [h, this]
    omega

/-! ## Reading at a position -/

structure Rest (full : List Byte) (position : Nat) (rest : List Byte) : Prop where
  le : position ≤ full.length
  drop : full.drop position = rest

section Read

variable {full rest post : List Byte} {p : Nat}

theorem Rest.slice (h : Rest full p rest) {n : Nat} (hn : n ≤ rest.length) :
    EzEhci.slice full p n = some (rest.take n) := by
  have hlen := congrArg List.length h.drop
  have hle := h.le
  rw [List.length_drop] at hlen
  rw [EzEhci.slice, if_pos (by omega), h.drop]

theorem Rest.advance {d : List Byte} (h : Rest full p (d ++ post)) : Rest full (p + d.length) post := by
  have hlen := congrArg List.length h.drop
  have hle := h.le
  rw [List.length_drop, List.length_append] at hlen
  refine ⟨by omega, ?_⟩
  rw [← List.drop_drop, h.drop, List.drop_left]

theorem RawDescriptor.length_bytes (d : RawDescriptor) : d.bytes.length = d.body.length + 2 := rfl

theorem RawDescriptor.toNat_length (d : RawDescriptor) :
    (BitVec.ofNat 8 (d.body.length + 2)).toNat = d.bytes.length := by
  rw [BitVec.toNat_ofNat, d.length_bytes]
  exact Nat.mod_eq_of_lt d.fits

theorem CommonDescriptor.at_rest {d : RawDescriptor} (h : Rest full p (d.bytes ++ post)) :
    CommonDescriptor.at full p = some ⟨BitVec.ofNat 8 (d.body.length + 2), d.typ⟩ := by
  rw [CommonDescriptor.at, h.slice (by simp only [List.length_append, d.length_bytes]; omega)]
  rfl

theorem EndpointDescriptor.at_rest {e : EndpointItem} (h : Rest full p (e.descriptor.bytes ++ post)) :
    ∃ d, EndpointDescriptor.at full p = some d ∧ d.info = e.endpoint := by
  have hn : 7 ≤ (e.descriptor.bytes ++ post).length := by
    simp [RawDescriptor.length_bytes, EndpointItem.descriptor]
    omega
  refine ⟨⟨BitVec.ofNat 8 (e.descriptor.body.length + 2), DescriptorType.endpoint.toU8,
    e.endpoint.endpointAddress.raw, e.endpoint.attributes.raw,
    u16le (e.endpoint.maxPacketSize.raw.extractLsb' 0 8) (e.endpoint.maxPacketSize.raw.extractLsb' 8 8),
    e.endpoint.interval⟩, ?_, ?_⟩
  · rw [EndpointDescriptor.at, h.slice hn]
    rfl
  · simp only [EndpointDescriptor.info, u16le_extract]

theorem InterfaceDescriptor.at_rest {i : InterfaceItem}
    (h : Rest full p (i.descriptor.bytes ++ post)) :
    ∃ d, InterfaceDescriptor.at full p = some d ∧ d.bNumEndpoints.toNat = i.endpoints.length ∧
      d.info (i.endpoints.map EndpointItem.endpoint) = i.info := by
  have hn : 9 ≤ (i.descriptor.bytes ++ post).length := by
    simp [RawDescriptor.length_bytes, InterfaceItem.descriptor]
    omega
  refine ⟨⟨BitVec.ofNat 8 (i.descriptor.body.length + 2), DescriptorType.interface.toU8, i.number,
    i.alternate, BitVec.ofNat 8 i.endpoints.length, i.class_, i.subClass, i.protocol, i.iInterface⟩,
    ?_, ?_, ?_⟩
  · rw [InterfaceDescriptor.at, h.slice hn]
    rfl
  · exact Nat.mod_eq_of_lt i.count
  · rfl

theorem ConfigurationDescriptor.at_rest {c : ConfigurationDescriptor}
    (h : Rest full p (c.bytes ++ post)) : ConfigurationDescriptor.at full p = some c := by
  rw [ConfigurationDescriptor.at, h.slice (by simp [ConfigurationDescriptor.bytes])]
  simp [ConfigurationDescriptor.bytes, u16le_extract]

end Read

/-! ## Walking a configuration -/

section Walk

variable {full post : List Byte} {c : ConfigurationDescriptor} {is : List InterfaceInfo} {p i k : Nat}
  {id : InterfaceDescriptor} {es : List EndpointInfo}

theorem steps_over (locals : Nat → ParseState) {ds : List RawDescriptor}
    (hstep : ∀ d ∈ ds, ∀ p post, Rest full p (d.bytes ++ post) →
      parseStep full c (locals p) = .next (locals (p + d.bytes.length)))
    (h : Rest full p (ds.flatMap RawDescriptor.bytes ++ post)) :
    Steps (parseStep full c) (locals p) (locals (p + (ds.flatMap RawDescriptor.bytes).length)) := by
  induction ds generalizing p with
  | nil => exact .refl
  | cons d ds ih =>
    rw [List.flatMap_cons, List.append_assoc] at h
    have hrest := ih (fun d' hd' => hstep d' (List.mem_cons_of_mem d hd')) h.advance
    rw [List.flatMap_cons, List.length_append, ← Nat.add_assoc]
    exact .head (hstep d List.mem_cons_self p _ h) hrest

theorem interfaceStep_skip {d : RawDescriptor} (h : Rest full p (d.bytes ++ post))
    (hi : i < c.bNumInterfaces.toNat) (ht : d.typ ≠ DescriptorType.interface.toU8) :
    parseStep full c ⟨is, p, i, none⟩ = .next ⟨is, p + d.bytes.length, i, none⟩ := by
  simp only [parseStep, interfaceStep, if_pos hi, CommonDescriptor.at_rest h, if_neg ht, d.toNat_length]

theorem endpointStep_skip {d : RawDescriptor} (h : Rest full p (d.bytes ++ post))
    (hk : k < id.bNumEndpoints.toNat) (ht : d.typ ≠ DescriptorType.endpoint.toU8) :
    parseStep full c ⟨is, p, i, some ⟨id, es, k⟩⟩ =
      .next ⟨is, p + d.bytes.length, i, some ⟨id, es, k⟩⟩ := by
  simp only [parseStep, endpointStep, if_pos hk, CommonDescriptor.at_rest h, if_neg ht, d.toNat_length]

theorem steps_endpoint {e : EndpointItem} (h : Rest full p (e.bytes ++ post))
    (hk : k < id.bNumEndpoints.toNat) :
    Steps (parseStep full c) ⟨is, p, i, some ⟨id, es, k⟩⟩
      ⟨is, p + e.bytes.length, i, some ⟨id, es ++ [e.endpoint], k + 1⟩⟩ := by
  rw [EndpointItem.bytes, List.append_assoc] at h
  have hskip := steps_over (c := c) (fun p => ⟨is, p, i, some ⟨id, es, k⟩⟩)
    (fun d hd p post h => endpointStep_skip h hk (e.others d hd).2) h
  obtain ⟨d, hd, hinfo⟩ := EndpointDescriptor.at_rest h.advance
  refine hskip.tail ?_
  simp only [parseStep, endpointStep, if_pos hk, CommonDescriptor.at_rest h.advance, hd, hinfo,
    EndpointItem.bytes, List.length_append, e.descriptor.toNat_length, Nat.add_assoc]
  rfl

theorem steps_endpoints {l : List EndpointItem} (h : Rest full p (l.flatMap EndpointItem.bytes ++ post))
    (hk : k + l.length ≤ id.bNumEndpoints.toNat) :
    Steps (parseStep full c) ⟨is, p, i, some ⟨id, es, k⟩⟩
      ⟨is, p + (l.flatMap EndpointItem.bytes).length, i,
        some ⟨id, es ++ l.map EndpointItem.endpoint, k + l.length⟩⟩ := by
  induction l generalizing p es k with
  | nil => simpa using Relation.ReflTransGen.refl
  | cons e l ih =>
    rw [List.flatMap_cons, List.append_assoc] at h
    rw [List.length_cons] at hk
    rw [List.flatMap_cons, List.length_append, List.map_cons, List.length_cons, ← Nat.add_assoc,
      Nat.add_comm l.length, ← Nat.add_assoc, List.append_cons]
    refine (steps_endpoint h (by omega)).trans ?_
    exact ih h.advance (by omega)

theorem steps_interface {s : InterfaceItem} (h : Rest full p (s.bytes ++ post))
    (hi : i < c.bNumInterfaces.toNat) :
    Steps (parseStep full c) ⟨is, p, i, none⟩ ⟨is ++ [s.info], p + s.bytes.length, i + 1, none⟩ := by
  rw [InterfaceItem.bytes, List.append_assoc, List.append_assoc] at h
  have hskip := steps_over (c := c) (fun p => ⟨is, p, i, none⟩)
    (fun d hd p post h => interfaceStep_skip h hi (s.others d hd)) h
  obtain ⟨d, hd, hnum, hinfo⟩ := InterfaceDescriptor.at_rest h.advance
  have hfound := hskip.tail (c := ⟨is, _, i, some ⟨d, [], 0⟩⟩) (by
    simp only [parseStep, interfaceStep, if_pos hi, CommonDescriptor.at_rest h.advance, hd,
      s.descriptor.toNat_length]
    rfl)
  refine (hfound.trans (steps_endpoints h.advance.advance (by omega))).tail ?_
  simp only [parseStep, endpointStep, hnum, Nat.zero_add, Nat.lt_irrefl, if_false, List.nil_append,
    hinfo, InterfaceItem.bytes, List.length_append, Nat.add_assoc]

theorem steps_items {items : List InterfaceItem}
    (h : Rest full p (items.flatMap InterfaceItem.bytes ++ post))
    (hi : i + items.length ≤ c.bNumInterfaces.toNat) :
    Steps (parseStep full c) ⟨is, p, i, none⟩
      ⟨is ++ items.map InterfaceItem.info, p + (items.flatMap InterfaceItem.bytes).length,
        i + items.length, none⟩ := by
  induction items generalizing p is i with
  | nil => simpa using Relation.ReflTransGen.refl
  | cons s items ih =>
    rw [List.flatMap_cons, List.append_assoc] at h
    rw [List.length_cons] at hi
    rw [List.flatMap_cons, List.length_append, List.map_cons, List.length_cons, ← Nat.add_assoc,
      Nat.add_comm items.length, ← Nat.add_assoc, List.append_cons]
    refine (steps_interface h (by omega)).trans ?_
    exact ih h.advance (by omega)

end Walk

/-! ## What is returned -/

section Returned

variable (c : ConfigurationDescriptor) (items : List InterfaceItem) (trailing : List Byte)

/-- The parser returns as many settings as the configuration has interfaces, from the first on. -/
theorem fromDescriptor_take (h : c.bNumInterfaces.toNat ≤ items.length) :
    ∃ n, ConfigurationInfo.fromDescriptor (serialize c items trailing) n =
      some (.returned (c.info ((items.take c.bNumInterfaces.toNat).map InterfaceItem.info))) := by
  have hat : Rest (serialize c items trailing) 0 (c.bytes ++
      ((items.take c.bNumInterfaces.toNat).flatMap InterfaceItem.bytes ++
        ((items.drop c.bNumInterfaces.toNat).flatMap InterfaceItem.bytes ++ trailing))) := by
    refine ⟨Nat.zero_le _, ?_⟩
    rw [List.drop_zero, serialize, ← List.append_assoc (List.flatMap _ (items.take _)),
      ← List.flatMap_append, List.take_append_drop]
  have hlen : (items.take c.bNumInterfaces.toNat).length = c.bNumInterfaces.toNat := by
    rw [List.length_take]
    omega
  have hsteps : Steps (parseStep (serialize c items trailing) c) .start _ :=
    steps_items hat.advance (by omega)
  simp only [ConfigurationInfo.fromDescriptor, ConfigurationDescriptor.at_rest hat]
  refine iterate_of_steps hsteps ?_
  simp only [parseStep, interfaceStep, hlen, Nat.zero_add, Nat.lt_irrefl, if_false, List.nil_append]
  rfl

/-- **The tree is recovered**: if every interface has one setting, the parser returns all of them. -/
theorem fromDescriptor_serialize (h : c.bNumInterfaces.toNat = items.length) :
    ∃ n, ConfigurationInfo.fromDescriptor (serialize c items trailing) n =
      some (.returned (c.info (items.map InterfaceItem.info))) := by
  have htake := fromDescriptor_take c items trailing (Nat.le_of_eq h)
  rwa [h, List.take_length] at htake

end Returned

/-- The boot interface of a keyboard, with its HID descriptor in front of the endpoint. -/
def keyboard : InterfaceItem where
  before := []
  number := 0
  alternate := 0
  class_ := 3
  subClass := 1
  protocol := 1
  iInterface := 0
  extra := []
  endpoints := [{
    before := [⟨0x21, [0x11, 1, 0, 1, 0x22, 0x3f, 0], by decide⟩]
    endpoint := ⟨⟨0x81⟩, ⟨3⟩, ⟨8⟩, 7⟩
    extra := []
    others := by decide
    fits := by decide }]
  others := by decide
  fits := by decide
  count := by decide

theorem fromDescriptor_serialize_keyboard :
    (serialize ⟨9, 2, 34, 1, 1, 0, 0xa0, 50⟩ [keyboard] []).length = 34 ∧
    ∃ n, ConfigurationInfo.fromDescriptor (serialize ⟨9, 2, 34, 1, 1, 0, 0xa0, 50⟩ [keyboard] []) n =
      some (.returned ⟨1, 0xa0, 50, [⟨0, 0, 3, 1, 1, [⟨⟨0x81⟩, ⟨3⟩, ⟨8⟩, 7⟩]⟩]⟩) :=
  ⟨by decide, fromDescriptor_serialize ⟨9, 2, 34, 1, 1, 0, 0xa0, 50⟩ [keyboard] [] (by decide)⟩

/-! ## Alternate settings -/

/-- A configuration whose interfaces may have alternate settings: every setting is described once,
every interface has a setting 0, and the configuration descriptor counts the interfaces. -/
structure WellFormed (c : ConfigurationDescriptor) (items : List InterfaceItem)
    (trailing : List RawDescriptor) : Prop where
  distinct : (items.map fun s => (s.number, s.alternate)).Nodup
  base : ∀ s ∈ items, ∃ z ∈ items, z.number = s.number ∧ z.alternate = 0
  count : c.bNumInterfaces.toNat = (items.map InterfaceItem.number).dedup.length
  others : ∀ d ∈ trailing, d.typ ≠ DescriptorType.interface.toU8

/-- The interface of `s` is among the given ones, with the endpoints of its setting 0. -/
def Kept (items : List InterfaceItem) (interfaces : List InterfaceInfo) (s : InterfaceItem) : Prop :=
  ∃ z ∈ items, z.number = s.number ∧ z.alternate = 0 ∧
    ∃ r ∈ interfaces, r.interfaceNumber = s.number ∧ r.endpoints = z.info.endpoints

/-- `from_descriptor` returns, and no interface of the configuration is dropped. -/
def KeepsInterfaces (c : ConfigurationDescriptor) (items : List InterfaceItem)
    (trailing : List RawDescriptor) : Prop :=
  ∃ n info, ConfigurationInfo.fromDescriptor
      (serialize c items (trailing.flatMap RawDescriptor.bytes)) n = some (.returned info) ∧
    ∀ s ∈ items, Kept items info.interfaces s

/-- The first `n` settings are of different interfaces, and have the endpoints of the settings 0. -/
structure FirstSettings (items : List InterfaceItem) (n : Nat) : Prop where
  different : ((items.take n).map InterfaceItem.number).Nodup
  endpoints : ∀ s ∈ items.take n, ∃ z ∈ items, z.number = s.number ∧ z.alternate = 0 ∧
    s.info.endpoints = z.info.endpoints

section Alternates

variable {c : ConfigurationDescriptor} {items : List InterfaceItem} {trailing : List RawDescriptor}

theorem kept_take_iff {n : Nat} {s : InterfaceItem} :
    Kept items ((items.take n).map InterfaceItem.info) s ↔
      ∃ z ∈ items, z.number = s.number ∧ z.alternate = 0 ∧
        ∃ t ∈ items.take n, t.number = s.number ∧ t.info.endpoints = z.info.endpoints := by
  simp only [Kept, List.mem_map, exists_exists_and_eq_and]
  rfl

theorem keepsInterfaces_iff_kept (h : c.bNumInterfaces.toNat ≤ items.length) :
    KeepsInterfaces c items trailing ↔ ∀ s ∈ items,
      Kept items ((items.take c.bNumInterfaces.toNat).map InterfaceItem.info) s := by
  obtain ⟨n, hn⟩ := fromDescriptor_take c items (trailing.flatMap RawDescriptor.bytes) h
  constructor
  · rintro ⟨m, info, hm, hkept⟩
    cases fromDescriptor_unique hm hn
    exact hkept
  · intro hkept
    exact ⟨n, _, hn, hkept⟩

/-- As many settings as there are interfaces are of different interfaces exactly if none is missing. -/
theorem nodup_iff_covers {l : List InterfaceItem} (hl : l ⊆ items)
    (hlen : l.length = (items.map InterfaceItem.number).dedup.length) :
    (l.map InterfaceItem.number).Nodup ↔ ∀ s ∈ items, ∃ t ∈ l, t.number = s.number := by
  have hsub : l.map InterfaceItem.number ⊆ (items.map InterfaceItem.number).dedup := by
    intro n hn
    obtain ⟨t, ht, rfl⟩ := List.mem_map.mp hn
    exact List.mem_dedup.mpr (List.mem_map_of_mem (hl ht))
  have hlen' : (l.map InterfaceItem.number).length = (items.map InterfaceItem.number).dedup.length := by
    rw [List.length_map, hlen]
  constructor
  · intro hnodup s hs
    have hperm := (List.subperm_of_subset hnodup hsub).perm_of_length_le (Nat.le_of_eq hlen'.symm)
    have hmem := hperm.mem_iff.mpr (List.mem_dedup.mpr (List.mem_map_of_mem hs))
    exact List.mem_map.mp hmem
  · intro hcov
    have hsup : (items.map InterfaceItem.number).dedup ⊆ l.map InterfaceItem.number := by
      intro n hn
      obtain ⟨s, hs, rfl⟩ := List.mem_map.mp (List.mem_dedup.mp hn)
      exact List.mem_map.mpr (hcov s hs)
    have hperm := (List.subperm_of_subset (List.nodup_dedup _) hsup).perm_of_length_le
      (Nat.le_of_eq hlen')
    exact hperm.nodup_iff.mp (List.nodup_dedup _)

/-- **Alternate settings**: no interface is dropped exactly if the settings that come first, as many
as there are interfaces, are of different interfaces and have the endpoints of their setting 0. -/
theorem keepsInterfaces_iff (h : WellFormed c items trailing) :
    KeepsInterfaces c items trailing ↔ FirstSettings items c.bNumInterfaces.toNat := by
  have hle : c.bNumInterfaces.toNat ≤ items.length := by
    have := (List.dedup_sublist (items.map InterfaceItem.number)).length_le
    rwa [List.length_map, ← h.count] at this
  have hlen : (items.take c.bNumInterfaces.toNat).length =
      (items.map InterfaceItem.number).dedup.length := by
    rw [List.length_take, ← h.count]
    omega
  have hcover := nodup_iff_covers (List.take_subset _ items) hlen
  rw [keepsInterfaces_iff_kept hle]
  simp only [kept_take_iff]
  constructor
  · intro hkept
    have hnodup : ((items.take c.bNumInterfaces.toNat).map InterfaceItem.number).Nodup := by
      refine hcover.mpr fun s hs => ?_
      obtain ⟨-, -, -, -, t, ht, hnum, -⟩ := hkept s hs
      exact ⟨t, ht, hnum⟩
    refine ⟨hnodup, fun s hs => ?_⟩
    obtain ⟨z, hz, hznum, hzero, t, ht, hnum, hends⟩ := hkept s (List.mem_of_mem_take hs)
    -- the setting that was kept for the interface of `s` can only be `s`
    obtain rfl : t = s := List.inj_on_of_nodup_map hnodup ht hs hnum
    exact ⟨z, hz, hznum, hzero, hends⟩
  · intro hfirst s hs
    obtain ⟨t, ht, hnum⟩ := hcover.mp hfirst.different s hs
    obtain ⟨z, hz, hznum, hzero, hends⟩ := hfirst.endpoints t ht
    exact ⟨z, hz, hznum.trans hnum, hzero, t, ht, hnum, hends⟩

end Alternates

/-- A setting of an audio interface: with an endpoint for samples, or without. -/
def audioSetting (number alternate : Byte) (endpoints : List EndpointItem)
    (count : endpoints.length < 256) : InterfaceItem :=
  ⟨[], number, alternate, 1, 2, 0, 0, [], endpoints, by simp, by decide, count⟩

def samples (address : Byte) : EndpointItem :=
  ⟨[], ⟨⟨address⟩, ⟨1⟩, ⟨192⟩, 4⟩, [], by simp, by decide⟩

/-- Two interfaces; only the second one has an alternate setting. -/
theorem keepsInterfaces_last_alternate :
    KeepsInterfaces ⟨9, 2, 43, 2, 1, 0, 0x80, 50⟩
      [audioSetting 0 0 [samples 1] (by decide), audioSetting 1 0 [] (by decide),
        audioSetting 1 1 [samples 2] (by decide)] [] := by
  refine (keepsInterfaces_iff ⟨by decide, ?_, by decide, by decide⟩).mpr ⟨by decide, ?_⟩
  · simp [audioSetting]
  · simp [audioSetting]

/-- Two interfaces, of which the first has an alternate setting: the second one is dropped. -/
theorem not_keepsInterfaces_first_alternate :
    ¬ ∀ c items trailing, WellFormed c items trailing → KeepsInterfaces c items trailing := by
  intro h
  have hw : WellFormed ⟨9, 2, 43, 2, 1, 0, 0x80, 50⟩
      [audioSetting 0 0 [] (by decide), audioSetting 0 1 [samples 1] (by decide),
        audioSetting 1 0 [samples 2] (by decide)] [] :=
    ⟨by decide, by simp [audioSetting], by decide, by decide⟩
  obtain ⟨n, info, hn, hkept⟩ := h _ _ _ hw
  obtain ⟨m, hm⟩ := fromDescriptor_take ⟨9, 2, 43, 2, 1, 0, 0x80, 50⟩
    [audioSetting 0 0 [] (by decide), audioSetting 0 1 [samples 1] (by decide),
      audioSetting 1 0 [samples 2] (by decide)] [] (by decide)
  cases fromDescriptor_unique hn hm
  obtain ⟨-, -, -, -, r, hr, hnum, -⟩ := hkept (audioSetting 1 0 [samples 2] (by decide)) (by simp)
  revert r
  decide

end EzEhci
