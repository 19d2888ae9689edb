import EzEhci.Session.Enumerate

/-!
# Hub descriptors and port status

`HubDescriptor::from_bytes` copies as many bytes of the removable-device bitmap
as a hub with that many ports has. It panics exactly on strings that are too
short, and what it returns determines the bytes it read (`fromBytes_iff`).
-/

namespace EzEhci

open Lib

structure HubDescriptorFixedSizeFields where
  bDescLen : Byte
  bDescriptorType : Byte
  bNbrPorts : Byte
  wHubCharacteristics : BitVec 16
  bPwrOn2PwrGood : Byte
  bHubContrCurrent : Byte
  deriving DecidableEq, Repr

namespace HubDescriptorFixedSizeFields

def readFromBytes : List Byte → Option HubDescriptorFixedSizeFields
  | [len, type, ports, c0, c1, power, current] => some ⟨len, type, ports, u16le c0 c1, power, current⟩
  | _ => none

def bytes (f : HubDescriptorFixedSizeFields) : List Byte :=
  [f.bDescLen, f.bDescriptorType, f.bNbrPorts, f.wHubCharacteristics.extractLsb' 0 8,
    f.wHubCharacteristics.extractLsb' 8 8, f.bPwrOn2PwrGood, f.bHubContrCurrent]

/-- `(b_nbr_ports + 1).div_ceil(8)`. -/
def bytesToCopy (f : HubDescriptorFixedSizeFields) : Nat := (f.bNbrPorts.toNat + 1 + 7) / 8

theorem exists_readFromBytes {l : List Byte} (h : l.length = 7) : ∃ f, readFromBytes l = some f := by
  rcases l with _ | ⟨len, _ | ⟨type, _ | ⟨ports, _ | ⟨c0, _ | ⟨c1, _ | ⟨power, _ | ⟨current, _ | ⟨x, l⟩⟩⟩⟩⟩⟩⟩⟩
  case cons.cons.cons.cons.cons.cons.cons.nil => exact ⟨_, rfl⟩
  all_goals
    simp only [List.length_cons, List.length_nil] at h
    omega

theorem bytesToCopy_le (f : HubDescriptorFixedSizeFields) : f.bytesToCopy ≤ 32 := by
  have := f.bNbrPorts.isLt
  rw [bytesToCopy]
  omega

end HubDescriptorFixedSizeFields

structure HubDescriptor where
  fixedSizeFields : HubDescriptorFixedSizeFields
  deviceRemovable : Vector Byte 32
  deriving DecidableEq, Repr

namespace HubDescriptor

/-- `size_of::<HubDescriptor>()`. -/
def size : Nat := 39

/-- `HubDescriptor::from_bytes`; `none` is a panic. -/
def fromBytes (bytes : List Byte) : Option HubDescriptor := do
  let fixedSizeFields ← (slice bytes 0 7).bind HubDescriptorFixedSizeFields.readFromBytes
  let copied ← slice bytes 7 fixedSizeFields.bytesToCopy
  some ⟨fixedSizeFields, .ofFn fun i => copied.getD i 0⟩

def bytes (d : HubDescriptor) : List Byte :=
  d.fixedSizeFields.bytes ++ d.deviceRemovable.toList.take d.fixedSizeFields.bytesToCopy

/-- The bitmap ends with the last port. -/
def Trimmed (d : HubDescriptor) : Prop :=
  ∀ i : Fin 32, d.fixedSizeFields.bytesToCopy ≤ i → d.deviceRemovable[i] = 0

end HubDescriptor

theorem readFromBytes_iff {bytes : List Byte} {f : HubDescriptorFixedSizeFields} :
    HubDescriptorFixedSizeFields.readFromBytes bytes = some f ↔ bytes = f.bytes := by
  constructor
  · intro h
    unfold HubDescriptorFixedSizeFields.readFromBytes at h
    split at h
    next len type ports c0 c1 power current =>
      cases h
      simp only [HubDescriptorFixedSizeFields.bytes, u16le_lo, u16le_hi]
    next => cases h
  · rintro rfl
    simp only [HubDescriptorFixedSizeFields.bytes, HubDescriptorFixedSizeFields.readFromBytes, u16le_extract]

theorem slice_eq_some_iff {bytes l : List Byte} {p n : Nat} :
    slice bytes p n = some l ↔ p + n ≤ bytes.length ∧ l = (bytes.drop p).take n := by
  unfold slice
  split
  next h => simp only [Option.some.injEq, h, true_and]; exact eq_comm
  next h => simp [h]

namespace HubDescriptor

variable {bytes : List Byte} {d : HubDescriptor}

theorem fromBytes_eq_some :
    fromBytes bytes = some d ↔ ∃ copied tail, bytes = d.fixedSizeFields.bytes ++ (copied ++ tail) ∧
      copied.length = d.fixedSizeFields.bytesToCopy ∧ d.deviceRemovable = .ofFn fun i => copied.getD i 0 := by
  constructor
  · intro h
    simp only [fromBytes, Option.bind_eq_bind, Option.bind_eq_some_iff, slice_eq_some_iff, List.drop_zero,
      readFromBytes_iff, Option.some.injEq] at h
    obtain ⟨f, ⟨_, ⟨h7, rfl⟩, hf⟩, copied, ⟨hlen, rfl⟩, rfl⟩ := h
    refine ⟨_, (bytes.drop 7).drop f.bytesToCopy, ?_, ?_, rfl⟩
    · rw [List.take_append_drop, ← hf, List.take_append_drop]
    · rw [List.length_take, List.length_drop]
      exact Nat.min_eq_left (by omega)
  · rintro ⟨copied, tail, rfl, hlen, hremovable⟩
    have h7 : d.fixedSizeFields.bytes.length = 7 := rfl
    simp only [fromBytes, Option.bind_eq_bind, Option.bind_eq_some_iff, slice_eq_some_iff, List.drop_zero,
      readFromBytes_iff, Option.some.injEq]
    refine ⟨d.fixedSizeFields, ⟨_, ⟨?_, rfl⟩, List.take_left' h7⟩, copied, ⟨?_, ?_⟩, ?_⟩
    · simp [h7]
    · simp [h7, hlen]
    · rw [List.drop_left' h7, List.take_left' hlen]
    · rw [← hremovable]

theorem removable_iff {copied : List Byte} {v : Vector Byte 32} (hlen : copied.length ≤ 32) :
    v = .ofFn (fun i => copied.getD i 0) ↔
      v.toList.take copied.length = copied ∧ ∀ i : Fin 32, copied.length ≤ i → v[i] = 0 := by
  constructor
  · rintro rfl
    refine ⟨List.ext_getElem (by simp [hlen]) fun i h1 h2 => ?_, fun i hi => ?_⟩
    · simp [List.getElem?_eq_getElem h2]
    · simp [List.getElem?_eq_none hi]
  · rintro ⟨htake, hzero⟩
    refine Vector.ext fun i hi => ?_
    rw [Vector.getElem_ofFn]
    by_cases h : i < copied.length
    · have hget : copied[i]? = some v[i] := by
        rw [← htake, List.getElem?_take_of_lt h]
        simp [hi]
      rw [List.getD_eq_getElem?_getD, hget, Option.getD_some]
    · have h0 := hzero ⟨i, hi⟩ (by simpa using h)
      rw [List.getD_eq_getElem?_getD, List.getElem?_eq_none (Nat.le_of_not_lt h), Option.getD_none]
      exact h0

/-- **What is accepted** are the strings that start with the bytes of a hub descriptor, and that
descriptor is returned. -/
theorem fromBytes_iff : fromBytes bytes = some d ↔ d.Trimmed ∧ d.bytes <+: bytes := by
  have hmax := d.fixedSizeFields.bytesToCopy_le
  rw [fromBytes_eq_some]
  constructor
  · rintro ⟨copied, tail, rfl, hlen, hremovable⟩
    obtain ⟨htake, hzero⟩ := (removable_iff (by omega)).mp hremovable
    rw [hlen] at htake hzero
    exact ⟨hzero, tail, by rw [HubDescriptor.bytes, htake, List.append_assoc]⟩
  · rintro ⟨htrim, tail, rfl⟩
    have hlen : (d.deviceRemovable.toList.take d.fixedSizeFields.bytesToCopy).length =
        d.fixedSizeFields.bytesToCopy := by simp [hmax]
    refine ⟨_, tail, by rw [HubDescriptor.bytes, List.append_assoc], hlen, ?_⟩
    refine (removable_iff (by omega)).mpr ⟨by rw [hlen], fun i hi => htrim i (by omega)⟩

/-- **What panics** is shorter than the fixed fields, or than the bitmap for the ports they count. -/
theorem fromBytes_eq_none_iff : fromBytes bytes = none ↔
    bytes.length < 7 ∨ ∃ n, bytes[2]? = some n ∧ bytes.length < 7 + (n.toNat + 1 + 7) / 8 := by
  by_cases h7 : bytes.length < 7
  · simp [fromBytes, slice, h7, Nat.not_le.mpr h7]
  · have hlen : (bytes.take 7).length = 7 := by
      rw [List.length_take]
      omega
    obtain ⟨f, hf⟩ := HubDescriptorFixedSizeFields.exists_readFromBytes hlen
    have hports : bytes[2]? = some f.bNbrPorts := by
      rw [← List.getElem?_take_of_lt (show 2 < 7 by decide), readFromBytes_iff.mp hf]
      rfl
    simp only [fromBytes, slice, Nat.zero_add, if_pos (Nat.le_of_not_lt h7), List.drop_zero,
      Option.bind_some, hf, Option.bind_eq_bind, h7, false_or, hports, Option.some.injEq,
      exists_eq_left']
    rw [← HubDescriptorFixedSizeFields.bytesToCopy]
    split
    next h => simp; omega
    next h => simp; omega

/-- **Exactly the hub descriptors are parsed**: a string is accepted with the descriptor whose bytes it
starts with, and the parser panics exactly on strings that are too short for the ports they count. -/
theorem fromBytes_exact (bytes : List Byte) :
    (∀ d, fromBytes bytes = some d ↔ d.Trimmed ∧ d.bytes <+: bytes) ∧
    (fromBytes bytes = none ↔ bytes.length < 7 ∨
      ∃ n, bytes[2]? = some n ∧ bytes.length < 7 + (n.toNat + 1 + 7) / 8) :=
  ⟨fun _ => fromBytes_iff, fromBytes_eq_none_iff⟩

end HubDescriptor

end EzEhci
