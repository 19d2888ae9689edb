import EzEhci.Endpoint.Control
import Mathlib.Algebra.GroupWithZero.Nat

/-!
# Data toggles of a control data stage

With data toggle control in the queue head, the toggle of a descriptor's first
packet is the one in its token. The packets of a data stage start with DATA1
and alternate, so the toggle of an IN descriptor depends on how many packets
the descriptors before it carry. `transfer_in` writes DATA1 into each.
-/

namespace EzEhci

open Lib

/-- The packets a buffer is received in, for a maximum packet length of 64. -/
def packets (len : Nat) : Nat := (len + 63) / 64

/-- The toggle of each IN descriptor is DATA1, flipped once for every packet before it. -/
def TogglesAlternate (q : Queue) (buffers : List MappedSlice) (qtds : List MappedMem) : Prop :=
  ∀ i m, i < buffers.length → qtds[i + 1]? = some m →
    ((q.qtds m.ptr).qtdToken.dataToggle = true ↔
      ((buffers.take i).map fun b => packets b.len).sum % 2 = 0)

instance (q : Queue) (buffers : List MappedSlice) (qtds : List MappedMem) :
    Decidable (TogglesAlternate q buffers qtds) :=
  decidable_of_iff (∀ i : Fin buffers.length, ∀ m ∈ qtds[i.val + 1]?,
      ((q.qtds m.ptr).qtdToken.dataToggle = true ↔
        ((buffers.take i).map fun b => packets b.len).sum % 2 = 0))
    ⟨fun h i m hi hm => h ⟨i, hi⟩ m hm, fun h i m hm => h i m i.isLt hm⟩

theorem loadedQh_toggles (deviceAddress : BitVec 7) (endpointNumber : BitVec 4) :
    (loadedQh deviceAddress endpointNumber).endpointCharacteristics.dataToggleControl = true ∧
    (loadedQh deviceAddress endpointNumber).endpointCharacteristics.maxPacketLen = 64 := by
  constructor
  · simp [loadedQh, Qh.new, EndpointCharacteristics.withDataToggleControl,
      EndpointCharacteristics.dataToggleControl, bit_setBit]
  · simp [loadedQh, Qh.new, EndpointCharacteristics.withDataToggleControl,
      EndpointCharacteristics.withMaxPacketLen, EndpointCharacteristics.maxPacketLen, setBit,
      field_setField_of_disjoint]

/-- All sums of the first numbers are even exactly if all numbers but the last are. -/
theorem take_sum_even_iff (l : List Nat) :
    (∀ i < l.length, (l.take i).sum % 2 = 0) ↔ ∀ x ∈ l.dropLast, x % 2 = 0 := by
  induction l with
  | nil => simp
  | cons a l ih =>
    cases l with
    | nil => simp
    | cons b l =>
      rw [List.dropLast_cons_cons, List.forall_mem_cons, ← ih]
      constructor
      · intro h
        have ha : a % 2 = 0 := by simpa using h 1 (by simp)
        refine ⟨ha, fun i hi => ?_⟩
        have := h (i + 1) (by simpa using hi)
        rw [List.take_succ_cons, List.sum_cons] at this
        omega
      · rintro ⟨ha, h⟩ i hi
        cases i with
        | zero => rfl
        | succ i =>
          have := h i (by simpa using hi)
          rw [List.take_succ_cons, List.sum_cons]
          omega

section Toggle

variable {oc : OverflowChecks} {seg : CtrlDsSegment} {q q' : Queue}

theorem inToken_dataToggle (len : Nat) : (inToken len).dataToggle = true := by
  simp [inToken, TransferToken.dataToggle, TransferToken.withInterruptOnComplete,
    TransferToken.withDataToggle, bit_setBit]

theorem statusToken_dataToggle (pid : PidCode) : (statusToken pid).dataToggle = true := by
  simp [statusToken, TransferToken.dataToggle, TransferToken.withInterruptOnComplete,
    TransferToken.withDataToggle, bit_setBit]

/-- Every IN descriptor is written with DATA1, and none of the writes clears a toggle. -/
theorem writeInQtds_toggle {alternate : AlternateQtdLinkPtr} {buffers : List MappedSlice}
    {qtds : List MappedMem} (h : writeInQtds oc seg alternate q buffers qtds = some q') :
    (∀ p, (q.qtds p).qtdToken.dataToggle = true → (q'.qtds p).qtdToken.dataToggle = true) ∧
    ∀ i m, i < buffers.length → qtds[i]? = some m → (q'.qtds m.ptr).qtdToken.dataToggle = true := by
  induction buffers generalizing q qtds with
  | nil =>
    cases h
    exact ⟨fun _ hp => hp, fun i m hi => absurd hi (by simp)⟩
  | cons buffer buffers ih =>
    rcases qtds with _ | ⟨inQtdMem, _ | ⟨nextQtdMem, qtds⟩⟩
    · cases h
    · cases h
    · simp only [writeInQtds, Option.bind_eq_bind, Option.bind_eq_some_iff] at h
      obtain ⟨q₁, h₁, h⟩ := h
      obtain ⟨hframe, hat⟩ := writeInQtd_data h₁
      obtain ⟨hkept, hins⟩ := ih h
      have hself : (q₁.qtds inQtdMem.ptr).qtdToken.dataToggle = true := by
        rw [hat.token, inToken_dataToggle]
      refine ⟨fun p hp => hkept p ?_, fun i m hi hm => ?_⟩
      · by_cases he : p = inQtdMem.ptr
        · rw [he, hself]
        · rw [hframe p he, hp]
      · cases i with
        | zero =>
          cases hm
          exact hkept _ hself
        | succ i => exact hins i m (by simpa using hi) hm

/-- **Every IN descriptor** of a transfer starts with DATA1. -/
theorem transferInStart_toggle {setupPacket : MappedMem} {buffers : List MappedSlice}
    {qtds : List MappedMem} (h : transferInStart oc seg q setupPacket buffers qtds = some q') {i : Nat}
    {m : MappedMem} (hi : i < buffers.length) (hm : qtds[i + 1]? = some m) :
    (q'.qtds m.ptr).qtdToken.dataToggle = true := by
  simp only [transferInStart] at h
  split at h
  · cases h
  · simp only [Option.bind_eq_bind, Option.bind_eq_some_iff, attachQtd, Option.some.injEq] at h
    obtain ⟨_, _, status, _, _, _, q₁, _, _, _, q₂, h₂, _, _, rfl⟩ := h
    have hin := (writeInQtds_toggle h₂).2 i m hi (by rw [List.getElem?_drop, Nat.add_comm, hm])
    -- the status descriptor is written last, with DATA1 too
    simp only [writeStatusQtd, Heap.modify_apply]
    split
    · exact statusToken_dataToggle .outToken
    · exact hin

end Toggle

/-- For buffers that are filled with full packets, the number of packets is even exactly if the
length is a multiple of 128. -/
theorem packets_even_iff {len : Nat} (h : len % 64 = 0) : packets len % 2 = 0 ↔ len % 128 = 0 := by
  unfold packets
  omega

/-- **When the toggles alternate**: every buffer but the last one holds an even number of packets. -/
theorem togglesAlternate_iff {oc : OverflowChecks} {seg : CtrlDsSegment} {q q' : Queue}
    {setupPacket : MappedMem} {buffers : List MappedSlice} {qtds : List MappedMem}
    (h : transferInStart oc seg q setupPacket buffers qtds = some q')
    (hfull : ∀ b ∈ buffers.dropLast, 0 < b.len ∧ b.len % 64 = 0) (deviceAddress : BitVec 7)
    (endpointNumber : BitVec 4) :
    ((loadedQh deviceAddress endpointNumber).endpointCharacteristics.dataToggleControl = true ∧
      (loadedQh deviceAddress endpointNumber).endpointCharacteristics.maxPacketLen = 64 ∧
      TogglesAlternate q' buffers qtds) ↔
    ∀ b ∈ buffers.dropLast, b.len % 128 = 0 := by
  obtain ⟨hcontrol, hmax⟩ := loadedQh_toggles deviceAddress endpointNumber
  have hlen : qtds.length = 1 + buffers.length + 1 := by
    simp only [transferInStart] at h
    split at h
    · cases h
    · rename_i hn
      rw [not_or, not_not] at hn
      exact hn.2
  have hiff : TogglesAlternate q' buffers qtds ↔
      ∀ i < (buffers.map fun b => packets b.len).length,
        ((buffers.map fun b => packets b.len).take i).sum % 2 = 0 := by
    simp only [List.length_map, ← List.map_take]
    constructor
    · intro ht i hi
      obtain ⟨m, hm⟩ : ∃ m, qtds[i + 1]? = some m :=
        ⟨_, List.getElem?_eq_getElem (show i + 1 < qtds.length by omega)⟩
      exact (ht i m hi hm).mp (transferInStart_toggle h hi hm)
    · intro ht i m hi hm
      exact ⟨fun _ => ht i hi, fun _ => transferInStart_toggle h hi hm⟩
  rw [and_iff_right hcontrol, and_iff_right hmax, hiff, take_sum_even_iff, ← List.map_dropLast,
    List.forall_mem_map]
  exact forall₂_congr fun b hb => packets_even_iff (hfull b hb).2

/-- A data stage of two buffers, the first of them two packets long. -/
theorem togglesAlternate_two_packets :
    let buffers : List MappedSlice := [⟨0x5000, 0x5000, 128⟩, ⟨0x6000, 0x6000, 64⟩]
    let qtds : List MappedMem := [⟨0x1000, 0x1000⟩, ⟨0x1040, 0x1040⟩, ⟨0x1080, 0x1080⟩, ⟨0x10c0, 0x10c0⟩]
    ∃ q', transferInStart .on .lower4G blankQueue ⟨0x3000, 0x3000⟩ buffers qtds = some q' ∧
      TogglesAlternate q' buffers qtds := by
  intro buffers qtds
  obtain ⟨q', hq'⟩ := Option.isSome_iff_exists.mp (show (transferInStart .on .lower4G blankQueue
    ⟨0x3000, 0x3000⟩ buffers qtds).isSome = true by decide +kernel)
  exact ⟨q', hq', ((togglesAlternate_iff hq' (by decide) 1 0).mpr (by decide)).2.2⟩

/-- Two buffers of one packet each: the second packet has to be DATA0, and its descriptor says
DATA1. -/
theorem not_togglesAlternate_one_packet :
    ¬ ∀ (oc : OverflowChecks) (seg : CtrlDsSegment) (q q' : Queue) (setupPacket : MappedMem)
      (buffers : List MappedSlice) (qtds : List MappedMem),
      transferInStart oc seg q setupPacket buffers qtds = some q' →
      (∀ b ∈ buffers.dropLast, 0 < b.len ∧ b.len % 64 = 0) → TogglesAlternate q' buffers qtds := by
  intro h
  have hall : ∀ q' ∈ transferInStart .on .lower4G blankQueue ⟨0x3000, 0x3000⟩
      [⟨0x5000, 0x5000, 64⟩, ⟨0x6000, 0x6000, 64⟩]
      [⟨0x1000, 0x1000⟩, ⟨0x1040, 0x1040⟩, ⟨0x1080, 0x1080⟩, ⟨0x10c0, 0x10c0⟩],
      ¬ TogglesAlternate q' [⟨0x5000, 0x5000, 64⟩, ⟨0x6000, 0x6000, 64⟩]
      [⟨0x1000, 0x1000⟩, ⟨0x1040, 0x1040⟩, ⟨0x1080, 0x1080⟩, ⟨0x10c0, 0x10c0⟩] := by decide +kernel
  obtain ⟨q', hq'⟩ := Option.isSome_iff_exists.mp (show (transferInStart .on .lower4G blankQueue
    ⟨0x3000, 0x3000⟩ [⟨0x5000, 0x5000, 64⟩, ⟨0x6000, 0x6000, 64⟩]
    [⟨0x1000, 0x1000⟩, ⟨0x1040, 0x1040⟩, ⟨0x1080, 0x1080⟩, ⟨0x10c0, 0x10c0⟩]).isSome = true by
      decide +kernel)
  exact hall q' hq' (h _ _ _ _ _ _ _ hq' (by decide))

end EzEhci
