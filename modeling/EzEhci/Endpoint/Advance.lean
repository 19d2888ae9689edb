import EzEhci.Hw.Pages
import EzEhci.Endpoint.Ring

/-!
# `advance` without a packet

`advance` documents that it panics if there is no packet to release. The check
is the subtraction that counts the packet off, after the descriptor has been
armed and the index moved, and it is one only in a build that checks overflow.
`advanceEffects` lists what `advance` writes, in order, up to the panic.

Without a packet it writes all the same, unless the address of the slot is so
close to the end of the address space that `new_contiguous` panics first
(`AtEndOfMemory`). Runs in which `advance` is called with a packet, or so, keep
the counter at 0 or 1 and never present a descriptor that is still active.
-/

namespace EzEhci

open Lib

inductive AdvanceEffect where
  | restoreOffset (i : Nat) (offset : BitVec 12)
  | writeToken (i : Nat) (token : TransferToken)
  | moveIndex (index : Nat)
  | countOff (n : BitVec 64)
  deriving DecidableEq, Repr

namespace WatchedInterruptEndpoint

def modifyQtd (w : WatchedInterruptEndpoint) (i : Nat) (f : Qtd → Qtd) : WatchedInterruptEndpoint :=
  { w with qtds := w.qtds.modify i f }

def apply (w : WatchedInterruptEndpoint) : AdvanceEffect → WatchedInterruptEndpoint
  | .restoreOffset i offset => w.modifyQtd i fun q => { q with
      bufferPointerPage0 := q.bufferPointerPage0.withCurrentOffset offset }
  | .writeToken i token => w.modifyQtd i fun q => { q with qtdToken := token }
  | .moveIndex index => { w with completedPacketsIndex := index }
  | .countOff n => { w with completedPackets := n }

/-- What `advance` writes, and whether it panics after that. -/
def advanceEffects (oc : OverflowChecks) (w : WatchedInterruptEndpoint) : List AdvanceEffect × Bool :=
  if w.completedPacketsIndex < w.qtds.length then
    match w.packetPtrs oc with
    | none => ([], true)
    | some ptrs =>
      let index := w.completedPacketsIndex + 1
      let effects := [.restoreOffset w.completedPacketsIndex ptrs.offset,
        .writeToken w.completedPacketsIndex (InterruptEndpoint.armedToken w.maxPacketSize),
        .moveIndex (if index = w.qtds.length then 0 else index)]
      match subU oc w.completedPackets 1 with
      | none => (effects, true)
      | some n => (effects ++ [.countOff n], false)
  else ([], true)

theorem advance_eq (oc : OverflowChecks) (w : WatchedInterruptEndpoint) :
    w.advance oc = ((w.advanceEffects oc).1.foldl apply w, (w.advanceEffects oc).2) := by
  unfold advance advanceEffects
  cases hq : w.qtds[w.completedPacketsIndex]? with
  | none => rw [if_neg (by simpa using hq)]; rfl
  | some q =>
    obtain ⟨hidx, hget⟩ := List.getElem?_eq_some_iff.mp hq
    rw [if_pos hidx]
    cases w.packetPtrs oc with
    | none => rfl
    | some ptrs =>
      have hset : ∀ f g : Qtd → Qtd,
          (w.qtds.modify w.completedPacketsIndex f).modify w.completedPacketsIndex g =
            w.qtds.set w.completedPacketsIndex (g (f q)) := by
        intro f g
        rw [List.modify_modify_eq, List.modify_eq_set_getElem?, hq]
        rfl
      simp only
      cases subU oc w.completedPackets 1 with
      | none => simp [apply, modifyQtd, hset]
      | some n => simp [apply, modifyQtd, hset]

/-- `advance` panics before it writes anything. -/
def PanicsFirst (oc : OverflowChecks) (w : WatchedInterruptEndpoint) : Prop :=
  w.advanceEffects oc = ([], true)

/-- The address of the current slot; without overflow checks it wraps. -/
def slotAddr (oc : OverflowChecks) (w : WatchedInterruptEndpoint) : Nat :=
  let addr := w.buffer.physAddr.toNat +
    w.maxPacketSize.toNat * (BitVec.ofNat 64 w.completedPacketsIndex).toNat
  match oc with
  | .on => addr
  | .off => addr % 2 ^ 64

/-- The five pages from the current slot on reach beyond the address space. -/
def AtEndOfMemory (oc : OverflowChecks) (w : WatchedInterruptEndpoint) : Prop :=
  2 ^ 64 ≤ w.slotAddr oc - w.slotAddr oc % 4096 + 0x5000

instance (oc : OverflowChecks) (w : WatchedInterruptEndpoint) : Decidable (w.AtEndOfMemory oc) :=
  inferInstanceAs (Decidable (_ ≤ _))

/-- `peek` does not present a descriptor that is still active. -/
def PresentsInactive (w : WatchedInterruptEndpoint) : Prop :=
  ∀ q offset len, w.qtds[w.completedPacketsIndex]? = some q → w.peek.2 = .slice offset len →
    q.qtdToken.active = false

/-- `advance` is called with a packet, or panics first. -/
def AdvancesWithPacket (oc : OverflowChecks) (w : WatchedInterruptEndpoint) : RingLabel → Prop
  | .advance => w.completedPackets ≠ 0 ∨ w.AtEndOfMemory oc
  | _ => True

instance (oc : OverflowChecks) (w : WatchedInterruptEndpoint) :
    (a : RingLabel) → Decidable (w.AdvancesWithPacket oc a)
  | .advance => inferInstanceAs (Decidable (_ ∨ _))
  | .complete _ _ _ | .peek => inferInstanceAs (Decidable True)

section Panics

variable {oc : OverflowChecks} {w w' : WatchedInterruptEndpoint}

/-- In a build that checks overflow, an address that overflows is refused as one at the end of the
address space is. -/
theorem slotPtrs_on {phys m i : BitVec 64} (hm : m.toNat < 4096) {a : Nat}
    (ha : a = phys.toNat + m.toNat * i.toNat) :
    ((mulU .on m i).bind fun start => (addU .on phys start).bind fun addr =>
      BufferPtrs.newContiguous .on addr m) = none ↔ 2 ^ 64 ≤ a - a % 4096 + 0x5000 := by
  by_cases hmul : 2 ^ 64 ≤ m.toNat * i.toNat
  · rw [mulU, if_pos ⟨rfl, hmul⟩]
    exact iff_of_true rfl (by omega)
  · have hprod : (m * i).toNat = m.toNat * i.toNat := by
      rw [BitVec.toNat_mul]
      exact Nat.mod_eq_of_lt (by omega)
    rw [mulU, if_neg (by omega), Option.bind_some]
    by_cases hadd : 2 ^ 64 ≤ a
    · rw [addU, if_pos ⟨rfl, by omega⟩]
      exact iff_of_true rfl (by omega)
    · have hsum : (phys + m * i).toNat = a := by
        rw [BitVec.toNat_add, hprod, ← ha]
        exact Nat.mod_eq_of_lt (by omega)
      rw [addU, if_neg (by omega), Option.bind_some, newContiguous_eq_none_iff hm, hsum]

/-- In the other builds the address wraps around. -/
theorem slotPtrs_off {phys m i : BitVec 64} (hm : m.toNat < 4096) {a : Nat}
    (ha : a = (phys.toNat + m.toNat * i.toNat) % 2 ^ 64) :
    ((mulU .off m i).bind fun start => (addU .off phys start).bind fun addr =>
      BufferPtrs.newContiguous .off addr m) = none ↔ 2 ^ 64 ≤ a - a % 4096 + 0x5000 := by
  have hsum : (phys + m * i).toNat = a := by
    rw [BitVec.toNat_add, BitVec.toNat_mul, Nat.add_mod_mod, ha]
  rw [mulU, if_neg (by simp), Option.bind_some, addU, if_neg (by simp), Option.bind_some,
    newContiguous_eq_none_iff hm, hsum]

theorem packetPtrs_eq_none_iff : w.packetPtrs oc = none ↔ w.AtEndOfMemory oc := by
  have hsize : (w.maxPacketSize.setWidth 64).toNat = w.maxPacketSize.toNat := by
    rw [BitVec.toNat_setWidth]
    exact Nat.mod_eq_of_lt (by omega)
  have hlt : (w.maxPacketSize.setWidth 64).toNat < 4096 := by
    rw [hsize]
    omega
  unfold packetPtrs AtEndOfMemory
  cases oc with
  | on =>
    have ha : w.slotAddr .on = w.buffer.physAddr.toNat + (w.maxPacketSize.setWidth 64).toNat *
        (BitVec.ofNat 64 w.completedPacketsIndex).toNat := by
      simp only [slotAddr, hsize]
    exact slotPtrs_on hlt ha
  | off =>
    have ha : w.slotAddr .off = (w.buffer.physAddr.toNat + (w.maxPacketSize.setWidth 64).toNat *
        (BitVec.ofNat 64 w.completedPacketsIndex).toNat) % 2 ^ 64 := by
      simp only [slotAddr, hsize]
    exact slotPtrs_off hlt ha

/-- **Without a packet** `advance` panics first exactly at the end of the address space. -/
theorem panicsFirst_iff (hidx : w.completedPacketsIndex < w.qtds.length) :
    w.PanicsFirst oc ↔ w.AtEndOfMemory oc := by
  rw [← packetPtrs_eq_none_iff]
  unfold PanicsFirst advanceEffects
  rw [if_pos hidx]
  cases hp : w.packetPtrs oc with
  | none => simp
  | some ptrs =>
    simp only [reduceCtorEq, iff_false]
    split <;> simp

theorem PanicsFirst.advance (h : w.PanicsFirst oc) : w.advance oc = (w, true) := by
  rw [advance_eq, h]
  rfl

end Panics

/-! ## Runs -/

section Runs

variable {oc : OverflowChecks} {w w' : WatchedInterruptEndpoint}

def IndexInRing (w : WatchedInterruptEndpoint) : Prop := w.completedPacketsIndex < w.qtds.length

theorem IndexInRing.step {a : RingLabel} (h : w.IndexInRing) (hs : w.step oc a = some w') :
    w'.IndexInRing := by
  unfold IndexInRing at h ⊢
  cases a with
  | complete i token offset =>
    obtain ⟨q, -, -, -, rfl⟩ := completeQtd_eq_some hs
    simpa using h
  | peek =>
    cases hs
    rw [w.peek_fst]
    exact h
  | advance =>
    cases hs
    obtain heq | ⟨q, ptrs, -, -, heq⟩ := w.advance_cases oc
    · rw [heq]
      exact h
    · rw [heq]
      simp only [List.length_set]
      split <;> omega

/-- There is no packet, or one whose descriptor is no longer active. -/
def Counted (w : WatchedInterruptEndpoint) : Prop :=
  w.completedPackets = 0 ∨
    w.completedPackets = 1 ∧ ∃ q, w.qtds[w.completedPacketsIndex]? = some q ∧ q.qtdToken.active = false

theorem Counted.complete (h : w.Counted) {i : Nat} {token : TransferToken} {offset : BitVec 12}
    (hs : w.step oc (.complete i token offset) = some w') : w'.Counted := by
  obtain ⟨r, hr, hact, -, rfl⟩ := completeQtd_eq_some hs
  rcases h with h | ⟨h, q, hq, hina⟩
  · exact .inl h
  · -- the controller only retires a descriptor that is still active
    have hne : i ≠ w.completedPacketsIndex := by
      rintro rfl
      rw [hr] at hq
      cases hq
      rw [hina] at hact
      cases hact
    exact .inr ⟨h, q, (List.getElem?_set_ne hne).trans hq, hina⟩

theorem Counted.peek (h : w.Counted) : w.peek.1.Counted := by
  obtain ⟨-, heq⟩ | ⟨-, q, hq, hina, heq⟩ | ⟨-, -, heq, -⟩ := w.peek_cases
  · rw [heq]
    exact h
  · rw [heq]
    exact .inr ⟨rfl, q, hq, hina⟩
  · rw [heq]
    exact h

theorem Counted.advance (h : w.Counted) (hidx : w.IndexInRing)
    (hC : w.AdvancesWithPacket oc .advance) : (w.advance oc).1.Counted := by
  have hsub : subU oc (1 : BitVec 64) 1 = some 0 := by cases oc <;> rfl
  rcases hC with hne | hend
  · obtain ⟨h1, -⟩ := h.resolve_left hne
    obtain heq | ⟨q, ptrs, -, -, heq⟩ := w.advance_cases oc
    · rw [heq]
      exact h
    · rw [heq, h1, hsub]
      exact .inl rfl
  · rw [((panicsFirst_iff hidx).mpr hend).advance]
    exact h

/-- `peek` presents nothing else than the packet that is counted. -/
theorem Counted.presentsInactive (h : w.Counted) : w.PresentsInactive := by
  intro q offset len hq hpeek
  obtain ⟨hne, -⟩ | ⟨-, q', hq', hina, -⟩ | ⟨-, -, -, hnone⟩ := w.peek_cases
  · obtain ⟨-, q', hq', hina⟩ := h.resolve_left hne
    rw [hq] at hq'
    cases hq'
    exact hina
  · rw [hq] at hq'
    cases hq'
    exact hina
  · exact absurd hpeek (hnone offset len)

end Runs

theorem counted_watch {oc : OverflowChecks} {ep : InterruptEndpoint} {res : WatchInterruptResources}
    {qh : Qh} {w : WatchedInterruptEndpoint} (hw : ep.watch oc res = some (qh, w)) :
    w.IndexInRing ∧ w.Counted := by
  obtain ⟨hpos, -, -, hidx, hpk, hlen, -⟩ := InterruptEndpoint.watch_spec hw
  exact ⟨by rw [IndexInRing, hidx, hlen]; exact hpos, .inl hpk⟩

/-- **`advance` without a packet.** In every state it panics before it writes anything exactly at the
end of the address space. In every run in which it is called with a packet, or there, there is never
more than one packet and `peek` never presents a descriptor that is still active. -/
theorem advance_without_packet {oc : OverflowChecks} {ep : InterruptEndpoint}
    {res : WatchInterruptResources} {qh : Qh} {w₀ w : WatchedInterruptEndpoint}
    (hw : ep.watch oc res = some (qh, w₀)) {tr : List RingLabel} (h : exec (step oc) w₀ tr = some w) :
    (w.completedPackets = 0 → (w.PanicsFirst oc ↔ w.AtEndOfMemory oc)) ∧
    (Meets (step oc) (AdvancesWithPacket oc) w₀ tr →
      (w.completedPackets = 0 ∨ w.completedPackets = 1) ∧ w.PresentsInactive) := by
  obtain ⟨hidx, hcount⟩ := counted_watch hw
  have hin : w.IndexInRing := exec_invariant (I := IndexInRing) hidx (fun _ _ _ hm hs => hm.step hs) h
  refine ⟨fun _ => panicsFirst_iff hin, fun hC => ?_⟩
  obtain ⟨-, hinv⟩ := exec_invariant_of_meets (I := fun w => w.IndexInRing ∧ w.Counted) ⟨hidx, hcount⟩
    (fun m a m' ⟨hm, hc⟩ hcond hs => by
      refine ⟨hm.step hs, ?_⟩
      cases a with
      | complete i token offset => exact hc.complete hs
      | peek =>
        cases hs
        exact hc.peek
      | advance =>
        cases hs
        exact hc.advance hm hcond) hC h
  exact ⟨hinv.imp_right And.left, hinv.presentsInactive⟩

/-- Two packets, each released after it was shown, in a build without overflow checks. -/
theorem advance_without_packet_two : ∃ qh w₀ w,
    exampleEndpoint.watch .off (exampleResources 2) = some (qh, w₀) ∧
    exec (step .off) w₀ [.complete 0 .zero 0, .peek, .advance, .complete 1 .zero 0, .peek, .peek,
      .advance] = some w ∧
    w.completedPackets = 0 ∧ ¬ w.PanicsFirst .off ∧ w.PresentsInactive := by
  obtain ⟨⟨⟨qh, w₀⟩, w⟩, hs, hp⟩ := (Option.any_eq_true _ _).mp
    (show ((exampleEndpoint.watch .off (exampleResources 2)).bind fun r =>
      (exec (step .off) r.2 [.complete 0 .zero 0, .peek, .advance, .complete 1 .zero 0, .peek, .peek,
        .advance]).map fun w => (r, w)).any
        (fun p => decide (p.2.completedPackets = 0 ∧ ¬ p.2.AtEndOfMemory .off ∧
          Meets (step .off) (AdvancesWithPacket .off) p.1.2 [.complete 0 .zero 0, .peek, .advance,
            .complete 1 .zero 0, .peek, .peek, .advance])) = true by decide +kernel)
  obtain ⟨r, hw, hs⟩ := Option.bind_eq_some_iff.mp hs
  obtain ⟨w', hs, heq⟩ := Option.map_eq_some_iff.mp hs
  cases heq
  obtain ⟨hzero, hend, hC⟩ := of_decide_eq_true hp
  obtain ⟨hfirst, hrun⟩ := advance_without_packet hw hs
  exact ⟨qh, w₀, w, hw, hs, hzero, fun hpan => hend ((hfirst hzero).mp hpan), (hrun hC).2⟩

/-- With a ring of two and no packet, `advance` writes in both builds. Without overflow checks the count
then wraps around, and `peek` presents an active descriptor. -/
theorem not_advance_without_packet :
    (∃ qh w₀, exampleEndpoint.watch .on (exampleResources 2) = some (qh, w₀) ∧
      w₀.completedPackets = 0 ∧ ¬ w₀.PanicsFirst .on) ∧
    ∃ qh w₀ w, exampleEndpoint.watch .off (exampleResources 2) = some (qh, w₀) ∧
      w₀.completedPackets = 0 ∧ ¬ w₀.PanicsFirst .off ∧ exec (step .off) w₀ [.advance] = some w ∧
      ¬ (w.completedPackets = 0 ∨ w.completedPackets = 1) ∧ ¬ w.PresentsInactive := by
  constructor
  · obtain ⟨⟨qh, w₀⟩, hw, hbad⟩ := (Option.any_eq_true _ _).mp
      (show (exampleEndpoint.watch .on (exampleResources 2)).any (fun r =>
        decide (r.2.completedPackets = 0 ∧ r.2.advanceEffects .on ≠ ([], true))) = true by
        decide +kernel)
    obtain ⟨hzero, heff⟩ := of_decide_eq_true hbad
    exact ⟨qh, w₀, hw, hzero, heff⟩
  · obtain ⟨⟨qh, w₀⟩, hw, hbad⟩ := (Option.any_eq_true _ _).mp
      (show (exampleEndpoint.watch .off (exampleResources 2)).any (fun r =>
        decide (r.2.completedPackets = 0 ∧ r.2.advanceEffects .off ≠ ([], true) ∧
          (r.2.advance .off).1.completedPackets = BitVec.allOnes 64 ∧
          (r.2.advance .off).1.completedPacketsIndex = 1 ∧
          (r.2.advance .off).1.peek.2 = .slice 8 8 ∧
          ((r.2.advance .off).1.qtds[1]?.any fun q => q.qtdToken.active) = true)) = true by
        decide +kernel)
    obtain ⟨hzero, heff, hcount, hidx, hpeek, hact⟩ := of_decide_eq_true hbad
    obtain ⟨q, hq, hact⟩ := (Option.any_eq_true _ _).mp hact
    refine ⟨qh, w₀, _, hw, hzero, heff, rfl, ?_, fun hina => ?_⟩
    · rw [hcount]
      decide
    · have hfalse := hina q 8 8 (by rw [hidx]; exact hq) hpeek
      rw [hact] at hfalse
      cases hfalse

end WatchedInterruptEndpoint

end EzEhci
