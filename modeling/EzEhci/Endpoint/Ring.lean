import EzEhci.Lib.Loops
import EzEhci.Endpoint.Interrupt

/-!
# The ring of an interrupt endpoint

The runs of a watched endpoint: the controller completes descriptors, the
client peeks and advances. Descriptor `i` is meant to receive its packets in
the `i`-th slice of the buffer, where `peek` looks for them (`RingAddressed`).
`watch` arms every descriptor with the start of the buffer and `advance` only
restores the offset in the first page, so this holds for a ring of one
descriptor and for no other.
-/

namespace EzEhci

open Lib

inductive RingLabel where
  | complete (i : Nat) (token : TransferToken) (offset : BitVec 12)
  | peek
  | advance
  deriving DecidableEq, Repr

namespace WatchedInterruptEndpoint

/-- The controller retires descriptor `i`: it writes the token and the offset back. -/
def completeQtd (w : WatchedInterruptEndpoint) (i : Nat) (token : TransferToken)
    (offset : BitVec 12) : Option WatchedInterruptEndpoint :=
  match w.qtds[i]? with
  | none => none
  | some qtd =>
    if qtd.qtdToken.active && !token.active then
      some { w with qtds := w.qtds.set i { qtd with
        qtdToken := token
        bufferPointerPage0 := qtd.bufferPointerPage0.withCurrentOffset offset } }
    else none

def step (oc : OverflowChecks) (w : WatchedInterruptEndpoint) :
    RingLabel → Option WatchedInterruptEndpoint
  | .complete i token offset => w.completeQtd i token offset
  | .peek => some w.peek.1
  | .advance => some (w.advance oc).1

def rearmed (w : WatchedInterruptEndpoint) (q : Qtd) (ptrs : BufferPtrs) : Qtd :=
  { q with
    bufferPointerPage0 := q.bufferPointerPage0.withCurrentOffset ptrs.offset
    qtdToken := InterruptEndpoint.armedToken w.maxPacketSize }

section Inversion

variable {oc : OverflowChecks} {w w' : WatchedInterruptEndpoint}

theorem completeQtd_eq_some {i : Nat} {token : TransferToken} {offset : BitVec 12}
    (h : w.completeQtd i token offset = some w') :
    ∃ q, w.qtds[i]? = some q ∧ q.qtdToken.active = true ∧ token.active = false ∧
      w' = { w with qtds := w.qtds.set i { q with
        qtdToken := token
        bufferPointerPage0 := q.bufferPointerPage0.withCurrentOffset offset } } := by
  unfold completeQtd at h
  split at h
  · cases h
  next q hq =>
    obtain ⟨hc, h⟩ := Option.ite_none_right_eq_some.mp h
    rw [Bool.and_eq_true, Bool.not_eq_true'] at hc
    cases h
    exact ⟨q, hq, hc.1, hc.2, rfl⟩

variable (w)

/-- `peek` presents the packet it has, counts a descriptor that is no longer active, or presents
nothing. -/
theorem peek_cases :
    (w.completedPackets ≠ 0 ∧ w.peek = (w, w.packet)) ∨
    (w.completedPackets = 0 ∧ ∃ q, w.qtds[w.completedPacketsIndex]? = some q ∧
      q.qtdToken.active = false ∧ w.peek = ({ w with completedPackets := 1 }, w.packet)) ∨
    (w.completedPackets = 0 ∧
      (∀ q, w.qtds[w.completedPacketsIndex]? = some q → q.qtdToken.active = true) ∧
      w.peek.1 = w ∧ ∀ offset len, w.peek.2 ≠ .slice offset len) := by
  unfold peek
  by_cases hzero : w.completedPackets = 0
  · rw [if_neg (by rw [hzero]; decide)]
    cases hq : w.qtds[w.completedPacketsIndex]? with
    | none => exact .inr (.inr ⟨hzero, nofun, rfl, nofun⟩)
    | some q =>
      cases hact : q.qtdToken.active with
      | false =>
        refine .inr (.inl ⟨hzero, q, rfl, hact, ?_⟩)
        simp [hact, hzero]
      | true =>
        refine .inr (.inr ⟨hzero, ?_, ?_⟩)
        · intro q' hq'
          cases hq'
          exact hact
        · simp [hact]
  · have hpos : 1 ≤ w.completedPackets.toNat :=
      Nat.pos_of_ne_zero fun h => hzero (BitVec.eq_of_toNat_eq h)
    rw [if_pos hpos]
    exact .inl ⟨hzero, rfl⟩

theorem peek_fst : w.peek.1 = { w with completedPackets := w.peek.1.completedPackets } := by
  obtain ⟨-, heq⟩ | ⟨-, -, -, -, heq⟩ | ⟨-, -, heq, -⟩ := w.peek_cases
  · rw [heq]
  · rw [heq]
  · rw [heq]

variable (oc)

theorem advance_cases :
    w.advance oc = (w, true) ∨
    ∃ q ptrs, w.qtds[w.completedPacketsIndex]? = some q ∧ w.packetPtrs oc = some ptrs ∧
      w.advance oc = ({ w with
        qtds := w.qtds.set w.completedPacketsIndex (w.rearmed q ptrs)
        completedPacketsIndex :=
          if w.completedPacketsIndex + 1 = w.qtds.length then 0 else w.completedPacketsIndex + 1
        completedPackets := (subU oc w.completedPackets 1).getD w.completedPackets },
        (subU oc w.completedPackets 1).isNone) := by
  unfold advance
  split
  next q ptrs hq hptrs =>
    refine .inr ⟨q, ptrs, hq, hptrs, ?_⟩
    simp only
    cases subU oc w.completedPackets 1 with
    | none => rfl
    | some n => rfl
  next => exact .inl rfl

end Inversion

end WatchedInterruptEndpoint

/-- Every active descriptor targets its own slice of the buffer. -/
structure RingAddressed (w : WatchedInterruptEndpoint) : Prop where
  addr : ∀ (i : Nat) (q : Qtd), w.qtds[i]? = some q → q.qtdToken.active = true →
    q.bufferAddr = w.buffer.physAddr + BitVec.ofNat 64 (i * w.maxPacketSize.toNat)
  disjoint : ∀ (i j : Nat) (q q' : Qtd), i ≠ j → w.qtds[i]? = some q → w.qtds[j]? = some q' →
    q.qtdToken.active = true → q'.qtdToken.active = true →
    q.bufferAddr.toNat + w.maxPacketSize.toNat ≤ q'.bufferAddr.toNat ∨
    q'.bufferAddr.toNat + w.maxPacketSize.toNat ≤ q.bufferAddr.toNat

/-! ## What `watch` arms -/

namespace InterruptEndpoint

variable {oc : OverflowChecks} {ep : InterruptEndpoint} {res : WatchInterruptResources}

theorem armQtd_spec {i : Nat} {q : Qtd} (h : ep.armQtd oc res i = some q) :
    q.qtdToken.active = true ∧ q.bufferAddr = res.buffer.physAddr ∧
    q.bufferPointerPage0.currentOffset = (res.buffer.physAddr % 0x1000).setWidth 12 ∧
    ∃ ptrs, BufferPtrs.newContiguous oc res.buffer.physAddr (ep.maxPacketSize.setWidth 64) =
      some ptrs := by
  simp only [armQtd, Option.bind_eq_bind, Option.bind_eq_some_iff, Option.some.injEq] at h
  obtain ⟨ptrs, hptrs, addr, -, offset, -, rfl⟩ := h
  have hoff := (BufferPtrs.newContiguous_eq_some hptrs).2
  have haddr := Qtd.bufferAddrAt_new hptrs (armedToken ep.maxPacketSize)
  refine ⟨by simp [Qtd.new, armedToken], ?_, by simp [Qtd.new, hoff], ptrs, hptrs⟩
  rw [← haddr]
  simp [Qtd.bufferAddr, Qtd.bufferAddrAt, Qtd.new]

theorem watch_spec {qh : Qh} {w : WatchedInterruptEndpoint} (h : ep.watch oc res = some (qh, w)) :
    0 < res.qtds.len ∧ w.buffer = res.buffer ∧ w.info = ep.info ∧ w.completedPacketsIndex = 0 ∧
    w.completedPackets = 0 ∧ w.qtds.length = res.qtds.len ∧
    ∀ (i : Nat) (q : Qtd), w.qtds[i]? = some q → ep.armQtd oc res i = some q := by
  simp only [watch, prepareWatch, Option.bind_eq_bind, Option.bind_eq_some_iff] at h
  obtain ⟨⟨qh₀, iv⟩, hp, h⟩ := h
  simp only [armWatch, Option.bind_eq_bind, Option.bind_eq_some_iff, Option.some.injEq,
    Prod.mk.injEq] at h
  obtain ⟨qtds, hqtds, offset, -, -, rfl⟩ := h
  have hlen : 0 < res.qtds.len := by
    split at hp
    · cases hp
    · omega
  refine ⟨hlen, rfl, rfl, rfl, rfl, by rw [mapM_length hqtds, List.length_range], fun i q hq => ?_⟩
  rw [mapM_getElem? hqtds, Option.bind_eq_some_iff] at hq
  obtain ⟨j, hj, hq⟩ := hq
  have hij : i = j := by simpa using (List.getElem?_eq_some_iff.mp hj).2
  rwa [hij]

end InterruptEndpoint

/-! ## A ring of one descriptor -/

/-- The only descriptor keeps the buffer's page, and its offset while it is active. -/
structure SingleSlot (phys : BitVec 64) (w : WatchedInterruptEndpoint) (q : Qtd) : Prop where
  qtds : w.qtds = [q]
  index : w.completedPacketsIndex = 0
  buffer : w.buffer.physAddr = phys
  page : q.bufferAddrAt ((phys % 0x1000).setWidth 12) = phys
  offset : q.qtdToken.active = true →
    q.bufferPointerPage0.currentOffset = (phys % 0x1000).setWidth 12

namespace SingleSlot

variable {oc : OverflowChecks} {phys : BitVec 64} {w w' : WatchedInterruptEndpoint} {q : Qtd}

theorem addressed (h : SingleSlot phys w q) : RingAddressed w := by
  have hzero : ∀ (i : Nat) (q' : Qtd), w.qtds[i]? = some q' → i = 0 ∧ q' = q := by
    intro i q' hq
    rw [h.qtds] at hq
    cases i with
    | zero => exact ⟨rfl, by simpa using hq.symm⟩
    | succ i => simp at hq
  constructor
  · intro i q' hq hactive
    obtain ⟨rfl, rfl⟩ := hzero i q' hq
    rw [h.buffer, Nat.zero_mul, BitVec.add_zero, ← h.page, ← h.offset hactive]
    rfl
  · intro i j q' q'' hne hq hq'
    rw [(hzero i q' hq).1, (hzero j q'' hq').1] at hne
    exact absurd rfl hne

theorem complete (h : SingleSlot phys w q) {i : Nat} {token : TransferToken} {offset : BitVec 12}
    (hs : w.completeQtd i token offset = some w') : ∃ q', SingleSlot phys w' q' := by
  obtain ⟨r, hr, -, hina, rfl⟩ := WatchedInterruptEndpoint.completeQtd_eq_some hs
  rw [h.qtds] at hr
  cases i with
  | succ i => cases hr
  | zero =>
    cases hr
    refine ⟨_, by rw [h.qtds]; rfl, h.index, h.buffer, ?_, fun ha => ?_⟩
    · simpa [Qtd.bufferAddrAt] using h.page
    · rw [hina] at ha
      cases ha

theorem peek (h : SingleSlot phys w q) : SingleSlot phys w.peek.1 q := by
  rw [w.peek_fst]
  exact ⟨h.qtds, h.index, h.buffer, h.page, h.offset⟩

/-- Re-arming restores the offset of the buffer's first byte. -/
theorem advance (h : SingleSlot phys w q) : ∃ q', SingleSlot phys (w.advance oc).1 q' := by
  obtain heq | ⟨r, ptrs, hr, hp, heq⟩ := w.advance_cases oc
  · rw [heq]
    exact ⟨q, h⟩
  · rw [h.qtds, h.index] at hr
    cases hr
    have hoff : ptrs.offset = (phys % 0x1000).setWidth 12 := by
      simp only [WatchedInterruptEndpoint.packetPtrs, h.index, Option.bind_eq_bind,
        Option.bind_eq_some_iff] at hp
      obtain ⟨start, hstart, addr, haddr, hp⟩ := hp
      have hzero : start = 0#64 := by rw [mulU_eq_some hstart]; exact BitVec.mul_zero
      rw [hzero] at haddr
      rw [(BufferPtrs.newContiguous_eq_some hp).2, addU_eq_some haddr, h.buffer, BitVec.add_zero]
    rw [heq]
    refine ⟨w.rearmed q ptrs, ?_, ?_, h.buffer, ?_, fun _ => ?_⟩
    · simp [h.qtds, h.index]
    · simp [h.qtds, h.index]
    · simpa [Qtd.bufferAddrAt, WatchedInterruptEndpoint.rearmed] using h.page
    · simpa [WatchedInterruptEndpoint.rearmed] using hoff

end SingleSlot

/-- **Addressing of the ring.** Exactly the rings of one descriptor keep every active descriptor on
its own slice of the buffer, on the first lap and on all later ones. -/
theorem ringAddressed_iff {oc : OverflowChecks} {ep : InterruptEndpoint}
    {res : WatchInterruptResources} {qh : Qh} {w₀ : WatchedInterruptEndpoint}
    (hw : ep.watch oc res = some (qh, w₀)) (hm : 0 < ep.maxPacketSize.toNat) :
    (∀ tr w, exec (WatchedInterruptEndpoint.step oc) w₀ tr = some w → RingAddressed w) ↔
      res.qtds.len = 1 := by
  obtain ⟨hpos, hbuf, hinfo, hidx, -, hlen, harm⟩ := InterruptEndpoint.watch_spec hw
  constructor
  · intro h
    by_contra hne
    -- the second descriptor is armed with the start of the buffer
    have h1 : 1 < w₀.qtds.length := by omega
    obtain ⟨hact, haddr, -, -⟩ := InterruptEndpoint.armQtd_spec (harm 1 _ (List.getElem?_eq_getElem h1))
    have := (h [] w₀ rfl).addr 1 _ (List.getElem?_eq_getElem h1) hact
    have hsize : w₀.maxPacketSize = ep.maxPacketSize := by
      rw [WatchedInterruptEndpoint.maxPacketSize, hinfo]
      rfl
    rw [haddr, hbuf, Nat.one_mul, hsize, BitVec.self_eq_add_right] at this
    have hzero := congrArg BitVec.toNat this
    rw [BitVec.toNat_ofNat, BitVec.toNat_zero] at hzero
    have hlt := ep.maxPacketSize.isLt
    omega
  · intro hone tr w h
    obtain ⟨q, hq⟩ : ∃ q, w₀.qtds = [q] := by
      rw [hone] at hlen
      exact List.length_eq_one_iff.mp hlen
    obtain ⟨-, haddr, hoff, -⟩ := InterruptEndpoint.armQtd_spec (harm 0 q (by rw [hq]; rfl))
    have hstart : ∃ q, SingleSlot res.buffer.physAddr w₀ q :=
      ⟨q, hq, hidx, by rw [hbuf], by rw [← hoff]; exact haddr, fun _ => hoff⟩
    obtain ⟨q', hq'⟩ := exec_invariant (I := fun w => ∃ q, SingleSlot res.buffer.physAddr w q) hstart
      (fun w a w' ⟨q, hslot⟩ hs => by
        cases a with
        | complete i token offset => exact hslot.complete hs
        | peek =>
          cases hs
          exact ⟨q, hslot.peek⟩
        | advance =>
          cases hs
          exact hslot.advance) h
    exact hq'.addressed

/-- An interrupt endpoint with packets of eight bytes, polled every frame. -/
def exampleEndpoint : InterruptEndpoint :=
  ⟨1, 0, ⟨⟨0x81⟩, ⟨3⟩, ⟨8⟩, 4⟩, .lower4G⟩

def exampleResources (n : Nat) : WatchInterruptResources :=
  ⟨⟨0x1000, 0x1000⟩, ⟨0x2000, 0x2000, n⟩, ⟨0x3ffc, 0x3ffc, n * 8⟩⟩

theorem ringAddressed_iff_single :
    ∃ qh w₀, exampleEndpoint.watch .on (exampleResources 1) = some (qh, w₀) ∧
      ∀ tr w, exec (WatchedInterruptEndpoint.step .on) w₀ tr = some w → RingAddressed w := by
  obtain ⟨⟨qh, w₀⟩, hw⟩ := Option.isSome_iff_exists.mp
    (show (exampleEndpoint.watch .on (exampleResources 1)).isSome = true by decide +kernel)
  exact ⟨qh, w₀, hw, (ringAddressed_iff hw (by decide)).mpr rfl⟩

/-- With two descriptors the second one is armed with the first one's slice. -/
theorem not_ringAddressed_two :
    ¬ ∀ (oc : OverflowChecks) (ep : InterruptEndpoint) (res : WatchInterruptResources) (qh : Qh)
      (w₀ : WatchedInterruptEndpoint), ep.watch oc res = some (qh, w₀) → 0 < ep.maxPacketSize.toNat →
      ∀ tr w, exec (WatchedInterruptEndpoint.step oc) w₀ tr = some w → RingAddressed w := by
  intro h
  obtain ⟨⟨qh, w₀⟩, hw, hbad⟩ := (Option.any_eq_true _ _).mp
    (show (exampleEndpoint.watch .on (exampleResources 2)).any (fun r => r.2.qtds[1]?.any fun q =>
      decide (q.qtdToken.active = true ∧
        q.bufferAddr ≠ r.2.buffer.physAddr + BitVec.ofNat 64 (1 * r.2.maxPacketSize.toNat))) = true by
      decide +kernel)
  obtain ⟨q, hq, hd⟩ := (Option.any_eq_true _ _).mp hbad
  obtain ⟨hact, hne⟩ := of_decide_eq_true hd
  exact hne ((h _ _ _ qh w₀ hw (by decide) [] w₀ rfl).addr 1 q hq hact)

/-! ## Halted descriptors -/

/-- The controller retires no descriptor of the ring halted. -/
def CompletesUnhalted (_ : WatchedInterruptEndpoint) : RingLabel → Prop
  | .complete _ token _ => token.halted = false
  | _ => True

instance (w : WatchedInterruptEndpoint) : (a : RingLabel) → Decidable (CompletesUnhalted w a)
  | .complete _ _ _ => inferInstanceAs (Decidable (_ = _))
  | .peek | .advance => inferInstanceAs (Decidable True)

namespace WatchedInterruptEndpoint

variable {oc : OverflowChecks} {w w' : WatchedInterruptEndpoint}

/-- Every token of the ring satisfies `P`. -/
def Tokens (P : TransferToken → Prop) (w : WatchedInterruptEndpoint) : Prop :=
  ∀ q ∈ w.qtds, P q.qtdToken

theorem armedToken_bits (m : BitVec 11) :
    (InterruptEndpoint.armedToken m).active = true ∧ (InterruptEndpoint.armedToken m).halted = false := by
  simp [InterruptEndpoint.armedToken]

/-- What an armed token and those the controller writes satisfy, every token does. -/
theorem Tokens.step {P : TransferToken → Prop} (h : w.Tokens P) {a : RingLabel}
    (harm : ∀ m, P (InterruptEndpoint.armedToken m))
    (hP : ∀ i token offset, a = .complete i token offset → token.active = false → P token)
    (hs : w.step oc a = some w') : w'.Tokens P := by
  have hset : ∀ (i : Nat) (q : Qtd), P q.qtdToken → ∀ q' ∈ w.qtds.set i q, P q'.qtdToken := by
    intro i q hq q' hq'
    rcases List.mem_or_eq_of_mem_set hq' with hq' | rfl
    · exact h q' hq'
    · exact hq
  cases a with
  | complete i token offset =>
    obtain ⟨q, -, -, hina, rfl⟩ := completeQtd_eq_some hs
    exact hset i _ (hP i token offset rfl hina)
  | peek =>
    cases hs
    rw [w.peek_fst]
    exact h
  | advance =>
    cases hs
    obtain heq | ⟨q, ptrs, -, -, heq⟩ := w.advance_cases oc
    · rw [heq]
      exact h
    · rw [heq]
      exact hset _ _ (harm _)

theorem tokens_watch {P : TransferToken → Prop} (harm : ∀ m, P (InterruptEndpoint.armedToken m))
    {ep : InterruptEndpoint} {res : WatchInterruptResources} {qh : Qh}
    (h : ep.watch oc res = some (qh, w)) : w.Tokens P := by
  obtain ⟨-, -, -, -, -, -, hqtds⟩ := InterruptEndpoint.watch_spec h
  intro q hq
  obtain ⟨i, hi⟩ := List.mem_iff_getElem?.mp hq
  have hq := hqtds i q hi
  simp only [InterruptEndpoint.armQtd, Option.bind_eq_bind, Option.bind_eq_some_iff,
    Option.some.injEq] at hq
  obtain ⟨ptrs, -, addr, -, offset, -, rfl⟩ := hq
  exact harm ep.maxPacketSize

/-- The descriptor `peek` presents was not retired halted. -/
def PeekSound (w : WatchedInterruptEndpoint) : Prop :=
  ∀ q offset len, w.qtds[w.completedPacketsIndex]? = some q → w.peek.2 = .slice offset len →
    q.qtdToken.halted = false

/-- `peek` presents a descriptor that is no longer active, however it was retired. -/
theorem peek_of_inactive {q : Qtd} (hq : w.qtds[w.completedPacketsIndex]? = some q)
    (ha : q.qtdToken.active = false) : w.peek.2 = w.packet := by
  obtain ⟨-, heq⟩ | ⟨-, -, -, -, heq⟩ | ⟨-, hact, -⟩ := w.peek_cases
  · rw [heq]
  · rw [heq]
  · rw [hact q hq] at ha
    cases ha

/-- **What `peek` presents.** In runs in which no descriptor is retired halted it presents none that
was; the descriptor at the current index it presents even if it was. -/
theorem peekSound_of_exec {ep : InterruptEndpoint} {res : WatchInterruptResources} {qh : Qh}
    {w₀ : WatchedInterruptEndpoint} (hw : ep.watch oc res = some (qh, w₀)) {tr : List RingLabel}
    (h : exec (WatchedInterruptEndpoint.step oc) w₀ tr = some w) :
    (Meets (WatchedInterruptEndpoint.step oc) CompletesUnhalted w₀ tr → w.PeekSound) ∧
    (w.PeekSound ↔ ∀ q, w.qtds[w.completedPacketsIndex]? = some q → q.qtdToken.halted = false) := by
  refine ⟨fun hC q offset len hq _ => ?_, fun hsound q hq => ?_, fun hall q _ _ hq _ => hall q hq⟩
  · have hall := exec_invariant_of_meets (I := Tokens fun t => t.halted = false)
      (tokens_watch (fun m => (armedToken_bits m).2) hw)
      (fun m a m' hm hc hs => hm.step (fun m => (armedToken_bits m).2)
        (fun i token offset ha _ => by subst ha; exact hc) hs) hC h
    exact hall q (List.mem_of_getElem? hq)
  · -- a halted descriptor is not active
    have hinactive := exec_invariant (I := Tokens fun t => t.halted = true → t.active = false)
      (tokens_watch (fun m hm => by rw [(armedToken_bits m).2] at hm; cases hm) hw)
      (fun m a m' hm hs => hm.step (fun m hm => by rw [(armedToken_bits m).2] at hm; cases hm)
        (fun _ _ _ _ ha _ => ha) hs) h
    cases hh : q.qtdToken.halted with
    | false => rfl
    | true =>
      have hpeek := peek_of_inactive hq (hinactive q (List.mem_of_getElem? hq) hh)
      exact hh ▸ hsound q _ _ hq hpeek

end WatchedInterruptEndpoint

end EzEhci
