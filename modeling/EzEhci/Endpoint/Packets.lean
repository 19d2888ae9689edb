import EzEhci.Endpoint.Order

/-!
# The packets `peek` presents

`PacketWorld` adds the contents of the buffer to the ring: the controller
stores a packet at the address of the descriptor it works on and leaves the
number of missing bytes in its token, and `peek` returns the bytes of the slot
at the current index. The history has the packets that were delivered and the
slices that `peek` returned, with the number of the packet they are about.

`peek` does not read the token: a slice is as long as the slot. It begins with
the packet, if the packet was stored in its slot, and goes on with what earlier
packets left there.
-/

namespace EzEhci

open Lib

/-- Memory with the bytes stored from the offset on. -/
def store (memory : Nat → Byte) (offset : Nat) (data : List Byte) : Nat → Byte := fun x =>
  if offset ≤ x then data[x - offset]?.getD (memory x) else memory x

def window (memory : Nat → Byte) (offset n : Nat) : List Byte :=
  (List.range n).map fun i => memory (offset + i)

section Memory

variable {memory : Nat → Byte} {offset : Nat} {data : List Byte}

theorem store_data {i : Nat} {v : Byte} (h : data[i]? = some v) :
    store memory offset data (offset + i) = v := by
  rw [store, if_pos (Nat.le_add_right _ _), Nat.add_sub_cancel_left, h]
  rfl

theorem store_of_outside {x : Nat} (h : x < offset ∨ offset + data.length ≤ x) :
    store memory offset data x = memory x := by
  unfold store
  split
  next hle =>
    rw [List.getElem?_eq_none (by omega)]
    rfl
  next => rfl

@[simp] theorem length_window (n : Nat) : (window memory offset n).length = n := by
  simp [window]

theorem isPrefix_window {n : Nat} (hlen : data.length ≤ n)
    (h : ∀ i v, data[i]? = some v → memory (offset + i) = v) : data <+: window memory offset n := by
  rw [List.prefix_iff_getElem?]
  intro i hi
  rw [window, List.getElem?_map, List.getElem?_range (by omega), Option.map_some,
    h i _ (List.getElem?_eq_getElem hi)]

end Memory

/-! ## The world -/

structure PacketWorld where
  ring : RingWorld
  /-- The buffer, by offset. -/
  memory : Nat → Byte
  /-- The packets that were delivered. -/
  packets : List (List Byte)
  /-- What `peek` returned, and the number of the packet it is about. -/
  slices : List (Nat × List Byte)

inductive PacketStep where
  | fetch
  | progress (token : TransferToken)
  | deliver (data : List Byte) (offset : Nat) (token : TransferToken)
  | peek
  | advance
  deriving DecidableEq, Repr

namespace PacketWorld

variable (dma : Dma) (seg : CtrlDsSegment) (base : Ptr) (oc : OverflowChecks)

def size (s : PacketWorld) : Nat := s.ring.ep.maxPacketSize.toNat

/-- The descriptor in the overlay has this offset of the buffer for its address. -/
def TargetsOffset (s : PacketWorld) (offset : Nat) : Prop :=
  ∃ q ∈ s.ring.ep.qtds[s.ring.currentIndex dma seg base]?,
    q.bufferAddr = s.ring.ep.buffer.physAddr + BitVec.ofNat 64 offset

instance (s : PacketWorld) (offset : Nat) : Decidable (s.TargetsOffset dma seg base offset) :=
  inferInstanceAs (Decidable (∃ q ∈ _, _))

def step (s : PacketWorld) : PacketStep → Option PacketWorld
  | .fetch => (s.ring.step dma seg base oc (.controller .fetch)).map fun ring => { s with ring }
  | .progress token =>
    (s.ring.step dma seg base oc (.controller (.progress token))).map fun ring => { s with ring }
  | .deliver data offset token =>
    if data.length ≤ s.size ∧ token.totalBytesToTransfer.toNat = s.size - data.length ∧
        s.TargetsOffset dma seg base offset then
      (s.ring.step dma seg base oc (.controller (.complete token))).map fun ring => { s with
        ring
        memory := store s.memory offset data
        packets := s.packets ++ [data] }
    else none
  | .peek => (s.ring.step dma seg base oc .peek).map fun ring => { s with
      ring
      slices := match s.ring.ep.peek.2 with
        | .slice offset len => s.slices ++ [(s.ring.released.length, window s.memory offset len)]
        | _ => s.slices }
  | .advance =>
    let r := s.ring.ep.advance oc
    if r.2 then none
    else some { s with ring := { s.ring with
      ep := r.1
      peeked := false
      released := s.ring.released ++ [s.ring.ep.completedPacketsIndex] } }

def start (r : Qh × WatchedInterruptEndpoint) (memory : Nat → Byte) : PacketWorld :=
  ⟨.start r, memory, [], []⟩

/-- Every slice has the length of its packet. -/
def LengthsRight (s : PacketWorld) : Prop :=
  ∀ k b, (k, b) ∈ s.slices → ∃ p, s.packets[k]? = some p ∧ b.length = p.length

/-- Every slice is about a packet that was delivered and has the max packet size. -/
def PresentsFull (s : PacketWorld) : Prop :=
  ∀ k b, (k, b) ∈ s.slices → ∃ p, s.packets[k]? = some p ∧ p.length = s.size

instance (s : PacketWorld) : Decidable s.PresentsFull :=
  decidable_of_iff (∀ x ∈ s.slices, ∃ p ∈ s.packets[x.1]?, p.length = s.size)
    ⟨fun h k b hb => h (k, b) hb, fun h x hx => h x.1 x.2 hx⟩

/-- A packet that was delivered in both runs was presented as the same slice. -/
def SameSlices (s s' : PacketWorld) : Prop :=
  ∀ k b b', (k, b) ∈ s.slices → (k, b') ∈ s'.slices → s.packets[k]? = s'.packets[k]? → b = b'

/-- A packet is stored in the slot of its descriptor. Where overflow does not panic, `advance` follows
a `peek` that returned. -/
def InOrder (s : PacketWorld) : PacketStep → Prop
  | .deliver _ offset _ => offset = s.ring.currentIndex dma seg base * s.size
  | .advance => oc = .off → s.ring.peeked = true
  | .fetch | .progress _ | .peek => True

instance (s : PacketWorld) : (a : PacketStep) → Decidable (s.InOrder dma seg base oc a)
  | .deliver _ _ _ => inferInstanceAs (Decidable (_ = _))
  | .advance => inferInstanceAs (Decidable (_ → _))
  | .fetch | .progress _ | .peek => inferInstanceAs (Decidable True)

end PacketWorld

/-! ## What a step of the ring keeps -/

namespace WatchedInterruptEndpoint

variable {oc : OverflowChecks} (w : WatchedInterruptEndpoint)

theorem advance_keeps :
    (w.advance oc).1.info = w.info ∧ (w.advance oc).1.qtds.length = w.qtds.length := by
  obtain heq | ⟨q, ptrs, -, -, heq⟩ := w.advance_cases oc
  · rw [heq]
    exact ⟨rfl, rfl⟩
  · rw [heq]
    exact ⟨rfl, List.length_set⟩

theorem advance_panics (h : w.completedPackets = 0) : (w.advance .on).2 = true := by
  obtain heq | ⟨q, ptrs, -, -, heq⟩ := w.advance_cases .on
  · rw [heq]
  · rw [heq, h]
    rfl

theorem peek_slice {offset len : Nat} (h : w.peek.2 = .slice offset len) :
    offset = w.completedPacketsIndex * w.maxPacketSize.toNat ∧ len = w.maxPacketSize.toNat := by
  have hpacket : w.peek.2 = w.packet := by
    obtain ⟨-, heq⟩ | ⟨-, -, -, -, heq⟩ | ⟨-, -, -, hnone⟩ := w.peek_cases
    · rw [heq]
    · rw [heq]
    · exact absurd h (hnone offset len)
  rw [hpacket] at h
  cases h
  exact ⟨rfl, rfl⟩

end WatchedInterruptEndpoint

section Ring

variable {dma : Dma} {seg : CtrlDsSegment} {base : Ptr} {oc : OverflowChecks} {s s' : RingWorld}
  {a k : Nat}

theorem RingWorld.step_keeps {l : RingStep} (hs : s.step dma seg base oc l = some s') :
    s'.ep.info = s.ep.info ∧ s'.ep.qtds.length = s.ep.qtds.length := by
  cases l with
  | controller l =>
    obtain ⟨q, -, rfl⟩ := Option.map_eq_some_iff.mp hs
    exact ⟨rfl, by simp [readSlice]⟩
  | peek =>
    simp only [RingWorld.step] at hs
    rw [s.ep.peek_fst] at hs
    split at hs
    · cases hs
      exact ⟨rfl, rfl⟩
    · cases hs
      exact ⟨rfl, rfl⟩
    · cases hs
  | advance =>
    simp only [RingWorld.step] at hs
    obtain ⟨-, hs⟩ := Option.ite_none_right_eq_some.mp hs
    obtain ⟨-, hs⟩ := Option.ite_none_left_eq_some.mp hs
    cases hs
    exact s.ep.advance_keeps

/-- A completion is the controller's next turn. -/
theorem RingInv.complete (h : RingInv dma seg base s a k) {token : TransferToken}
    (hs : s.step dma seg base oc (.controller (.complete token)) = some s') :
    RingInv dma seg base s' a (k + 1) ∧ s.currentIndex dma seg base = k % s.ep.qtds.length := by
  have hlen := (RingWorld.step_keeps hs).2
  obtain ⟨q, hq, rfl⟩ := Option.map_eq_some_iff.mp hs
  obtain ⟨hact, hina, -, rfl⟩ := Queue.step_complete hq
  have hinv := h.retire hact hina
  refine ⟨hinv, ?_⟩
  have hcomp : s.completed ++ [s.currentIndex dma seg base] = turns s.ep.qtds.length (k + 1) :=
    hlen ▸ hinv.completed
  rw [h.completed, turns_succ] at hcomp
  exact List.singleton_inj.mp (List.append_cancel_left hcomp)

end Ring

/-! ## The invariant -/

def SlicesFull (s : PacketWorld) : Prop := ∀ j b, (j, b) ∈ s.slices → b.length = s.size

/-- As many packets as turns of the controller, and every slice is about a packet that was delivered.
The packets that were not released are in their slots, and every slice begins with its packet. -/
structure PacketInv (dma : Dma) (seg : CtrlDsSegment) (base : Ptr) (s : PacketWorld) (a k : Nat) :
    Prop where
  ring : RingInv dma seg base s.ring a k
  count : s.packets.length = k
  fits : ∀ p ∈ s.packets, p.length ≤ s.size
  shown : ∀ j b, (j, b) ∈ s.slices → j < k
  stored : ∀ j p, a ≤ j → s.packets[j]? = some p → ∀ i v, p[i]? = some v →
    s.memory (j % s.ring.ep.qtds.length * s.size + i) = v
  slices : ∀ j b p, (j, b) ∈ s.slices → s.packets[j]? = some p → p <+: b

section Inv

variable {dma : Dma} {seg : CtrlDsSegment} {base : Ptr} {oc : OverflowChecks} {s s' : PacketWorld}
  {a k : Nat}

theorem size_eq {ring : RingWorld} {l : RingStep} (hs : s.ring.step dma seg base oc l = some ring) :
    ring.ep.maxPacketSize.toNat = s.size := by
  rw [WatchedInterruptEndpoint.maxPacketSize, (RingWorld.step_keeps hs).1]
  rfl

/-- What a step does to the slices: it keeps them and the size of a slot, or it is a `peek` that returns
the slot at the current index. -/
theorem PacketWorld.step_slices {l : PacketStep} (hs : s.step dma seg base oc l = some s') :
    s'.size = s.size ∧ (s'.slices = s.slices ∨
      l = .peek ∧ s'.slices = s.slices ++ [(s.ring.released.length,
        window s.memory (s.ring.ep.completedPacketsIndex * s.size) s.size)]) := by
  cases l with
  | fetch =>
    obtain ⟨ring, hring, rfl⟩ := Option.map_eq_some_iff.mp hs
    exact ⟨size_eq hring, .inl rfl⟩
  | progress token =>
    obtain ⟨ring, hring, rfl⟩ := Option.map_eq_some_iff.mp hs
    exact ⟨size_eq hring, .inl rfl⟩
  | deliver data offset token =>
    obtain ⟨-, hs⟩ := Option.ite_none_right_eq_some.mp hs
    obtain ⟨ring, hring, rfl⟩ := Option.map_eq_some_iff.mp hs
    exact ⟨size_eq hring, .inl rfl⟩
  | peek =>
    obtain ⟨ring, hring, rfl⟩ := Option.map_eq_some_iff.mp hs
    refine ⟨size_eq hring, ?_⟩
    cases hslice : s.ring.ep.peek.2 with
    | pending => exact .inl rfl
    | panicked => exact .inl rfl
    | slice offset len =>
      obtain ⟨rfl, rfl⟩ := s.ring.ep.peek_slice hslice
      exact .inr ⟨rfl, rfl⟩
  | advance =>
    obtain ⟨-, hs⟩ := Option.ite_none_left_eq_some.mp hs
    cases hs
    refine ⟨?_, .inl rfl⟩
    simp only [PacketWorld.size, WatchedInterruptEndpoint.maxPacketSize, s.ring.ep.advance_keeps.1]

theorem SlicesFull.step {l : PacketStep} (h : SlicesFull s) (hs : s.step dma seg base oc l = some s') :
    SlicesFull s' := by
  obtain ⟨hsize, heq | ⟨-, heq⟩⟩ := PacketWorld.step_slices hs
  · intro j b hb
    rw [heq] at hb
    rw [hsize]
    exact h j b hb
  · intro j b hb
    rw [heq] at hb
    rw [hsize]
    rcases List.mem_append.mp hb with hb | hb
    · exact h j b hb
    · cases List.mem_singleton.mp hb
      exact length_window _

/-- A step of the ring that delivers and presents nothing. -/
theorem PacketInv.withRing (h : PacketInv dma seg base s a k) {ring : RingWorld} {l : RingStep} {a' : Nat}
    (ha : a ≤ a') (hs : s.ring.step dma seg base oc l = some ring) (hr : RingInv dma seg base ring a' k) :
    PacketInv dma seg base { s with ring } a' k := by
  have hsize := size_eq hs
  have hlen := (RingWorld.step_keeps hs).2
  refine ⟨hr, h.count, fun p hp => (h.fits p hp).trans_eq hsize.symm, h.shown,
    fun j p hj hp i v hv => ?_, h.slices⟩
  show s.memory (j % ring.ep.qtds.length * ring.ep.maxPacketSize.toNat + i) = v
  rw [hlen, hsize]
  exact h.stored j p (ha.trans hj) hp i v hv

theorem slot_disjoint {i j m x y : Nat} (hne : i ≠ j) (hx : x < m) (hy : y ≤ m) :
    i * m + x < j * m ∨ j * m + y ≤ i * m + x := by
  rcases Nat.lt_or_gt_of_ne hne with hlt | hlt
  · have := Nat.mul_le_mul_right m hlt
    rw [Nat.succ_mul] at this
    omega
  · have := Nat.mul_le_mul_right m hlt
    rw [Nat.succ_mul] at this
    omega

/-- A packet is stored in the slot of the controller's turn. -/
theorem PacketInv.deliver_cases (h : PacketInv dma seg base s a k) {data : List Byte} {offset : Nat}
    {token : TransferToken} (hC : s.InOrder dma seg base oc (.deliver data offset token))
    (hs : s.step dma seg base oc (.deliver data offset token) = some s') :
    data.length ≤ s.size ∧ offset = k % s.ring.ep.qtds.length * s.size ∧
    ∃ ring, s.ring.step dma seg base oc (.controller (.complete token)) = some ring ∧
      RingInv dma seg base ring a (k + 1) ∧ s' = { s with
        ring
        memory := store s.memory offset data
        packets := s.packets ++ [data] } := by
  obtain ⟨⟨hfit, -, -⟩, hs⟩ := Option.ite_none_right_eq_some.mp hs
  obtain ⟨ring, hring, rfl⟩ := Option.map_eq_some_iff.mp hs
  obtain ⟨hinv, hidx⟩ := h.ring.complete hring
  have hoff : offset = s.ring.currentIndex dma seg base * s.size := hC
  rw [hidx] at hoff
  exact ⟨hfit, hoff, ring, hring, hinv, rfl⟩

theorem PacketInv.deliver (h : PacketInv dma seg base s a k) {data : List Byte} {offset : Nat}
    {token : TransferToken} (hC : s.InOrder dma seg base oc (.deliver data offset token))
    (hs : s.step dma seg base oc (.deliver data offset token) = some s') :
    PacketInv dma seg base s' a (k + 1) := by
  obtain ⟨hfit, rfl, ring, hring, hinv, rfl⟩ := h.deliver_cases hC hs
  have hsize := size_eq hring
  have hlen := (RingWorld.step_keeps hring).2
  have hlap := hinv.lap
  rw [hlen] at hlap
  refine ⟨hinv, ?_, fun p hp => ?_, fun j b hb => Nat.lt_succ_of_lt (h.shown j b hb),
    fun j p hj hpk i v hv => ?_, fun j b p hb hpk => ?_⟩
  · simp [h.count]
  · refine le_of_le_of_eq ?_ hsize.symm
    rcases List.mem_append.mp hp with hp | hp
    · exact h.fits p hp
    · rw [List.mem_singleton.mp hp]
      exact hfit
  · show store s.memory (k % s.ring.ep.qtds.length * s.size) data
      (j % ring.ep.qtds.length * ring.ep.maxPacketSize.toNat + i) = v
    rw [hlen, hsize]
    rcases Nat.lt_or_ge j k with hjk | hjk
    · -- an earlier packet, in another slot
      rw [List.getElem?_append_left (by rw [h.count]; exact hjk)] at hpk
      have hpfit := h.fits p (List.mem_of_getElem? hpk)
      have hi := (List.getElem?_eq_some_iff.mp hv).1
      have hne := mod_ne_of_lt hjk (by omega : k < j + s.ring.ep.qtds.length)
      rw [store_of_outside (slot_disjoint (Ne.symm hne) (by omega) hfit)]
      exact h.stored j p hj hpk i v hv
    · rw [List.getElem?_append_right (by rw [h.count]; exact hjk), h.count,
        List.getElem?_singleton] at hpk
      obtain ⟨hjk', rfl⟩ := Option.ite_none_right_eq_some.mp hpk |>.imp id Option.some.inj
      obtain rfl : j = k := by omega
      exact store_data hv
  · have hjk := h.shown j b hb
    rw [List.getElem?_append_left (by rw [h.count]; exact hjk)] at hpk
    exact h.slices j b p hb hpk

/-- A `peek` that returns presents the packet of the client's turn. -/
theorem PacketInv.peek_cases (h : PacketInv dma seg base s a k)
    (hs : s.step dma seg base oc .peek = some s') :
    ∃ ring, s.ring.step dma seg base oc .peek = some ring ∧ (s' = { s with ring } ∨
      a < k ∧ s' = { s with
        ring
        slices := s.slices ++
          [(a, window s.memory (a % s.ring.ep.qtds.length * s.size) s.size)] }) := by
  obtain ⟨ring, hring, rfl⟩ := Option.map_eq_some_iff.mp hs
  refine ⟨ring, hring, ?_⟩
  cases hslice : s.ring.ep.peek.2 with
  | pending => exact .inl rfl
  | panicked => exact .inl rfl
  | slice offset len =>
    obtain ⟨rfl, rfl⟩ := s.ring.ep.peek_slice hslice
    have hpeeked : ring.peeked = true := by
      simp only [RingWorld.step, hslice, Option.some.injEq] at hring
      rw [← hring]
    refine .inr ⟨(h.ring.peek hring).peeked hpeeked, ?_⟩
    rw [h.ring.released, h.ring.index, length_turns]
    rfl

theorem PacketInv.peek (h : PacketInv dma seg base s a k)
    (hs : s.step dma seg base oc .peek = some s') : PacketInv dma seg base s' a k := by
  obtain ⟨ring, hring, rfl | ⟨hak, rfl⟩⟩ := h.peek_cases hs
  · exact h.withRing le_rfl hring (h.ring.peek hring)
  · have hw := h.withRing le_rfl hring (h.ring.peek hring)
    refine ⟨hw.ring, hw.count, hw.fits, fun j b hb => ?_, hw.stored, fun j b p hb hpk => ?_⟩
    · rcases List.mem_append.mp hb with hb | hb
      · exact h.shown j b hb
      · cases List.mem_singleton.mp hb
        exact hak
    · rcases List.mem_append.mp hb with hb | hb
      · exact h.slices j b p hb hpk
      · cases List.mem_singleton.mp hb
        exact isPrefix_window (h.fits p (List.mem_of_getElem? hpk)) (h.stored a p le_rfl hpk)

/-- Where overflow is checked, an `advance` that returns follows a `peek` that did. -/
theorem PacketInv.advance_cases (h : PacketInv dma seg base s a k)
    (hC : s.InOrder dma seg base oc .advance) (hs : s.step dma seg base oc .advance = some s') :
    ∃ ring, s.ring.step dma seg base oc .advance = some ring ∧ s' = { s with ring } := by
  obtain ⟨hok, hs⟩ := Option.ite_none_left_eq_some.mp hs
  have hp : s.ring.peeked = true := by
    cases oc with
    | off => exact hC rfl
    | on =>
      by_contra hnot
      have hzero := h.ring.packets
      rw [if_neg hnot] at hzero
      exact hok (s.ring.ep.advance_panics hzero)
  cases hs
  refine ⟨_, ?_, rfl⟩
  simp only [RingWorld.step, if_pos hp, if_neg hok]

/-- **The invariant of one step.** -/
theorem PacketInv.step {l : PacketStep} (h : PacketInv dma seg base s a k)
    (hC : s.InOrder dma seg base oc l) (hs : s.step dma seg base oc l = some s') :
    ∃ a' k', PacketInv dma seg base s' a' k' := by
  cases l with
  | fetch =>
    obtain ⟨ring, hring, rfl⟩ := Option.map_eq_some_iff.mp hs
    exact ⟨a, k, h.withRing le_rfl hring (h.ring.fetch hring)⟩
  | progress token =>
    obtain ⟨ring, hring, rfl⟩ := Option.map_eq_some_iff.mp hs
    exact ⟨a, k, h.withRing le_rfl hring (h.ring.progress hring)⟩
  | deliver data offset token => exact ⟨a, k + 1, h.deliver hC hs⟩
  | peek => exact ⟨a, k, h.peek hs⟩
  | advance =>
    obtain ⟨ring, hring, rfl⟩ := h.advance_cases hC hs
    exact ⟨a + 1, k, h.withRing (Nat.le_succ a) hring (h.ring.advance hring)⟩

end Inv

/-! ## Another run -/

/-- `s'` went the way of `s`, with the same packet number `k`. Every byte that packet did not write is
another one. -/
structure Alters (k : Nat) (s s' : PacketWorld) : Prop where
  ring : s'.ring = s.ring
  count : s'.packets.length = s.packets.length
  packet : s'.packets[k]? = s.packets[k]?
  memory : ∀ x, (∀ p, s.packets[k]? = some p →
      x < k % s.ring.ep.qtds.length * s.size ∨
        k % s.ring.ep.qtds.length * s.size + p.length ≤ x) →
    s'.memory x = s.memory x + 1
  slices : ∀ b p, (k, b) ∈ s.slices → s.packets[k]? = some p → p.length < s.size →
    ∃ b', (k, b') ∈ s'.slices ∧ b' ≠ b

theorem byte_succ_ne (v : Byte) : v + 1 ≠ v := by
  revert v
  decide

theorem store_succ {memory memory' : Nat → Byte} {offset : Nat} {data : List Byte} {x : Nat}
    (h : memory' x = memory x + 1) :
    store memory' offset (data.map (· + 1)) x = store memory offset data x + 1 := by
  unfold store
  split
  · rw [List.getElem?_map]
    cases data[x - offset]? with
    | none => exact h
    | some v => rfl
  · exact h

theorem window_ne {memory memory' : Nat → Byte} {offset n i : Nat} (hi : i < n)
    (h : memory' (offset + i) = memory (offset + i) + 1) :
    window memory' offset n ≠ window memory offset n := by
  intro heq
  have hget := congrArg (fun l : List Byte => l[i]?) heq
  simp only [window, List.getElem?_map, List.getElem?_range hi, Option.map_some, Option.some.injEq] at hget
  rw [h] at hget
  exact byte_succ_ne _ hget

section Alters

variable {dma : Dma} {seg : CtrlDsSegment} {base : Ptr} {oc : OverflowChecks} {s s' t : PacketWorld}
  {a c k : Nat}

theorem Alters.withRing (h : Alters k s s') {ring : RingWorld} {l : RingStep}
    (hs : s.ring.step dma seg base oc l = some ring) :
    Alters k { s with ring } { s' with ring } := by
  have hsize : PacketWorld.size { s with ring } = s.size := size_eq hs
  have hlen := (RingWorld.step_keeps hs).2
  refine ⟨rfl, h.count, h.packet, fun x hx => h.memory x fun p hp => ?_, fun b p hb hp hlt => ?_⟩
  · have := hx p hp
    rwa [hsize, hlen] at this
  · rw [hsize] at hlt
    exact h.slices b p hb hp hlt

/-- The altered run stores any packet of the same length. -/
theorem Alters.step_deliver (h : Alters k s s') {data data' : List Byte} {offset : Nat}
    {token : TransferToken} (hlen : data'.length = data.length)
    (hs : s.step dma seg base oc (.deliver data offset token) = some t) :
    s'.step dma seg base oc (.deliver data' offset token) = some { s' with
      ring := t.ring
      memory := store s'.memory offset data'
      packets := s'.packets ++ [data'] } := by
  obtain ⟨⟨hfit, htok, htarget⟩, hs⟩ := Option.ite_none_right_eq_some.mp hs
  obtain ⟨ring, hring, rfl⟩ := Option.map_eq_some_iff.mp hs
  have hsize : s'.size = s.size := congrArg (fun r : RingWorld => r.ep.maxPacketSize.toNat) h.ring
  have hguard : data'.length ≤ s'.size ∧ token.totalBytesToTransfer.toNat = s'.size - data'.length ∧
      s'.TargetsOffset dma seg base offset := by
    unfold PacketWorld.TargetsOffset
    rw [hsize, hlen, h.ring]
    exact ⟨hfit, htok, htarget⟩
  simp only [PacketWorld.step, if_pos hguard, h.ring, hring, Option.map_some]

theorem Alters.deliver_same (h : Alters k s s') (hp : PacketInv dma seg base s a k) {data : List Byte}
    {offset : Nat} {token : TransferToken} (hC : s.InOrder dma seg base oc (.deliver data offset token))
    (hs : s.step dma seg base oc (.deliver data offset token) = some t) :
    Alters k t { s' with
      ring := t.ring
      memory := store s'.memory offset data
      packets := s'.packets ++ [data] } := by
  obtain ⟨-, rfl, ring, hring, -, rfl⟩ := hp.deliver_cases hC hs
  have hcount : s.packets.length = k := hp.count
  have hnone : s.packets[k]? = none := List.getElem?_eq_none hcount.le
  have hget : ∀ l : List (List Byte), l.length = k → (l ++ [data])[k]? = some data := by
    rintro l rfl
    exact List.getElem?_concat_length
  refine ⟨rfl, ?_, ?_, fun x hx => ?_, fun b p hb => ?_⟩
  · simp [h.count]
  · exact (hget _ (h.count.trans hcount)).trans (hget _ hcount).symm
  · have hout : x < k % ring.ep.qtds.length * ring.ep.maxPacketSize.toNat ∨
        k % ring.ep.qtds.length * ring.ep.maxPacketSize.toNat + data.length ≤ x := hx data (hget _ hcount)
    rw [(RingWorld.step_keeps hring).2, size_eq hring] at hout
    show store s'.memory _ data x = store s.memory _ data x + 1
    rw [store_of_outside hout, store_of_outside hout]
    exact h.memory x fun p hp => absurd (hnone.symm.trans hp) nofun
  · exact absurd (hp.shown k b hb) (lt_irrefl k)

theorem Alters.deliver_other (h : Alters k s s') (hp : PacketInv dma seg base s a c) (hne : k ≠ c)
    {data : List Byte} {offset : Nat} {token : TransferToken}
    (hC : s.InOrder dma seg base oc (.deliver data offset token))
    (hs : s.step dma seg base oc (.deliver data offset token) = some t) :
    Alters k t { s' with
      ring := t.ring
      memory := store s'.memory offset (data.map (· + 1))
      packets := s'.packets ++ [data.map (· + 1)] } := by
  obtain ⟨-, rfl, ring, hring, -, rfl⟩ := hp.deliver_cases hC hs
  have hw := h.withRing hring
  have hget : ∀ (l : List (List Byte)) (d : List Byte), l.length = c → (l ++ [d])[k]? = l[k]? := by
    rintro l d rfl
    rw [List.getElem?_append]
    split
    · rfl
    · rw [List.getElem?_eq_none (by simp; omega), List.getElem?_eq_none (by omega)]
  refine ⟨rfl, ?_, ?_, fun x hx => ?_, fun b p hb hpk => ?_⟩
  · simp [h.count]
  · exact (hget _ _ (h.count.trans hp.count)).trans (h.packet.trans (hget _ _ hp.count).symm)
  · exact store_succ (hw.memory x fun p hpk => hx p ((hget _ _ hp.count).trans hpk))
  · exact hw.slices b p hb ((hget _ _ hp.count).symm.trans hpk)

theorem Alters.peek (h : Alters k s s') (hp : PacketInv dma seg base s a c)
    (hs : s.step dma seg base oc .peek = some t) :
    ∃ t', s'.step dma seg base oc .peek = some t' ∧ Alters k t t' := by
  obtain ⟨ring, hring, rfl⟩ := Option.map_eq_some_iff.mp hs
  have hw := h.withRing hring
  simp only [PacketWorld.step, h.ring, hring, Option.map_some]
  refine ⟨_, rfl, ?_⟩
  cases hslice : s.ring.ep.peek.2 with
  | pending => exact hw
  | panicked => exact hw
  | slice offset len =>
    obtain ⟨rfl, rfl⟩ := s.ring.ep.peek_slice hslice
    refine ⟨rfl, hw.count, hw.packet, hw.memory, fun b p hb hpk hlt => ?_⟩
    rcases List.mem_append.mp hb with hb | hb
    · obtain ⟨b', hb', hne⟩ := hw.slices b p hb hpk hlt
      exact ⟨b', List.mem_append_left _ hb', hne⟩
    · -- the slice goes on behind the packet with a byte it did not write
      cases List.mem_singleton.mp hb
      refine ⟨_, List.mem_append_right _ (List.mem_singleton.mpr rfl), ?_⟩
      have hlt' : p.length < s.size := lt_of_lt_of_eq hlt (size_eq hring)
      refine window_ne hlt' (h.memory _ fun p' hp' => .inr ?_)
      cases hpk.symm.trans hp'
      rw [hp.ring.index, hp.ring.released, length_turns]
      exact le_rfl

/-- **The altered run goes on.** -/
theorem Alters.step (h : Alters k s s') (hp : PacketInv dma seg base s a c) {l : PacketStep}
    (hC : s.InOrder dma seg base oc l) (hs : s.step dma seg base oc l = some t) :
    ∃ l' t', s'.InOrder dma seg base oc l' ∧ s'.step dma seg base oc l' = some t' ∧ Alters k t t' := by
  cases l with
  | fetch =>
    obtain ⟨ring, hring, rfl⟩ := Option.map_eq_some_iff.mp hs
    refine ⟨.fetch, _, trivial, ?_, h.withRing hring⟩
    simp only [PacketWorld.step, h.ring, hring, Option.map_some]
  | progress token =>
    obtain ⟨ring, hring, rfl⟩ := Option.map_eq_some_iff.mp hs
    refine ⟨.progress token, _, trivial, ?_, h.withRing hring⟩
    simp only [PacketWorld.step, h.ring, hring, Option.map_some]
  | deliver data offset token =>
    have hC' : ∀ data', s'.InOrder dma seg base oc (.deliver data' offset token) := fun data' =>
      show offset = s'.ring.currentIndex dma seg base * s'.ring.ep.maxPacketSize.toNat by
        rw [h.ring]
        exact hC
    by_cases hk : k = c
    · subst hk
      exact ⟨_, _, hC' _, h.step_deliver rfl hs, h.deliver_same hp hC hs⟩
    · exact ⟨_, _, hC' _, h.step_deliver (List.length_map _) hs, h.deliver_other hp hk hC hs⟩
  | peek =>
    obtain ⟨t', ht', halters⟩ := h.peek hp hs
    exact ⟨.peek, t', trivial, ht', halters⟩
  | advance =>
    obtain ⟨ring, hring, rfl⟩ := hp.advance_cases hC hs
    obtain ⟨hok, heq⟩ := Option.ite_none_left_eq_some.mp hs
    cases heq
    have hC' : s'.InOrder dma seg base oc .advance := show oc = .off → s'.ring.peeked = true by
      rw [h.ring]
      exact hC
    refine ⟨.advance, _, hC', ?_, h.withRing hring⟩
    simp only [PacketWorld.step, h.ring, if_neg hok]

end Alters

/-! ## Runs -/

/-- The steps on the ring that a `watch` with these resources built. -/
abbrev ringStep (dma : Dma) (oc : OverflowChecks) (ep : InterruptEndpoint) (res : WatchInterruptResources) :
    PacketWorld → PacketStep → Option PacketWorld :=
  PacketWorld.step dma ep.ctrlDsSegment res.qtds.ptr oc

/-- A run of the ring with every packet in its slot and no `advance` too many. -/
def RunsInOrder (dma : Dma) (oc : OverflowChecks) (ep : InterruptEndpoint) (res : WatchInterruptResources) :
    PacketWorld → List PacketStep → Prop :=
  Meets (ringStep dma oc ep res) (PacketWorld.InOrder dma ep.ctrlDsSegment res.qtds.ptr oc)

instance (dma : Dma) (oc : OverflowChecks) (ep : InterruptEndpoint) (res : WatchInterruptResources)
    (s : PacketWorld) (tr : List PacketStep) : Decidable (RunsInOrder dma oc ep res s tr) :=
  decidableMeets s tr

section Runs

variable {dma : Dma} {oc : OverflowChecks} {ep : InterruptEndpoint} {res : WatchInterruptResources}
  {qh : Qh} {w : WatchedInterruptEndpoint} {memory : Nat → Byte} {tr : List PacketStep}
  {s : PacketWorld}

theorem packetInv_start (hu : res.qtds.Usable dma ep.ctrlDsSegment) (hw : ep.watch oc res = some (qh, w)) :
    PacketInv dma ep.ctrlDsSegment res.qtds.ptr (.start (qh, w) memory) 0 0 :=
  ⟨ringInv_start hu hw, rfl, nofun, nofun, nofun, nofun⟩

theorem packetInv_of_exec (hu : res.qtds.Usable dma ep.ctrlDsSegment)
    (hw : ep.watch oc res = some (qh, w)) (hC : RunsInOrder dma oc ep res (.start (qh, w) memory) tr)
    (h : exec (ringStep dma oc ep res) (.start (qh, w) memory) tr = some s) :
    ∃ a k, PacketInv dma ep.ctrlDsSegment res.qtds.ptr s a k :=
  exec_invariant_of_meets (I := fun s => ∃ a k, PacketInv dma ep.ctrlDsSegment res.qtds.ptr s a k)
    ⟨0, 0, packetInv_start hu hw⟩ (fun _ _ _ ⟨_, _, hi⟩ hc hs => hi.step hc hs) hC h

/-- **Every run has an altered one.** -/
theorem alters_of_exec (hu : res.qtds.Usable dma ep.ctrlDsSegment) (hw : ep.watch oc res = some (qh, w))
    (hC : RunsInOrder dma oc ep res (.start (qh, w) memory) tr)
    (h : exec (ringStep dma oc ep res) (.start (qh, w) memory) tr = some s) (k : Nat) :
    ∃ tr' s', RunsInOrder dma oc ep res (.start (qh, w) fun x => memory x + 1) tr' ∧
      exec (ringStep dma oc ep res) (.start (qh, w) fun x => memory x + 1) tr' = some s' ∧
      Alters k s s' := by
  refine (exec_history (P := fun _ s =>
    (∃ a c, PacketInv dma ep.ctrlDsSegment res.qtds.ptr s a c) ∧
    ∃ tr' s', RunsInOrder dma oc ep res (.start (qh, w) fun x => memory x + 1) tr' ∧
      exec (ringStep dma oc ep res) (.start (qh, w) fun x => memory x + 1) tr' = some s' ∧
      Alters k s s') ?_ ?_ hC h).2
  · exact ⟨⟨0, 0, packetInv_start hu hw⟩, [], _, trivial, rfl, rfl, rfl, rfl, fun _ _ => rfl, nofun⟩
  · rintro - t l u - ⟨⟨a, c, hinv⟩, tr', t', hC', h', halters⟩ hCl hs
    obtain ⟨l', u', hCl', hs', halters'⟩ := halters.step hinv hCl hs
    refine ⟨hinv.step hCl hs, tr' ++ [l'], u', meets_append.mpr ⟨hC', ?_⟩,
      exec_snoc_iff.mpr ⟨t', h', hs'⟩, halters'⟩
    rintro m hm
    cases hm.symm.trans h'
    exact ⟨hCl', fun _ _ => trivial⟩

/-- In every run the slices are as long as a slot, and that is what `watch` chose. -/
theorem slicesFull_of_exec (h : exec (ringStep dma oc ep res) (.start (qh, w) memory) tr = some s) :
    SlicesFull s ∧ s.size = w.maxPacketSize.toNat :=
  exec_invariant (I := fun s => SlicesFull s ∧ s.size = w.maxPacketSize.toNat)
    ⟨fun _ _ hb => absurd hb List.not_mem_nil, rfl⟩
    (fun _ _ _ hi hs => ⟨hi.1.step hs, (PacketWorld.step_slices hs).1.trans hi.2⟩) h

/-- Where the packets are stored in their slots, a full packet is presented as it is. -/
theorem slice_eq_packet (hu : res.qtds.Usable dma ep.ctrlDsSegment) (hw : ep.watch oc res = some (qh, w))
    (hC : RunsInOrder dma oc ep res (.start (qh, w) memory) tr)
    (h : exec (ringStep dma oc ep res) (.start (qh, w) memory) tr = some s) {k : Nat} {b p : List Byte}
    (hb : (k, b) ∈ s.slices) (hp : s.packets[k]? = some p) (hfull : p.length = w.maxPacketSize.toNat) :
    p = b := by
  obtain ⟨a, c, hinv⟩ := packetInv_of_exec hu hw hC h
  obtain ⟨hlen, hsize⟩ := slicesFull_of_exec h
  refine (hinv.slices k b p hb hp).eq_of_length ?_
  rw [hfull, hlen k b hb, hsize]

/-- A slice that is longer than its packet goes on with bytes of earlier packets or of the buffer before
them: there is a run that delivers the same packet to the same slot and presents another slice. -/
theorem presentsFull_of_sameSlices (hu : res.qtds.Usable dma ep.ctrlDsSegment)
    (hw : ep.watch oc res = some (qh, w)) (hC : RunsInOrder dma oc ep res (.start (qh, w) memory) tr)
    (h : exec (ringStep dma oc ep res) (.start (qh, w) memory) tr = some s)
    (hsame : ∀ memory' tr' s', RunsInOrder dma oc ep res (.start (qh, w) memory') tr' →
      exec (ringStep dma oc ep res) (.start (qh, w) memory') tr' = some s' → s.SameSlices s') :
    s.PresentsFull := by
  intro k b hb
  obtain ⟨a, c, hinv⟩ := packetInv_of_exec hu hw hC h
  have hk : k < s.packets.length := hinv.count.symm ▸ hinv.shown k b hb
  have hget := List.getElem?_eq_getElem hk
  refine ⟨_, hget, ?_⟩
  by_contra hne
  have hlt := lt_of_le_of_ne (hinv.fits _ (List.getElem_mem hk)) hne
  obtain ⟨tr', s', hC', h', halters⟩ := alters_of_exec hu hw hC h k
  obtain ⟨b', hb', hdiff⟩ := halters.slices b _ hb hget hlt
  exact hdiff (hsame _ tr' s' hC' h' k b b' hb hb' halters.packet.symm).symm

end Runs

/-- The token of a packet in a slot of eight bytes. -/
def deliveredToken (data : List Byte) : TransferToken :=
  TransferToken.zero.withTotalBytesToTransfer (BitVec.ofNat 15 (8 - data.length))

/-- Two packets go through a ring of one descriptor. -/
def twoPackets (first second : List Byte) : List PacketStep :=
  [.fetch, .deliver first 0 (deliveredToken first), .peek, .advance, .fetch,
    .deliver second 0 (deliveredToken second), .peek]

/-- Two runs that differ in the first packet and in what the buffer held before. -/
def twoRuns (first first' second : List Byte) :
    Option ((Qh × WatchedInterruptEndpoint) × PacketWorld × PacketWorld) :=
  (exampleEndpoint.watch .off (exampleResources 1)).bind fun r =>
    (exec (ringStep .identity .off exampleEndpoint (exampleResources 1)) (.start r fun _ => 0)
      (twoPackets first second)).bind fun s =>
    (exec (ringStep .identity .off exampleEndpoint (exampleResources 1)) (.start r fun _ => 255)
      (twoPackets first' second)).map fun s' => (r, s, s')

theorem twoRuns_eq_some {first first' second : List Byte} {r : Qh × WatchedInterruptEndpoint}
    {s s' : PacketWorld} (h : twoRuns first first' second = some (r, s, s')) :
    exampleEndpoint.watch .off (exampleResources 1) = some r ∧
    exec (ringStep .identity .off exampleEndpoint (exampleResources 1)) (.start r fun _ => 0)
      (twoPackets first second) = some s ∧
    exec (ringStep .identity .off exampleEndpoint (exampleResources 1)) (.start r fun _ => 255)
      (twoPackets first' second) = some s' := by
  obtain ⟨r', hw, h⟩ := Option.bind_eq_some_iff.mp h
  obtain ⟨t, ht, h⟩ := Option.bind_eq_some_iff.mp h
  obtain ⟨t', ht', heq⟩ := Option.map_eq_some_iff.mp h
  cases heq
  exact ⟨hw, ht, ht'⟩

end EzEhci
