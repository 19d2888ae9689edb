import EzEhci.Lib.Ring
import EzEhci.Hw.Queue
import EzEhci.Endpoint.Ring

/-!
# The order of packets in an interrupt ring

The controller and the client go round the ring of descriptors that `watch`
built: the controller follows the links from the queue head and waits at an
inactive descriptor, the client peeks and advances. They share only the active
bits. `RingWorld` has both and the history: the descriptors the controller
retired, the slices `peek` returned and the descriptors `advance` released.
-/

namespace EzEhci

open Lib

/-! ## The descriptors in memory -/

/-- The pointer to the `i`-th descriptor of a slice. -/
def qtdPtr (base : Ptr) (i : Nat) : Ptr := base + Qtd.size * i

/-- The descriptor a pointer into the slice is at. -/
def qtdIndex (base p : Ptr) : Nat := (p - base) / Qtd.size

/-- The memory that holds the descriptors of a slice. -/
def sliceHeap (base : Ptr) (l : List Qtd) : Heap Qtd := fun p =>
  l.getD (qtdIndex base p) (Qtd.new .zero .zero)

/-- The descriptors of a slice of `n`, read from memory. -/
def readSlice (base : Ptr) (n : Nat) (heap : Heap Qtd) : List Qtd :=
  (List.range n).map fun i => heap (qtdPtr base i)

section Slice

variable (base : Ptr)

@[simp] theorem qtdIndex_qtdPtr (i : Nat) : qtdIndex base (qtdPtr base i) = i := by
  simp [qtdIndex, qtdPtr, Qtd.size]

theorem qtdPtr_inj {i j : Nat} (h : qtdPtr base i = qtdPtr base j) : i = j := by
  rw [← qtdIndex_qtdPtr base i, h, qtdIndex_qtdPtr]

theorem sliceHeap_of_getElem? {l : List Qtd} {i : Nat} {q : Qtd} (h : l[i]? = some q) :
    sliceHeap base l (qtdPtr base i) = q := by
  rw [sliceHeap, qtdIndex_qtdPtr, List.getD_eq_getElem?_getD, h]
  rfl

theorem readSlice_sliceHeap (l : List Qtd) : readSlice base l.length (sliceHeap base l) = l := by
  refine List.ext_getElem? fun i => ?_
  rw [readSlice, List.getElem?_map]
  by_cases hi : i < l.length
  · rw [List.getElem?_range hi, Option.map_some,
      sliceHeap_of_getElem? base (List.getElem?_eq_getElem hi), List.getElem?_eq_getElem hi]
  · rw [List.getElem?_eq_none (by simpa using hi), List.getElem?_eq_none (by simpa using hi)]
    rfl

theorem readSlice_modify {l : List Qtd} {i : Nat} {q : Qtd} (h : l[i]? = some q) (f : Qtd → Qtd) :
    readSlice base l.length ((sliceHeap base l).modify (qtdPtr base i) f) = l.set i (f q) := by
  refine List.ext_getElem? fun j => ?_
  rw [readSlice, List.getElem?_map, List.getElem?_set]
  by_cases hj : j < l.length
  · rw [List.getElem?_range hj, Option.map_some, Heap.modify_apply]
    by_cases hij : i = j
    · subst hij
      rw [if_pos rfl, if_pos rfl, if_pos hj, sliceHeap_of_getElem? base h]
    · rw [if_neg fun heq => hij (qtdPtr_inj base heq).symm, if_neg hij,
        sliceHeap_of_getElem? base (List.getElem?_eq_getElem hj), List.getElem?_eq_getElem hj]
  · have hij : i ≠ j := by
      rintro rfl
      exact hj (List.getElem?_eq_some_iff.mp h).1
    rw [if_neg hij, List.getElem?_eq_none (by simpa using hj), List.getElem?_eq_none (by simpa using hj)]
    rfl

end Slice

/-! ## Controller and client -/

/-- A watched endpoint with its queue head, and what happened on it. -/
structure RingWorld where
  qh : Qh
  ep : WatchedInterruptEndpoint
  /-- A `peek` returned since the last `advance`. -/
  peeked : Bool
  completed : List Nat
  /-- Offset and length of the slices that were returned, one for each `peek`/`advance` pair: a `peek`
  of the same packet replaces the slice of the one before. -/
  presented : List (Nat × Nat)
  released : List Nat
  deriving DecidableEq

inductive RingStep where
  | controller (a : QueueLabel)
  | peek
  | advance
  deriving DecidableEq, Repr

namespace RingWorld

variable (dma : Dma) (seg : CtrlDsSegment) (base : Ptr) (oc : OverflowChecks)

/-- What the controller sees of the world. -/
def queue (s : RingWorld) : Queue := ⟨s.qh, sliceHeap base s.ep.qtds⟩

def currentIndex (s : RingWorld) : Nat := qtdIndex base ((s.queue base).current dma seg)

/-- The step retires the descriptor in the overlay. -/
def retires : QueueLabel → Bool
  | .complete _ | .halt _ => true
  | .fetch | .progress _ => false

def step (s : RingWorld) : RingStep → Option RingWorld
  | .controller a => (Queue.step dma seg (s.queue base) a).map fun q => { s with
      qh := q.qh
      ep.qtds := readSlice base s.ep.qtds.length q.qtds
      completed := if retires a then s.completed ++ [s.currentIndex dma seg base] else s.completed }
  | .peek =>
    let r := s.ep.peek
    match r.2 with
    | .slice offset len => some { s with
        ep := r.1
        peeked := true
        presented := (if s.peeked then s.presented.dropLast else s.presented) ++ [(offset, len)] }
    | .pending => some { s with ep := r.1 }
    | .panicked => none
  | .advance =>
    -- every `advance` follows a `peek` that returned
    if s.peeked then
      let r := s.ep.advance oc
      if r.2 then none
      else some { s with
        ep := r.1
        peeked := false
        released := s.released ++ [s.ep.completedPacketsIndex] }
    else none

def start (r : Qh × WatchedInterruptEndpoint) : RingWorld := ⟨r.1, r.2, false, [], [], []⟩

end RingWorld

/-- The descriptors of the slice are mapped, aligned and inside the window. -/
def MappedSlice.Usable (dma : Dma) (seg : CtrlDsSegment) (m : MappedSlice) : Prop :=
  ∀ i < m.len, (MappedMem.mk (m.physAddr + BitVec.ofNat 64 (Qtd.size * i)) (qtdPtr m.ptr i)).Usable dma seg

instance (dma : Dma) (seg : CtrlDsSegment) (m : MappedSlice) : Decidable (m.Usable dma seg) :=
  inferInstanceAs (Decidable (∀ i < m.len, _))

/-! ## What the client does -/

namespace WatchedInterruptEndpoint

variable {oc : OverflowChecks} (w : WatchedInterruptEndpoint) {q : Qtd}

/-- Offset and length of the `i`-th descriptor's slot of the buffer. -/
def slot (w : WatchedInterruptEndpoint) (i : Nat) : Nat × Nat :=
  (i * w.maxPacketSize.toNat, w.maxPacketSize.toNat)

theorem peek_of_packet (h : w.completedPackets = 1) : w.peek = (w, w.packet) := by
  rw [peek, if_pos (by rw [h]; decide)]

theorem peek_of_retired (h : w.completedPackets = 0) (hq : w.qtds[w.completedPacketsIndex]? = some q)
    (hina : q.qtdToken.active = false) : w.peek = ({ w with completedPackets := 1 }, w.packet) := by
  rw [peek, if_neg (by rw [h]; decide), hq, h]
  simp [hina]

theorem peek_of_active (h : w.completedPackets = 0) (hq : w.qtds[w.completedPacketsIndex]? = some q)
    (hact : q.qtdToken.active = true) : w.peek = (w, .pending) := by
  rw [peek, if_neg (by rw [h]; decide), hq]
  simp [hact]

theorem advance_of_packet (h : w.completedPackets = 1) (hok : (w.advance oc).2 = false) :
    ∃ q q', w.qtds[w.completedPacketsIndex]? = some q ∧ q'.nextQtdPtr = q.nextQtdPtr ∧
      q'.alternateNextQtdPtr = q.alternateNextQtdPtr ∧ q'.qtdToken.active = true ∧
      (w.advance oc).1 = { w with
        qtds := w.qtds.set w.completedPacketsIndex q'
        completedPacketsIndex :=
          if w.completedPacketsIndex + 1 = w.qtds.length then 0 else w.completedPacketsIndex + 1
        completedPackets := 0 } := by
  have hsub : subU oc (1 : BitVec 64) 1 = some 0 := by cases oc <;> rfl
  obtain heq | ⟨q, ptrs, hq, -, heq⟩ := w.advance_cases oc
  · rw [heq] at hok
    cases hok
  · refine ⟨q, w.rearmed q ptrs, hq, rfl, rfl, (armedToken_bits w.maxPacketSize).1, ?_⟩
    rw [heq, h, hsub]
    rfl

end WatchedInterruptEndpoint

/-! ## The invariant -/

/-- Every descriptor links to the next one of the ring, after a full and after a short packet. -/
def RingLinked (dma : Dma) (seg : CtrlDsSegment) (base : Ptr) (l : List Qtd) : Prop :=
  ∀ (i : Nat) (q : Qtd), l[i]? = some q →
    q.nextQtdPtr.target.map (fun a => dma.virt (seg.addr a)) = some (qtdPtr base ((i + 1) % l.length)) ∧
    q.alternateNextQtdPtr.target.map (fun a => dma.virt (seg.addr a)) =
      some (qtdPtr base ((i + 1) % l.length))

/-- Of the lap from turn `a` on, exactly the turns from `k` on are active. -/
def ActiveFrom (l : List Qtd) (a k : Nat) : Prop :=
  ∀ j, a ≤ j → j < a + l.length → ∃ q, l[j % l.length]? = some q ∧ q.qtdToken.active = decide (k ≤ j)

/-- Where the overlay is when the controller's next turn is at the pointer `p`, and the one after it
at `p'`. -/
inductive OverlayPos (dma : Dma) (seg : CtrlDsSegment) (q : Queue) (p p' : Ptr) : Prop where
  | idle (inactive : q.qh.transferToken.active = false)
      (head : q.advanceTarget.map (fun a => dma.virt (seg.addr a)) = some p)
  | busy (active : q.qh.transferToken.active = true) (current : q.current dma seg = p)
      (todo : (q.qtds p).qtdToken.active = true)
      (next : q.qh.nextQtdPointer.target.map (fun a => dma.virt (seg.addr a)) = some p')
      (alt : q.qh.alternateQtdPointer.target.map (fun a => dma.virt (seg.addr a)) = some p')

/-- The controller is at turn `k` and the client at turn `a`. -/
structure RingInv (dma : Dma) (seg : CtrlDsSegment) (base : Ptr) (s : RingWorld) (a k : Nat) : Prop where
  pos : 0 < s.ep.qtds.length
  completed : s.completed = turns s.ep.qtds.length k
  released : s.released = turns s.ep.qtds.length a
  behind : a ≤ k
  lap : k ≤ a + s.ep.qtds.length
  index : s.ep.completedPacketsIndex = a % s.ep.qtds.length
  linked : RingLinked dma seg base s.ep.qtds
  active : ActiveFrom s.ep.qtds a k
  overlay : OverlayPos dma seg (s.queue base) (qtdPtr base (k % s.ep.qtds.length))
    (qtdPtr base ((k + 1) % s.ep.qtds.length))
  packets : s.ep.completedPackets = if s.peeked then 1 else 0
  peeked : s.peeked = true → a < k
  presented : s.presented = (turns s.ep.qtds.length (if s.peeked then a + 1 else a)).map s.ep.slot

section Inv

variable {dma : Dma} {seg : CtrlDsSegment} {base : Ptr} {oc : OverflowChecks} {s s' : RingWorld}
  {a k : Nat}

/-- The shown packets are a prefix of the received ones, and none was overwritten. -/
theorem RingInv.order (h : RingInv dma seg base s a k) :
    s.presented <+: s.completed.map s.ep.slot ∧ s.released <+: s.completed ∧
    ∀ i, s.completed.count i ≤ s.released.count i + 1 := by
  refine ⟨?_, ?_, fun i => ?_⟩
  · rw [h.presented, h.completed]
    refine List.IsPrefix.map _ (turns_mono ?_)
    split
    next hp => exact h.peeked hp
    next => exact h.behind
  · rw [h.completed, h.released]
    exact turns_mono h.behind
  · rw [h.completed, h.released]
    exact count_turns_le h.lap i

/-- The descriptor of the controller's turn, if it is active: the client has released it. -/
theorem RingInv.lt_of_active (h : RingInv dma seg base s a k) {q : Qtd}
    (hq : s.ep.qtds[k % s.ep.qtds.length]? = some q) (hact : q.qtdToken.active = true) :
    k < a + s.ep.qtds.length := by
  refine lt_of_le_of_ne h.lap fun heq => ?_
  obtain ⟨q', hq', ha⟩ := h.active a le_rfl (by have := h.pos; omega)
  have hmod : k % s.ep.qtds.length = a % s.ep.qtds.length := by rw [heq, Nat.add_mod_right]
  rw [hmod, hq'] at hq
  cases hq
  rw [hact] at ha
  have := h.pos
  simp at ha
  omega

theorem RingInv.getElem? (h : RingInv dma seg base s a k) (j : Nat) :
    ∃ q, s.ep.qtds[j % s.ep.qtds.length]? = some q :=
  ⟨_, List.getElem?_eq_getElem (Nat.mod_lt _ h.pos)⟩

theorem RingLinked.set {l : List Qtd} (h : RingLinked dma seg base l) {i : Nat} {q q' : Qtd}
    (hq : l[i]? = some q) (hnext : q'.nextQtdPtr = q.nextQtdPtr)
    (halt : q'.alternateNextQtdPtr = q.alternateNextQtdPtr) : RingLinked dma seg base (l.set i q') := by
  intro j r hr
  rw [List.length_set]
  rw [List.getElem?_set] at hr
  split at hr
  next hij =>
    split at hr
    · cases hr
      rw [← hij, hnext, halt]
      exact h i q hq
    · cases hr
  next => exact h j r hr

theorem getElem?_set_turn {l : List Qtd} {b j : Nat} (q' : Qtd) (hne : j % l.length ≠ b % l.length) :
    (l.set (b % l.length) q')[j % l.length]? = l[j % l.length]? :=
  List.getElem?_set_ne (Ne.symm hne)

theorem getElem?_set_turn_self {l : List Qtd} (hpos : 0 < l.length) (b : Nat) (q' : Qtd) :
    (l.set (b % l.length) q')[b % l.length]? = some q' :=
  List.getElem?_set_self (Nat.mod_lt _ hpos)

theorem ActiveFrom.retire {l : List Qtd} (h : ActiveFrom l a k) (hpos : 0 < l.length) (hak : a ≤ k)
    (hlap : k < a + l.length) {q' : Qtd} (hina : q'.qtdToken.active = false) :
    ActiveFrom (l.set (k % l.length) q') a (k + 1) := by
  intro j haj hj
  rw [List.length_set] at hj ⊢
  rcases Nat.lt_trichotomy j k with hlt | rfl | hlt
  · obtain ⟨q, hq, ha⟩ := h j haj hj
    rw [getElem?_set_turn q' (Ne.symm (mod_ne_of_lt hlt (by omega)))]
    refine ⟨q, hq, ?_⟩
    rw [ha, decide_eq_decide]
    omega
  · refine ⟨q', getElem?_set_turn_self hpos j q', ?_⟩
    rw [hina]
    simp
  · obtain ⟨q, hq, ha⟩ := h j haj hj
    rw [getElem?_set_turn q' (mod_ne_of_lt hlt (by omega))]
    refine ⟨q, hq, ?_⟩
    rw [ha, decide_eq_decide]
    omega

theorem ActiveFrom.release {l : List Qtd} (h : ActiveFrom l a k) (hpos : 0 < l.length)
    (hlap : k ≤ a + l.length) {q' : Qtd} (hact : q'.qtdToken.active = true) :
    ActiveFrom (l.set (a % l.length) q') (a + 1) k := by
  intro j haj hj
  rw [List.length_set] at hj ⊢
  by_cases hlast : j = a + l.length
  · refine ⟨q', ?_, ?_⟩
    · rw [hlast, Nat.add_mod_right]
      exact getElem?_set_turn_self hpos a q'
    · rw [hact, hlast]
      simpa using hlap
  · rw [getElem?_set_turn q' (mod_ne_of_lt haj (by omega))]
    exact h j (by omega) (by omega)

/-- A step of the controller that does not retire a descriptor. -/
theorem RingInv.withQh (h : RingInv dma seg base s a k) {qh : Qh}
    (ho : OverlayPos dma seg ⟨qh, sliceHeap base s.ep.qtds⟩ (qtdPtr base (k % s.ep.qtds.length))
      (qtdPtr base ((k + 1) % s.ep.qtds.length))) :
    RingInv dma seg base { s with
      qh
      ep.qtds := readSlice base s.ep.qtds.length (sliceHeap base s.ep.qtds) } a k := by
  rw [readSlice_sliceHeap]
  exact { h with overlay := ho }

theorem RingInv.fetch (h : RingInv dma seg base s a k)
    (hs : s.step dma seg base oc (.controller .fetch) = some s') : RingInv dma seg base s' a k := by
  obtain ⟨q, hq, rfl⟩ := Option.map_eq_some_iff.mp hs
  obtain ⟨hna, -, addr, haddr, hact, rfl⟩ := Queue.step_fetch hq
  cases h.overlay with
  | busy active => rw [hna] at active; cases active
  | idle _ head =>
    rw [haddr, Option.map_some, Option.some.injEq] at head
    obtain ⟨r, hr⟩ := h.getElem? k
    have hmem : sliceHeap base s.ep.qtds (dma.virt (seg.addr addr)) = r := by
      rw [head]
      exact sliceHeap_of_getElem? base hr
    obtain ⟨hnext, halt⟩ := h.linked _ r hr
    rw [Nat.mod_add_mod] at hnext halt
    refine h.withQh (.busy hact head ?_ ?_ ?_)
    · rw [← head]
      exact hact
    · exact (congrArg (fun t : Qtd => t.nextQtdPtr.target.map fun a => dma.virt (seg.addr a)) hmem).trans
        hnext
    · exact (congrArg (fun t : Qtd => t.alternateNextQtdPtr.target.map fun a => dma.virt (seg.addr a))
        hmem).trans halt

theorem RingInv.progress (h : RingInv dma seg base s a k) {token : TransferToken}
    (hs : s.step dma seg base oc (.controller (.progress token)) = some s') :
    RingInv dma seg base s' a k := by
  obtain ⟨q, hq, rfl⟩ := Option.map_eq_some_iff.mp hs
  obtain ⟨hact, htok, rfl⟩ := Queue.step_progress hq
  cases h.overlay with
  | idle inactive => rw [hact] at inactive; cases inactive
  | busy active current todo next alt => exact h.withQh (.busy htok current todo next alt)

theorem RingInv.retire (h : RingInv dma seg base s a k) {token : TransferToken}
    (hact : (s.queue base).qh.transferToken.active = true) (hina : token.active = false) :
    RingInv dma seg base { s with
      qh := ((s.queue base).retire dma seg token).qh
      ep.qtds := readSlice base s.ep.qtds.length ((s.queue base).retire dma seg token).qtds
      completed := s.completed ++ [s.currentIndex dma seg base] } a (k + 1) := by
  cases h.overlay with
  | idle inactive => rw [hact] at inactive; cases inactive
  | busy active current todo next alt =>
    obtain ⟨r, hr⟩ := h.getElem? k
    have hact' : r.qtdToken.active = true := by
      rw [← sliceHeap_of_getElem? base hr]
      exact todo
    have hlap := h.lt_of_active hr hact'
    have hmem : readSlice base s.ep.qtds.length ((s.queue base).retire dma seg token).qtds =
        s.ep.qtds.set (k % s.ep.qtds.length) { r with qtdToken := token } := by
      rw [Queue.retire, current]
      exact readSlice_modify base hr fun t => { t with qtdToken := token }
    have hidx : s.currentIndex dma seg base = k % s.ep.qtds.length := by
      rw [RingWorld.currentIndex, current, qtdIndex_qtdPtr]
    rw [hmem, hidx]
    refine ⟨?_, ?_, ?_, by have := h.behind; omega, ?_, ?_, ?_, ?_, ?_, h.packets, fun hp => ?_, ?_⟩
    · simpa using h.pos
    · rw [List.length_set, h.completed, turns_succ]
    · rw [List.length_set, h.released]
    · rw [List.length_set]
      exact hlap
    · rw [List.length_set]
      exact h.index
    · exact h.linked.set hr rfl rfl
    · exact h.active.retire h.pos h.behind hlap hina
    · rw [List.length_set]
      refine .idle hina ?_
      -- after a full and after a short packet the controller goes on to the same descriptor
      unfold Queue.advanceTarget
      split
      · rw [Option.map_or]
        exact (congrArg (Option.or · _) alt).trans rfl
      · exact next
    · exact Nat.lt_succ_of_lt (h.peeked hp)
    · rw [List.length_set]
      exact h.presented

theorem RingInv.controller (h : RingInv dma seg base s a k) {l : QueueLabel}
    (hs : s.step dma seg base oc (.controller l) = some s') : ∃ k, RingInv dma seg base s' a k := by
  cases l with
  | fetch => exact ⟨k, h.fetch hs⟩
  | progress token => exact ⟨k, h.progress hs⟩
  | complete token =>
    obtain ⟨q, hq, rfl⟩ := Option.map_eq_some_iff.mp hs
    obtain ⟨hact, hina, -, rfl⟩ := Queue.step_complete hq
    exact ⟨k + 1, h.retire hact hina⟩
  | halt token =>
    obtain ⟨q, hq, rfl⟩ := Option.map_eq_some_iff.mp hs
    obtain ⟨hact, hina, -, rfl⟩ := Queue.step_halt hq
    exact ⟨k + 1, h.retire hact hina⟩

theorem RingInv.peek (h : RingInv dma seg base s a k) (hs : s.step dma seg base oc .peek = some s') :
    RingInv dma seg base s' a k := by
  have hpk := h.packets
  have hpres := h.presented
  simp only [RingWorld.step] at hs
  cases hp : s.peeked with
  | true =>
    -- the packet is still there
    rw [hp, if_pos rfl] at hpk hpres
    rw [s.ep.peek_of_packet hpk, WatchedInterruptEndpoint.packet] at hs
    cases hs
    rw [hp, if_pos rfl]
    refine { h with packets := hpk, peeked := fun _ => h.peeked hp, presented := ?_ }
    rw [if_pos rfl, hpres, turns_succ, List.map_append, List.map_singleton, List.dropLast_concat, h.index]
    rfl
  | false =>
    rw [hp, if_neg (by decide)] at hpk hpres
    obtain ⟨q, hq, hact⟩ := h.active a le_rfl (by have := h.pos; omega)
    rw [← h.index] at hq
    by_cases hlt : a < k
    · rw [s.ep.peek_of_retired hpk hq (by rw [hact]; simpa using hlt),
        WatchedInterruptEndpoint.packet] at hs
      cases hs
      rw [hp, if_neg (by decide)]
      refine { h with packets := rfl, peeked := fun _ => hlt, presented := ?_ }
      rw [if_pos rfl, turns_succ, List.map_append, hpres, h.index]
      rfl
    · rw [s.ep.peek_of_active hpk hq (by rw [hact]; simpa using hlt)] at hs
      cases hs
      exact h

theorem RingInv.advance (h : RingInv dma seg base s a k) (hs : s.step dma seg base oc .advance = some s') :
    RingInv dma seg base s' (a + 1) k := by
  simp only [RingWorld.step] at hs
  obtain ⟨hp, hs⟩ := Option.ite_none_right_eq_some.mp hs
  obtain ⟨hpanic, hs⟩ := Option.ite_none_left_eq_some.mp hs
  cases hs
  have hpk := h.packets
  have hpres := h.presented
  rw [hp, if_pos rfl] at hpk hpres
  obtain ⟨r, r', hr, hnext, halt, hact, hadv⟩ := s.ep.advance_of_packet hpk (Bool.not_eq_true _ ▸ hpanic)
  rw [hadv]
  rw [h.index] at hr ⊢
  refine ⟨?_, ?_, ?_, h.peeked hp, ?_, ?_, ?_, ?_, ?_, rfl, nofun, ?_⟩
  · simpa using h.pos
  · simpa using h.completed
  · simp [turns_succ, h.released]
  · have := h.lap
    simp only [List.length_set]
    omega
  · rw [← succ_mod_of_lt (Nat.mod_lt _ h.pos), Nat.mod_add_mod, List.length_set]
  · exact h.linked.set hr hnext halt
  · exact h.active.release h.pos h.lap hact
  · simp only [List.length_set]
    cases h.overlay with
    | idle inactive head => exact .idle inactive head
    | busy active current todo next alt =>
      -- the descriptor in the overlay is not the one that is released
      obtain ⟨d, hd⟩ := h.getElem? k
      have hdact : d.qtdToken.active = true := by
        rw [← sliceHeap_of_getElem? base hd]
        exact todo
      refine .busy active current ?_ next alt
      have hne := mod_ne_of_lt (h.peeked hp) (h.lt_of_active hd hdact)
      rw [← getElem?_set_turn r' hne] at hd
      exact (congrArg (fun t : Qtd => t.qtdToken.active) (sliceHeap_of_getElem? base hd)).trans hdact
  · rw [List.length_set]
    exact hpres

end Inv

theorem RingInv.step {dma : Dma} {seg : CtrlDsSegment} {base : Ptr} {oc : OverflowChecks}
    {s s' : RingWorld} {l : RingStep} (h : ∃ a k, RingInv dma seg base s a k)
    (hs : s.step dma seg base oc l = some s') : ∃ a k, RingInv dma seg base s' a k := by
  obtain ⟨a, k, h⟩ := h
  cases l with
  | controller l => exact ⟨a, h.controller hs⟩
  | peek => exact ⟨a, k, h.peek hs⟩
  | advance => exact ⟨a + 1, k, h.advance hs⟩

/-! ## The ring `watch` builds -/

section Watch

variable {dma : Dma} {seg : CtrlDsSegment} {oc : OverflowChecks} {ep : InterruptEndpoint}
  {res : WatchInterruptResources} {qh : Qh} {w : WatchedInterruptEndpoint}

theorem armQtd_links {i : Nat} {q : Qtd} (hseg : ep.ctrlDsSegment = seg) (hu : res.qtds.Usable dma seg)
    (hi : i < res.qtds.len) (h : ep.armQtd oc res i = some q) :
    q.nextQtdPtr.target.map (fun a => dma.virt (seg.addr a)) =
      some (qtdPtr res.qtds.ptr ((i + 1) % res.qtds.len)) ∧
    q.alternateNextQtdPtr.target.map (fun a => dma.virt (seg.addr a)) =
      some (qtdPtr res.qtds.ptr ((i + 1) % res.qtds.len)) := by
  have hidx : (if i + 1 < res.qtds.len then i + 1 else 0) = (i + 1) % res.qtds.len := by
    rw [succ_mod_of_lt hi]
    split <;> split <;> omega
  simp only [InterruptEndpoint.armQtd, Option.bind_eq_bind, Option.bind_eq_some_iff,
    Option.some.injEq, hidx] at h
  obtain ⟨ptrs, -, addr, haddr, offset, hoff, rfl⟩ := h
  have hu' := hu ((i + 1) % res.qtds.len) (Nat.mod_lt _ (by omega))
  rw [addU_eq_some haddr, hseg, hu'.offset, Option.some.injEq] at hoff
  subst hoff
  exact ⟨next_newValid hu', alt_newValid hu'⟩

/-- The queue head `watch` leaves: idle, and linked to the first descriptor. -/
theorem watch_qh (hu : res.qtds.Usable dma ep.ctrlDsSegment) (h : ep.watch oc res = some (qh, w)) :
    qh.transferToken = .zero ∧
    qh.nextQtdPointer.target.map (fun a => dma.virt (ep.ctrlDsSegment.addr a)) =
      some (qtdPtr res.qtds.ptr 0) := by
  have hu' := hu 0 (InterruptEndpoint.watch_spec h).1
  rw [Nat.mul_zero, BitVec.add_zero] at hu'
  simp only [InterruptEndpoint.watch, InterruptEndpoint.armWatch, Option.bind_eq_bind,
    Option.bind_eq_some_iff, Option.some.injEq, Prod.mk.injEq] at h
  obtain ⟨⟨qh₀, iv⟩, -, qtds, -, offset, hoff, rfl, rfl⟩ := h
  rw [hu'.offset, Option.some.injEq] at hoff
  subst hoff
  exact ⟨rfl, next_newValid hu'⟩

/-- When `watch` returns, every descriptor is active and the controller's first turn is the first
one's. -/
theorem ringInv_start (hu : res.qtds.Usable dma ep.ctrlDsSegment) (h : ep.watch oc res = some (qh, w)) :
    RingInv dma ep.ctrlDsSegment res.qtds.ptr (.start (qh, w)) 0 0 := by
  obtain ⟨hpos, -, -, hidx, hpk, hlen, harm⟩ := InterruptEndpoint.watch_spec h
  obtain ⟨htok, hnext⟩ := watch_qh hu h
  refine ⟨hlen ▸ hpos, rfl, rfl, le_rfl, Nat.zero_le _, ?_, fun i q hq => ?_, fun j _ hj => ?_, ?_, hpk,
    nofun, rfl⟩
  · rw [Nat.zero_mod]
    exact hidx
  · have hi : i < res.qtds.len := hlen ▸ (List.getElem?_eq_some_iff.mp hq).1
    have := armQtd_links rfl hu hi (harm i q hq)
    rwa [← hlen] at this
  · rw [Nat.zero_add] at hj
    have hget := List.getElem?_eq_getElem hj
    refine ⟨_, by rw [Nat.mod_eq_of_lt hj]; exact hget, ?_⟩
    rw [(InterruptEndpoint.armQtd_spec (harm j _ hget)).1]
    simp
  · refine .idle ?_ ?_
    · exact (congrArg TransferToken.active htok).trans TransferToken.zero_active
    · rw [advanceTarget_of_zero htok, Nat.zero_mod]
      exact hnext

/-- **The order of the ring.** The slices the client is shown are the slots of a prefix of the
descriptors the controller completed, and the controller never completes a descriptor again before
`advance` released it. -/
theorem ringOrder_of_exec (hu : res.qtds.Usable dma ep.ctrlDsSegment)
    (hw : ep.watch oc res = some (qh, w)) {tr : List RingStep} {s : RingWorld}
    (h : exec (RingWorld.step dma ep.ctrlDsSegment res.qtds.ptr oc) (.start (qh, w)) tr = some s) :
    s.presented <+: s.completed.map s.ep.slot ∧ s.released <+: s.completed ∧
    ∀ i, s.completed.count i ≤ s.released.count i + 1 := by
  obtain ⟨a, k, hinv⟩ := exec_invariant
    (I := fun s => ∃ a k, RingInv dma ep.ctrlDsSegment res.qtds.ptr s a k) ⟨0, 0, ringInv_start hu hw⟩
    (fun _ _ _ hm hs => RingInv.step hm hs) h
  exact hinv.order

end Watch

/-- The controller fills a ring of two, the client takes one packet, the controller goes on with the
released descriptor. -/
theorem ringOrder_of_exec_two : ∃ qh w s,
    exampleEndpoint.watch .on (exampleResources 2) = some (qh, w) ∧
    exec (RingWorld.step .identity .lower4G 0x2000 .on) (.start (qh, w))
      [.controller .fetch, .controller (.complete .zero), .controller .fetch,
        .controller (.complete .zero), .peek, .advance, .controller .fetch,
        .controller (.complete .zero), .peek] = some s ∧
    s.completed = [0, 1, 0] ∧ s.presented = [(0, 8), (8, 8)] ∧
    s.presented <+: s.completed.map s.ep.slot ∧ s.released <+: s.completed ∧
    ∀ i, s.completed.count i ≤ s.released.count i + 1 := by
  obtain ⟨s, hs, hp⟩ := (Option.any_eq_true _ _).mp
    (show ((exampleEndpoint.watch .on (exampleResources 2)).bind fun r =>
      exec (RingWorld.step .identity .lower4G 0x2000 .on) (.start r)
        [.controller .fetch, .controller (.complete .zero), .controller .fetch,
          .controller (.complete .zero), .peek, .advance, .controller .fetch,
          .controller (.complete .zero), .peek]).any
        (fun s => decide (s.completed = [0, 1, 0] ∧ s.presented = [(0, 8), (8, 8)])) = true by decide +kernel)
  obtain ⟨⟨qh, w⟩, hw, hs⟩ := Option.bind_eq_some_iff.mp hs
  obtain ⟨hc, hpres⟩ := of_decide_eq_true hp
  exact ⟨qh, w, s, hw, hs, hc, hpres, ringOrder_of_exec
    (show (exampleResources 2).qtds.Usable .identity .lower4G by decide) hw hs⟩

end EzEhci
