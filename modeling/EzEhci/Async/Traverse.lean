import EzEhci.Lib.Run
import EzEhci.Async.Manager

/-!
# The ring under traversal

The controller follows horizontal links at any moment, also between two
writes of an operation. `AsyncRing` is the list manager with what its callers
did: the queue heads that are linked and those that were removed, each with
its sender. A queue head whose sender was fired belongs to its owner again,
who may write anything to it and add it another time. `during` is the state
after `k` writes of an operation (after `k` senders, for the handler).

The order in which removed queue heads wait is the order in which their
senders fire, so a stale link never leads to a queue head that was released.
-/

namespace EzEhci

open Lib AsyncListManager

structure AsyncRing where
  st : AsyncState
  linked : List Ptr
  removed : List (Ptr × SenderId)

/-- The operations of the manager, and a write by the owner of a queue head. -/
inductive RingOp where
  | add (qh : MappedMem)
  | remove (qh : MappedMem) (sender : SenderId)
  | handle
  | own (p : Ptr) (v : QhWithMetaA)

def QhWrite.target : QhWrite → Ptr
  | .link p _ => p
  | .prev p _ => p
  | .next p _ => p

namespace AsyncRing

abbrev anchor (w : AsyncRing) : Ptr := w.st.mgr.anchorQh.ptr

abbrev seg (w : AsyncRing) : CtrlDsSegment := w.st.mgr.ctrlDsSegment

/-- The QH the controller reaches from the QH at `p`. -/
abbrev hwNext (dma : Dma) (w : AsyncRing) : Ptr → Option Ptr := hwNextA dma w.seg w.st.heap

def start (heap : Heap QhWithMetaA) (anchor : MappedMem) (seg : CtrlDsSegment) (cmd : UsbCmdReg) :
    AsyncRing :=
  ⟨⟨heap, .new anchor seg, cmd, 0, []⟩, [], []⟩

/-- The queue head was removed and its sender has not fired. -/
def Unfired (w : AsyncRing) (p : Ptr) : Prop := ∃ r ∈ w.removed, r.1 = p ∧ r.2 ∉ w.st.sent

instance (w : AsyncRing) (p : Ptr) : Decidable (w.Unfired p) :=
  inferInstanceAs (Decidable (∃ r ∈ w.removed, _))

/-- The queue heads the controller may be on. -/
def Live (w : AsyncRing) (p : Ptr) : Prop := p = w.anchor ∨ p ∈ w.linked ∨ w.Unfired p

instance (w : AsyncRing) (p : Ptr) : Decidable (w.Live p) := inferInstanceAs (Decidable (_ ∨ _))

/-- One operation. A queue head is added when it is not in the controller's reach, removed while it
is linked, with a sender of its own. -/
def step (dma : Dma) (w : AsyncRing) : RingOp → Option AsyncRing
  | .add qh =>
    if qh.Usable dma w.seg ∧ ¬ w.Live qh.ptr then
      (addQhToAsyncList w.st qh).map fun st => { w with st, linked := qh.ptr :: w.linked }
    else none
  | .remove qh sender =>
    if qh.ptr ∈ w.linked ∧ sender ∉ w.removed.map Prod.snd then
      some { w with
        st := queueRemoveQh w.st qh sender
        linked := w.linked.erase qh.ptr
        removed := w.removed ++ [(qh.ptr, sender)] }
    else none
  | .handle => some { w with st := handleAsyncAdvance w.st }
  | .own p v =>
    if w.Live p then none
    else some { w with st := { w.st with heap := w.st.heap.modify p fun _ => v } }

/-- The writes of an operation to queue heads. -/
def writes (w : AsyncRing) : RingOp → List QhWrite
  | .add qh =>
    match getAddrOffset qh.physAddr w.seg with
    | some offset => addWrites w.st.heap w.st.mgr.anchorQh qh offset
    | none => []
  | .remove qh _ => removeWrites w.st.heap qh
  | .handle => []
  | .own _ _ => []

/-- The state after `k` writes of an operation, or after `k` senders were fired. -/
def during (w : AsyncRing) (op : RingOp) (k : Nat) : AsyncRing :=
  match op with
  | .handle =>
    { w with st := { w.st with sent := w.st.sent ++ w.st.mgr.qhsRemovedBeforeDoorbell.take k } }
  | op => { w with st := { w.st with heap := applyWrites w.st.heap ((w.writes op).take k) } }

/-- After `k` writes of the operation the queue head is in use, or it is the new one and no write
to it is outstanding. -/
def Initialised (w : AsyncRing) (op : RingOp) (k : Nat) (p : Ptr) : Prop :=
  (w.during op k).Live p ∨
    ∃ qh, op = .add qh ∧ p = qh.ptr ∧ p ∉ ((w.writes op).drop k).map QhWrite.target

/-- From `p` the controller comes back to the anchor and visits queue heads that satisfy `ok` only. -/
def Returns (dma : Dma) (w : AsyncRing) (ok : Ptr → Prop) (p : Ptr) : Prop :=
  Relation.TransGen (fun p q => w.hwNext dma p = some q ∧ ok q) p w.anchor

end AsyncRing

/-- The ring after an operation: the horizontal links and `next` describe the cycle of the anchor
and the linked queue heads, `prev` is the inverse of `next`. -/
structure RingSound (dma : Dma) (w : AsyncRing) : Prop where
  nodup : (w.anchor :: w.linked).Nodup
  links : Linked (w.hwNext dma) (w.anchor :: w.linked) (some w.anchor)
  next : ∀ p ∈ w.anchor :: w.linked, w.hwNext dma p = some (w.st.heap p).next
  prev_next : ∀ p ∈ w.anchor :: w.linked, (w.st.heap (w.st.heap p).next).prev = p
  next_prev : ∀ p ∈ w.anchor :: w.linked, (w.st.heap (w.st.heap p).prev).next = p
  returns : ∀ p, w.Live p → w.Returns dma w.Live p

/-! ## The invariant -/

/-- `rel` was released and `pend` waits, in the order of the two batches. -/
structure AsyncRingInv (dma : Dma) (w : AsyncRing) (rel pend : List (Ptr × SenderId)) : Prop where
  rep : RingRep dma w.seg w.st.heap w.anchor w.linked
  split : w.removed = rel ++ pend
  senders : (w.removed.map Prod.snd).Nodup
  sent : w.st.sent = rel.map Prod.snd
  batches : w.st.mgr.qhsRemovedBeforeDoorbell ++ w.st.mgr.qhsQueuedToRemove = pend.map Prod.snd
  idle : w.st.mgr.qhsRemovedBeforeDoorbell = [] → w.st.mgr.qhsQueuedToRemove = []
  apart : ∀ p ∈ pend.map Prod.fst, p ∉ w.anchor :: w.linked
  drains : Drains (w.hwNext dma) (w.anchor :: w.linked) (pend.map Prod.fst)

theorem RingRep.next_eq {dma : Dma} {seg : CtrlDsSegment} {heap : Heap QhWithMetaA} {anchor p : Ptr}
    {ring : List Ptr} (h : RingRep dma seg heap anchor ring) (hp : p ∈ anchor :: ring) :
    hwNextA dma seg heap p = some (heap p).next := by
  obtain ⟨l₁, l₂, hl⟩ := List.append_of_mem hp
  have h1 := h.links
  have h2 := h.next
  rw [hl] at h1 h2
  rw [linked_mid h1, ← linked_mid h2]

theorem RingRep.next_mem {dma : Dma} {seg : CtrlDsSegment} {heap : Heap QhWithMetaA} {anchor p : Ptr}
    {ring : List Ptr} (h : RingRep dma seg heap anchor ring) (hp : p ∈ anchor :: ring) :
    (heap p).next ∈ anchor :: ring := by
  obtain ⟨c, hc, hn⟩ := h.next.exists_next hp
  cases hn
  exact hc

theorem RingRep.prev_mem {dma : Dma} {seg : CtrlDsSegment} {heap : Heap QhWithMetaA} {anchor p : Ptr}
    {ring : List Ptr} (h : RingRep dma seg heap anchor ring) (hp : p ∈ anchor :: ring) :
    (heap p).prev ∈ anchor :: ring := by
  obtain ⟨l₁, l₂, hl⟩ := List.append_of_mem hp
  have hprev := h.prev
  rw [hl] at hprev
  have hmid := (backLinked_mid hprev).symm
  rw [hl]
  rcases lastOr_mem hmid with hm | hm
  · exact List.mem_append_left _ hm
  · exact (lastOr_mem hm).resolve_right (by simp)

theorem RingRep.inverse {dma : Dma} {seg : CtrlDsSegment} {heap : Heap QhWithMetaA} {anchor p : Ptr}
    {ring : List Ptr} (h : RingRep dma seg heap anchor ring) (hp : p ∈ anchor :: ring) :
    (heap (heap p).next).prev = p ∧ (heap (heap p).prev).next = p := by
  constructor
  · have := (ring_linked_iff h.next h.prev hp (h.next_mem hp)).mp rfl
    exact Option.some.inj this
  · have := (ring_linked_iff h.next h.prev (h.prev_mem hp) hp).mpr rfl
    exact Option.some.inj this

namespace AsyncRingInv

variable {dma : Dma} {w w' : AsyncRing} {rel pend : List (Ptr × SenderId)}

/-- The removed queue heads whose sender has not fired are those that wait, whichever part of them
was released in the meantime. -/
theorem unfired_iff {sent : List SenderId} {pre rest : List (Ptr × SenderId)}
    (h : AsyncRingInv dma w rel pend) (hpend : pend = pre ++ rest)
    (hsent : sent = w.st.sent ++ pre.map Prod.snd) {p : Ptr} :
    (∃ r ∈ w.removed, r.1 = p ∧ r.2 ∉ sent) ↔ p ∈ rest.map Prod.fst := by
  have hall : w.removed = (rel ++ pre) ++ rest := by rw [h.split, hpend, List.append_assoc]
  have hs : sent = (rel ++ pre).map Prod.snd := by rw [hsent, h.sent, List.map_append]
  have hnd := h.senders
  rw [hall, List.map_append] at hnd
  constructor
  · rintro ⟨r, hr, rfl, hr'⟩
    rw [hall] at hr
    rcases List.mem_append.mp hr with hr | hr
    · exact absurd (hs ▸ List.mem_map_of_mem hr) hr'
    · exact List.mem_map_of_mem hr
  · intro hp
    obtain ⟨r, hr, rfl⟩ := List.mem_map.mp hp
    refine ⟨r, by rw [hall]; exact List.mem_append_right _ hr, rfl, fun hr' => ?_⟩
    rw [hs] at hr'
    exact (List.nodup_append.mp hnd).2.2 r.2 hr' r.2 (List.mem_map_of_mem hr) rfl

theorem live_iff (h : AsyncRingInv dma w rel pend) {p : Ptr} :
    w.Live p ↔ p ∈ w.anchor :: w.linked ∨ p ∈ pend.map Prod.fst := by
  have hu : w.Unfired p ↔ p ∈ pend.map Prod.fst :=
    h.unfired_iff (List.nil_append pend).symm (by rw [List.map_nil, List.append_nil])
  rw [AsyncRing.Live, hu, List.mem_cons, or_assoc]

/-- **The invariant describes the ring.** -/
theorem sound (h : AsyncRingInv dma w rel pend) : RingSound dma w where
  nodup := h.rep.nodup
  links := h.rep.links
  next _ hp := h.rep.next_eq hp
  prev_next _ hp := (h.rep.inverse hp).1
  next_prev _ hp := (h.rep.inverse hp).2
  returns _ hp := h.drains.reaches h.rep.links (fun _ => h.live_iff.mpr) (h.live_iff.mp hp)

/-! ## The operations -/

section Add

variable {qh : MappedMem} (h : AsyncRingInv dma w rel pend) (hnew : ¬ w.Live qh.ptr)

include h hnew

theorem fresh : qh.ptr ∉ w.anchor :: w.linked ∧ qh.ptr ∉ pend.map Prod.fst := by
  rwa [h.live_iff, not_or] at hnew

theorem pend_ne {p : Ptr} (hp : p ∈ pend.map Prod.fst) : p ≠ w.anchor ∧ p ≠ qh.ptr := by
  refine ⟨?_, ?_⟩
  · rintro rfl
    exact h.apart _ hp List.mem_cons_self
  · rintro rfl
    exact (h.fresh hnew).2 hp

end Add

theorem add {qh : MappedMem} (h : AsyncRingInv dma w rel pend) (hs : w.step dma (.add qh) = some w') :
    AsyncRingInv dma w' rel pend := by
  simp only [AsyncRing.step] at hs
  split at hs
  case isFalse => cases hs
  rename_i hg
  obtain ⟨hq, hnew⟩ := hg
  have hoff : getAddrOffset qh.physAddr w.st.mgr.ctrlDsSegment = some (qh.physAddr.setWidth 32) :=
    hq.offset
  simp only [addQhToAsyncList, hoff, Option.bind_eq_bind, Option.bind_some, Option.map_some,
    Option.some.injEq] at hs
  subst hs
  refine { h with
    rep := h.rep.add hq (h.fresh hnew).1
    apart := fun p hp => ?_
    drains := RingRep.insert_drains h.drains (fun p hp => h.pend_ne hnew hp) _ }
  have h1 := h.apart p hp
  have h2 := (h.pend_ne hnew hp).2
  simp only [List.mem_cons, not_or] at h1 ⊢
  exact ⟨h1.1, h2, h1.2⟩

section Remove

variable {qh : MappedMem} {sender : SenderId}

theorem unlinked (h : AsyncRingInv dma w rel pend) (hmem : qh.ptr ∈ w.linked) :
    let heap := applyWrites w.st.heap (removeWrites w.st.heap qh)
    RingRep dma w.seg heap w.anchor (w.linked.erase qh.ptr) ∧
      Drains (hwNextA dma w.seg heap) (w.anchor :: w.linked.erase qh.ptr)
        (pend.map Prod.fst ++ [qh.ptr]) := by
  intro heap
  obtain ⟨hrep, -, -, -, -, -, hapart, hdrains⟩ := h
  obtain ⟨l₁, l₂, hl⟩ := List.append_of_mem hmem
  have hx : qh.ptr ∉ l₁ := by
    have hnd := (List.nodup_cons.mp hrep.nodup).2
    rw [hl] at hnd
    exact fun hx => (List.nodup_append.mp hnd).2.2 _ hx _ List.mem_cons_self rfl
  have herase : w.linked.erase qh.ptr = l₁ ++ l₂ := by
    rw [hl, List.erase_append_right _ hx, List.erase_cons_head]
  rw [herase]
  rw [hl] at hrep hdrains hapart
  exact ⟨hrep.remove, hrep.unlink_drains hdrains hapart⟩

theorem remove (h : AsyncRingInv dma w rel pend) (hs : w.step dma (.remove qh sender) = some w') :
    AsyncRingInv dma w' rel (pend ++ [(qh.ptr, sender)]) := by
  simp only [AsyncRing.step] at hs
  split at hs
  case isFalse => cases hs
  rename_i hg
  obtain ⟨hmem, hsender⟩ := hg
  cases hs
  have hnd := (List.nodup_cons.mp h.rep.nodup).2
  obtain ⟨hrep, hdrains⟩ := h.unlinked hmem
  obtain ⟨hanchor, hseg⟩ := frame_queueRemoveQh w.st qh sender
  obtain ⟨hne, hbatches⟩ := batches_queueRemoveQh w.st qh sender h.idle
  refine ⟨?_, ?_, ?_, ?_, ?_, fun e => absurd e hne, ?_, ?_⟩
  · simp only [AsyncRing.seg, AsyncRing.anchor, heap_queueRemoveQh, hanchor, hseg]
    exact hrep
  · simp [h.split]
  · rw [List.map_append, List.nodup_append]
    refine ⟨h.senders, List.nodup_singleton _, ?_⟩
    rintro a ha b hb rfl
    rw [List.map_singleton, List.mem_singleton] at hb
    subst hb
    exact hsender ha
  · exact (sent_queueRemoveQh w.st qh sender).trans h.sent
  · rw [hbatches, h.batches, List.map_append, List.map_singleton]
  · intro p hp
    simp only [AsyncRing.anchor, hanchor]
    rw [List.map_append, List.mem_append] at hp
    rcases hp with hp | hp
    · have := h.apart p hp
      simp only [List.mem_cons, not_or] at this ⊢
      exact ⟨this.1, fun hp' => this.2 (List.mem_of_mem_erase hp')⟩
    · rw [List.map_singleton, List.mem_singleton] at hp
      subst hp
      simp only [List.mem_cons, not_or]
      refine ⟨?_, hnd.not_mem_erase⟩
      intro e
      rw [e] at hmem
      exact (List.nodup_cons.mp h.rep.nodup).1 hmem
  · simp only [AsyncRing.hwNext, AsyncRing.seg, AsyncRing.anchor, heap_queueRemoveQh, hanchor, hseg,
      List.map_append, List.map_singleton]
    exact hdrains

end Remove

theorem batch_split (h : AsyncRingInv dma w rel pend) :
    ∃ pre rest, pend = pre ++ rest ∧ pre.map Prod.snd = w.st.mgr.qhsRemovedBeforeDoorbell ∧
      rest.map Prod.snd = w.st.mgr.qhsQueuedToRemove := by
  obtain ⟨pre, rest, hp, h1, h2⟩ := List.map_eq_append_iff.mp h.batches.symm
  exact ⟨pre, rest, hp, h1, h2⟩

theorem handle (h : AsyncRingInv dma w rel pend) (hs : w.step dma .handle = some w') :
    ∃ rel' pend', AsyncRingInv dma w' rel' pend' := by
  cases hs
  obtain ⟨pre, rest, rfl, hpre, hrest⟩ := h.batch_split
  have hdrains := h.drains
  rw [List.map_append] at hdrains
  refine ⟨rel ++ pre, rest, ?_, ?_, h.senders, ?_, ?_, ?_, ?_, ?_⟩
  · simp only [AsyncRing.seg, AsyncRing.anchor, heap_handleAsyncAdvance, mgr_handleAsyncAdvance]
    exact h.rep
  · rw [h.split, List.append_assoc]
  · simp only [sent_handleAsyncAdvance]
    rw [h.sent, ← hpre, List.map_append]
  · simp only [mgr_handleAsyncAdvance, List.append_nil, hrest]
  · intro _
    simp only [mgr_handleAsyncAdvance]
  · intro p hp
    simp only [AsyncRing.anchor, mgr_handleAsyncAdvance]
    refine h.apart p ?_
    rw [List.map_append]
    exact List.mem_append_right _ hp
  · simp only [AsyncRing.hwNext, AsyncRing.seg, AsyncRing.anchor, heap_handleAsyncAdvance,
      mgr_handleAsyncAdvance]
    exact hdrains.append_right

theorem own {p : Ptr} {v : QhWithMetaA} (h : AsyncRingInv dma w rel pend)
    (hs : w.step dma (.own p v) = some w') : AsyncRingInv dma w' rel pend := by
  simp only [AsyncRing.step] at hs
  split at hs
  case isTrue => cases hs
  rename_i hp
  cases hs
  rw [h.live_iff, not_or] at hp
  have hother : ∀ q ∈ w.anchor :: w.linked, (w.st.heap.modify p fun _ => v) q = w.st.heap q :=
    fun q hq => Heap.modify_of_ne _ _ fun e => hp.1 (e ▸ hq)
  have hlink : ∀ q, q ≠ p → hwNextA dma w.seg (w.st.heap.modify p fun _ => v) q =
      hwNextA dma w.seg w.st.heap q :=
    fun q hq => hwNextA_congr (by rw [Heap.modify_of_ne _ _ hq])
  refine { h with
    rep := ⟨h.rep.nodup, ?_, ?_, ?_⟩
    drains := h.drains.mono (fun q hq => hlink q fun e => hp.2 (e ▸ hq)) fun _ hq => hq }
  · exact linked_congr (fun q hq => hlink q fun e => hp.1 (e ▸ hq)) h.rep.links
  · exact linked_congr (fun q hq => congrArg (some ·.next) (hother q hq)) h.rep.next
  · exact backLinked_congr (fun q hq => congrArg (some ·.prev) (hother q hq)) h.rep.prev

theorem step {op : RingOp} (h : AsyncRingInv dma w rel pend) (hs : w.step dma op = some w') :
    ∃ rel' pend', AsyncRingInv dma w' rel' pend' := by
  cases op with
  | add qh => exact ⟨rel, pend, h.add hs⟩
  | remove qh sender => exact ⟨rel, _, h.remove hs⟩
  | handle => exact h.handle hs
  | own p v => exact ⟨rel, pend, h.own hs⟩

/-! ## Between two writes -/

section Writes

variable {heap : Heap QhWithMetaA} {anchor qh : MappedMem}

theorem addWrites_take_link (offset : BitVec 32) (k : Nat) (p : Ptr) :
    (applyWrites heap ((addWrites heap anchor qh offset).take k) p).qh.horizontalLinkPtr =
      if p = anchor.ptr ∧ 4 ≤ k then .new .qh offset
      else if p = qh.ptr ∧ 1 ≤ k then (heap anchor.ptr).qh.horizontalLinkPtr
      else (heap p).qh.horizontalLinkPtr := by
  rcases k with _ | _ | _ | _ | k
  all_goals simp [addWrites, applyWrites]
  rcases k with _ | _ | k
  all_goals simp

/-- The horizontal links after `k` writes of `queue_remove_qh`: its first write is the only one. -/
theorem removeWrites_take_link (k : Nat) (p : Ptr) :
    (applyWrites heap ((removeWrites heap qh).take (k + 1)) p).qh.horizontalLinkPtr =
      (applyWrites heap (removeWrites heap qh) p).qh.horizontalLinkPtr := by
  rcases k with _ | _ | k
  all_goals simp [removeWrites, applyWrites]

/-- The new queue head is written first. -/
theorem mem_target_addWrites (offset : BitVec 32) {k : Nat} (hk : k < 3) :
    qh.ptr ∈ ((addWrites heap anchor qh offset).drop k).map QhWrite.target := by
  rcases k with _ | _ | _ | k
  case succ.succ.succ => omega
  all_goals simp [addWrites, QhWrite.target]

theorem not_mem_target_addWrites (offset : BitVec 32) {k : Nat} (hk : 3 ≤ k) (h1 : qh.ptr ≠ anchor.ptr)
    (h2 : qh.ptr ≠ (heap anchor.ptr).next) :
    qh.ptr ∉ ((addWrites heap anchor qh offset).drop k).map QhWrite.target := by
  have hdrop : (addWrites heap anchor qh offset).drop k =
      ((addWrites heap anchor qh offset).drop 3).drop (k - 3) := by
    rw [List.drop_drop, Nat.add_sub_cancel' hk]
  rw [hdrop]
  intro hm
  obtain ⟨wr, hwr, ht⟩ := List.mem_map.mp hm
  have := List.mem_of_mem_drop hwr
  simp only [addWrites, List.drop_succ_cons, List.drop_zero, List.mem_cons, List.not_mem_nil,
    or_false] at this
  rcases this with rfl | rfl | rfl
  · exact h1 ht.symm
  · exact h2 ht.symm
  · exact h1 ht.symm

end Writes

section DuringAdd

variable {qh : MappedMem} (h : AsyncRingInv dma w rel pend) (hq : qh.Usable dma w.seg)
  (hnew : ¬ w.Live qh.ptr)

include hq

omit h in
theorem writes_add :
    w.writes (.add qh) = addWrites w.st.heap w.st.mgr.anchorQh qh (qh.physAddr.setWidth 32) := by
  have hoff : getAddrOffset qh.physAddr w.seg = some (qh.physAddr.setWidth 32) := hq.offset
  simp only [AsyncRing.writes, hoff]

omit h in
theorem during_add_link (k : Nat) (p : Ptr) :
    ((w.during (.add qh) k).st.heap p).qh.horizontalLinkPtr =
      if p = w.anchor ∧ 4 ≤ k then qhLink qh
      else if p = qh.ptr ∧ 1 ≤ k then (w.st.heap w.anchor).qh.horizontalLinkPtr
      else (w.st.heap p).qh.horizontalLinkPtr := by
  simp only [AsyncRing.during, writes_add hq]
  exact addWrites_take_link _ k p

include h hnew

theorem initialised_add {k : Nat} {p : Ptr} :
    w.Initialised (.add qh) k p ↔ w.Live p ∨ p = qh.ptr ∧ 3 ≤ k := by
  obtain ⟨hring, -⟩ := h.fresh hnew
  have hlive : (w.during (.add qh) k).Live p ↔ w.Live p := Iff.rfl
  rw [AsyncRing.Initialised, hlive, writes_add hq]
  refine or_congr_right ⟨?_, ?_⟩
  · rintro ⟨m, ⟨⟩, rfl, hm⟩
    exact ⟨rfl, Nat.le_of_not_lt fun hk => hm (mem_target_addWrites _ hk)⟩
  · rintro ⟨rfl, hk⟩
    refine ⟨qh, rfl, rfl, not_mem_target_addWrites _ hk (fun e => hring ?_) fun e => hring ?_⟩
    · simp [e]
    · rw [e]
      exact h.rep.next_mem List.mem_cons_self

/-- Before the anchor is written the controller only sees the old ring. -/
theorem during_add_before {k : Nat} (hk : k < 4) {p : Ptr} (hp : w.Initialised (.add qh) k p) :
    (w.during (.add qh) k).Returns dma (w.Initialised (.add qh) k) p := by
  obtain ⟨hring, hpend⟩ := h.fresh hnew
  have hnxt : ∀ q, q ≠ qh.ptr → (w.during (.add qh) k).hwNext dma q = w.hwNext dma q := by
    intro q hne
    refine hwNextA_congr ?_
    rw [during_add_link hq, if_neg (by omega), if_neg (fun e => hne e.1)]
  have hlinks : Linked ((w.during (.add qh) k).hwNext dma) (w.anchor :: w.linked) (some w.anchor) :=
    linked_congr (fun q hq' => hnxt q fun e => hring (e ▸ hq')) h.rep.links
  have hdrains : Drains ((w.during (.add qh) k).hwNext dma) (w.anchor :: w.linked)
      (pend.map Prod.fst) :=
    h.drains.mono (fun q hq' => hnxt q fun e => hpend (e ▸ hq')) fun _ hq' => hq'
  rw [h.initialised_add hq hnew] at hp
  by_cases h3 : 3 ≤ k
  · -- the new queue head already has the anchor's link
    obtain ⟨t, ht, hnext⟩ := h.rep.links.exists_next List.mem_cons_self
    have hqh : (w.during (.add qh) k).hwNext dma qh.ptr = some t := by
      refine (hwNextA_congr ?_).trans hnext
      rw [during_add_link hq, if_neg (by omega), if_pos ⟨rfl, by omega⟩]
    have hall : Drains ((w.during (.add qh) k).hwNext dma) (w.anchor :: w.linked)
        (qh.ptr :: pend.map Prod.fst) := ⟨⟨t, hqh, .inl ht⟩, hdrains⟩
    refine hall.reaches hlinks (fun q hq' => ?_) ?_
    · rw [h.initialised_add hq hnew, h.live_iff]
      rcases hq' with hq' | hq'
      · exact .inl (.inl hq')
      · exact (List.mem_cons.mp hq').elim (fun e => .inr ⟨e, h3⟩) fun hq' => .inl (.inr hq')
    · rw [h.live_iff] at hp
      rcases hp with (hp | hp) | hp
      · exact .inl hp
      · exact .inr (List.mem_cons_of_mem _ hp)
      · exact .inr (List.mem_cons.mpr (.inl hp.1))
  · refine hdrains.reaches hlinks (fun q hq' => ?_) (h.live_iff.mp (hp.resolve_right fun e => h3 e.2))
    rw [h.initialised_add hq hnew]
    exact .inl (h.live_iff.mpr hq')

/-- Once the anchor is written the controller sees the new ring. -/
theorem during_add_after {k : Nat} (hk : 4 ≤ k) {p : Ptr} (hp : w.Initialised (.add qh) k p) :
    (w.during (.add qh) k).Returns dma (w.Initialised (.add qh) k) p := by
  have hnxt : ∀ q, (w.during (.add qh) k).hwNext dma q =
      hwNextA dma w.seg (applyWrites w.st.heap
        (addWrites w.st.heap w.st.mgr.anchorQh qh (qh.physAddr.setWidth 32))) q := by
    intro q
    refine hwNextA_congr ?_
    rw [during_add_link hq, addWrites_link]
    simp only [hk, and_true, Nat.one_le_of_lt hk]
    rfl
  have hmem : ∀ q, q ∈ w.anchor :: qh.ptr :: w.linked ∨ q ∈ pend.map Prod.fst ↔
      w.Initialised (.add qh) k q := by
    intro q
    rw [h.initialised_add hq hnew, h.live_iff]
    simp only [List.mem_cons, Nat.le_of_succ_le hk, and_true]
    tauto
  have hlinks : Linked ((w.during (.add qh) k).hwNext dma) (w.anchor :: qh.ptr :: w.linked)
      (some w.anchor) :=
    linked_congr (fun q _ => hnxt q) (h.rep.add hq (h.fresh hnew).1).links
  have hdrains : Drains ((w.during (.add qh) k).hwNext dma) (w.anchor :: qh.ptr :: w.linked)
      (pend.map Prod.fst) :=
    (RingRep.insert_drains h.drains (fun q hq' => h.pend_ne hnew hq') _).mono (fun q _ => hnxt q)
      fun _ hq' => hq'
  exact hdrains.reaches hlinks (fun q => (hmem q).mp) ((hmem p).mpr hp)

end DuringAdd

theorem during_remove {qh : MappedMem} {sender : SenderId} (h : AsyncRingInv dma w rel pend)
    (hmem : qh.ptr ∈ w.linked) (k : Nat) {p : Ptr} (hp : w.Live p) :
    (w.during (.remove qh sender) k).Returns dma w.Live p := by
  cases k with
  | zero => exact h.sound.returns p hp
  | succ k =>
    obtain ⟨hrep, hdrains⟩ := h.unlinked hmem
    have hnxt : ∀ q, (w.during (.remove qh sender) (k + 1)).hwNext dma q =
        hwNextA dma w.seg (applyWrites w.st.heap (removeWrites w.st.heap qh)) q :=
      fun q => hwNextA_congr (removeWrites_take_link k q)
    have hall : ∀ q, q ∈ w.anchor :: w.linked.erase qh.ptr ∨ q ∈ pend.map Prod.fst ++ [qh.ptr] ↔
        w.Live q := by
      intro q
      have hperm := (List.perm_cons_erase hmem).mem_iff (a := q)
      rw [h.live_iff]
      simp only [List.mem_cons, List.mem_append, List.not_mem_nil, or_false] at hperm ⊢
      rw [hperm]
      tauto
    refine (hdrains.mono (fun q _ => hnxt q) fun _ hq => hq).reaches
      (linked_congr (fun q _ => hnxt q) hrep.links) (fun q => (hall q).mp) ((hall p).mpr hp)

/-- While the senders of a batch fire, no stale link leads to a queue head released already. -/
theorem during_handle (h : AsyncRingInv dma w rel pend) (k : Nat) {p : Ptr}
    (hp : (w.during .handle k).Live p) :
    (w.during .handle k).Returns dma (w.during .handle k).Live p := by
  obtain ⟨pre, rest, rfl, hpre, -⟩ := h.batch_split
  have hsplit : pre ++ rest = pre.take k ++ (pre.drop k ++ rest) := by
    rw [← List.append_assoc, List.take_append_drop]
  have hsent : (w.during .handle k).st.sent = w.st.sent ++ (pre.take k).map Prod.snd := by
    rw [List.map_take, hpre]
    rfl
  have hlive : ∀ q, q ∈ w.anchor :: w.linked ∨ q ∈ (pre.drop k ++ rest).map Prod.fst ↔
      (w.during .handle k).Live q := by
    intro q
    rw [← h.unfired_iff hsplit hsent, List.mem_cons, or_assoc]
    rfl
  have hdrains := h.drains
  rw [hsplit, List.map_append] at hdrains
  exact hdrains.append_right.reaches h.rep.links (fun q => (hlive q).mp) ((hlive p).mpr hp)

/-- **Between two writes.** After every write of an operation and after every sender it fires, the
controller comes back to the anchor, through initialised queue heads only. -/
theorem during {op : RingOp} (h : AsyncRingInv dma w rel pend) (hs : w.step dma op = some w') (k : Nat)
    {p : Ptr} (hp : w.Initialised op k p) : (w.during op k).Returns dma (w.Initialised op k) p := by
  -- but for an insertion, the initialised queue heads are the live ones
  have hlive (hop : ∀ qh, op ≠ .add qh) : w.Initialised op k = (w.during op k).Live := by
    funext q
    rw [AsyncRing.Initialised, eq_iff_iff, or_iff_left]
    rintro ⟨qh, e, -⟩
    exact hop qh e
  cases op with
  | add qh =>
    simp only [AsyncRing.step] at hs
    split at hs
    case isFalse => cases hs
    rename_i hg
    by_cases hk : k < 4
    · exact h.during_add_before hg.1 hg.2 hk hp
    · exact h.during_add_after hg.1 hg.2 (Nat.le_of_not_lt hk) hp
  | remove qh sender =>
    simp only [AsyncRing.step] at hs
    split at hs
    case isFalse => cases hs
    rename_i hg
    rw [hlive (by simp)] at hp ⊢
    exact h.during_remove hg.1 k hp
  | handle =>
    rw [hlive (by simp)] at hp ⊢
    exact h.during_handle k hp
  | own q v =>
    have hsame : w.during (.own q v) k = w := by simp [AsyncRing.during, AsyncRing.writes, applyWrites]
    rw [hlive (by simp), hsame] at hp ⊢
    exact h.sound.returns p hp

theorem start {heap heap' : Heap QhWithMetaA} {anchor : MappedMem} {seg : CtrlDsSegment}
    {cmd : UsbCmdReg} (ha : anchor.Usable dma seg) (hw : writeAnchor heap anchor seg = some heap') :
    AsyncRingInv dma (.start heap' anchor seg cmd) [] [] where
  rep := writeAnchor_ringRep ha hw
  split := rfl
  senders := List.nodup_nil
  sent := rfl
  batches := rfl
  idle _ := rfl
  apart := by simp
  drains := trivial

end AsyncRingInv

/-- **The ring of the asynchronous schedule.** After every sequence of operations the links describe
one cycle of the anchor and the linked queue heads, and after every single write of the next
operation the controller comes back to the anchor without visiting a queue head that is not fully
initialised. -/
theorem ringSound_of_exec {dma : Dma} {heap heap' : Heap QhWithMetaA} {anchor : MappedMem}
    {seg : CtrlDsSegment} {cmd : UsbCmdReg} {ops : List RingOp} {w : AsyncRing}
    (ha : anchor.Usable dma seg) (hw : writeAnchor heap anchor seg = some heap')
    (h : exec (AsyncRing.step dma) (.start heap' anchor seg cmd) ops = some w) :
    RingSound dma w ∧ ∀ op w', w.step dma op = some w' → ∀ k p, w.Initialised op k p →
      (w.during op k).Returns dma (w.Initialised op k) p := by
  obtain ⟨rel, pend, hr⟩ := exec_invariant (I := fun w => ∃ rel pend, AsyncRingInv dma w rel pend)
    ⟨_, _, AsyncRingInv.start ha hw⟩ (fun _ _ _ ⟨_, _, hr⟩ hs => hr.step hs) h
  exact ⟨hr.sound, fun op w' hs k p hp => hr.during hs k hp⟩

/-- Two queue heads are removed back to back; the first is added again after its sender fired,
while the second still waits. -/
theorem ringSound_of_exec_readd :
    let blank : QhWithMetaA := ⟨Qh.new .zero .zero, 0, 0⟩
    let ops : List RingOp := [.add ⟨0x1000, 0x1000⟩, .add ⟨0x2000, 0x2000⟩,
      .remove ⟨0x2000, 0x2000⟩ 7, .remove ⟨0x1000, 0x1000⟩ 8, .handle, .own 0x2000 blank,
      .add ⟨0x2000, 0x2000⟩]
    ∃ heap w, writeAnchor (fun _ => blank) ⟨0x800, 0x800⟩ .lower4G = some heap ∧
      exec (AsyncRing.step .identity) (.start heap ⟨0x800, 0x800⟩ .lower4G ⟨0⟩) ops = some w ∧
      w.linked = [0x2000] ∧ w.Unfired 0x1000 ∧ RingSound .identity w := by
  intro blank ops
  have h : ((writeAnchor (fun _ => blank) ⟨0x800, 0x800⟩ .lower4G).bind fun heap =>
      (exec (AsyncRing.step .identity) (.start heap ⟨0x800, 0x800⟩ .lower4G ⟨0⟩) ops).map
        fun w => (w.linked, decide (w.Unfired 0x1000))) = some ([0x2000], true) := by decide +kernel
  obtain ⟨heap, hheap, h⟩ := Option.bind_eq_some_iff.mp h
  obtain ⟨w, hw, hf⟩ := Option.map_eq_some_iff.mp h
  obtain ⟨hlinked, hunfired⟩ := Prod.mk.inj hf
  exact ⟨heap, w, hheap, hw, hlinked, of_decide_eq_true hunfired,
    (ringSound_of_exec (by decide) hheap hw).1⟩

end EzEhci
