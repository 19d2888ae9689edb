import EzEhci.Lib.Linked
import EzEhci.Hw.QueueHead
import EzEhci.Hw.Regs

/-!
# The asynchronous list manager

The ring of queue heads around the anchor and `AsyncListManager`: insertion
behind the anchor, unlinking with a doorbell, and the release of the unlinked
queue heads when the controller answers it. An operation is the list of its
volatile writes (`addWrites`, `removeWrites`), performed in source order; a
completion sender is its identity, and `sent` lists the senders fired so far.
-/

namespace EzEhci

open Lib

structure QhWithMetaA where
  qh : Qh
  prev : Ptr
  next : Ptr
  deriving DecidableEq

abbrev SenderId := Nat

/-- One volatile write to a queue head of the ring. -/
inductive QhWrite where
  | link (p : Ptr) (l : QhHorizontalLinkPtr)
  | prev (p q : Ptr)
  | next (p q : Ptr)
  deriving DecidableEq, Repr

def QhWrite.apply (heap : Heap QhWithMetaA) : QhWrite → Heap QhWithMetaA
  | .link p l => heap.modify p fun q => { q with qh := { q.qh with horizontalLinkPtr := l } }
  | .prev p v => heap.modify p fun q => { q with prev := v }
  | .next p v => heap.modify p fun q => { q with next := v }

def applyWrites (heap : Heap QhWithMetaA) (ws : List QhWrite) : Heap QhWithMetaA :=
  ws.foldl QhWrite.apply heap

structure AsyncListManager where
  anchorQh : MappedMem
  ctrlDsSegment : CtrlDsSegment
  qhsRemovedBeforeDoorbell : List SenderId
  qhsQueuedToRemove : List SenderId
  deriving DecidableEq

def AsyncListManager.new (anchorQh : MappedMem) (seg : CtrlDsSegment) : AsyncListManager :=
  ⟨anchorQh, seg, [], []⟩

/-- The manager with what it acts on: the queue heads in memory, the USBCMD register, how often
the doorbell was rung and the senders that were fired. -/
structure AsyncState where
  heap : Heap QhWithMetaA
  mgr : AsyncListManager
  usbCmd : UsbCmdReg
  rung : Nat
  sent : List SenderId

/-- The anchor the runner writes when the controller starts: halted, linked to itself. -/
def writeAnchor (heap : Heap QhWithMetaA) (anchor : MappedMem) (seg : CtrlDsSegment) :
    Option (Heap QhWithMetaA) := do
  let offset ← getAddrOffset anchor.physAddr seg
  let qh := Qh.new (EndpointCharacteristics.zero.withHeadOfReclamationListFlag true) .zero
  some (heap.modify anchor.ptr fun _ =>
    { qh := { qh with
        horizontalLinkPtr := .new .qh offset
        transferToken := qh.transferToken.withHalted true }
      prev := anchor.ptr
      next := anchor.ptr })

namespace AsyncListManager

/-- The writes of `add_qh_to_async_list`, for the new QH's link address `offset`. -/
def addWrites (heap : Heap QhWithMetaA) (anchor qh : MappedMem) (offset : BitVec 32) : List QhWrite :=
  let nextQh := (heap anchor.ptr).next
  [ .link qh.ptr (heap anchor.ptr).qh.horizontalLinkPtr,
    .prev qh.ptr anchor.ptr,
    .next qh.ptr nextQh,
    .link anchor.ptr (.new .qh offset),
    .prev nextQh qh.ptr,
    .next anchor.ptr qh.ptr ]

def addQhToAsyncList (s : AsyncState) (qh : MappedMem) : Option AsyncState := do
  let offset ← getAddrOffset qh.physAddr s.mgr.ctrlDsSegment
  some { s with heap := applyWrites s.heap (addWrites s.heap s.mgr.anchorQh qh offset) }

/-- The unlinking writes of `queue_remove_qh`. -/
def removeWrites (heap : Heap QhWithMetaA) (qh : MappedMem) : List QhWrite :=
  let prevQh := (heap qh.ptr).prev
  let nextQh := (heap qh.ptr).next
  [ .link prevQh (heap qh.ptr).qh.horizontalLinkPtr,
    .prev nextQh prevQh,
    .next prevQh nextQh ]

def ringDoorbell (s : AsyncState) : AsyncState :=
  { s with usbCmd := s.usbCmd.withAsyncAdvanceDoorbell true, rung := s.rung + 1 }

def queueRemoveQh (s : AsyncState) (qh : MappedMem) (sender : SenderId) : AsyncState :=
  let s := { s with heap := applyWrites s.heap (removeWrites s.heap qh) }
  if s.mgr.qhsRemovedBeforeDoorbell.isEmpty then
    ringDoorbell { s with mgr := { s.mgr with
      qhsRemovedBeforeDoorbell := s.mgr.qhsRemovedBeforeDoorbell ++ [sender] } }
  else
    { s with mgr := { s.mgr with qhsQueuedToRemove := s.mgr.qhsQueuedToRemove ++ [sender] } }

def handleAsyncAdvance (s : AsyncState) : AsyncState :=
  let newQhsBeforeDoorbell := s.mgr.qhsQueuedToRemove
  let removedQhs := s.mgr.qhsRemovedBeforeDoorbell
  let s := { s with
    mgr := { s.mgr with
      qhsQueuedToRemove := []
      qhsRemovedBeforeDoorbell := newQhsBeforeDoorbell }
    sent := s.sent ++ removedQhs }
  if s.mgr.qhsRemovedBeforeDoorbell.isEmpty then s else ringDoorbell s

end AsyncListManager

/-! ## Senders -/

/-- The senders that were fired and those in the two batches. -/
def AsyncState.senders (s : AsyncState) : List SenderId :=
  s.sent ++ (s.mgr.qhsRemovedBeforeDoorbell ++ s.mgr.qhsQueuedToRemove)

section Senders

open AsyncListManager

variable (s : AsyncState) (qh : MappedMem) (x : SenderId)

theorem sent_handleAsyncAdvance :
    (handleAsyncAdvance s).sent = s.sent ++ s.mgr.qhsRemovedBeforeDoorbell := by
  unfold handleAsyncAdvance
  dsimp only
  split <;> rfl

theorem senders_handleAsyncAdvance : (handleAsyncAdvance s).senders = s.senders := by
  unfold handleAsyncAdvance AsyncState.senders
  dsimp only
  split <;> simp [ringDoorbell]

theorem sent_queueRemoveQh : (queueRemoveQh s qh x).sent = s.sent := by
  unfold queueRemoveQh
  dsimp only
  split <;> rfl

theorem heap_queueRemoveQh :
    (queueRemoveQh s qh x).heap = applyWrites s.heap (removeWrites s.heap qh) := by
  unfold queueRemoveQh
  dsimp only
  split <;> rfl

theorem frame_queueRemoveQh :
    (queueRemoveQh s qh x).mgr.anchorQh = s.mgr.anchorQh ∧
      (queueRemoveQh s qh x).mgr.ctrlDsSegment = s.mgr.ctrlDsSegment := by
  unfold queueRemoveQh
  dsimp only
  split <;> exact ⟨rfl, rfl⟩

theorem batches_queueRemoveQh
    (hidle : s.mgr.qhsRemovedBeforeDoorbell = [] → s.mgr.qhsQueuedToRemove = []) :
    (queueRemoveQh s qh x).mgr.qhsRemovedBeforeDoorbell ≠ [] ∧
      (queueRemoveQh s qh x).mgr.qhsRemovedBeforeDoorbell ++
        (queueRemoveQh s qh x).mgr.qhsQueuedToRemove =
      s.mgr.qhsRemovedBeforeDoorbell ++ s.mgr.qhsQueuedToRemove ++ [x] := by
  unfold queueRemoveQh
  dsimp only
  split
  next hb =>
    have hb := List.isEmpty_iff.mp hb
    simp [ringDoorbell, hb, hidle hb]
  next hb =>
    refine ⟨fun e => hb (List.isEmpty_iff.mpr e), ?_⟩
    rw [List.append_assoc]

theorem heap_handleAsyncAdvance : (handleAsyncAdvance s).heap = s.heap := by
  unfold handleAsyncAdvance
  dsimp only
  split <;> rfl

theorem mgr_handleAsyncAdvance :
    (handleAsyncAdvance s).mgr = { s.mgr with
      qhsRemovedBeforeDoorbell := s.mgr.qhsQueuedToRemove
      qhsQueuedToRemove := [] } := by
  unfold handleAsyncAdvance
  dsimp only
  split <;> rfl

theorem mem_senders_queueRemoveQh {y : SenderId} (h : y ∈ (queueRemoveQh s qh x).senders) :
    y ∈ s.senders ∨ y = x := by
  unfold queueRemoveQh AsyncState.senders at h
  unfold AsyncState.senders
  dsimp only at h
  split at h
  · simp only [ringDoorbell, List.mem_append, List.mem_singleton] at h ⊢
    tauto
  · simp only [List.mem_append, List.mem_singleton] at h ⊢
    tauto

end Senders

/-! ## What the writes change -/

section Writes

variable (heap : Heap QhWithMetaA) (p q : Ptr)

@[simp] theorem apply_link_link (l : QhHorizontalLinkPtr) :
    (QhWrite.apply heap (.link p l) q).qh.horizontalLinkPtr =
      if q = p then l else (heap q).qh.horizontalLinkPtr := by
  simp only [QhWrite.apply, Heap.modify_apply]; split <;> rfl

@[simp] theorem apply_link_prev (l : QhHorizontalLinkPtr) :
    (QhWrite.apply heap (.link p l) q).prev = (heap q).prev := by
  simp only [QhWrite.apply, Heap.modify_apply]; split <;> rfl

@[simp] theorem apply_link_next (l : QhHorizontalLinkPtr) :
    (QhWrite.apply heap (.link p l) q).next = (heap q).next := by
  simp only [QhWrite.apply, Heap.modify_apply]; split <;> rfl

@[simp] theorem apply_prev_link (v : Ptr) :
    (QhWrite.apply heap (.prev p v) q).qh.horizontalLinkPtr = (heap q).qh.horizontalLinkPtr := by
  simp only [QhWrite.apply, Heap.modify_apply]; split <;> rfl

@[simp] theorem apply_prev_prev (v : Ptr) :
    (QhWrite.apply heap (.prev p v) q).prev = if q = p then v else (heap q).prev := by
  simp only [QhWrite.apply, Heap.modify_apply]; split <;> rfl

@[simp] theorem apply_prev_next (v : Ptr) :
    (QhWrite.apply heap (.prev p v) q).next = (heap q).next := by
  simp only [QhWrite.apply, Heap.modify_apply]; split <;> rfl

@[simp] theorem apply_next_link (v : Ptr) :
    (QhWrite.apply heap (.next p v) q).qh.horizontalLinkPtr = (heap q).qh.horizontalLinkPtr := by
  simp only [QhWrite.apply, Heap.modify_apply]; split <;> rfl

@[simp] theorem apply_next_prev (v : Ptr) :
    (QhWrite.apply heap (.next p v) q).prev = (heap q).prev := by
  simp only [QhWrite.apply, Heap.modify_apply]; split <;> rfl

@[simp] theorem apply_next_next (v : Ptr) :
    (QhWrite.apply heap (.next p v) q).next = if q = p then v else (heap q).next := by
  simp only [QhWrite.apply, Heap.modify_apply]; split <;> rfl

end Writes

/-! ## The ring -/

/-- The QH the controller reaches from the QH at `p`. -/
def hwNextA (dma : Dma) (seg : CtrlDsSegment) (heap : Heap QhWithMetaA) (p : Ptr) : Option Ptr :=
  (heap p).qh.horizontalLinkPtr.ptr.map fun a => dma.virt (seg.addr a)

/-- The heap holds a ring: the anchor followed by `ring`, closed in all three link structures. -/
structure RingRep (dma : Dma) (seg : CtrlDsSegment) (heap : Heap QhWithMetaA) (anchor : Ptr)
    (ring : List Ptr) : Prop where
  nodup : (anchor :: ring).Nodup
  links : Linked (hwNextA dma seg heap) (anchor :: ring) (some anchor)
  next : Linked (fun p => some (heap p).next) (anchor :: ring) (some anchor)
  prev : BackLinked (fun p => some (heap p).prev) (lastOr none (anchor :: ring)) (anchor :: ring)

/-- Only the horizontal link of the node at `p` decides where the controller goes from it. -/
theorem hwNextA_congr {dma : Dma} {seg : CtrlDsSegment} {heap heap' : Heap QhWithMetaA} {p q : Ptr}
    (h : (heap' p).qh.horizontalLinkPtr = (heap q).qh.horizontalLinkPtr) :
    hwNextA dma seg heap' p = hwNextA dma seg heap q := by
  simp only [hwNextA, h]

theorem hwNextA_of_qhLink {dma : Dma} {seg : CtrlDsSegment} {heap : Heap QhWithMetaA} {p : Ptr}
    {m : MappedMem} (hm : m.Usable dma seg) (h : (heap p).qh.horizontalLinkPtr = qhLink m) :
    hwNextA dma seg heap p = some m.ptr := by
  simp [hwNextA, h, qhLink_ptr hm, hm.resolve]

theorem writeAnchor_ringRep {dma : Dma} {seg : CtrlDsSegment} {heap heap' : Heap QhWithMetaA}
    {anchor : MappedMem} (ha : anchor.Usable dma seg)
    (h : writeAnchor heap anchor seg = some heap') : RingRep dma seg heap' anchor.ptr [] := by
  simp only [writeAnchor, ha.offset, Option.bind_eq_bind, Option.bind_some,
    Option.some.injEq] at h
  subst h
  refine ⟨by simp, ⟨?_, trivial⟩, ⟨by simp, trivial⟩, ⟨by simp [lastOr], trivial⟩⟩
  exact hwNextA_of_qhLink ha (by rw [Heap.modify_self]; rfl)

section Insert

variable {dma : Dma} {seg : CtrlDsSegment} {heap : Heap QhWithMetaA} {anchor qh : MappedMem}

theorem addWrites_link (offset : BitVec 32) (p : Ptr) :
    (applyWrites heap (AsyncListManager.addWrites heap anchor qh offset) p).qh.horizontalLinkPtr =
      if p = anchor.ptr then .new .qh offset
      else if p = qh.ptr then (heap anchor.ptr).qh.horizontalLinkPtr
      else (heap p).qh.horizontalLinkPtr := by
  simp [applyWrites, AsyncListManager.addWrites]

theorem addWrites_next (offset : BitVec 32) (p : Ptr) :
    (applyWrites heap (AsyncListManager.addWrites heap anchor qh offset) p).next =
      if p = anchor.ptr then qh.ptr
      else if p = qh.ptr then (heap anchor.ptr).next else (heap p).next := by
  simp [applyWrites, AsyncListManager.addWrites]

theorem addWrites_prev (offset : BitVec 32) (p : Ptr) :
    (applyWrites heap (AsyncListManager.addWrites heap anchor qh offset) p).prev =
      if p = (heap anchor.ptr).next then qh.ptr
      else if p = qh.ptr then anchor.ptr else (heap p).prev := by
  simp [applyWrites, AsyncListManager.addWrites]

theorem RingRep.add {ring : List Ptr} (h : RingRep dma seg heap anchor.ptr ring)
    (hq : qh.Usable dma seg) (hfresh : qh.ptr ∉ anchor.ptr :: ring) :
    RingRep dma seg
      (applyWrites heap (AsyncListManager.addWrites heap anchor qh (qh.physAddr.setWidth 32)))
      anchor.ptr (qh.ptr :: ring) := by
  obtain ⟨hne, hmem⟩ : qh.ptr ≠ anchor.ptr ∧ qh.ptr ∉ ring := by
    simpa only [List.mem_cons, not_or] using hfresh
  have hnd := List.nodup_cons.mp h.nodup
  have hother : ∀ c ∈ ring, c ≠ anchor.ptr ∧ c ≠ qh.ptr :=
    fun c hc => ⟨fun e => hnd.1 (e ▸ hc), fun e => hmem (e ▸ hc)⟩
  have hnext : some (heap anchor.ptr).next = ring.head?.or (some anchor.ptr) := h.next.1
  refine ⟨?_, ?_, ?_, ?_⟩
  · rw [List.nodup_cons, List.nodup_cons, List.mem_cons, not_or]
    exact ⟨⟨Ne.symm hne, hnd.1⟩, hmem, hnd.2⟩
  · refine linked_insert [] h.links ?_ ?_ fun c hc => ?_
    · exact hwNextA_of_qhLink hq (by rw [addWrites_link, if_pos rfl]; rfl)
    · exact hwNextA_congr (by rw [addWrites_link, if_neg hne, if_pos rfl])
    · obtain ⟨h1, h2⟩ := hother c hc
      exact hwNextA_congr (by rw [addWrites_link, if_neg h1, if_neg h2])
  · refine linked_insert [] h.next ?_ ?_ fun c hc => ?_
    · simp only [addWrites_next, if_true]
    · simp only [addWrites_next, if_neg hne, if_true]
    · obtain ⟨h1, h2⟩ := hother c hc
      simp only [addWrites_next, if_neg h1, if_neg h2]
  · have hqn : qh.ptr ≠ (heap anchor.ptr).next := by
      intro e
      cases ring with
      | nil => exact hne (e.trans (by simpa using hnext))
      | cons c l => exact hmem (by simp at hnext; simp [e, hnext])
    refine backRing_insert h.prev ?_ ?_ ?_ h.nodup
    · simp only [addWrites_prev, if_neg hqn, if_true]
    · intro c hc
      rw [← hnext] at hc
      cases hc
      simp only [addWrites_prev, if_true]
    · intro c hc hcn
      rw [← hnext] at hcn
      have h1 : c ≠ (heap anchor.ptr).next := fun e => hcn (by rw [e])
      have h2 : c ≠ qh.ptr := fun e => hfresh (e ▸ hc)
      simp only [addWrites_prev, if_neg h1, if_neg h2]

/-- Insertion changes no link of a queue head outside of the ring. -/
theorem RingRep.insert_drains {ring pend : List Ptr}
    (hd : Drains (hwNextA dma seg heap) (anchor.ptr :: ring) pend)
    (hapart : ∀ p ∈ pend, p ≠ anchor.ptr ∧ p ≠ qh.ptr) (offset : BitVec 32) :
    Drains (hwNextA dma seg (applyWrites heap (AsyncListManager.addWrites heap anchor qh offset)))
      (anchor.ptr :: qh.ptr :: ring) pend := by
  refine hd.mono (fun p hp => ?_) fun p hp => ?_
  · obtain ⟨h1, h2⟩ := hapart p hp
    exact hwNextA_congr (by rw [addWrites_link, if_neg h1, if_neg h2])
  · simp only [List.mem_cons] at hp ⊢
    tauto

end Insert

section Remove

variable {heap : Heap QhWithMetaA} {qh : MappedMem} (p : Ptr)

theorem removeWrites_link :
    (applyWrites heap (AsyncListManager.removeWrites heap qh) p).qh.horizontalLinkPtr =
      if p = (heap qh.ptr).prev then (heap qh.ptr).qh.horizontalLinkPtr
      else (heap p).qh.horizontalLinkPtr := by
  simp [applyWrites, AsyncListManager.removeWrites]

theorem removeWrites_next :
    (applyWrites heap (AsyncListManager.removeWrites heap qh) p).next =
      if p = (heap qh.ptr).prev then (heap qh.ptr).next else (heap p).next := by
  simp [applyWrites, AsyncListManager.removeWrites]

theorem removeWrites_prev :
    (applyWrites heap (AsyncListManager.removeWrites heap qh) p).prev =
      if p = (heap qh.ptr).next then (heap qh.ptr).prev else (heap p).prev := by
  simp [applyWrites, AsyncListManager.removeWrites]

/-- The neighbours a queue head of the ring names. -/
theorem RingRep.neighbours {dma : Dma} {seg : CtrlDsSegment} {anchor x : Ptr} {l₁ l₂ : List Ptr}
    (h : RingRep dma seg heap anchor (l₁ ++ x :: l₂)) :
    some (heap x).prev = lastOr (some anchor) l₁ ∧
    some (heap x).next = l₂.head?.or (some anchor) := by
  constructor
  · have hp := h.prev
    rw [← List.cons_append, lastOr] at hp
    have := backLinked_mid hp
    rwa [lastOr_cons] at this
  · have hn := h.next
    rw [← List.cons_append] at hn
    have := linked_mid hn
    exact this

theorem RingRep.remove {dma : Dma} {seg : CtrlDsSegment} {anchor : Ptr} {l₁ l₂ : List Ptr}
    (h : RingRep dma seg heap anchor (l₁ ++ qh.ptr :: l₂)) :
    RingRep dma seg (applyWrites heap (AsyncListManager.removeWrites heap qh)) anchor (l₁ ++ l₂) := by
  obtain ⟨m, a, hm⟩ : ∃ m a, anchor :: l₁ = m ++ [a] :=
    ⟨_, _, (List.dropLast_append_getLast (List.cons_ne_nil anchor l₁)).symm⟩
  have hold : anchor :: (l₁ ++ qh.ptr :: l₂) = m ++ a :: qh.ptr :: l₂ := by
    rw [← List.cons_append, hm]; simp
  have hnew : anchor :: (l₁ ++ l₂) = m ++ a :: l₂ := by
    rw [← List.cons_append, hm]; simp
  obtain ⟨hprev, hnext⟩ := h.neighbours
  replace hprev : (heap qh.ptr).prev = a := by
    rw [← lastOr_cons none, hm] at hprev
    simpa [lastOr] using hprev
  obtain ⟨hnd, hlinks, hnexts, hprevs⟩ := h
  rw [hold] at hnd hlinks hnexts hprevs
  have hsub : (m ++ a :: l₂).Sublist (m ++ a :: qh.ptr :: l₂) := by simp
  have hnd' : (m ++ a :: l₂).Nodup := hnd.sublist hsub
  have hrest : ∀ c ∈ m ++ l₂, c ≠ a := by
    have := List.nodup_middle.mp hnd'
    rw [List.nodup_cons] at this
    exact fun c hc e => this.1 (e ▸ hc)
  refine ⟨hnew ▸ hnd', ?_, ?_, ?_⟩ <;> rw [hnew]
  · refine linked_remove hlinks ?_ fun c hc => ?_
    · exact hwNextA_congr (by rw [removeWrites_link, hprev, if_pos rfl])
    · exact hwNextA_congr (by rw [removeWrites_link, hprev, if_neg (hrest c hc)])
  · refine linked_remove hnexts ?_ fun c hc => ?_
    · simp only [removeWrites_next, hprev, if_true]
    · simp only [removeWrites_next, hprev, if_neg (hrest c hc)]
  · refine backRing_remove hprevs (r := anchor) (by rw [← hm]; rfl) ?_ ?_ hnd'
    · intro c hc
      rw [← hnext] at hc
      cases hc
      simp only [removeWrites_prev, hprev, if_true]
    · intro c _ hcn
      rw [← hnext] at hcn
      have h1 : c ≠ (heap qh.ptr).next := fun e => hcn (by rw [e])
      simp only [removeWrites_prev, if_neg h1]

section Unlink

variable {dma : Dma} {seg : CtrlDsSegment} {anchor : Ptr} {l₁ l₂ : List Ptr}
  (h : RingRep dma seg heap anchor (l₁ ++ qh.ptr :: l₂))

include h

/-- Unlinking changes no link of a queue head behind the removed one or outside of the ring. -/
theorem RingRep.unlink_other {p : Ptr} (hp : p ∉ anchor :: l₁) :
    hwNextA dma seg (applyWrites heap (AsyncListManager.removeWrites heap qh)) p =
      hwNextA dma seg heap p := by
  refine hwNextA_congr ?_
  rw [removeWrites_link, if_neg]
  rintro rfl
  rcases lastOr_mem h.neighbours.1.symm with hprev | hprev
  · exact hp (List.mem_cons_of_mem _ hprev)
  · rw [Option.some.injEq] at hprev
    exact hp (hprev ▸ List.mem_cons_self)

theorem RingRep.unlink_drains {pend : List Ptr}
    (hd : Drains (hwNextA dma seg heap) (anchor :: (l₁ ++ qh.ptr :: l₂)) pend)
    (hapart : ∀ p ∈ pend, p ∉ anchor :: (l₁ ++ qh.ptr :: l₂)) :
    Drains (hwNextA dma seg (applyWrites heap (AsyncListManager.removeWrites heap qh)))
      (anchor :: (l₁ ++ l₂)) (pend ++ [qh.ptr]) := by
  have hx : qh.ptr ∉ anchor :: l₁ := by
    intro hx
    have hnd := h.nodup
    rw [← List.cons_append] at hnd
    exact (List.nodup_append.mp hnd).2.2 _ hx _ List.mem_cons_self rfl
  obtain ⟨t, ht, hmem⟩ : ∃ t, hwNextA dma seg heap qh.ptr = some t ∧ t ∈ anchor :: (l₁ ++ l₂) := by
    have hl := h.links
    rw [← List.cons_append] at hl
    rw [linked_mid hl]
    cases l₂ with
    | nil => exact ⟨anchor, rfl, List.mem_cons_self⟩
    | cons c l₂ => exact ⟨c, rfl, by simp⟩
  refine hd.snoc (fun p hp => h.unlink_other fun hp' => hapart p hp ?_) ?_
    ((h.unlink_other hx).trans ht) hmem
  · rw [← List.cons_append]
    exact List.mem_append_left _ hp'
  · intro p hp
    simp only [List.mem_cons, List.mem_append] at hp ⊢
    tauto

end Unlink

end Remove

end EzEhci
