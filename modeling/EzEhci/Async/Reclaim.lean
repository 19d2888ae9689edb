import EzEhci.Lib.Run
import EzEhci.Async.Manager

/-!
# Deferred reclamation of queue heads

`AsyncWorld` puts the list manager next to the controller: its cursor in the
ring, the async-advance events it raised and those the driver has not handled
yet. Doorbells are numbered in the order they are rung, and an event carries
the number of the doorbell it answers. `removed` and `fired` record the
unlinked queue heads and the senders that were fired, each with the doorbell
count at that moment. The controller is only assumed to follow horizontal
links and to answer a doorbell when it is not on a queue head that was
unlinked before that doorbell was rung.

The invariant `Reclaiming` splits the removed queue heads into the released
ones and the two pending batches. Queue heads of the batches keep the links
they had, which lead into the ring or to a queue head that was removed later.
-/

namespace EzEhci

open Lib AsyncListManager

/-- A queue head that was unlinked, with its sender and the doorbells rung before. -/
structure Removal where
  qh : Ptr
  sender : SenderId
  rungBefore : Nat
  deriving DecidableEq, Repr

/-- The manager, the controller and what happened so far. -/
structure AsyncWorld where
  st : AsyncState
  cursor : Ptr
  unhandled : List Nat
  events : List Nat
  added : List Ptr
  removed : List Removal
  fired : List (SenderId × Nat)

/-- The steps of the driver and of the controller. -/
inductive AsyncLabel where
  | add (qh : MappedMem)
  | remove (qh : MappedMem) (sender : SenderId)
  | handle
  | move
  | raise
  deriving DecidableEq, Repr

namespace AsyncWorld

abbrev anchor (w : AsyncWorld) : Ptr := w.st.mgr.anchorQh.ptr

abbrev seg (w : AsyncWorld) : CtrlDsSegment := w.st.mgr.ctrlDsSegment

/-- The manager before its first operation, the controller at the anchor. -/
def start (heap : Heap QhWithMetaA) (anchor : MappedMem) (seg : CtrlDsSegment) (cmd : UsbCmdReg) :
    AsyncWorld where
  st := ⟨heap, .new anchor seg, cmd, 0, []⟩
  cursor := anchor.ptr
  unhandled := []
  events := []
  added := []
  removed := []
  fired := []

/-- The record of a removal that happens now. -/
def removal (w : AsyncWorld) (qh : MappedMem) (sender : SenderId) : Removal :=
  ⟨qh.ptr, sender, w.st.rung⟩

/-- One step. A queue head is added once, removed while it is linked, with a sender of its own;
`handle` runs for the oldest event not handled yet. -/
def step (dma : Dma) (w : AsyncWorld) : AsyncLabel → Option AsyncWorld
  | .add qh =>
    if qh.Usable dma w.seg ∧ qh.ptr ≠ w.anchor ∧ qh.ptr ∉ w.added then
      (addQhToAsyncList w.st qh).map fun st => { w with st, added := qh.ptr :: w.added }
    else none
  | .remove qh sender =>
    if qh.ptr ∈ w.added ∧ qh.ptr ∉ w.removed.map Removal.qh ∧
        sender ∉ w.removed.map Removal.sender then
      some { w with
        st := queueRemoveQh w.st qh sender
        removed := w.removed ++ [w.removal qh sender] }
    else none
  | .handle =>
    match w.unhandled with
    | [] => none
    | k :: rest =>
      let st := handleAsyncAdvance w.st
      some { w with
        st
        unhandled := rest
        fired := w.fired ++ (st.sent.drop w.st.sent.length).map (·, k) }
  | .move => (hwNextA dma w.seg w.st.heap w.cursor).map fun p => { w with cursor := p }
  | .raise =>
    if w.st.usbCmd.asyncAdvanceDoorbell ∧
        ∀ r ∈ w.removed, r.rungBefore < w.st.rung → r.qh ≠ w.cursor then
      some { w with
        st := { w.st with usbCmd := w.st.usbCmd.withAsyncAdvanceDoorbell false }
        unhandled := w.unhandled ++ [w.st.rung]
        events := w.events ++ [w.st.rung] }
    else none

/-- A doorbell was rung and its event is not handled yet. -/
def Outstanding (w : AsyncWorld) : Prop :=
  w.st.usbCmd.asyncAdvanceDoorbell = true ∨ w.unhandled ≠ []

/-- The queue head was removed and its sender fired. -/
def Released (w : AsyncWorld) (p : Ptr) : Prop :=
  ∃ r ∈ w.removed, r.qh = p ∧ r.sender ∈ w.st.sent

end AsyncWorld

/-- What the removal protocol guarantees in every state. -/
structure SafeReclamation (dma : Dma) (w : AsyncWorld) : Prop where
  /-- A sender is fired once, or is in one of the two batches. -/
  once : ∀ r ∈ w.removed, (w.st.sent ++ w.st.mgr.qhsRemovedBeforeDoorbell ++
    w.st.mgr.qhsQueuedToRemove).count r.sender = 1
  /-- A sender was fired by an event that answers a doorbell rung after the unlinking. -/
  answered : ∀ r ∈ w.removed, r.sender ∈ w.st.sent →
    ∃ k ∈ w.events, (r.sender, k) ∈ w.fired ∧ r.rungBefore < k
  /-- Nothing else is fired. -/
  fired : w.fired.map Prod.fst = w.st.sent
  outstanding : w.Outstanding ↔ w.st.mgr.qhsRemovedBeforeDoorbell ≠ []
  cursor : ¬ w.Released w.cursor
  links : ∀ p, p = w.anchor ∨ p ∈ w.added → ¬ w.Released p →
    ∀ q, hwNextA dma w.seg w.st.heap p = some q → ¬ w.Released q

/-! ## The invariant -/

/-- `ring` is linked, `rel` was released, `bef` waits for the doorbell and `que` for the one
after it. -/
structure Reclaiming (dma : Dma) (w : AsyncWorld) (ring : List Ptr) (rel bef que : List Removal) :
    Prop where
  rep : RingRep dma w.seg w.st.heap w.anchor ring
  added : ∀ p, p ∈ w.added ↔ p ∈ ring ∨ p ∈ w.removed.map Removal.qh
  split : w.removed = rel ++ (bef ++ que)
  apart : (w.anchor :: ring ++ w.removed.map Removal.qh).Nodup
  senders : (w.removed.map Removal.sender).Nodup
  before : w.st.mgr.qhsRemovedBeforeDoorbell = bef.map Removal.sender
  queued : w.st.mgr.qhsQueuedToRemove = que.map Removal.sender
  sent : w.st.sent = rel.map Removal.sender
  fired : w.fired.map Prod.fst = w.st.sent
  answered : ∀ r ∈ rel, ∃ k ∈ w.events, (r.sender, k) ∈ w.fired ∧ r.rungBefore < k
  idle : bef = [] → que = [] ∧ w.unhandled = []
  doorbell : w.st.usbCmd.asyncAdvanceDoorbell = true ↔ bef ≠ [] ∧ w.unhandled = []
  event : w.unhandled = [] ∨ w.unhandled = [w.st.rung] ∧ w.st.rung ∈ w.events
  rung_le : ∀ r ∈ w.removed, r.rungBefore ≤ w.st.rung
  rung_lt : ∀ r ∈ bef, r.rungBefore < w.st.rung
  drains : Drains (hwNextA dma w.seg w.st.heap) (w.anchor :: ring) ((bef ++ que).map Removal.qh)
  cursor : w.cursor ∈ w.anchor :: ring ∨ w.cursor ∈ (bef ++ que).map Removal.qh
  cursor_event : w.unhandled ≠ [] → w.cursor ∈ w.anchor :: ring ∨ w.cursor ∈ que.map Removal.qh

namespace Reclaiming

variable {dma : Dma} {w w' : AsyncWorld} {ring : List Ptr} {rel bef que : List Removal}

theorem senders_eq (h : Reclaiming dma w ring rel bef que) :
    w.st.sent ++ w.st.mgr.qhsRemovedBeforeDoorbell ++ w.st.mgr.qhsQueuedToRemove =
      w.removed.map Removal.sender := by
  rw [h.sent, h.before, h.queued, h.split, List.map_append, List.map_append, List.append_assoc]

theorem mem_rel (h : Reclaiming dma w ring rel bef que) {r : Removal} (hr : r ∈ w.removed)
    (hs : r.sender ∈ w.st.sent) : r ∈ rel := by
  rw [h.sent] at hs
  obtain ⟨r', hr', hs'⟩ := List.mem_map.mp hs
  have hmem : r' ∈ w.removed := by rw [h.split]; exact List.mem_append_left _ hr'
  rwa [List.inj_on_of_nodup_map h.senders hmem hr hs'] at hr'

theorem released_iff (h : Reclaiming dma w ring rel bef que) {p : Ptr} :
    w.Released p ↔ p ∈ rel.map Removal.qh := by
  constructor
  · rintro ⟨r, hr, rfl, hs⟩
    exact List.mem_map_of_mem (h.mem_rel hr hs)
  · intro hp
    obtain ⟨r, hr, rfl⟩ := List.mem_map.mp hp
    refine ⟨r, ?_, rfl, ?_⟩
    · rw [h.split]; exact List.mem_append_left _ hr
    · rw [h.sent]; exact List.mem_map_of_mem hr

theorem batch_apart (h : Reclaiming dma w ring rel bef que) {p : Ptr}
    (hp : p ∈ (bef ++ que).map Removal.qh) : p ∉ w.anchor :: ring := by
  intro hring
  refine (List.nodup_append.mp h.apart).2.2 p hring p ?_ rfl
  rw [h.split, List.map_append]
  exact List.mem_append_right _ hp

theorem not_released (h : Reclaiming dma w ring rel bef que) {p : Ptr}
    (hp : p ∈ w.anchor :: ring ∨ p ∈ (bef ++ que).map Removal.qh) : ¬ w.Released p := by
  rw [h.released_iff]
  intro hrel
  obtain ⟨-, h2, h3⟩ := List.nodup_append.mp h.apart
  rcases hp with hp | hp
  · refine h3 p hp p ?_ rfl
    rw [h.split, List.map_append]
    exact List.mem_append_left _ hrel
  · rw [h.split, List.map_append] at h2
    exact (List.nodup_append.mp h2).2.2 p hrel p hp rfl

/-- From the ring and the end of the batches, links lead back there. -/
theorem link_mem (h : Reclaiming dma w ring rel bef que) {l : List Ptr}
    (hl : Drains (hwNextA dma w.seg w.st.heap) (w.anchor :: ring) l) {p q : Ptr}
    (hp : p ∈ w.anchor :: ring ∨ p ∈ l) (hq : hwNextA dma w.seg w.st.heap p = some q) :
    q ∈ w.anchor :: ring ∨ q ∈ l := by
  rcases hp with hp | hp
  · rcases linked_mem h.rep.links hp hq with hq | hq
    · exact .inl hq
    · cases hq
      exact .inl List.mem_cons_self
  · exact hl.mem hp hq

theorem drains_queued (h : Reclaiming dma w ring rel bef que) :
    Drains (hwNextA dma w.seg w.st.heap) (w.anchor :: ring) (que.map Removal.qh) := by
  have := h.drains
  rw [List.map_append] at this
  exact this.append_right

/-- **The invariant implies the guarantee.** -/
theorem safe (h : Reclaiming dma w ring rel bef que) : SafeReclamation dma w where
  once r hr := by
    rw [h.senders_eq]
    exact List.count_eq_one_of_mem h.senders (List.mem_map_of_mem hr)
  answered r hr hs := h.answered r (h.mem_rel hr hs)
  fired := h.fired
  outstanding := by
    rw [h.before, ne_eq, List.map_eq_nil_iff, AsyncWorld.Outstanding, h.doorbell]
    constructor
    · rintro (⟨hb, -⟩ | hu) hbef
      · exact hb hbef
      · exact hu (h.idle hbef).2
    · intro hbef
      by_cases hu : w.unhandled = []
      · exact .inl ⟨hbef, hu⟩
      · exact .inr hu
  cursor := h.not_released h.cursor
  links p hp hrel q hq := by
    refine h.not_released (h.link_mem h.drains ?_ hq)
    rcases hp with rfl | hp
    · exact .inl List.mem_cons_self
    · rcases (h.added p).mp hp with hp | hp
      · exact .inl (List.mem_cons_of_mem _ hp)
      · rw [h.split, List.map_append] at hp
        rcases List.mem_append.mp hp with hp | hp
        · exact absurd (h.released_iff.mpr hp) hrel
        · exact .inr hp

/-! ## The steps -/

theorem add (h : Reclaiming dma w ring rel bef que) {qh : MappedMem}
    (hs : w.step dma (.add qh) = some w') : Reclaiming dma w' (qh.ptr :: ring) rel bef que := by
  simp only [AsyncWorld.step] at hs
  split at hs
  case isFalse => cases hs
  rename_i hg
  obtain ⟨husable, hanchor, hnew⟩ := hg
  have hoff : getAddrOffset qh.physAddr w.st.mgr.ctrlDsSegment = some (qh.physAddr.setWidth 32) :=
    husable.offset
  simp only [addQhToAsyncList, hoff, Option.bind_eq_bind, Option.bind_some, Option.map_some,
    Option.some.injEq] at hs
  subst hs
  rw [h.added, not_or] at hnew
  have hsub : ∀ p ∈ w.anchor :: ring, p ∈ w.anchor :: qh.ptr :: ring :=
    fun p hp => List.mem_cons.mpr ((List.mem_cons.mp hp).imp_right (List.mem_cons_of_mem _))
  refine { h with
    rep := h.rep.add husable ?_
    added := fun p => ?_
    apart := ?_
    drains := RingRep.insert_drains h.drains (fun a ha => ⟨?_, ?_⟩) _
    cursor := h.cursor.imp_left (hsub w.cursor)
    cursor_event := fun hu => (h.cursor_event hu).imp_left (hsub w.cursor) }
  · simp [hnew.1, hanchor]
  · simp [h.added, or_assoc]
  · refine (List.Perm.swap _ _ _).nodup (List.nodup_cons.mpr ⟨?_, h.apart⟩)
    have hrest := List.mem_append.not.mpr (not_or.mpr hnew)
    exact List.mem_cons.not.mpr (not_or.mpr ⟨hanchor, hrest⟩)
  · exact fun e => h.batch_apart ha (by simp [e])
  · rintro rfl
    refine hnew.2 ?_
    rw [h.split, List.map_append]
    exact List.mem_append_right _ ha

section Remove

variable {qh : MappedMem} {l₁ l₂ : List Ptr}

theorem unlink_apart (h : Reclaiming dma w (l₁ ++ qh.ptr :: l₂) rel bef que) (sender : SenderId) :
    ((w.anchor :: (l₁ ++ l₂)) ++
      (w.removed ++ [w.removal qh sender]).map Removal.qh).Nodup := by
  refine List.Perm.nodup ?_ h.apart
  rw [List.perm_iff_count]
  intro c
  simp only [List.count_append, List.count_cons, List.map_append, List.map_cons, List.map_nil,
    List.count_nil, AsyncWorld.removal]
  omega

theorem unlink_added (h : Reclaiming dma w (l₁ ++ qh.ptr :: l₂) rel bef que) (sender : SenderId)
    (p : Ptr) :
    p ∈ w.added ↔ p ∈ l₁ ++ l₂ ∨ p ∈ (w.removed ++ [w.removal qh sender]).map Removal.qh := by
  rw [h.added]
  simp only [List.mem_append, List.mem_cons, List.map_append, List.map_cons, List.map_nil,
    List.not_mem_nil, or_false, AsyncWorld.removal]
  tauto

theorem unlink_senders (h : Reclaiming dma w ring rel bef que) {sender : SenderId}
    (hs : sender ∉ w.removed.map Removal.sender) :
    ((w.removed ++ [w.removal qh sender]).map Removal.sender).Nodup := by
  rw [List.map_append, List.nodup_append]
  refine ⟨h.senders, List.nodup_singleton _, ?_⟩
  rintro a ha b hb rfl
  rw [List.map_singleton, List.mem_singleton] at hb
  subst hb
  exact hs ha

theorem unlink_rung_le (h : Reclaiming dma w ring rel bef que) (sender : SenderId) :
    ∀ r ∈ w.removed ++ [w.removal qh sender], r.rungBefore ≤ w.st.rung := by
  intro r hr
  rcases List.mem_append.mp hr with hr | hr
  · exact h.rung_le r hr
  · rw [List.mem_singleton.mp hr]
    exact Nat.le_refl _

theorem remove_idle (h : Reclaiming dma w (l₁ ++ qh.ptr :: l₂) rel [] que) {sender : SenderId}
    (hs : sender ∉ w.removed.map Removal.sender) :
    Reclaiming dma { w with
      st := queueRemoveQh w.st qh sender
      removed := w.removed ++ [w.removal qh sender] } (l₁ ++ l₂) rel [w.removal qh sender] [] := by
  obtain ⟨rfl, hu⟩ := h.idle rfl
  have hst : queueRemoveQh w.st qh sender = ringDoorbell { w.st with
      heap := applyWrites w.st.heap (removeWrites w.st.heap qh)
      mgr := { w.st.mgr with qhsRemovedBeforeDoorbell := [sender] } } := by
    simp [queueRemoveQh, h.before]
  rw [hst]
  refine { h with
    rep := h.rep.remove
    added := h.unlink_added sender
    split := by rw [h.split]; simp
    apart := h.unlink_apart sender
    senders := h.unlink_senders hs
    before := rfl
    idle := fun e => absurd e (List.cons_ne_nil _ _)
    doorbell := by simp [ringDoorbell, hu]
    event := .inl hu
    rung_le := fun r hr => Nat.le_succ_of_le (h.unlink_rung_le sender r hr)
    rung_lt := by simp [ringDoorbell, AsyncWorld.removal]
    drains := h.rep.unlink_drains h.drains fun p hp => h.batch_apart hp
    cursor := ?_
    cursor_event := fun hu' => absurd hu hu' }
  have := h.cursor
  simp only [List.mem_cons, List.mem_append, List.append_nil, List.map_nil, List.not_mem_nil,
    or_false, List.map_cons, AsyncWorld.removal] at this ⊢
  tauto

/-- A queue head leaves the ring while a doorbell is outstanding: it waits for the next one. -/
theorem remove_pending (h : Reclaiming dma w (l₁ ++ qh.ptr :: l₂) rel bef que) {sender : SenderId}
    (hs : sender ∉ w.removed.map Removal.sender) (hb : bef ≠ []) :
    Reclaiming dma { w with
      st := queueRemoveQh w.st qh sender
      removed := w.removed ++ [w.removal qh sender] }
      (l₁ ++ l₂) rel bef (que ++ [w.removal qh sender]) := by
  have hst : queueRemoveQh w.st qh sender = { w.st with
      heap := applyWrites w.st.heap (removeWrites w.st.heap qh)
      mgr := { w.st.mgr with qhsQueuedToRemove := w.st.mgr.qhsQueuedToRemove ++ [sender] } } := by
    simp [queueRemoveQh, h.before, hb]
  rw [hst]
  have hmap : (bef ++ (que ++ [w.removal qh sender])).map Removal.qh =
      (bef ++ que).map Removal.qh ++ [qh.ptr] := by simp [AsyncWorld.removal]
  refine { h with
    rep := h.rep.remove
    added := h.unlink_added sender
    split := by rw [h.split]; simp
    apart := h.unlink_apart sender
    senders := h.unlink_senders hs
    queued := by simp [h.queued, AsyncWorld.removal]
    idle := fun hb' => absurd hb' hb
    rung_le := h.unlink_rung_le sender
    drains := hmap ▸ h.rep.unlink_drains h.drains fun p hp => h.batch_apart hp
    cursor := ?_
    cursor_event := fun hu => ?_ }
  · have := h.cursor
    rw [hmap]
    simp only [List.mem_cons, List.mem_append, List.not_mem_nil, or_false] at this ⊢
    tauto
  · have := h.cursor_event hu
    simp only [List.mem_cons, List.mem_append, List.map_append, List.map_cons, List.map_nil,
      List.not_mem_nil, or_false, AsyncWorld.removal] at this ⊢
    tauto

theorem remove (h : Reclaiming dma w ring rel bef que) {sender : SenderId}
    (hs : w.step dma (.remove qh sender) = some w') :
    ∃ ring' bef' que', Reclaiming dma w' ring' rel bef' que' := by
  simp only [AsyncWorld.step] at hs
  split at hs
  case isFalse => cases hs
  rename_i hg
  obtain ⟨hadded, hlinked, hsender⟩ := hg
  cases hs
  obtain ⟨l₁, l₂, rfl⟩ := List.append_of_mem (((h.added _).mp hadded).resolve_right hlinked)
  by_cases hb : bef = []
  · subst hb
    exact ⟨_, _, _, h.remove_idle hsender⟩
  · exact ⟨_, _, _, h.remove_pending hsender hb⟩

end Remove

theorem handle_answered (h : Reclaiming dma w ring rel bef que) (hev : w.st.rung ∈ w.events) :
    ∀ r ∈ rel ++ bef, ∃ k ∈ w.events, (r.sender, k) ∈ w.fired ++
      (bef.map Removal.sender).map (·, w.st.rung) ∧ r.rungBefore < k := by
  intro r hr
  rcases List.mem_append.mp hr with hr | hr
  · obtain ⟨k, hk, hf, hlt⟩ := h.answered r hr
    exact ⟨k, hk, List.mem_append_left _ hf, hlt⟩
  · refine ⟨w.st.rung, hev, List.mem_append_right _ ?_, h.rung_lt r hr⟩
    exact List.mem_map_of_mem (List.mem_map_of_mem hr)

theorem handle_fired (h : Reclaiming dma w ring rel bef que) :
    (w.fired ++ (bef.map Removal.sender).map (·, w.st.rung)).map Prod.fst =
      w.st.sent ++ bef.map Removal.sender := by
  rw [List.map_append, h.fired, List.map_map]
  congr 1
  exact List.map_id _

theorem handle_split (h : Reclaiming dma w ring rel bef que) :
    w.removed = (rel ++ bef) ++ (que ++ []) := by
  rw [h.split, List.append_nil, List.append_assoc]

theorem handle_sent (h : Reclaiming dma w ring rel bef que) :
    w.st.sent ++ bef.map Removal.sender = (rel ++ bef).map Removal.sender := by
  rw [h.sent, List.map_append]

theorem handle_idle (h : Reclaiming dma w ring rel bef []) (hu : w.unhandled ≠ []) :
    Reclaiming dma { w with
      st := handleAsyncAdvance w.st
      unhandled := []
      fired := w.fired ++ (bef.map Removal.sender).map (·, w.st.rung) } ring (rel ++ bef) [] [] := by
  have hst : handleAsyncAdvance w.st = { w.st with
      mgr := { w.st.mgr with qhsQueuedToRemove := [], qhsRemovedBeforeDoorbell := [] }
      sent := w.st.sent ++ bef.map Removal.sender } := by
    simp [handleAsyncAdvance, h.before, h.queued]
  have hbit : w.st.usbCmd.asyncAdvanceDoorbell = false := by
    rw [Bool.eq_false_iff, ne_eq, h.doorbell]
    exact fun hd => hu hd.2
  rw [hst]
  exact { h with
    split := h.handle_split
    before := rfl
    queued := rfl
    sent := h.handle_sent
    fired := h.handle_fired
    answered := h.handle_answered (h.event.resolve_left hu).2
    idle := fun _ => ⟨rfl, rfl⟩
    doorbell := by simp [hbit]
    event := .inl rfl
    rung_lt := by simp
    drains := h.drains_queued
    cursor := h.cursor_event hu
    cursor_event := fun hu' => absurd rfl hu' }

/-- The queued batch takes its place, with a doorbell of its own. -/
theorem handle_pending (h : Reclaiming dma w ring rel bef que) (hu : w.unhandled ≠ [])
    (hq : que ≠ []) :
    Reclaiming dma { w with
      st := handleAsyncAdvance w.st
      unhandled := []
      fired := w.fired ++ (bef.map Removal.sender).map (·, w.st.rung) } ring (rel ++ bef) que [] := by
  have hst : handleAsyncAdvance w.st = ringDoorbell { w.st with
      mgr := { w.st.mgr with
        qhsQueuedToRemove := [], qhsRemovedBeforeDoorbell := que.map Removal.sender }
      sent := w.st.sent ++ bef.map Removal.sender } := by
    simp [handleAsyncAdvance, h.before, h.queued, hq]
  rw [hst]
  exact { h with
    split := h.handle_split
    before := rfl
    queued := rfl
    sent := h.handle_sent
    fired := h.handle_fired
    answered := h.handle_answered (h.event.resolve_left hu).2
    idle := fun hq' => absurd hq' hq
    doorbell := by simp [ringDoorbell, hq]
    event := .inl rfl
    rung_le := fun r hr => Nat.le_succ_of_le (h.rung_le r hr)
    rung_lt := fun r hr => Nat.lt_succ_of_le (h.rung_le r (by rw [h.split]; simp [hr]))
    drains := by rw [List.append_nil]; exact h.drains_queued
    cursor := by rw [List.append_nil]; exact h.cursor_event hu
    cursor_event := fun hu' => absurd rfl hu' }

theorem handle (h : Reclaiming dma w ring rel bef que) (hs : w.step dma .handle = some w') :
    Reclaiming dma w' ring (rel ++ bef) que [] := by
  simp only [AsyncWorld.step] at hs
  split at hs
  · cases hs
  rename_i k rest hu
  cases hs
  have hne : w.unhandled ≠ [] := by rw [hu]; exact List.cons_ne_nil _ _
  -- the event is that of the last doorbell
  have hev := (h.event.resolve_left hne).1
  rw [hu, List.cons.injEq] at hev
  obtain ⟨rfl, rfl⟩ := hev
  rw [sent_handleAsyncAdvance, List.drop_left, h.before]
  by_cases hq : que = []
  · subst hq
    exact h.handle_idle hne
  · exact h.handle_pending hne hq

theorem move (h : Reclaiming dma w ring rel bef que) (hs : w.step dma .move = some w') :
    Reclaiming dma w' ring rel bef que := by
  simp only [AsyncWorld.step, Option.map_eq_some_iff] at hs
  obtain ⟨p, hp, rfl⟩ := hs
  exact { h with
    cursor := h.link_mem h.drains h.cursor hp
    cursor_event := fun hu => h.link_mem h.drains_queued (h.cursor_event hu) hp }

theorem raise (h : Reclaiming dma w ring rel bef que) (hs : w.step dma .raise = some w') :
    Reclaiming dma w' ring rel bef que := by
  simp only [AsyncWorld.step] at hs
  split at hs
  case isFalse => cases hs
  rename_i hg
  obtain ⟨hbell, hcursor⟩ := hg
  cases hs
  obtain ⟨hbef, hu⟩ := h.doorbell.mp hbell
  refine { h with
    answered := fun r hr => ?_
    idle := fun hb => absurd hb hbef
    doorbell := by simp [hu]
    event := .inr (by simp [hu])
    cursor_event := fun _ => h.cursor.imp_right fun hc => ?_ }
  · obtain ⟨k, hk, hf⟩ := h.answered r hr
    exact ⟨k, List.mem_append_left _ hk, hf⟩
  · -- the controller is not on a queue head of the batch it answers for
    rw [List.map_append, List.mem_append] at hc
    refine hc.resolve_left fun hc => ?_
    obtain ⟨r, hr, hrc⟩ := List.mem_map.mp hc
    refine hcursor r ?_ (h.rung_lt r hr) hrc
    rw [h.split]
    simp [hr]

theorem step (h : Reclaiming dma w ring rel bef que) {a : AsyncLabel}
    (hs : w.step dma a = some w') :
    ∃ ring' rel' bef' que', Reclaiming dma w' ring' rel' bef' que' := by
  cases a with
  | add qh => exact ⟨_, _, _, _, h.add hs⟩
  | remove qh sender =>
    obtain ⟨ring', bef', que', h'⟩ := h.remove hs
    exact ⟨ring', rel, bef', que', h'⟩
  | handle => exact ⟨_, _, _, _, h.handle hs⟩
  | move => exact ⟨_, _, _, _, h.move hs⟩
  | raise => exact ⟨_, _, _, _, h.raise hs⟩

theorem start {heap heap' : Heap QhWithMetaA} {anchor : MappedMem} {seg : CtrlDsSegment}
    {cmd : UsbCmdReg} (ha : anchor.Usable dma seg) (hw : writeAnchor heap anchor seg = some heap')
    (hcmd : cmd.asyncAdvanceDoorbell = false) :
    Reclaiming dma (.start heap' anchor seg cmd) [] [] [] [] where
  rep := writeAnchor_ringRep ha hw
  added := by simp [AsyncWorld.start]
  split := rfl
  apart := by simp [AsyncWorld.start]
  senders := by simp [AsyncWorld.start]
  before := rfl
  queued := rfl
  sent := rfl
  fired := rfl
  answered := by simp
  idle := fun _ => ⟨rfl, rfl⟩
  doorbell := by simp [AsyncWorld.start, hcmd]
  event := .inl rfl
  rung_le := by simp [AsyncWorld.start]
  rung_lt := by simp
  drains := trivial
  cursor := .inl List.mem_cons_self
  cursor_event := fun h => absurd rfl h

end Reclaiming

/-- **Safe deferred reclamation.** Whatever the driver adds and removes, and wherever the controller
is, every reachable state keeps the removal protocol's guarantees. -/
theorem safeReclamation_of_exec {dma : Dma} {heap heap' : Heap QhWithMetaA} {anchor : MappedMem}
    {seg : CtrlDsSegment} {cmd : UsbCmdReg} {tr : List AsyncLabel} {w : AsyncWorld}
    (ha : anchor.Usable dma seg) (hw : writeAnchor heap anchor seg = some heap')
    (hcmd : cmd.asyncAdvanceDoorbell = false)
    (h : exec (AsyncWorld.step dma) (.start heap' anchor seg cmd) tr = some w) :
    SafeReclamation dma w := by
  obtain ⟨ring, rel, bef, que, hr⟩ := exec_invariant
    (I := fun w => ∃ ring rel bef que, Reclaiming dma w ring rel bef que)
    ⟨_, _, _, _, Reclaiming.start ha hw hcmd⟩ (fun _ _ _ ⟨_, _, _, _, hr⟩ hs => hr.step hs) h
  exact hr.safe

/-- Blank queue heads. -/
def blankQhsA : Heap QhWithMetaA := fun _ => ⟨Qh.new .zero .zero, 0, 0⟩

/-- Two queue heads are added and removed under one doorbell and the next; the controller stands
on the first one when it is unlinked and leaves it before it answers. -/
theorem safeReclamation_of_exec_two :
    let tr : List AsyncLabel := [.add ⟨0x1000, 0x1000⟩, .add ⟨0x2000, 0x2000⟩, .move, .move,
      .remove ⟨0x1000, 0x1000⟩ 7, .remove ⟨0x2000, 0x2000⟩ 8, .move, .raise, .handle, .raise,
      .handle]
    ∃ heap w, writeAnchor blankQhsA ⟨0x800, 0x800⟩ .lower4G = some heap ∧
      exec (AsyncWorld.step .identity) (.start heap ⟨0x800, 0x800⟩ .lower4G ⟨0⟩) tr = some w ∧
      w.fired = [(7, 1), (8, 2)] ∧ SafeReclamation .identity w := by
  intro tr
  have h : ((writeAnchor blankQhsA ⟨0x800, 0x800⟩ .lower4G).bind fun heap =>
      (exec (AsyncWorld.step .identity) (.start heap ⟨0x800, 0x800⟩ .lower4G ⟨0⟩) tr).map
        AsyncWorld.fired) = some [(7, 1), (8, 2)] := by decide +kernel
  obtain ⟨heap, hheap, h⟩ := Option.bind_eq_some_iff.mp h
  obtain ⟨w, hw, hf⟩ := Option.map_eq_some_iff.mp h
  exact ⟨heap, w, hheap, hw, hf, safeReclamation_of_exec (by decide) hheap (by decide) hw⟩

end EzEhci
