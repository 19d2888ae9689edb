import EzEhci.Reset.Machine

/-!
# Who holds a queue head

A queue head that was lent to the driver is in a request signal of a root port
or of a control endpoint, in the ring, or with the reset in progress: in one of
these places at a time (`Owned`). The steps of the reset protocol hand queue
heads from one to the next and keep the ring a ring, so a queue head that the
reset in progress holds is not linked.
-/

namespace EzEhci

open Lib AsyncListManager Relation

/-- Where a queue head can be. -/
inductive QhHolder where
  | port (i : Nat)
  | control (e : ControlEpId)
  | reset
  | ring
  deriving DecidableEq, Repr

/-- The queue head `p` is with the holder. While the SET_ADDRESS transfer runs, the queue head of the
reset in progress is in the ring. -/
inductive HeldBy (portReq : Nat → Option ResetDeviceResources) (controlReq : ControlEpId → Option MappedMem)
    (ongoing : Option OngoingReset) (ring : List Ptr) : QhHolder → Ptr → Prop
  | port {i : Nat} {req : ResetDeviceResources} (h : portReq i = some req) :
      HeldBy portReq controlReq ongoing ring (.port i) req.qh.ptr
  | control {e : ControlEpId} {m : MappedMem} (h : controlReq e = some m) :
      HeldBy portReq controlReq ongoing ring (.control e) m.ptr
  | reset {r : OngoingReset} (h : ongoing = some r) (hstage : ∀ addr, r.stage ≠ .waitForSetAddr addr) :
      HeldBy portReq controlReq ongoing ring .reset r.req.qh.ptr
  | ring {p : Ptr} (h : p ∈ ring) : HeldBy portReq controlReq ongoing ring .ring p

abbrev Holds (s : ResetState) (ring : List Ptr) : QhHolder → Ptr → Prop :=
  HeldBy s.portReq s.controlReq s.ongoing ring

/-- Every queue head that was lent is in one place. -/
structure Owned (dma : Dma) (s : ResetState) (log : List ResetEvent) (ring : List Ptr) : Prop where
  rep : RingRep dma s.async.mgr.ctrlDsSegment s.async.heap s.async.mgr.anchorQh.ptr ring
  unique : ∀ {a b : QhHolder} {p : Ptr}, Holds s ring a p → Holds s ring b p → a = b
  lent : ∀ {a : QhHolder} {p : Ptr}, Holds s ring a p → p ∈ lent log
  anchor : s.async.mgr.anchorQh.ptr ∉ EzEhci.lent log
  linked : ∀ {r : OngoingReset} {addr : BitVec 7}, s.ongoing = some r →
    r.stage = .waitForSetAddr addr → r.req.qh.ptr ∈ ring
  portUsable : ∀ {i : Nat} {req : ResetDeviceResources}, s.portReq i = some req →
    req.qh.Usable dma s.async.mgr.ctrlDsSegment
  controlUsable : ∀ {e : ControlEpId} {m : MappedMem}, s.controlReq e = some m →
    m.Usable dma s.async.mgr.ctrlDsSegment
  resetUsable : ∀ {r : OngoingReset}, s.ongoing = some r →
    r.req.qh.Usable dma s.async.mgr.ctrlDsSegment

/-- The controller reaches the queue head `p` from the anchor. -/
def AsyncLinked (dma : Dma) (seg : CtrlDsSegment) (heap : Heap QhWithMetaA) (anchor p : Ptr) : Prop :=
  ReflTransGen (fun a b => hwNextA dma seg heap a = some b) anchor p

section Ring

variable {dma : Dma} {seg : CtrlDsSegment} {heap heap' : Heap QhWithMetaA} {anchor : Ptr} {ring : List Ptr}

/-- The controller stays in the ring. -/
theorem RingRep.mem_of_linked (h : RingRep dma seg heap anchor ring) {p : Ptr}
    (hp : AsyncLinked dma seg heap anchor p) : p ∈ anchor :: ring := by
  induction hp with
  | refl => exact List.mem_cons_self
  | tail _ hnext ih =>
    rcases linked_mem h.links ih hnext with hmem | hmem
    · exact hmem
    · cases hmem
      exact List.mem_cons_self

theorem RingRep.congr (h : RingRep dma seg heap anchor ring)
    (heq : ∀ p ∈ anchor :: ring, heap' p = heap p) : RingRep dma seg heap' anchor ring where
  nodup := h.nodup
  links := linked_congr (fun p hp => hwNextA_congr (by rw [heq p hp])) h.links
  next := linked_congr (fun p hp => by rw [heq p hp]) h.next
  prev := backLinked_congr (fun p hp => by rw [heq p hp]) h.prev

theorem RingRep.modify (h : RingRep dma seg heap anchor ring) {p : Ptr} (hp : p ∉ anchor :: ring)
    (f : QhWithMetaA → QhWithMetaA) : RingRep dma seg (heap.modify p f) anchor ring := by
  refine h.congr fun q hq => heap.modify_of_ne f ?_
  rintro rfl
  exact hp hq

end Ring

theorem update_some_cases {α : Type} {f : Nat → Option α} {a b : Nat} {v w : α}
    (h : Function.update f a (some v) b = some w) : b = a ∧ w = v ∨ f b = some w := by
  by_cases hb : b = a
  · subst hb
    rw [Function.update_self, Option.some.injEq] at h
    exact .inl ⟨rfl, h.symm⟩
  · rw [Function.update_of_ne hb] at h
    exact .inr h

theorem update_none_cases {α : Type} {f : Nat → Option α} {a b : Nat} {w : α}
    (h : Function.update f a none b = some w) : b ≠ a ∧ f b = some w := by
  by_cases hb : b = a
  · subst hb
    rw [Function.update_self] at h
    cases h
  · rw [Function.update_of_ne hb] at h
    exact ⟨hb, h⟩

/-- A queue head moves to the holder `c`; nobody else gets one. -/
theorem Holds.unique_of_moved {s s' : ResetState} {ring ring' : List Ptr} {c : QhHolder} {q : Ptr}
    (hu : ∀ {a b : QhHolder} {p : Ptr}, Holds s ring a p → Holds s ring b p → a = b)
    (hmoved : ∀ {a : QhHolder} {p : Ptr}, Holds s' ring' a p → Holds s ring a p ∨ a = c ∧ p = q)
    (hq : ∀ {a : QhHolder}, Holds s' ring' a q → a = c) {a b : QhHolder} {p : Ptr}
    (ha : Holds s' ring' a p) (hb : Holds s' ring' b p) : a = b := by
  by_cases hp : p = q
  · subst hp
    rw [hq ha, hq hb]
  · rcases hmoved ha with ha | ⟨-, hpq⟩
    · rcases hmoved hb with hb | ⟨-, hpq⟩
      · exact hu ha hb
      · exact absurd hpq hp
    · exact absurd hpq hp

namespace Owned

variable {dma : Dma} {s s' : ResetState} {log : List ResetEvent} {ring : List Ptr}

theorem not_mem_ring (h : Owned dma s log ring) {a : QhHolder} {p : Ptr} (hp : Holds s ring a p)
    (ha : a ≠ .ring) : p ∉ s.async.mgr.anchorQh.ptr :: ring := by
  intro hmem
  rcases List.mem_cons.mp hmem with rfl | hmem
  · exact h.anchor (h.lent hp)
  · exact ha (h.unique hp (.ring hmem))

theorem fresh_not_mem (h : Owned dma s log ring) {m : MappedMem} (hm : s.Fresh dma log m) :
    m.ptr ∉ s.async.mgr.anchorQh.ptr :: ring := by
  intro hmem
  rcases List.mem_cons.mp hmem with he | hmem
  · exact hm.2.1 he
  · exact hm.2.2 (h.lent (.ring hmem))

/-- The queue head of the reset in progress is not linked, except for its SET_ADDRESS transfer. -/
theorem not_linked (h : Owned dma s log ring) {r : OngoingReset} (hr : s.ongoing = some r)
    (hstage : ∀ addr, r.stage ≠ .waitForSetAddr addr) :
    ¬ AsyncLinked dma s.async.mgr.ctrlDsSegment s.async.heap s.async.mgr.anchorQh.ptr r.req.qh.ptr :=
  fun hlinked => h.not_mem_ring (.reset hr hstage) nofun (h.rep.mem_of_linked hlinked)

theorem record (h : Owned dma s log ring) {l : List ResetEvent} (hl : EzEhci.lent (log ++ l) = EzEhci.lent log) :
    Owned dma s (log ++ l) ring :=
  { h with lent := fun hp => hl ▸ h.lent hp, anchor := hl ▸ h.anchor }

/-! ## The clients -/

theorem called (h : Owned dma s log ring) {i : Nat} {req : ResetDeviceResources}
    (hfresh : s.Fresh dma log req.qh) :
    Owned dma { s with portReq := Function.update s.portReq i (some req) } (log ++ [.called i req])
      ring := by
  have hmoved : ∀ {a : QhHolder} {p : Ptr},
      Holds { s with portReq := Function.update s.portReq i (some req) } ring a p →
      Holds s ring a p ∨ a = .port i ∧ p = req.qh.ptr := by
    intro a p hp
    cases hp with
    | port hreq =>
      rcases update_some_cases hreq with ⟨rfl, rfl⟩ | hreq
      · exact .inr ⟨rfl, rfl⟩
      · exact .inl (.port hreq)
    | control hreq => exact .inl (.control hreq)
    | reset hr hstage => exact .inl (.reset hr hstage)
    | ring hp => exact .inl (.ring hp)
  refine { h with
    unique := Holds.unique_of_moved h.unique hmoved fun hp => ?_
    lent := fun hp => ?_
    anchor := ?_
    portUsable := fun hreq => ?_ }
  · rcases hmoved hp with hp | ⟨rfl, -⟩
    · exact absurd (h.lent hp) hfresh.2.2
    · rfl
  · rw [lent_append]
    rcases hmoved hp with hp | ⟨-, rfl⟩
    · exact List.mem_cons_of_mem _ (h.lent hp)
    · exact List.mem_cons_self
  · rw [lent_append]
    exact List.mem_cons.not.mpr (not_or.mpr ⟨Ne.symm hfresh.2.1, h.anchor⟩)
  · rcases update_some_cases hreq with ⟨rfl, rfl⟩ | hreq
    · exact hfresh.1
    · exact h.portUsable hreq

theorem loaded (h : Owned dma s log ring) {e : ControlEpId} {m : MappedMem} (prepared : Qh)
    (hfresh : s.Fresh dma log m) :
    Owned dma
      { s with
        controlReq := Function.update s.controlReq e (some m)
        async := { s.async with
          heap := s.async.heap.modify m.ptr fun q => { q with qh := prepared } } }
      (log ++ [.loaded m]) ring := by
  have hmoved : ∀ {a : QhHolder} {p : Ptr},
      Holds { s with
        controlReq := Function.update s.controlReq e (some m)
        async := { s.async with
          heap := s.async.heap.modify m.ptr fun q => { q with qh := prepared } } } ring a p →
      Holds s ring a p ∨ a = .control e ∧ p = m.ptr := by
    intro a p hp
    cases hp with
    | port hreq => exact .inl (.port hreq)
    | control hreq =>
      rcases update_some_cases hreq with ⟨rfl, rfl⟩ | hreq
      · exact .inr ⟨rfl, rfl⟩
      · exact .inl (.control hreq)
    | reset hr hstage => exact .inl (.reset hr hstage)
    | ring hp => exact .inl (.ring hp)
  refine { h with
    rep := h.rep.modify (h.fresh_not_mem hfresh) fun q => { q with qh := prepared }
    unique := Holds.unique_of_moved h.unique hmoved fun hp => ?_
    lent := fun hp => ?_
    anchor := ?_
    controlUsable := fun hreq => ?_ }
  · rcases hmoved hp with hp | ⟨rfl, -⟩
    · exact absurd (h.lent hp) hfresh.2.2
    · rfl
  · rw [lent_append]
    rcases hmoved hp with hp | ⟨-, rfl⟩
    · exact List.mem_cons_of_mem _ (h.lent hp)
    · exact List.mem_cons_self
  · rw [lent_append]
    exact List.mem_cons.not.mpr (not_or.mpr ⟨Ne.symm hfresh.2.1, h.anchor⟩)
  · rcases update_some_cases hreq with ⟨rfl, rfl⟩ | hreq
    · exact hfresh.1
    · exact h.controlUsable hreq

/-! ## The runner -/

theorem moved (h : Owned dma s log ring) {ring' : List Ptr} {b c : QhHolder} {q : Ptr}
    (hq : Holds s ring b q) (hmoved : ∀ {a : QhHolder} {p : Ptr}, Holds s' ring' a p →
      Holds s ring a p ∧ (p = q → a ≠ b) ∨ a = c ∧ p = q) :
    (∀ {a a' : QhHolder} {p : Ptr}, Holds s' ring' a p → Holds s' ring' a' p → a = a') ∧
      ∀ {a : QhHolder} {p : Ptr}, Holds s' ring' a p → p ∈ EzEhci.lent log := by
  constructor
  · refine Holds.unique_of_moved h.unique (fun hp => (hmoved hp).imp_left And.left) fun hp => ?_
    rcases hmoved hp with ⟨hp, hne⟩ | ⟨rfl, -⟩
    · exact absurd (h.unique hp hq) (hne rfl)
    · rfl
  · intro a p hp
    rcases hmoved hp with ⟨hp, -⟩ | ⟨-, rfl⟩
    · exact h.lent hp
    · exact h.lent hq

theorem add (h : Owned dma s log ring) {m : MappedMem} {async : AsyncState}
    (hu : m.Usable dma s.async.mgr.ctrlDsSegment) (hm : m.ptr ∉ s.async.mgr.anchorQh.ptr :: ring)
    (hadd : addQhToAsyncList s.async m = some async) :
    async.mgr = s.async.mgr ∧
      RingRep dma s.async.mgr.ctrlDsSegment async.heap s.async.mgr.anchorQh.ptr (m.ptr :: ring) := by
  rw [addQhToAsyncList, hu.offset] at hadd
  cases hadd
  exact ⟨rfl, h.rep.add hu hm⟩

theorem control (h : Owned dma s log ring) {e : ControlEpId} {m : MappedMem} {async : AsyncState}
    (hreq : s.controlReq e = some m) (hadd : addQhToAsyncList s.async m = some async) :
    Owned dma { s with async, controlReq := Function.update s.controlReq e none } log
      (m.ptr :: ring) := by
  obtain ⟨hmgr, hrep⟩ := h.add (h.controlUsable hreq) (h.not_mem_ring (.control hreq) nofun) hadd
  have hmoved : ∀ {a : QhHolder} {p : Ptr},
      Holds { s with async, controlReq := Function.update s.controlReq e none } (m.ptr :: ring) a p →
      Holds s ring a p ∧ (p = m.ptr → a ≠ .control e) ∨ a = .ring ∧ p = m.ptr := by
    intro a p hp
    cases hp with
    | port hreq => exact .inl ⟨.port hreq, nofun⟩
    | control hreq =>
      obtain ⟨hne, hreq⟩ := update_none_cases hreq
      exact .inl ⟨.control hreq, fun _ he => hne (QhHolder.control.inj he)⟩
    | reset hr hstage => exact .inl ⟨.reset hr hstage, nofun⟩
    | ring hp =>
      rcases List.mem_cons.mp hp with rfl | hp
      · exact .inr ⟨rfl, rfl⟩
      · exact .inl ⟨.ring hp, nofun⟩
  constructor
  case rep => exact hmgr ▸ hrep
  case unique => exact (h.moved (.control hreq) hmoved).1
  case lent => exact (h.moved (.control hreq) hmoved).2
  case anchor => exact hmgr ▸ h.anchor
  case linked =>
    intro r addr hr hstage
    exact List.mem_cons_of_mem _ (h.linked hr hstage)
  case portUsable => exact fun hreq => hmgr ▸ h.portUsable hreq
  case controlUsable => exact fun hreq => hmgr ▸ h.controlUsable (update_none_cases hreq).2
  case resetUsable => exact fun hr => hmgr ▸ h.resetUsable hr

theorem consumed (h : Owned dma s log ring) {i : Nat} {req : ResetDeviceResources}
    (hreq : s.portReq i = some req) :
    Owned dma
      { s with
        portReq := Function.update s.portReq i none
        ongoing := some ⟨req, i, .waitingToStopReset⟩ } log ring := by
  have hmoved : ∀ {a : QhHolder} {p : Ptr},
      Holds { s with
        portReq := Function.update s.portReq i none
        ongoing := some ⟨req, i, .waitingToStopReset⟩ } ring a p →
      Holds s ring a p ∧ (p = req.qh.ptr → a ≠ .port i) ∨ a = .reset ∧ p = req.qh.ptr := by
    intro a p hp
    cases hp with
    | port hreq =>
      obtain ⟨hne, hreq⟩ := update_none_cases hreq
      exact .inl ⟨.port hreq, fun _ he => hne (QhHolder.port.inj he)⟩
    | control hreq => exact .inl ⟨.control hreq, nofun⟩
    | reset hr hstage =>
      cases hr
      exact .inr ⟨rfl, rfl⟩
    | ring hp => exact .inl ⟨.ring hp, nofun⟩
  constructor
  case rep => exact h.rep
  case unique => exact (h.moved (.port hreq) hmoved).1
  case lent => exact (h.moved (.port hreq) hmoved).2
  case anchor => exact h.anchor
  case linked =>
    intro r addr hr hstage
    cases hr
    cases hstage
  case portUsable => exact fun hreq => h.portUsable (update_none_cases hreq).2
  case controlUsable => exact h.controlUsable
  case resetUsable =>
    intro r hr
    cases hr
    exact h.portUsable hreq

theorem setStage (h : Owned dma s log ring) {r : OngoingReset} {stage : ResetStage}
    (hr : s.ongoing = some r) (hold : ∀ addr, r.stage ≠ .waitForSetAddr addr)
    (hnew : ∀ addr, stage ≠ .waitForSetAddr addr) : Owned dma (s.setStage r stage) log ring := by
  have hsame : ∀ {a : QhHolder} {p : Ptr}, Holds (s.setStage r stage) ring a p → Holds s ring a p := by
    intro a p hp
    cases hp with
    | port hreq => exact .port hreq
    | control hreq => exact .control hreq
    | reset hr' hstage =>
      cases hr'
      show Holds s ring .reset r.req.qh.ptr
      exact .reset hr hold
    | ring hp => exact .ring hp
  refine { h with
    unique := fun ha hb => h.unique (hsame ha) (hsame hb)
    lent := fun hp => h.lent (hsame hp)
    linked := fun hr' hstage => ?_
    resetUsable := fun hr' => ?_ }
  · cases hr'
    exact absurd hstage (hnew _)
  · cases hr'
    show r.req.qh.Usable dma s.async.mgr.ctrlDsSegment
    exact h.resetUsable hr

theorem enabled (h : Owned dma s log ring) {r : OngoingReset} {prepared : Qh} {async : AsyncState}
    {alloc : AddressAllocator} {addr : BitVec 7} (hr : s.ongoing = some r)
    (hold : ∀ addr, r.stage ≠ .waitForSetAddr addr) (hadd : s.linkQh r.req.qh prepared = some async) :
    Owned dma { s.setStage r (.waitForSetAddr addr) with addrAllocator := alloc, async } log
      (r.req.qh.ptr :: ring) := by
  have hfree := h.not_mem_ring (.reset hr hold) nofun
  have hprepared : Owned dma { s with async := { s.async with
      heap := s.async.heap.modify r.req.qh.ptr fun m => { m with qh := prepared } } } log ring := by
    exact { h with rep := h.rep.modify hfree fun m => { m with qh := prepared } }
  obtain ⟨hmgr, hrep⟩ := hprepared.add (h.resetUsable hr) hfree hadd
  replace hmgr : async.mgr = s.async.mgr := hmgr
  have hmoved : ∀ {a : QhHolder} {p : Ptr},
      Holds { s.setStage r (.waitForSetAddr addr) with addrAllocator := alloc, async }
        (r.req.qh.ptr :: ring) a p →
      Holds s ring a p ∧ (p = r.req.qh.ptr → a ≠ .reset) ∨ a = .ring ∧ p = r.req.qh.ptr := by
    intro a p hp
    cases hp with
    | port hreq => exact .inl ⟨.port hreq, nofun⟩
    | control hreq => exact .inl ⟨.control hreq, nofun⟩
    | reset hr' hstage =>
      cases hr'
      exact absurd rfl (hstage addr)
    | ring hp =>
      rcases List.mem_cons.mp hp with rfl | hp
      · exact .inr ⟨rfl, rfl⟩
      · exact .inl ⟨.ring hp, nofun⟩
  constructor
  case rep => exact hmgr ▸ hrep
  case unique => exact (h.moved (.reset hr hold) hmoved).1
  case lent => exact (h.moved (.reset hr hold) hmoved).2
  case anchor => exact hmgr ▸ h.anchor
  case linked =>
    intro r' addr' hr' hstage
    cases hr'
    exact List.mem_cons_self
  case portUsable => exact fun hreq => hmgr ▸ h.portUsable hreq
  case controlUsable => exact fun hreq => hmgr ▸ h.controlUsable hreq
  case resetUsable =>
    intro r' hr'
    cases hr'
    show r.req.qh.Usable dma async.mgr.ctrlDsSegment
    exact hmgr ▸ h.resetUsable hr

theorem queueRemoveQh_frame (a : AsyncState) (qh : MappedMem) (x : SenderId) :
    (queueRemoveQh a qh x).mgr.anchorQh = a.mgr.anchorQh ∧
    (queueRemoveQh a qh x).mgr.ctrlDsSegment = a.mgr.ctrlDsSegment ∧
    (queueRemoveQh a qh x).heap = applyWrites a.heap (removeWrites a.heap qh) := by
  unfold queueRemoveQh
  dsimp only
  split <;> exact ⟨rfl, rfl, rfl⟩

theorem addressed (h : Owned dma s log ring) {r : OngoingReset} {addr : BitVec 7} (hr : s.ongoing = some r)
    (hstage : r.stage = .waitForSetAddr addr) :
    ∃ ring', Owned dma
      { s.setStage r (.waitForQhRemove addr s.nextSender) with
        async := queueRemoveQh s.async r.req.qh s.nextSender
        nextSender := s.nextSender + 1 } log ring' := by
  obtain ⟨hanchor, hseg, hheap⟩ := queueRemoveQh_frame s.async r.req.qh s.nextSender
  obtain ⟨l₁, l₂, rfl⟩ := List.append_of_mem (h.linked hr hstage)
  have hq : r.req.qh.ptr ∉ l₁ ++ l₂ :=
    (List.nodup_cons.mp (List.nodup_middle.mp (List.nodup_cons.mp h.rep.nodup).2)).1
  have hmoved : ∀ {a : QhHolder} {p : Ptr},
      Holds (s.setStage r (.waitForQhRemove addr s.nextSender)) (l₁ ++ l₂) a p →
      Holds s (l₁ ++ r.req.qh.ptr :: l₂) a p ∧ (p = r.req.qh.ptr → a ≠ .ring) ∨
        a = .reset ∧ p = r.req.qh.ptr := by
    intro a p hp
    cases hp with
    | port hreq => exact .inl ⟨.port hreq, nofun⟩
    | control hreq => exact .inl ⟨.control hreq, nofun⟩
    | reset hr' hstage =>
      cases hr'
      exact .inr ⟨rfl, rfl⟩
    | ring hp =>
      refine .inl ⟨.ring (List.mem_append.mpr ?_), fun he => absurd (he ▸ hp) hq⟩
      exact (List.mem_append.mp hp).imp_right (List.mem_cons_of_mem _)
  refine ⟨l₁ ++ l₂, ?_⟩
  constructor
  case rep => exact hanchor ▸ hseg ▸ hheap ▸ h.rep.remove
  case unique => exact (h.moved (.ring (h.linked hr hstage)) hmoved).1
  case lent => exact (h.moved (.ring (h.linked hr hstage)) hmoved).2
  case anchor => exact hanchor ▸ h.anchor
  case linked =>
    intro r' addr' hr' hstage'
    cases hr'
    cases hstage'
  case portUsable => exact fun hreq => hseg ▸ h.portUsable hreq
  case controlUsable => exact fun hreq => hseg ▸ h.controlUsable hreq
  case resetUsable =>
    intro r' hr'
    cases hr'
    show r.req.qh.Usable dma (queueRemoveQh s.async r.req.qh s.nextSender).mgr.ctrlDsSegment
    exact hseg ▸ h.resetUsable hr

theorem answered (h : Owned dma s log ring) {r : OngoingReset} {l : List ResetEvent} {i : Nat}
    {result : Except DriverError Device} (hr : s.ongoing = some r)
    (hstage : ∀ addr, r.stage ≠ .waitForSetAddr addr)
    (hl : EzEhci.lent (log ++ l) = (EzEhci.lent log).filter (· ≠ r.req.qh.ptr)) :
    Owned dma (s.answer i result) (log ++ l) ring := by
  have hsame : ∀ {a : QhHolder} {p : Ptr}, Holds (s.answer i result) ring a p →
      Holds s ring a p ∧ a ≠ .reset := by
    intro a p hp
    cases hp with
    | port hreq => exact ⟨.port hreq, nofun⟩
    | control hreq => exact ⟨.control hreq, nofun⟩
    | reset hr' hstage => cases hr'
    | ring hp => exact ⟨.ring hp, nofun⟩
  refine { h with
    unique := fun ha hb => h.unique (hsame ha).1 (hsame hb).1
    lent := fun {a p} hp => ?_
    anchor := ?_
    linked := nofun
    resetUsable := nofun }
  · obtain ⟨hp, hne⟩ := hsame hp
    rw [hl, List.mem_filter]
    refine ⟨h.lent hp, decide_eq_true ?_⟩
    rintro rfl
    exact hne (h.unique hp (.reset hr hstage))
  · rw [hl, List.mem_filter]
    exact fun hmem => h.anchor hmem.1

theorem dropControl (h : Owned dma s log ring) (e : ControlEpId) :
    Owned dma { s with controlReq := Function.update s.controlReq e none } log ring := by
  have hsame : ∀ {a : QhHolder} {p : Ptr},
      Holds { s with controlReq := Function.update s.controlReq e none } ring a p →
      Holds s ring a p := by
    intro a p hp
    cases hp with
    | port hreq => exact .port hreq
    | control hreq => exact .control (update_none_cases hreq).2
    | reset hr hstage => exact .reset hr hstage
    | ring hp => exact .ring hp
  exact { h with
    unique := fun ha hb => h.unique (hsame ha) (hsame hb)
    lent := fun hp => h.lent (hsame hp)
    controlUsable := fun hreq => h.controlUsable (update_none_cases hreq).2 }

/-! ## The steps of the protocol -/

theorem lent_disconnected (log l : List ResetEvent) (rds : ResetReadings) (r : OngoingReset) :
    EzEhci.lent (log ++ (disconnectedEvents rds r ++ l)) = EzEhci.lent (log ++ l) := by
  unfold disconnectedEvents
  split
  · rfl
  · rw [lent_append, lent_append]
    rfl

theorem lent_fired (log : List ResetEvent) (l : List SenderId) :
    EzEhci.lent (log ++ l.map .fired) = EzEhci.lent log := by
  rw [lent_append]
  induction l with
  | nil => rfl
  | cons x l ih => exact ih

theorem handleAsyncAdvance_frame (a : AsyncState) :
    (handleAsyncAdvance a).mgr.anchorQh = a.mgr.anchorQh ∧
    (handleAsyncAdvance a).mgr.ctrlDsSegment = a.mgr.ctrlDsSegment ∧
    (handleAsyncAdvance a).heap = a.heap := by
  unfold handleAsyncAdvance
  dsimp only
  split <;> exact ⟨rfl, rfl, rfl⟩

theorem fired (h : Owned dma s log ring) :
    Owned dma { s with async := handleAsyncAdvance s.async } log ring := by
  obtain ⟨hanchor, hseg, hheap⟩ := handleAsyncAdvance_frame s.async
  exact { h with
    rep := hanchor ▸ hseg ▸ hheap ▸ h.rep
    anchor := hanchor ▸ h.anchor
    portUsable := fun hreq => hseg ▸ h.portUsable hreq
    controlUsable := fun hreq => hseg ▸ h.controlUsable hreq
    resetUsable := fun hr => hseg ▸ h.resetUsable hr }

theorem progress (h : Owned dma s log ring) {rds : ResetReadings} {r : OngoingReset} {l : List ResetEvent}
    (hr : s.ongoing = some r) (hs : ResetProgress s rds r l s') :
    ∃ ring', Owned dma s' (log ++ (disconnectedEvents rds r ++ l)) ring' := by
  have hrecord : ∀ {t : ResetState} {ring' : List Ptr} {l : List ResetEvent}, Owned dma t log ring' →
      EzEhci.lent (log ++ l) = EzEhci.lent log →
      Owned dma t (log ++ (disconnectedEvents rds r ++ l)) ring' :=
    fun ht hl => ht.record ((lent_disconnected ..).trans hl)
  have hanswer : ∀ {i : Nat} {result : Except DriverError Device} {heap : Heap QhWithMetaA},
      EzEhci.lent (log ++ (disconnectedEvents rds r ++ [.answered i r.req result heap])) =
        (EzEhci.lent log).filter (· ≠ r.req.qh.ptr) := by
    intro i result heap
    rw [lent_disconnected, lent_append]
    rfl
  cases hs with
  | disconnected hstage hread =>
    refine ⟨ring, h.answered hr ?_ hanswer⟩
    rcases hstage with hstage | hstage <;> simp [hstage]
  | resetDone v hstage hread hv =>
    refine ⟨ring, hrecord (h.setStage hr (by simp [hstage]) nofun) ?_⟩
    rw [lent_append]
    rfl
  | fullSpeed hstage hread => exact ⟨ring, h.answered hr (by simp [hstage]) hanswer⟩
  | enabled alloc addr prepared async hstage hread halloc hasync =>
    refine ⟨_, hrecord (h.enabled hr (by simp [hstage]) hasync) ?_⟩
    rw [lent_append]
    rfl
  | addressed addr hstage hread =>
    obtain ⟨ring', h'⟩ := h.addressed hr hstage
    refine ⟨ring', hrecord h' ?_⟩
    rw [lent_append]
    rfl
  | removed addr sender device e hstage hsent hdevice ports hports hsorted =>
    have h' : Owned dma (s.answer r.rootPort (.ok device))
        (log ++ (disconnectedEvents rds r ++ [.answered r.rootPort r.req (.ok device) s.async.heap])) ring :=
      h.answered hr (by simp [hstage]) hanswer
    exact ⟨ring, { h'.dropControl e with }⟩
  | waits hwait =>
    refine ⟨ring, hrecord h ?_⟩
    rw [lent_append]
    rfl

/-- **Every step hands queue heads on.** -/
theorem step (h : Owned dma s log ring) {o : Option ResetReadings} {l : List ResetEvent}
    (hs : ResetStep dma log s o l s') :
    ∃ ring', Owned dma s' (log ++ l) ring' := by
  cases hs with
  | quiet => exact ⟨ring, h.record (congrArg EzEhci.lent (List.append_nil log))⟩
  | called i req hfresh hidle => exact ⟨ring, h.called hfresh⟩
  | returned i result hactive hres =>
    have h' : Owned dma { s with portRes := Function.update s.portRes i none } log ring := { h with }
    exact ⟨ring, h'.record (by rw [lent_append]; rfl)⟩
  | dropped i hactive => exact ⟨ring, h.record (by rw [lent_append]; rfl)⟩
  | loaded e m prepared hfresh => exact ⟨ring, h.loaded prepared hfresh⟩
  | watched =>
    have h' : Owned dma { s with nextSender := s.nextSender + 1 } log ring := { h with }
    exact ⟨ring, h'.record (congrArg EzEhci.lent (List.append_nil log))⟩
  | fired => exact ⟨ring, h.fired.record (lent_fired ..)⟩
  | control e m async hreq hasync =>
    exact ⟨_, (h.control hreq hasync).record (congrArg EzEhci.lent (List.append_nil log))⟩
  | consumed i req v hreq hnone hi hv =>
    exact ⟨ring, (h.consumed hreq).record (by rw [lent_append]; rfl)⟩
  | ended hnone => exact ⟨ring, h.record (by rw [lent_append]; rfl)⟩
  | progress hr hprogress => exact h.progress hr hprogress

end Owned

end EzEhci
