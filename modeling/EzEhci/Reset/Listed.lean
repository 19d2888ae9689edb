import EzEhci.Reset.Ownership
import EzEhci.Reset.Refine

/-!
# What is in the asynchronous list

The runner links the queue head of a loaded endpoint when it takes the request
from the endpoint's signal, and that of a reset while its SET_ADDRESS transfer
runs. `Listed` says that the ring holds these queue heads and no others. Clients
and the controller write to the queue heads meanwhile, but not to their links
(`overlay`).
-/

namespace EzEhci

open Lib AsyncListManager Relation

theorem RingRep.mem_iff_linked {dma : Dma} {seg : CtrlDsSegment} {heap : Heap QhWithMetaA} {anchor : Ptr}
    {ring : List Ptr} (h : RingRep dma seg heap anchor ring) {p : Ptr} :
    p ∈ anchor :: ring ↔ AsyncLinked dma seg heap anchor p :=
  ⟨h.links.reached, h.mem_of_linked⟩

/-! ## The protocol -/

namespace ResetState

/-- The queue head was asked for with a reset that is not answered yet. -/
def Asked (s : ResetState) (p : Ptr) : Prop :=
  (∃ i req, s.portReq i = some req ∧ req.qh.ptr = p) ∨ ∃ r, s.ongoing = some r ∧ r.req.qh.ptr = p

/-- The SET_ADDRESS transfer of the reset in progress runs in the queue head. -/
def Addressing (s : ResetState) (p : Ptr) : Prop :=
  ∃ r addr, s.ongoing = some r ∧ r.stage = .waitForSetAddr addr ∧ r.req.qh.ptr = p

end ResetState

/-- The queue heads that were loaded are in the ring or in a request signal. -/
structure Listed (s : ResetState) (log : List ResetEvent) (ring : List Ptr) : Prop where
  requested : ∀ {e : ControlEpId} {m : MappedMem}, s.controlReq e = some m → .loaded m ∈ log
  lent : ∀ {m : MappedMem}, .loaded m ∈ log → m.ptr ∈ lent log
  linked : ∀ {m : MappedMem}, .loaded m ∈ log → (∃ e, s.controlReq e = some m) ∨ m.ptr ∈ ring
  apart : ∀ {m : MappedMem}, .loaded m ∈ log → ¬ s.Asked m.ptr
  only : ∀ {p : Ptr}, p ∈ ring → (∃ m, .loaded m ∈ log ∧ m.ptr = p) ∨ s.Addressing p

/-- The event hands out no queue head of an endpoint. -/
def ResetEvent.isLoaded : ResetEvent → Bool
  | .loaded _ => true
  | _ => false

theorem not_loaded_of_isLoaded {l : List ResetEvent} (hl : ∀ e ∈ l, e.isLoaded = false) {m : MappedMem} :
    .loaded m ∉ l := fun hm => by cases hl _ hm

namespace Listed

variable {dma : Dma} {s s' : ResetState} {log l : List ResetEvent} {ring ring' : List Ptr}

theorem mono (h : Listed s log ring) (hl : ∀ e ∈ l, e.isLoaded = false)
    (hlent : ∀ {m : MappedMem}, .loaded m ∈ log → m.ptr ∈ EzEhci.lent log → m.ptr ∈ EzEhci.lent (log ++ l))
    (hreq : ∀ {e : ControlEpId} {m : MappedMem}, s'.controlReq e = some m → s.controlReq e = some m)
    (hkept : ∀ {e : ControlEpId} {m : MappedMem}, s.controlReq e = some m →
      s'.controlReq e = some m ∨ m.ptr ∈ ring')
    (hring : ∀ {m : MappedMem}, .loaded m ∈ log → m.ptr ∈ ring → m.ptr ∈ ring')
    (hasked : ∀ {m : MappedMem}, .loaded m ∈ log → s'.Asked m.ptr → s.Asked m.ptr)
    (honly : ∀ {p : Ptr}, p ∈ ring' → (∃ m, .loaded m ∈ log ∧ m.ptr = p) ∨ s'.Addressing p) :
    Listed s' (log ++ l) ring' := by
  have hold : ∀ {m : MappedMem}, .loaded m ∈ log ++ l → .loaded m ∈ log := fun hm =>
    (List.mem_append.mp hm).resolve_right (not_loaded_of_isLoaded hl)
  refine ⟨fun hm => List.mem_append_left _ (h.requested (hreq hm)), fun hm => ?_, fun hm => ?_,
    fun hm ha => h.apart (hold hm) (hasked (hold hm) ha), fun hp => ?_⟩
  · exact hlent (hold hm) (h.lent (hold hm))
  · rcases h.linked (hold hm) with ⟨e, he⟩ | hmem
    · exact (hkept he).imp (⟨e, ·⟩) id
    · exact .inr (hring (hold hm) hmem)
  · exact (honly hp).imp (fun ⟨m, hm, he⟩ => ⟨m, List.mem_append_left _ hm, he⟩) id

theorem record (h : Listed s log ring) (hl : ∀ e ∈ l, e.isLoaded = false)
    (hlent : EzEhci.lent (log ++ l) = EzEhci.lent log) (hreq : s'.controlReq = s.controlReq)
    (hport : s'.portReq = s.portReq) (hongoing : s'.ongoing = s.ongoing) :
    Listed s' (log ++ l) ring := by
  have hasked : ∀ {p : Ptr}, s'.Asked p → s.Asked p := fun hp => by
    rw [ResetState.Asked, hport, hongoing] at hp
    exact hp
  refine h.mono hl (fun _ hm => hlent ▸ hm) (fun hm => hreq ▸ hm) (fun hm => .inl (hreq ▸ hm)) (fun _ => id)
    (fun _ => hasked) fun hp => (h.only hp).imp id fun hp => ?_
  rw [ResetState.Addressing, hongoing]
  exact hp

theorem ne_of_ongoing (h : Listed s log ring) {m : MappedMem} (hm : .loaded m ∈ log) {r : OngoingReset}
    (hr : s.ongoing = some r) : m.ptr ≠ r.req.qh.ptr :=
  fun he => h.apart hm (.inr ⟨r, hr, he.symm⟩)

theorem called (h : Listed s log ring) {i : Nat} {req : ResetDeviceResources}
    (hfresh : s.Fresh dma log req.qh) :
    Listed { s with portReq := Function.update s.portReq i (some req) } (log ++ [.called i req]) ring := by
  refine h.mono (by simp [ResetEvent.isLoaded]) (fun _ hm => ?_) id .inl (fun _ => id)
    (fun {m} hm ha => ?_) fun hp => h.only hp
  · rw [lent_append]
    exact List.mem_cons_of_mem _ hm
  · rcases ha with ⟨j, req', hreq, he⟩ | ha
    · rcases update_some_cases hreq with ⟨rfl, rfl⟩ | hreq
      · exact absurd (he ▸ h.lent hm) hfresh.2.2
      · exact .inl ⟨j, req', hreq, he⟩
    · exact .inr ha

theorem loaded (h : Listed s log ring) (ho : Owned dma s log ring) {e : ControlEpId} {m : MappedMem}
    (prepared : Qh) (hfresh : s.Fresh dma log m) (hnone : s.controlReq e = none) :
    Listed { s with
      controlReq := Function.update s.controlReq e (some m)
      async := { s.async with
        heap := s.async.heap.modify m.ptr fun q => { q with qh := prepared } } } (log ++ [.loaded m])
      ring := by
  have hlent : EzEhci.lent (log ++ [.loaded m]) = m.ptr :: EzEhci.lent log := by
    rw [lent_append]
    rfl
  have hcases : ∀ {m' : MappedMem}, .loaded m' ∈ log ++ [.loaded m] → .loaded m' ∈ log ∨ m' = m := by
    intro m' hm'
    simpa using hm'
  refine ⟨fun {e' m'} hreq => ?_, fun {m'} hm' => ?_, fun {m'} hm' => ?_, fun {m'} hm' ha => ?_,
    fun {p} hp => ?_⟩
  · rcases update_some_cases hreq with ⟨-, rfl⟩ | hreq
    · exact List.mem_append_right _ List.mem_cons_self
    · exact List.mem_append_left _ (h.requested hreq)
  · rw [hlent]
    rcases hcases hm' with hm' | rfl
    · exact List.mem_cons_of_mem _ (h.lent hm')
    · exact List.mem_cons_self
  · rcases hcases hm' with hm' | rfl
    · refine (h.linked hm').imp (fun ⟨e', he'⟩ => ⟨e', ?_⟩) id
      have hne : e' ≠ e := by
        rintro rfl
        rw [hnone] at he'
        cases he'
      exact (Function.update_of_ne hne _ _).trans he'
    · exact .inl ⟨e, Function.update_self ..⟩
  · rcases hcases hm' with hm' | rfl
    · exact h.apart hm' ha
    · -- a queue head that is asked for is lent
      refine hfresh.2.2 ?_
      rcases ha with ⟨i, req, hreq, he⟩ | ⟨r, hr, he⟩
      · exact he ▸ ho.lent (.port hreq)
      · by_cases hstage : ∃ addr, r.stage = .waitForSetAddr addr
        · obtain ⟨addr, hstage⟩ := hstage
          exact he ▸ ho.lent (.ring (ho.linked hr hstage))
        · exact he ▸ ho.lent (.reset hr (not_exists.mp hstage))
  · exact (h.only hp).imp (fun ⟨m', hm', he⟩ => ⟨m', List.mem_append_left _ hm', he⟩) id

theorem control (h : Listed s log ring) {e : ControlEpId} {m : MappedMem} (async : AsyncState)
    (hreq : s.controlReq e = some m) :
    Listed { s with async, controlReq := Function.update s.controlReq e none } (log ++ []) (m.ptr :: ring) := by
  refine h.mono nofun (fun _ hm => by rwa [List.append_nil]) (fun hm => (update_none_cases hm).2)
    (fun {e' m'} hm => ?_) (fun _ hm => List.mem_cons_of_mem _ hm) (fun _ => id) fun {p} hp => ?_
  · by_cases he : e' = e
    · subst he
      rw [hreq] at hm
      cases hm
      exact .inr List.mem_cons_self
    · exact .inl ((Function.update_of_ne he _ _).trans hm)
  · rcases List.mem_cons.mp hp with rfl | hp
    · exact .inl ⟨m, h.requested hreq, rfl⟩
    · exact h.only hp

theorem consumed (h : Listed s log ring) {i : Nat} {req : ResetDeviceResources} {v : PortScReg}
    (hreq : s.portReq i = some req) (hnone : s.ongoing = none) :
    Listed
      { s with
        portReq := Function.update s.portReq i none
        ongoing := some ⟨req, i, .waitingToStopReset⟩ } (log ++ [.consumed i req, .wrote i v]) ring := by
  refine h.mono (by simp [ResetEvent.isLoaded]) (fun _ hm => ?_) id .inl (fun _ => id) (fun _ ha => ?_)
    fun hp => ?_
  · rw [lent_append]
    exact hm
  · rcases ha with ⟨j, req', hreq', he⟩ | ⟨r, hr, he⟩
    · exact .inl ⟨j, req', (update_none_cases hreq').2, he⟩
    · cases hr
      exact .inl ⟨i, req, hreq, he⟩
  · refine (h.only hp).imp id ?_
    rintro ⟨r, addr, hr, -⟩
    rw [hnone] at hr
    cases hr

/-! ## The reset in progress -/

section Progress

variable {rds : ResetReadings} {r : OngoingReset}

theorem isLoaded_read {l : List ResetEvent} (hl : ∀ e ∈ l, e.isLoaded = false) :
    ∀ e ∈ disconnectedEvents rds r ++ l, e.isLoaded = false := by
  intro e he
  rcases List.mem_append.mp he with he | he
  · unfold disconnectedEvents at he
    split at he
    · cases he
    · rw [List.mem_singleton.mp he]
      rfl
  · exact hl e he

theorem setStage (h : Listed s log ring) {stage : ResetStage} (hr : s.ongoing = some r)
    (hl : ∀ e ∈ l, e.isLoaded = false) (hlent : EzEhci.lent (log ++ l) = EzEhci.lent log)
    (hongoing : s'.ongoing = some { r with stage }) (hport : s'.portReq = s.portReq)
    (hreq : s'.controlReq = s.controlReq)
    (hring : ∀ {p : Ptr}, p ≠ r.req.qh.ptr → (p ∈ ring' ↔ p ∈ ring))
    (hself : r.req.qh.ptr ∈ ring' → ∃ addr, stage = .waitForSetAddr addr) :
    Listed s' (log ++ l) ring' := by
  refine h.mono hl (fun _ hm => hlent ▸ hm) (fun hm => hreq ▸ hm) (fun hm => .inl (hreq ▸ hm))
    (fun hm hp => (hring (h.ne_of_ongoing hm hr)).mpr hp) (fun _ ha => ?_) fun {p} hp => ?_
  · rcases ha with ⟨i, req, hreq, he⟩ | ⟨r', hr', he⟩
    · exact .inl ⟨i, req, hport ▸ hreq, he⟩
    · rw [hongoing] at hr'
      cases hr'
      exact .inr ⟨r, hr, he⟩
  · by_cases hq : p = r.req.qh.ptr
    · subst hq
      obtain ⟨addr, rfl⟩ := hself hp
      exact .inr ⟨_, addr, hongoing, rfl, rfl⟩
    · refine (h.only ((hring hq).mp hp)).imp id ?_
      rintro ⟨r', addr, hr', -, he⟩
      rw [hr] at hr'
      cases hr'
      exact absurd he.symm hq

/-- The reset is answered: its queue head is not linked. -/
theorem answered (h : Listed s log ring) (hr : s.ongoing = some r)
    (hstage : ∀ addr, r.stage ≠ .waitForSetAddr addr) (hl : ∀ e ∈ l, e.isLoaded = false)
    (hlent : EzEhci.lent (log ++ l) = (EzEhci.lent log).filter (· ≠ r.req.qh.ptr))
    (hongoing : s'.ongoing = none) (hport : s'.portReq = s.portReq)
    (hreq : ∀ {e : ControlEpId} {m : MappedMem}, s'.controlReq e = some m → s.controlReq e = some m)
    (hkept : ∀ {e : ControlEpId} {m : MappedMem}, s.controlReq e = some m → s'.controlReq e = some m) :
    Listed s' (log ++ l) ring := by
  refine h.mono hl (fun hm hp => ?_) hreq (fun hm => .inl (hkept hm)) (fun _ => id) (fun _ ha => ?_)
    fun hp => (h.only hp).imp id ?_
  · rw [hlent, List.mem_filter]
    exact ⟨hp, decide_eq_true (h.ne_of_ongoing hm hr)⟩
  · rcases ha with ⟨i, req, hreq, he⟩ | ⟨r', hr', -⟩
    · exact .inl ⟨i, req, hport ▸ hreq, he⟩
    · rw [hongoing] at hr'
      cases hr'
  · rintro ⟨r', addr, hr', hstage', -⟩
    rw [hr] at hr'
    cases hr'
    exact absurd hstage' (hstage addr)

theorem mem_unlinked (ho : Owned dma s log ring) {addr : BitVec 7} (hr : s.ongoing = some r)
    (hstage : r.stage = .waitForSetAddr addr) {async : AsyncState}
    (hasync : async = queueRemoveQh s.async r.req.qh s.nextSender)
    (hrep : RingRep dma async.mgr.ctrlDsSegment async.heap async.mgr.anchorQh.ptr ring') {p : Ptr} :
    p ∈ ring' ↔ p ∈ ring ∧ p ≠ r.req.qh.ptr := by
  obtain ⟨hanchor, hseg, hheap⟩ := Owned.queueRemoveQh_frame s.async r.req.qh s.nextSender
  subst hasync
  rw [hanchor, hseg, hheap] at hrep
  obtain ⟨l₁, l₂, rfl⟩ := List.append_of_mem (ho.linked hr hstage)
  have hrep' := ho.rep.remove
  have hq : r.req.qh.ptr ∉ l₁ ++ l₂ :=
    (List.nodup_cons.mp (List.nodup_middle.mp (List.nodup_cons.mp ho.rep.nodup).2)).1
  have hsame : p ∈ ring' ↔ p ∈ l₁ ++ l₂ := by
    have hmem : p ∈ s.async.mgr.anchorQh.ptr :: ring' ↔ p ∈ s.async.mgr.anchorQh.ptr :: (l₁ ++ l₂) :=
      hrep.mem_iff_linked.trans hrep'.mem_iff_linked.symm
    have hnot := (List.nodup_cons.mp hrep.nodup).1
    have hnot' := (List.nodup_cons.mp hrep'.nodup).1
    rw [List.mem_cons, List.mem_cons] at hmem
    by_cases hp : p = s.async.mgr.anchorQh.ptr
    · subst hp
      exact iff_of_false hnot hnot'
    · simpa [hp] using hmem
  rw [hsame]
  constructor
  · intro hp
    refine ⟨?_, fun he => hq (he ▸ hp)⟩
    exact List.mem_append.mpr ((List.mem_append.mp hp).imp_right (List.mem_cons_of_mem _))
  · rintro ⟨hp, hne⟩
    simpa [hne] using hp

theorem progress (h : Listed s log ring) (ho : Owned dma s log ring) (hr : s.ongoing = some r)
    (hs : ResetProgress s rds r l s')
    (hkept : ∀ {e : ControlEpId} {m : MappedMem}, s.controlReq e = some m → s'.controlReq e = some m) :
    ∃ ring', Owned dma s' (log ++ (disconnectedEvents rds r ++ l)) ring' ∧
      Listed s' (log ++ (disconnectedEvents rds r ++ l)) ring' := by
  have hread : ∀ {l : List ResetEvent}, EzEhci.lent (log ++ l) = EzEhci.lent log →
      EzEhci.lent (log ++ (disconnectedEvents rds r ++ l)) = EzEhci.lent log :=
    fun hl => (Owned.lent_disconnected ..).trans hl
  have hanswer : ∀ {i : Nat} {result : Except DriverError Device} {heap : Heap QhWithMetaA},
      EzEhci.lent (log ++ (disconnectedEvents rds r ++ [.answered i r.req result heap])) =
        (EzEhci.lent log).filter (· ≠ r.req.qh.ptr) := by
    intro i result heap
    rw [Owned.lent_disconnected, lent_append]
    rfl
  have hsame : ∀ {p : Ptr}, p ≠ r.req.qh.ptr → (p ∈ ring ↔ p ∈ ring) := fun _ => Iff.rfl
  -- unless its transfer runs, the queue head of the reset is not linked
  have hfree : (∀ addr, r.stage ≠ .waitForSetAddr addr) → r.req.qh.ptr ∉ ring := fun hstage hmem =>
    ho.not_mem_ring (.reset hr hstage) nofun (List.mem_cons_of_mem _ hmem)
  cases hs with
  | disconnected hstage hread =>
    have hstage : ∀ addr, r.stage ≠ .waitForSetAddr addr := by
      rcases hstage with hstage | hstage <;> simp [hstage]
    refine ⟨ring, ho.answered hr hstage hanswer, ?_⟩
    exact h.answered hr hstage (isLoaded_read (by simp [ResetEvent.isLoaded])) hanswer rfl rfl id hkept
  | fullSpeed hstage hread =>
    have hstage : ∀ addr, r.stage ≠ .waitForSetAddr addr := by simp [hstage]
    refine ⟨ring, ho.answered hr hstage hanswer, ?_⟩
    exact h.answered hr hstage (isLoaded_read (by simp [ResetEvent.isLoaded])) hanswer rfl rfl id hkept
  | removed addr sender device e hstage hsent hdevice ports hports hsorted =>
    have hstage : ∀ addr, r.stage ≠ .waitForSetAddr addr := by simp [hstage]
    have ho' : Owned dma (s.answer r.rootPort (.ok device))
        (log ++ (disconnectedEvents rds r ++ [.answered r.rootPort r.req (.ok device) s.async.heap])) ring :=
      ho.answered hr hstage hanswer
    refine ⟨ring, { ho'.dropControl e with }, ?_⟩
    exact h.answered hr hstage (isLoaded_read (by simp [ResetEvent.isLoaded])) hanswer rfl rfl
      (fun hm => (update_none_cases hm).2) hkept
  | resetDone v hstage hread' hv =>
    have hold : ∀ addr, r.stage ≠ .waitForSetAddr addr := by simp [hstage]
    have hlent := hread (l := [.wrote r.rootPort v]) (by rw [lent_append]; rfl)
    refine ⟨ring, (ho.setStage hr hold (by simp)).record hlent, ?_⟩
    exact h.setStage hr (isLoaded_read (by simp [ResetEvent.isLoaded])) hlent rfl rfl rfl hsame
      fun hmem => absurd hmem (hfree hold)
  | enabled alloc addr prepared async hstage hread' halloc hasync =>
    have hlent := hread (l := [.assigned r.rootPort addr]) (by rw [lent_append]; rfl)
    refine ⟨_, (ho.enabled hr (by simp [hstage]) hasync).record hlent, ?_⟩
    exact h.setStage hr (isLoaded_read (by simp [ResetEvent.isLoaded])) hlent rfl rfl rfl
      (fun hp => by simp [hp]) fun _ => ⟨addr, rfl⟩
  | addressed addr hstage hread' =>
    have hlent := hread (l := [.statusInactive r.req, .removalQueued r.req s.nextSender])
      (by rw [lent_append]; rfl)
    obtain ⟨ring', ho'⟩ := ho.addressed hr hstage
    refine ⟨ring', ho'.record hlent, ?_⟩
    have hmem : ∀ {p : Ptr}, p ∈ ring' ↔ p ∈ ring ∧ p ≠ r.req.qh.ptr :=
      mem_unlinked ho hr hstage rfl ho'.rep
    exact h.setStage hr (isLoaded_read (by simp [ResetEvent.isLoaded])) hlent rfl rfl rfl
      (fun hp => by simp [hmem, hp]) fun hp => absurd rfl (hmem.mp hp).2
  | waits hwait =>
    have hlent := hread (l := [.pollEnded]) (by rw [lent_append]; rfl)
    exact ⟨ring, ho.record hlent,
      h.record (isLoaded_read (by simp [ResetEvent.isLoaded])) hlent rfl rfl rfl⟩

end Progress

/-- **Every step keeps the ring to what was loaded and not taken back**, if it drops no request. -/
theorem step (h : Listed s log ring) (ho : Owned dma s log ring) {o : Option ResetReadings}
    (hs : ResetStep dma log s o l s')
    (hkept : l ≠ [] → ∀ {e : ControlEpId} {m : MappedMem}, s.controlReq e = some m →
      s'.controlReq e = some m) :
    ∃ ring', Owned dma s' (log ++ l) ring' ∧ Listed s' (log ++ l) ring' := by
  have hnil : EzEhci.lent (log ++ []) = EzEhci.lent log := by rw [List.append_nil]
  cases hs with
  | quiet => exact ⟨ring, ho.record hnil, h.record nofun hnil rfl rfl rfl⟩
  | called i req hfresh hidle => exact ⟨ring, ho.called hfresh, h.called hfresh⟩
  | returned i result hactive hres =>
    have ho' : Owned dma { s with portRes := Function.update s.portRes i none } log ring := { ho with }
    have hlent : EzEhci.lent (log ++ [.returned i result]) = EzEhci.lent log := by
      rw [lent_append]
      rfl
    exact ⟨ring, ho'.record hlent, h.record (by simp [ResetEvent.isLoaded]) hlent rfl rfl rfl⟩
  | dropped i hactive =>
    have hlent : EzEhci.lent (log ++ [.dropped i]) = EzEhci.lent log := by
      rw [lent_append]
      rfl
    exact ⟨ring, ho.record hlent, h.record (by simp [ResetEvent.isLoaded]) hlent rfl rfl rfl⟩
  | loaded e m prepared hfresh =>
    refine ⟨ring, ho.loaded prepared hfresh, h.loaded ho prepared hfresh ?_⟩
    -- a request that is there already would be replaced by the new one
    by_contra hsome
    obtain ⟨m', hm'⟩ := Option.ne_none_iff_exists'.mp hsome
    have hkept' : Function.update s.controlReq e (some m) e = some m' := hkept (List.cons_ne_nil _ _) hm'
    rw [Function.update_self] at hkept'
    cases hkept'
    exact hfresh.2.2 (h.lent (h.requested hm'))
  | watched =>
    have ho' : Owned dma { s with nextSender := s.nextSender + 1 } log ring := { ho with }
    exact ⟨ring, ho'.record hnil, h.record nofun hnil rfl rfl rfl⟩
  | fired =>
    have hlent := Owned.lent_fired log s.async.mgr.qhsRemovedBeforeDoorbell
    exact ⟨ring, ho.fired.record hlent, h.record (by simp [ResetEvent.isLoaded]) hlent rfl rfl rfl⟩
  | control e m async hreq hasync =>
    exact ⟨_, (ho.control hreq hasync).record hnil, h.control async hreq⟩
  | consumed i req v hreq hnone hi hv =>
    exact ⟨ring, (ho.consumed hreq).record (by rw [lent_append]; rfl), h.consumed hreq hnone⟩
  | ended hnone =>
    have hlent : EzEhci.lent (log ++ [.pollEnded]) = EzEhci.lent log := by
      rw [lent_append]
      rfl
    exact ⟨ring, ho.record hlent, h.record (by simp [ResetEvent.isLoaded]) hlent rfl rfl rfl⟩
  | progress hr hprogress =>
    refine h.progress ho hr hprogress (hkept fun hl => ?_)
    cases hprogress <;> simp at hl

end Listed

end EzEhci
