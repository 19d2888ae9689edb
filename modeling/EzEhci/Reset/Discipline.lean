import EzEhci.Lib.Trace
import EzEhci.Reset.Ownership
import EzEhci.Reset.Refine

/-!
# The discipline of the reset protocol

One reset at a time: between the request the runner takes and its answer no
other request is taken, the port's reset is asserted for that request only, and
a device is answered once its address transfer was seen complete and the
callback of its queue head's removal fired. At an answer the queue head of the
request is not linked. `Permits` states this event by event; `Disciplined` is
the invariant behind it.
-/

namespace EzEhci

open Lib AsyncListManager

/-! ## What a record says -/

/-- The requests that were taken and not answered. -/
def openEvent (l : List (Nat × ResetDeviceResources)) : ResetEvent → List (Nat × ResetDeviceResources)
  | .consumed i req => l ++ [(i, req)]
  | .answered i req _ _ => l.erase (i, req)
  | _ => l

def openReqs (log : List ResetEvent) : List (Nat × ResetDeviceResources) := log.foldl openEvent []

/-- The ports between the assertion of `port_reset` and the answer. -/
def resetEvent (l : List Nat) : ResetEvent → List Nat
  | .wrote i v => if v.portReset ∧ i ∉ l then i :: l else l
  | .answered i _ _ _ => l.filter (· ≠ i)
  | _ => l

def inReset (log : List ResetEvent) : List Nat := log.foldl resetEvent []

/-- The events since a request was last taken. -/
def sinceEvent (l : List ResetEvent) : ResetEvent → List ResetEvent
  | .consumed _ _ => []
  | e => l ++ [e]

def sinceConsumed (log : List ResetEvent) : List ResetEvent := log.foldl sinceEvent []

/-- What the protocol permits after the events `l`. -/
def Permits (dma : Dma) (seg : CtrlDsSegment) (anchor : Ptr) (l : List ResetEvent) : ResetEvent → Prop
  | .consumed _ _ => openReqs l = []
  | .wrote i _ => ∃ req, openReqs l = [(i, req)]
  | .answered i req result heap =>
    openReqs l = [(i, req)] ∧ ¬ AsyncLinked dma seg heap anchor req.qh.ptr ∧
      ∀ device, result = .ok device →
        ∃ x, [.statusInactive req, .removalQueued req x, .fired x].Sublist (sinceConsumed l)
  | _ => True

/-- Every event is permitted, and at most one port is in reset. -/
structure ResetDiscipline (dma : Dma) (seg : CtrlDsSegment) (anchor : Ptr) (log : List ResetEvent) :
    Prop where
  permitted : ∀ l e, l ++ [e] <+: log → Permits dma seg anchor l e
  exclusive : ∀ l, l <+: log → (inReset l).length ≤ 1

/-! ## Events that concern no request -/

section Record

variable {dma : Dma} {seg : CtrlDsSegment} {anchor : Ptr} {log l : List ResetEvent} {e : ResetEvent}

theorem openReqs_append (log l : List ResetEvent) : openReqs (log ++ l) = l.foldl openEvent (openReqs log) :=
  List.foldl_append

theorem inReset_append (log l : List ResetEvent) : inReset (log ++ l) = l.foldl resetEvent (inReset log) :=
  List.foldl_append

theorem sinceConsumed_append (log l : List ResetEvent) :
    sinceConsumed (log ++ l) = l.foldl sinceEvent (sinceConsumed log) :=
  List.foldl_append

theorem openReqs_neutral (hl : ∀ e ∈ l, e.neutral = true) : openReqs (log ++ l) = openReqs log := by
  rw [openReqs_append]
  refine foldl_of_neutral fun e he => ?_
  cases e <;> first | rfl | cases hl _ he

theorem inReset_neutral (hl : ∀ e ∈ l, e.neutral = true) : inReset (log ++ l) = inReset log := by
  rw [inReset_append]
  refine foldl_of_neutral fun e he => ?_
  cases e <;> first | rfl | cases hl _ he

theorem sinceConsumed_neutral (hl : ∀ e ∈ l, e.neutral = true) :
    sinceConsumed (log ++ l) = sinceConsumed log ++ l := by
  rw [sinceConsumed_append]
  refine foldl_of_kept fun e he s => ?_
  cases e <;> first | rfl | cases hl _ he

/-- An event is permitted and leaves at most one port in reset. -/
def Keeps (dma : Dma) (seg : CtrlDsSegment) (anchor : Ptr) (l : List ResetEvent) (e : ResetEvent) : Prop :=
  Permits dma seg anchor l e ∧ (inReset (l ++ [e])).length ≤ 1

theorem each_neutral (hl : ∀ e ∈ l, e.neutral = true) (hone : (inReset log).length ≤ 1) :
    Each (Keeps dma seg anchor) log l := by
  induction l generalizing log with
  | nil => trivial
  | cons e l ih =>
    have he : ∀ e' ∈ [e], e'.neutral = true := fun e' h => hl e' (List.mem_cons.mpr (.inl (List.mem_singleton.mp h)))
    have hone' : (inReset (log ++ [e])).length ≤ 1 := by rwa [inReset_neutral he]
    refine ⟨⟨?_, hone'⟩, ih (fun e he => hl e (List.mem_cons_of_mem _ he)) hone'⟩
    have hneutral := hl e List.mem_cons_self
    cases e <;> trivial

theorem ResetDiscipline.of_each (h : Each (Keeps dma seg anchor) [] log) :
    ResetDiscipline dma seg anchor log where
  permitted l e hl := (h.at hl).1
  exclusive l hl := by
    rcases List.eq_nil_or_concat l with rfl | ⟨l, e, rfl⟩
    · exact Nat.zero_le 1
    · rw [List.concat_eq_append] at hl ⊢
      exact (h.at hl).2

end Record

/-! ## The invariant -/

def ResetState.openReq (s : ResetState) : List (Nat × ResetDeviceResources) :=
  s.ongoing.toList.map fun r => (r.rootPort, r.req)

/-- What was seen of the removal that the reset in progress waits for. -/
def RemovalSeen (s : ResetState) (log : List ResetEvent) : Prop :=
  ∀ r addr x, s.ongoing = some r → r.stage = .waitForQhRemove addr x →
    x < s.nextSender ∧ [.statusInactive r.req, .removalQueued r.req x].Sublist (sinceConsumed log) ∧
    (x ∈ s.async.sent →
      [.statusInactive r.req, .removalQueued r.req x, .fired x].Sublist (sinceConsumed log))

/-- What holds between the steps of the protocol. -/
structure Disciplined (dma : Dma) (seg : CtrlDsSegment) (anchor : Ptr) (log : List ResetEvent)
    (s : ResetState) : Prop where
  kept : Each (Keeps dma seg anchor) [] log
  opened : openReqs log = s.openReq
  resets : inReset log = [] ∨ ∃ r, s.ongoing = some r ∧ inReset log = [r.rootPort]
  senders : ∀ x ∈ s.async.senders, x < s.nextSender
  removal : RemovalSeen s log
  anchor_eq : s.async.mgr.anchorQh.ptr = anchor
  seg_eq : s.async.mgr.ctrlDsSegment = seg
  owned : ∃ ring, Owned dma s log ring

namespace Disciplined

variable {dma : Dma} {seg : CtrlDsSegment} {anchor : Ptr} {log l : List ResetEvent} {s s' : ResetState}

theorem one_reset (h : Disciplined dma seg anchor log s) : (inReset log).length ≤ 1 := by
  rcases h.resets with hr | ⟨r, -, hr⟩
  · rw [hr]
    exact Nat.zero_le 1
  · rw [hr]
    exact Nat.le_refl 1

theorem neutral (h : Disciplined dma seg anchor log s) {o : Option ResetReadings}
    (hs : ResetStep dma log s o l s') (hl : ∀ e ∈ l, e.neutral = true)
    (hongoing : s'.ongoing.map (fun r => (r.rootPort, r.req)) = s.ongoing.map fun r => (r.rootPort, r.req))
    (hsenders : ∀ x ∈ s'.async.senders, x < s'.nextSender) (hremoval : RemovalSeen s' (log ++ l))
    (hanchor : s'.async.mgr.anchorQh = s.async.mgr.anchorQh)
    (hseg : s'.async.mgr.ctrlDsSegment = s.async.mgr.ctrlDsSegment) :
    Disciplined dma seg anchor (log ++ l) s' where
  kept := h.kept.record (each_neutral hl h.one_reset)
  opened := by
    rw [openReqs_neutral hl, h.opened, ResetState.openReq, ResetState.openReq]
    rw [← Option.toList_map, ← Option.toList_map, hongoing]
  resets := by
    rw [inReset_neutral hl]
    refine h.resets.imp_right fun ⟨r, hr, he⟩ => ?_
    rw [hr, Option.map_some] at hongoing
    obtain ⟨r', hr', he'⟩ := Option.map_eq_some_iff.mp hongoing
    exact ⟨r', hr', by rw [he, (Prod.mk.inj he').1]⟩
  senders := hsenders
  removal := hremoval
  anchor_eq := hanchor ▸ h.anchor_eq
  seg_eq := hseg ▸ h.seg_eq
  owned := by
    obtain ⟨ring, hring⟩ := h.owned
    exact hring.step hs

theorem removalSeen_mono (h : RemovalSeen s log) (hl : ∀ e ∈ l, e.neutral = true)
    (hongoing : s'.ongoing = s.ongoing) (hsent : s'.async.sent = s.async.sent)
    (hnext : s.nextSender ≤ s'.nextSender) : RemovalSeen s' (log ++ l) := by
  intro r addr x hr hstage
  obtain ⟨hx, hseen, hfired⟩ := h r addr x (hongoing ▸ hr) hstage
  rw [sinceConsumed_neutral hl, hsent]
  exact ⟨hx.trans_le hnext, hseen.trans (List.sublist_append_left _ _),
    fun hmem => (hfired hmem).trans (List.sublist_append_left _ _)⟩

theorem removalSeen_of_stage
    (h : ∀ r addr x, s'.ongoing = some r → r.stage ≠ .waitForQhRemove addr x) : RemovalSeen s' log :=
  fun r addr x hr hstage => absurd hstage (h r addr x hr)

theorem fired (h : Disciplined dma seg anchor log s) :
    Disciplined dma seg anchor (log ++ s.async.mgr.qhsRemovedBeforeDoorbell.map .fired)
      { s with async := handleAsyncAdvance s.async } := by
  obtain ⟨hanchor, hseg, -⟩ := Owned.handleAsyncAdvance_frame s.async
  refine h.neutral .fired (neutral_fired _) rfl ?_ ?_ hanchor hseg
  · rw [senders_handleAsyncAdvance]
    exact h.senders
  · intro r addr x hr hstage
    obtain ⟨hx, hseen, hfired⟩ := h.removal r addr x hr hstage
    rw [sinceConsumed_neutral (neutral_fired _), sent_handleAsyncAdvance]
    refine ⟨hx, hseen.trans (List.sublist_append_left _ _), fun hmem => ?_⟩
    rcases List.mem_append.mp hmem with hmem | hmem
    · exact (hfired hmem).trans (List.sublist_append_left _ _)
    · exact hseen.append (List.singleton_sublist.mpr (List.mem_map_of_mem hmem))

theorem consumed (h : Disciplined dma seg anchor log s) {i : Nat} {req : ResetDeviceResources}
    {v : PortScReg} (hreq : s.portReq i = some req) (hnone : s.ongoing = none) (hi : i < 16)
    (hv : v.portReset = true) :
    Disciplined dma seg anchor (log ++ [.consumed i req, .wrote i v])
      { s with
        portReq := Function.update s.portReq i none
        ongoing := some ⟨req, i, .waitingToStopReset⟩ } := by
  have hopen : openReqs log = [] := by rw [h.opened, ResetState.openReq, hnone]; rfl
  have hopen' : openReqs (log ++ [.consumed i req]) = [(i, req)] := by
    rw [openReqs_append, hopen]
    rfl
  have hreset : inReset log = [] := by
    rcases h.resets with hr | ⟨r, hr, -⟩
    · exact hr
    · rw [hnone] at hr
      cases hr
  have hreset' : inReset (log ++ [.consumed i req, .wrote i v]) = [i] := by
    rw [inReset_append, hreset]
    simp [resetEvent, hv]
  have hkept : Each (Keeps dma seg anchor) log [.consumed i req, .wrote i v] := by
    refine ⟨⟨hopen, ?_⟩, ⟨⟨req, hopen'⟩, ?_⟩, trivial⟩
    · rw [inReset_append, hreset]
      exact Nat.zero_le 1
    · rw [List.append_assoc, List.singleton_append, hreset']
      exact Nat.le_refl 1
  obtain ⟨ring, hring⟩ := h.owned
  exact {
    kept := h.kept.record hkept
    opened := by
      rw [openReqs_append, hopen]
      rfl
    resets := .inr ⟨_, rfl, hreset'⟩
    senders := h.senders
    removal := removalSeen_of_stage (by rintro r addr x ⟨⟩ ⟨⟩)
    anchor_eq := h.anchor_eq
    seg_eq := h.seg_eq
    owned := hring.step (.consumed i req v hreq hnone hi hv) }

theorem answered (h : Disciplined dma seg anchor log s) {r : OngoingReset}
    {result : Except DriverError Device} (hr : s.ongoing = some r)
    (hstage : ∀ addr, r.stage ≠ .waitForSetAddr addr)
    (hok : ∀ device, result = .ok device →
      ∃ x, [.statusInactive r.req, .removalQueued r.req x, .fired x].Sublist (sinceConsumed log))
    (hnone : s'.ongoing = none) (hasync : s'.async = s.async) (hnext : s'.nextSender = s.nextSender)
    (howned : ∃ ring, Owned dma s' (log ++ [.answered r.rootPort r.req result s.async.heap]) ring) :
    Disciplined dma seg anchor (log ++ [.answered r.rootPort r.req result s.async.heap]) s' := by
  obtain ⟨ring, hring⟩ := h.owned
  have hopen : openReqs log = [(r.rootPort, r.req)] := by rw [h.opened, ResetState.openReq, hr]; rfl
  have hlinked : ¬ AsyncLinked dma seg s.async.heap anchor r.req.qh.ptr := by
    rw [← h.anchor_eq, ← h.seg_eq]
    exact hring.not_linked hr hstage
  have hreset : inReset (log ++ [.answered r.rootPort r.req result s.async.heap]) = [] := by
    rw [inReset_append]
    rcases h.resets with he | ⟨r', hr', he⟩
    · simp [he, resetEvent]
    · rw [hr] at hr'
      cases hr'
      simp [he, resetEvent]
  exact {
    kept := h.kept.record ⟨⟨⟨hopen, hlinked, hok⟩, by rw [hreset]; exact Nat.zero_le 1⟩, trivial⟩
    opened := by
      rw [openReqs_append, hopen, ResetState.openReq, hnone]
      simp [openEvent]
    resets := .inl hreset
    senders := by rw [hasync, hnext]; exact h.senders
    removal := removalSeen_of_stage fun r' addr x hr' => by rw [hnone] at hr'; cases hr'
    anchor_eq := by rw [hasync]; exact h.anchor_eq
    seg_eq := by rw [hasync]; exact h.seg_eq
    owned := howned }

theorem read (h : Disciplined dma seg anchor log s) (rds : ResetReadings) (r : OngoingReset) :
    Disciplined dma seg anchor (log ++ disconnectedEvents rds r) s := by
  obtain ⟨ring, hring⟩ := h.owned
  have hl := neutral_disconnected rds r
  refine { h with
    kept := h.kept.record (each_neutral hl h.one_reset)
    opened := (openReqs_neutral hl).trans h.opened
    resets := by rw [inReset_neutral hl]; exact h.resets
    removal := removalSeen_mono h.removal hl rfl rfl (Nat.le_refl _)
    owned := ⟨ring, hring.record ?_⟩ }
  have := Owned.lent_disconnected log [] rds r
  rwa [List.append_nil, List.append_nil] at this

theorem addressed (h : Disciplined dma seg anchor log s) {rds : ResetReadings} {r : OngoingReset}
    {addr : BitVec 7} (hr : s.ongoing = some r) (hstage : r.stage = .waitForSetAddr addr)
    (hread : rds.statusToken.active = false) :
    Disciplined dma seg anchor
      (log ++ (disconnectedEvents rds r ++ [.statusInactive r.req, .removalQueued r.req s.nextSender]))
      { s.setStage r (.waitForQhRemove addr s.nextSender) with
        async := queueRemoveQh s.async r.req.qh s.nextSender
        nextSender := s.nextSender + 1 } := by
  have hstep : ResetStep dma log s _ _ _ := .progress hr (.addressed addr hstage hread)
  have hl : ∀ e ∈ disconnectedEvents rds r ++
      [.statusInactive r.req, .removalQueued r.req s.nextSender], e.neutral = true := by
    refine neutral_read rds r fun e he => ?_
    rcases List.mem_pair.mp he with rfl | rfl <;> rfl
  obtain ⟨hanchor, hseg, -⟩ := Owned.queueRemoveQh_frame s.async r.req.qh s.nextSender
  refine h.neutral hstep hl ?_ ?_ ?_ hanchor hseg
  · rw [hr]
    rfl
  · intro x hx
    rcases mem_senders_queueRemoveQh _ _ _ hx with hx | rfl
    · exact Nat.lt_succ_of_lt (h.senders x hx)
    · exact Nat.lt_succ_self _
  · intro r' addr' x hr' hstage'
    cases hr'
    cases hstage'
    rw [sinceConsumed_neutral hl, sent_queueRemoveQh]
    refine ⟨Nat.lt_succ_self _, ?_, fun hsent => ?_⟩
    · exact (List.sublist_append_right _ _).trans (List.sublist_append_right _ _)
    · -- the sender is new, so it was not fired before
      exact absurd (h.senders _ (List.mem_append_left _ hsent)) (Nat.lt_irrefl _)

theorem progress (h : Disciplined dma seg anchor log s) {rds : ResetReadings} {r : OngoingReset}
    (hr : s.ongoing = some r) (hs : ResetProgress s rds r l s') :
    Disciplined dma seg anchor (log ++ (disconnectedEvents rds r ++ l)) s' := by
  have hstep : ResetStep dma log s (some rds) (disconnectedEvents rds r ++ l) s' := .progress hr hs
  have howned : ∃ ring, Owned dma s' (log ++ disconnectedEvents rds r ++ l) ring := by
    obtain ⟨ring, hring⟩ := h.owned
    rw [List.append_assoc]
    exact hring.step hstep
  have h' := h.read rds r
  cases hs with
  | disconnected hstage hread =>
    rw [← List.append_assoc]
    refine h'.answered hr ?_ nofun rfl rfl rfl howned
    rcases hstage with hstage | hstage <;> simp [hstage]
  | resetDone v hstage hread hv =>
    have hopen : openReqs (log ++ disconnectedEvents rds r) = [(r.rootPort, r.req)] := by
      rw [h'.opened, ResetState.openReq, hr]
      rfl
    have hreset : inReset (log ++ disconnectedEvents rds r ++ [.wrote r.rootPort v]) =
        inReset (log ++ disconnectedEvents rds r) := by
      rw [inReset_append]
      simp [resetEvent, hv]
    rw [← List.append_assoc]
    refine { h' with
      kept := h'.kept.record ⟨⟨⟨r.req, hopen⟩, ?_⟩, trivial⟩
      opened := ?_
      resets := ?_
      removal := removalSeen_of_stage (by rintro r' addr x ⟨⟩ ⟨⟩)
      owned := howned }
    · rw [hreset]
      exact h'.one_reset
    · rw [openReqs_append, hopen]
      rfl
    · rw [hreset]
      refine h'.resets.imp_right fun ⟨r', hr', he⟩ => ⟨_, rfl, ?_⟩
      rw [hr] at hr'
      cases hr'
      exact he
  | fullSpeed hstage hread =>
    rw [← List.append_assoc]
    exact h'.answered hr (by simp [hstage]) nofun rfl rfl rfl howned
  | enabled alloc addr prepared async hstage hread halloc hasync =>
    have hl : ∀ e ∈ disconnectedEvents rds r ++ [.assigned r.rootPort addr], e.neutral = true :=
      neutral_read rds r (neutral_singleton rfl)
    obtain ⟨heap, rfl⟩ := RunnerWorld.addQhToAsyncList_eq_some hasync
    refine h.neutral hstep hl ?_ h.senders (removalSeen_of_stage ?_) rfl rfl
    · rw [hr]
      rfl
    · rintro r' addr x ⟨⟩ ⟨⟩
  | addressed addr hstage hread => exact h.addressed hr hstage hread
  | removed addr sender device e hstage hsent hdevice ports hports hsorted =>
    rw [← List.append_assoc]
    refine h'.answered hr (by simp [hstage]) (fun _ _ => ⟨sender, ?_⟩) rfl rfl rfl howned
    exact (h'.removal r addr sender hr hstage).2.2 hsent
  | waits hwait =>
    have hl : ∀ e ∈ disconnectedEvents rds r ++ [.pollEnded], e.neutral = true :=
      neutral_read rds r (neutral_singleton rfl)
    exact h.neutral hstep hl rfl h.senders (removalSeen_mono h.removal hl rfl rfl (Nat.le_refl _)) rfl rfl

/-- **Every step of the protocol keeps the discipline.** -/
theorem step (h : Disciplined dma seg anchor log s) {o : Option ResetReadings}
    (hs : ResetStep dma log s o l s') :
    Disciplined dma seg anchor (log ++ l) s' := by
  have hkeep : ∀ {l : List ResetEvent} {t : ResetState}, (∀ e ∈ l, e.neutral = true) →
      t.ongoing = s.ongoing → t.async.sent = s.async.sent → s.nextSender ≤ t.nextSender →
      RemovalSeen t (log ++ l) :=
    fun hl ho hsent hnext => removalSeen_mono h.removal hl ho hsent hnext
  cases hs with
  | quiet => exact h.neutral .quiet nofun rfl h.senders (hkeep nofun rfl rfl (Nat.le_refl _)) rfl rfl
  | called i req hfresh hidle =>
    exact h.neutral (.called i req hfresh hidle) (neutral_singleton rfl) rfl h.senders
      (hkeep (neutral_singleton rfl) rfl rfl (Nat.le_refl _)) rfl rfl
  | returned i result hactive hres =>
    exact h.neutral (.returned i result hactive hres) (neutral_singleton rfl) rfl h.senders
      (hkeep (neutral_singleton rfl) rfl rfl (Nat.le_refl _)) rfl rfl
  | dropped i hactive =>
    exact h.neutral (.dropped i hactive) (neutral_singleton rfl) rfl h.senders
      (hkeep (neutral_singleton rfl) rfl rfl (Nat.le_refl _)) rfl rfl
  | loaded e m prepared hfresh =>
    exact h.neutral (.loaded e m prepared hfresh) (neutral_singleton rfl) rfl h.senders
      (hkeep (neutral_singleton rfl) rfl rfl (Nat.le_refl _)) rfl rfl
  | watched =>
    exact h.neutral .watched nofun rfl (fun x hx => Nat.lt_succ_of_lt (h.senders x hx))
      (hkeep nofun rfl rfl (Nat.le_succ _)) rfl rfl
  | fired => exact h.fired
  | control e m async hreq hasync =>
    have hstep : ResetStep dma log s _ _ _ := .control e m async hreq hasync
    obtain ⟨heap, rfl⟩ := RunnerWorld.addQhToAsyncList_eq_some hasync
    exact h.neutral hstep nofun rfl h.senders (hkeep nofun rfl rfl (Nat.le_refl _)) rfl rfl
  | consumed i req v hreq hnone hi hv => exact h.consumed hreq hnone hi hv
  | ended hnone =>
    exact h.neutral (.ended hnone) (neutral_singleton rfl) rfl h.senders
      (hkeep (neutral_singleton rfl) rfl rfl (Nat.le_refl _)) rfl rfl
  | progress hr hprogress => exact h.progress hr hprogress

end Disciplined

/-! ## Runs -/

section Runs

variable {W : Type} [Wakers W] {dma : Dma} {oc : OverflowChecks} {nPorts : Nat} {s₀ s : ResetWorld W}

omit [Wakers W] in
theorem ResetWorld.Begun.disciplined (h : s₀.Begun dma nPorts) :
    Disciplined dma s₀.state.async.mgr.ctrlDsSegment s₀.state.async.mgr.anchorQh.ptr s₀.log s₀.state := by
  obtain ⟨seg, anchor, list, heap₀, heap, periodicHeap, qtds, runnerTask, hu, hw, rfl⟩ := h
  have hnobody : ∀ {a : QhHolder} {p : Ptr}, ¬ Holds (ResetWorld.state ⟨DriverWorld.start (W := W)
      nPorts seg anchor list heap periodicHeap qtds runnerTask, none, []⟩) [] a p := by
    intro a p hp
    cases hp with
    | port h => cases h
    | control h => cases h
    | reset h => cases h
    | ring h => cases h
  exact {
    kept := trivial
    opened := rfl
    resets := .inl rfl
    senders := nofun
    removal := Disciplined.removalSeen_of_stage nofun
    anchor_eq := rfl
    seg_eq := rfl
    owned := ⟨[], {
      rep := writeAnchor_ringRep hu hw
      unique := fun hp => absurd hp hnobody
      lent := fun hp => absurd hp hnobody
      anchor := nofun
      linked := nofun
      portUsable := nofun
      controlUsable := nofun
      resetUsable := nofun }⟩ }

/-- **The discipline of the reset protocol**, in every run of the running driver: a request is taken
when none is open and answered once, on its port; `port_reset` is asserted for the open request only;
a device is answered after its status descriptor was seen inactive and the callback of its queue
head's removal fired; and at an answer the queue head of the request is not linked. -/
theorem resetDiscipline_of_exec (hb : s₀.Begun dma nPorts) {tr : List (ResetLabel W)}
    (h : exec (ResetWorld.step dma oc) s₀ tr = some s) :
    ResetDiscipline dma s₀.state.async.mgr.ctrlDsSegment s₀.state.async.mgr.anchorQh.ptr s.log := by
  have hinv : Disciplined dma s₀.state.async.mgr.ctrlDsSegment s₀.state.async.mgr.anchorQh.ptr s.log
      s.state :=
    ResetWorld.exec_protocol hb.disciplined hb.portsIdle (fun _ _ _ _ _ ht hs => ht.step hs) h
  exact .of_each hinv.kept

end Runs

def ResetEvent.isDevice : ResetEvent → Bool
  | .answered _ _ (.ok _) _ => true
  | _ => false

/-- A reset that is answered with a device. -/
theorem resetDiscipline_of_exec_answered : ∃ s,
    exec (ResetWorld.step .identity .on) ResetWorld.example₀ ResetWorld.exampleReset = some s ∧
    s.log.any ResetEvent.isDevice = true ∧ ResetDiscipline .identity .lower4G 0x1000 s.log := by
  obtain ⟨s, hs, hdev⟩ := exec_witness (ResetWorld.step .identity .on) ResetWorld.example₀
    ResetWorld.exampleReset (fun s => s.log.any ResetEvent.isDevice = true) (by decide +kernel)
  exact ⟨s, hs, hdev, resetDiscipline_of_exec ResetWorld.example₀_begun hs⟩

end EzEhci
