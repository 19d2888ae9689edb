import EzEhci.Reset.Discipline
import EzEhci.Reset.Listed

/-!
# The asynchronous list of the running driver

A control endpoint is loaded once, and its request stays in its signal until the
runner takes it (`Known`). So what `Listed` says of the protocol holds in every
run of the driver, whatever transfers do to the queue heads in between.
-/

namespace EzEhci

open Lib AsyncListManager Relation

namespace RunnerWorld

variable {W : Type} [Wakers W] {s s' s'' : RunnerWorld W} {oc : OverflowChecks} {w : W}
  {rds : ResetReadings} {rd : ResettingDevice W}

/-- What a tick does to the control endpoints; with `kept`, every request stays. -/
structure ControlFrame (kept : Prop) (s s' : RunnerWorld W) : Prop where
  next : s.nextControl ≤ s'.nextControl
  answered : ∀ a ∈ s'.answers, a ∈ s.answers ∨
    ∀ device, a.result = .ok device → device.ep0 < s'.nextControl
  dropped : ∀ e, s'.resetState.controlReq e = s.resetState.controlReq e ∨
    s'.resetState.controlReq e = none
  kept : kept → ∀ e, e < s.nextControl → s'.resetState.controlReq e = s.resetState.controlReq e

omit [Wakers W] in
theorem ControlFrame.of_eq {kept : Prop} (hn : s'.nextControl = s.nextControl)
    (ha : s'.answers = s.answers) (hc : s'.resetState.controlReq = s.resetState.controlReq) :
    ControlFrame kept s s' :=
  ⟨hn.ge, fun _ h => .inl (ha ▸ h), fun e => .inl (congrFun hc e), fun _ e _ => congrFun hc e⟩

theorem controlFrame_failed (error : DriverError) : ControlFrame True s (s.answer rd (.error error)) where
  next := le_rfl
  answered a ha := by
    rcases List.mem_append.mp ha with ha | ha
    · exact .inl ha
    · rw [List.mem_singleton.mp ha]
      exact .inr nofun
  dropped _ := .inl rfl
  kept _ _ _ := rfl

theorem controlFrame_finishReset (addr : BitVec 7) : ControlFrame True s (s.finishReset rd addr) where
  next := Nat.le_succ _
  answered a ha := by
    rcases List.mem_append.mp ha with ha | ha
    · exact .inl ha
    · rw [List.mem_singleton.mp ha]
      refine .inr fun device hd => ?_
      cases hd
      exact Nat.lt_succ_self _
  dropped e := by
    by_cases he : e = s.nextControl
    · refine .inr ?_
      simp [he, resetState, finishReset, addDevice, answer, wake, ControlEndpointSharedState.default,
        Signal.value?]
    · refine .inl ?_
      simp [resetState, finishReset, addDevice, answer, wake, Heap.modify_of_ne _ _ he]
  kept _ e he := by
    have hne : e ≠ s.nextControl := Nat.ne_of_lt he
    simp [resetState, finishReset, addDevice, answer, wake, Heap.modify_of_ne _ _ hne]

theorem controlFrame_outcome {b : Bool} (h : ResetOutcome oc w rds s rd s' b) : ControlFrame True s s' := by
  cases h with
  | failed error => exact controlFrame_failed error
  | enabled hstep h =>
    obtain ⟨alloc, packets, qtds, heap, addr, rfl⟩ := startSetAddr_eq_some h
    exact .of_eq rfl rfl rfl
  | removed addr => exact controlFrame_finishReset addr
  | _ => exact .of_eq rfl rfl rfl

theorem controlFrame_pollControlEndpoint {e : ControlEpId} (h : s.pollControlEndpoint w e = some s') :
    ControlFrame False s s' := by
  obtain ⟨heap, rfl⟩ := pollControlEndpoint_eq_some h
  refine ⟨le_rfl, fun _ ha => .inl ha, fun e' => ?_, False.elim⟩
  by_cases he : e' = e
  · exact .inr (by simp [he, resetState, wake])
  · exact .inl (by simp [resetState, wake, Heap.modify_of_ne _ _ he])

/-- **What a tick does to the control endpoints**: it takes a request only when it polls its signal. -/
theorem tick_controlFrame {pc : PollPc} {pc' : Option PollPc} (h : s.tick oc w rds pc = some (s', pc')) :
    ControlFrame (∀ todo, pc ≠ .controls todo) s s' := by
  have hkept : ∀ {m : RunnerWorld W}, ControlFrame True s m → ControlFrame (∀ todo, pc ≠ .controls todo) s m :=
    fun hm => ⟨hm.next, hm.answered, hm.dropped, fun _ => hm.kept trivial⟩
  cases Ticked.of_tick h with
  | signalControl =>
    exact .of_eq rfl rfl (congrArg ResetState.controlReq (resetState_signalControlInt _))
  | fireRemoved =>
    obtain ⟨rd, waker, heq⟩ := fireRemoved_eq s
    rw [heq]
    exact .of_eq rfl rfl rfl
  | pollDevice =>
    rw [pollDevice_eq]
    exact .of_eq rfl rfl rfl
  | pollInterrupt hp =>
    obtain ⟨periodic, callbacks, rfl⟩ := pollInterruptEndpoint_eq_some hp
    exact .of_eq rfl rfl rfl
  | pollControl hp =>
    have hf := controlFrame_pollControlEndpoint hp
    exact ⟨hf.next, hf.answered, hf.dropped, fun hne => absurd rfl (hne _)⟩
  | goesOn _ hm => exact hkept (controlFrame_outcome (resetStep_outcome hm))
  | waits _ hm =>
    have hf := controlFrame_outcome (resetStep_outcome hm)
    exact hkept ⟨hf.next, hf.answered, hf.dropped, hf.kept⟩
  | startReset _ hm =>
    obtain ⟨port, v, rfl⟩ := startReset_eq_some hm
    exact .of_eq rfl rfl rfl
  | _ => exact .of_eq rfl rfl rfl

end RunnerWorld

/-! ## The driver -/

/-- An endpoint with a request was loaded, and it was answered before. -/
structure DriverWorld.Known {W : Type} (s : DriverWorld W) : Prop where
  answered : ∀ a ∈ s.runner.answers, ∀ device, a.result = .ok device →
    device.ep0 < s.runner.nextControl
  loaded : ∀ e ∈ s.loaded, e < s.runner.nextControl
  requested : ∀ e m, s.runner.resetState.controlReq e = some m → e ∈ s.loaded

namespace DriverWorld

variable {W : Type} [Wakers W] {s s' : DriverWorld W} {oc : OverflowChecks}

theorem Known.tick (h : s.Known) {w : W} {rds : ResetReadings} {pc : PollPc} {r : RunnerWorld W}
    {pc' : Option PollPc} (ht : s.runner.tick oc w rds pc = some (r, pc')) :
    Known { s with runner := r } := by
  have hf := RunnerWorld.tick_controlFrame ht
  refine ⟨fun a ha device hd => ?_, fun e he => (h.loaded e he).trans_le hf.next, fun e m hm => ?_⟩
  · rcases hf.answered a ha with ha | hnew
    · exact (h.answered a ha device hd).trans_le hf.next
    · exact hnew device hd
  · rcases hf.dropped e with heq | hnone
    · exact h.requested e m (heq ▸ hm)
    · rw [show r.resetState.controlReq e = none from hnone] at hm
      cases hm

omit [Wakers W] in
theorem Known.setRunner (h : s.Known) {r : RunnerWorld W} (hn : r.nextControl = s.runner.nextControl)
    (ha : r.answers = s.runner.answers)
    (hc : r.resetState.controlReq = s.runner.resetState.controlReq) : Known { s with runner := r } := by
  refine ⟨?_, ?_, ?_⟩
  · simp only [hn, ha]
    exact h.answered
  · simp only [hn]
    exact h.loaded
  · simp only [hc]
    exact h.requested

theorem controlReq_load (r : RunnerWorld W) (device : Device) (qhMem : MappedMem) :
    (r.load device qhMem).resetState.controlReq =
      Function.update r.resetState.controlReq device.ep0 (some qhMem) := by
  have hmod := RunnerWorld.resetState_modifyControl r device.ep0 fun sh =>
    { sh with reqSignal := ((r.controlShared device.ep0).reqSignal.signal qhMem).1 }
  dsimp only at hmod
  rw [Signal.value?_signal] at hmod
  exact congrArg ResetState.controlReq hmod

theorem Known.call (h : s.Known) {a : DriverLabel W} (hpoll : ∀ w rds, a ≠ .poll w rds)
    (hs : s.step oc a = some s') :
    s'.Known ∧ ∀ e m, s.runner.resetState.controlReq e = some m →
      s'.runner.resetState.controlReq e = some m := by
  cases Stepped.of_step hs with
  | resetDevice | irq | wakeRunner | watch | registers =>
    exact ⟨⟨h.answered, h.loaded, h.requested⟩, fun _ _ => id⟩
  | setConfiguration | returns | goesOn => exact ⟨{ h with }, fun _ _ => id⟩
  | @load device qhMem answer hanswer hr hnew =>
    refine ⟨⟨h.answered, fun e he => ?_, fun e m hm => ?_⟩, fun e m hm => ?_⟩
    · rcases List.mem_cons.mp he with rfl | he
      · exact h.answered answer hanswer device hr
      · exact h.loaded e he
    · rw [controlReq_load] at hm
      rcases update_some_cases hm with ⟨rfl, -⟩ | hm
      · exact List.mem_cons_self
      · exact List.mem_cons_of_mem _ (h.requested e m hm)
    · have hne : e ≠ device.ep0 := by
        rintro rfl
        exact hnew (h.requested _ m hm)
      rw [controlReq_load, Function.update_of_ne hne, hm]
  | @poll w rds => exact absurd rfl (hpoll w rds)

end DriverWorld

/-! ## Runs -/

/-- A step of the driver, or a write to a queue head by a transfer. -/
inductive ListLabel (W : Type) where
  | driver (a : ResetLabel W)
  | overlay (p : Ptr) (qh : Qh)

namespace ResetWorld

variable {W : Type} [Wakers W] {dma : Dma} {oc : OverflowChecks} {s s' : ResetWorld W}

/-- A write to a queue head that leaves its link alone. -/
def overlay (s : ResetWorld W) (p : Ptr) (qh : Qh) : ResetWorld W :=
  { s with driver.runner.async.heap := s.driver.runner.async.heap.modify p fun m =>
      { m with qh := { qh with horizontalLinkPtr := m.qh.horizontalLinkPtr } } }

def listStep (dma : Dma) (oc : OverflowChecks) (s : ResetWorld W) : ListLabel W → Option (ResetWorld W)
  | .driver a => s.step dma oc a
  | .overlay p qh => some (s.overlay p qh)

/-- A step that is recorded drops no request of a control endpoint. -/
theorem known_step (h : s.driver.Known) {a : ResetLabel W} (hs : s.step dma oc a = some s') :
    s'.driver.Known ∧ (s'.log ≠ s.log → ∀ e m, s.state.controlReq e = some m →
      s'.state.controlReq e = some m) := by
  cases a with
  | client a =>
    obtain ⟨hperm, hs⟩ := Option.ite_none_right_eq_some.mp hs
    obtain ⟨d, hd, rfl⟩ := Option.map_eq_some_iff.mp hs
    have hpoll : ∀ w rds, a ≠ .poll w rds := by
      rintro w rds rfl
      exact hperm
    obtain ⟨hknown, hkept⟩ := h.call hpoll hd
    exact ⟨hknown, fun _ => hkept⟩
  | pollReset i w =>
    obtain ⟨-, hs⟩ := Option.ite_none_right_eq_some.mp hs
    cases hs
    exact ⟨h.setRunner rfl rfl rfl, fun _ _ _ => id⟩
  | dropReset i =>
    obtain ⟨-, hs⟩ := Option.ite_none_right_eq_some.mp hs
    cases hs
    exact ⟨h, fun _ _ _ => id⟩
  | startPoll w =>
    obtain ⟨-, hs⟩ := Option.ite_none_right_eq_some.mp hs
    cases hs
    exact ⟨h.setRunner rfl rfl rfl, fun _ _ _ => id⟩
  | tick rds =>
    simp only [step] at hs
    split at hs
    next => cases hs
    next w pc hpoll =>
      obtain ⟨⟨r, pc'⟩, ht, rfl⟩ := Option.map_eq_some_iff.mp hs
      refine ⟨h.tick ht, fun hlog e m hm => ?_⟩
      have hne : ∀ todo, pc ≠ .controls todo := by
        rintro todo rfl
        exact hlog (List.append_nil _)
      exact ((RunnerWorld.tick_controlFrame ht).kept hne e (h.loaded e (h.requested e m hm))).trans hm

def AsyncInv (dma : Dma) (s : ResetWorld W) : Prop :=
  (∃ ring, Owned dma s.state s.log ring ∧ Listed s.state s.log ring) ∧ s.PortsIdle ∧ s.driver.Known

theorem AsyncInv.step (h : s.AsyncInv dma) {a : ResetLabel W} (hs : s.step dma oc a = some s') :
    s'.AsyncInv dma := by
  obtain ⟨⟨ring, ho, hl⟩, hidle, hknown⟩ := h
  obtain ⟨⟨l, hlog, hstep⟩, hidle'⟩ := refines hidle hs
  obtain ⟨hknown', hkept⟩ := known_step hknown hs
  refine ⟨?_, hidle', hknown'⟩
  rw [hlog]
  refine hl.step ho hstep fun hne {e m} => hkept (fun heq => hne ?_) e m
  rw [hlog] at heq
  exact List.append_right_eq_self.mp heq

omit [Wakers W] in
theorem AsyncInv.overlay (h : s.AsyncInv dma) (p : Ptr) (qh : Qh) : (s.overlay p qh).AsyncInv dma := by
  obtain ⟨⟨ring, ho, hl⟩, hidle, hknown⟩ := h
  refine ⟨⟨ring, { ho with rep := ?_ }, { hl with }⟩, hidle, { hknown with }⟩
  have hrep := ho.rep
  have hlink : ∀ q, ((s.overlay p qh).driver.runner.async.heap q).qh.horizontalLinkPtr =
      (s.driver.runner.async.heap q).qh.horizontalLinkPtr := fun q => by
    simp only [ResetWorld.overlay, Heap.modify_apply]
    split <;> rfl
  have hnext : ∀ q, ((s.overlay p qh).driver.runner.async.heap q).next =
      (s.driver.runner.async.heap q).next := fun q => by
    simp only [ResetWorld.overlay, Heap.modify_apply]
    split <;> rfl
  have hprev : ∀ q, ((s.overlay p qh).driver.runner.async.heap q).prev =
      (s.driver.runner.async.heap q).prev := fun q => by
    simp only [ResetWorld.overlay, Heap.modify_apply]
    split <;> rfl
  exact {
    nodup := hrep.nodup
    links := linked_congr (fun q _ => hwNextA_congr (hlink q)) hrep.links
    next := linked_congr (fun q _ => congrArg some (hnext q)) hrep.next
    prev := backLinked_congr (fun q _ => congrArg some (hprev q)) hrep.prev }

theorem AsyncInv.listStep (h : s.AsyncInv dma) {a : ListLabel W}
    (hs : s.listStep dma oc a = some s') : s'.AsyncInv dma := by
  cases a with
  | driver a => exact h.step hs
  | overlay p qh =>
    cases hs
    exact h.overlay p qh

omit [Wakers W] in
theorem Begun.asyncInv {nPorts : Nat} (h : s.Begun dma nPorts) : s.AsyncInv dma := by
  obtain ⟨ring, ho⟩ := h.disciplined.owned
  obtain ⟨seg, anchor, list, heap₀, heap, periodicHeap, qtds, runnerTask, -, -, rfl⟩ := h
  refine ⟨⟨ring, ho, ?_⟩, nofun, ⟨nofun, nofun, nofun⟩⟩
  -- nothing was lent, so nothing is linked
  exact ⟨nofun, nofun, nofun, nofun, fun hp => by cases ho.lent (.ring hp)⟩

/-- A device is loaded after its reset, and a transfer runs on its endpoint 0. -/
def exampleListed : List (ListLabel TaskWaker) :=
  exampleReset.map .driver ++
    .driver (.client (.load DriverWorld.exampleDevice ⟨0x5000, 0x5000⟩)) ::
    (examplePoll 13 DriverWorld.exampleReadings).map .driver ++ [.overlay 0x5000 (Qh.new .zero .zero)]

end ResetWorld

/-- **The asynchronous list holds what the clients use**: in every run of the driver and of transfers on
its queue heads, the list is a ring, and the controller reaches from the anchor exactly the queue heads
of the loaded endpoints whose request the runner took and that of the reset whose SET_ADDRESS transfer
runs. -/
theorem asyncList_of_exec {W : Type} [Wakers W] {dma : Dma} {oc : OverflowChecks} {nPorts : Nat}
    {s₀ s : ResetWorld W} (hb : s₀.Begun dma nPorts) {tr : List (ListLabel W)}
    (h : exec (ResetWorld.listStep dma oc) s₀ tr = some s) :
    (∃ ring, RingRep dma s.state.async.mgr.ctrlDsSegment s.state.async.heap
      s.state.async.mgr.anchorQh.ptr ring) ∧
    ∀ p, AsyncLinked dma s.state.async.mgr.ctrlDsSegment s.state.async.heap
        s.state.async.mgr.anchorQh.ptr p ↔
      p = s.state.async.mgr.anchorQh.ptr ∨
      (∃ m, .loaded m ∈ s.log ∧ m.ptr = p ∧ ∀ e, s.state.controlReq e ≠ some m) ∨
      s.state.Addressing p := by
  obtain ⟨⟨ring, ho, hl⟩, -, -⟩ :=
    exec_invariant (I := ResetWorld.AsyncInv dma) hb.asyncInv (fun _ _ _ hi hs => hi.listStep hs) h
  refine ⟨⟨ring, ho.rep⟩, fun p => ?_⟩
  rw [← ho.rep.mem_iff_linked, List.mem_cons]
  refine or_congr Iff.rfl ⟨fun hp => ?_, ?_⟩
  · rcases hl.only hp with ⟨m, hm, rfl⟩ | haddr
    · -- a queue head is in one place only
      refine .inl ⟨m, hm, rfl, fun e he => ?_⟩
      cases ho.unique (.control he) (.ring hp)
    · exact .inr haddr
  · rintro (⟨m, hm, rfl, hno⟩ | ⟨r, addr, hr, hstage, rfl⟩)
    · exact (hl.linked hm).resolve_left fun ⟨e, he⟩ => hno e he
    · exact ho.linked hr hstage

/-- The endpoint that was loaded is linked behind the anchor. -/
theorem asyncList_of_exec_loaded : ∃ s,
    exec (ResetWorld.listStep .identity .on) ResetWorld.example₀ ResetWorld.exampleListed = some s ∧
    hwNextA .identity .lower4G s.state.async.heap 0x1000 = some 0x5000 ∧
    ((∃ m, .loaded m ∈ s.log ∧ m.ptr = 0x5000 ∧ ∀ e, s.state.controlReq e ≠ some m) ∨
      s.state.Addressing 0x5000) := by
  obtain ⟨s, hs, hseg, hanchor, hnext⟩ := exec_witness (ResetWorld.listStep .identity .on)
    ResetWorld.example₀ ResetWorld.exampleListed
    (fun s => s.state.async.mgr.ctrlDsSegment = .lower4G ∧ s.state.async.mgr.anchorQh.ptr = 0x1000 ∧
      hwNextA .identity .lower4G s.state.async.heap 0x1000 = some 0x5000) (by decide +kernel)
  obtain ⟨-, hlinked⟩ := asyncList_of_exec ResetWorld.example₀_begun hs
  rw [hseg, hanchor] at hlinked
  refine ⟨s, hs, hnext, ((hlinked 0x5000).mp (.single hnext)).resolve_left (by decide)⟩

end EzEhci
