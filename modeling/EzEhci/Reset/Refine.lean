import EzEhci.Reset.World

/-!
# The driver refines the reset protocol

`RunnerWorld.resetState` is the protocol's view of the runner. Most operations
leave it alone; an iteration of the reset loop is a `ResetProgress`, a tick a
`ResetStep`. `ResetWorld.refines` says that every step of the driver is a step
of the reset protocol, so what the protocol's steps keep holds in every run.
-/

namespace EzEhci

open Lib AsyncListManager

/-! ## What each operation means to the protocol -/

namespace Heap

variable {α β : Type} (h : Heap α) (p : Ptr) {f : α → α} {g : α → β}

theorem read_modify : (fun q => g (h.modify p f q)) = Function.update (fun q => g (h q)) p (g (f (h p))) := by
  funext q
  by_cases e : q = p
  · subst e
    simp
  · simp [modify_of_ne h f e, e]

end Heap

namespace RunnerWorld

section Modify

variable {W : Type}

theorem resetState_modifyPort (s : RunnerWorld W) (i : Nat)
    (f : RootPortSharedState W → RootPortSharedState W) :
    { s with rootPorts := s.rootPorts.modify i f }.resetState = { s.resetState with
      portReq := Function.update s.resetState.portReq i (f (s.rootPorts i)).reqSignal.value?
      portRes := Function.update s.resetState.portRes i (f (s.rootPorts i)).resSignal.value? } :=
  congrArg₂ (fun req res => { s.resetState with portReq := req, portRes := res })
    (Heap.read_modify s.rootPorts i (g := fun sh => sh.reqSignal.value?))
    (Heap.read_modify s.rootPorts i (g := fun sh => sh.resSignal.value?))

theorem resetState_modifyControl (s : RunnerWorld W) (e : ControlEpId)
    (f : ControlEndpointSharedState W → ControlEndpointSharedState W) :
    { s with controlShared := s.controlShared.modify e f }.resetState = { s.resetState with
      controlReq := Function.update s.resetState.controlReq e (f (s.controlShared e)).reqSignal.value? } :=
  congrArg (fun req => { s.resetState with controlReq := req })
    (Heap.read_modify s.controlShared e (g := fun sh => sh.reqSignal.value?))

theorem update_portReq_self (s : RunnerWorld W) (i : Nat) :
    Function.update s.resetState.portReq i (s.rootPorts i).reqSignal.value? = s.resetState.portReq :=
  Function.update_eq_self i _

theorem update_portRes_self (s : RunnerWorld W) (i : Nat) :
    Function.update s.resetState.portRes i (s.rootPorts i).resSignal.value? = s.resetState.portRes :=
  Function.update_eq_self i _

theorem update_controlReq_self (s : RunnerWorld W) (e : ControlEpId) :
    Function.update s.resetState.controlReq e (s.controlShared e).reqSignal.value? =
      s.resetState.controlReq :=
  Function.update_eq_self e _

end Modify

variable {W : Type} [Wakers W] {oc : OverflowChecks} {w : W} {rds : ResetReadings}
  {s s' : RunnerWorld W} {rd : ResettingDevice W}

theorem resetState_signalControlInt (e : ControlEpId) :
    (s.signalControlInt e).resetState = s.resetState := by
  refine (resetState_modifyControl s e _).trans ?_
  dsimp only
  rw [update_controlReq_self]

theorem resetState_signalPortChanged (i : Nat) : (s.signalPortChanged i).resetState = s.resetState := by
  refine (resetState_modifyPort s i _).trans ?_
  dsimp only
  rw [update_portReq_self, update_portRes_self]

theorem resetState_pollDevice (d : DeviceId) : (s.pollDevice w d).resetState = s.resetState := by
  rw [pollDevice_eq]
  rfl

theorem resetState_pollInterruptEndpoint {e : InterruptEpId}
    (h : s.pollInterruptEndpoint w e = some s') : s'.resetState = s.resetState := by
  obtain ⟨periodic, callbacks, rfl⟩ := pollInterruptEndpoint_eq_some h
  rfl

theorem resetState_fireRemoved :
    s.fireRemoved.resetState = { s.resetState with async := AsyncListManager.handleAsyncAdvance s.async } := by
  have hongoing : s.fireRemoved.resettingDevice.map ResettingDevice.ongoing =
      s.resettingDevice.map ResettingDevice.ongoing := by
    unfold fireRemoved wakeReceiver
    dsimp only
    split
    next rd hrd =>
      split
      next addr sender waker hstep =>
        split
        · simp only [wake, hrd, Option.map_some, ResettingDevice.ongoing, hstep, ResetDeviceStep.stage]
        · simp only [hrd]
      next => simp only [hrd]
    next hrd => simp only [hrd]
  have hrest : s.fireRemoved.resetState = { s.resetState with
      async := AsyncListManager.handleAsyncAdvance s.async
      ongoing := s.fireRemoved.resettingDevice.map ResettingDevice.ongoing } := by
    obtain ⟨rd, waker, heq⟩ := fireRemoved_eq s
    rw [heq]
    rfl
  rw [hrest, hongoing]
  rfl

theorem resetState_pollRootPort (i : Nat) :
    (s.pollRootPort w i).resetState =
      { s.resetState with portReq := Function.update s.resetState.portReq i none } := by
  refine (resetState_modifyPort s i _).trans ?_
  dsimp only
  rw [Signal.value?_pollWait, update_portRes_self]

theorem resetState_answer (result : Except DriverError Device) :
    (s.answer rd result).resetState = s.resetState.answer rd.rootPort.toNat result := by
  have hport := resetState_modifyPort s rd.rootPort.toNat fun sh =>
    { sh with resSignal := ((s.rootPorts rd.rootPort.toNat).resSignal.signal result).1 }
  dsimp only at hport
  rw [Signal.value?_signal, update_portReq_self] at hport
  exact congrArg (fun t : ResetState => { t with ongoing := none }) hport

theorem pollControlEndpoint_step {dma : Dma} {log : List ResetEvent} {e : ControlEpId}
    (h : s.pollControlEndpoint w e = some s') : ResetStep dma log s.resetState none [] s'.resetState := by
  have hpoll := resetState_modifyControl s e fun sh =>
    { sh with reqSignal := ((s.controlShared e).reqSignal.pollWait w).state }
  dsimp only at hpoll
  rw [Signal.value?_pollWait] at hpoll
  unfold pollControlEndpoint at h
  dsimp only at h
  split at h
  next m hready =>
    rw [Signal.ready_pollWait] at hready
    obtain ⟨async, hasync, rfl⟩ := Option.map_eq_some_iff.mp h
    exact (ResetStep.control e m async hready hasync).of_eq
      (congrArg (fun t : ResetState => { t with async }) hpoll)
  next hready =>
    rw [Signal.ready_pollWait] at hready
    cases h
    refine ResetStep.quiet.of_eq (hpoll.trans ?_)
    rw [← hready, update_controlReq_self]

/-! ## The reset loop -/

theorem mem_insertDevice {p q : RootPortNumber} {d : DeviceId} {l : List (RootPortNumber × DeviceId)} :
    q ∈ (insertDevice p d l).map Prod.fst ↔ q = p ∨ q ∈ l.map Prod.fst := by
  induction l with
  | nil => simp [insertDevice]
  | cons x l ih =>
    rw [insertDevice]
    split
    · simp
    · split
      next heq => simp [heq]
      next =>
        rw [List.map_cons, List.mem_cons, ih, List.map_cons, List.mem_cons]
        tauto

theorem sorted_insertDevice {p : RootPortNumber} {d : DeviceId} {l : List (RootPortNumber × DeviceId)}
    (h : (l.map Prod.fst).Pairwise (· < ·)) : ((insertDevice p d l).map Prod.fst).Pairwise (· < ·) := by
  induction l with
  | nil => simp [insertDevice]
  | cons x l ih =>
    rw [List.map_cons, List.pairwise_cons] at h
    rw [insertDevice]
    split
    next hlt =>
      rw [List.map_cons, List.pairwise_cons, List.map_cons, List.pairwise_cons]
      refine ⟨fun q hq => ?_, h⟩
      rcases List.mem_cons.mp hq with rfl | hq
      · exact hlt
      · exact BitVec.lt_trans hlt (h.1 q hq)
    next hnlt =>
      split
      next heq =>
        rw [List.map_cons, List.pairwise_cons]
        exact ⟨fun q hq => heq ▸ h.1 q hq, h.2⟩
      next hne =>
        rw [List.map_cons, List.pairwise_cons]
        refine ⟨fun q hq => ?_, ih h.2⟩
        rcases mem_insertDevice.mp hq with rfl | hq
        · exact BitVec.lt_of_le_ne (BitVec.not_lt.mp hnlt) (Ne.symm hne)
        · exact h.1 q hq

theorem portReset_written (r : PortScReg) (b : Bool) :
    ((r.withPortReset b).withoutWriteToClearBits).portReset = b := by
  simp [PortScReg.portReset, PortScReg.withPortReset, PortScReg.withoutWriteToClearBits,
    PortScReg.withConnectStatusChange, PortScReg.withPortEnableChange, PortScReg.withOverCurrentChange,
    bit_setBit]

omit [Wakers W] in
theorem resetState_addDevice (port : RootPortNumber) :
    (s.addDevice port).resetState = { s.resetState with
      devicePorts := (insertDevice port s.nextDevice s.devices).map Prod.fst
      controlReq := Function.update s.resetState.controlReq s.nextControl none } :=
  congrArg (fun t : ResetState => { t with
    devicePorts := (insertDevice port s.nextDevice s.devices).map Prod.fst })
    (resetState_modifyControl s s.nextControl fun _ => .default)

omit [Wakers W] in
theorem iterEvents_waits {r : OngoingReset} (hstage : r.stage = .waitForPortToBeEnabled →
      s.resetState.ongoing = some r) (hwrites : s'.portScWritten = s.portScWritten)
    (hanswers : s'.answers = s.answers) (hsender : s'.nextSender = s.nextSender)
    (hstate : s'.resetState = s.resetState)
    (hactive : ∀ addr, r.stage = .waitForSetAddr addr → rds.statusToken.active = true) :
    iterEvents rds r s s' false = [.pollEnded] := by
  have hassign : assignEvents r s' = [] := by
    unfold assignEvents
    split
    next i addr hr he =>
      rw [hstate, hstage hr] at he
      cases he
      cases hr
    next => rfl
  have hremove : removeEvents rds r s s' = [] := by
    unfold removeEvents
    split
    next addr hr => simp [hactive addr hr, hsender]
    next => rfl
  simp [iterEvents, writeEvents, answerEvents, hwrites, hanswers, hassign, hremove]

theorem iterEvents_failed (e : DriverError)
    (hstage : rd.ongoing.stage = .waitingToStopReset ∨ rd.ongoing.stage = .waitForPortToBeEnabled) :
    iterEvents rds rd.ongoing s (s.answer rd (.error e)) true =
      [.answered rd.rootPort.toNat rd.req (.error e) s.async.heap] := by
  have hnone : (s.answer rd (.error e)).resetState.ongoing = none := rfl
  have hassign : assignEvents rd.ongoing (s.answer rd (.error e)) = [] := by
    simp [assignEvents, hnone]
  have hremove : removeEvents rds rd.ongoing s (s.answer rd (.error e)) = [] := by
    rcases hstage with hstage | hstage <;> simp [removeEvents, hstage]
  rw [iterEvents, hassign, hremove]
  simp [writeEvents, answerEvents, answer, wake, ResettingDevice.ongoing]

omit [Wakers W] in
theorem startSetAddr_ongoing (hstage : rd.ongoing.stage = .waitForPortToBeEnabled)
    (hread : rds.portSc.currentConnectStatus = true) (h : s.startSetAddr oc rd = some s') :
    ResetProgress s.resetState rds rd.ongoing (iterEvents rds rd.ongoing s s' true) s'.resetState := by
  obtain ⟨⟨alloc, addr⟩, halloc, h⟩ := Option.bind_eq_some_iff.mp h
  obtain ⟨q, -, h⟩ := Option.bind_eq_some_iff.mp h
  obtain ⟨async, hasync, h⟩ := Option.bind_eq_some_iff.mp h
  cases h
  have halloc' : s.resetState.addrAllocator.allocateAddr = some (alloc, addr) := by
    rw [← halloc, resetState]
  have hlink : s.resetState.linkQh rd.ongoing.req.qh q.qh = some async := by
    rw [← hasync, ResetState.linkQh, resetState, ResettingDevice.ongoing]
  refine (ResetProgress.enabled alloc addr q.qh async hstage hread halloc' hlink).of_eq ?_ rfl
  rw [iterEvents, assignEvents, removeEvents, hstage]
  simp [writeEvents, answerEvents, resetState, ResettingDevice.ongoing, ResetDeviceStep.stage]

omit [Wakers W] in
theorem queueRemove_ongoing {addr : BitVec 7} (hstage : rd.ongoing.stage = .waitForSetAddr addr)
    (hread : rds.statusToken.active = false) :
    ResetProgress s.resetState rds rd.ongoing (iterEvents rds rd.ongoing s (s.queueRemove rds rd addr) true)
      (s.queueRemove rds rd addr).resetState := by
  refine (ResetProgress.addressed addr hstage hread).of_eq ?_ rfl
  rw [iterEvents, assignEvents, removeEvents, hstage]
  simp [writeEvents, answerEvents, queueRemove, hread, resetState]

theorem finishReset_ongoing {addr : BitVec 7} {sender : SenderId}
    (hstage : rd.ongoing.stage = .waitForQhRemove addr sender) (hsent : sender ∈ s.async.sent) :
    ResetProgress s.resetState rds rd.ongoing (iterEvents rds rd.ongoing s (s.finishReset rd addr) true)
      (s.finishReset rd addr).resetState := by
  have hdone : (s.finishReset rd addr).resetState = { s.resetState.answer rd.rootPort.toNat
        (.ok ⟨addr, s.nextDevice, s.ctrlDsSegment, s.nextControl⟩) with
      devicePorts := (insertDevice rd.rootPort s.nextDevice s.devices).map Prod.fst
      controlReq := Function.update s.resetState.controlReq s.nextControl none } := by
    rw [finishReset, resetState_answer, resetState_addDevice]
    rfl
  refine (ResetProgress.removed addr sender _ s.nextControl hstage hsent rfl _
    (fun p => mem_insertDevice.trans (or_congr_left BitVec.toNat_inj.symm))
    sorted_insertDevice).of_eq ?_ hdone
  rw [iterEvents, assignEvents, removeEvents, hstage]
  simp [writeEvents, answerEvents, finishReset, addDevice, answer, wake, ResettingDevice.ongoing,
    resetState]

/-- **An iteration of the reset loop is a step of the protocol.** -/
theorem resetStep_progress {b : Bool} (hrd : s.resettingDevice = some rd)
    (h : s.resetStep oc w rds rd = some (s', b)) :
    ResetProgress s.resetState rds rd.ongoing (iterEvents rds rd.ongoing s s' b) s'.resetState := by
  have hongoing : s.resetState.ongoing = some rd.ongoing := by
    rw [resetState, hrd, Option.map_some]
  have hstage : rd.ongoing.stage = rd.step.stage := rfl
  unfold resetStep at h
  split at h
  next hstep =>
    rw [hstep, ResetDeviceStep.stage] at hstage
    split at h
    next hread =>
      cases h
      exact (ResetProgress.disconnected (.inl hstage) (by simpa using hread)).of_eq
        (iterEvents_failed _ (.inl hstage)) (resetState_answer _)
    next hread =>
      have hread' : rds.portSc.currentConnectStatus = true := by simpa using hread
      split at h <;> cases h
      · refine (ResetProgress.resetDone (rds.portScUpdate.withPortReset false).withoutWriteToClearBits
          hstage hread' (portReset_written _ _)).of_eq ?_ rfl
        rw [iterEvents, assignEvents, removeEvents, hstage]
        simp [writeEvents, answerEvents, writePortSc, ResettingDevice.ongoing]
      · refine (ResetProgress.waits (.inl ⟨.inl hstage, hread'⟩)).of_eq ?_ rfl
        exact iterEvents_waits (fun _ => hongoing) rfl rfl rfl rfl (by simp [hstage])
  next hstep =>
    rw [hstep, ResetDeviceStep.stage] at hstage
    split at h
    next hread =>
      cases h
      exact (ResetProgress.disconnected (.inr hstage) (by simpa using hread)).of_eq
        (iterEvents_failed _ (.inr hstage)) (resetState_answer _)
    next hread =>
      have hread' : rds.portSc.currentConnectStatus = true := by simpa using hread
      split at h
      · obtain ⟨m, hm, he⟩ := Option.map_eq_some_iff.mp h
        cases he
        exact startSetAddr_ongoing hstage hread' hm
      · split at h <;> cases h
        · exact (ResetProgress.fullSpeed hstage hread').of_eq (iterEvents_failed _ (.inr hstage))
            (resetState_answer _)
        · refine (ResetProgress.waits (.inl ⟨.inr hstage, hread'⟩)).of_eq ?_ rfl
          exact iterEvents_waits (fun _ => hongoing) rfl rfl rfl rfl (by simp [hstage])
  next addr hstep =>
    rw [hstep, ResetDeviceStep.stage] at hstage
    split at h <;> cases h
    next hactive => exact queueRemove_ongoing hstage (by simpa using hactive)
    next hactive =>
      have hactive' : rds.statusToken.active = true := by simpa using hactive
      refine (ResetProgress.waits (.inr (.inl ⟨addr, hstage, hactive'⟩))).of_eq ?_ rfl
      exact iterEvents_waits (fun _ => hongoing) rfl rfl rfl rfl fun _ _ => hactive'
  next addr sender waker hstep =>
    have hsame : RunnerWorld.resetState { s with resettingDevice := some { rd with
        step := .waitForQhRemove addr sender (some w) } } = s.resetState := by
      simp [resetState, hrd, ResettingDevice.ongoing, hstep, ResetDeviceStep.stage]
    rw [hstep, ResetDeviceStep.stage] at hstage
    split at h <;> cases h
    next hsent => exact finishReset_ongoing hstage hsent
    next hsent =>
      refine (ResetProgress.waits (.inr (.inr ⟨addr, sender, hstage, hsent⟩))).of_eq ?_ hsame
      exact iterEvents_waits (fun _ => hongoing) rfl rfl rfl hsame (by simp [hstage])

/-! ## The ticks -/

omit [Wakers W] in
theorem startReset_step {dma : Dma} {log : List ResetEvent} {i : Nat} {req : ResetDeviceResources}
    {m : RunnerWorld W} (hreq : m.resetState.portReq i = some req) (hnone : m.resettingDevice = none)
    (hstate : s.resetState = { m.resetState with
      portReq := Function.update m.resetState.portReq i none })
    (hwritten : s.portScWritten = m.portScWritten) (h : s.startReset rds i req = some s') :
    ResetStep dma log m.resetState none (.consumed i req :: writeEvents m s') s'.resetState := by
  unfold startReset at h
  obtain ⟨hi, h⟩ := Option.ite_none_right_eq_some.mp h
  cases h
  have hongoing : m.resetState.ongoing = none := by rw [resetState, hnone, Option.map_none]
  have hport : (BitVec.ofNat 4 i).toNat = i := Nat.mod_eq_of_lt hi
  have hevents : writeEvents m { s.writePortSc i
      (rds.portScUpdate.withPortReset true).withoutWriteToClearBits with
      resettingDevice := some ⟨req, BitVec.ofNat 4 i, .waitingToStopReset, none⟩ } =
        [.wrote i (rds.portScUpdate.withPortReset true).withoutWriteToClearBits] := by
    simp [writeEvents, writePortSc, hwritten]
  rw [hevents]
  refine (ResetStep.consumed i req _ hreq hongoing hi (portReset_written _ _)).of_eq ?_
  refine (congrArg (fun t : ResetState => { t with
    ongoing := some ⟨req, (BitVec.ofNat 4 i).toNat, .waitingToStopReset⟩ }) hstate).trans ?_
  rw [hport]

theorem fireRemoved_step {dma : Dma} {log : List ResetEvent} :
    ResetStep dma log s.resetState none ((s.fireRemoved.async.sent.drop s.async.sent.length).map .fired)
      s.fireRemoved.resetState := by
  have hasync : s.fireRemoved.async = AsyncListManager.handleAsyncAdvance s.async :=
    congrArg ResetState.async resetState_fireRemoved
  rw [hasync, sent_handleAsyncAdvance, List.drop_left]
  exact ResetStep.fired.of_eq resetState_fireRemoved

/-- **A tick is a step of the protocol**; while the root ports are polled no reset is in progress. -/
theorem tick_refines {dma : Dma} {log : List ResetEvent} {pc : PollPc} {pc' : Option PollPc}
    (hpc : ∀ todo, pc = .rootPorts todo → s.resettingDevice = none)
    (h : s.tick oc w rds pc = some (s', pc')) :
    ResetStep dma log s.resetState (s.readings rds pc) (tickEvents rds s s' pc pc') s'.resetState ∧
      ∀ todo, pc' = some (.rootPorts todo) → s'.resettingDevice = none := by
  cases Ticked.of_tick h with
  | usbErrInt | asyncAdvance | portChange => exact ⟨.quiet, by split <;> simp⟩
  | signalControl => exact ⟨ResetStep.quiet.of_eq (resetState_signalControlInt _), by simp⟩
  | fireRemoved => exact ⟨fireRemoved_step, by simp⟩
  | signalPort => exact ⟨ResetStep.quiet.of_eq (resetState_signalPortChanged _), by simp⟩
  | pollDevice => exact ⟨ResetStep.quiet.of_eq (resetState_pollDevice _), by simp⟩
  | pollInterrupt hm => exact ⟨ResetStep.quiet.of_eq (resetState_pollInterruptEndpoint hm), by simp⟩
  | pollControl hm => exact ⟨pollControlEndpoint_step hm, by simp⟩
  | noReset hrd =>
    refine ⟨?_, fun _ _ => hrd⟩
    simp only [tickEvents, readings, resetState, hrd, Option.map_none]
    exact .quiet
  | @goesOn rd _ hrd hm =>
    have hongoing : s.resetState.ongoing = some rd.ongoing := by rw [resetState, hrd, Option.map_some]
    refine ⟨?_, by simp⟩
    simp only [tickEvents, readings, hrd, hongoing, Option.map_some]
    exact .progress hongoing (resetStep_progress hrd hm)
  | @waits rd m hrd hm =>
    have hongoing : s.resetState.ongoing = some rd.ongoing := by rw [resetState, hrd, Option.map_some]
    have hstep : ResetStep dma log s.resetState _ _ _ := .progress hongoing (resetStep_progress hrd hm)
    refine ⟨?_, by simp⟩
    simp only [tickEvents, readings, hrd, hongoing, Option.map_some]
    exact hstep
  | noRequest =>
    have hongoing : s.resetState.ongoing = none := by rw [resetState, hpc _ rfl, Option.map_none]
    exact ⟨.ended hongoing, by simp⟩
  | @pollRootPort i todo hready =>
    refine ⟨?_, fun _ _ => hpc _ rfl⟩
    have hreq : s.resetState.portReq i = none := hready
    simp only [tickEvents, hreq]
    refine ResetStep.quiet.of_eq ((resetState_pollRootPort i).trans ?_)
    rw [← hready, update_portReq_self]
  | @startReset i todo req m hready hm =>
    have hreq : s.resetState.portReq i = some req := hready
    refine ⟨?_, by simp⟩
    simp only [tickEvents, hreq]
    exact startReset_step hreq (hpc _ rfl) (resetState_pollRootPort i) rfl hm
  | _ => exact ⟨.quiet, by simp⟩

end RunnerWorld

/-! ## Runs -/

namespace ResetWorld

variable {W : Type} [Wakers W] {dma : Dma} {oc : OverflowChecks} {s s' : ResetWorld W}

/-- While the root ports are polled no reset is in progress. -/
def PortsIdle (s : ResetWorld W) : Prop :=
  ∀ w todo, s.poll = some (w, .rootPorts todo) → s.driver.runner.resettingDevice = none

theorem client_refines {a : DriverLabel W} {d : DriverWorld W} (hperm : s.Permitted dma a)
    (h : s.driver.step oc a = some d) :
    ResetStep dma s.log s.state none a.events d.runner.resetState ∧
      d.runner.resettingDevice = s.driver.runner.resettingDevice := by
  cases DriverWorld.Stepped.of_step h with
  | @resetDevice i req hi =>
    refine ⟨(ResetStep.called i req hperm.2 hperm.1).of_eq ?_, rfl⟩
    refine (RunnerWorld.resetState_modifyPort s.driver.runner i _).trans ?_
    dsimp only
    rw [Signal.value?_signal, RunnerWorld.update_portRes_self]
    rfl
  | @load device qhMem a ha hr hnew hcl =>
    refine ⟨(ResetStep.loaded device.ep0 qhMem (loadedQh device.address 0) hperm).of_eq ?_, rfl⟩
    have hmod := RunnerWorld.resetState_modifyControl s.driver.runner device.ep0 fun sh =>
      { sh with reqSignal := ((s.driver.runner.controlShared device.ep0).reqSignal.signal qhMem).1 }
    dsimp only at hmod
    rw [Signal.value?_signal] at hmod
    exact congrArg (fun t : ResetState => { t with
      async := { t.async with heap := s.driver.runner.async.heap.modify qhMem.ptr fun m =>
        { m with qh := loadedQh device.address 0 } } }) hmod
  | setConfiguration device c hcl hc => exact ⟨.quiet, rfl⟩
  | returns c r hcl htodo hr => exact ⟨.quiet, rfl⟩
  | registers c hcl hreg => exact ⟨.quiet, rfl⟩
  | goesOn c hcl hreg => exact ⟨.quiet, rfl⟩
  | watch c r qh iv hcl hep hnew hq => exact ⟨.watched, rfl⟩
  | irq => exact ⟨.quiet, rfl⟩
  | wakeRunner => exact ⟨.quiet, rfl⟩
  | poll runner hw hp => exact hperm.elim

theorem pollFuture_refines {i : Nat} {w : W} (hactive : callActive s.log i = true) :
    ResetStep dma s.log s.state none ((s.state.portRes i).toList.map (.returned i))
      (pollFuture s.driver.runner i w).resetState := by
  have hmod := RunnerWorld.resetState_modifyPort s.driver.runner i fun sh =>
    { sh with resSignal := ((s.driver.runner.rootPorts i).resSignal.pollWait w).state }
  dsimp only at hmod
  rw [Signal.value?_pollWait, RunnerWorld.update_portReq_self] at hmod
  cases hres : s.state.portRes i with
  | none =>
    refine ResetStep.quiet.of_eq (hmod.trans ?_)
    rw [← hres]
    exact congrArg (fun res => { s.state with portRes := res }) (Function.update_eq_self i _)
  | some result => exact (ResetStep.returned i result hactive hres).of_eq hmod

/-- **Every step of the driver is a step of the reset protocol.** -/
theorem refines {a : ResetLabel W} (hidle : s.PortsIdle) (h : s.step dma oc a = some s') :
    (∃ l, s'.log = s.log ++ l ∧ ResetStep dma s.log s.state (s.readings a) l s'.state) ∧ s'.PortsIdle := by
  cases a with
  | client a =>
    obtain ⟨hperm, h⟩ := Option.ite_none_right_eq_some.mp h
    obtain ⟨d, hd, rfl⟩ := Option.map_eq_some_iff.mp h
    obtain ⟨hstep, hrd⟩ := client_refines hperm hd
    exact ⟨⟨_, rfl, hstep⟩, fun w todo hp => hrd.trans (hidle w todo hp)⟩
  | pollReset i w =>
    obtain ⟨hactive, h⟩ := Option.ite_none_right_eq_some.mp h
    cases h
    refine ⟨⟨_, rfl, ?_⟩, hidle⟩
    rw [Signal.ready_pollWait]
    exact pollFuture_refines hactive
  | dropReset i =>
    obtain ⟨hactive, h⟩ := Option.ite_none_right_eq_some.mp h
    cases h
    exact ⟨⟨_, rfl, .dropped i hactive⟩, hidle⟩
  | startPoll w =>
    obtain ⟨-, h⟩ := Option.ite_none_right_eq_some.mp h
    cases h
    exact ⟨⟨[], (List.append_nil _).symm, .quiet⟩, nofun⟩
  | tick rds =>
    simp only [step] at h
    split at h
    next => cases h
    next w pc hpoll =>
      obtain ⟨⟨runner, pc'⟩, ht, rfl⟩ := Option.map_eq_some_iff.mp h
      have hpc : ∀ todo, pc = .rootPorts todo → s.driver.runner.resettingDevice = none :=
        fun todo he => hidle w todo (he ▸ hpoll)
      obtain ⟨hstep, hidle'⟩ := RunnerWorld.tick_refines hpc ht
      have hreadings : s.readings (.tick rds) = s.driver.runner.readings rds pc := by
        rw [readings, hpoll, Option.bind_some]
      refine ⟨⟨_, rfl, hreadings ▸ hstep⟩, fun w' todo hp => ?_⟩
      obtain ⟨pc'', hpc'', he⟩ := Option.map_eq_some_iff.mp hp
      cases he
      exact hidle' todo hpc''

/-- A step of the driver is within a condition on the protocol's state and the readings. -/
def Within (D : ResetState → Option ResetReadings → Prop) (s : ResetWorld W) (a : ResetLabel W) : Prop :=
  D s.state (s.readings a)

omit [Wakers W] in
instance {D : ResetState → Option ResetReadings → Prop} [∀ t o, Decidable (D t o)] (s : ResetWorld W)
    (a : ResetLabel W) : Decidable (Within D s a) := inferInstanceAs (Decidable (D _ _))

/-- **What every step of the protocol keeps holds in every run**, for runs within the condition `D`. -/
theorem exec_protocol_of_meets {D : ResetState → Option ResetReadings → Prop}
    {I : List ResetEvent → ResetState → Prop} {s₀ : ResetWorld W} {tr : List (ResetLabel W)}
    (h0 : I s₀.log s₀.state) (hidle : s₀.PortsIdle)
    (hstep : ∀ log t o l t', I log t → D t o → ResetStep dma log t o l t' → I (log ++ l) t')
    (hD : Meets (step dma oc) (Within D) s₀ tr) (h : exec (step dma oc) s₀ tr = some s) :
    I s.log s.state := by
  refine (exec_invariant_of_meets (I := fun s => I s.log s.state ∧ s.PortsIdle) ⟨h0, hidle⟩ ?_ hD h).1
  rintro m a m' ⟨hm, hp⟩ hd hs
  obtain ⟨⟨l, hlog, hl⟩, hp'⟩ := refines hp hs
  refine ⟨?_, hp'⟩
  rw [hlog]
  exact hstep _ _ _ _ _ hm hd hl

theorem exec_protocol {I : List ResetEvent → ResetState → Prop} {s₀ : ResetWorld W}
    {tr : List (ResetLabel W)} (h0 : I s₀.log s₀.state) (hidle : s₀.PortsIdle)
    (hstep : ∀ log t o l t', I log t → ResetStep dma log t o l t' → I (log ++ l) t')
    (h : exec (step dma oc) s₀ tr = some s) : I s.log s.state :=
  exec_protocol_of_meets (D := fun _ _ => True) h0 hidle
    (fun log t o l t' ht _ hs => hstep log t o l t' ht hs) (meets_true s₀ tr) h

/-- If every step outside of `D` leaves a record that is not `Q`, a run with a record that is `Q` is
within `D`. -/
theorem meets_of_record {D : ResetState → Option ResetReadings → Prop}
    {I : List ResetEvent → ResetState → Prop} {Q : List ResetEvent → Prop} {s₀ : ResetWorld W}
    {tr : List (ResetLabel W)} (h0 : I s₀.log s₀.state) (hidle : s₀.PortsIdle)
    (hstep : ∀ log t o l t', I log t → ResetStep dma log t o l t' → I (log ++ l) t')
    (hQ : ∀ log l, Q (log ++ l) → Q log)
    (hD : ∀ log t o l t', I log t → ResetStep dma log t o l t' → Q (log ++ l) → D t o)
    (h : exec (step dma oc) s₀ tr = some s) (hq : Q s.log) : Meets (step dma oc) (Within D) s₀ tr := by
  refine (exec_history (C := fun _ _ => True) (P := fun tr s => (I s.log s.state ∧ s.PortsIdle) ∧
    (Q s.log → Meets (step dma oc) (Within D) s₀ tr)) ⟨⟨h0, hidle⟩, fun _ => trivial⟩ ?_
    (meets_true s₀ tr) h).2 hq
  rintro tr m a m' hm ⟨⟨hi, hp⟩, ih⟩ - hs
  obtain ⟨⟨l, hlog, hl⟩, hp'⟩ := refines hp hs
  refine ⟨⟨hlog ▸ hstep _ _ _ _ _ hi hl, hp'⟩, fun hq => ?_⟩
  rw [hlog] at hq
  refine meets_append.mpr ⟨ih (hQ _ _ hq), fun m₁ hm₁ => ?_⟩
  rw [hm] at hm₁
  cases hm₁
  exact ⟨hD _ _ _ _ _ hi hl hq, fun _ _ => trivial⟩

omit [Wakers W] in
theorem Begun.portsIdle {nPorts : Nat} (h : s.Begun dma nPorts) : s.PortsIdle := by
  obtain ⟨seg, anchor, list, heap₀, heap, periodicHeap, qtds, runnerTask, -, -, rfl⟩ := h
  exact nofun

end ResetWorld

end EzEhci
