import EzEhci.Runner.Steps
import EzEhci.Runner.World

/-!
# The registration of interrupt endpoints

`set_configuration` hands each interrupt endpoint it makes to the runner through
the request signal of the device, which has room for one. `Registry` is what
survives of that: nothing is listed twice, only what was registered is listed,
and the last registration of a device is either in its signal or listed. With a
single interrupt endpoint the last one is all there is; with two, the runner has
to take the first before the second is sent.
-/

namespace EzEhci

open Lib

/-! ## The runner's list -/

namespace RunnerWorld

variable {W : Type} [Wakers W] {s s' : RunnerWorld W} {reg : DeviceId → List InterruptEpId}

/-- The runner's list of interrupt endpoints against those registered for each device, oldest
first. -/
structure Registry (reg : DeviceId → List InterruptEpId) (s : RunnerWorld W) : Prop where
  signaled : ∀ d e, (s.deviceShared d).reqSignal = .signaled e →
    e ∈ reg d ∧ e ∉ s.interruptEndpoints
  last : ∀ d e, (reg d).getLast? = some e →
    (s.deviceShared d).reqSignal = .signaled e ∨ e ∈ s.interruptEndpoints
  listed : ∀ e ∈ s.interruptEndpoints, ∃ d, e ∈ reg d
  nodup : s.interruptEndpoints.Nodup
  old : ∀ d, ∀ e ∈ reg d, e < s.nextInterrupt
  distinct : ∀ d, (reg d).Nodup
  owner : ∀ d d' e, e ∈ reg d → e ∈ reg d' → d = d'
  fresh : ∀ d, s.nextDevice ≤ d → reg d = []
  answered : ∀ a ∈ s.answers, ∀ device, a.result = .ok device → device.shared < s.nextDevice

omit [Wakers W] in
theorem Registry.setDevice (h : s.Registry reg) {shared : Heap (DeviceSharedState W)}
    (hreq : ∀ d, (shared d).reqSignal = (s.deviceShared d).reqSignal) :
    Registry reg { s with deviceShared := shared } :=
  { h with
    signaled := fun d e he => h.signaled d e ((hreq d).symm.trans he)
    last := fun d e he => (h.last d e he).imp (fun hs => (hreq d).trans hs) id }

theorem Registry.pollDevice (h : s.Registry reg) (w : W) (d : DeviceId) :
    (s.pollDevice w d).Registry reg := by
  rw [pollDevice_eq]
  have hsig : ∀ d' e, ((s.deviceShared.modify d fun sh =>
      { sh with reqSignal := ((s.deviceShared d).reqSignal.pollWait w).state }) d').reqSignal =
        .signaled e ↔ d' ≠ d ∧ (s.deviceShared d').reqSignal = .signaled e := by
    intro d' e
    have hempty := (s.deviceShared d).reqSignal.isSignaled_pollWait w
    rw [Heap.modify_apply]
    split
    next hd =>
      simp only [hd, ne_eq, not_true_eq_false, false_and, iff_false]
      intro he
      rw [he] at hempty
      cases hempty
    next hd => simp [hd]
  have htaken : ∀ e, e ∈ ((s.deviceShared d).reqSignal.pollWait w).ready.toList ↔
      (s.deviceShared d).reqSignal = .signaled e := by
    intro e
    rw [Option.mem_toList, Signal.pollWait_ready]
  refine { h with signaled := ?_, last := ?_, listed := ?_, nodup := ?_ }
  · intro d' e he
    obtain ⟨hne, he⟩ := (hsig d' e).mp he
    obtain ⟨hreg, hnot⟩ := h.signaled d' e he
    refine ⟨hreg, fun hmem => ?_⟩
    rcases List.mem_append.mp hmem with hmem | hmem
    · exact hnot hmem
    · exact hne (h.owner d' d e hreg (h.signaled d e ((htaken e).mp hmem)).1)
  · intro d' e he
    rcases h.last d' e he with hs | hmem
    · by_cases hd : d' = d
      · exact .inr (List.mem_append_right _ ((htaken e).mpr (hd ▸ hs)))
      · exact .inl ((hsig d' e).mpr ⟨hd, hs⟩)
    · exact .inr (List.mem_append_left _ hmem)
  · intro e hmem
    rcases List.mem_append.mp hmem with hmem | hmem
    · exact h.listed e hmem
    · exact ⟨d, (h.signaled d e ((htaken e).mp hmem)).1⟩
  · refine List.Nodup.append h.nodup ?_ fun e hmem htake => ?_
    · cases ((s.deviceShared d).reqSignal.pollWait w).ready <;> simp
    · exact (h.signaled d e ((htaken e).mp htake)).2 hmem

theorem Registry.fireRemoved (h : s.Registry reg) : s.fireRemoved.Registry reg := by
  obtain ⟨rd, waker, heq⟩ := fireRemoved_eq s
  rw [heq]
  exact { h with }

theorem Registry.answer (h : s.Registry reg) (rd : ResettingDevice W)
    {result : Except DriverError Device} (hr : ∀ device, result = .ok device → device.shared < s.nextDevice) :
    (s.answer rd result).Registry reg := by
  refine { h with answered := fun a ha device hd => ?_ }
  rcases List.mem_append.mp ha with ha | ha
  · exact h.answered a ha device hd
  · rw [List.mem_singleton.mp ha] at hd
    exact hr device hd

omit [Wakers W] in
theorem Registry.addDevice (h : s.Registry reg) (port : RootPortNumber) :
    (s.addDevice port).Registry reg := by
  have hnew : reg s.nextDevice = [] := h.fresh _ le_rfl
  refine { h with signaled := ?_, last := ?_, fresh := ?_, answered := ?_ }
  · intro d e he
    simp only [RunnerWorld.addDevice, Heap.modify_apply] at he
    split at he
    · cases he
    · exact h.signaled d e he
  · intro d e he
    rcases h.last d e he with hs | hmem
    · refine .inl ?_
      have hne : d ≠ s.nextDevice := by
        rintro rfl
        rw [hnew] at he
        cases he
      simp only [RunnerWorld.addDevice, Heap.modify_apply, if_neg hne]
      exact hs
    · exact .inr hmem
  · exact fun d hd => h.fresh d (Nat.le_of_succ_le hd)
  · exact fun a ha device hd => Nat.lt_succ_of_lt (h.answered a ha device hd)

theorem Registry.outcome {oc : OverflowChecks} {w : W} {rds : ResetReadings} {rd : ResettingDevice W}
    {b : Bool} (h : s.Registry reg) (ho : ResetOutcome oc w rds s rd s' b) : s'.Registry reg := by
  cases ho with
  | failed error => exact h.answer rd (by simp)
  | enabled hstep hset =>
    obtain ⟨alloc, packets, qtds, heap, addr, rfl⟩ := startSetAddr_eq_some hset
    exact { h with }
  | removed addr sender waker hstep hsent =>
    refine (h.addDevice rd.rootPort).answer rd fun device hd => ?_
    cases hd
    exact Nat.lt_succ_self _
  | _ => exact { h with }

/-- **A poll** keeps the registry. -/
theorem Registry.pollStep {oc : OverflowChecks} {w : W} {R : ResetReadings → Prop}
    (h : s.Registry reg) (hs : PollStep oc w R s s') : s'.Registry reg := by
  cases hs with
  | usbInt d =>
    have hreq : ∀ d', ((s.signalUsbInt d).deviceShared d').reqSignal = (s.deviceShared d').reqSignal := by
      intro d'
      simp only [signalUsbInt, RunnerWorld.wake, Heap.modify_apply]
      split <;> rfl
    have hp := h.setDevice hreq
    exact { hp with }
  | asyncAdvance => exact h.fireRemoved
  | device d => exact h.pollDevice w d
  | interruptEndpoint e he =>
    obtain ⟨periodic, callbacks, rfl⟩ := pollInterruptEndpoint_eq_some he
    exact { h with }
  | controlEndpoint e he =>
    obtain ⟨heap, rfl⟩ := pollControlEndpoint_eq_some he
    exact { h with }
  | startReset i req hr =>
    obtain ⟨port, v, rfl⟩ := startReset_eq_some hr
    exact { h with }
  | reset hr hrd ho => exact h.outcome ho
  | _ => exact { h with }

theorem register_reqSignal (s : RunnerWorld W) (d d' : DeviceId) :
    ((s.register d).deviceShared d').reqSignal =
      if d' = d then .signaled s.nextInterrupt else (s.deviceShared d').reqSignal := by
  simp only [RunnerWorld.register, RunnerWorld.wake, Heap.modify_apply]
  split
  · exact Signal.signal_fst _ _
  · rfl

/-- A registration replaces the request in the signal. -/
theorem Registry.register (h : s.Registry reg) {d : DeviceId} (hd : d < s.nextDevice) :
    (s.register d).Registry (Function.update reg d (reg d ++ [s.nextInterrupt])) := by
  have hnew : ∀ d', s.nextInterrupt ∉ reg d' := fun d' hmem => Nat.lt_irrefl _ (h.old d' _ hmem)
  have hreg : ∀ d' e, e ∈ Function.update reg d (reg d ++ [s.nextInterrupt]) d' ↔
      e ∈ reg d' ∨ (d' = d ∧ e = s.nextInterrupt) := by
    intro d' e
    by_cases he : d' = d
    · subst he; simp
    · simp [he]
  have hsig := s.register_reqSignal d
  have hlist : ∀ e ∈ s.interruptEndpoints, e < s.nextInterrupt := by
    intro e he
    obtain ⟨d', hd'⟩ := h.listed e he
    exact h.old d' e hd'
  refine { h with signaled := ?_, last := ?_, listed := ?_, old := ?_, distinct := ?_, owner := ?_,
                  fresh := ?_ }
  · intro d' e he
    rw [hsig] at he
    split at he
    next hd' =>
      cases he
      exact ⟨(hreg _ _).mpr (.inr ⟨hd', rfl⟩), fun hmem => Nat.lt_irrefl _ (hlist _ hmem)⟩
    next =>
      obtain ⟨hmem, hnot⟩ := h.signaled d' e he
      exact ⟨(hreg _ _).mpr (.inl hmem), hnot⟩
  · intro d' e he
    rw [hsig]
    by_cases hd' : d' = d
    · subst hd'
      rw [Function.update_self, List.getLast?_concat] at he
      cases he
      exact .inl (if_pos rfl)
    · rw [Function.update_of_ne hd'] at he
      rw [if_neg hd']
      exact h.last d' e he
  · intro e he
    obtain ⟨d', hd'⟩ := h.listed e he
    exact ⟨d', (hreg _ _).mpr (.inl hd')⟩
  · intro d' e he
    rcases (hreg d' e).mp he with he | ⟨-, rfl⟩
    · exact Nat.lt_succ_of_lt (h.old d' e he)
    · exact Nat.lt_succ_self _
  · intro d'
    by_cases hd' : d' = d
    · subst hd'
      rw [Function.update_self, ← List.concat_eq_append]
      exact (h.distinct d').concat (hnew d')
    · rw [Function.update_of_ne hd']
      exact h.distinct d'
  · intro d₁ d₂ e h₁ h₂
    rcases (hreg d₁ e).mp h₁ with h₁ | ⟨hd₁, he₁⟩ <;> rcases (hreg d₂ e).mp h₂ with h₂ | ⟨hd₂, he₂⟩
    · exact h.owner d₁ d₂ e h₁ h₂
    · exact absurd (he₂ ▸ h₁) (hnew d₁)
    · exact absurd (he₁ ▸ h₂) (hnew d₂)
    · rw [hd₁, hd₂]
  · intro d' hd'
    have hne : d' ≠ d := by
      rintro rfl
      exact Nat.not_lt.mpr hd' hd
    rw [Function.update_of_ne hne]
    exact h.fresh d' hd'

end RunnerWorld

/-! ## The calls of the clients -/

/-- What a client holds came out of the calls it made. -/
def DeviceClient.Sound : DeviceClient → Prop
  | .loaded _ => True
  | .configuring c => c.Follows
  | .configured c r => c.Follows ∧ c.todo = [] ∧ c.result = some r

namespace DriverWorld

variable {W : Type} [Wakers W] {oc : OverflowChecks} {s s' : DriverWorld W}

/-- The invariant of the driver about registrations. -/
structure Registered (s : DriverWorld W) : Prop where
  registry : s.runner.Registry s.registered
  client : ∀ d cl, s.clients d = some cl → cl.Sound ∧ d < s.runner.nextDevice

omit [Wakers W] in
theorem registered_of_client {d : DeviceId} {cl : DeviceClient} (h : s.clients d = some cl) :
    s.registered d = cl.registered := by
  rw [DriverWorld.registered, h]
  rfl

omit [Wakers W] in
theorem registered_of_none {d : DeviceId} (h : s.clients d = none) : s.registered d = [] := by
  rw [DriverWorld.registered, h]
  rfl

omit [Wakers W] in
theorem Started.registered (h : s.Started) : s.Registered := by
  have hreg : s.registered = fun _ => [] := by
    funext d
    exact registered_of_none (h.clients d)
  refine ⟨?_, fun d cl hcl => by rw [h.clients d] at hcl; cases hcl⟩
  rw [hreg]
  exact {
    signaled := fun d e he => by rw [h.device d] at he; cases he
    last := fun d e he => by cases he
    listed := fun e he => by rw [h.interruptEndpoints] at he; cases he
    nodup := by rw [h.interruptEndpoints]; exact List.nodup_nil
    old := fun d e he => by cases he
    distinct := fun _ => List.nodup_nil
    owner := fun d d' e he => by cases he
    fresh := fun _ _ => rfl
    answered := fun a ha => by rw [h.answers] at ha; cases ha }

omit [Wakers W] in
theorem registered_setClient (d : DeviceId) (cl : DeviceClient) :
    (s.setClient d cl).registered = Function.update s.registered d cl.registered := by
  funext d'
  by_cases hd : d' = d
  · subst hd
    simp [DriverWorld.registered, setClient]
  · simp [DriverWorld.registered, setClient, Heap.modify_apply, hd]

omit [Wakers W] in
theorem clients_setClient {P : DeviceId → DeviceClient → Prop} {d : DeviceId} {cl : DeviceClient}
    (h : ∀ d cl, s.clients d = some cl → P d cl) (hd : P d cl) (d' : DeviceId) (cl' : DeviceClient)
    (hcl : (s.setClient d cl).clients d' = some cl') : P d' cl' := by
  simp only [DriverWorld.setClient, Heap.modify_apply] at hcl
  split at hcl
  next he =>
    cases hcl
    exact he ▸ hd
  next => exact h d' cl' hcl

omit [Wakers W] in
theorem Registered.setClient (h : s.Registered) {d : DeviceId} (cl : DeviceClient) (hcl : cl.Sound)
    (hd : d < s.runner.nextDevice) (hreg : cl.registered = s.registered d) :
    (s.setClient d cl).Registered := by
  refine ⟨?_, clients_setClient h.client ⟨hcl, hd⟩⟩
  rw [registered_setClient, hreg, Function.update_eq_self]
  exact h.registry

omit [Wakers W] in
theorem Registered.setRunner (h : s.Registered) (runner : RunnerWorld W) {loaded : List ControlEpId}
    {watched : List InterruptEpId} (hr : runner.Registry s.registered)
    (hn : s.runner.nextDevice ≤ runner.nextDevice) :
    Registered { s with runner, loaded, watched } :=
  ⟨hr, fun d cl hcl => ⟨(h.client d cl hcl).1, Nat.lt_of_lt_of_le (h.client d cl hcl).2 hn⟩⟩

theorem Registered.register (h : s.Registered) {d : DeviceId} {c : Configuring}
    (hcl : s.clients d = some (.configuring c)) (hreg : c.registers = true) :
    Registered { s.setClient d (.configuring (c.next s.runner.nextInterrupt)) with
      runner := s.runner.register d } := by
  obtain ⟨hfollows, hd⟩ := h.client d _ hcl
  refine ⟨?_, clients_setClient h.client ⟨Configuring.Follows.next hfollows, hd⟩⟩
  have hids : s.registered d = c.interruptIds := registered_of_client hcl
  have hnext := c.interruptIds_next s.runner.nextInterrupt
  rw [if_pos hreg, ← hids] at hnext
  have hr := h.registry.register hd
  rw [← hnext] at hr
  exact registered_setClient (s := s) d _ ▸ hr

/-- **Every step keeps the invariant.** -/
theorem Registered.step (h : s.Registered) {a : DriverLabel W} (hs : s.step oc a = some s') :
    s'.Registered := by
  have hreg := h.registry
  cases Stepped.of_step hs with
  | @resetDevice i req hi => exact h.setRunner (s.runner.resetDevice i req) { hreg with } le_rfl
  | @load device qhMem a ha hr hnew hcl =>
    have hset := h.setClient (.loaded device) trivial (hreg.answered a ha device hr)
      (registered_of_none hcl).symm
    have hreg' := hset.registry
    exact hset.setRunner (s.runner.load device qhMem) { hreg' with } le_rfl
  | setConfiguration device c hcl hc =>
    obtain ⟨hfollows, hids⟩ := Configuring.start_follows hc
    exact h.setClient (.configuring c) hfollows (h.client _ _ hcl).2
      (hids.trans (registered_of_client hcl).symm)
  | returns c r hcl htodo hr =>
    obtain ⟨hfollows, hd⟩ := h.client _ _ hcl
    exact h.setClient (.configured c r) ⟨hfollows, htodo, hr⟩ hd (registered_of_client hcl).symm
  | registers c hcl hr => exact h.register hcl hr
  | goesOn c hcl hr =>
    obtain ⟨hfollows, hd⟩ := h.client _ _ hcl
    exact h.setClient _ (Configuring.Follows.next hfollows) hd
      ((c.interruptIds_of_not_registers _ hr).trans (registered_of_client hcl).symm)
  | @watch d ep res c r qh iv =>
    exact h.setRunner (s.runner.startWatch ep res.qh qh iv) { hreg with } le_rfl
  | @irq usbSts => exact h.setRunner (s.runner.interrupt usbSts) { hreg with } le_rfl
  | wakeRunner => exact h.setRunner s.runner.wakeRunner { hreg with } le_rfl
  | poll runner hw hp =>
    have hp' := RunnerWorld.poll_invariant (fun _ _ hm hstep => hm.pollStep hstep) hp hreg
    exact h.setRunner runner hp' (RunnerWorld.steps_frame (RunnerWorld.poll_steps (fun _ => id) hp)).2

theorem Registered.of_exec {s₀ : DriverWorld W} (h0 : s₀.Started) {tr : List (DriverLabel W)}
    (h : exec (DriverWorld.step oc) s₀ tr = some s) : s.Registered :=
  exec_invariant h0.registered (fun _ _ _ hm hs => hm.step hs) h

omit [Wakers W] in
/-- A device with one interrupt endpoint keeps its registration. -/
theorem Registered.count_eq_one (h : s.Registered) {d : DeviceId} {c : Configuring}
    {r : ConfiguredDeviceOrHub} (hcl : s.clients d = some (.configured c r))
    (hone : interruptCount (c.info.shape c.index) ≤ 1)
    (hsig : (s.runner.deviceShared d).reqSignal.isSignaled = false) {ep : InterruptEndpoint}
    (hep : ep ∈ r.interruptEndpoints) : s.runner.interruptEndpoints.count ep.shared = 1 := by
  obtain ⟨⟨hfollows, htodo, hresult⟩, -⟩ := h.client d _ hcl
  have hreg : s.registered d = c.interruptIds := registered_of_client hcl
  have hmem : ep.shared ∈ c.interruptIds := by
    refine List.mem_map_of_mem ?_
    rw [Configuring.interruptEndpoints, interruptEndpointsOf_append]
    exact List.mem_append_left _ (Configuring.mem_interruptEndpoints_of_result hresult hep)
  have hids : c.interruptIds = [ep.shared] := by
    rw [← hfollows.interruptIds_length htodo] at hone
    obtain ⟨x, hx⟩ := List.length_eq_one_iff.mp
      (le_antisymm hone (List.length_pos_of_mem hmem))
    rw [hx, List.mem_singleton] at hmem
    rw [hx, hmem]
  rcases h.registry.last d ep.shared (by rw [hreg, hids]; rfl) with hs | hlisted
  · rw [hs] at hsig
    cases hsig
  · exact List.count_eq_one_of_mem h.registry.nodup hlisted

end DriverWorld

/-! ## What is lost -/

namespace RunnerWorld

/-- The runner of one device, with nothing to do but its registrations. -/
structure Quiet (s : RunnerWorld TaskWaker) : Prop where
  resettingDevice : s.resettingDevice = none
  usbInt : s.irq.newUsbInt = false
  usbErrInt : s.irq.newUsbErrInt = false
  asyncAdvance : s.irq.newAsyncAdvance = false
  portChangeDetect : s.irq.newPortChangeDetect = false
  devices : s.devices = [(0, 0)]
  interruptEndpoints : s.interruptEndpoints = []
  controlEndpoints : s.controlEndpoints = [0]
  nPorts : s.nPorts = 1
  control : (s.controlShared 0).reqSignal = .none
  rootPort : (s.rootPorts 0).reqSignal = .waiting ⟨0⟩
  task : s.runnerTask = 0
  fresh : ∀ e, (s.deviceShared 0).reqSignal = .signaled e → (s.interruptShared e).reqSignal = .none

variable {s : RunnerWorld TaskWaker}

theorem Quiet.register (h : s.Quiet) : (s.register 0).Quiet := by
  refine { h with fresh := fun e he => ?_ }
  rw [register_reqSignal, if_pos rfl] at he
  cases he
  simp [RunnerWorld.register, RunnerWorld.wake, InterruptEndpointSharedState.default]

theorem Quiet.poll (h : s.Quiet) {e : InterruptEpId} (oc : OverflowChecks) (rds : ResetReadings)
    (hsig : (s.deviceShared 0).reqSignal = .signaled e) :
    ∃ s', s.poll oc ⟨0⟩ [rds] = some s' ∧ s'.interruptEndpoints = [e] ∧
      (s'.deviceShared 0).reqSignal.isSignaled = false := by
  have he := h.fresh e hsig
  obtain ⟨hr, hu, hue, ha, hp, hd, hi, hc, hn, hcs, hrp, -, -⟩ := h
  -- the poll, stage by stage
  simp [RunnerWorld.poll, beginPoll, pollFlags, forwardUsbInt, handleAsyncAdvance, forwardPortChange,
    IrqHandlerSharedState.register, hu, hue, ha, hp, pollDevices, deviceIds, hd, pollDevice, hsig,
    Signal.pollWait, RunnerWorld.wake, pollInterruptEndpoints, hi, pollInterruptEndpoint, he,
    pollControlEndpoints, hc, pollControlEndpoint, hcs, resetLoop, resetIter, hr, hn, pollRootPorts,
    hrp, Wakers.willWake, pollRootPort, Signal.isSignaled]

end RunnerWorld

namespace DriverWorld

variable {s : DriverWorld TaskWaker}

/-- How many steps a call has to go before it returns. -/
def stepsLeft : List (List EndpointInfo) → Nat
  | [] => 0
  | endpoints :: todo => endpoints.length + 1 + stepsLeft todo

theorem stepsLeft_next {c : Configuring} (shared : InterruptEpId) (h : c.todo ≠ []) :
    stepsLeft (c.next shared).todo < stepsLeft c.todo := by
  unfold Configuring.next
  split
  next htodo => exact absurd htodo h
  next htodo => simp [stepsLeft, htodo]
  next htodo => simp [stepsLeft, htodo]

/-- A call goes through its configuration while the runner is not polled. -/
theorem exec_configure (oc : OverflowChecks) (n : Nat) {c : Configuring} (hn : stepsLeft c.todo ≤ n)
    (hq : s.runner.Quiet) (hcl : s.clients 0 = some (.configuring c)) :
    ∃ tr s' c', exec (DriverWorld.step oc) s tr = some s' ∧ s'.runner.Quiet ∧
      s'.clients 0 = some (.configuring c') ∧ c'.todo = [] ∧ c'.info = c.info ∧ c'.index = c.index := by
  induction n generalizing s c with
  | zero =>
    have htodo : c.todo = [] := by
      cases h : c.todo with
      | nil => rfl
      | cons l todo => simp [stepsLeft, h] at hn
    exact ⟨[], s, c, rfl, hq, hcl, htodo, rfl, rfl⟩
  | succ n ih =>
    by_cases htodo : c.todo = []
    · exact ⟨[], s, c, rfl, hq, hcl, htodo, rfl, rfl⟩
    set s₁ : DriverWorld TaskWaker :=
      { s.setClient 0 (.configuring (c.next s.runner.nextInterrupt)) with
        runner := if c.registers then s.runner.register 0 else s.runner } with hs₁
    have hstep : DriverWorld.step oc s (.configure 0) = some s₁ := by
      simp [DriverWorld.step, configuring, hcl, configureNext, htodo, hs₁]
    have hq₁ : s₁.runner.Quiet := by
      rw [hs₁]
      dsimp only
      split
      · exact hq.register
      · exact hq
    have hlt := stepsLeft_next s.runner.nextInterrupt htodo
    obtain ⟨tr, s', c', hexec, hrest⟩ := ih (s := s₁) (c := c.next s.runner.nextInterrupt)
      (by omega) hq₁ (by simp [hs₁, setClient])
    rw [Configuring.next_info.1, Configuring.next_info.2] at hrest
    refine ⟨.configure 0 :: tr, s', c', ?_, hrest⟩
    rw [exec, hstep, Option.bind_some, hexec]

theorem exec_exampleLoad : ∃ s, exec (DriverWorld.step .on) exampleDriver exampleLoad = some s ∧
    s.runner.Quiet ∧ s.clients 0 = some (.loaded exampleDevice) := by
  obtain ⟨s, hs, hr, hu, hue, ha, hp, hd, hi, hc, hn, hcs, hrp, ht, hsig, hcl⟩ := exec_witness
    (DriverWorld.step .on) exampleDriver exampleLoad
    (fun s => s.runner.resettingDevice.isNone = true ∧ s.runner.irq.newUsbInt = false ∧
      s.runner.irq.newUsbErrInt = false ∧ s.runner.irq.newAsyncAdvance = false ∧
      s.runner.irq.newPortChangeDetect = false ∧ s.runner.devices = [(0, 0)] ∧
      s.runner.interruptEndpoints = [] ∧ s.runner.controlEndpoints = [0] ∧ s.runner.nPorts = 1 ∧
      (s.runner.controlShared 0).reqSignal = .none ∧ (s.runner.rootPorts 0).reqSignal = .waiting ⟨0⟩ ∧
      s.runner.runnerTask = 0 ∧ (s.runner.deviceShared 0).reqSignal = .waiting ⟨0⟩ ∧
      s.clients 0 = some (.loaded exampleDevice)) (by decide +kernel)
  refine ⟨s, hs, ⟨Option.isNone_iff_eq_none.mp hr, hu, hue, ha, hp, hd, hi, hc, hn, hcs, hrp, ht, ?_⟩, hcl⟩
  intro e he
  rw [hsig] at he
  cases he

end DriverWorld

/-! ## When no registration is lost -/

open DriverWorld

/-- However the steps of the driver are ordered: once `set_configuration` has returned for that
configuration and the signal of the device is empty, the runner lists each interrupt endpoint it
returned once. -/
def RegistrationsKept (info : DeviceInfo) (index : Nat) : Prop :=
  ∀ (W : Type) [Wakers W] (oc : OverflowChecks) (s₀ s : DriverWorld W) (tr : List (DriverLabel W)),
    s₀.Started → exec (DriverWorld.step oc) s₀ tr = some s →
    ∀ d c r, s.clients d = some (.configured c r) → c.info = info → c.index = index →
      (s.runner.deviceShared d).reqSignal.isSignaled = false →
      ∀ ep ∈ r.interruptEndpoints, s.runner.interruptEndpoints.count ep.shared = 1

/-- The configuration has at most one interrupt endpoint, or it is that of a hub whose first
endpoint is none, for which `set_configuration` panics. -/
def FitsSignal (info : DeviceInfo) (index : Nat) : Prop :=
  interruptCount (info.shape index) ≤ 1 ∨
    (info.deviceClass = 0x9 ∧ (info.shape index).head?.bind List.head? ≠ some .interrupt)

/-- A call of `set_configuration` that the runner is not polled during. -/
theorem exec_setConfiguration {info : DeviceInfo} {index : Nat} (h : ¬ FitsSignal info index) :
    ∃ tr s c r, exec (DriverWorld.step .on) exampleDriver tr = some s ∧ s.runner.Quiet ∧
      s.clients 0 = some (.configured c r) ∧ c.info = info ∧ c.index = index := by
  obtain ⟨hcount, hhub⟩ := not_or.mp h
  obtain ⟨s₁, hexec₁, hquiet₁, hcl₁⟩ := exec_exampleLoad
  obtain ⟨cfg, hcfg⟩ : ∃ cfg, info.configurations[index]? = some cfg := by
    refine Option.ne_none_iff_exists'.mp fun hnone => hcount ?_
    simp [interruptCount, DeviceInfo.shape, hnone]
  obtain ⟨c, hc, hinfo, hindex⟩ : ∃ c, Configuring.start exampleDevice info index = some c ∧
      c.info = info ∧ c.index = index :=
    ⟨_, by rw [Configuring.start, hcfg]; rfl, rfl, rfl⟩
  have hstart : exec (DriverWorld.step .on) s₁ [.setConfiguration 0 info index] =
      some (s₁.setClient 0 (.configuring c)) := by
    simp [exec, DriverWorld.step, hcl₁, hc]
  obtain ⟨tr₂, s₂, c₂, hexec₂, hquiet₂, hcl₂, htodo, hinfo₂, hindex₂⟩ :=
    exec_configure (s := s₁.setClient 0 (.configuring c)) .on (stepsLeft c.todo) le_rfl hquiet₁
      (by simp [setClient])
  have hexec : exec (DriverWorld.step .on) exampleDriver
      (exampleLoad ++ ([.setConfiguration 0 info index] ++ tr₂)) = some s₂ :=
    exec_trans hexec₁ (exec_trans hstart hexec₂)
  have hfollows := ((Registered.of_exec (started_start ..) hexec).client 0 _ hcl₂).1
  rw [hinfo] at hinfo₂
  rw [hindex] at hindex₂
  obtain ⟨r, hr⟩ : ∃ r, c₂.result = some r := by
    rw [← Option.ne_none_iff_exists', Ne, hfollows.result_eq_none_iff htodo, hinfo₂, hindex₂]
    exact hhub
  have hreturn : exec (DriverWorld.step .on) s₂ [.configure 0] =
      some (s₂.setClient 0 (.configured c₂ r)) := by
    simp [exec, DriverWorld.step, configuring, hcl₂, configureNext, htodo, hr]
  exact ⟨_, _, c₂, r, exec_trans hexec hreturn, hquiet₂, by simp [setClient], hinfo₂, hindex₂⟩

theorem getLast_ne_head {l : List InterruptEpId} (hl : l.Nodup) (h : 1 < l.length) (hne : l ≠ [])
    {x : InterruptEpId} (hx : l.head? = some x) : x ≠ l.getLast hne := by
  rcases l with _ | ⟨y, l⟩
  · cases hx
  cases hx
  have hl' : l ≠ [] := List.length_pos_iff.mp (Nat.lt_of_succ_lt_succ h)
  rw [List.getLast_cons hl']
  rintro he
  exact (List.nodup_cons.mp hl).1 (he ▸ List.getLast_mem hl')

/-- With two registrations and no poll in between, the first one is lost. -/
theorem exists_lost {info : DeviceInfo} {index : Nat} (h : ¬ FitsSignal info index) :
    ∃ tr s c r ep, exec (DriverWorld.step .on) exampleDriver tr = some s ∧
      s.clients 0 = some (.configured c r) ∧ c.info = info ∧ c.index = index ∧
      (s.runner.deviceShared 0).reqSignal.isSignaled = false ∧
      ep ∈ r.interruptEndpoints ∧ s.runner.interruptEndpoints.count ep.shared = 0 := by
  obtain ⟨tr, s, c, r, hexec, hquiet, hcl, hinfo, hindex⟩ := exec_setConfiguration h
  have hreg := Registered.of_exec (started_start ..) hexec
  obtain ⟨⟨hfollows, htodo, hr⟩, -⟩ := hreg.client 0 _ hcl
  have hids : s.registered 0 = c.interruptIds := registered_of_client hcl
  have hlen : 1 < c.interruptIds.length := by
    rw [hfollows.interruptIds_length htodo, hinfo, hindex]
    exact Nat.lt_of_not_le (not_or.mp h).1
  have hne : c.interruptIds ≠ [] := List.length_pos_iff.mp (Nat.lt_of_succ_lt hlen)
  obtain ⟨ep, hep, hhead⟩ := hfollows.result_head htodo hr hne
  -- the signal holds the last registration, and the next poll lists it alone
  have hsig : (s.runner.deviceShared 0).reqSignal = .signaled (c.interruptIds.getLast hne) := by
    refine (hreg.registry.last 0 _ ?_).resolve_right fun hmem => ?_
    · rw [hids, List.getLast?_eq_getLast_of_ne_nil hne]
    · rw [hquiet.interruptEndpoints] at hmem
      cases hmem
  obtain ⟨runner, hpoll, hlist, hempty⟩ := hquiet.poll .on exampleReadings hsig
  have hstep : exec (DriverWorld.step .on) s [.poll ⟨0⟩ [exampleReadings]] = some { s with runner } := by
    simp [exec, DriverWorld.step, Wakers.task, hquiet.task, hpoll]
  refine ⟨_, _, c, r, ep, exec_trans hexec hstep, hcl, hinfo, hindex, hempty, hep, ?_⟩
  have hdistinct : ep.shared ≠ c.interruptIds.getLast hne :=
    getLast_ne_head (hids ▸ hreg.registry.distinct 0) hlen hne hhead
  simp [hlist, hdistinct.symm]

/-- **When no registration is lost.** -/
theorem registrationsKept_iff (info : DeviceInfo) (index : Nat) :
    RegistrationsKept info index ↔ FitsSignal info index := by
  constructor
  · intro h
    by_contra hfits
    obtain ⟨tr, s, c, r, ep, hexec, hcl, hinfo, hindex, hsig, hep, hcount⟩ := exists_lost hfits
    have := h TaskWaker .on exampleDriver s tr (started_start ..) hexec 0 c r hcl hinfo hindex hsig ep hep
    omega
  · intro hfits W _ oc s₀ s tr h0 hexec d c r hcl hinfo hindex hsig ep hep
    have hreg := Registered.of_exec h0 hexec
    subst hinfo hindex
    rcases hfits with hone | hhub
    · exact hreg.count_eq_one hcl hone hsig hep
    · obtain ⟨⟨hfollows, htodo, hresult⟩, -⟩ := hreg.client d _ hcl
      rw [(hfollows.result_eq_none_iff htodo).mpr hhub] at hresult
      cases hresult

/-- Two interrupt endpoints, and a poll after `set_configuration` has returned. -/
theorem not_registrationsKept : ¬ ∀ (info : DeviceInfo) (index : Nat), RegistrationsKept info index := by
  intro h
  obtain ⟨s, hs, hcl, hsig, hcount⟩ := exec_witness (DriverWorld.step .on) exampleDriver
    (exampleLoad ++ [.setConfiguration 0 exampleInfo 0, .configure 0, .configure 0, .configure 0,
      .configure 0, .poll ⟨0⟩ [exampleReadings]])
    (fun s => s.clients 0 = some (.configured
        ⟨exampleDevice, exampleInfo, 0, [], [],
          [⟨[.interrupt (exampleInterrupt 0), .interrupt (exampleInterrupt 1)]⟩]⟩
        (.device [⟨[.interrupt (exampleInterrupt 0), .interrupt (exampleInterrupt 1)]⟩])) ∧
      (s.runner.deviceShared 0).reqSignal.isSignaled = false ∧
      s.runner.interruptEndpoints.count 0 = 0) (by decide +kernel)
  have := h exampleInfo 0 TaskWaker .on exampleDriver s _ (started_start ..) hs 0 _ _ hcl rfl rfl hsig
    (exampleInterrupt 0) (by simp [ConfiguredDeviceOrHub.interruptEndpoints, EndpointEnum.interrupt?])
  rw [exampleInterrupt, hcount] at this
  cases this

end EzEhci
