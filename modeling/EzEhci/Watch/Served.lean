import EzEhci.Reset.World
import EzEhci.Watch.Schedule

/-!
# Every watched endpoint is scheduled or waits for the runner

Until the runner runs, clients can only ask for resets (`Started`). When it
starts running the periodic lists are empty, and from then on they are those of
the calls served so far. Slot 0 of the frame list leads through all of them, so
the controller visits every served endpoint at least once in 1024 frames.
-/

namespace EzEhci

open Lib

/-! ## The driver -/

namespace DriverWorld

variable {W : Type} [Wakers W] {dma : Dma} {calls : List WatchCall} {s s' : DriverWorld W}
  {oc : OverflowChecks} {a : DriverLabel W}

theorem Started.step (h : s.Started) (ha : a.isPoll = false) (hs : s.step oc a = some s') :
    s'.Started ∧ s'.runner.callbacks = s.runner.callbacks ∧
      ∀ sender, (RunLabel.client a).watchCalls oc sender = [] := by
  have hnone : ∀ {d cl}, s.clients d ≠ some cl := fun {d cl} hcl => by
    rw [h.clients d] at hcl
    cases hcl
  cases Stepped.of_step hs with
  | @resetDevice i req hi =>
    refine ⟨{ h with rootPort := fun j w hw => ?_ }, rfl, fun _ => rfl⟩
    simp only [RunnerWorld.resetDevice, RunnerWorld.wake, Heap.modify_apply] at hw
    split at hw
    · rw [Signal.signal_fst] at hw
      cases hw
    · exact h.rootPort j w hw
  | load answer hanswer =>
    rw [h.answers] at hanswer
    cases hanswer
  | setConfiguration _ _ hcl => exact absurd hcl hnone
  | returns _ _ hcl => exact absurd hcl hnone
  | registers _ hcl => exact absurd hcl hnone
  | goesOn _ hcl => exact absurd hcl hnone
  | watch _ _ _ _ hcl => exact absurd hcl hnone
  | irq | wakeRunner => exact ⟨{ h with }, rfl, fun _ => rfl⟩
  | poll => cases ha

structure Watching (dma : Dma) (calls : List WatchCall) (s : DriverWorld W) : Prop where
  registered : s.Registered
  watched : ∀ c ∈ calls, c.shared ∈ s.watched
  scheduled : ∃ served, s.runner.Scheduled dma calls served

omit [Wakers W] in
theorem Registered.mem_of_configured (h : s.Registered) {d : DeviceId} {c : Configuring}
    {r : ConfiguredDeviceOrHub} (hcl : s.clients d = some (.configured c r)) {ep : InterruptEndpoint}
    (hep : ep ∈ r.interruptEndpoints) : ep.shared ∈ s.registered d := by
  obtain ⟨⟨-, -, hr⟩, -⟩ := h.client _ _ hcl
  rw [registered_of_client hcl]
  refine List.mem_map_of_mem ?_
  rw [Configuring.interruptEndpoints, interruptEndpointsOf_append]
  exact List.mem_append_left _ (Configuring.mem_interruptEndpoints_of_result hr hep)

namespace Watching

/-- **A call of a client.** -/
theorem call (h : Watching dma calls s) (ha : a.isPoll = false) (hs : s.step oc a = some s')
    (hp : ∀ d ep res, a = .watch d ep res →
      res.qh.Usable dma s.runner.periodic.mgr.ctrlDsSegment ∧ ∀ c ∈ calls, c.ptr ≠ res.qh.ptr) :
    Watching dma (calls ++ (RunLabel.client a).watchCalls oc s.runner.nextSender) s' := by
  have hreg := h.registered.step hs
  obtain ⟨served, hsch⟩ := h.scheduled
  cases Stepped.of_step hs with
  | @watch d ep res c r qh iv hcl hep hnew hq =>
    obtain ⟨hu, hmem⟩ := hp d ep res rfl
    have hcalls : (RunLabel.client (.watch d ep res) : RunLabel W).watchCalls oc s.runner.nextSender =
        [⟨ep.shared, s.runner.nextSender, ⟨res.qh, iv⟩⟩] := by
      rw [RunLabel.watchCalls, hq]
      rfl
    rw [hcalls]
    refine ⟨hreg, fun c' hc' => ?_, served, ?_⟩
    · rcases List.mem_append.mp hc' with hc' | hc'
      · exact List.mem_cons_of_mem _ (h.watched c' hc')
      · rw [List.mem_singleton.mp hc']
        exact List.mem_cons_self
    · refine hsch.startWatch qh iv ?_ (fun c' hc' heq => hnew (heq ▸ h.watched c' hc')) hu hmem
      exact h.registered.registry.old d _ (h.registered.mem_of_configured hcl hep)
  | registers =>
    show Watching dma (calls ++ []) _
    rw [List.append_nil]
    exact ⟨hreg, h.watched, served, hsch.register _⟩
  | resetDevice | load | setConfiguration | returns | goesOn | irq | wakeRunner =>
    show Watching dma (calls ++ []) _
    rw [List.append_nil]
    exact ⟨hreg, h.watched, served, { hsch with }⟩
  | poll => cases ha

/-- **A tick of the runner.** -/
theorem tick (h : Watching dma calls s) {w : W} {rds : ResetReadings} {pc : PollPc}
    {pc' : Option PollPc} {r : RunnerWorld W} (ht : s.runner.tick oc w rds pc = some (r, pc')) :
    Watching dma calls { s with runner := r } := by
  have hsteps := RunnerWorld.tick_steps (R := fun _ => True) trivial ht
  have hreg := RunnerWorld.steps_invariant (fun _ _ hm hstep => hm.pollStep hstep) hsteps
    h.registered.registry
  obtain ⟨served, hsch⟩ := h.scheduled
  obtain ⟨l, hsch'⟩ := hsch.tick ht
  exact ⟨h.registered.setRunner r hreg (RunnerWorld.steps_frame hsteps).2, h.watched, served ++ l, hsch'⟩

omit [Wakers W] in
theorem setRunner (h : Watching dma calls s) (r : RunnerWorld W)
    (hreg : ∀ {reg}, s.runner.Registry reg → r.Registry reg) (hnext : s.runner.nextDevice ≤ r.nextDevice)
    (hsch : ∀ {served}, s.runner.Scheduled dma calls served → r.Scheduled dma calls served) :
    Watching dma calls { s with runner := r } := by
  obtain ⟨served, h'⟩ := h.scheduled
  exact ⟨h.registered.setRunner r (hreg h.registered.registry) hnext, h.watched, served, hsch h'⟩

end Watching

omit [Wakers W] in
theorem Started.watching (h : s.Started) (hcb : s.runner.callbacks = []) {heap : Heap QhWithMetaP}
    {seg : CtrlDsSegment} (hper : s.runner.periodic = ⟨heap, .new .empty seg⟩) :
    Watching dma [] s where
  registered := h.registered
  watched := nofun
  scheduled := ⟨[], {
    rep := by
      rw [hper]
      exact PeriodicRep.empty dma heap seg
    callbacks := hcb.symm
    called := nofun
    once := List.nodup_nil
    requested := fun e req => by simp [h.interrupt e, Signal.value?]
    distinct := List.nodup_nil
    endpoints := List.nodup_nil
    memory := List.nodup_nil
    usable := nofun
    old := nofun
    known := nofun }⟩

end DriverWorld

/-! ## The runner from its creation -/

namespace RunWorld

variable {W : Type} [Wakers W] {dma : Dma} {calls : List WatchCall} {s s' : RunWorld W}
  {oc : OverflowChecks} {w : W} {rds : StartReadings} {reset : ResetReadings} {pc : RunPc}
  {pc' : Option RunPc}

/-- Nothing was asked of the driver, or the runner is running and serves the calls of `watch`. -/
structure Watches (dma : Dma) (calls : List WatchCall) (s : RunWorld W) : Prop where
  idle : s.state ≠ .running → s.driver.Started ∧ s.driver.runner.callbacks = [] ∧ calls = []
  watching : s.state = .running → s.driver.Watching dma calls

namespace Watches

omit [Wakers W] in
theorem quiet (h : Watches dma calls s) {rootPorts : Heap (RootPortSharedState W)} {woken : TaskId → Bool}
    (hreq : ∀ i, (rootPorts i).reqSignal = (s.driver.runner.rootPorts i).reqSignal)
    (hstate : s'.state = s.state)
    (hdriver : s'.driver = { s.driver with runner := { s.driver.runner with rootPorts, woken } }) :
    Watches dma calls s' := by
  refine ⟨fun hidle => ?_, fun hrun => ?_⟩
  · rw [hstate] at hidle
    obtain ⟨hst, hcb, hcalls⟩ := h.idle hidle
    rw [hdriver]
    exact ⟨{ hst with rootPort := fun i w hw => hst.rootPort i w ((hreq i).symm.trans hw) }, hcb, hcalls⟩
  · rw [hstate] at hrun
    rw [hdriver]
    exact (h.watching hrun).setRunner _ (fun hreg => { hreg with }) le_rfl fun hsch => { hsch with }

theorem pollReset (h : Watches dma calls s) (i : Nat) (w : W) : Watches dma calls (s.pollReset i w) := by
  refine h.quiet (fun j => ?_) rfl rfl
  simp only [Heap.modify_apply]
  split <;> rfl

omit [Wakers W] in
theorem notRunning (h : Watches dma calls s) (hs : s.state ≠ .running) {s' : RunWorld W}
    (hs' : s'.state ≠ .running) {woken : TaskId → Bool}
    (hdriver : s'.driver = { s.driver with runner := { s.driver.runner with woken } }) :
    Watches dma calls s' := by
  obtain ⟨hst, hcb, hcalls⟩ := h.idle hs
  refine ⟨fun _ => ?_, fun hrun => absurd hrun hs'⟩
  rw [hdriver]
  exact ⟨{ hst with }, hcb, hcalls⟩

theorem setUp (h : Watches dma calls s) (hs : s.state ≠ .running) {config : StartConfig} {m : RunWorld W}
    (hm : s.setUp rds config = some m) : Watches dma calls (m.respond (.ok ())) := by
  obtain ⟨heap, usbCmd, regs, rfl⟩ := setUp_eq_some hm
  obtain ⟨hst, hcb, rfl⟩ := h.idle hs
  refine ⟨fun hidle => absurd rfl hidle, fun _ => ?_⟩
  have hst' : DriverWorld.Started { s.driver with
      runner := startRunning s.driver.runner config heap usbCmd } := { hst with
    resettingDevice := rfl
    devices := rfl
    interruptEndpoints := rfl
    controlEndpoints := rfl
    removedBefore := rfl
    queuedToRemove := rfl }
  exact (hst'.watching hcb rfl).setRunner _ (fun hreg => { hreg with }) le_rfl fun hsch => { hsch with }

/-- **A tick of the runner**, wherever it is in its loop. -/
theorem tick (h : Watches dma calls s) (hpc : pc.Fits s.state) (ht : Ticked oc w rds reset s pc s' pc') :
    Watches dma calls s' := by
  cases ht with
  | idle | runs | delayed | delays => exact h.quiet (fun _ => rfl) rfl rfl
  | noReq => exact h.quiet (fun _ => rfl) rfl rfl
  | halted hstate => exact h.notRunning (by rw [hstate]; nofun) nofun rfl
  | isReset hstate _ hm => exact h.setUp (by rw [hstate]; nofun) hm
  | timedOut hstate =>
    refine h.notRunning ?_ nofun rfl
    rcases hstate with ⟨hs, -⟩ | ⟨hs, -⟩ <;> (rw [hs]; nofun)
  | @taken req =>
    obtain ⟨error, hstate⟩ := hpc
    cases req with
    | start config => exact h.notRunning (by rw [hstate]; nofun) nofun rfl
  | running hr =>
    have hrun : s.state = .running := hpc
    exact ⟨fun hidle => absurd hrun hidle, fun _ => (h.watching hrun).tick hr⟩

end Watches

end RunWorld

namespace WatchWorld

variable {W : Type} [Wakers W] {dma : Dma} {s s' s₀ : WatchWorld W} {oc : OverflowChecks}

structure Inv (dma : Dma) (s : WatchWorld W) : Prop where
  place : s.run.InPlace
  watches : s.run.Watches dma s.calls

omit [Wakers W] in
theorem Begun.inv (h : s.Begun) : s.Inv dma := by
  obtain ⟨driver, hst, hcb, rfl⟩ := h
  exact ⟨⟨fun _ => trivial, nofun⟩, fun _ => ⟨hst, hcb, rfl⟩, nofun⟩

omit [Wakers W] in
theorem Inv.overlay (h : s.Inv dma) (p : Ptr) (qh : Qh) : (s.overlay p qh).Inv dma := by
  refine ⟨⟨h.place.resume, h.place.poll⟩, fun hidle => ?_, fun hrun => ?_⟩
  · obtain ⟨hst, hcb, hcalls⟩ := h.watches.idle hidle
    exact ⟨{ hst with }, hcb, hcalls⟩
  · refine (h.watches.watching hrun).setRunner _ (fun hreg => { hreg with }) le_rfl fun hsch => ?_
    have hrep := hsch.rep.congr (s.runner.periodic.heap.modify p fun m =>
        { m with qh := { qh with horizontalLinkPtr := m.qh.horizontalLinkPtr } })
      (fun q _ => by rw [Heap.modify_apply]; split <;> rfl)
      (fun q _ => by rw [Heap.modify_apply]; split <;> rfl)
      (fun q _ => by rw [Heap.modify_apply]; split <;> rfl)
    exact { hsch with rep := hrep }

theorem Inv.step (h : s.Inv dma) {a : WatchLabel W} (hs : s.step dma oc a = some s') : s'.Inv dma := by
  cases a with
  | overlay p qh =>
    cases hs
    exact h.overlay p qh
  | run a =>
    obtain ⟨hperm, hs⟩ := Option.ite_none_right_eq_some.mp hs
    obtain ⟨run, hrun, rfl⟩ := Option.map_eq_some_iff.mp hs
    refine ⟨(h.place.step hrun).1, ?_⟩
    have hquiet : ∀ {run : RunWorld W}, run.Watches dma s.calls → run.Watches dma (s.calls ++ []) :=
      fun hw => (List.append_nil s.calls).symm ▸ hw
    cases RunWorld.Stepped.of_step hrun with
    | @client a driver ha hd =>
      refine ⟨fun hidle => ?_, fun hrunning => ?_⟩
      · obtain ⟨hst, hcb, hcalls⟩ := h.watches.idle hidle
        obtain ⟨hst', hcb', hnone⟩ := hst.step ha hd
        exact ⟨hst', hcb'.trans hcb, by rw [hcalls, hnone]; rfl⟩
      · refine (h.watches.watching hrunning).call ha hd ?_
        rintro d ep res rfl
        exact hperm
    | pollReset i w => exact hquiet (h.watches.pollReset i w)
    | callStart | pollStart | dropStart | startPoll =>
      exact hquiet (h.watches.quiet (fun _ => rfl) rfl rfl)
    | @tick _ _ w pc m pc' hpoll ht =>
      have hw := h.watches.tick (h.place.poll w pc hpoll) ht
      exact hquiet ⟨hw.idle, hw.watching⟩

/-- The calls `served` of `watch` are those the runner has served, and the periodic lists, in the
order of the `chain`, are those of their queue heads. -/
structure Served (dma : Dma) (s : WatchWorld W) (served : List WatchCall) (chain : List PeriodicEntry) :
    Prop where
  /-- The callback of a served call was fired, once, and no other. -/
  callbacks : served.map WatchCall.callback = s.runner.callbacks
  once : s.runner.callbacks.Nodup
  called : ∀ c ∈ served, c ∈ s.calls
  /-- The request of every other call is in the signal of its endpoint. -/
  waiting : ∀ c ∈ s.calls, c ∉ served →
    (s.runner.interruptShared c.shared).reqSignal.value? = some c.req
  /-- The lists are those of the served calls; in slot 0 the controller visits all of them. -/
  lists : ChainInvariant dma s.runner.periodic (served.map WatchCall.entry) chain
  visited : FrameWalk dma s.runner.periodic 0 (ptrs chain)
  /-- The runner panics over no request. -/
  serves : ∀ w e, (s.runner.pollInterruptEndpoint w e).isSome = true

theorem served_of_scheduled {served : List WatchCall} (h : s.runner.Scheduled dma s.calls served) :
    s.Served dma served (scheduleOf (served.map WatchCall.entry)) where
  callbacks := h.callbacks
  once := by
    rw [← h.callbacks]
    exact h.once.map_on fun c hc d hd hcd =>
      List.inj_on_of_nodup_map h.distinct (h.called c hc) (h.called d hd) hcd
  called := h.called
  waiting c hc hnot := (h.requested _ _).mpr ⟨c, hc, hnot, rfl, rfl⟩
  lists := by
    obtain ⟨order, harr⟩ := arranged_scheduleOf (served.map WatchCall.entry)
    exact h.rep.chainInvariant harr (scheduleOf_perm _)
  visited := by
    cases hhead : (scheduleOf (served.map WatchCall.entry)).head? with
    | some d => exact h.rep.walk_of_head hhead (h.rep.slots.zero d hhead)
    | none =>
      rw [List.head?_eq_none_iff.mp hhead]
      exact PeriodicRep.walk_of_terminated (h.rep.slots.unused 0 fun d hd => by rw [hhead] at hd; cases hd)
  serves w e := by
    obtain ⟨s', l, hs', -⟩ := h.pollInterruptEndpoint w e
    rw [hs', Option.isSome_some]

/-- **No watched endpoint is lost.** In every run of the driver from its creation: once the runner is
running, every call of `watch` has been served or is in the signal of its endpoint; a callback fires
once, for a call; and the periodic lists are those of the calls served. -/
theorem served_of_exec (h0 : s₀.Begun) {tr : List (WatchLabel W)}
    (h : exec (WatchWorld.step dma oc) s₀ tr = some s) (hrun : s.run.state = .running) :
    ∃ served chain, s.Served dma served chain := by
  have hinv : s.Inv dma := exec_invariant h0.inv (fun _ _ _ hm hs => hm.step hs) h
  obtain ⟨served, hsch⟩ := (hinv.watches.watching hrun).scheduled
  exact ⟨served, _, served_of_scheduled hsch⟩

/-! ## A run -/

def example₀ : WatchWorld TaskWaker := ⟨.new DriverWorld.exampleDriver, []⟩

def examplePoll (n : Nat) : List (WatchLabel TaskWaker) :=
  (RunLabel.startPoll ⟨0⟩ :: RunWorld.exampleTicks n 0 true).map .run

def exampleCalls (l : List (DriverLabel TaskWaker)) : List (WatchLabel TaskWaker) :=
  l.map fun a => .run (.client a)

def exampleResources (qh : BitVec 64) : WatchInterruptResources :=
  ⟨⟨qh, qh.toNat⟩, ⟨0x8000, 0x8000, 2⟩, ⟨0x9000, 0x9000, 16⟩⟩

/-- A device with two interrupt endpoints is reset and configured; both are watched, and the runner
is polled once in between. -/
def exampleWatch : List (WatchLabel TaskWaker) :=
  .run (.callStart RunWorld.exampleConfig) :: examplePoll 16 ++
  exampleCalls [.resetDevice 0 (ResetWorld.exampleRequest 0x2000)] ++ examplePoll 14 ++
  exampleCalls [.irq (UsbStsReg.zero.set .asyncAdvance)] ++ examplePoll 13 ++
  exampleCalls [.load DriverWorld.exampleDevice ⟨0x5000, 0x5000⟩,
    .setConfiguration 0 DriverWorld.exampleInfo 0, .configure 0] ++ examplePoll 14 ++
  exampleCalls [.configure 0, .configure 0, .configure 0,
    .watch 0 (DriverWorld.exampleInterrupt 0) (exampleResources 0x6000)] ++ examplePoll 15 ++
  exampleCalls [.watch 0 (DriverWorld.exampleInterrupt 1) (exampleResources 0x7000)]

/-- One of the two calls was served, the other one waits. -/
theorem served_of_exec_two : ∃ s,
    exec (WatchWorld.step .identity .on) example₀ exampleWatch = some s ∧
    s.calls.map WatchCall.callback = [1, 2] ∧ s.runner.callbacks = [1] ∧
    ∃ served chain, s.Served .identity served chain := by
  obtain ⟨s, hs, hrun, hcalls, hcb⟩ := exec_witness (WatchWorld.step .identity .on) example₀ exampleWatch
    (fun s => s.run.state.isRunning = true ∧ s.calls.map WatchCall.callback = [1, 2] ∧
      s.runner.callbacks = [1]) (by decide +kernel)
  have hstate : s.run.state = .running := by
    cases h : s.run.state with
    | running => rfl
    | _ => rw [h] at hrun; cases hrun
  exact ⟨s, hs, hcalls, hcb, served_of_exec ⟨_, DriverWorld.started_start .., rfl, rfl⟩ hs hstate⟩

end WatchWorld

end EzEhci
