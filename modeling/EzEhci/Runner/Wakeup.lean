import EzEhci.Runner.Registration
import EzEhci.Runner.Rest
import EzEhci.Runner.Running

/-!
# When the runner sleeps on a request

The calls of the clients against the invariant `Resting`, between any two ticks
of a poll. A signal that holds the runner's waker wakes the runner, so a request
is left lying only where a poll took an earlier request from the same signal:
`Ready` empties the signal and does not register again. Devices are loaded once
and endpoints watched once, which leaves the second registration of a device,
sent after the poll that took the first one has passed the device, or later.
-/

namespace EzEhci

open Lib

namespace RunnerWorld

variable {W : Type} [Wakers W] {s : RunnerWorld W} {u u' : Unused}

structure Unused.Le (u u' : Unused) : Prop where
  device : ∀ d, u.device d → u'.device d
  interrupt : ∀ e, u.interrupt e → u'.interrupt e
  control : ∀ e, u.control e → u'.control e

theorem Polling.mono (h : s.Polling u) (hu : u'.Le u) : s.Polling u' :=
  { h with
    device := fun d => (h.device d).mono (hu.device d)
    interrupt := fun e => (h.interrupt e).mono (hu.interrupt e)
    control := fun e => (h.control e).mono (hu.control e) }

theorem RequestRef.Served.mono {r : RequestRef} (h : r.Served u s) (hu : u'.Le u) : r.Served u' s := by
  cases r with
  | device d => exact EzEhci.Served.mono h (hu.device d)
  | interrupt e => exact EzEhci.Served.mono h (hu.interrupt e)
  | control e => exact EzEhci.Served.mono h (hu.control e)
  | rootPort i => exact h

theorem Served.wakes_runner {T : Type} {sig : Signal W T} {unused : Prop}
    (h : Served s.runnerTask unused sig) (hsig : unused ∨ sig ≠ .none) (v : T) :
    (s.wake (sig.signal v).2).runnerWoken ≠ false := by
  rw [runnerWoken_wake, h.wakes hsig v, Bool.or_true]
  decide

variable {s' : RunnerWorld W} {pc : Option PollPc}

/-- What a client's call changes: it sends a request, and no other signal. -/
structure Requests (u u' : Unused) (s s' : RunnerWorld W) (pc : Option PollPc) : Prop where
  polling : s'.Polling u'
  resettingDevice : s'.resettingDevice = s.resettingDevice
  receiver : s.Receiver → s'.Receiver
  pending : s'.pending = s.pending
  listed : ∀ r : RequestRef, r.Listed s' → r.Listed s
  woken : s'.runnerWoken = false → s.runnerWoken = false
  served : s'.runnerWoken = false → ∀ r : RequestRef, r.Listed s → r.Served u s →
    r.Served u' s' ∨ r.Due s pc

theorem Resting.requests (h : s.Resting u pc) (hr : Requests u u' s s' pc) : s'.Resting u' pc where
  toPolling := hr.polling
  receiver hall := hr.receiver (h.receiver hall)
  idle todo he := hr.resettingDevice.trans (h.idle todo he)
  covered hwoken r hl := by
    have hdue : r.Due s pc → r.Due s' pc := by
      cases pc with
      | none => exact hr.pending.trans
      | some pc => exact id
    rcases h.covered (hr.woken hwoken) r (hr.listed r hl) with hserved | hd
    · exact (hr.served hwoken r (hr.listed r hl) hserved).imp_right hdue
    · exact .inr (hdue hd)

theorem Resting.resetDevice (h : s.Resting u pc) (i : Nat) (req : ResetDeviceResources) :
    (s.resetDevice i req).Resting u pc := by
  refine h.requests {
    polling := (h.toPolling.modifyRootPort ((h.rootPort i).signal req)).wake _
    resettingDevice := rfl
    receiver := id
    pending := rfl
    listed := fun r hl => by cases r <;> exact hl
    woken := runnerWoken_of_wake
    served := fun hwoken r hl hs => .inl ?_ }
  cases r with
  | rootPort j =>
    by_cases hji : j = i
    · subst hji
      exact absurd hwoken (Served.wakes_runner hs (.inl trivial) req)
    · show EzEhci.Served s.runnerTask True ((s.rootPorts.modify i fun sh =>
        { sh with reqSignal := ((s.rootPorts i).reqSignal.signal req).1 }) j).reqSignal
      rw [Heap.modify_of_ne _ _ hji]
      exact hs
  | _ => exact hs

/-- The load of a control endpoint, its first and only request. -/
theorem Resting.load (h : s.Resting u pc) (hu : u'.Le u) {device : Device} (qhMem : MappedMem)
    (hunused : u.control device.ep0) (hused : ¬ u'.control device.ep0) :
    (s.load device qhMem).Resting u' pc := by
  refine h.requests {
    polling := ?_
    resettingDevice := rfl
    receiver := id
    pending := rfl
    listed := fun r hl => by cases r <;> exact hl
    woken := runnerWoken_of_wake
    served := fun hwoken r hl hs => .inl ?_ }
  · have hfair : Fair s.runnerTask (u'.control device.ep0) _ :=
      ((h.control device.ep0).signal qhMem).mono hused
    have hp := ((h.toPolling.mono hu).modifyControl (f := fun sh => { sh with
      reqSignal := ((s.controlShared device.ep0).reqSignal.signal qhMem).1 }) hfair).wake
      ((s.controlShared device.ep0).reqSignal.signal qhMem).2
    exact { hp with }
  · cases r with
    | control e =>
      by_cases hne : e = device.ep0
      · subst hne
        exact absurd hwoken (Served.wakes_runner hs (.inl hunused) qhMem)
      · show EzEhci.Served s.runnerTask (u'.control e) ((s.controlShared.modify device.ep0 fun sh =>
          { sh with reqSignal := ((s.controlShared device.ep0).reqSignal.signal qhMem).1 }) e).reqSignal
        rw [Heap.modify_of_ne _ _ hne]
        exact EzEhci.Served.mono hs (hu.control e)
    | _ => exact RequestRef.Served.mono hs hu

/-- The watch of an interrupt endpoint, its first and only request. -/
theorem Resting.startWatch (h : s.Resting u pc) (hu : u'.Le u) {ep : InterruptEndpoint}
    (qhMem : MappedMem) (qh : Qh) (interval : NormalizedInterval) (hunused : u.interrupt ep.shared)
    (hused : ¬ u'.interrupt ep.shared) : (s.startWatch ep qhMem qh interval).Resting u' pc := by
  set req : AddInterruptQhReq := ⟨qhMem, interval, s.nextSender⟩ with hreq
  refine h.requests {
    polling := ?_
    resettingDevice := rfl
    receiver := id
    pending := rfl
    listed := fun r hl => by cases r <;> exact hl
    woken := runnerWoken_of_wake
    served := fun hwoken r hl hs => .inl ?_ }
  · have hfair : Fair s.runnerTask (u'.interrupt ep.shared) _ :=
      ((h.interrupt ep.shared).signal req).mono hused
    have hp := ((h.toPolling.mono hu).modifyInterrupt (f := fun sh => { sh with
      reqSignal := ((s.interruptShared ep.shared).reqSignal.signal req).1 }) hfair).wake
      ((s.interruptShared ep.shared).reqSignal.signal req).2
    exact { hp with sender := fun x hx => Nat.lt_succ_of_lt (h.sender x hx) }
  · cases r with
    | interrupt e =>
      by_cases hne : e = ep.shared
      · subst hne
        exact absurd hwoken (Served.wakes_runner hs (.inl hunused) req)
      · show EzEhci.Served s.runnerTask (u'.interrupt e) ((s.interruptShared.modify ep.shared fun sh =>
          { sh with reqSignal := ((s.interruptShared ep.shared).reqSignal.signal req).1 }) e).reqSignal
        rw [Heap.modify_of_ne _ _ hne]
        exact EzEhci.Served.mono hs (hu.interrupt e)
    | _ => exact RequestRef.Served.mono hs hu

/-- A registration that finds the runner's waker, or a poll that still comes to the signal. -/
theorem Resting.register (h : s.Resting u pc) (hu : u'.Le u) {d : DeviceId} (hused : ¬ u'.device d)
    (hnew : s.nextInterrupt ∉ s.interruptEndpoints)
    (hfinds : s.runnerWoken = false → d ∈ s.deviceIds →
      u.device d ∨ (s.deviceShared d).reqSignal ≠ .none ∨ (RequestRef.device d).Due s pc) :
    (s.register d).Resting u' pc := by
  refine h.requests {
    polling := ?_
    resettingDevice := rfl
    receiver := id
    pending := rfl
    listed := fun r hl => by cases r <;> exact hl
    woken := runnerWoken_of_wake
    served := fun hwoken r hl hs => ?_ }
  · have hfair : Fair s.runnerTask (u'.device d) _ :=
      ((h.device d).signal s.nextInterrupt).mono hused
    have hp := (((h.toPolling.mono hu).modifyInterrupt (e := s.nextInterrupt)
      (f := fun _ => .default) Fair.none).modifyDevice (f := fun sh => { sh with
        reqSignal := ((s.deviceShared d).reqSignal.signal s.nextInterrupt).1 }) hfair).wake
      ((s.deviceShared d).reqSignal.signal s.nextInterrupt).2
    exact { hp with }
  · cases r with
    | device d' =>
      by_cases hne : d' = d
      · subst hne
        rcases hfinds (runnerWoken_of_wake hwoken) hl with hsig | hsig | hdue
        · exact absurd hwoken (Served.wakes_runner hs (.inl hsig) s.nextInterrupt)
        · exact absurd hwoken (Served.wakes_runner hs (.inr hsig) s.nextInterrupt)
        · exact .inr hdue
      · left
        show EzEhci.Served s.runnerTask (u'.device d') ((s.deviceShared.modify d fun sh =>
          { sh with reqSignal := ((s.deviceShared d).reqSignal.signal s.nextInterrupt).1 }) d').reqSignal
        rw [Heap.modify_of_ne _ _ hne]
        exact EzEhci.Served.mono hs (hu.device d')
    | interrupt e =>
      -- the new endpoint is not in the runner's list yet
      have hne : e ≠ s.nextInterrupt := by
        rintro rfl
        exact hnew hl
      left
      show EzEhci.Served s.runnerTask (u'.interrupt e)
        ((s.interruptShared.modify s.nextInterrupt fun _ => .default) e).reqSignal
      rw [Heap.modify_of_ne _ _ hne]
      exact EzEhci.Served.mono hs (hu.interrupt e)
    | _ => exact .inl (RequestRef.Served.mono hs hu)

theorem runnerWoken_register {d : DeviceId} (h : (s.deviceShared d).reqSignal = .none) :
    (s.register d).runnerWoken = s.runnerWoken := by
  simp [RunnerWorld.register, h, Signal.signal, runnerWoken, RunnerWorld.wake]

theorem Resting.wakeMore (h : s.Resting u pc) (irq : IrqHandlerSharedState) {woken : TaskId → Bool}
    (hw : ∀ t, s.woken t = true → woken t = true) : Resting u { s with irq, woken } pc :=
  h.requests {
    polling := { h.toPolling with
      removal := fun rd addr sender waker hrd hstep hsent =>
        hw _ (h.removal rd addr sender waker hrd hstep hsent) }
    resettingDevice := rfl
    receiver := id
    pending := rfl
    listed := fun r hl => by cases r <;> exact hl
    woken := fun hwoken => Bool.eq_false_iff.mpr fun ht => by
      rw [show RunnerWorld.runnerWoken { s with irq, woken } = true from hw _ ht] at hwoken
      cases hwoken
    served := fun _ r _ hs => .inl (by cases r <;> exact hs) }

end RunnerWorld

/-! ## The driver -/

namespace DriverWorld

variable {W : Type} [Wakers W] {oc : OverflowChecks} {s s' : DriverWorld W} {pc : Option PollPc}

/-- What the clients have not used so far. -/
def unused (s : DriverWorld W) : RunnerWorld.Unused :=
  ⟨fun d => s.registered d = [], fun e => e ∉ s.watched, fun e => e ∉ s.loaded⟩

/-- A second registration for a device the runner serves, after a poll took the last one: the poll in
progress does not come to it any more, and the runner was not woken. -/
def BlindConfigure (s : DriverWorld W) (pc : Option PollPc) (d : DeviceId) : Prop :=
  d ∈ s.runner.deviceIds ∧ (s.configuring d).any Configuring.registers = true ∧ s.registered d ≠ [] ∧
    (s.runner.deviceShared d).reqSignal = .none ∧ s.runner.runnerWoken = false ∧
    ¬ (RunnerWorld.RequestRef.device d).Due s.runner pc

theorem Started.resting (h : s.Started) : s.runner.Resting s.unused none where
  rootPort i := ⟨fun w hw => absurd hw (h.rootPort i w), False.elim⟩
  device d := by rw [h.device d]; exact Fair.none
  interrupt e := by rw [h.interrupt e]; exact Fair.none
  control e := by rw [h.control e]; exact Fair.none
  sender x hx := by simp [AsyncState.senders, h.sent, h.removedBefore, h.queuedToRemove] at hx
  removal rd _ _ _ hrd := by rw [h.resettingDevice] at hrd; cases hrd
  receiver _ rd _ _ _ hrd := by rw [h.resettingDevice] at hrd; cases hrd
  idle _ he := by cases he
  covered _ _ _ := .inr h.pending

omit [Wakers W] in
theorem unused_setClient {d : DeviceId} (cl : DeviceClient) (h : cl.registered = s.registered d) :
    (s.setClient d cl).unused = s.unused := by
  have hreg : (s.setClient d cl).registered = s.registered := by
    rw [registered_setClient, h, Function.update_eq_self]
  unfold unused
  rw [hreg]
  rfl

omit [Wakers W] in
theorem unused_of_registers {d : DeviceId} {cl : DeviceClient} (h : cl.registered ≠ []) :
    (s.setClient d cl).unused.Le s.unused ∧ ¬ (s.setClient d cl).unused.device d := by
  have hreg : ∀ d', (s.setClient d cl).unused.device d' ↔
      Function.update s.registered d cl.registered d' = [] := fun d' => by
    rw [← registered_setClient]
    rfl
  refine ⟨⟨fun d' hd' => ?_, fun _ => id, fun _ => id⟩, ?_⟩
  · rw [hreg] at hd'
    by_cases he : d' = d
    · subst he
      rw [Function.update_self] at hd'
      exact absurd hd' h
    · rwa [Function.update_of_ne he] at hd'
  · rw [hreg, Function.update_self]
    exact h

theorem resting_register (hreg : s.Registered) (h : s.runner.Resting s.unused pc) {d : DeviceId}
    {c : Configuring} (hcl : s.clients d = some (.configuring c)) (hr : c.registers = true)
    (hC : ¬ s.BlindConfigure pc d) :
    (s.runner.register d).Resting
      (s.setClient d (.configuring (c.next s.runner.nextInterrupt))).unused pc := by
  have hne : (DeviceClient.configuring (c.next s.runner.nextInterrupt)).registered ≠ [] := by
    simp [DeviceClient.registered, c.interruptIds_next, hr]
  obtain ⟨hle, hused⟩ := unused_of_registers (s := s) (d := d) hne
  refine h.register hle hused (fun hmem => ?_) fun hwoken hd => ?_
  · obtain ⟨d', hd'⟩ := hreg.registry.listed _ hmem
    exact Nat.lt_irrefl _ (hreg.registry.old d' _ hd')
  · by_contra hnot
    obtain ⟨hne, hnot⟩ := not_or.mp hnot
    obtain ⟨hnone, hdue⟩ := not_or.mp hnot
    exact hC ⟨hd, by simp [configuring, hcl, hr], hne, not_not.mp hnone, hwoken, hdue⟩

/-- **Every call but a blind registration keeps the runner at rest.** -/
theorem resting_call (hreg : s.Registered) (h : s.runner.Resting s.unused pc) {a : DriverLabel W}
    (ha : a.isCall = true) (hC : ∀ d, a = .configure d → ¬ s.BlindConfigure pc d)
    (hs : s.step oc a = some s') : s'.runner.Resting s'.unused pc := by
  cases Stepped.of_step hs with
  | @resetDevice i req hi => exact h.resetDevice i req
  | @load device qhMem a ha hr hnew hcl =>
    have hdev := congrArg RunnerWorld.Unused.device
      (unused_setClient (.loaded device) (registered_of_none hcl).symm)
    refine h.load ?_ qhMem hnew fun hn => hn List.mem_cons_self
    exact ⟨fun d hd => hdev ▸ hd, fun _ => id, fun e he hmem => he (List.mem_cons_of_mem _ hmem)⟩
  | setConfiguration device c hcl hc =>
    have hids := (Configuring.start_follows hc).2
    rw [unused_setClient (.configuring c) (hids.trans (registered_of_client hcl).symm)]
    exact h
  | returns c r hcl htodo hr =>
    rw [unused_setClient (.configured c r) (registered_of_client hcl).symm]
    exact h
  | @registers d c hcl hr => exact resting_register hreg h hcl hr (hC d rfl)
  | goesOn c hcl hr =>
    have hids := c.interruptIds_of_not_registers s.runner.nextInterrupt hr
    rw [unused_setClient (.configuring (c.next s.runner.nextInterrupt))
      (hids.trans (registered_of_client hcl).symm)]
    exact h
  | @watch d ep res c r qh iv hcl hep hnew hq =>
    refine h.startWatch ?_ res.qh qh iv hnew fun hn => hn List.mem_cons_self
    exact ⟨fun _ => id, fun e he hmem => he (List.mem_cons_of_mem _ hmem), fun _ => id⟩
  | wakeRunner =>
    refine h.wakeMore s.runner.irq fun t ht => ?_
    rw [Function.update_apply]
    split
    · rfl
    · exact ht
  | irq => cases ha
  | poll => cases ha

theorem runnerTask_call {a : DriverLabel W} (ha : a.isCall = true) (hs : s.step oc a = some s') :
    s'.runner.runnerTask = s.runner.runnerTask := by
  cases Stepped.of_step hs with
  | poll => cases ha
  | _ => rfl

instance [DecidableEq W] (s : DriverWorld W) (pc : Option PollPc) (d : DeviceId) :
    Decidable (s.BlindConfigure pc d) :=
  inferInstanceAs (Decidable (_ ∧ _ ∧ _ ∧ _ ∧ _ ∧ ¬ _))

end DriverWorld

namespace RunningWorld

variable {W : Type} [Wakers W] {oc : OverflowChecks} {s s' : RunningWorld W}

def pc (s : RunningWorld W) : Option PollPc := s.poll.map Prod.snd

def BlindRegistration (s : RunningWorld W) : RunningLabel W → Prop
  | .client (.configure d) => s.driver.BlindConfigure s.pc d
  | _ => False

instance [DecidableEq W] (s : RunningWorld W) (a : RunningLabel W) : Decidable (s.BlindRegistration a) :=
  match a with
  | .client (.configure d) => inferInstanceAs (Decidable (s.driver.BlindConfigure s.pc d))
  | .client (.resetDevice ..) | .client (.load ..) | .client (.setConfiguration ..) | .client (.watch ..)
  | .client (.irq ..) | .client .wakeRunner | .client (.poll ..) | .irqWake | .irqStore .. | .startPoll ..
  | .tick .. => .isFalse id

structure AtRest (s : RunningWorld W) : Prop where
  registered : s.driver.Registered
  resting : s.driver.runner.Resting s.driver.unused s.pc
  task : ∀ p ∈ s.poll, Wakers.task p.1 = s.driver.runner.runnerTask

/-- **Every step but a blind registration keeps the runner at rest.** -/
theorem AtRest.step (h : s.AtRest) {a : RunningLabel W} (hC : ¬ s.BlindRegistration a)
    (hs : s.step oc a = some s') : s'.AtRest := by
  have hreg := h.registered.registry
  cases a with
  | client a =>
    obtain ⟨ha, driver, hd, rfl⟩ := step_client hs
    have hblind : ∀ d, a = .configure d → ¬ s.driver.BlindConfigure s.pc d := by
      rintro d rfl
      exact hC
    exact ⟨h.registered.step hd, DriverWorld.resting_call h.registered h.resting ha hblind hd,
      fun p hp => (h.task p hp).trans (DriverWorld.runnerTask_call ha hd).symm⟩
  | irqWake =>
    cases hs
    exact ⟨h.registered.setRunner s.driver.runner.irqWake { hreg with } le_rfl,
      h.resting.wakeMore _ fun t ht => by simp [ht], h.task⟩
  | irqStore b =>
    cases hs
    exact ⟨h.registered.setRunner (s.driver.runner.irqStore b) { hreg with } le_rfl,
      h.resting.wakeMore _ fun _ => id, h.task⟩
  | startPoll w =>
    obtain ⟨⟨hnone, hw⟩, hs⟩ := Option.ite_none_right_eq_some.mp hs
    cases hs
    have hpc : s.pc = none := by rw [pc, Option.isNone_iff_eq_none.mp hnone, Option.map_none]
    refine ⟨h.registered.setRunner s.driver.runner.startPoll { hreg with } le_rfl, ?_, fun p hp => ?_⟩
    · have hrest := h.resting
      rw [hpc] at hrest
      exact hrest.startPoll
    · cases hp
      exact hw
  | tick rds =>
    obtain ⟨⟨w, pc⟩, hp, hs⟩ := Option.bind_eq_some_iff.mp hs
    obtain ⟨⟨runner, pc'⟩, ht, rfl⟩ := Option.map_eq_some_iff.mp hs
    have hw : Wakers.task w = s.driver.runner.runnerTask := h.task _ hp
    have hsteps := RunnerWorld.tick_steps (R := fun _ => True) trivial ht
    have hframe := RunnerWorld.steps_frame hsteps
    have hrest := h.resting
    rw [RunningWorld.pc, hp, Option.map_some] at hrest
    refine ⟨h.registered.setRunner runner ?_ hframe.2, ?_, fun p hmem => ?_⟩
    · exact RunnerWorld.steps_invariant (fun _ _ hm hstep => hm.pollStep hstep) hsteps hreg
    · show runner.Resting s.driver.unused ((pc'.map (w, ·)).map Prod.snd)
      rw [Option.map_map, show Prod.snd ∘ (w, ·) = (id : PollPc → PollPc) from rfl, Option.map_id]
      exact hrest.tick hw ht
    · obtain ⟨p', -, rfl⟩ := Option.map_eq_some_iff.mp hmem
      exact hw.trans hframe.1.symm

/-- **When the runner sleeps on a request.** In every run without a blind registration a sleeping
runner has no request to serve; a blind registration while it sleeps leaves it asleep with one. -/
theorem noUnserved_of_asleep {s₀ : DriverWorld W} (h0 : s₀.Started) {tr : List (RunningLabel W)}
    (h : exec (RunningWorld.step oc) ⟨s₀, none⟩ tr = some s) :
    (Meets (RunningWorld.step oc) (fun s a => ¬ s.BlindRegistration a) ⟨s₀, none⟩ tr →
      s.asleep = true → s.driver.runner.NoUnserved) ∧
    ∀ a s', s.asleep = true → s.BlindRegistration a → s.step oc a = some s' →
      s'.asleep = true ∧ ¬ s'.driver.runner.NoUnserved := by
  constructor
  · intro hC ha
    have hinv : s.AtRest := by
      refine exec_invariant_of_meets (I := AtRest) ⟨h0.registered, h0.resting, fun _ hp => by cases hp⟩ ?_ hC h
      exact fun _ _ _ hi hc hs => hi.step hc hs
    obtain ⟨hnone, hsleep⟩ := (Bool.and_eq_true _ _).mp ha
    have hrest := hinv.resting
    rw [pc, Option.isNone_iff_eq_none.mp hnone, Option.map_none] at hrest
    exact hrest.noUnserved hsleep
  · intro a s' ha hblind hs
    cases a with
    | client a =>
      cases a with
      | configure d =>
        obtain ⟨hd, hreg, -, hnone, -, -⟩ := hblind
        obtain ⟨c, hc, hreg⟩ := (Option.any_eq_true _ _).mp hreg
        have hcl := DriverWorld.clients_of_configuring hc
        obtain ⟨-, driver, hdriver, rfl⟩ := step_client hs
        have hr : driver.runner = s.driver.runner.register d := by
          cases DriverWorld.Stepped.of_step hdriver with
          | registers => rfl
          | _ => simp_all [Configuring.registers]
        refine ⟨?_, fun hno => ?_⟩
        · rw [asleep, RunnerWorld.asleep] at ha ⊢
          rw [hr, RunnerWorld.runnerWoken_register hnone]
          exact ha
        · have := hno.device d (by rw [hr]; exact hd)
          rw [hr, RunnerWorld.register_reqSignal, if_pos rfl] at this
          cases this
      | _ => exact hblind.elim
    | _ => exact hblind.elim

def examplePoll (n : Nat) : List (RunningLabel TaskWaker) :=
  .startPoll ⟨0⟩ :: List.replicate n (.tick DriverWorld.exampleReadings)

/-- A device is reset and its endpoint 0 loaded. -/
def exampleLoad : List (RunningLabel TaskWaker) :=
  .client (.resetDevice 0 ⟨⟨0x2000, 0x2000⟩, ⟨0x3000, 0x3000⟩, ⟨0x3040, 0x3040⟩, ⟨0x4000, 0x4000⟩⟩) ::
    examplePoll 14 ++ .irqWake :: .irqStore .asyncAdvance :: examplePoll 13 ++
    .client (.load DriverWorld.exampleDevice ⟨0x5000, 0x5000⟩) :: examplePoll 13

/-- The device registers its first endpoint, which wakes the runner. -/
def exampleRegistration : List (RunningLabel TaskWaker) :=
  exampleLoad ++ [.client (.setConfiguration 0 DriverWorld.exampleInfo 0), .client (.configure 0)]

/-- The runner sleeps after a poll took the first registration. -/
theorem noUnserved_after_registration : ∃ s,
    exec (RunningWorld.step .on) ⟨DriverWorld.exampleDriver, none⟩ (exampleRegistration ++ examplePoll 14) =
      some s ∧ s.asleep = true ∧ s.driver.runner.NoUnserved := by
  obtain ⟨s, hs, ha⟩ := exec_witness (RunningWorld.step .on) ⟨DriverWorld.exampleDriver, none⟩
    (exampleRegistration ++ examplePoll 14) (fun s => s.asleep = true) (by decide +kernel)
  exact ⟨s, hs, ha, (noUnserved_of_asleep (DriverWorld.started_start ..) hs).1 (by decide +kernel) ha⟩

/-- The second endpoint is registered while the runner sleeps. -/
theorem not_noUnserved_of_asleep :
    ¬ ∀ (W : Type) [Wakers W] (oc : OverflowChecks) (s₀ : DriverWorld W) (s : RunningWorld W)
      (tr : List (RunningLabel W)), s₀.Started →
      exec (RunningWorld.step oc) ⟨s₀, none⟩ tr = some s → s.asleep = true →
      s.driver.runner.NoUnserved := by
  intro h
  obtain ⟨s, hs, ha, hd, hsig⟩ := exec_witness (DriverWorld.step .on) DriverWorld.exampleDriver
    (DriverWorld.exampleLoad ++ [.setConfiguration 0 DriverWorld.exampleInfo 0, .configure 0,
      .poll ⟨0⟩ [DriverWorld.exampleReadings], .configure 0])
    (fun s => s.runner.asleep = true ∧ 0 ∈ s.runner.deviceIds ∧
      (s.runner.deviceShared 0).reqSignal.isSignaled = true) (by decide +kernel)
  obtain ⟨tr, htr⟩ := exec_of_driver hs
  have := (h TaskWaker .on DriverWorld.exampleDriver ⟨s, none⟩ tr (DriverWorld.started_start ..) htr ha).device
    0 hd
  rw [hsig] at this
  cases this

/-- The second endpoint is registered in the poll that took the first one, which then returns. -/
example : ((exec (RunningWorld.step .on) ⟨DriverWorld.exampleDriver, none⟩
    (exampleRegistration ++ examplePoll 6 ++
      .client (.configure 0) :: List.replicate 8 (.tick DriverWorld.exampleReadings))).any fun s =>
    s.asleep && (s.driver.runner.deviceShared 0).reqSignal.isSignaled) = true := by
  decide +kernel

end RunningWorld

end EzEhci
