import EzEhci.Runner.Ticks
import EzEhci.Runner.World

/-!
# A poll leaves the runner at rest

When does the runner sleep on a request? A signal wakes the runner only if it
finds the runner's waker, and a poll leaves the waker behind only in a signal it
found empty. `Resting` is the invariant between two ticks: unless the runner was
woken, every signal it serves is empty and holds its waker if no client used it
so far, or the poll in progress still comes to it. A tick keeps it, because a
device comes in only with the poll that the removal of its queue head has woken
again.
-/

namespace EzEhci

open Lib

/-! ## Signals the runner polls -/

section Signals

variable {W T : Type} [Wakers W] {t : TaskId} {unused unused' : Prop} {sig : Signal W T}

/-- A request signal: its waiter is the task `t`, and it holds no value while it is unused. -/
structure Fair (t : TaskId) (unused : Prop) (sig : Signal W T) : Prop where
  task : ∀ w, sig = .waiting w → Wakers.task w = t
  empty : unused → sig.isSignaled = false

/-- A request signal the task `t` has polled. -/
structure Served (t : TaskId) (unused : Prop) (sig : Signal W T) : Prop extends Fair t unused sig where
  unsignaled : sig.isSignaled = false
  waiting : unused → ∃ w, sig = .waiting w

theorem Fair.mono (h : Fair t unused sig) (hu : unused' → unused) : Fair t unused' sig :=
  ⟨h.task, fun h' => h.empty (hu h')⟩

theorem Served.mono (h : Served t unused sig) (hu : unused' → unused) : Served t unused' sig :=
  ⟨h.toFair.mono hu, h.unsignaled, fun h' => h.waiting (hu h')⟩

theorem Fair.none : Fair t unused (.none : Signal W T) := ⟨by simp, fun _ => rfl⟩

theorem Fair.signal (h : Fair t unused sig) (v : T) : Fair t False (sig.signal v).1 := by
  cases sig <;> exact ⟨by simp [Signal.signal], False.elim⟩

theorem Fair.pollWait (h : Fair t unused sig) {w : W} (hw : Wakers.task w = t) :
    Served t unused (sig.pollWait w).state := by
  cases sig with
  | none => exact ⟨⟨fun _ h' => (by cases h'; exact hw), fun _ => rfl⟩, rfl, fun _ => ⟨w, rfl⟩⟩
  | waiting w' =>
    rw [Signal.pollWait]
    split
    · exact ⟨⟨h.task, fun _ => rfl⟩, rfl, fun _ => ⟨w', rfl⟩⟩
    · exact ⟨⟨fun _ h' => (by cases h'; exact hw), fun _ => rfl⟩, rfl, fun _ => ⟨w, rfl⟩⟩
  | signaled v =>
    exact ⟨⟨fun _ h' => (by cases h'), fun _ => rfl⟩, rfl, fun hu => (by cases h.empty hu)⟩

theorem Fair.pollWait_pending (h : Fair t unused sig) {w : W} (hw : Wakers.task w = t)
    (hr : (sig.pollWait w).ready = Option.none) : Served t True (sig.pollWait w).state := by
  have hfair : Fair t True sig := by
    refine ⟨h.task, fun _ => ?_⟩
    cases sig with
    | signaled v => cases hr
    | _ => rfl
  exact hfair.pollWait hw

theorem Served.wakes (h : Served t unused sig) (hsig : unused ∨ sig ≠ .none) (v : T) :
    ((sig.signal v).2.any fun w => Wakers.task w = t) = true := by
  obtain ⟨w, rfl⟩ : ∃ w, sig = .waiting w := by
    rcases hsig with hu | hne
    · exact h.waiting hu
    · cases sig with
      | none => exact absurd rfl hne
      | waiting w => exact ⟨w, rfl⟩
      | signaled v => cases h.unsignaled
  simp [Signal.signal, h.task w rfl]

/-- A poll of one signal of a heap serves it and keeps the others served. -/
theorem served_modify {α : Type} {m : Heap α} {g : α → Signal W T} {f : α → α} {q : Ptr → Prop}
    {a b : Ptr} {w : W} (hw : Wakers.task w = t) (hf : g (f (m a)) = ((g (m a)).pollWait w).state)
    (h : Fair t (q a) (g (m a))) (hb : b = a ∨ Served t (q b) (g (m b))) :
    Served t (q b) (g (m.modify a f b)) := by
  rw [Heap.modify_apply]
  split
  next e =>
    subst e
    rw [hf]
    exact h.pollWait hw
  next hne => exact hb.resolve_left hne

end Signals

/-- A poll that is here still comes to fire the removals. -/
def PollPc.FiresRemoved : PollPc → Prop
  | .register | .usbInt | .usbErrInt _ | .signalDevices _ | .signalInterrupts _ | .signalControls _
  | .asyncAdvance | .fireRemoved => True
  | .portChange | .signalPorts _ | .devices _ | .interrupts _ | .controls _ | .reset
  | .rootPorts _ => False

namespace RunnerWorld

variable {W : Type} [Wakers W] {s s' : RunnerWorld W} {w : W}

theorem runnerWoken_wake (waker : Option W) :
    (s.wake waker).runnerWoken = (s.runnerWoken || waker.any fun w => Wakers.task w = s.runnerTask) :=
  rfl

theorem runnerWoken_wake_of (waker : Option W) (h : s.runnerWoken = true) :
    (s.wake waker).runnerWoken = true := by
  rw [runnerWoken_wake, h, Bool.true_or]

/-- No signal the runner serves holds a request. -/
structure NoUnserved (s : RunnerWorld W) : Prop where
  device : ∀ d ∈ s.deviceIds, (s.deviceShared d).reqSignal.isSignaled = false
  interrupt : ∀ e ∈ s.interruptEndpoints, (s.interruptShared e).reqSignal.isSignaled = false
  control : ∀ e ∈ s.controlEndpoints, (s.controlShared e).reqSignal.isSignaled = false
  rootPort : s.resettingDevice = none →
    ∀ i < s.nPorts, (s.rootPorts i).reqSignal.isSignaled = false

/-! ## The invariant -/

/-- Which request signals no client used so far. -/
structure Unused where
  device : DeviceId → Prop
  interrupt : InterruptEpId → Prop
  control : ControlEpId → Prop

/-- The invariant inside a poll: waiters are the runner, senders are old, and if the removal the
runner waits for is done then the runner was woken for it. -/
structure Polling (u : Unused) (s : RunnerWorld W) : Prop where
  rootPort : ∀ i, Fair s.runnerTask False (s.rootPorts i).reqSignal
  device : ∀ d, Fair s.runnerTask (u.device d) (s.deviceShared d).reqSignal
  interrupt : ∀ e, Fair s.runnerTask (u.interrupt e) (s.interruptShared e).reqSignal
  control : ∀ e, Fair s.runnerTask (u.control e) (s.controlShared e).reqSignal
  sender : ∀ x ∈ s.async.senders, x < s.nextSender
  removal : ∀ rd addr sender waker, s.resettingDevice = some rd →
    rd.step = .waitForQhRemove addr sender waker → sender ∈ s.async.sent → s.runnerWoken = true

/-- The receiver of the removal the runner waits for holds the runner's waker. -/
def Receiver (s : RunnerWorld W) : Prop :=
  ∀ rd addr sender waker, s.resettingDevice = some rd → rd.step = .waitForQhRemove addr sender waker →
    sender ∉ s.async.sent ∧ ∃ w, waker = some w ∧ Wakers.task w = s.runnerTask

variable {u : Unused}

theorem Polling.wake (h : s.Polling u) (waker : Option W) : (s.wake waker).Polling u :=
  { h with removal := fun rd addr sender wk hrd hstep hsent =>
      runnerWoken_wake_of waker (h.removal rd addr sender wk hrd hstep hsent) }

section Modify

variable (h : s.Polling u)

include h

theorem Polling.modifyDevice {d : DeviceId} {f : DeviceSharedState W → DeviceSharedState W}
    (hf : Fair s.runnerTask (u.device d) (f (s.deviceShared d)).reqSignal) :
    Polling u { s with deviceShared := s.deviceShared.modify d f } :=
  have hd := Heap.forall_modify
    (P := fun d (sh : DeviceSharedState W) => Fair s.runnerTask (u.device d) sh.reqSignal) h.device hf
  { h with device := hd }

theorem Polling.modifyInterrupt {e : InterruptEpId}
    {f : InterruptEndpointSharedState W → InterruptEndpointSharedState W}
    (hf : Fair s.runnerTask (u.interrupt e) (f (s.interruptShared e)).reqSignal) :
    Polling u { s with interruptShared := s.interruptShared.modify e f } :=
  have he := Heap.forall_modify (P := fun e (sh : InterruptEndpointSharedState W) =>
    Fair s.runnerTask (u.interrupt e) sh.reqSignal) h.interrupt hf
  { h with interrupt := he }

theorem Polling.modifyControl {e : ControlEpId}
    {f : ControlEndpointSharedState W → ControlEndpointSharedState W}
    (hf : Fair s.runnerTask (u.control e) (f (s.controlShared e)).reqSignal) :
    Polling u { s with controlShared := s.controlShared.modify e f } :=
  have he := Heap.forall_modify (P := fun e (sh : ControlEndpointSharedState W) =>
    Fair s.runnerTask (u.control e) sh.reqSignal) h.control hf
  { h with control := he }

theorem Polling.modifyRootPort {i : Nat} {f : RootPortSharedState W → RootPortSharedState W}
    (hf : Fair s.runnerTask False (f (s.rootPorts i)).reqSignal) :
    Polling u { s with rootPorts := s.rootPorts.modify i f } :=
  have hi := Heap.forall_modify
    (P := fun _ (sh : RootPortSharedState W) => Fair s.runnerTask False sh.reqSignal) h.rootPort hf
  { h with rootPort := hi }

/-! ## The flags -/

theorem Polling.signalUsbInt (d : DeviceId) : (s.signalUsbInt d).Polling u :=
  (h.modifyDevice (h.device d)).wake _

theorem Polling.signalInterruptInt (e : InterruptEpId) : (s.signalInterruptInt e).Polling u :=
  (h.modifyInterrupt (h.interrupt e)).wake _

theorem Polling.signalControlInt (e : ControlEpId) : (s.signalControlInt e).Polling u :=
  (h.modifyControl (h.control e)).wake _

theorem Polling.signalPortChanged (i : Nat) : (s.signalPortChanged i).Polling u :=
  (h.modifyRootPort (h.rootPort i)).wake _

end Modify

/-- If the removal the runner waits for is done, its receiver wakes the runner. -/
theorem Polling.fireRemoved (h : s.Polling u) (hr : s.Receiver) : s.fireRemoved.Polling u := by
  have hsender : ∀ x ∈ (AsyncListManager.handleAsyncAdvance s.async).senders, x < s.nextSender := by
    rw [senders_handleAsyncAdvance]
    exact h.sender
  unfold RunnerWorld.fireRemoved wakeReceiver
  dsimp only
  split
  next rd hrd =>
    split
    next addr sender waker hstep =>
      obtain ⟨hnot, wk, rfl, hwk⟩ := hr rd addr sender waker hrd hstep
      split
      next => exact { h with
        sender := hsender
        removal := fun _ _ _ _ _ _ _ => by rw [runnerWoken_wake]; simp [hwk] }
      next hfired =>
        refine { h with sender := hsender, removal := fun rd' addr' sender' wk' hrd' hstep' hsent => ?_ }
        rw [hrd] at hrd'
        cases hrd'
        rw [hstep] at hstep'
        cases hstep'
        rw [sent_handleAsyncAdvance] at hsent
        exact absurd hsent (by simp [hnot, hfired])
    next hstep =>
      refine { h with sender := hsender, removal := fun rd' addr' sender' wk' hrd' hstep' _ => ?_ }
      rw [hrd] at hrd'
      cases hrd'
      exact absurd hstep' (hstep addr' sender' wk')
  next hrd =>
    exact { h with sender := hsender, removal := fun rd' _ _ _ hrd' _ _ => by rw [hrd] at hrd'; cases hrd' }

/-! ## The requests -/

section Requests

variable (h : s.Polling u) (hw : Wakers.task w = s.runnerTask)

include h hw

theorem Polling.pollDevice (d : DeviceId) : (s.pollDevice w d).Polling u := by
  rw [pollDevice_eq]
  have hp := (h.modifyDevice (f := fun sh =>
    { sh with reqSignal := ((s.deviceShared d).reqSignal.pollWait w).state })
    ((h.device d).pollWait hw).toFair).wake ((s.deviceShared d).reqSignal.pollWait w).woken
  exact { hp with }

theorem Polling.pollInterruptEndpoint {e : InterruptEpId}
    (he : s.pollInterruptEndpoint w e = some s') : s'.Polling u := by
  obtain ⟨periodic, callbacks, rfl⟩ := pollInterruptEndpoint_eq_some he
  have hp := (h.modifyInterrupt (f := fun sh =>
    { sh with reqSignal := ((s.interruptShared e).reqSignal.pollWait w).state })
    ((h.interrupt e).pollWait hw).toFair).wake ((s.interruptShared e).reqSignal.pollWait w).woken
  exact { hp with }

theorem Polling.pollControlEndpoint {e : ControlEpId}
    (he : s.pollControlEndpoint w e = some s') : s'.Polling u := by
  obtain ⟨heap, rfl⟩ := pollControlEndpoint_eq_some he
  have hp := (h.modifyControl (f := fun sh =>
    { sh with reqSignal := ((s.controlShared e).reqSignal.pollWait w).state })
    ((h.control e).pollWait hw).toFair).wake ((s.controlShared e).reqSignal.pollWait w).woken
  exact { hp with }

theorem Polling.pollRootPort (i : Nat) : (s.pollRootPort w i).Polling u :=
  (h.modifyRootPort ((h.rootPort i).pollWait hw).toFair).wake _

end Requests

/-! ## The reset loop -/

theorem Polling.answer (h : s.Polling u) (rd : ResettingDevice W) (result : Except DriverError Device) :
    (s.answer rd result).Polling u :=
  have hp := h.modifyRootPort (f := fun sh =>
    { sh with resSignal := ((s.rootPorts rd.rootPort.toNat).resSignal.signal result).1 })
    (h.rootPort rd.rootPort.toNat)
  { h with
    rootPort := hp.rootPort
    removal := fun _ _ _ _ (hrd : none = some _) => by cases hrd }

theorem Polling.addDevice (h : s.Polling u) (port : RootPortNumber) : (s.addDevice port).Polling u :=
  have hd := h.modifyDevice (d := s.nextDevice) (f := fun _ => .default) Fair.none
  have hc := h.modifyControl (e := s.nextControl) (f := fun _ => .default) Fair.none
  { h with device := hd.device, control := hc.control }

theorem Polling.setReset (h : s.Polling u) (rd : ResettingDevice W)
    (hrd : ∀ addr sender waker, rd.step = .waitForQhRemove addr sender waker → sender ∉ s.async.sent) :
    Polling u { s with resettingDevice := some rd } := by
  refine { h with removal := fun rd' addr sender waker hrd' hstep hsent => ?_ }
  cases hrd'
  exact absurd hsent (hrd addr sender waker hstep)

theorem Polling.queueRemove (h : s.Polling u) (rds : ResetReadings) (rd : ResettingDevice W)
    (addr : BitVec 7) : (s.queueRemove rds rd addr).Polling u where
  rootPort := h.rootPort
  device := h.device
  interrupt := h.interrupt
  control := h.control
  sender x hx := by
    rcases mem_senders_queueRemoveQh _ _ _ hx with hx | rfl
    · exact Nat.lt_succ_of_lt (h.sender x hx)
    · exact Nat.lt_succ_self _
  removal rd' addr' sender waker hrd hstep hsent := by
    cases hrd
    cases hstep
    -- the new sender is not among those fired
    have hmem : s.nextSender ∈ s.async.sent := sent_queueRemoveQh s.async rd.req.qh _ ▸ hsent
    exact absurd (h.sender _ (List.mem_append_left _ hmem)) (Nat.lt_irrefl _)

theorem Polling.outcome {oc : OverflowChecks} {rds : ResetReadings} {rd : ResettingDevice W} {b : Bool}
    (h : s.Polling u) (ho : ResetOutcome oc w rds s rd s' b) : s'.Polling u := by
  cases ho with
  | failed error => exact h.answer rd _
  | resetDone v =>
    have hp := h.setReset { rd with step := .waitForPortToBeEnabled } (by simp)
    exact { hp with }
  | waits hstep => exact h
  | enabled hstep hset =>
    obtain ⟨alloc, packets, qtds, heap, addr, rfl⟩ := startSetAddr_eq_some hset
    have hp := h.setReset { rd with step := .waitForSetAddr addr } (by simp)
    exact { hp with }
  | addressed addr hstep hactive => exact h.queueRemove rds rd addr
  | removed addr sender waker hstep hsent => exact (h.addDevice rd.rootPort).answer rd _
  | registered addr sender waker hstep hsent =>
    refine h.setReset _ fun addr' sender' waker' he => ?_
    cases he
    exact hsent

/-! ## Where a poll is -/

inductive RequestRef where
  | device (d : DeviceId)
  | interrupt (e : InterruptEpId)
  | control (e : ControlEpId)
  | rootPort (i : Nat)
  deriving DecidableEq, Repr

namespace RequestRef

/-- The runner serves the signal. -/
def Listed (s : RunnerWorld W) : RequestRef → Prop
  | .device d => d ∈ s.deviceIds
  | .interrupt e => e ∈ s.interruptEndpoints
  | .control e => e ∈ s.controlEndpoints
  | .rootPort i => s.resettingDevice = none ∧ i < s.nPorts

def Served (u : Unused) (s : RunnerWorld W) : RequestRef → Prop
  | .device d => EzEhci.Served s.runnerTask (u.device d) (s.deviceShared d).reqSignal
  | .interrupt e => EzEhci.Served s.runnerTask (u.interrupt e) (s.interruptShared e).reqSignal
  | .control e => EzEhci.Served s.runnerTask (u.control e) (s.controlShared e).reqSignal
  | .rootPort i => EzEhci.Served s.runnerTask True (s.rootPorts i).reqSignal

/-- A poll that is here still comes to the signal. -/
def DueAt (pc : PollPc) : RequestRef → Prop
  | .device d =>
    match pc with
    | .devices todo => d ∈ todo
    | .interrupts _ | .controls _ | .reset | .rootPorts _ => False
    | _ => True
  | .interrupt e =>
    match pc with
    | .interrupts todo => e ∈ todo
    | .controls _ | .reset | .rootPorts _ => False
    | _ => True
  | .control e =>
    match pc with
    | .controls todo => e ∈ todo
    | .reset | .rootPorts _ => False
    | _ => True
  | .rootPort i =>
    match pc with
    | .rootPorts todo => i ∈ todo
    | _ => True

instance (pc : PollPc) (d : DeviceId) : Decidable ((RequestRef.device d).DueAt pc) :=
  match pc with
  | .devices todo => inferInstanceAs (Decidable (d ∈ todo))
  | .interrupts _ | .controls _ | .reset | .rootPorts _ => .isFalse id
  | .register | .usbInt | .usbErrInt _ | .signalDevices _ | .signalInterrupts _ | .signalControls _
  | .asyncAdvance | .fireRemoved | .portChange | .signalPorts _ => .isTrue trivial

/-- The poll in progress, or the first one, still comes to the signal. -/
def Due (s : RunnerWorld W) : Option PollPc → RequestRef → Prop
  | some pc, r => r.DueAt pc
  | none, _ => s.pending = false

instance (s : RunnerWorld W) (pc : Option PollPc) (d : DeviceId) :
    Decidable ((RequestRef.device d).Due s pc) :=
  match pc with
  | some pc => inferInstanceAs (Decidable ((RequestRef.device d).DueAt pc))
  | none => inferInstanceAs (Decidable (s.pending = false))

end RequestRef

structure Resting (u : Unused) (s : RunnerWorld W) (pc : Option PollPc) : Prop extends Polling u s where
  receiver : (∀ p ∈ pc, p.FiresRemoved) → s.Receiver
  idle : ∀ todo, pc = some (.rootPorts todo) → s.resettingDevice = none
  covered : s.runnerWoken = false → ∀ r : RequestRef, r.Listed s → r.Served u s ∨ r.Due s pc

theorem Resting.noUnserved (h : s.Resting u none) (ha : s.asleep = true) : s.NoUnserved := by
  obtain ⟨hpending, hwoken⟩ := (Bool.and_eq_true _ _).mp ha
  have hall : ∀ r : RequestRef, r.Listed s → r.Served u s := fun r hr =>
    (h.covered (Bool.not_eq_true' _ ▸ hwoken) r hr).resolve_right fun hdue => by
      rw [show s.pending = false from hdue] at hpending
      cases hpending
  exact {
    device d hd := (hall (.device d) hd).unsignaled
    interrupt e he := (hall (.interrupt e) he).unsignaled
    control e he := (hall (.control e) he).unsignaled
    rootPort hr i hi := (hall (.rootPort i) ⟨hr, hi⟩).unsignaled }

theorem Resting.ahead {p : PollPc} (hp : s.Polling u) (hr : p.FiresRemoved → s.Receiver)
    (hidle : ∀ todo, p ≠ .rootPorts todo) (hall : ∀ r : RequestRef, r.Listed s → r.DueAt p) :
    s.Resting u (some p) where
  toPolling := hp
  receiver h := hr (h p rfl)
  idle todo he := absurd (Option.some.inj he) (hidle todo)
  covered _ r hl := .inr (hall r hl)

theorem Resting.goes {p p' : PollPc} (h : s.Resting u (some p)) (hf : ¬ p'.FiresRemoved)
    (hidle : ∀ todo, p' = .rootPorts todo → s.resettingDevice = none)
    (hdue : ∀ r : RequestRef, r.Listed s → r.DueAt p → r.DueAt p') : s.Resting u (some p') where
  toPolling := h.toPolling
  receiver hall := absurd (hall p' rfl) hf
  idle todo he := hidle todo (Option.some.inj he)
  covered hw r hl := (h.covered hw r hl).imp_right (hdue r hl)

/-! ## The ticks -/

theorem runnerWoken_of_wake {waker : Option W} (h : (s.wake waker).runnerWoken = false) :
    s.runnerWoken = false := by
  rw [runnerWoken_wake, Bool.or_eq_false_iff] at h
  exact h.1

section Ticks

variable {d : DeviceId} {e : InterruptEpId} {i : Nat}

theorem Resting.pollDevice {todo : List DeviceId} (h : s.Resting u (some (.devices (d :: todo))))
    (hw : Wakers.task w = s.runnerTask) : (s.pollDevice w d).Resting u (some (.devices todo)) where
  toPolling := h.toPolling.pollDevice hw d
  receiver hall := (hall (.devices todo) rfl).elim
  idle _ he := by cases he
  covered hwoken r hl := by
    rw [pollDevice_eq] at hwoken hl ⊢
    cases r with
    | device d' =>
      by_cases hd : d' ∈ todo
      · exact .inr hd
      refine .inl (served_modify hw rfl (h.device d) ?_)
      by_cases hdd : d' = d
      · exact .inl hdd
      refine .inr ((h.covered (runnerWoken_of_wake hwoken) (.device d') hl).resolve_right fun hdue => ?_)
      exact hd ((List.mem_cons.mp hdue).resolve_left hdd)
    | interrupt e => exact .inr trivial
    | control e => exact .inr trivial
    | rootPort i => exact .inr trivial

theorem Resting.pollInterruptEndpoint {todo : List InterruptEpId}
    (h : s.Resting u (some (.interrupts (e :: todo)))) (hw : Wakers.task w = s.runnerTask)
    (he : s.pollInterruptEndpoint w e = some s') : s'.Resting u (some (.interrupts todo)) where
  toPolling := h.toPolling.pollInterruptEndpoint hw he
  receiver hall := (hall (.interrupts todo) rfl).elim
  idle _ he := by cases he
  covered hwoken r hl := by
    obtain ⟨periodic, callbacks, rfl⟩ := pollInterruptEndpoint_eq_some he
    have hcov := h.covered (runnerWoken_of_wake hwoken) r hl
    cases r with
    | device d => exact .inl (hcov.resolve_right id)
    | interrupt e' =>
      by_cases hmem : e' ∈ todo
      · exact .inr hmem
      refine .inl (served_modify hw rfl (h.interrupt e) ?_)
      by_cases hee : e' = e
      · exact .inl hee
      exact .inr (hcov.resolve_right fun hdue => hmem ((List.mem_cons.mp hdue).resolve_left hee))
    | control e => exact .inr trivial
    | rootPort i => exact .inr trivial

theorem Resting.pollControlEndpoint {todo : List ControlEpId}
    (h : s.Resting u (some (.controls (e :: todo)))) (hw : Wakers.task w = s.runnerTask)
    (he : s.pollControlEndpoint w e = some s') : s'.Resting u (some (.controls todo)) where
  toPolling := h.toPolling.pollControlEndpoint hw he
  receiver hall := (hall (.controls todo) rfl).elim
  idle _ he := by cases he
  covered hwoken r hl := by
    obtain ⟨heap, rfl⟩ := pollControlEndpoint_eq_some he
    have hcov := h.covered (runnerWoken_of_wake hwoken) r hl
    cases r with
    | device d => exact .inl (hcov.resolve_right id)
    | interrupt e => exact .inl (hcov.resolve_right id)
    | control e' =>
      by_cases hmem : e' ∈ todo
      · exact .inr hmem
      refine .inl (served_modify hw rfl (h.control e) ?_)
      by_cases hee : e' = e
      · exact .inl hee
      exact .inr (hcov.resolve_right fun hdue => hmem ((List.mem_cons.mp hdue).resolve_left hee))
    | rootPort i => exact .inr trivial

theorem Resting.pollRootPort {todo : List Nat} (h : s.Resting u (some (.rootPorts (i :: todo))))
    (hw : Wakers.task w = s.runnerTask) (hready : (s.rootPorts i).reqSignal.value? = none) :
    (s.pollRootPort w i).Resting u (some (.rootPorts todo)) where
  toPolling := h.toPolling.pollRootPort hw i
  receiver hall := (hall (.rootPorts todo) rfl).elim
  idle _ _ := h.idle (i :: todo) rfl
  covered hwoken r hl := by
    have hcov := h.covered (runnerWoken_of_wake hwoken) r hl
    cases r with
    | device d => exact .inl (hcov.resolve_right id)
    | interrupt e => exact .inl (hcov.resolve_right id)
    | control e => exact .inl (hcov.resolve_right id)
    | rootPort j =>
      by_cases hmem : j ∈ todo
      · exact .inr hmem
      left
      show EzEhci.Served s.runnerTask True ((s.rootPorts.modify i fun sh =>
        { sh with reqSignal := ((s.rootPorts i).reqSignal.pollWait w).state }) j).reqSignal
      rw [Heap.modify_apply]
      split
      next heq =>
        rw [← Signal.ready_pollWait _ w] at hready
        exact (h.rootPort i).pollWait_pending hw hready
      next hne =>
        exact hcov.resolve_right fun hdue => hmem ((List.mem_cons.mp hdue).resolve_left hne)

theorem Resting.startReset {todo : List Nat} {rds : ResetReadings} {req : ResetDeviceResources}
    (h : s.Resting u (some (.rootPorts (i :: todo)))) (hw : Wakers.task w = s.runnerTask)
    (hs : (s.pollRootPort w i).startReset rds i req = some s') : s'.Resting u (some .reset) where
  toPolling := by
    obtain ⟨port, v, rfl⟩ := startReset_eq_some hs
    have hp := (h.toPolling.pollRootPort hw i).setReset ⟨req, port, .waitingToStopReset, none⟩ (by simp)
    exact { hp with }
  receiver hall := (hall .reset rfl).elim
  idle _ he := by cases he
  covered hwoken r hl := by
    obtain ⟨port, v, rfl⟩ := startReset_eq_some hs
    cases r with
    | device d => exact .inl ((h.covered (runnerWoken_of_wake hwoken) (.device d) hl).resolve_right id)
    | interrupt e =>
      exact .inl ((h.covered (runnerWoken_of_wake hwoken) (.interrupt e) hl).resolve_right id)
    | control e => exact .inl ((h.covered (runnerWoken_of_wake hwoken) (.control e) hl).resolve_right id)
    | rootPort j => exact .inr trivial

variable {oc : OverflowChecks} {rds : ResetReadings} {rd : ResettingDevice W} {b : Bool}

/-- An iteration of the reset loop leaves the other signals alone. A device comes in when the runner is
already woken. -/
theorem Resting.outcome (h : s.Resting u (some .reset)) (hrd : s.resettingDevice = some rd)
    (ho : ResetOutcome oc w rds s rd s' b) (hwoken : s'.runnerWoken = false) {r : RequestRef}
    (hr : ∀ i, r ≠ .rootPort i) (hl : r.Listed s') : r.Served u s' := by
  have hcov : s.runnerWoken = false → r.Listed s → r.Served u s := fun hwoken hl => by
    have hcov := h.covered hwoken r hl
    cases r with
    | device d => exact hcov.resolve_right id
    | interrupt e => exact hcov.resolve_right id
    | control e => exact hcov.resolve_right id
    | rootPort i => exact absurd rfl (hr i)
  cases ho with
  | removed addr sender waker hstep hsent =>
    have hw' : s.runnerWoken = false := runnerWoken_of_wake hwoken
    rw [h.removal rd addr sender waker hrd hstep hsent] at hw'
    cases hw'
  | failed error =>
    cases r with
    | rootPort i => exact absurd rfl (hr i)
    | _ => exact hcov (runnerWoken_of_wake hwoken) hl
  | waits hstep => exact hcov hwoken hl
  | enabled hstep hset =>
    obtain ⟨alloc, packets, qtds, heap, addr, rfl⟩ := startSetAddr_eq_some hset
    cases r with
    | rootPort i => exact absurd rfl (hr i)
    | _ => exact hcov hwoken hl
  | _ =>
    cases r with
    | rootPort i => exact absurd rfl (hr i)
    | _ => exact hcov hwoken hl

theorem ResetOutcome.rests (hrd : s.resettingDevice = some rd) (hw : Wakers.task w = s.runnerTask)
    (ho : ResetOutcome oc w rds s rd s' false) : s'.Receiver ∧ s'.resettingDevice ≠ none := by
  cases ho with
  | waits hstep =>
    refine ⟨fun rd' addr sender waker hrd' hstep' => ?_, fun hnone => ?_⟩
    · rw [hrd] at hrd'
      cases hrd'
      exact absurd hstep' (hstep addr sender waker)
    · rw [hrd] at hnone
      cases hnone
  | registered addr sender waker hstep hsent =>
    refine ⟨fun rd' addr' sender' waker' hrd' hstep' => ?_, fun hnone => by cases hnone⟩
    cases hrd'
    cases hstep'
    exact ⟨hsent, w, rfl, hw⟩

theorem Resting.resets (h : s.Resting u (some .reset)) (hrd : s.resettingDevice = some rd)
    (ho : ResetOutcome oc w rds s rd s' b) : s'.Resting u (some .reset) where
  toPolling := h.toPolling.outcome ho
  receiver hall := (hall .reset rfl).elim
  idle _ he := by cases he
  covered hwoken r hl := by
    cases r with
    | rootPort i => exact .inr trivial
    | _ => exact .inl (h.outcome hrd ho hwoken nofun hl)

theorem Resting.waits (h : s.Resting u (some .reset)) (hr : s.Receiver)
    (hsome : s.resettingDevice ≠ none) : s.suspend.Resting u none := by
  refine { h.toPolling with receiver := fun _ => hr, idle := nofun, covered := fun hwoken r hl => ?_ }
  left
  cases r with
  | device d => exact (h.covered hwoken (.device d) hl).resolve_right id
  | interrupt e => exact (h.covered hwoken (.interrupt e) hl).resolve_right id
  | control e => exact (h.covered hwoken (.control e) hl).resolve_right id
  | rootPort i => exact absurd hl.1 hsome

theorem Resting.suspend (h : s.Resting u (some (.rootPorts []))) : s.suspend.Resting u none := by
  have hnone := h.idle [] rfl
  refine { h.toPolling with receiver := fun _ => ?_, idle := nofun, covered := fun hwoken r hl => ?_ }
  · intro rd addr sender waker hrd
    rw [show s.resettingDevice = some rd from hrd] at hnone
    cases hnone
  · left
    have hcov := h.covered hwoken r hl
    cases r with
    | device d => exact hcov.resolve_right id
    | interrupt e => exact hcov.resolve_right id
    | control e => exact hcov.resolve_right id
    | rootPort i => exact hcov.resolve_right List.not_mem_nil

/-- **A tick** keeps the invariant. -/
theorem Resting.tick {pc : PollPc} {pc' : Option PollPc} (h : s.Resting u (some pc))
    (hw : Wakers.task w = s.runnerTask) (ht : s.tick oc w rds pc = some (s', pc')) :
    s'.Resting u pc' := by
  have hrecv : pc.FiresRemoved → s.Receiver := fun hp => h.receiver fun p hmem => by
    cases hmem
    exact hp
  have hflags : ∀ irq, Polling u { s with irq } := fun irq => { h.toPolling with }
  cases Ticked.of_tick ht with
  | register | usbInt => exact .ahead (hflags _) hrecv nofun fun r _ => by cases r <;> trivial
  | usbErrInt =>
    refine .ahead (hflags _) (fun _ => hrecv trivial) ?_ fun r _ => ?_
    · split <;> nofun
    · split <;> cases r <;> trivial
  | signalsInterrupts | signalsControls | signaled =>
    exact .ahead h.toPolling (fun _ => hrecv trivial) nofun fun r _ => by cases r <;> trivial
  | signalDevice =>
    exact .ahead (h.toPolling.signalUsbInt _) (fun _ => hrecv trivial) nofun fun r _ => by cases r <;> trivial
  | signalInterrupt =>
    exact .ahead (h.toPolling.signalInterruptInt _) (fun _ => hrecv trivial) nofun fun r _ => by
      cases r <;> trivial
  | signalControl =>
    exact .ahead (h.toPolling.signalControlInt _) (fun _ => hrecv trivial) nofun fun r _ => by
      cases r <;> trivial
  | asyncAdvance =>
    refine .ahead (hflags _) (fun _ => hrecv trivial) ?_ fun r _ => ?_
    · split <;> nofun
    · split <;> cases r <;> trivial
  | fireRemoved =>
    exact .ahead (h.toPolling.fireRemoved (hrecv trivial)) False.elim nofun fun r _ => by cases r <;> trivial
  | portChange =>
    split
    · exact .ahead (hflags _) False.elim nofun fun r _ => by cases r <;> trivial
    · refine .ahead (hflags _) False.elim nofun fun r hl => ?_
      cases r with
      | device d => exact hl
      | _ => trivial
  | signalPort =>
    exact .ahead (h.toPolling.signalPortChanged _) False.elim nofun fun r _ => by cases r <;> trivial
  | pollsDevices =>
    refine .ahead h.toPolling False.elim nofun fun r hl => ?_
    cases r with
    | device d => exact hl
    | _ => trivial
  | pollsInterrupts =>
    refine h.goes id nofun fun r hl hdue => ?_
    cases r with
    | device d => exact List.not_mem_nil hdue
    | interrupt e => exact hl
    | _ => trivial
  | pollsControls =>
    refine h.goes id nofun fun r hl hdue => ?_
    cases r with
    | interrupt e => exact List.not_mem_nil hdue
    | control e => exact hl
    | _ => exact hdue
  | resets =>
    refine h.goes id nofun fun r hl hdue => ?_
    cases r with
    | control e => exact List.not_mem_nil hdue
    | _ => exact hdue
  | noReset hnone =>
    refine h.goes id (fun _ _ => hnone) fun r hl hdue => ?_
    cases r with
    | rootPort i => exact List.mem_range.mpr hl.2
    | _ => exact hdue
  | pollDevice => exact h.pollDevice hw
  | pollInterrupt hp => exact h.pollInterruptEndpoint hw hp
  | pollControl hp => exact h.pollControlEndpoint hw hp
  | goesOn hrd hm => exact h.resets hrd (resetStep_outcome hm)
  | waits hrd hm =>
    have ho := resetStep_outcome hm
    exact (h.resets hrd ho).waits (ho.rests hrd hw).1 (ho.rests hrd hw).2
  | noRequest => exact h.suspend
  | pollRootPort hready => exact h.pollRootPort hw hready
  | startReset _ hm => exact h.startReset hw hm

theorem Resting.startPoll (h : s.Resting u none) : s.startPoll.Resting u (some .register) := by
  have hr : s.startPoll.Receiver := h.receiver nofun
  have hp : s.startPoll.Polling u := { h.toPolling with
    removal := fun rd addr sender waker hrd hstep hsent => absurd hsent (hr rd addr sender waker hrd hstep).1 }
  exact .ahead hp (fun _ => hr) nofun fun r _ => by cases r <;> trivial

end Ticks

end RunnerWorld

end EzEhci
