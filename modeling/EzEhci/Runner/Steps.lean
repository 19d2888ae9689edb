import Mathlib.Logic.Relation
import EzEhci.Lib.Loops
import EzEhci.Runner.Poll

/-!
# What a poll of the runner does

`PollStep` lists the changes a poll makes one after the other, whatever the
order. `poll_steps` says that a poll is a sequence of them, so a property that
each of them keeps is kept by the poll (`poll_invariant`).
-/

namespace EzEhci

open Lib Relation

namespace RunnerWorld

variable {W : Type} [Wakers W] {oc : OverflowChecks} {w : W} {rds : ResetReadings}
  {s s' : RunnerWorld W} {rd : ResettingDevice W}

/-! ## Requests -/

theorem pollDevice_eq (s : RunnerWorld W) (w : W) (d : DeviceId) :
    s.pollDevice w d =
      { { s with deviceShared := s.deviceShared.modify d fun sh =>
            { sh with reqSignal := ((s.deviceShared d).reqSignal.pollWait w).state } }.wake
          ((s.deviceShared d).reqSignal.pollWait w).woken with
        interruptEndpoints := s.interruptEndpoints ++
          ((s.deviceShared d).reqSignal.pollWait w).ready.toList } := by
  unfold pollDevice
  dsimp only
  split
  next ep hready => rw [hready]; rfl
  next hready => rw [hready, Option.toList_none, List.append_nil]; rfl

theorem pollInterruptEndpoint_eq_some {e : InterruptEpId} (h : s.pollInterruptEndpoint w e = some s') :
    ∃ periodic callbacks, s' =
      { { s with interruptShared := s.interruptShared.modify e fun sh =>
            { sh with reqSignal := ((s.interruptShared e).reqSignal.pollWait w).state } }.wake
          ((s.interruptShared e).reqSignal.pollWait w).woken with periodic, callbacks } := by
  unfold pollInterruptEndpoint at h
  dsimp only at h
  split at h
  · obtain ⟨periodic, -, rfl⟩ := Option.map_eq_some_iff.mp h
    exact ⟨periodic, _, rfl⟩
  · cases h
    exact ⟨s.periodic, s.callbacks, rfl⟩

theorem addQhToAsyncList_eq_some {a a' : AsyncState} {qh : MappedMem}
    (h : AsyncListManager.addQhToAsyncList a qh = some a') : ∃ heap, a' = { a with heap } := by
  obtain ⟨offset, -, h⟩ := Option.bind_eq_some_iff.mp h
  cases h
  exact ⟨_, rfl⟩

theorem pollControlEndpoint_eq_some {e : ControlEpId} (h : s.pollControlEndpoint w e = some s') :
    ∃ heap, s' =
      { { s with controlShared := s.controlShared.modify e fun sh =>
            { sh with reqSignal := ((s.controlShared e).reqSignal.pollWait w).state } }.wake
          ((s.controlShared e).reqSignal.pollWait w).woken with async := { s.async with heap } } := by
  unfold pollControlEndpoint at h
  dsimp only at h
  split at h
  · obtain ⟨async, ha, rfl⟩ := Option.map_eq_some_iff.mp h
    obtain ⟨heap, rfl⟩ := addQhToAsyncList_eq_some ha
    exact ⟨heap, rfl⟩
  · cases h
    exact ⟨s.async.heap, rfl⟩

/-! ## The reset in progress -/

/-- Apart from the asynchronous list only the waker of the receiver changes. -/
theorem fireRemoved_eq (s : RunnerWorld W) : ∃ resettingDevice waker, s.fireRemoved =
    { s with async := AsyncListManager.handleAsyncAdvance s.async, resettingDevice }.wake waker := by
  have hnone : ∀ m : RunnerWorld W, m = m.wake none := fun m => by simp [wake]
  unfold fireRemoved wakeReceiver
  dsimp only
  split
  · split
    · split
      · exact ⟨_, _, rfl⟩
      · exact ⟨_, none, hnone _⟩
    · exact ⟨_, none, hnone _⟩
  · exact ⟨_, none, hnone _⟩

omit [Wakers W] in
theorem startSetAddr_eq_some (h : s.startSetAddr oc rd = some s') :
    ∃ alloc packets qtds heap addr, s' = { s with
      addrAllocator := alloc
      setupPackets := packets
      qtds
      async := { s.async with heap }
      resettingDevice := some { rd with step := .waitForSetAddr addr } } := by
  obtain ⟨⟨alloc, addr⟩, -, h⟩ := Option.bind_eq_some_iff.mp h
  obtain ⟨q, -, h⟩ := Option.bind_eq_some_iff.mp h
  obtain ⟨async, ha, h⟩ := Option.bind_eq_some_iff.mp h
  obtain ⟨heap, rfl⟩ := addQhToAsyncList_eq_some ha
  cases h
  exact ⟨alloc, _, q.qtds, heap, addr, rfl⟩

omit [Wakers W] in
theorem startReset_eq_some {i : Nat} {req : ResetDeviceResources}
    (h : s.startReset rds i req = some s') :
    ∃ port v, s' = { s.writePortSc i v with
      resettingDevice := some ⟨req, port, .waitingToStopReset, none⟩ } := by
  unfold startReset at h
  split at h
  · cases h
    exact ⟨_, _, rfl⟩
  · cases h

/-- The outcomes of one iteration with the reset `rd` in progress; the flag says that the loop goes
on. -/
inductive ResetOutcome (oc : OverflowChecks) (w : W) (rds : ResetReadings) (s : RunnerWorld W)
    (rd : ResettingDevice W) : RunnerWorld W → Bool → Prop
  | failed (error : DriverError) : ResetOutcome oc w rds s rd (s.answer rd (.error error)) true
  | resetDone (v : PortScReg) : ResetOutcome oc w rds s rd
      { s.writePortSc rd.rootPort.toNat v with
        resettingDevice := some { rd with step := .waitForPortToBeEnabled } } true
  | waits (h : ∀ addr sender waker, rd.step ≠ .waitForQhRemove addr sender waker) :
      ResetOutcome oc w rds s rd s false
  | enabled {s' : RunnerWorld W} (hstep : rd.step = .waitForPortToBeEnabled)
      (h : s.startSetAddr oc rd = some s') : ResetOutcome oc w rds s rd s' true
  | addressed (addr : BitVec 7) (hstep : rd.step = .waitForSetAddr addr)
      (h : rds.statusToken.active = false) :
      ResetOutcome oc w rds s rd (s.queueRemove rds rd addr) true
  | removed (addr : BitVec 7) (sender : SenderId) (waker : Option W)
      (hstep : rd.step = .waitForQhRemove addr sender waker) (h : sender ∈ s.async.sent) :
      ResetOutcome oc w rds s rd (s.finishReset rd addr) true
  | registered (addr : BitVec 7) (sender : SenderId) (waker : Option W)
      (hstep : rd.step = .waitForQhRemove addr sender waker) (h : sender ∉ s.async.sent) :
      ResetOutcome oc w rds s rd { s with resettingDevice := some { rd with
        step := .waitForQhRemove addr sender (some w) } } false

theorem resetStep_outcome {b : Bool} (h : s.resetStep oc w rds rd = some (s', b)) :
    ResetOutcome oc w rds s rd s' b := by
  unfold resetStep at h
  split at h
  next hstep =>
    split at h
    · cases h
      exact .failed _
    · split at h <;> cases h
      · exact .resetDone _
      · exact .waits (by simp [hstep])
  next hstep =>
    split at h
    · cases h
      exact .failed _
    · split at h
      · obtain ⟨m, hm, he⟩ := Option.map_eq_some_iff.mp h
        cases he
        exact .enabled hstep hm
      · split at h <;> cases h
        · exact .failed _
        · exact .waits (by simp [hstep])
  next addr hstep =>
    split at h
    next hactive =>
      cases h
      exact .addressed addr hstep (by simpa using hactive)
    next =>
      cases h
      exact .waits (by simp [hstep])
  next addr sender waker hstep =>
    split at h
    next hsent =>
      cases h
      exact .removed addr sender waker hstep hsent
    next hsent =>
      cases h
      exact .registered addr sender waker hstep hsent

/-! ## The poll -/

/-- One change a poll makes, with readings in `R`. -/
inductive PollStep (oc : OverflowChecks) (w : W) (R : ResetReadings → Prop) :
    RunnerWorld W → RunnerWorld W → Prop
  | flags (s : RunnerWorld W) (irq : IrqHandlerSharedState) (woken : TaskId → Bool) :
      PollStep oc w R s { s with irq, woken }
  | usbInt (s : RunnerWorld W) (d : DeviceId) : PollStep oc w R s (s.signalUsbInt d)
  | interruptInt (s : RunnerWorld W) (e : InterruptEpId) : PollStep oc w R s (s.signalInterruptInt e)
  | controlInt (s : RunnerWorld W) (e : ControlEpId) : PollStep oc w R s (s.signalControlInt e)
  | asyncAdvance (s : RunnerWorld W) : PollStep oc w R s s.fireRemoved
  | portChanged (s : RunnerWorld W) (i : Nat) : PollStep oc w R s (s.signalPortChanged i)
  | device (s : RunnerWorld W) (d : DeviceId) : PollStep oc w R s (s.pollDevice w d)
  | interruptEndpoint {s s' : RunnerWorld W} (e : InterruptEpId)
      (h : s.pollInterruptEndpoint w e = some s') : PollStep oc w R s s'
  | controlEndpoint {s s' : RunnerWorld W} (e : ControlEpId)
      (h : s.pollControlEndpoint w e = some s') : PollStep oc w R s s'
  | rootPort (s : RunnerWorld W) (i : Nat) : PollStep oc w R s (s.pollRootPort w i)
  | startReset {s s' : RunnerWorld W} {rds : ResetReadings} (i : Nat) (req : ResetDeviceResources)
      (h : s.startReset rds i req = some s') : PollStep oc w R s s'
  | reset {s s' : RunnerWorld W} {rd : ResettingDevice W} {b : Bool} {rds : ResetReadings} (hr : R rds)
      (hrd : s.resettingDevice = some rd) (h : ResetOutcome oc w rds s rd s' b) : PollStep oc w R s s'
  | pending (s : RunnerWorld W) : PollStep oc w R s { s with pending := true }

variable {R : ResetReadings → Prop}

theorem pollRootPorts_steps {l : List Nat} {b : Bool} (h : pollRootPorts w rds l s = some (s', b)) :
    ReflTransGen (PollStep oc w R) s s' := by
  induction l generalizing s with
  | nil =>
    cases h
    exact .refl
  | cons i l ih =>
    rw [pollRootPorts] at h
    split at h
    · exact .head (.rootPort s i) (ih h)
    next req _ =>
      obtain ⟨m, hm, he⟩ := Option.map_eq_some_iff.mp h
      cases he
      exact .head (.rootPort s i) (.single (.startReset i req hm))

theorem resetIter_steps {b : Bool} (hr : R rds) (h : s.resetIter oc w rds = some (s', b)) :
    ReflTransGen (PollStep oc w R) s s' := by
  unfold resetIter at h
  split at h
  next => exact pollRootPorts_steps h
  next rd hrd => exact .single (.reset hr hrd (resetStep_outcome h))

theorem resetLoop_steps {l : List ResetReadings} (hr : ∀ rds ∈ l, R rds) (h : resetLoop oc w l s = some s') :
    ReflTransGen (PollStep oc w R) s s' := by
  induction l generalizing s with
  | nil => cases h
  | cons rds l ih =>
    rw [resetLoop] at h
    split at h
    · cases h
    next m hm =>
      exact (resetIter_steps (hr rds List.mem_cons_self) hm).trans
        (ih (fun r hm => hr r (List.mem_cons_of_mem _ hm)) h)
    next m hm =>
      cases h
      exact resetIter_steps (hr rds List.mem_cons_self) hm

theorem foldl_steps {α : Type} {g : RunnerWorld W → α → RunnerWorld W} {l : List α}
    (hg : ∀ s a, ReflTransGen (PollStep oc w R) s (g s a)) :
    ReflTransGen (PollStep oc w R) s (l.foldl g s) :=
  foldl_invariant (P := ReflTransGen (PollStep oc w R) s) (fun m a h => h.trans (hg m a)) .refl

theorem foldlM_steps {α : Type} {g : RunnerWorld W → α → Option (RunnerWorld W)} {l : List α}
    (hg : ∀ s a s', g s a = some s' → ReflTransGen (PollStep oc w R) s s')
    (h : l.foldlM g s = some s') : ReflTransGen (PollStep oc w R) s s' :=
  foldlM_invariant (P := ReflTransGen (PollStep oc w R) s) (fun m a m' h hm => h.trans (hg m a m' hm))
    .refl h

theorem forwardUsbInt_steps : ReflTransGen (PollStep oc w R) s s.forwardUsbInt := by
  unfold forwardUsbInt
  refine .head (.flags s { s.irq with newUsbInt := false, newUsbErrInt := false } s.woken) ?_
  dsimp only
  split
  · exact ((foldl_steps fun m d => .single (.usbInt m d)).trans
      (foldl_steps fun m e => .single (.interruptInt m e))).trans
      (foldl_steps fun m e => .single (.controlInt m e))
  · exact .refl

theorem handleAsyncAdvance_steps : ReflTransGen (PollStep oc w R) s s.handleAsyncAdvance := by
  unfold handleAsyncAdvance
  refine .head (.flags s { s.irq with newAsyncAdvance := false } s.woken) ?_
  dsimp only
  split
  · exact .single (.asyncAdvance _)
  · exact .refl

theorem forwardPortChange_steps : ReflTransGen (PollStep oc w R) s s.forwardPortChange := by
  unfold forwardPortChange
  refine .head (.flags s { s.irq with newPortChangeDetect := false } s.woken) ?_
  dsimp only
  split
  · exact foldl_steps fun m i => .single (.portChanged m i)
  · exact .refl

theorem poll_eq_some {l : List ResetReadings} (h : s.poll oc w l = some s') :
    ∃ s₁ s₂ s₃, (s.beginPoll.pollFlags.pollDevices w).pollInterruptEndpoints w = some s₁ ∧
      s₁.pollControlEndpoints w = some s₂ ∧ resetLoop oc w l s₂ = some s₃ ∧
      s' = { s₃ with pending := true } := by
  obtain ⟨s₁, h1, h⟩ := Option.bind_eq_some_iff.mp h
  obtain ⟨s₂, h2, h⟩ := Option.bind_eq_some_iff.mp h
  obtain ⟨s₃, h3, h⟩ := Option.bind_eq_some_iff.mp h
  exact ⟨s₁, s₂, s₃, h1, h2, h3, (Option.some.inj h).symm⟩

theorem pollFlags_steps (oc : OverflowChecks) (w : W) (R : ResetReadings → Prop) :
    ReflTransGen (PollStep oc w R) s s.pollFlags :=
  (forwardUsbInt_steps.trans handleAsyncAdvance_steps).trans forwardPortChange_steps

/-- **A poll is a sequence of its changes.** -/
theorem poll_steps {l : List ResetReadings} (hr : ∀ rds ∈ l, R rds) (h : s.poll oc w l = some s') :
    ReflTransGen (PollStep oc w R) s s' := by
  obtain ⟨s₁, s₂, s₃, h1, h2, h3, rfl⟩ := poll_eq_some h
  have hbegin : ReflTransGen (PollStep oc w R) s s.beginPoll.pollFlags :=
    .head (.flags s _ _) (pollFlags_steps oc w R)
  have hdevices : ReflTransGen (PollStep oc w R) s (s.beginPoll.pollFlags.pollDevices w) :=
    hbegin.trans (foldl_steps fun m d => .single (.device m d))
  have hints : ReflTransGen (PollStep oc w R) s s₁ :=
    hdevices.trans (foldlM_steps (fun m e m' hm => .single (.interruptEndpoint e hm)) h1)
  have hctls : ReflTransGen (PollStep oc w R) s s₂ :=
    hints.trans (foldlM_steps (fun m e m' hm => .single (.controlEndpoint e hm)) h2)
  exact (hctls.trans (resetLoop_steps hr h3)).tail (.pending s₃)

theorem steps_invariant {P : RunnerWorld W → Prop} (hP : ∀ m m', P m → PollStep oc w R m m' → P m')
    (h : ReflTransGen (PollStep oc w R) s s') (hs : P s) : P s' := by
  induction h with
  | refl => exact hs
  | tail _ hstep ih => exact hP _ _ ih hstep

theorem poll_invariant {P : RunnerWorld W → Prop} {l : List ResetReadings}
    (hP : ∀ m m', P m → PollStep oc w (· ∈ l) m m' → P m') (h : s.poll oc w l = some s') (hs : P s) :
    P s' :=
  steps_invariant hP (poll_steps (fun _ => id) h) hs

/-- The runner stays on its task, and identities are handed out in order. -/
theorem PollStep.frame (h : PollStep oc w R s s') :
    s'.runnerTask = s.runnerTask ∧ s.nextDevice ≤ s'.nextDevice := by
  cases h with
  | asyncAdvance =>
    obtain ⟨rd, waker, heq⟩ := fireRemoved_eq s
    rw [heq]
    exact ⟨rfl, le_rfl⟩
  | device d =>
    rw [pollDevice_eq]
    exact ⟨rfl, le_rfl⟩
  | interruptEndpoint e h =>
    obtain ⟨periodic, callbacks, rfl⟩ := pollInterruptEndpoint_eq_some h
    exact ⟨rfl, le_rfl⟩
  | controlEndpoint e h =>
    obtain ⟨heap, rfl⟩ := pollControlEndpoint_eq_some h
    exact ⟨rfl, le_rfl⟩
  | startReset i req h =>
    obtain ⟨port, v, rfl⟩ := startReset_eq_some h
    exact ⟨rfl, le_rfl⟩
  | reset hr hrd h =>
    cases h with
    | enabled hstep h =>
      obtain ⟨alloc, packets, qtds, heap, addr, rfl⟩ := startSetAddr_eq_some h
      exact ⟨rfl, le_rfl⟩
    | removed => exact ⟨rfl, Nat.le_succ _⟩
    | _ => exact ⟨rfl, le_rfl⟩
  | _ => exact ⟨rfl, le_rfl⟩

theorem steps_frame (h : ReflTransGen (PollStep oc w R) s s') :
    s'.runnerTask = s.runnerTask ∧ s.nextDevice ≤ s'.nextDevice :=
  steps_invariant (P := fun m => m.runnerTask = s.runnerTask ∧ s.nextDevice ≤ m.nextDevice)
    (fun _ _ hm hstep => ⟨hstep.frame.1.trans hm.1, hm.2.trans hstep.frame.2⟩) h ⟨rfl, le_rfl⟩

end RunnerWorld

end EzEhci
