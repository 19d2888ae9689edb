import EzEhci.Runner.Ticks

/-!
# What a tick leaves alone

A tick of the runner takes at most one interrupt flag (`PollPc.takes`). Apart
from that it keeps what the waiters on endpoints rely on (`Frame`): an interrupt
signal stays as it is, or it is signaled and its waiter woken; endpoints stay
listed; no descriptor becomes inactive.
-/

namespace EzEhci

open Lib

inductive EndpointRef where
  | control (e : ControlEpId)
  | interrupt (e : InterruptEpId)
  deriving DecidableEq, Repr

namespace EndpointRef

variable {W : Type}

def intSignal (s : RunnerWorld W) : EndpointRef → Signal W Unit
  | .control e => (s.controlShared e).intSignal
  | .interrupt e => (s.interruptShared e).intSignal

/-- The runner signals the endpoint. -/
def Listed (s : RunnerWorld W) : EndpointRef → Prop
  | .control e => e ∈ s.controlEndpoints
  | .interrupt e => e ∈ s.interruptEndpoints

def Known (s : RunnerWorld W) : EndpointRef → Prop
  | .control e => e < s.nextControl
  | .interrupt e => e < s.nextInterrupt

instance (s : RunnerWorld W) : (ep : EndpointRef) → Decidable (ep.Listed s)
  | .control e => inferInstanceAs (Decidable (e ∈ s.controlEndpoints))
  | .interrupt e => inferInstanceAs (Decidable (e ∈ s.interruptEndpoints))

end EndpointRef

/-- The flags after a tick. -/
def PollPc.takes (irq : IrqHandlerSharedState) : PollPc → IrqHandlerSharedState
  | .register => irq.register
  | .usbInt => { irq with newUsbInt := false }
  | .usbErrInt _ => { irq with newUsbErrInt := false }
  | .asyncAdvance => { irq with newAsyncAdvance := false }
  | .portChange => { irq with newPortChangeDetect := false }
  | _ => irq

/-- The signal is as before, or it is signaled and its waiter woken. -/
def Notified {W : Type} [Wakers W] (woken : TaskId → Bool) (sig sig' : Signal W Unit) : Prop :=
  sig' = sig ∨ sig'.isSignaled = true ∧ ∀ w, sig = .waiting w → woken (Wakers.task w) = true

namespace RunnerWorld

variable {W : Type} [Wakers W]

structure Frame (s s' : RunnerWorld W) : Prop where
  irq : s'.irq = s.irq
  woken : ∀ t, s.woken t = true → s'.woken t = true
  intSignal : ∀ ep : EndpointRef, ep.Known s → Notified s'.woken (ep.intSignal s) (ep.intSignal s')
  listed : ∀ ep : EndpointRef, ep.Listed s → ep.Listed s'
  known : ∀ ep : EndpointRef, ep.Known s → ep.Known s'
  qtds : ∀ p, (s'.qtds p).qtdToken.active = false → (s.qtds p).qtdToken.active = false

variable {s s' s'' : RunnerWorld W} {oc : OverflowChecks} {w : W} {rds : ResetReadings}
  {rd : ResettingDevice W}

theorem woken_wake (waker : Option W) {t : TaskId} (h : s.woken t = true) :
    (s.wake waker).woken t = true := by
  simp [wake, h]

namespace Frame

theorem refl (s : RunnerWorld W) : Frame s s :=
  ⟨rfl, fun _ h => h, fun _ _ => .inl rfl, fun _ h => h, fun _ h => h, fun _ h => h⟩

theorem trans (h : Frame s s') (h' : Frame s' s'') : Frame s s'' where
  irq := h'.irq.trans h.irq
  woken t ht := h'.woken t (h.woken t ht)
  intSignal ep hep := by
    rcases h'.intSignal ep (h.known ep hep) with heq | ⟨hsig, hw⟩
    · rw [heq]
      exact (h.intSignal ep hep).imp id fun ⟨hs, hw⟩ => ⟨hs, fun w hsig => h'.woken _ (hw w hsig)⟩
    · refine .inr ⟨hsig, fun w hwait => ?_⟩
      rcases h.intSignal ep hep with heq | ⟨-, hw'⟩
      · exact hw w (heq.trans hwait)
      · exact h'.woken _ (hw' w hwait)
  listed ep hep := h'.listed ep (h.listed ep hep)
  known ep hep := h'.known ep (h.known ep hep)
  qtds p hp := h.qtds p (h'.qtds p hp)

theorem self (h : Frame s s') : Frame { s with irq := s'.irq } s' := by
  rw [h.irq]
  exact h

theorem active (h : Frame s s') {p : Ptr} (hp : (s.qtds p).qtdToken.active = true) :
    (s'.qtds p).qtdToken.active = true := by
  by_contra hno
  rw [h.qtds p (eq_false_of_ne_true hno)] at hp
  cases hp

theorem of_eq (hirq : s'.irq = s.irq) (hwoken : ∀ t, s.woken t = true → s'.woken t = true)
    (hcontrol : s'.controlShared = s.controlShared) (hinterrupt : s'.interruptShared = s.interruptShared)
    (hcontrols : s'.controlEndpoints = s.controlEndpoints)
    (hinterrupts : ∀ e ∈ s.interruptEndpoints, e ∈ s'.interruptEndpoints)
    (hnext : s'.nextControl = s.nextControl) (hnext' : s'.nextInterrupt = s.nextInterrupt)
    (hqtds : s'.qtds = s.qtds) : Frame s s' where
  irq := hirq
  woken := hwoken
  intSignal ep _ := by
    cases ep <;> simp only [EndpointRef.intSignal, hcontrol, hinterrupt] <;> exact .inl rfl
  listed ep hep := by
    cases ep with
    | control e =>
      rw [EndpointRef.Listed, hcontrols]
      exact hep
    | interrupt e => exact hinterrupts e hep
  known ep hep := by
    cases ep with
    | control e =>
      rw [EndpointRef.Known, hnext]
      exact hep
    | interrupt e =>
      rw [EndpointRef.Known, hnext']
      exact hep
  qtds p hp := by rwa [hqtds] at hp

theorem modifyControl (e : ControlEpId) (f : ControlEndpointSharedState W → ControlEndpointSharedState W)
    (waker : Option W) (h : e < s.nextControl →
      Notified (s.wake waker).woken (s.controlShared e).intSignal (f (s.controlShared e)).intSignal) :
    Frame s ({ s with controlShared := s.controlShared.modify e f }.wake waker) where
  irq := rfl
  woken _ ht := woken_wake waker ht
  intSignal ep hep := by
    cases ep with
    | interrupt e' => exact .inl rfl
    | control e' =>
      by_cases he : e' = e
      · subst he
        simp only [EndpointRef.intSignal, RunnerWorld.wake, Heap.modify_self]
        exact h hep
      · simp only [EndpointRef.intSignal, RunnerWorld.wake, Heap.modify_of_ne _ _ he]
        exact .inl rfl
  listed _ hep := hep
  known _ hep := hep
  qtds _ hp := hp

theorem modifyInterrupt (e : InterruptEpId)
    (f : InterruptEndpointSharedState W → InterruptEndpointSharedState W) (waker : Option W)
    (h : e < s.nextInterrupt → Notified (s.wake waker).woken (s.interruptShared e).intSignal
      (f (s.interruptShared e)).intSignal) :
    Frame s ({ s with interruptShared := s.interruptShared.modify e f }.wake waker) where
  irq := rfl
  woken _ ht := woken_wake waker ht
  intSignal ep hep := by
    cases ep with
    | control e' => exact .inl rfl
    | interrupt e' =>
      by_cases he : e' = e
      · subst he
        simp only [EndpointRef.intSignal, RunnerWorld.wake, Heap.modify_self]
        exact h hep
      · simp only [EndpointRef.intSignal, RunnerWorld.wake, Heap.modify_of_ne _ _ he]
        exact .inl rfl
  listed _ hep := hep
  known _ hep := hep
  qtds _ hp := hp

end Frame

theorem notified_signal (s : RunnerWorld W) (sig : Signal W Unit) :
    Notified (s.wake (sig.signal ()).2).woken sig (sig.signal ()).1 := by
  refine .inr ⟨by cases sig <;> rfl, fun w hw => ?_⟩
  subst hw
  simp [RunnerWorld.wake, Signal.signal]

/-! ## The operations of a poll -/

theorem frame_signalUsbInt (d : DeviceId) : Frame s (s.signalUsbInt d) :=
  .of_eq rfl (fun _ h => woken_wake _ h) rfl rfl rfl (fun _ h => h) rfl rfl rfl

theorem frame_signalInterruptInt (e : InterruptEpId) : Frame s (s.signalInterruptInt e) :=
  .modifyInterrupt e _ _ fun _ => notified_signal s _

theorem frame_signalControlInt (e : ControlEpId) : Frame s (s.signalControlInt e) :=
  .modifyControl e _ _ fun _ => notified_signal s _

theorem frame_signalPortChanged (i : Nat) : Frame s (s.signalPortChanged i) :=
  .of_eq rfl (fun _ h => woken_wake _ h) rfl rfl rfl (fun _ h => h) rfl rfl rfl

theorem frame_fireRemoved : Frame s s.fireRemoved := by
  obtain ⟨rd, waker, heq⟩ := fireRemoved_eq s
  rw [heq]
  exact .of_eq rfl (fun _ h => woken_wake _ h) rfl rfl rfl (fun _ h => h) rfl rfl rfl

theorem frame_pollDevice (d : DeviceId) : Frame s (s.pollDevice w d) := by
  rw [pollDevice_eq]
  refine .of_eq rfl (fun _ h => woken_wake _ h) rfl rfl rfl (fun e he => ?_) rfl rfl rfl
  exact List.mem_append_left _ he

theorem frame_pollInterruptEndpoint {e : InterruptEpId} (h : s.pollInterruptEndpoint w e = some s') :
    Frame s s' := by
  obtain ⟨periodic, callbacks, rfl⟩ := pollInterruptEndpoint_eq_some h
  refine (Frame.modifyInterrupt e _ _ fun _ => .inl rfl).trans
    (.of_eq rfl (fun _ h => h) rfl rfl rfl (fun _ h => h) rfl rfl rfl)

theorem frame_pollControlEndpoint {e : ControlEpId} (h : s.pollControlEndpoint w e = some s') :
    Frame s s' := by
  obtain ⟨heap, rfl⟩ := pollControlEndpoint_eq_some h
  refine (Frame.modifyControl e _ _ fun _ => .inl rfl).trans
    (.of_eq rfl (fun _ h => h) rfl rfl rfl (fun _ h => h) rfl rfl rfl)

theorem frame_pollRootPort (i : Nat) : Frame s (s.pollRootPort w i) :=
  .of_eq rfl (fun _ h => woken_wake _ h) rfl rfl rfl (fun _ h => h) rfl rfl rfl

theorem frame_startReset {i : Nat} {req : ResetDeviceResources} (h : s.startReset rds i req = some s') :
    Frame s s' := by
  obtain ⟨port, v, rfl⟩ := startReset_eq_some h
  exact .of_eq rfl (fun _ h => h) rfl rfl rfl (fun _ h => h) rfl rfl rfl

theorem frame_answer (result : Except DriverError Device) : Frame s (s.answer rd result) :=
  .of_eq rfl (fun _ h => woken_wake _ h) rfl rfl rfl (fun _ h => h) rfl rfl rfl

theorem frame_addDevice (port : RootPortNumber) : Frame s (s.addDevice port) where
  irq := rfl
  woken _ ht := ht
  intSignal ep hep := by
    cases ep with
    | interrupt e => exact .inl rfl
    | control e =>
      have he : e ≠ s.nextControl := Nat.ne_of_lt hep
      simp only [EndpointRef.intSignal, addDevice, Heap.modify_of_ne _ _ he]
      exact .inl rfl
  listed ep hep := by
    cases ep with
    | control e => exact List.mem_append_left _ hep
    | interrupt e => exact hep
  known ep hep := by
    cases ep with
    | control e => exact Nat.lt_succ_of_lt hep
    | interrupt e => exact hep
  qtds _ hp := hp

omit [Wakers W] in
theorem inactive_of_modify {qtds : Heap Qtd} {m p : Ptr} {t : Qtd} (ht : t.qtdToken.active = true)
    (hp : ((qtds.modify m fun _ => t) p).qtdToken.active = false) : (qtds p).qtdToken.active = false := by
  by_cases h : p = m
  · rw [h, Heap.modify_self, ht] at hp
    cases hp
  · rwa [Heap.modify_of_ne _ _ h] at hp

theorem frame_startSetAddr (h : s.startSetAddr oc rd = some s') : Frame s s' := by
  obtain ⟨⟨alloc, addr⟩, -, h⟩ := Option.bind_eq_some_iff.mp h
  obtain ⟨q, hq, h⟩ := Option.bind_eq_some_iff.mp h
  obtain ⟨async, -, h⟩ := Option.bind_eq_some_iff.mp h
  cases h
  simp only [setAddressStart, Option.bind_eq_bind, Option.bind_eq_some_iff, Option.some.injEq] at hq
  obtain ⟨ptrs, -, next, -, first, -, rfl⟩ := hq
  refine { Frame.refl s with qtds := fun p hp => ?_ }
  refine inactive_of_modify ?_ (inactive_of_modify ?_ hp)
  · simp [Qtd.new]
  · simp [Qtd.new]

theorem ResetOutcome.frame {b : Bool} (h : ResetOutcome oc w rds s rd s' b) : Frame s s' := by
  cases h with
  | failed => exact frame_answer _
  | resetDone => exact .of_eq rfl (fun _ h => h) rfl rfl rfl (fun _ h => h) rfl rfl rfl
  | waits => exact .refl s
  | enabled _ h => exact frame_startSetAddr h
  | addressed => exact .of_eq rfl (fun _ h => h) rfl rfl rfl (fun _ h => h) rfl rfl rfl
  | removed => exact (frame_addDevice _).trans (frame_answer _)
  | registered => exact .of_eq rfl (fun _ h => h) rfl rfl rfl (fun _ h => h) rfl rfl rfl

theorem frame_suspend : Frame s s.suspend :=
  .of_eq rfl (fun _ h => h) rfl rfl rfl (fun _ h => h) rfl rfl rfl

/-- **What a tick leaves alone.** -/
theorem tick_frame {pc : PollPc} {pc' : Option PollPc} (h : s.tick oc w rds pc = some (s', pc')) :
    Frame { s with irq := pc.takes s.irq } s' := by
  cases Ticked.of_tick h with
  | register | usbInt | usbErrInt | asyncAdvance | portChange | signalsInterrupts | signalsControls
  | signaled | pollsDevices | pollsInterrupts | pollsControls | resets | noReset => exact .refl _
  | signalDevice => exact frame_signalUsbInt _
  | signalInterrupt => exact frame_signalInterruptInt _
  | signalControl => exact frame_signalControlInt _
  | fireRemoved => exact frame_fireRemoved
  | signalPort => exact frame_signalPortChanged _
  | pollDevice => exact frame_pollDevice _
  | pollInterrupt hp => exact frame_pollInterruptEndpoint hp
  | pollControl hp => exact frame_pollControlEndpoint hp
  | goesOn _ hm => exact (resetStep_outcome hm).frame
  | waits _ hm => exact (resetStep_outcome hm).frame.trans frame_suspend
  | noRequest => exact frame_suspend
  | pollRootPort => exact frame_pollRootPort _
  | startReset _ hm => exact (frame_pollRootPort _).trans (frame_startReset hm)

end RunnerWorld

end EzEhci
