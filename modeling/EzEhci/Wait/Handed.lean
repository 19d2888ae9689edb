import EzEhci.Wait.World

/-!
# Waiters are on endpoints the runner serves

A client has a loaded control endpoint only if the runner answered its device,
and it puts endpoint 0 on its list before it answers. `watch` returns only after
the runner took its request, and the runner takes requests from the interrupt
endpoints on its list alone. So the endpoint of every waiter is listed.
-/

namespace EzEhci

open Lib Relation

/-- The interrupt endpoints whose requests are yet to be polled are on the list. -/
def PollPc.Within {W : Type} (s : RunnerWorld W) : PollPc → Prop
  | .interrupts todo => ∀ e ∈ todo, e ∈ s.interruptEndpoints
  | _ => True

theorem PollPc.Within.mono {W : Type} {s s' : RunnerWorld W} {pc : PollPc} (h : pc.Within s)
    (hl : ∀ e ∈ s.interruptEndpoints, e ∈ s'.interruptEndpoints) : pc.Within s' := by
  cases pc with
  | interrupts todo => exact fun e he => hl e (h e he)
  | _ => trivial

namespace RunnerWorld

variable {W : Type} [Wakers W] {s s' : RunnerWorld W} {l : List (InterruptEpId × SenderId)}
  {oc : OverflowChecks} {w : W} {rds : ResetReadings} {rd : ResettingDevice W}

/-- What the runner handed out, given the calls of `watch` and their senders. -/
structure Handed (l : List (InterruptEpId × SenderId)) (s : RunnerWorld W) : Prop where
  answered : ∀ a ∈ s.answers, ∀ device, a.result = .ok device → device.ep0 ∈ s.controlEndpoints
  controls : ∀ e ∈ s.controlEndpoints, e < s.nextControl
  requested : ∀ e req, (s.interruptShared e).reqSignal = .signaled req → (e, req.callback) ∈ l
  called : ∀ x ∈ s.callbacks, ∃ e ∈ s.interruptEndpoints, (e, x) ∈ l
  old : ∀ x ∈ l, x.2 < s.nextSender
  distinct : ∀ x ∈ l, ∀ y ∈ l, x.2 = y.2 → x = y

namespace Handed

omit [Wakers W] in
theorem setInterrupt (h : Handed l s) (shared : Heap (InterruptEndpointSharedState W))
    (hreq : ∀ e req, (shared e).reqSignal = .signaled req →
      (s.interruptShared e).reqSignal = .signaled req) :
    Handed l { s with interruptShared := shared } :=
  { h with requested := fun e req he => h.requested e req (hreq e req he) }

theorem signalInterruptInt (h : Handed l s) (e : InterruptEpId) : Handed l (s.signalInterruptInt e) := by
  have hset := h.setInterrupt (s.interruptShared.modify e fun sh =>
    { sh with intSignal := ((s.interruptShared e).intSignal.signal ()).1 }) fun e' req he => by
      rw [Heap.modify_apply] at he
      split at he <;> exact he
  exact { hset with }

theorem fireRemoved (h : Handed l s) : Handed l s.fireRemoved := by
  obtain ⟨rd, waker, heq⟩ := fireRemoved_eq s
  rw [heq]
  exact { h with }

theorem pollDevice (h : Handed l s) (d : DeviceId) : Handed l (s.pollDevice w d) := by
  rw [pollDevice_eq]
  refine { h with called := fun x hx => ?_ }
  obtain ⟨e, he, hmem⟩ := h.called x hx
  exact ⟨e, List.mem_append_left _ he, hmem⟩

theorem pollInterruptEndpoint (h : Handed l s) {e : InterruptEpId} (he : e ∈ s.interruptEndpoints)
    (hp : s.pollInterruptEndpoint w e = some s') : Handed l s' := by
  have hset := h.setInterrupt (s.interruptShared.modify e fun sh =>
    { sh with reqSignal := ((s.interruptShared e).reqSignal.pollWait w).state }) fun e' req hs => by
      rw [Heap.modify_apply] at hs
      split at hs
      next =>
        have hno := (s.interruptShared e).reqSignal.isSignaled_pollWait w
        rw [show ((s.interruptShared e).reqSignal.pollWait w).state = .signaled req from hs] at hno
        cases hno
      next => exact hs
  unfold RunnerWorld.pollInterruptEndpoint at hp
  dsimp only at hp
  split at hp
  next req hready =>
    obtain ⟨periodic, -, rfl⟩ := Option.map_eq_some_iff.mp hp
    refine { hset with called := fun x hx => ?_ }
    rcases List.mem_append.mp hx with hx | hx
    · exact h.called x hx
    · rw [List.mem_singleton.mp hx]
      exact ⟨e, he, h.requested e req (Signal.pollWait_ready.mp hready)⟩
  next =>
    cases hp
    exact { hset with }

theorem answer (h : Handed l s) {result : Except DriverError Device}
    (hr : ∀ device, result = .ok device → device.ep0 ∈ s.controlEndpoints) :
    Handed l (s.answer rd result) := by
  refine { h with answered := fun a ha device hd => ?_ }
  rcases List.mem_append.mp ha with ha | ha
  · exact h.answered a ha device hd
  · rw [List.mem_singleton.mp ha] at hd
    exact hr device hd

omit [Wakers W] in
theorem addDevice (h : Handed l s) (port : RootPortNumber) : Handed l (s.addDevice port) := by
  refine { h with answered := fun a ha device hd => ?_, controls := fun e he => ?_ }
  · exact List.mem_append_left _ (h.answered a ha device hd)
  · rcases List.mem_append.mp he with he | he
    · exact Nat.lt_succ_of_lt (h.controls e he)
    · rw [List.mem_singleton.mp he]
      exact Nat.lt_succ_self _

theorem outcome (h : Handed l s) {b : Bool} (ho : ResetOutcome oc w rds s rd s' b) : Handed l s' := by
  cases ho with
  | failed error => exact h.answer (by simp)
  | enabled hstep hset =>
    obtain ⟨alloc, packets, qtds, heap, addr, rfl⟩ := startSetAddr_eq_some hset
    exact { h with }
  | addressed addr => exact { h with old := fun x hx => Nat.lt_succ_of_lt (h.old x hx) }
  | removed addr sender waker hstep hsent =>
    refine (h.addDevice rd.rootPort).answer fun device hd => ?_
    cases hd
    exact List.mem_append_right _ (List.mem_singleton.mpr rfl)
  | _ => exact { h with }

/-- **A tick** keeps what was handed out. -/
theorem tick {pc : PollPc} {pc' : Option PollPc} (h : Handed l s) (hpc : pc.Within s)
    (ht : s.tick oc w rds pc = some (s', pc')) : Handed l s' := by
  cases Ticked.of_tick ht with
  | signalInterrupt => exact h.signalInterruptInt _
  | fireRemoved => exact h.fireRemoved
  | pollDevice => exact h.pollDevice _
  | pollInterrupt hp => exact h.pollInterruptEndpoint (hpc _ List.mem_cons_self) hp
  | pollControl hp =>
    obtain ⟨heap, rfl⟩ := pollControlEndpoint_eq_some hp
    exact { h with }
  | goesOn _ hm => exact h.outcome (resetStep_outcome hm)
  | waits _ hm =>
    have ho := h.outcome (resetStep_outcome hm)
    exact { ho with }
  | startReset _ hm =>
    obtain ⟨port, v, rfl⟩ := startReset_eq_some hm
    exact { h with }
  | _ => exact { h with }

end Handed

theorem within_tick {pc pc' : PollPc} (hpc : pc.Within s)
    (ht : s.tick oc w rds pc = some (s', some pc')) : pc'.Within s' := by
  have hframe := tick_frame ht
  have hlisted : ∀ e ∈ s.interruptEndpoints, e ∈ s'.interruptEndpoints :=
    fun e he => hframe.listed (.interrupt e) he
  cases Ticked.of_tick ht with
  | pollsInterrupts => exact hlisted
  | pollInterrupt => exact fun e he => hlisted e (hpc e (List.mem_cons_of_mem _ he))
  | usbErrInt | asyncAdvance | portChange => split <;> trivial
  | _ => trivial

end RunnerWorld

/-! ## The calls of the clients -/

namespace RunnerWorld

variable {W : Type} [Wakers W] {s : RunnerWorld W} {l : List (InterruptEpId × SenderId)}

theorem frame_load (device : Device) (qhMem : MappedMem) : Frame s (s.load device qhMem) := by
  have hheap : Frame s { s with async.heap := s.async.heap.modify qhMem.ptr fun m =>
      { m with qh := loadedQh device.address 0 } } :=
    .of_eq rfl (fun _ h => h) rfl rfl rfl (fun _ h => h) rfl rfl rfl
  exact hheap.trans (.modifyControl device.ep0 _ _ fun _ => .inl rfl)

theorem frame_startWatch (ep : InterruptEndpoint) (qhMem : MappedMem) (qh : Qh)
    (iv : NormalizedInterval) : Frame s (s.startWatch ep qhMem qh iv) := by
  have hheap : Frame s { s with
      periodic.heap := s.periodic.heap.modify qhMem.ptr fun m => { m with qh }
      nextSender := s.nextSender + 1 } :=
    .of_eq rfl (fun _ h => h) rfl rfl rfl (fun _ h => h) rfl rfl rfl
  exact hheap.trans (.modifyInterrupt ep.shared _ _ fun _ => .inl rfl)

theorem frame_register (d : DeviceId) : Frame s (s.register d) where
  irq := rfl
  woken _ ht := woken_wake _ ht
  intSignal ep hep := by
    cases ep with
    | control e => exact .inl rfl
    | interrupt e =>
      have he : e ≠ s.nextInterrupt := Nat.ne_of_lt hep
      simp only [EndpointRef.intSignal, register, wake, Heap.modify_of_ne _ _ he]
      exact .inl rfl
  listed _ hep := hep
  known ep hep := by
    cases ep with
    | control e => exact hep
    | interrupt e => exact Nat.lt_succ_of_lt hep
  qtds _ hp := hp

theorem Handed.register (h : Handed l s) (d : DeviceId) : Handed l (s.register d) := by
  refine { h with requested := fun e req he => h.requested e req ?_ }
  simp only [RunnerWorld.register, wake, Heap.modify_apply] at he
  split at he
  · cases he
  · exact he

theorem Handed.startWatch (h : Handed l s) (ep : InterruptEndpoint) (qhMem : MappedMem) (qh : Qh)
    (iv : NormalizedInterval) :
    Handed ((ep.shared, s.nextSender) :: l) (s.startWatch ep qhMem qh iv) := by
  have hnew : ∀ x ∈ l, x.2 ≠ s.nextSender := fun x hx => Nat.ne_of_lt (h.old x hx)
  refine { h with requested := ?_, called := ?_, old := ?_, distinct := ?_ }
  · intro e req he
    simp only [RunnerWorld.startWatch, wake, Heap.modify_apply, Signal.signal_fst] at he
    split at he
    next heq =>
      cases he
      exact heq ▸ List.mem_cons_self
    next => exact List.mem_cons_of_mem _ (h.requested e req he)
  · intro x hx
    obtain ⟨e, he, hmem⟩ := h.called x hx
    exact ⟨e, he, List.mem_cons_of_mem _ hmem⟩
  · intro x hx
    rcases List.mem_cons.mp hx with rfl | hx
    · exact Nat.lt_succ_self _
    · exact Nat.lt_succ_of_lt (h.old x hx)
  · intro x hx y hy hxy
    rcases List.mem_cons.mp hx with rfl | hx <;> rcases List.mem_cons.mp hy with rfl | hy
    · rfl
    · exact absurd hxy.symm (hnew y hy)
    · exact absurd hxy (hnew x hx)
    · exact h.distinct x hx y hy hxy

end RunnerWorld

namespace DriverWorld

variable {W : Type} [Wakers W] {oc : OverflowChecks} {s s' : DriverWorld W}
  {l : List (InterruptEpId × SenderId)} {a : DriverLabel W}

theorem frame_call (ha : a.isCall = true) (hs : s.step oc a = some s') :
    RunnerWorld.Frame s.runner s'.runner := by
  cases Stepped.of_step hs with
  | resetDevice =>
    exact .of_eq rfl (fun _ h => RunnerWorld.woken_wake _ h) rfl rfl rfl (fun _ h => h) rfl rfl rfl
  | load => exact RunnerWorld.frame_load _ _
  | setConfiguration | returns | goesOn => exact .refl _
  | registers => exact RunnerWorld.frame_register _
  | watch => exact RunnerWorld.frame_startWatch _ _ _ _
  | wakeRunner =>
    refine .of_eq rfl (fun t ht => ?_) rfl rfl rfl (fun _ h => h) rfl rfl rfl
    simp only [RunnerWorld.wakeRunner, Function.update_apply, ht, ite_self]
  | irq | poll => cases ha

/-- The runner serves the endpoints the clients were given. -/
structure Serves (l : List (InterruptEpId × SenderId)) (s : DriverWorld W) : Prop where
  registered : s.Registered
  handed : s.runner.Handed l
  loaded : ∀ e ∈ s.loaded, e ∈ s.runner.controlEndpoints

namespace Serves

omit [Wakers W] in
theorem known (h : Serves l s) {ep : EndpointRef} (hep : ep.Listed s.runner) : ep.Known s.runner := by
  cases ep with
  | control e => exact h.handed.controls e hep
  | interrupt e =>
    obtain ⟨d, hd⟩ := h.registered.registry.listed e hep
    exact h.registered.registry.old d e hd

theorem call (h : Serves l s) (ha : a.isCall = true) (hs : s.step oc a = some s') :
    Serves (a.watches s.runner.nextSender ++ l) s' := by
  have hand := h.handed
  have hreg := h.registered.step hs
  cases Stepped.of_step hs with
  | resetDevice | wakeRunner => exact ⟨hreg, { hand with }, h.loaded⟩
  | load answer hanswer hr =>
    refine ⟨hreg, { hand with }, fun e he => ?_⟩
    rcases List.mem_cons.mp he with rfl | he
    · exact hand.answered answer hanswer _ hr
    · exact h.loaded e he
  | setConfiguration | returns | goesOn => exact ⟨hreg, hand, h.loaded⟩
  | registers => exact ⟨hreg, hand.register _, h.loaded⟩
  | watch => exact ⟨hreg, hand.startWatch _ _ _ _, h.loaded⟩
  | irq | poll => cases ha

theorem tick {w : W} {rds : ResetReadings} {pc : PollPc} {pc' : Option PollPc} {r : RunnerWorld W}
    (h : Serves l s) (hpc : pc.Within s.runner) (ht : s.runner.tick oc w rds pc = some (r, pc')) :
    Serves l { s with runner := r } := by
  have hsteps := RunnerWorld.tick_steps (R := fun _ => True) trivial ht
  refine ⟨h.registered.setRunner r ?_ (RunnerWorld.steps_frame hsteps).2, h.handed.tick hpc ht,
    fun e he => ?_⟩
  · exact RunnerWorld.steps_invariant (fun _ _ hm hstep => hm.pollStep hstep) hsteps h.registered.registry
  · exact (RunnerWorld.tick_frame ht).listed (.control e) (h.loaded e he)

end Serves

end DriverWorld

end EzEhci
