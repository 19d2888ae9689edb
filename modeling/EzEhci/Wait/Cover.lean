import EzEhci.Wait.Handed

/-!
# Where the notification of a completion is

From the controller to a waiter a completion goes through the status register,
the flags of the interrupt handler, the runner's poll and the endpoint's
`int_signal`. `Covered` says that the descriptor a waiter waits for is active or
that the notification of its completion is in one of these places; every step
keeps that for the waiters that may be suspended next.
-/

namespace EzEhci

open Lib

def usbBits : List StsBit := [.usbInt, .usbErrInt]

/-- The poll is going to signal the endpoint. -/
def PollPc.Reaches : PollPc → EndpointRef → Prop
  | .usbErrInt b, _ => b = true
  | .signalDevices _, _ => True
  | .signalInterrupts todo, .interrupt e => e ∈ todo
  | .signalInterrupts _, .control _ => True
  | .signalControls todo, .control e => e ∈ todo
  | _, _ => False

/-- A completion has yet to be taken by the runner. -/
def IrqHandlerSharedState.UsbRaised (irq : IrqHandlerSharedState) : Prop :=
  ∃ b ∈ usbBits, irq.flag b = true

theorem IrqHandlerSharedState.usbRaised_iff {irq : IrqHandlerSharedState} :
    irq.UsbRaised ↔ irq.newUsbInt = true ∨ irq.newUsbErrInt = true := by
  simp [UsbRaised, usbBits, IrqHandlerSharedState.flag]

namespace RunnerWorld

variable {W : Type} [Wakers W] {s s' : RunnerWorld W} {oc : OverflowChecks} {w : W} {rds : ResetReadings}

theorem isSignaled_signalInterruptInt (e : InterruptEpId) :
    (EndpointRef.intSignal (s.signalInterruptInt e) (.interrupt e)).isSignaled = true := by
  simp [EndpointRef.intSignal, signalInterruptInt, wake, Signal.signal_fst, Signal.isSignaled]

theorem isSignaled_signalControlInt (e : ControlEpId) :
    (EndpointRef.intSignal (s.signalControlInt e) (.control e)).isSignaled = true := by
  simp [EndpointRef.intSignal, signalControlInt, wake, Signal.signal_fst, Signal.isSignaled]

/-- **The fan-out**: a tick that takes a flag goes on to every listed endpoint. -/
theorem tick_reaches {pc : PollPc} {pc' : Option PollPc} {ep : EndpointRef} (hep : ep.Listed s)
    (ht : s.tick oc w rds pc = some (s', pc')) (h : s.irq.UsbRaised ∨ pc.Reaches ep) :
    s'.irq.UsbRaised ∨ (∃ p, pc' = some p ∧ p.Reaches ep) ∨ (ep.intSignal s').isSignaled = true := by
  have hirq : s'.irq = pc.takes s.irq := (tick_frame ht).irq
  rw [IrqHandlerSharedState.usbRaised_iff] at h ⊢
  cases Ticked.of_tick ht with
  | usbInt =>
    rcases h with (hint | herr) | hr
    · exact .inr (.inl ⟨_, rfl, hint⟩)
    · exact .inl (.inr herr)
    · cases hr
  | @usbErrInt b =>
    rcases h with (hint | herr) | hr
    · exact .inl (.inl hint)
    · refine .inr (.inl ⟨_, rfl, ?_⟩)
      rw [herr, Bool.or_true, if_pos rfl]
      trivial
    · refine .inr (.inl ⟨_, rfl, ?_⟩)
      rw [show b = true from hr, Bool.true_or, if_pos rfl]
      trivial
  | signalsInterrupts =>
    refine h.imp id fun _ => .inl ⟨_, rfl, ?_⟩
    cases ep with
    | control e => trivial
    | interrupt e => exact hep
  | signalDevice => exact h.imp id fun _ => .inl ⟨_, rfl, trivial⟩
  | signalsControls =>
    refine h.imp id fun hr => ?_
    cases ep with
    | control e => exact .inl ⟨_, rfl, hep⟩
    | interrupt e => cases hr
  | @signalInterrupt e todo =>
    refine h.imp id fun hr => ?_
    cases ep with
    | control e' => exact .inl ⟨_, rfl, trivial⟩
    | interrupt e' =>
      rcases List.mem_cons.mp hr with rfl | hmem
      · exact .inr (isSignaled_signalInterruptInt _)
      · exact .inl ⟨_, rfl, hmem⟩
  | signaled =>
    refine h.imp id fun hr => ?_
    cases ep <;> cases hr
  | @signalControl e todo =>
    refine h.imp id fun hr => ?_
    cases ep with
    | interrupt e' => cases hr
    | control e' =>
      rcases List.mem_cons.mp hr with rfl | hmem
      · exact .inr (isSignaled_signalControlInt _)
      · exact .inl ⟨_, rfl, hmem⟩
  | _ =>
    rw [hirq]
    exact .inl (h.resolve_right id)

end RunnerWorld

/-! ## The invariant -/

namespace WaitWorld

variable {W : Type} [Wakers W]

/-- A completion was not yet taken by the runner. -/
def Upstream (s : WaitWorld W) : Prop :=
  s.owed ≠ [] ∨ (∃ b ∈ usbBits, s.usbSts.get b = true) ∨ s.driver.runner.irq.UsbRaised

/-- The runner took a completion and is going to signal the endpoint. -/
def Ahead (s : WaitWorld W) (ep : EndpointRef) : Prop :=
  ∃ w pc, s.poll = some (.runner w pc) ∧ pc.Reaches ep

/-- A waiter on the endpoint can sleep until the descriptor `p` is retired. -/
inductive Covered (s : WaitWorld W) (ep : EndpointRef) (p : Ptr) : Prop where
  | signaled (h : (ep.intSignal s.driver.runner).isSignaled = true)
  | active (h : (s.driver.runner.qtds p).qtdToken.active = true)
  | coming (h : s.Upstream ∨ s.Ahead ep)

/-- The waiter is suspended, or about to poll the signal. -/
def InWait (s : WaitWorld W) (x : Waiter W) : Prop :=
  (x ∈ s.waiters ∧ x.waker.isSome = true) ∨ ∃ w, s.poll = some (.waiter x w .wait)

/-- The endpoint's signal holds a waker of the waiter's task. -/
def Registers (s : WaitWorld W) (x : Waiter W) : Prop :=
  ∃ w w', x.waker = some w ∧ x.endpoint.intSignal s.driver.runner = .waiting w' ∧
    Wakers.task w' = Wakers.task w

structure Tracked (s : WaitWorld W) : Prop where
  serves : s.driver.Serves s.watching
  within : ∀ w pc, s.poll = some (.runner w pc) → pc.Within s.driver.runner
  owed : ∀ b ∈ s.owed, b ∈ usbBits
  listed : ∀ x ∈ s.all, x.endpoint.Listed s.driver.runner
  -- a waiter in a poll has its endpoint to itself
  apart : ∀ x w pc, s.poll = some (.waiter x w pc) →
    x.waker = some w ∧ ∀ y ∈ s.waiters, y.endpoint ≠ x.endpoint
  asleep : ∀ x ∈ s.waiters, x.Asleep → s.Registers x
  covered : ∀ x, s.InWait x → s.Covered x.endpoint x.qtd

variable {s s' : WaitWorld W} {oc : OverflowChecks}

omit [Wakers W] in
theorem mem_all {x : Waiter W} :
    x ∈ s.all ↔ (∃ w pc, s.poll = some (.waiter x w pc)) ∨ x ∈ s.waiters := by
  rw [all, List.mem_append, Option.mem_toList, Option.bind_eq_some_iff]
  refine or_congr ⟨?_, ?_⟩ Iff.rfl
  · rintro ⟨p, hp, hx⟩
    cases p with
    | runner w pc => cases hx
    | waiter y w pc =>
      cases hx
      exact ⟨w, pc, hp⟩
  · rintro ⟨w, pc, hp⟩
    exact ⟨_, hp, rfl⟩

omit [Wakers W] in
theorem InWait.mem_all {x : Waiter W} (h : s.InWait x) : x ∈ s.all := by
  rw [WaitWorld.mem_all]
  rcases h with ⟨h, -⟩ | ⟨w, h⟩
  · exact .inr h
  · exact .inl ⟨w, _, h⟩

/-! ## Steps of the driver -/

/-- The waiters of `s'` are those of `s`, woken as the step of the driver says. -/
structure Woken (s s' : WaitWorld W) : Prop where
  waiters : s'.waiters = s.waiters.map (Waiter.wake s'.driver.runner.woken)
  poll : ∀ x w pc, s'.poll = some (.waiter x w pc) →
    ∃ y, s.poll = some (.waiter y w pc) ∧ x = y.wake s'.driver.runner.woken

theorem Woken.mem_waiters (h : Woken s s') {x : Waiter W} (hx : x ∈ s'.waiters) :
    ∃ y ∈ s.waiters, x = y.wake s'.driver.runner.woken := by
  rw [h.waiters] at hx
  obtain ⟨y, hy, rfl⟩ := List.mem_map.mp hx
  exact ⟨y, hy, rfl⟩

theorem Woken.mem_all (h : Woken s s') {x : Waiter W} (hx : x ∈ s'.all) :
    ∃ y ∈ s.all, x = y.wake s'.driver.runner.woken := by
  rcases WaitWorld.mem_all.mp hx with ⟨w, pc, hp⟩ | hx
  · obtain ⟨y, hy, rfl⟩ := h.poll x w pc hp
    exact ⟨y, WaitWorld.mem_all.mpr (.inl ⟨w, pc, hy⟩), rfl⟩
  · obtain ⟨y, hy, rfl⟩ := h.mem_waiters hx
    exact ⟨y, WaitWorld.mem_all.mpr (.inr hy), rfl⟩

theorem Woken.inWait (h : Woken s s') {x : Waiter W} (hx : s'.InWait x) :
    ∃ y, s.InWait y ∧ x = y.wake s'.driver.runner.woken := by
  rcases hx with ⟨hx, hw⟩ | ⟨w, hp⟩
  · obtain ⟨y, hy, rfl⟩ := h.mem_waiters hx
    exact ⟨y, .inl ⟨hy, hw⟩, rfl⟩
  · obtain ⟨y, hy, rfl⟩ := h.poll x w .wait hp
    exact ⟨y, .inr ⟨w, hy⟩, rfl⟩

/-- A waiter that still sleeps was not woken by the step. -/
theorem asleep_of_wake {woken : TaskId → Bool} {y : Waiter W} (h : (y.wake woken).Asleep) :
    y.Asleep ∧ ∀ w, y.waker = some w → woken (Wakers.task w) = false := by
  obtain ⟨hsome, hwoken⟩ := h
  simp only [Waiter.wake, Bool.or_eq_false_iff] at hwoken
  refine ⟨⟨hsome, hwoken.1⟩, fun w hw => ?_⟩
  have := hwoken.2
  rwa [hw, Option.any_some] at this

/-- **A step of the driver** keeps the invariant if the notifications move on. -/
theorem Tracked.framed (h : s.Tracked) (hw : Woken s s')
    (hf : RunnerWorld.Frame { s.runner with irq := s'.driver.runner.irq } s'.driver.runner)
    (hserves : s'.driver.Serves s'.watching)
    (hwithin : ∀ w pc, s'.poll = some (.runner w pc) → pc.Within s'.driver.runner)
    (howed : ∀ b ∈ s'.owed, b ∈ usbBits)
    (hcoming : ∀ ep : EndpointRef, ep.Listed s.driver.runner → s.Upstream ∨ s.Ahead ep →
      (s'.Upstream ∨ s'.Ahead ep) ∨ (ep.intSignal s'.driver.runner).isSignaled = true) : s'.Tracked where
  serves := hserves
  within := hwithin
  owed := howed
  listed x hx := by
    obtain ⟨y, hy, rfl⟩ := hw.mem_all hx
    exact hf.listed _ (h.listed y hy)
  apart x w pc hp := by
    obtain ⟨y, hy, rfl⟩ := hw.poll x w pc hp
    obtain ⟨hwaker, hne⟩ := h.apart y w pc hy
    refine ⟨hwaker, fun z hz => ?_⟩
    obtain ⟨v, hv, rfl⟩ := hw.mem_waiters hz
    exact hne v hv
  asleep x hx hsleep := by
    obtain ⟨y, hy, rfl⟩ := hw.mem_waiters hx
    obtain ⟨hsleep, hno⟩ := asleep_of_wake hsleep
    obtain ⟨w, w', hwaker, hsig, htask⟩ := h.asleep y hy hsleep
    have hlisted := h.listed y (WaitWorld.mem_all.mpr (.inr hy))
    refine ⟨w, w', hwaker, ?_, htask⟩
    rcases hf.intSignal _ (h.serves.known hlisted) with heq | ⟨-, hwoken⟩
    · exact heq.trans hsig
    · have hwake := hwoken w' hsig
      rw [htask, hno w hwaker] at hwake
      cases hwake
  covered x hx := by
    obtain ⟨y, hy, rfl⟩ := hw.inWait hx
    have hlisted := h.listed y hy.mem_all
    cases h.covered y hy with
    | signaled hsig =>
      rcases hf.intSignal _ (h.serves.known hlisted) with heq | ⟨hsig', -⟩
      · exact .signaled (heq ▸ hsig)
      · exact .signaled hsig'
    | active hact => exact .active (hf.active hact)
    | coming hc =>
      rcases hcoming _ hlisted hc with hc | hsig
      · exact .coming hc
      · exact .signaled hsig

theorem woken_deliver (s : WaitWorld W) (d : DriverWorld W) : Woken s (s.deliver d) where
  waiters := rfl
  poll x w pc hp := by
    obtain ⟨p, hp, hx⟩ := Option.map_eq_some_iff.mp hp
    cases p with
    | runner => cases hx
    | waiter y =>
      cases hx
      exact ⟨y, hp, rfl⟩

theorem poll_deliver_runner {d : DriverWorld W} {w : W} {pc : PollPc} :
    (s.deliver d).poll = some (.runner w pc) ↔ s.poll = some (.runner w pc) := by
  refine ⟨fun hp => ?_, fun hp => ?_⟩
  · obtain ⟨p, hp, hx⟩ := Option.map_eq_some_iff.mp hp
    cases p with
    | waiter => cases hx
    | runner =>
      cases hx
      exact hp
  · rw [deliver, hp]
    rfl

theorem Tracked.quiet (h : s.Tracked) :
    DriverWorld.Serves s.watching { s.driver with runner := s.runner } := by
  have hreg := h.serves.registered.registry
  have hand := h.serves.handed
  exact ⟨h.serves.registered.setRunner s.runner { hreg with } le_rfl, { hand with }, h.serves.loaded⟩

theorem Tracked.client (h : s.Tracked) {a : DriverLabel W} {d : DriverWorld W} (ha : a.isCall = true)
    (hs : DriverWorld.step oc { s.driver with runner := s.runner } a = some d) :
    Tracked { s.deliver d with watching := a.watches s.runner.nextSender ++ s.watching } := by
  have hf := DriverWorld.frame_call ha hs
  have hwoken := woken_deliver s d
  refine h.framed ⟨hwoken.waiters, hwoken.poll⟩ hf.self (h.quiet.call ha hs) ?_ h.owed ?_
  · exact fun w pc hp => (h.within w pc (poll_deliver_runner.mp hp)).mono fun e => hf.listed (.interrupt e)
  · rintro ep - (hup | ⟨w, pc, hp, hr⟩)
    · refine .inl (.inl (hup.imp id (Or.imp id fun hraised => ?_)))
      show d.runner.irq.UsbRaised
      rw [hf.irq]
      exact hraised
    · exact .inl (.inr ⟨w, pc, poll_deliver_runner.mpr hp, hr⟩)

theorem frame_interrupt (r : RunnerWorld W) (usbSts : UsbStsReg) :
    RunnerWorld.Frame { r with irq := (r.interrupt usbSts).irq } (r.interrupt usbSts) :=
  .of_eq rfl (fun t ht => by simp [RunnerWorld.interrupt, show r.woken t = true from ht]) rfl rfl rfl
    (fun _ h => h) rfl rfl rfl

theorem Tracked.irq (h : s.Tracked) :
    Tracked { s.deliverRunner (s.runner.interrupt s.usbSts) with
      usbSts := (handleIrq s.usbSts s.driver.runner.irq).1 } := by
  have hserves := h.quiet.registered.registry
  have hand := h.quiet.handed
  have hwoken := woken_deliver s { s.driver with runner := s.runner.interrupt s.usbSts }
  refine h.framed ⟨hwoken.waiters, hwoken.poll⟩ (frame_interrupt s.runner s.usbSts) ?_ ?_ h.owed ?_
  · exact ⟨h.serves.registered.setRunner _ { hserves with } le_rfl, { hand with }, h.serves.loaded⟩
  · exact fun w pc hp => (h.within w pc (poll_deliver_runner.mp hp)).mono fun _ => id
  · have hflag : ∀ b ∈ usbBits, s.usbSts.get b = true ∨ s.driver.runner.irq.flag b = true →
        (handleIrq s.usbSts s.driver.runner.irq).2.flag b = true := by
      intro b hb hor
      have hne : b ≠ .frameListRollover := by
        rintro rfl
        simp [usbBits] at hb
      rw [flag_handleIrq _ _ hne, Bool.or_eq_true]
      exact hor
    rintro ep - ((howed | ⟨b, hb, hget⟩ | ⟨b, hb, hset⟩) | ⟨w, pc, hp, hr⟩)
    · exact .inl (.inl (.inl howed))
    · exact .inl (.inl (.inr (.inr ⟨b, hb, hflag b hb (.inl hget)⟩)))
    · exact .inl (.inl (.inr (.inr ⟨b, hb, hflag b hb (.inr hset)⟩)))
    · exact .inl (.inr ⟨w, pc, poll_deliver_runner.mpr hp, hr⟩)

/-- **A tick of the runner.** -/
theorem Tracked.tick (h : s.Tracked) {w : W} {pc : PollPc} {rds : ResetReadings} {r : RunnerWorld W}
    {pc' : Option PollPc} (hp : s.poll = some (.runner w pc))
    (ht : s.runner.tick oc w rds pc = some (r, pc')) :
    Tracked ({ s with poll := pc'.map (.runner w ·) }.deliverRunner r) := by
  have hpc : pc.Within s.runner := (h.within w pc hp).mono fun _ => id
  have hpoll : ∀ w' p, ({ s with poll := pc'.map (.runner w ·) }.deliverRunner r).poll =
      some (.runner w' p) ↔ w' = w ∧ pc' = some p := by
    intro w' p
    refine poll_deliver_runner.trans ?_
    simp only [Option.map_eq_some_iff, CurrentPoll.runner.injEq]
    exact ⟨fun ⟨q, hq, hw, he⟩ => ⟨hw.symm, he ▸ hq⟩, fun ⟨hw, he⟩ => ⟨p, he, hw.symm, rfl⟩⟩
  refine h.framed ⟨rfl, fun x w' p hx => ?_⟩ (RunnerWorld.tick_frame ht).self (h.quiet.tick hpc ht) ?_
    h.owed ?_
  · obtain ⟨q, hq, hx⟩ := Option.map_eq_some_iff.mp hx
    obtain ⟨p', -, rfl⟩ := Option.map_eq_some_iff.mp hq
    cases hx
  · intro w' p hp'
    obtain ⟨-, rfl⟩ := (hpoll w' p).mp hp'
    exact RunnerWorld.within_tick hpc ht
  · intro ep hep hc
    have hmoves (hor : s.driver.runner.irq.UsbRaised ∨ pc.Reaches ep) :
        (Upstream ({ s with poll := pc'.map (.runner w ·) }.deliverRunner r) ∨
          Ahead ({ s with poll := pc'.map (.runner w ·) }.deliverRunner r) ep) ∨
        (ep.intSignal r).isSignaled = true := by
      rcases RunnerWorld.tick_reaches (s := s.runner) hep ht hor with hraised | ⟨p, hp', hr⟩ | hsig
      · exact .inl (.inl (.inr (.inr hraised)))
      · exact .inl (.inr ⟨w, p, (hpoll w p).mpr ⟨rfl, hp'⟩, hr⟩)
      · exact .inr hsig
    rcases hc with (howed | hsts | hraised) | ⟨w', q, hq, hr⟩
    · exact .inl (.inl (.inl howed))
    · exact .inl (.inl (.inr (.inl hsts)))
    · exact hmoves (.inl hraised)
    · cases hp.symm.trans hq
      exact hmoves (.inr hr)

/-! ## Steps of the controller -/

theorem Tracked.memory (h : s.Tracked) {usbSts : UsbStsReg} {owed : List StsBit} {qtds : Heap Qtd}
    (howed : ∀ b ∈ owed, b ∈ usbBits)
    (hcovered : ∀ x, s.InWait x →
      Covered { s with usbSts, owed, driver.runner.qtds := qtds } x.endpoint x.qtd) :
    Tracked { s with usbSts, owed, driver.runner.qtds := qtds } := by
  have hreg := h.serves.registered.registry
  have hand := h.serves.handed
  exact { h with
    serves := ⟨h.serves.registered.setRunner { s.driver.runner with qtds } { hreg with } le_rfl,
      { hand with }, h.serves.loaded⟩
    within := fun w pc hp => (h.within w pc hp).mono fun _ => id
    owed := howed
    covered := hcovered }

theorem Tracked.arm (h : s.Tracked) {p : Ptr} {qtd : Qtd} (ha : qtd.qtdToken.active = true) :
    (s.setQtd p fun _ => qtd).Tracked := by
  refine h.memory h.owed fun x hx => ?_
  cases h.covered x hx with
  | signaled hsig => exact .signaled hsig
  | active hact =>
    refine .active ?_
    simp only [Heap.modify_apply]
    split
    · exact ha
    · exact hact
  | coming hc => exact .coming hc

/-- A descriptor is retired: the interrupt for it is owed to those who wait. -/
theorem Tracked.complete (h : s.Tracked) {p : Ptr} {token : TransferToken} (error : Bool)
    (hioc : ∀ x ∈ s.all, x.qtd = p → (s.driver.runner.qtds p).qtdToken.interruptOnComplete = true) :
    Tracked { s.setQtd p fun qtd => { qtd with qtdToken := token } with
      owed := s.owed ++ (s.driver.runner.qtds p).qtdToken.interrupts error } := by
  refine h.memory (fun b hb => ?_) fun x hx => ?_
  · rcases List.mem_append.mp hb with hb | hb
    · exact h.owed b hb
    · rcases List.mem_append.mp hb with hb | hb <;> split at hb <;>
        simp only [List.mem_singleton, List.not_mem_nil] at hb <;> simp [hb, usbBits]
  · by_cases hp : x.qtd = p
    · refine .coming (.inl (.inl ?_))
      simp [TransferToken.interrupts, hioc x hx.mem_all hp]
    · cases h.covered x hx with
      | signaled hsig => exact .signaled hsig
      | active hact =>
        refine .active ?_
        simp only [Heap.modify_of_ne _ _ hp]
        exact hact
      | coming hc =>
        refine .coming (hc.imp (Or.imp (fun hne => ?_) id) id)
        simp [hne]

theorem Tracked.raiseOwed (h : s.Tracked) {b : StsBit} (hb : b ∈ s.owed) :
    Tracked { s with owed := s.owed.erase b, usbSts := s.usbSts.set b } := by
  refine h.memory (fun c hc => h.owed c (List.mem_of_mem_erase hc)) fun x _ => ?_
  refine .coming (.inl (.inr (.inl ⟨b, h.owed b hb, ?_⟩)))
  simp [UsbStsReg.get_set]

theorem Tracked.raise (h : s.Tracked) (b : StsBit) : Tracked { s with usbSts := s.usbSts.set b } := by
  refine h.memory h.owed fun x hx => ?_
  cases h.covered x hx with
  | signaled hsig => exact .signaled hsig
  | active hact => exact .active hact
  | coming hc =>
    refine .coming (hc.imp (Or.imp id (Or.imp ?_ id)) id)
    rintro ⟨c, hc, hget⟩
    exact ⟨c, hc, by simp [UsbStsReg.get_set, hget]⟩

end WaitWorld

end EzEhci
