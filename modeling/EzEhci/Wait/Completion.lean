import EzEhci.Wait.Cover

/-!
# No completion is missed

A waiter reads its descriptor before it polls the signal, and it is suspended
only if the signal was not set: a completion in between is still on its way.
With no interrupt pending and the runner at rest there is no way left for it to
be, so the descriptor of every waiter that sleeps is active.
-/

namespace EzEhci

open Lib

/-! ## A waiter polls its signal -/

theorem Signal.pollWait_registers {W T : Type} [Wakers W] {sig : Signal W T} {w : W}
    (h : sig.isSignaled = false) :
    ∃ w', (sig.pollWait w).state = .waiting w' ∧ Wakers.task w' = Wakers.task w := by
  cases sig with
  | none => exact ⟨w, rfl, rfl⟩
  | waiting w' =>
    rw [Signal.pollWait]
    split
    next hwill => exact ⟨w', rfl, Wakers.task_eq_of_willWake hwill⟩
    next => exact ⟨w, rfl, rfl⟩
  | signaled v => cases h

namespace EndpointRef

variable {W : Type} [Wakers W] (s : RunnerWorld W) (w : W)

theorem intSignal_pollInt (ep : EndpointRef) :
    ep.intSignal (ep.pollInt s w) = ((ep.intSignal s).pollWait w).state := by
  cases ep <;> simp [intSignal, pollInt, RunnerWorld.wake]

theorem intSignal_pollInt_of_ne {ep ep' : EndpointRef} (h : ep' ≠ ep) :
    ep'.intSignal (ep.pollInt s w) = ep'.intSignal s := by
  cases ep <;> cases ep' <;> simp_all [intSignal, pollInt, RunnerWorld.wake, Heap.modify_apply]

theorem pollInt_irq (ep : EndpointRef) : (ep.pollInt s w).irq = s.irq := by cases ep <;> rfl

theorem pollInt_qtds (ep : EndpointRef) : (ep.pollInt s w).qtds = s.qtds := by cases ep <;> rfl

theorem listed_pollInt {ep ep' : EndpointRef} (h : ep'.Listed s) : ep'.Listed (ep.pollInt s w) := by
  cases ep <;> cases ep' <;> exact h

end EndpointRef

theorem DriverWorld.Serves.pollInt {W : Type} [Wakers W] {l : List (InterruptEpId × SenderId)}
    {s : DriverWorld W} (h : Serves l s) (ep : EndpointRef) (w : W) :
    Serves l { s with runner := ep.pollInt s.runner w } := by
  have hreg := h.registered.registry
  have hand := h.handed
  cases ep with
  | control e =>
    exact ⟨h.registered.setRunner (EndpointRef.pollInt s.runner w (.control e)) { hreg with } le_rfl,
      { hand with }, h.loaded⟩
  | interrupt e =>
    refine ⟨h.registered.setRunner (EndpointRef.pollInt s.runner w (.interrupt e)) { hreg with } le_rfl,
      ?_, h.loaded⟩
    refine { hand with requested := fun e' req he => hand.requested e' req ?_ }
    simp only [EndpointRef.pollInt, RunnerWorld.wake, Heap.modify_apply] at he
    split at he <;> exact he

namespace WaitWorld

variable {W : Type} [Wakers W] {s s' : WaitWorld W} {oc : OverflowChecks}

omit [Wakers W] in
/-- Only the poll of the runner matters to what is coming. -/
theorem Covered.setPoll {ep : EndpointRef} {p : Ptr} (h : s.Covered ep p) {waiters : List (Waiter W)}
    {poll : Option (CurrentPoll W)} {runnerWoken : Bool}
    (hp : ∀ w pc, s.poll = some (.runner w pc) → poll = some (.runner w pc)) :
    Covered { s with waiters, poll, runnerWoken } ep p := by
  cases h with
  | signaled hsig => exact .signaled hsig
  | active hact => exact .active hact
  | coming hc => exact .coming (hc.imp id fun ⟨w, pc, hrun, hr⟩ => ⟨w, pc, hp w pc hrun, hr⟩)

/-- The poll of a signal takes nothing from the waiters of other endpoints, nor if it is not ready. -/
theorem Covered.pollInt {ep ep' : EndpointRef} {p : Ptr} {w : W} (h : s.Covered ep p)
    (hrun : ∀ w pc, s.poll ≠ some (.runner w pc))
    (hready : ep = ep' → (ep'.intSignal s.driver.runner).isSignaled = false) {waiters : List (Waiter W)}
    {poll : Option (CurrentPoll W)} :
    Covered ({ s with waiters, poll }.deliverRunner (ep'.pollInt s.runner w)) ep p := by
  cases h with
  | signaled hsig =>
    have hne : ep ≠ ep' := by
      rintro rfl
      rw [hready rfl] at hsig
      cases hsig
    refine .signaled ?_
    show (ep.intSignal (ep'.pollInt s.runner w)).isSignaled = true
    rw [EndpointRef.intSignal_pollInt_of_ne _ _ hne]
    exact hsig
  | active hact =>
    refine .active ?_
    show ((ep'.pollInt s.runner w).qtds p).qtdToken.active = true
    rw [EndpointRef.pollInt_qtds]
    exact hact
  | coming hc =>
    have hup : s.Upstream := hc.resolve_right fun ⟨w, pc, hp, _⟩ => hrun w pc hp
    refine .coming (.inl (hup.imp id (Or.imp id fun hraised => ?_)))
    show (ep'.pollInt s.runner w).irq.UsbRaised
    rw [EndpointRef.pollInt_irq]
    exact hraised

/-- **A waiter polls the endpoint's signal**: if that is not set, it is suspended. -/
theorem Tracked.pollInt (h : s.Tracked) {x : Waiter W} {w : W} (hp : s.poll = some (.waiter x w .wait))
    {waiters : List (Waiter W)} {poll : Option (CurrentPoll W)}
    (hpoll : ∀ p, poll = some p → p = .waiter x w .read ∧ waiters = s.waiters)
    (hmem : ∀ y ∈ waiters, y ∈ s.waiters ∨
      y = x ∧ (x.endpoint.intSignal s.driver.runner).isSignaled = false) :
    Tracked ({ s with waiters, poll }.deliverRunner (x.endpoint.pollInt s.runner w)) := by
  obtain ⟨hwaker, hapart⟩ := h.apart x w .wait hp
  have hx : x ∈ s.all := mem_all.mpr (.inl ⟨w, .wait, hp⟩)
  have hlisted : ∀ y ∈ s.all, y.endpoint.Listed (x.endpoint.pollInt s.runner w) :=
    fun y hy => EndpointRef.listed_pollInt _ _ (h.listed y hy)
  have hrun : ∀ w' pc, s.poll ≠ some (.runner w' pc) := fun w' pc hrun => by cases hp.symm.trans hrun
  have hwoken := woken_deliver { s with waiters, poll }
    { s.driver with runner := x.endpoint.pollInt s.runner w }
  refine {
    serves := h.quiet.pollInt x.endpoint w
    within := ?_
    owed := h.owed
    listed := ?_
    apart := ?_
    asleep := ?_
    covered := ?_ }
  · intro w' pc hrun
    cases (hpoll _ (poll_deliver_runner.mp hrun)).1
  · intro y hy
    obtain ⟨z, hz, rfl⟩ := hwoken.mem_all hy
    rcases mem_all.mp hz with ⟨w', pc, hz⟩ | hz
    · cases (hpoll _ hz).1
      exact hlisted x hx
    · rcases hmem z hz with hz | ⟨rfl, -⟩
      · exact hlisted z (mem_all.mpr (.inr hz))
      · exact hlisted z hx
  · intro y w' pc hy
    obtain ⟨z, hz, rfl⟩ := hwoken.poll y w' pc hy
    obtain ⟨he, rfl⟩ := hpoll _ hz
    cases he
    refine ⟨hwaker, fun v hv => ?_⟩
    obtain ⟨u, hu, rfl⟩ := hwoken.mem_waiters hv
    exact hapart u hu
  · intro y hy hsleep
    obtain ⟨z, hz, rfl⟩ := hwoken.mem_waiters hy
    obtain ⟨hsleep, -⟩ := asleep_of_wake hsleep
    rcases hmem z hz with hz | ⟨rfl, hready⟩
    · obtain ⟨v, v', hv, hsig, htask⟩ := h.asleep z hz hsleep
      exact ⟨v, v', hv, (EndpointRef.intSignal_pollInt_of_ne _ _ (hapart z hz)).trans hsig, htask⟩
    · obtain ⟨w', hstate, htask⟩ := Signal.pollWait_registers (w := w) hready
      exact ⟨w, w', hwaker, (EndpointRef.intSignal_pollInt _ _ _).trans hstate, htask⟩
  · intro y hy
    obtain ⟨z, hz, rfl⟩ := hwoken.inWait hy
    rcases hz with ⟨hz, hsome⟩ | ⟨w', hz⟩
    · rcases hmem z hz with hz | ⟨rfl, hready⟩
      · exact (h.covered z (.inl ⟨hz, hsome⟩)).pollInt hrun fun he => absurd he (hapart z hz)
      · exact (h.covered z (.inr ⟨w, hp⟩)).pollInt hrun fun _ => hready
    · cases (hpoll _ hz).1

/-! ## The other steps of a waiter -/

theorem Tracked.setWaiters (h : s.Tracked) {waiters : List (Waiter W)} {poll : Option (CurrentPoll W)}
    {runnerWoken : Bool} (hrun : ∀ w pc, s.poll = some (.runner w pc) → poll = some (.runner w pc))
    (hwithin : ∀ w pc, poll = some (.runner w pc) → pc.Within s.driver.runner)
    (hlisted : ∀ x ∈ all { s with waiters, poll }, x.endpoint.Listed s.driver.runner)
    (hapart : ∀ x w pc, poll = some (.waiter x w pc) →
      x.waker = some w ∧ ∀ y ∈ waiters, y.endpoint ≠ x.endpoint)
    (hasleep : ∀ x ∈ waiters, x.Asleep → x ∈ s.waiters)
    (hcovered : ∀ x, InWait { s with waiters, poll } x → s.Covered x.endpoint x.qtd) :
    Tracked { s with waiters, poll, runnerWoken } where
  serves := h.serves
  within := hwithin
  owed := h.owed
  listed := hlisted
  apart := hapart
  asleep x hx hsleep := h.asleep x (hasleep x hx hsleep) hsleep
  covered x hx := (hcovered x hx).setPoll hrun

omit [Wakers W] in
theorem listed_of_owned (h : s.driver.Serves s.watching) {ep : EndpointRef} (ho : s.Owned ep) :
    ep.Listed s.driver.runner := by
  cases ep with
  | control e => exact h.loaded e ho
  | interrupt e =>
    obtain ⟨x, hx, rfl, hcalled⟩ := ho
    obtain ⟨e', he', hmem⟩ := h.handed.called x.2 hcalled
    rw [h.handed.distinct x hx _ hmem rfl]
    exact he'

theorem Tracked.startWait (h : s.Tracked) {ep : EndpointRef} {p : Ptr} (ho : s.Owned ep)
    (hfree : ∀ x ∈ s.all, x.endpoint ≠ ep) :
    Tracked { s with waiters := ⟨ep, p, none, false⟩ :: s.waiters } := by
  refine h.setWaiters (fun _ _ hp => hp) h.within (fun x hx => ?_) (fun x w pc hp => ?_)
    (fun x hx hsleep => ?_) fun x hx => ?_
  · rcases mem_all.mp hx with ⟨w, pc, hp⟩ | hx
    · exact h.listed x (mem_all.mpr (.inl ⟨w, pc, hp⟩))
    · rcases List.mem_cons.mp hx with rfl | hx
      · exact listed_of_owned h.serves ho
      · exact h.listed x (mem_all.mpr (.inr hx))
  · obtain ⟨hwaker, hne⟩ := h.apart x w pc hp
    refine ⟨hwaker, fun y hy => ?_⟩
    rcases List.mem_cons.mp hy with rfl | hy
    · exact (hfree x (mem_all.mpr (.inl ⟨w, pc, hp⟩))).symm
    · exact hne y hy
  · rcases List.mem_cons.mp hx with rfl | hx
    · cases hsleep.1
    · exact hx
  · rcases hx with ⟨hx, hsome⟩ | hpoll
    · rcases List.mem_cons.mp hx with rfl | hx
      · cases hsome
      · exact h.covered x (.inl ⟨hx, hsome⟩)
    · exact h.covered x (.inr hpoll)

theorem Tracked.dropWait (h : s.Tracked) (ep : EndpointRef) :
    Tracked { s with waiters := s.waiters.filter (·.endpoint ≠ ep) } := by
  have hsub : ∀ x ∈ s.waiters.filter (·.endpoint ≠ ep), x ∈ s.waiters :=
    fun x hx => (List.mem_filter.mp hx).1
  refine h.setWaiters (fun _ _ hp => hp) h.within (fun x hx => ?_) (fun x w pc hp => ?_)
    (fun x hx _ => hsub x hx) fun x hx => ?_
  · exact h.listed x (mem_all.mpr ((mem_all.mp hx).imp id (hsub x)))
  · obtain ⟨hwaker, hne⟩ := h.apart x w pc hp
    exact ⟨hwaker, fun y hy => hne y (hsub y hy)⟩
  · exact h.covered x (hx.imp (fun hx => ⟨hsub x hx.1, hx.2⟩) id)

theorem Tracked.startPoll (h : s.Tracked) {w : W} (hp : s.poll = none) :
    Tracked { s with runnerWoken := false, poll := some (.runner w .register) } := by
  refine h.setWaiters (fun _ _ hrun => ?_) (fun _ _ hrun => ?_) (fun x hx => ?_) (fun _ _ _ hwait => ?_)
    (fun _ hx _ => hx) fun x hx => ?_
  · rw [hp] at hrun
    cases hrun
  · cases hrun
    trivial
  · rcases mem_all.mp hx with ⟨w', pc, hx⟩ | hx
    · cases hx
    · exact h.listed x (mem_all.mpr (.inr hx))
  · cases hwait
  · rcases hx with hx | ⟨w', hx⟩
    · exact h.covered x (.inl hx)
    · cases hx

theorem Tracked.pollWaiter (h : s.Tracked) {ep : EndpointRef} {w : W} {x : Waiter W} (hp : s.poll = none)
    (hx : x ∈ s.waiters) (hep : x.endpoint = ep) :
    Tracked { s with
      waiters := s.waiters.filter (·.endpoint ≠ ep)
      poll := some (.waiter { x with waker := some w, woken := false } w
        (if x.waker.isSome then .wait else .read)) } := by
  have hsub : ∀ y ∈ s.waiters.filter (·.endpoint ≠ ep), y ∈ s.waiters ∧ y.endpoint ≠ ep :=
    fun y hy => ⟨(List.mem_filter.mp hy).1, of_decide_eq_true (List.mem_filter.mp hy).2⟩
  refine h.setWaiters (fun _ _ hrun => ?_) (fun _ _ hrun => ?_) (fun y hy => ?_) (fun y w' pc hy => ?_)
    (fun y hy _ => (hsub y hy).1) fun y hy => ?_
  · rw [hp] at hrun
    cases hrun
  · cases hrun
  · rcases mem_all.mp hy with ⟨w', pc, hy⟩ | hy
    · cases hy
      exact h.listed x (mem_all.mpr (.inr hx))
    · exact h.listed y (mem_all.mpr (.inr (hsub y hy).1))
  · cases hy
    exact ⟨rfl, fun z hz => hep ▸ (hsub z hz).2⟩
  · rcases hy with ⟨hy, hsome⟩ | ⟨w', hy⟩
    · exact h.covered y (.inl ⟨(hsub y hy).1, hsome⟩)
    · obtain ⟨rfl, -, hpc⟩ := CurrentPoll.waiter.inj (Option.some.inj hy)
      have hsome : x.waker.isSome = true := by
        by_contra hno
        rw [if_neg hno] at hpc
        cases hpc
      exact h.covered x (.inl ⟨hx, hsome⟩)

/-- A waiter reads its descriptor: it goes on to wait only if that is active. -/
theorem Tracked.read (h : s.Tracked) {x : Waiter W} {w : W} (hp : s.poll = some (.waiter x w .read))
    {poll : Option (CurrentPoll W)}
    (hpoll : ∀ p, poll = some p →
      p = .waiter x w .wait ∧ (s.driver.runner.qtds x.qtd).qtdToken.active = true) :
    Tracked { s with poll } := by
  refine h.setWaiters (fun _ _ hrun => ?_) (fun _ _ hrun => ?_) (fun y hy => ?_) (fun y w' pc hy => ?_)
    (fun _ hy _ => hy) fun y hy => ?_
  · cases hp.symm.trans hrun
  · cases (hpoll _ hrun).1
  · rcases mem_all.mp hy with ⟨w', pc, hy⟩ | hy
    · cases (hpoll _ hy).1
      exact h.listed x (mem_all.mpr (.inl ⟨w, .read, hp⟩))
    · exact h.listed y (mem_all.mpr (.inr hy))
  · cases (hpoll _ hy).1
    exact h.apart x w .read hp
  · rcases hy with hy | ⟨w', hy⟩
    · exact h.covered y (.inl hy)
    · obtain ⟨he, hactive⟩ := hpoll _ hy
      cases he
      exact .active hactive

/-- **A step of a waiter's poll.** -/
theorem Tracked.waiterTick (h : s.Tracked) {x : Waiter W} {w : W} {pc : WaiterPc}
    (hp : s.poll = some (.waiter x w pc)) : (s.waiterTick x w pc).Tracked := by
  cases pc with
  | read =>
    simp only [WaitWorld.waiterTick]
    split
    next hactive => exact h.read hp fun p hpoll => ⟨(Option.some.inj hpoll).symm, hactive⟩
    next => exact h.read hp fun p hpoll => by cases hpoll
  | wait =>
    simp only [WaitWorld.waiterTick, Signal.ready_pollWait]
    split
    next => exact h.pollInt hp (fun p hpoll => ⟨(Option.some.inj hpoll).symm, rfl⟩) fun y hy => .inl hy
    next hready =>
      refine h.pollInt hp (fun p hpoll => by cases hpoll) fun y hy => ?_
      rcases List.mem_cons.mp hy with rfl | hy
      · refine .inr ⟨rfl, ?_⟩
        rw [Signal.isSignaled_eq, hready, Option.isSome_none]
      · exact .inl hy

/-! ## Runs -/

/-- **Every step keeps the invariant.** -/
theorem Tracked.step (h : s.Tracked) {a : WaitLabel W} (hs : s.step oc a = some s') : s'.Tracked := by
  cases a with
  | client a =>
    obtain ⟨ha, hs⟩ := Option.ite_none_right_eq_some.mp hs
    obtain ⟨d, hd, rfl⟩ := Option.map_eq_some_iff.mp hs
    exact h.client ha hd
  | startWait ep p =>
    obtain ⟨⟨ho, hfree⟩, he⟩ := Option.ite_none_right_eq_some.mp hs
    cases he
    exact h.startWait ho hfree
  | dropWait ep =>
    cases hs
    exact h.dropWait ep
  | arm p qtd =>
    obtain ⟨ha, he⟩ := Option.ite_none_right_eq_some.mp hs
    cases he
    exact h.arm ha
  | complete p token error =>
    obtain ⟨⟨-, hioc⟩, he⟩ := Option.ite_none_right_eq_some.mp hs
    cases he
    exact h.complete error hioc
  | raiseOwed b =>
    obtain ⟨hb, he⟩ := Option.ite_none_right_eq_some.mp hs
    cases he
    exact h.raiseOwed hb
  | raise b =>
    cases hs
    exact h.raise b
  | irq =>
    cases hs
    exact h.irq
  | startPoll w =>
    obtain ⟨⟨hp, -⟩, he⟩ := Option.ite_none_right_eq_some.mp hs
    cases he
    exact h.startPoll (Option.isNone_iff_eq_none.mp hp)
  | tick rds =>
    simp only [WaitWorld.step] at hs
    split at hs
    next w pc hp =>
      obtain ⟨t, ht, rfl⟩ := Option.map_eq_some_iff.mp hs
      exact h.tick hp ht
    next => cases hs
  | pollWaiter ep w =>
    simp only [WaitWorld.step] at hs
    split at hs
    next x hp hx =>
      cases hs
      have hep : x.endpoint = ep := by simpa using List.find?_some hx
      exact h.pollWaiter hp (List.mem_of_find?_eq_some hx) hep
    next => cases hs
  | waiterTick =>
    simp only [WaitWorld.step] at hs
    split at hs
    next x w pc hp =>
      cases hs
      exact h.waiterTick hp
    next => cases hs

omit [Wakers W] in
theorem Begun.tracked [Wakers W] (h : s.Begun) : s.Tracked := by
  have hall : s.all = [] := by simp [all, h.poll, h.waiters]
  have hcontrols := h.started.controlEndpoints
  refine {
    serves := ⟨h.started.registered, ?_, fun e he => ?_⟩
    within := fun w pc hp => ?_
    owed := fun b hb => ?_
    listed := fun x hx => ?_
    apart := fun x w pc hp => ?_
    asleep := fun x hx => ?_
    covered := fun x hx => ?_ }
  · rw [h.watching]
    exact {
      answered := fun a ha => by rw [h.started.answers] at ha; cases ha
      controls := fun e he => by rw [hcontrols] at he; cases he
      requested := fun e req he => by rw [h.started.interrupt e] at he; cases he
      called := fun x hx => by rw [h.callbacks] at hx; cases hx
      old := fun x hx => by cases hx
      distinct := fun x hx => by cases hx }
  · rw [h.started.loaded] at he
    cases he
  · rw [h.poll] at hp
    cases hp
  · rw [h.owed] at hb
    cases hb
  · rw [hall] at hx
    cases hx
  · rw [h.poll] at hp
    cases hp
  · rw [h.waiters] at hx
    cases hx
  · have hmem := hx.mem_all
    rw [hall] at hmem
    cases hmem

/-- At rest nothing is on its way. -/
theorem Tracked.noneMissed (h : s.Tracked) (hrest : s.AtRest) : s.NoneMissed := by
  obtain ⟨howed, hbits, -, hrunner, -⟩ := hrest
  intro x hx _ hsleep
  cases h.covered x (.inl ⟨hx, hsleep.1⟩) with
  | signaled hsig =>
    obtain ⟨w, w', -, hwait, -⟩ := h.asleep x hx hsleep
    rw [hwait] at hsig
    cases hsig
  | active hact => exact hact
  | coming hc =>
    have husb : ∀ b ∈ usbBits, b ∈ handlerBits := by decide
    rcases hc with (hne | ⟨b, hb, hget⟩ | ⟨b, hb, hflag⟩) | ⟨w, pc, hp, -⟩
    · exact absurd howed hne
    · rw [(hbits b (husb b hb)).1] at hget
      cases hget
    · rw [(hbits b (husb b hb)).2] at hflag
      cases hflag
    · rw [hp] at hrunner
      cases hrunner

/-- **No completion is missed**: when nothing is pending and the runner is at rest, a waiter sleeps only
on an active descriptor. -/
theorem noneMissed_of_exec {s₀ : WaitWorld W} {tr : List (WaitLabel W)} (h0 : s₀.Begun)
    (h : exec (step oc) s₀ tr = some s) (hrest : s.AtRest) : s.NoneMissed :=
  (exec_invariant (I := Tracked) h0.tracked (fun _ _ _ hm hs => hm.step hs) h).noneMissed hrest

/-- A client waits for one descriptor, and after its completion for the next. -/
theorem noneMissed_example : ∃ s, exec (step .on) example₀ (exampleLoad ++ exampleWait ++
      exampleCompletion ++ exampleWait) = some s ∧ s.AtRest ∧
    (∃ x ∈ s.waiters, x.endpoint.Listed s.driver.runner ∧ x.Asleep) ∧ s.NoneMissed := by
  obtain ⟨s, hs, hrest, hwaits⟩ := exec_witness (step .on) example₀
    (exampleLoad ++ exampleWait ++ exampleCompletion ++ exampleWait)
    (fun s => s.AtRest ∧ ∃ x ∈ s.waiters, x.endpoint.Listed s.driver.runner ∧ x.Asleep)
    (by decide +kernel)
  exact ⟨s, hs, hrest, hwaits, noneMissed_of_exec example₀_begun hs hrest⟩

end WaitWorld

end EzEhci
