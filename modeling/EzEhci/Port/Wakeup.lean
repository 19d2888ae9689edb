import EzEhci.Port.Announce
import EzEhci.Wait.Completion

/-!
# No announced connection is missed

A change that the controller announces goes through the status register, the
flag of the interrupt handler and the runner's poll to the signal of every port.
`Covered` says that a waiter may sleep: its signal is set, an announcement is on
its way, no device is connected, or the last change of the connection was not
announced. When nothing is on its way and the runner sleeps, a waiter that
sleeps on a connected port is one whose port connected silently.
-/

namespace EzEhci

open Lib

/-- The poll has yet to take the flag of `port_change_detect`. -/
def PollPc.BeforePorts : PollPc → Prop
  | .register | .usbInt | .usbErrInt _ | .signalDevices _ | .signalInterrupts _ | .signalControls _
  | .asyncAdvance | .fireRemoved | .portChange => True
  | _ => False

theorem RunnerWorld.tick_beforePorts {W : Type} [Wakers W] {s s' : RunnerWorld W} {oc : OverflowChecks}
    {w : W} {rds : ResetReadings} {pc : PollPc} {pc' : Option PollPc}
    (ht : s.tick oc w rds pc = some (s', pc')) (hpc : pc.BeforePorts) (hne : pc ≠ .portChange) :
    ∃ p, pc' = some p ∧ p.BeforePorts := by
  cases Ticked.of_tick ht with
  | usbErrInt | asyncAdvance =>
    refine ⟨_, rfl, ?_⟩
    split <;> trivial
  | portChange => exact absurd rfl hne
  | register | usbInt | signalsInterrupts | signalDevice | signalsControls | signalInterrupt | signaled
  | signalControl | fireRemoved => exact ⟨_, rfl, trivial⟩
  | _ => cases hpc

namespace PortWorld

variable {W : Type} [Wakers W]

/-! ## The runner is roused -/

/-- The runner is going to be polled and to register its waker. -/
def Awake (s : PortWorld W) : Prop :=
  s.runnerWoken = true ∨ (∃ w, s.poll = some (w, .register)) ∨
    s.driver.runner.pending = false ∧ s.poll = none

/-- A runner that sleeps has its waker registered, and it took the flag. -/
structure Roused (s : PortWorld W) : Prop where
  waker : s.Awake ∨ s.driver.runner.irq.runnerWaker = .registered
  flag : s.driver.runner.irq.newPortChangeDetect = true →
    s.Awake ∨ ∃ w pc, s.poll = some (w, pc) ∧ pc.BeforePorts

variable {s s' : PortWorld W} {oc : OverflowChecks}

omit [Wakers W] in
theorem Roused.keeps (h : s.Roused) (hirq : s'.driver.runner.irq = s.driver.runner.irq)
    (hpoll : s'.poll = s.poll) (hpending : s'.driver.runner.pending = s.driver.runner.pending)
    (hwoken : s.runnerWoken = true → s'.runnerWoken = true) : s'.Roused := by
  have hawake : s.Awake → s'.Awake := by
    rintro (hw | hp | hp)
    · exact .inl (hwoken hw)
    · exact .inr (.inl (by rwa [hpoll]))
    · exact .inr (.inr (by rwa [hpending, hpoll]))
  refine ⟨?_, fun hflag => ?_⟩
  · rw [hirq]
    exact h.waker.imp hawake id
  · rw [hirq] at hflag
    rw [hpoll]
    exact (h.flag hflag).imp hawake id

/-- The handler wakes the runner before it sets a flag. -/
theorem Roused.irq (h : s.Roused) : Roused { s.deliverRunner (s.runner.interrupt s.usbSts) with
    usbSts := (handleIrq s.usbSts s.driver.runner.irq).1 } := by
  suffices hawake : Awake { s.deliverRunner (s.runner.interrupt s.usbSts) with
      usbSts := (handleIrq s.usbSts s.driver.runner.irq).1 } from ⟨.inl hawake, fun _ => .inl hawake⟩
  rcases h.waker with (hw | hp | hp) | hreg
  · exact .inl (by simp [deliverRunner, deliver, hw])
  · exact .inr (.inl hp)
  · exact .inr (.inr hp)
  · refine .inl ?_
    simp [deliverRunner, deliver, RunnerWorld.runnerWoken, RunnerWorld.interrupt, runner, hreg]

theorem Roused.tick (h : s.Roused) {w : W} {pc : PollPc} {rds : ResetReadings} {r : RunnerWorld W}
    {pc' : Option PollPc} (hp : s.poll = some (w, pc))
    (ht : s.runner.tick oc w rds pc = some (r, pc')) : (s.ticked w (r, pc')).Roused := by
  have hirq : r.irq = pc.takes s.driver.runner.irq := (RunnerWorld.tick_frame ht).irq
  -- apart from a runner that was woken, only one that is about to register is awake in a poll
  have hawake : s.Awake → pc ≠ .register → (s.ticked w (r, pc')).Awake := by
    rintro (hw | ⟨w', hp'⟩ | ⟨-, hp'⟩) hne
    · exact .inl (by simp [ticked, deliverRunner, deliver, hw])
    · cases hp.symm.trans hp'
      exact absurd rfl hne
    · cases hp.symm.trans hp'
  by_cases hreg : pc = .register
  · subst hreg
    cases ht
    exact ⟨.inr rfl, fun _ => .inr ⟨w, .usbInt, rfl, trivial⟩⟩
  · refine ⟨?_, fun hflag => ?_⟩
    · refine h.waker.imp (hawake · hreg) fun hwaker => ?_
      show r.irq.runnerWaker = .registered
      rw [hirq]
      cases pc <;> first | exact hwaker | exact absurd rfl hreg
    · replace hflag : (pc.takes s.driver.runner.irq).newPortChangeDetect = true := hirq ▸ hflag
      have hne : pc ≠ .portChange := by
        rintro rfl
        cases hflag
      have hold : s.driver.runner.irq.newPortChangeDetect = true := by
        cases pc <;> first | exact hflag | exact absurd rfl hne
      refine (h.flag hold).imp (hawake · hreg) ?_
      rintro ⟨w', q, hq, hbefore⟩
      cases hp.symm.trans hq
      obtain ⟨p, rfl, hp'⟩ := RunnerWorld.tick_beforePorts ht hbefore hne
      exact ⟨w, p, rfl, hp'⟩

/-! ## The waiters -/

/-- An announced change was not yet taken by the runner. -/
def Upstream (s : PortWorld W) : Prop :=
  s.owed = true ∨ s.usbSts.get .portChangeDetect = true ∨
    s.driver.runner.irq.newPortChangeDetect = true

/-- The runner took the flag and is going to signal the port. -/
def Ahead (s : PortWorld W) (i : Nat) : Prop := ∃ w pc, s.poll = some (w, pc) ∧ pc.ReachesPort i

inductive Covered (s : PortWorld W) (i : Nat) : Prop where
  | signaled (h : (s.driver.runner.portSignal i).isSignaled = true)
  | disconnected (h : (s.ports i).currentConnectStatus = false)
  | silent (h : s.silent i = true)
  | coming (h : s.Upstream ∨ s.Ahead i)

structure Tracked (s : PortWorld W) (i : Nat) : Prop where
  port : (s.waiters i).isNone = false → i < s.driver.runner.nPorts
  asleep : ∀ w, s.waiters i = .pending w false →
    ∃ w', s.driver.runner.portSignal i = .waiting w' ∧ Wakers.task w' = Wakers.task w
  covered : (s.waiters i).InWait → s.Covered i

/-- **A step of the driver** keeps the invariant if the announcements move on. -/
theorem Tracked.framed {i : Nat} (h : s.Tracked i)
    (hn : s'.driver.runner.nPorts = s.driver.runner.nPorts)
    (hsig : Notified s'.driver.runner.woken (s.driver.runner.portSignal i)
      (s'.driver.runner.portSignal i))
    (hw : s'.waiters i = (s.waiters i).wake s'.driver.runner.woken)
    (hports : (s'.ports i).currentConnectStatus = (s.ports i).currentConnectStatus)
    (hsilent : s'.silent i = s.silent i)
    (hcoming : i < s.driver.runner.nPorts → s.Upstream ∨ s.Ahead i →
      (s'.Upstream ∨ s'.Ahead i) ∨ (s'.driver.runner.portSignal i).isSignaled = true) :
    s'.Tracked i := by
  rw [← hn] at hcoming
  obtain ⟨hport, hasleep, hcovered⟩ := h
  rw [← hn] at hport
  refine ⟨fun hno => ?_, fun w hp => ?_, fun hin => ?_⟩
  · rw [hw, PortWaiter.isNone_wake] at hno
    exact hport hno
  · rw [hw] at hp
    cases hx : s.waiters i with
    | pending v b =>
      rw [hx] at hp
      obtain ⟨rfl, hb⟩ := PortWaiter.pending.inj hp
      obtain ⟨rfl, hno⟩ := Bool.or_eq_false_iff.mp hb
      obtain ⟨w', hwait, htask⟩ := hasleep v hx
      refine ⟨w', ?_, htask⟩
      rcases hsig with heq | ⟨-, hwoken⟩
      · exact heq.trans hwait
      · have hyes := hwoken w' hwait
        rw [htask, hno] at hyes
        cases hyes
    | none | new | read | wait =>
      rw [hx] at hp
      cases hp
  · rw [hw, PortWaiter.inWait_wake] at hin
    have hlt : i < s'.driver.runner.nPorts := hport hin.isNone
    cases hcovered hin with
    | signaled hs =>
      rcases hsig with heq | ⟨hs', -⟩
      · exact .signaled (heq ▸ hs)
      · exact .signaled hs'
    | disconnected hc => exact .disconnected (hports.trans hc)
    | silent hs => exact .silent (hsilent.trans hs)
    | coming hc =>
      rcases hcoming hlt hc with hc | hs
      · exact .coming hc
      · exact .signaled hs

theorem Tracked.client {i : Nat} (h : s.Tracked i) {a : DriverLabel W} {d : DriverWorld W}
    (ha : a.isCall = true)
    (hs : DriverWorld.step oc { s.driver with runner := s.runner } a = some d) :
    (s.deliver d).Tracked i := by
  obtain ⟨hf, -⟩ := DriverWorld.portFrame_call ha hs
  refine h.framed hf.nPorts (hf.portSignal i) rfl rfl rfl fun _ hc => .inl (hc.imp ?_ id)
  refine Or.imp id (Or.imp id fun hflag => ?_)
  show d.runner.irq.newPortChangeDetect = true
  rw [(DriverWorld.frame_call ha hs).irq]
  exact hflag

theorem Tracked.irq {i : Nat} (h : s.Tracked i) :
    Tracked { s.deliverRunner (s.runner.interrupt s.usbSts) with
      usbSts := (handleIrq s.usbSts s.driver.runner.irq).1 } i := by
  refine h.framed rfl (.inl rfl) rfl rfl rfl fun _ hc => .inl (hc.imp ?_ id)
  have hflag := flag_handleIrq s.usbSts s.driver.runner.irq (b := .portChangeDetect) nofun
  rintro (ho | hsts | hset)
  · exact .inl ho
  · refine .inr (.inr (hflag.trans ?_))
    rw [hsts, Bool.true_or]
  · refine .inr (.inr (hflag.trans ?_))
    rw [show s.driver.runner.irq.flag .portChangeDetect = true from hset, Bool.or_true]

/-- **A tick of the runner.** -/
theorem Tracked.tick {i : Nat} (h : s.Tracked i) {w : W} {pc : PollPc} {rds : ResetReadings}
    {r : RunnerWorld W} {pc' : Option PollPc} (hp : s.poll = some (w, pc))
    (ht : s.runner.tick oc w rds pc = some (r, pc')) : (s.ticked w (r, pc')).Tracked i := by
  have hf := RunnerWorld.tick_portFrame ht
  refine h.framed hf.nPorts (hf.portSignal i) rfl (alike_ticked ht i).connected rfl fun hi hc => ?_
  have hmoves (hor : s.driver.runner.irq.newPortChangeDetect = true ∨ pc.ReachesPort i) :
      (r.irq.newPortChangeDetect = true ∨ ∃ p, pc' = some p ∧ p.ReachesPort i) ∨
        (r.portSignal i).isSignaled = true :=
    (RunnerWorld.tick_reachesPort (s := s.runner) hi ht hor).elim (.inl ∘ .inl) (Or.imp .inr id)
  have hdone : (r.irq.newPortChangeDetect = true ∨ ∃ p, pc' = some p ∧ p.ReachesPort i) →
      (s.ticked w (r, pc')).Upstream ∨ (s.ticked w (r, pc')).Ahead i := by
    rintro (hflag | ⟨p, rfl, hr⟩)
    · exact .inl (.inr (.inr hflag))
    · exact .inr ⟨w, p, rfl, hr⟩
  rcases hc with (ho | hsts | hflag) | ⟨w', q, hq, hr⟩
  · exact .inl (.inl (.inl ho))
  · exact .inl (.inl (.inr (.inl hsts)))
  · exact (hmoves (.inl hflag)).imp hdone id
  · cases hp.symm.trans hq
    exact (hmoves (.inr hr)).imp hdone id

/-! ## The ports -/

theorem Tracked.controller {i : Nat} (h : s.Tracked i) {ports : Heap PortScReg} {usbSts : UsbStsReg}
    {owed : Bool} {silent : Heap Bool} {announced : Heap Nat}
    (hcovered : s.Covered i → Covered { s with ports, usbSts, owed, silent, announced } i) :
    Tracked { s with ports, usbSts, owed, silent, announced } i :=
  ⟨h.port, h.asleep, fun hin => hcovered (h.covered hin)⟩

/-- **A port changes**: if its connection changes, that is announced or silent. -/
theorem Tracked.portChanges {i : Nat} (h : s.Tracked i) (j : Nat) (r : PortScReg) :
    (s.portChanges j r).Tracked i := by
  refine h.controller fun hc => ?_
  cases hann : (s.ports j).announces r with
  | true => exact .coming (.inl (.inl (Bool.or_true _)))
  | false =>
    cases hc with
    | signaled hs => exact .signaled hs
    | coming hc =>
      refine .coming (hc.imp (Or.imp (fun ho => ?_) id) id)
      rw [Bool.or_false]
      exact ho
    | disconnected hd =>
      by_cases hij : i = j
      · subst hij
        by_cases hconn : r.currentConnectStatus = (s.ports i).currentConnectStatus
        · exact .disconnected (by simpa [hconn] using hd)
        · exact .silent (by simp [hconn])
      · exact .disconnected (by simpa [Heap.modify_of_ne _ _ hij] using hd)
    | silent hs =>
      refine .silent ?_
      simp only [Heap.modify_apply]
      split
      next hij =>
        rw [← hij, hs, Bool.not_false, ite_self]
      next => exact hs

theorem Tracked.detect {i : Nat} (h : s.Tracked i) :
    Tracked { s with owed := false, usbSts := s.usbSts.set .portChangeDetect } i :=
  h.controller fun _ => .coming (.inl (.inr (.inl (by simp [UsbStsReg.get_set]))))

theorem Tracked.raise {i : Nat} (h : s.Tracked i) (b : StsBit) :
    Tracked { s with usbSts := s.usbSts.set b } i := by
  refine h.controller fun hc => ?_
  cases hc with
  | signaled hs => exact .signaled hs
  | disconnected hd => exact .disconnected hd
  | silent hs => exact .silent hs
  | coming hc =>
    refine .coming (hc.imp (Or.imp id (Or.imp (fun hget => ?_) id)) id)
    simp [UsbStsReg.get_set, hget]

/-! ## The steps of a waiter -/

omit [Wakers W] in
/-- What covers a waiter is not its own state. -/
theorem Covered.setWaiter {i j : Nat} {x : PortWaiter W} (h : s.Covered i) :
    (s.setWaiter j x).Covered i := by
  cases h with
  | signaled hs => exact .signaled hs
  | disconnected hd => exact .disconnected hd
  | silent hs => exact .silent hs
  | coming hc => exact .coming hc

theorem Tracked.setWaiter {i : Nat} (j : Nat) {x : PortWaiter W} (h : i ≠ j → s.Tracked i)
    (hport : x.isNone = false → j < s.driver.runner.nPorts)
    (hasleep : ∀ w, x = .pending w false →
      ∃ w', s.driver.runner.portSignal j = .waiting w' ∧ Wakers.task w' = Wakers.task w)
    (hcovered : x.InWait → s.Covered j) : (s.setWaiter j x).Tracked i := by
  by_cases hij : i = j
  · subst hij
    have hx : (s.setWaiter i x).waiters i = x := by simp [PortWorld.setWaiter]
    refine ⟨fun hno => hport (hx ▸ hno), fun w hp => hasleep w (hx ▸ hp), fun hin => ?_⟩
    exact (hcovered (hx ▸ hin)).setWaiter
  · have hx : (s.setWaiter j x).waiters i = s.waiters i := by
      simp [PortWorld.setWaiter, Heap.modify_of_ne _ _ hij]
    obtain ⟨hport, hasleep, hcovered⟩ := h hij
    refine ⟨fun hno => hport (hx ▸ hno), fun w hp => hasleep w (hx ▸ hp), fun hin => ?_⟩
    exact (hcovered (hx ▸ hin)).setWaiter

theorem Tracked.waitUntilConnected {i : Nat} (h : s.Tracked i) {j : Nat}
    (hj : j < s.driver.runner.nPorts) : (s.setWaiter j .new).Tracked i :=
  .setWaiter j (fun _ => h) (fun _ => hj) nofun nofun

theorem Tracked.dropWait {i : Nat} (h : s.Tracked i) (j : Nat) : (s.setWaiter j .none).Tracked i :=
  .setWaiter j (fun _ => h) nofun nofun nofun

/-- **A waiter polls its port's signal**: it is suspended only if that is not set. -/
theorem Tracked.pollPortChanged (h : ∀ i, s.Tracked i) {j : Nat} {w : W} (hx : s.waiters j = .wait w)
    {x : PortWaiter W} (hx' : x = .read w ∨ x = .pending w false ∧
      (s.driver.runner.portSignal j).isSignaled = false) (i : Nat) :
    ((s.deliverRunner (s.runner.pollPortChanged w j)).setWaiter j x).Tracked i := by
  have hin : (s.waiters j).InWait := by rw [hx]; trivial
  have hself : (s.runner.pollPortChanged w j).portSignal j =
      ((s.driver.runner.portSignal j).pollWait w).state := by
    simp [RunnerWorld.pollPortChanged, RunnerWorld.portSignal, RunnerWorld.wake, runner]
  refine .setWaiter j (fun hij => ?_) (fun _ => (h j).port hin.isNone) (fun v hv => ?_) fun hin' => ?_
  · refine (h i).framed rfl (.inl ?_) rfl rfl rfl fun _ hc => .inl hc
    simp [deliverRunner, deliver, RunnerWorld.pollPortChanged, RunnerWorld.portSignal, RunnerWorld.wake,
      runner, Heap.modify_of_ne _ _ hij]
  · obtain rfl | ⟨rfl, hno⟩ := hx'
    · cases hv
    · cases hv
      obtain ⟨w', hstate, htask⟩ := Signal.pollWait_registers (w := w) hno
      exact ⟨w', hself.trans hstate, htask⟩
  · obtain rfl | ⟨rfl, hno⟩ := hx'
    · cases hin'
    · cases (h j).covered hin with
      | signaled hs =>
        rw [hno] at hs
        cases hs
      | disconnected hd => exact .disconnected hd
      | silent hs => exact .silent hs
      | coming hc => exact .coming hc

/-! ## Runs -/

/-- **Every step keeps the invariants.** -/
theorem Tracked.step (h : ∀ i, s.Tracked i) {a : PortLabel W} (hs : Stepped oc s a s') (i : Nat) :
    s'.Tracked i := by
  cases hs with
  | client ha hd => exact (h i).client ha hd
  | waitUntilConnected hj => exact (h i).waitUntilConnected hj
  | dropWait j => exact (h i).dropWait j
  | port => exact (h i).portChanges _ _
  | detect => exact (h i).detect
  | raise b => exact (h i).raise b
  | irq => exact (h i).irq
  | startPoll w hp =>
    refine ⟨(h i).port, (h i).asleep, fun hin => ?_⟩
    cases (h i).covered hin with
    | signaled hs => exact .signaled hs
    | disconnected hd => exact .disconnected hd
    | silent hs => exact .silent hs
    | coming hc =>
      refine .coming (hc.imp id fun ⟨w', pc, hpc, _⟩ => ?_)
      rw [hp] at hpc
      cases hpc
  | tick hp ht => exact (h i).tick hp ht
  | @pollNew j w hx => exact .setWaiter j (fun _ => h i) (fun _ => (h j).port (by rw [hx]; rfl)) nofun nofun
  | @pollPending j w v b hx =>
    refine .setWaiter j (fun _ => h i) (fun _ => (h j).port (by rw [hx]; rfl)) nofun fun _ => ?_
    exact (h j).covered (by rw [hx]; trivial)
  | connected => exact (h i).dropWait _
  | @notConnected j w hx hd =>
    -- a waiter goes on to wait only if no device is connected
    refine .setWaiter j (fun _ => h i) (fun _ => (h j).port (by rw [hx]; rfl)) nofun fun _ => ?_
    exact .disconnected hd
  | signaled hx => exact .pollPortChanged h hx (.inl rfl) i
  | suspended hx hno => exact .pollPortChanged h hx (.inr ⟨rfl, hno⟩) i

theorem Roused.step (h : s.Roused) {a : PortLabel W} (hs : Stepped oc s a s') : s'.Roused := by
  cases hs with
  | client ha hd =>
    refine h.keeps (DriverWorld.frame_call ha hd).irq rfl (DriverWorld.portFrame_call ha hd).2 fun hw => ?_
    simp [deliver, hw]
  | irq => exact h.irq
  | startPoll w => exact ⟨.inl (.inr (.inl ⟨w, rfl⟩)), fun _ => .inl (.inr (.inl ⟨w, rfl⟩))⟩
  | tick hp ht => exact h.tick hp ht
  | signaled | suspended =>
    refine h.keeps rfl rfl rfl fun hw => ?_
    simp [setWaiter, deliverRunner, deliver, hw]
  | _ => exact h.keeps rfl rfl rfl id

end PortWorld

end EzEhci
