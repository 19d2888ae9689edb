import EzEhci.Port.World

/-!
# What the driver leaves alone of the ports

The runner writes PORTSC of a port to start and to end a reset, and every value
it writes has its change bits down, so that a write clears none of them. A tick
of the runner keeps the ports' `port_changed_signal`s or sets them, and one that
takes the flag of `port_change_detect` goes on to the signal of every port.
-/

namespace EzEhci

open Lib

/-! ## Registers -/

namespace PortScReg

def Plain (v : PortScReg) : Prop := ∀ b, v.change b = false

theorem plain_withoutWriteToClearBits (r : PortScReg) : r.withoutWriteToClearBits.Plain := by
  intro b
  cases b <;> simp [change, PortChangeBit.pos, withoutWriteToClearBits, withConnectStatusChange,
    withPortEnableChange, withOverCurrentChange, bit_setBit]

theorem bit_write (r v : PortScReg) {i : Nat} (hi : i < 32) : bit i (r.write v).raw =
    if bit i readOnlyMask then bit i r.raw
    else if bit i changeMask then bit i r.raw && !bit i v.raw else bit i v.raw := by
  simp only [write, bit, BitVec.getLsbD_or, BitVec.getLsbD_and, BitVec.getLsbD_not, hi, decide_true,
    Bool.true_and]
  by_cases hro : readOnlyMask.getLsbD i = true
  · simp [hro]
  · by_cases hch : changeMask.getLsbD i = true <;> simp [hro, hch]

theorem change_write (r v : PortScReg) (b : PortChangeBit) :
    (r.write v).change b = (r.change b && !v.change b) := by
  cases b <;> exact bit_write r v (by decide)

@[simp] theorem currentConnectStatus_write (r v : PortScReg) :
    (r.write v).currentConnectStatus = r.currentConnectStatus :=
  bit_write r v (by decide)

theorem Plain.change_write {v : PortScReg} (h : v.Plain) (r : PortScReg) (b : PortChangeBit) :
    (r.write v).change b = r.change b := by
  rw [PortScReg.change_write, h b, Bool.not_false, Bool.and_true]

end PortScReg

/-- What the writes of the driver keep of a register. -/
structure PortScReg.Alike (r r' : PortScReg) : Prop where
  connected : r'.currentConnectStatus = r.currentConnectStatus
  change : ∀ b, r'.change b = r.change b

theorem PortWorld.alike_written {l : List (Nat × PortScReg)} (hl : ∀ x ∈ l, x.2.Plain)
    (ports : Heap PortScReg) (i : Nat) : (ports i).Alike (written ports l i) := by
  induction l generalizing ports with
  | nil => exact ⟨rfl, fun _ => rfl⟩
  | cons x l ih =>
    obtain ⟨hc, hb⟩ := ih (fun y hy => hl y (List.mem_cons_of_mem x hy))
      (ports.modify x.1 fun r => r.write x.2)
    have hx := hl x List.mem_cons_self
    refine ⟨hc.trans ?_, fun b => (hb b).trans ?_⟩
    · rw [Heap.modify_apply]
      split
      next => exact PortScReg.currentConnectStatus_write _ _
      next => rfl
    · rw [Heap.modify_apply]
      split
      next => exact hx.change_write _ b
      next => rfl

/-! ## The runner -/

def PollPc.ReachesPort (i : Nat) : PollPc → Prop
  | .signalPorts todo => i ∈ todo
  | _ => False

namespace RunnerWorld

variable {W : Type} [Wakers W] {s s' s'' : RunnerWorld W} {oc : OverflowChecks} {w : W}
  {rds : ResetReadings} {rd : ResettingDevice W}

/-- What the ports and their waiters rely on. -/
structure PortFrame (s s' : RunnerWorld W) : Prop where
  nPorts : s'.nPorts = s.nPorts
  portSignal : ∀ i, Notified s'.woken (s.portSignal i) (s'.portSignal i)
  woken : ∀ t, s.woken t = true → s'.woken t = true
  written : ∃ l, s'.portScWritten = s.portScWritten ++ l ∧ ∀ x ∈ l, x.2.Plain

namespace PortFrame

theorem of_eq (hn : s'.nPorts = s.nPorts) (hs : ∀ i, s'.portSignal i = s.portSignal i)
    (hw : ∀ t, s.woken t = true → s'.woken t = true) (hp : s'.portScWritten = s.portScWritten) :
    PortFrame s s' :=
  ⟨hn, fun i => .inl (hs i), hw, [], by rw [hp, List.append_nil], by simp⟩

theorem refl (s : RunnerWorld W) : PortFrame s s := .of_eq rfl (fun _ => rfl) (fun _ h => h) rfl

theorem trans (h : PortFrame s s') (h' : PortFrame s' s'') : PortFrame s s'' where
  nPorts := h'.nPorts.trans h.nPorts
  portSignal i := by
    rcases h'.portSignal i with heq | ⟨hsig, hw⟩
    · rw [heq]
      exact (h.portSignal i).imp id fun ⟨hs, hw⟩ => ⟨hs, fun w hsig => h'.woken _ (hw w hsig)⟩
    · refine .inr ⟨hsig, fun w hwait => ?_⟩
      rcases h.portSignal i with heq | ⟨-, hw'⟩
      · exact hw w (heq.trans hwait)
      · exact h'.woken _ (hw' w hwait)
  woken t ht := h'.woken t (h.woken t ht)
  written := by
    obtain ⟨l, hl, hplain⟩ := h.written
    obtain ⟨l', hl', hplain'⟩ := h'.written
    refine ⟨l ++ l', by rw [hl', hl, List.append_assoc], fun x hx => ?_⟩
    exact (List.mem_append.mp hx).elim (hplain x) (hplain' x)

theorem modifyPort (i : Nat) (f : RootPortSharedState W → RootPortSharedState W) (waker : Option W)
    (h : ∀ sh, (f sh).portChangedSignal = sh.portChangedSignal) :
    PortFrame s ({ s with rootPorts := s.rootPorts.modify i f }.wake waker) := by
  refine .of_eq rfl (fun j => ?_) (fun _ ht => woken_wake waker ht) rfl
  simp only [RunnerWorld.portSignal, RunnerWorld.wake, Heap.modify_apply]
  split
  next => exact h _
  next => rfl

end PortFrame

theorem portFrame_signalPortChanged (i : Nat) : PortFrame s (s.signalPortChanged i) where
  nPorts := rfl
  portSignal j := by
    simp only [RunnerWorld.portSignal, signalPortChanged, RunnerWorld.wake, Heap.modify_apply]
    split
    next h =>
      subst h
      exact notified_signal s _
    next => exact .inl rfl
  woken _ ht := woken_wake _ ht
  written := ⟨[], (List.append_nil _).symm, by simp⟩

theorem portFrame_pollRootPort (i : Nat) : PortFrame s (s.pollRootPort w i) :=
  .modifyPort i _ _ fun _ => rfl

theorem portFrame_answer (result : Except DriverError Device) : PortFrame s (s.answer rd result) := by
  have hport := PortFrame.modifyPort (s := s) rd.rootPort.toNat
    (fun sh => { sh with resSignal := ((s.rootPorts rd.rootPort.toNat).resSignal.signal result).1 })
    ((s.rootPorts rd.rootPort.toNat).resSignal.signal result).2 fun _ => rfl
  exact hport.trans (.of_eq rfl (fun _ => rfl) (fun _ h => h) rfl)

theorem portFrame_finishReset (addr : BitVec 7) : PortFrame s (s.finishReset rd addr) := by
  have hadd : PortFrame s (s.addDevice rd.rootPort) := .of_eq rfl (fun _ => rfl) (fun _ h => h) rfl
  exact hadd.trans (portFrame_answer _)

theorem portFrame_startReset {i : Nat} {req : ResetDeviceResources}
    (h : s.startReset rds i req = some s') : PortFrame s s' := by
  unfold startReset at h
  split at h
  · cases h
    refine { PortFrame.refl s with written := ⟨[_], rfl, fun x hx => ?_⟩ }
    rw [List.mem_singleton.mp hx]
    exact PortScReg.plain_withoutWriteToClearBits _
  · cases h

theorem portFrame_resetStep {b : Bool} (h : s.resetStep oc w rds rd = some (s', b)) : PortFrame s s' := by
  unfold resetStep at h
  split at h
  next =>
    split at h
    next =>
      cases h
      exact portFrame_answer _
    next =>
      split at h <;> cases h
      · refine { PortFrame.refl s with written := ⟨[_], rfl, fun x hx => ?_⟩ }
        rw [List.mem_singleton.mp hx]
        exact PortScReg.plain_withoutWriteToClearBits _
      · exact .refl s
  next =>
    split at h
    next =>
      cases h
      exact portFrame_answer _
    next =>
      split at h
      next =>
        obtain ⟨m, hm, he⟩ := Option.map_eq_some_iff.mp h
        cases he
        obtain ⟨alloc, packets, qtds, heap, addr, rfl⟩ := startSetAddr_eq_some hm
        exact .of_eq rfl (fun _ => rfl) (fun _ h => h) rfl
      next =>
        split at h <;> cases h
        · exact portFrame_answer _
        · exact .refl s
  next =>
    split at h <;> cases h
    · exact .of_eq rfl (fun _ => rfl) (fun _ h => h) rfl
    · exact .refl s
  next =>
    split at h <;> cases h
    · exact portFrame_finishReset _
    · exact .of_eq rfl (fun _ => rfl) (fun _ h => h) rfl

/-- **What a tick leaves alone of the ports.** -/
theorem tick_portFrame {pc : PollPc} {pc' : Option PollPc} (h : s.tick oc w rds pc = some (s', pc')) :
    PortFrame s s' := by
  cases Ticked.of_tick h with
  | register | usbInt | usbErrInt | asyncAdvance | portChange | signalsInterrupts | signalsControls
  | signaled | pollsDevices | pollsInterrupts | pollsControls | resets | noReset | noRequest =>
    exact .of_eq rfl (fun _ => rfl) (fun _ h => h) rfl
  | signalDevice | signalInterrupt | signalControl =>
    exact .of_eq rfl (fun _ => rfl) (fun _ h => woken_wake _ h) rfl
  | fireRemoved =>
    obtain ⟨rd, waker, heq⟩ := fireRemoved_eq s
    rw [heq]
    exact .of_eq rfl (fun _ => rfl) (fun _ h => woken_wake _ h) rfl
  | signalPort => exact portFrame_signalPortChanged _
  | pollDevice =>
    rw [pollDevice_eq]
    exact .of_eq rfl (fun _ => rfl) (fun _ h => woken_wake _ h) rfl
  | pollInterrupt hp =>
    obtain ⟨periodic, callbacks, rfl⟩ := pollInterruptEndpoint_eq_some hp
    exact .of_eq rfl (fun _ => rfl) (fun _ h => woken_wake _ h) rfl
  | pollControl hp =>
    obtain ⟨heap, rfl⟩ := pollControlEndpoint_eq_some hp
    exact .of_eq rfl (fun _ => rfl) (fun _ h => woken_wake _ h) rfl
  | goesOn _ hm => exact portFrame_resetStep hm
  | waits _ hm => exact (portFrame_resetStep hm).trans (.of_eq rfl (fun _ => rfl) (fun _ h => h) rfl)
  | pollRootPort => exact portFrame_pollRootPort _
  | startReset _ hm => exact (portFrame_pollRootPort _).trans (portFrame_startReset hm)

/-- **The fan-out**: a tick that takes the flag goes on to the signal of every port. -/
theorem tick_reachesPort {pc : PollPc} {pc' : Option PollPc} {i : Nat} (hi : i < s.nPorts)
    (ht : s.tick oc w rds pc = some (s', pc'))
    (h : s.irq.newPortChangeDetect = true ∨ pc.ReachesPort i) :
    s'.irq.newPortChangeDetect = true ∨ (∃ p, pc' = some p ∧ p.ReachesPort i) ∨
      (s'.portSignal i).isSignaled = true := by
  have hirq : s'.irq = pc.takes s.irq := (tick_frame ht).irq
  cases Ticked.of_tick ht with
  | portChange =>
    have hflag := h.resolve_right id
    refine .inr (.inl ⟨_, rfl, ?_⟩)
    rw [if_pos hflag]
    exact List.mem_range.mpr hi
  | pollsDevices => exact .inl (h.resolve_right (List.not_mem_nil))
  | @signalPort j todo =>
    refine h.imp id fun hr => ?_
    rcases List.mem_cons.mp hr with rfl | hmem
    · refine .inr ?_
      simp [RunnerWorld.portSignal, signalPortChanged, RunnerWorld.wake, Signal.signal_fst,
        Signal.isSignaled]
    · exact .inl ⟨_, rfl, hmem⟩
  | _ =>
    rw [hirq]
    exact .inl (h.resolve_right id)

end RunnerWorld

/-! ## The clients -/

namespace DriverWorld

variable {W : Type} [Wakers W] {s s' : DriverWorld W} {oc : OverflowChecks}

/-- A call of a client sets none of the ports' `port_changed_signal`s and writes no PORTSC. -/
theorem portFrame_call {a : DriverLabel W} (ha : a.isCall = true) (hs : s.step oc a = some s') :
    RunnerWorld.PortFrame s.runner s'.runner ∧ s'.runner.pending = s.runner.pending := by
  cases Stepped.of_step hs with
  | resetDevice => exact ⟨.modifyPort _ _ _ fun _ => rfl, rfl⟩
  | load | registers | watch =>
    exact ⟨.of_eq rfl (fun _ => rfl) (fun _ h => RunnerWorld.woken_wake _ h) rfl, rfl⟩
  | setConfiguration | returns | goesOn => exact ⟨.refl _, rfl⟩
  | wakeRunner =>
    refine ⟨.of_eq rfl (fun _ => rfl) (fun t ht => ?_) rfl, rfl⟩
    simp only [RunnerWorld.wakeRunner, Function.update_apply]
    split
    next => rfl
    next => exact ht
  | irq | poll => cases ha

end DriverWorld

/-- A tick of the runner leaves the connection and the change bits of every port alone. -/
theorem PortWorld.alike_ticked {W : Type} [Wakers W] {s : PortWorld W} {oc : OverflowChecks} {w v : W}
    {rds : ResetReadings} {pc : PollPc} {t : RunnerWorld W × Option PollPc}
    (ht : s.runner.tick oc w rds pc = some t) (i : Nat) : (s.ports i).Alike ((s.ticked v t).ports i) := by
  obtain ⟨l, hl, hplain⟩ := (RunnerWorld.tick_portFrame ht).written
  have hdrop : t.1.portScWritten.drop s.driver.runner.portScWritten.length = l := by
    rw [hl]
    exact List.drop_left
  simp only [ticked, hdrop]
  exact alike_written hplain s.ports i

end EzEhci
