import EzEhci.Lib.Trace
import EzEhci.Reset.Refine

/-!
# Ports left in reset

The runner asserts `port_reset` when it takes a request and clears it when the
timer runs out. If the port reads disconnected before that, the request is
answered and `port_reset` stays asserted. Otherwise every answer finds the port
released.
-/

namespace EzEhci

open Lib

/-- The last value the runner wrote to the port has `port_reset` set. -/
def heldEvent (i : Nat) (b : Bool) : ResetEvent → Bool
  | .wrote j v => if i = j then v.portReset else b
  | _ => b

def portHeld (log : List ResetEvent) (i : Nat) : Bool := log.foldl (heldEvent i) false

/-- A request is answered with its port released. -/
def AnswersReleased (l : List ResetEvent) : ResetEvent → Prop
  | .answered i _ _ _ => portHeld l i = false
  | _ => True

/-- No port is left in reset: not while no reset is in progress, and not by an answer. -/
structure PortsReleased (log : List ResetEvent) (s : ResetState) : Prop where
  idle : s.ongoing = none → ∀ i, portHeld log i = false
  answered : ∀ l e, l ++ [e] <+: log → AnswersReleased l e

/-- The port is connected whenever the runner looks at it before the reset is over. -/
def StopsConnected (s : ResetState) (o : Option ResetReadings) : Prop :=
  ∀ r rds, s.ongoing = some r → o = some rds → r.stage = .waitingToStopReset →
    rds.portSc.currentConnectStatus = true

instance (s : ResetState) : (o : Option ResetReadings) → Decidable (StopsConnected s o)
  | none => .isTrue nofun
  | some rds => decidable_of_iff (∀ r ∈ s.ongoing, r.stage = .waitingToStopReset →
      rds.portSc.currentConnectStatus = true) (by simp [StopsConnected])

section Record

variable {log l : List ResetEvent} {i : Nat}

theorem portHeld_append (log l : List ResetEvent) (i : Nat) :
    portHeld (log ++ l) i = l.foldl (heldEvent i) (portHeld log i) :=
  List.foldl_append

theorem portHeld_neutral (hl : ∀ e ∈ l, e.neutral = true) : portHeld (log ++ l) i = portHeld log i := by
  rw [portHeld_append]
  refine foldl_of_neutral fun e he => ?_
  cases e <;> first | rfl | cases hl _ he

theorem released_neutral (hl : ∀ e ∈ l, e.neutral = true) : Each AnswersReleased log l := by
  refine each_of_forall fun before _ e he => ?_
  have hneutral := hl e he
  cases e <;> trivial

end Record

/-! ## While the port's reset is asserted -/

section Steps

variable {dma : Dma} {log l : List ResetEvent} {s s' : ResetState} {o : Option ResetReadings}

/-- The port of the reset in progress is held until its timer runs out. -/
def HeldWhileStopping (log : List ResetEvent) (s : ResetState) : Prop :=
  ∀ r, s.ongoing = some r → r.stage = .waitingToStopReset → portHeld log r.rootPort = true

theorem HeldWhileStopping.step (h : HeldWhileStopping log s) (hs : ResetStep dma log s o l s') :
    HeldWhileStopping (log ++ l) s' := by
  rcases hs.kinds with ⟨-, hl, hongoing, -⟩ | ⟨i, req, v, -, rfl, -, -, -, hv, rfl⟩ |
    ⟨rds, r, l', -, hr, rfl, hp⟩
  · intro r hr hstage
    rw [portHeld_neutral (ResetEvent.neutral_of_outside hl)]
    exact h r (hongoing ▸ hr) hstage
  · rintro r ⟨⟩ -
    rw [portHeld_append]
    simp [heldEvent, hv]
  · -- a reset that goes on is past this stage, unless nothing happened
    intro r' hr' hstage
    cases hp with
    | disconnected => cases hr'
    | resetDone => cases hr'; cases hstage
    | fullSpeed => cases hr'
    | enabled => cases hr'; cases hstage
    | addressed => cases hr'; cases hstage
    | removed => cases hr'
    | waits hwait =>
      rw [portHeld_neutral (neutral_read rds r (neutral_singleton rfl))]
      exact h r' hr' hstage

/-- What holds between the steps if the port stays connected. -/
structure Releasing (log : List ResetEvent) (s : ResetState) : Prop where
  answered : Each AnswersReleased [] log
  held : ∀ i, portHeld log i = true →
    ∃ r, s.ongoing = some r ∧ r.rootPort = i ∧ r.stage = .waitingToStopReset

namespace Releasing

theorem neutral (h : Releasing log s) (hl : ∀ e ∈ l, e.neutral = true)
    (hongoing : ∀ i, portHeld log i = true →
      ∃ r, s'.ongoing = some r ∧ r.rootPort = i ∧ r.stage = .waitingToStopReset) :
    Releasing (log ++ l) s' where
  answered := h.answered.record (released_neutral hl)
  held i hi := by
    rw [portHeld_neutral hl] at hi
    exact hongoing i hi

theorem none_held (h : Releasing log s) {r : OngoingReset} (hr : s.ongoing = some r)
    (hstage : r.stage ≠ .waitingToStopReset) (i : Nat) : portHeld log i = false := by
  rw [← Bool.not_eq_true]
  intro hi
  obtain ⟨r', hr', -, hstage'⟩ := h.held i hi
  rw [hr] at hr'
  cases hr'
  exact hstage hstage'

theorem answer (h : Releasing log s) (hnone : ∀ i, portHeld log i = false) {rds : ResetReadings}
    {r : OngoingReset} {i : Nat} {req : ResetDeviceResources} {result : Except DriverError Device}
    {heap : Heap QhWithMetaA} :
    Releasing (log ++ (disconnectedEvents rds r ++ [.answered i req result heap])) s' := by
  have hdisc := neutral_disconnected rds r
  rw [← List.append_assoc]
  constructor
  · refine (h.answered.record (released_neutral hdisc)).record ⟨?_, trivial⟩
    show portHeld (log ++ disconnectedEvents rds r) i = false
    rw [portHeld_neutral hdisc]
    exact hnone i
  · intro j hj
    rw [portHeld_append] at hj
    replace hj : portHeld (log ++ disconnectedEvents rds r) j = true := hj
    rw [portHeld_neutral hdisc, hnone j] at hj
    cases hj

theorem consumed (h : Releasing log s) {i : Nat} {req : ResetDeviceResources} {v : PortScReg}
    (hnone : s.ongoing = none) :
    Releasing (log ++ [.consumed i req, .wrote i v])
      { s with
        portReq := Function.update s.portReq i none
        ongoing := some ⟨req, i, .waitingToStopReset⟩ } := by
  refine ⟨h.answered.record ⟨trivial, trivial, trivial⟩, fun j hj => ⟨_, rfl, ?_, rfl⟩⟩
  by_cases he : j = i
  · exact he.symm
  · rw [portHeld_append] at hj
    simp only [List.foldl_cons, List.foldl_nil, heldEvent, he, if_false] at hj
    obtain ⟨r, hr, -⟩ := h.held j hj
    rw [hnone] at hr
    cases hr

theorem resetDone (h : Releasing log s) {r : OngoingReset} {rds : ResetReadings} {v : PortScReg}
    (hr : s.ongoing = some r) (hv : v.portReset = false) :
    Releasing (log ++ (disconnectedEvents rds r ++ [.wrote r.rootPort v])) s' := by
  have hdisc := neutral_disconnected rds r
  rw [← List.append_assoc]
  refine ⟨(h.answered.record (released_neutral hdisc)).record ⟨trivial, trivial⟩, fun j hj => ?_⟩
  rw [portHeld_append] at hj
  simp only [List.foldl_cons, List.foldl_nil, heldEvent, hv, portHeld_neutral hdisc] at hj
  split at hj
  next => cases hj
  next hne =>
    obtain ⟨r', hr', rfl, -⟩ := h.held j hj
    rw [hr] at hr'
    cases hr'
    exact absurd rfl hne

theorem step (h : Releasing log s) (hD : StopsConnected s o) (hs : ResetStep dma log s o l s') :
    Releasing (log ++ l) s' := by
  rcases hs.kinds with ⟨-, hl, hongoing, -⟩ | ⟨i, req, v, -, rfl, -, hnone, -, -, rfl⟩ |
    ⟨rds, r, l', ho, hr, rfl, hp⟩
  · exact h.neutral (ResetEvent.neutral_of_outside hl) fun i hi => hongoing ▸ h.held i hi
  · exact h.consumed hnone
  · cases hp with
    | disconnected hstage hread =>
      refine h.answer (h.none_held hr fun hstop => ?_)
      rw [hD r rds hr ho hstop] at hread
      cases hread
    | resetDone v hstage hread hv => exact h.resetDone hr hv
    | fullSpeed hstage hread => exact h.answer (h.none_held hr (by simp [hstage]))
    | enabled alloc addr prepared async hstage hread halloc hasync =>
      refine h.neutral (neutral_read rds r (neutral_singleton rfl)) fun i hi => ?_
      rw [h.none_held hr (by simp [hstage])] at hi
      cases hi
    | addressed addr hstage hread =>
      refine h.neutral (neutral_read rds r fun e he => ?_) fun i hi => ?_
      · rcases List.mem_pair.mp he with rfl | rfl <;> rfl
      · rw [h.none_held hr (by simp [hstage])] at hi
        cases hi
    | removed addr sender device e hstage => exact h.answer (h.none_held hr (by simp [hstage]))
    | waits hwait => exact h.neutral (neutral_read rds r (neutral_singleton rfl)) h.held

theorem released (h : Releasing log s) : PortsReleased log s where
  idle hnone i := by
    rw [← Bool.not_eq_true]
    intro hi
    obtain ⟨r, hr, -⟩ := h.held i hi
    rw [hnone] at hr
    cases hr
  answered l e hl := h.answered.at hl

end Releasing

/-- A port that reads disconnected while its reset is asserted is answered held. -/
theorem HeldWhileStopping.stopsConnected (h : HeldWhileStopping log s)
    (hs : ResetStep dma log s o l s')
    (hq : ∀ l' e, l' ++ [e] <+: log ++ l → AnswersReleased l' e) : StopsConnected s o := by
  rintro r rds hr rfl hstage
  cases hs with
  | progress hr' hp =>
    rw [hr] at hr'
    cases hr'
    cases hp with
    | disconnected hst hread =>
      rw [← List.append_assoc] at hq
      have hans : portHeld (log ++ disconnectedEvents rds r) r.rootPort = false :=
        hq (log ++ disconnectedEvents rds r) _ List.prefix_rfl
      rw [portHeld_neutral (neutral_disconnected rds r), h r hr hstage] at hans
      cases hans
    | resetDone v hst hread => exact hread
    | fullSpeed hst hread => exact hread
    | enabled alloc addr prepared async hst hread => exact hread
    | addressed addr hst => rw [hstage] at hst; cases hst
    | removed addr sender device e hst => rw [hstage] at hst; cases hst
    | waits hwait =>
      rcases hwait with ⟨-, hread⟩ | ⟨addr, hst, -⟩ | ⟨addr, sender, hst, -⟩
      · exact hread
      · rw [hstage] at hst
        cases hst
      · rw [hstage] at hst
        cases hst

end Steps

/-! ## Runs -/

section Runs

variable {W : Type} [Wakers W] {dma : Dma} {oc : OverflowChecks} {nPorts : Nat} {s₀ s : ResetWorld W}

omit [Wakers W] in
theorem ResetWorld.Begun.releasing (h : s₀.Begun dma nPorts) : Releasing s₀.log s₀.state := by
  obtain ⟨seg, anchor, list, heap₀, heap, periodicHeap, qtds, runnerTask, -, -, rfl⟩ := h
  exact ⟨trivial, nofun⟩

omit [Wakers W] in
theorem ResetWorld.Begun.heldWhileStopping (h : s₀.Begun dma nPorts) :
    HeldWhileStopping s₀.log s₀.state := by
  obtain ⟨seg, anchor, list, heap₀, heap, periodicHeap, qtds, runnerTask, -, -, rfl⟩ := h
  exact nofun

/-- **Ports left in reset.** In every run of the running driver: no port is left in reset exactly if
no port reads disconnected between the assertion of its reset and the end of the timer. -/
theorem portsReleased_iff (hb : s₀.Begun dma nPorts) {tr : List (ResetLabel W)}
    (h : exec (ResetWorld.step dma oc) s₀ tr = some s) :
    PortsReleased s.log s.state ↔
      Meets (ResetWorld.step dma oc) (ResetWorld.Within StopsConnected) s₀ tr := by
  constructor
  · intro hrel
    exact ResetWorld.meets_of_record (I := HeldWhileStopping)
      (Q := fun log => ∀ l e, l ++ [e] <+: log → AnswersReleased l e) hb.heldWhileStopping hb.portsIdle
      (fun _ _ _ _ _ ht hs => ht.step hs)
      (fun log l hq l' e hl => hq l' e (hl.trans (List.prefix_append log l)))
      (fun _ _ _ _ _ ht hs hq => ht.stopsConnected hs hq) h hrel.answered
  · intro hmeets
    have hinv : Releasing s.log s.state :=
      ResetWorld.exec_protocol_of_meets (I := Releasing) hb.releasing hb.portsIdle
        (fun _ _ _ _ _ ht hD hs => ht.step hD hs) hmeets h
    exact hinv.released

end Runs

/-- The reset of a device that stays connected. -/
theorem portsReleased_exampleReset : ∃ s,
    exec (ResetWorld.step .identity .on) ResetWorld.example₀ ResetWorld.exampleReset = some s ∧
    portHeld (s.log.take 3) 1 = true ∧ PortsReleased s.log s.state := by
  obtain ⟨s, hs, hheld⟩ := exec_witness (ResetWorld.step .identity .on) ResetWorld.example₀
    ResetWorld.exampleReset (fun s => portHeld (s.log.take 3) 1 = true) (by decide +kernel)
  have hmeets : Meets (ResetWorld.step .identity .on) (ResetWorld.Within StopsConnected)
    ResetWorld.example₀ ResetWorld.exampleReset := by decide +kernel
  exact ⟨s, hs, hheld, (portsReleased_iff ResetWorld.example₀_begun hs).mpr hmeets⟩

/-- The device on port 1 is unplugged while its reset is asserted. -/
def exampleUnplug : List (ResetLabel TaskWaker) :=
  .client (.resetDevice 1 (ResetWorld.exampleRequest 0x2000)) ::
    ResetWorld.examplePoll 11 DriverWorld.exampleReadings ++
    [.tick { DriverWorld.exampleReadings with portSc := ⟨0⟩ }]

/-- A port left in reset with its request answered. -/
theorem not_portsReleased_unplug : ResetWorld.example₀.Begun .identity 2 ∧ ∃ s,
    exec (ResetWorld.step .identity .on) ResetWorld.example₀ exampleUnplug = some s ∧
    s.state.ongoing = none ∧ portHeld s.log 1 = true ∧ ¬ PortsReleased s.log s.state := by
  obtain ⟨s, hs, hidle, hheld⟩ := exec_witness (ResetWorld.step .identity .on) ResetWorld.example₀
    exampleUnplug (fun s => s.state.ongoing = none ∧ portHeld s.log 1 = true) (by decide +kernel)
  refine ⟨ResetWorld.example₀_begun, s, hs, hidle, hheld, fun hrel => ?_⟩
  rw [hrel.idle hidle 1] at hheld
  cases hheld

end EzEhci
