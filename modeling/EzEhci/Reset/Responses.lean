import EzEhci.Lib.Exchange
import EzEhci.Reset.Refine

/-!
# Responses of the root ports

`reset_device` signals a request and waits for the port's response signal. A
call that is dropped leaves its request, the reset in progress or the response
behind. If no call starts while a reset of its port is in progress or a response
is left, every call returns the response to its own request.
-/

namespace EzEhci

open Lib

/-! ## What a record says about a port -/

/-- What an event is between the callers on port `i` and the runner. -/
def portExchanged (i : Nat) : ResetEvent → Option (Exchanged ResetDeviceResources (Except DriverError Device))
  | .called j req => if i = j then some (.called req) else none
  | .consumed j _ => if i = j then some .taken else none
  | .answered j _ result _ => if i = j then some (.answered result) else none
  | .returned j result => if i = j then some (.returned result) else none
  | _ => none

def portExchange (i : Nat) (log : List ResetEvent) :
    List (Exchanged ResetDeviceResources (Except DriverError Device)) :=
  log.filterMap (portExchanged i)

/-- The calls on port `i` return the responses to their own requests. -/
def PortMatches (log : List ResetEvent) (i : Nat) : Prop := AllMatch (portExchange i log)

theorem portExchange_append (i : Nat) (log l : List ResetEvent) :
    portExchange i (log ++ l) = portExchange i log ++ portExchange i l :=
  List.filterMap_append

theorem portExchange_disconnected (i : Nat) (rds : ResetReadings) (r : OngoingReset) :
    portExchange i (disconnectedEvents rds r) = [] := by
  unfold disconnectedEvents
  split <;> rfl

theorem portExchange_fired (i : Nat) (xs : List SenderId) : portExchange i (xs.map .fired) = [] := by
  refine List.filterMap_eq_nil_iff.mpr fun e he => ?_
  obtain ⟨x, -, rfl⟩ := List.mem_map.mp he
  rfl

/-- A reset of port `i` is in progress. -/
def ResetState.Resetting (s : ResetState) (i : Nat) : Prop := ∃ r, s.ongoing = some r ∧ r.rootPort = i

/-- Nothing of an earlier call on port `i` is in progress or left. -/
def ResetState.PortSettled (s : ResetState) (i : Nat) : Prop := ¬ s.Resetting i ∧ s.portRes i = none

instance (s : ResetState) (i : Nat) : Decidable (s.Resetting i) :=
  decidable_of_iff (∃ r ∈ s.ongoing, r.rootPort = i) (by simp [ResetState.Resetting])

/-! ## Steps -/

section Steps

variable {dma : Dma} {log l : List ResetEvent} {s s' : ResetState} {o : Option ResetReadings}

/-- The ports' signals agree with the record. -/
def PortsSettled (log : List ResetEvent) (s : ResetState) : Prop :=
  ∀ i, Settled (portExchange i log) (s.portReq i) (s.Resetting i) (s.portRes i)

namespace PortsSettled

theorem keep (h : PortsSettled log s) (hl : ∀ i, portExchange i l = []) (hreq : s'.portReq = s.portReq)
    (hres : s'.portRes = s.portRes) (hongoing : ∀ i, s'.Resetting i → s.Resetting i) :
    PortsSettled (log ++ l) s' := by
  intro i
  rw [portExchange_append, hl, List.append_nil]
  exact (h i).congr (congrFun hreq i) (hongoing i) (congrFun hres i)

theorem called (h : PortsSettled log s) {i : Nat} {req : ResetDeviceResources} (hi : s.PortSettled i) :
    PortsSettled (log ++ [.called i req])
      { s with portReq := Function.update s.portReq i (some req) } := by
  intro j
  rw [portExchange_append]
  by_cases hj : j = i
  · subst hj
    simp only [portExchange, List.filterMap_cons, portExchanged, if_true, List.filterMap_nil,
      Function.update_self]
    exact (h j).called hi.1 hi.2 req
  · simp only [portExchange, List.filterMap_cons, portExchanged, hj, if_false, List.filterMap_nil,
      List.append_nil, Function.update_of_ne hj]
    exact h j

theorem returned (h : PortsSettled log s) {i : Nat} {result : Except DriverError Device}
    (hres : s.portRes i = some result) :
    PortsSettled (log ++ [.returned i result])
      { s with portRes := Function.update s.portRes i none } := by
  intro j
  rw [portExchange_append]
  by_cases hj : j = i
  · subst hj
    simp only [portExchange, List.filterMap_cons, portExchanged, if_true, List.filterMap_nil,
      Function.update_self]
    exact (h j).returned hres
  · simp only [portExchange, List.filterMap_cons, portExchanged, hj, if_false, List.filterMap_nil,
      List.append_nil, Function.update_of_ne hj]
    exact h j

theorem consumed (h : PortsSettled log s) {i : Nat} {req : ResetDeviceResources} {v : PortScReg}
    (hreq : s.portReq i = some req) :
    PortsSettled (log ++ [.consumed i req, .wrote i v]) { s with
      portReq := Function.update s.portReq i none
      ongoing := some ⟨req, i, .waitingToStopReset⟩ } := by
  intro j
  rw [portExchange_append]
  by_cases hj : j = i
  · subst hj
    simp only [portExchange, List.filterMap_cons, portExchanged, if_true, List.filterMap_nil,
      Function.update_self]
    exact ((h j).taken hreq).congr rfl (fun _ => trivial) rfl
  · simp only [portExchange, List.filterMap_cons, portExchanged, hj, if_false, List.filterMap_nil,
      List.append_nil, Function.update_of_ne hj]
    refine (h j).congr rfl ?_ rfl
    rintro ⟨r, ⟨⟩, hr⟩
    exact absurd hr.symm hj

theorem answered (h : PortsSettled log s) {r : OngoingReset} (hr : s.ongoing = some r)
    {result : Except DriverError Device} {heap : Heap QhWithMetaA} (hnone : s'.ongoing = none)
    (hreq : s'.portReq = s.portReq)
    (hres : s'.portRes = Function.update s.portRes r.rootPort (some result)) :
    PortsSettled (log ++ [.answered r.rootPort r.req result heap]) s' := by
  intro j
  have hidle : ¬ s'.Resetting j := by
    rintro ⟨r', hr', -⟩
    rw [hnone] at hr'
    cases hr'
  rw [portExchange_append, hreq, hres]
  by_cases hj : j = r.rootPort
  · subst hj
    simp only [portExchange, List.filterMap_cons, portExchanged, if_true, List.filterMap_nil,
      Function.update_self]
    exact ((h _).answered ⟨r, hr, rfl⟩ result).congr rfl hidle.elim rfl
  · simp only [portExchange, List.filterMap_cons, portExchanged, hj, if_false, List.filterMap_nil,
      List.append_nil, Function.update_of_ne hj]
    exact (h j).congr rfl hidle.elim rfl

theorem progress (h : PortsSettled log s) {rds : ResetReadings} {r : OngoingReset}
    (hr : s.ongoing = some r) (hp : ResetProgress s rds r l s') : PortsSettled (log ++ l) s' := by
  have hstage : ∀ {stage : ResetStage}, s'.ongoing = some { r with stage } →
      ∀ i, s'.Resetting i → s.Resetting i := by
    rintro stage hs i ⟨r', hr', rfl⟩
    rw [hs] at hr'
    cases hr'
    exact ⟨r, hr, rfl⟩
  cases hp with
  | disconnected => exact h.answered hr rfl rfl rfl
  | fullSpeed => exact h.answered hr rfl rfl rfl
  | removed => exact h.answered hr rfl rfl rfl
  | resetDone => exact h.keep (fun _ => rfl) rfl rfl (hstage rfl)
  | enabled => exact h.keep (fun _ => rfl) rfl rfl (hstage rfl)
  | addressed => exact h.keep (fun _ => rfl) rfl rfl (hstage rfl)
  | waits => exact h.keep (fun _ => rfl) rfl rfl fun _ hi => hi

theorem step (h : PortsSettled log s) (hcall : ∀ i req, .called i req ∈ l → s.PortSettled i)
    (hs : ResetStep dma log s o l s') : PortsSettled (log ++ l) s' := by
  cases hs with
  | called i req => exact h.called (hcall i req List.mem_cons_self)
  | returned i result hactive hres => exact h.returned hres
  | consumed i req v hreq => exact h.consumed hreq
  | progress hr hp =>
    rw [← List.append_assoc]
    refine progress (fun i => ?_) hr hp
    rw [portExchange_append, portExchange_disconnected, List.append_nil]
    exact h i
  | fired => exact h.keep (fun i => portExchange_fired i _) rfl rfl fun _ hi => hi
  | quiet | dropped | loaded | watched | control | ended => exact h.keep (fun _ => rfl) rfl rfl fun _ hi => hi

end PortsSettled

end Steps

/-! ## Runs -/

namespace ResetWorld

variable {W : Type} [Wakers W] {dma : Dma} {oc : OverflowChecks} {nPorts : Nat} {s₀ s s' : ResetWorld W}

/-- A call starts only when nothing of an earlier one on its port is in progress or left. -/
def CallsSettled (s : ResetWorld W) : ResetLabel W → Prop
  | .client (.resetDevice i _) => s.state.PortSettled i
  | _ => True

omit [Wakers W] in
theorem called_not_mem_tickEvents {r r' : RunnerWorld W} {rds : ResetReadings} {pc : PollPc}
    {pc' : Option PollPc} {i : Nat} {req : ResetDeviceResources} :
    .called i req ∉ r.tickEvents rds r' pc pc' := by
  intro h
  unfold RunnerWorld.tickEvents at h
  split at h
  · split at h
    next =>
      rcases List.mem_cons.mp h with h | h
      · cases h
      · obtain ⟨x, -, hx⟩ := List.mem_map.mp h
        cases hx
    next => cases h
  · cases List.mem_singleton.mp h
  · obtain ⟨x, -, hx⟩ := List.mem_map.mp h
    cases hx
  · split at h
    next =>
      simp only [disconnectedEvents, RunnerWorld.iterEvents, RunnerWorld.writeEvents,
        RunnerWorld.assignEvents, RunnerWorld.removeEvents, RunnerWorld.answerEvents, List.mem_append,
        List.mem_map] at h
      grind
    next => cases h
  · cases h

theorem call_of_step {a : ResetLabel W} {l : List ResetEvent} (h : s.step dma oc a = some s')
    (hlog : s'.log = s.log ++ l) {i : Nat} {req : ResetDeviceResources} (hmem : .called i req ∈ l) :
    a = .client (.resetDevice i req) := by
  cases a with
  | client a =>
    obtain ⟨-, h⟩ := Option.ite_none_right_eq_some.mp h
    obtain ⟨d, -, rfl⟩ := Option.map_eq_some_iff.mp h
    cases List.append_cancel_left hlog
    cases a with
    | resetDevice j req' =>
      cases List.mem_singleton.mp hmem
      rfl
    | load => cases List.mem_singleton.mp hmem
    | _ => cases hmem
  | pollReset j w =>
    obtain ⟨-, h⟩ := Option.ite_none_right_eq_some.mp h
    cases h
    cases List.append_cancel_left hlog
    obtain ⟨v, -, hv⟩ := List.mem_map.mp hmem
    cases hv
  | dropReset j =>
    obtain ⟨-, h⟩ := Option.ite_none_right_eq_some.mp h
    cases h
    cases List.append_cancel_left hlog
    cases List.mem_singleton.mp hmem
  | startPoll w =>
    obtain ⟨-, h⟩ := Option.ite_none_right_eq_some.mp h
    cases h
    have hnil : l = [] := List.self_eq_append_right.mp hlog
    rw [hnil] at hmem
    cases hmem
  | tick rds =>
    simp only [step] at h
    split at h
    next => cases h
    next w pc hpoll =>
      obtain ⟨t, -, rfl⟩ := Option.map_eq_some_iff.mp h
      cases List.append_cancel_left hlog
      exact absurd hmem called_not_mem_tickEvents

omit [Wakers W] in
theorem Begun.portsSettled (h : s₀.Begun dma nPorts) : PortsSettled s₀.log s₀.state := by
  obtain ⟨seg, anchor, list, heap₀, heap, periodicHeap, qtds, runnerTask, -, -, rfl⟩ := h
  refine fun i => Settled.start.congr rfl ?_ rfl
  rintro ⟨r, hr, -⟩
  cases hr

instance (s : ResetWorld W) : (a : ResetLabel W) → Decidable (CallsSettled s a)
  | .client (.resetDevice i _) =>
    decidable_of_iff (¬ s.state.Resetting i ∧ (s.state.portRes i).isNone) (by
      rw [Option.isNone_iff_eq_none]
      rfl)
  | .client (.load _ _) | .client (.setConfiguration ..) | .client (.configure _)
  | .client (.watch ..) | .client (.irq _) | .client .wakeRunner | .client (.poll _ _)
  | .pollReset _ _ | .dropReset _ | .startPoll _ | .tick _ => .isTrue trivial

/-- Every call of `reset_device` returns the response to its own request. -/
theorem portMatches_of_settled (hb : s₀.Begun dma nPorts) {tr : List (ResetLabel W)}
    (hC : Meets (step dma oc) CallsSettled s₀ tr) (h : exec (step dma oc) s₀ tr = some s) (i : Nat) :
    PortMatches s.log i := by
  have hinv : PortsSettled s.log s.state ∧ s.PortsIdle := by
    refine exec_invariant_of_meets (I := fun s => PortsSettled s.log s.state ∧ s.PortsIdle)
      ⟨hb.portsSettled, hb.portsIdle⟩ ?_ hC h
    rintro m a m' ⟨hm, hp⟩ hc hs
    obtain ⟨⟨l, hlog, hl⟩, hp'⟩ := refines hp hs
    refine ⟨hlog ▸ hm.step (fun j req hmem => ?_) hl, hp'⟩
    cases call_of_step hs hlog hmem
    exact hc
  exact (hinv.1 i).allMatch

end ResetWorld

end EzEhci
