import EzEhci.Reset.Responses
import EzEhci.Start.Run

/-!
# Responses of the runner

`EhciControl::start` signals a request and waits for the response signal, as
`reset_device` does with its port's signals. If no call starts while an earlier
request is worked on or a response is left, every call returns the response to
its own request.
-/

namespace EzEhci

open Lib

/-- What an event is between the callers of `start` and the runner. -/
def startExchanged : StartEvent → Option (Exchanged ControlReq (Except DriverError Unit))
  | .called config => some (.called (.start config))
  | .consumed _ => some .taken
  | .answered result => some (.answered result)
  | .returned result => some (.returned result)
  | .dropped => none

def startExchange (log : List StartEvent) : List (Exchanged ControlReq (Except DriverError Unit)) :=
  log.filterMap startExchanged

/-- The calls of `start` return the responses to their own requests. -/
def StartMatches (log : List StartEvent) : Prop := AllMatch (startExchange log)

theorem startExchange_append (log l : List StartEvent) :
    startExchange (log ++ l) = startExchange log ++ startExchange l :=
  List.filterMap_append

namespace RunWorld

variable {W : Type} [Wakers W] {oc : OverflowChecks} {s s' : RunWorld W}

/-- A call starts only when nothing of an earlier one is in progress or left. -/
def StartsSettled (s : RunWorld W) : RunLabel W → Prop
  | .callStart _ => s.state.isStarting = false ∧ s.control.resSignal.value? = none
  | _ => True

instance (s : RunWorld W) : (a : RunLabel W) → Decidable (StartsSettled s a)
  | .callStart _ =>
    decidable_of_iff (s.state.isStarting = false ∧ s.control.resSignal.value?.isNone) (by
      rw [Option.isNone_iff_eq_none]
      rfl)
  | .client _ | .pollReset _ _ | .pollStart _ | .dropStart | .startPoll _ | .tick _ _ => .isTrue trivial

/-- The control signals agree with the record. -/
def ControlSettled (s : RunWorld W) : Prop :=
  Settled (startExchange s.log) s.control.reqSignal.value? (s.state.isStarting = true)
    s.control.resSignal.value?

/-! ## Steps -/

namespace ControlSettled

omit [Wakers W] in
theorem keep (h : s.ControlSettled) (hlog : s'.log = s.log)
    (hreq : s'.control.reqSignal.value? = s.control.reqSignal.value?)
    (hres : s'.control.resSignal = s.control.resSignal)
    (hstate : s'.state.isStarting = true → s.state.isStarting = true) : s'.ControlSettled := by
  unfold ControlSettled
  rw [hlog]
  exact Settled.congr h hreq hstate (by rw [hres])

theorem respond (h : s.ControlSettled) (hbusy : s.state.isStarting = true)
    (hcontrol : s'.control = s.control) (hlog : s'.log = s.log) (hstate : s'.state.isStarting = false)
    (result : Except DriverError Unit) : (s'.respond result).ControlSettled := by
  have hans := Settled.answered h hbusy result
  show Settled (startExchange (s'.log ++ [.answered result])) s'.control.reqSignal.value?
    (s'.state.isStarting = true) (s'.control.resSignal.signal result).1.value?
  rw [startExchange_append, hlog, hcontrol]
  exact hans.congr rfl (fun hs => by rw [hstate] at hs; cases hs) (Signal.value?_signal _ _)

theorem tick (h : s.ControlSettled) {w : W} {rds : StartReadings} {reset : ResetReadings} {pc : RunPc}
    {pc' : Option RunPc} (ht : Ticked oc w rds reset s pc s' pc') : s'.ControlSettled := by
  cases ht with
  | idle | delays | runs | delayed | running => exact h.keep rfl rfl rfl id
  | halted hstate => exact h.keep rfl rfl rfl fun _ => by rw [hstate]; rfl
  | isReset hstate hread hm =>
    obtain ⟨heap, usbCmd, written, hm⟩ := setUp_eq_some hm
    exact h.respond (by rw [hstate]; rfl) (by rw [hm]) (by rw [hm]) (by rw [hm]; rfl) (.ok ())
  | timedOut hstate =>
    have hbusy : s.state.isStarting = true := by
      rcases hstate with ⟨hs, -⟩ | ⟨hs, -⟩ <;> (rw [hs]; rfl)
    generalize hm : { s with state := RunnerState.stopped (some _) } = m
    exact h.respond hbusy (by rw [← hm]) (by rw [← hm]) (by rw [← hm]; rfl) _
  | @taken req hreq =>
    obtain ⟨config⟩ := req
    have htaken := Settled.taken h hreq
    show Settled (startExchange (s.log ++ [.consumed config])) (s.control.reqSignal.pollWait w).state.value?
      _ s.control.resSignal.value?
    rw [startExchange_append]
    exact htaken.congr (Signal.value?_pollWait _ _) (fun _ => trivial) rfl
  | noReq hreq => exact h.keep rfl ((Signal.value?_pollWait _ _).trans hreq.symm) rfl id

theorem callStart (h : s.ControlSettled) (hidle : s.state.isStarting = false)
    (hres : s.control.resSignal.value? = none) (config : StartConfig) :
    (s.callStart config).ControlSettled := by
  have hcall := Settled.called h (by rw [hidle]; exact Bool.false_ne_true) hres (.start config)
  show Settled (startExchange (s.log ++ [.called config]))
    (s.control.reqSignal.signal (.start config)).1.value? (s.state.isStarting = true)
    s.control.resSignal.value?
  rw [startExchange_append]
  exact hcall.congr (Signal.value?_signal _ _) id rfl

theorem pollStart (h : s.ControlSettled) (w : W) : (s.pollStart w).ControlSettled := by
  show Settled (startExchange (s.log ++ (s.control.resSignal.pollWait w).ready.toList.map .returned))
    s.control.reqSignal.value? (s.state.isStarting = true) (s.control.resSignal.pollWait w).state.value?
  rw [startExchange_append, Signal.ready_pollWait, Signal.value?_pollWait]
  cases hres : s.control.resSignal.value? with
  | none =>
    rw [Option.toList_none, List.map_nil, startExchange, startExchange, List.filterMap_nil, List.append_nil]
    exact Settled.congr h rfl id hres.symm
  | some result => exact Settled.returned h hres

theorem step (h : s.ControlSettled) {a : RunLabel W} (hC : StartsSettled s a)
    (hs : s.step oc a = some s') : s'.ControlSettled := by
  cases Stepped.of_step hs with
  | client | pollReset | startPoll => exact h
  | callStart config hidle => exact h.callStart hC.1 hC.2 config
  | pollStart w hactive => exact h.pollStart w
  | dropStart hactive =>
    show Settled (startExchange (s.log ++ [.dropped])) _ _ _
    rw [startExchange_append]
    exact (List.append_nil (startExchange s.log)).symm ▸ h
  | tick hpoll ht => exact (h.tick ht).keep rfl rfl rfl id

end ControlSettled

/-- Every call of `start` returns the response to its own request. -/
theorem startMatches_of_settled {driver : DriverWorld W} {tr : List (RunLabel W)}
    (hC : Meets (step oc) StartsSettled (.new driver) tr) (h : exec (step oc) (.new driver) tr = some s) :
    StartMatches s.log := by
  have h0 : (new driver).ControlSettled := Settled.start.congr rfl (fun hs => by cases hs) rfl
  have hinv : s.ControlSettled :=
    exec_invariant_of_meets h0 (fun _ _ _ hm hc hs => hm.step hc hs) hC h
  exact hinv.allMatch

end RunWorld

/-- **Responses match their requests**: in every run in which a call of `reset_device` starts only when
no reset of its port is in progress and none of its responses is left, each call returns the response to
its own request, however many calls are dropped; and so does each call of `start`. -/
theorem responsesMatch_of_settled {W : Type} [Wakers W] {oc : OverflowChecks} :
    (∀ {dma : Dma} {nPorts : Nat} {s₀ s : ResetWorld W} {tr : List (ResetLabel W)}, s₀.Begun dma nPorts →
      exec (ResetWorld.step dma oc) s₀ tr = some s →
      Meets (ResetWorld.step dma oc) ResetWorld.CallsSettled s₀ tr → ∀ i, PortMatches s.log i) ∧
    ∀ {driver : DriverWorld W} {s : RunWorld W} {tr : List (RunLabel W)},
      exec (RunWorld.step oc) (.new driver) tr = some s →
      Meets (RunWorld.step oc) RunWorld.StartsSettled (.new driver) tr → StartMatches s.log :=
  ⟨fun hb h hC => ResetWorld.portMatches_of_settled hb hC h,
    fun h hC => RunWorld.startMatches_of_settled hC h⟩

def ResetEvent.isReturned : ResetEvent → Bool
  | .returned _ _ => true
  | _ => false

def StartEvent.isReturned : StartEvent → Bool
  | .returned _ => true
  | _ => false

/-- A reset and a start, both awaited. -/
theorem responsesMatch_awaited :
    (∃ s, exec (ResetWorld.step .identity .on) ResetWorld.example₀
        (ResetWorld.exampleReset ++ [.pollReset 1 ⟨1⟩]) = some s ∧
      s.log.any ResetEvent.isReturned = true ∧ PortMatches s.log 1) ∧
    ∃ s, exec (RunWorld.step .on) (.new DriverWorld.exampleDriver)
        (RunWorld.exampleStart ++ [.pollStart ⟨1⟩]) = some s ∧
      s.log.any StartEvent.isReturned = true ∧ StartMatches s.log := by
  constructor
  · obtain ⟨s, hs, hret⟩ := exec_witness (ResetWorld.step .identity .on) ResetWorld.example₀
      (ResetWorld.exampleReset ++ [.pollReset 1 ⟨1⟩]) (fun s => s.log.any ResetEvent.isReturned = true)
      (by decide +kernel)
    have hC : Meets (ResetWorld.step .identity .on) ResetWorld.CallsSettled ResetWorld.example₀
      (ResetWorld.exampleReset ++ [.pollReset 1 ⟨1⟩]) := by decide +kernel
    exact ⟨s, hs, hret, responsesMatch_of_settled.1 ResetWorld.example₀_begun hs hC 1⟩
  · obtain ⟨s, hs, hret⟩ := exec_witness (RunWorld.step .on) (.new DriverWorld.exampleDriver)
      (RunWorld.exampleStart ++ [.pollStart ⟨1⟩]) (fun s => s.log.any StartEvent.isReturned = true)
      (by decide +kernel)
    have hC : Meets (RunWorld.step .on) RunWorld.StartsSettled (.new DriverWorld.exampleDriver)
      (RunWorld.exampleStart ++ [.pollStart ⟨1⟩]) := by decide +kernel
    exact ⟨s, hs, hret, responsesMatch_of_settled.2 hs hC⟩

/-- A reset that is dropped in progress, and another call on its port. -/
def exampleDropped : List (ResetLabel TaskWaker) :=
  .client (.resetDevice 1 (ResetWorld.exampleRequest 0x2000)) ::
    ResetWorld.examplePoll 11 DriverWorld.exampleReadings ++
    [.dropReset 1, .client (.resetDevice 1 (ResetWorld.exampleRequest 0x5000)),
      .tick { DriverWorld.exampleReadings with portSc := ⟨0⟩ }, .pollReset 1 ⟨1⟩]

/-- A start that is dropped in progress, and another call. -/
def exampleStartDropped : List (RunLabel TaskWaker) :=
  .callStart RunWorld.exampleConfig :: .startPoll ⟨0⟩ :: RunWorld.exampleTicks 2 0 false ++
    .dropStart :: .callStart RunWorld.exampleConfig :: RunWorld.exampleTicks 1 5 false ++ [.pollStart ⟨1⟩]

/-- Both second calls return the response to the first. -/
theorem not_responsesMatch_dropped :
    (ResetWorld.example₀.Begun .identity 2 ∧ ∃ s,
      exec (ResetWorld.step .identity .on) ResetWorld.example₀ exampleDropped = some s ∧
      ¬ PortMatches s.log 1) ∧
    ∃ s, exec (RunWorld.step .on) (.new DriverWorld.exampleDriver) exampleStartDropped = some s ∧
      ¬ StartMatches s.log := by
  constructor
  · obtain ⟨s, hs, hbad⟩ := exec_witness (ResetWorld.step .identity .on) ResetWorld.example₀
      exampleDropped (fun s => mismatched (portExchange 1 s.log) = true) (by decide +kernel)
    exact ⟨ResetWorld.example₀_begun, s, hs, not_allMatch_of_mismatched hbad⟩
  · obtain ⟨s, hs, hbad⟩ := exec_witness (RunWorld.step .on) (.new DriverWorld.exampleDriver)
      exampleStartDropped (fun s => mismatched (startExchange s.log) = true) (by decide +kernel)
    exact ⟨s, hs, not_allMatch_of_mismatched hbad⟩

end EzEhci
