import EzEhci.Runner.Frame
import EzEhci.Start.Run

/-!
# Host system errors

The interrupt handler publishes a host system error in `new_host_system_error`,
and no one reads the flag: once it is set it stays set, and a runner that is
running goes on running.
-/

namespace EzEhci

open Lib

theorem PollPc.takes_hostSystemError (irq : IrqHandlerSharedState) (pc : PollPc) :
    (pc.takes irq).newHostSystemError = irq.newHostSystemError := by
  cases pc <;> rfl

theorem DriverWorld.Stepped.hostSystemError {W : Type} [Wakers W] {oc : OverflowChecks}
    {s s' : DriverWorld W} {a : DriverLabel W} (hs : Stepped oc s a s') (ha : a.isPoll = false)
    (h : s.runner.irq.newHostSystemError = true) : s'.runner.irq.newHostSystemError = true := by
  cases hs with
  | irq =>
    show (handleIrq _ s.runner.irq).2.flag .hostSystemError = true
    rw [flag_handleIrq _ _ (by decide)]
    exact Bool.or_eq_true_iff.mpr (.inr h)
  | poll => cases ha
  | resetDevice | load | setConfiguration | returns | registers | goesOn | watch | wakeRunner => exact h

namespace RunWorld

variable {W : Type} [Wakers W] {oc : OverflowChecks} {s s' : RunWorld W}

/-- A host system error was published and not taken. -/
def HostError (s : RunWorld W) : Prop := s.driver.runner.irq.newHostSystemError = true

theorem Ticked.hostError {w : W} {rds : StartReadings} {reset : ResetReadings} {pc : RunPc}
    {pc' : Option RunPc} (ht : Ticked oc w rds reset s pc s' pc') (h : s.HostError) : s'.HostError := by
  cases ht with
  | isReset hstate hread hm =>
    obtain ⟨heap, usbCmd, written, rfl⟩ := setUp_eq_some hm
    exact h
  | @taken req hreq =>
    cases req
    exact h
  | running hr =>
    have hirq := (RunnerWorld.tick_frame hr).irq
    exact ((congrArg IrqHandlerSharedState.newHostSystemError hirq).trans
      (PollPc.takes_hostSystemError _ _)).trans h
  | idle | halted | timedOut | delays | runs | noReq | delayed => exact h

/-! ## Runs -/

theorem HostError.step (h : s.HostError) {a : RunLabel W} (hs : s.step oc a = some s') : s'.HostError := by
  cases Stepped.of_step hs with
  | client driver ha hd => exact (DriverWorld.Stepped.of_step hd).hostSystemError ha h
  | pollReset | callStart | pollStart | dropStart | startPoll => exact h
  | tick hpoll ht => exact ht.hostError h

/-- The steps of one poll of the runner and of what falls into it. -/
structure IsPoll (oc : OverflowChecks) (s : RunWorld W) (tr : List (RunLabel W)) (s' : RunWorld W) : Prop where
  starts : ∃ w tr', tr = .startPoll w :: tr' ∧ ∀ w', .startPoll w' ∉ tr'
  runs : exec (RunWorld.step oc) s tr = some s'
  returns : s'.poll = none

/-- The runner has stopped and taken the error. -/
def StoppedOnError (s : RunWorld W) : Prop := (∃ error, s.state = .stopped error) ∧ ¬ s.HostError

end RunWorld

/-- **Host system errors are ignored.** In every run of the driver: no poll that begins with
`new_host_system_error` set stops the runner and takes the flag; the flag stays set, and a runner that was
running is running after it. -/
theorem not_stoppedOnError_of_poll {W : Type} [Wakers W] {oc : OverflowChecks} {driver : DriverWorld W}
    {s s' : RunWorld W} {tr₀ tr : List (RunLabel W)}
    (h₀ : exec (RunWorld.step oc) (.new driver) tr₀ = some s) (herr : s.HostError)
    (hp : s.IsPoll oc tr s') :
    ¬ s'.StoppedOnError ∧ s'.HostError ∧ (s.state = .running → s'.state = .running) := by
  have hnew : (RunWorld.new driver).InPlace := ⟨fun _ => trivial, nofun⟩
  have hplace : s.InPlace := exec_invariant hnew (fun _ _ _ hm hs => (hm.step hs).1) h₀
  have herr' : s'.HostError := exec_invariant herr (fun _ _ _ hm hs => hm.step hs) hp.runs
  refine ⟨fun hstop => hstop.2 herr', herr', fun hrun => ?_⟩
  refine (exec_invariant (I := fun m => m.InPlace ∧ m.state = .running) ⟨hplace, hrun⟩ ?_ hp.runs).2
  rintro m a m' ⟨hm, hrun⟩ hs
  obtain ⟨hm', hstays⟩ := hm.step hs
  exact ⟨hm', hstays hrun⟩

/-- The controller is started and reports a host system error. -/
def exampleHostError : List (RunLabel TaskWaker) :=
  RunWorld.exampleStart ++ RunWorld.exampleTicks 12 0 true ++
    [.client (.irq (UsbStsReg.zero.set .hostSystemError))]

def exampleErrorPoll : List (RunLabel TaskWaker) := .startPoll ⟨0⟩ :: RunWorld.exampleTicks 11 0 true

theorem exampleErrorPoll_once (w : TaskWaker) : .startPoll w ∉ RunWorld.exampleTicks 11 0 true := by
  intro h
  cases List.eq_of_mem_replicate h

/-- The runner goes on running with the flag set. -/
theorem not_stoppedOnError_example : ∃ s s',
    exec (RunWorld.step .on) (.new DriverWorld.exampleDriver) exampleHostError = some s ∧ s.HostError ∧
    s.IsPoll .on exampleErrorPoll s' ∧ ¬ s'.StoppedOnError := by
  obtain ⟨s, hs, herr⟩ := exec_witness (RunWorld.step .on) (.new DriverWorld.exampleDriver)
    exampleHostError (fun s => s.driver.runner.irq.newHostSystemError = true) (by decide +kernel)
  obtain ⟨s', hs', hret⟩ := exec_witness (RunWorld.step .on) (.new DriverWorld.exampleDriver)
    (exampleHostError ++ exampleErrorPoll) (fun s => s.poll.isNone = true) (by decide +kernel)
  rw [exec_append, hs, Option.bind_some] at hs'
  have hp : s.IsPoll .on exampleErrorPoll s' :=
    ⟨⟨⟨0⟩, _, rfl, exampleErrorPoll_once⟩, hs', Option.isNone_iff_eq_none.mp hret⟩
  exact ⟨s, s', hs, herr, hp, (not_stoppedOnError_of_poll hs herr hp).1⟩

theorem running_after_hostError : ¬ ∀ s s' tr₀ tr,
    exec (RunWorld.step .on) (.new DriverWorld.exampleDriver) tr₀ = some s → s.HostError →
    s.IsPoll .on tr s' → s'.StoppedOnError := by
  intro hall
  obtain ⟨s, hs, herr⟩ := exec_witness (RunWorld.step .on) (.new DriverWorld.exampleDriver)
    exampleHostError (fun s => s.driver.runner.irq.newHostSystemError = true) (by decide +kernel)
  obtain ⟨s', hs', hret, hrun⟩ := exec_witness (RunWorld.step .on) (.new DriverWorld.exampleDriver)
    (exampleHostError ++ exampleErrorPoll)
    (fun s => s.poll.isNone = true ∧ s.state.isRunning = true) (by decide +kernel)
  rw [exec_append, hs, Option.bind_some] at hs'
  obtain ⟨⟨error, hstop⟩, -⟩ := hall s s' exampleHostError exampleErrorPoll hs herr
    ⟨⟨⟨0⟩, _, rfl, exampleErrorPoll_once⟩, hs', Option.isNone_iff_eq_none.mp hret⟩
  rw [hstop] at hrun
  cases hrun

end EzEhci
