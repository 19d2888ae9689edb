import EzEhci.Start.Record

/-!
# Start requests are served

The invariant behind `StartProtocol`: the runner is where its state says, its
requests are valid, and state and record agree. It holds whatever the controller
reads and however late a timer fires. A tick on a request is work that the
record counts, so a request is answered after boundedly many ticks.
-/

namespace EzEhci

open Lib

/-! ## Ticks -/

namespace RunWorld

variable {W : Type} [Wakers W] {oc : OverflowChecks} {cap64 : Bool} {s s' : RunWorld W}

omit [Wakers W] in
/-- What is recorded of a tick that adds `l` to the log and writes `regs`. -/
theorem agrees_of_added {delayed : Bool} {next : Nat} {acts : List StartAct} {rds : StartReadings}
    {pc : RunPc} (l : List StartEvent) (regs : List OpRegWrite) (hlog : s'.log = s.log ++ l)
    (hwritten : s'.written = s.written ++ regs)
    (h : s'.state.Agrees cap64 delayed next (acts ++ (l.filterMap StartEvent.taken? ++ s.workActs rds pc ++
      regs.filterMap OpRegWrite.usbCmd? ++ l.filterMap StartEvent.responded?))) :
    s'.state.Agrees cap64 delayed next (acts ++ s.tickActs s' rds pc) := by
  rw [tickActs, hlog, hwritten, List.drop_left, List.drop_left]
  exact h

omit [Wakers W] in
theorem isWrite_of_mem {regs : List OpRegWrite} {x : StartAct} (h : x ∈ regs.filterMap OpRegWrite.usbCmd?) :
    ∃ v, x = .wroteUsbCmd v := by
  obtain ⟨reg, -, hreg⟩ := List.mem_filterMap.mp h
  cases reg <;> cases hreg
  exact ⟨_, rfl⟩

omit [Wakers W] in
theorem agrees_of_quiet {delayed delayed' : Bool} {next next' : Nat} {acts : List StartAct}
    {rds : StartReadings} {pc : RunPc} (h : s.state.Agrees cap64 delayed next acts)
    (hidle : s.state.isStarting = false) (hstate : s'.state = s.state) (hlog : s'.log = s.log)
    (hwritten : s'.written = s.written) (hacts : s.workActs rds pc = []) :
    s'.state.Agrees cap64 delayed' next' (acts ++ s.tickActs s' rds pc) := by
  refine agrees_of_added [] [] (by simp [hlog]) (by simp [hwritten]) ?_
  rw [hacts, hstate]
  simpa using h.idle hidle

/-- **A tick keeps state and record in agreement.** -/
theorem Ticked.agrees {w : W} {rds : StartReadings} {reset : ResetReadings} {pc : RunPc}
    {pc' : Option RunPc} {clock : Nat} {acts : List StartAct} (ht : Ticked oc w rds reset s pc s' pc')
    (hpc : pc.Fits s.state)
    (h : s.state.Agrees cap64 (pc = .delay) (if pc = .delay then s.delayUntil else clock) acts)
    (hnow : clock ≤ rds.now) (hdelay : pc = .delay → rds.delayReady = true → s.delayUntil ≤ rds.now)
    (hvalid : ∀ config, s.control.reqSignal.value? = some (.start config) → config.Valid cap64)
    (hreset : pc = .waitReq → s.control.reqSignal.isSignaled = true → rds.usbCmd.hcReset = false) :
    s'.state.Agrees cap64 (pc'.getD pc.resumes = .delay)
      (if pc'.getD pc.resumes = .delay then s'.delayUntil else rds.now)
      (acts ++ s.tickActs s' rds pc) := by
  have henter : pc = .enter → s.state.Agrees cap64 false clock acts := by
    rintro rfl
    simpa using h
  cases ht with
  | idle hstate =>
    exact agrees_of_quiet h (by rw [hstate]; rfl) rfl rfl rfl (by rw [workActs, hstate])
  | runs hstate =>
    exact agrees_of_quiet h (by rw [hstate]; rfl) rfl rfl rfl (by rw [workActs, hstate])
  | noReq hreq =>
    obtain ⟨error, hstate⟩ := hpc
    exact agrees_of_quiet h (by rw [hstate]; rfl) rfl rfl rfl rfl
  | running hr =>
    have hstate : s.state = .running := hpc
    exact agrees_of_quiet h (by rw [hstate]; rfl) rfl rfl rfl rfl
  | halted hstate hread =>
    have hagrees := henter rfl
    rw [hstate] at hagrees
    refine agrees_of_added [] _ (List.append_nil _).symm rfl ?_
    rw [workActs, hstate, hread]
    exact hagrees.halted _
  | isReset hstate hread hm =>
    have hagrees := henter rfl
    rw [hstate] at hagrees
    obtain ⟨heap, usbCmd, regs, rfl⟩ := setUp_eq_some hm
    refine agrees_of_added [.answered (.ok ())] regs rfl rfl ?_
    rw [workActs, hstate, hread]
    exact hagrees.isReset fun x hx => isWrite_of_mem hx
  | timedOut hstate =>
    refine agrees_of_added [.answered (.error _)] [] rfl (List.append_nil _).symm ?_
    rcases hstate with ⟨hstate, herror, -, hread⟩ | ⟨hstate, herror, -, hread⟩
    · rw [workActs, hstate, hread]
      exact (henter rfl).timedOut (.inl ⟨hstate, herror, rfl⟩)
    · rw [workActs, hstate, hread]
      exact (henter rfl).timedOut (.inr ⟨hstate, herror, rfl⟩)
  | delays hstate hge htime =>
    refine agrees_of_added [] [] (List.append_nil _).symm (List.append_nil _).symm ?_
    rcases hstate with ⟨hstate, hstrategy, hread⟩ | ⟨hstate, hstrategy, hread⟩
    · have hacts : s.workActs rds .enter = [.checkedHalted false] := by rw [workActs, hstate, hread]
      rw [hacts]
      exact (henter rfl).delays (.inl ⟨hstate, hstrategy, rfl⟩) hnow htime
    · have hacts : s.workActs rds .enter = [.checkedReset false] := by rw [workActs, hstate, hread]; rfl
      rw [hacts]
      exact (henter rfl).delays (.inr ⟨hstate, hstrategy, rfl⟩) hnow htime
  | @taken req hreq =>
    obtain ⟨config⟩ := req
    refine agrees_of_added [.consumed config] [.usbCmd _] rfl rfl ?_
    have hclear := hreset rfl (by rw [Signal.isSignaled_eq, hreq]; rfl)
    exact RunnerState.Agrees.taken acts (hvalid config hreq) (by rw [UsbCmdReg.hcReset_withRs, hclear])
  | delayed hdone =>
    subst hdone
    refine agrees_of_added [] [] (List.append_nil _).symm (List.append_nil _).symm ?_
    have hwait : s.state.Agrees cap64 true s.delayUntil acts := by simpa using h
    by_cases hready : rds.delayReady = true
    · rw [if_pos hready, workActs, if_pos hready]
      exact hwait.resumed hpc (hdelay rfl hready)
    · rw [if_neg hready, workActs, if_neg hready]
      simpa [RunPc.resumes] using hwait

omit [Wakers W] in
theorem isTaken_of_mem_workActs {rds : StartReadings} {pc : RunPc} {e : StartAct}
    (h : e ∈ s.workActs rds pc) : e.isTaken = false := by
  have hall : ∀ x ∈ s.workActs rds pc, x.isTaken = false := by
    unfold workActs
    split
    · split <;> simp [StartAct.isTaken]
    · split <;> simp [StartAct.isTaken]
    · simp
  exact hall e h

theorem Ticked.acts_not_taken {w : W} {rds : StartReadings} {reset : ResetReadings} {pc : RunPc}
    {pc' : Option RunPc} (ht : Ticked oc w rds reset s pc s' pc') (hpc : pc ≠ .waitReq) :
    ∀ e ∈ s.tickActs s' rds pc, e.isTaken = false := by
  have hlog : ∃ l, s'.log = s.log ++ l ∧ l.filterMap StartEvent.taken? = [] := by
    cases ht with
    | isReset hstate hread hm =>
      obtain ⟨heap, usbCmd, regs, rfl⟩ := setUp_eq_some hm
      exact ⟨[.answered (.ok ())], rfl, rfl⟩
    | @timedOut startTime config error hstate => exact ⟨[.answered (.error error)], rfl, rfl⟩
    | taken hreq => exact absurd rfl hpc
    | _ => exact ⟨[], (List.append_nil _).symm, rfl⟩
  obtain ⟨l, hl, hnone⟩ := hlog
  intro e he
  rw [tickActs, hl, List.drop_left, hnone, List.nil_append] at he
  rcases List.mem_append.mp he with he | he
  · rcases List.mem_append.mp he with he | he
    · exact isTaken_of_mem_workActs he
    · obtain ⟨v, rfl⟩ := isWrite_of_mem he
      rfl
  · obtain ⟨event, -, hevent⟩ := List.mem_filterMap.mp he
    cases event <;> cases hevent
    rfl

theorem step_other {a : RunLabel W} (htick : ∀ rds reset, a ≠ .tick rds reset) (h : s.step oc a = some s') :
    s'.state = s.state ∧ s'.pc = s.pc ∧ s'.delayUntil = s.delayUntil ∧
      (s'.control.reqSignal = s.control.reqSignal ∨
        ∃ config, a = .callStart config ∧ s'.control.reqSignal.value? = some (.start config)) := by
  cases Stepped.of_step h with
  | client | pollReset | pollStart | dropStart => exact ⟨rfl, rfl, rfl, .inl rfl⟩
  | callStart config hidle => exact ⟨rfl, rfl, rfl, .inr ⟨config, rfl, Signal.value?_signal _ _⟩⟩
  | startPoll w hnone hw =>
    refine ⟨rfl, ?_, rfl, .inl rfl⟩
    rw [pc, pc, hnone]
    rfl
  | tick => exact absurd rfl (htick _ _)

/-- A tick takes a request or leaves the signal as it is. -/
theorem Ticked.reqSignal {w : W} {rds : StartReadings} {reset : ResetReadings} {pc : RunPc}
    {pc' : Option RunPc} (ht : Ticked oc w rds reset s pc s' pc') :
    s'.control.reqSignal.value? = s.control.reqSignal.value? ∨ s'.control.reqSignal.value? = none := by
  cases ht with
  | isReset hstate hread hm =>
    obtain ⟨heap, usbCmd, regs, rfl⟩ := setUp_eq_some hm
    exact .inl rfl
  | @taken req hreq =>
    cases req
    exact .inr (Signal.value?_pollWait _ _)
  | noReq hreq => exact .inr (Signal.value?_pollWait _ _)
  | _ => exact .inl rfl

end RunWorld

/-! ## The invariant -/

namespace StartWorld

variable {W : Type} [Wakers W] {oc : OverflowChecks} {cap64 : Bool} {s s' : StartWorld W}

def next (s : StartWorld W) : Nat := if s.run.pc = .delay then s.run.delayUntil else s.clock

structure Inv (cap64 : Bool) (s : StartWorld W) : Prop where
  inPlace : s.run.InPlace
  valid : ∀ config, s.run.control.reqSignal.value? = some (.start config) → config.Valid cap64
  agrees : s.run.state.Agrees cap64 (s.run.pc = .delay) s.next s.acts

omit [Wakers W] in
theorem inv_new (driver : DriverWorld W) : (new driver).Inv cap64 where
  inPlace := ⟨fun _ => trivial, fun w pc hpoll => by cases hpoll⟩
  valid config hreq := by cases hreq
  agrees := rfl

theorem step_eq_some {a : RunLabel W} (h : s.step cap64 oc a = some s') :
    s.Permitted cap64 a ∧ ∃ run, s.run.step oc a = some run ∧
      s' = ⟨run, s.time a, s.acts ++ s.newActs run a⟩ := by
  obtain ⟨hperm, h⟩ := Option.ite_none_right_eq_some.mp h
  obtain ⟨run, hrun, rfl⟩ := Option.map_eq_some_iff.mp h
  exact ⟨hperm, run, hrun, rfl⟩

theorem Inv.tick (h : s.Inv cap64) {rds : StartReadings} {reset : ResetReadings}
    (hC : s.Unhindered (.tick rds reset)) (hs : s.step cap64 oc (.tick rds reset) = some s') :
    s'.Inv cap64 := by
  obtain ⟨⟨hnow, -, hdelay⟩, run, hrun, rfl⟩ := step_eq_some hs
  have hplace := (h.inPlace.step hrun).1
  cases RunWorld.Stepped.of_step hrun with
  | @tick _ _ w pc m pc' hpoll ht =>
    have hpc := RunWorld.pc_of_poll hpoll
    have hagrees := h.agrees
    rw [next, hpc] at hagrees
    have hnext := ht.agrees (h.inPlace.poll w pc hpoll) hagrees hnow
      (fun hd => hdelay (hpc.trans hd)) h.valid (fun hw => hC.1 (hpc.trans hw))
    have hafter : RunWorld.pc { m with
        poll := pc'.map (w, ·)
        resume := if pc'.isSome then s.run.resume else pc.resumes } = pc'.getD pc.resumes := by
      cases pc' <;> rfl
    refine ⟨hplace, fun config hreq => ?_, ?_⟩
    · rcases ht.reqSignal with hsame | hnone
      · exact h.valid config (hsame ▸ hreq)
      · rw [hnone] at hreq
        cases hreq
    · rw [next, hafter, newActs, hpc]
      exact hnext

/-- **Step**: the invariant is kept. -/
theorem Inv.step (h : s.Inv cap64) {a : RunLabel W} (hC : s.Unhindered a)
    (hs : s.step cap64 oc a = some s') : s'.Inv cap64 := by
  by_cases htick : ∃ rds reset, a = .tick rds reset
  · obtain ⟨rds, reset, rfl⟩ := htick
    exact h.tick hC hs
  · obtain ⟨hperm, run, hrun, rfl⟩ := step_eq_some hs
    obtain ⟨hstate, hpc, hdelay, hreq⟩ :=
      RunWorld.step_other (fun rds reset ha => htick ⟨rds, reset, ha⟩) hrun
    have hquiet : s.time a = s.clock ∧ s.newActs run a = [] := by
      cases a with
      | tick rds reset => exact absurd ⟨rds, reset, rfl⟩ htick
      | _ => exact ⟨rfl, rfl⟩
    refine ⟨(h.inPlace.step hrun).1, fun config hconfig => ?_, ?_⟩
    · rcases hreq with hsame | ⟨config', rfl, hreq⟩
      · exact h.valid config (hsame ▸ hconfig)
      · cases hconfig.symm.trans hreq
        exact hperm
    · rw [next, hstate, hpc, hdelay, hquiet.1, hquiet.2, List.append_nil]
      exact h.agrees

end StartWorld

/-! ## The runner goes on -/

namespace RunWorld

variable {W : Type} [Wakers W] {cap64 : Bool} {s : RunWorld W} {rds : StartReadings} {config : StartConfig}

theorem checkAgain_isSome {startTime now : Nat} {strategy : PollStrategy} (error : DriverError)
    (hnow : startTime ≤ now) (hfit : strategy.SumsFit startTime now) :
    (s.checkAgain now startTime strategy error).isSome := by
  unfold checkAgain
  rw [if_neg (by omega)]
  split
  · rfl
  next htime =>
    obtain ⟨hnext, hdeadline⟩ := hfit (by omega)
    simp [addDuration, hnext, hdeadline]

omit [Wakers W] in
theorem setUp_isSome (hvalid : config.Valid cap64) (hcap : rds.addressingCap64 = cap64) :
    (s.setUp rds config).isSome := by
  have hseg : ¬ (config.ctrlDsSegment.baseAddrUpper ≠ 0 ∧ (!rds.addressingCap64) = true) := by
    rintro ⟨hne, hno⟩
    rw [hcap, hvalid.segment hne] at hno
    cases hno
  simp only [setUp, if_neg hseg, getAddrOffset_of_contains hvalid.periodicList,
    getAddrOffset_of_contains hvalid.qh, writeAnchor, Option.bind_eq_bind, Option.bind_some,
    Option.isSome_some]

theorem enter_isSome {clock : Nat} {acts : List StartAct} (h : s.state.Agrees cap64 false clock acts)
    (hnow : clock ≤ rds.now) (hcap : rds.addressingCap64 = cap64) (hfits : s.state.CheckFits rds) :
    (s.enter rds).isSome := by
  unfold enter
  split
  · rfl
  next startTime config hstate =>
    rw [hstate] at h hfits
    obtain ⟨-, l, -, -, -, hpace⟩ := h
    unfold checkHalted
    split
    · rfl
    next hread => exact checkAgain_isSome _ (hpace.started.trans hnow) (hfits (Bool.not_eq_true _ ▸ hread))
  next startTime config hstate =>
    rw [hstate] at h hfits
    obtain ⟨hvalid, l, -, -, -, -, hpace⟩ := h
    unfold checkReset
    split
    · rw [Option.isSome_map]
      exact setUp_isSome hvalid hcap
    next hread => exact checkAgain_isSome _ (hpace.started.trans hnow) (hfits (by simpa using hread))
  · rfl

theorem goesOn_of_work {oc : OverflowChecks} {w : W} {reset : ResetReadings} {pc : RunPc}
    {pc' : Option RunPc} {s' : RunWorld W} (h : s.tick oc w rds reset pc = some (s', pc'))
    (hpc : pc = .enter ∨ pc = .delay ∧ rds.delayReady = true) : pc'.isSome := by
  rcases hpc with rfl | ⟨rfl, hready⟩
  · obtain ⟨m, -, he⟩ := Option.map_eq_some_iff.mp h
    cases he
    rfl
  · rw [tick, if_pos hready] at h
    cases h
    rfl

omit [Wakers W] in
/-- A tick on a request is a check, or ends a delay. -/
theorem work_of_starting (s : RunWorld W) {pc : RunPc} (hstate : s.state.isStarting = true)
    (hpc : pc = .enter ∨ pc = .delay ∧ rds.delayReady = true) :
    ∃ e ∈ s.workActs rds pc, e.isWork = true := by
  rcases hpc with rfl | ⟨rfl, hready⟩
  · rw [workActs]
    split
    · exact ⟨_, List.mem_singleton_self _, rfl⟩
    · exact ⟨_, List.mem_singleton_self _, rfl⟩
    next hstop hreset =>
      cases hs : s.state with
      | stopping startTime config => exact absurd hs (hstop startTime config)
      | resetting startTime config => exact absurd hs (hreset startTime config)
      | _ => rw [hs] at hstate; cases hstate
  · rw [workActs, if_pos hready]
    exact ⟨_, List.mem_singleton_self _, rfl⟩

end RunWorld

namespace StartWorld

variable {W : Type} [Wakers W] {oc : OverflowChecks} {cap64 : Bool} {s s' : StartWorld W}

theorem step_tick {w : W} {pc : RunPc} {rds : StartReadings} {reset : ResetReadings}
    (hpoll : s.run.poll = some (w, pc)) (hperm : s.Permitted cap64 (.tick rds reset))
    (htick : (s.run.tick oc w rds reset pc).isSome) : ∃ m pc',
    s.run.tick oc w rds reset pc = some (m, pc') ∧ s.step cap64 oc (.tick rds reset) = some
      ⟨{ m with poll := pc'.map (w, ·), resume := if pc'.isSome then s.run.resume else pc.resumes },
        rds.now, s.acts ++ s.run.tickActs m rds pc⟩ := by
  obtain ⟨⟨m, pc'⟩, hm⟩ := Option.isSome_iff_exists.mp htick
  have hpc := RunWorld.pc_of_poll hpoll
  refine ⟨m, pc', hm, ?_⟩
  rw [step, if_pos hperm, RunWorld.step, hpoll]
  simp only [hm, Option.map_some, newActs, hpc, time]
  rfl

theorem step_startPoll {w : W} (hnone : s.run.poll = none)
    (hw : Wakers.task w = s.run.driver.runner.runnerTask) :
    ∃ m, s.step cap64 oc (.startPoll w) = some m ∧ m.run.poll = some (w, s.run.resume) ∧
      m.run.state = s.run.state ∧ m.run.control = s.run.control ∧ m.clock = s.clock := by
  have hperm : s.Permitted cap64 (.startPoll w) := trivial
  have hpoll : s.run.poll.isNone ∧ Wakers.task w = s.run.driver.runner.runnerTask :=
    ⟨by rw [hnone]; rfl, hw⟩
  rw [step, if_pos hperm, RunWorld.step, if_pos hpoll]
  exact ⟨_, rfl, rfl, rfl, rfl, rfl⟩

theorem Inv.goesOn (h : s.Inv cap64) (hstate : s.run.state.isStarting = true) :
    s.GoesOn cap64 oc Unhindered where
  poll w hnone hw := by
    obtain ⟨m, hm, -⟩ := step_startPoll hnone hw
    rw [hm]
    rfl
  tick rds reset hpoll hperm hC := by
    obtain ⟨⟨w, pc⟩, hpoll⟩ := Option.isSome_iff_exists.mp hpoll
    have hpc := RunWorld.pc_of_poll hpoll
    have hfits := h.inPlace.poll w pc hpoll
    have hagrees := h.agrees
    rw [next, hpc] at hagrees
    -- a request is worked on between checks and delays
    obtain ⟨htick, hwork⟩ : (s.run.tick oc w rds reset pc).isSome ∧
        (pc = .delay ∧ rds.delayReady = false ∨ pc = .enter ∨ pc = .delay ∧ rds.delayReady = true) := by
      cases pc with
      | enter =>
        have hagrees : s.run.state.Agrees cap64 false s.clock s.acts := by simpa using hagrees
        refine ⟨?_, .inr (.inl rfl)⟩
        rw [RunWorld.tick, Option.isSome_map]
        exact RunWorld.enter_isSome hagrees hperm.1 hperm.2.1 (hC.2 hpc)
      | delay =>
        refine ⟨rfl, ?_⟩
        cases rds.delayReady <;> simp
      | waitReq =>
        obtain ⟨error, hstop⟩ := hfits
        rw [hstop] at hstate
        cases hstate
      | running pc =>
        have hrun : s.run.state = .running := hfits
        rw [hrun] at hstate
        cases hstate
    obtain ⟨m, pc', hm, hstep⟩ := step_tick hpoll hperm htick
    refine ⟨_, hstep, hwork.imp (fun hd => ⟨hpc.trans hd.1, hd.2⟩) fun hwork => ⟨?_, ?_⟩⟩
    · rw [Option.isSome_map]
      exact RunWorld.goesOn_of_work hm hwork
    · obtain ⟨e, he, hwork⟩ := s.run.work_of_starting hstate hwork
      refine ⟨e, hwork, ?_⟩
      rw [List.drop_left, RunWorld.tickActs]
      exact List.mem_append_left _ (List.mem_append_left _ (List.mem_append_right _ he))

/-! ## Requests are answered -/

theorem countP_isWork (l : List StartAct) :
    l.countP StartAct.isWork = haltedChecks l + resetChecks l + resumes l := by
  induction l with
  | nil => rfl
  | cons e l ih =>
    rw [← List.singleton_append, haltedChecks_append, resetChecks_append, resumes_append,
      List.countP_append, ih]
    have he : [e].countP StartAct.isWork = haltedChecks [e] + resetChecks [e] + resumes [e] := by
      cases e <;> rfl
    omega

theorem Inv.lastRequest_tick (h : s.Inv cap64) {rds : StartReadings} {reset : ResetReadings}
    (hstate : s.run.state.isStarting = true) {config : StartConfig} {l : List StartAct}
    (hl : lastRequest s.acts = some (config, l)) (hs : s.step cap64 oc (.tick rds reset) = some s') :
    lastRequest s'.acts = some (config, l ++ s'.acts.drop s.acts.length) := by
  obtain ⟨-, run, hrun, rfl⟩ := step_eq_some hs
  cases RunWorld.Stepped.of_step hrun with
  | @tick _ _ w pc m pc' hpoll ht =>
    have hne : pc ≠ .waitReq := by
      rintro rfl
      obtain ⟨error, hstop⟩ := h.inPlace.poll w .waitReq hpoll
      rw [hstop] at hstate
      cases hstate
    rw [List.drop_left, newActs, RunWorld.pc_of_poll hpoll]
    exact RunnerState.Agrees.lastRequest_work hl (ht.acts_not_taken hne)

/-- Ticks on a request: it is answered, or every one of them was work on it. -/
theorem Inv.ticks_work (h : s.Inv cap64) {config : StartConfig} {l : List StartAct}
    (hl : lastRequest s.acts = some (config, l)) (hstate : s.run.state.isStarting = true)
    (hpoll : s.run.poll.isSome) {readings : Nat → StartReadings × ResetReadings}
    (hr : ∀ n m, exec (StartWorld.step cap64 oc) s (ticks readings n) = some m →
      m.run.state.isStarting = true → m.Permitted cap64 (.tick (readings n).1 (readings n).2) ∧
        m.Unhindered (.tick (readings n).1 (readings n).2) ∧ (readings n).1.delayReady = true) (k : Nat) :
    (∃ n ≤ k, ∃ m, exec (StartWorld.step cap64 oc) s (ticks readings n) = some m ∧
      m.run.state.isStarting = false) ∨
    ∃ m l', exec (StartWorld.step cap64 oc) s (ticks readings k) = some m ∧ m.Inv cap64 ∧
      m.run.state.isStarting = true ∧ m.run.poll.isSome ∧ lastRequest m.acts = some (config, l') ∧
      k ≤ l'.countP StartAct.isWork := by
  induction k with
  | zero => exact .inr ⟨s, l, rfl, h, hstate, hpoll, hl, Nat.zero_le _⟩
  | succ k ih =>
    rcases ih with ⟨n, hn, hdone⟩ | ⟨m, l', hm, hinv, hstart, hp, hl', hk⟩
    · exact .inl ⟨n, by omega, hdone⟩
    obtain ⟨hperm, hC, hready⟩ := hr k m hm hstart
    obtain ⟨m', hs, hwork⟩ := (hinv.goesOn hstart).tick _ _ hp hperm hC
    have hrun : exec (StartWorld.step cap64 oc) s (ticks readings (k + 1)) = some m' := by
      rw [ticks, List.range_succ, List.map_append]
      exact exec_snoc_iff.mpr ⟨m, hm, hs⟩
    have hlast := hinv.lastRequest_tick hstart hl' hs
    obtain ⟨-, hdelay⟩ | ⟨hp', e, he, hmem⟩ := hwork
    · rw [hready] at hdelay
      cases hdelay
    cases hnext : m'.run.state.isStarting with
    | false => exact .inl ⟨k + 1, le_rfl, m', hrun, hnext⟩
    | true =>
      refine .inr ⟨m', _, hrun, hinv.step hC hs, hnext, hp', hlast, ?_⟩
      have hpos : 0 < (m'.acts.drop m.acts.length).countP StartAct.isWork :=
        List.countP_pos_iff.mpr ⟨e, hmem, he⟩
      rw [List.countP_append]
      omega

theorem Inv.answers (h : s.Inv cap64) {config : StartConfig} {l : List StartAct}
    (hl : lastRequest s.acts = some (config, l)) (hstate : s.run.state.isStarting = true) :
    s.AnswersWithin cap64 oc Unhindered
      (2 * (config.stopStrategy.maxChecks + config.resetStrategy.maxChecks) + 1) := by
  intro readings hpoll hr
  rcases h.ticks_work hl hstate hpoll hr
    (2 * (config.stopStrategy.maxChecks + config.resetStrategy.maxChecks) + 1) with
    hdone | ⟨m, l', -, hinv, -, -, hl', hk⟩
  · exact hdone
  · -- more work than a request takes
    have hserved := hinv.agrees.served hl'
    have hhalted := hserved.halted
    have hreset := hserved.reset
    have hdelays := hserved.delays
    rw [countP_isWork] at hk
    omega

/-! ## Requests are taken -/

theorem takes_request {w : W} {rds : StartReadings} {config : StartConfig} (oc : OverflowChecks)
    (reset : ResetReadings)
    (hpoll : s.run.poll = some (w, .waitReq))
    (hreq : s.run.control.reqSignal.value? = some (.start config)) (hnow : s.clock ≤ rds.now)
    (hcap : rds.addressingCap64 = cap64) :
    ∃ s', s.step cap64 oc (.tick rds reset) = some s' ∧ s'.run.state = .stopping rds.now config := by
  have hpc := RunWorld.pc_of_poll hpoll
  have hperm : s.Permitted cap64 (.tick rds reset) :=
    ⟨hnow, hcap, fun hd => by rw [hpc] at hd; cases hd⟩
  have htick : (s.run.tick oc w rds reset .waitReq).isSome := rfl
  obtain ⟨m, pc', hm, hstep⟩ := step_tick hpoll hperm htick
  refine ⟨_, hstep, ?_⟩
  simp only [RunWorld.tick, RunWorld.pollReq, Signal.ready_pollWait, hreq] at hm
  cases hm
  rfl

/-- A runner that is stopped goes on to the request signal. -/
theorem waits_for_request {w : W} {rds : StartReadings} {error : Option DriverError} (oc : OverflowChecks)
    (reset : ResetReadings)
    (hpoll : s.run.poll = some (w, .enter)) (hstate : s.run.state = .stopped error)
    (hnow : s.clock ≤ rds.now) (hcap : rds.addressingCap64 = cap64) :
    ∃ s', s.step cap64 oc (.tick rds reset) = some s' ∧ s'.run.poll = some (w, .waitReq) ∧
      s'.run.control = s.run.control ∧ s'.clock = rds.now := by
  have hpc := RunWorld.pc_of_poll hpoll
  have hperm : s.Permitted cap64 (.tick rds reset) :=
    ⟨hnow, hcap, fun hd => by rw [hpc] at hd; cases hd⟩
  have hm : s.run.tick oc w rds reset .enter = some (s.run, some .waitReq) := by
    rw [RunWorld.tick, RunWorld.enter, hstate]
    rfl
  obtain ⟨m, pc', hm', hstep⟩ := step_tick hpoll hperm (by rw [hm]; rfl)
  cases hm.symm.trans hm'
  exact ⟨_, hstep, rfl, rfl, rfl⟩

theorem accepts_polled {w : W} {pc : RunPc} {rds : StartReadings} {config : StartConfig}
    {error : Option DriverError} (oc : OverflowChecks) (reset : ResetReadings)
    (hpoll : s.run.poll = some (w, pc))
    (hfits : pc.Fits s.run.state) (hstate : s.run.state = .stopped error)
    (hreq : s.run.control.reqSignal.value? = some (.start config)) (hnow : s.clock ≤ rds.now)
    (hcap : rds.addressingCap64 = cap64) :
    ∃ tr s', (∀ a ∈ tr, a = .tick rds reset) ∧ exec (step cap64 oc) s tr = some s' ∧
      s'.run.state = .stopping rds.now config := by
  cases pc with
  | waitReq =>
    obtain ⟨s', hs, hdone⟩ := takes_request oc reset hpoll hreq hnow hcap
    exact ⟨[.tick rds reset], s', by simp, by rw [exec, hs]; rfl, hdone⟩
  | enter =>
    obtain ⟨m, hm, hpoll, hcontrol, hclock⟩ := waits_for_request oc reset hpoll hstate hnow hcap
    obtain ⟨s', hs, hdone⟩ := takes_request oc reset hpoll (hcontrol ▸ hreq) hclock.le hcap
    refine ⟨[.tick rds reset, .tick rds reset], s', by simp, ?_, hdone⟩
    rw [exec, hm, Option.bind_some, exec, hs]
    rfl
  | delay =>
    rw [hstate] at hfits
    cases hfits
  | running pc =>
    rw [hstate] at hfits
    cases hfits

theorem Inv.accepts (h : s.Inv cap64) {error : DriverError} (hstate : s.run.state = .stopped (some error)) :
    s.Accepts cap64 oc := by
  intro config w rds reset hreq hw hnow hcap
  cases hpoll : s.run.poll with
  | some p =>
    obtain ⟨w', pc⟩ := p
    obtain ⟨tr, s', htr, hs, hdone⟩ :=
      accepts_polled oc reset hpoll (h.inPlace.poll w' pc hpoll) hstate hreq hnow hcap
    exact ⟨tr, s', fun a ha => .inr (htr a ha), hs, hdone⟩
  | none =>
    obtain ⟨m, hm, hpoll', hstate', hcontrol, hclock⟩ := step_startPoll hpoll hw
    obtain ⟨tr, s', htr, hs, hdone⟩ := accepts_polled oc reset hpoll'
      (hstate' ▸ h.inPlace.resume hpoll) (hstate'.trans hstate) (hcontrol ▸ hreq) (hclock ▸ hnow) hcap
    refine ⟨.startPoll w :: tr, s', fun a ha => ?_, ?_, hdone⟩
    · rcases List.mem_cons.mp ha with rfl | ha
      · exact .inl rfl
      · exact .inr (htr a ha)
    · rw [exec, hm, Option.bind_some, hs]

/-- **Start requests are served.** In every run from the creation of the runner, on any clock and with
any readings, in which HCRESET reads clear where a request is taken and the times of the checks are
durations. -/
theorem startProtocol_of_unhindered {driver : DriverWorld W} {tr : List (RunLabel W)}
    (hC : Meets (step cap64 oc) Unhindered (new driver) tr)
    (h : exec (step cap64 oc) (new driver) tr = some s) : s.StartProtocol cap64 oc Unhindered := by
  have hinv : s.Inv cap64 :=
    exec_invariant_of_meets (inv_new driver) (fun _ _ _ hi hc hs => hi.step hc hs) hC h
  exact ⟨fun config l hl => hinv.agrees.served hl, hinv.goesOn, fun config l hl => hinv.answers hl,
    fun error hstate => hinv.accepts hstate⟩

/-- The controller does not halt: three checks in 2 ns. -/
def exampleTimeout : List (RunLabel TaskWaker) :=
  .callStart RunWorld.exampleConfig :: .startPoll ⟨0⟩ :: (RunWorld.exampleTicks 3 0 false ++
    RunWorld.exampleTicks 2 1 false ++ RunWorld.exampleTicks 2 2 false)

theorem startProtocol_exampleTimeout : ∃ s,
    exec (step true .on) (new DriverWorld.exampleDriver) exampleTimeout = some s ∧
      Meets (step true .on) Unhindered (new DriverWorld.exampleDriver) exampleTimeout ∧
      haltedChecks s.acts = 3 ∧ s.StartProtocol true .on Unhindered := by
  have hC : Meets (step true .on) Unhindered (new DriverWorld.exampleDriver) exampleTimeout := by
    decide +kernel
  obtain ⟨s, hs, hchecks⟩ := exec_witness (step true .on) (new DriverWorld.exampleDriver) exampleTimeout
    (fun s => haltedChecks s.acts = 3) (by decide +kernel)
  exact ⟨s, hs, hC, hchecks, startProtocol_of_unhindered hC hs⟩

/-- A request without a timeout, taken at 1 ns. -/
def exampleNoTimeout : List (RunLabel TaskWaker) :=
  .callStart { RunWorld.exampleConfig with stopStrategy := ⟨1, durationMax⟩ } :: .startPoll ⟨0⟩ ::
    RunWorld.exampleTicks 2 1 false

/-- Readings of a controller that is halted and whose reset is not over. -/
def exampleResetting (n now : Nat) : List (RunLabel TaskWaker) :=
  List.replicate n (.tick { RunWorld.exampleReadings now true with usbCmd := ⟨setBit 1 true 0⟩ }
    DriverWorld.exampleReadings)

/-- The reset of the controller times out, and the next request is taken while HCRESET is still set. -/
def exampleStaleReset : List (RunLabel TaskWaker) :=
  .callStart RunWorld.exampleConfig :: .startPoll ⟨0⟩ :: (RunWorld.exampleTicks 3 0 true ++
    exampleResetting 1 0 ++ exampleResetting 2 10 ++
    .pollStart ⟨1⟩ :: .callStart RunWorld.exampleConfig :: exampleResetting 2 10)

/-- The record since the last request begins with a write that sets HCRESET. -/
def staleReset (acts : List StartAct) : Bool :=
  (lastRequest acts).any fun r =>
    match r.2 with
    | .wroteUsbCmd v :: _ => v.hcReset
    | _ => false

theorem not_served_of_staleReset {acts : List StartAct} (h : staleReset acts = true) :
    ∃ config l, lastRequest acts = some (config, l) ∧ ∀ state, ¬ RequestServed config l state := by
  obtain ⟨⟨config, l⟩, hl, hstale⟩ := (Option.any_eq_true _ _).mp h
  refine ⟨config, l, hl, fun state hserved => ?_⟩
  match l, hserved.hcReset, hstale with
  | .wroteUsbCmd v :: l, heach, hv => exact absurd (heach.1 v rfl hv) List.not_mem_nil

/-- A request without a timeout makes the runner panic, and one that follows a reset timeout sets
HCRESET before the controller is read as halted. -/
theorem not_startProtocol :
    (∃ s, exec (step true .on) (new DriverWorld.exampleDriver) exampleNoTimeout = some s ∧
      ¬ s.StartProtocol true .on fun _ _ => True) ∧
    ∃ s, exec (step true .on) (new DriverWorld.exampleDriver) exampleStaleReset = some s ∧
      ¬ s.StartProtocol true .on fun _ _ => True := by
  constructor
  · obtain ⟨s, hs, ⟨hstate, hpoll, hperm⟩, hpanic⟩ := exec_witness (step true .on)
      (new DriverWorld.exampleDriver) exampleNoTimeout
      (fun s => (s.run.state.isStarting = true ∧ s.run.poll.isSome = true ∧
        s.Permitted true (.tick (RunWorld.exampleReadings 1 false) DriverWorld.exampleReadings)) ∧
        (s.step true .on (.tick (RunWorld.exampleReadings 1 false) DriverWorld.exampleReadings)).isNone = true)
      (by decide +kernel)
    refine ⟨s, hs, fun h => ?_⟩
    obtain ⟨s', hs', -⟩ := (h.goesOn hstate).tick _ _ hpoll hperm trivial
    rw [hs'] at hpanic
    cases hpanic
  · obtain ⟨s, hs, hstale⟩ := exec_witness (step true .on) (new DriverWorld.exampleDriver)
      exampleStaleReset (fun s => staleReset s.acts = true) (by decide +kernel)
    obtain ⟨config, l, hl, hnot⟩ := not_served_of_staleReset hstale
    exact ⟨s, hs, fun h => hnot s.run.state (h.served config l hl)⟩

end StartWorld

end EzEhci
