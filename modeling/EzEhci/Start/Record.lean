import EzEhci.Start.Protocol

/-!
# Records of start requests

How the record since a request was taken grows. While the request is worked on
(`Working`) it holds no response; with a last check and a response it is served
(`RequestServed`). `RunnerState.Agrees` relates the state of the runner to the
record. The checks made so far are paced (`Paced`): each that failed moved the
next one by a full interval or to the deadline, so their number is bounded by
the time that the strategy allows.
-/

namespace EzEhci

open Lib

/-! ## Records -/

section Record

variable {acts l l' : List StartAct} {config : StartConfig}

theorem lastRequest_append (hl : ∀ e ∈ l, e.isTaken = false) :
    lastRequest (acts ++ l) = (lastRequest acts).map fun r => (r.1, r.2 ++ l) := by
  induction l generalizing acts with
  | nil => cases h : lastRequest acts <;> simp [h]
  | cons e l ih =>
    have hsnoc : lastRequest (acts ++ [e]) = (lastRequest acts).map fun r => (r.1, r.2 ++ [e]) := by
      rw [lastRequest, List.foldl_append]
      have he := hl e List.mem_cons_self
      cases e <;> first | rfl | cases he
    rw [List.append_cons, ih fun x hx => hl x (List.mem_cons_of_mem e hx), hsnoc, Option.map_map]
    congr 1
    funext r
    simp

theorem lastRequest_taken (acts : List StartAct) (config : StartConfig) (hl : ∀ e ∈ l, e.isTaken = false) :
    lastRequest (acts ++ .taken config :: l) = some (config, l) := by
  have htaken : lastRequest (acts ++ [.taken config]) = some (config, []) := by
    rw [lastRequest, List.foldl_append]
    rfl
  rw [List.append_cons, lastRequest_append hl, htaken]
  rfl

theorem responses_append : responses (l ++ l') = responses l ++ responses l' := List.filterMap_append

theorem haltedChecks_append : haltedChecks (l ++ l') = haltedChecks l + haltedChecks l' :=
  List.countP_append

theorem resetChecks_append : resetChecks (l ++ l') = resetChecks l + resetChecks l' := List.countP_append

theorem resumes_append : resumes (l ++ l') = resumes l + resumes l' := List.countP_append

theorem resetsHalted_of_no_write (h : ∀ v, .wroteUsbCmd v ∉ l') : Each ResetsHalted l l' :=
  each_of_forall fun _ _ _ he v hv _ => absurd (hv ▸ he) (h v)

/-- Once the controller was read as halted HCRESET may be set. -/
theorem resetsHalted_of_mem (h : .checkedHalted true ∈ l) : Each ResetsHalted l l' :=
  each_of_forall fun _ hpre _ _ _ _ _ => hpre.subset h

end Record

/-- The record of a request that is worked on; `delayed` says that a delay is not over. -/
structure Working (l : List StartAct) (delayed : Bool) : Prop where
  unanswered : responses l = []
  delays : resumes l + delayed.toNat ≤ haltedChecks l + resetChecks l
  hcReset : Each ResetsHalted [] l

namespace Working

variable {l : List StartAct}

theorem begin {v : UsbCmdReg} (hv : v.hcReset = false) : Working [.wroteUsbCmd v] false where
  unanswered := rfl
  delays := Nat.le_refl 0
  hcReset := by
    refine ⟨fun v' he hset => ?_, trivial⟩
    cases he
    rw [hv] at hset
    cases hset

theorem check (h : Working l false) {e : StartAct}
    (he : e.isHaltedCheck = true ∨ e.isResetCheck = true) : Working (l ++ [e]) true where
  unanswered := by
    rw [responses_append, h.unanswered]
    cases e <;> first | rfl | simp [StartAct.isHaltedCheck, StartAct.isResetCheck] at he
  delays := by
    have hdelays : resumes l ≤ haltedChecks l + resetChecks l := h.delays
    have hcheck : resumes [e] = 0 ∧ haltedChecks [e] + resetChecks [e] = 1 := by
      cases e <;> first | exact ⟨rfl, rfl⟩ | simp [StartAct.isHaltedCheck, StartAct.isResetCheck] at he
    rw [resumes_append, haltedChecks_append, resetChecks_append, Bool.toNat_true]
    omega
  hcReset := by
    refine h.hcReset.record (resetsHalted_of_no_write fun v hv => ?_)
    rw [← List.mem_singleton.mp hv] at he
    simp [StartAct.isHaltedCheck, StartAct.isResetCheck] at he

theorem resumed (h : Working l true) : Working (l ++ [.resumed]) false where
  unanswered := by
    rw [responses_append, h.unanswered]
    rfl
  delays := by
    rw [resumes_append, haltedChecks_append, resetChecks_append]
    exact h.delays
  hcReset := h.hcReset.record (resetsHalted_of_no_write fun v hv => by simp at hv)

theorem halted (h : Working l false) (v : UsbCmdReg) :
    Working (l ++ [.checkedHalted true, .wroteUsbCmd v]) false where
  unanswered := by
    rw [responses_append, h.unanswered]
    rfl
  delays := by
    have hdelays : resumes l ≤ haltedChecks l + resetChecks l := h.delays
    rw [resumes_append, haltedChecks_append, resetChecks_append]
    show resumes l + 0 ≤ haltedChecks l + 1 + (resetChecks l + 0)
    omega
  hcReset := by
    refine h.hcReset.record ⟨?_, resetsHalted_of_mem (by simp)⟩
    rintro v' ⟨⟩

end Working

theorem Working.served {config : StartConfig} {l : List StartAct} {delayed : Bool} {state : RunnerState}
    (h : Working l delayed) (hstate : state.isStarting = true)
    (hhalted : haltedChecks l ≤ config.stopStrategy.maxChecks)
    (hreset : resetChecks l ≤ config.resetStrategy.maxChecks) :
    RequestServed config l state where
  halted := hhalted
  reset := hreset
  delays := (Nat.le_add_right _ _).trans h.delays
  begun := by
    rintro rfl
    cases hstate
  starting := iff_of_true hstate h.unanswered
  running := by
    rw [h.unanswered]
    refine iff_of_false ?_ (by simp)
    rintro rfl
    cases hstate
  stopped error := by
    rw [h.unanswered]
    refine iff_of_false ?_ (by simp)
    rintro rfl
    cases hstate
  timeouts error he := by
    rw [h.unanswered] at he
    cases he
  last result hr := by
    rw [h.unanswered] at hr
    cases hr
  hcReset := h.hcReset

/-- The states in which a request is over, and their responses. -/
inductive Answers : RunnerState → Except DriverError Unit → Prop
  | ok : Answers .running (.ok ())
  | error {error : DriverError} (h : error = .stopTimeout ∨ error = .resetTimeout) :
      Answers (.stopped (some error)) (.error error)

theorem counts_of_answer {ws : List StartAct} (hws : ∀ x ∈ ws, ∃ v, x = .wroteUsbCmd v)
    (result : Except DriverError Unit) :
    haltedChecks (ws ++ [.responded result]) = 0 ∧ resetChecks (ws ++ [.responded result]) = 0 ∧
      resumes (ws ++ [.responded result]) = 0 := by
  have hnone : ∀ p : StartAct → Bool, (∀ v, p (.wroteUsbCmd v) = false) → p (.responded result) = false →
      (ws ++ [StartAct.responded result]).countP p = 0 := by
    intro p hw hr
    rw [List.countP_append, List.countP_eq_zero.mpr, List.countP_singleton, hr]
    · rfl
    · intro x hx
      obtain ⟨v, rfl⟩ := hws x hx
      rw [hw v]
      exact Bool.false_ne_true
  exact ⟨hnone _ (fun _ => rfl) rfl, hnone _ (fun _ => rfl) rfl, hnone _ (fun _ => rfl) rfl⟩

theorem responses_answer {ws : List StartAct} (hws : ∀ x ∈ ws, ∃ v, x = .wroteUsbCmd v)
    (result : Except DriverError Unit) : responses (ws ++ [.responded result]) = [result] := by
  have hwrites : responses ws = [] := by
    refine List.filterMap_eq_nil_iff.mpr fun x hx => ?_
    obtain ⟨v, rfl⟩ := hws x hx
    rfl
  rw [responses_append, hwrites]
  rfl

/-- The runner answers after a last check `e` and the writes `ws`. -/
theorem Working.answered {config : StartConfig} {l : List StartAct} {e : StartAct} {state : RunnerState}
    {result : Except DriverError Unit} (h : Working l false) (ws : List StartAct)
    (he : e.isHaltedCheck = true ∨ e.isResetCheck = true) (hws : ∀ x ∈ ws, ∃ v, x = .wroteUsbCmd v)
    (hguard : ws = [] ∨ .checkedHalted true ∈ l) (hans : Answers state result)
    (hhalted : haltedChecks (l ++ [e]) ≤ config.stopStrategy.maxChecks)
    (hreset : resetChecks (l ++ [e]) ≤ config.resetStrategy.maxChecks) :
    RequestServed config (l ++ e :: (ws ++ [.responded result])) state := by
  have hcheck := h.check he
  have hguard : ws = [] ∨ .checkedHalted true ∈ l ++ [e] := hguard.imp_right (List.mem_append_left _)
  obtain ⟨hH, hR, hD⟩ := counts_of_answer hws result
  rw [List.append_cons]
  generalize l ++ [e] = l at hcheck hguard hhalted hreset
  have hresponses : responses (l ++ (ws ++ [.responded result])) = [result] := by
    rw [responses_append, hcheck.unanswered, responses_answer hws, List.nil_append]
  constructor
  · rw [haltedChecks_append, hH]
    exact hhalted
  · rw [resetChecks_append, hR]
    exact hreset
  · rw [resumes_append, haltedChecks_append, resetChecks_append, hH, hR, hD]
    exact (Nat.le_add_right _ _).trans hcheck.delays
  · cases hans <;> simp
  · rw [hresponses]
    cases hans <;> simp [RunnerState.isStarting]
  · rw [hresponses]
    cases hans <;> simp
  · intro error
    rw [hresponses]
    cases hans <;> simp
  · intro error herr
    rw [hresponses] at herr
    cases hans with
    | ok => simp at herr
    | error hkind =>
      simp only [List.mem_singleton, Except.error.injEq] at herr
      exact herr ▸ hkind
  · intro r hr
    rw [hresponses] at hr
    rw [List.mem_singleton.mp hr]
    simp
  · refine hcheck.hcReset.record (each_append.mpr ⟨?_, resetsHalted_of_no_write (by simp)⟩)
    rcases hguard with rfl | hmem
    · trivial
    · exact resetsHalted_of_mem hmem

/-- The state of the runner and the record; the next check is made no earlier than `next`. -/
def RunnerState.Agrees (cap64 delayed : Bool) (next : Nat) (acts : List StartAct) : RunnerState → Prop
  | .stopped none => lastRequest acts = none
  | .stopped (some error) =>
    ∃ config l, lastRequest acts = some (config, l) ∧ RequestServed config l (.stopped (some error))
  | .running => ∃ config l, lastRequest acts = some (config, l) ∧ RequestServed config l .running
  | .stopping startTime config => config.Valid cap64 ∧ ∃ l, lastRequest acts = some (config, l) ∧
    Working l delayed ∧ resetChecks l = 0 ∧
    Paced config.stopStrategy.checkInterval config.stopStrategy.timeout startTime (haltedChecks l) next
  | .resetting startTime config => config.Valid cap64 ∧ ∃ l, lastRequest acts = some (config, l) ∧
    Working l delayed ∧ .checkedHalted true ∈ l ∧
    haltedChecks l ≤ config.stopStrategy.maxChecks ∧
    Paced config.resetStrategy.checkInterval config.resetStrategy.timeout startTime (resetChecks l) next

theorem PollStrategy.lt_maxChecks {p : PollStrategy} {startTime k next : Nat}
    (h : Paced p.checkInterval p.timeout startTime k next) (hpos : 0 < p.checkInterval) : k < p.maxChecks :=
  Nat.lt_succ_of_le (h.le_ceilDiv hpos)

namespace RunnerState.Agrees

variable {cap64 delayed delayed' : Bool} {next next' now startTime : Nat} {acts l : List StartAct}
  {config : StartConfig} {state : RunnerState}

theorem lastRequest_work {e : List StartAct} (h : lastRequest acts = some (config, l))
    (he : ∀ x ∈ e, x.isTaken = false) : lastRequest (acts ++ e) = some (config, l ++ e) := by
  rw [lastRequest_append he, h, Option.map_some]

theorem served (h : state.Agrees cap64 delayed next acts) (hl : lastRequest acts = some (config, l)) :
    RequestServed config l state := by
  cases state with
  | stopped error =>
    cases error with
    | none =>
      rw [Agrees, hl] at h
      cases h
    | some error =>
      obtain ⟨config', l', hl', hs⟩ := h
      rw [hl] at hl'
      cases hl'
      exact hs
  | running =>
    obtain ⟨config', l', hl', hs⟩ := h
    rw [hl] at hl'
    cases hl'
    exact hs
  | stopping startTime config' =>
    obtain ⟨hvalid, l', hl', hw, hreset, hpace⟩ := h
    rw [hl] at hl'
    cases hl'
    have hhalted := PollStrategy.lt_maxChecks hpace hvalid.stopInterval
    exact hw.served rfl (by omega) (by omega)
  | resetting startTime config' =>
    obtain ⟨hvalid, l', hl', hw, -, hhalted, hpace⟩ := h
    rw [hl] at hl'
    cases hl'
    have hreset := PollStrategy.lt_maxChecks hpace hvalid.resetInterval
    exact hw.served rfl hhalted (by omega)

/-- Where no request is worked on, time does not matter. -/
theorem idle (h : state.Agrees cap64 delayed next acts) (hstate : state.isStarting = false) :
    state.Agrees cap64 delayed' next' acts := by
  cases state with
  | stopped error => cases error <;> exact h
  | running => exact h
  | stopping | resetting => cases hstate

theorem taken (acts : List StartAct) (hvalid : config.Valid cap64) {v : UsbCmdReg} (hv : v.hcReset = false) :
    (stopping now config).Agrees cap64 false now (acts ++ [.taken config, .wroteUsbCmd v]) :=
  ⟨hvalid, [.wroteUsbCmd v], lastRequest_taken acts config (by simp [StartAct.isTaken]), .begin hv, rfl,
    Paced.begin _ _ now⟩

theorem halted (h : (stopping startTime config).Agrees cap64 false next acts) (v : UsbCmdReg) :
    (resetting now config).Agrees cap64 false now (acts ++ [.checkedHalted true, .wroteUsbCmd v]) := by
  obtain ⟨hvalid, l, hl, hw, hreset, hpace⟩ := h
  have hhalted := PollStrategy.lt_maxChecks hpace hvalid.stopInterval
  refine ⟨hvalid, _, lastRequest_work hl (by simp [StartAct.isTaken]), hw.halted v, by simp, ?_, ?_⟩
  · rw [haltedChecks_append]
    show haltedChecks l + 1 ≤ _
    omega
  · rw [resetChecks_append, hreset]
    exact Paced.begin _ _ now

theorem isReset (h : (resetting startTime config).Agrees cap64 false next acts) {ws : List StartAct}
    (hws : ∀ x ∈ ws, ∃ v, x = .wroteUsbCmd v) :
    running.Agrees cap64 delayed' next' (acts ++ .checkedReset true :: (ws ++ [.responded (.ok ())])) := by
  obtain ⟨hvalid, l, hl, hw, hmem, hhalted, hpace⟩ := h
  have hreset := PollStrategy.lt_maxChecks hpace hvalid.resetInterval
  refine ⟨config, _, lastRequest_work hl ?_, hw.answered ws (.inr rfl) hws (.inr hmem) .ok ?_ ?_⟩
  · intro x hx
    rcases List.mem_cons.mp hx with rfl | hx
    · rfl
    rcases List.mem_append.mp hx with hx | hx
    · obtain ⟨v, rfl⟩ := hws x hx
      rfl
    · rw [List.mem_singleton.mp hx]
      rfl
  · rw [haltedChecks_append]
    exact hhalted
  · rw [resetChecks_append]
    show resetChecks l + 1 ≤ _
    omega

theorem timedOut {error : DriverError}
    (h : state.Agrees cap64 false next acts) {e : StartAct}
    (hstate : state = .stopping startTime config ∧ error = .stopTimeout ∧ e = .checkedHalted false ∨
      state = .resetting startTime config ∧ error = .resetTimeout ∧ e = .checkedReset false) :
    (stopped (some error)).Agrees cap64 delayed' next' (acts ++ [e, .responded (.error error)]) := by
  rcases hstate with ⟨rfl, rfl, rfl⟩ | ⟨rfl, rfl, rfl⟩
  · obtain ⟨hvalid, l, hl, hw, hreset, hpace⟩ := h
    have hhalted := PollStrategy.lt_maxChecks hpace hvalid.stopInterval
    refine ⟨config, _, lastRequest_work hl (by simp [StartAct.isTaken]),
      hw.answered [] (.inl rfl) (by simp) (.inl rfl) (.error (.inl rfl)) ?_ ?_⟩
    · rw [haltedChecks_append]
      show haltedChecks l + 1 ≤ _
      omega
    · rw [resetChecks_append, hreset]
      exact Nat.zero_le _
  · obtain ⟨hvalid, l, hl, hw, hmem, hhalted, hpace⟩ := h
    have hreset := PollStrategy.lt_maxChecks hpace hvalid.resetInterval
    refine ⟨config, _, lastRequest_work hl (by simp [StartAct.isTaken]),
      hw.answered [] (.inr rfl) (by simp) (.inl rfl) (.error (.inr rfl)) ?_ ?_⟩
    · rw [haltedChecks_append]
      exact hhalted
    · rw [resetChecks_append]
      show resetChecks l + 1 ≤ _
      omega

theorem delays {strategy : PollStrategy} (h : state.Agrees cap64 false next acts) {e : StartAct}
    (hstate : state = .stopping startTime config ∧ strategy = config.stopStrategy ∧
        e = .checkedHalted false ∨
      state = .resetting startTime config ∧ strategy = config.resetStrategy ∧ e = .checkedReset false)
    (hnow : next ≤ now) (htime : now - startTime < strategy.timeout) :
    state.Agrees cap64 true (min (now + strategy.checkInterval) (startTime + strategy.timeout))
      (acts ++ [e]) := by
  rcases hstate with ⟨rfl, rfl, rfl⟩ | ⟨rfl, rfl, rfl⟩
  · obtain ⟨hvalid, l, hl, hw, hreset, hpace⟩ := h
    refine ⟨hvalid, _, lastRequest_work hl (by simp [StartAct.isTaken]), hw.check (.inl rfl), ?_, ?_⟩
    · rw [resetChecks_append, hreset]
      rfl
    · rw [haltedChecks_append]
      exact hpace.again hnow htime
  · obtain ⟨hvalid, l, hl, hw, hmem, hhalted, hpace⟩ := h
    refine ⟨hvalid, _, lastRequest_work hl (by simp [StartAct.isTaken]), hw.check (.inr rfl),
      List.mem_append_left _ hmem, ?_, ?_⟩
    · rw [haltedChecks_append]
      exact hhalted
    · rw [resetChecks_append]
      exact hpace.again hnow htime

theorem resumed (h : state.Agrees cap64 true next acts) (hstate : state.isStarting = true)
    (hnow : next ≤ now) : state.Agrees cap64 false now (acts ++ [.resumed]) := by
  cases state with
  | stopped | running => cases hstate
  | stopping startTime config =>
    obtain ⟨hvalid, l, hl, hw, hreset, hpace⟩ := h
    refine ⟨hvalid, _, lastRequest_work hl (by simp [StartAct.isTaken]), hw.resumed, ?_, ?_⟩
    · rw [resetChecks_append, hreset]
      rfl
    · rw [haltedChecks_append]
      exact hpace.mono hnow
  | resetting startTime config =>
    obtain ⟨hvalid, l, hl, hw, hmem, hhalted, hpace⟩ := h
    refine ⟨hvalid, _, lastRequest_work hl (by simp [StartAct.isTaken]), hw.resumed,
      List.mem_append_left _ hmem, ?_, ?_⟩
    · rw [haltedChecks_append]
      exact hhalted
    · rw [resetChecks_append]
      exact hpace.mono hnow

end RunnerState.Agrees

end EzEhci
