import EzEhci.Lib.Run
import EzEhci.Lib.Trace
import EzEhci.Sync.Signal

/-!
# The waiters of a signal

A signal holds one value or one waker, and any number of tasks may poll it.
`SignalWorld` is a signal with the record of what happened to it: the calls of
`signal`, what each poll returned and the wakers that were woken. A task that
waits is one whose last poll returned `Pending` and that was not woken since
(`Unwoken`). There is at most one, and its waker is the one stored: a waker
that is replaced, by another waker or by a value, is woken.
-/

namespace EzEhci

open Lib

inductive SignalEvent (W T : Type) where
  | signaled (value : T)
  | pending (waker : W)
  | ready (waker : W) (value : T)
  | woke (waker : W)
  deriving DecidableEq, Repr

structure SignalWorld (W T : Type) where
  state : Signal W T
  log : List (SignalEvent W T)
  deriving DecidableEq, Repr

inductive SignalCall (W T : Type) where
  | signal (value : T)
  | pollWait (waker : W)
  deriving DecidableEq, Repr

namespace SignalEvent

variable {W T : Type} [Wakers W]

/-- A task was polled or woken. -/
def Concerns (t : TaskId) : SignalEvent W T → Prop
  | .signaled _ => False
  | .pending w | .ready w _ | .woke w => Wakers.task w = t

/-- A value was signalled, or returned to a task. -/
def Moves : SignalEvent W T → Prop
  | .signaled _ | .ready _ _ => True
  | .pending _ | .woke _ => False

end SignalEvent

namespace SignalWorld

variable {W T : Type} [Wakers W]

def new : SignalWorld W T := ⟨.none, []⟩

/-- What a poll with the waker `w` is recorded as; a waker that is replaced is woken before the poll
returns. -/
def polled (w : W) (r : Signal.Polled W T) : List (SignalEvent W T) :=
  r.woken.toList.map .woke ++
    match r.ready with
    | some v => [.ready w v]
    | none => [.pending w]

def step (s : SignalWorld W T) : SignalCall W T → Option (SignalWorld W T)
  | .signal v =>
    let r := s.state.signal v
    some ⟨r.1, s.log ++ .signaled v :: r.2.toList.map .woke⟩
  | .pollWait w =>
    let r := s.state.pollWait w
    some ⟨r.state, s.log ++ polled w r⟩

/-- The last poll of the task was with the waker `w` and returned `Pending`, and the task was not woken
since. -/
def Unwoken (log : List (SignalEvent W T)) (w : W) : Prop :=
  Since (SignalEvent.Concerns (Wakers.task w)) log (.pending w)

/-- The waker, or one that wakes the same task, is stored. -/
def Stored (s : Signal W T) (w : W) : Prop :=
  ∃ w', s = .waiting w' ∧ (w' = w ∨ Wakers.willWake w' w = true)

/-- A value is returned if it was signalled last and not returned since. -/
def Latest (log : List (SignalEvent W T)) : SignalEvent W T → Prop
  | .ready _ v => Since SignalEvent.Moves log (.signaled v)
  | _ => True

structure Inv (s : SignalWorld W T) : Prop where
  stored : ∀ w, Unwoken s.log w → Stored s.state w
  value : ∀ v, s.state = .signaled v → Since SignalEvent.Moves s.log (.signaled v)
  latest : Each Latest [] s.log

variable {s s' : SignalWorld W T}

theorem Stored.task {st : Signal W T} {w w' : W} (h : Stored st w) (hs : st = .waiting w') :
    Wakers.task w' = Wakers.task w := by
  obtain ⟨w'', rfl, hw⟩ := h
  cases hs
  rcases hw with rfl | hw
  · rfl
  · exact Wakers.task_eq_of_willWake hw

theorem Inv.not_unwoken (h : Inv s) (hs : ∀ w', s.state ≠ .waiting w') (w : W) : ¬ Unwoken s.log w := by
  intro hw
  obtain ⟨w', hs', -⟩ := h.stored w hw
  exact hs w' hs'

inductive Stepped (s : SignalWorld W T) : SignalCall W T → SignalWorld W T → Prop
  | wakes {v : T} (w' : W) (hs : s.state = .waiting w') :
      Stepped s (.signal v) ⟨.signaled v, s.log ++ [.signaled v] ++ [.woke w']⟩
  | stores {v : T} (hs : ∀ w', s.state ≠ .waiting w') :
      Stepped s (.signal v) ⟨.signaled v, s.log ++ [.signaled v]⟩
  | registers {w : W} (hs : s.state = .none) :
      Stepped s (.pollWait w) ⟨.waiting w, s.log ++ [.pending w]⟩
  | keeps {w : W} (w' : W) (hs : s.state = .waiting w') (hw : Wakers.willWake w' w = true) :
      Stepped s (.pollWait w) ⟨.waiting w', s.log ++ [.pending w]⟩
  | replaces {w : W} (w' : W) (hs : s.state = .waiting w') :
      Stepped s (.pollWait w) ⟨.waiting w, s.log ++ [.woke w'] ++ [.pending w]⟩
  | takes {w : W} (v : T) (hs : s.state = .signaled v) :
      Stepped s (.pollWait w) ⟨.none, s.log ++ [.ready w v]⟩

/-- **Inversion of a call.** -/
theorem Stepped.of_step {a : SignalCall W T} (h : s.step a = some s') : Stepped s a s' := by
  obtain ⟨state, log⟩ := s
  cases a with
  | signal v =>
    cases h
    cases state with
    | waiting w' =>
      have hw := Stepped.wakes (s := ⟨.waiting w', log⟩) (v := v) w' rfl
      rwa [List.append_assoc] at hw
    | none | signaled => exact .stores (by simp)
  | pollWait w =>
    cases h
    cases state with
    | none => exact .registers rfl
    | signaled v => exact .takes v rfl
    | waiting w' =>
      simp only [Signal.pollWait]
      split
      next hw => exact .keeps w' rfl hw
      next =>
        have hw := Stepped.replaces (s := ⟨.waiting w', log⟩) (w := w) w' rfl
        rwa [List.append_assoc] at hw

theorem unwoken_snoc {log : List (SignalEvent W T)} {e : SignalEvent W T} {w : W} :
    Unwoken (log ++ [e]) w ↔ e = .pending w ∨ Unwoken log w ∧ ¬ e.Concerns (Wakers.task w) :=
  since_snoc

theorem Inv.not_unwoken_woke (h : Inv s) {w w' : W} (hs : s.state = .waiting w')
    {log : List (SignalEvent W T)} (hlog : Unwoken log w → Unwoken s.log w) :
    ¬ Unwoken (log ++ [.woke w']) w := by
  intro hw
  obtain ⟨hold, hne⟩ := (unwoken_snoc.mp hw).resolve_left nofun
  exact hne ((h.stored w (hlog hold)).task hs)

theorem unwoken_of_signaled {log : List (SignalEvent W T)} {v : T} {w : W}
    (h : Unwoken (log ++ [.signaled v]) w) : Unwoken log w :=
  ((unwoken_snoc.mp h).resolve_left nofun).1

theorem Inv.signal (h : Inv s) {v : T} (hc : s.step (.signal v) = some s') : Inv s' := by
  cases Stepped.of_step hc with
  | wakes w' hs =>
    refine ⟨fun w hw => absurd hw (h.not_unwoken_woke hs unwoken_of_signaled), fun v' hv => ?_, ?_⟩
    · cases hv
      rw [since_snoc, since_snoc]
      exact .inr ⟨.inl rfl, id⟩
    · rw [List.append_assoc, each_append]
      exact ⟨h.latest, trivial, trivial, trivial⟩
  | stores hs =>
    refine ⟨fun w hw => absurd (unwoken_of_signaled hw) (h.not_unwoken hs w), fun v' hv => ?_, ?_⟩
    · cases hv
      rw [since_snoc]
      exact .inl rfl
    · rw [each_append]
      exact ⟨h.latest, trivial, trivial⟩

theorem Inv.pollWait (h : Inv s) {w : W} (hc : s.step (.pollWait w) = some s') : Inv s' := by
  cases Stepped.of_step hc with
  | registers hs =>
    refine ⟨fun w₁ hw => ?_, nofun, ?_⟩
    · rcases unwoken_snoc.mp hw with he | ⟨hold, -⟩
      · cases he
        exact ⟨w, rfl, .inl rfl⟩
      · exact absurd hold (h.not_unwoken (by rw [hs]; exact nofun) w₁)
    · rw [each_append]
      exact ⟨h.latest, trivial, trivial⟩
  | keeps w' hs hkept =>
    refine ⟨fun w₁ hw => ?_, nofun, ?_⟩
    · rcases unwoken_snoc.mp hw with he | ⟨hold, -⟩
      · cases he
        exact ⟨w', rfl, .inr hkept⟩
      · exact hs ▸ h.stored w₁ hold
    · rw [each_append]
      exact ⟨h.latest, trivial, trivial⟩
  | replaces w' hs =>
    refine ⟨fun w₁ hw => ?_, nofun, ?_⟩
    · rcases unwoken_snoc.mp hw with he | ⟨hold, -⟩
      · cases he
        exact ⟨w, rfl, .inl rfl⟩
      · exact absurd hold (h.not_unwoken_woke hs id)
    · rw [List.append_assoc, each_append]
      exact ⟨h.latest, trivial, trivial, trivial⟩
  | takes v hs =>
    refine ⟨fun w₁ hw => ?_, nofun, ?_⟩
    · obtain ⟨hold, -⟩ := (unwoken_snoc.mp hw).resolve_left nofun
      exact absurd hold (h.not_unwoken (by rw [hs]; exact nofun) w₁)
    · -- the value was signalled last, and this poll is the first to return it
      rw [each_append]
      exact ⟨h.latest, h.value v hs, trivial⟩

theorem inv_of_exec {tr : List (SignalCall W T)} (h : exec step (new : SignalWorld W T) tr = some s) :
    Inv s := by
  have h0 : Inv (new : SignalWorld W T) := ⟨fun w hw => absurd hw since_nil, nofun, trivial⟩
  refine exec_invariant h0 (fun s a s' hi hs => ?_) h
  cases a with
  | signal v => exact hi.signal hs
  | pollWait w => exact hi.pollWait hs

end SignalWorld

/-- **A signal loses no waiter and no latest value**: after any calls of any tasks, a task whose last poll
returned `Pending` and that was not woken since has its waker stored; there is none while a value is
stored; and every value a poll returned is the one signalled last, which no poll returned before. -/
theorem losesNothing_of_exec {W T : Type} [Wakers W] {s : SignalWorld W T} {tr : List (SignalCall W T)}
    (h : exec SignalWorld.step .new tr = some s) :
    (∀ w, SignalWorld.Unwoken s.log w → SignalWorld.Stored s.state w) ∧
    (∀ v w, s.state = .signaled v → ¬ SignalWorld.Unwoken s.log w) ∧
    ∀ before after w v, s.log = before ++ .ready w v :: after →
      Since SignalEvent.Moves before (.signaled v) := by
  have hinv := SignalWorld.inv_of_exec h
  refine ⟨hinv.stored, fun v w hv => hinv.not_unwoken (by rw [hv]; exact nofun) w, ?_⟩
  intro before after w v hlog
  exact hinv.latest.at (l := before) (e := .ready w v) ⟨after, by simp [hlog]⟩

/-- Two tasks wait, a value comes for the second and the first takes it: the second polls again. -/
theorem losesNothing_of_exec_two :
    ∃ s : SignalWorld TaskWaker Nat, exec SignalWorld.step .new
        [.pollWait ⟨1⟩, .pollWait ⟨2⟩, .signal 7, .pollWait ⟨1⟩, .pollWait ⟨2⟩] = some s ∧
      s.log = [.pending ⟨1⟩, .woke ⟨1⟩, .pending ⟨2⟩, .signaled 7, .woke ⟨2⟩, .ready ⟨1⟩ 7, .pending ⟨2⟩] ∧
      SignalWorld.Stored s.state (⟨2⟩ : TaskWaker) := by
  obtain ⟨s, hs, hlog⟩ := exec_witness SignalWorld.step (.new : SignalWorld TaskWaker Nat)
    [.pollWait ⟨1⟩, .pollWait ⟨2⟩, .signal 7, .pollWait ⟨1⟩, .pollWait ⟨2⟩]
    (fun s => s.log = [.pending ⟨1⟩, .woke ⟨1⟩, .pending ⟨2⟩, .signaled 7, .woke ⟨2⟩, .ready ⟨1⟩ 7,
      .pending ⟨2⟩]) (by decide +kernel)
  refine ⟨s, hs, hlog, (losesNothing_of_exec hs).1 ⟨2⟩ ?_⟩
  exact ⟨s.log.take 6, [], by simp [hlog], by simp⟩

end EzEhci
