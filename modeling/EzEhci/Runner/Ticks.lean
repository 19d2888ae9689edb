import EzEhci.Runner.Steps

/-!
# A poll of the runner, step by step

Interrupts, clients and the controller act between the steps of a poll.
`PollPc` says where the runner is in a poll; `tick` makes its next step: one
atomic operation on a flag or a signal, or one iteration of the reset loop.
`poll_ticks` says that a poll with nothing in between is a sequence of ticks.
-/

namespace EzEhci

open Lib Relation

inductive PollPc where
  | register
  | usbInt
  | usbErrInt (usbInt : Bool)
  | signalDevices (todo : List DeviceId)
  | signalInterrupts (todo : List InterruptEpId)
  | signalControls (todo : List ControlEpId)
  | asyncAdvance
  | fireRemoved
  | portChange
  | signalPorts (todo : List Nat)
  | devices (todo : List DeviceId)
  | interrupts (todo : List InterruptEpId)
  | controls (todo : List ControlEpId)
  | reset
  | rootPorts (todo : List Nat)
  deriving DecidableEq, Repr

namespace RunnerWorld

variable {W : Type} [Wakers W]

def suspend (s : RunnerWorld W) : RunnerWorld W := { s with pending := true }

/-- The next step of a poll; the poll returns if no program counter is left. -/
def tick (oc : OverflowChecks) (w : W) (rds : ResetReadings) (s : RunnerWorld W) :
    PollPc → Option (RunnerWorld W × Option PollPc)
  | .register => some ({ s with irq := s.irq.register }, some .usbInt)
  | .usbInt =>
    some ({ s with irq := { s.irq with newUsbInt := false } }, some (.usbErrInt s.irq.newUsbInt))
  | .usbErrInt usbInt =>
    some ({ s with irq := { s.irq with newUsbErrInt := false } },
      some (if usbInt || s.irq.newUsbErrInt then .signalDevices s.deviceIds else .asyncAdvance))
  | .signalDevices [] => some (s, some (.signalInterrupts s.interruptEndpoints))
  | .signalDevices (d :: todo) => some (s.signalUsbInt d, some (.signalDevices todo))
  | .signalInterrupts [] => some (s, some (.signalControls s.controlEndpoints))
  | .signalInterrupts (e :: todo) => some (s.signalInterruptInt e, some (.signalInterrupts todo))
  | .signalControls [] => some (s, some .asyncAdvance)
  | .signalControls (e :: todo) => some (s.signalControlInt e, some (.signalControls todo))
  | .asyncAdvance =>
    some ({ s with irq := { s.irq with newAsyncAdvance := false } },
      some (if s.irq.newAsyncAdvance then .fireRemoved else .portChange))
  | .fireRemoved => some (s.fireRemoved, some .portChange)
  | .portChange =>
    some ({ s with irq := { s.irq with newPortChangeDetect := false } },
      some (if s.irq.newPortChangeDetect then .signalPorts (List.range s.nPorts)
        else .devices s.deviceIds))
  | .signalPorts [] => some (s, some (.devices s.deviceIds))
  | .signalPorts (i :: todo) => some (s.signalPortChanged i, some (.signalPorts todo))
  | .devices [] => some (s, some (.interrupts s.interruptEndpoints))
  | .devices (d :: todo) => some (s.pollDevice w d, some (.devices todo))
  | .interrupts [] => some (s, some (.controls s.controlEndpoints))
  | .interrupts (e :: todo) => (s.pollInterruptEndpoint w e).map (·, some (.interrupts todo))
  | .controls [] => some (s, some .reset)
  | .controls (e :: todo) => (s.pollControlEndpoint w e).map (·, some (.controls todo))
  | .reset =>
    match s.resettingDevice with
    | none => some (s, some (.rootPorts (List.range s.nPorts)))
    | some rd => (s.resetStep oc w rds rd).map fun
      | (s, true) => (s, some .reset)
      | (s, false) => (s.suspend, none)
  | .rootPorts [] => some (s.suspend, none)
  | .rootPorts (i :: todo) =>
    match ((s.rootPorts i).reqSignal.pollWait w).ready with
    | none => some (s.pollRootPort w i, some (.rootPorts todo))
    | some req => ((s.pollRootPort w i).startReset rds i req).map (·, some .reset)

def startPoll (s : RunnerWorld W) : RunnerWorld W :=
  { s with woken := Function.update s.woken s.runnerTask false }

/-! ## A poll is a sequence of ticks -/

/-- Ticks of one poll with nothing in between. -/
def Ticks (oc : OverflowChecks) (w : W) :
    RunnerWorld W × Option PollPc → RunnerWorld W × Option PollPc → Prop :=
  ReflTransGen fun a b => ∃ rds pc, a.2 = some pc ∧ tick oc w rds a.1 pc = some b

variable {oc : OverflowChecks} {w : W} {s s' : RunnerWorld W} {rds : ResetReadings}

theorem Ticks.of_tick {pc : PollPc} {b : RunnerWorld W × Option PollPc} (rds : ResetReadings)
    (h : tick oc w rds s pc = some b) : Ticks oc w (s, some pc) b :=
  .single ⟨rds, pc, rfl, h⟩

theorem Ticks.trans {a b c : RunnerWorld W × Option PollPc} (h : Ticks oc w a b)
    (h' : Ticks oc w b c) : Ticks oc w a c :=
  ReflTransGen.trans h h'

theorem Ticks.foldl {α : Type} {pc : List α → PollPc} {g : RunnerWorld W → α → RunnerWorld W}
    (rds : ResetReadings)
    (h : ∀ s a todo, tick oc w rds s (pc (a :: todo)) = some (g s a, some (pc todo))) (todo : List α)
    (s : RunnerWorld W) : Ticks oc w (s, some (pc todo)) (todo.foldl g s, some (pc [])) := by
  induction todo generalizing s with
  | nil => exact .refl
  | cons a todo ih => exact (Ticks.of_tick rds (h s a todo)).trans (ih (g s a))

theorem Ticks.foldlM {α : Type} {pc : List α → PollPc} {g : RunnerWorld W → α → Option (RunnerWorld W)}
    (rds : ResetReadings)
    (h : ∀ s a todo, tick oc w rds s (pc (a :: todo)) = (g s a).map (·, some (pc todo)))
    {todo : List α} (hs : todo.foldlM g s = some s') :
    Ticks oc w (s, some (pc todo)) (s', some (pc [])) := by
  induction todo generalizing s with
  | nil =>
    cases hs
    exact .refl
  | cons a todo ih =>
    rw [List.foldlM_cons] at hs
    obtain ⟨m, hm, hs⟩ := Option.bind_eq_some_iff.mp hs
    refine Ticks.trans (Ticks.of_tick (b := (m, some (pc todo))) rds ?_) (ih hs)
    rw [h, hm, Option.map_some]

theorem forwardUsbInt_ticks (rds : ResetReadings) :
    Ticks oc w (s, some .usbInt) (s.forwardUsbInt, some .asyncAdvance) := by
  refine Ticks.trans (Ticks.of_tick rds rfl) (Ticks.trans (.of_tick rds rfl) ?_)
  unfold forwardUsbInt
  dsimp only
  split
  · refine Ticks.trans (Ticks.foldl rds (fun _ _ _ => rfl) _ _) (Ticks.trans (.of_tick rds rfl) ?_)
    refine Ticks.trans (Ticks.foldl rds (fun _ _ _ => rfl) _ _) (Ticks.trans (.of_tick rds rfl) ?_)
    exact Ticks.trans (Ticks.foldl rds (fun _ _ _ => rfl) _ _) (Ticks.of_tick rds rfl)
  · exact .refl

theorem handleAsyncAdvance_ticks (rds : ResetReadings) :
    Ticks oc w (s, some .asyncAdvance) (s.handleAsyncAdvance, some .portChange) := by
  refine Ticks.trans (Ticks.of_tick rds rfl) ?_
  unfold handleAsyncAdvance
  dsimp only
  split
  · exact .of_tick rds rfl
  · exact .refl

theorem forwardPortChange_ticks (rds : ResetReadings) :
    Ticks oc w (s, some .portChange) (s.forwardPortChange, some (.devices s.forwardPortChange.deviceIds)) := by
  refine Ticks.trans (Ticks.of_tick rds rfl) ?_
  unfold forwardPortChange
  dsimp only
  split
  · exact Ticks.trans (Ticks.foldl rds (fun _ _ _ => rfl) _ _) (Ticks.of_tick rds rfl)
  · exact .refl

theorem pollFlags_ticks (rds : ResetReadings) :
    Ticks oc w (s, some .usbInt) (s.pollFlags, some (.devices s.pollFlags.deviceIds)) :=
  Ticks.trans (forwardUsbInt_ticks rds)
    (Ticks.trans (handleAsyncAdvance_ticks rds) (forwardPortChange_ticks rds))

theorem pollRootPorts_ticks {todo : List Nat} {b : Bool}
    (h : pollRootPorts w rds todo s = some (s', b)) :
    Ticks oc w (s, some (.rootPorts todo))
      (if b then (s', some .reset) else (s'.suspend, none)) := by
  induction todo generalizing s with
  | nil =>
    cases h
    exact .of_tick rds rfl
  | cons i todo ih =>
    rw [pollRootPorts] at h
    split at h
    next hready =>
      refine Ticks.trans (Ticks.of_tick (b := (s.pollRootPort w i, some (.rootPorts todo))) rds ?_)
        (ih h)
      simp only [tick, hready]
    next req hready =>
      obtain ⟨m, hm, he⟩ := Option.map_eq_some_iff.mp h
      cases he
      refine .of_tick rds ?_
      simp only [tick, hready, hm, Option.map_some, if_true]

theorem resetIter_ticks {b : Bool} (h : s.resetIter oc w rds = some (s', b)) :
    Ticks oc w (s, some .reset) (if b then (s', some .reset) else (s'.suspend, none)) := by
  unfold resetIter at h
  split at h
  next hrd =>
    refine Ticks.trans (Ticks.of_tick (b := (s, some (.rootPorts (List.range s.nPorts)))) rds ?_)
      (pollRootPorts_ticks h)
    simp only [tick, hrd]
  next rd hrd =>
    refine .of_tick rds ?_
    simp only [tick, hrd, h, Option.map_some]
    cases b <;> rfl

theorem resetLoop_ticks {l : List ResetReadings} (h : resetLoop oc w l s = some s') :
    Ticks oc w (s, some .reset) (s'.suspend, none) := by
  induction l generalizing s with
  | nil => cases h
  | cons rds l ih =>
    rw [resetLoop] at h
    split at h
    · cases h
    next m hm => exact Ticks.trans (resetIter_ticks hm) (ih h)
    next m hm =>
      cases h
      exact resetIter_ticks hm

/-- **A poll with nothing in between is a sequence of ticks.** -/
theorem poll_ticks {l : List ResetReadings} (h : s.poll oc w l = some s') :
    Ticks oc w (s.startPoll, some .register) (s', none) := by
  obtain ⟨s₁, s₂, s₃, h1, h2, h3, rfl⟩ := poll_eq_some h
  obtain ⟨rds, hrds⟩ : ∃ rds, rds ∈ l := by
    cases l with
    | nil => cases h3
    | cons rds l => exact ⟨rds, List.mem_cons_self⟩
  refine Ticks.trans (Ticks.of_tick rds rfl) (Ticks.trans (pollFlags_ticks rds) ?_)
  refine Ticks.trans (Ticks.foldl rds (fun _ _ _ => rfl) _ _) (Ticks.trans (.of_tick rds rfl) ?_)
  refine Ticks.trans (Ticks.foldlM rds (fun _ _ _ => rfl) h1) (Ticks.trans (.of_tick rds rfl) ?_)
  refine Ticks.trans (Ticks.foldlM rds (fun _ _ _ => rfl) h2) (Ticks.trans (.of_tick rds rfl) ?_)
  exact resetLoop_ticks h3

/-! ## What a tick does -/

/-- What each tick changes, and where the poll goes on. -/
inductive Ticked (oc : OverflowChecks) (w : W) (rds : ResetReadings) (s : RunnerWorld W) :
    PollPc → RunnerWorld W → Option PollPc → Prop where
  | register : Ticked oc w rds s .register { s with irq := s.irq.register } (some .usbInt)
  | usbInt : Ticked oc w rds s .usbInt { s with irq := { s.irq with newUsbInt := false } }
      (some (.usbErrInt s.irq.newUsbInt))
  | usbErrInt {usbInt} : Ticked oc w rds s (.usbErrInt usbInt)
      { s with irq := { s.irq with newUsbErrInt := false } }
      (some (if usbInt || s.irq.newUsbErrInt then .signalDevices s.deviceIds else .asyncAdvance))
  | signalsInterrupts : Ticked oc w rds s (.signalDevices []) s
      (some (.signalInterrupts s.interruptEndpoints))
  | signalDevice {d todo} : Ticked oc w rds s (.signalDevices (d :: todo)) (s.signalUsbInt d)
      (some (.signalDevices todo))
  | signalsControls : Ticked oc w rds s (.signalInterrupts []) s (some (.signalControls s.controlEndpoints))
  | signalInterrupt {e todo} : Ticked oc w rds s (.signalInterrupts (e :: todo)) (s.signalInterruptInt e)
      (some (.signalInterrupts todo))
  | signaled : Ticked oc w rds s (.signalControls []) s (some .asyncAdvance)
  | signalControl {e todo} : Ticked oc w rds s (.signalControls (e :: todo)) (s.signalControlInt e)
      (some (.signalControls todo))
  | asyncAdvance : Ticked oc w rds s .asyncAdvance { s with irq := { s.irq with newAsyncAdvance := false } }
      (some (if s.irq.newAsyncAdvance then .fireRemoved else .portChange))
  | fireRemoved : Ticked oc w rds s .fireRemoved s.fireRemoved (some .portChange)
  | portChange : Ticked oc w rds s .portChange { s with irq := { s.irq with newPortChangeDetect := false } }
      (some (if s.irq.newPortChangeDetect then .signalPorts (List.range s.nPorts)
        else .devices s.deviceIds))
  | pollsDevices : Ticked oc w rds s (.signalPorts []) s (some (.devices s.deviceIds))
  | signalPort {i todo} : Ticked oc w rds s (.signalPorts (i :: todo)) (s.signalPortChanged i)
      (some (.signalPorts todo))
  | pollsInterrupts : Ticked oc w rds s (.devices []) s (some (.interrupts s.interruptEndpoints))
  | pollDevice {d todo} : Ticked oc w rds s (.devices (d :: todo)) (s.pollDevice w d) (some (.devices todo))
  | pollsControls : Ticked oc w rds s (.interrupts []) s (some (.controls s.controlEndpoints))
  | pollInterrupt {e todo s'} (h : s.pollInterruptEndpoint w e = some s') :
      Ticked oc w rds s (.interrupts (e :: todo)) s' (some (.interrupts todo))
  | resets : Ticked oc w rds s (.controls []) s (some .reset)
  | pollControl {e todo s'} (h : s.pollControlEndpoint w e = some s') :
      Ticked oc w rds s (.controls (e :: todo)) s' (some (.controls todo))
  | noReset (h : s.resettingDevice = none) :
      Ticked oc w rds s .reset s (some (.rootPorts (List.range s.nPorts)))
  | goesOn {rd s'} (hrd : s.resettingDevice = some rd) (h : s.resetStep oc w rds rd = some (s', true)) :
      Ticked oc w rds s .reset s' (some .reset)
  | waits {rd s'} (hrd : s.resettingDevice = some rd) (h : s.resetStep oc w rds rd = some (s', false)) :
      Ticked oc w rds s .reset s'.suspend none
  | noRequest : Ticked oc w rds s (.rootPorts []) s.suspend none
  | pollRootPort {i todo} (h : (s.rootPorts i).reqSignal.value? = none) :
      Ticked oc w rds s (.rootPorts (i :: todo)) (s.pollRootPort w i) (some (.rootPorts todo))
  | startReset {i todo req s'} (hreq : (s.rootPorts i).reqSignal.value? = some req)
      (h : (s.pollRootPort w i).startReset rds i req = some s') :
      Ticked oc w rds s (.rootPorts (i :: todo)) s' (some .reset)

section Tick

variable {pc : PollPc} {pc' : Option PollPc} {R : ResetReadings → Prop}

/-- **Inversion of a tick.** -/
theorem Ticked.of_tick (h : s.tick oc w rds pc = some (s', pc')) : Ticked oc w rds s pc s' pc' := by
  cases pc with
  | register | usbInt | usbErrInt | asyncAdvance | fireRemoved | portChange =>
    cases h
    constructor
  | signalDevices todo | signalInterrupts todo | signalControls todo | signalPorts todo | devices todo =>
    cases todo <;> cases h <;> constructor
  | interrupts todo =>
    cases todo with
    | nil =>
      cases h
      exact .pollsControls
    | cons e todo =>
      obtain ⟨m, hm, he⟩ := Option.map_eq_some_iff.mp h
      cases he
      exact .pollInterrupt hm
  | controls todo =>
    cases todo with
    | nil =>
      cases h
      exact .resets
    | cons e todo =>
      obtain ⟨m, hm, he⟩ := Option.map_eq_some_iff.mp h
      cases he
      exact .pollControl hm
  | reset =>
    simp only [tick] at h
    split at h
    next hrd =>
      cases h
      exact .noReset hrd
    next rd hrd =>
      obtain ⟨⟨m, b⟩, hm, he⟩ := Option.map_eq_some_iff.mp h
      cases b <;> cases he
      · exact .waits hrd hm
      · exact .goesOn hrd hm
  | rootPorts todo =>
    cases todo with
    | nil =>
      cases h
      exact .noRequest
    | cons i todo =>
      simp only [tick, Signal.ready_pollWait] at h
      split at h
      next hready =>
        cases h
        exact .pollRootPort hready
      next req hready =>
        obtain ⟨m, hm, he⟩ := Option.map_eq_some_iff.mp h
        cases he
        exact .startReset hready hm

/-- A tick makes changes that a poll makes. -/
theorem tick_steps (hr : R rds) (h : s.tick oc w rds pc = some (s', pc')) :
    ReflTransGen (PollStep oc w R) s s' := by
  cases Ticked.of_tick h with
  | register | usbInt | usbErrInt | asyncAdvance | portChange => exact .single (.flags s _ s.woken)
  | signalsInterrupts | signalsControls | signaled | pollsDevices | pollsInterrupts | pollsControls
  | resets | noReset => exact .refl
  | signalDevice => exact .single (.usbInt s _)
  | signalInterrupt => exact .single (.interruptInt s _)
  | signalControl => exact .single (.controlInt s _)
  | fireRemoved => exact .single (.asyncAdvance s)
  | signalPort => exact .single (.portChanged s _)
  | pollDevice => exact .single (.device s _)
  | pollInterrupt hp => exact .single (.interruptEndpoint _ hp)
  | pollControl hp => exact .single (.controlEndpoint _ hp)
  | goesOn hrd hm => exact .single (.reset hr hrd (resetStep_outcome hm))
  | waits hrd hm => exact .head (.reset hr hrd (resetStep_outcome hm)) (.single (.pending _))
  | noRequest => exact .single (.pending s)
  | pollRootPort => exact .single (.rootPort s _)
  | startReset _ hm => exact .head (.rootPort s _) (.single (.startReset _ _ hm))

end Tick

end RunnerWorld

end EzEhci
