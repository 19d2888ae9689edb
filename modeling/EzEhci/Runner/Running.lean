import EzEhci.Runner.Ticks
import EzEhci.Runner.World

/-!
# The driver, tick by tick

`RunningWorld` is the driver with a poll of the runner in progress: the calls of
the clients and the single actions of `handle_irq`, on whatever core they run,
fall between any two ticks of the poll. A run of `DriverWorld`, where a poll is
one step and `handle_irq` another, is one of its runs (`exec_of_driver`).
-/

namespace EzEhci

open Lib Relation

namespace RunnerWorld

variable {W : Type}

/-- `handle_irq` wakes the runner's waker. -/
def irqWake (s : RunnerWorld W) : RunnerWorld W :=
  { s with
    irq := s.irq.wake
    woken := fun t => s.woken t || (t == s.runnerTask && s.irq.runnerWaker == .registered) }

/-- `handle_irq` stores one of its flags. -/
def irqStore (s : RunnerWorld W) (b : StsBit) : RunnerWorld W := { s with irq := s.irq.setFlag true b }

end RunnerWorld

/-- The driver, and the poll in progress with its waker. -/
structure RunningWorld (W : Type) where
  driver : DriverWorld W
  poll : Option (W × PollPc)

inductive RunningLabel (W : Type) where
  | client (a : DriverLabel W)
  | irqWake
  | irqStore (b : StsBit)
  | startPoll (w : W)
  | tick (rds : ResetReadings)

namespace RunningWorld

variable {W : Type} [Wakers W]

/-- The runner's last poll returned `Pending` and nothing woke it since. -/
def asleep (s : RunningWorld W) : Bool := s.poll.isNone && s.driver.runner.asleep

def step (oc : OverflowChecks) (s : RunningWorld W) : RunningLabel W → Option (RunningWorld W)
  | .client a =>
    if a.isCall then (DriverWorld.step oc s.driver a).map fun driver => { s with driver } else none
  | .irqWake => some { s with driver.runner := s.driver.runner.irqWake }
  | .irqStore b => some { s with driver.runner := s.driver.runner.irqStore b }
  | .startPoll w =>
    if s.poll.isNone ∧ Wakers.task w = s.driver.runner.runnerTask then
      some { driver := { s.driver with runner := s.driver.runner.startPoll }, poll := some (w, .register) }
    else none
  | .tick rds => s.poll.bind fun p => (s.driver.runner.tick oc p.1 rds p.2).map fun t =>
    { driver := { s.driver with runner := t.1 }, poll := t.2.map (p.1, ·) }

theorem step_client {oc : OverflowChecks} {s s' : RunningWorld W} {a : DriverLabel W}
    (hs : s.step oc (.client a) = some s') :
    a.isCall = true ∧ ∃ driver, DriverWorld.step oc s.driver a = some driver ∧ s' = { s with driver } := by
  obtain ⟨ha, hs⟩ := Option.ite_none_right_eq_some.mp hs
  obtain ⟨driver, hd, rfl⟩ := Option.map_eq_some_iff.mp hs
  exact ⟨ha, driver, hd, rfl⟩

/-! ## Polls that nothing interrupts -/

section Refine

variable {oc : OverflowChecks} {w : W} {s s' : DriverWorld W}

theorem exec_of_ticks {a b : RunnerWorld W × Option PollPc} (h : RunnerWorld.Ticks oc w a b) :
    ∃ tr, exec (RunningWorld.step oc) ⟨{ s with runner := a.1 }, a.2.map (w, ·)⟩ tr =
      some ⟨{ s with runner := b.1 }, b.2.map (w, ·)⟩ := by
  induction h with
  | refl => exact ⟨[], rfl⟩
  | tail _ hstep ih =>
    obtain ⟨tr, htr⟩ := ih
    obtain ⟨rds, pc, hpc, ht⟩ := hstep
    refine ⟨tr ++ [.tick rds], exec_snoc_iff.mpr ⟨_, htr, ?_⟩⟩
    simp only [RunningWorld.step, hpc, Option.map_some, Option.bind_some, ht]

/-- `handle_irq` in one piece is its actions one after the other. -/
theorem exec_of_interrupt (usbSts : UsbStsReg) (p : Option (W × PollPc)) :
    exec (RunningWorld.step oc) ⟨s, p⟩ (.irqWake :: (handlerBits.filter usbSts.get).map .irqStore) =
      some ⟨{ s with runner := s.runner.interrupt usbSts }, p⟩ := by
  have hstores : ∀ (l : List StsBit) (r : RunnerWorld W) (v : UsbStsReg),
      exec (RunningWorld.step oc) ⟨{ s with runner := r }, p⟩ ((l.filter usbSts.get).map .irqStore) =
        some ⟨{ s with runner := { r with irq := (l.foldl (handleIrqBit usbSts) (r.irq, v)).1 } }, p⟩ := by
    intro l
    induction l with
    | nil => exact fun _ _ => rfl
    | cons b l ih =>
      intro r v
      rw [List.foldl_cons, handleIrqBit]
      by_cases hb : usbSts.get b = true
      · rw [List.filter_cons_of_pos hb, if_pos hb]
        exact ih (r.irqStore b) (v.set b)
      · rw [List.filter_cons_of_neg hb, if_neg hb]
        exact ih r v
  exact hstores handlerBits s.runner.irqWake .zero

/-- **A run with polls that nothing interrupts.** -/
theorem exec_of_driver {s₀ : DriverWorld W} {tr : List (DriverLabel W)}
    (h : exec (DriverWorld.step oc) s₀ tr = some s) :
    ∃ tr', exec (RunningWorld.step oc) ⟨s₀, none⟩ tr' = some ⟨s, none⟩ := by
  refine exec_invariant (I := fun s => ∃ tr', exec (RunningWorld.step oc) ⟨s₀, none⟩ tr' = some ⟨s, none⟩)
    ⟨[], rfl⟩ ?_ h
  rintro s a s' ⟨tr', hi⟩ hs
  have hcall : a.isCall = true → ∃ tr'', exec (RunningWorld.step oc) ⟨s, none⟩ tr'' = some ⟨s', none⟩ :=
    fun ha => ⟨[.client a], by simp only [exec, RunningWorld.step, if_pos ha, hs, Option.map_some, Option.bind_some]⟩
  suffices hgo : ∃ tr'', exec (RunningWorld.step oc) ⟨s, none⟩ tr'' = some ⟨s', none⟩ by
    obtain ⟨tr'', h''⟩ := hgo
    exact ⟨tr' ++ tr'', exec_trans hi h''⟩
  cases DriverWorld.Stepped.of_step hs with
  | irq => exact ⟨_, exec_of_interrupt _ none⟩
  | @poll w rds runner hw hp =>
    obtain ⟨tr'', h''⟩ := exec_of_ticks (s := s) (RunnerWorld.poll_ticks hp)
    refine ⟨.startPoll w :: tr'', ?_⟩
    rw [exec, RunningWorld.step, if_pos ⟨rfl, hw⟩]
    exact h''
  | _ => exact hcall rfl

end Refine

end RunningWorld

end EzEhci
