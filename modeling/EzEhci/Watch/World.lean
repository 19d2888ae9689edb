import EzEhci.Periodic.Invariant
import EzEhci.Runner.Registration
import EzEhci.Start.Run

/-!
# Watched endpoints in the running driver

`WatchWorld` is the driver from its creation with a record of the calls of
`watch`. A call lends the driver the memory of a queue head, which no other
call has lent. The queue heads are also written by others than the list
manager: by `watch` itself when the runner has answered, and by the controller,
which keeps the state of a transfer in them. Such a write (`overlay`) leaves
the link to the next queue head alone.
-/

namespace EzEhci

open Lib

/-- A call of `watch`: its endpoint, the sender of its callback and what it asks the periodic list
for. -/
structure WatchCall where
  shared : InterruptEpId
  callback : SenderId
  entry : PeriodicEntry
  deriving DecidableEq

namespace WatchCall

def req (c : WatchCall) : AddInterruptQhReq := ⟨c.entry.qh, c.entry.interval, c.callback⟩

def ptr (c : WatchCall) : Ptr := c.entry.qh.ptr

end WatchCall

structure WatchWorld (W : Type) where
  run : RunWorld W
  calls : List WatchCall

inductive WatchLabel (W : Type) where
  | run (a : RunLabel W)
  | overlay (p : Ptr) (qh : Qh)

def RunLabel.watchCalls {W : Type} (oc : OverflowChecks) (sender : SenderId) : RunLabel W → List WatchCall
  | .client (.watch _ ep res) =>
    (ep.prepareWatch oc res).toList.map fun q => ⟨ep.shared, sender, ⟨res.qh, q.2⟩⟩
  | _ => []

namespace WatchWorld

variable {W : Type} [Wakers W]

abbrev runner (s : WatchWorld W) : RunnerWorld W := s.run.driver.runner

/-- What the callers of `watch` promise about their queue heads. -/
def Permitted (dma : Dma) (s : WatchWorld W) : RunLabel W → Prop
  | .client (.watch _ _ res) =>
    res.qh.Usable dma s.runner.periodic.mgr.ctrlDsSegment ∧ ∀ c ∈ s.calls, c.ptr ≠ res.qh.ptr
  | _ => True

instance (dma : Dma) (s : WatchWorld W) : (a : RunLabel W) → Decidable (s.Permitted dma a)
  | .client (.watch _ _ _) => inferInstanceAs (Decidable (_ ∧ _))
  | .client (.resetDevice _ _) | .client (.load _ _) | .client (.setConfiguration _ _ _)
  | .client (.configure _) | .client (.irq _) | .client .wakeRunner | .client (.poll _ _)
  | .pollReset _ _ | .callStart _ | .pollStart _ | .dropStart | .startPoll _ | .tick _ _ => .isTrue trivial

/-- A write to a queue head that leaves its link alone. -/
def overlay (s : WatchWorld W) (p : Ptr) (qh : Qh) : WatchWorld W :=
  { s with run.driver.runner.periodic.heap := s.runner.periodic.heap.modify p fun m =>
      { m with qh := { qh with horizontalLinkPtr := m.qh.horizontalLinkPtr } } }

/-- One step; `none` if it is not enabled, or if the runner panics. -/
def step (dma : Dma) (oc : OverflowChecks) (s : WatchWorld W) : WatchLabel W → Option (WatchWorld W)
  | .run a =>
    if s.Permitted dma a then
      (s.run.step oc a).map fun run => ⟨run, s.calls ++ a.watchCalls oc s.runner.nextSender⟩
    else none
  | .overlay p qh => some (s.overlay p qh)

/-- The driver is created: nothing was asked of it. -/
def Begun (s : WatchWorld W) : Prop :=
  ∃ driver : DriverWorld W, driver.Started ∧ driver.runner.callbacks = [] ∧ s = ⟨.new driver, []⟩

end WatchWorld

end EzEhci
