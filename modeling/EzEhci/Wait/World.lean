import EzEhci.Runner.Frame
import EzEhci.Runner.Registration

/-!
# Waiting for descriptors

`LoadedControlEndpoint::wait_for_qtd_complete` and `WatchedInterruptEndpoint::peek`
are the same loop: return if the descriptor is inactive, else wait for the
endpoint's `int_signal` (`peek` returns at once while it has a completed packet).
`WaitWorld` runs any number of them beside the driver on one core: at most one
future is in a poll, `handle_irq` runs in one piece, and it, the controller and
the other calls of the clients fall between any two steps of a poll.

The controller clears the active bit of a descriptor first and raises the
interrupt later; until then the status bit is `owed`. Each waiter keeps the
waker of its last poll and whether that was woken since.
-/

namespace EzEhci

open Lib

/-! ## The waiters -/

/-- A future of one of the two functions; `waker` is that of its last poll. -/
structure Waiter (W : Type) where
  endpoint : EndpointRef
  qtd : Ptr
  waker : Option W
  woken : Bool

/-- The last poll returned `Pending`, and nothing woke the future since. -/
def Waiter.Asleep {W : Type} (x : Waiter W) : Prop := x.waker.isSome = true ∧ x.woken = false

instance {W : Type} (x : Waiter W) : Decidable x.Asleep := inferInstanceAs (Decidable (_ ∧ _))

inductive WaiterPc where
  | read
  | wait
  deriving DecidableEq, Repr

inductive CurrentPoll (W : Type) where
  | runner (w : W) (pc : PollPc)
  | waiter (x : Waiter W) (w : W) (pc : WaiterPc)

def Waiter.wake {W : Type} [Wakers W] (woken : TaskId → Bool) (x : Waiter W) : Waiter W :=
  { x with woken := x.woken || x.waker.any fun w => woken (Wakers.task w) }

namespace CurrentPoll

variable {W : Type}

def waiter? : CurrentPoll W → Option (Waiter W)
  | .runner _ _ => none
  | .waiter x _ _ => some x

def isRunner : CurrentPoll W → Bool
  | .runner _ _ => true
  | .waiter _ _ _ => false

def wake [Wakers W] (woken : TaskId → Bool) : CurrentPoll W → CurrentPoll W
  | .runner w pc => .runner w pc
  | .waiter x w pc => .waiter (x.wake woken) w pc

end CurrentPoll

/-- A future polls the endpoint's `int_signal`. -/
def EndpointRef.pollInt {W : Type} [Wakers W] (s : RunnerWorld W) (w : W) : EndpointRef → RunnerWorld W
  | .control e =>
    let p := (s.controlShared e).intSignal.pollWait w
    { s with controlShared := s.controlShared.modify e fun sh => { sh with intSignal := p.state } }.wake
      p.woken
  | .interrupt e =>
    let p := (s.interruptShared e).intSignal.pollWait w
    { s with
      interruptShared := s.interruptShared.modify e fun sh => { sh with intSignal := p.state } }.wake
      p.woken

/-! ## The world -/

/-- The driver, the controller's interrupt status and the waiters that are not in a poll. `watching`
has the calls of `watch` with the sender each of them waits for. -/
structure WaitWorld (W : Type) where
  driver : DriverWorld W
  usbSts : UsbStsReg
  owed : List StsBit
  runnerWoken : Bool
  waiters : List (Waiter W)
  poll : Option (CurrentPoll W)
  watching : List (InterruptEpId × SenderId)

inductive WaitLabel (W : Type) where
  | client (a : DriverLabel W)
  | startWait (ep : EndpointRef) (p : Ptr)
  | dropWait (ep : EndpointRef)
  | arm (p : Ptr) (qtd : Qtd)
  | complete (p : Ptr) (token : TransferToken) (error : Bool)
  | raiseOwed (b : StsBit)
  | raise (b : StsBit)
  | irq
  | startPoll (w : W)
  | tick (rds : ResetReadings)
  | pollWaiter (ep : EndpointRef) (w : W)
  | waiterTick

/-- The call of `watch` that the label makes. -/
def DriverLabel.watches {W : Type} (sender : SenderId) : DriverLabel W → List (InterruptEpId × SenderId)
  | .watch _ ep _ => [(ep.shared, sender)]
  | _ => []

/-- The interrupts for a descriptor that is retired. -/
def TransferToken.interrupts (t : TransferToken) (error : Bool) : List StsBit :=
  (if t.interruptOnComplete then [.usbInt] else []) ++ if error then [.usbErrInt] else []

namespace WaitWorld

variable {W : Type} [Wakers W]

/-- The runner, with no task woken since the last step. -/
def runner (s : WaitWorld W) : RunnerWorld W := { s.driver.runner with woken := fun _ => false }

def all (s : WaitWorld W) : List (Waiter W) := (s.poll.bind CurrentPoll.waiter?).toList ++ s.waiters

/-- The state after a step of the driver, with the tasks it woke. -/
def deliver (s : WaitWorld W) (driver : DriverWorld W) : WaitWorld W :=
  { s with
    driver
    runnerWoken := s.runnerWoken || driver.runner.runnerWoken
    waiters := s.waiters.map (Waiter.wake driver.runner.woken)
    poll := s.poll.map (CurrentPoll.wake driver.runner.woken) }

def deliverRunner (s : WaitWorld W) (runner : RunnerWorld W) : WaitWorld W :=
  s.deliver { s.driver with runner }

/-- A client has the loaded control endpoint, or `watch` gave it the interrupt endpoint. -/
def Owned (s : WaitWorld W) : EndpointRef → Prop
  | .control e => e ∈ s.driver.loaded
  | .interrupt e => ∃ x ∈ s.watching, x.1 = e ∧ x.2 ∈ s.driver.runner.callbacks

instance (s : WaitWorld W) : (ep : EndpointRef) → Decidable (s.Owned ep)
  | .control e => inferInstanceAs (Decidable (e ∈ s.driver.loaded))
  | .interrupt e =>
    inferInstanceAs (Decidable (∃ x ∈ s.watching, x.1 = e ∧ x.2 ∈ s.driver.runner.callbacks))

def setQtd (s : WaitWorld W) (p : Ptr) (f : Qtd → Qtd) : WaitWorld W :=
  { s with driver.runner.qtds := s.driver.runner.qtds.modify p f }

def waiterTick (s : WaitWorld W) (x : Waiter W) (w : W) : WaiterPc → WaitWorld W
  | .read =>
    if (s.driver.runner.qtds x.qtd).qtdToken.active then { s with poll := some (.waiter x w .wait) }
    else { s with poll := none }
  | .wait =>
    match ((x.endpoint.intSignal s.driver.runner).pollWait w).ready with
    | some () =>
      { s with poll := some (.waiter x w .read) }.deliverRunner (x.endpoint.pollInt s.runner w)
    | none =>
      { s with poll := none, waiters := x :: s.waiters }.deliverRunner (x.endpoint.pollInt s.runner w)

/-- One step; `none` if it is not enabled, or if the runner panics. -/
def step (oc : OverflowChecks) (s : WaitWorld W) : WaitLabel W → Option (WaitWorld W)
  | .client a =>
    if a.isCall then
      (DriverWorld.step oc { s.driver with runner := s.runner } a).map fun driver =>
        { s.deliver driver with watching := a.watches s.runner.nextSender ++ s.watching }
    else none
  | .startWait ep p =>
    -- both functions borrow the endpoint mutably
    if s.Owned ep ∧ ∀ x ∈ s.all, x.endpoint ≠ ep then
      some { s with waiters := ⟨ep, p, none, false⟩ :: s.waiters }
    else none
  | .dropWait ep => some { s with waiters := s.waiters.filter (·.endpoint ≠ ep) }
  -- the driver writes active descriptors only, and the controller updates one while it works on it
  | .arm p qtd => if qtd.qtdToken.active then some (s.setQtd p fun _ => qtd) else none
  | .complete p token error =>
    let old := (s.driver.runner.qtds p).qtdToken
    -- the descriptors that are waited for carry `interrupt_on_complete`
    if token.active = false ∧ ∀ x ∈ s.all, x.qtd = p → old.interruptOnComplete = true then
      some { s.setQtd p fun qtd => { qtd with qtdToken := token } with
        owed := s.owed ++ old.interrupts error }
    else none
  | .raiseOwed b =>
    if b ∈ s.owed then some { s with owed := s.owed.erase b, usbSts := s.usbSts.set b } else none
  | .raise b => some { s with usbSts := s.usbSts.set b }
  | .irq =>
    some { s.deliverRunner (s.runner.interrupt s.usbSts) with
      usbSts := (handleIrq s.usbSts s.driver.runner.irq).1 }
  | .startPoll w =>
    if s.poll.isNone ∧ Wakers.task w = s.driver.runner.runnerTask then
      some { s with runnerWoken := false, poll := some (.runner w .register) }
    else none
  | .tick rds =>
    match s.poll with
    | some (.runner w pc) => (s.runner.tick oc w rds pc).map fun t =>
      { s with poll := t.2.map (.runner w ·) }.deliverRunner t.1
    | _ => none
  | .pollWaiter ep w =>
    match s.poll, s.waiters.find? (·.endpoint = ep) with
    | none, some x => some { s with
        waiters := s.waiters.filter (·.endpoint ≠ ep)
        -- a future that was pending goes on in the wait
        poll := some (.waiter { x with waker := some w, woken := false } w
          (if x.waker.isSome then .wait else .read)) }
    | _, _ => none
  | .waiterTick =>
    match s.poll with
    | some (.waiter x w pc) => some (s.waiterTick x w pc)
    | _ => none

/-- No interrupt is pending or owed, the flags are down and the runner is pending and not woken. -/
def AtRest (s : WaitWorld W) : Prop :=
  s.owed = [] ∧ (∀ b ∈ handlerBits, s.usbSts.get b = false ∧ s.driver.runner.irq.flag b = false) ∧
    s.driver.runner.pending = true ∧ s.poll.any CurrentPoll.isRunner = false ∧ s.runnerWoken = false

instance (s : WaitWorld W) : Decidable s.AtRest := inferInstanceAs (Decidable (_ ∧ _))

/-- No waiter of an endpoint the runner serves sleeps on an inactive descriptor. -/
def NoneMissed (s : WaitWorld W) : Prop :=
  ∀ x ∈ s.waiters, x.endpoint.Listed s.driver.runner → x.Asleep →
    (s.driver.runner.qtds x.qtd).qtdToken.active = true

/-- The driver when the runner starts running: no call of `watch` was made and nobody waits. -/
structure Begun (s : WaitWorld W) : Prop where
  started : s.driver.Started
  callbacks : s.driver.runner.callbacks = []
  watching : s.watching = []
  owed : s.owed = []
  waiters : s.waiters = []
  poll : s.poll = none

/-! ## A run -/

/-- A driver of a controller with one root port, at the start of its Running phase. -/
def example₀ : WaitWorld TaskWaker := ⟨DriverWorld.exampleDriver, .zero, [], false, [], none, []⟩

theorem example₀_begun : example₀.Begun := ⟨DriverWorld.started_start .., rfl, rfl, rfl, rfl, rfl⟩

def examplePoll (n : Nat) : List (WaitLabel TaskWaker) :=
  .startPoll ⟨0⟩ :: List.replicate n (.tick DriverWorld.exampleReadings)

def examplePollWaiter : List (WaitLabel TaskWaker) :=
  [.pollWaiter (.control 0) ⟨1⟩, .waiterTick, .waiterTick]

/-- A device is reset and its endpoint 0 loaded. -/
def exampleLoad : List (WaitLabel TaskWaker) :=
  .client (.resetDevice 0 ⟨⟨0x2000, 0x2000⟩, ⟨0x3000, 0x3000⟩, ⟨0x3040, 0x3040⟩, ⟨0x4000, 0x4000⟩⟩) ::
    examplePoll 14 ++ .raise .asyncAdvance :: .irq :: examplePoll 13 ++
    .client (.load DriverWorld.exampleDevice ⟨0x5000, 0x5000⟩) :: examplePoll 13

/-- A client writes a status descriptor and waits until it is suspended. -/
def exampleWait : List (WaitLabel TaskWaker) :=
  .arm 0x6000 (Qtd.new ((TransferToken.newActive .inToken 0).withInterruptOnComplete true) .zero) ::
    .startWait (.control 0) 0x6000 :: examplePollWaiter

/-- The descriptor is retired; the interrupt, the runner and the waiter follow. -/
def exampleCompletion : List (WaitLabel TaskWaker) :=
  .complete 0x6000 .zero false :: .raiseOwed .usbInt :: .irq :: examplePoll 18 ++ examplePollWaiter

end WaitWorld

end EzEhci
