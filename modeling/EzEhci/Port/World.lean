import EzEhci.Wait.World

/-!
# Waiting for a connection

`RootPort::wait_until_connected` reads PORTSC of its port and waits for the
port's `port_changed_signal` until a device is connected. The runner sets the
signals of all ports when the interrupt handler saw `port_change_detect`.
`PortWorld` runs a waiter on every root port beside the driver, the interrupt
handler and the ports, with any steps of the others in between; a call of
`handle_irq` is one step (its single actions are in `IrqWorld`).

The controller sets a change bit of PORTSC when something changes, and it
raises `port_change_detect` when a change bit *transitions* from zero to one
(`PortScReg.announces`). A change bit stays set until a `1` is written to it.
The world keeps for each port whether the last change of its connection was
announced, and how many changes were.
-/

namespace EzEhci

open Lib

/-! ## The registers of the ports -/

/-- The bits of PORTSC that report a change; writing a `1` clears them. -/
inductive PortChangeBit where
  | connectStatusChange
  | portEnableChange
  | overCurrentChange
  deriving DecidableEq, Repr

def PortChangeBit.pos : PortChangeBit → Nat
  | .connectStatusChange => 1
  | .portEnableChange => 3
  | .overCurrentChange => 5

def portChangeBits : List PortChangeBit := [.connectStatusChange, .portEnableChange, .overCurrentChange]

namespace PortScReg

def change (r : PortScReg) (b : PortChangeBit) : Bool := bit b.pos r.raw

def changeMask : BitVec 32 := 0x2a

/-- `current_connect_status`, `over_current_active` and `line_status`. -/
def readOnlyMask : BitVec 32 := 0xc11

/-- The register after a write of `v`: the change bits written as `1` are cleared and what is read-only
stays. -/
def write (r v : PortScReg) : PortScReg :=
  ⟨(v.raw &&& ~~~(readOnlyMask ||| changeMask)) ||| (r.raw &&& (readOnlyMask ||| changeMask &&& ~~~v.raw))⟩

/-- The controller may replace `r` by `r'`: it clears no change bit, and it reports a change of the
connection. -/
def Evolves (r r' : PortScReg) : Prop :=
  (∀ b ∈ portChangeBits, r.change b = true → r'.change b = true) ∧
    (r'.currentConnectStatus ≠ r.currentConnectStatus → r'.change .connectStatusChange = true)

instance (r r' : PortScReg) : Decidable (r.Evolves r') := inferInstanceAs (Decidable (_ ∧ _))

/-- A change bit transitions from zero to one. -/
def announces (r r' : PortScReg) : Bool := portChangeBits.any fun b => !r.change b && r'.change b

end PortScReg

/-! ## The waiters -/

/-- A call of `wait_until_connected` on one port: it was not polled yet, is in a poll, about to read
PORTSC or to poll the signal, or its last poll returned `Pending`. -/
inductive PortWaiter (W : Type) where
  | none
  | new
  | read (w : W)
  | wait (w : W)
  | pending (w : W) (woken : Bool)

namespace PortWaiter

variable {W : Type}

def wake [Wakers W] (woken : TaskId → Bool) : PortWaiter W → PortWaiter W
  | .pending w b => .pending w (b || woken (Wakers.task w))
  | x => x

def isNone : PortWaiter W → Bool
  | .none => true
  | _ => false

/-- The waiter read that no device is connected. -/
def InWait : PortWaiter W → Prop
  | .wait _ | .pending _ _ => True
  | _ => False

/-- The last poll returned `Pending`, and nothing woke the future since. -/
def Asleep : PortWaiter W → Prop
  | .pending _ false => True
  | _ => False

instance : (x : PortWaiter W) → Decidable x.Asleep
  | .pending _ false => .isTrue trivial
  | .pending _ true | .none | .new | .read _ | .wait _ => .isFalse id

theorem InWait.isNone {x : PortWaiter W} (h : x.InWait) : x.isNone = false := by
  cases x <;> first | rfl | cases h

theorem Asleep.inWait {x : PortWaiter W} (h : x.Asleep) : x.InWait := by
  cases x <;> trivial

variable [Wakers W] (woken : TaskId → Bool) (x : PortWaiter W)

@[simp] theorem isNone_wake : (x.wake woken).isNone = x.isNone := by cases x <;> rfl

@[simp] theorem inWait_wake : (x.wake woken).InWait ↔ x.InWait := by cases x <;> rfl

end PortWaiter

namespace RunnerWorld

variable {W : Type}

def portSignal (s : RunnerWorld W) (i : Nat) : Signal W Unit := (s.rootPorts i).portChangedSignal

/-- A waiter polls the port's `port_changed_signal`. -/
def pollPortChanged [Wakers W] (s : RunnerWorld W) (w : W) (i : Nat) : RunnerWorld W :=
  let p := (s.portSignal i).pollWait w
  { s with rootPorts := s.rootPorts.modify i fun sh => { sh with portChangedSignal := p.state } }.wake
    p.woken

/-- The port whose PORTSC the next step of a poll reads. -/
def portRead (s : RunnerWorld W) : PollPc → Nat
  | .rootPorts (i :: _) => i
  | _ => s.resettingDevice.elim 0 fun rd => rd.rootPort.toNat

end RunnerWorld

/-! ## The world -/

structure PortWorld (W : Type) where
  driver : DriverWorld W
  -- the controller's side; `owed`: `port_change_detect` is going to be raised
  ports : Heap PortScReg
  usbSts : UsbStsReg
  owed : Bool
  runnerWoken : Bool
  poll : Option (W × PollPc)
  waiters : Heap (PortWaiter W)
  -- the last change of the port's connection was not announced
  silent : Heap Bool
  announced : Heap Nat

inductive PortLabel (W : Type) where
  | client (a : DriverLabel W)
  | waitUntilConnected (i : Nat)
  | dropWait (i : Nat)
  | port (i : Nat) (r : PortScReg)
  | detect
  | raise (b : StsBit)
  | irq
  | startPoll (w : W)
  | tick (portScUpdate : PortScReg) (timerReady : Bool) (statusToken : TransferToken)
  | pollWaiter (i : Nat) (w : W)
  | waiterTick (i : Nat)

namespace PortWorld

variable {W : Type} [Wakers W]

/-- The runner, with no task woken since the last step. -/
def runner (s : PortWorld W) : RunnerWorld W := { s.driver.runner with woken := fun _ => false }

/-- The state after a step of the driver, with the tasks it woke. -/
def deliver (s : PortWorld W) (driver : DriverWorld W) : PortWorld W :=
  { s with
    driver
    runnerWoken := s.runnerWoken || driver.runner.runnerWoken
    waiters := fun i => (s.waiters i).wake driver.runner.woken }

def deliverRunner (s : PortWorld W) (runner : RunnerWorld W) : PortWorld W :=
  s.deliver { s.driver with runner }

def written (ports : Heap PortScReg) (l : List (Nat × PortScReg)) : Heap PortScReg :=
  l.foldl (fun ports x => ports.modify x.1 fun r => r.write x.2) ports

def ticked (s : PortWorld W) (w : W) (t : RunnerWorld W × Option PollPc) : PortWorld W :=
  { s.deliverRunner t.1 with
    poll := t.2.map (w, ·)
    ports := written s.ports (t.1.portScWritten.drop s.driver.runner.portScWritten.length) }

def setWaiter (s : PortWorld W) (i : Nat) (x : PortWaiter W) : PortWorld W :=
  { s with waiters := s.waiters.modify i fun _ => x }

/-- The register of a port changes by itself. -/
def portChanges (s : PortWorld W) (i : Nat) (r : PortScReg) : PortWorld W :=
  let old := s.ports i
  { s with
    ports := s.ports.modify i fun _ => r
    owed := s.owed || old.announces r
    silent := s.silent.modify i fun b =>
      if r.currentConnectStatus = old.currentConnectStatus then b else !old.announces r
    announced := s.announced.modify i fun n => if old.announces r then n + 1 else n }

def waiterTick (s : PortWorld W) (i : Nat) : PortWaiter W → Option (PortWorld W)
  | .read w =>
    some (if (s.ports i).currentConnectStatus then s.setWaiter i .none else s.setWaiter i (.wait w))
  | .wait w =>
    let s' := s.deliverRunner (s.runner.pollPortChanged w i)
    match ((s.driver.runner.portSignal i).pollWait w).ready with
    | some () => some (s'.setWaiter i (.read w))
    | none => some (s'.setWaiter i (.pending w false))
  | _ => none

/-- One step; `none` if it is not enabled, or if the runner panics. -/
def step (oc : OverflowChecks) (s : PortWorld W) : PortLabel W → Option (PortWorld W)
  | .client a =>
    if a.isCall then
      (DriverWorld.step oc { s.driver with runner := s.runner } a).map s.deliver
    else none
  | .waitUntilConnected i =>
    -- the function borrows the port mutably
    if i < s.driver.runner.nPorts ∧ (s.waiters i).isNone then some (s.setWaiter i .new) else none
  | .dropWait i => some (s.setWaiter i .none)
  | .port i r => if (s.ports i).Evolves r then some (s.portChanges i r) else none
  | .detect =>
    if s.owed then some { s with owed := false, usbSts := s.usbSts.set .portChangeDetect } else none
  | .raise b => some { s with usbSts := s.usbSts.set b }
  | .irq =>
    some { s.deliverRunner (s.runner.interrupt s.usbSts) with
      usbSts := (handleIrq s.usbSts s.driver.runner.irq).1 }
  | .startPoll w =>
    if s.poll.isNone ∧ Wakers.task w = s.driver.runner.runnerTask then
      some { s with runnerWoken := false, poll := some (w, .register) }
    else none
  | .tick portScUpdate timerReady statusToken =>
    match s.poll with
    | some (w, pc) =>
      -- `update` reads the register before it writes it, so its value may be an older one
      let rds : ResetReadings := ⟨s.ports (s.runner.portRead pc), portScUpdate, timerReady, statusToken⟩
      (s.runner.tick oc w rds pc).map (s.ticked w)
    | none => none
  | .pollWaiter i w =>
    match s.waiters i with
    | .new => some (s.setWaiter i (.read w))
    -- a future that was pending goes on in the wait
    | .pending _ _ => some (s.setWaiter i (.wait w))
    | _ => none
  | .waiterTick i => s.waiterTick i (s.waiters i)

/-- No change is being announced and the runner is pending and not woken. -/
def AtRest (s : PortWorld W) : Prop :=
  s.owed = false ∧ s.usbSts.get .portChangeDetect = false ∧
    s.driver.runner.pending = true ∧ s.poll = none ∧ s.runnerWoken = false

/-- The driver when the runner starts running; nobody waits. -/
structure Begun (s : PortWorld W) : Prop where
  started : s.driver.Started
  poll : s.poll = none
  waiters : ∀ i, s.waiters i = .none
  silent : ∀ i, s.silent i = false
  announced : ∀ i, s.announced i = 0

/-! ## What a step can do -/

inductive Stepped (oc : OverflowChecks) (s : PortWorld W) : PortLabel W → PortWorld W → Prop
  | client {a : DriverLabel W} {d : DriverWorld W} (ha : a.isCall = true)
      (hd : DriverWorld.step oc { s.driver with runner := s.runner } a = some d) :
      Stepped oc s (.client a) (s.deliver d)
  | waitUntilConnected {i : Nat} (hi : i < s.driver.runner.nPorts) :
      Stepped oc s (.waitUntilConnected i) (s.setWaiter i .new)
  | dropWait (i : Nat) : Stepped oc s (.dropWait i) (s.setWaiter i .none)
  | port {i : Nat} {r : PortScReg} (hev : (s.ports i).Evolves r) :
      Stepped oc s (.port i r) (s.portChanges i r)
  | detect : Stepped oc s .detect { s with owed := false, usbSts := s.usbSts.set .portChangeDetect }
  | raise (b : StsBit) : Stepped oc s (.raise b) { s with usbSts := s.usbSts.set b }
  | irq : Stepped oc s .irq { s.deliverRunner (s.runner.interrupt s.usbSts) with
      usbSts := (handleIrq s.usbSts s.driver.runner.irq).1 }
  | startPoll (w : W) (hp : s.poll = none) :
      Stepped oc s (.startPoll w) { s with runnerWoken := false, poll := some (w, .register) }
  | tick {u : PortScReg} {b : Bool} {token : TransferToken} {w : W} {pc : PollPc}
      {t : RunnerWorld W × Option PollPc} (hp : s.poll = some (w, pc))
      (ht : s.runner.tick oc w ⟨s.ports (s.runner.portRead pc), u, b, token⟩ pc = some t) :
      Stepped oc s (.tick u b token) (s.ticked w t)
  | pollNew {i : Nat} (w : W) (hx : s.waiters i = .new) :
      Stepped oc s (.pollWaiter i w) (s.setWaiter i (.read w))
  | pollPending {i : Nat} (w : W) {v : W} {b : Bool} (hx : s.waiters i = .pending v b) :
      Stepped oc s (.pollWaiter i w) (s.setWaiter i (.wait w))
  | connected {i : Nat} {w : W} (hx : s.waiters i = .read w) :
      Stepped oc s (.waiterTick i) (s.setWaiter i .none)
  | notConnected {i : Nat} {w : W} (hx : s.waiters i = .read w)
      (hd : (s.ports i).currentConnectStatus = false) :
      Stepped oc s (.waiterTick i) (s.setWaiter i (.wait w))
  | signaled {i : Nat} {w : W} (hx : s.waiters i = .wait w) : Stepped oc s (.waiterTick i)
      ((s.deliverRunner (s.runner.pollPortChanged w i)).setWaiter i (.read w))
  | suspended {i : Nat} {w : W} (hx : s.waiters i = .wait w)
      (hno : (s.driver.runner.portSignal i).isSignaled = false) : Stepped oc s (.waiterTick i)
        ((s.deliverRunner (s.runner.pollPortChanged w i)).setWaiter i (.pending w false))

section Inversion

variable {oc : OverflowChecks} {s s' : PortWorld W}

theorem Stepped.of_waiterTick {i : Nat} (h : s.waiterTick i (s.waiters i) = some s') :
    Stepped oc s (.waiterTick i) s' := by
  cases hx : s.waiters i with
  | read w =>
    rw [hx] at h
    cases h
    split
    next => exact .connected hx
    next hd => exact .notConnected hx (eq_false_of_ne_true hd)
  | wait w =>
    rw [hx] at h
    simp only [PortWorld.waiterTick, Signal.ready_pollWait] at h
    split at h
    next =>
      cases h
      exact .signaled hx
    next hready =>
      cases h
      exact .suspended hx (by rw [Signal.isSignaled_eq, hready, Option.isSome_none])
  | none | new | pending =>
    rw [hx] at h
    cases h

theorem Stepped.of_step {a : PortLabel W} (h : s.step oc a = some s') : Stepped oc s a s' := by
  cases a with
  | client a =>
    obtain ⟨ha, h⟩ := Option.ite_none_right_eq_some.mp h
    obtain ⟨d, hd, rfl⟩ := Option.map_eq_some_iff.mp h
    exact .client ha hd
  | waitUntilConnected i =>
    obtain ⟨⟨hi, -⟩, he⟩ := Option.ite_none_right_eq_some.mp h
    cases he
    exact .waitUntilConnected hi
  | dropWait i =>
    cases h
    exact .dropWait i
  | port i r =>
    obtain ⟨hev, he⟩ := Option.ite_none_right_eq_some.mp h
    cases he
    exact .port hev
  | detect =>
    obtain ⟨-, he⟩ := Option.ite_none_right_eq_some.mp h
    cases he
    exact .detect
  | raise b =>
    cases h
    exact .raise b
  | irq =>
    cases h
    exact .irq
  | startPoll w =>
    obtain ⟨⟨hp, -⟩, he⟩ := Option.ite_none_right_eq_some.mp h
    cases he
    exact .startPoll w (Option.isNone_iff_eq_none.mp hp)
  | tick u b token =>
    simp only [PortWorld.step] at h
    split at h
    next w pc hp =>
      obtain ⟨t, ht, rfl⟩ := Option.map_eq_some_iff.mp h
      exact .tick hp ht
    next => cases h
  | pollWaiter i w =>
    simp only [PortWorld.step] at h
    split at h
    next hx =>
      cases h
      exact .pollNew w hx
    next hx =>
      cases h
      exact .pollPending w hx
    next => cases h
  | waiterTick i => exact .of_waiterTick h

end Inversion

end PortWorld

end EzEhci
