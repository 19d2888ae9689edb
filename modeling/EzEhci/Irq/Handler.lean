import EzEhci.Lib.Run
import EzEhci.Hw.Regs
import EzEhci.Sync.Signal

/-!
# The interrupt handler and the runner's flags

`handleIrq` is one call of the interrupt handler. It shares five flags and the
runner's waker with the runner, which may run on another core, so the two are
also given step by step: `IrqWorld.step` interleaves the atomic actions of a
call (wake, read of USBSTS, one status bit after the other, write of USBSTS),
those of the runner's poll (registration, one swap after the other, return)
and the events of the controller.

The world keeps what the actions mean for each event: whether its status bit
was cleared since, and whether a swap since then took its flag.
-/

namespace EzEhci

open Lib

structure IrqHandlerSharedState where
  newUsbInt : Bool
  newUsbErrInt : Bool
  newPortChangeDetect : Bool
  newHostSystemError : Bool
  newAsyncAdvance : Bool
  runnerWaker : AtomicWaker
  deriving DecidableEq, Repr

namespace IrqHandlerSharedState

def default : IrqHandlerSharedState := ⟨false, false, false, false, false, .empty⟩

/-- The flag of a status bit; frame list rollover has none. -/
def flag (s : IrqHandlerSharedState) : StsBit → Bool
  | .usbInt => s.newUsbInt
  | .usbErrInt => s.newUsbErrInt
  | .portChangeDetect => s.newPortChangeDetect
  | .frameListRollover => false
  | .hostSystemError => s.newHostSystemError
  | .asyncAdvance => s.newAsyncAdvance

def setFlag (s : IrqHandlerSharedState) (v : Bool) : StsBit → IrqHandlerSharedState
  | .usbInt => { s with newUsbInt := v }
  | .usbErrInt => { s with newUsbErrInt := v }
  | .portChangeDetect => { s with newPortChangeDetect := v }
  | .frameListRollover => s
  | .hostSystemError => { s with newHostSystemError := v }
  | .asyncAdvance => { s with newAsyncAdvance := v }

@[simp] theorem runnerWaker_setFlag (s : IrqHandlerSharedState) (v : Bool) (b : StsBit) :
    (s.setFlag v b).runnerWaker = s.runnerWaker := by cases b <;> rfl

theorem flag_setFlag (s : IrqHandlerSharedState) (v : Bool) {b : StsBit}
    (hb : b ≠ .frameListRollover) : (s.setFlag v b).flag b = v := by
  cases b <;> first | rfl | exact absurd rfl hb

theorem flag_setFlag_of_ne (s : IrqHandlerSharedState) (v : Bool) {b c : StsBit} (h : c ≠ b) :
    (s.setFlag v b).flag c = s.flag c := by
  cases b <;> cases c <;> first | rfl | exact absurd rfl h

def wake (s : IrqHandlerSharedState) : IrqHandlerSharedState :=
  { s with runnerWaker := s.runnerWaker.wake }

def register (s : IrqHandlerSharedState) : IrqHandlerSharedState :=
  { s with runnerWaker := .registered }

@[simp] theorem flag_wake (s : IrqHandlerSharedState) (b : StsBit) : s.wake.flag b = s.flag b := by
  cases b <;> rfl

@[simp] theorem flag_register (s : IrqHandlerSharedState) (b : StsBit) :
    s.register.flag b = s.flag b := by
  cases b <;> rfl

end IrqHandlerSharedState

/-! ## The handler -/

/-- The status bits in the order `handle_irq` looks at them. -/
def handlerBits : List StsBit :=
  [.usbInt, .usbErrInt, .portChangeDetect, .frameListRollover, .hostSystemError, .asyncAdvance]

/-- `handle_irq` on one status bit of the value read: publish it and mark it to be cleared. -/
def handleIrqBit (usbSts : UsbStsReg) (s : IrqHandlerSharedState × UsbStsReg) (b : StsBit) :
    IrqHandlerSharedState × UsbStsReg :=
  if usbSts.get b then (s.1.setFlag true b, s.2.set b) else s

section Bit

variable (usbSts : UsbStsReg) (r : IrqHandlerSharedState × UsbStsReg) (b : StsBit)

@[simp] theorem runnerWaker_handleIrqBit :
    (handleIrqBit usbSts r b).1.runnerWaker = r.1.runnerWaker := by
  unfold handleIrqBit
  split <;> simp

theorem flag_handleIrqBit_of_ne {b c : StsBit} (h : c ≠ b) :
    (handleIrqBit usbSts r b).1.flag c = r.1.flag c := by
  unfold handleIrqBit
  split
  · exact IrqHandlerSharedState.flag_setFlag_of_ne _ _ h
  · rfl

theorem flag_handleIrqBit_self {b : StsBit} (h : b ≠ .frameListRollover) :
    (handleIrqBit usbSts r b).1.flag b = (usbSts.get b || r.1.flag b) := by
  unfold handleIrqBit
  split
  · simp [IrqHandlerSharedState.flag_setFlag _ _ h, *]
  · simp [*]

theorem flag_handleIrqBit_mono {c : StsBit} (h : r.1.flag c = true) :
    (handleIrqBit usbSts r b).1.flag c = true := by
  by_cases hc : c = b
  · subst hc
    have hne : c ≠ .frameListRollover := by
      rintro rfl
      cases h
    rw [flag_handleIrqBit_self _ _ hne, h, Bool.or_true]
  · rw [flag_handleIrqBit_of_ne _ _ hc, h]

theorem toWrite_handleIrqBit (c : StsBit) :
    (handleIrqBit usbSts r b).2.get c = ((decide (c = b) && usbSts.get b) || r.2.get c) := by
  unfold handleIrqBit
  split
  · simp [UsbStsReg.get_set, *]
  · simp [*]

end Bit

/-- `handle_irq`, run without interruption. -/
def handleIrq (usbSts : UsbStsReg) (shared : IrqHandlerSharedState) :
    UsbStsReg × IrqHandlerSharedState :=
  let s := handlerBits.foldl (handleIrqBit usbSts) (shared.wake, .zero)
  (usbSts.writeClear s.2, s.1)

theorem flag_handleIrq (usbSts : UsbStsReg) (shared : IrqHandlerSharedState) {b : StsBit}
    (h : b ≠ .frameListRollover) :
    (handleIrq usbSts shared).2.flag b = (usbSts.get b || shared.flag b) := by
  cases b <;> first
    | exact absurd rfl h
    | simp [handleIrq, handlerBits, flag_handleIrqBit_of_ne, flag_handleIrqBit_self]

/-! ## The runner's part -/

/-- The flags the Running poll takes, in its order. -/
def runnerSwaps : List StsBit := [.usbInt, .usbErrInt, .asyncAdvance, .portChangeDetect]

theorem ne_rollover_of_mem {b : StsBit} (h : b ∈ runnerSwaps) : b ≠ .frameListRollover := by
  rintro rfl
  simp [runnerSwaps] at h

/-! ## Interleaving -/

inductive HandlerPc where
  | idle
  | woke
  | storing (usbSts toWrite : UsbStsReg) (todo : List StsBit)
  deriving DecidableEq, Repr

/-- Where the runner is; `pending` after a poll that returned. -/
inductive RunnerPc where
  | unpolled
  | polling (todo : List StsBit)
  | pending
  deriving DecidableEq, Repr

/-- An event of the controller: its bit was not cleared since, its flag was taken since. -/
structure IrqEvent where
  kind : StsBit
  inBit : Bool
  taken : Bool
  deriving DecidableEq, Repr

structure IrqWorld where
  usbSts : UsbStsReg
  shared : IrqHandlerSharedState
  handler : HandlerPc
  runner : RunnerPc
  /-- The runner registered its waker during the call in progress, after its wake. -/
  registeredInCall : Bool
  events : List IrqEvent
  deriving DecidableEq, Repr

inductive IrqLabel where
  | event (b : StsBit)
  | wake
  | read
  | store
  | write
  | register
  | swap
  | ret
  deriving DecidableEq, Repr

namespace IrqWorld

/-- No call in progress, the runner about to start polling. -/
def start (usbSts : UsbStsReg) (shared : IrqHandlerSharedState) : IrqWorld :=
  ⟨usbSts, { shared with runnerWaker := .empty }, .idle, .unpolled, false, []⟩

def event (s : IrqWorld) (b : StsBit) : IrqWorld :=
  { s with usbSts := s.usbSts.set b, events := s.events ++ [⟨b, true, false⟩] }

/-- The write of USBSTS at the end of the handler. -/
def writeSts (s : IrqWorld) (v : UsbStsReg) : IrqWorld :=
  { s with
    usbSts := s.usbSts.writeClear v
    events := s.events.map fun e => if v.get e.kind then { e with inBit := false } else e }

def swapFlag (s : IrqWorld) (b : StsBit) : IrqWorld :=
  { s with
    shared := s.shared.setFlag false b
    events := if s.shared.flag b then
        s.events.map fun e => if e.kind = b then { e with taken := true } else e
      else s.events }

def step (s : IrqWorld) : IrqLabel → Option IrqWorld
  | .event b => some (s.event b)
  | .wake =>
    match s.handler with
    | .idle => some { s with handler := .woke, shared := s.shared.wake, registeredInCall := false }
    | _ => none
  | .read =>
    match s.handler with
    | .woke => some { s with handler := .storing s.usbSts .zero handlerBits }
    | _ => none
  | .store =>
    match s.handler with
    | .storing usbSts toWrite (b :: todo) =>
      let r := handleIrqBit usbSts (s.shared, toWrite) b
      some { s with shared := r.1, handler := .storing usbSts r.2 todo }
    | _ => none
  | .write =>
    match s.handler with
    | .storing _ toWrite [] => some { s.writeSts toWrite with handler := .idle }
    | _ => none
  | .register =>
    match s.runner with
    | .polling _ => none
    | _ => some { s with
        shared := s.shared.register
        runner := .polling runnerSwaps
        registeredInCall := s.handler ≠ .idle }
  | .swap =>
    match s.runner with
    | .polling (b :: todo) => some { s.swapFlag b with runner := .polling todo }
    | _ => none
  | .ret =>
    match s.runner with
    | .polling [] => some { s with runner := .pending }
    | _ => none

section Inversion

variable {s s' : IrqWorld}

theorem step_wake (h : s.step .wake = some s') : s.handler = .idle ∧
    s' = { s with handler := .woke, shared := s.shared.wake, registeredInCall := false } := by
  simp only [step] at h
  split at h <;> cases h
  exact ⟨‹_›, rfl⟩

theorem step_read (h : s.step .read = some s') : s.handler = .woke ∧
    s' = { s with handler := .storing s.usbSts .zero handlerBits } := by
  simp only [step] at h
  split at h <;> cases h
  exact ⟨‹_›, rfl⟩

theorem step_store (h : s.step .store = some s') : ∃ usbSts toWrite b todo,
    s.handler = .storing usbSts toWrite (b :: todo) ∧
    s' = { s with
      shared := (handleIrqBit usbSts (s.shared, toWrite) b).1
      handler := .storing usbSts (handleIrqBit usbSts (s.shared, toWrite) b).2 todo } := by
  simp only [step] at h
  split at h <;> cases h
  exact ⟨_, _, _, _, ‹_›, rfl⟩

theorem step_write (h : s.step .write = some s') : ∃ usbSts toWrite,
    s.handler = .storing usbSts toWrite [] ∧ s' = { s.writeSts toWrite with handler := .idle } := by
  simp only [step] at h
  split at h <;> cases h
  exact ⟨_, _, ‹_›, rfl⟩

theorem step_register (h : s.step .register = some s') : (∀ todo, s.runner ≠ .polling todo) ∧
    s' = { s with
      shared := s.shared.register
      runner := .polling runnerSwaps
      registeredInCall := s.handler ≠ .idle } := by
  simp only [step] at h
  split at h <;> cases h
  exact ⟨‹_›, rfl⟩

theorem step_swap (h : s.step .swap = some s') : ∃ b todo,
    s.runner = .polling (b :: todo) ∧ s' = { s.swapFlag b with runner := .polling todo } := by
  simp only [step] at h
  split at h <;> cases h
  exact ⟨_, _, ‹_›, rfl⟩

theorem step_ret (h : s.step .ret = some s') :
    s.runner = .polling [] ∧ s' = { s with runner := .pending } := by
  simp only [step] at h
  split at h <;> cases h
  exact ⟨‹_›, rfl⟩

end Inversion

end IrqWorld

/-- The flag the next step of the call stores, if it stores one. -/
def HandlerPc.nextStore : HandlerPc → Option StsBit
  | .storing usbSts _ (b :: _) => if usbSts.get b then some b else none
  | _ => none

/-- The call read `b`, is past its flag and has yet to clear it. -/
def HandlerPc.willClear : HandlerPc → StsBit → Bool
  | .storing usbSts _ todo, b => usbSts.get b && decide (b ∉ todo)
  | _, _ => false

/-- The flags the current poll has yet to take. -/
def RunnerPc.todo : RunnerPc → List StsBit
  | .polling todo => todo
  | _ => []

/-- Without interruption the steps of a call are `handleIrq`. -/
theorem exec_handleIrq {s : IrqWorld} (h : s.handler = .idle) :
    (exec IrqWorld.step s [.wake, .read, .store, .store, .store, .store, .store, .store, .write]).map
      (fun t => (t.usbSts, t.shared)) = some (handleIrq s.usbSts s.shared) := by
  simp [exec, IrqWorld.step, h, handlerBits, IrqWorld.writeSts, handleIrq]

end EzEhci
