import Mathlib.Logic.Basic

/-!
# Wakers and signals

Wakers belong to tasks (`Wakers`): waking either of two wakers that `will_wake`
each other wakes the same task. `AtomicWaker` is the single slot that one task
registers in and others wake. `Signal` is the one-slot mailbox between a client
and the runner: its operations take the lock, so each is one step, and they
return the waker they wake.
-/

namespace EzEhci

abbrev TaskId := Nat

/-- Wakers of type `W` and what the executor promises of `will_wake`. -/
class Wakers (W : Type) where
  task : W → TaskId
  willWake : W → W → Bool
  task_eq_of_willWake : ∀ {w w' : W}, willWake w w' = true → task w = task w'

structure TaskWaker where
  task : TaskId
  deriving DecidableEq, Repr

instance : Wakers TaskWaker where
  task := TaskWaker.task
  willWake w w' := w = w'
  task_eq_of_willWake h := congrArg TaskWaker.task (of_decide_eq_true h)

/-- `futures::AtomicWaker` used by one task: no waker was registered, one is, or the last one
registered was woken. -/
inductive AtomicWaker where
  | empty
  | registered
  | woken
  deriving DecidableEq, Repr

def AtomicWaker.wake : AtomicWaker → AtomicWaker
  | .registered => .woken
  | w => w

theorem AtomicWaker.wake_ne_registered (w : AtomicWaker) : w.wake ≠ .registered := by
  cases w <;> simp [AtomicWaker.wake]

theorem AtomicWaker.wake_ne_empty {w : AtomicWaker} (h : w ≠ .empty) : w.wake ≠ .empty := by
  cases w <;> simp_all [AtomicWaker.wake]

inductive Signal (W T : Type) where
  | none
  | waiting (waker : W)
  | signaled (value : T)
  deriving DecidableEq, Repr

namespace Signal

variable {W T : Type}

def isSignaled : Signal W T → Bool
  | .signaled _ => true
  | _ => false

def value? : Signal W T → Option T
  | .signaled v => some v
  | _ => Option.none

/-- `Signal::signal`, with the waker it wakes. -/
def signal (s : Signal W T) (value : T) : Signal W T × Option W :=
  match s with
  | .waiting w => (.signaled value, some w)
  | _ => (.signaled value, Option.none)

/-- What `poll_wait` leaves behind, returns and wakes. -/
structure Polled (W T : Type) where
  state : Signal W T
  ready : Option T
  woken : Option W

def pollWait [Wakers W] (s : Signal W T) (w : W) : Polled W T :=
  match s with
  | .none => ⟨.waiting w, Option.none, Option.none⟩
  | .waiting w' =>
    if Wakers.willWake w' w then ⟨.waiting w', Option.none, Option.none⟩
    else ⟨.waiting w, Option.none, some w'⟩
  | .signaled v => ⟨.none, some v, Option.none⟩

theorem pollWait_ready [Wakers W] {s : Signal W T} {w : W} {v : T} :
    (s.pollWait w).ready = some v ↔ s = .signaled v := by
  cases s with
  | waiting w' =>
    rw [pollWait]
    split <;> simp
  | _ => simp [pollWait]

theorem signal_fst (s : Signal W T) (v : T) : (s.signal v).1 = .signaled v := by
  cases s <;> rfl

@[simp] theorem value?_signal (s : Signal W T) (v : T) : (s.signal v).1.value? = some v := by
  rw [signal_fst, value?]

@[simp] theorem value?_pollWait [Wakers W] (s : Signal W T) (w : W) :
    (s.pollWait w).state.value? = Option.none := by
  cases s with
  | waiting w' =>
    rw [pollWait]
    split <;> rfl
  | _ => rfl

theorem isSignaled_eq (s : Signal W T) : s.isSignaled = s.value?.isSome := by
  cases s <;> rfl

theorem isSignaled_pollWait [Wakers W] (s : Signal W T) (w : W) :
    (s.pollWait w).state.isSignaled = false := by
  rw [isSignaled_eq, value?_pollWait, Option.isSome_none]

@[simp] theorem ready_pollWait [Wakers W] (s : Signal W T) (w : W) : (s.pollWait w).ready = s.value? := by
  cases s with
  | waiting w' =>
    rw [pollWait]
    split <;> rfl
  | _ => rfl

end Signal

end EzEhci
