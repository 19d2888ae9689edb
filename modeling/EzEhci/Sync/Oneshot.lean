import EzEhci.Lib.Run
import EzEhci.Sync.Signal

/-!
# The oneshot channel

`OneshotSender::send` writes the cell, sets `stored`, wakes the receiver and
drops its half of the shared state; `OneshotReceiver::poll` registers its
waker, loads `stored` and, if it is not set, looks whether it holds the last
reference. `Oneshot.step` interleaves these actions. The receiver's two
observations are separate: a sender that drops between them looks like one
that never sent. A sender that is dropped without sending wakes nobody, so a
receiver that waits at that moment is not polled again.
-/

namespace EzEhci

open Lib

inductive SenderPc where
  | idle
  | wrote
  | stored
  | woke
  | gone
  deriving DecidableEq, Repr

inductive RecvError where
  | mk
  deriving DecidableEq, Repr

/-- Where the receiver is. `done` holds the result of the poll: an error, or the value read from
the cell, `none` if the cell was never written. -/
inductive ReceiverPc (T : Type) where
  | unpolled
  | registered
  | loaded (stored : Bool)
  | pending
  | done (result : Except RecvError (Option T))
  deriving DecidableEq

/-- `OneshotShared` and its two holders; `sent` is the argument of `send` once it was called. -/
structure Oneshot (T : Type) where
  stored : Bool
  cell : Option T
  waker : AtomicWaker
  strongCount : Nat
  sender : SenderPc
  receiver : ReceiverPc T
  sent : Option T
  deriving DecidableEq

inductive OneshotLabel (T : Type) where
  | send (value : T)
  | store
  | wake
  | dropArc
  | dropUnsent
  | register
  | load
  | take
  | check
  deriving DecidableEq, Repr

namespace Oneshot

variable {T : Type}

/-- `oneshot()`. -/
def oneshot (T : Type) : Oneshot T :=
  ⟨false, none, .empty, 2, .idle, .unpolled, none⟩

def step (s : Oneshot T) : OneshotLabel T → Option (Oneshot T)
  | .send value =>
    match s.sender with
    | .idle => some { s with cell := some value, sender := .wrote, sent := some value }
    | _ => none
  | .store =>
    match s.sender with
    | .wrote => some { s with stored := true, sender := .stored }
    | _ => none
  | .wake =>
    match s.sender with
    | .stored => some { s with waker := s.waker.wake, sender := .woke }
    | _ => none
  | .dropArc =>
    match s.sender with
    | .woke => some { s with strongCount := s.strongCount - 1, sender := .gone }
    | _ => none
  | .dropUnsent =>
    match s.sender with
    | .idle => some { s with strongCount := s.strongCount - 1, sender := .gone }
    | _ => none
  | .register =>
    match s.receiver with
    | .unpolled | .pending => some { s with waker := .registered, receiver := .registered }
    | _ => none
  | .load =>
    match s.receiver with
    | .registered => some { s with receiver := .loaded s.stored }
    | _ => none
  | .take =>
    match s.receiver with
    | .loaded true => some { s with receiver := .done (.ok s.cell) }
    | _ => none
  | .check =>
    match s.receiver with
    | .loaded false =>
      some { s with receiver := if s.strongCount = 1 then .done (.error .mk) else .pending }
    | _ => none

/-- A receiver that resolved after `send(v)` got `v`. -/
def Delivers (s : Oneshot T) : Prop :=
  ∀ v r, s.sent = some v → s.receiver = .done r → r = .ok (some v)

/-- The sender does not drop its half between the receiver's load of `stored` and its look at the
strong count. -/
def DropsInTime (s : Oneshot T) (a : OneshotLabel T) : Prop :=
  a = .dropArc → s.receiver ≠ .loaded false

instance [DecidableEq T] (s : Oneshot T) (a : OneshotLabel T) : Decidable (s.DropsInTime a) :=
  inferInstanceAs (Decidable (_ → _ ≠ _))

/-! ## The invariant -/

/-- The protocol's state, whatever the interleaving. -/
structure Inv (s : Oneshot T) : Prop where
  count : s.strongCount = if s.sender = .gone then 1 else 2
  idle : s.sender = .idle → s.sent = none
  sending : s.sender = .wrote ∨ s.sender = .stored ∨ s.sender = .woke → s.sent ≠ none
  cell : s.sent = s.cell
  stored : s.stored = true ↔ s.sent ≠ none ∧ s.sender ≠ .wrote
  loaded : s.receiver = .loaded true → s.stored = true

/-- No error is seen or about to be seen after a `send`. -/
structure Unharmed (s : Oneshot T) : Prop where
  window : s.receiver = .loaded false → s.sender = .gone → s.sent = none
  error : s.receiver = .done (.error .mk) → s.sender = .gone ∧ s.sent = none
  ok : ∀ c, s.receiver = .done (.ok c) → c ≠ none ∧ c = s.sent

theorem Unharmed.delivers {s : Oneshot T} (h : Unharmed s) : s.Delivers := by
  rintro v (e | c) hv hr
  · rw [(h.error hr).2] at hv
    cases hv
  · rw [(h.ok c hr).2, hv]

theorem inv_oneshot : Inv (oneshot T) where
  count := rfl
  idle _ := rfl
  sending := by simp [oneshot]
  cell := rfl
  stored := by simp [oneshot]
  loaded := nofun

theorem unharmed_oneshot : Unharmed (oneshot T) := ⟨nofun, nofun, nofun⟩

theorem Inv.step {s s' : Oneshot T} {a : OneshotLabel T} (hi : Inv s) (h : s.step a = some s') :
    Inv s' := by
  obtain ⟨hcount, hidle, hsending, hcell, hstored, hloaded⟩ := hi
  cases a with
  | send value =>
    simp only [Oneshot.step] at h
    split at h <;> cases h
    rename_i hs
    -- nothing was sent before
    have hnot : s.stored ≠ true := fun ht => (hstored.mp ht).1 (hidle hs)
    refine ⟨by simpa [hs] using hcount, nofun, fun _ => nofun, rfl, ?_, hloaded⟩
    exact iff_of_false hnot fun ⟨_, hw⟩ => hw rfl
  | store =>
    simp only [Oneshot.step] at h
    split at h <;> cases h
    rename_i hs
    have hsent := hsending (.inl hs)
    exact ⟨by simpa [hs] using hcount, nofun, fun _ => hsent, hcell,
      iff_of_true rfl ⟨hsent, nofun⟩, fun _ => rfl⟩
  | wake =>
    simp only [Oneshot.step] at h
    split at h <;> cases h
    rename_i hs
    have hsent := hsending (.inr (.inl hs))
    have hstored' : s.stored = true := hstored.mpr ⟨hsent, by simp [hs]⟩
    exact ⟨by simpa [hs] using hcount, nofun, fun _ => hsent, hcell,
      iff_of_true hstored' ⟨hsent, nofun⟩, hloaded⟩
  | dropArc =>
    simp only [Oneshot.step] at h
    split at h <;> cases h
    rename_i hs
    have hsent := hsending (.inr (.inr hs))
    have hstored' : s.stored = true := hstored.mpr ⟨hsent, by simp [hs]⟩
    exact ⟨by simp [hcount, hs], nofun, nofun, hcell, iff_of_true hstored' ⟨hsent, nofun⟩, hloaded⟩
  | dropUnsent =>
    simp only [Oneshot.step] at h
    split at h <;> cases h
    rename_i hs
    have hsent := hidle hs
    refine ⟨by simp [hcount, hs], nofun, nofun, hcell, ?_, hloaded⟩
    exact iff_of_false (fun ht => (hstored.mp ht).1 hsent) fun ⟨hne, _⟩ => hne hsent
  | load =>
    simp only [Oneshot.step] at h
    split at h <;> cases h
    exact ⟨hcount, hidle, hsending, hcell, hstored, fun hr => ReceiverPc.loaded.inj hr⟩
  | register | take =>
    simp only [Oneshot.step] at h
    split at h <;> cases h <;> exact ⟨hcount, hidle, hsending, hcell, hstored, nofun⟩
  | check =>
    simp only [Oneshot.step] at h
    split at h <;> cases h
    refine ⟨hcount, hidle, hsending, hcell, hstored, fun hr => ?_⟩
    split at hr <;> cases hr

theorem Unharmed.step {s s' : Oneshot T} {a : OneshotLabel T} (hu : Unharmed s) (hi : Inv s)
    (ha : s.DropsInTime a) (h : s.step a = some s') : Unharmed s' := by
  obtain ⟨hwindow, herror, hok⟩ := hu
  cases a with
  | dropArc =>
    simp only [Oneshot.step] at h
    split at h <;> cases h
    rename_i hs
    -- a receiver that resolved to an error saw the sender gone
    refine ⟨fun hr => absurd hr (ha rfl), fun hr => ?_, hok⟩
    rw [(herror hr).1] at hs
    cases hs
  | load =>
    simp only [Oneshot.step] at h
    split at h <;> cases h
    refine ⟨fun hr hg => ?_, nofun, nofun⟩
    -- `stored` is not set although the sender is gone: nothing was sent
    simp only [ReceiverPc.loaded.injEq] at hr
    by_contra hsent
    have := hi.stored.mpr ⟨hsent, by rw [hg]; exact nofun⟩
    rw [hr] at this
    cases this
  | take =>
    simp only [Oneshot.step] at h
    split at h <;> cases h
    rename_i hr
    refine ⟨nofun, nofun, fun c hc => ?_⟩
    cases hc
    have hsent := (hi.stored.mp (hi.loaded hr)).1
    exact ⟨hi.cell ▸ hsent, hi.cell.symm⟩
  | check =>
    simp only [Oneshot.step] at h
    split at h <;> cases h
    rename_i hr
    have hgone : s.strongCount = 1 → s.sender = .gone := by
      intro hc
      by_contra hg
      rw [hi.count, if_neg hg] at hc
      cases hc
    split
    · have hg := hgone ‹_›
      exact ⟨nofun, fun _ => ⟨hg, hwindow hr hg⟩, nofun⟩
    · exact ⟨nofun, nofun, nofun⟩
  | send | store | wake | dropUnsent | register =>
    simp only [Oneshot.step] at h
    split at h <;> cases h <;> constructor <;> grind [hi.idle]

/-- **What the receiver gets.** A receiver that resolves after `send(v)` resolves to `v` in every
run in which the sender drops its half in time; where it does not, the poll in progress resolves to
an error. -/
theorem delivers_of_dropsInTime (tr : List (OneshotLabel T)) (s : Oneshot T)
    (h : exec step (oneshot T) tr = some s) :
    (Meets step DropsInTime (oneshot T) tr → s.Delivers) ∧
    ∀ a s', ¬ s.DropsInTime a → s.step a = some s' →
      ∃ s'', s'.step .check = some s'' ∧ ¬ s''.Delivers := by
  constructor
  · intro hC
    have hinv : Inv s ∧ Unharmed s := by
      refine exec_invariant_of_meets (C := DropsInTime) (I := fun s => Inv s ∧ Unharmed s)
        ⟨inv_oneshot, unharmed_oneshot⟩ ?_ hC h
      exact fun _ _ _ hi hc hs => ⟨hi.1.step hs, hi.2.step hi.1 hc hs⟩
    exact hinv.2.delivers
  · intro a s' ha hs
    have hi : Inv s := exec_invariant inv_oneshot (fun _ _ _ hi hs => hi.step hs) h
    simp only [DropsInTime, Classical.not_imp, not_not] at ha
    obtain ⟨rfl, hr⟩ := ha
    simp only [step] at hs
    split at hs <;> cases hs
    rename_i hsender
    obtain ⟨v, hv⟩ := Option.ne_none_iff_exists'.mp (hi.sending (.inr (.inr hsender)))
    have hcount : s.strongCount - 1 = 1 := by
      rw [hi.count, hsender]
      rfl
    refine ⟨_, by simp only [step, hr]; rfl, fun hd => ?_⟩
    have := hd v (.error .mk) hv (by rw [if_pos hcount])
    cases this

/-- A poll before the send and one after it. -/
theorem delivers_after_pending :
    ∃ s, exec step (oneshot Nat) [.register, .load, .send 5, .check, .store, .wake, .register,
        .dropArc, .load, .take] = some s ∧ s.receiver = .done (.ok (some 5)) ∧ s.Delivers := by
  obtain ⟨s, hs, hr⟩ := exec_witness step (oneshot Nat)
    [.register, .load, .send 5, .check, .store, .wake, .register, .dropArc, .load, .take]
    (fun s => s.receiver = .done (.ok (some 5))) (by decide +kernel)
  exact ⟨s, hs, hr, (delivers_of_dropsInTime _ s hs).1 (by decide +kernel)⟩

/-- The whole `send` falls between the load of `stored` and the look at the strong count. -/
theorem not_delivers_between :
    ¬ ∀ (T : Type) (tr : List (OneshotLabel T)) (s : Oneshot T),
      exec step (oneshot T) tr = some s → s.Delivers := by
  intro h
  obtain ⟨s, hs, hsent, hr⟩ := exec_witness step (oneshot Nat)
    [.register, .load, .send 5, .store, .wake, .dropArc, .check]
    (fun s => s.sent = some 5 ∧ s.receiver = .done (.error .mk)) (by decide +kernel)
  have := h Nat _ s hs 5 _ hsent hr
  cases this

/-! ## A sender that is dropped -/

/-- What a poll resolves to when the sender is gone. -/
def outcome (s : Oneshot T) : Except RecvError (Option T) :=
  match s.sent with
  | some v => .ok (some v)
  | none => .error .mk

/-- A receiver whose last poll returned `Pending` is woken when the sender is gone, and resolves when it is
polled again. -/
def DropNoticed (s : Oneshot T) : Prop :=
  s.sender = .gone → s.receiver = .pending → s.waker = .woken ∧
    ∃ a ∈ [OneshotLabel.take, .check], ∃ s', exec step s [.register, .load, a] = some s' ∧
      s'.receiver = .done s.outcome

/-- The sender is not dropped unsent while the receiver waits. -/
def NotWaitedFor (s : Oneshot T) (a : OneshotLabel T) : Prop :=
  a = .dropUnsent → s.receiver ≠ .pending

instance [DecidableEq T] (s : Oneshot T) (a : OneshotLabel T) : Decidable (s.NotWaitedFor a) :=
  inferInstanceAs (Decidable (_ → _ ≠ _))

/-- The waker of a receiver in a poll or behind one. -/
structure WakerInv (s : Oneshot T) : Prop where
  empty : s.receiver ≠ .unpolled → s.waker ≠ .empty
  early : s.sender = .idle ∨ s.sender = .wrote ∨ s.sender = .stored → s.waker ≠ .woken

/-- A receiver that found nothing is woken, unless it is about to see that the sender is gone. -/
def Noticed (s : Oneshot T) : Prop :=
  s.sender = .woke ∨ s.sender = .gone →
    (s.receiver = .pending → s.waker = .woken) ∧
    (s.receiver = .loaded false → s.waker = .woken ∨ s.sender = .gone ∧ s.sent = none)

theorem wakerInv_oneshot : WakerInv (oneshot T) := ⟨fun h => absurd rfl h, fun _ hw => by cases hw⟩

theorem noticed_oneshot : Noticed (oneshot T) := by simp [Noticed, oneshot]

theorem WakerInv.step {s s' : Oneshot T} {a : OneshotLabel T} (hw : WakerInv s)
    (h : s.step a = some s') : WakerInv s' := by
  obtain ⟨hempty, hearly⟩ := hw
  cases a with
  | send value =>
    simp only [Oneshot.step] at h
    split at h <;> cases h
    rename_i hs
    exact ⟨hempty, fun _ => hearly (.inl hs)⟩
  | store =>
    simp only [Oneshot.step] at h
    split at h <;> cases h
    rename_i hs
    exact ⟨hempty, fun _ => hearly (.inr (.inl hs))⟩
  | wake =>
    simp only [Oneshot.step] at h
    split at h <;> cases h
    refine ⟨fun hr => ?_, fun hs => by simp at hs⟩
    have hne := hempty hr
    cases hwaker : s.waker <;> simp_all [AtomicWaker.wake]
  | dropArc | dropUnsent =>
    simp only [Oneshot.step] at h
    split at h <;> cases h
    exact ⟨hempty, fun hs => by simp at hs⟩
  | register =>
    simp only [Oneshot.step] at h
    split at h <;> cases h <;> exact ⟨fun _ hw => (by cases hw), fun _ hw => by cases hw⟩
  | load | take | check =>
    -- the receiver was polled before
    simp only [Oneshot.step] at h
    split at h <;> cases h
    rename_i hr
    exact ⟨fun _ => hempty (by simp [hr]), hearly⟩

theorem Noticed.step {s s' : Oneshot T} {a : OneshotLabel T} (hn : Noticed s) (hi : Inv s)
    (hw : WakerInv s) (ha : s.NotWaitedFor a) (h : s.step a = some s') : Noticed s' := by
  cases a with
  | send | store =>
    simp only [Oneshot.step] at h
    split at h <;> cases h
    exact fun hs => by simp at hs
  | wake =>
    simp only [Oneshot.step] at h
    split at h <;> cases h
    -- a receiver that was polled has a waker registered, and it is woken
    have hwoken : s.receiver ≠ .unpolled → s.waker.wake = .woken := by
      intro hr
      have hne := hw.empty hr
      cases hwaker : s.waker <;> simp_all [AtomicWaker.wake]
    refine fun _ => ⟨fun hr => hwoken fun hu => ?_, fun hr => .inl (hwoken fun hu => ?_)⟩
    · cases hu.symm.trans hr
    · cases hu.symm.trans hr
  | dropArc =>
    simp only [Oneshot.step] at h
    split at h <;> cases h
    rename_i hs
    obtain ⟨hpending, hloaded⟩ := hn (.inl hs)
    refine fun _ => ⟨hpending, fun hr => ?_⟩
    rcases hloaded hr with hwoken | ⟨hgone, -⟩
    · exact .inl hwoken
    · rw [hs] at hgone
      cases hgone
  | dropUnsent =>
    simp only [Oneshot.step] at h
    split at h <;> cases h
    rename_i hs
    exact fun _ => ⟨fun hr => absurd hr (ha rfl), fun _ => .inr ⟨rfl, hi.idle hs⟩⟩
  | register | take =>
    simp only [Oneshot.step] at h
    split at h <;> cases h <;> exact fun _ => ⟨fun hp => (by cases hp), fun hl => (by cases hl)⟩
  | load =>
    simp only [Oneshot.step] at h
    split at h <;> cases h
    refine fun hs => ⟨fun hp => (by cases hp), fun hr => .inr ?_⟩
    -- nothing is stored although the sender is through: it never sent
    simp only [ReceiverPc.loaded.injEq] at hr
    have hsent : s.sent = none := by
      by_contra hne
      have := hi.stored.mpr ⟨hne, by rcases hs with hs | hs <;> simp_all⟩
      rw [hr] at this
      cases this
    refine ⟨hs.resolve_left fun hwoke => ?_, hsent⟩
    exact hi.sending (.inr (.inr hwoke)) hsent
  | check =>
    simp only [Oneshot.step] at h
    split at h <;> cases h
    rename_i hr
    refine fun hs => ⟨fun hp => ?_, fun hl => ?_⟩
    · split at hp
      · cases hp
      next hcount =>
        have hgone : s.sender ≠ .gone := fun hg => hcount (by rw [hi.count, if_pos hg])
        rcases (hn hs).2 hr with hwoken | ⟨hg, -⟩
        · exact hwoken
        · exact absurd hg hgone
    · split at hl <;> cases hl

/-- The next poll of a receiver that waits for a sender that is gone. -/
theorem Inv.resolves {s : Oneshot T} (hi : Inv s) (hs : s.sender = .gone) (hr : s.receiver = .pending) :
    ∃ a ∈ [OneshotLabel.take, .check], ∃ s', exec Oneshot.step s [.register, .load, a] = some s' ∧
      s'.receiver = .done s.outcome := by
  cases hsent : s.sent with
  | some v =>
    have hstored : s.stored = true := hi.stored.mpr ⟨by simp [hsent], by simp [hs]⟩
    have hcell : s.cell = some v := hi.cell ▸ hsent
    refine ⟨.take, by simp, _, by simp only [exec, Oneshot.step, hr, hstored, Option.bind_some]; rfl, ?_⟩
    simp only [outcome, hsent, hcell]
  | none =>
    have hstored : s.stored = false := by
      by_contra hne
      exact (hi.stored.mp (by simpa using hne)).1 hsent
    have hcount : s.strongCount = 1 := by rw [hi.count, if_pos hs]
    refine ⟨.check, by simp, _, by simp only [exec, Oneshot.step, hr, hstored, Option.bind_some]; rfl, ?_⟩
    simp only [outcome, hsent, hcount, if_true]

/-- **When a dropped sender is noticed.** In every run in which the sender is not dropped unsent while the
receiver waits, a receiver that waits for a sender that is gone was woken and resolves at its next poll;
where the sender is dropped so, the receiver is not woken. -/
theorem dropNoticed_of_notWaitedFor (tr : List (OneshotLabel T)) (s : Oneshot T)
    (h : exec step (oneshot T) tr = some s) :
    (Meets step NotWaitedFor (oneshot T) tr → s.DropNoticed) ∧
    ∀ a s', ¬ s.NotWaitedFor a → s.step a = some s' → ¬ s'.DropNoticed := by
  constructor
  · intro hC
    obtain ⟨hi, -, hn⟩ : Inv s ∧ WakerInv s ∧ Noticed s := by
      refine exec_invariant_of_meets (C := NotWaitedFor) (I := fun s => Inv s ∧ WakerInv s ∧ Noticed s)
        ⟨inv_oneshot, wakerInv_oneshot, noticed_oneshot⟩ ?_ hC h
      exact fun _ _ _ ⟨hi, hw, hn⟩ hc hs => ⟨hi.step hs, hw.step hs, hn.step hi hw hc hs⟩
    exact fun hs hr => ⟨(hn (.inr hs)).1 hr, hi.resolves hs hr⟩
  · intro a s' ha hs hnoticed
    have hw : WakerInv s := exec_invariant wakerInv_oneshot (fun _ _ _ hw hs => hw.step hs) h
    simp only [NotWaitedFor, Classical.not_imp, not_not] at ha
    obtain ⟨rfl, hr⟩ := ha
    simp only [step] at hs
    split at hs <;> cases hs
    rename_i hsender
    exact hw.early (.inl hsender) (hnoticed rfl hr).1

/-- A receiver that waits and is sent a value. -/
theorem dropNoticed_after_send :
    ∃ s, exec step (oneshot Nat) [.register, .load, .check, .send 5, .store, .wake, .dropArc] = some s ∧
      s.sender = .gone ∧ s.receiver = .pending ∧ s.DropNoticed := by
  obtain ⟨s, hs, hgone, hr⟩ := exec_witness step (oneshot Nat)
    [.register, .load, .check, .send 5, .store, .wake, .dropArc]
    (fun s => s.sender = .gone ∧ s.receiver = .pending) (by decide +kernel)
  exact ⟨s, hs, hgone, hr, (dropNoticed_of_notWaitedFor _ s hs).1 (by decide +kernel)⟩

/-- The receiver waits, and the sender is dropped. -/
theorem not_dropNoticed_waiting :
    ¬ ∀ (T : Type) (tr : List (OneshotLabel T)) (s : Oneshot T),
      exec step (oneshot T) tr = some s → s.DropNoticed := by
  intro h
  obtain ⟨s, hs, hgone, hr, hwaker⟩ := exec_witness step (oneshot Nat)
    [.register, .load, .check, .dropUnsent]
    (fun s => s.sender = .gone ∧ s.receiver = .pending ∧ s.waker = .registered) (by decide +kernel)
  have hwoken := (h Nat _ s hs hgone hr).1
  rw [hwaker] at hwoken
  cases hwoken

end Oneshot

end EzEhci
