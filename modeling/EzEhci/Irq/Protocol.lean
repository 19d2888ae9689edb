import EzEhci.Irq.Handler

/-!
# The wake-up and event protocol between handler and runner

`handle_irq` wakes the runner first, then publishes the flags, then clears the
status bits. Two things go wrong when the runner is on another core: a poll
that runs between the wake and a flag's store goes to sleep on the flag
(`NoLostWake`), and an event that arrives between a flag's store and the write
of USBSTS is cleared with the one before it (`NoLostEvent`). Both are
characterised by the step that makes the difference: the run is safe as long
as no such step is taken, and after such a step it can end in a loss.
-/

namespace EzEhci

open Lib

/-! ## Wake-ups -/

/-- A runner that sleeps on a set flag was woken, unless a call is still in progress. -/
def NoLostWake (s : IrqWorld) : Prop :=
  s.handler = .idle → s.runner = .pending → (∃ b ∈ runnerSwaps, s.shared.flag b = true) →
    s.shared.runnerWaker = .woken

/-- A flag is stored in time: a runner that registered during the call has yet to take it. -/
def StoresInTime (s : IrqWorld) (a : IrqLabel) : Prop :=
  a = .store → ∀ b ∈ s.handler.nextStore, b ∈ runnerSwaps → s.registeredInCall = true →
    b ∈ s.runner.todo

instance (s : IrqWorld) (a : IrqLabel) : Decidable (StoresInTime s a) :=
  inferInstanceAs (Decidable (_ → ∀ b ∈ s.handler.nextStore, _))

/-- What holds of the waker in every reachable state. -/
structure WakerInv (s : IrqWorld) : Prop where
  polled : s.runner ≠ .unpolled → s.shared.runnerWaker ≠ .empty
  inCall : s.handler ≠ .idle → s.registeredInCall = false → s.shared.runnerWaker ≠ .registered
  sinceWake : s.handler ≠ .idle → s.registeredInCall = true →
    s.shared.runnerWaker = .registered ∧ s.runner ≠ .unpolled

theorem wakerInv_start (usbSts : UsbStsReg) (shared : IrqHandlerSharedState) :
    WakerInv (.start usbSts shared) :=
  ⟨fun h => absurd rfl h, fun h => absurd rfl h, fun h => absurd rfl h⟩

theorem WakerInv.step {s s' : IrqWorld} {a : IrqLabel} (hi : WakerInv s)
    (h : s.step a = some s') : WakerInv s' := by
  cases a with
  | event b =>
    cases h
    exact ⟨hi.polled, hi.inCall, hi.sinceWake⟩
  | wake =>
    obtain ⟨-, rfl⟩ := IrqWorld.step_wake h
    exact ⟨fun hr => AtomicWaker.wake_ne_empty (hi.polled hr),
      fun _ _ => AtomicWaker.wake_ne_registered _, fun _ hc => by cases hc⟩
  | read =>
    obtain ⟨hh, rfl⟩ := IrqWorld.step_read h
    have hne : s.handler ≠ .idle := by rw [hh]; exact nofun
    exact ⟨hi.polled, fun _ => hi.inCall hne, fun _ => hi.sinceWake hne⟩
  | store =>
    obtain ⟨usbSts, toWrite, b, todo, hh, rfl⟩ := IrqWorld.step_store h
    have hne : s.handler ≠ .idle := by rw [hh]; exact nofun
    refine ⟨fun hr => ?_, fun _ hc => ?_, fun _ hc => ?_⟩ <;> simp only [runnerWaker_handleIrqBit]
    · exact hi.polled hr
    · exact hi.inCall hne hc
    · exact hi.sinceWake hne hc
  | write =>
    obtain ⟨usbSts, toWrite, -, rfl⟩ := IrqWorld.step_write h
    exact ⟨hi.polled, fun hn => absurd rfl hn, fun hn => absurd rfl hn⟩
  | register =>
    obtain ⟨-, rfl⟩ := IrqWorld.step_register h
    refine ⟨fun _ => nofun, fun hn hc => ?_, fun _ _ => ⟨rfl, nofun⟩⟩
    exact absurd (not_not.mp (of_decide_eq_false hc)) hn
  | swap =>
    obtain ⟨b, todo, hr, rfl⟩ := IrqWorld.step_swap h
    have hne : s.runner ≠ .unpolled := by rw [hr]; exact nofun
    refine ⟨fun _ => ?_, fun hn hc => ?_, fun hn hc => ⟨?_, nofun⟩⟩ <;>
      simp only [IrqWorld.swapFlag, IrqHandlerSharedState.runnerWaker_setFlag]
    · exact hi.polled hne
    · exact hi.inCall hn hc
    · exact (hi.sinceWake hn hc).1
  | ret =>
    obtain ⟨hr, rfl⟩ := IrqWorld.step_ret h
    have hne : s.runner ≠ .unpolled := by rw [hr]; exact nofun
    exact ⟨fun _ => hi.polled hne, hi.inCall, fun hn hc => ⟨(hi.sinceWake hn hc).1, nofun⟩⟩

/-- A set flag of a runner that was not woken is still to be taken. -/
def FlagsInReach (s : IrqWorld) : Prop :=
  ∀ b ∈ runnerSwaps, s.shared.flag b = true → s.shared.runnerWaker = .registered →
    b ∈ s.runner.todo

theorem FlagsInReach.store {s s' : IrqWorld} (hi : FlagsInReach s) (hw : WakerInv s)
    (hc : StoresInTime s .store) (h : s.step .store = some s') : FlagsInReach s' := by
  obtain ⟨usbSts, toWrite, b, todo, hh, rfl⟩ := IrqWorld.step_store h
  intro c hc' hf hreg
  simp only [runnerWaker_handleIrqBit] at hreg
  by_cases hcb : c = b
  · subst hcb
    rw [flag_handleIrqBit_self _ _ (ne_rollover_of_mem hc'), Bool.or_eq_true] at hf
    rcases hf with hget | hf
    · -- the flag just stored: a runner that registered since the wake has yet to take it
      refine hc rfl c (by simp [hh, HandlerPc.nextStore, hget]) hc' ?_
      by_contra hcall
      exact hw.inCall (by rw [hh]; exact nofun) (by simpa using hcall) hreg
    · exact hi c hc' hf hreg
  · rw [flag_handleIrqBit_of_ne _ _ hcb] at hf
    exact hi c hc' hf hreg

theorem FlagsInReach.swap {s s' : IrqWorld} (hi : FlagsInReach s) (h : s.step .swap = some s') :
    FlagsInReach s' := by
  obtain ⟨b, todo, hr, rfl⟩ := IrqWorld.step_swap h
  intro c hc' hf hreg
  simp only [IrqWorld.swapFlag, IrqHandlerSharedState.runnerWaker_setFlag] at hf hreg
  have hcb : c ≠ b := by
    rintro rfl
    rw [IrqHandlerSharedState.flag_setFlag _ _ (ne_rollover_of_mem hc')] at hf
    cases hf
  rw [IrqHandlerSharedState.flag_setFlag_of_ne _ _ hcb] at hf
  have := hi c hc' hf hreg
  rw [hr] at this
  exact (List.mem_cons.mp this).resolve_left hcb

theorem FlagsInReach.step {s s' : IrqWorld} {a : IrqLabel} (hi : FlagsInReach s)
    (hw : WakerInv s) (hc : StoresInTime s a) (h : s.step a = some s') : FlagsInReach s' := by
  cases a with
  | event b =>
    cases h
    exact hi
  | wake =>
    obtain ⟨-, rfl⟩ := IrqWorld.step_wake h
    exact fun b _ _ hreg => absurd hreg (AtomicWaker.wake_ne_registered _)
  | read =>
    obtain ⟨-, rfl⟩ := IrqWorld.step_read h
    exact hi
  | store => exact hi.store hw hc h
  | write =>
    obtain ⟨usbSts, toWrite, -, rfl⟩ := IrqWorld.step_write h
    exact hi
  | register =>
    obtain ⟨-, rfl⟩ := IrqWorld.step_register h
    exact fun b hb _ _ => hb
  | swap => exact hi.swap h
  | ret =>
    obtain ⟨hr, rfl⟩ := IrqWorld.step_ret h
    intro c hc' hf hreg
    have := hi c hc' hf hreg
    rwa [hr] at this

theorem FlagsInReach.noLostWake {s : IrqWorld} (hi : FlagsInReach s) (hw : WakerInv s) :
    NoLostWake s := by
  rintro - hr ⟨b, hb, hf⟩
  have hne := hw.polled (by rw [hr]; exact nofun)
  cases hwk : s.shared.runnerWaker with
  | empty => exact absurd hwk hne
  | registered =>
    have := hi b hb hf hwk
    rw [hr] at this
    cases this
  | woken => rfl

/-! ### Letting both sides finish -/

theorem exec_stores {s : IrqWorld} {usbSts toWrite : UsbStsReg} {todo : List StsBit}
    (h : s.handler = .storing usbSts toWrite todo) :
    ∃ s' toWrite', exec IrqWorld.step s (List.replicate todo.length .store) = some s' ∧
      s'.handler = .storing usbSts toWrite' [] ∧ s'.runner = s.runner ∧ s'.events = s.events ∧
      s'.shared.runnerWaker = s.shared.runnerWaker ∧
      (∀ c, s.shared.flag c = true → s'.shared.flag c = true) ∧
      (∀ c ∉ todo, s'.shared.flag c = s.shared.flag c) ∧
      ∀ c, toWrite.get c = true → toWrite'.get c = true := by
  induction todo generalizing s toWrite with
  | nil => exact ⟨s, toWrite, rfl, h, rfl, rfl, rfl, fun _ hc => hc, fun _ _ => rfl, fun _ hc => hc⟩
  | cons b todo ih =>
    obtain ⟨r, hr⟩ : ∃ r, r = handleIrqBit usbSts (s.shared, toWrite) b := ⟨_, rfl⟩
    obtain ⟨s', t', he, hh, hrun, hev, hwk, hf, hne, ht⟩ :=
      ih (s := { s with shared := r.1, handler := .storing usbSts r.2 todo }) rfl
    refine ⟨s', t', ?_, hh, hrun, hev, ?_, fun c hc => hf c ?_, fun c hc => ?_, fun c hc => ht c ?_⟩
    · simp only [List.length_cons, List.replicate_succ, exec, IrqWorld.step, h, Option.bind_some]
      rw [← hr]
      exact he
    · rw [hwk, hr, runnerWaker_handleIrqBit]
    · rw [hr]
      exact flag_handleIrqBit_mono _ _ _ hc
    · rw [List.mem_cons, not_or] at hc
      rw [hne c hc.2, hr]
      exact flag_handleIrqBit_of_ne _ _ hc.1
    · rw [hr, toWrite_handleIrqBit, hc, Bool.or_true]

theorem exec_swaps {s : IrqWorld} {todo : List StsBit} (h : s.runner = .polling todo) :
    ∃ s', exec IrqWorld.step s (List.replicate todo.length .swap) = some s' ∧
      s'.runner = .polling [] ∧ s'.handler = s.handler ∧
      s'.shared.runnerWaker = s.shared.runnerWaker ∧
      ∀ c ∉ todo, s'.shared.flag c = s.shared.flag c := by
  induction todo generalizing s with
  | nil => exact ⟨s, rfl, h, rfl, rfl, fun _ _ => rfl⟩
  | cons b todo ih =>
    obtain ⟨s', he, hr, hh, hwk, hf⟩ := ih (s := { s.swapFlag b with runner := .polling todo }) rfl
    refine ⟨s', ?_, hr, hh, ?_, fun c hc => ?_⟩
    · simp only [List.length_cons, List.replicate_succ, exec, IrqWorld.step, h, Option.bind_some]
      exact he
    · simp only [hwk, IrqWorld.swapFlag, IrqHandlerSharedState.runnerWaker_setFlag]
    · rw [List.mem_cons, not_or] at hc
      rw [hf c hc.2]
      exact IrqHandlerSharedState.flag_setFlag_of_ne _ _ hc.1

/-- A flag that the runner passed stays set while the call and the poll finish. -/
theorem exists_lostWake {s : IrqWorld} {usbSts toWrite : UsbStsReg} {todo : List StsBit} {b : StsBit}
    (hh : s.handler = .storing usbSts toWrite todo) (hb : b ∈ runnerSwaps)
    (hf : s.shared.flag b = true) (hwk : s.shared.runnerWaker = .registered)
    (hr : s.runner ≠ .unpolled) (hpast : b ∉ s.runner.todo) :
    ∃ tr s', exec IrqWorld.step s tr = some s' ∧ ¬ NoLostWake s' := by
  obtain ⟨s₁, t₁, he₁, hh₁, hr₁, -, hwk₁, hf₁, -, -⟩ := exec_stores hh
  obtain ⟨s₂, hs₂⟩ : ∃ s₂, s₂ = { s₁.writeSts t₁ with handler := .idle } := ⟨_, rfl⟩
  have he₂ : exec IrqWorld.step s (List.replicate todo.length .store ++ [.write]) = some s₂ :=
    exec_snoc_iff.mpr ⟨s₁, he₁, by simp [IrqWorld.step, hh₁, hs₂]⟩
  have hr₂ : s₂.runner = s.runner := by rw [hs₂]; exact hr₁
  have hf₂ : s₂.shared.flag b = true := by rw [hs₂]; exact hf₁ b hf
  have hwk₂ : s₂.shared.runnerWaker = .registered := by rw [hs₂]; exact hwk₁.trans hwk
  cases hrun : s.runner with
  | unpolled => exact absurd hrun hr
  | pending =>
    refine ⟨_, s₂, he₂, fun hn => ?_⟩
    have := hn (by rw [hs₂]) (hr₂.trans hrun) ⟨b, hb, hf₂⟩
    rw [hwk₂] at this
    cases this
  | polling swaps =>
    rw [hrun] at hpast
    obtain ⟨s₃, he₃, hr₃, hh₃, hwk₃, hf₃⟩ := exec_swaps (hr₂.trans hrun)
    have he₄ : exec IrqWorld.step s₂ (List.replicate swaps.length .swap ++ [.ret]) =
        some { s₃ with runner := .pending } :=
      exec_snoc_iff.mpr ⟨s₃, he₃, by simp [IrqWorld.step, hr₃]⟩
    refine ⟨_, _, exec_trans he₂ he₄, fun hn => ?_⟩
    have hfb : s₃.shared.flag b = true := (hf₃ b hpast).trans hf₂
    have := hn (hh₃.trans (by rw [hs₂])) rfl ⟨b, hb, hfb⟩
    simp only [hwk₃, hwk₂] at this
    cases this

/-- **Wake-ups of the runner.** No wake-up is lost in a run whose flags are stored in time, and
after a flag that is not, the call and the poll can finish with the runner asleep on it. -/
theorem noLostWake_of_storesInTime (usbSts : UsbStsReg) (shared : IrqHandlerSharedState)
    (tr : List IrqLabel) (s : IrqWorld)
    (h : exec IrqWorld.step (.start usbSts shared) tr = some s) :
    (Meets IrqWorld.step StoresInTime (.start usbSts shared) tr → NoLostWake s) ∧
    ∀ a s', ¬ StoresInTime s a → s.step a = some s' →
      ∃ tr' s'', exec IrqWorld.step s' tr' = some s'' ∧ ¬ NoLostWake s'' := by
  have hinv : WakerInv s :=
    exec_invariant (wakerInv_start usbSts shared) (fun _ _ _ hi hs => hi.step hs) h
  constructor
  · intro hC
    have hreach : WakerInv s ∧ FlagsInReach s := by
      refine exec_invariant_of_meets (C := StoresInTime) (I := fun s => WakerInv s ∧ FlagsInReach s)
        ⟨wakerInv_start usbSts shared, fun _ _ _ hreg => by cases hreg⟩ ?_ hC h
      exact fun _ _ _ hi hc hs => ⟨hi.1.step hs, hi.2.step hi.1 hc hs⟩
    exact hreach.2.noLostWake hreach.1
  · intro a s' hc hs
    simp only [StoresInTime, not_forall] at hc
    obtain ⟨rfl, b, hnext, hb, hcall, hpast⟩ := hc
    obtain ⟨u, t, b', todo, hh, rfl⟩ := IrqWorld.step_store hs
    obtain ⟨hwk, hr⟩ := hinv.sinceWake (by rw [hh]; exact nofun) hcall
    obtain ⟨hget, rfl⟩ : u.get b' = true ∧ b' = b := by
      simp only [hh, HandlerPc.nextStore] at hnext
      split at hnext
      · exact ⟨‹_›, by simpa using hnext⟩
      · cases hnext
    refine exists_lostWake rfl hb ?_ ?_ hr hpast
    · rw [flag_handleIrqBit_self _ _ (ne_rollover_of_mem hb), hget, Bool.true_or]
    · rw [runnerWaker_handleIrqBit, hwk]

/-- A call that runs while the runner sleeps. -/
theorem noLostWake_asleep :
    ∃ s, exec IrqWorld.step (.start .zero .default)
        [.register, .swap, .swap, .swap, .swap, .ret, .event .usbInt, .wake, .read, .store, .store,
          .store, .store, .store, .store, .write] = some s ∧
      s.handler = .idle ∧ s.runner = .pending ∧ s.shared.flag .usbInt = true ∧ NoLostWake s := by
  obtain ⟨s, hs, hh, hr, hf⟩ := exec_witness IrqWorld.step (.start .zero .default)
    [.register, .swap, .swap, .swap, .swap, .ret, .event .usbInt, .wake, .read, .store,
      .store, .store, .store, .store, .store, .write]
    (fun s => s.handler = .idle ∧ s.runner = .pending ∧ s.shared.flag .usbInt = true)
    (by decide +kernel)
  exact ⟨s, hs, hh, hr, hf, (noLostWake_of_storesInTime _ _ _ s hs).1 (by decide +kernel)⟩

/-- The runner polls between the wake and the store: it sleeps on the flag. -/
theorem not_noLostWake_interleaved :
    ¬ ∀ (usbSts : UsbStsReg) (shared : IrqHandlerSharedState) (tr : List IrqLabel) (s : IrqWorld),
      exec IrqWorld.step (.start usbSts shared) tr = some s → NoLostWake s := by
  intro h
  obtain ⟨s, hs, hh, hr, hf, hwk⟩ := exec_witness IrqWorld.step
    (.start .zero .default)
    [.register, .swap, .swap, .swap, .swap, .ret, .event .usbInt, .wake, .register, .swap,
      .swap, .swap, .swap, .ret, .read, .store, .store, .store, .store, .store, .store, .write]
    (fun s => s.handler = .idle ∧ s.runner = .pending ∧ s.shared.flag .usbInt = true ∧
      s.shared.runnerWaker = .registered) (by decide +kernel)
  have := h _ _ _ s hs hh hr ⟨.usbInt, by decide, hf⟩
  rw [hwk] at this
  cases this

/-! ## Events -/

/-- Every event is still in its status bit, or in its flag, or its flag was taken since. -/
def NoLostEvent (s : IrqWorld) : Prop :=
  ∀ e ∈ s.events, e.kind ∈ runnerSwaps → e.inBit = true ∨ s.shared.flag e.kind = true ∨
    e.taken = true

/-- An event comes in time: not while a call that published its kind has yet to clear the bit and
the runner already took the flag. -/
def EventsInTime (s : IrqWorld) : IrqLabel → Prop
  | .event b => b ∈ runnerSwaps → s.handler.willClear b = true → s.shared.flag b = true
  | _ => True

instance (s : IrqWorld) : (a : IrqLabel) → Decidable (EventsInTime s a)
  | .event b => inferInstanceAs (Decidable (b ∈ runnerSwaps → _ → _))
  | .wake | .read | .store | .write | .register | .swap | .ret => inferInstanceAs (Decidable True)

/-- What the call in progress will write to USBSTS: the bits it read and has passed. -/
def ToWriteInv (s : IrqWorld) : Prop :=
  ∀ usbSts toWrite todo, s.handler = .storing usbSts toWrite todo →
    todo.Nodup ∧ ∀ b, toWrite.get b = s.handler.willClear b

theorem mem_handlerBits (b : StsBit) : b ∈ handlerBits := by cases b <;> decide

theorem ToWriteInv.step {s s' : IrqWorld} {a : IrqLabel} (hi : ToWriteInv s)
    (h : s.step a = some s') : ToWriteInv s' := by
  cases a with
  | event b => cases h; exact hi
  | wake => obtain ⟨-, rfl⟩ := IrqWorld.step_wake h; exact nofun
  | read =>
    obtain ⟨-, rfl⟩ := IrqWorld.step_read h
    rintro u t todo ⟨⟩
    exact ⟨by decide, fun b => by simp [HandlerPc.willClear, mem_handlerBits]⟩
  | store =>
    obtain ⟨u, t, b, todo, hh, rfl⟩ := IrqWorld.step_store h
    obtain ⟨hnd, ht⟩ := hi _ _ _ hh
    rw [List.nodup_cons] at hnd
    rintro u' t' todo' ⟨⟩
    refine ⟨hnd.2, fun c => ?_⟩
    rw [toWrite_handleIrqBit, ht, hh]
    by_cases hc : c = b
    · subst hc
      simp [HandlerPc.willClear, hnd.1]
    · simp [HandlerPc.willClear, hc]
  | write => obtain ⟨u, t, -, rfl⟩ := IrqWorld.step_write h; exact nofun
  | register => obtain ⟨-, rfl⟩ := IrqWorld.step_register h; exact hi
  | swap => obtain ⟨b, todo, -, rfl⟩ := IrqWorld.step_swap h; exact hi
  | ret => obtain ⟨-, rfl⟩ := IrqWorld.step_ret h; exact hi

/-- An event whose bit is about to be cleared is in its flag or was taken. -/
def ClearsRecorded (s : IrqWorld) : Prop :=
  ∀ e ∈ s.events, e.kind ∈ runnerSwaps → e.inBit = true → s.handler.willClear e.kind = true →
    s.shared.flag e.kind = true ∨ e.taken = true

theorem swapFlag_events {s : IrqWorld} {b : StsBit} {e : IrqEvent}
    (he : e ∈ (s.swapFlag b).events) : ∃ e₀ ∈ s.events, e.kind = e₀.kind ∧ e.inBit = e₀.inBit ∧
      (s.shared.flag e₀.kind = true ∨ e₀.taken = true → e₀.kind ∈ runnerSwaps →
        (s.swapFlag b).shared.flag e.kind = true ∨ e.taken = true) := by
  simp only [IrqWorld.swapFlag] at he ⊢
  by_cases hf : s.shared.flag b = true
  · rw [if_pos hf] at he
    obtain ⟨e₀, he₀, rfl⟩ := List.mem_map.mp he
    refine ⟨e₀, he₀, ?_, ?_, fun h hk => ?_⟩
    · split <;> rfl
    · split <;> rfl
    · by_cases hb : e₀.kind = b
      · rw [if_pos hb]
        exact .inr rfl
      · rw [if_neg hb, IrqHandlerSharedState.flag_setFlag_of_ne _ _ hb]
        exact h
  · rw [if_neg hf] at he
    refine ⟨e, he, rfl, rfl, fun h hk => h.imp_left fun h => ?_⟩
    have hb : e.kind ≠ b := by
      rintro rfl
      exact hf h
    rwa [IrqHandlerSharedState.flag_setFlag_of_ne _ _ hb]

/-- An event that no write of USBSTS cleared still has its status bit. -/
def HasBits (s : IrqWorld) : Prop := ∀ e ∈ s.events, e.inBit = true → s.usbSts.get e.kind = true

theorem HasBits.step {s s' : IrqWorld} {a : IrqLabel} (hb : HasBits s) (h : s.step a = some s') :
    HasBits s' := by
  cases a with
  | event b =>
    cases h
    intro e he hin
    simp only [IrqWorld.event, UsbStsReg.get_set, Bool.or_eq_true, decide_eq_true_eq]
    rcases List.mem_append.mp he with he | he
    · exact .inr (hb e he hin)
    · rw [List.mem_singleton.mp he]
      exact .inl rfl
  | wake => obtain ⟨-, rfl⟩ := IrqWorld.step_wake h; exact hb
  | read => obtain ⟨-, rfl⟩ := IrqWorld.step_read h; exact hb
  | store => obtain ⟨u, t, b, todo, -, rfl⟩ := IrqWorld.step_store h; exact hb
  | write =>
    obtain ⟨u, t, -, rfl⟩ := IrqWorld.step_write h
    intro e he hin
    obtain ⟨e₀, he₀, rfl⟩ := List.mem_map.mp he
    by_cases hclear : t.get e₀.kind = true
    · rw [if_pos hclear] at hin
      cases hin
    · rw [if_neg hclear] at hin ⊢
      rw [Bool.not_eq_true] at hclear
      simp only [IrqWorld.writeSts, UsbStsReg.get_writeClear, hb e₀ he₀ hin, hclear, Bool.not_false,
        Bool.and_true]
  | register => obtain ⟨-, rfl⟩ := IrqWorld.step_register h; exact hb
  | swap =>
    obtain ⟨b, todo, -, rfl⟩ := IrqWorld.step_swap h
    intro e he hin
    obtain ⟨e₀, he₀, hkind, hbit, -⟩ := swapFlag_events he
    rw [hkind]
    exact hb e₀ he₀ (hbit ▸ hin)
  | ret => obtain ⟨-, rfl⟩ := IrqWorld.step_ret h; exact hb

theorem recorded_mono {usbSts : UsbStsReg} {r : IrqHandlerSharedState × UsbStsReg} {b : StsBit}
    {e : IrqEvent} (h : r.1.flag e.kind = true ∨ e.taken = true) :
    (handleIrqBit usbSts r b).1.flag e.kind = true ∨ e.taken = true :=
  h.imp_left (flag_handleIrqBit_mono _ _ _)

section Step

variable {s s' : IrqWorld} (hi : NoLostEvent s) (hc : ClearsRecorded s)

include hi hc

theorem eventInv_event {b : StsBit} (ha : EventsInTime s (.event b)) :
    NoLostEvent (s.event b) ∧ ClearsRecorded (s.event b) := by
  constructor
  · intro e he hk
    rcases List.mem_append.mp he with he | he
    · exact hi e he hk
    · rw [List.mem_singleton.mp he]
      exact .inl rfl
  · intro e he hk hin hclear
    rcases List.mem_append.mp he with he | he
    · exact hc e he hk hin hclear
    · rw [List.mem_singleton.mp he] at hk hclear ⊢
      exact .inl (ha hk hclear)

theorem eventInv_store (h : s.step .store = some s') : NoLostEvent s' ∧ ClearsRecorded s' := by
  obtain ⟨u, t, b, todo, hh, rfl⟩ := IrqWorld.step_store h
  refine ⟨fun e he hk => (hi e he hk).imp_right recorded_mono, fun e he hk hin hclear => ?_⟩
  by_cases hb : e.kind = b
  · -- the flag just stored
    simp only [HandlerPc.willClear, Bool.and_eq_true] at hclear
    rw [hb] at hclear hk
    simp only [hb, flag_handleIrqBit_self _ _ (ne_rollover_of_mem hk), hclear.1, Bool.true_or,
      true_or]
  · refine recorded_mono (hc e he hk hin ?_)
    rw [hh]
    simpa [HandlerPc.willClear, hb] using hclear

theorem eventInv_write (hw : ToWriteInv s) (h : s.step .write = some s') :
    NoLostEvent s' ∧ ClearsRecorded s' := by
  obtain ⟨u, t, hh, rfl⟩ := IrqWorld.step_write h
  refine ⟨fun e he hk => ?_, fun e _ _ _ hclear => by cases hclear⟩
  obtain ⟨e₀, he₀, rfl⟩ := List.mem_map.mp he
  by_cases hclear : t.get e₀.kind = true
  · -- a bit that the call clears is one it recorded
    rw [if_pos hclear] at hk ⊢
    refine .inr ?_
    rcases hi e₀ he₀ hk with hin | hrec
    · exact hc e₀ he₀ hk hin (((hw u t [] hh).2 e₀.kind).symm.trans hclear)
    · exact hrec
  · rw [if_neg hclear] at hk ⊢
    exact hi e₀ he₀ hk

theorem eventInv_swap (h : s.step .swap = some s') : NoLostEvent s' ∧ ClearsRecorded s' := by
  obtain ⟨b, todo, -, rfl⟩ := IrqWorld.step_swap h
  refine ⟨fun e he hk => ?_, fun e he hk hin hclear => ?_⟩ <;>
    obtain ⟨e₀, he₀, hkind, hbit, hrec⟩ := swapFlag_events he <;> rw [hkind] at hk
  · rw [hbit]
    exact (hi e₀ he₀ hk).imp_right fun h => hrec h hk
  · rw [hkind] at hclear
    exact hrec (hc e₀ he₀ hk (hbit ▸ hin) hclear) hk

theorem eventInv_step {a : IrqLabel} (hw : ToWriteInv s) (ha : EventsInTime s a)
    (h : s.step a = some s') : NoLostEvent s' ∧ ClearsRecorded s' := by
  cases a with
  | event b =>
    cases h
    exact eventInv_event hi hc ha
  | wake =>
    obtain ⟨-, rfl⟩ := IrqWorld.step_wake h
    refine ⟨fun e he hk => ?_, fun e _ _ _ hclear => by cases hclear⟩
    rw [IrqHandlerSharedState.flag_wake]
    exact hi e he hk
  | read =>
    obtain ⟨-, rfl⟩ := IrqWorld.step_read h
    refine ⟨hi, fun e _ _ _ hclear => ?_⟩
    simp [HandlerPc.willClear, mem_handlerBits] at hclear
  | store => exact eventInv_store hi hc h
  | write => exact eventInv_write hi hc hw h
  | register =>
    obtain ⟨-, rfl⟩ := IrqWorld.step_register h
    refine ⟨fun e he hk => ?_, fun e he hk hin hclear => ?_⟩ <;>
      rw [IrqHandlerSharedState.flag_register]
    · exact hi e he hk
    · exact hc e he hk hin hclear
  | swap => exact eventInv_swap hi hc h
  | ret =>
    obtain ⟨-, rfl⟩ := IrqWorld.step_ret h
    exact ⟨hi, hc⟩

end Step

/-- An event that the call in progress will clear without recording it is lost when the call
finishes. -/
theorem exists_lostEvent {s : IrqWorld} {b : StsBit} (hw : ToWriteInv s)
    (hclear : s.handler.willClear b = true) (hb : b ∈ runnerSwaps) (hf : s.shared.flag b = false)
    (he : ⟨b, true, false⟩ ∈ s.events) :
    ∃ tr s', exec IrqWorld.step s tr = some s' ∧ ¬ NoLostEvent s' := by
  cases hh : s.handler with
  | idle => rw [hh] at hclear; cases hclear
  | woke => rw [hh] at hclear; cases hclear
  | storing u t todo =>
    obtain ⟨s₁, t₁, he₁, hh₁, -, hev₁, -, -, hf₁, ht₁⟩ := exec_stores hh
    have ht : t₁.get b = true := ht₁ b (((hw u t todo hh).2 b).trans hclear)
    have hpast : b ∉ todo := by
      simp only [hh, HandlerPc.willClear, Bool.and_eq_true, decide_eq_true_eq] at hclear
      exact hclear.2
    have he₂ : exec IrqWorld.step s (List.replicate todo.length .store ++ [.write]) =
        some { s₁.writeSts t₁ with handler := .idle } :=
      exec_snoc_iff.mpr ⟨s₁, he₁, by simp [IrqWorld.step, hh₁]⟩
    refine ⟨_, _, he₂, fun hn => ?_⟩
    have hmem : (⟨b, false, false⟩ : IrqEvent) ∈ (s₁.writeSts t₁).events := by
      refine List.mem_map.mpr ⟨⟨b, true, false⟩, hev₁ ▸ he, ?_⟩
      rw [if_pos ht]
    rcases hn _ hmem hb with h | h | h
    · cases h
    · rw [show (s₁.writeSts t₁).shared.flag b = false from (hf₁ b hpast).trans hf] at h
      cases h
    · cases h

/-- **Events reach the runner.** No event is lost in a run whose events come in time, and one that
does not is lost when the call in progress finishes. An event that was not cleared is in USBSTS. -/
theorem noLostEvent_of_eventsInTime (usbSts : UsbStsReg) (shared : IrqHandlerSharedState)
    (tr : List IrqLabel) (s : IrqWorld)
    (h : exec IrqWorld.step (.start usbSts shared) tr = some s) :
    (Meets IrqWorld.step EventsInTime (.start usbSts shared) tr → NoLostEvent s) ∧
    (∀ a s', ¬ EventsInTime s a → s.step a = some s' →
      ∃ tr' s'', exec IrqWorld.step s' tr' = some s'' ∧ ¬ NoLostEvent s'') ∧
    ∀ e ∈ s.events, e.inBit = true → s.usbSts.get e.kind = true := by
  have h0 : ToWriteInv (.start usbSts shared) := fun _ _ _ h => by cases h
  refine ⟨?_, ?_, ?_⟩
  · intro hC
    have hinv : (NoLostEvent s ∧ ClearsRecorded s) ∧ ToWriteInv s := by
      refine exec_invariant_of_meets (C := EventsInTime)
        (I := fun s => (NoLostEvent s ∧ ClearsRecorded s) ∧ ToWriteInv s)
        ⟨⟨fun _ he => absurd he List.not_mem_nil, fun _ he => absurd he List.not_mem_nil⟩, h0⟩ ?_ hC h
      exact fun _ _ _ hi hc hs => ⟨eventInv_step hi.1.1 hi.1.2 hi.2 hc hs, hi.2.step hs⟩
    exact hinv.1.1
  · intro a s' ha hs
    have hw : ToWriteInv s := exec_invariant h0 (fun _ _ _ hi hs => hi.step hs) h
    have hw' := hw.step hs
    cases a with
    | event b =>
      cases hs
      simp only [EventsInTime, Classical.not_imp] at ha
      obtain ⟨hb, hclear, hf⟩ := ha
      rw [Bool.not_eq_true] at hf
      exact exists_lostEvent hw' hclear hb hf (List.mem_append_right _ List.mem_cons_self)
    | _ => exact absurd trivial ha
  · have hbits : HasBits s := exec_invariant (fun _ he => absurd he List.not_mem_nil)
      (fun _ _ _ hi hs => hi.step hs) h
    exact hbits

/-- Two events of one kind, the second one after the runner's poll is through with the first. -/
theorem noLostEvent_two :
    ∃ s, exec IrqWorld.step (.start .zero .default)
        [.event .usbInt, .wake, .read, .store, .register, .store, .store, .store, .store, .store,
          .write, .swap, .event .usbInt, .swap, .swap, .swap, .ret] = some s ∧
      s.events = [⟨.usbInt, false, true⟩, ⟨.usbInt, true, false⟩] ∧ NoLostEvent s := by
  obtain ⟨s, hs, he⟩ := exec_witness IrqWorld.step (.start .zero .default)
    [.event .usbInt, .wake, .read, .store, .register, .store, .store, .store, .store, .store,
      .write, .swap, .event .usbInt, .swap, .swap, .swap, .ret]
    (fun s => s.events = [⟨.usbInt, false, true⟩, ⟨.usbInt, true, false⟩]) (by decide +kernel)
  exact ⟨s, hs, he, (noLostEvent_of_eventsInTime _ _ _ s hs).1 (by decide +kernel)⟩

/-- The second event arrives between the publication and the clear, after the runner took the
flag: the write of USBSTS clears it. -/
theorem not_noLostEvent_republished :
    ¬ ∀ (usbSts : UsbStsReg) (shared : IrqHandlerSharedState) (tr : List IrqLabel) (s : IrqWorld),
      exec IrqWorld.step (.start usbSts shared) tr = some s → NoLostEvent s := by
  intro h
  obtain ⟨s, hs, hmem, hf⟩ := exec_witness IrqWorld.step (.start .zero .default)
    [.event .asyncAdvance, .wake, .read, .store, .store, .store, .store, .store, .store,
      .register, .swap, .swap, .swap, .event .asyncAdvance, .write]
    (fun s => ⟨.asyncAdvance, false, false⟩ ∈ s.events ∧ s.shared.flag .asyncAdvance = false)
    (by decide +kernel)
  rcases h _ _ _ s hs _ hmem (by decide) with h | h | h
  · cases h
  · rw [hf] at h
    cases h
  · cases h

end EzEhci
