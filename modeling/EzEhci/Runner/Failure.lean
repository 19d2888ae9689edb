import EzEhci.Endpoint.Ring
import EzEhci.Runner.Steps
import EzEhci.Runner.World

/-!
# Failed transfers

The controller retires a descriptor completed or halted, and clears `active`
either way. Everything in the driver that waits for a descriptor looks at
`active` only: the control transfers, the runner's SET_ADDRESS and `peek`. So a
failure is reported as success exactly where a descriptor someone waits for is
retired halted, unless the byte count of `transfer_in` panics.
-/

namespace EzEhci

open Lib

/-! ## Control transfers -/

/-- The transfers that wait for a status descriptor. -/
inductive Transfer where
  | noData (setupPacket setup status : MappedMem)
  | transferIn (setupPacket : MappedMem) (buffers : List MappedSlice) (qtds : List MappedMem)
      (status : MappedMem)
  | setAddress (buffer setup status : MappedMem)
  deriving DecidableEq, Repr

namespace Transfer

def status : Transfer → Ptr
  | .noData _ _ status => status.ptr
  | .transferIn _ _ _ status => status.ptr
  | .setAddress _ _ status => status.ptr

/-- The driver builds the transfer and attaches it to the queue. -/
def start (oc : OverflowChecks) (seg : CtrlDsSegment) (q : Queue) : Transfer → Option Queue
  | .noData setupPacket setup status => transferNoDataStart oc seg q setupPacket setup status
  | .transferIn setupPacket buffers qtds _ => transferInStart oc seg q setupPacket buffers qtds
  | .setAddress buffer setup status => setAddressStart oc seg q buffer setup status

/-- Its descriptors are distinct, aligned and inside the window. -/
def Usable (dma : Dma) (seg : CtrlDsSegment) : Transfer → Prop
  | .noData _ setup status =>
    (setup.Usable dma seg ∧ status.Usable dma seg) ∧ setup.ptr ≠ status.ptr
  | .transferIn _ _ qtds status =>
    (∀ m ∈ qtds, m.Usable dma seg) ∧ (qtds.map MappedMem.ptr).Nodup ∧ qtds.getLast? = some status
  | .setAddress _ setup status =>
    (setup.Usable dma seg ∧ status.Usable dma seg) ∧ setup.ptr ≠ status.ptr

/-- The byte count of `transfer_in` panics. -/
def CountPanics (oc : OverflowChecks) (q : Queue) : Transfer → Prop
  | .transferIn _ buffers qtds _ => bytesTransferred oc q 0 buffers (qtds.drop 1) = none
  | _ => False

/-- A poll of the transfer returns normally: the status descriptor is no longer active, and the
bytes can be counted. -/
def Returns (oc : OverflowChecks) (q : Queue) (t : Transfer) : Prop :=
  q.waitTest t.status = true ∧ ¬ t.CountPanics oc q

variable {dma : Dma} {seg : CtrlDsSegment} {oc : OverflowChecks} {t : Transfer} {q q₀ : Queue}

theorem Usable.built (h : t.Usable dma seg) (hs : t.start oc seg q = some q₀) :
    TransferBuilt dma seg q₀ t.status := by
  cases t with
  | noData setupPacket setup status => exact .noData oc q q₀ setupPacket setup status h.1 h.2 hs
  | transferIn setupPacket buffers qtds status =>
    exact .transferIn oc q q₀ setupPacket buffers qtds status h.1 h.2.1 h.2.2 hs
  | setAddress buffer setup status => exact .setAddress oc q q₀ buffer setup status h.1 h.2 hs

/-- **What returns.** -/
theorem returns_sound_iff (h : t.Usable dma seg) {q' : Queue} (hs : t.start oc seg q' = some q₀)
    {tr : List QueueLabel} (he : exec (Queue.step dma seg) q₀ tr = some q) :
    (t.Returns oc q → ¬ q.FailedAt t.status) ↔
      Meets (Queue.step dma seg) (NotHaltedAt dma seg t.status) q₀ tr ∨ t.CountPanics oc q := by
  obtain ⟨body, h0⟩ := (h.built hs).attached
  have hfailed := h0.failedAt_iff he
  constructor
  · intro hsound
    by_contra hnot
    obtain ⟨hhalt, hcount⟩ := not_or.mp hnot
    have hf := hfailed.mpr hhalt
    exact hsound ⟨by rw [Queue.waitTest, hf.1]; rfl, hcount⟩ hf
  · rintro (hmeets | hcount) hr hf
    · exact hfailed.mp hf hmeets
    · exact hr.2 hcount

end Transfer

/-! ## The runner -/

namespace RunnerWorld

variable {W : Type} [Wakers W] {s s' : RunnerWorld W} {oc : OverflowChecks} {w : W}

/-- The runner answered `Ok` only to resets whose status descriptor it did not read halted. -/
def AnswersSound (s : RunnerWorld W) : Prop :=
  ∀ a ∈ s.answers, ∀ device, a.result = .ok device →
    ∃ token, a.statusRead = some token ∧ token.halted = false

/-- The reset that waits for its removal has read a status descriptor that is not halted. -/
def ResetSound (s : RunnerWorld W) : Prop :=
  ∀ rd addr sender waker, s.resettingDevice = some rd → rd.step = .waitForQhRemove addr sender waker →
    ∃ token, rd.statusRead = some token ∧ token.halted = false

theorem AnswersSound.answer (h : s.AnswersSound) (rd : ResettingDevice W)
    {result : Except DriverError Device}
    (hr : ∀ device, result = .ok device → ∃ token, rd.statusRead = some token ∧ token.halted = false) :
    (s.answer rd result).AnswersSound := by
  intro a ha device hd
  rcases List.mem_append.mp ha with ha | ha
  · exact h a ha device hd
  · rw [List.mem_singleton.mp ha] at hd ⊢
    exact hr device hd

theorem sound_outcome {rds : ResetReadings} {rd : ResettingDevice W} {b : Bool}
    (ha : s.AnswersSound) (hs : s.ResetSound) (hrd : s.resettingDevice = some rd)
    (hr : rds.statusToken.active = false → rds.statusToken.halted = false)
    (ho : ResetOutcome oc w rds s rd s' b) : s'.AnswersSound ∧ s'.ResetSound := by
  cases ho with
  | failed error => exact ⟨ha.answer rd (by simp), fun _ _ _ _ hnone => by cases hnone⟩
  | resetDone v =>
    refine ⟨ha, fun rd' addr sender waker hrd' hstep => ?_⟩
    cases hrd'
    cases hstep
  | waits => exact ⟨ha, hs⟩
  | enabled hstep hset =>
    obtain ⟨alloc, packets, qtds, heap, addr, rfl⟩ := startSetAddr_eq_some hset
    refine ⟨ha, fun rd' addr sender waker hrd' hstep => ?_⟩
    cases hrd'
    cases hstep
  | addressed addr hstep hactive =>
    refine ⟨ha, fun rd' addr' sender waker hrd' _ => ?_⟩
    cases hrd'
    exact ⟨rds.statusToken, rfl, hr hactive⟩
  | removed addr sender waker hstep hsent =>
    exact ⟨AnswersSound.answer (s := s.addDevice rd.rootPort) ha rd
      fun _ _ => hs rd addr sender waker hrd hstep, fun _ _ _ _ hnone => by cases hnone⟩
  | registered addr sender waker hstep hsent =>
    refine ⟨ha, fun rd' addr' sender' waker' hrd' _ => ?_⟩
    cases hrd'
    exact hs rd addr sender waker hrd hstep

theorem ResetSound.fireRemoved (h : s.ResetSound) : s.fireRemoved.ResetSound := by
  unfold RunnerWorld.fireRemoved wakeReceiver
  dsimp only
  split
  next rd hrd =>
    split
    next addr sender waker hstep =>
      split
      · intro rd' addr' sender' waker' hrd' _
        cases hrd'
        exact h rd addr sender waker hrd hstep
      · exact h
    next => exact h
  next => exact h

theorem answers_fireRemoved : s.fireRemoved.answers = s.answers := by
  obtain ⟨rd, waker, heq⟩ := fireRemoved_eq s
  rw [heq]
  rfl

theorem sound_pollStep {l : List ResetReadings}
    (hl : ∀ r ∈ l, r.statusToken.active = false → r.statusToken.halted = false)
    (h : s.AnswersSound ∧ s.ResetSound) (hs : PollStep oc w (· ∈ l) s s') :
    s'.AnswersSound ∧ s'.ResetSound := by
  obtain ⟨ha, hr⟩ := h
  cases hs with
  | asyncAdvance => exact ⟨by rw [AnswersSound, answers_fireRemoved]; exact ha, hr.fireRemoved⟩
  | device d => rw [pollDevice_eq]; exact ⟨ha, hr⟩
  | interruptEndpoint e he =>
    obtain ⟨periodic, callbacks, rfl⟩ := pollInterruptEndpoint_eq_some he
    exact ⟨ha, hr⟩
  | controlEndpoint e he =>
    obtain ⟨heap, rfl⟩ := pollControlEndpoint_eq_some he
    exact ⟨ha, hr⟩
  | startReset i req hst =>
    obtain ⟨port, v, rfl⟩ := startReset_eq_some hst
    refine ⟨ha, fun rd addr sender waker hrd hstep => ?_⟩
    cases hrd
    cases hstep
  | reset hm hrd ho => exact sound_outcome ha hr hrd (hl _ hm) ho
  | _ => exact ⟨ha, hr⟩

/-- A reset whose queue head is removed is answered `Ok`, whatever its status descriptor was. -/
theorem resetIter_removed {rds : ResetReadings} {rd : ResettingDevice W} {addr : BitVec 7}
    {sender : SenderId} {waker : Option W} (hrd : s.resettingDevice = some rd)
    (hstep : rd.step = .waitForQhRemove addr sender waker) (hsent : sender ∈ s.async.sent) :
    ∃ device, (s.resetIter oc w rds).map (fun r => r.1.answers) =
      some (s.answers ++ [⟨rd.rootPort.toNat, .ok device, rd.statusRead⟩]) := by
  refine ⟨⟨addr, s.nextDevice, s.ctrlDsSegment, s.nextControl⟩, ?_⟩
  simp only [resetIter, hrd, resetStep, hstep, if_pos hsent, Option.map_some]
  rfl

/-- A status descriptor that is no longer active starts the removal, however it was retired. -/
theorem resetIter_addressed {rds : ResetReadings} {rd : ResettingDevice W} {addr : BitVec 7}
    (hrd : s.resettingDevice = some rd) (hstep : rd.step = .waitForSetAddr addr)
    (hactive : rds.statusToken.active = false) :
    s.resetIter oc w rds = some (s.queueRemove rds rd addr, true) := by
  simp [resetIter, hrd, resetStep, hstep, hactive]

end RunnerWorld

namespace DriverWorld

variable {W : Type} [Wakers W] {oc : OverflowChecks} {s s' : DriverWorld W}

/-- No poll reads a status descriptor that was retired halted. -/
def ReadsUnhalted (_ : DriverWorld W) : DriverLabel W → Prop
  | .poll _ rds => ∀ r ∈ rds, r.statusToken.active = false → r.statusToken.halted = false
  | _ => True

instance (s : DriverWorld W) (a : DriverLabel W) : Decidable (s.ReadsUnhalted a) :=
  match a with
  | .poll _ rds => inferInstanceAs (Decidable (∀ r ∈ rds, r.statusToken.active = false →
      r.statusToken.halted = false))
  | .resetDevice .. | .load .. | .setConfiguration .. | .configure .. | .watch .. | .irq ..
  | .wakeRunner => .isTrue trivial

theorem runner_step {a : DriverLabel W} (hs : s.step oc a = some s') :
    (∃ w rds, a = .poll w rds ∧ s.runner.poll oc w rds = some s'.runner) ∨
    (s'.runner.answers = s.runner.answers ∧ s'.runner.resettingDevice = s.runner.resettingDevice) := by
  cases Stepped.of_step hs with
  | poll runner hw hp => exact .inl ⟨_, _, rfl, hp⟩
  | _ => exact .inr ⟨rfl, rfl⟩

theorem sound_step (h : s.runner.AnswersSound ∧ s.runner.ResetSound) {a : DriverLabel W}
    (hC : s.ReadsUnhalted a) (hs : s.step oc a = some s') :
    s'.runner.AnswersSound ∧ s'.runner.ResetSound := by
  rcases runner_step hs with ⟨w, rds, rfl, hp⟩ | ⟨ha, hr⟩
  · exact RunnerWorld.poll_invariant (P := fun m => m.AnswersSound ∧ m.ResetSound)
      (fun _ _ hm hstep => RunnerWorld.sound_pollStep hC hm hstep) hp h
  · rw [RunnerWorld.AnswersSound, RunnerWorld.ResetSound, ha, hr]
    exact h

/-- **What the runner answers** in runs in which it reads no status descriptor halted. -/
theorem answersSound_of_exec {s₀ : DriverWorld W} (h0 : s₀.Started) {tr : List (DriverLabel W)}
    (hC : Meets (DriverWorld.step oc) ReadsUnhalted s₀ tr)
    (h : exec (DriverWorld.step oc) s₀ tr = some s) : s.runner.AnswersSound := by
  have hstart : s₀.runner.AnswersSound ∧ s₀.runner.ResetSound := by
    rw [RunnerWorld.AnswersSound, RunnerWorld.ResetSound, h0.answers, h0.resettingDevice]
    exact ⟨nofun, nofun⟩
  exact (exec_invariant_of_meets (I := fun s => s.runner.AnswersSound ∧ s.runner.ResetSound) hstart
    (fun _ _ _ hm hc hs => sound_step hm hc hs) hC h).1

end DriverWorld

/-! ## Where failures are reported as success -/

/-- **Failures reported as success.** In runs in which the controller retires no descriptor halted
that the driver waits for, no control transfer returns for a failed status descriptor, the runner
does not answer `Ok` for one and `peek` presents none. Where it does retire one halted, the transfer
returns unless its byte count panics, the reset goes on to its `Ok`, and `peek` presents it. -/
theorem failure_reported_iff (dma : Dma) (seg : CtrlDsSegment) (oc : OverflowChecks) (W : Type)
    [Wakers W] :
    (∀ (t : Transfer) (q' q₀ q : Queue) (tr : List QueueLabel), t.Usable dma seg → t.start oc seg q' = some q₀ →
      exec (Queue.step dma seg) q₀ tr = some q →
      ((t.Returns oc q → ¬ q.FailedAt t.status) ↔
        Meets (Queue.step dma seg) (NotHaltedAt dma seg t.status) q₀ tr ∨ t.CountPanics oc q)) ∧
    (∀ (s₀ s : DriverWorld W) (tr : List (DriverLabel W)),
      s₀.Started → exec (DriverWorld.step oc) s₀ tr = some s →
      Meets (DriverWorld.step oc) DriverWorld.ReadsUnhalted s₀ tr → s.runner.AnswersSound) ∧
    (∀ (w : W) (s : RunnerWorld W) (rds : ResetReadings) (rd : ResettingDevice W) (addr : BitVec 7),
      s.resettingDevice = some rd →
      (rd.step = .waitForSetAddr addr → rds.statusToken.active = false →
        s.resetIter oc w rds = some (s.queueRemove rds rd addr, true)) ∧
      ∀ sender waker, rd.step = .waitForQhRemove addr sender waker → sender ∈ s.async.sent →
        ∃ device, (s.resetIter oc w rds).map (fun r => r.1.answers) =
          some (s.answers ++ [⟨rd.rootPort.toNat, .ok device, rd.statusRead⟩])) ∧
    (∀ (ep : InterruptEndpoint) (res : WatchInterruptResources) (qh : Qh)
      (w₀ w : WatchedInterruptEndpoint) (tr : List RingLabel), ep.watch oc res = some (qh, w₀) →
      exec (WatchedInterruptEndpoint.step oc) w₀ tr = some w →
      (Meets (WatchedInterruptEndpoint.step oc) CompletesUnhalted w₀ tr → w.PeekSound) ∧
      (w.PeekSound ↔
        ∀ q, w.qtds[w.completedPacketsIndex]? = some q → q.qtdToken.halted = false)) := by
  refine ⟨?_, ?_, ?_, ?_⟩
  · intro t q' q₀ q tr h hs he
    exact Transfer.returns_sound_iff h hs he
  · intro s₀ s tr h0 he hC
    exact DriverWorld.answersSound_of_exec h0 hC he
  · intro w s rds rd addr hrd
    refine ⟨fun hstep hactive => ?_, fun sender waker hstep hsent => ?_⟩
    · exact RunnerWorld.resetIter_addressed hrd hstep hactive
    · exact RunnerWorld.resetIter_removed hrd hstep hsent
  · intro ep res qh w₀ w tr hw he
    exact WatchedInterruptEndpoint.peekSound_of_exec hw he

/-- A control transfer without data on two descriptors. -/
def exampleTransfer : Transfer := .noData ⟨0x3000, 0x3000⟩ ⟨0x1000, 0x1000⟩ ⟨0x1040, 0x1040⟩

theorem exec_exampleTransfer (tr : List QueueLabel) (P : Queue → Prop) [DecidablePred P]
    (h : ((exampleTransfer.start .on .lower4G blankQueue).bind fun q =>
      exec (Queue.step .identity .lower4G) q tr).any (fun q => decide (P q)) = true) :
    ∃ q₀ q, exampleTransfer.start .on .lower4G blankQueue = some q₀ ∧
      exec (Queue.step .identity .lower4G) q₀ tr = some q ∧ P q := by
  obtain ⟨q, hq, hp⟩ := (Option.any_eq_true _ _).mp h
  obtain ⟨q₀, hq₀, hq⟩ := Option.bind_eq_some_iff.mp hq
  exact ⟨q₀, q, hq₀, hq, of_decide_eq_true hp⟩

theorem exampleTransfer_usable : exampleTransfer.Usable .identity .lower4G :=
  ⟨⟨by decide, by decide⟩, by decide⟩

theorem exec_exampleRing (tr : List RingLabel) (P : WatchedInterruptEndpoint → Prop) [DecidablePred P]
    (h : ((exampleEndpoint.watch .on (exampleResources 1)).bind fun r =>
      exec (WatchedInterruptEndpoint.step .on) r.2 tr).any (fun w => decide (P w)) = true) :
    ∃ qh w₀ w, exampleEndpoint.watch .on (exampleResources 1) = some (qh, w₀) ∧
      exec (WatchedInterruptEndpoint.step .on) w₀ tr = some w ∧ P w := by
  obtain ⟨w, hw, hp⟩ := (Option.any_eq_true _ _).mp h
  obtain ⟨⟨qh, w₀⟩, hw₀, hw⟩ := Option.bind_eq_some_iff.mp hw
  exact ⟨qh, w₀, w, hw₀, hw, of_decide_eq_true hp⟩

/-- Everything succeeds: the transfer returns, the device is answered, the packet presented. -/
theorem failure_reported_none :
    (∃ q₀ q, exampleTransfer.start .on .lower4G blankQueue = some q₀ ∧
      exec (Queue.step .identity .lower4G) q₀ [.fetch, .complete .zero, .fetch, .complete .zero] =
        some q ∧ exampleTransfer.Returns .on q ∧ ¬ q.FailedAt exampleTransfer.status) ∧
    (∃ s, exec (DriverWorld.step .on) DriverWorld.exampleDriver DriverWorld.exampleLoad = some s ∧
      s.runner.answers.length = 1 ∧ s.runner.AnswersSound) ∧
    (∃ qh w₀ w, exampleEndpoint.watch .on (exampleResources 1) = some (qh, w₀) ∧
      exec (WatchedInterruptEndpoint.step .on) w₀ [.complete 0 .zero 4] = some w ∧
      w.peek.2 = .slice 0 8 ∧ w.PeekSound) := by
  obtain ⟨htransfer, hrunner, -, hring⟩ := failure_reported_iff .identity .lower4G .on TaskWaker
  refine ⟨?_, ?_, ?_⟩
  · obtain ⟨q₀, q, hq₀, hq, hw⟩ := exec_exampleTransfer
      [.fetch, .complete .zero, .fetch, .complete .zero]
      (fun q => q.waitTest exampleTransfer.status = true) (by decide +kernel)
    have hr : exampleTransfer.Returns .on q := ⟨hw, id⟩
    refine ⟨q₀, q, hq₀, hq, hr, ?_⟩
    refine (htransfer exampleTransfer blankQueue q₀ q _ exampleTransfer_usable
      hq₀ hq).mpr (.inl ?_) hr
    exact ⟨trivial, fun _ _ => ⟨trivial, fun _ _ => ⟨trivial, fun _ _ => ⟨trivial, fun _ _ => trivial⟩⟩⟩⟩
  · obtain ⟨s, hs, hlen⟩ := exec_witness (DriverWorld.step .on)
      DriverWorld.exampleDriver DriverWorld.exampleLoad
      (fun s => s.runner.answers.length = 1) (by decide +kernel)
    exact ⟨s, hs, hlen, hrunner _ s _ (DriverWorld.started_start ..) hs (by decide +kernel)⟩
  · obtain ⟨qh, w₀, w, hw₀, hw, hp⟩ := exec_exampleRing [.complete 0 .zero 4]
      (fun w => w.peek.2 = .slice 0 8) (by decide +kernel)
    refine ⟨qh, w₀, w, hw₀, hw, hp, (hring _ _ qh w₀ w _ hw₀ hw).1 ?_⟩
    exact ⟨(by decide : TransferToken.zero.halted = false), fun _ _ => trivial⟩

/-- The status descriptor of a transfer, that of SET_ADDRESS and a descriptor of a ring are retired
halted. -/
theorem not_failure_reported :
    (¬ ∀ (dma : Dma) (seg : CtrlDsSegment) (oc : OverflowChecks) (t : Transfer) (q' q₀ q : Queue)
      (tr : List QueueLabel), t.Usable dma seg → t.start oc seg q' = some q₀ →
      exec (Queue.step dma seg) q₀ tr = some q → t.Returns oc q → ¬ q.FailedAt t.status) ∧
    (¬ ∀ (W : Type) [Wakers W] (oc : OverflowChecks) (s₀ s : DriverWorld W)
      (tr : List (DriverLabel W)), s₀.Started → exec (DriverWorld.step oc) s₀ tr = some s →
      s.runner.AnswersSound) ∧
    (¬ ∀ (oc : OverflowChecks) (ep : InterruptEndpoint) (res : WatchInterruptResources) (qh : Qh)
      (w₀ w : WatchedInterruptEndpoint) (tr : List RingLabel), ep.watch oc res = some (qh, w₀) →
      exec (WatchedInterruptEndpoint.step oc) w₀ tr = some w → w.PeekSound) := by
  refine ⟨fun h => ?_, fun h => ?_, fun h => ?_⟩
  · obtain ⟨q₀, q, hq₀, hq, hw, hf⟩ := exec_exampleTransfer
      [.fetch, .complete .zero, .fetch, .halt ⟨0x40⟩]
      (fun q => q.waitTest exampleTransfer.status = true ∧ q.FailedAt exampleTransfer.status)
      (by decide +kernel)
    exact h _ _ .on exampleTransfer _ q₀ q _ exampleTransfer_usable hq₀ hq ⟨hw, id⟩ hf
  · obtain ⟨s, hs, hbad⟩ := exec_witness (DriverWorld.step .on)
      DriverWorld.exampleDriver (DriverWorld.exampleReset ⟨0x40⟩)
      (fun s => (s.runner.answers.any fun a =>
        a.result.toOption == some DriverWorld.exampleDevice && a.statusRead.any (·.halted)) = true)
      (by decide +kernel)
    obtain ⟨a, ha, hok⟩ := List.any_eq_true.mp hbad
    rw [Bool.and_eq_true, beq_iff_eq] at hok
    have hres : a.result = .ok DriverWorld.exampleDevice := by
      cases hr : a.result <;> simp_all [Except.toOption]
    obtain ⟨token, ht, hh⟩ := h TaskWaker .on _ s _ (DriverWorld.started_start ..) hs a ha _ hres
    rw [ht, Option.any_some, hh] at hok
    cases hok.2
  · obtain ⟨qh, w₀, w, hw₀, hw, hp, hh⟩ := exec_exampleRing [.complete 0 ⟨0x40⟩ 4]
      (fun w => w.peek.2 = .slice 0 8 ∧
        (w.qtds[w.completedPacketsIndex]?.any fun q => q.qtdToken.halted) = true) (by decide +kernel)
    obtain ⟨q, hq, hh⟩ := (Option.any_eq_true _ _).mp hh
    rw [h .on _ _ qh w₀ w _ hw₀ hw q 0 8 hq hp] at hh
    cases hh

end EzEhci
