import EzEhci.Endpoint.Attach
import EzEhci.Endpoint.Response

/-!
# Stages behind two writes

`DataStage` also runs the chain of `transfer_no_data`, which moves no data
(`NoDataPhase`). The controller may be anywhere in a transfer when the driver
makes the second write of `attach_qtd` (`DataStage.clear`); the transfer goes on
if the overlay is not active and leads where it did before (`Straight`).
-/

namespace EzEhci

open Lib

/-- The chain of `transfer_no_data`: setup descriptor, status descriptor. -/
structure NoDataChain (dma : Dma) (seg : CtrlDsSegment) (qtds : Heap Qtd) (setup status : Ptr) : Prop where
  chain : Chain dma seg qtds [setup] status
  setup : (qtds setup).qtdToken = .newActive .setupToken 8
  status : (qtds status).qtdToken = statusToken .inToken

section Phase

variable (dma : Dma) (seg : CtrlDsSegment) (qtds₀ : Heap Qtd) (setup status : Ptr)

inductive NoDataPos (s : DataStage) : Prop where
  | start (idle : IdleAt dma seg s.queue (some setup)) (qtds : s.queue.qtds = qtds₀)
      (executed : s.executed = [])
  | setup (busy : BusyAt dma seg s.queue setup (.newActive .setupToken 8))
      (qtds : s.queue.qtds = qtds₀) (executed : s.executed = [setup])
  | between (idle : IdleAt dma seg s.queue (some status)) (links : SameLinks qtds₀ s.queue.qtds)
      (statusQtd : (s.queue.qtds status).qtdToken = statusToken .inToken) (executed : s.executed = [setup])
  | status (busy : BusyAt dma seg s.queue status (statusToken .inToken))
      (links : SameLinks qtds₀ s.queue.qtds)
      (statusQtd : (s.queue.qtds status).qtdToken = statusToken .inToken)
      (executed : s.executed = [setup, status])
  | finished (idle : IdleAt dma seg s.queue none) (alt : s.queue.qh.alternateQtdPointer.target = none)
      (done : (s.queue.qtds status).qtdToken.active = false) (executed : s.executed = [setup, status])

/-- The device has nothing to send, and nothing is stored. -/
structure NoDataPhase (s : DataStage) : Prop where
  left : s.left = []
  stores : s.stores = []
  pos : NoDataPos dma seg qtds₀ setup status s

end Phase

section Steps

variable {dma : Dma} {seg : CtrlDsSegment} {qtds₀ : Heap Qtd} {setup status : Ptr} {s s' : DataStage}
  {a : DataLabel}

/-- A descriptor that moves no data leaves nothing to transfer when it is retired. -/
theorem retiredToken_total {c : Ptr} {t : TransferToken} (h : BusyAt dma seg s.queue c t)
    (ht : t.pidCode = PidCode.inToken.toU2 → t.totalBytesToTransfer = 0) :
    s.retiredToken.totalBytesToTransfer = 0 := by
  rw [DataStage.retiredToken]
  split
  next hrec =>
    rw [DataStage.token, h.token]
    simpa using ht (by simpa [DataStage.Receiving, DataStage.token, h.token] using hrec)
  next => rw [TransferToken.withTotalBytesToTransfer_total]

theorem BusyAt.retire_next {c : Ptr} {t : TransferToken} (h : BusyAt dma seg s.queue c t)
    (hh : t.halted = false) (ht : t.pidCode = PidCode.inToken.toU2 → t.totalBytesToTransfer = 0) :
    IdleAt dma seg (s.queue.retire dma seg s.retiredToken) (qtdNext dma seg s.queue.qtds c) := by
  have hidle := h.retire hh
  rwa [if_neg (not_not_intro (retiredToken_total h ht))] at hidle

theorem NoDataPhase.step (hc : NoDataChain dma seg qtds₀ setup status)
    (h : NoDataPhase dma seg qtds₀ setup status s) (hs : s.step dma seg a = some s') :
    NoDataPhase dma seg qtds₀ setup status s' := by
  obtain ⟨hleft, hstores, hpos⟩ := h
  cases hpos with
  | start idle qtds executed =>
    obtain ⟨hbusy, hq, he, hl, hst⟩ := idle.step hs
    rw [qtds, hc.setup] at hbusy
    exact ⟨hl.trans hleft, hst.trans hstores, .setup hbusy (hq.trans qtds) (by rw [he, executed]; rfl)⟩
  | setup busy qtds executed =>
    obtain ⟨k, -, hpid, -⟩ | ⟨-, -, rfl⟩ := busy.step (by simp) hs
    · rw [TransferToken.newActive_pidCode] at hpid
      cases hpid
    · have hidle := busy.retire_next (by simp) fun hin => by
        rw [TransferToken.newActive_pidCode] at hin
        cases hin
      have hnext : qtdNext dma seg qtds₀ setup = some status := hc.chain.links.1
      have hne : status ≠ setup := fun e => by simpa [e] using hc.chain.nodup
      rw [qtds, hnext] at hidle
      refine ⟨hleft, hstores, .between hidle ?_ ?_ executed⟩
      · exact SameLinks.retire (by rw [qtds]; exact .refl _) _
      · simp only [busy.retire_other _ hne, qtds]
        exact hc.status
  | between idle links statusQtd executed =>
    obtain ⟨hbusy, hq, he, hl, hst⟩ := idle.step hs
    rw [statusQtd] at hbusy
    exact ⟨hl.trans hleft, hst.trans hstores,
      .status hbusy (hq ▸ links) (hq ▸ statusQtd) (by rw [he, executed]; rfl)⟩
  | status busy links statusQtd executed =>
    obtain ⟨k, -, -, hpos, -, hk, -⟩ | ⟨-, -, rfl⟩ := busy.step (by simp [statusToken]) hs
    · -- the device has nothing to send
      rw [hleft, List.length_nil] at hk
      omega
    · have hidle := busy.retire_next (by simp [statusToken]) fun _ => by simp [statusToken]
      have hnext : qtdNext dma seg qtds₀ status = none := linked_mid hc.chain.links
      rw [links.next, hnext] at hidle
      refine ⟨hleft, hstores, .finished hidle ?_ ?_ executed⟩
      · exact busy.retire_alt (links.alt status ▸ hc.chain.alt_status)
      · simp only [busy.retire_self, DataStage.retiredToken]
        split <;> simp
  | finished idle alt done executed =>
    rw [idle.step_none] at hs
    cases hs

theorem NoDataPhase.enabled (hc : NoDataChain dma seg qtds₀ setup status)
    (h : NoDataPhase dma seg qtds₀ setup status s) (hw : s.queue.waitTest status = false) :
    ∃ a s', s.step dma seg a = some s' := by
  cases h.pos with
  | start idle qtds => exact idle.enabled (by rw [qtds, hc.setup]; simp)
  | setup busy => exact busy.enabled (by simp) (by simp)
  | between idle links statusQtd => exact idle.enabled (by rw [statusQtd]; simp [statusToken])
  | status busy => exact busy.enabled (by simp [statusToken]) (by simp [statusToken])
  | finished idle alt done =>
    rw [Queue.waitTest, done] at hw
    cases hw

theorem NoDataPhase.executed_le (h : NoDataPhase dma seg qtds₀ setup status s) :
    s.executed.length ≤ 2 := by
  cases h.pos with
  | start _ _ he | setup _ _ he | between _ _ _ he | status _ _ _ he | finished _ _ _ he => simp [he]

end Steps

theorem transferNoDataStart_chain {dma : Dma} {oc : OverflowChecks} {seg : CtrlDsSegment} {q q' : Queue}
    {setupPacket setup status : MappedMem} (hsetup : setup.Usable dma seg) (hstatus : status.Usable dma seg)
    (hne : setup.ptr ≠ status.ptr) (h : transferNoDataStart oc seg q setupPacket setup status = some q') :
    NoDataChain dma seg q'.qtds setup.ptr status.ptr ∧ IdleAt dma seg q' (some setup.ptr) := by
  have hatt := transferNoDataStart_attached hsetup hstatus hne h
  refine ⟨⟨hatt.chain, ?_, ?_⟩, hatt.idle.1, hatt.idle.2, hatt.head⟩
  all_goals
    simp only [transferNoDataStart, writeSetupQtd, writeStatusQtd, attachQtd, Option.bind_eq_bind,
      Option.bind_eq_some_iff, Option.some.injEq] at h
    obtain ⟨q₁, ⟨ptrs, -, next, -, rfl⟩, offset, -, rfl⟩ := h
  · simp only [Heap.modify_of_ne _ _ hne, Heap.modify_self]
    rfl
  · simp only [Heap.modify_self]
    rfl

/-! ## The second write of `attach_qtd` -/

/-- The driver clears the token of the overlay. -/
def DataStage.clear (s : DataStage) : DataStage := { s with queue := AttachWorld.clearToken s.queue }

/-- Clearing the token of an idle overlay leads the controller nowhere else. -/
def Straight (dma : Dma) (seg : CtrlDsSegment) (q : Queue) : Prop :=
  ∀ target, IdleAt dma seg q target → IdleAt dma seg (AttachWorld.clearToken q) target

section Clear

variable {dma : Dma} {seg : CtrlDsSegment} {qtds₀ : Heap Qtd} {setup status : Ptr} {q : Queue}
  {s s' : DataStage} {a : DataLabel} {jobs : InJobs} {response : List Byte}

theorem Straight.of_active (h : q.qh.transferToken.active = true) : Straight dma seg q := by
  intro target hidle
  rw [hidle.inactive] at h
  cases h

theorem Straight.of_advance (h : q.advanceTarget.map (fun a => dma.virt (seg.addr a)) =
    q.qh.nextQtdPointer.target.map fun a => dma.virt (seg.addr a)) : Straight dma seg q := by
  intro target hidle
  refine ⟨TransferToken.zero_active, TransferToken.zero_halted, ?_⟩
  rw [advanceTarget_of_zero rfl, ← hidle.target, h]
  rfl

/-- A descriptor is retired in full, or its links lead to the same place. -/
theorem BusyAt.straight {c : Ptr} {t r : TransferToken} (h : BusyAt dma seg s.queue c t)
    (hr : r.totalBytesToTransfer = 0 ∨
      qtdAlt dma seg s.queue.qtds c = qtdNext dma seg s.queue.qtds c) :
    Straight dma seg (s.queue.retire dma seg r) := by
  refine .of_advance ?_
  by_cases htotal : r.totalBytesToTransfer = 0
  · simp only [Queue.advanceTarget, Queue.retire, htotal, ne_eq, not_true_eq_false, if_false]
  · have hlinks := hr.resolve_left htotal
    simp only [qtdAlt, qtdNext, ← h.next, ← h.alt] at hlinks
    simp only [Queue.advanceTarget, Queue.retire, ne_eq, htotal, not_false_eq_true, if_true,
      Option.map_or, hlinks, Option.or_self]

/-- After a step of the controller the overlay is active, or it has retired a descriptor. -/
theorem DataStage.straight_step (hs : s.step dma seg a = some s')
    (hretire : s.token.active = true → Straight dma seg (s.queue.retire dma seg s.retiredToken)) :
    Straight dma seg s'.queue := by
  cases a with
  | fetch =>
    simp only [step, Option.map_eq_some_iff] at hs
    obtain ⟨q, hq, rfl⟩ := hs
    obtain ⟨-, -, addr, -, hact, rfl⟩ := Queue.step_fetch hq
    exact .of_active hact
  | store k =>
    simp only [step] at hs
    split at hs
    case isFalse => cases hs
    obtain ⟨q, hq, rfl⟩ := Option.map_eq_some_iff.mp hs
    obtain ⟨-, hact, rfl⟩ := Queue.step_progress hq
    exact .of_active hact
  | retire =>
    simp only [step] at hs
    split at hs
    case isTrue => cases hs
    obtain ⟨q, hq, rfl⟩ := Option.map_eq_some_iff.mp hs
    obtain ⟨hact, -, -, rfl⟩ := Queue.step_complete hq
    exact hretire hact

theorem NoDataPhase.straight (h : NoDataPhase dma seg qtds₀ setup status s)
    (hs : s.step dma seg a = some s') : Straight dma seg s'.queue := by
  refine DataStage.straight_step hs fun hact => ?_
  cases h.pos with
  | start idle | between idle | finished idle =>
    rw [DataStage.token, idle.inactive] at hact
    cases hact
  | setup busy =>
    refine busy.straight (.inl (retiredToken_total busy fun hin => ?_))
    rw [TransferToken.newActive_pidCode] at hin
    cases hin
  | status busy => exact busy.straight (.inl (retiredToken_total busy fun _ => by simp [statusToken]))

/-- Behind a single IN descriptor both pointers lead to the status descriptor. -/
theorem InPhase.straight {j : Ptr × MappedSlice} (hc : InChain dma seg qtds₀ setup [j] status)
    (h : InPhase dma seg qtds₀ setup [j] status response s) (hs : s.step dma seg a = some s') :
    Straight dma seg s'.queue := by
  refine DataStage.straight_step hs fun hact => ?_
  cases h with
  | start idle | between _ _ _ _ idle | drained _ _ _ idle | finished _ _ _ idle =>
    rw [DataStage.token, idle.inactive] at hact
    cases hact
  | setup busy =>
    refine busy.straight (.inl (retiredToken_total busy fun hin => ?_))
    rw [TransferToken.newActive_pidCode] at hin
    cases hin
  | filling pre j' rest split c token busy _ _ _ _ _ partway =>
    refine busy.straight (.inr ?_)
    rw [partway.links.alt, partway.links.next, hc.alt (by simp [split]), hc.next split]
    -- the only descriptor of the list
    have hlen := congrArg List.length split
    have hrest : rest = [] := by
      rw [← List.length_eq_zero_iff]
      simp at hlen
      omega
    simp [hrest]
  | status pre rest split busy =>
    refine busy.straight (.inl (retiredToken_total busy fun hin => ?_))
    simp [statusToken] at hin
    cases hin

theorem QueueFree.step_none (h : QueueFree s.queue) : s.step dma seg a = none := by
  have hqueue : ∀ b, s.queue.step dma seg b = none := by
    intro b
    rcases h.waits with hh | ⟨hnext, halt⟩
    · exact Queue.step_of_halted h.inactive hh b
    · cases b <;> simp [Queue.step, h.inactive, Queue.advanceTarget, hnext, halt]
  cases a with
  | fetch => rw [DataStage.step, hqueue, Option.map_none]
  | store k => simp only [DataStage.step, hqueue, Option.map_none, ite_self]
  | retire => simp only [DataStage.step, hqueue, Option.map_none, ite_self]

theorem IdleAt.queueFree {q : Queue} (h : IdleAt dma seg q none)
    (halt : q.qh.alternateQtdPointer.target = none) : QueueFree q := by
  refine ⟨h.inactive, .inr ⟨?_, halt⟩⟩
  have ht := Option.map_eq_none_iff.mp h.target
  rw [Queue.advanceTarget, halt] at ht
  split at ht
  · exact ht
  · exact ht

theorem InPhase.queueFree (hc : InChain dma seg qtds₀ setup jobs status)
    (h : InPhase dma seg qtds₀ setup jobs status response s) (hw : s.queue.waitTest status = true) :
    QueueFree s.queue := by
  have hactive : (s.queue.qtds status).qtdToken ≠ statusToken .outToken := by
    intro e
    rw [Queue.waitTest, e] at hw
    simp [statusToken] at hw
  cases h with
  | start idle qtds => exact absurd (qtds ▸ hc.status) hactive
  | setup busy qtds => exact absurd (qtds ▸ hc.status) hactive
  | between pre j rest split idle partway => exact absurd partway.status hactive
  | filling pre j rest split c token busy active notHalted pid le total partway =>
    exact absurd partway.status hactive
  | drained pre rest split idle links statusQtd => exact absurd statusQtd hactive
  | status pre rest split busy links statusQtd => exact absurd statusQtd hactive
  | finished pre rest split idle alt => exact idle.queueFree alt

theorem NoDataPhase.queueFree (hc : NoDataChain dma seg qtds₀ setup status)
    (h : NoDataPhase dma seg qtds₀ setup status s) (hw : s.queue.waitTest status = true) :
    QueueFree s.queue := by
  have hactive : (s.queue.qtds status).qtdToken ≠ statusToken .inToken := by
    intro e
    rw [Queue.waitTest, e] at hw
    simp [statusToken] at hw
  cases h.pos with
  | start idle qtds => exact absurd (qtds ▸ hc.status) hactive
  | setup busy qtds => exact absurd (qtds ▸ hc.status) hactive
  | between idle links statusQtd => exact absurd statusQtd hactive
  | status busy links statusQtd => exact absurd statusQtd hactive
  | finished idle alt => exact idle.queueFree alt

/-- **The second write leaves a transfer where it is**, if it finds no descriptor in execution. -/
theorem InPhase.clear (h : InPhase dma seg qtds₀ setup jobs status response s)
    (hina : s.token.active = false) (hstraight : Straight dma seg s.queue) :
    InPhase dma seg qtds₀ setup jobs status response s.clear := by
  cases h with
  | start idle qtds executed moved =>
    exact .start (hstraight _ idle) qtds executed (moved.congr rfl rfl)
  | between pre j rest split idle partway executed moved =>
    exact .between pre j rest split (hstraight _ idle) partway executed (moved.congr rfl rfl)
  | drained pre rest split idle links statusQtd executed settled =>
    exact .drained pre rest split (hstraight _ idle) links statusQtd executed
      (settled.congr (fun _ _ => rfl) rfl rfl)
  | finished pre rest split idle alt done executed settled =>
    exact .finished pre rest split (hstraight _ idle) alt done executed
      (settled.congr (fun _ _ => rfl) rfl rfl)
  | setup busy =>
    rw [DataStage.token, busy.token, TransferToken.newActive_active] at hina
    cases hina
  | filling pre j rest split c token busy active =>
    rw [DataStage.token, busy.token, active] at hina
    cases hina
  | status pre rest split busy =>
    rw [DataStage.token, busy.token] at hina
    simp [statusToken] at hina

theorem NoDataPhase.clear (h : NoDataPhase dma seg qtds₀ setup status s)
    (hina : s.token.active = false) (hstraight : Straight dma seg s.queue) :
    NoDataPhase dma seg qtds₀ setup status s.clear := by
  refine ⟨h.left, h.stores, ?_⟩
  cases h.pos with
  | start idle qtds executed => exact .start (hstraight _ idle) qtds executed
  | between idle links statusQtd executed => exact .between (hstraight _ idle) links statusQtd executed
  | finished idle alt done executed => exact .finished (hstraight _ idle) alt done executed
  | setup busy =>
    rw [DataStage.token, busy.token, TransferToken.newActive_active] at hina
    cases hina
  | status busy =>
    rw [DataStage.token, busy.token] at hina
    simp [statusToken] at hina

end Clear

end EzEhci
