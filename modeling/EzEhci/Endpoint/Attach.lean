import EzEhci.Endpoint.Control

/-!
# Queueing transfers on a live queue head

A loaded control endpoint issues its transfers one after the other on one queue
head. `attach_qtd` makes two writes: the next pointer, then the token of the
overlay. Before the first transfer the overlay is halted and the controller
waits for the second write; later the queue head is idle and the controller may
follow the next pointer in between. `AttachWorld` interleaves the two writes
with the controller and keeps what it executed of each transfer.
-/

namespace EzEhci

open Lib

/-! ## The transfers -/

/-- The transfers of a loaded control endpoint. -/
inductive ControlTransfer where
  | noData (setupPacket setup status : MappedMem)
  | transferIn (setupPacket : MappedMem) (buffers : List MappedSlice) (qtds : List MappedMem)
  deriving DecidableEq, Repr

namespace ControlTransfer

/-- The descriptors in the order of the chain. -/
def qtds : ControlTransfer → List MappedMem
  | .noData _ setup status => [setup, status]
  | .transferIn _ _ qtds => qtds

def body (t : ControlTransfer) : List Ptr := t.qtds.dropLast.map MappedMem.ptr

/-- The transfer up to `attach_qtd`: its descriptors are written. -/
def build (oc : OverflowChecks) (seg : CtrlDsSegment) (q : Queue) : ControlTransfer → Option Queue
  | .noData setupPacket setup status => do
    let q ← writeSetupQtd oc seg q setupPacket setup status
    some (writeStatusQtd q status .inToken)
  | .transferIn setupPacket buffers qtds =>
    if buffers.isEmpty ∨ qtds.length ≠ 1 + buffers.length + 1 then none
    else do
      let setupQtdMem ← qtds[0]?
      let statusQtdMem ← qtds.getLast?
      let inQtdMem ← qtds[1]?
      let q ← writeSetupQtd oc seg q setupPacket setupQtdMem inQtdMem
      let statusOffset ← getAddrOffset statusQtdMem.physAddr seg
      let q ← writeInQtds oc seg (.newValid statusOffset) q buffers (qtds.drop 1)
      some (writeStatusQtd q statusQtdMem .outToken)

def start (oc : OverflowChecks) (seg : CtrlDsSegment) (q : Queue) : ControlTransfer → Option Queue
  | .noData setupPacket setup status => transferNoDataStart oc seg q setupPacket setup status
  | .transferIn setupPacket buffers qtds => transferInStart oc seg q setupPacket buffers qtds

/-- The descriptors are distinct, aligned and inside the window. -/
def Usable (dma : Dma) (seg : CtrlDsSegment) (t : ControlTransfer) : Prop :=
  (∀ m ∈ t.qtds, m.Usable dma seg) ∧ (t.qtds.map MappedMem.ptr).Nodup

instance (dma : Dma) (seg : CtrlDsSegment) (t : ControlTransfer) : Decidable (t.Usable dma seg) :=
  inferInstanceAs (Decidable (_ ∧ _))

end ControlTransfer

/-! ## The two writes and the controller -/

/-- What the controller executed of a transfer: the descriptors it retired, with their tokens. -/
structure Execution where
  body : List Ptr
  status : Ptr
  executed : List (Ptr × TransferToken)
  deriving DecidableEq, Repr

/-- Where the driver is: between transfers, between the two writes of `attach_qtd`, or waiting. -/
inductive AttachPc where
  | idle
  | linked (e : Execution)
  | waiting (e : Execution)
  deriving DecidableEq, Repr

/-- A descriptor of the transfer in progress is retired. -/
def AttachPc.retire (p : Ptr) (token : TransferToken) : AttachPc → AttachPc
  | .idle => .idle
  | .linked e => .linked { e with executed := e.executed ++ [(p, token)] }
  | .waiting e => .waiting { e with executed := e.executed ++ [(p, token)] }

/-- The queue of a loaded endpoint, the executions of its finished transfers and the descriptors the
driver took out of the overlay while the controller was executing them. -/
structure AttachWorld where
  queue : Queue
  pc : AttachPc
  finished : List Execution
  abandoned : List Ptr

inductive AttachLabel where
  | start (t : ControlTransfer)
  | writeToken
  | wait
  | fetch
  | progress (token : TransferToken)
  | complete (token : TransferToken)
  deriving DecidableEq, Repr

namespace AttachWorld

variable (dma : Dma) (seg : CtrlDsSegment) (oc : OverflowChecks)

def linkQtd (q : Queue) (qtd : MappedMem) : Option Queue := do
  let offset ← getAddrOffset qtd.physAddr seg
  some { q with qh := { q.qh with nextQtdPointer := .newValid offset } }

def clearToken (q : Queue) : Queue := { q with qh := { q.qh with transferToken := .zero } }

def step (s : AttachWorld) : AttachLabel → Option AttachWorld
  | .start t =>
    if s.pc = .idle ∧ t.Usable dma seg then do
      let q ← t.build oc seg s.queue
      let setup ← t.qtds.head?
      let status ← t.qtds.getLast?
      let q ← linkQtd seg q setup
      some { s with queue := q, pc := .linked ⟨t.body, status.ptr, []⟩ }
    else none
  | .writeToken =>
    match s.pc with
    | .linked e => some { s with
        queue := clearToken s.queue
        pc := .waiting e
        abandoned := if s.queue.qh.transferToken.active
          then s.abandoned ++ [s.queue.current dma seg] else s.abandoned }
    | _ => none
  | .wait =>
    match s.pc with
    | .waiting e =>
      if s.queue.waitTest e.status then some { s with pc := .idle, finished := s.finished ++ [e] }
      else none
    | _ => none
  | .fetch => (s.queue.step dma seg .fetch).map fun q => { s with queue := q }
  | .progress token => (s.queue.step dma seg (.progress token)).map fun q => { s with queue := q }
  | .complete token => (s.queue.step dma seg (.complete token)).map fun q => { s with
      queue := q
      pc := s.pc.retire (s.queue.current dma seg) token }

def loaded (deviceAddress : BitVec 7) (endpointNumber : BitVec 4) (qtds : Heap Qtd) : AttachWorld :=
  ⟨⟨loadedQh deviceAddress endpointNumber, qtds⟩, .idle, [], []⟩

end AttachWorld

theorem attachQtd_eq (seg : CtrlDsSegment) (q : Queue) (qtd : MappedMem) :
    attachQtd seg q qtd = (AttachWorld.linkQtd seg q qtd).map AttachWorld.clearToken := by
  unfold attachQtd AttachWorld.linkQtd
  cases getAddrOffset qtd.physAddr seg <;> rfl

theorem ControlTransfer.start_eq (oc : OverflowChecks) (seg : CtrlDsSegment) (q : Queue)
    (t : ControlTransfer) :
    t.start oc seg q = (t.build oc seg q).bind fun q => t.qtds.head?.bind (attachQtd seg q) := by
  cases t with
  | noData setupPacket setup status =>
    simp only [start, transferNoDataStart, build, qtds]
    cases writeSetupQtd oc seg q setupPacket setup status <;> rfl
  | transferIn setupPacket buffers qtds =>
    simp only [start, transferInStart, build, ControlTransfer.qtds]
    split
    · rfl
    · cases qtds with
      | nil => rfl
      | cons setup qtds =>
        simp only [List.getElem?_cons_zero, Option.bind_eq_bind, Option.bind_some, List.head?_cons,
          Option.bind_assoc]

/-! ## Execution in order -/

/-- The transfer was executed to its end: setup, data descriptors in order, status; all of them,
unless one was retired short. -/
structure Execution.Complete (e : Execution) : Prop where
  order : ∃ pre, pre <+: e.body ∧ pre ≠ [] ∧ e.executed.map Prod.fst = pre ++ [e.status]
  unskipped : (∀ x ∈ e.executed.dropLast, x.2.totalBytesToTransfer = 0) →
    e.executed.map Prod.fst = e.body ++ [e.status]

/-- So far the transfer was executed in order. -/
def Execution.InOrder (e : Execution) : Prop := e.executed.map Prod.fst <+: e.body ∨ e.Complete

/-- The controller executed every transfer in order, and every descriptor it loaded to completion. -/
structure AttachWorld.Sound (s : AttachWorld) : Prop where
  finished : ∀ e ∈ s.finished, e.Complete
  current : ∀ e, s.pc = .linked e ∨ s.pc = .waiting e → e.InOrder
  abandoned : s.abandoned = []

/-- The second write of `attach_qtd` finds no descriptor in execution. -/
def TokenInTime (s : AttachWorld) : AttachLabel → Prop
  | .writeToken => s.queue.qh.transferToken.active = false
  | _ => True

instance (s : AttachWorld) : (a : AttachLabel) → Decidable (TokenInTime s a)
  | .writeToken => inferInstanceAs (Decidable (_ = _))
  | .start _ | .wait | .fetch | .progress _ | .complete _ => .isTrue trivial

/-! ## Where the controller is -/

/-- Where a next pointer leads. -/
def Qh.nextPtr (dma : Dma) (seg : CtrlDsSegment) (qh : Qh) : Option Ptr :=
  qh.nextQtdPointer.target.map fun a => dma.virt (seg.addr a)

/-- Where the controller goes from an idle overlay. -/
def Queue.advancePtr (dma : Dma) (seg : CtrlDsSegment) (q : Queue) : Option Ptr :=
  q.advanceTarget.map fun a => dma.virt (seg.addr a)

/-- A retired descriptor left bytes over. -/
def Execution.Short (e : Execution) : Prop := ∃ x ∈ e.executed, x.2.totalBytesToTransfer ≠ 0

/-- Between transfers: nothing for the controller to do. -/
structure QueueFree (q : Queue) : Prop where
  inactive : q.qh.transferToken.active = false
  waits : q.qh.transferToken.halted = true ∨
    q.qh.nextQtdPointer.target = none ∧ q.qh.alternateQtdPointer.target = none

/-- The descriptors of the transfer in memory. -/
structure Placed (dma : Dma) (seg : CtrlDsSegment) (q : Queue) (e : Execution) : Prop where
  chain : Chain dma seg q.qtds e.body e.status
  nonempty : e.body ≠ []

/-- The next pointer leads to the transfer, but the overlay is halted. -/
structure Held (dma : Dma) (seg : CtrlDsSegment) (q : Queue) (e : Execution) : Prop where
  inactive : q.qh.transferToken.active = false
  halted : q.qh.transferToken.halted = true
  next : q.qh.nextPtr dma seg = (e.body ++ [e.status]).head?
  executed : e.executed = []
  todo : ∀ p ∈ e.body ++ [e.status], (q.qtds p).qtdToken.active = true

inductive AttachPos (dma : Dma) (seg : CtrlDsSegment) (q : Queue) (e : Execution) : Prop where
  | idle (rest : List Ptr) (split : e.executed.map Prod.fst ++ rest = e.body ++ [e.status])
      (nonempty : rest ≠ []) (inactive : q.qh.transferToken.active = false)
      (next : q.qh.nextPtr dma seg = rest.head?)
      (target : q.advancePtr dma seg = rest.head? ∨ q.advancePtr dma seg = some e.status ∧ e.Short)
      (todo : ∀ p ∈ rest, (q.qtds p).qtdToken.active = true)
  | busy (c : Ptr) (rest : List Ptr) (split : e.executed.map Prod.fst ++ c :: rest = e.body ++ [e.status])
      (active : q.qh.transferToken.active = true) (current : q.current dma seg = c)
      (next : q.qh.nextQtdPointer = (q.qtds c).nextQtdPtr)
      (alt : q.qh.alternateQtdPointer = (q.qtds c).alternateNextQtdPtr)
      (todo : ∀ p ∈ c :: rest, (q.qtds p).qtdToken.active = true)
  | skipped (done : e.executed.map Prod.fst <+: e.body) (short : e.Short)
      (active : q.qh.transferToken.active = true) (current : q.current dma seg = e.status)
      (next : q.qh.nextQtdPointer = (q.qtds e.status).nextQtdPtr)
      (alt : q.qh.alternateQtdPointer = (q.qtds e.status).alternateNextQtdPtr)
      (todo : (q.qtds e.status).qtdToken.active = true)
  | finished (complete : e.Complete) (inactive : q.qh.transferToken.active = false)
      (next : q.qh.nextQtdPointer.target = none) (alt : q.qh.alternateQtdPointer.target = none)

section Pos

variable {dma : Dma} {seg : CtrlDsSegment} {q q' : Queue} {e : Execution}

theorem prefix_of_split {l rest body : List Ptr} {status : Ptr} (h : l ++ rest = body ++ [status])
    (hne : rest ≠ []) : l <+: body := by
  rcases List.eq_nil_or_concat rest with rfl | ⟨mid, c, rfl⟩
  · exact absurd rfl hne
  · rw [List.concat_eq_append, ← List.append_assoc] at h
    obtain ⟨hl, -⟩ := List.append_inj' h rfl
    exact ⟨mid, hl⟩

theorem status_mem_of_split {l rest body : List Ptr} {status : Ptr} (h : l ++ rest = body ++ [status])
    (hne : rest ≠ []) : status ∈ rest := by
  rcases List.eq_nil_or_concat rest with rfl | ⟨mid, c, rfl⟩
  · exact absurd rfl hne
  · rw [List.concat_eq_append, ← List.append_assoc] at h
    obtain ⟨-, hc⟩ := List.append_inj' h rfl
    rw [List.concat_eq_append, hc]
    simp

theorem AttachPos.inOrder (h : AttachPos dma seg q e) : e.InOrder := by
  cases h with
  | idle rest split nonempty => exact .inl (prefix_of_split split nonempty)
  | busy c rest split => exact .inl (prefix_of_split split (List.cons_ne_nil c rest))
  | skipped done => exact .inl done
  | finished complete => exact .inr complete

/-- The status descriptor is inactive in memory only once the transfer is executed. -/
theorem AttachPos.of_waitTest (h : AttachPos dma seg q e) (hw : q.waitTest e.status = true) :
    e.Complete ∧ QueueFree q := by
  rw [Queue.waitTest, Bool.not_eq_true'] at hw
  cases h with
  | idle rest split nonempty inactive next target todo =>
    rw [todo _ (status_mem_of_split split nonempty)] at hw
    cases hw
  | busy c rest split active current next alt todo =>
    rw [todo _ (status_mem_of_split split (List.cons_ne_nil c rest))] at hw
    cases hw
  | skipped done short active current next alt todo =>
    rw [todo] at hw
    cases hw
  | finished complete inactive next alt => exact ⟨complete, inactive, .inr ⟨next, alt⟩⟩

theorem AttachPos.fetch (h : AttachPos dma seg q e) (hs : q.step dma seg .fetch = some q') :
    AttachPos dma seg q' e := by
  obtain ⟨hna, -, addr, haddr, hact, rfl⟩ := Queue.step_fetch hs
  have htarget : q.advancePtr dma seg = some (dma.virt (seg.addr addr)) := by
    rw [Queue.advancePtr, haddr]
    rfl
  cases h with
  | idle rest split nonempty inactive next target todo =>
    rw [htarget] at target
    rcases target with hhead | ⟨hstatus, hshort⟩
    · obtain ⟨rest', rfl⟩ := List.head?_eq_some_iff.mp hhead.symm
      exact .busy _ rest' split hact rfl rfl rfl todo
    · rw [Option.some.injEq] at hstatus
      refine .skipped (prefix_of_split split nonempty) hshort hact hstatus ?_ ?_ ?_
      · rw [← hstatus]
        rfl
      · rw [← hstatus]
        rfl
      · exact todo _ (status_mem_of_split split nonempty)
  | busy c rest split active => rw [hna] at active; cases active
  | skipped done short active => rw [hna] at active; cases active
  | finished complete inactive next alt =>
    rw [Queue.advanceTarget, next, alt] at haddr
    split at haddr <;> cases haddr

theorem AttachPos.progress (h : AttachPos dma seg q e) {token : TransferToken}
    (hs : q.step dma seg (.progress token) = some q') : AttachPos dma seg q' e := by
  obtain ⟨hact, htok, rfl⟩ := Queue.step_progress hs
  cases h with
  | idle rest split nonempty inactive => rw [hact] at inactive; cases inactive
  | busy c rest split active current next alt todo => exact .busy c rest split htok current next alt todo
  | skipped done short active current next alt todo => exact .skipped done short htok current next alt todo
  | finished complete inactive => rw [hact] at inactive; cases inactive

/-- The links the overlay holds of the status descriptor end the chain. -/
theorem Placed.status_links (hp : Placed dma seg q e) :
    (q.qtds e.status).nextQtdPtr.target = none ∧ (q.qtds e.status).alternateNextQtdPtr.target = none := by
  have hnext := linked_mid hp.chain.links
  have halt := hp.chain.alt_status
  simp only [qtdNext, qtdAlt, List.head?_nil, Option.or_none, Option.map_eq_none_iff] at hnext halt
  exact ⟨hnext, halt⟩

/-- The controller completes the descriptor `c` with descriptors behind it: it goes on to the next
one, or to the status descriptor after a short transfer. -/
theorem AttachPos.goesOn {c : Ptr} {rest : List Ptr} {token : TransferToken} (hp : Placed dma seg q e)
    (split : e.executed.map Prod.fst ++ c :: rest = e.body ++ [e.status]) (hne : rest ≠ [])
    (current : q.current dma seg = c) (next : q.qh.nextQtdPointer = (q.qtds c).nextQtdPtr)
    (alt : q.qh.alternateQtdPointer = (q.qtds c).alternateNextQtdPtr)
    (todo : ∀ p ∈ c :: rest, (q.qtds p).qtdToken.active = true) (hina : token.active = false) :
    AttachPos dma seg (q.retire dma seg token) { e with executed := e.executed ++ [(c, token)] } := by
  have hlink : qtdNext dma seg q.qtds c = rest.head? := by
    have := hp.chain.links
    rw [← split] at this
    simpa using linked_mid this
  have hnext : (q.retire dma seg token).qh.nextPtr dma seg = rest.head? := by
    rw [← hlink]
    exact congrArg (fun l : NextQtdPointer => l.target.map fun a => dma.virt (seg.addr a)) next
  refine .idle rest (by simpa using split) hne hina hnext ?_
    (retire_todo token (split ▸ hp.chain.nodup) current todo)
  have hbody : c ∈ e.body := by
    rcases chain_split split.symm with ⟨-, hnil⟩ | ⟨hb, -⟩
    · exact absurd hnil hne
    · exact hb
  unfold Queue.advancePtr Queue.advanceTarget
  split
  next hshort =>
    rw [Option.map_or]
    rcases hp.chain.alt c hbody with ha | ha
    · refine .inl ?_
      rw [show (q.retire dma seg token).qh.alternateQtdPointer = (q.qtds c).alternateNextQtdPtr from alt]
      rw [qtdAlt] at ha
      rw [ha, Option.none_or]
      exact hnext
    · refine .inr ⟨?_, (c, token), by simp, hshort⟩
      rw [show (q.retire dma seg token).qh.alternateQtdPointer = (q.qtds c).alternateNextQtdPtr from alt]
      rw [qtdAlt] at ha
      rw [ha, Option.some_or]
  next => exact .inl hnext

theorem AttachPos.complete (h : AttachPos dma seg q e) (hp : Placed dma seg q e) {token : TransferToken}
    (hs : q.step dma seg (.complete token) = some q') :
    AttachPos dma seg q' { e with executed := e.executed ++ [(q.current dma seg, token)] } := by
  obtain ⟨hact, hina, -, rfl⟩ := Queue.step_complete hs
  obtain ⟨hnext, halt⟩ := hp.status_links
  cases h with
  | idle rest split nonempty inactive => rw [hact] at inactive; cases inactive
  | busy c rest split active current next alt todo =>
    rw [current]
    by_cases hne : rest = []
    · -- the status descriptor, after all the others
      subst hne
      obtain ⟨hl, hc⟩ := List.append_inj' split rfl
      rw [List.cons.injEq] at hc
      obtain ⟨rfl, -⟩ := hc
      refine .finished ⟨⟨e.body, List.prefix_rfl, hp.nonempty, ?_⟩, fun _ => ?_⟩ hina ?_ ?_
      · simp [hl]
      · simp [hl]
      · exact (congrArg NextQtdPointer.target next).trans hnext
      · exact (congrArg AlternateQtdLinkPtr.target alt).trans halt
    · exact AttachPos.goesOn hp split hne current next alt todo hina
  | skipped done short active current next alt todo =>
    rw [current]
    obtain ⟨x, hx, hshort⟩ := short
    refine .finished ⟨⟨_, done, ?_, by simp⟩, fun hfull => ?_⟩ hina ?_ ?_
    · intro hnil
      rw [List.map_eq_nil_iff] at hnil
      rw [hnil] at hx
      cases hx
    · exact absurd (hfull x (by simpa using hx)) hshort
    · exact (congrArg NextQtdPointer.target next).trans hnext
    · exact (congrArg AlternateQtdLinkPtr.target alt).trans halt
  | finished complete inactive => rw [hact] at inactive; cases inactive

/-- The second write, with no descriptor in execution: the controller goes on along `next`. -/
theorem AttachPos.clearToken (h : AttachPos dma seg q e) (hina : q.qh.transferToken.active = false) :
    AttachPos dma seg (AttachWorld.clearToken q) e := by
  cases h with
  | idle rest split nonempty inactive next target todo =>
    refine .idle rest split nonempty TransferToken.zero_active next (.inl ?_) todo
    rw [Queue.advancePtr, advanceTarget_of_zero rfl]
    exact next
  | busy c rest split active => rw [hina] at active; cases active
  | skipped done short active => rw [hina] at active; cases active
  | finished complete inactive next alt => exact .finished complete TransferToken.zero_active next alt

theorem Held.clearToken (h : Held dma seg q e) : AttachPos dma seg (AttachWorld.clearToken q) e := by
  refine .idle (e.body ++ [e.status]) (by simp [h.executed]) (by simp) TransferToken.zero_active h.next
    (.inl ?_) h.todo
  rw [Queue.advancePtr, advanceTarget_of_zero rfl]
  exact h.next

theorem QueueFree.loaded (deviceAddress : BitVec 7) (endpointNumber : BitVec 4) (qtds : Heap Qtd) :
    QueueFree ⟨loadedQh deviceAddress endpointNumber, qtds⟩ := by
  have hactive : (TransferToken.zero.withHalted true).active = false := by decide
  have hhalted : (TransferToken.zero.withHalted true).halted = true := by decide
  exact ⟨hactive, .inl hhalted⟩

/-- The first write on a queue that waits for work. -/
theorem QueueFree.linked (h : QueueFree q) {qh : Qh} {next : NextQtdPointer}
    (hqh : qh = { q.qh with nextQtdPointer := next }) (hexec : e.executed = [])
    (hnext : qh.nextPtr dma seg = (e.body ++ [e.status]).head?) {qtds : Heap Qtd}
    (todo : ∀ p ∈ e.body ++ [e.status], (qtds p).qtdToken.active = true) :
    Held dma seg ⟨qh, qtds⟩ e ∨ AttachPos dma seg ⟨qh, qtds⟩ e := by
  subst hqh
  rcases h.waits with hh | ⟨-, halt⟩
  · exact .inl ⟨h.inactive, hh, hnext, hexec, todo⟩
  · refine .inr (.idle _ (by simp [hexec]) (by simp) h.inactive hnext (.inl ?_) todo)
    rw [← hnext, Queue.advancePtr, Queue.advanceTarget]
    simp only [halt, Option.none_or, ite_self]
    rfl

end Pos

/-! ## What a transfer builds -/

section Build

variable {dma : Dma} {seg : CtrlDsSegment} {oc : OverflowChecks} {q q' : Queue}

theorem writeSetupQtd_qh {setupPacket setup next : MappedMem}
    (h : writeSetupQtd oc seg q setupPacket setup next = some q') : q'.qh = q.qh := by
  simp only [writeSetupQtd, Option.bind_eq_bind, Option.bind_eq_some_iff, Option.some.injEq] at h
  obtain ⟨ptrs, -, offset, -, rfl⟩ := h
  rfl

theorem writeInQtd_qh {alternate : AlternateQtdLinkPtr} {buffer : MappedSlice} {m next : MappedMem}
    (h : writeInQtd oc seg alternate q buffer m next = some q') : q'.qh = q.qh := by
  simp only [writeInQtd] at h
  split at h
  · simp only [Option.bind_eq_bind, Option.bind_eq_some_iff, Option.some.injEq] at h
    obtain ⟨ptrs, -, offset, -, rfl⟩ := h
    rfl
  · cases h

theorem writeInQtds_qh {alternate : AlternateQtdLinkPtr} {buffers : List MappedSlice}
    {qtds : List MappedMem} (h : writeInQtds oc seg alternate q buffers qtds = some q') :
    q'.qh = q.qh := by
  induction buffers generalizing q qtds with
  | nil =>
    rw [writeInQtds] at h
    cases h
    rfl
  | cons buffer buffers ih =>
    rcases qtds with _ | ⟨m, _ | ⟨next, qtds⟩⟩
    · cases h
    · cases h
    · rw [writeInQtds] at h
      obtain ⟨q₁, h₁, h⟩ := Option.bind_eq_some_iff.mp h
      rw [ih h, writeInQtd_qh h₁]

namespace ControlTransfer

variable {t : ControlTransfer}

theorem build_qh (h : t.build oc seg q = some q') : q'.qh = q.qh := by
  cases t with
  | noData setupPacket setup status =>
    obtain ⟨q₁, h₁, h⟩ := Option.bind_eq_some_iff.mp h
    cases h
    show q₁.qh = q.qh
    exact writeSetupQtd_qh h₁
  | transferIn setupPacket buffers qtds =>
    simp only [build] at h
    split at h
    · cases h
    · simp only [Option.bind_eq_bind, Option.bind_eq_some_iff, Option.some.injEq] at h
      obtain ⟨setup, -, status, -, m, -, q₁, h₁, offset, -, q₂, h₂, rfl⟩ := h
      exact (writeInQtds_qh h₂).trans (writeSetupQtd_qh h₁)

theorem build_spec (hu : t.Usable dma seg) {setup status : MappedMem} (h : t.build oc seg q = some q')
    (hsetup : t.qtds.head? = some setup) (hstatus : t.qtds.getLast? = some status) :
    t.body.head? = some setup.ptr ∧ Chain dma seg q'.qtds t.body status.ptr ∧
    ∀ p ∈ t.body ++ [status.ptr], (q'.qtds p).qtdToken.active = true := by
  have hus : setup.Usable dma seg := hu.1 _ (List.mem_of_mem_head? hsetup)
  -- attaching the descriptors changes the queue head only
  obtain ⟨q₁, h₁⟩ : ∃ q₁, attachQtd seg q' setup = some q₁ := by
    rw [attachQtd, hus.offset]
    exact ⟨_, rfl⟩
  have hqtds := (attachQtd_spec hus h₁).1
  have hstart : t.start oc seg q = some q₁ := by
    rw [start_eq, h, Option.bind_some, hsetup, Option.bind_some, h₁]
  have hatt : Attached dma seg q₁ t.body status.ptr ∧ t.body.head? = some setup.ptr := by
    cases t with
    | noData setupPacket s st =>
      cases hsetup
      cases hstatus
      have hnd : setup.ptr ≠ st.ptr := by simpa [qtds] using hu.2
      exact ⟨transferNoDataStart_attached hus (hu.1 _ (by simp [qtds])) hnd hstart, rfl⟩
    | transferIn setupPacket buffers qs =>
      obtain ⟨s, ins, st, rfl, hlen, hpos⟩ := transferInStart_shape hstart
      simp only [qtds, List.head?_cons, Option.some.injEq] at hsetup
      subst hsetup
      rw [qtds, ← List.cons_append, List.getLast?_concat, Option.some.injEq] at hstatus
      subst hstatus
      have hbody : (ControlTransfer.transferIn setupPacket buffers (s :: (ins ++ [st]))).body =
          s.ptr :: ins.map MappedMem.ptr := by
        rw [body, qtds, ← List.cons_append, List.dropLast_concat, List.map_cons]
      rw [hbody]
      exact ⟨transferInStart_attached hu.1 hu.2 hlen hpos hstart, rfl⟩
  exact ⟨hatt.2, hqtds ▸ hatt.1.chain, fun p hp => hqtds ▸ hatt.1.active p hp⟩

end ControlTransfer

end Build

/-! ## Runs -/

structure AttachInv (dma : Dma) (seg : CtrlDsSegment) (s : AttachWorld) : Prop where
  finished : ∀ e ∈ s.finished, e.Complete
  abandoned : s.abandoned = []
  idle : s.pc = .idle → QueueFree s.queue
  linked : ∀ e, s.pc = .linked e → Placed dma seg s.queue e ∧
    (Held dma seg s.queue e ∨ AttachPos dma seg s.queue e)
  waiting : ∀ e, s.pc = .waiting e → Placed dma seg s.queue e ∧ AttachPos dma seg s.queue e

namespace AttachInv

variable {dma : Dma} {seg : CtrlDsSegment} {oc : OverflowChecks} {s s' : AttachWorld}

theorem sound (h : AttachInv dma seg s) : s.Sound := by
  refine ⟨h.finished, fun e hpc => ?_, h.abandoned⟩
  rcases hpc with hpc | hpc
  · rcases (h.linked e hpc).2 with hheld | hpos
    · refine .inl ?_
      rw [hheld.executed]
      exact List.nil_prefix
    · exact hpos.inOrder
  · exact (h.waiting e hpc).2.inOrder

theorem loaded (deviceAddress : BitVec 7) (endpointNumber : BitVec 4) (qtds : Heap Qtd) :
    AttachInv dma seg (AttachWorld.loaded deviceAddress endpointNumber qtds) where
  finished := nofun
  abandoned := rfl
  idle _ := .loaded deviceAddress endpointNumber qtds
  linked := nofun
  waiting := nofun

theorem start (h : AttachInv dma seg s) {t : ControlTransfer}
    (hs : s.step dma seg oc (.start t) = some s') : AttachInv dma seg s' := by
  simp only [AttachWorld.step] at hs
  obtain ⟨⟨hpc, hu⟩, hs⟩ := Option.ite_none_right_eq_some.mp hs
  simp only [Option.bind_eq_bind, Option.bind_eq_some_iff, Option.some.injEq] at hs
  obtain ⟨q, hq, setup, hsetup, status, hstatus, q', hq', rfl⟩ := hs
  have hus : setup.Usable dma seg := hu.1 _ (List.mem_of_mem_head? hsetup)
  simp only [AttachWorld.linkQtd, hus.offset, Option.bind_eq_bind, Option.bind_some,
    Option.some.injEq] at hq'
  subst hq'
  obtain ⟨hhead, hchain, hact⟩ := ControlTransfer.build_spec hu hq hsetup hstatus
  refine ⟨h.finished, h.abandoned, nofun, fun e he => ?_, nofun⟩
  cases he
  refine ⟨⟨hchain, fun hnil => ?_⟩, ?_⟩
  · rw [show t.body = [] from hnil] at hhead
    cases hhead
  · refine (h.idle hpc).linked (by rw [ControlTransfer.build_qh hq]) rfl ?_ hact
    rw [List.head?_append, hhead]
    exact next_newValid hus

theorem pc_ne_idle (h : AttachInv dma seg s) {a : QueueLabel} {q : Queue}
    (hq : s.queue.step dma seg a = some q) : s.pc ≠ .idle := by
  intro hpc
  obtain ⟨hina, hwaits⟩ := h.idle hpc
  rcases hwaits with hh | ⟨hnext, halt⟩
  · rw [Queue.step_of_halted hina hh] at hq
    cases hq
  · cases a with
    | fetch =>
      obtain ⟨-, -, addr, haddr, -⟩ := Queue.step_fetch hq
      rw [Queue.advanceTarget, hnext, halt] at haddr
      split at haddr <;> cases haddr
    | progress token =>
      rw [(Queue.step_progress hq).1] at hina
      cases hina
    | complete token =>
      rw [(Queue.step_complete hq).1] at hina
      cases hina
    | halt token =>
      rw [(Queue.step_halt hq).1] at hina
      cases hina

theorem not_held {e : Execution} {a : QueueLabel} {q : Queue} (h : Held dma seg s.queue e)
    (hq : s.queue.step dma seg a = some q) : False := by
  rw [Queue.step_of_halted h.inactive h.halted] at hq
  cases hq

theorem writeToken (h : AttachInv dma seg s) (hin : TokenInTime s .writeToken)
    (hs : s.step dma seg oc .writeToken = some s') : AttachInv dma seg s' := by
  have hina : s.queue.qh.transferToken.active = false := hin
  simp only [AttachWorld.step] at hs
  split at hs
  next e hpc =>
    cases hs
    obtain ⟨hp, hpos⟩ := h.linked e hpc
    refine ⟨h.finished, ?_, nofun, nofun, fun e' he => ?_⟩
    · simp only [hina, Bool.false_eq_true, if_false]
      exact h.abandoned
    · cases he
      refine ⟨⟨hp.chain, hp.nonempty⟩, ?_⟩
      rcases hpos with hheld | hpos
      · exact hheld.clearToken
      · exact hpos.clearToken hina
  next => cases hs

theorem wait (h : AttachInv dma seg s) (hs : s.step dma seg oc .wait = some s') :
    AttachInv dma seg s' := by
  simp only [AttachWorld.step] at hs
  split at hs
  next e hpc =>
    obtain ⟨hw, hs⟩ := Option.ite_none_right_eq_some.mp hs
    cases hs
    obtain ⟨hcomplete, hfree⟩ := (h.waiting e hpc).2.of_waitTest hw
    refine ⟨fun e' he => ?_, h.abandoned, fun _ => hfree, nofun, nofun⟩
    rcases List.mem_append.mp he with he | he
    · exact h.finished e' he
    · rw [List.mem_singleton.mp he]
      exact hcomplete
  next => cases hs

theorem work (h : AttachInv dma seg s) {a : QueueLabel} {q : Queue}
    (hq : s.queue.step dma seg a = some q)
    (hpos : ∀ e, AttachPos dma seg s.queue e → AttachPos dma seg q e) :
    AttachInv dma seg { s with queue := q } := by
  refine ⟨h.finished, h.abandoned, fun hpc => absurd hpc (h.pc_ne_idle hq), fun e he => ?_,
    fun e he => ?_⟩
  · obtain ⟨hp, hheld | hlinked⟩ := h.linked e he
    · exact (not_held hheld hq).elim
    · exact ⟨⟨hp.chain.step hq, hp.nonempty⟩, .inr (hpos e hlinked)⟩
  · obtain ⟨hp, hwaiting⟩ := h.waiting e he
    exact ⟨⟨hp.chain.step hq, hp.nonempty⟩, hpos e hwaiting⟩

theorem complete (h : AttachInv dma seg s) {token : TransferToken} {q : Queue}
    (hq : s.queue.step dma seg (.complete token) = some q) :
    AttachInv dma seg
      { s with queue := q, pc := s.pc.retire (s.queue.current dma seg) token } := by
  have hidle := h.pc_ne_idle hq
  rcases hpc : s.pc with _ | e | e
  · exact absurd hpc hidle
  · obtain ⟨hp, hheld | hpos⟩ := h.linked e hpc
    · exact (not_held hheld hq).elim
    · refine ⟨h.finished, h.abandoned, nofun, fun e' he => ?_, nofun⟩
      cases he
      exact ⟨⟨hp.chain.step hq, hp.nonempty⟩, .inr (hpos.complete hp hq)⟩
  · obtain ⟨hp, hpos⟩ := h.waiting e hpc
    refine ⟨h.finished, h.abandoned, nofun, nofun, fun e' he => ?_⟩
    cases he
    exact ⟨⟨hp.chain.step hq, hp.nonempty⟩, hpos.complete hp hq⟩

theorem step (h : AttachInv dma seg s) {a : AttachLabel} (hin : TokenInTime s a)
    (hs : s.step dma seg oc a = some s') : AttachInv dma seg s' := by
  cases a with
  | start t => exact h.start hs
  | writeToken => exact h.writeToken hin hs
  | wait => exact h.wait hs
  | fetch =>
    obtain ⟨q, hq, rfl⟩ := Option.map_eq_some_iff.mp hs
    exact h.work hq fun e hpos => hpos.fetch hq
  | progress token =>
    obtain ⟨q, hq, rfl⟩ := Option.map_eq_some_iff.mp hs
    exact h.work hq fun e hpos => hpos.progress hq
  | complete token =>
    obtain ⟨q, hq, rfl⟩ := Option.map_eq_some_iff.mp hs
    exact h.complete hq

end AttachInv

/-- A descriptor taken out of the overlay stays on record. -/
theorem AttachWorld.abandoned_step {dma : Dma} {seg : CtrlDsSegment} {oc : OverflowChecks}
    {s s' : AttachWorld} {a : AttachLabel} (hs : s.step dma seg oc a = some s')
    (h : s'.abandoned = []) : s.abandoned = [] ∧ TokenInTime s a := by
  cases a with
  | start t =>
    simp only [AttachWorld.step] at hs
    obtain ⟨-, hs⟩ := Option.ite_none_right_eq_some.mp hs
    simp only [Option.bind_eq_bind, Option.bind_eq_some_iff, Option.some.injEq] at hs
    obtain ⟨q, -, setup, -, status, -, q', -, rfl⟩ := hs
    exact ⟨h, trivial⟩
  | writeToken =>
    simp only [AttachWorld.step] at hs
    split at hs
    next e hpc =>
      cases hs
      by_cases hact : s.queue.qh.transferToken.active = true
      · simp [hact] at h
      · rw [Bool.not_eq_true] at hact
        simp only [hact, Bool.false_eq_true, if_false] at h
        exact ⟨h, hact⟩
    next => cases hs
  | wait =>
    simp only [AttachWorld.step] at hs
    split at hs
    next e hpc =>
      obtain ⟨-, hs⟩ := Option.ite_none_right_eq_some.mp hs
      cases hs
      exact ⟨h, trivial⟩
    next => cases hs
  | fetch =>
    obtain ⟨q, -, rfl⟩ := Option.map_eq_some_iff.mp hs
    exact ⟨h, trivial⟩
  | progress token =>
    obtain ⟨q, -, rfl⟩ := Option.map_eq_some_iff.mp hs
    exact ⟨h, trivial⟩
  | complete token =>
    obtain ⟨q, -, rfl⟩ := Option.map_eq_some_iff.mp hs
    exact ⟨h, trivial⟩

/-- **Transfers on a live queue head.** A run executes the transfers in order, with no descriptor
abandoned, exactly if no second write of `attach_qtd` finds a descriptor in execution. -/
theorem sound_iff_tokensInTime {dma : Dma} {seg : CtrlDsSegment} {oc : OverflowChecks}
    {deviceAddress : BitVec 7} {endpointNumber : BitVec 4} {qtds : Heap Qtd} {tr : List AttachLabel}
    {s : AttachWorld}
    (h : exec (AttachWorld.step dma seg oc) (.loaded deviceAddress endpointNumber qtds) tr = some s) :
    s.Sound ↔ Meets (AttachWorld.step dma seg oc) TokenInTime
      (.loaded deviceAddress endpointNumber qtds) tr := by
  constructor
  · intro hsound
    refine exec_history (C := fun _ _ => True)
      (P := fun tr s => s.abandoned = [] → Meets (AttachWorld.step dma seg oc) TokenInTime
        (.loaded deviceAddress endpointNumber qtds) tr)
      (fun _ => trivial) ?_ (meets_true _ tr) h hsound.abandoned
    intro tr m a m' hm ih _ hs hab
    obtain ⟨hab', hin⟩ := AttachWorld.abandoned_step hs hab
    refine meets_append.mpr ⟨ih hab', fun m₁ hm₁ => ?_⟩
    rw [hm] at hm₁
    cases hm₁
    exact ⟨hin, fun _ _ => trivial⟩
  · intro hin
    exact (exec_invariant_of_meets (AttachInv.loaded deviceAddress endpointNumber qtds)
      (fun _ _ _ hi hc hs => hi.step hc hs) hin h).sound

/-- Two transfers without data on one queue head. -/
def exampleTransfers : ControlTransfer × ControlTransfer :=
  (.noData ⟨0x3000, 0x3000⟩ ⟨0x1000, 0x1000⟩ ⟨0x1040, 0x1040⟩,
    .noData ⟨0x3000, 0x3000⟩ ⟨0x1080, 0x1080⟩ ⟨0x10c0, 0x10c0⟩)

/-- The endpoint with its first transfer done and the next pointer set for the second. -/
def exampleLinked : List AttachLabel :=
  [.start exampleTransfers.1, .writeToken, .fetch, .complete .zero, .fetch, .complete .zero, .wait,
    .start exampleTransfers.2]

/-- The controller executes the setup descriptor of the second transfer between the writes. -/
theorem sound_two_transfers : ∃ s,
    exec (AttachWorld.step .identity .lower4G .on) (.loaded 1 0 blankQueue.qtds)
      (exampleLinked ++ [.fetch, .complete .zero, .writeToken, .fetch, .complete .zero, .wait]) =
        some s ∧ s.finished.length = 2 ∧ s.Sound := by
  obtain ⟨s, hs, hlen⟩ := exec_witness (AttachWorld.step .identity .lower4G .on)
    (.loaded 1 0 blankQueue.qtds)
    (exampleLinked ++ [.fetch, .complete .zero, .writeToken, .fetch, .complete .zero, .wait])
    (fun s => s.finished.length = 2) (by decide +kernel)
  exact ⟨s, hs, hlen, (sound_iff_tokensInTime hs).mpr (by decide +kernel)⟩

/-- The second write takes the setup descriptor of the second transfer out of the overlay. -/
theorem not_sound_setup_loaded :
    ¬ ∀ (dma : Dma) (seg : CtrlDsSegment) (oc : OverflowChecks) (deviceAddress : BitVec 7)
      (endpointNumber : BitVec 4) (qtds : Heap Qtd) (tr : List AttachLabel) (s : AttachWorld),
      exec (AttachWorld.step dma seg oc) (.loaded deviceAddress endpointNumber qtds) tr = some s →
      s.Sound := by
  intro h
  obtain ⟨s, hs, hne⟩ := exec_witness (AttachWorld.step .identity .lower4G .on)
    (.loaded 1 0 blankQueue.qtds) (exampleLinked ++ [.fetch, .writeToken])
    (fun s => s.abandoned = [0x1080]) (by decide +kernel)
  rw [(h _ _ _ _ _ _ _ _ hs).abandoned] at hne
  cases hne

end EzEhci
