import EzEhci.Endpoint.Control
import Mathlib.Algebra.GroupWithZero.Nat

/-!
# The data stage of `transfer_in`

`DataStage` is the controller running the descriptors of a control IN transfer
against a device with a response to send. It fills an IN descriptor in any
number of pieces and retires it when it is full or the device has nothing left
(a short or zero-length packet); it then goes on along the next or the
alternate pointer. `stores` is the list of its writes to memory, byte by byte,
each at the address that the page pointers of the descriptor give it.

The invariant `InPhase` follows the transfer from the setup descriptor over a
prefix of the IN descriptors to the status descriptor. Bytes of a buffer that
lie beyond the fifth page have no pointer and are lost (`TakenFits`).
-/

namespace EzEhci

open Lib

/-- A control transfer while the controller runs it: the descriptors it loaded so far, what the
device has not sent yet and what was received, with the addresses it was stored at (`none`: no page
pointer leads there). -/
structure DataStage where
  queue : Queue
  executed : List Ptr
  left : List Byte
  stores : List (Option (BitVec 64) × Byte)

inductive DataLabel where
  | fetch
  | store (k : Nat)
  | retire
  deriving DecidableEq, Repr

namespace DataStage

/-- The transfer is attached; the device has the response ready. -/
def start (q : Queue) (response : List Byte) : DataStage := ⟨q, [], response, []⟩

abbrev token (s : DataStage) : TransferToken := s.queue.qh.transferToken

def Receiving (s : DataStage) : Prop := s.token.pidCode = PidCode.inToken.toU2

instance (s : DataStage) : Decidable s.Receiving := inferInstanceAs (Decidable (_ = _))

section Step

variable (dma : Dma) (seg : CtrlDsSegment)

/-- Where the next `k` bytes go: behind those of the current descriptor that were received already,
through its page pointers. -/
def storeAddrs (s : DataStage) (k : Nat) : List (Option (BitVec 64)) :=
  let t := s.queue.qtds (s.queue.current dma seg)
  let received := t.qtdToken.totalBytesToTransfer.toNat - s.token.totalBytesToTransfer.toNat
  (List.range' received k).map t.byteAddr

/-- The token a descriptor is retired with. Setup and status descriptors are transferred whole. -/
def retiredToken (s : DataStage) : TransferToken :=
  if s.Receiving then s.token.withActive false
  else (s.token.withActive false).withTotalBytesToTransfer 0

def step (s : DataStage) : DataLabel → Option DataStage
  | .fetch => (s.queue.step dma seg .fetch).map fun q =>
    { s with queue := q, executed := s.executed ++ [q.current dma seg] }
  | .store k =>
    let total := s.token.totalBytesToTransfer
    if s.Receiving ∧ 0 < k ∧ k ≤ total.toNat ∧ k ≤ s.left.length then
      (s.queue.step dma seg (.progress
        (s.token.withTotalBytesToTransfer (total - BitVec.ofNat 15 k)))).map fun q =>
          { s with
            queue := q
            left := s.left.drop k
            stores := s.stores ++ (s.storeAddrs dma seg k).zip (s.left.take k) }
    else none
  | .retire =>
    if s.Receiving ∧ s.token.totalBytesToTransfer ≠ 0 ∧ s.left ≠ [] then none
    else (s.queue.step dma seg (.complete s.retiredToken)).map fun q => { s with queue := q }

end Step

end DataStage

/-! ## The overlay -/

/-- The overlay is idle and leads to `target`. -/
structure IdleAt (dma : Dma) (seg : CtrlDsSegment) (q : Queue) (target : Option Ptr) : Prop where
  inactive : q.qh.transferToken.active = false
  notHalted : q.qh.transferToken.halted = false
  target : q.advanceTarget.map (fun a => dma.virt (seg.addr a)) = target

/-- The descriptor at `c` is loaded, with `token` as the state of its transfer. -/
structure BusyAt (dma : Dma) (seg : CtrlDsSegment) (q : Queue) (c : Ptr) (token : TransferToken) :
    Prop where
  token : q.qh.transferToken = token
  current : q.current dma seg = c
  next : q.qh.nextQtdPointer = (q.qtds c).nextQtdPtr
  alt : q.qh.alternateQtdPointer = (q.qtds c).alternateNextQtdPtr

section Overlay

variable {dma : Dma} {seg : CtrlDsSegment} {s s' : DataStage} {a : DataLabel} {c : Ptr}
  {t : TransferToken}

theorem IdleAt.step (h : IdleAt dma seg s.queue (some c)) (hs : s.step dma seg a = some s') :
    BusyAt dma seg s'.queue c (s.queue.qtds c).qtdToken ∧ s'.queue.qtds = s.queue.qtds ∧
      s'.executed = s.executed ++ [c] ∧ s'.left = s.left ∧ s'.stores = s.stores := by
  cases a with
  | fetch =>
    simp only [DataStage.step, Option.map_eq_some_iff] at hs
    obtain ⟨q, hq, rfl⟩ := hs
    obtain ⟨-, -, addr, haddr, -, rfl⟩ := Queue.step_fetch hq
    have hc : dma.virt (seg.addr addr) = c := by
      have := h.target
      rw [haddr] at this
      exact Option.some.inj this
    refine ⟨⟨?_, hc, ?_, ?_⟩, rfl, ?_, rfl, rfl⟩
    · rw [← hc]
      rfl
    · rw [← hc]
      rfl
    · rw [← hc]
      rfl
    · rw [← hc]
      rfl
  | store k =>
    simp only [DataStage.step] at hs
    split at hs
    · simp [Queue.step, h.inactive] at hs
    · cases hs
  | retire =>
    simp only [DataStage.step] at hs
    split at hs
    · cases hs
    · simp [Queue.step, h.inactive] at hs

theorem IdleAt.step_none (h : IdleAt dma seg s.queue none) : s.step dma seg a = none := by
  cases a with
  | fetch =>
    have ht := Option.map_eq_none_iff.mp h.target
    simp [DataStage.step, Queue.step, h.inactive, h.notHalted, ht]
  | store k =>
    simp only [DataStage.step]
    split
    · simp [Queue.step, h.inactive]
    · rfl
  | retire =>
    simp only [DataStage.step]
    split
    · rfl
    · simp [Queue.step, h.inactive]

theorem BusyAt.step (h : BusyAt dma seg s.queue c t) (ha : t.active = true)
    (hs : s.step dma seg a = some s') :
    (∃ k, a = .store k ∧ t.pidCode = PidCode.inToken.toU2 ∧ 0 < k ∧
        k ≤ t.totalBytesToTransfer.toNat ∧ k ≤ s.left.length ∧
        BusyAt dma seg s'.queue c (t.withTotalBytesToTransfer (t.totalBytesToTransfer - BitVec.ofNat 15 k)) ∧
        s'.queue.qtds = s.queue.qtds ∧ s'.executed = s.executed ∧ s'.left = s.left.drop k ∧
        s'.stores = s.stores ++ (s.storeAddrs dma seg k).zip (s.left.take k)) ∨
    (a = .retire ∧ (t.pidCode = PidCode.inToken.toU2 → t.totalBytesToTransfer = 0 ∨ s.left = []) ∧
      s' = { s with queue := s.queue.retire dma seg s.retiredToken }) := by
  obtain ⟨rfl, hcur, hnext, halt⟩ := h
  cases a with
  | fetch => simp [DataStage.step, Queue.step, ha] at hs
  | store k =>
    simp only [DataStage.step] at hs
    split at hs
    case isFalse => cases hs
    rename_i hg
    simp only [Option.map_eq_some_iff] at hs
    obtain ⟨q, hq, rfl⟩ := hs
    obtain ⟨-, -, rfl⟩ := Queue.step_progress hq
    exact .inl ⟨k, rfl, hg.1, hg.2.1, hg.2.2.1, hg.2.2.2, ⟨rfl, hcur, hnext, halt⟩, rfl, rfl, rfl, rfl⟩
  | retire =>
    simp only [DataStage.step] at hs
    split at hs
    case isTrue => cases hs
    rename_i hg
    simp only [Option.map_eq_some_iff] at hs
    obtain ⟨q, hq, rfl⟩ := hs
    obtain ⟨-, -, -, rfl⟩ := Queue.step_complete hq
    refine .inr ⟨rfl, fun hp => ?_, rfl⟩
    by_contra hn
    rw [not_or] at hn
    exact hg ⟨hp, hn⟩

theorem BusyAt.retire (h : BusyAt dma seg s.queue c t) (hh : t.halted = false) :
    IdleAt dma seg (s.queue.retire dma seg s.retiredToken)
      (if s.retiredToken.totalBytesToTransfer ≠ 0 then
        (qtdAlt dma seg s.queue.qtds c).or (qtdNext dma seg s.queue.qtds c)
      else qtdNext dma seg s.queue.qtds c) := by
  obtain ⟨rfl, hcur, hnext, halt⟩ := h
  refine ⟨?_, ?_, ?_⟩
  · simp only [Queue.retire, DataStage.retiredToken]
    split <;> simp
  · simp only [Queue.retire, DataStage.retiredToken]
    split <;> simp [hh]
  · simp only [Queue.advanceTarget, Queue.retire, hnext, halt, qtdNext, qtdAlt]
    split
    · exact Option.map_or
    · rfl

end Overlay

/-! ## Addresses -/

/-- Where `n` bytes of a buffer at `a` go, from byte `c` on. -/
def pagedSpan (a : BitVec 64) (c n : Nat) : List (Option (BitVec 64)) := (List.range' c n).map (pagedAddr a)

@[simp] theorem length_pagedSpan (a : BitVec 64) (c n : Nat) : (pagedSpan a c n).length = n := by
  simp [pagedSpan]

theorem drop_pagedSpan (a : BitVec 64) {n c : Nat} : (pagedSpan a 0 n).drop c = pagedSpan a c (n - c) := by
  simp [pagedSpan, ← List.map_drop]

theorem take_pagedSpan (a : BitVec 64) (c n k : Nat) :
    (pagedSpan a c n).take k = pagedSpan a c (min k n) :=
  List.ext_getElem (by simp) fun i h1 h2 => by simp [pagedSpan]

/-- The IN descriptors with the buffers they are for. -/
abbrev InJobs := List (Ptr × MappedSlice)

def InJobs.size (jobs : InJobs) : Nat := (jobs.map fun j => j.2.len).sum

@[simp] theorem InJobs.size_nil : InJobs.size [] = 0 := rfl

@[simp] theorem InJobs.size_cons (j : Ptr × MappedSlice) (jobs : InJobs) :
    InJobs.size (j :: jobs) = j.2.len + InJobs.size jobs := by simp [InJobs.size]

@[simp] theorem InJobs.size_append (l₁ l₂ : InJobs) :
    InJobs.size (l₁ ++ l₂) = InJobs.size l₁ + InJobs.size l₂ := by simp [InJobs.size]

/-- Where the page pointers of the buffers lead to, byte by byte. -/
def pagedAddrs (buffers : List MappedSlice) : List (Option (BitVec 64)) :=
  buffers.flatMap fun b => pagedSpan b.physAddr 0 b.len

theorem pagedAddrs_cons (b : MappedSlice) (bs : List MappedSlice) :
    pagedAddrs (b :: bs) = pagedSpan b.physAddr 0 b.len ++ pagedAddrs bs := rfl

def InJobs.addrs (jobs : InJobs) : List (Option (BitVec 64)) := pagedAddrs (jobs.map Prod.snd)

theorem InJobs.addrs_append (l₁ l₂ : InJobs) :
    InJobs.addrs (l₁ ++ l₂) = InJobs.addrs l₁ ++ InJobs.addrs l₂ := by
  simp [InJobs.addrs, pagedAddrs]

theorem InJobs.addrs_cons (j : Ptr × MappedSlice) (jobs : InJobs) :
    InJobs.addrs (j :: jobs) = pagedSpan j.2.physAddr 0 j.2.len ++ InJobs.addrs jobs :=
  pagedAddrs_cons j.2 _

theorem InJobs.length_addrs (jobs : InJobs) : jobs.addrs.length = jobs.size := by
  induction jobs with
  | nil => rfl
  | cons j jobs ih => rw [addrs_cons, List.length_append, ih, size_cons, length_pagedSpan]

theorem InJobs.addrs_window {pre rest : InJobs} {j : Ptr × MappedSlice} {c k : Nat}
    (h : c + k ≤ j.2.len) :
    ((InJobs.addrs (pre ++ j :: rest)).drop (InJobs.size pre + c)).take k =
      pagedSpan j.2.physAddr c k := by
  rw [addrs_append, addrs_cons, ← length_addrs, ← List.drop_drop, List.drop_left,
    List.drop_append_of_le_length (by simp; omega), drop_pagedSpan,
    List.take_append_of_le_length (by simp; omega), take_pagedSpan, Nat.min_eq_left (by omega)]

/-- What the tokens of the descriptors say was received. -/
def InJobs.received (qtds : Heap Qtd) (jobs : InJobs) : Nat :=
  (jobs.map fun j => j.2.len - (qtds j.1).qtdToken.totalBytesToTransfer.toNat).sum

@[simp] theorem InJobs.received_cons (qtds : Heap Qtd) (j : Ptr × MappedSlice) (jobs : InJobs) :
    InJobs.received qtds (j :: jobs) =
      j.2.len - (qtds j.1).qtdToken.totalBytesToTransfer.toNat + InJobs.received qtds jobs := by
  simp [InJobs.received]

@[simp] theorem InJobs.received_append (qtds : Heap Qtd) (l₁ l₂ : InJobs) :
    InJobs.received qtds (l₁ ++ l₂) = InJobs.received qtds l₁ + InJobs.received qtds l₂ := by
  simp [InJobs.received]

/-! ## The phases of a transfer -/

/-- The chain of a control IN transfer: setup descriptor, one IN descriptor for each buffer, status
descriptor. -/
structure InChain (dma : Dma) (seg : CtrlDsSegment) (qtds : Heap Qtd) (setup : Ptr) (jobs : InJobs)
    (status : Ptr) : Prop where
  chain : Chain dma seg qtds (setup :: jobs.map Prod.fst) status
  setup : (qtds setup).qtdToken = .newActive .setupToken 8
  data : ∀ j ∈ jobs, ∃ alternate, InQtdAt qtds j.1 j.2 alternate ∧
    alternate.target.map (fun a => dma.virt (seg.addr a)) = some status
  status : (qtds status).qtdToken = statusToken .outToken

/-- Every descriptor of the list is full. -/
def InJobs.Filled (qtds : Heap Qtd) (jobs : InJobs) : Prop :=
  ∀ j ∈ jobs, (qtds j.1).qtdToken.totalBytesToTransfer = 0

/-- No descriptor of the list was worked on. -/
def InJobs.Untouched (qtds : Heap Qtd) (jobs : InJobs) : Prop :=
  ∀ j ∈ jobs, j.2.len < 2 ^ 15 ∧ (qtds j.1).qtdToken = inToken j.2.len

/-- The descriptors have the links and buffers they were built with. -/
def SameLinks (qtds₀ qtds : Heap Qtd) : Prop :=
  ∀ p, qtds p = { qtds₀ p with qtdToken := (qtds p).qtdToken }

/-- `t` bytes of the response were moved. -/
structure Moved (jobs : InJobs) (response : List Byte) (s : DataStage) (t : Nat) : Prop where
  le : t ≤ response.length
  left : s.left = response.drop t
  stores : s.stores = (jobs.addrs.zip response).take t

/-- The descriptors while the IN descriptors `pre` are full and `rest` were not worked on. -/
structure Partway (qtds₀ qtds : Heap Qtd) (pre rest : InJobs) (status : Ptr) : Prop where
  links : SameLinks qtds₀ qtds
  filled : pre.Filled qtds
  untouched : rest.Untouched qtds
  status : (qtds status).qtdToken = statusToken .outToken

/-- The data stage is over. -/
structure JobsSettled (jobs : InJobs) (response : List Byte) (s : DataStage) : Prop where
  bounded : ∀ j ∈ jobs, j.2.len < 2 ^ 15 ∧
    (s.queue.qtds j.1).qtdToken.totalBytesToTransfer.toNat ≤ j.2.len
  received : jobs.received s.queue.qtds = response.length
  moved : Moved jobs response s response.length

section Phase

variable (dma : Dma) (seg : CtrlDsSegment) (qtds₀ : Heap Qtd) (setup : Ptr) (jobs : InJobs)
  (status : Ptr) (response : List Byte)

inductive InPhase (s : DataStage) : Prop where
  | start (idle : IdleAt dma seg s.queue (some setup)) (qtds : s.queue.qtds = qtds₀)
      (executed : s.executed = []) (moved : Moved jobs response s 0)
  | setup (busy : BusyAt dma seg s.queue setup (.newActive .setupToken 8))
      (qtds : s.queue.qtds = qtds₀) (executed : s.executed = [setup]) (moved : Moved jobs response s 0)
  | between (pre : InJobs) (j : Ptr × MappedSlice) (rest : InJobs) (split : jobs = pre ++ j :: rest)
      (idle : IdleAt dma seg s.queue (some j.1))
      (partway : Partway qtds₀ s.queue.qtds pre (j :: rest) status)
      (executed : s.executed = setup :: pre.map Prod.fst) (moved : Moved jobs response s pre.size)
  | filling (pre : InJobs) (j : Ptr × MappedSlice) (rest : InJobs) (split : jobs = pre ++ j :: rest)
      (c : Nat) (token : TransferToken) (busy : BusyAt dma seg s.queue j.1 token)
      (active : token.active = true) (notHalted : token.halted = false)
      (pid : token.pidCode = PidCode.inToken.toU2) (le : c ≤ j.2.len)
      (total : token.totalBytesToTransfer.toNat = j.2.len - c)
      (partway : Partway qtds₀ s.queue.qtds pre (j :: rest) status)
      (executed : s.executed = setup :: (pre ++ [j]).map Prod.fst)
      (moved : Moved jobs response s (pre.size + c))
  | drained (pre rest : InJobs) (split : jobs = pre ++ rest) (idle : IdleAt dma seg s.queue (some status))
      (links : SameLinks qtds₀ s.queue.qtds)
      (statusQtd : (s.queue.qtds status).qtdToken = statusToken .outToken)
      (executed : s.executed = setup :: pre.map Prod.fst) (settled : JobsSettled jobs response s)
  | status (pre rest : InJobs) (split : jobs = pre ++ rest)
      (busy : BusyAt dma seg s.queue status (statusToken .outToken))
      (links : SameLinks qtds₀ s.queue.qtds)
      (statusQtd : (s.queue.qtds status).qtdToken = statusToken .outToken)
      (executed : s.executed = setup :: (pre.map Prod.fst ++ [status]))
      (settled : JobsSettled jobs response s)
  | finished (pre rest : InJobs) (split : jobs = pre ++ rest) (idle : IdleAt dma seg s.queue none)
      (alt : s.queue.qh.alternateQtdPointer.target = none)
      (done : (s.queue.qtds status).qtdToken.active = false)
      (executed : s.executed = setup :: (pre.map Prod.fst ++ [status]))
      (settled : JobsSettled jobs response s)

end Phase

section Steps

variable {dma : Dma} {seg : CtrlDsSegment} {qtds₀ : Heap Qtd} {setup : Ptr} {jobs : InJobs}
  {status : Ptr} {response : List Byte} {s s' : DataStage} {a : DataLabel}

theorem SameLinks.next {qtds : Heap Qtd} (h : SameLinks qtds₀ qtds) (p : Ptr) :
    qtdNext dma seg qtds p = qtdNext dma seg qtds₀ p := by
  rw [qtdNext, h p]
  rfl

theorem SameLinks.alt {qtds : Heap Qtd} (h : SameLinks qtds₀ qtds) (p : Ptr) :
    qtdAlt dma seg qtds p = qtdAlt dma seg qtds₀ p := by
  rw [qtdAlt, h p]
  rfl

theorem SameLinks.refl (qtds : Heap Qtd) : SameLinks qtds qtds := fun _ => rfl

theorem SameLinks.retire (h : SameLinks qtds₀ s.queue.qtds) (token : TransferToken) :
    SameLinks qtds₀ (s.queue.retire dma seg token).qtds := by
  intro p
  rw [retire_qtds]
  split
  · rw [h p]
  · exact h p

theorem Moved.congr {t : Nat} (h : Moved jobs response s t) (hl : s'.left = s.left)
    (hst : s'.stores = s.stores) : Moved jobs response s' t :=
  ⟨h.le, hl.trans h.left, hst.trans h.stores⟩

theorem Moved.store {t k : Nat} (h : Moved jobs response s t) (hk : k ≤ s.left.length)
    (hl : s'.left = s.left.drop k)
    (hst : s'.stores = s.stores ++ ((jobs.addrs.drop t).take k).zip (s.left.take k)) :
    Moved jobs response s' (t + k) := by
  have hlen := h.le
  rw [h.left, List.length_drop] at hk
  refine ⟨by omega, ?_, ?_⟩
  · rw [hl, h.left, List.drop_drop]
  · rw [hst, h.stores, h.left, List.take_add]
    simp only [List.zip, List.drop_zipWith, List.take_zipWith]

theorem InJobs.received_filled {qtds : Heap Qtd} {l : InJobs} (h : l.Filled qtds) :
    l.received qtds = l.size := by
  induction l with
  | nil => rfl
  | cons j l ih =>
    rw [InJobs.received_cons, InJobs.size_cons, h j (by simp), ih fun i hi => h i (by simp [hi])]
    simp

theorem inToken_total {len : Nat} (h : len < 2 ^ 15) : (inToken len).totalBytesToTransfer.toNat = len := by
  simp only [inToken, TransferToken.withInterruptOnComplete_total, TransferToken.withDataToggle_total,
    TransferToken.newActive_total, BitVec.toNat_ofNat]
  exact Nat.mod_eq_of_lt h

theorem InJobs.received_untouched {qtds : Heap Qtd} {l : InJobs} (h : l.Untouched qtds) :
    l.received qtds = 0 := by
  induction l with
  | nil => rfl
  | cons j l ih =>
    obtain ⟨hlt, htok⟩ := h j (by simp)
    rw [InJobs.received_cons, htok, inToken_total hlt, ih fun i hi => h i (by simp [hi])]
    omega

theorem BusyAt.retire_other {c p : Ptr} {t : TransferToken} (h : BusyAt dma seg s.queue c t)
    (token : TransferToken) (hp : p ≠ c) :
    (s.queue.retire dma seg token).qtds p = s.queue.qtds p := by
  rw [retire_qtds, h.current, if_neg hp]

/-- The overlay keeps the alternate pointer of the descriptor it retired. -/
theorem BusyAt.retire_alt {c : Ptr} {t : TransferToken} (h : BusyAt dma seg s.queue c t)
    {token : TransferToken} (ha : qtdAlt dma seg s.queue.qtds c = none) :
    (s.queue.retire dma seg token).qh.alternateQtdPointer.target = none := by
  rw [qtdAlt, Option.map_eq_none_iff] at ha
  exact (congrArg AlternateQtdLinkPtr.target h.alt).trans ha

theorem BusyAt.retire_self {c : Ptr} {t : TransferToken} (h : BusyAt dma seg s.queue c t)
    (token : TransferToken) : ((s.queue.retire dma seg token).qtds c).qtdToken = token := by
  rw [retire_qtds, h.current, if_pos rfl]

namespace InChain

variable (hc : InChain dma seg qtds₀ setup jobs status)

include hc

theorem len_lt {j : Ptr × MappedSlice} (hj : j ∈ jobs) : j.2.len < 2 ^ 15 := by
  obtain ⟨_, hat, -⟩ := hc.data j hj
  exact hat.len_lt

theorem alt {j : Ptr × MappedSlice} (hj : j ∈ jobs) : qtdAlt dma seg qtds₀ j.1 = some status := by
  obtain ⟨_, hat, htarget⟩ := hc.data j hj
  rw [qtdAlt, hat.alt, htarget]

theorem setup_ne {j : Ptr × MappedSlice} (hj : j ∈ jobs) : j.1 ≠ setup := by
  have hnd := hc.chain.nodup
  rw [List.cons_append, List.nodup_cons] at hnd
  intro e
  exact hnd.1 (e ▸ List.mem_append_left _ (List.mem_map_of_mem hj))

theorem status_ne_setup : status ≠ setup := by
  have hnd := hc.chain.nodup
  rw [List.cons_append, List.nodup_cons] at hnd
  rintro rfl
  exact hnd.1 (by simp)

theorem status_ne {j : Ptr × MappedSlice} (hj : j ∈ jobs) : j.1 ≠ status := by
  have hnd := hc.chain.nodup
  rw [List.cons_append, List.nodup_cons] at hnd
  exact (List.nodup_append.mp hnd.2).2.2 j.1 (List.mem_map_of_mem hj) status (by simp)

theorem next {pre rest : InJobs} {j : Ptr × MappedSlice} (hsplit : jobs = pre ++ j :: rest) :
    qtdNext dma seg qtds₀ j.1 = (rest.map Prod.fst ++ [status]).head? := by
  have hl := hc.chain.links
  have he : setup :: jobs.map Prod.fst ++ [status] =
      (setup :: pre.map Prod.fst) ++ j.1 :: (rest.map Prod.fst ++ [status]) := by
    rw [hsplit]
    simp
  rw [he] at hl
  simpa using linked_mid hl

theorem ne_of_split {pre rest : InJobs} {i j : Ptr × MappedSlice} (hsplit : jobs = pre ++ j :: rest)
    (hi : i ∈ pre ∨ i ∈ rest) : i.1 ≠ j.1 := by
  have hnd := hc.chain.nodup
  rw [List.cons_append, List.nodup_cons] at hnd
  have hjobs := (List.nodup_append.mp hnd.2).1
  rw [hsplit, List.map_append, List.map_cons] at hjobs
  obtain ⟨-, h2, h3⟩ := List.nodup_append.mp hjobs
  rcases hi with hi | hi
  · exact h3 i.1 (List.mem_map_of_mem hi) j.1 List.mem_cons_self
  · intro e
    exact (List.nodup_cons.mp h2).1 (e ▸ List.mem_map_of_mem hi)

end InChain

theorem step_start (hc : InChain dma seg qtds₀ setup jobs status)
    (idle : IdleAt dma seg s.queue (some setup)) (qtds : s.queue.qtds = qtds₀)
    (executed : s.executed = []) (moved : Moved jobs response s 0) (hs : s.step dma seg a = some s') :
    InPhase dma seg qtds₀ setup jobs status response s' := by
  obtain ⟨hbusy, hq, he, hl, hst⟩ := idle.step hs
  rw [qtds, hc.setup] at hbusy
  exact .setup hbusy (hq.trans qtds) (by rw [he, executed]; rfl) (moved.congr hl hst)

theorem step_setup (hc : InChain dma seg qtds₀ setup jobs status) (hjobs : jobs ≠ [])
    (busy : BusyAt dma seg s.queue setup (.newActive .setupToken 8)) (qtds : s.queue.qtds = qtds₀)
    (executed : s.executed = [setup]) (moved : Moved jobs response s 0)
    (hs : s.step dma seg a = some s') : InPhase dma seg qtds₀ setup jobs status response s' := by
  obtain ⟨k, -, hpid, -⟩ | ⟨-, -, rfl⟩ := busy.step (by simp) hs
  · rw [TransferToken.newActive_pidCode] at hpid
    cases hpid
  · -- the setup descriptor is transferred whole
    have hrec : ¬ s.Receiving := by
      rw [DataStage.Receiving, DataStage.token, busy.token, TransferToken.newActive_pidCode]
      decide
    have hidle := busy.retire (by simp)
    rw [DataStage.retiredToken, if_neg hrec] at hidle
    simp only [TransferToken.withTotalBytesToTransfer_total, ne_eq, not_true_eq_false, if_false] at hidle
    obtain ⟨j, rest, rfl⟩ := List.exists_cons_of_ne_nil hjobs
    have hnext : qtdNext dma seg qtds₀ setup = some j.1 := hc.chain.links.1
    rw [qtds, hnext] at hidle
    refine .between [] j rest rfl (by rw [DataStage.retiredToken, if_neg hrec]; exact hidle)
      ⟨?_, by simp [InJobs.Filled], fun i hi => ?_, ?_⟩ executed (moved.congr rfl rfl)
    · exact SameLinks.retire (by rw [qtds]; exact .refl _) _
    · simp only [busy.retire_other _ (hc.setup_ne hi), qtds]
      obtain ⟨_, hat, -⟩ := hc.data i hi
      exact ⟨hat.len_lt, hat.token⟩
    · simp only [busy.retire_other _ hc.status_ne_setup, qtds]
      exact hc.status

theorem step_between {pre rest : InJobs} {j : Ptr × MappedSlice} (split : jobs = pre ++ j :: rest)
    (idle : IdleAt dma seg s.queue (some j.1))
    (partway : Partway qtds₀ s.queue.qtds pre (j :: rest) status)
    (executed : s.executed = setup :: pre.map Prod.fst) (moved : Moved jobs response s pre.size)
    (hs : s.step dma seg a = some s') : InPhase dma seg qtds₀ setup jobs status response s' := by
  obtain ⟨hbusy, hq, he, hl, hst⟩ := idle.step hs
  obtain ⟨hlt, htok⟩ := partway.untouched j (by simp)
  rw [htok] at hbusy
  refine .filling pre j rest split 0 _ hbusy (by simp [inToken]) (by simp [inToken])
    (by simp [inToken]) (Nat.zero_le _) (inToken_total hlt) (hq ▸ partway) ?_ (moved.congr hl hst)
  rw [he, executed]
  simp

section Filling

variable (hc : InChain dma seg qtds₀ setup jobs status) {pre rest : InJobs} {j : Ptr × MappedSlice}
  (split : jobs = pre ++ j :: rest) {c : Nat} {token : TransferToken}
  (busy : BusyAt dma seg s.queue j.1 token) (le : c ≤ j.2.len)
  (total : token.totalBytesToTransfer.toNat = j.2.len - c)
  (partway : Partway qtds₀ s.queue.qtds pre (j :: rest) status)

include hc split busy partway

theorem storeAddrs_filling (le : c ≤ j.2.len)
    (total : token.totalBytesToTransfer.toNat = j.2.len - c) (k : Nat) :
    s.storeAddrs dma seg k = pagedSpan j.2.physAddr c k := by
  obtain ⟨hlt, htok⟩ := partway.untouched j (by simp)
  have hbytes : (s.queue.qtds j.1).byteAddr = pagedAddr j.2.physAddr := by
    obtain ⟨_, hat, -⟩ := hc.data j (by simp [split])
    rw [partway.links j.1]
    exact funext hat.bytes
  have hc' : j.2.len - (j.2.len - c) = c := by omega
  simp only [DataStage.storeAddrs, busy.current, hbytes, htok, inToken_total hlt, DataStage.token,
    busy.token, total, hc', pagedSpan]

/-- When a descriptor is retired, those before it are full and those behind it are as they were. -/
theorem retire_filling (r : TransferToken) :
    SameLinks qtds₀ (s.queue.retire dma seg r).qtds ∧ pre.Filled (s.queue.retire dma seg r).qtds ∧
      rest.Untouched (s.queue.retire dma seg r).qtds ∧
      ((s.queue.retire dma seg r).qtds status).qtdToken = statusToken .outToken := by
  refine ⟨partway.links.retire r, fun i hi => ?_, fun i hi => ?_, ?_⟩
  · rw [busy.retire_other r (hc.ne_of_split split (.inl hi))]
    exact partway.filled i hi
  · rw [busy.retire_other r (hc.ne_of_split split (.inr hi))]
    exact partway.untouched i (List.mem_cons_of_mem j hi)
  · rw [busy.retire_other r (hc.status_ne (by simp [split])).symm]
    exact partway.status

/-- The data stage ends with a descriptor that the device's last packet went to. -/
theorem settled_filling {r : TransferToken} (hr : r.totalBytesToTransfer.toNat = j.2.len - c)
    (le : c ≤ j.2.len) (hlast : pre.size + c = response.length)
    (moved : Moved jobs response s (pre.size + c)) :
    JobsSettled jobs response { s with queue := s.queue.retire dma seg r } := by
  obtain ⟨-, hfilled, huntouched, -⟩ := retire_filling hc split busy partway r
  refine ⟨fun i hi => ⟨hc.len_lt hi, ?_⟩, ?_, hlast ▸ moved.congr rfl rfl⟩
  · rw [split, List.mem_append, List.mem_cons] at hi
    rcases hi with hi | rfl | hi
    · simp only [hfilled i hi]
      exact Nat.zero_le _
    · simp only [busy.retire_self r, hr]
      omega
    · obtain ⟨hlt, htok⟩ := huntouched i hi
      simp only [htok, inToken_total hlt]
      exact Nat.le_refl _
  · rw [split, InJobs.received_append, InJobs.received_cons, InJobs.received_filled hfilled,
      InJobs.received_untouched huntouched, ← hlast]
    simp only [busy.retire_self r, hr]
    omega

/-- Behind a full descriptor comes the next one, and the status descriptor behind the last. -/
theorem full_filling (hn : response.length ≤ jobs.size) (le : c ≤ j.2.len)
    (total : token.totalBytesToTransfer.toNat = j.2.len - c)
    (executed : s.executed = setup :: (pre ++ [j]).map Prod.fst)
    (moved : Moved jobs response s (pre.size + c)) (hfull : token.totalBytesToTransfer = 0)
    (hidle : IdleAt dma seg (s.queue.retire dma seg (token.withActive false))
      (rest.map Prod.fst ++ [status]).head?) :
    InPhase dma seg qtds₀ setup jobs status response
      { s with queue := s.queue.retire dma seg (token.withActive false) } := by
  obtain ⟨hlinks, hfilled, huntouched, hstatus⟩ :=
    retire_filling hc split busy partway (token.withActive false)
  have hcl : c = j.2.len := by
    have : token.totalBytesToTransfer.toNat = 0 := by rw [hfull]; rfl
    omega
  cases rest with
  | nil =>
    have hlast : pre.size + c = response.length := by
      have := moved.le
      rw [split, InJobs.size_append, InJobs.size_cons, InJobs.size_nil] at hn
      omega
    exact .drained (pre ++ [j]) [] (by simp [split]) hidle hlinks hstatus executed
      (settled_filling hc split busy partway (by rw [TransferToken.withActive_total, total]) le hlast
        moved)
  | cons i rest =>
    refine .between (pre ++ [j]) i rest (by simp [split]) hidle ⟨hlinks, ?_, huntouched, hstatus⟩
      executed ?_
    · intro x hx
      rcases List.mem_append.mp hx with hx | hx
      · exact hfilled x hx
      · rw [List.mem_singleton.mp hx]
        simp only [busy.retire_self, TransferToken.withActive_total, hfull]
    · rw [InJobs.size_append, InJobs.size_cons, InJobs.size_nil, Nat.add_zero, ← hcl]
      exact moved.congr rfl rfl

/-- A short descriptor holds the end of the response, and the status descriptor comes next. -/
theorem short_filling (le : c ≤ j.2.len) (total : token.totalBytesToTransfer.toNat = j.2.len - c)
    (executed : s.executed = setup :: (pre ++ [j]).map Prod.fst)
    (moved : Moved jobs response s (pre.size + c)) (hempty : s.left = [])
    (hidle : IdleAt dma seg (s.queue.retire dma seg (token.withActive false)) (some status)) :
    InPhase dma seg qtds₀ setup jobs status response
      { s with queue := s.queue.retire dma seg (token.withActive false) } := by
  obtain ⟨hlinks, -, -, hstatus⟩ := retire_filling hc split busy partway (token.withActive false)
  have hlast : pre.size + c = response.length := by
    have hle := moved.le
    have := moved.left
    rw [hempty] at this
    have := List.drop_eq_nil_iff.mp this.symm
    omega
  exact .drained (pre ++ [j]) rest (by simp [split]) hidle hlinks hstatus executed
    (settled_filling hc split busy partway (by rw [TransferToken.withActive_total, total]) le hlast
      moved)

end Filling

theorem step_filling (hc : InChain dma seg qtds₀ setup jobs status) (hn : response.length ≤ jobs.size)
    {pre rest : InJobs} {j : Ptr × MappedSlice} (split : jobs = pre ++ j :: rest) {c : Nat}
    {token : TransferToken} (busy : BusyAt dma seg s.queue j.1 token) (active : token.active = true)
    (notHalted : token.halted = false) (pid : token.pidCode = PidCode.inToken.toU2)
    (le : c ≤ j.2.len) (total : token.totalBytesToTransfer.toNat = j.2.len - c)
    (partway : Partway qtds₀ s.queue.qtds pre (j :: rest) status)
    (executed : s.executed = setup :: (pre ++ [j]).map Prod.fst)
    (moved : Moved jobs response s (pre.size + c)) (hs : s.step dma seg a = some s') :
    InPhase dma seg qtds₀ setup jobs status response s' := by
  obtain ⟨k, -, -, hk, hkt, hkl, hbusy, hq, he, hl, hst⟩ | ⟨-, hdone, rfl⟩ := busy.step active hs
  · have hkc : c + k ≤ j.2.len := by omega
    refine .filling pre j rest split (c + k) _ hbusy (by simpa using active) (by simpa using notHalted)
      (by simpa using pid) hkc ?_ (hq ▸ partway) (he.trans executed) ?_
    · have hlt : j.2.len < 2 ^ 15 := (partway.untouched j (by simp)).1
      have hk15 : (BitVec.ofNat 15 k).toNat = k := by
        rw [BitVec.toNat_ofNat]
        exact Nat.mod_eq_of_lt (by omega)
      rw [TransferToken.withTotalBytesToTransfer_total, BitVec.toNat_sub_of_le, total, hk15]
      · omega
      · rw [BitVec.le_def, hk15]
        exact hkt
    · rw [← Nat.add_assoc]
      refine moved.store hkl hl ?_
      rw [hst, storeAddrs_filling hc split busy partway le total, split, InJobs.addrs_window hkc]
  · have hrec : s.Receiving := by
      rw [DataStage.Receiving, DataStage.token, busy.token]
      exact pid
    have hret : s.retiredToken = token.withActive false := by
      rw [DataStage.retiredToken, if_pos hrec, DataStage.token, busy.token]
    have hidle := busy.retire notHalted
    rw [partway.links.next, partway.links.alt, hc.alt (by simp [split]), hc.next split] at hidle
    rw [hret, TransferToken.withActive_total] at hidle
    rw [hret]
    by_cases hfull : token.totalBytesToTransfer = 0
    · rw [if_neg (not_not_intro hfull)] at hidle
      exact full_filling hc split busy partway hn le total executed moved hfull hidle
    · rw [if_pos hfull, Option.some_or] at hidle
      have hempty := (hdone pid).resolve_left hfull
      exact short_filling hc split busy partway le total executed moved hempty hidle

theorem JobsSettled.congr (h : JobsSettled jobs response s)
    (hq : ∀ j ∈ jobs, (s'.queue.qtds j.1).qtdToken = (s.queue.qtds j.1).qtdToken)
    (hl : s'.left = s.left) (hst : s'.stores = s.stores) : JobsSettled jobs response s' := by
  refine ⟨fun j hj => by rw [hq j hj]; exact h.bounded j hj, ?_, h.moved.congr hl hst⟩
  rw [← h.received]
  unfold InJobs.received
  congr 1
  exact List.map_congr_left fun j hj => by rw [hq j hj]

/-- **Every step of the controller** takes the transfer from one phase to the next. -/
theorem InPhase.step (hc : InChain dma seg qtds₀ setup jobs status) (hjobs : jobs ≠ [])
    (hn : response.length ≤ jobs.size) (h : InPhase dma seg qtds₀ setup jobs status response s)
    (hs : s.step dma seg a = some s') : InPhase dma seg qtds₀ setup jobs status response s' := by
  cases h with
  | start idle qtds executed moved => exact step_start hc idle qtds executed moved hs
  | setup busy qtds executed moved => exact step_setup hc hjobs busy qtds executed moved hs
  | between pre j rest split idle partway executed moved =>
    exact step_between split idle partway executed moved hs
  | filling pre j rest split c token busy active notHalted pid le total partway executed moved =>
    exact step_filling hc hn split busy active notHalted pid le total partway executed moved hs
  | drained pre rest split idle links statusQtd executed settled =>
    obtain ⟨hbusy, hq, he, hl, hst⟩ := idle.step hs
    rw [statusQtd] at hbusy
    refine .status pre rest split hbusy (hq ▸ links) (hq ▸ statusQtd) ?_
      (settled.congr (fun j _ => by rw [hq]) hl hst)
    rw [he, executed]
    rfl
  | status pre rest split busy links statusQtd executed settled =>
    obtain ⟨k, -, hpid, -⟩ | ⟨-, -, rfl⟩ := busy.step (by simp [statusToken]) hs
    · simp [statusToken] at hpid
      cases hpid
    · have hrec : ¬ s.Receiving := by
        rw [DataStage.Receiving, DataStage.token, busy.token]
        simp [statusToken]
        decide
      have hidle := busy.retire (by simp [statusToken])
      have htotal : s.retiredToken.totalBytesToTransfer = 0 := by
        rw [DataStage.retiredToken, if_neg hrec, TransferToken.withTotalBytesToTransfer_total]
      have hnext : qtdNext dma seg qtds₀ status = none := linked_mid hc.chain.links
      rw [if_neg (not_not_intro htotal), links.next, hnext] at hidle
      refine .finished pre rest split hidle ?_ ?_ executed (settled.congr (fun j hj => ?_) rfl rfl)
      · exact busy.retire_alt (links.alt status ▸ hc.chain.alt_status)
      · simp only [busy.retire_self, DataStage.retiredToken, if_neg hrec,
          TransferToken.withTotalBytesToTransfer_active, TransferToken.withActive_active]
      · simp only [busy.retire_other _ (hc.status_ne hj)]
  | finished pre rest split idle alt done executed settled =>
    rw [idle.step_none] at hs
    cases hs

/-- In every phase but the last the status descriptor is active. -/
theorem InPhase.finished_of_waitTest (hc : InChain dma seg qtds₀ setup jobs status)
    (h : InPhase dma seg qtds₀ setup jobs status response s)
    (hw : s.queue.waitTest status = true) :
    ∃ pre rest, jobs = pre ++ rest ∧ s.executed = setup :: (pre.map Prod.fst ++ [status]) ∧
      JobsSettled jobs response s := by
  have hactive : (s.queue.qtds status).qtdToken ≠ statusToken .outToken := by
    intro e
    rw [Queue.waitTest, e] at hw
    simp [statusToken] at hw
  cases h with
  | start idle qtds => exact absurd (qtds ▸ hc.status) hactive
  | setup busy qtds => exact absurd (qtds ▸ hc.status) hactive
  | between pre j rest split idle partway => exact absurd partway.status hactive
  | filling pre j rest split c token busy active notHalted pid le total partway =>
    exact absurd partway.status hactive
  | drained pre rest split idle links statusQtd => exact absurd statusQtd hactive
  | status pre rest split busy links statusQtd => exact absurd statusQtd hactive
  | finished pre rest split idle alt done executed settled =>
    exact ⟨pre, rest, split, executed, settled⟩

theorem IdleAt.enabled {c : Ptr} (h : IdleAt dma seg s.queue (some c))
    (hact : (s.queue.qtds c).qtdToken.active = true) : ∃ a s', s.step dma seg a = some s' := by
  obtain ⟨addr, haddr, hc⟩ := Option.map_eq_some_iff.mp h.target
  refine ⟨.fetch, ?_⟩
  simp [DataStage.step, Queue.step, h.inactive, h.notHalted, haddr, hc, hact]

theorem BusyAt.enabled {c : Ptr} {t : TransferToken} (h : BusyAt dma seg s.queue c t)
    (hact : t.active = true) (hh : t.halted = false) : ∃ a s', s.step dma seg a = some s' := by
  obtain ⟨rfl, -, -, -⟩ := h
  by_cases hmore : s.Receiving ∧ s.token.totalBytesToTransfer ≠ 0 ∧ s.left ≠ []
  · obtain ⟨hrec, htotal, hleft⟩ := hmore
    have h1 : 1 ≤ s.token.totalBytesToTransfer.toNat :=
      Nat.one_le_iff_ne_zero.mpr fun e => htotal (BitVec.eq_of_toNat_eq e)
    have h2 : 1 ≤ s.left.length := List.length_pos_iff.mpr hleft
    refine ⟨.store 1, ?_⟩
    simp [DataStage.step, Queue.step, hrec, h1, h2, hact]
  · refine ⟨.retire, ?_⟩
    have hina : s.retiredToken.active = false ∧ s.retiredToken.halted = false := by
      rw [DataStage.retiredToken]
      split <;> simp [hh]
    simp only [DataStage.step, if_neg hmore]
    simp [Queue.step, hact, hina.1, hina.2]

/-- As long as the status descriptor is active, the controller can go on. -/
theorem InPhase.enabled (hc : InChain dma seg qtds₀ setup jobs status)
    (h : InPhase dma seg qtds₀ setup jobs status response s)
    (hw : s.queue.waitTest status = false) : ∃ a s', s.step dma seg a = some s' := by
  cases h with
  | start idle qtds => exact idle.enabled (by rw [qtds, hc.setup]; simp)
  | setup busy => exact busy.enabled (by simp) (by simp)
  | between pre j rest split idle partway =>
    refine idle.enabled ?_
    rw [(partway.untouched j (by simp)).2]
    simp [inToken]
  | filling pre j rest split c token busy active notHalted => exact busy.enabled active notHalted
  | drained pre rest split idle links statusQtd =>
    refine idle.enabled ?_
    rw [statusQtd]
    simp [statusToken]
  | status pre rest split busy => exact busy.enabled (by simp [statusToken]) (by simp [statusToken])
  | finished pre rest split idle alt done =>
    rw [Queue.waitTest, done] at hw
    cases hw

end Steps

/-! ## Transfers end -/

namespace DataStage

variable {dma : Dma} {seg : CtrlDsSegment} {s s' : DataStage} {a : DataLabel}

/-- The steps that are left when at most `n` descriptors are loaded. -/
def workLeft (n : Nat) (s : DataStage) : Nat :=
  2 * (n - s.executed.length) + (if s.token.active then 1 else 0) + s.left.length

theorem workLeft_lt {n : Nat} (hs : s.step dma seg a = some s') (hn : s'.executed.length ≤ n) :
    s'.workLeft n < s.workLeft n := by
  cases a with
  | fetch =>
    simp only [step, Option.map_eq_some_iff] at hs
    obtain ⟨q, hq, rfl⟩ := hs
    obtain ⟨hina, -, addr, -, hact, rfl⟩ := Queue.step_fetch hq
    have htok : (s.queue.qh.load addr (s.queue.qtds (dma.virt (seg.addr addr)))).transferToken.active =
        true := hact
    simp only [List.length_append, List.length_singleton] at hn
    simp only [workLeft, token, htok, hina, if_true, List.length_append, List.length_singleton,
      Bool.false_eq_true, if_false]
    omega
  | store k =>
    simp only [step] at hs
    split at hs
    case isFalse => cases hs
    rename_i hg
    simp only [Option.map_eq_some_iff] at hs
    obtain ⟨q, hq, rfl⟩ := hs
    obtain ⟨hact, hact', rfl⟩ := Queue.step_progress hq
    have hk := hg.2
    simp only [workLeft, token, hact, hact', List.length_drop]
    omega
  | retire =>
    simp only [step] at hs
    split at hs
    case isTrue => cases hs
    simp only [Option.map_eq_some_iff] at hs
    obtain ⟨q, hq, rfl⟩ := hs
    obtain ⟨hact, hina, -, rfl⟩ := Queue.step_complete hq
    simp only [workLeft, token, hact, Queue.retire, hina, Bool.false_eq_true, if_true, if_false]
    omega

end DataStage

section Ends

variable {dma : Dma} {seg : CtrlDsSegment} {qtds₀ : Heap Qtd} {setup status : Ptr} {jobs : InJobs}
  {response : List Byte} {s : DataStage}

theorem InPhase.executed_le {jobs : InJobs} {response : List Byte}
    (h : InPhase dma seg qtds₀ setup jobs status response s) : s.executed.length ≤ jobs.length + 2 := by
  cases h with
  | start _ _ he | setup _ _ he => simp [he]
  | between pre j rest split _ _ he => simp [he, split]; omega
  | filling pre j rest split _ _ _ _ _ _ _ _ _ he => simp [he, split]
  | drained pre rest split _ _ _ he => simp [he, split]; omega
  | status pre rest split _ _ _ he | finished pre rest split _ _ _ he => simp [he, split]

/-- The controller can take a transfer to its end. -/
theorem InPhase.exists_finished (hc : InChain dma seg qtds₀ setup jobs status) (hjobs : jobs ≠ [])
    (hn : response.length ≤ jobs.size) (h : InPhase dma seg qtds₀ setup jobs status response s) :
    ∃ tr s', exec (DataStage.step dma seg) s tr = some s' ∧ s'.queue.waitTest status = true := by
  induction hw : s.workLeft (jobs.length + 2) using Nat.strongRecOn generalizing s with
  | _ n ih =>
    cases hwait : s.queue.waitTest status with
    | true => exact ⟨[], s, rfl, hwait⟩
    | false =>
      obtain ⟨a, s', hs⟩ := h.enabled hc hwait
      have h' := h.step hc hjobs hn hs
      have hlt := DataStage.workLeft_lt hs h'.executed_le
      obtain ⟨tr, s'', htr, hdone⟩ := ih _ (hw ▸ hlt) h' rfl
      exact ⟨a :: tr, s'', by rw [exec, hs, Option.bind_some, htr], hdone⟩

end Ends

end EzEhci
