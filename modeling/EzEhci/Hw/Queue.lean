import EzEhci.Lib.Run
import EzEhci.Lib.Linked
import EzEhci.Hw.QueueHead

/-!
# How the controller executes a queue

`Queue` is one queue head with the transfer descriptors in memory. The
controller loads a descriptor into the overlay, works on it there, and writes
it back when it retires it: completed, or halted. From an idle overlay it
follows the next pointer, or the alternate one after a short transfer; a halted
overlay stays as it is. `Chain` is what the driver hands over: descriptors
linked in order, whose alternate pointers lead to the last one.
-/

namespace EzEhci

open Lib

/-- A queue head and the descriptors it works on. -/
structure Queue where
  qh : Qh
  qtds : Heap Qtd

inductive QueueLabel where
  | fetch
  | progress (token : TransferToken)
  | complete (token : TransferToken)
  | halt (token : TransferToken)
  deriving DecidableEq, Repr

/-- The overlay with the descriptor at `addr` loaded. -/
def Qh.load (qh : Qh) (addr : BitVec 32) (t : Qtd) : Qh :=
  { qh with
    currentQtdPointer := ⟨addr⟩
    nextQtdPointer := t.nextQtdPtr
    alternateQtdPointer := t.alternateNextQtdPtr
    transferToken := t.qtdToken
    bufferPtrPage0 := t.bufferPointerPage0.raw
    bufferPtrPage1 := t.bufferPointerPage1.raw
    bufferPtrPage2 := t.bufferPointerPage2.raw
    bufferPtrPage3 := t.bufferPointerPage3.raw
    bufferPtrPage4 := t.bufferPointerPage4.raw
    extendedBufferPtrPage0 := t.extendedBufferPtrPage0
    extendedBufferPtrPage1 := t.extendedBufferPtrPage1
    extendedBufferPtrPage2 := t.extendedBufferPtrPage2
    extendedBufferPtrPage3 := t.extendedBufferPtrPage3
    extendedBufferPtrPage4 := t.extendedBufferPtrPage4 }

namespace Queue

variable (dma : Dma) (seg : CtrlDsSegment)

def current (q : Queue) : Ptr := dma.virt (seg.addr q.qh.currentQtdPointer.raw)

/-- The link the controller follows from an idle overlay. -/
def advanceTarget (q : Queue) : Option (BitVec 32) :=
  if q.qh.transferToken.totalBytesToTransfer ≠ 0 then
    q.qh.alternateQtdPointer.target.or q.qh.nextQtdPointer.target
  else q.qh.nextQtdPointer.target

/-- Retire the current descriptor with `token`. -/
def retire (q : Queue) (token : TransferToken) : Queue where
  qh := { q.qh with transferToken := token }
  qtds := q.qtds.modify (q.current dma seg) fun t => { t with qtdToken := token }

def step (q : Queue) : QueueLabel → Option Queue
  | .fetch =>
    if q.qh.transferToken.active || q.qh.transferToken.halted then none
    else match q.advanceTarget with
      | none => none
      | some addr =>
        let t := q.qtds (dma.virt (seg.addr addr))
        if t.qtdToken.active then some { q with qh := q.qh.load addr t } else none
  | .progress token =>
    if q.qh.transferToken.active && token.active then
      some { q with qh := { q.qh with transferToken := token } }
    else none
  | .complete token =>
    if q.qh.transferToken.active && !token.active && !token.halted then some (q.retire dma seg token)
    else none
  | .halt token =>
    if q.qh.transferToken.active && !token.active && token.halted then some (q.retire dma seg token)
    else none

/-- Nothing is left to do for the controller. -/
def Terminal (q : Queue) : Prop :=
  q.qh.transferToken.active = false ∧
    (q.qh.transferToken.halted = true ∨ q.advanceTarget = none)

instance (q : Queue) : Decidable q.Terminal := inferInstanceAs (Decidable (_ ∧ (_ ∨ _)))

section Inversion

variable {dma seg} {q q' : Queue} {token : TransferToken}

theorem step_fetch (h : q.step dma seg .fetch = some q') :
    q.qh.transferToken.active = false ∧ q.qh.transferToken.halted = false ∧
    ∃ addr, q.advanceTarget = some addr ∧
      (q.qtds (dma.virt (seg.addr addr))).qtdToken.active = true ∧
      q' = { q with qh := q.qh.load addr (q.qtds (dma.virt (seg.addr addr))) } := by
  simp only [step] at h
  split at h
  · cases h
  · rename_i hidle
    rw [Bool.not_eq_true, Bool.or_eq_false_iff] at hidle
    split at h
    · cases h
    · rename_i addr ha
      split at h <;> cases h
      exact ⟨hidle.1, hidle.2, addr, ha, ‹_›, rfl⟩

theorem step_progress (h : q.step dma seg (.progress token) = some q') :
    q.qh.transferToken.active = true ∧ token.active = true ∧
    q' = { q with qh := { q.qh with transferToken := token } } := by
  simp only [step, Bool.and_eq_true] at h
  split at h <;> cases h
  rename_i hc
  exact ⟨hc.1, hc.2, rfl⟩

theorem step_complete (h : q.step dma seg (.complete token) = some q') :
    q.qh.transferToken.active = true ∧ token.active = false ∧ token.halted = false ∧
    q' = q.retire dma seg token := by
  simp only [step, Bool.and_eq_true, Bool.not_eq_true'] at h
  split at h <;> cases h
  rename_i hc
  exact ⟨hc.1.1, hc.1.2, hc.2, rfl⟩

theorem step_halt (h : q.step dma seg (.halt token) = some q') :
    q.qh.transferToken.active = true ∧ token.active = false ∧ token.halted = true ∧
    q' = q.retire dma seg token := by
  simp only [step, Bool.and_eq_true, Bool.not_eq_true'] at h
  split at h <;> cases h
  rename_i hc
  exact ⟨hc.1.1, hc.1.2, hc.2, rfl⟩

theorem step_of_halted (ha : q.qh.transferToken.active = false)
    (hh : q.qh.transferToken.halted = true) (a : QueueLabel) : q.step dma seg a = none := by
  cases a <;> simp [step, ha, hh]

end Inversion

end Queue

/-! ## Chains -/

/-- Where the next pointer of a descriptor leads. -/
def qtdNext (dma : Dma) (seg : CtrlDsSegment) (qtds : Heap Qtd) (p : Ptr) : Option Ptr :=
  (qtds p).nextQtdPtr.target.map fun a => dma.virt (seg.addr a)

/-- Where the alternate pointer of a descriptor leads. -/
def qtdAlt (dma : Dma) (seg : CtrlDsSegment) (qtds : Heap Qtd) (p : Ptr) : Option Ptr :=
  (qtds p).alternateNextQtdPtr.target.map fun a => dma.virt (seg.addr a)

theorem next_newValid {dma : Dma} {seg : CtrlDsSegment} {m : MappedMem} (h : m.Usable dma seg) :
    (NextQtdPointer.newValid (m.physAddr.setWidth 32)).target.map (fun a => dma.virt (seg.addr a)) =
      some m.ptr := by
  rw [NextQtdPointer.target_newValid, shift5_of_aligned h.aligned, Option.map_some, h.resolve]

theorem alt_newValid {dma : Dma} {seg : CtrlDsSegment} {m : MappedMem} (h : m.Usable dma seg) :
    (AlternateQtdLinkPtr.newValid (m.physAddr.setWidth 32)).target.map
      (fun a => dma.virt (seg.addr a)) = some m.ptr := by
  rw [AlternateQtdLinkPtr.target_newValid, shift5_of_aligned h.aligned, Option.map_some, h.resolve]

theorem advanceTarget_of_zero {q : Queue} (h : q.qh.transferToken = .zero) :
    q.advanceTarget = q.qh.nextQtdPointer.target := by
  have hzero : TransferToken.zero.totalBytesToTransfer = 0 := by decide
  simp only [Queue.advanceTarget, h, hzero, ne_eq, not_true_eq_false, if_false]

/-- The descriptors `body`, then `status`, are linked in order; alternate pointers skip to
`status`. -/
structure Chain (dma : Dma) (seg : CtrlDsSegment) (qtds : Heap Qtd) (body : List Ptr)
    (status : Ptr) : Prop where
  nodup : (body ++ [status]).Nodup
  links : Linked (qtdNext dma seg qtds) (body ++ [status]) none
  alt : ∀ p ∈ body, qtdAlt dma seg qtds p = none ∨ qtdAlt dma seg qtds p = some status
  alt_status : qtdAlt dma seg qtds status = none

/-- The queue is idle, at the start of a chain of active descriptors. -/
structure Attached (dma : Dma) (seg : CtrlDsSegment) (q : Queue) (body : List Ptr) (status : Ptr) :
    Prop where
  chain : Chain dma seg q.qtds body status
  active : ∀ p ∈ body ++ [status], (q.qtds p).qtdToken.active = true
  idle : q.qh.transferToken.active = false ∧ q.qh.transferToken.halted = false
  head : q.advanceTarget.map (fun a => dma.virt (seg.addr a)) = (body ++ [status]).head?

/-! ## Running a chain -/

/-- A descriptor of the chain is the last one, or the last one is behind it. -/
theorem chain_split {body pre rest : List Ptr} {status c : Ptr}
    (h : body ++ [status] = pre ++ c :: rest) :
    (c = status ∧ rest = []) ∨ (c ∈ body ∧ ∃ mid, rest = mid ++ [status]) := by
  rcases List.eq_nil_or_concat rest with rfl | ⟨mid, l, rfl⟩
  · obtain ⟨-, hl⟩ := List.append_inj' h rfl
    exact .inl ⟨by simpa using hl.symm, rfl⟩
  · rw [List.concat_eq_append, ← List.cons_append, ← List.append_assoc] at h
    obtain ⟨hb, hl⟩ := List.append_inj' h rfl
    refine .inr ⟨by rw [hb]; simp, mid, ?_⟩
    rw [List.concat_eq_append, hl]

/-- The links of a chain do not depend on the tokens. -/
theorem Chain.congr {dma : Dma} {seg : CtrlDsSegment} {qtds qtds' : Heap Qtd} {body : List Ptr}
    {status : Ptr} (h : Chain dma seg qtds body status)
    (hlink : ∀ p, (qtds' p).nextQtdPtr = (qtds p).nextQtdPtr ∧
      (qtds' p).alternateNextQtdPtr = (qtds p).alternateNextQtdPtr) :
    Chain dma seg qtds' body status := by
  have hnext : qtdNext dma seg qtds' = qtdNext dma seg qtds := by
    funext p
    simp only [qtdNext, (hlink p).1]
  have halt : qtdAlt dma seg qtds' = qtdAlt dma seg qtds := by
    funext p
    simp only [qtdAlt, (hlink p).2]
  exact ⟨h.nodup, hnext ▸ h.links, halt ▸ h.alt, halt ▸ h.alt_status⟩

/-- Where the controller is in the chain `ps`: between two descriptors, at one, or halted at
one. -/
inductive ChainPos (dma : Dma) (seg : CtrlDsSegment) (q : Queue) (ps : List Ptr) (status : Ptr) :
    Prop where
  | idle (pre rest : List Ptr) (split : ps = pre ++ rest)
      (inactive : q.qh.transferToken.active = false) (notHalted : q.qh.transferToken.halted = false)
      (head : q.advanceTarget.map (fun a => dma.virt (seg.addr a)) = rest.head?)
      (todo : ∀ p ∈ rest, (q.qtds p).qtdToken.active = true)
      (done : rest = [] → (q.qtds status).qtdToken.active = false)
  | busy (pre : List Ptr) (c : Ptr) (rest : List Ptr) (split : ps = pre ++ c :: rest)
      (active : q.qh.transferToken.active = true) (current : q.current dma seg = c)
      (next : q.qh.nextQtdPointer = (q.qtds c).nextQtdPtr)
      (alt : q.qh.alternateQtdPointer = (q.qtds c).alternateNextQtdPtr)
      (todo : ∀ p ∈ c :: rest, (q.qtds p).qtdToken.active = true)
  | halted (pre : List Ptr) (c : Ptr) (rest : List Ptr) (split : ps = pre ++ c :: rest)
      (inactive : q.qh.transferToken.active = false) (halted : q.qh.transferToken.halted = true)
      (current : q.current dma seg = c) (retired : (q.qtds c).qtdToken.active = false)
      (todo : ∀ p ∈ rest, (q.qtds p).qtdToken.active = true)

section Run

variable {dma : Dma} {seg : CtrlDsSegment} {q q' : Queue} {body : List Ptr} {status : Ptr}

theorem Attached.chainPos (h : Attached dma seg q body status) :
    ChainPos dma seg q (body ++ [status]) status :=
  .idle [] _ rfl h.idle.1 h.idle.2 h.head h.active fun e => absurd e (by simp)

theorem retire_qtds (q : Queue) (token : TransferToken) (p : Ptr) :
    (q.retire dma seg token).qtds p =
      if p = q.current dma seg then { q.qtds p with qtdToken := token } else q.qtds p := by
  simp only [Queue.retire, Heap.modify_apply]

theorem Chain.step (h : Chain dma seg q.qtds body status) {a : QueueLabel}
    (hs : q.step dma seg a = some q') : Chain dma seg q'.qtds body status := by
  have hret : ∀ token, Chain dma seg (q.retire dma seg token).qtds body status := by
    intro token
    refine h.congr fun p => ?_
    rw [retire_qtds]
    split <;> exact ⟨rfl, rfl⟩
  cases a with
  | fetch =>
    obtain ⟨-, -, addr, -, -, rfl⟩ := Queue.step_fetch hs
    exact h
  | progress token =>
    obtain ⟨-, -, rfl⟩ := Queue.step_progress hs
    exact h
  | complete token =>
    obtain ⟨-, -, -, rfl⟩ := Queue.step_complete hs
    exact hret token
  | halt token =>
    obtain ⟨-, -, -, rfl⟩ := Queue.step_halt hs
    exact hret token

theorem retire_todo {pre rest : List Ptr} {c : Ptr} (token : TransferToken)
    (hnd : (pre ++ c :: rest).Nodup) (hcur : q.current dma seg = c)
    (htodo : ∀ p ∈ c :: rest, (q.qtds p).qtdToken.active = true) :
    ∀ p ∈ rest, ((q.retire dma seg token).qtds p).qtdToken.active = true := by
  intro p hp
  have hne : p ≠ c := by
    rintro rfl
    exact (List.nodup_cons.mp (List.nodup_append.mp hnd).2.1).1 hp
  rw [retire_qtds, hcur, if_neg hne]
  exact htodo p (List.mem_cons_of_mem c hp)

theorem retire_current (token : TransferToken) :
    ((q.retire dma seg token).qtds (q.current dma seg)).qtdToken = token := by
  rw [retire_qtds, if_pos rfl]

/-- From a completed descriptor the controller goes on to the one behind it, or to the status
descriptor after a short transfer. -/
theorem ChainPos.complete {pre rest : List Ptr} {c : Ptr} {token : TransferToken}
    (hc : Chain dma seg q.qtds body status) (hsplit : body ++ [status] = pre ++ c :: rest)
    (hcur : q.current dma seg = c) (hnext : q.qh.nextQtdPointer = (q.qtds c).nextQtdPtr)
    (halt : q.qh.alternateQtdPointer = (q.qtds c).alternateNextQtdPtr)
    (htodo : ∀ p ∈ c :: rest, (q.qtds p).qtdToken.active = true)
    (hina : token.active = false) (hnh : token.halted = false) :
    ChainPos dma seg (q.retire dma seg token) (body ++ [status]) status := by
  have hlink : qtdNext dma seg q.qtds c = rest.head? := by
    have := hc.links
    rw [hsplit] at this
    simpa using linked_mid this
  have htodo' := retire_todo token (hsplit ▸ hc.nodup) hcur htodo
  -- the link followed is `next`, or the alternate link if it is valid
  have htarget : (q.retire dma seg token).advanceTarget.map (fun a => dma.virt (seg.addr a)) =
        qtdNext dma seg q.qtds c ∨
      (q.retire dma seg token).advanceTarget.map (fun a => dma.virt (seg.addr a)) =
        (qtdAlt dma seg q.qtds c).or (qtdNext dma seg q.qtds c) := by
    simp only [Queue.advanceTarget, Queue.retire, hnext, halt, qtdNext, qtdAlt]
    split
    · exact .inr (Option.map_or)
    · exact .inl rfl
  rcases chain_split hsplit with ⟨rfl, rfl⟩ | ⟨hbody, mid, rfl⟩
  · refine .idle (pre ++ [c]) [] (by simp [hsplit]) hina hnh ?_ (by simp) fun _ => ?_
    · rw [hc.alt_status, Option.none_or, or_self] at htarget
      rw [htarget, hlink]
    · rw [← hcur, retire_current, hina]
  · by_cases hstatus : (q.retire dma seg token).advanceTarget.map (fun a => dma.virt (seg.addr a)) =
        some status
    · refine .idle (pre ++ c :: mid) [status] (by simp [hsplit]) hina hnh (by simpa using hstatus)
        (fun p hp => htodo' p (by simp_all)) (by simp)
    · refine .idle (pre ++ [c]) (mid ++ [status]) (by simp [hsplit]) hina hnh ?_ htodo' (by simp)
      rw [← hlink]
      rcases htarget with h | h
      · exact h
      · rcases hc.alt c hbody with ha | ha
        · rw [h, ha, Option.none_or]
        · rw [ha, Option.some_or] at h
          exact absurd h hstatus

theorem ChainPos.step (h : ChainPos dma seg q (body ++ [status]) status)
    (hc : Chain dma seg q.qtds body status) {a : QueueLabel} (hs : q.step dma seg a = some q') :
    ChainPos dma seg q' (body ++ [status]) status := by
  cases a with
  | fetch =>
    obtain ⟨hna, hnh, addr, ha, hact, rfl⟩ := Queue.step_fetch hs
    cases h with
    | idle pre rest split _ _ head todo done =>
      rw [ha, Option.map_some] at head
      cases rest with
      | nil => cases head
      | cons c rest =>
        have hcr : dma.virt (seg.addr addr) = c := by simpa using head
        subst hcr
        exact .busy pre _ rest split hact rfl rfl rfl todo
    | busy _ _ _ _ active => rw [hna] at active; cases active
    | halted _ _ _ _ _ halted => rw [hnh] at halted; cases halted
  | progress token =>
    obtain ⟨hact, htok, rfl⟩ := Queue.step_progress hs
    cases h with
    | idle _ _ _ inactive => rw [hact] at inactive; cases inactive
    | busy pre c rest split active current next alt todo =>
      exact .busy pre c rest split htok current next alt todo
    | halted _ _ _ _ inactive => rw [hact] at inactive; cases inactive
  | complete token =>
    obtain ⟨hact, hna, hnh, rfl⟩ := Queue.step_complete hs
    cases h with
    | idle _ _ _ inactive => rw [hact] at inactive; cases inactive
    | busy pre c rest split active current next alt todo =>
      exact ChainPos.complete hc split current next alt todo hna hnh
    | halted _ _ _ _ inactive => rw [hact] at inactive; cases inactive
  | halt token =>
    obtain ⟨hact, hna, hh, rfl⟩ := Queue.step_halt hs
    cases h with
    | idle _ _ _ inactive => rw [hact] at inactive; cases inactive
    | busy pre c rest split active current next alt todo =>
      refine .halted pre c rest split hna hh current ?_
        (retire_todo _ (split ▸ hc.nodup) current todo)
      rw [← current, retire_current, hna]
    | halted _ _ _ _ inactive => rw [hact] at inactive; cases inactive

end Run

/-! ## Waiting for the last descriptor -/

/-- The test a waiter makes on the status descriptor. -/
def Queue.waitTest (q : Queue) (status : Ptr) : Bool := !(q.qtds status).qtdToken.active

/-- No descriptor but the status descriptor is halted. -/
def HaltsOnlyAt (dma : Dma) (seg : CtrlDsSegment) (status : Ptr) (q : Queue) : QueueLabel → Prop
  | .halt _ => q.current dma seg = status
  | _ => True

instance (dma : Dma) (seg : CtrlDsSegment) (status : Ptr) (q : Queue) :
    (a : QueueLabel) → Decidable (HaltsOnlyAt dma seg status q a)
  | .halt _ => inferInstanceAs (Decidable (_ = _))
  | .fetch | .progress _ | .complete _ => inferInstanceAs (Decidable True)

/-- The overlay is halted at a descriptor before the status descriptor. -/
structure HaltedEarly (dma : Dma) (seg : CtrlDsSegment) (status : Ptr) (q : Queue) : Prop where
  inactive : q.qh.transferToken.active = false
  halted : q.qh.transferToken.halted = true
  current : q.current dma seg ≠ status

section Wait

variable {dma : Dma} {seg : CtrlDsSegment} {q₀ q q' : Queue} {body : List Ptr} {status : Ptr}

theorem haltedEarly_step {a : QueueLabel} (hs : q.step dma seg a = some q') :
    HaltedEarly dma seg status q' ↔ ¬ HaltsOnlyAt dma seg status q a := by
  cases a with
  | fetch =>
    obtain ⟨-, -, addr, -, hact, rfl⟩ := Queue.step_fetch hs
    refine ⟨fun h => ?_, fun h => absurd trivial h⟩
    have := h.inactive
    rw [show (q.qh.load addr _).transferToken.active = true from hact] at this
    cases this
  | progress token =>
    obtain ⟨-, htok, rfl⟩ := Queue.step_progress hs
    refine ⟨fun h => ?_, fun h => absurd trivial h⟩
    rw [h.inactive] at htok
    cases htok
  | complete token =>
    obtain ⟨-, -, hnh, rfl⟩ := Queue.step_complete hs
    refine ⟨fun h => ?_, fun h => absurd trivial h⟩
    rw [show token.halted = true from h.halted] at hnh
    cases hnh
  | halt token =>
    obtain ⟨-, hna, hh, rfl⟩ := Queue.step_halt hs
    exact ⟨fun h => h.current, fun h => ⟨hna, hh, h⟩⟩

/-- The controller's position after a run over the chain, and what the run halted. -/
theorem Attached.exec (h0 : Attached dma seg q₀ body status) {tr : List QueueLabel}
    (h : exec (Queue.step dma seg) q₀ tr = some q) :
    Chain dma seg q.qtds body status ∧ ChainPos dma seg q (body ++ [status]) status ∧
    (Meets (Queue.step dma seg) (HaltsOnlyAt dma seg status) q₀ tr ↔
      ¬ HaltedEarly dma seg status q) := by
  induction tr using List.reverseRecOn generalizing q with
  | nil =>
    cases h
    refine ⟨h0.chain, h0.chainPos, fun _ he => ?_, fun _ => trivial⟩
    have := he.halted
    rw [h0.idle.2] at this
    cases this
  | append_singleton tr a ih =>
    obtain ⟨m, hm, ha⟩ := exec_snoc_iff.mp h
    obtain ⟨hchain, hpos, hmeets⟩ := ih hm
    -- the queue moved, so it was not halted before
    have hmoved : Meets (Queue.step dma seg) (HaltsOnlyAt dma seg status) q₀ tr :=
      hmeets.mpr fun he => by
        rw [Queue.step_of_halted he.inactive he.halted] at ha
        cases ha
    refine ⟨hchain.step ha, hpos.step hchain ha, ?_⟩
    rw [haltedEarly_step ha, not_not, meets_append]
    constructor
    · rintro ⟨-, h2⟩
      exact (h2 m hm).1
    · intro hc
      refine ⟨hmoved, fun m' hm' => ?_⟩
      rw [hm] at hm'
      cases hm'
      exact ⟨hc, fun _ _ => trivial⟩

/-- **A terminal queue.** The waiter's test succeeds exactly if the controller did not halt before
the status descriptor. -/
theorem ChainPos.waitTest_iff (hpos : ChainPos dma seg q (body ++ [status]) status)
    (hc : Chain dma seg q.qtds body status) (ht : q.Terminal) :
    q.waitTest status = true ↔ ¬ HaltedEarly dma seg status q := by
  rw [Queue.waitTest, Bool.not_eq_true']
  cases hpos with
  | idle pre rest split inactive notHalted head todo done =>
    have htarget : q.advanceTarget = none := by
      rcases ht.2 with hh | ht
      · rw [notHalted] at hh
        cases hh
      · exact ht
    have hrest : rest = [] := by
      rw [htarget, Option.map_none] at head
      exact List.head?_eq_none_iff.mp head.symm
    refine ⟨fun _ he => ?_, fun _ => done hrest⟩
    rw [he.halted] at notHalted
    cases notHalted
  | busy pre c rest split active => rw [ht.1] at active; cases active
  | halted pre c rest split inactive halted current retired todo =>
    rcases chain_split split with ⟨rfl, rfl⟩ | ⟨hbody, mid, rfl⟩
    · exact ⟨fun _ he => he.current current, fun _ => retired⟩
    · have hne : c ≠ status := by
        rintro rfl
        exact (List.nodup_append.mp hc.nodup).2.2 c hbody c (by simp) rfl
      refine ⟨fun hst => ?_, fun he => absurd ⟨inactive, halted, by rwa [current]⟩ he⟩
      rw [todo status (by simp)] at hst
      cases hst

end Wait

/-! ## Failing at the last descriptor -/

def NotHaltedAt (dma : Dma) (seg : CtrlDsSegment) (status : Ptr) (q : Queue) : QueueLabel → Prop
  | .halt _ => q.current dma seg ≠ status
  | _ => True

instance (dma : Dma) (seg : CtrlDsSegment) (status : Ptr) (q : Queue) :
    (a : QueueLabel) → Decidable (NotHaltedAt dma seg status q a)
  | .halt _ => inferInstanceAs (Decidable (_ ≠ _))
  | .fetch | .progress _ | .complete _ => inferInstanceAs (Decidable True)

/-- The status descriptor was retired halted. -/
def Queue.FailedAt (q : Queue) (status : Ptr) : Prop :=
  (q.qtds status).qtdToken.active = false ∧ (q.qtds status).qtdToken.halted = true

instance (q : Queue) (status : Ptr) : Decidable (q.FailedAt status) :=
  inferInstanceAs (Decidable (_ ∧ _))

section Fail

variable {dma : Dma} {seg : CtrlDsSegment} {q₀ q q' : Queue} {body : List Ptr} {status : Ptr}

theorem ChainPos.current_active {ps : List Ptr} (hpos : ChainPos dma seg q ps status)
    (ha : q.qh.transferToken.active = true) :
    (q.qtds (q.current dma seg)).qtdToken.active = true := by
  cases hpos with
  | idle _ _ _ inactive => rw [ha] at inactive; cases inactive
  | busy pre c rest split active current next alt todo =>
    rw [current]
    exact todo c List.mem_cons_self
  | halted _ _ _ _ inactive => rw [ha] at inactive; cases inactive

theorem failedAt_retire_of_ne {token : TransferToken} (hne : q.current dma seg ≠ status) :
    (q.retire dma seg token).FailedAt status ↔ q.FailedAt status := by
  simp only [Queue.FailedAt, retire_qtds, if_neg (Ne.symm hne)]

theorem ChainPos.failedAt_step {ps : List Ptr} (hpos : ChainPos dma seg q ps status) {a : QueueLabel}
    (hs : q.step dma seg a = some q') :
    q'.FailedAt status ↔ q.FailedAt status ∨ ¬ NotHaltedAt dma seg status q a := by
  cases a with
  | fetch =>
    obtain ⟨-, -, addr, -, -, rfl⟩ := Queue.step_fetch hs
    exact ⟨.inl, fun h => h.resolve_right (not_not_intro trivial)⟩
  | progress token =>
    obtain ⟨-, -, rfl⟩ := Queue.step_progress hs
    exact ⟨.inl, fun h => h.resolve_right (not_not_intro trivial)⟩
  | complete token =>
    obtain ⟨hact, -, hnh, rfl⟩ := Queue.step_complete hs
    by_cases hc : q.current dma seg = status
    · subst hc
      refine ⟨fun h => ?_, fun h => ?_⟩
      · rw [Queue.FailedAt, retire_current, hnh] at h
        cases h.2
      · have := (h.resolve_right (not_not_intro trivial)).1
        rw [hpos.current_active hact] at this
        cases this
    · rw [failedAt_retire_of_ne hc]
      exact ⟨.inl, fun h => h.resolve_right (not_not_intro trivial)⟩
  | halt token =>
    obtain ⟨-, hna, hh, rfl⟩ := Queue.step_halt hs
    by_cases hc : q.current dma seg = status
    · subst hc
      refine ⟨fun _ => .inr (not_not_intro rfl), fun _ => ?_⟩
      rw [Queue.FailedAt, retire_current]
      exact ⟨hna, hh⟩
    · rw [failedAt_retire_of_ne hc]
      exact ⟨.inl, fun h => h.resolve_right (not_not_intro hc)⟩

/-- **A failed status descriptor** was halted in the run. -/
theorem Attached.failedAt_iff (h0 : Attached dma seg q₀ body status) {tr : List QueueLabel}
    (h : EzEhci.Lib.exec (Queue.step dma seg) q₀ tr = some q) :
    q.FailedAt status ↔ ¬ Meets (Queue.step dma seg) (NotHaltedAt dma seg status) q₀ tr := by
  induction tr using List.reverseRecOn generalizing q with
  | nil =>
    cases h
    refine ⟨fun hf => ?_, fun hn => absurd trivial hn⟩
    have := hf.1
    rw [h0.active status (by simp)] at this
    cases this
  | append_singleton tr a ih =>
    obtain ⟨m, hm, ha⟩ := exec_snoc_iff.mp h
    obtain ⟨-, hpos, -⟩ := h0.exec hm
    rw [hpos.failedAt_step ha, ih hm, meets_append, not_and_or]
    refine or_congr_right ⟨fun hn hall => hn (hall m hm).1, fun hn hc => hn fun m' hm' => ?_⟩
    rw [hm] at hm'
    cases hm'
    exact ⟨hc, fun _ _ => trivial⟩

end Fail

end EzEhci
