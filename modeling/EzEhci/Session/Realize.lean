import EzEhci.Session.Bus

/-!
# The bus realizes a session

Every transfer of a session program is carried out on the bus as the device
answers it: it is linked (`Usable.link`), the controller keeps to it (`Conducts`)
before and after the second write (`Linked`), and what the driver reads is the
response (`Conducts.read`). So the run of a program on the bus is its run
against the device.
-/

namespace EzEhci

open Lib

/-! ## Transfers start -/

theorem newContiguous_isSome {oc : OverflowChecks} {ptr len : BitVec 64}
    (hptr : ptr.toNat - ptr.toNat % 4096 + 0x5000 < 2 ^ 64) (hlen : len.toNat ≤ 0x5000) :
    ∃ b, BufferPtrs.newContiguous oc ptr len = some b := by
  rw [newContiguous_eq hptr, if_pos (.inl hlen)]
  exact ⟨_, rfl⟩

section Build

variable {dma : Dma} {oc : OverflowChecks} {seg : CtrlDsSegment} {q q' : Queue}

theorem transferInStart_setupBytes {setupPacket setup status : MappedMem} {buffers : List MappedSlice}
    {ins : List MappedMem} (hstatus : status.Usable dma seg)
    (hnd : ((setup :: (ins ++ [status])).map MappedMem.ptr).Nodup)
    (hlen : ins.length = buffers.length) (hpos : 0 < ins.length)
    (h : transferInStart oc seg q setupPacket buffers (setup :: (ins ++ [status])) = some q') (k : Nat) :
    (q'.qtds setup.ptr).byteAddr k = pagedAddr setupPacket.physAddr k := by
  cases ins with
  | nil => cases hpos
  | cons first ins =>
    obtain ⟨q₁, q₂, h₁, h₂, h⟩ := transferInStart_parts hstatus h
    rw [List.map_cons, List.map_append, List.map_singleton] at hnd
    obtain ⟨hsetup_tail, htail⟩ := List.nodup_cons.mp hnd
    rw [List.mem_append, List.mem_singleton, not_or] at hsetup_tail
    simp only [writeSetupQtd, Option.bind_eq_bind, Option.bind_eq_some_iff, Option.some.injEq] at h₁
    obtain ⟨ptrs, hptrs, next, -, rfl⟩ := h₁
    obtain ⟨hframe₂, -⟩ := writeInQtds_data hlen (List.nodup_append.mp htail).1 h₂
    obtain ⟨-, hframe₃, -⟩ := writeStatusQtd_spec dma seg q₂ status .outToken
    simp only [attachQtd, Option.bind_eq_bind, Option.bind_eq_some_iff, Option.some.injEq] at h
    obtain ⟨offset, -, rfl⟩ := h
    simp only [hframe₃ _ hsetup_tail.2, hframe₂ _ hsetup_tail.1, Heap.modify_self]
    exact byteAddr_new hptrs (.newActive .setupToken 8) k

theorem transferNoDataStart_setupBytes {setupPacket setup status : MappedMem} (hne : setup.ptr ≠ status.ptr)
    (h : transferNoDataStart oc seg q setupPacket setup status = some q') (k : Nat) :
    (q'.qtds setup.ptr).byteAddr k = pagedAddr setupPacket.physAddr k := by
  simp only [transferNoDataStart, writeSetupQtd, writeStatusQtd, attachQtd, Option.bind_eq_bind,
    Option.bind_eq_some_iff, Option.some.injEq] at h
  obtain ⟨q₁, ⟨ptrs, hptrs, next, -, rfl⟩, offset, -, rfl⟩ := h
  simp only [Heap.modify_of_ne _ _ hne, Heap.modify_self]
  exact byteAddr_new hptrs (.newActive .setupToken 8) k

end Build

/-! ## The controller keeps to the transfer -/

section Conducts

variable (dma : Dma) (seg : CtrlDsSegment) (m : SessionMem)

/-- The controller is on its way through the transfer for the question, of which the device answers
`response`. -/
inductive Conducts : Question → List Byte → DataStage → Prop where
  | transferIn {p : SetupPacket} {len : Nat} {response : List Byte} {stage : DataStage} (qtds₀ : Heap Qtd)
      (chain : InChain dma seg qtds₀ m.qtd0.ptr [(m.qtd1.ptr, m.slice len)] m.qtd2.ptr)
      (le : response.length ≤ len)
      (phase : InPhase dma seg qtds₀ m.qtd0.ptr [(m.qtd1.ptr, m.slice len)] m.qtd2.ptr response stage)
      (straight : Straight dma seg stage.queue) :
      Conducts (.transferIn p len) response stage
  | noData {p : SetupPacket} {stage : DataStage} (qtds₀ : Heap Qtd)
      (chain : NoDataChain dma seg qtds₀ m.qtd0.ptr m.qtd1.ptr)
      (phase : NoDataPhase dma seg qtds₀ m.qtd0.ptr m.qtd1.ptr stage)
      (straight : Straight dma seg stage.queue) : Conducts (.transferNoData p) [] stage

/-- Between the two writes of `attach_qtd` the controller may already be on its way. If the overlay is
halted, it waits for the second write. -/
def LinkedTo (q : Question) (response : List Byte) (stage : DataStage) : Prop :=
  Conducts dma seg m q response stage ∨
    stage.token.active = false ∧ stage.token.halted = true ∧ Conducts dma seg m q response stage.clear

end Conducts

section Transfer

variable {dma : Dma} {oc : OverflowChecks} {seg : CtrlDsSegment} {m : SessionMem} {q : Question}
  {p : SetupPacket} {t : ControlTransfer} {response : List Byte} {stage stage' : DataStage}

theorem Conducts.step (h : Conducts dma seg m q response stage) {a : DataLabel}
    (hs : stage.step dma seg a = some stage') : Conducts dma seg m q response stage' := by
  cases h with
  | transferIn qtds₀ chain le phase =>
    refine .transferIn qtds₀ chain le (phase.step chain (by simp) ?_ hs) (phase.straight chain hs)
    simpa [SessionMem.slice] using le
  | noData qtds₀ chain phase => exact .noData qtds₀ chain (phase.step chain hs) (phase.straight hs)

theorem Conducts.clear (h : Conducts dma seg m q response stage) (hina : stage.token.active = false) :
    Conducts dma seg m q response stage.clear := by
  have hzero : Straight dma seg (AttachWorld.clearToken stage.queue) := fun _ hidle => hidle
  cases h with
  | transferIn qtds₀ chain le phase straight =>
    exact .transferIn qtds₀ chain le (phase.clear hina straight) hzero
  | noData qtds₀ chain phase straight => exact .noData qtds₀ chain (phase.clear hina straight) hzero

theorem LinkedTo.step (h : LinkedTo dma seg m q response stage) {a : DataLabel}
    (hs : stage.step dma seg a = some stage') : LinkedTo dma seg m q response stage' := by
  rcases h with h | ⟨hina, hh, -⟩
  · exact .inl (h.step hs)
  · rw [QueueFree.step_none ⟨hina, .inl hh⟩] at hs
    cases hs

theorem LinkedTo.clear (h : LinkedTo dma seg m q response stage) (hina : stage.token.active = false) :
    Conducts dma seg m q response stage.clear := by
  rcases h with h | ⟨-, -, h⟩
  · exact h.clear hina
  · exact h

theorem Conducts.executed_le (h : Conducts dma seg m q response stage) : stage.executed.length ≤ 3 := by
  cases h with
  | transferIn qtds₀ chain le phase => exact phase.executed_le
  | noData qtds₀ chain phase => exact phase.executed_le.trans (by decide)

theorem LinkedTo.executed_le (h : LinkedTo dma seg m q response stage) : stage.executed.length ≤ 3 := by
  rcases h with h | ⟨-, -, h⟩
  · exact h.executed_le
  · exact h.executed_le

theorem Conducts.enabled (h : Conducts dma seg m q response stage) (ht : m.transfer q = some (p, t))
    (hw : Bus.finished t stage = false) : ∃ a stage', stage.step dma seg a = some stage' := by
  cases h with
  | transferIn qtds₀ chain le phase =>
    cases ht
    exact phase.enabled chain hw
  | noData qtds₀ chain phase =>
    cases ht
    exact phase.enabled chain hw

theorem Conducts.queueFree (h : Conducts dma seg m q response stage) (ht : m.transfer q = some (p, t))
    (hw : Bus.finished t stage = true) : QueueFree stage.queue := by
  cases h with
  | transferIn qtds₀ chain le phase =>
    cases ht
    exact phase.queueFree chain hw
  | noData qtds₀ chain phase =>
    cases ht
    exact phase.queueFree chain hw

/-- A controller that is on a descriptor has not finished. -/
theorem LinkedTo.enabled (h : LinkedTo dma seg m q response stage) (ht : m.transfer q = some (p, t))
    (hact : stage.token.active = true) : ∃ a stage', stage.step dma seg a = some stage' := by
  rcases h with h | ⟨hina, -, -⟩
  · refine h.enabled ht ?_
    by_contra hfin
    rw [Bool.not_eq_false] at hfin
    have hina := (h.queueFree ht hfin).inactive
    rw [DataStage.token, hina] at hact
    cases hact
  · rw [hina] at hact
    cases hact

/-- **What the driver reads is what the device sent.** -/
theorem Conducts.read (h : Conducts dma seg m q response stage) (ht : m.transfer q = some (p, t))
    (hmax : m.buffer.physAddr.toNat % 4096 + q.bufferLen ≤ 0x5000) (hw : Bus.finished t stage = true)
    (mem : BitVec 64 → Byte) :
    t.read oc stage.queue (applyStores mem stage.stores) = some response := by
  cases h with
  | @transferIn p len response _ qtds₀ chain le phase =>
    cases ht
    have hfit : m.buffer.physAddr.toNat % 4096 + len ≤ 0x5000 := hmax
    obtain ⟨-, -, -, -, hbounded, hreceived, hmoved⟩ := phase.finished_of_waitTest chain hw
    have haddrs : pagedAddrs [m.slice len] = (span m.buffer.physAddr len).map some := by
      rw [← (pagedSpan_eq_iff (by omega)).mpr (fitsPages_ofNat hfit)]
      exact List.append_nil _
    have hstores : stage.stores = ((span m.buffer.physAddr len).map some).zip response := by
      rw [hmoved.stores, List.take_of_length_le (by simp), ← haddrs]
      rfl
    have hn : (0 + BitVec.ofNat 16 response.length).toNat = response.length := by
      rw [BitVec.toNat_add, BitVec.toNat_ofNat]
      simp
      omega
    have hread : bytesTransferred oc stage.queue 0 [m.slice len] ([m.qtd1] ++ [m.qtd2]) =
        some (0 + BitVec.ofNat 16 response.length) := by
      rw [← hreceived]
      refine bytesTransferred_eq oc stage.queue rfl hbounded ?_
      show 0 + InJobs.received stage.queue.qtds [(m.qtd1.ptr, m.slice len)] < 2 ^ 16
      omega
    show (do
      let n ← bytesTransferred oc stage.queue 0 [m.slice len] ([m.qtd1] ++ [m.qtd2])
      if n.toNat ≤ len then some (readBytes _ m.buffer.physAddr n.toNat) else none) = some response
    rw [hread, Option.bind_eq_bind, Option.bind_some, hn, if_pos le, hstores,
      readBytes_applyStores mem _ le (by omega)]
  | noData qtds₀ chain phase =>
    cases ht
    rfl

end Transfer

/-! ## Transfers are answered -/

section Start

variable {δ : Type} {dma : Dma} (oc : OverflowChecks) {seg : CtrlDsSegment} {m : SessionMem}
  (dev : UsbDevice δ) {q : Question} {p : SetupPacket} {t : ControlTransfer}

theorem readBytes_packet (mem : BitVec 64 → Byte) (a : BitVec 64) (p : SetupPacket) :
    SetupPacket.ofBytes (readBytes (writeBytes mem a p.bytes) a 8) = some p := by
  have h : readBytes (writeBytes mem a p.bytes) a p.bytes.length = p.bytes :=
    readBytes_applyStores mem a (le_refl p.bytes.length) (by simp)
  rw [p.length_bytes] at h
  rw [h, SetupPacket.ofBytes_bytes]

theorem Qtd.readBytes_packet {t : Qtd} {a : BitVec 64} (ht : ∀ k, t.byteAddr k = pagedAddr a k)
    (mem : BitVec 64 → Byte) (p : SetupPacket) :
    SetupPacket.ofBytes (t.readBytes (writeBytes mem a p.bytes) 8) = some p := by
  rw [Qtd.readBytes_eq ht (by omega), EzEhci.readBytes_packet]

theorem SessionMem.Usable.writeSetupQtd_isSome (hu : m.Usable dma seg) (queue : Queue) {next : MappedMem}
    (hnext : next.Usable dma seg) :
    ∃ queue', writeSetupQtd oc seg queue m.setupPacket m.qtd0 next = some queue' := by
  obtain ⟨ptrs, hptrs⟩ : ∃ b, BufferPtrs.newContiguous oc m.setupPacket.physAddr 8 = some b :=
    newContiguous_isSome hu.packet (by decide)
  simp only [writeSetupQtd, hptrs, hnext.offset, Option.bind_eq_bind, Option.bind_some]
  exact ⟨_, rfl⟩

theorem SessionMem.Usable.writeInQtd_isSome (hu : m.Usable dma seg) (queue : Queue) {next : MappedMem}
    (hnext : next.Usable dma seg) {len : Nat} (hlen : len ≤ m.buffer.len) (alternate : AlternateQtdLinkPtr) :
    ∃ queue', writeInQtd oc seg alternate queue (m.slice len) m.qtd1 next = some queue' := by
  have hmax := hu.fits
  obtain ⟨ptrs, hptrs⟩ : ∃ b, BufferPtrs.newContiguous oc m.buffer.physAddr (BitVec.ofNat 64 len) = some b :=
    newContiguous_isSome hu.buffer (by rw [BitVec.toNat_ofNat, Nat.mod_eq_of_lt (by omega)]; omega)
  simp only [writeInQtd, SessionMem.slice, if_pos (show len < 2 ^ 15 by omega), hptrs, hnext.offset,
    Option.bind_eq_bind, Option.bind_some]
  exact ⟨_, rfl⟩

theorem SessionMem.Usable.attachQtd_isSome (hu : m.Usable dma seg) (queue : Queue) :
    ∃ queue', attachQtd seg queue m.qtd0 = some queue' := by
  have h0 : m.qtd0.Usable dma seg := hu.qtds _ (by simp [SessionMem.qtds])
  simp only [attachQtd, h0.offset, Option.bind_eq_bind, Option.bind_some]
  exact ⟨_, rfl⟩

theorem SessionMem.Usable.transferIn_isSome (hu : m.Usable dma seg) {len : Nat} (hlen : len ≤ m.buffer.len)
    (queue : Queue) : ∃ queue', transferInStart oc seg queue m.setupPacket [m.slice len] m.qtds = some queue' := by
  have h1 : m.qtd1.Usable dma seg := hu.qtds _ (by simp [SessionMem.qtds])
  have h2 : m.qtd2.Usable dma seg := hu.qtds _ (by simp [SessionMem.qtds])
  obtain ⟨q₁, hq₁⟩ := hu.writeSetupQtd_isSome oc queue h1
  obtain ⟨q₂, hq₂⟩ := hu.writeInQtd_isSome oc q₁ h2 hlen (.newValid (m.qtd2.physAddr.setWidth 32))
  rw [transferInStart, if_neg (by simp [SessionMem.qtds])]
  simp only [SessionMem.qtds, List.getElem?_cons_zero, List.getElem?_cons_succ, List.getLast?_cons_cons,
    List.getLast?_singleton, List.drop_succ_cons, List.drop_zero, writeInQtds, hq₁, h2.offset, hq₂,
    Option.bind_eq_bind, Option.bind_some]
  exact hu.attachQtd_isSome _

theorem SessionMem.Usable.noData_isSome (hu : m.Usable dma seg) (queue : Queue) :
    ∃ queue', transferNoDataStart oc seg queue m.setupPacket m.qtd0 m.qtd1 = some queue' := by
  have h1 : m.qtd1.Usable dma seg := hu.qtds _ (by simp [SessionMem.qtds])
  obtain ⟨q₁, hq₁⟩ := hu.writeSetupQtd_isSome oc queue h1
  simp only [transferNoDataStart, hq₁, Option.bind_eq_bind, Option.bind_some]
  exact hu.attachQtd_isSome _

/-- The driver has made the first write of `attach_qtd` on a free queue. -/
theorem LinkedTo.of_link {queue queue₁ : Queue} (hfree : QueueFree queue)
    (h : t.link oc seg queue = some queue₁) {setup : Ptr}
    (hidle : IdleAt dma seg (AttachWorld.clearToken queue₁) (some setup)) {response : List Byte}
    (hstart : ∀ queue₂ : Queue, queue₂.qtds = queue₁.qtds → IdleAt dma seg queue₂ (some setup) →
      Straight dma seg queue₂ → Conducts dma seg m q response (.start queue₂ response)) :
    LinkedTo dma seg m q response (.start queue₁ response) := by
  simp only [ControlTransfer.link, AttachWorld.linkQtd, Option.bind_eq_bind, Option.bind_eq_some_iff,
    Option.some.injEq] at h
  obtain ⟨built, hbuilt, setup', -, offset, -, rfl⟩ := h
  have hqh := ControlTransfer.build_qh hbuilt
  have hina : built.qh.transferToken.active = false := hqh ▸ hfree.inactive
  by_cases hh : built.qh.transferToken.halted = true
  · exact .inr ⟨hina, hh, hstart _ rfl hidle fun _ h => h⟩
  · rw [Bool.not_eq_true] at hh
    -- with no alternate pointer the overlay goes along its next pointer
    have halt : built.qh.alternateQtdPointer.target = none := by
      rw [hqh] at hh ⊢
      rcases hfree.waits with hhalted | ⟨-, halt⟩
      · rw [hhalted] at hh
        cases hh
      · exact halt
    have hnext := hidle.target
    rw [advanceTarget_of_zero rfl] at hnext
    refine .inl (hstart _ rfl ⟨hina, hh, ?_⟩ (.of_advance ?_))
    · simp only [Queue.advanceTarget, halt, Option.none_or, ite_self]
      exact hnext
    · simp only [Queue.advanceTarget, halt, Option.none_or, ite_self]

/-- **A disciplined question starts a transfer**, and the device gets the packet the driver wrote. -/
theorem SessionMem.Usable.link (hu : m.Usable dma seg) (hq : q.Disciplined)
    (hlen : q.bufferLen ≤ m.buffer.len) (ht : m.transfer q = some (p, t)) {queue : Queue}
    (hfree : QueueFree queue) (mem : BitVec 64 → Byte) (s : Session δ) :
    ∃ queue₁, t.link oc seg queue = some queue₁ ∧
      dev.receive s q ((queue₁.qtds m.qtd0.ptr).readBytes
        (writeBytes mem m.setupPacket.physAddr p.bytes) 8) = dev.answer s q ∧
      LinkedTo dma seg m q (dev.answer s q).2 (.start queue₁ (dev.answer s q).2) := by
  have hqtds := hu.qtds
  have h2 : m.qtd2.Usable dma seg := hqtds _ (by simp [SessionMem.qtds])
  cases q with
  | delay ms => cases ht
  | transferIn p len =>
    cases ht
    obtain ⟨-, -, hle⟩ := hq
    have hresponse : (dev.respond s.device p).2.length ≤ len := (dev.bounded s.device p).trans hle
    obtain ⟨queue', hstart⟩ := hu.transferIn_isSome oc hlen queue
    have husable : ∀ q ∈ m.qtd0 :: ([m.qtd1] ++ [m.qtd2]), q.Usable dma seg := hqtds
    have hnd : ((m.qtd0 :: ([m.qtd1] ++ [m.qtd2])).map MappedMem.ptr).Nodup := hu.nodup
    have hbytes := transferInStart_setupBytes h2 hnd rfl Nat.one_pos hstart
    obtain ⟨hchain, hidle⟩ := transferInStart_inChain husable hnd rfl Nat.one_pos hstart
    have hlink := ControlTransfer.start_eq_link oc seg queue
      (.transferIn m.setupPacket [m.slice len] m.qtds)
    obtain ⟨queue₁, hqueue₁, rfl⟩ := Option.map_eq_some_iff.mp (hlink.symm.trans hstart)
    refine ⟨queue₁, hqueue₁, ?_, ?_⟩
    · rw [UsbDevice.receive, Qtd.readBytes_packet (t := queue₁.qtds m.qtd0.ptr) hbytes]
      rfl
    · refine .of_link oc hfree hqueue₁ hidle fun queue₂ hqtds₂ hidle₂ hstraight => ?_
      have hphase : InPhase dma seg queue₁.qtds m.qtd0.ptr [(m.qtd1.ptr, m.slice len)] m.qtd2.ptr
          (dev.respond s.device p).2 (.start queue₂ (dev.respond s.device p).2) :=
        .start hidle₂ hqtds₂ rfl ⟨Nat.zero_le _, rfl, rfl⟩
      exact .transferIn queue₁.qtds hchain hresponse hphase hstraight
  | transferNoData p =>
    cases ht
    obtain ⟨-, hzero⟩ := hq
    have hne : m.qtd0.ptr ≠ m.qtd1.ptr := by
      intro e
      simpa [SessionMem.qtds, e] using hu.nodup
    have hresponse : (dev.respond s.device p).2 = [] := by
      have := dev.bounded s.device p
      rw [hzero] at this
      exact List.length_eq_zero_iff.mp (Nat.le_zero.mp this)
    have hanswer : (dev.answer s (.transferNoData p)).2 = [] := rfl
    obtain ⟨queue', hstart⟩ := hu.noData_isSome oc queue
    have hbytes := transferNoDataStart_setupBytes hne hstart
    obtain ⟨hchain, hidle⟩ := transferNoDataStart_chain (hqtds _ (by simp [SessionMem.qtds]))
      (hqtds _ (by simp [SessionMem.qtds])) hne hstart
    have hlink := ControlTransfer.start_eq_link oc seg queue (.noData m.setupPacket m.qtd0 m.qtd1)
    obtain ⟨queue₁, hqueue₁, rfl⟩ := Option.map_eq_some_iff.mp (hlink.symm.trans hstart)
    refine ⟨queue₁, hqueue₁, ?_, ?_⟩
    · rw [UsbDevice.receive, Qtd.readBytes_packet (t := queue₁.qtds m.qtd0.ptr) hbytes]
      simp only [UsbDevice.answer, UsbDevice.react, hresponse]
    · rw [hanswer]
      refine .of_link oc hfree hqueue₁ hidle fun queue₂ hqtds₂ hidle₂ hstraight => ?_
      have hphase : NoDataPhase dma seg queue₁.qtds m.qtd0.ptr m.qtd1.ptr (.start queue₂ []) :=
        ⟨rfl, rfl, .start hidle₂ hqtds₂ rfl⟩
      exact .noData queue₁.qtds hchain hphase hstraight

end Start

/-! ## Runs -/

namespace Bus

section Runs

variable {δ α : Type} (dma : Dma) (oc : OverflowChecks) (seg : CtrlDsSegment) (m : SessionMem)
  (dev : UsbDevice δ) (ok : Session δ → Question → Prop) (post : α → Session δ → Prop)
  (err : SessionError → Session δ → Prop)

/-- What is asked is disciplined, and the buffer is long enough. -/
def Allowed (ok : Session δ → Question → Prop) : Prop :=
  ∀ s q, ok s q → q.Disciplined ∧ q.bufferLen ≤ m.buffer.len

/-- Nothing was asked, or an allowed question was answered last. -/
def Asked (s : Session δ) : Prop := s.log = [] ∨ ∃ s₀ q, ok s₀ q ∧ s = (dev.answer s₀ q).1

/-- The driver is where a program with the weakest precondition is. -/
inductive Inv (s : Bus δ α) : Prop where
  | program (p : SessionProg α) (pc : s.pc = .program p) (free : QueueFree s.stage.queue)
      (asked : Asked dev ok s.session) (wp : Prog.wp dev.answer ok post err p s.session)
  | linked (s₀ : Session δ) (q : Question) (p : SetupPacket) (t : ControlTransfer)
      (k : List Byte → SessionProg α) (pc : s.pc = .linked t k) (allowed : ok s₀ q)
      (transfer : m.transfer q = some (p, t)) (session : s.session = (dev.answer s₀ q).1)
      (linkedTo : LinkedTo dma seg m q (dev.answer s₀ q).2 s.stage)
      (wp : Prog.wp dev.answer ok post err (k (dev.answer s₀ q).2) s.session)
  | waiting (s₀ : Session δ) (q : Question) (p : SetupPacket) (t : ControlTransfer)
      (k : List Byte → SessionProg α) (pc : s.pc = .waiting t k) (allowed : ok s₀ q)
      (transfer : m.transfer q = some (p, t)) (session : s.session = (dev.answer s₀ q).1)
      (conducts : Conducts dma seg m q (dev.answer s₀ q).2 s.stage)
      (wp : Prog.wp dev.answer ok post err (k (dev.answer s₀ q).2) s.session)

variable {dma oc seg m dev ok post err} {s s' : Bus δ α}

theorem fits_of_le (hu : m.Usable dma seg) {q : Question} (hlen : q.bufferLen ≤ m.buffer.len) :
    m.buffer.physAddr.toNat % 4096 + q.bufferLen ≤ 0x5000 :=
  (Nat.add_le_add_left hlen _).trans hu.fits

variable (oc) in
/-- The driver asks: the device is done with the question, or a transfer for it is linked. -/
theorem issue_cases (hu : m.Usable dma seg) {q : Question} (hq : q.Disciplined)
    (hlen : q.bufferLen ≤ m.buffer.len) (s : Bus δ α) (hfree : QueueFree s.stage.queue)
    (k : List Byte → SessionProg α) :
    (s.issue oc seg m dev q k).session = (dev.answer s.session q).1 ∧
    ((s.issue oc seg m dev q k).pc = .program (k (dev.answer s.session q).2) ∧
        (s.issue oc seg m dev q k).stage = s.stage ∨
      ∃ p t, m.transfer q = some (p, t) ∧ (s.issue oc seg m dev q k).pc = .linked t k ∧
        LinkedTo dma seg m q (dev.answer s.session q).2 (s.issue oc seg m dev q k).stage) := by
  unfold Bus.issue
  cases ht : m.transfer q with
  | none =>
    cases q with
    | delay ms => exact ⟨rfl, .inl ⟨rfl, rfl⟩⟩
    | transferIn p len => cases ht
    | transferNoData p => cases ht
  | some pt =>
    obtain ⟨p, t⟩ := pt
    obtain ⟨queue, hlink, hreceive, hlinked⟩ := hu.link oc dev hq hlen ht hfree s.mem s.session
    simp only [hlink, hreceive, true_and]
    exact .inr ⟨p, t, rfl, rfl, hlinked⟩

/-- **One step on the bus**: the driver is where the program it runs is. -/
theorem Inv.step (hu : m.Usable dma seg) (hok : Allowed m ok) (h : Inv dma seg m dev ok post err s)
    {a : BusLabel} (hin : TokenInTime s a) (hs : s.step dma oc seg m dev a = some s') :
    Inv dma seg m dev ok post err s' := by
  cases h with
  | program p pc free asked wp =>
    cases a with
    | issue =>
      simp only [Bus.step, pc] at hs
      cases p with
      | ask q k =>
        cases hs
        obtain ⟨hallowed, hk⟩ := wp
        obtain ⟨hq, hlen⟩ := hok s.session q hallowed
        obtain ⟨hsession, ⟨hpc, hstage⟩ | ⟨p, t, ht, hpc, hlinked⟩⟩ := issue_cases oc hu hq hlen s free k
        · exact .program _ hpc (hstage ▸ free) (.inr ⟨s.session, q, hallowed, hsession⟩) (hsession ▸ hk)
        · exact .linked s.session q p t k hpc hallowed ht hsession hlinked (hsession ▸ hk)
      | ret a | fail e => cases hs
    | writeToken | resume =>
      simp only [Bus.step, pc] at hs
      cases hs
    | controller a =>
      rw [Bus.step, free.step_none] at hs
      cases hs
  | linked s₀ q p t k pc allowed transfer session linkedTo wp =>
    cases a with
    | issue | resume =>
      simp only [Bus.step, pc] at hs
      cases hs
    | writeToken =>
      simp only [Bus.step, pc, Option.some.injEq] at hs
      subst hs
      exact .waiting s₀ q p t k rfl allowed transfer session (linkedTo.clear hin) wp
    | controller a =>
      obtain ⟨stage', hstage, rfl⟩ := Option.map_eq_some_iff.mp hs
      exact .linked s₀ q p t k pc allowed transfer session (linkedTo.step hstage) wp
  | waiting s₀ q p t k pc allowed transfer session conducts wp =>
    cases a with
    | issue | writeToken =>
      simp only [Bus.step, pc] at hs
      cases hs
    | controller a =>
      obtain ⟨stage', hstage, rfl⟩ := Option.map_eq_some_iff.mp hs
      exact .waiting s₀ q p t k pc allowed transfer session (conducts.step hstage) wp
    | resume =>
      simp only [Bus.step, pc] at hs
      obtain ⟨hfin, hs⟩ := Option.ite_none_right_eq_some.mp hs
      cases hs
      have hfit := fits_of_le hu (hok s₀ q allowed).2
      refine .program _ rfl (conducts.queueFree transfer hfin) (.inr ⟨s₀, q, allowed, session⟩) ?_
      simp only [conducts.read transfer hfit hfin]
      exact wp

variable (oc) in
/-- **No deadlock**: until the program is over, the driver or the controller goes on, and the driver
can wait with its second write for the controller. -/
theorem Inv.enabled (h : Inv dma seg m dev ok post err s) (hend : ¬ s.Ended) :
    ∃ a s', TokenInTime s a ∧ s.step dma oc seg m dev a = some s' := by
  cases h with
  | program p pc free asked wp =>
    cases p with
    | ret a => exact absurd (.inl ⟨a, pc⟩) hend
    | fail e => exact absurd (.inr ⟨e, pc⟩) hend
    | ask q k => exact ⟨.issue, _, trivial, by simp only [Bus.step, pc]; rfl⟩
  | linked s₀ q p t k pc allowed transfer session linkedTo wp =>
    cases hact : s.stage.token.active with
    | false => exact ⟨.writeToken, _, hact, by simp only [Bus.step, pc]; rfl⟩
    | true =>
      obtain ⟨a, stage', hstage⟩ := linkedTo.enabled transfer hact
      exact ⟨.controller a, _, trivial, by rw [Bus.step, hstage, Option.map_some]⟩
  | waiting s₀ q p t k pc allowed transfer session conducts wp =>
    cases hfin : finished t s.stage with
    | true => exact ⟨.resume, _, trivial, by simp only [Bus.step, pc, hfin, if_true]; rfl⟩
    | false =>
      obtain ⟨a, stage', hstage⟩ := conducts.enabled transfer hfin
      exact ⟨.controller a, _, trivial, by rw [Bus.step, hstage, Option.map_some]⟩

abbrev Next (dma : Dma) (oc : OverflowChecks) (seg : CtrlDsSegment) (m : SessionMem) (dev : UsbDevice δ)
    (s' s : Bus δ α) : Prop := ∃ a, TokenInTime s a ∧ s.step dma oc seg m dev a = some s'

section Ends

variable {q : Question} {p : SetupPacket} {t : ControlTransfer} {k : List Byte → SessionProg α}
  {response : List Byte} {session : Session δ}

theorem acc_waiting (transfer : m.transfer q = some (p, t))
    (hfit : m.buffer.physAddr.toNat % 4096 + q.bufferLen ≤ 0x5000)
    (hk : ∀ s : Bus δ α, s.pc = .program (k response) → QueueFree s.stage.queue → s.session = session →
      Acc (Next dma oc seg m dev) s)
    (conducts : Conducts dma seg m q response s.stage) (pc : s.pc = .waiting t k)
    (hsession : s.session = session) : Acc (Next dma oc seg m dev) s := by
  induction hn : s.stage.workLeft 3 using Nat.strongRecOn generalizing s with
  | _ n ih =>
    refine ⟨s, fun s' ⟨a, _, hs⟩ => ?_⟩
    cases a with
    | issue | writeToken =>
      simp only [Bus.step, pc] at hs
      cases hs
    | controller a =>
      obtain ⟨stage', hstage, rfl⟩ := Option.map_eq_some_iff.mp hs
      have hlt := DataStage.workLeft_lt hstage (conducts.step hstage).executed_le
      exact ih _ (hn ▸ hlt) (conducts.step hstage) pc hsession rfl
    | resume =>
      simp only [Bus.step, pc] at hs
      obtain ⟨hfin, hs⟩ := Option.ite_none_right_eq_some.mp hs
      cases hs
      refine hk _ ?_ (conducts.queueFree transfer hfin) hsession
      simp only [Bus.resume, conducts.read transfer hfit hfin]

/-- The controller takes finitely many steps between the two writes. -/
theorem acc_linked (transfer : m.transfer q = some (p, t))
    (hfit : m.buffer.physAddr.toNat % 4096 + q.bufferLen ≤ 0x5000)
    (hk : ∀ s : Bus δ α, s.pc = .program (k response) → QueueFree s.stage.queue → s.session = session →
      Acc (Next dma oc seg m dev) s)
    (linkedTo : LinkedTo dma seg m q response s.stage) (pc : s.pc = .linked t k)
    (hsession : s.session = session) : Acc (Next dma oc seg m dev) s := by
  induction hn : s.stage.workLeft 3 using Nat.strongRecOn generalizing s with
  | _ n ih =>
    refine ⟨s, fun s' ⟨a, hin, hs⟩ => ?_⟩
    cases a with
    | issue | resume =>
      simp only [Bus.step, pc] at hs
      cases hs
    | writeToken =>
      simp only [Bus.step, pc, Option.some.injEq] at hs
      subst hs
      exact acc_waiting transfer hfit hk (linkedTo.clear hin) rfl hsession
    | controller a =>
      obtain ⟨stage', hstage, rfl⟩ := Option.map_eq_some_iff.mp hs
      have hlt := DataStage.workLeft_lt hstage (linkedTo.step hstage).executed_le
      exact ih _ (hn ▸ hlt) (linkedTo.step hstage) pc hsession rfl

/-- A program ends: it is a tree, and every question is answered. -/
theorem acc_program (hu : m.Usable dma seg) (hok : Allowed m ok) (p : SessionProg α) (pc : s.pc = .program p)
    (free : QueueFree s.stage.queue) (wp : Prog.wp dev.answer ok post err p s.session) :
    Acc (Next dma oc seg m dev) s := by
  induction p generalizing s with
  | ret a | fail e =>
    refine ⟨s, fun s' ⟨a, _, hs⟩ => ?_⟩
    cases a with
    | controller a =>
      rw [Bus.step, free.step_none] at hs
      cases hs
    | issue | writeToken | resume =>
      simp only [Bus.step, pc] at hs
      cases hs
  | ask q k ih =>
    refine ⟨s, fun s' ⟨a, _, hs⟩ => ?_⟩
    cases a with
    | controller a =>
      rw [Bus.step, free.step_none] at hs
      cases hs
    | writeToken | resume =>
      simp only [Bus.step, pc] at hs
      cases hs
    | issue =>
      simp only [Bus.step, pc, Option.some.injEq] at hs
      subst hs
      obtain ⟨hallowed, hk⟩ := wp
      obtain ⟨hq, hlen⟩ := hok s.session q hallowed
      obtain ⟨hsession, ⟨hpc, hstage⟩ | ⟨p, t, ht, hpc, hlinked⟩⟩ := issue_cases oc hu hq hlen s free k
      · exact ih _ hpc (hstage ▸ free) (hsession ▸ hk)
      · exact acc_linked ht (fits_of_le hu hlen) (fun s pc free hs => ih _ pc free (hs ▸ hk)) hlinked hpc
          hsession

end Ends

variable (oc) in
/-- **Every run ends.** -/
theorem Inv.acc (hu : m.Usable dma seg) (hok : Allowed m ok) (h : Inv dma seg m dev ok post err s) :
    Acc (Next dma oc seg m dev) s := by
  cases h with
  | program p pc free asked wp => exact acc_program hu hok p pc free wp
  | linked s₀ q p t k pc allowed transfer session linkedTo wp =>
    exact acc_linked transfer (fits_of_le hu (hok s₀ q allowed).2)
      (fun s' pc' free hs => acc_program hu hok _ pc' free (hs ▸ session ▸ wp)) linkedTo pc session
  | waiting s₀ q p t k pc allowed transfer session conducts wp =>
    exact acc_waiting transfer (fits_of_le hu (hok s₀ q allowed).2)
      (fun s' pc' free hs => acc_program hu hok _ pc' free (hs ▸ session ▸ wp)) conducts pc session

theorem Inv.asked (h : Inv dma seg m dev ok post err s) : Asked dev ok s.session := by
  cases h with
  | program p pc free asked wp => exact asked
  | linked s₀ q p t k pc allowed transfer session => exact .inr ⟨s₀, q, allowed, session⟩
  | waiting s₀ q p t k pc allowed transfer session => exact .inr ⟨s₀, q, allowed, session⟩

theorem exists_ended (hu : m.Usable dma seg) (hok : Allowed m ok) {queue : Queue} (hfree : QueueFree queue)
    {mem : BitVec 64 → Byte} {d : δ} {p : SessionProg α} (hwp : Prog.wp dev.answer ok post err p ⟨d, []⟩) :
    ∃ tr s, exec (Bus.step dma oc seg m dev) (.start queue mem d p) tr = some s ∧
      Meets (Bus.step dma oc seg m dev) TokenInTime (.start queue mem d p) tr ∧ s.Ended := by
  have h0 : Inv dma seg m dev ok post err (.start queue mem d p) := .program p rfl hfree (.inl rfl) hwp
  generalize Bus.start queue mem d p = s at h0
  have hacc := h0.acc oc hu hok
  induction hacc with
  | intro s _ ih =>
    by_cases hend : s.Ended
    · exact ⟨[], s, rfl, trivial, hend⟩
    · obtain ⟨a, s', hin, hs⟩ := h0.enabled oc hend
      obtain ⟨tr, s'', htr, hmeets, hend⟩ := ih s' ⟨a, hin, hs⟩ (h0.step hu hok hin hs)
      refine ⟨a :: tr, s'', by rw [exec, hs, Option.bind_some, htr], ⟨hin, fun s₁ hs₁ => ?_⟩, hend⟩
      rw [hs] at hs₁
      cases hs₁
      exact hmeets

/-- What a run on the bus has come to: what was asked was allowed, the program ends as it should, and
it does end. -/
structure Realized (dma : Dma) (oc : OverflowChecks) (seg : CtrlDsSegment) (m : SessionMem)
    (dev : UsbDevice δ) (ok : Session δ → Question → Prop) (post : α → Session δ → Prop)
    (err : SessionError → Session δ → Prop) (s : Bus δ α) : Prop where
  asked : Asked dev ok s.session
  returned : ∀ a, s.pc = .program (.ret a) → post a s.session
  failed : ∀ e, s.pc = .program (.fail e) → err e s.session
  /-- Until the program is over, the driver or the controller goes on. -/
  enabled : ¬ s.Ended → ∃ a s', TokenInTime s a ∧ s.step dma oc seg m dev a = some s'
  /-- No run goes on forever. -/
  ends : Acc (Next dma oc seg m dev) s

/-- **The bus realizes the session.** What the weakest precondition says of a program against the
device holds of every run on the bus whose second writes find no descriptor in execution. -/
theorem realized_of_exec (hu : m.Usable dma seg) (hok : Allowed m ok) {queue : Queue}
    (hfree : QueueFree queue) {mem : BitVec 64 → Byte} {d : δ} {p : SessionProg α}
    (hwp : Prog.wp dev.answer ok post err p ⟨d, []⟩) {tr : List BusLabel}
    (hin : Meets (Bus.step dma oc seg m dev) TokenInTime (.start queue mem d p) tr)
    (h : exec (Bus.step dma oc seg m dev) (.start queue mem d p) tr = some s) :
    Realized dma oc seg m dev ok post err s := by
  have hinv : Inv dma seg m dev ok post err s :=
    exec_invariant_of_meets (.program p rfl hfree (.inl rfl) hwp)
      (fun _ _ _ hi hc hs => hi.step hu hok hc hs) hin h
  refine ⟨hinv.asked, fun a ha => ?_, fun e he => ?_, hinv.enabled oc, hinv.acc oc hu hok⟩
  · cases hinv with
    | program p pc free asked wp =>
      cases pc.symm.trans ha
      exact wp
    | linked s₀ q p t k pc | waiting s₀ q p t k pc => cases pc.symm.trans ha
  · cases hinv with
    | program p pc free asked wp =>
      cases pc.symm.trans he
      exact wp
    | linked s₀ q p t k pc | waiting s₀ q p t k pc => cases pc.symm.trans he

end Runs

end Bus

end EzEhci
