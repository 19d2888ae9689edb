import EzEhci.Lib.Loops
import EzEhci.Hw.Pages
import EzEhci.Hw.Queue
import EzEhci.Endpoint.Interrupt

/-!
# Control transfers

The transfers of a loaded control endpoint (`transfer_no_data`, `transfer_in`)
and the runner's SET_ADDRESS transfer: the descriptors they write, the queue
head they attach them to and the result they compute. A transfer is a chain
from its setup descriptor to its status descriptor, and the driver waits for
the status descriptor alone.
-/

namespace EzEhci

open Lib

/-- `SetupPacket`; the two-byte fields are little endian. -/
structure SetupPacket where
  bmRequestType : BitVec 8
  bRequest : BitVec 8
  wValue : BitVec 16
  wIndex : BitVec 16
  wLength : BitVec 16
  deriving DecidableEq, Repr

def SetupPacket.newSetAddress (newAddress : BitVec 7) : SetupPacket :=
  ⟨0, 5, newAddress.setWidth 16, 0, 0⟩

def SetupPacket.newSetConfiguration (configurationNumber : BitVec 8) : SetupPacket :=
  ⟨0, 9, configurationNumber.setWidth 16, 0, 0⟩

/-- The queue head `load` writes: no descriptor, and halted. -/
def loadedQh (deviceAddress : BitVec 7) (endpointNumber : BitVec 4) : Qh :=
  let characteristics := EndpointCharacteristics.zero
    |>.withHeadOfReclamationListFlag false
    |>.withDeviceAddr deviceAddress
    |>.withEndpointNumber endpointNumber
    |>.withEndpointSpeed EndpointSpeed.high.toU2
    |>.withMaxPacketLen 64
    |>.withDataToggleControl true
  let qh := Qh.new characteristics .zero
  { qh with nextQtdPointer := .invalid, transferToken := qh.transferToken.withHalted true }

/-! ## Building the descriptors -/

section Build

variable (oc : OverflowChecks) (seg : CtrlDsSegment)

def writeSetupQtd (q : Queue) (setupPacket setupQtdMem nextQtdMem : MappedMem) : Option Queue := do
  let ptrs ← BufferPtrs.newContiguous oc setupPacket.physAddr 8
  let setupQtd := Qtd.new (.newActive .setupToken 8) ptrs
  let next ← getAddrOffset nextQtdMem.physAddr seg
  some { q with qtds := q.qtds.modify setupQtdMem.ptr fun _ =>
    { setupQtd with nextQtdPtr := .newValid next } }

def writeStatusQtd (q : Queue) (statusQtdMem : MappedMem) (pid : PidCode) : Queue :=
  let token := ((TransferToken.newActive pid 0).withDataToggle true).withInterruptOnComplete true
  { q with qtds := q.qtds.modify statusQtdMem.ptr fun _ => Qtd.new token BufferPtrs.zero }

def attachQtd (q : Queue) (qtd : MappedMem) : Option Queue := do
  let offset ← getAddrOffset qtd.physAddr seg
  some { q with qh := { q.qh with nextQtdPointer := .newValid offset, transferToken := .zero } }

def transferNoDataStart (q : Queue) (setupPacket setupQtdMem statusQtdMem : MappedMem) :
    Option Queue := do
  let q ← writeSetupQtd oc seg q setupPacket setupQtdMem statusQtdMem
  let q := writeStatusQtd q statusQtdMem .inToken
  attachQtd seg q setupQtdMem

/-- One iteration of the loop of `transfer_in` over its buffers. -/
def writeInQtd (alternate : AlternateQtdLinkPtr) (q : Queue) (buffer : MappedSlice)
    (inQtdMem nextQtdMem : MappedMem) : Option Queue :=
  if buffer.len < 2 ^ 15 then do
    let ptrs ← BufferPtrs.newContiguous oc buffer.physAddr (BitVec.ofNat 64 buffer.len)
    let token := TransferToken.newActive .inToken (BitVec.ofNat 15 buffer.len)
    let inQtd := Qtd.new ((token.withDataToggle true).withInterruptOnComplete true) ptrs
    let next ← getAddrOffset nextQtdMem.physAddr seg
    some { q with qtds := q.qtds.modify inQtdMem.ptr fun _ =>
      { inQtd with nextQtdPtr := .newValid next, alternateNextQtdPtr := alternate } }
  else none

/-- The loop of `transfer_in`; `qtds` are the descriptors from the first IN descriptor on. -/
def writeInQtds (alternate : AlternateQtdLinkPtr) :
    Queue → List MappedSlice → List MappedMem → Option Queue
  | q, [], _ => some q
  | q, buffer :: buffers, inQtdMem :: nextQtdMem :: qtds => do
    let q ← writeInQtd oc seg alternate q buffer inQtdMem nextQtdMem
    writeInQtds alternate q buffers (nextQtdMem :: qtds)
  | _, _ :: _, _ => none

/-- `transfer_in` up to its wait: `qtds` are the setup, IN and status descriptors. -/
def transferInStart (q : Queue) (setupPacket : MappedMem) (buffers : List MappedSlice)
    (qtds : List MappedMem) : Option Queue :=
  if buffers.isEmpty ∨ qtds.length ≠ 1 + buffers.length + 1 then none
  else do
    let setupQtdMem ← qtds[0]?
    let statusQtdMem ← qtds.getLast?
    let inQtdMem ← qtds[1]?
    let q ← writeSetupQtd oc seg q setupPacket setupQtdMem inQtdMem
    let statusOffset ← getAddrOffset statusQtdMem.physAddr seg
    let q ← writeInQtds oc seg (.newValid statusOffset) q buffers (qtds.drop 1)
    let q := writeStatusQtd q statusQtdMem .outToken
    attachQtd seg q setupQtdMem

/-- The byte count `transfer_in` returns after its wait. -/
def bytesTransferred (q : Queue) : BitVec 16 → List MappedSlice → List MappedMem → Option (BitVec 16)
  | acc, [], _ => some acc
  | acc, buffer :: buffers, inQtdMem :: qtds =>
    if buffer.len < 2 ^ 16 then do
      let left := (q.qtds inQtdMem.ptr).qtdToken.totalBytesToTransfer.setWidth 16
      let n ← subU oc (BitVec.ofNat 16 buffer.len) left
      let acc ← addU oc acc n
      bytesTransferred q acc buffers qtds
    else none
  | _, _ :: _, [] => none

/-- The queue head of the runner's SET_ADDRESS transfer: a device without an address. -/
def setAddressQh (next : BitVec 32) : Qh :=
  let characteristics := EndpointCharacteristics.zero
    |>.withDeviceAddr 0
    |>.withEndpointNumber 0
    |>.withEndpointSpeed EndpointSpeed.high.toU2
    |>.withMaxPacketLen 8
  { Qh.new characteristics .zero with nextQtdPointer := .newValid next }

/-- The descriptors and the queue head the runner writes for SET_ADDRESS. -/
def setAddressStart (q : Queue) (buffer setupQtdMem statusQtdMem : MappedMem) : Option Queue := do
  let ptrs ← BufferPtrs.newContiguous oc buffer.physAddr 8
  let qtd0 := Qtd.new ((TransferToken.newActive .setupToken 8).withInterruptOnComplete true) ptrs
  let next ← getAddrOffset statusQtdMem.physAddr seg
  let qtds := q.qtds.modify setupQtdMem.ptr fun _ => { qtd0 with nextQtdPtr := .newValid next }
  let token := ((TransferToken.newActive .inToken 0).withInterruptOnComplete true).withDataToggle true
  let qtds := qtds.modify statusQtdMem.ptr fun _ => Qtd.new token BufferPtrs.zero
  let first ← getAddrOffset setupQtdMem.physAddr seg
  some { qh := setAddressQh first, qtds }

end Build

/-! ## The chains they build -/

/-- The descriptor at `p` is active and links to `next` and `alt`. -/
structure QtdAt (dma : Dma) (seg : CtrlDsSegment) (qtds : Heap Qtd) (p : Ptr) (next alt : Option Ptr) :
    Prop where
  active : (qtds p).qtdToken.active = true
  next : qtdNext dma seg qtds p = next
  alt : qtdAlt dma seg qtds p = alt

/-- The token of the IN descriptor for a buffer of `len` bytes. -/
def inToken (len : Nat) : TransferToken :=
  ((TransferToken.newActive .inToken (BitVec.ofNat 15 len)).withDataToggle true).withInterruptOnComplete
    true

def statusToken (pid : PidCode) : TransferToken :=
  ((TransferToken.newActive pid 0).withDataToggle true).withInterruptOnComplete true

/-- The descriptor at `p` is an IN descriptor for the buffer, and nothing of it was transferred. -/
structure InQtdAt (qtds : Heap Qtd) (p : Ptr) (buffer : MappedSlice) (alternate : AlternateQtdLinkPtr) :
    Prop where
  len_lt : buffer.len < 2 ^ 15
  token : (qtds p).qtdToken = inToken buffer.len
  bytes : ∀ k, (qtds p).byteAddr k = pagedAddr buffer.physAddr k
  alt : (qtds p).alternateNextQtdPtr = alternate

section Spec

variable {dma : Dma} {oc : OverflowChecks} {seg : CtrlDsSegment} {q q' : Queue}

theorem QtdAt.congr {qtds qtds' : Heap Qtd} {p : Ptr} {next alt : Option Ptr}
    (h : QtdAt dma seg qtds p next alt) (hp : qtds' p = qtds p) : QtdAt dma seg qtds' p next alt :=
  ⟨by rw [hp]; exact h.active, by rw [qtdNext, hp]; exact h.next, by rw [qtdAlt, hp]; exact h.alt⟩

theorem writeSetupQtd_spec {setupPacket setupQtdMem nextQtdMem : MappedMem}
    (hn : nextQtdMem.Usable dma seg)
    (h : writeSetupQtd oc seg q setupPacket setupQtdMem nextQtdMem = some q') :
    q'.qh = q.qh ∧ (∀ p ≠ setupQtdMem.ptr, q'.qtds p = q.qtds p) ∧
    QtdAt dma seg q'.qtds setupQtdMem.ptr (some nextQtdMem.ptr) none := by
  simp only [writeSetupQtd, hn.offset, Option.bind_eq_bind, Option.bind_eq_some_iff,
    Option.bind_some, Option.some.injEq] at h
  obtain ⟨ptrs, -, rfl⟩ := h
  refine ⟨rfl, fun p hp => by simp [Heap.modify_apply, hp], ?_, ?_, ?_⟩
  · simp [Qtd.new]
  · simpa [qtdNext] using next_newValid hn
  · simp [qtdAlt, Qtd.new]

theorem writeStatusQtd_spec (dma : Dma) (seg : CtrlDsSegment) (q : Queue) (statusQtdMem : MappedMem)
    (pid : PidCode) :
    (writeStatusQtd q statusQtdMem pid).qh = q.qh ∧
    (∀ p ≠ statusQtdMem.ptr, (writeStatusQtd q statusQtdMem pid).qtds p = q.qtds p) ∧
    QtdAt dma seg (writeStatusQtd q statusQtdMem pid).qtds statusQtdMem.ptr none none := by
  refine ⟨rfl, fun p hp => by simp [writeStatusQtd, Heap.modify_apply, hp], ?_, ?_, ?_⟩
  · simp [writeStatusQtd, Qtd.new]
  · simp [writeStatusQtd, qtdNext, Qtd.new]
  · simp [writeStatusQtd, qtdAlt, Qtd.new]

theorem attachQtd_spec {qtd : MappedMem} (hq : qtd.Usable dma seg)
    (h : attachQtd seg q qtd = some q') :
    q'.qtds = q.qtds ∧ q'.qh.transferToken = .zero ∧
    q'.advanceTarget.map (fun a => dma.virt (seg.addr a)) = some qtd.ptr := by
  simp only [attachQtd, hq.offset, Option.bind_eq_bind, Option.bind_some, Option.some.injEq] at h
  subst h
  refine ⟨rfl, rfl, ?_⟩
  rw [advanceTarget_of_zero rfl]
  exact next_newValid hq

theorem writeInQtd_spec {statusQtdMem inQtdMem nextQtdMem : MappedMem} {buffer : MappedSlice}
    (hs : statusQtdMem.Usable dma seg) (hn : nextQtdMem.Usable dma seg)
    (h : writeInQtd oc seg (.newValid (statusQtdMem.physAddr.setWidth 32)) q buffer inQtdMem
      nextQtdMem = some q') :
    q'.qh = q.qh ∧ (∀ p ≠ inQtdMem.ptr, q'.qtds p = q.qtds p) ∧
    QtdAt dma seg q'.qtds inQtdMem.ptr (some nextQtdMem.ptr) (some statusQtdMem.ptr) := by
  simp only [writeInQtd] at h
  split at h
  · simp only [hn.offset, Option.bind_eq_bind, Option.bind_eq_some_iff, Option.bind_some,
      Option.some.injEq] at h
    obtain ⟨ptrs, -, rfl⟩ := h
    refine ⟨rfl, fun p hp => by simp [Heap.modify_apply, hp], ?_, ?_, ?_⟩
    · simp [Qtd.new]
    · simpa [qtdNext] using next_newValid hn
    · simpa [qtdAlt] using alt_newValid hs
  · cases h

theorem writeInQtds_spec {statusQtdMem : MappedMem} {buffers : List MappedSlice}
    {ins : List MappedMem} (hs : statusQtdMem.Usable dma seg)
    (hlen : ins.length = buffers.length) (husable : ∀ m ∈ ins, m.Usable dma seg)
    (hnd : (ins.map MappedMem.ptr).Nodup)
    (h : writeInQtds oc seg (.newValid (statusQtdMem.physAddr.setWidth 32)) q buffers
      (ins ++ [statusQtdMem]) = some q') :
    q'.qh = q.qh ∧ (∀ p ∉ ins.map MappedMem.ptr, q'.qtds p = q.qtds p) ∧
    Linked (qtdNext dma seg q'.qtds) (ins.map MappedMem.ptr) (some statusQtdMem.ptr) ∧
    ∀ p ∈ ins.map MappedMem.ptr, ∃ next, QtdAt dma seg q'.qtds p next (some statusQtdMem.ptr) := by
  induction buffers generalizing q ins with
  | nil =>
    rw [List.length_nil, List.length_eq_zero_iff] at hlen
    subst hlen
    cases h
    exact ⟨rfl, fun _ _ => rfl, trivial, by simp⟩
  | cons buffer buffers ih =>
    cases ins with
    | nil => cases hlen
    | cons m ins =>
      -- the descriptor behind `m` is the next IN descriptor or the status descriptor
      obtain ⟨n, rest, hrest⟩ : ∃ n rest, ins ++ [statusQtdMem] = n :: rest := by
        cases ins with
        | nil => exact ⟨_, _, rfl⟩
        | cons n ins => exact ⟨_, _, rfl⟩
      have hn : n.Usable dma seg ∧ (ins.map MappedMem.ptr).head?.or (some statusQtdMem.ptr) =
          some n.ptr := by
        cases ins with
        | nil => cases hrest; exact ⟨hs, rfl⟩
        | cons n' ins => cases hrest; exact ⟨husable _ (by simp), rfl⟩
      simp only [List.cons_append, hrest, writeInQtds, Option.bind_eq_bind,
        Option.bind_eq_some_iff] at h
      obtain ⟨q₁, h₁, h⟩ := h
      obtain ⟨hqh₁, hframe₁, hat⟩ := writeInQtd_spec hs hn.1 h₁
      rw [← hrest] at h
      rw [List.map_cons, List.nodup_cons] at hnd
      obtain ⟨hqh, hframe, hlinks, hins⟩ := ih (by simpa using hlen)
        (fun m' hm' => husable m' (List.mem_cons_of_mem m hm')) hnd.2 h
      have hat' := hat.congr (hframe m.ptr hnd.1)
      refine ⟨hqh.trans hqh₁, fun p hp => ?_, ⟨?_, hlinks⟩, fun p hp => ?_⟩
      · rw [List.map_cons, List.mem_cons, not_or] at hp
        rw [hframe p hp.2, hframe₁ p hp.1]
      · rw [hat'.next, hn.2]
      · rcases List.mem_cons.mp hp with rfl | hp
        · exact ⟨_, hat'⟩
        · exact hins p hp

theorem InQtdAt.congr {qtds qtds' : Heap Qtd} {p : Ptr} {buffer : MappedSlice}
    {alternate : AlternateQtdLinkPtr} (h : InQtdAt qtds p buffer alternate) (hp : qtds' p = qtds p) :
    InQtdAt qtds' p buffer alternate :=
  ⟨h.len_lt, by rw [hp]; exact h.token, by rw [hp]; exact h.bytes, by rw [hp]; exact h.alt⟩

theorem writeInQtd_data {alternate : AlternateQtdLinkPtr} {inQtdMem nextQtdMem : MappedMem}
    {buffer : MappedSlice}
    (h : writeInQtd oc seg alternate q buffer inQtdMem nextQtdMem = some q') :
    (∀ p ≠ inQtdMem.ptr, q'.qtds p = q.qtds p) ∧ InQtdAt q'.qtds inQtdMem.ptr buffer alternate := by
  simp only [writeInQtd] at h
  split at h
  case isFalse => cases h
  rename_i hlt
  simp only [Option.bind_eq_bind, Option.bind_eq_some_iff, Option.some.injEq] at h
  obtain ⟨ptrs, hptrs, next, -, rfl⟩ := h
  refine ⟨fun p hp => by simp only [Heap.modify_apply, if_neg hp], hlt, ?_, ?_, ?_⟩
  · simp only [Heap.modify_self]
    rfl
  · simp only [Heap.modify_self]
    exact byteAddr_new hptrs (inToken buffer.len)
  · simp only [Heap.modify_self]

theorem writeInQtds_data {alternate : AlternateQtdLinkPtr} {buffers : List MappedSlice}
    {ins rest : List MappedMem} (hlen : ins.length = buffers.length)
    (hnd : (ins.map MappedMem.ptr).Nodup)
    (h : writeInQtds oc seg alternate q buffers (ins ++ rest) = some q') :
    (∀ p ∉ ins.map MappedMem.ptr, q'.qtds p = q.qtds p) ∧
    ∀ mb ∈ ins.zip buffers, InQtdAt q'.qtds mb.1.ptr mb.2 alternate := by
  induction buffers generalizing q ins with
  | nil =>
    rw [List.length_nil, List.length_eq_zero_iff] at hlen
    subst hlen
    cases h
    exact ⟨fun _ _ => rfl, by simp⟩
  | cons buffer buffers ih =>
    cases ins with
    | nil => cases hlen
    | cons m ins =>
      rw [List.map_cons, List.nodup_cons] at hnd
      cases hr : ins ++ rest with
      | nil => simp [hr, writeInQtds] at h
      | cons n rest' =>
        simp only [List.cons_append, hr, writeInQtds, Option.bind_eq_bind,
          Option.bind_eq_some_iff] at h
        obtain ⟨q₁, h₁, h⟩ := h
        obtain ⟨hframe₁, hat⟩ := writeInQtd_data h₁
        rw [← hr] at h
        obtain ⟨hframe, hins⟩ := ih (by simpa using hlen) hnd.2 h
        refine ⟨fun p hp => ?_, fun mb hmb => ?_⟩
        · rw [List.map_cons, List.mem_cons, not_or] at hp
          rw [hframe p hp.2, hframe₁ p hp.1]
        · rcases List.mem_cons.mp hmb with rfl | hmb
          · exact hat.congr (hframe m.ptr hnd.1)
          · exact hins mb hmb

theorem chain_of_parts {qtds : Heap Qtd} {setup status : Ptr} (ins : List Ptr)
    (hnd : (setup :: ins ++ [status]).Nodup)
    (hsetup : QtdAt dma seg qtds setup (ins.head?.or (some status)) none)
    (hlinks : Linked (qtdNext dma seg qtds) ins (some status))
    (hins : ∀ p ∈ ins, ∃ next, QtdAt dma seg qtds p next (some status))
    (hstatus : QtdAt dma seg qtds status none none) :
    Chain dma seg qtds (setup :: ins) status ∧
    ∀ p ∈ setup :: ins ++ [status], (qtds p).qtdToken.active = true := by
  refine ⟨⟨hnd, ?_, fun p hp => ?_, hstatus.alt⟩, fun p hp => ?_⟩
  · refine ⟨?_, linked_append.mpr ⟨hlinks, by rw [hstatus.next]; rfl, trivial⟩⟩
    rw [hsetup.next]
    exact (head?_or_append ins [status] none).symm
  · rcases List.mem_cons.mp hp with rfl | hp
    · exact .inl hsetup.alt
    · obtain ⟨next, h⟩ := hins p hp
      exact .inr h.alt
  · rcases List.mem_append.mp hp with hp | hp
    · rcases List.mem_cons.mp hp with rfl | hp
      · exact hsetup.active
      · obtain ⟨next, h⟩ := hins p hp
        exact h.active
    · rw [List.mem_singleton.mp hp]
      exact hstatus.active

theorem transferNoDataStart_attached {setupPacket setupQtdMem statusQtdMem : MappedMem}
    (hsetup : setupQtdMem.Usable dma seg) (hstatus : statusQtdMem.Usable dma seg)
    (hne : setupQtdMem.ptr ≠ statusQtdMem.ptr)
    (h : transferNoDataStart oc seg q setupPacket setupQtdMem statusQtdMem = some q') :
    Attached dma seg q' [setupQtdMem.ptr] statusQtdMem.ptr := by
  simp only [transferNoDataStart, Option.bind_eq_bind, Option.bind_eq_some_iff] at h
  obtain ⟨q₁, h₁, h⟩ := h
  obtain ⟨-, -, hat₁⟩ := writeSetupQtd_spec hstatus h₁
  obtain ⟨-, hframe₂, hat₂⟩ := writeStatusQtd_spec dma seg q₁ statusQtdMem .inToken
  obtain ⟨hqtds, htok, htarget⟩ := attachQtd_spec hsetup h
  obtain ⟨hchain, hactive⟩ := chain_of_parts [] (by simpa using hne)
    (hat₁.congr (hframe₂ _ hne)) trivial (by simp) hat₂
  refine ⟨by rw [hqtds]; exact hchain, by rw [hqtds]; exact hactive, ?_, htarget⟩
  rw [htok]
  exact ⟨TransferToken.zero_active, TransferToken.zero_halted⟩

theorem setAddressStart_attached {buffer setupQtdMem statusQtdMem : MappedMem}
    (hsetup : setupQtdMem.Usable dma seg) (hstatus : statusQtdMem.Usable dma seg)
    (hne : setupQtdMem.ptr ≠ statusQtdMem.ptr)
    (h : setAddressStart oc seg q buffer setupQtdMem statusQtdMem = some q') :
    Attached dma seg q' [setupQtdMem.ptr] statusQtdMem.ptr := by
  simp only [setAddressStart, hstatus.offset, hsetup.offset, Option.bind_eq_bind,
    Option.bind_eq_some_iff, Option.bind_some, Option.some.injEq] at h
  obtain ⟨ptrs, -, hq⟩ := h
  have hat₁ : QtdAt dma seg q'.qtds setupQtdMem.ptr (some statusQtdMem.ptr) none := by
    rw [← hq]
    refine ⟨?_, ?_, ?_⟩
    · simp [Heap.modify_apply, hne, Qtd.new]
    · simpa [qtdNext, Heap.modify_apply, hne] using next_newValid hstatus
    · simp [qtdAlt, Heap.modify_apply, hne, Qtd.new]
  have hat₂ : QtdAt dma seg q'.qtds statusQtdMem.ptr none none := by
    rw [← hq]
    refine ⟨?_, ?_, ?_⟩
    · simp [Qtd.new]
    · simp [qtdNext, Qtd.new]
    · simp [qtdAlt, Qtd.new]
  obtain ⟨hchain, hactive⟩ := chain_of_parts [] (by simpa using hne) hat₁ trivial (by simp)
    hat₂
  refine ⟨hchain, hactive, ?_, ?_⟩
  · rw [← hq]
    exact ⟨TransferToken.zero_active, TransferToken.zero_halted⟩
  · rw [← hq, advanceTarget_of_zero rfl]
    exact next_newValid hsetup

theorem transferInStart_shape {setupPacket : MappedMem} {buffers : List MappedSlice}
    {qtds : List MappedMem} (h : transferInStart oc seg q setupPacket buffers qtds = some q') :
    ∃ setup ins status, qtds = setup :: (ins ++ [status]) ∧ ins.length = buffers.length ∧
      0 < ins.length := by
  simp only [transferInStart] at h
  split at h
  · cases h
  · rename_i hlen
    rw [not_or, not_not] at hlen
    obtain ⟨hb, hlen⟩ := hlen
    cases qtds with
    | nil => cases h
    | cons setup rest =>
      rcases List.eq_nil_or_concat rest with rfl | ⟨ins, status, rfl⟩
      · simp at hlen
      · refine ⟨setup, ins, status, by simp, ?_, ?_⟩
        · simp at hlen
          omega
        · cases buffers with
          | nil => simp at hb
          | cons b bs =>
            simp at hlen
            omega

theorem transferInStart_parts {setupPacket setup first status : MappedMem} {buffers : List MappedSlice}
    {ins : List MappedMem} (hstatus : status.Usable dma seg)
    (h : transferInStart oc seg q setupPacket buffers (setup :: (first :: ins ++ [status])) = some q') :
    ∃ q₁ q₂, writeSetupQtd oc seg q setupPacket setup first = some q₁ ∧
      writeInQtds oc seg (.newValid (status.physAddr.setWidth 32)) q₁ buffers
        (first :: ins ++ [status]) = some q₂ ∧
      attachQtd seg (writeStatusQtd q₂ status .outToken) setup = some q' := by
  have hlast : (setup :: (first :: ins ++ [status])).getLast? = some status := by
    rw [← List.cons_append]
    exact List.getLast?_concat
  simp only [transferInStart, hlast] at h
  split at h
  · cases h
  · simp only [List.getElem?_cons_zero, List.getElem?_cons_succ, List.cons_append, List.drop_succ_cons,
      List.drop_zero, hstatus.offset, Option.bind_eq_bind, Option.bind_eq_some_iff,
      Option.bind_some] at h
    obtain ⟨q₁, h₁, q₂, h₂, h⟩ := h
    exact ⟨q₁, q₂, h₁, h₂, h⟩

theorem transferInStart_attached {setupPacket setup status : MappedMem} {buffers : List MappedSlice}
    {ins : List MappedMem} (husable : ∀ m ∈ setup :: (ins ++ [status]), m.Usable dma seg)
    (hnd : ((setup :: (ins ++ [status])).map MappedMem.ptr).Nodup)
    (hlen : ins.length = buffers.length) (hpos : 0 < ins.length)
    (h : transferInStart oc seg q setupPacket buffers (setup :: (ins ++ [status])) = some q') :
    Attached dma seg q' (setup.ptr :: ins.map MappedMem.ptr) status.ptr := by
  have hstatus : status.Usable dma seg := husable _ (by simp)
  have hsetup : setup.Usable dma seg := husable _ (by simp)
  cases ins with
  | nil => cases hpos
  | cons first ins =>
    obtain ⟨q₁, q₂, h₁, h₂, h⟩ := transferInStart_parts hstatus h
    rw [List.map_cons, List.map_append, List.map_singleton] at hnd
    obtain ⟨hsetup_tail, htail⟩ := List.nodup_cons.mp hnd
    rw [List.mem_append, List.mem_singleton, not_or] at hsetup_tail
    obtain ⟨hsetup_ins, hsetup_status⟩ := hsetup_tail
    obtain ⟨hins_nd, -, hins_status⟩ := List.nodup_append.mp htail
    have hstatus_ins : ∀ p ∈ (first :: ins).map MappedMem.ptr, p ≠ status.ptr :=
      fun p hp => hins_status p hp _ (List.mem_singleton_self _)
    obtain ⟨-, -, hat₁⟩ := writeSetupQtd_spec (husable first (by simp)) h₁
    obtain ⟨-, hframe₂, hlinks₂, hins₂⟩ := writeInQtds_spec hstatus hlen
      (fun m hm => husable m (List.mem_cons_of_mem _ (List.mem_append_left _ hm))) hins_nd h₂
    obtain ⟨-, hframe₃, hat₃⟩ := writeStatusQtd_spec dma seg q₂ status .outToken
    obtain ⟨hqtds, htok, htarget⟩ := attachQtd_spec hsetup h
    -- the status descriptor is written last and is none of the others
    obtain ⟨hchain, hactive⟩ := chain_of_parts ((first :: ins).map MappedMem.ptr) hnd
      ((hat₁.congr (hframe₂ _ hsetup_ins)).congr (hframe₃ _ hsetup_status))
      (linked_congr (fun p hp => by rw [qtdNext, hframe₃ p (hstatus_ins p hp)]; rfl) hlinks₂)
      (fun p hp => (hins₂ p hp).imp fun _ hat => hat.congr (hframe₃ p (hstatus_ins p hp))) hat₃
    refine ⟨by rw [hqtds]; exact hchain, by rw [hqtds]; exact hactive, ?_, htarget⟩
    rw [htok]
    exact ⟨TransferToken.zero_active, TransferToken.zero_halted⟩

theorem transferInStart_data {setupPacket setup status : MappedMem} {buffers : List MappedSlice}
    {ins : List MappedMem} (hstatus : status.Usable dma seg)
    (hnd : ((setup :: (ins ++ [status])).map MappedMem.ptr).Nodup)
    (hlen : ins.length = buffers.length) (hpos : 0 < ins.length)
    (h : transferInStart oc seg q setupPacket buffers (setup :: (ins ++ [status])) = some q') :
    (q'.qtds setup.ptr).qtdToken = .newActive .setupToken 8 ∧
    (∀ mb ∈ ins.zip buffers,
      InQtdAt q'.qtds mb.1.ptr mb.2 (.newValid (status.physAddr.setWidth 32))) ∧
    (q'.qtds status.ptr).qtdToken = statusToken .outToken := by
  cases ins with
  | nil => cases hpos
  | cons first ins =>
    obtain ⟨q₁, q₂, h₁, h₂, h⟩ := transferInStart_parts hstatus h
    rw [List.map_cons, List.map_append, List.map_singleton] at hnd
    obtain ⟨hsetup_tail, htail⟩ := List.nodup_cons.mp hnd
    rw [List.mem_append, List.mem_singleton, not_or] at hsetup_tail
    obtain ⟨hsetup_ins, hsetup_status⟩ := hsetup_tail
    obtain ⟨hins_nd, -, hins_status⟩ := List.nodup_append.mp htail
    simp only [writeSetupQtd, Option.bind_eq_bind, Option.bind_eq_some_iff, Option.some.injEq] at h₁
    obtain ⟨ptrs, -, next, -, rfl⟩ := h₁
    obtain ⟨hframe₂, hins₂⟩ := writeInQtds_data hlen hins_nd h₂
    obtain ⟨-, hframe₃, -⟩ := writeStatusQtd_spec dma seg q₂ status .outToken
    simp only [attachQtd, Option.bind_eq_bind, Option.bind_eq_some_iff, Option.some.injEq] at h
    obtain ⟨offset, -, rfl⟩ := h
    refine ⟨?_, fun mb hmb => ?_, ?_⟩
    · simp only [hframe₃ _ hsetup_status, hframe₂ _ hsetup_ins, Heap.modify_self]
      rfl
    · refine (hins₂ mb hmb).congr (hframe₃ _ fun e => hins_status _ ?_ _ (by simp) e)
      exact List.mem_map_of_mem (List.of_mem_zip hmb).1
    · simp only [writeStatusQtd, Heap.modify_self]
      rfl

end Spec

/-! ## Waiting for a transfer -/

/-- A queue right after the driver built and attached a transfer, with the status descriptor it
waits for. The descriptors are distinct, aligned and inside the window. -/
inductive TransferBuilt (dma : Dma) (seg : CtrlDsSegment) : Queue → Ptr → Prop where
  | noData (oc : OverflowChecks) (q q' : Queue) (setupPacket setup status : MappedMem)
      (usable : setup.Usable dma seg ∧ status.Usable dma seg) (distinct : setup.ptr ≠ status.ptr)
      (built : transferNoDataStart oc seg q setupPacket setup status = some q') :
      TransferBuilt dma seg q' status.ptr
  | transferIn (oc : OverflowChecks) (q q' : Queue) (setupPacket : MappedMem)
      (buffers : List MappedSlice) (qtds : List MappedMem) (status : MappedMem)
      (usable : ∀ m ∈ qtds, m.Usable dma seg) (distinct : (qtds.map MappedMem.ptr).Nodup)
      (last : qtds.getLast? = some status)
      (built : transferInStart oc seg q setupPacket buffers qtds = some q') :
      TransferBuilt dma seg q' status.ptr
  | setAddress (oc : OverflowChecks) (q q' : Queue) (buffer setup status : MappedMem)
      (usable : setup.Usable dma seg ∧ status.Usable dma seg) (distinct : setup.ptr ≠ status.ptr)
      (built : setAddressStart oc seg q buffer setup status = some q') :
      TransferBuilt dma seg q' status.ptr

theorem TransferBuilt.attached {dma : Dma} {seg : CtrlDsSegment} {q : Queue} {status : Ptr}
    (h : TransferBuilt dma seg q status) : ∃ body, Attached dma seg q body status := by
  cases h with
  | noData oc q q' setupPacket setup status usable distinct built =>
    exact ⟨_, transferNoDataStart_attached usable.1 usable.2 distinct built⟩
  | transferIn oc q q' setupPacket buffers qtds status usable distinct last built =>
    obtain ⟨setup, ins, status', rfl, hlen, hpos⟩ := transferInStart_shape built
    obtain rfl : status' = status := by
      rw [← List.cons_append, List.getLast?_concat] at last
      exact Option.some.inj last
    exact ⟨_, transferInStart_attached usable distinct hlen hpos built⟩
  | setAddress oc q q' buffer setup status usable distinct built =>
    exact ⟨_, setAddressStart_attached usable.1 usable.2 distinct built⟩

/-- **Waiting when the controller stops.** In a state in which the controller has nothing left to do
for a transfer, the driver's test on the status descriptor succeeds exactly if no descriptor before
it was halted in the run. -/
theorem waitTest_iff_haltsOnlyAt {dma : Dma} {seg : CtrlDsSegment} {q₀ q : Queue} {status : Ptr}
    {tr : List QueueLabel} (hb : TransferBuilt dma seg q₀ status)
    (h : exec (Queue.step dma seg) q₀ tr = some q) (ht : q.Terminal) :
    q.waitTest status = true ↔
      Meets (Queue.step dma seg) (HaltsOnlyAt dma seg status) q₀ tr := by
  obtain ⟨body, h0⟩ := hb.attached
  obtain ⟨hchain, hpos, hmeets⟩ := h0.exec h
  rw [hmeets]
  exact hpos.waitTest_iff hchain ht

def blankQueue : Queue :=
  ⟨Qh.new .zero .zero, fun _ => Qtd.new .zero .zero⟩

/-- The transfer without data that the driver starts with two descriptors. -/
theorem transferBuilt_noData : ∃ q,
    transferNoDataStart .on .lower4G blankQueue ⟨0x3000, 0x3000⟩ ⟨0x1000, 0x1000⟩ ⟨0x1040, 0x1040⟩ =
      some q ∧ TransferBuilt .identity .lower4G q 0x1040 := by
  obtain ⟨q, hq⟩ := Option.isSome_iff_exists.mp (show (transferNoDataStart .on .lower4G blankQueue
    ⟨0x3000, 0x3000⟩ ⟨0x1000, 0x1000⟩ ⟨0x1040, 0x1040⟩).isSome = true by decide +kernel)
  exact ⟨q, hq, .noData .on blankQueue q ⟨0x3000, 0x3000⟩ ⟨0x1000, 0x1000⟩ ⟨0x1040, 0x1040⟩
    (by decide) (by decide) hq⟩

theorem exec_noData (tr : List QueueLabel) (P : Queue → Prop) [DecidablePred P]
    (h : ((transferNoDataStart .on .lower4G blankQueue ⟨0x3000, 0x3000⟩ ⟨0x1000, 0x1000⟩
      ⟨0x1040, 0x1040⟩).bind fun q => exec (Queue.step .identity .lower4G) q tr).any
        (fun q => decide (P q)) = true) :
    ∃ q₀ q, TransferBuilt .identity .lower4G q₀ 0x1040 ∧
      exec (Queue.step .identity .lower4G) q₀ tr = some q ∧ P q := by
  obtain ⟨q₀, hq₀, hb⟩ := transferBuilt_noData
  rw [hq₀, Option.bind_some] at h
  obtain ⟨q, hq, hp⟩ := exec_witness _ _ tr P h
  exact ⟨q₀, q, hb, hq, hp⟩

/-- The controller completes both descriptors. -/
theorem waitTest_iff_completed : ∃ q₀ q, TransferBuilt .identity .lower4G q₀ 0x1040 ∧
    exec (Queue.step .identity .lower4G) q₀ [.fetch, .complete .zero, .fetch, .complete .zero] =
      some q ∧ q.Terminal ∧ q.waitTest 0x1040 = true := by
  obtain ⟨q₀, q, hb, hq, ht⟩ := exec_noData
    [.fetch, .complete .zero, .fetch, .complete .zero] Queue.Terminal
    (by decide +kernel)
  refine ⟨q₀, q, hb, hq, ht, (waitTest_iff_haltsOnlyAt hb hq ht).mpr ?_⟩
  exact ⟨trivial, fun _ _ => ⟨trivial, fun _ _ => ⟨trivial, fun _ _ => ⟨trivial, fun _ _ => trivial⟩⟩⟩⟩

/-- The setup descriptor is halted by a transaction error: the status descriptor stays active. -/
theorem not_waitTest_setup_halted :
    ¬ ∀ (dma : Dma) (seg : CtrlDsSegment) (q₀ q : Queue) (status : Ptr) (tr : List QueueLabel),
      TransferBuilt dma seg q₀ status → exec (Queue.step dma seg) q₀ tr = some q → q.Terminal →
      q.waitTest status = true := by
  intro h
  obtain ⟨q₀, q, hb, hq, ht, hw⟩ := exec_noData [.fetch, .halt ⟨0x48⟩]
    (fun q => q.Terminal ∧ q.waitTest 0x1040 = false) (by decide +kernel)
  rw [h _ _ _ _ _ _ hb hq ht] at hw
  cases hw

end EzEhci
