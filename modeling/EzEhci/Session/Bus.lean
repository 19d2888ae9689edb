import EzEhci.Session.Enumerate
import EzEhci.Session.Stage

/-!
# Sessions on the bus

A session program as the driver runs it: a question is a setup packet written
to memory and a chain of descriptors, which the two writes of `attach_qtd` give
to the controller; the device gets the bytes that the setup descriptor points
at; the controller takes steps of its own at any time; and the driver, when it
finds the status descriptor inactive, goes on with the bytes it finds in the
buffer. What follows is about the runs whose second writes find no descriptor
in execution (`Bus.TokenInTime`): a transfer that loses one is never complete.

`Inv` relates the bus to the program that only asks and is answered. What
`wp` says of that program holds of every run on the bus (`Inv.step`), and every
run ends (`Inv.acc`, `Inv.enabled`).
-/

namespace EzEhci

open Lib

/-! ## Memory -/

def readBytes (mem : BitVec 64 → Byte) (a : BitVec 64) (n : Nat) : List Byte := (span a n).map mem

def writeBytes (mem : BitVec 64 → Byte) (a : BitVec 64) (bytes : List Byte) : BitVec 64 → Byte :=
  applyStores mem (((span a bytes.length).map some).zip bytes)

/-- What the controller reads through the page pointers of a descriptor. -/
def Qtd.readBytes (t : Qtd) (mem : BitVec 64 → Byte) (n : Nat) : List Byte :=
  (List.range n).filterMap fun k => (t.byteAddr k).map mem

theorem nodup_span (a : BitVec 64) {n : Nat} (hn : n ≤ 2 ^ 64) : (span a n).Nodup := by
  refine List.Nodup.map_on (fun i hi j hj h => ?_) List.nodup_range
  have hi' := List.mem_range.mp hi
  have hj' := List.mem_range.mp hj
  have h' := congrArg BitVec.toNat ((BitVec.add_right_inj a).mp h)
  rwa [BitVec.toNat_ofNat, BitVec.toNat_ofNat, Nat.mod_eq_of_lt (by omega), Nat.mod_eq_of_lt (by omega)] at h'

/-- What was stored at the first bytes of a buffer is read from there. -/
theorem readBytes_applyStores (mem : BitVec 64 → Byte) (a : BitVec 64) {len : Nat} {bytes : List Byte}
    (hlen : bytes.length ≤ len) (hmax : len ≤ 2 ^ 64) :
    readBytes (applyStores mem (((span a len).map some).zip bytes)) a bytes.length = bytes := by
  have hbytes : bytes.length ≤ (span a len).length := by simpa using hlen
  have htake : span a bytes.length = (span a len).take bytes.length := by
    rw [take_span, Nat.min_eq_left hlen]
  rw [readBytes, htake, List.map_take, map_applyStores_zip mem (nodup_span a hmax) hbytes, List.take_left]

theorem Qtd.readBytes_eq {t : Qtd} {a : BitVec 64} (ht : ∀ k, t.byteAddr k = pagedAddr a k) {n : Nat}
    (hn : a.toNat % 4096 + n ≤ 0x5000) (mem : BitVec 64 → Byte) :
    t.readBytes mem n = EzEhci.readBytes mem a n := by
  have haddr : ∀ k ∈ List.range n, (t.byteAddr k).map mem = some (mem (a + BitVec.ofNat 64 k)) := by
    intro k hk
    have hlt := List.mem_range.mp hk
    rw [ht, pagedAddr, if_pos (by omega), Option.map_some]
  rw [Qtd.readBytes, List.filterMap_congr haddr, EzEhci.readBytes, span, List.map_map]
  exact congrFun List.filterMap_eq_map _

/-! ## The world -/

/-- The memory a session is lent (`GetInfoResources`). -/
structure SessionMem where
  setupPacket : MappedMem
  buffer : MappedSlice
  qtd0 : MappedMem
  qtd1 : MappedMem
  qtd2 : MappedMem
  deriving DecidableEq, Repr

namespace SessionMem

def qtds (m : SessionMem) : List MappedMem := [m.qtd0, m.qtd1, m.qtd2]

def slice (m : SessionMem) (len : Nat) : MappedSlice := ⟨m.buffer.physAddr, m.buffer.ptr, len⟩

/-- The transfer for a question, with the packet that is written first. -/
def transfer (m : SessionMem) : Question → Option (SetupPacket × ControlTransfer)
  | .transferIn p len => some (p, .transferIn m.setupPacket [m.slice len] m.qtds)
  | .transferNoData p => some (p, .noData m.setupPacket m.qtd0 m.qtd1)
  | .delay _ => none

/-- The descriptors are distinct, aligned and inside the window; the packet and the buffer are not at
the end of the address space, and the buffer ends inside the five pages from its own on. -/
structure Usable (dma : Dma) (seg : CtrlDsSegment) (m : SessionMem) : Prop where
  qtds : ∀ q ∈ m.qtds, q.Usable dma seg
  nodup : (m.qtds.map MappedMem.ptr).Nodup
  packet : m.setupPacket.physAddr.toNat - m.setupPacket.physAddr.toNat % 4096 + 0x5000 < 2 ^ 64
  buffer : m.buffer.physAddr.toNat - m.buffer.physAddr.toNat % 4096 + 0x5000 < 2 ^ 64
  fits : m.buffer.physAddr.toNat % 4096 + m.buffer.len ≤ 0x5000

instance (dma : Dma) (seg : CtrlDsSegment) (m : SessionMem) : Decidable (m.Usable dma seg) :=
  decidable_of_iff ((∀ q ∈ m.qtds, q.Usable dma seg) ∧ (m.qtds.map MappedMem.ptr).Nodup ∧
      m.setupPacket.physAddr.toNat - m.setupPacket.physAddr.toNat % 4096 + 0x5000 < 2 ^ 64 ∧
      m.buffer.physAddr.toNat - m.buffer.physAddr.toNat % 4096 + 0x5000 < 2 ^ 64 ∧
      m.buffer.physAddr.toNat % 4096 + m.buffer.len ≤ 0x5000)
    ⟨fun ⟨h1, h2, h3, h4, h5⟩ => ⟨h1, h2, h3, h4, h5⟩, fun ⟨h1, h2, h3, h4, h5⟩ => ⟨h1, h2, h3, h4, h5⟩⟩

end SessionMem

/-- What the driver reads when the transfer is over; `none` is a panic. -/
def ControlTransfer.read (oc : OverflowChecks) (queue : Queue) (mem : BitVec 64 → Byte) :
    ControlTransfer → Option (List Byte)
  | .noData _ _ _ => some []
  | .transferIn _ buffers qtds => do
    let n ← bytesTransferred oc queue 0 buffers (qtds.drop 1)
    let buffer ← buffers.head?
    if n.toNat ≤ buffer.len then some (readBytes mem buffer.physAddr n.toNat) else none

/-- A transfer up to the first write of `attach_qtd`. -/
def ControlTransfer.link (oc : OverflowChecks) (seg : CtrlDsSegment) (q : Queue) (t : ControlTransfer) :
    Option Queue := do
  let q ← t.build oc seg q
  let setup ← t.qtds.head?
  AttachWorld.linkQtd seg q setup

theorem ControlTransfer.start_eq_link (oc : OverflowChecks) (seg : CtrlDsSegment) (q : Queue)
    (t : ControlTransfer) : t.start oc seg q = (t.link oc seg q).map AttachWorld.clearToken := by
  rw [start_eq, link]
  cases t.build oc seg q with
  | none => rfl
  | some q =>
    cases t.qtds.head? with
    | none => rfl
    | some setup => exact attachQtd_eq seg q setup

/-- The driver runs, is between the two writes of `attach_qtd`, or waits for a transfer. -/
inductive BusPc (α : Type) where
  | program (p : SessionProg α)
  | linked (t : ControlTransfer) (k : List Byte → SessionProg α)
  | waiting (t : ControlTransfer) (k : List Byte → SessionProg α)

/-- `stage` is the controller with the queue of the endpoint. -/
structure Bus (δ α : Type) where
  stage : DataStage
  mem : BitVec 64 → Byte
  session : Session δ
  pc : BusPc α

inductive BusLabel where
  | issue
  | writeToken
  | controller (a : DataLabel)
  | resume
  deriving DecidableEq, Repr

/-- The device gets eight bytes in a setup stage. -/
def UsbDevice.receive {δ : Type} (dev : UsbDevice δ) (s : Session δ) (q : Question) (bytes : List Byte) :
    Session δ × List Byte :=
  let r := match SetupPacket.ofBytes bytes with
    | some p => dev.respond s.device p
    | none => (s.device, [])
  (⟨r.1, s.log ++ [(q, r.2)]⟩, r.2)

namespace Bus

variable {δ α : Type}

section Step

variable (dma : Dma) (oc : OverflowChecks) (seg : CtrlDsSegment) (m : SessionMem) (dev : UsbDevice δ)

/-- The driver asks: it writes the packet and the descriptors and makes the first write of
`attach_qtd`. Until that write the queue is free and the controller has no step (`QueueFree.step_none`). -/
def issue (s : Bus δ α) (q : Question) (k : List Byte → SessionProg α) : Bus δ α :=
  match m.transfer q with
  | none => { s with session := (dev.answer s.session q).1, pc := .program (k []) }
  | some (p, t) =>
    let mem := writeBytes s.mem m.setupPacket.physAddr p.bytes
    match t.link oc seg s.stage.queue with
    | none => { s with mem, pc := .program (.fail .panicked) }
    | some queue =>
      let r := dev.receive s.session q ((queue.qtds m.qtd0.ptr).readBytes mem 8)
      { stage := .start queue r.2, mem, session := r.1, pc := .linked t k }

def resume (s : Bus δ α) (t : ControlTransfer) (k : List Byte → SessionProg α) : Bus δ α :=
  let mem := applyStores s.mem s.stage.stores
  let p := match t.read oc s.stage.queue mem with
    | some bytes => k bytes
    | none => .fail .panicked
  { s with mem, pc := .program p }

def finished (t : ControlTransfer) (stage : DataStage) : Bool :=
  t.qtds.getLast?.any fun status => stage.queue.waitTest status.ptr

def step (s : Bus δ α) : BusLabel → Option (Bus δ α)
  | .issue =>
    match s.pc with
    | .program (.ask q k) => some (s.issue oc seg m dev q k)
    | _ => none
  | .writeToken =>
    match s.pc with
    | .linked t k => some { s with stage := s.stage.clear, pc := .waiting t k }
    | _ => none
  | .controller a => (s.stage.step dma seg a).map fun stage => { s with stage }
  | .resume =>
    match s.pc with
    | .waiting t k => if finished t s.stage then some (s.resume oc t k) else none
    | _ => none

/-- The program starts on the queue of an endpoint. -/
def start (queue : Queue) (mem : BitVec 64 → Byte) (d : δ) (p : SessionProg α) : Bus δ α :=
  ⟨.start queue [], mem, ⟨d, []⟩, .program p⟩

end Step

/-- The second write of `attach_qtd` finds no descriptor in execution. -/
def TokenInTime (s : Bus δ α) : BusLabel → Prop
  | .writeToken => s.stage.token.active = false
  | _ => True

instance (s : Bus δ α) : (a : BusLabel) → Decidable (TokenInTime s a)
  | .writeToken => inferInstanceAs (Decidable (_ = _))
  | .issue | .controller _ | .resume => .isTrue trivial

def Ended (s : Bus δ α) : Prop := (∃ a, s.pc = .program (.ret a)) ∨ ∃ e, s.pc = .program (.fail e)

def outcome? (s : Bus δ α) : Option (Except SessionError α) :=
  match s.pc with
  | .program (.ret a) => some (.ok a)
  | .program (.fail e) => some (.error e)
  | .program (.ask _ _) => none
  | .linked _ _ => none
  | .waiting _ _ => none

theorem pc_of_outcome? {s : Bus δ α} {r : Except SessionError α} (h : s.outcome? = some r) :
    s.pc = .program (.ofExcept r) := by
  unfold outcome? at h
  split at h
  next hpc =>
    cases h
    exact hpc
  next hpc =>
    cases h
    exact hpc
  next => cases h
  next => cases h
  next => cases h

end Bus

end EzEhci
