import EzEhci.Lib.Run
import EzEhci.Hw.QueueHead
import EzEhci.Device.Info
import EzEhci.Periodic.Manager

/-!
# Interrupt endpoints

`watch` arms a ring of transfer descriptors for an interrupt endpoint, `peek`
presents the oldest packet and `advance` gives its descriptor back to the
controller. `none` is a panic of `watch`; `peek` and `advance` say what they
leave behind when they panic. `WatchedInterruptEndpoint` holds the descriptors
as they are in memory.
-/

namespace EzEhci

open Lib

/-- `MappedMem<[T]>`. -/
structure MappedSlice where
  physAddr : BitVec 64
  ptr : Ptr
  len : Nat
  deriving DecidableEq, Repr

/-- The identity of an `Arc<InterruptEndpointSharedState>`. -/
abbrev InterruptEpId := Nat

structure InterruptEndpoint where
  deviceAddress : BitVec 7
  shared : InterruptEpId
  info : EndpointInfo
  ctrlDsSegment : CtrlDsSegment
  deriving DecidableEq, Repr

structure WatchInterruptResources where
  qh : MappedMem
  qtds : MappedSlice
  buffer : MappedSlice
  deriving DecidableEq, Repr

structure WatchedInterruptEndpoint where
  qtds : List Qtd
  buffer : MappedSlice
  completedPacketsIndex : Nat
  completedPackets : BitVec 64
  info : EndpointInfo
  deriving DecidableEq, Repr

/-- `2_u16.pow(e)`. -/
def pow2U16 (oc : OverflowChecks) (e : BitVec 8) : Option (BitVec 16) :=
  if oc = .on ∧ 16 ≤ e.toNat then none else some (BitVec.ofNat 16 (2 ^ e.toNat))

namespace InterruptEndpoint

def maxPacketSize (ep : InterruptEndpoint) : BitVec 11 := ep.info.maxPacketSize.maxPacketSize

def endpointNumber (ep : InterruptEndpoint) : BitVec 4 := ep.info.endpointAddress.endpointNumber

/-- The interval `watch` asks the periodic list for. -/
def normalizedInterval (oc : OverflowChecks) (ep : InterruptEndpoint) : Option NormalizedInterval := do
  let e ← subU oc ep.info.interval 1
  let n ← pow2U16 oc e
  NormalizedInterval.fromMicroFramesInterval n

theorem microFrames_eq (oc : OverflowChecks) {b : BitVec 8} (h1 : 1 ≤ b.toNat) (h16 : b.toNat ≤ 16) :
    (subU oc b 1).bind (pow2U16 oc) = some (BitVec.ofNat 16 (2 ^ (b.toNat - 1))) := by
  have hsub : (b - 1).toNat = b.toNat - 1 := by
    rw [BitVec.toNat_sub]
    simp
    omega
  rw [subU, if_neg (by simp; omega), Option.bind_some, pow2U16, hsub, if_neg (by omega)]

theorem normalizedInterval_eq (oc : OverflowChecks) {ep : InterruptEndpoint}
    (h1 : 1 ≤ ep.info.interval.toNat) (h16 : ep.info.interval.toNat ≤ 16) :
    ∃ iv, ep.normalizedInterval oc = some iv ∧
      iv.microFramesPower.toNat = min (ep.info.interval.toNat - 1) 13 := by
  have hn : ep.normalizedInterval oc =
      ((subU oc ep.info.interval 1).bind (pow2U16 oc)).bind NormalizedInterval.fromMicroFramesInterval :=
    (Option.bind_assoc _ _ _).symm
  rw [hn, microFrames_eq oc h1 h16, Option.bind_some]
  exact NormalizedInterval.fromMicroFramesInterval_two_pow (by omega)

/-- The queue head `watch` writes before it asks for a place in the periodic list. -/
def haltedQh (ep : InterruptEndpoint) : Qh :=
  let characteristics := EndpointCharacteristics.zero
    |>.withDeviceAddr ep.deviceAddress
    |>.withInactiveOnNextTransaction false
    |>.withEndpointNumber ep.endpointNumber
    |>.withEndpointSpeed EndpointSpeed.high.toU2
    |>.withDataToggleControl false
    |>.withHeadOfReclamationListFlag false
    |>.withMaxPacketLen ep.maxPacketSize
    |>.withEndpointControlFlag false
    |>.withNakCountReload 0
  let capabilities := EndpointCapabilities.zero
    |>.withInterruptScheduleMask 1
    |>.withSplitCompletionMask 0
    |>.withHubAddr 0
    |>.withPortNumber 0
    |>.withHighBandwidthPipeMultiplier 1
  let qh := Qh.new characteristics capabilities
  { qh with transferToken := qh.transferToken.withHalted true }

/-- The token of an armed descriptor. -/
def armedToken (maxPacketSize : BitVec 11) : TransferToken :=
  (TransferToken.newActive .inToken (maxPacketSize.setWidth 15)).withInterruptOnComplete true

/-- The `i`-th descriptor `watch` writes; the last one links back to the first. -/
def armQtd (oc : OverflowChecks) (ep : InterruptEndpoint) (res : WatchInterruptResources) (i : Nat) :
    Option Qtd := do
  let ptrs ← BufferPtrs.newContiguous oc res.buffer.physAddr (ep.maxPacketSize.setWidth 64)
  let qtd := Qtd.new (armedToken ep.maxPacketSize) ptrs
  let nextQtdOffset := if i + 1 < res.qtds.len then i + 1 else 0
  let addr ← addU oc res.qtds.physAddr (BitVec.ofNat 64 (Qtd.size * nextQtdOffset))
  let offset ← getAddrOffset addr ep.ctrlDsSegment
  some { qtd with nextQtdPtr := .newValid offset, alternateNextQtdPtr := .newValid offset }

/-- `watch` up to its request: the queue head it wrote and the interval it asks for. -/
def prepareWatch (oc : OverflowChecks) (ep : InterruptEndpoint) (res : WatchInterruptResources) :
    Option (Qh × NormalizedInterval) :=
  if res.qtds.len = 0 then none
  else if res.buffer.len ≠ res.qtds.len * ep.maxPacketSize.toNat then none
  else (ep.normalizedInterval oc).map fun iv => (ep.haltedQh, iv)

/-- `watch` after the runner answered: the descriptors, and the queue head linked to them. -/
def armWatch (oc : OverflowChecks) (ep : InterruptEndpoint) (res : WatchInterruptResources) (qh : Qh) :
    Option (Qh × WatchedInterruptEndpoint) := do
  let qtds ← (List.range res.qtds.len).mapM (ep.armQtd oc res)
  let offset ← getAddrOffset res.qtds.physAddr ep.ctrlDsSegment
  some ({ qh with nextQtdPointer := .newValid offset, transferToken := .zero },
    ⟨qtds, res.buffer, 0, 0, ep.info⟩)

def watch (oc : OverflowChecks) (ep : InterruptEndpoint) (res : WatchInterruptResources) :
    Option (Qh × WatchedInterruptEndpoint) := do
  let (qh, _) ← ep.prepareWatch oc res
  ep.armWatch oc res qh

end InterruptEndpoint

/-- What a poll of `peek` returns: the slice of the buffer it presents. -/
inductive PeekResult where
  | pending
  | slice (offset len : Nat)
  | panicked
  deriving DecidableEq, Repr

namespace WatchedInterruptEndpoint

def maxPacketSize (w : WatchedInterruptEndpoint) : BitVec 11 := w.info.maxPacketSize.maxPacketSize

/-- The slice of the packet at the current index. -/
def packet (w : WatchedInterruptEndpoint) : PeekResult :=
  .slice (w.completedPacketsIndex * w.maxPacketSize.toNat) w.maxPacketSize.toNat

def peek (w : WatchedInterruptEndpoint) : WatchedInterruptEndpoint × PeekResult :=
  if 1 ≤ w.completedPackets.toNat then (w, w.packet)
  else match w.qtds[w.completedPacketsIndex]? with
    | none => (w, .panicked)
    | some qtd =>
      if !qtd.qtdToken.active then ({ w with completedPackets := w.completedPackets + 1 }, w.packet)
      else (w, .pending)

/-- The offset `advance` restores in the descriptor at the current index. -/
def packetPtrs (oc : OverflowChecks) (w : WatchedInterruptEndpoint) : Option BufferPtrs := do
  let packetSize := w.maxPacketSize.setWidth 64
  let start ← mulU oc packetSize (BitVec.ofNat 64 w.completedPacketsIndex)
  let addr ← addU oc w.buffer.physAddr start
  BufferPtrs.newContiguous oc addr packetSize

/-- `advance`: what it leaves behind and whether it panicked. Its writes to the descriptor come
before the subtraction that panics when there is no packet. -/
def advance (oc : OverflowChecks) (w : WatchedInterruptEndpoint) : WatchedInterruptEndpoint × Bool :=
  match w.qtds[w.completedPacketsIndex]?, w.packetPtrs oc with
  | some qtd, some ptrs =>
    let qtd := { qtd with
      bufferPointerPage0 := qtd.bufferPointerPage0.withCurrentOffset ptrs.offset
      qtdToken := InterruptEndpoint.armedToken w.maxPacketSize }
    let index := w.completedPacketsIndex + 1
    let index := if index = w.qtds.length then 0 else index
    let w := { w with
      qtds := w.qtds.set w.completedPacketsIndex qtd
      completedPacketsIndex := index }
    match subU oc w.completedPackets 1 with
    | none => (w, true)
    | some n => ({ w with completedPackets := n }, false)
  | _, _ => (w, true)

end WatchedInterruptEndpoint

end EzEhci
