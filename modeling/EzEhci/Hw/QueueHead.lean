import EzEhci.Hw.Qtd

/-!
# Queue heads

The queue head and its words. `QhHorizontalLinkPtr` links queue heads to each
other (in the asynchronous ring and in the periodic lists); the overlay part
(`nextQtdPointer`, `alternateQtdPointer`, `transferToken` and the buffer
pages) is where the controller works on the current descriptor.
-/

namespace EzEhci

open Lib

inductive SelectType where
  | itd
  | qh
  | splitItd
  | fstn
  deriving DecidableEq, Repr

def SelectType.toU2 : SelectType → BitVec 2
  | .itd => 0
  | .qh => 1
  | .splitItd => 2
  | .fstn => 3

structure QhHorizontalLinkPtr where
  raw : BitVec 32
  deriving DecidableEq, Repr

namespace QhHorizontalLinkPtr

def terminate (p : QhHorizontalLinkPtr) : Bool := bit 0 p.raw
def ptrUpper (p : QhHorizontalLinkPtr) : BitVec 27 := field 5 27 p.raw

def invalid : QhHorizontalLinkPtr := ⟨setBit 0 true 0⟩

def new (typ : SelectType) (ptr : BitVec 32) : QhHorizontalLinkPtr :=
  ⟨setField 5 ((ptr >>> 5).setWidth 27) (setField 1 typ.toU2 (setBit 0 false ptr))⟩

def ptr (p : QhHorizontalLinkPtr) : Option (BitVec 32) :=
  if p.terminate then none else some (p.ptrUpper.setWidth 32 <<< 5)

@[simp] theorem ptr_invalid : invalid.ptr = none := by
  simp [invalid, ptr, terminate, bit_setBit]

theorem ptr_new (typ : SelectType) (a : BitVec 32) : (new typ a).ptr = some ((a >>> 5) <<< 5) := by
  simp [new, ptr, terminate, ptrUpper, bit_setField_of_disjoint, bit_setBit, upper27_shift]

theorem ptr_shift {p : QhHorizontalLinkPtr} {a : BitVec 32} (h : p.ptr = some a) :
    (a >>> 5) <<< 5 = a := by
  unfold ptr at h
  split at h
  · cases h
  · cases h
    apply BitVec.eq_of_toNat_eq
    simp only [BitVec.toNat_shiftLeft, BitVec.toNat_ushiftRight, BitVec.toNat_setWidth,
      Nat.shiftLeft_eq, Nat.shiftRight_eq_div_pow]
    omega

end QhHorizontalLinkPtr

def qhLink (m : MappedMem) : QhHorizontalLinkPtr := .new .qh (m.physAddr.setWidth 32)

theorem qhLink_ptr {dma : Dma} {seg : CtrlDsSegment} {m : MappedMem} (h : m.Usable dma seg) :
    (qhLink m).ptr = some (m.physAddr.setWidth 32) := by
  rw [qhLink, QhHorizontalLinkPtr.ptr_new, shift5_of_aligned h.aligned]

inductive EndpointSpeed where
  | full
  | low
  | high
  deriving DecidableEq, Repr

def EndpointSpeed.toU2 : EndpointSpeed → BitVec 2
  | .full => 0
  | .low => 1
  | .high => 2

structure EndpointCharacteristics where
  raw : BitVec 32
  deriving DecidableEq, Repr

namespace EndpointCharacteristics

def dataToggleControl (c : EndpointCharacteristics) : Bool := bit 14 c.raw
def maxPacketLen (c : EndpointCharacteristics) : BitVec 11 := field 16 11 c.raw

def zero : EndpointCharacteristics := ⟨0⟩
def withDeviceAddr (c : EndpointCharacteristics) (v : BitVec 7) : EndpointCharacteristics :=
  ⟨setField 0 v c.raw⟩
def withInactiveOnNextTransaction (c : EndpointCharacteristics) (b : Bool) :
    EndpointCharacteristics := ⟨setBit 7 b c.raw⟩
def withEndpointNumber (c : EndpointCharacteristics) (v : BitVec 4) : EndpointCharacteristics :=
  ⟨setField 8 v c.raw⟩
def withEndpointSpeed (c : EndpointCharacteristics) (v : BitVec 2) : EndpointCharacteristics :=
  ⟨setField 12 v c.raw⟩
def withDataToggleControl (c : EndpointCharacteristics) (b : Bool) : EndpointCharacteristics :=
  ⟨setBit 14 b c.raw⟩
def withHeadOfReclamationListFlag (c : EndpointCharacteristics) (b : Bool) :
    EndpointCharacteristics := ⟨setBit 15 b c.raw⟩
def withMaxPacketLen (c : EndpointCharacteristics) (v : BitVec 11) : EndpointCharacteristics :=
  ⟨setField 16 v c.raw⟩
def withEndpointControlFlag (c : EndpointCharacteristics) (b : Bool) : EndpointCharacteristics :=
  ⟨setBit 27 b c.raw⟩
def withNakCountReload (c : EndpointCharacteristics) (v : BitVec 4) : EndpointCharacteristics :=
  ⟨setField 28 v c.raw⟩

end EndpointCharacteristics

structure EndpointCapabilities where
  raw : BitVec 32
  deriving DecidableEq, Repr

namespace EndpointCapabilities

def interruptScheduleMask (c : EndpointCapabilities) : BitVec 8 := field 0 8 c.raw
def splitCompletionMask (c : EndpointCapabilities) : BitVec 8 := field 8 8 c.raw

def zero : EndpointCapabilities := ⟨0⟩
def withInterruptScheduleMask (c : EndpointCapabilities) (v : BitVec 8) : EndpointCapabilities :=
  ⟨setField 0 v c.raw⟩
def withSplitCompletionMask (c : EndpointCapabilities) (v : BitVec 8) : EndpointCapabilities :=
  ⟨setField 8 v c.raw⟩
def withHubAddr (c : EndpointCapabilities) (v : BitVec 7) : EndpointCapabilities :=
  ⟨setField 16 v c.raw⟩
def withPortNumber (c : EndpointCapabilities) (v : BitVec 7) : EndpointCapabilities :=
  ⟨setField 23 v c.raw⟩
def withHighBandwidthPipeMultiplier (c : EndpointCapabilities) (v : BitVec 2) :
    EndpointCapabilities := ⟨setField 30 v c.raw⟩

end EndpointCapabilities

structure CurrentQtdLinkPtr where
  raw : BitVec 32
  deriving DecidableEq, Repr

def CurrentQtdLinkPtr.zero : CurrentQtdLinkPtr := ⟨0⟩

/-- `Qh`: the queue head as the controller sees it. -/
structure Qh where
  horizontalLinkPtr : QhHorizontalLinkPtr
  endpointCharacteristics : EndpointCharacteristics
  endpointCapabilities : EndpointCapabilities
  currentQtdPointer : CurrentQtdLinkPtr
  nextQtdPointer : NextQtdPointer
  alternateQtdPointer : AlternateQtdLinkPtr
  transferToken : TransferToken
  bufferPtrPage0 : BitVec 32
  bufferPtrPage1 : BitVec 32
  bufferPtrPage2 : BitVec 32
  bufferPtrPage3 : BitVec 32
  bufferPtrPage4 : BitVec 32
  extendedBufferPtrPage0 : BitVec 32
  extendedBufferPtrPage1 : BitVec 32
  extendedBufferPtrPage2 : BitVec 32
  extendedBufferPtrPage3 : BitVec 32
  extendedBufferPtrPage4 : BitVec 32
  deriving DecidableEq, Repr

def Qh.new (characteristics : EndpointCharacteristics) (capabilities : EndpointCapabilities) :
    Qh where
  horizontalLinkPtr := .invalid
  endpointCharacteristics := characteristics
  endpointCapabilities := capabilities
  currentQtdPointer := .zero
  nextQtdPointer := .zero
  alternateQtdPointer := .zero
  transferToken := .zero
  bufferPtrPage0 := 0
  bufferPtrPage1 := 0
  bufferPtrPage2 := 0
  bufferPtrPage3 := 0
  bufferPtrPage4 := 0
  extendedBufferPtrPage0 := 0
  extendedBufferPtrPage1 := 0
  extendedBufferPtrPage2 := 0
  extendedBufferPtrPage3 := 0
  extendedBufferPtrPage4 := 0

end EzEhci
