import EzEhci.Hw.Memory

/-!
# Transfer descriptors

The transfer token, the buffer page pointers and the queue element transfer
descriptor, word for word as the driver lays them out in DMA memory. Every
word is kept raw; accessors read and replace its bit ranges.
-/

namespace EzEhci

open Lib

/-! ## Transfer token -/

inductive PidCode where
  | outToken
  | inToken
  | setupToken
  deriving DecidableEq, Repr

def PidCode.toU2 : PidCode → BitVec 2
  | .outToken => 0
  | .inToken => 1
  | .setupToken => 2

/-- `TransferToken`: the token word of a QTD and of a QH's overlay. -/
structure TransferToken where
  raw : BitVec 32
  deriving DecidableEq, Repr

namespace TransferToken

def halted (t : TransferToken) : Bool := bit 6 t.raw
def active (t : TransferToken) : Bool := bit 7 t.raw
def pidCode (t : TransferToken) : BitVec 2 := field 8 2 t.raw
def interruptOnComplete (t : TransferToken) : Bool := bit 15 t.raw
def totalBytesToTransfer (t : TransferToken) : BitVec 15 := field 16 15 t.raw
def dataToggle (t : TransferToken) : Bool := bit 31 t.raw

def withHalted (t : TransferToken) (b : Bool) : TransferToken := ⟨setBit 6 b t.raw⟩
def withActive (t : TransferToken) (b : Bool) : TransferToken := ⟨setBit 7 b t.raw⟩
def withPidCode (t : TransferToken) (v : BitVec 2) : TransferToken := ⟨setField 8 v t.raw⟩
def withInterruptOnComplete (t : TransferToken) (b : Bool) : TransferToken := ⟨setBit 15 b t.raw⟩
def withTotalBytesToTransfer (t : TransferToken) (v : BitVec 15) : TransferToken :=
  ⟨setField 16 v t.raw⟩
def withDataToggle (t : TransferToken) (b : Bool) : TransferToken := ⟨setBit 31 b t.raw⟩

def zero : TransferToken := ⟨0⟩

def newActive (pid : PidCode) (totalBytes : BitVec 15) : TransferToken :=
  ((zero.withActive true).withPidCode pid.toU2).withTotalBytesToTransfer totalBytes

@[simp] theorem zero_active : zero.active = false := by simp [active, zero]
@[simp] theorem zero_halted : zero.halted = false := by simp [halted, zero]

@[simp] theorem withInterruptOnComplete_active (t : TransferToken) (b : Bool) :
    (t.withInterruptOnComplete b).active = t.active := by
  simp [active, withInterruptOnComplete, bit_setBit]

@[simp] theorem withInterruptOnComplete_halted (t : TransferToken) (b : Bool) :
    (t.withInterruptOnComplete b).halted = t.halted := by
  simp [halted, withInterruptOnComplete, bit_setBit]

@[simp] theorem withDataToggle_active (t : TransferToken) (b : Bool) :
    (t.withDataToggle b).active = t.active := by
  simp [active, withDataToggle, bit_setBit]

@[simp] theorem withDataToggle_pidCode (t : TransferToken) (b : Bool) :
    (t.withDataToggle b).pidCode = t.pidCode := by
  simp [pidCode, withDataToggle, setBit, field_setField_of_disjoint]

@[simp] theorem withInterruptOnComplete_pidCode (t : TransferToken) (b : Bool) :
    (t.withInterruptOnComplete b).pidCode = t.pidCode := by
  simp [pidCode, withInterruptOnComplete, setBit, field_setField_of_disjoint]

@[simp] theorem withTotalBytesToTransfer_pidCode (t : TransferToken) (v : BitVec 15) :
    (t.withTotalBytesToTransfer v).pidCode = t.pidCode := by
  simp [pidCode, withTotalBytesToTransfer, field_setField_of_disjoint]

@[simp] theorem newActive_pidCode (pid : PidCode) (n : BitVec 15) :
    (newActive pid n).pidCode = pid.toU2 := by
  rw [newActive, withTotalBytesToTransfer_pidCode]
  simp [pidCode, withPidCode]

@[simp] theorem withDataToggle_total (t : TransferToken) (b : Bool) :
    (t.withDataToggle b).totalBytesToTransfer = t.totalBytesToTransfer := by
  simp [totalBytesToTransfer, withDataToggle, setBit, field_setField_of_disjoint]

@[simp] theorem withInterruptOnComplete_total (t : TransferToken) (b : Bool) :
    (t.withInterruptOnComplete b).totalBytesToTransfer = t.totalBytesToTransfer := by
  simp [totalBytesToTransfer, withInterruptOnComplete, setBit, field_setField_of_disjoint]

@[simp] theorem withActive_total (t : TransferToken) (b : Bool) :
    (t.withActive b).totalBytesToTransfer = t.totalBytesToTransfer := by
  simp [totalBytesToTransfer, withActive, setBit, field_setField_of_disjoint]

@[simp] theorem withTotalBytesToTransfer_total (t : TransferToken) (v : BitVec 15) :
    (t.withTotalBytesToTransfer v).totalBytesToTransfer = v := by
  simp [totalBytesToTransfer, withTotalBytesToTransfer]

@[simp] theorem newActive_total (pid : PidCode) (n : BitVec 15) :
    (newActive pid n).totalBytesToTransfer = n := withTotalBytesToTransfer_total _ n

@[simp] theorem withTotalBytesToTransfer_active (t : TransferToken) (v : BitVec 15) :
    (t.withTotalBytesToTransfer v).active = t.active := by
  simp [active, withTotalBytesToTransfer, bit_setField_of_disjoint]

@[simp] theorem withTotalBytesToTransfer_halted (t : TransferToken) (v : BitVec 15) :
    (t.withTotalBytesToTransfer v).halted = t.halted := by
  simp [halted, withTotalBytesToTransfer, bit_setField_of_disjoint]

@[simp] theorem withActive_active (t : TransferToken) (b : Bool) : (t.withActive b).active = b := by
  simp [active, withActive, bit_setBit]

@[simp] theorem withActive_halted (t : TransferToken) (b : Bool) :
    (t.withActive b).halted = t.halted := by
  simp [halted, withActive, bit_setBit]

@[simp] theorem withDataToggle_halted (t : TransferToken) (b : Bool) :
    (t.withDataToggle b).halted = t.halted := by
  simp [halted, withDataToggle, bit_setBit]

@[simp] theorem newActive_active (pid : PidCode) (n : BitVec 15) : (newActive pid n).active = true := by
  simp [newActive, active, withActive, withPidCode, withTotalBytesToTransfer, bit_setBit,
    bit_setField_of_disjoint]

@[simp] theorem newActive_halted (pid : PidCode) (n : BitVec 15) :
    (newActive pid n).halted = false := by
  simp [newActive, halted, zero, withActive, withPidCode, withTotalBytesToTransfer, bit_setBit,
    bit_setField_of_disjoint]

end TransferToken

/-! ## Links between descriptors -/

structure NextQtdPointer where
  raw : BitVec 32
  deriving DecidableEq, Repr

namespace NextQtdPointer

def terminate (p : NextQtdPointer) : Bool := bit 0 p.raw
def addrUpper (p : NextQtdPointer) : BitVec 27 := field 5 27 p.raw

def zero : NextQtdPointer := ⟨0⟩

def invalid : NextQtdPointer := ⟨setBit 0 true 0⟩

def newValid (addr : BitVec 32) : NextQtdPointer :=
  ⟨setField 5 ((addr >>> 5).setWidth 27) (setBit 0 false 0)⟩

/-- The address the controller reads from the word, unless it is terminated. -/
def target (p : NextQtdPointer) : Option (BitVec 32) :=
  if p.terminate then none else some (p.addrUpper.setWidth 32 <<< 5)

end NextQtdPointer

structure AlternateQtdLinkPtr where
  raw : BitVec 32
  deriving DecidableEq, Repr

namespace AlternateQtdLinkPtr

def terminate (p : AlternateQtdLinkPtr) : Bool := bit 0 p.raw
def ptrUpper (p : AlternateQtdLinkPtr) : BitVec 27 := field 5 27 p.raw

def zero : AlternateQtdLinkPtr := ⟨0⟩

def invalid : AlternateQtdLinkPtr := ⟨setBit 0 true 0⟩

def newValid (ptr : BitVec 32) : AlternateQtdLinkPtr :=
  ⟨setField 5 ((ptr >>> 5).setWidth 27) (setField 1 (0 : BitVec 4) (setBit 0 false 0))⟩

/-- The address the controller reads from the word, unless it is terminated. -/
def target (p : AlternateQtdLinkPtr) : Option (BitVec 32) :=
  if p.terminate then none else some (p.ptrUpper.setWidth 32 <<< 5)

end AlternateQtdLinkPtr

theorem upper27_shift (a : BitVec 32) :
    ((a >>> 5).setWidth 27).setWidth 32 <<< 5 = (a >>> 5) <<< 5 := by
  apply BitVec.eq_of_toNat_eq
  simp only [BitVec.toNat_shiftLeft, BitVec.toNat_ushiftRight, BitVec.toNat_setWidth,
    Nat.shiftLeft_eq, Nat.shiftRight_eq_div_pow]
  have := a.isLt
  omega

@[simp] theorem NextQtdPointer.target_invalid : NextQtdPointer.invalid.target = none := by
  simp [NextQtdPointer.invalid, NextQtdPointer.target, NextQtdPointer.terminate, bit_setBit]

@[simp] theorem AlternateQtdLinkPtr.target_invalid : AlternateQtdLinkPtr.invalid.target = none := by
  simp [AlternateQtdLinkPtr.invalid, AlternateQtdLinkPtr.target, AlternateQtdLinkPtr.terminate,
    bit_setBit]

theorem NextQtdPointer.target_newValid (a : BitVec 32) :
    (NextQtdPointer.newValid a).target = some ((a >>> 5) <<< 5) := by
  simp [NextQtdPointer.newValid, NextQtdPointer.target, NextQtdPointer.terminate,
    NextQtdPointer.addrUpper, bit_setField_of_disjoint, bit_setBit, upper27_shift]

theorem AlternateQtdLinkPtr.target_newValid (a : BitVec 32) :
    (AlternateQtdLinkPtr.newValid a).target = some ((a >>> 5) <<< 5) := by
  simp [AlternateQtdLinkPtr.newValid, AlternateQtdLinkPtr.target, AlternateQtdLinkPtr.terminate,
    AlternateQtdLinkPtr.ptrUpper, bit_setField_of_disjoint, bit_setBit, upper27_shift]

/-! ## Buffer pages -/

/-- `BufferPtrs`: the five pages of a buffer and the offset in the first one. -/
structure BufferPtrs where
  ptrs : Vector (BitVec 64) 5
  offset : BitVec 12
  deriving DecidableEq, Repr

namespace BufferPtrs

/-- `BufferPtrs::new_contiguous`; `none` is a panic. -/
def newContiguous (oc : OverflowChecks) (ptr len : BitVec 64) : Option BufferPtrs := do
  let offset := ptr % 0x1000
  let page0 := ptr - offset
  let endPtr ← addU oc page0 len
  let limit ← addU oc page0 (0x1000 * 5)
  if limit < endPtr then none
  else
    let page1 ← addU oc page0 0x1000
    let page2 ← addU oc page0 (0x1000 * 2)
    let page3 ← addU oc page0 (0x1000 * 3)
    let page4 ← addU oc page0 (0x1000 * 4)
    some ⟨#v[page0, page1, page2, page3, page4], offset.setWidth 12⟩

def zero : BufferPtrs := ⟨#v[0, 0, 0, 0, 0], 0⟩

/-- `BufferPtrs::ptr_bits_12_31`. -/
def ptrBits12To31 (b : BufferPtrs) (i : Fin 5) : BitVec 20 :=
  (b.ptrs[i].setWidth 32 >>> 12).setWidth 20

/-- `BufferPtrs::ptr_bits_32_63`. -/
def ptrBits32To63 (b : BufferPtrs) (i : Fin 5) : BitVec 32 := (b.ptrs[i] >>> 32).setWidth 32

end BufferPtrs

structure QtdBufferPagePointerPage0 where
  raw : BitVec 32
  deriving DecidableEq, Repr

namespace QtdBufferPagePointerPage0

def currentOffset (p : QtdBufferPagePointerPage0) : BitVec 12 := field 0 12 p.raw
def ptrUpper (p : QtdBufferPagePointerPage0) : BitVec 20 := field 12 20 p.raw
def withCurrentOffset (p : QtdBufferPagePointerPage0) (v : BitVec 12) : QtdBufferPagePointerPage0 :=
  ⟨setField 0 v p.raw⟩
def withPtrUpper (p : QtdBufferPagePointerPage0) (v : BitVec 20) : QtdBufferPagePointerPage0 :=
  ⟨setField 12 v p.raw⟩

@[simp] theorem withCurrentOffset_currentOffset (p : QtdBufferPagePointerPage0) (v : BitVec 12) :
    (p.withCurrentOffset v).currentOffset = v := by
  simp [currentOffset, withCurrentOffset]

@[simp] theorem withCurrentOffset_ptrUpper (p : QtdBufferPagePointerPage0) (v : BitVec 12) :
    (p.withCurrentOffset v).ptrUpper = p.ptrUpper := by
  simp [ptrUpper, withCurrentOffset, field_setField_of_disjoint]

@[simp] theorem withPtrUpper_currentOffset (p : QtdBufferPagePointerPage0) (v : BitVec 20) :
    (p.withPtrUpper v).currentOffset = p.currentOffset := by
  simp [currentOffset, withPtrUpper, field_setField_of_disjoint]

@[simp] theorem withPtrUpper_ptrUpper (p : QtdBufferPagePointerPage0) (v : BitVec 20) :
    (p.withPtrUpper v).ptrUpper = v := by
  simp [ptrUpper, withPtrUpper]

end QtdBufferPagePointerPage0

structure QtdBufferPagePointerPage1Plus where
  raw : BitVec 32
  deriving DecidableEq, Repr

namespace QtdBufferPagePointerPage1Plus

def ptrUpper (p : QtdBufferPagePointerPage1Plus) : BitVec 20 := field 12 20 p.raw
def ofUpper (v : BitVec 20) : QtdBufferPagePointerPage1Plus := ⟨setField 12 v 0⟩

@[simp] theorem ofUpper_ptrUpper (v : BitVec 20) : (ofUpper v).ptrUpper = v := by
  simp [ptrUpper, ofUpper]

end QtdBufferPagePointerPage1Plus

/-! ## The descriptor -/

structure Qtd where
  nextQtdPtr : NextQtdPointer
  alternateNextQtdPtr : AlternateQtdLinkPtr
  qtdToken : TransferToken
  bufferPointerPage0 : QtdBufferPagePointerPage0
  bufferPointerPage1 : QtdBufferPagePointerPage1Plus
  bufferPointerPage2 : QtdBufferPagePointerPage1Plus
  bufferPointerPage3 : QtdBufferPagePointerPage1Plus
  bufferPointerPage4 : QtdBufferPagePointerPage1Plus
  extendedBufferPtrPage0 : BitVec 32
  extendedBufferPtrPage1 : BitVec 32
  extendedBufferPtrPage2 : BitVec 32
  extendedBufferPtrPage3 : BitVec 32
  extendedBufferPtrPage4 : BitVec 32
  deriving DecidableEq, Repr

def Qtd.new (token : TransferToken) (b : BufferPtrs) : Qtd where
  nextQtdPtr := .invalid
  alternateNextQtdPtr := .invalid
  qtdToken := token
  bufferPointerPage0 := ((⟨0⟩ : QtdBufferPagePointerPage0).withCurrentOffset b.offset).withPtrUpper
    (b.ptrBits12To31 0)
  bufferPointerPage1 := .ofUpper (b.ptrBits12To31 1)
  bufferPointerPage2 := .ofUpper (b.ptrBits12To31 2)
  bufferPointerPage3 := .ofUpper (b.ptrBits12To31 3)
  bufferPointerPage4 := .ofUpper (b.ptrBits12To31 4)
  extendedBufferPtrPage0 := b.ptrBits32To63 0
  extendedBufferPtrPage1 := b.ptrBits32To63 1
  extendedBufferPtrPage2 := b.ptrBits32To63 2
  extendedBufferPtrPage3 := b.ptrBits32To63 3
  extendedBufferPtrPage4 := b.ptrBits32To63 4

/-- `size_of::<Qtd>()`: 52 bytes rounded to the alignment of 32. -/
def Qtd.size : Nat := 64

/-- The address at which the controller stores the first byte: the extended pointer, the page-0
pointer and the current offset. -/
def Qtd.bufferAddr (q : Qtd) : BitVec 64 :=
  q.extendedBufferPtrPage0 ++ (q.bufferPointerPage0.ptrUpper ++ q.bufferPointerPage0.currentOffset)

/-- The address with another offset in the first page. -/
def Qtd.bufferAddrAt (q : Qtd) (offset : BitVec 12) : BitVec 64 :=
  q.extendedBufferPtrPage0 ++ (q.bufferPointerPage0.ptrUpper ++ offset)

theorem toNat_append_eq_add {n m : Nat} (x : BitVec n) (y : BitVec m) :
    (x ++ y).toNat = x.toNat * 2 ^ m + y.toNat := by
  rw [BitVec.toNat_append, ← Nat.shiftLeft_add_eq_or_of_lt y.isLt, Nat.shiftLeft_eq]

/-- A contiguous buffer is described by the page its first byte is in and the offset there. -/
theorem BufferPtrs.newContiguous_eq_some {oc : OverflowChecks} {ptr len : BitVec 64} {b : BufferPtrs}
    (h : newContiguous oc ptr len = some b) :
    b.ptrs[0] = ptr - ptr % 0x1000 ∧ b.offset = (ptr % 0x1000).setWidth 12 := by
  simp only [newContiguous, Option.bind_eq_bind, Option.bind_eq_some_iff] at h
  obtain ⟨_, _, _, _, h⟩ := h
  split at h
  · cases h
  · simp only [Option.bind_eq_some_iff, Option.some.injEq] at h
    obtain ⟨_, _, _, _, _, _, _, _, rfl⟩ := h
    exact ⟨rfl, rfl⟩

theorem BufferPtrs.newContiguous_page {oc : OverflowChecks} {ptr len : BitVec 64} {b : BufferPtrs}
    (h : newContiguous oc ptr len = some b) (p : Fin 5) :
    b.ptrs[p] = ptr - ptr % 0x1000 + 0x1000 * BitVec.ofNat 64 p := by
  obtain ⟨_, -, h⟩ := Option.bind_eq_some_iff.mp h
  obtain ⟨_, -, h⟩ := Option.bind_eq_some_iff.mp h
  obtain ⟨-, h⟩ := Option.ite_none_left_eq_some.mp h
  obtain ⟨_, h1, h⟩ := Option.bind_eq_some_iff.mp h
  obtain ⟨_, h2, h⟩ := Option.bind_eq_some_iff.mp h
  obtain ⟨_, h3, h⟩ := Option.bind_eq_some_iff.mp h
  obtain ⟨_, h4, h⟩ := Option.bind_eq_some_iff.mp h
  cases h
  rcases p with ⟨_ | _ | _ | _ | _ | p, hp⟩
  · exact (BitVec.add_zero _).symm
  · exact addU_eq_some h1
  · exact addU_eq_some h2
  · exact addU_eq_some h3
  · exact addU_eq_some h4
  · omega

theorem Qtd.bufferAddrAt_new {oc : OverflowChecks} {ptr len : BitVec 64} {b : BufferPtrs}
    (h : BufferPtrs.newContiguous oc ptr len = some b) (t : TransferToken) :
    (Qtd.new t b).bufferAddrAt b.offset = ptr := by
  obtain ⟨h0, hoff⟩ := BufferPtrs.newContiguous_eq_some h
  have hpage : b.ptrs[0].toNat = ptr.toNat - ptr.toNat % 4096 := by
    rw [h0, BitVec.toNat_sub_of_le]
    · rfl
    · exact BitVec.le_def.mpr (Nat.mod_le _ _)
  have hmod : (ptr % 0x1000).toNat = ptr.toNat % 4096 := rfl
  have hlt := ptr.isLt
  apply BitVec.eq_of_toNat_eq
  simp only [bufferAddrAt, Qtd.new, BufferPtrs.ptrBits12To31, BufferPtrs.ptrBits32To63,
    QtdBufferPagePointerPage0.withPtrUpper_ptrUpper, toNat_append_eq_add, hoff, Fin.getElem_fin,
    BitVec.toNat_setWidth, BitVec.toNat_ushiftRight, Nat.shiftRight_eq_div_pow, Fin.isValue,
    Fin.val_zero, hpage, hmod]
  omega

end EzEhci
