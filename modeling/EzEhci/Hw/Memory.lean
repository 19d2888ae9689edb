import EzEhci.Lib.Bits
import Mathlib.Logic.Function.Basic

/-!
# Memory shared with the controller

`MappedMem` is an object the operating system mapped for DMA: its physical
address and the pointer the driver uses. Objects live in one heap per type,
indexed by that pointer; a write through a volatile pointer is `Heap.modify`.
The controller sees 32-bit addresses, offsets into the 4 GiB window that
CTRLDSSEGMENT selects (`getAddrOffset`), and reaches the object at a physical
address through the mapping `Dma`.
-/

namespace EzEhci

open Lib

abbrev Ptr := Nat

/-- `MappedMem<T>`; the type `T` is that of the heap the pointer is used with. -/
structure MappedMem where
  physAddr : BitVec 64
  ptr : Ptr
  deriving DecidableEq, Repr

/-- `CtrlDsSegment`: the upper half of every control data structure's address. -/
structure CtrlDsSegment where
  baseAddrUpper : BitVec 32
  deriving DecidableEq, Repr

def CtrlDsSegment.lower4G : CtrlDsSegment := ⟨0⟩

/-- `get_addr_offset`; panics if the address is outside of the window. -/
def getAddrOffset (physAddr : BitVec 64) (seg : CtrlDsSegment) : Option (BitVec 32) :=
  let upper := (physAddr >>> 32).setWidth 32
  let lower := physAddr.setWidth 32
  if upper ≠ seg.baseAddrUpper then none else some lower

/-- The physical address the controller forms from a 32-bit link. -/
def CtrlDsSegment.addr (seg : CtrlDsSegment) (offset : BitVec 32) : BitVec 64 :=
  seg.baseAddrUpper ++ offset

def CtrlDsSegment.Contains (seg : CtrlDsSegment) (physAddr : BitVec 64) : Prop :=
  (physAddr >>> 32).setWidth 32 = seg.baseAddrUpper

instance (seg : CtrlDsSegment) (a : BitVec 64) : Decidable (seg.Contains a) :=
  inferInstanceAs (Decidable (_ = _))

theorem getAddrOffset_of_contains {seg : CtrlDsSegment} {a : BitVec 64} (h : seg.Contains a) :
    getAddrOffset a seg = some (a.setWidth 32) := by
  unfold CtrlDsSegment.Contains at h
  simp [getAddrOffset, h]

theorem CtrlDsSegment.addr_offset {seg : CtrlDsSegment} {a : BitVec 64} (h : seg.Contains a) :
    seg.addr (a.setWidth 32) = a := by
  unfold CtrlDsSegment.addr
  rw [← h]
  apply BitVec.eq_of_getLsbD_eq
  intro i hi
  rw [BitVec.getLsbD_append]
  by_cases h32 : i < 32
  · simp [h32]
  · simp only [h32, if_false, BitVec.getLsbD_setWidth, BitVec.getLsbD_ushiftRight]
    have h1 : i - 32 < 32 := by omega
    have h2 : 32 + (i - 32) = i := by omega
    simp [h1, h2]

/-! ## Heaps and the DMA mapping -/

/-- The objects of one type in memory, by pointer. -/
abbrev Heap (α : Type) := Ptr → α

/-- A read-modify-write of the object at `p`. -/
def Heap.modify {α : Type} (h : Heap α) (p : Ptr) (f : α → α) : Heap α :=
  Function.update h p (f (h p))

@[simp] theorem Heap.modify_self {α : Type} (h : Heap α) (p : Ptr) (f : α → α) :
    h.modify p f p = f (h p) := by simp [Heap.modify]

theorem Heap.modify_of_ne {α : Type} (h : Heap α) {p q : Ptr} (f : α → α) (hne : q ≠ p) :
    h.modify p f q = h q := by simp [Heap.modify, hne]

theorem Heap.modify_apply {α : Type} (h : Heap α) (p q : Ptr) (f : α → α) :
    h.modify p f q = if q = p then f (h q) else h q := by
  by_cases e : q = p
  · subst e; simp
  · simp [Heap.modify_of_ne h f e, e]

theorem Heap.forall_modify {α : Type} {h : Heap α} {P : Ptr → α → Prop} (hP : ∀ q, P q (h q)) {p : Ptr}
    {f : α → α} (hp : P p (f (h p))) (q : Ptr) : P q (h.modify p f q) := by
  rw [Heap.modify_apply]
  split
  next e => exact e ▸ hp
  next => exact hP q

/-- The operating system's mapping of DMA memory: the pointer to each physical address. -/
structure Dma where
  virt : BitVec 64 → Ptr

def Dma.identity : Dma := ⟨fun a => a.toNat⟩

/-- The object is mapped, 32-byte aligned and inside the window: what every queue head and
transfer descriptor handed to the driver has to be. -/
structure MappedMem.Usable (dma : Dma) (seg : CtrlDsSegment) (m : MappedMem) : Prop where
  virt_eq : dma.virt m.physAddr = m.ptr
  aligned : m.physAddr.toNat % 32 = 0
  window : seg.Contains m.physAddr

instance (dma : Dma) (seg : CtrlDsSegment) (m : MappedMem) : Decidable (m.Usable dma seg) :=
  decidable_of_iff (dma.virt m.physAddr = m.ptr ∧ m.physAddr.toNat % 32 = 0 ∧
      seg.Contains m.physAddr)
    ⟨fun h => ⟨h.1, h.2.1, h.2.2⟩, fun h => ⟨h.virt_eq, h.aligned, h.window⟩⟩

theorem MappedMem.Usable.offset {dma : Dma} {seg : CtrlDsSegment} {m : MappedMem}
    (h : m.Usable dma seg) : getAddrOffset m.physAddr seg = some (m.physAddr.setWidth 32) :=
  getAddrOffset_of_contains h.window

theorem MappedMem.Usable.resolve {dma : Dma} {seg : CtrlDsSegment} {m : MappedMem}
    (h : m.Usable dma seg) : dma.virt (seg.addr (m.physAddr.setWidth 32)) = m.ptr := by
  rw [CtrlDsSegment.addr_offset h.window, h.virt_eq]

theorem shift5_of_aligned {a : BitVec 64} (h : a.toNat % 32 = 0) :
    (a.setWidth 32 >>> 5) <<< 5 = a.setWidth 32 := by
  apply BitVec.eq_of_toNat_eq
  simp only [BitVec.toNat_shiftLeft, BitVec.toNat_ushiftRight, BitVec.toNat_setWidth,
    Nat.shiftLeft_eq, Nat.shiftRight_eq_div_pow]
  omega

end EzEhci
