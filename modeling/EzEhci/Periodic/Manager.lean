import EzEhci.Hw.QueueHead
import Mathlib.Data.List.FinRange

/-!
# The periodic list manager

`NormalizedInterval`, the 1024-slot periodic frame list and
`PeriodicListManager::add_qh`. The queue heads live in a heap of `QhWithMetaP`;
`addQh` performs the driver's reads and writes in source order and is `none`
where the driver panics.
-/

namespace EzEhci

open Lib

/-! ## Intervals -/

/-- `NormalizedInterval`: a power of two of micro-frames, `0` for 125 µs up to `13` for 1024 ms. -/
structure NormalizedInterval where
  microFramesPower : BitVec 4
  valid : microFramesPower.toNat ≤ 13
  deriving DecidableEq

namespace NormalizedInterval

/-- `NormalizedInterval::from_micro_frames_interval`; `ilog2` panics on `0`. -/
def fromMicroFramesInterval (n : BitVec 16) : Option NormalizedInterval :=
  if h : 1024 * 8 ≤ n.toNat then some ⟨13, by decide⟩
  else if h0 : n.toNat = 0 then none
  else some ⟨BitVec.ofNat 4 n.toNat.log2, by
    have h1 : n.toNat.log2 < 13 := (Nat.log2_lt h0).mpr (by omega)
    rw [BitVec.toNat_ofNat]
    omega⟩

theorem fromMicroFramesInterval_two_pow {e : Nat} (he : e < 16) :
    ∃ iv, fromMicroFramesInterval (BitVec.ofNat 16 (2 ^ e)) = some iv ∧
      iv.microFramesPower.toNat = min e 13 := by
  have hn : (BitVec.ofNat 16 (2 ^ e)).toNat = 2 ^ e := by
    rw [BitVec.toNat_ofNat]
    exact Nat.mod_eq_of_lt (Nat.pow_lt_pow_right (by decide) he)
  have hpos := Nat.two_pow_pos e
  unfold fromMicroFramesInterval
  split
  next hbig =>
    rw [hn] at hbig
    have h13 : 13 ≤ e := (Nat.pow_le_pow_iff_right (by decide : 1 < 2)).mp hbig
    exact ⟨_, rfl, by rw [Nat.min_eq_right h13]; rfl⟩
  next hsmall =>
    rw [hn] at hsmall
    have h13 : e < 13 := (Nat.pow_lt_pow_iff_right (by decide : 1 < 2)).mp (Nat.lt_of_not_le hsmall)
    rw [dif_neg (by omega)]
    refine ⟨_, rfl, ?_⟩
    simp only [hn, Nat.log2_two_pow, BitVec.toNat_ofNat]
    omega

/-- `frames_power`: `0` (one frame) for every interval below a frame. -/
def framesPower (iv : NormalizedInterval) : Nat := iv.microFramesPower.toNat - 3

/-- `frames`: a power of two between 1 and 1024. -/
def frames (iv : NormalizedInterval) : Nat := 2 ^ iv.framesPower

theorem framesPower_lt (iv : NormalizedInterval) : iv.framesPower < 11 := by
  have := iv.valid
  unfold framesPower
  omega

theorem frames_pos (iv : NormalizedInterval) : 0 < iv.frames := Nat.two_pow_pos _

/-- The index of the interval in the manager's table. -/
def index (iv : NormalizedInterval) : Fin 11 := ⟨iv.framesPower, iv.framesPower_lt⟩

end NormalizedInterval

/-! ## The frame list -/

structure PeriodicFrameListElement where
  raw : BitVec 32
  deriving DecidableEq, Repr

namespace PeriodicFrameListElement

def t (e : PeriodicFrameListElement) : Bool := bit 0 e.raw
def addrUpperBits (e : PeriodicFrameListElement) : BitVec 27 := field 5 27 e.raw

/-- `PeriodicFrameListElement::NONE`. -/
def terminated : PeriodicFrameListElement :=
  ⟨setField 5 (0 : BitVec 27) (setField 3 (0 : BitVec 2) (setField 1 (0 : BitVec 2)
    (setBit 0 true 0)))⟩

def new (typ : SelectType) (addr : BitVec 32) : PeriodicFrameListElement :=
  ⟨setField 5 ((addr >>> 5).setWidth 27) (setField 3 (0 : BitVec 2) (setField 1 typ.toU2
    (setBit 0 false 0)))⟩

/-- The address the controller starts the frame's walk at, unless the slot is terminated. -/
def ptr (e : PeriodicFrameListElement) : Option (BitVec 32) :=
  if e.t then none else some (e.addrUpperBits.setWidth 32 <<< 5)

@[simp] theorem ptr_terminated : terminated.ptr = none := by
  simp [terminated, ptr, t, bit_setField_of_disjoint, bit_setBit]

theorem ptr_new (typ : SelectType) (a : BitVec 32) : (new typ a).ptr = some ((a >>> 5) <<< 5) := by
  simp [new, ptr, t, addrUpperBits, bit_setField_of_disjoint, bit_setBit, upper27_shift]

end PeriodicFrameListElement

abbrev PeriodicFrameList := Fin 1024 → PeriodicFrameListElement

def PeriodicFrameList.empty : PeriodicFrameList := fun _ => .terminated

/-- The slot-writing loops of `add_qh`: from index `i` in steps of `step`, write `el` into every
slot whose index passes the test. -/
def writeSlots (test : Nat → Bool) (el : PeriodicFrameListElement) {step : Nat} (hstep : 0 < step)
    (list : PeriodicFrameList) (i : Nat) : PeriodicFrameList :=
  if h : i < 1024 then
    writeSlots test el hstep (if test i then Function.update list ⟨i, h⟩ el else list) (i + step)
  else list
termination_by 1024 - i

/-! ## The manager -/

structure QhWithMetaP where
  qh : Qh
  /-- `none` at the first QH of the list. -/
  prev : Option Ptr
  /-- `none` at the last QH of the list. -/
  next : Option Ptr
  interval : NormalizedInterval
  deriving DecidableEq

structure PeriodicListManager where
  list : PeriodicFrameList
  /-- For each interval power, the last QH with that interval. -/
  qhs : Fin 11 → Option MappedMem
  firstQh : Option MappedMem
  ctrlDsSegment : CtrlDsSegment

def PeriodicListManager.new (list : PeriodicFrameList) (seg : CtrlDsSegment) :
    PeriodicListManager := ⟨list, fun _ => none, none, seg⟩

/-- The manager together with the queue heads in memory. -/
structure PeriodicState where
  heap : Heap QhWithMetaP
  mgr : PeriodicListManager

namespace PeriodicListManager

def sMask (iv : NormalizedInterval) : BitVec 8 :=
  match iv.microFramesPower.toNat with
  | 0 => 0b11111111
  | 1 => 0b01010101
  | 2 => 0b00010001
  | _ => 0b00000001

/-- The writes to the new QH before it is linked. -/
def prepareQh (heap : Heap QhWithMetaP) (qh : MappedMem) (iv : NormalizedInterval) :
    Heap QhWithMetaP :=
  let heap := heap.modify qh.ptr fun q =>
    { q with qh := { q.qh with
      endpointCapabilities := q.qh.endpointCapabilities.withSplitCompletionMask (sMask iv) } }
  heap.modify qh.ptr fun q => { q with interval := iv }

/-- Replace the horizontal link of the QH at `p`. -/
def setLink (heap : Heap QhWithMetaP) (p : Ptr) (l : QhHorizontalLinkPtr) : Heap QhWithMetaP :=
  heap.modify p fun q => { q with qh := { q.qh with horizontalLinkPtr := l } }

/-- Replace the `next` metadata of the QH at `p`. -/
def setNext (heap : Heap QhWithMetaP) (p : Ptr) (n : Option Ptr) : Heap QhWithMetaP :=
  heap.modify p fun q => { q with next := n }

/-- Replace the `prev` metadata of the QH at `p`. -/
def setPrev (heap : Heap QhWithMetaP) (p : Ptr) (b : Option Ptr) : Heap QhWithMetaP :=
  heap.modify p fun q => { q with prev := b }

/-- The writes that link the new QH, with link address `offset`, right behind `existing`. -/
def linkBehind (heap : Heap QhWithMetaP) (qh existing : MappedMem) (offset : BitVec 32) :
    Heap QhWithMetaP :=
  let nextPhys := (heap existing.ptr).qh.horizontalLinkPtr
  let heap := setLink heap qh.ptr nextPhys
  let heap := setLink heap existing.ptr (.new .qh offset)
  let heap := setNext heap qh.ptr (heap existing.ptr).next
  let heap := setPrev heap qh.ptr (some existing.ptr)
  let heap := match (heap qh.ptr).next with
    | some n => setPrev heap n (some qh.ptr)
    | none => heap
  setNext heap existing.ptr (some qh.ptr)

/-- There is a QH with the same interval: insert right after it. -/
def insertAfterExisting (s : PeriodicState) (qh : MappedMem) (iv : NormalizedInterval)
    (existing : MappedMem) : Option PeriodicState := do
  let offset ← getAddrOffset qh.physAddr s.mgr.ctrlDsSegment
  some ⟨linkBehind s.heap qh existing offset,
    { s.mgr with qhs := Function.update s.mgr.qhs iv.index (some qh) }⟩

/-- `prev_qh_power`: the first occupied entry of the table below the new QH's index. -/
def prevQhPower (mgr : PeriodicListManager) (iv : NormalizedInterval) : Option (Fin 11 × MappedMem) :=
  ((List.finRange 11).take iv.index).findSome? fun i => (mgr.qhs i).map fun qh => (i, qh)

/-- `next_qh`: the address and pointer of the QH that follows the new one. The inner `none` means
there is none, the outer one is a panic. -/
def nextQh (s : PeriodicState) : Option (Fin 11 × MappedMem) → Option (Option (BitVec 32 × Ptr))
  | some (_, prevQh) =>
    match (s.heap prevQh.ptr).qh.horizontalLinkPtr.ptr with
    | some a => (s.heap prevQh.ptr).next.map fun n => some (a, n)
    | none => some none
  | none =>
    match s.mgr.firstQh with
    | some mem => (getAddrOffset mem.physAddr s.mgr.ctrlDsSegment).map fun a => some (a, mem.ptr)
    | none => some none

def linkToNext (heap : Heap QhWithMetaP) (qh : MappedMem) : Option (BitVec 32 × Ptr) → Heap QhWithMetaP
  | some (nextAddr, next) =>
    let heap := setLink heap qh.ptr (.new .qh nextAddr)
    let heap := setNext heap qh.ptr (some next)
    setPrev heap next (some qh.ptr)
  | none =>
    let heap := setLink heap qh.ptr .invalid
    setNext heap qh.ptr none

/-- No QH has this interval yet: link the new QH between `prev_qh` and `next_qh` and write the
frame list slots. -/
def insertNewInterval (s : PeriodicState) (qh : MappedMem) (iv : NormalizedInterval) :
    Option PeriodicState := do
  let prev := prevQhPower s.mgr iv
  let next ← nextQh s prev
  let heap := linkToNext s.heap qh next
  let offset ← getAddrOffset qh.physAddr s.mgr.ctrlDsSegment
  let elementToQh := PeriodicFrameListElement.new .qh offset
  let qhs := Function.update s.mgr.qhs iv.index (some qh)
  match prev with
  | some (prevPower, prevQh) =>
    let heap := setLink heap prevQh.ptr (.new .qh offset)
    let heap := setNext heap prevQh.ptr (some qh.ptr)
    let heap := setPrev heap qh.ptr (some prevQh.ptr)
    let list := writeSlots (fun i => i &&& (1 <<< prevPower.val) == 0) elementToQh iv.frames_pos
      s.mgr.list iv.frames
    some ⟨heap, { s.mgr with list := list, qhs := qhs }⟩
  | none =>
    let heap := setPrev heap qh.ptr none
    let list := writeSlots (fun _ => true) elementToQh iv.frames_pos s.mgr.list 0
    some ⟨heap, { s.mgr with list := list, qhs := qhs, firstQh := some qh }⟩

def addQh (s : PeriodicState) (qh : MappedMem) (iv : NormalizedInterval) : Option PeriodicState :=
  let s := { s with heap := prepareQh s.heap qh iv }
  match s.mgr.qhs iv.index with
  | some existing => insertAfterExisting s qh iv existing
  | none => insertNewInterval s qh iv

end PeriodicListManager

end EzEhci
