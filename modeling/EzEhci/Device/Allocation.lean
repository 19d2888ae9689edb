import EzEhci.Lib.Run
import EzEhci.Lib.Trace
import EzEhci.Device.Address
import Mathlib.Order.Bounds.Basic
import Mathlib.Order.Interval.Set.Defs

/-!
# The address allocator as a set

`AllocatorWorld` is an allocator with the record of its calls; an address is
only deallocated if an earlier call returned it. `live` is the set of addresses
in use, read off the record. On this set a call of `allocate_addr` is
`AllocatesLeast`: it takes the least address of 1 to 127 that is not in use,
and fails exactly if there is none.
-/

namespace EzEhci

open Lib

/-! ## The set -/

inductive AllocEvent where
  | allocated (result : Option Nat)
  | deallocated (addr : Nat)
  deriving DecidableEq, Repr

/-- The addresses that were returned and not deallocated since. -/
def live (log : List AllocEvent) : Set Nat :=
  {addr | Since (· = .deallocated addr) log (.allocated (some addr))}

/-- `allocate_addr` on the set of addresses in use. -/
structure AllocatesLeast (used : Set Nat) (result : Option Nat) (used' : Set Nat) : Prop where
  least : ∀ addr, result = some addr → IsLeast (Set.Icc 1 127 \ used) addr ∧ used' = insert addr used
  full : result = none ↔ used = Set.Icc 1 127
  kept : result = none → used' = used

variable {log : List AllocEvent}

theorem live_nil : live [] = ∅ := Set.eq_empty_of_forall_notMem fun _ => since_nil

theorem live_allocated (result : Option Nat) :
    live (log ++ [.allocated result]) = {addr | result = some addr} ∪ live log := by
  ext addr
  simp [live, since_snoc]

theorem live_deallocated (addr : Nat) : live (log ++ [.deallocated addr]) = live log \ {addr} := by
  ext a
  simp [live, since_snoc, eq_comm]

/-! ## The word -/

namespace AddressAllocator

variable {a a' : AddressAllocator}

/-- The word has the bits of a set of addresses, and bit 0. -/
structure Represents (a : AddressAllocator) (used : Set Nat) : Prop where
  bits : ∀ i, a.allocatedAddresses.getLsbD i = true ↔ i = 0 ∨ i ∈ used
  zero : 0 ∉ used

variable {used : Set Nat}

theorem represents_default : default.Represents ∅ where
  bits i := by simp [default]
  zero := Set.notMem_empty 0

namespace Represents

theorem subset (h : a.Represents used) : used ⊆ Set.Icc 1 127 := by
  intro i hi
  have hbit := (h.bits i).mpr (.inr hi)
  have hlt : i < 128 := BitVec.lt_of_getLsbD hbit
  have hpos : i ≠ 0 := fun h0 => h.zero (h0 ▸ hi)
  exact ⟨by omega, by omega⟩

theorem allocateAddr (h : a.Represents used) {addr : BitVec 7}
    (ha : a.allocateAddr = some (a', addr)) :
    IsLeast (Set.Icc 1 127 \ used) addr.toNat ∧ a'.Represents (insert addr.toNat used) := by
  obtain ⟨hfree, hbefore, hbits⟩ := allocateAddr_eq_some ha
  have hunset : ¬ (addr.toNat = 0 ∨ addr.toNat ∈ used) := by
    rw [← h.bits, hfree]
    exact Bool.false_ne_true
  obtain ⟨hne, hunused⟩ := not_or.mp hunset
  have hlt := addr.isLt
  refine ⟨⟨⟨⟨by omega, by omega⟩, hunused⟩, ?_⟩, fun i => ?_, ?_⟩
  · rintro i ⟨⟨hi, -⟩, hi'⟩
    -- a smaller address is taken
    by_contra hless
    rcases (h.bits i).mp (hbefore i (by omega)) with h0 | hused
    · omega
    · exact hi' hused
  · rw [hbits, Bool.or_eq_true, h.bits, decide_eq_true_iff, Set.mem_insert_iff]
    tauto
  · rw [Set.mem_insert_iff]
    exact not_or.mpr ⟨Ne.symm hne, h.zero⟩

theorem full_iff (h : a.Represents used) : a.allocateAddr = none ↔ used = Set.Icc 1 127 := by
  rw [allocateAddr_eq_none]
  constructor
  · intro hall
    refine Set.Subset.antisymm h.subset fun i hi => ?_
    obtain ⟨hpos, hle⟩ := hi
    exact ((h.bits i).mp (hall i (by omega))).resolve_left (by omega)
  · rintro rfl i hi
    rw [h.bits, Set.mem_Icc]
    omega

theorem deallocateAddr (h : a.Represents used) {addr : BitVec 7} (haddr : addr.toNat ≠ 0) :
    (a.deallocateAddr addr).Represents (used \ {addr.toNat}) where
  zero h0 := h.zero h0.1
  bits i := by
    have hbit : (a.deallocateAddr addr).allocatedAddresses.getLsbD i =
        (a.allocatedAddresses.getLsbD i && decide (i ≠ addr.toNat)) := by
      unfold AddressAllocator.deallocateAddr
      rw [BitVec.getLsbD_and, BitVec.getLsbD_not, getLsbD_mask addr.isLt, decide_not]
      by_cases hi : i < 128
      · rw [decide_eq_true hi, Bool.true_and]
      · rw [BitVec.getLsbD_of_ge _ i (by omega), Bool.false_and, Bool.false_and]
    rw [hbit, Bool.and_eq_true, h.bits, decide_eq_true_iff, Set.mem_sdiff, Set.mem_singleton_iff]
    constructor
    · rintro ⟨h0 | hi, hia⟩
      · exact .inl h0
      · exact .inr ⟨hi, hia⟩
    · rintro (rfl | ⟨hi, hia⟩)
      · exact ⟨.inl rfl, haddr.symm⟩
      · exact ⟨.inr hi, hia⟩

end Represents

end AddressAllocator

/-! ## Calls -/

/-- An allocator and the record of its calls. -/
structure AllocatorWorld where
  allocator : AddressAllocator
  log : List AllocEvent
  deriving DecidableEq, Repr

inductive AllocCall where
  | allocateAddr
  | deallocateAddr (addr : BitVec 7)
  deriving DecidableEq, Repr

namespace AllocatorWorld

def new : AllocatorWorld := ⟨.default, []⟩

def used (s : AllocatorWorld) : Set Nat := live s.log

/-- One call; only an address that an earlier call returned is deallocated. -/
def step (s : AllocatorWorld) : AllocCall → Option AllocatorWorld
  | .allocateAddr =>
    match s.allocator.allocateAddr with
    | some (allocator, addr) => some ⟨allocator, s.log ++ [.allocated (some addr.toNat)]⟩
    | none => some { s with log := s.log ++ [.allocated none] }
  | .deallocateAddr addr =>
    if .allocated (some addr.toNat) ∈ s.log then
      some ⟨s.allocator.deallocateAddr addr, s.log ++ [.deallocated addr.toNat]⟩
    else none

/-- The word represents the addresses in use, and no call returned address 0. -/
structure Inv (s : AllocatorWorld) : Prop where
  represents : s.allocator.Represents s.used
  returned : .allocated (some 0) ∉ s.log

variable {s s' : AllocatorWorld}

theorem Inv.allocateAddr (h : Inv s) :
    ∃ s' result, s.step .allocateAddr = some s' ∧ Inv s' ∧ s'.log = s.log ++ [.allocated result] ∧
      AllocatesLeast s.used result s'.used ∧ (result = none → s'.allocator = s.allocator) := by
  cases ha : s.allocator.allocateAddr with
  | some r =>
    obtain ⟨allocator, addr⟩ := r
    obtain ⟨hleast, hrep⟩ := h.represents.allocateAddr ha
    have hused : live (s.log ++ [.allocated (some addr.toNat)]) = insert addr.toNat s.used := by
      rw [live_allocated]
      ext i
      simp [used, eq_comm]
    have hpos := hleast.1.1.1
    refine ⟨⟨allocator, s.log ++ [.allocated (some addr.toNat)]⟩, some addr.toNat, ?_,
      ⟨by rw [used, hused]; exact hrep, ?_⟩, rfl, ⟨?_, ?_, nofun⟩, nofun⟩
    · simp only [step, ha]
    · rw [List.mem_append, List.mem_singleton]
      rintro (h0 | h0)
      · exact h.returned h0
      · simp only [AllocEvent.allocated.injEq, Option.some.injEq] at h0
        omega
    · rintro i ⟨⟩
      exact ⟨hleast, hused⟩
    · refine ⟨nofun, fun hfull => ?_⟩
      exact absurd (hfull ▸ hleast.1.1) hleast.1.2
  | none =>
    have hused : live (s.log ++ [.allocated none]) = s.used := by
      rw [live_allocated]
      ext i
      simp [used]
    refine ⟨{ s with log := s.log ++ [.allocated none] }, none, ?_,
      ⟨by rw [used, hused]; exact h.represents, ?_⟩, rfl, ⟨nofun, ?_, fun _ => hused⟩, fun _ => rfl⟩
    · simp only [step, ha]
    · simpa using h.returned
    · exact iff_of_true rfl (h.represents.full_iff.mp ha)

theorem Inv.deallocateAddr (h : Inv s) {addr : BitVec 7}
    (hreturned : .allocated (some addr.toNat) ∈ s.log) :
    ∃ s', s.step (.deallocateAddr addr) = some s' ∧ Inv s' ∧
      s'.log = s.log ++ [.deallocated addr.toNat] ∧ s'.used = s.used \ {addr.toNat} := by
  have hne : addr.toNat ≠ 0 := fun h0 => h.returned (h0 ▸ hreturned)
  have hused : live (s.log ++ [.deallocated addr.toNat]) = s.used \ {addr.toNat} := live_deallocated _
  refine ⟨⟨s.allocator.deallocateAddr addr, s.log ++ [AllocEvent.deallocated addr.toNat]⟩, ?_,
    ⟨by rw [used, hused]; exact h.represents.deallocateAddr hne, ?_⟩, rfl, hused⟩
  · simp only [step, if_pos hreturned]
  · simpa using h.returned

theorem inv_of_exec {tr : List AllocCall} (h : exec step new tr = some s) : Inv s := by
  have h0 : Inv new := ⟨by rw [used, new, live_nil]; exact AddressAllocator.represents_default, by simp [new]⟩
  refine exec_invariant h0 (fun s a s' hi hs => ?_) h
  cases a with
  | allocateAddr =>
    obtain ⟨m, result, hm, hinv, -⟩ := hi.allocateAddr
    rw [hm] at hs
    cases hs
    exact hinv
  | deallocateAddr addr =>
    obtain ⟨hreturned, -⟩ := Option.ite_none_right_eq_some.mp hs
    obtain ⟨m, hm, hinv, -⟩ := hi.deallocateAddr hreturned
    rw [hm] at hs
    cases hs
    exact hinv

end AllocatorWorld

/-- **The allocator refines a set**: after any calls, bit `i` of the word is set exactly if `i` is 0 or in
use; `allocate_addr` takes the least address of 1 to 127 that is not in use, and fails, leaving the word as
it is, exactly if there is none; `deallocate_addr` removes exactly its address. -/
theorem refinesSet_of_exec {s : AllocatorWorld} {tr : List AllocCall}
    (h : exec AllocatorWorld.step .new tr = some s) :
    (∀ i, s.allocator.allocatedAddresses.getLsbD i = true ↔ i = 0 ∨ i ∈ s.used) ∧
    (∃ s' result, s.step .allocateAddr = some s' ∧ s'.log = s.log ++ [.allocated result] ∧
      AllocatesLeast s.used result s'.used ∧ (result = none → s'.allocator = s.allocator)) ∧
    ∀ addr : BitVec 7, .allocated (some addr.toNat) ∈ s.log →
      ∃ s', s.step (.deallocateAddr addr) = some s' ∧
        s'.log = s.log ++ [.deallocated addr.toNat] ∧ s'.used = s.used \ {addr.toNat} := by
  have hinv := AllocatorWorld.inv_of_exec h
  refine ⟨hinv.represents.bits, ?_, fun addr hreturned => ?_⟩
  · obtain ⟨s', result, hs, -, hlog, hleast⟩ := hinv.allocateAddr
    exact ⟨s', result, hs, hlog, hleast⟩
  · obtain ⟨s', hs, -, hlog, hused⟩ := hinv.deallocateAddr hreturned
    exact ⟨s', hs, hlog, hused⟩

/-- Two addresses, the first of them given back twice: the next call returns it again. -/
theorem refinesSet_of_exec_again :
    ∃ s, exec AllocatorWorld.step .new [.allocateAddr, .allocateAddr, .deallocateAddr 1,
        .deallocateAddr 1] = some s ∧
      s.step .allocateAddr = some ⟨⟨7⟩, s.log ++ [.allocated (some 1)]⟩ ∧
      IsLeast (Set.Icc 1 127 \ s.used) 1 := by
  obtain ⟨s, hs, hstep⟩ := exec_witness AllocatorWorld.step .new
    [.allocateAddr, .allocateAddr, .deallocateAddr 1, .deallocateAddr 1]
    (fun s => s.step .allocateAddr = some ⟨⟨7⟩, s.log ++ [.allocated (some 1)]⟩) (by decide +kernel)
  obtain ⟨-, ⟨s', result, hs', hlog, hleast, -⟩, -⟩ := refinesSet_of_exec hs
  rw [hstep] at hs'
  cases hs'
  have hresult : result = some 1 := by simpa using hlog.symm
  exact ⟨s, hs, hstep, (hleast.least 1 hresult).1⟩

end EzEhci
