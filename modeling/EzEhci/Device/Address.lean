import Mathlib.Data.Finset.Card
import Mathlib.Data.Finset.Range
import Mathlib.Data.List.Basic

/-!
# Device addresses

`AddressAllocator` hands out the addresses 1 to 127; bit `i` of its word says
that address `i` is taken, and bit 0 always is.
-/

namespace EzEhci

structure AddressAllocator where
  allocatedAddresses : BitVec 128
  deriving DecidableEq, Repr

def trailingOnes (x : BitVec 128) : Nat :=
  ((List.range 128).find? fun i => !x.getLsbD i).getD 128

namespace AddressAllocator

def default : AddressAllocator := ⟨1⟩

def allocateAddr (a : AddressAllocator) : Option (AddressAllocator × BitVec 7) :=
  let addr := trailingOnes a.allocatedAddresses
  if addr ≤ 127 then
    some (⟨a.allocatedAddresses ||| ((1 : BitVec 128) <<< addr)⟩, BitVec.ofNat 7 addr)
  else none

def deallocateAddr (a : AddressAllocator) (addr : BitVec 7) : AddressAllocator :=
  ⟨a.allocatedAddresses &&& ~~~((1 : BitVec 128) <<< addr.toNat)⟩

/-! ## The addresses taken -/

def allocated (a : AddressAllocator) : Finset Nat :=
  (Finset.range 128).filter fun i => 0 < i ∧ a.allocatedAddresses.getLsbD i = true

/-- Address 0 is never handed out. -/
def ZeroTaken (a : AddressAllocator) : Prop := a.allocatedAddresses.getLsbD 0 = true

instance (a : AddressAllocator) : Decidable a.ZeroTaken := inferInstanceAs (Decidable (_ = _))

variable {a a' : AddressAllocator} {addr : BitVec 7}

theorem mem_allocated {i : Nat} :
    i ∈ a.allocated ↔ i < 128 ∧ 0 < i ∧ a.allocatedAddresses.getLsbD i = true := by
  simp [allocated]

theorem trailingOnes_spec (x : BitVec 128) :
    (∀ i < trailingOnes x, x.getLsbD i = true) ∧
      (trailingOnes x < 128 ∧ x.getLsbD (trailingOnes x) = false ∨ trailingOnes x = 128) := by
  unfold trailingOnes
  cases hfind : (List.range 128).find? fun i => !x.getLsbD i with
  | none =>
    rw [List.find?_range_eq_none] at hfind
    exact ⟨fun i hi => by simpa using hfind i hi, .inr rfl⟩
  | some n =>
    obtain ⟨hn, hlt, hbefore⟩ := List.find?_range_eq_some.mp hfind
    refine ⟨fun i hi => by simpa using hbefore i hi, .inl ⟨List.mem_range.mp hlt, ?_⟩⟩
    simpa using hn

theorem getLsbD_mask {n : Nat} (hn : n < 128) (i : Nat) :
    ((1 : BitVec 128) <<< n).getLsbD i = decide (i = n) := by
  by_cases hi : i = n
  · subst hi
    simp [hn]
  · rw [decide_eq_false hi, BitVec.getLsbD_shiftLeft]
    simp
    omega

theorem allocateAddr_eq_some (h : a.allocateAddr = some (a', addr)) :
    a.allocatedAddresses.getLsbD addr.toNat = false ∧
      (∀ i < addr.toNat, a.allocatedAddresses.getLsbD i = true) ∧
      ∀ i, a'.allocatedAddresses.getLsbD i =
        (a.allocatedAddresses.getLsbD i || decide (i = addr.toNat)) := by
  obtain ⟨hle, h⟩ := Option.ite_none_right_eq_some.mp h
  cases h
  obtain ⟨hbefore, hfree⟩ := trailingOnes_spec a.allocatedAddresses
  generalize trailingOnes a.allocatedAddresses = n at *
  have hlt : n < 128 := by omega
  have hn : (BitVec.ofNat 7 n).toNat = n := by
    rw [BitVec.toNat_ofNat]
    omega
  rw [hn]
  refine ⟨(hfree.resolve_right (by omega)).2, hbefore, fun i => ?_⟩
  rw [BitVec.getLsbD_or, getLsbD_mask hlt]

theorem allocateAddr_eq_none :
    a.allocateAddr = none ↔ ∀ i < 128, a.allocatedAddresses.getLsbD i = true := by
  obtain ⟨hbefore, hfree⟩ := trailingOnes_spec a.allocatedAddresses
  have hnone : a.allocateAddr = none ↔ 127 < trailingOnes a.allocatedAddresses := by
    simp [allocateAddr]
  rw [hnone]
  constructor
  · intro hlt i hi
    exact hbefore i (by omega)
  · intro hall
    rcases hfree with ⟨hlt, hfree⟩ | hend
    · rw [hall _ hlt] at hfree
      cases hfree
    · omega

theorem card_allocated_of_allocateAddr (h : a.allocateAddr = some (a', addr)) (h0 : a.ZeroTaken) :
    a'.ZeroTaken ∧ a'.allocated.card = a.allocated.card + 1 := by
  obtain ⟨hfree, -, hbits⟩ := allocateAddr_eq_some h
  have hn := addr.isLt
  generalize addr.toNat = n at *
  have hpos : 0 < n := by
    refine Nat.pos_of_ne_zero fun hzero => ?_
    rw [hzero, h0] at hfree
    cases hfree
  refine ⟨by rw [ZeroTaken, hbits, h0, Bool.true_or], ?_⟩
  have hinsert : a'.allocated = insert n a.allocated := by
    ext i
    rw [Finset.mem_insert, mem_allocated, mem_allocated, hbits]
    constructor
    · rintro ⟨hi, hi0, hb⟩
      rcases Bool.or_eq_true _ _ ▸ hb with hb | hb
      · exact .inr ⟨hi, hi0, hb⟩
      · exact .inl (of_decide_eq_true hb)
    · rintro (rfl | ⟨hi, hi0, hb⟩)
      · exact ⟨hn, hpos, by simp⟩
      · exact ⟨hi, hi0, by rw [hb, Bool.true_or]⟩
  rw [hinsert, Finset.card_insert_of_notMem]
  intro hmem
  rw [(mem_allocated.mp hmem).2.2] at hfree
  cases hfree

theorem allocateAddr_eq_none_iff (h0 : a.ZeroTaken) :
    a.allocateAddr = none ↔ 127 ≤ a.allocated.card := by
  have hsub : a.allocated ⊆ (Finset.range 128).erase 0 := by
    intro i hi
    obtain ⟨hi, hpos, -⟩ := mem_allocated.mp hi
    exact Finset.mem_erase.mpr ⟨Nat.ne_of_gt hpos, Finset.mem_range.mpr hi⟩
  have hcard : ((Finset.range 128).erase 0).card = 127 := by
    rw [Finset.card_erase_of_mem (Finset.mem_range.mpr (by decide)), Finset.card_range]
  constructor
  · intro hnone
    have hall := allocateAddr_eq_none.mp hnone
    rw [← hcard]
    refine Finset.card_le_card fun i hi => ?_
    obtain ⟨hne, hi⟩ := Finset.mem_erase.mp hi
    have hlt := Finset.mem_range.mp hi
    exact mem_allocated.mpr ⟨hlt, Nat.pos_of_ne_zero hne, hall i hlt⟩
  · intro hge
    have heq := Finset.eq_of_subset_of_card_le hsub (hcard ▸ hge)
    refine allocateAddr_eq_none.mpr fun i hi => ?_
    rcases Nat.eq_zero_or_pos i with rfl | hpos
    · exact h0
    · have hmem : i ∈ a.allocated :=
        heq ▸ Finset.mem_erase.mpr ⟨Nat.ne_of_gt hpos, Finset.mem_range.mpr hi⟩
      exact (mem_allocated.mp hmem).2.2

end AddressAllocator

end EzEhci
