import Mathlib.Algebra.Group.Nat.Defs

/-!
# Machine words: bit fields and checked arithmetic

A register or descriptor word is a raw `BitVec w`; its fields are bit ranges.
`field lo len` reads the range `lo … lo + len - 1`, `setField lo v` replaces
it and leaves the other bits alone. A one-bit flag is read by `bit` and
replaced by `setBit`. The lemmas say what a field reads after another one was
written.

`addU`, `subU` and `mulU` are the arithmetic of unsigned machine integers in a
build that either checks overflow (`none` is the panic) or wraps.
-/

namespace EzEhci.Lib

abbrev Byte := BitVec 8

variable {w : Nat}

/-- The bits `lo … lo + len - 1` of a word. -/
def field (lo len : Nat) (x : BitVec w) : BitVec len := x.extractLsb' lo len

/-- The word with the bits from `lo` on replaced by `v`. -/
def setField {len : Nat} (lo : Nat) (v : BitVec len) (x : BitVec w) : BitVec w :=
  (x &&& ~~~((BitVec.allOnes len).setWidth w <<< lo)) ||| (v.setWidth w <<< lo)

/-- Bit `i` as a flag. -/
def bit (i : Nat) (x : BitVec w) : Bool := x.getLsbD i

/-- The word with bit `i` replaced by the flag `b`. -/
def setBit (i : Nat) (b : Bool) (x : BitVec w) : BitVec w := setField i (BitVec.ofBool b) x

theorem getLsbD_setField {len : Nat} (lo i : Nat) (v : BitVec len) (x : BitVec w) :
    (setField lo v x).getLsbD i =
      if lo ≤ i ∧ i < lo + len then decide (i < w) && v.getLsbD (i - lo) else x.getLsbD i := by
  unfold setField
  simp only [BitVec.getLsbD_or, BitVec.getLsbD_and, BitVec.getLsbD_not, BitVec.getLsbD_shiftLeft,
    BitVec.getLsbD_setWidth, BitVec.getLsbD_allOnes]
  by_cases hw : i < w
  · by_cases h1 : lo ≤ i
    · by_cases h2 : i < lo + len
      · have h3 : i - lo < len := by omega
        have h4 : ¬ i < lo := by omega
        have h5 : i - lo < w := by omega
        simp [hw, h1, h2, h3, h4, h5]
      · have h3 : ¬ i - lo < len := by omega
        have hv : v.getLsbD (i - lo) = false := BitVec.getLsbD_of_ge _ _ (by omega)
        simp [hw, h1, h2, h3, hv]
    · have h4 : i < lo := by omega
      simp [hw, h1, h4]
  · have hx : x.getLsbD i = false := BitVec.getLsbD_of_ge _ _ (by omega)
    simp [hw, hx]

theorem getLsbD_field (lo len i : Nat) (x : BitVec w) :
    (field lo len x).getLsbD i = (decide (i < len) && x.getLsbD (lo + i)) := by
  simp [field, BitVec.getLsbD_extractLsb']

@[simp] theorem field_setField {len : Nat} (lo : Nat) (v : BitVec len) (x : BitVec w)
    (h : lo + len ≤ w) : field lo len (setField lo v x) = v := by
  apply BitVec.eq_of_getLsbD_eq
  intro i hi
  rw [getLsbD_field, getLsbD_setField]
  have h1 : lo ≤ lo + i ∧ lo + i < lo + len := by omega
  have h2 : lo + i < w := by omega
  simp [hi, h1, h2]

theorem field_setField_of_disjoint {len : Nat} (lo lo' len' : Nat) (v : BitVec len) (x : BitVec w)
    (h : lo' + len' ≤ lo ∨ lo + len ≤ lo') :
    field lo' len' (setField lo v x) = field lo' len' x := by
  apply BitVec.eq_of_getLsbD_eq
  intro i hi
  rw [getLsbD_field, getLsbD_field, getLsbD_setField]
  have h1 : ¬ (lo ≤ lo' + i ∧ lo' + i < lo + len) := by omega
  rw [if_neg h1]

theorem bit_setField_of_disjoint {len : Nat} (lo i : Nat) (v : BitVec len) (x : BitVec w)
    (h : i < lo ∨ lo + len ≤ i) : bit i (setField lo v x) = bit i x := by
  unfold bit
  rw [getLsbD_setField, if_neg (by omega)]

theorem bit_setBit (i j : Nat) (b : Bool) (x : BitVec w) (h : i < w) :
    bit j (setBit i b x) = if j = i then b else bit j x := by
  unfold bit setBit
  rw [getLsbD_setField]
  by_cases hj : j = i
  · subst hj
    simp [h]
  · rw [if_neg (by omega), if_neg hj]

@[simp] theorem bit_zero (i : Nat) : bit i (0#w) = false := by
  simp [bit]

/-! ## Checked arithmetic -/

/-- Whether the build checks integer overflow: checked operations panic, the others wrap. -/
inductive OverflowChecks where
  | on
  | off
  deriving DecidableEq, Repr

def addU (oc : OverflowChecks) (a b : BitVec w) : Option (BitVec w) :=
  if oc = .on ∧ 2 ^ w ≤ a.toNat + b.toNat then none else some (a + b)

def subU (oc : OverflowChecks) (a b : BitVec w) : Option (BitVec w) :=
  if oc = .on ∧ a.toNat < b.toNat then none else some (a - b)

def mulU (oc : OverflowChecks) (a b : BitVec w) : Option (BitVec w) :=
  if oc = .on ∧ 2 ^ w ≤ a.toNat * b.toNat then none else some (a * b)

theorem addU_eq_some {oc : OverflowChecks} {a b c : BitVec w} (h : addU oc a b = some c) :
    c = a + b := by
  unfold addU at h
  split at h
  · cases h
  · exact (Option.some.inj h).symm

theorem mulU_eq_some {oc : OverflowChecks} {a b c : BitVec w} (h : mulU oc a b = some c) :
    c = a * b := by
  unfold mulU at h
  split at h
  · cases h
  · exact (Option.some.inj h).symm

end EzEhci.Lib
