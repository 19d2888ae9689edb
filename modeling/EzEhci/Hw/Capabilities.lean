import EzEhci.Lib.Bits
import EzEhci.Lib.Chain
import EzEhci.Lib.Iterate

/-!
# Extended capabilities

`new_ehci` follows the list of extended capabilities in the PCI configuration
space twice: a first loop logs every entry, a second one looks for USBLEGSUP.
`ExtendedCapabilitiesIterator::next` reads the register at the current pointer
and goes on to the pointer found there, whatever it is; pointer 0 ends the
list. The loops are `iterate`, and `newEhci n` is `none` if one of them is not
left within `n` iterations.
-/

namespace EzEhci

open Lib

/-- `NonZero<u8>`. -/
abbrev NonZeroU8 := { v : Byte // v ≠ 0 }

def NonZeroU8.new (v : Byte) : Option NonZeroU8 := if h : v ≠ 0 then some ⟨v, h⟩ else none

/-- There are 255 of them. -/
def NonZeroU8.code : NonZeroU8 ↪ Fin 255 where
  toFun v := ⟨v.1.toNat - 1, by have := v.1.isLt; omega⟩
  inj' v v' h := by
    have hv : v.1.toNat ≠ 0 := fun h0 => v.2 (BitVec.eq_of_toNat_eq h0)
    have hv' : v'.1.toNat ≠ 0 := fun h0 => v'.2 (BitVec.eq_of_toNat_eq h0)
    have heq := Fin.mk.inj h
    exact Subtype.ext (BitVec.eq_of_toNat_eq (by omega))

structure HccParams where
  raw : BitVec 32
  deriving DecidableEq, Repr

def HccParams.eecp (r : HccParams) : Byte := field 8 8 r.raw

structure ExtendedCapabilityPointerReg where
  raw : BitVec 32
  deriving DecidableEq, Repr

def ExtendedCapabilityPointerReg.capabilityId (r : ExtendedCapabilityPointerReg) : Byte := field 0 8 r.raw

def ExtendedCapabilityPointerReg.nextCapPointer (r : ExtendedCapabilityPointerReg) : Byte :=
  field 8 8 r.raw

inductive ExtendedCapability where
  | usbLegSup
  deriving DecidableEq, Repr

/-- `ExtendedCapability as u8`. -/
def ExtendedCapability.toU8 : ExtendedCapability → Byte
  | .usbLegSup => 0x1

structure CapabilityInfo where
  offset : NonZeroU8
  id : Byte
  deriving DecidableEq, Repr

abbrev ReadU32 := Byte → BitVec 32

structure ExtendedCapabilitiesIterator where
  readU32 : ReadU32
  capabilityPointer : Option NonZeroU8

namespace ExtendedCapabilitiesIterator

def new (readU32 : ReadU32) (hccParams : HccParams) : ExtendedCapabilitiesIterator :=
  ⟨readU32, NonZeroU8.new hccParams.eecp⟩

/-- `ExtendedCapabilitiesIterator::next`: the entry at the pointer, and the iterator behind it. -/
def next (it : ExtendedCapabilitiesIterator) : Option (CapabilityInfo × ExtendedCapabilitiesIterator) :=
  it.capabilityPointer.map fun capabilityPointer =>
    let capabilityReg := ExtendedCapabilityPointerReg.mk (it.readU32 capabilityPointer.1)
    (⟨capabilityPointer, capabilityReg.capabilityId⟩,
      { it with capabilityPointer := NonZeroU8.new capabilityReg.nextCapPointer })

def logStep : ExtendedCapabilitiesIterator × List CapabilityInfo →
    Iter (ExtendedCapabilitiesIterator × List CapabilityInfo) (List CapabilityInfo)
  | (it, logged) =>
    match it.next with
    | some (c, it) => .next (it, logged ++ [c])
    | none => .stop logged

/-- The second loop, a `find_map`: the offset of the first USBLEGSUP. -/
def findStep (it : ExtendedCapabilitiesIterator) :
    Iter ExtendedCapabilitiesIterator (Option NonZeroU8) :=
  match it.next with
  | some (c, it) => if c.id = ExtendedCapability.usbLegSup.toU8 then .stop (some c.offset) else .next it
  | none => .stop none

end ExtendedCapabilitiesIterator

inductive AnyEhci where
  | biosOwned (usbLegSupOffset : NonZeroU8)
  | osOwned
  deriving DecidableEq, Repr

/-- `new_ehci`, with at most `n` iterations of each loop. -/
def newEhci (readU32 : ReadU32) (hccParams : HccParams) (n : Nat) : Option AnyEhci := do
  let _ ← iterate ExtendedCapabilitiesIterator.logStep n (.new readU32 hccParams, [])
  let usbLegSup ← iterate ExtendedCapabilitiesIterator.findStep n (.new readU32 hccParams)
  match usbLegSup with
  | some usbLegSupOffset => some (.biosOwned usbLegSupOffset)
  | none => some .osOwned

/-! ## The list -/

section List

variable (readU32 : ReadU32)

def capNext (offset : NonZeroU8) : Option NonZeroU8 :=
  NonZeroU8.new (ExtendedCapabilityPointerReg.mk (readU32 offset.1)).nextCapPointer

def IsUsbLegSup (offset : NonZeroU8) : Prop :=
  (ExtendedCapabilityPointerReg.mk (readU32 offset.1)).capabilityId = ExtendedCapability.usbLegSup.toU8

/-- The entries of the list: the offset `k` places behind the first. -/
def capAt (first : Option NonZeroU8) (k : Nat) : Option NonZeroU8 := chainAt (capNext readU32) first k

/-- What discovery has to find in the list that starts at `first`. -/
def Discovers (first : Option NonZeroU8) : AnyEhci → Prop
  | .biosOwned offset => IsUsbLegSup readU32 offset ∧ ∃ k, capAt readU32 first k = some offset ∧
      ∀ j < k, ∀ c, capAt readU32 first j = some c → ¬ IsUsbLegSup readU32 c
  | .osOwned => ∀ k c, capAt readU32 first k = some c → ¬ IsUsbLegSup readU32 c

/-- Both loops end, after at most 255 entries, and `new_ehci` returns what is in the list. -/
def DiscoveryEnds (hccParams : HccParams) : Prop :=
  ∃ ehci, newEhci readU32 hccParams 256 = some ehci ∧
    Discovers readU32 (NonZeroU8.new hccParams.eecp) ehci

end List

namespace ExtendedCapabilitiesIterator

variable {readU32 : ReadU32} {first : Option NonZeroU8} {n : Nat}

theorem logStep_some (readU32 : ReadU32) (offset : NonZeroU8) (logged : List CapabilityInfo) :
    ∃ c, logStep (⟨readU32, some offset⟩, logged) = .next (⟨readU32, capNext readU32 offset⟩, logged ++ [c]) :=
  ⟨_, rfl⟩

theorem findStep_usbLegSup {offset : NonZeroU8} (h : IsUsbLegSup readU32 offset) :
    findStep ⟨readU32, some offset⟩ = .stop (some offset) := if_pos h

theorem findStep_other {offset : NonZeroU8} (h : ¬ IsUsbLegSup readU32 offset) :
    findStep ⟨readU32, some offset⟩ = .next ⟨readU32, capNext readU32 offset⟩ := if_neg h

theorem log_returns_iff (logged : List CapabilityInfo) :
    (∃ l, iterate logStep (n + 1) (⟨readU32, first⟩, logged) = some l) ↔ capAt readU32 first n = none := by
  induction n generalizing first logged with
  | zero =>
    cases first with
    | none => exact iff_of_true ⟨logged, rfl⟩ rfl
    | some offset =>
      refine iff_of_false ?_ nofun
      rintro ⟨l, hl⟩
      cases hl
  | succ n ih =>
    cases first with
    | none => exact iff_of_true ⟨logged, rfl⟩ (chainAt_none _)
    | some offset =>
      obtain ⟨c, hc⟩ := logStep_some readU32 offset logged
      rw [iterate_next hc]
      exact ih _

theorem discovers_cons {offset : NonZeroU8} {ehci : AnyEhci} (h : ¬ IsUsbLegSup readU32 offset)
    (hd : Discovers readU32 (capNext readU32 offset) ehci) : Discovers readU32 (some offset) ehci := by
  cases ehci with
  | biosOwned found =>
    obtain ⟨hid, k, hk, hbefore⟩ := hd
    refine ⟨hid, k + 1, hk, fun j hj c hc => ?_⟩
    cases j with
    | zero =>
      cases hc
      exact h
    | succ j => exact hbefore j (by omega) c hc
  | osOwned =>
    intro k c hc
    cases k with
    | zero =>
      cases hc
      exact h
    | succ k => exact hd k c hc

/-- The second loop finds the first USBLEGSUP of a list that ends. -/
theorem find_returns (h : capAt readU32 first n = none) :
    ∃ r, iterate findStep (n + 1) ⟨readU32, first⟩ = some r ∧
      Discovers readU32 first (r.elim .osOwned .biosOwned) := by
  induction n generalizing first with
  | zero =>
    cases h
    refine ⟨none, rfl, fun k c hk => ?_⟩
    rw [capAt, chainAt_none] at hk
    cases hk
  | succ n ih =>
    cases first with
    | none =>
      refine ⟨none, rfl, fun k c hk => ?_⟩
      rw [capAt, chainAt_none] at hk
      cases hk
    | some offset =>
      by_cases hid : IsUsbLegSup readU32 offset
      · refine ⟨some offset, iterate_stop (findStep_usbLegSup hid) _, hid, 0, rfl, fun j hj => ?_⟩
        exact absurd hj (Nat.not_lt_zero j)
      · have hrest : capAt readU32 (capNext readU32 offset) n = none := h
        obtain ⟨r, hr, hd⟩ := ih hrest
        exact ⟨r, (iterate_next (findStep_other hid) _).trans hr, discovers_cons hid hd⟩

end ExtendedCapabilitiesIterator

section Discovery

variable {readU32 : ReadU32} {hccParams : HccParams}

theorem acyclic_of_newEhci {n : Nat} {ehci : AnyEhci} (h : newEhci readU32 hccParams n = some ehci) :
    Acyclic (capNext readU32) (NonZeroU8.new hccParams.eecp) := by
  obtain ⟨logged, hlog, -⟩ := Option.bind_eq_some_iff.mp h
  cases n with
  | zero => cases hlog
  | succ n => exact acyclic_of_ends ((ExtendedCapabilitiesIterator.log_returns_iff []).mp ⟨logged, hlog⟩)

theorem discoveryEnds_of_ends
    (h : capAt readU32 (NonZeroU8.new hccParams.eecp) 255 = none) : DiscoveryEnds readU32 hccParams := by
  obtain ⟨logged, hlog⟩ := (ExtendedCapabilitiesIterator.log_returns_iff []).mpr h
  obtain ⟨r, hr, hd⟩ := ExtendedCapabilitiesIterator.find_returns h
  refine ⟨r.elim .osOwned .biosOwned, ?_, hd⟩
  unfold newEhci ExtendedCapabilitiesIterator.new
  rw [hlog, hr]
  cases r <;> rfl

/-- **When capability discovery ends**: exactly if no offset occurs twice in the list; otherwise it never
returns. -/
theorem discoveryEnds_iff :
    (DiscoveryEnds readU32 hccParams ↔ Acyclic (capNext readU32) (NonZeroU8.new hccParams.eecp)) ∧
    (¬ Acyclic (capNext readU32) (NonZeroU8.new hccParams.eecp) →
      ∀ n, newEhci readU32 hccParams n = none) := by
  refine ⟨⟨fun ⟨ehci, h, _⟩ => acyclic_of_newEhci h, fun h => ?_⟩, fun h n => ?_⟩
  · exact discoveryEnds_of_ends (h.ends NonZeroU8.code)
  · rw [Option.eq_none_iff_forall_ne_some]
    exact fun ehci hn => h (acyclic_of_newEhci hn)

/-- The entry at 0x40 is USBLEGSUP and points to itself. -/
theorem not_discoveryEnds_self : ¬ DiscoveryEnds (fun _ => 0x4001) ⟨0x4000⟩ := by
  rintro ⟨ehci, h, -⟩
  exact acyclic_of_newEhci h 0 1 ⟨0x40, by decide⟩ Nat.zero_lt_one rfl rfl

end Discovery

end EzEhci
