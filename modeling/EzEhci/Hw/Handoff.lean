import EzEhci.Hw.Capabilities
import EzEhci.Lib.Run

/-!
# Taking the controller from the firmware

`new_ehci` looks for USBLEGSUP, `take_ownership` sets the driver's semaphore in
it, and `try_take` gives out the stack once the firmware's semaphore is clear.
The firmware runs in between any two of these accesses to the configuration
space, discovery included, and may write to it.

`FirmwareKeeps` is what is asked of it: the bytes that make up the list of
capabilities are read only, the driver's semaphore is the driver's, and the
firmware sets its own only while the driver's is clear.
-/

namespace EzEhci

open Lib

/-! ## The configuration space -/

abbrev ConfigSpace := Byte → Byte

def ConfigSpace.readU32 (c : ConfigSpace) : ReadU32 := fun offset =>
  c (offset + 3) ++ c (offset + 2) ++ c (offset + 1) ++ c offset

def ConfigSpace.writeU8 (c : ConfigSpace) (offset value : Byte) : ConfigSpace :=
  Function.update c offset value

structure UsbLegSupReg where
  raw : BitVec 32
  deriving DecidableEq, Repr

def UsbLegSupReg.biosOwnedSemaphore (r : UsbLegSupReg) : Bool := bit 16 r.raw

def UsbLegSupReg.osOwnedSemaphor (r : UsbLegSupReg) : Bool := bit 24 r.raw

def ConfigSpace.usbLegSup (c : ConfigSpace) (offset : NonZeroU8) : UsbLegSupReg := ⟨c.readU32 offset.1⟩

namespace ConfigSpace

theorem getLsbD_readU32 (c : ConfigSpace) (offset : Byte) (k : Fin 4) {i : Nat} (hi : i < 8) :
    (c.readU32 offset).getLsbD (8 * k + i) = (c (offset + BitVec.ofNat 8 k)).getLsbD i := by
  have hread : (c.readU32 offset).getLsbD (8 * k + i) =
      (c (offset + 3) ++ c (offset + 2) ++ c (offset + 1) ++ c offset).getLsbD (8 * k + i) := rfl
  rw [hread, BitVec.getLsbD_append, BitVec.getLsbD_append, BitVec.getLsbD_append]
  obtain ⟨k, hk⟩ := k
  obtain rfl | rfl | rfl | rfl : k = 0 ∨ k = 1 ∨ k = 2 ∨ k = 3 := by omega
  · rw [if_pos (show 8 * 0 + i < 8 by omega), show 8 * 0 + i = i by omega, BitVec.add_zero]
  · rw [if_neg (show ¬ 8 * 1 + i < 8 by omega), show 8 * 1 + i - 8 = i by omega, if_pos hi]
    rfl
  · rw [if_neg (show ¬ 8 * 2 + i < 8 by omega), show 8 * 2 + i - 8 = 8 + i by omega,
      if_neg (show ¬ 8 + i < 8 by omega), show 8 + i - 8 = i by omega, if_pos hi]
    rfl
  · rw [if_neg (show ¬ 8 * 3 + i < 8 by omega), show 8 * 3 + i - 8 = 8 + (8 + i) by omega,
      if_neg (show ¬ 8 + (8 + i) < 8 by omega), show 8 + (8 + i) - 8 = 8 + i by omega,
      if_neg (show ¬ 8 + i < 8 by omega), show 8 + i - 8 = i by omega]
    rfl

theorem biosOwnedSemaphore_eq (c : ConfigSpace) (e : NonZeroU8) :
    (c.usbLegSup e).biosOwnedSemaphore = bit 0 (c (e.1 + 2)) := c.getLsbD_readU32 e.1 2 (Nat.zero_lt_succ 7)

theorem osOwnedSemaphor_eq (c : ConfigSpace) (e : NonZeroU8) :
    (c.usbLegSup e).osOwnedSemaphor = bit 0 (c (e.1 + 3)) := c.getLsbD_readU32 e.1 3 (Nat.zero_lt_succ 7)

/-- The byte `take_ownership` writes is the one with the driver's semaphore. -/
theorem osOwnedSemaphor_writeU8 (c : ConfigSpace) (e : NonZeroU8) :
    ((c.writeU8 (e.1 + 3) 1).usbLegSup e).osOwnedSemaphor = true := by
  rw [osOwnedSemaphor_eq, writeU8, Function.update_self]
  rfl

theorem capabilityId_eq (c : ConfigSpace) (e : NonZeroU8) :
    (ExtendedCapabilityPointerReg.mk (c.readU32 e.1)).capabilityId = c e.1 := by
  apply BitVec.eq_of_getLsbD_eq
  intro i hi
  rw [ExtendedCapabilityPointerReg.capabilityId, getLsbD_field, decide_eq_true hi, Bool.true_and]
  exact (c.getLsbD_readU32 e.1 0 hi).trans (by simp)

theorem nextCapPointer_eq (c : ConfigSpace) (e : NonZeroU8) :
    (ExtendedCapabilityPointerReg.mk (c.readU32 e.1)).nextCapPointer = c (e.1 + 1) := by
  apply BitVec.eq_of_getLsbD_eq
  intro i hi
  rw [ExtendedCapabilityPointerReg.nextCapPointer, getLsbD_field, decide_eq_true hi, Bool.true_and]
  exact c.getLsbD_readU32 e.1 1 hi

end ConfigSpace

/-! ## The driver and the firmware -/

/-- `BiosOwnedEhci::take_ownership`: the space after it; `none` is a panic. -/
def takeOwnership (oc : OverflowChecks) (c : ConfigSpace) (usbLegSupOffset : NonZeroU8) : Option ConfigSpace :=
  (addU oc usbLegSupOffset.1 3).map fun offset => c.writeU8 offset 0x1

inductive TryTakeOutput where
  | notYet
  | taken
  deriving DecidableEq, Repr

def tryTake (c : ConfigSpace) (usbLegSupOffset : NonZeroU8) : TryTakeOutput :=
  if (c.usbLegSup usbLegSupOffset).biosOwnedSemaphore then .notYet else .taken

/-- Where the driver is: in the first loop of `new_ehci`, in the second, or with what it returned and
what became of it. -/
inductive HandoffPc where
  | logging (pointer : Option NonZeroU8)
  | finding (pointer : Option NonZeroU8)
  | osOwned
  | biosOwned (offset : NonZeroU8)
  | taking (offset : NonZeroU8)
  | taken (offset : NonZeroU8)
  | panicked (offset : NonZeroU8)
  deriving DecidableEq, Repr

structure HandoffWorld where
  space : ConfigSpace
  hccParams : HccParams
  pc : HandoffPc

inductive HandoffLabel where
  /-- `new_ehci` goes on by one entry. -/
  | discover
  | takeOwnership
  | tryTake
  /-- The firmware writes a byte. -/
  | firmware (offset value : Byte)
  deriving DecidableEq, Repr

namespace HandoffWorld

def start (space : ConfigSpace) (hccParams : HccParams) : HandoffWorld :=
  ⟨space, hccParams, .logging (NonZeroU8.new hccParams.eecp)⟩

def log (s : HandoffWorld) (pointer : Option NonZeroU8) : HandoffPc :=
  match ExtendedCapabilitiesIterator.logStep (⟨s.space.readU32, pointer⟩, []) with
  | .next (it, _) => .logging it.capabilityPointer
  | .stop _ => .finding (NonZeroU8.new s.hccParams.eecp)

def find (s : HandoffWorld) (pointer : Option NonZeroU8) : HandoffPc :=
  match ExtendedCapabilitiesIterator.findStep ⟨s.space.readU32, pointer⟩ with
  | .next it => .finding it.capabilityPointer
  | .stop (some offset) => .biosOwned offset
  | .stop none => .osOwned

def step (oc : OverflowChecks) (s : HandoffWorld) : HandoffLabel → Option HandoffWorld
  | .discover =>
    match s.pc with
    | .logging pointer => some { s with pc := s.log pointer }
    | .finding pointer => some { s with pc := s.find pointer }
    | _ => none
  | .takeOwnership =>
    match s.pc with
    | .biosOwned offset =>
      match EzEhci.takeOwnership oc s.space offset with
      | some space => some { s with space, pc := .taking offset }
      | none => some { s with pc := .panicked offset }
    | _ => none
  | .tryTake =>
    match s.pc with
    | .taking offset =>
      match EzEhci.tryTake s.space offset with
      | .notYet => some s
      | .taken => some { s with pc := .taken offset }
    | _ => none
  | .firmware offset value => some { s with space := s.space.writeU8 offset value }

end HandoffWorld

/-! ## What is asked of the firmware -/

section Firmware

variable (c₀ : ConfigSpace) (first : Option NonZeroU8)

def CapListed (e : NonZeroU8) : Prop := ∃ k, capAt c₀.readU32 first k = some e

/-- The firmware may write a byte. -/
structure FirmwareKeeps (c : ConfigSpace) (offset value : Byte) : Prop where
  readOnly : ∀ e, CapListed c₀ first e → offset ≠ e.1 ∧ offset ≠ e.1 + 1
  os : ∀ e, CapListed c₀ first e → IsUsbLegSup c₀.readU32 e → offset ≠ e.1 + 3
  bios : ∀ e, CapListed c₀ first e → IsUsbLegSup c₀.readU32 e → offset = e.1 + 2 → bit 0 value = true →
    (c.usbLegSup e).biosOwnedSemaphore = true ∨ (c.usbLegSup e).osOwnedSemaphor = false

/-- A step of the firmware is one it may make. -/
def FirmwareBehaves (s : HandoffWorld) : HandoffLabel → Prop
  | .firmware offset value => FirmwareKeeps c₀ first s.space offset value
  | _ => True

def ListKept (c : ConfigSpace) : Prop :=
  ∀ e, CapListed c₀ first e → c e.1 = c₀ e.1 ∧ c (e.1 + 1) = c₀ (e.1 + 1)

end Firmware

section Kept

variable {c₀ c : ConfigSpace} {first : Option NonZeroU8} {e : NonZeroU8} {offset value : Byte}

theorem CapListed.of_discovers (h : Discovers c₀.readU32 first (.biosOwned e)) : CapListed c₀ first e := by
  obtain ⟨-, k, hk, -⟩ := h
  exact ⟨k, hk⟩

theorem capAt_succ {k : Nat} (h : capAt c₀.readU32 first k = some e) :
    capAt c₀.readU32 first (k + 1) = capNext c₀.readU32 e := by
  unfold capAt at h ⊢
  rw [chainAt_add, h]
  rfl

theorem ListKept.capNext (h : ListKept c₀ first c) (he : CapListed c₀ first e) :
    capNext c.readU32 e = EzEhci.capNext c₀.readU32 e := by
  rw [EzEhci.capNext, EzEhci.capNext, c.nextCapPointer_eq, c₀.nextCapPointer_eq, (h e he).2]

theorem ListKept.isUsbLegSup_iff (h : ListKept c₀ first c) (he : CapListed c₀ first e) :
    IsUsbLegSup c.readU32 e ↔ IsUsbLegSup c₀.readU32 e := by
  rw [IsUsbLegSup, IsUsbLegSup, c.capabilityId_eq, c₀.capabilityId_eq, (h e he).1]

theorem ListKept.firmware (h : ListKept c₀ first c) (hf : FirmwareKeeps c₀ first c offset value) :
    ListKept c₀ first (c.writeU8 offset value) := by
  intro e he
  obtain ⟨hid, hnext⟩ := hf.readOnly e he
  exact ⟨(Function.update_of_ne hid.symm _ _).trans (h e he).1,
    (Function.update_of_ne hnext.symm _ _).trans (h e he).2⟩

theorem FirmwareKeeps.osOwnedSemaphor (hf : FirmwareKeeps c₀ first c offset value)
    (hd : Discovers c₀.readU32 first (.biosOwned e)) :
    ((c.writeU8 offset value).usbLegSup e).osOwnedSemaphor = (c.usbLegSup e).osOwnedSemaphor := by
  have hne := hf.os e (.of_discovers hd) hd.1
  rw [ConfigSpace.osOwnedSemaphor_eq, ConfigSpace.osOwnedSemaphor_eq, ConfigSpace.writeU8,
    Function.update_of_ne hne.symm]

/-- The firmware does not come back while the driver's semaphore is set. -/
theorem FirmwareKeeps.biosOwnedSemaphore (hf : FirmwareKeeps c₀ first c offset value)
    (hd : Discovers c₀.readU32 first (.biosOwned e)) (hos : (c.usbLegSup e).osOwnedSemaphor = true)
    (hbios : (c.usbLegSup e).biosOwnedSemaphore = false) :
    ((c.writeU8 offset value).usbLegSup e).biosOwnedSemaphore = false := by
  rw [ConfigSpace.biosOwnedSemaphore_eq, ConfigSpace.writeU8]
  by_cases ho : offset = e.1 + 2
  · rw [← ho, Function.update_self]
    by_contra hv
    rcases hf.bios e (.of_discovers hd) hd.1 ho (Bool.not_eq_false _ ▸ hv) with h | h
    · rw [hbios] at h
      cases h
    · rw [hos] at h
      cases h
  · rw [Function.update_of_ne (Ne.symm ho), ← ConfigSpace.biosOwnedSemaphore_eq]
    exact hbios

end Kept

/-! ## Every interleaving -/

def HandoffPc.offset? : HandoffPc → Option NonZeroU8
  | .logging _ | .finding _ | .osOwned => none
  | .biosOwned offset | .taking offset | .taken offset | .panicked offset => some offset

def HandoffPc.asked? : HandoffPc → Option NonZeroU8
  | .logging _ | .finding _ | .osOwned | .biosOwned _ | .panicked _ => none
  | .taking offset | .taken offset => some offset

namespace HandoffWorld

section Runs

variable (oc : OverflowChecks) (c₀ : ConfigSpace) (first : Option NonZeroU8)

/-- How far the driver is, and what it knows of the space. -/
def Knows (c : ConfigSpace) : HandoffPc → Prop
  | .logging pointer => ListKept c₀ first c ∧ ∃ k, capAt c₀.readU32 first k = pointer
  | .finding pointer => ListKept c₀ first c ∧ ∃ k, capAt c₀.readU32 first k = pointer ∧
      ∀ j < k, ∀ e, capAt c₀.readU32 first j = some e → ¬ IsUsbLegSup c₀.readU32 e
  | .osOwned => Discovers c₀.readU32 first .osOwned
  | .biosOwned offset => Discovers c₀.readU32 first (.biosOwned offset)
  | .taking offset => Discovers c₀.readU32 first (.biosOwned offset) ∧
      (c.usbLegSup offset).osOwnedSemaphor = true
  | .taken offset => Discovers c₀.readU32 first (.biosOwned offset) ∧
      (c.usbLegSup offset).osOwnedSemaphor = true ∧ (c.usbLegSup offset).biosOwnedSemaphore = false
  | .panicked offset => Discovers c₀.readU32 first (.biosOwned offset) ∧ oc = .on ∧ 253 ≤ offset.1.toNat

end Runs

variable {oc : OverflowChecks} {c₀ : ConfigSpace} {first : Option NonZeroU8} {s s' : HandoffWorld}

theorem Knows.log {pointer : Option NonZeroU8} (hfirst : NonZeroU8.new s.hccParams.eecp = first)
    (h : Knows oc c₀ first s.space (.logging pointer)) : Knows oc c₀ first s.space (s.log pointer) := by
  obtain ⟨hlist, k, hk⟩ := h
  cases pointer with
  | none => exact ⟨hlist, 0, hfirst.symm, fun j hj => absurd hj (Nat.not_lt_zero j)⟩
  | some e => exact ⟨hlist, k + 1, (capAt_succ hk).trans (hlist.capNext ⟨k, hk⟩).symm⟩

theorem Knows.find {pointer : Option NonZeroU8} (h : Knows oc c₀ first s.space (.finding pointer)) :
    Knows oc c₀ first s.space (s.find pointer) := by
  obtain ⟨hlist, k, hk, hbefore⟩ := h
  cases pointer with
  | none =>
    intro j e hj
    refine hbefore j ?_ e hj
    by_contra hle
    rw [capAt, chainAt_of_le hk (Nat.le_of_not_lt hle)] at hj
    cases hj
  | some e =>
    have hiff := hlist.isUsbLegSup_iff ⟨k, hk⟩
    by_cases hid : IsUsbLegSup s.space.readU32 e
    · rw [HandoffWorld.find, ExtendedCapabilitiesIterator.findStep_usbLegSup hid]
      exact ⟨hiff.mp hid, k, hk, hbefore⟩
    · rw [HandoffWorld.find, ExtendedCapabilitiesIterator.findStep_other hid]
      refine ⟨hlist, k + 1, (capAt_succ hk).trans (hlist.capNext ⟨k, hk⟩).symm, fun j hj e' he' => ?_⟩
      rcases Nat.lt_succ_iff_lt_or_eq.mp hj with hlt | rfl
      · exact hbefore j hlt e' he'
      · rw [hk] at he'
        cases he'
        exact mt hiff.mpr hid

theorem Knows.firmware {offset value : Byte} {pc : HandoffPc} (h : Knows oc c₀ first s.space pc)
    (hf : FirmwareKeeps c₀ first s.space offset value) :
    Knows oc c₀ first (s.space.writeU8 offset value) pc := by
  cases pc with
  | logging pointer => exact ⟨h.1.firmware hf, h.2⟩
  | finding pointer => exact ⟨h.1.firmware hf, h.2⟩
  | osOwned | biosOwned | panicked => exact h
  | taking e => exact ⟨h.1, (hf.osOwnedSemaphor h.1).trans h.2⟩
  | taken e =>
    obtain ⟨hd, hos, hbios⟩ := h
    exact ⟨hd, (hf.osOwnedSemaphor hd).trans hos, hf.biosOwnedSemaphore hd hos hbios⟩

theorem takeOwnership_eq_some {c c' : ConfigSpace} {e : NonZeroU8} (h : takeOwnership oc c e = some c') :
    c' = c.writeU8 (e.1 + 3) 1 := by
  obtain ⟨offset, ho, rfl⟩ := Option.map_eq_some_iff.mp h
  rw [addU_eq_some ho]

theorem takeOwnership_eq_none {c : ConfigSpace} {e : NonZeroU8} (h : takeOwnership oc c e = none) :
    oc = .on ∧ 253 ≤ e.1.toNat := by
  have hadd := Option.map_eq_none_iff.mp h
  unfold addU at hadd
  split at hadd
  next hover =>
    have h3 : (3 : Byte).toNat = 3 := rfl
    exact ⟨hover.1, by omega⟩
  next => cases hadd

inductive Stepped (oc : OverflowChecks) (s : HandoffWorld) : HandoffLabel → HandoffWorld → Prop
  | log {pointer : Option NonZeroU8} (hpc : s.pc = .logging pointer) :
      Stepped oc s .discover { s with pc := s.log pointer }
  | find {pointer : Option NonZeroU8} (hpc : s.pc = .finding pointer) :
      Stepped oc s .discover { s with pc := s.find pointer }
  | ask {offset : NonZeroU8} (hpc : s.pc = .biosOwned offset) :
      Stepped oc s .takeOwnership
        { s with space := s.space.writeU8 (offset.1 + 3) 1, pc := .taking offset }
  | panic {offset : NonZeroU8} (hpc : s.pc = .biosOwned offset) (hon : oc = .on)
      (hend : 253 ≤ offset.1.toNat) : Stepped oc s .takeOwnership { s with pc := .panicked offset }
  | notYet {offset : NonZeroU8} (hpc : s.pc = .taking offset) : Stepped oc s .tryTake s
  | take {offset : NonZeroU8} (hpc : s.pc = .taking offset)
      (hbios : (s.space.usbLegSup offset).biosOwnedSemaphore = false) :
      Stepped oc s .tryTake { s with pc := .taken offset }
  | firmware (offset value : Byte) :
      Stepped oc s (.firmware offset value) { s with space := s.space.writeU8 offset value }

theorem Stepped.of_step {a : HandoffLabel} (h : s.step oc a = some s') : Stepped oc s a s' := by
  cases a with
  | discover =>
    simp only [step] at h
    split at h
    next pointer hpc =>
      cases h
      exact .log hpc
    next pointer hpc =>
      cases h
      exact .find hpc
    next => cases h
  | takeOwnership =>
    simp only [step] at h
    split at h
    next offset hpc =>
      split at h
      next space htake =>
        cases h
        exact takeOwnership_eq_some htake ▸ .ask hpc
      next htake =>
        cases h
        obtain ⟨hon, hend⟩ := takeOwnership_eq_none htake
        exact .panic hpc hon hend
    next => cases h
  | tryTake =>
    simp only [step] at h
    split at h
    next offset hpc =>
      split at h
      next =>
        cases h
        exact .notYet hpc
      next htry =>
        cases h
        refine .take hpc ?_
        unfold EzEhci.tryTake at htry
        split at htry
        next => cases htry
        next hclear => exact Bool.not_eq_true _ ▸ hclear
    next => cases h
  | firmware offset value =>
    cases h
    exact .firmware offset value

/-! ### Invariants -/

theorem Stepped.hccParams {a : HandoffLabel} (h : Stepped oc s a s') : s'.hccParams = s.hccParams := by
  cases h <;> rfl

theorem Knows.step {a : HandoffLabel} (hfirst : NonZeroU8.new s.hccParams.eecp = first)
    (h : Knows oc c₀ first s.space s.pc) (hf : FirmwareBehaves c₀ first s a) (hs : Stepped oc s a s') :
    Knows oc c₀ first s'.space s'.pc := by
  cases hs with
  | log hpc => exact (hpc ▸ h).log hfirst
  | find hpc => exact (hpc ▸ h).find
  | @ask offset hpc =>
    rw [hpc] at h
    exact ⟨h, ConfigSpace.osOwnedSemaphor_writeU8 s.space offset⟩
  | panic hpc hon hend =>
    rw [hpc] at h
    exact ⟨h, hon, hend⟩
  | notYet hpc => exact h
  | take hpc hbios =>
    rw [hpc] at h
    exact ⟨h.1, h.2, hbios⟩
  | firmware offset value => exact h.firmware hf

/-- The bytes the firmware did not write to are as they were, but for the one the driver wrote. -/
def Untouched (c₀ : ConfigSpace) (tr : List HandoffLabel) (s : HandoffWorld) : Prop :=
  ∀ b, (∀ v, .firmware b v ∉ tr) →
    s.space b = c₀ b ∨ ∃ offset, s.pc.asked? = some offset ∧ b = offset.1 + 3

theorem Untouched.step {tr : List HandoffLabel} {a : HandoffLabel} (h : Untouched c₀ tr s)
    (hs : Stepped oc s a s') : Untouched c₀ (tr ++ [a]) s' := by
  intro b hb
  have hb' := h b fun v hv => hb v (List.mem_append_left _ hv)
  cases hs with
  | log hpc | find hpc | panic hpc =>
    rw [hpc] at hb'
    rcases hb' with hb' | ⟨_, ⟨⟩, _⟩
    exact .inl hb'
  | @ask offset hpc =>
    rw [hpc] at hb'
    by_cases ho : b = offset.1 + 3
    · exact .inr ⟨offset, rfl, ho⟩
    · rcases hb' with hb' | ⟨_, ⟨⟩, _⟩
      exact .inl ((Function.update_of_ne ho _ _).trans hb')
  | notYet hpc => exact hb'
  | take hpc =>
    rw [hpc] at hb'
    exact hb'
  | firmware offset value =>
    have hne : b ≠ offset := fun ho => hb value (ho ▸ List.mem_append_right _ List.mem_cons_self)
    exact hb'.imp_left (Function.update_of_ne hne _ _).trans

structure HandedOver (oc : OverflowChecks) (c₀ : ConfigSpace) (first : Option NonZeroU8)
    (tr : List HandoffLabel) (s : HandoffWorld) : Prop where
  /-- It goes without a handoff only if no capability is USBLEGSUP. -/
  absent : s.pc = .osOwned → Discovers c₀.readU32 first .osOwned
  found : ∀ offset, s.pc.offset? = some offset → Discovers c₀.readU32 first (.biosOwned offset)
  asked : ∀ offset, s.pc.asked? = some offset → (s.space.usbLegSup offset).osOwnedSemaphor = true
  /-- The firmware is out for as long as the stack is there. -/
  sole : ∀ offset, s.pc = .taken offset → (s.space.usbLegSup offset).biosOwnedSemaphore = false
  panics : ∀ offset, s.pc = .panicked offset → oc = .on ∧ 253 ≤ offset.1.toNat
  untouched : Untouched c₀ tr s

theorem Knows.handedOver {tr : List HandoffLabel} (h : Knows oc c₀ first s.space s.pc)
    (hu : Untouched c₀ tr s) : HandedOver oc c₀ first tr s := by
  refine ⟨fun hpc => ?_, fun offset hpc => ?_, fun offset hpc => ?_, fun offset hpc => ?_,
    fun offset hpc => ?_, hu⟩
  · rwa [hpc] at h
  · cases hx : s.pc <;> rw [hx] at h hpc <;> cases hpc
    · exact h
    · exact h.1
    · exact h.1
    · exact h.1
  · cases hx : s.pc <;> rw [hx] at h hpc <;> cases hpc
    · exact h.2
    · exact h.2.1
  · rw [hpc] at h
    exact h.2.2
  · rw [hpc] at h
    exact h.2

end HandoffWorld

/-- **The controller has one owner.** In every interleaving of the driver, from the call of `new_ehci`
on, with a firmware that keeps its rules: the driver finds the first USBLEGSUP of the list, or goes on
without a handoff because there is none; once it has the stack, its semaphore is set and the firmware's
clear; and the one byte it writes is that of its semaphore. -/
theorem handedOver_of_exec {oc : OverflowChecks} {c₀ : ConfigSpace} {hccParams : HccParams}
    {tr : List HandoffLabel} {s : HandoffWorld}
    (h : exec (HandoffWorld.step oc) (.start c₀ hccParams) tr = some s)
    (hf : Meets (HandoffWorld.step oc) (FirmwareBehaves c₀ (NonZeroU8.new hccParams.eecp))
      (.start c₀ hccParams) tr) :
    s.HandedOver oc c₀ (NonZeroU8.new hccParams.eecp) tr := by
  have hinv := exec_history (P := fun tr s => s.hccParams = hccParams ∧
      HandoffWorld.Knows oc c₀ (NonZeroU8.new hccParams.eecp) s.space s.pc ∧ s.Untouched c₀ tr) ?_ ?_ hf h
  · exact hinv.2.1.handedOver hinv.2.2
  · exact ⟨rfl, ⟨fun _ _ => ⟨rfl, rfl⟩, 0, rfl⟩, fun b _ => .inl rfl⟩
  · rintro tr s a s' - ⟨hhcc, hknows, hu⟩ hc hs
    have hstep := HandoffWorld.Stepped.of_step hs
    exact ⟨hstep.hccParams.trans hhcc, hknows.step (by rw [hhcc]) hc hstep, hu.step hstep⟩

/-- USBLEGSUP is the only capability, and the firmware owns the controller. -/
def exampleSpace : ConfigSpace := fun offset => if offset = 0x40 ∨ offset = 0x42 then 1 else 0

/-- The firmware lets go after the driver's first try. -/
theorem handedOver_of_exec_released : ∃ s,
    exec (HandoffWorld.step .on) (.start exampleSpace ⟨0x4000⟩) [.discover, .discover, .discover,
      .takeOwnership, .tryTake, .firmware 0x42 0, .tryTake] = some s ∧
    s.pc = .taken ⟨0x40, by decide⟩ ∧
    (s.space.usbLegSup ⟨0x40, by decide⟩).biosOwnedSemaphore = false := by
  obtain ⟨s, hs, hpc⟩ := exec_witness (HandoffWorld.step .on) (.start exampleSpace ⟨0x4000⟩)
    [.discover, .discover, .discover, .takeOwnership, .tryTake, .firmware 0x42 0, .tryTake]
    (fun s => s.pc = .taken ⟨0x40, by decide⟩) (by decide +kernel)
  have honly : ∀ e, CapListed exampleSpace (NonZeroU8.new (HccParams.mk 0x4000).eecp) e →
      e = ⟨0x40, by decide⟩ := by
    rintro e ⟨k, hk⟩
    cases k with
    | zero => exact (Option.some.inj hk).symm
    | succ k =>
      have hend : (NonZeroU8.new (HccParams.mk 0x4000).eecp).bind (capNext exampleSpace.readU32) = none := by
        decide
      rw [capAt, chainAt, hend, chainAt_none] at hk
      cases hk
  have hkeeps : ∀ c, FirmwareKeeps exampleSpace (NonZeroU8.new (HccParams.mk 0x4000).eecp) c 0x42 0 := by
    intro c
    refine ⟨fun e he => ?_, fun e he _ => ?_, fun e he _ _ hv => by cases hv⟩
    · rw [honly e he]
      decide
    · rw [honly e he]
      decide
  refine ⟨s, hs, hpc, (handedOver_of_exec hs ?_).sole _ hpc⟩
  exact ⟨trivial, fun _ _ => ⟨trivial, fun _ _ => ⟨trivial, fun _ _ => ⟨trivial, fun _ _ => ⟨trivial,
    fun _ _ => ⟨hkeeps _, fun _ _ => ⟨trivial, fun _ _ => trivial⟩⟩⟩⟩⟩⟩⟩

end EzEhci
