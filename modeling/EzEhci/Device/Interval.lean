import EzEhci.Lib.Loops
import EzEhci.Device.Configure
import EzEhci.Device.Parse

/-!
# Polling intervals

The bInterval byte of an endpoint descriptor goes unchecked from the bytes a
device returned (`from_descriptor`) through `set_configuration` to the
arithmetic of `interval` and `watch`. An interrupt endpoint that was made from
a byte string has the byte of one of the endpoint descriptors in it
(`MadeFrom`), and the arithmetic is sound exactly for the bytes 1 to 16.
-/

namespace EzEhci

open Lib

/-! ## The arithmetic -/

namespace InterruptEndpoint

/-- `InterruptEndpoint::interval`, in nanoseconds; a micro-frame is 125 µs. -/
def interval (oc : OverflowChecks) (ep : InterruptEndpoint) : Option Nat := do
  let e ← subU oc ep.info.interval 1
  let nMicroframes ← pow2U16 oc e
  some (125000 * nMicroframes.toNat)

/-- The arithmetic on the interval does not panic, with overflow checks or without, and `watch` asks for an
interval of the periodic list. An underflow or overflow is a panic with overflow checks. -/
def IntervalSound (ep : InterruptEndpoint) : Prop :=
  ∀ oc, (∃ d, ep.interval oc = some d) ∧
    ∃ iv, ep.normalizedInterval oc = some iv ∧ iv.microFramesPower.toNat ≤ 13

variable {ep : InterruptEndpoint}

/-- **The arithmetic is sound exactly for the bytes 1 to 16.** -/
theorem intervalSound_iff :
    ep.IntervalSound ↔ 1 ≤ ep.info.interval.toNat ∧ ep.info.interval.toNat ≤ 16 := by
  constructor
  · intro h
    obtain ⟨⟨d, hd⟩, -⟩ := h .on
    obtain ⟨e, he, hd⟩ := Option.bind_eq_some_iff.mp hd
    obtain ⟨n, hn, -⟩ := Option.bind_eq_some_iff.mp hd
    obtain ⟨hsub, he⟩ := Option.ite_none_left_eq_some.mp he
    cases he
    obtain ⟨hpow, -⟩ := Option.ite_none_left_eq_some.mp hn
    have h1 : 1 ≤ ep.info.interval.toNat := by
      by_contra hlt
      exact hsub ⟨rfl, by simp; omega⟩
    have h16 : (ep.info.interval - 1).toNat = ep.info.interval.toNat - 1 := by
      rw [BitVec.toNat_sub]
      simp
      omega
    refine ⟨h1, ?_⟩
    by_contra hgt
    exact hpow ⟨rfl, by omega⟩
  · rintro ⟨h1, h16⟩ oc
    have hi : ep.interval oc = ((subU oc ep.info.interval 1).bind (pow2U16 oc)).bind fun n =>
        some (125000 * n.toNat) := (Option.bind_assoc _ _ _).symm
    refine ⟨⟨_, by rw [hi, microFrames_eq oc h1 h16, Option.bind_some]⟩, ?_⟩
    obtain ⟨iv, hiv, -⟩ := normalizedInterval_eq oc h1 h16
    exact ⟨iv, hiv, iv.valid⟩

end InterruptEndpoint

/-! ## Where an interval comes from -/

/-- The endpoint was described by a descriptor in the byte string. -/
def DescribedIn (fullDescriptor : List Byte) (info : EndpointInfo) : Prop :=
  ∃ position c d, CommonDescriptor.at fullDescriptor position = some c ∧
    c.bDescriptorType = DescriptorType.endpoint.toU8 ∧
    EndpointDescriptor.at fullDescriptor position = some d ∧ info = d.info

section Parse

variable {fullDescriptor : List Byte} {configuration : ConfigurationDescriptor} {s s' : ParseState}

/-- Every endpoint that the parser has found. -/
structure Described (fullDescriptor : List Byte) (s : ParseState) : Prop where
  interfaces : ∀ i ∈ s.interfaces, ∀ e ∈ i.endpoints, DescribedIn fullDescriptor e
  inner : ∀ l, s.inner = some l → ∀ e ∈ l.endpoints, DescribedIn fullDescriptor e

theorem described_start : Described fullDescriptor .start := by
  constructor <;> simp [ParseState.start]

theorem Described.step (h : Described fullDescriptor s)
    (hs : parseStep fullDescriptor configuration s = .next s') : Described fullDescriptor s' := by
  unfold parseStep at hs
  split at hs
  next hin =>
    obtain ⟨-, d, -, ⟨i, -, -, rfl⟩ | ⟨-, rfl⟩⟩ := interfaceStep_next hs
    · refine ⟨h.interfaces, fun l hl e he => ?_⟩
      cases hl
      cases he
    · exact ⟨h.interfaces, h.inner⟩
  next l hin =>
    obtain ⟨-, d, hd, ⟨e, hat, htype, rfl⟩ | ⟨-, rfl⟩⟩ | ⟨-, rfl⟩ := endpointStep_next hs
    · refine ⟨h.interfaces, fun l' hl' e' he' => ?_⟩
      cases hl'
      rcases List.mem_append.mp he' with he' | he'
      · exact h.inner l hin e' he'
      · exact ⟨s.position, d, e, hd, htype, hat, List.mem_singleton.mp he'⟩
    · exact ⟨h.interfaces, h.inner⟩
    · refine ⟨fun i hi => ?_, nofun⟩
      rcases List.mem_append.mp hi with hi | hi
      · exact h.interfaces i hi
      · rw [List.mem_singleton.mp hi]
        exact h.inner l hin

theorem describedIn_of_fromDescriptor {n : Nat} {info : ConfigurationInfo}
    (h : ConfigurationInfo.fromDescriptor fullDescriptor n = some (.returned info)) :
    ∀ i ∈ info.interfaces, ∀ e ∈ i.endpoints, DescribedIn fullDescriptor e := by
  unfold ConfigurationInfo.fromDescriptor at h
  split at h
  · cases h
  next configuration _ =>
    obtain ⟨s, hs, hstop⟩ := iterate_invariant (P := Described fullDescriptor) described_start
      (fun t t' ht hstep => ht.step hstep) h
    -- the parser returns from the outer loop, with the interfaces found
    have hinfo : info.interfaces = s.interfaces := by
      unfold parseStep at hstop
      split at hstop
      · unfold interfaceStep at hstop
        split at hstop
        · split at hstop
          · cases hstop
          · split at hstop
            · split at hstop <;> cases hstop
            · cases hstop
        · cases hstop
          rfl
      · unfold endpointStep at hstop
        split at hstop
        · split at hstop
          · cases hstop
          · split at hstop
            · split at hstop <;> cases hstop
            · cases hstop
        · cases hstop
    rw [hinfo]
    exact hs.interfaces

end Parse

namespace Configuring

variable {c : Configuring} {P : EndpointInfo → Prop}

/-- `set_configuration` goes through the endpoints, with the identities of the shared states it makes. -/
def run (c : Configuring) (shared : List InterruptEpId) : Configuring := shared.foldl next c

/-- What holds of every endpoint to go and of every interrupt endpoint made. -/
structure AllInfos (P : EndpointInfo → Prop) (c : Configuring) : Prop where
  todo : ∀ l ∈ c.todo, ∀ e ∈ l, P e
  made : ∀ ep ∈ c.interruptEndpoints, P ep.info

theorem makeEndpoint_info {endpoint : EndpointInfo} {shared : InterruptEpId} {ep : InterruptEndpoint}
    (h : (c.makeEndpoint endpoint shared).interrupt? = some ep) : ep.info = endpoint := by
  unfold makeEndpoint at h
  split at h <;> cases h
  rfl

theorem AllInfos.next (h : c.AllInfos P) (shared : InterruptEpId) : (c.next shared).AllInfos P := by
  obtain ⟨htodo, hmade⟩ := h
  unfold Configuring.next
  split
  · exact ⟨htodo, hmade⟩
  next todo heq =>
    refine ⟨fun l hl => htodo l (heq ▸ List.mem_cons_of_mem _ hl), fun ep hep => hmade ep ?_⟩
    simpa [Configuring.interruptEndpoints] using hep
  next endpoint rest todo heq =>
    rw [heq] at htodo
    obtain ⟨hhead, htail⟩ := List.forall_mem_cons.mp htodo
    refine ⟨List.forall_mem_cons.mpr ⟨fun e he => hhead e (List.mem_cons_of_mem _ he), htail⟩, ?_⟩
    intro ep hep
    have hep' : ep ∈ c.interruptEndpoints ∨ (c.makeEndpoint endpoint shared).interrupt? = some ep := by
      simpa [Configuring.interruptEndpoints, List.filterMap_append, or_assoc] using hep
    rcases hep' with hep' | hep'
    · exact hmade ep hep'
    · rw [makeEndpoint_info hep']
      exact hhead endpoint List.mem_cons_self

theorem AllInfos.run (h : c.AllInfos P) (shared : List InterruptEpId) : (c.run shared).AllInfos P :=
  foldl_invariant (P := AllInfos P) (fun _ id hc => hc.next id) h

theorem allInfos_start {device : Device} {info : DeviceInfo} {index : Nat}
    {configuration : ConfigurationInfo} (hc : info.configurations[index]? = some configuration)
    (h : Configuring.start device info index = some c)
    (hP : ∀ i ∈ configuration.interfaces, ∀ e ∈ i.endpoints, P e) : c.AllInfos P := by
  rw [Configuring.start, hc] at h
  cases h
  refine ⟨fun l hl => ?_, fun ep hep => ?_⟩
  · obtain ⟨i, hi, rfl⟩ := List.mem_map.mp hl
    exact hP i hi
  · simp [Configuring.interruptEndpoints] at hep

end Configuring

/-- `set_configuration` makes the interrupt endpoint `ep` of a configuration that `from_descriptor` parsed
from the byte string. -/
def MadeFrom (fullDescriptor : List Byte) (ep : InterruptEndpoint) : Prop :=
  ∃ n configuration device info index c shared r,
    ConfigurationInfo.fromDescriptor fullDescriptor n = some (.returned configuration) ∧
    info.configurations[index]? = some configuration ∧
    Configuring.start device info index = some c ∧ (c.run shared).todo = [] ∧
    (c.run shared).result = some r ∧ ep ∈ r.interruptEndpoints

theorem describedIn_of_madeFrom {fullDescriptor : List Byte} {ep : InterruptEndpoint}
    (h : MadeFrom fullDescriptor ep) : DescribedIn fullDescriptor ep.info := by
  obtain ⟨n, configuration, device, info, index, c, shared, r, hparse, hc, hstart, -, hr, hep⟩ := h
  have hall := (Configuring.allInfos_start hc hstart (describedIn_of_fromDescriptor hparse)).run shared
  refine hall.made ep ?_
  rw [Configuring.interruptEndpoints, interruptEndpointsOf_append]
  exact List.mem_append_left _ (Configuring.mem_interruptEndpoints_of_result hr hep)

/-- **When an interval is sound**: an interrupt endpoint made of the bytes of a device has the bInterval of
an endpoint descriptor in them, and its arithmetic is sound exactly if that byte is 1 to 16. -/
theorem intervalSound_iff_of_madeFrom {fullDescriptor : List Byte} {ep : InterruptEndpoint}
    (h : MadeFrom fullDescriptor ep) :
    ∃ position c d, CommonDescriptor.at fullDescriptor position = some c ∧
      c.bDescriptorType = DescriptorType.endpoint.toU8 ∧
      EndpointDescriptor.at fullDescriptor position = some d ∧ ep.info = d.info ∧
      (ep.IntervalSound ↔ 1 ≤ d.bInterval.toNat ∧ d.bInterval.toNat ≤ 16) := by
  obtain ⟨position, c, d, hc, htype, hat, hinfo⟩ := describedIn_of_madeFrom h
  refine ⟨position, c, d, hc, htype, hat, hinfo, ?_⟩
  rw [InterruptEndpoint.intervalSound_iff, hinfo]
  rfl

/-- The configuration of a keyboard with the given bInterval: one interface with one interrupt endpoint. -/
def keyboardBytes (bInterval : Byte) : List Byte :=
  [9, 2, 25, 0, 1, 1, 0, 0xa0, 50, 9, 4, 0, 0, 1, 3, 1, 1, 0, 7, 5, 0x81, 3, 8, 0, bInterval]

/-- The endpoint that `set_configuration` makes of it. -/
def keyboardEndpoint (bInterval : Byte) : InterruptEndpoint :=
  ⟨1, 0, ⟨⟨0x81⟩, ⟨3⟩, ⟨8⟩, bInterval⟩, .lower4G⟩

theorem madeFrom_keyboard (bInterval : Byte) :
    MadeFrom (keyboardBytes bInterval) (keyboardEndpoint bInterval) := by
  refine ⟨5, ⟨1, 0xa0, 50, [⟨0, 0, 3, 1, 1, [⟨⟨0x81⟩, ⟨3⟩, ⟨8⟩, bInterval⟩]⟩]⟩, ⟨1, 0, .lower4G, 0⟩,
    ⟨0, [⟨1, 0xa0, 50, [⟨0, 0, 3, 1, 1, [⟨⟨0x81⟩, ⟨3⟩, ⟨8⟩, bInterval⟩]⟩]⟩]⟩, 0, _, [0, 0], _, rfl, rfl, rfl,
    rfl, rfl, ?_⟩
  exact List.mem_singleton.mpr rfl

/-- A keyboard that is polled every 8 ms. -/
theorem intervalSound_iff_of_madeFrom_keyboard :
    MadeFrom (keyboardBytes 7) (keyboardEndpoint 7) ∧
    ∃ position c d, CommonDescriptor.at (keyboardBytes 7) position = some c ∧
      c.bDescriptorType = DescriptorType.endpoint.toU8 ∧
      EndpointDescriptor.at (keyboardBytes 7) position = some d ∧ (keyboardEndpoint 7).info = d.info ∧
      ((keyboardEndpoint 7).IntervalSound ↔ 1 ≤ d.bInterval.toNat ∧ d.bInterval.toNat ≤ 16) :=
  ⟨madeFrom_keyboard 7, intervalSound_iff_of_madeFrom (madeFrom_keyboard 7)⟩

/-- The bInterval is 0: `interval - 1` underflows. -/
theorem not_intervalSound_zero :
    ¬ ∀ fullDescriptor ep, MadeFrom fullDescriptor ep → ep.IntervalSound := by
  intro h
  obtain ⟨⟨d, hd⟩, -⟩ := h _ _ (madeFrom_keyboard 0) .on
  cases hd

end EzEhci
