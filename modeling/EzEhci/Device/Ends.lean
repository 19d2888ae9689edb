import EzEhci.Lib.Chain
import EzEhci.Device.Parse

/-!
# When parsing ends

Both loops of `from_descriptor` step from a descriptor to the next one by its
length byte, so the descriptors they look at are at the offsets that follow
each other by the lengths in the bytes (`descriptorAt`), and what is missing at
each of them is a count over the types before it (`missingAt`). The offsets grow
up to the first descriptor of length zero and stay there. Parsing ends exactly
if what is missing there is nothing, or what that descriptor itself is enough
for (`ZeroLengthSettled`).
-/

namespace EzEhci

open Lib

/-! ## The descriptors in the bytes -/

/-- What is still to be found: interfaces of the configuration, and endpoints of the last interface. -/
structure Missing where
  interfaces : Nat
  endpoints : Nat
  deriving DecidableEq, Repr

def Missing.wanted (m : Missing) : Option DescriptorType :=
  if 0 < m.endpoints then some .endpoint
  else if 0 < m.interfaces then some .interface
  else none

section Bytes

variable (fullDescriptor : List Byte)

/-- The offset behind the descriptor at an offset. -/
def nextDescriptor (position : Nat) : Option Nat :=
  (CommonDescriptor.at fullDescriptor position).map fun d => position + d.bLength.toNat

/-- The offset of the `k`-th descriptor behind the configuration descriptor. -/
def descriptorAt (k : Nat) : Option Nat := chainAt (nextDescriptor fullDescriptor) (some 9) k

/-- What is missing behind a descriptor; `none` if it is looked for and the bytes end in it. -/
def Missing.behind (m : Missing) (position : Nat) (d : CommonDescriptor) : Option Missing :=
  match m.wanted with
  | some .endpoint =>
    if d.bDescriptorType = DescriptorType.endpoint.toU8 then
      (EndpointDescriptor.at fullDescriptor position).map fun _ => ⟨m.interfaces, m.endpoints - 1⟩
    else some m
  | some .interface =>
    if d.bDescriptorType = DescriptorType.interface.toU8 then
      (InterfaceDescriptor.at fullDescriptor position).map fun i =>
        ⟨m.interfaces - 1, i.bNumEndpoints.toNat⟩
    else some m
  | none => some m

/-- What is missing at the `k`-th descriptor. -/
def missingAt (configuration : ConfigurationDescriptor) : Nat → Option Missing
  | 0 => some ⟨configuration.bNumInterfaces.toNat, 0⟩
  | k + 1 => do
    let m ← missingAt configuration k
    let position ← descriptorAt fullDescriptor k
    let d ← CommonDescriptor.at fullDescriptor position
    m.behind fullDescriptor position d

/-- A descriptor, taken as often as it is looked for, leaves nothing missing, or the bytes end in it. -/
def Missing.SettledBy (m : Missing) (position : Nat) (d : CommonDescriptor) : Prop :=
  match m.wanted with
  | some .endpoint => d.bDescriptorType = DescriptorType.endpoint.toU8 ∧
      (m.interfaces = 0 ∨ EndpointDescriptor.at fullDescriptor position = none)
  | some .interface => d.bDescriptorType = DescriptorType.interface.toU8 ∧
      ∀ i, InterfaceDescriptor.at fullDescriptor position = some i → i.bNumEndpoints = 0
  | none => True

/-- If the descriptors come to one of length zero, it settles what the ones before it left missing. -/
def ZeroLengthSettled : Prop :=
  ∀ configuration, ConfigurationDescriptor.at fullDescriptor 0 = some configuration →
    ∀ k position d m, descriptorAt fullDescriptor k = some position →
      (∀ j < k, descriptorAt fullDescriptor j ≠ some position) →
      CommonDescriptor.at fullDescriptor position = some d → d.bLength = 0 →
      missingAt fullDescriptor configuration k = some m → m.SettledBy fullDescriptor position d

end Bytes

section Chain

variable {fullDescriptor : List Byte} {configuration : ConfigurationDescriptor} {m m' : Missing}
  {k position : Nat} {d : CommonDescriptor}

theorem descriptorAt_succ (h : descriptorAt fullDescriptor k = some position)
    (hd : CommonDescriptor.at fullDescriptor position = some d) :
    descriptorAt fullDescriptor (k + 1) = some (position + d.bLength.toNat) := by
  unfold descriptorAt at h ⊢
  rw [chainAt_add, h, chainAt, Option.bind_some, nextDescriptor, hd]
  rfl

theorem missingAt_succ (hm : missingAt fullDescriptor configuration k = some m)
    (h : descriptorAt fullDescriptor k = some position)
    (hd : CommonDescriptor.at fullDescriptor position = some d) :
    missingAt fullDescriptor configuration (k + 1) = m.behind fullDescriptor position d := by
  simp only [missingAt, hm, h, hd, Option.bind_eq_bind, Option.bind_some]

theorem missingAt_of_succ (h : missingAt fullDescriptor configuration (k + 1) = some m') :
    ∃ m position d, missingAt fullDescriptor configuration k = some m ∧
      descriptorAt fullDescriptor k = some position ∧
      CommonDescriptor.at fullDescriptor position = some d ∧ m.behind fullDescriptor position d = some m' := by
  obtain ⟨m, hm, h⟩ := Option.bind_eq_some_iff.mp h
  obtain ⟨position, hpos, h⟩ := Option.bind_eq_some_iff.mp h
  obtain ⟨d, hd, h⟩ := Option.bind_eq_some_iff.mp h
  exact ⟨m, position, d, hm, hpos, hd, h⟩

theorem Missing.behind_endpoint (hw : m.wanted = some .endpoint)
    (ht : d.bDescriptorType = DescriptorType.endpoint.toU8) :
    m.behind fullDescriptor position d =
      (EndpointDescriptor.at fullDescriptor position).map fun _ => ⟨m.interfaces, m.endpoints - 1⟩ := by
  simp only [Missing.behind, hw, if_pos ht]

theorem Missing.behind_interface (hw : m.wanted = some .interface)
    (ht : d.bDescriptorType = DescriptorType.interface.toU8) :
    m.behind fullDescriptor position d = (InterfaceDescriptor.at fullDescriptor position).map fun i =>
      ⟨m.interfaces - 1, i.bNumEndpoints.toNat⟩ := by
  simp only [Missing.behind, hw, if_pos ht]

theorem Missing.behind_other {w : DescriptorType} (hw : m.wanted = some w)
    (ht : d.bDescriptorType ≠ w.toU8) : m.behind fullDescriptor position d = some m := by
  cases w <;> simp only [Missing.behind, hw, if_neg ht]

theorem Missing.behind_none (hw : m.wanted = none) : m.behind fullDescriptor position d = some m := by
  simp only [Missing.behind, hw]

theorem descriptorAt_zero (h : descriptorAt fullDescriptor k = some position)
    (hd : CommonDescriptor.at fullDescriptor position = some d) (hz : d.bLength = 0) (j : Nat) :
    descriptorAt fullDescriptor (k + j) = some position := by
  induction j with
  | zero => exact h
  | succ j ih =>
    have hnext := descriptorAt_succ ih hd
    rwa [hz] at hnext

theorem Missing.wanted_endpoint : m.wanted = some .endpoint ↔ 0 < m.endpoints := by
  unfold Missing.wanted
  split
  · simpa
  · split <;> simp <;> omega

theorem Missing.wanted_interface : m.wanted = some .interface ↔ m.endpoints = 0 ∧ 0 < m.interfaces := by
  unfold Missing.wanted
  split
  · simp
    omega
  · split <;> simp <;> omega

theorem Missing.wanted_none : m.wanted = none ↔ m.endpoints = 0 ∧ m.interfaces = 0 := by
  unfold Missing.wanted
  split
  · simp
    omega
  · split <;> simp <;> omega

theorem Missing.settledBy_type {w : DescriptorType} (h : m.SettledBy fullDescriptor position d)
    (hw : m.wanted = some w) : d.bDescriptorType = w.toU8 := by
  unfold Missing.SettledBy at h
  rw [hw] at h
  cases w with
  | interface => exact h.1
  | endpoint => exact h.1

theorem Missing.settledBy_of_none (hw : m.wanted = none) : m.SettledBy fullDescriptor position d := by
  unfold Missing.SettledBy
  rw [hw]
  trivial

theorem Missing.settledBy_endpoint (hw : m.wanted = some .endpoint)
    (ht : d.bDescriptorType = DescriptorType.endpoint.toU8) :
    m.SettledBy fullDescriptor position d ↔
      m.interfaces = 0 ∨ EndpointDescriptor.at fullDescriptor position = none := by
  unfold Missing.SettledBy
  rw [hw]
  exact and_iff_right ht

theorem Missing.settledBy_interface (hw : m.wanted = some .interface)
    (ht : d.bDescriptorType = DescriptorType.interface.toU8) :
    m.SettledBy fullDescriptor position d ↔
      ∀ i, InterfaceDescriptor.at fullDescriptor position = some i → i.bNumEndpoints = 0 := by
  unfold Missing.SettledBy
  rw [hw]
  exact and_iff_right ht

theorem DescriptorType.toU8_inj {w w' : DescriptorType} (h : w.toU8 = w'.toU8) : w = w' := by
  revert h
  cases w <;> cases w' <;> decide

/-- Taking a descriptor once does not change whether it settles what is missing. -/
theorem Missing.settledBy_behind (h : m.behind fullDescriptor position d = some m') :
    m'.SettledBy fullDescriptor position d ↔ m.SettledBy fullDescriptor position d := by
  cases hw : m.wanted with
  | none =>
    rw [Missing.behind_none hw] at h
    cases h
    rfl
  | some w =>
    by_cases ht : d.bDescriptorType = w.toU8
    · cases w with
      | endpoint =>
        rw [Missing.behind_endpoint hw ht] at h
        obtain ⟨e, he, rfl⟩ := Option.map_eq_some_iff.mp h
        rw [Missing.settledBy_endpoint hw ht, he]
        cases hw' : (Missing.mk m.interfaces (m.endpoints - 1)).wanted with
        | none =>
          exact iff_of_true (Missing.settledBy_of_none hw') (.inl (Missing.wanted_none.mp hw').2)
        | some w' =>
          cases w' with
          | endpoint => rw [Missing.settledBy_endpoint hw' ht, he]
          | interface =>
            refine iff_of_false (fun hs => ?_) ?_
            · cases DescriptorType.toU8_inj (ht.symm.trans (Missing.settledBy_type hs hw'))
            · rintro (hi | hi)
              · exact absurd hi (Nat.pos_iff_ne_zero.mp (Missing.wanted_interface.mp hw').2)
              · cases hi
      | interface =>
        rw [Missing.behind_interface hw ht] at h
        obtain ⟨i, hi, rfl⟩ := Option.map_eq_some_iff.mp h
        rw [Missing.settledBy_interface hw ht]
        cases hw' : (Missing.mk (m.interfaces - 1) i.bNumEndpoints.toNat).wanted with
        | none =>
          refine iff_of_true (Missing.settledBy_of_none hw') fun i' hi' => ?_
          cases hi.symm.trans hi'
          exact BitVec.eq_of_toNat_eq (Missing.wanted_none.mp hw').1
        | some w' =>
          cases w' with
          | endpoint =>
            refine iff_of_false (fun hs => ?_) fun hs => ?_
            · cases DescriptorType.toU8_inj (ht.symm.trans (Missing.settledBy_type hs hw'))
            · have hpos := Missing.wanted_endpoint.mp hw'
              rw [hs i hi] at hpos
              exact lt_irrefl 0 hpos
          | interface => rw [Missing.settledBy_interface hw' ht]
    · rw [Missing.behind_other hw ht] at h
      cases h
      rfl

/-- What is missing is not settled by a descriptor of length zero: a loop comes to look for another
type there. -/
theorem stuck_of_not_settled (h : descriptorAt fullDescriptor k = some position)
    (hd : CommonDescriptor.at fullDescriptor position = some d) (hz : d.bLength = 0)
    (hm : missingAt fullDescriptor configuration k = some m) (hs : ¬ m.SettledBy fullDescriptor position d) :
    ∃ k' m' w, descriptorAt fullDescriptor k' = some position ∧
      missingAt fullDescriptor configuration k' = some m' ∧ m'.wanted = some w ∧
      d.bDescriptorType ≠ w.toU8 := by
  -- an endpoint descriptor is taken as long as endpoints are missing, an interface descriptor once
  induction hn : m.endpoints using Nat.strongRecOn generalizing k m with
  | _ n ih =>
    cases hw : m.wanted with
    | none => exact absurd (Missing.settledBy_of_none hw) hs
    | some w =>
      by_cases ht : d.bDescriptorType = w.toU8
      swap
      · exact ⟨k, m, w, h, hm, hw, ht⟩
      have hk := descriptorAt_zero h hd hz 1
      have hm' := missingAt_succ hm h hd
      cases w with
      | endpoint =>
        have hun := (Missing.settledBy_endpoint hw ht).not.mp hs
        obtain ⟨e, he⟩ := Option.ne_none_iff_exists'.mp fun hnone => hun (.inr hnone)
        have hb : m.behind fullDescriptor position d = some ⟨m.interfaces, m.endpoints - 1⟩ := by
          rw [Missing.behind_endpoint hw ht, he, Option.map_some]
        have hpos := Missing.wanted_endpoint.mp hw
        exact ih (m.endpoints - 1) (by omega) hk (hm'.trans hb) ((Missing.settledBy_behind hb).not.mpr hs) rfl
      | interface =>
        rw [Missing.settledBy_interface hw ht] at hs
        push Not at hs
        obtain ⟨i, hi, hne⟩ := hs
        rw [Missing.behind_interface hw ht, hi, Option.map_some] at hm'
        have hw' : (Missing.mk (m.interfaces - 1) i.bNumEndpoints.toNat).wanted = some .endpoint :=
          Missing.wanted_endpoint.mpr (Nat.pos_of_ne_zero fun e => hne (BitVec.eq_of_toNat_eq e))
        refine ⟨k + 1, _, .endpoint, hk, hm', hw', fun ht' => ?_⟩
        cases DescriptorType.toU8_inj (ht.symm.trans ht')

theorem ZeroLengthSettled.settled (h : ZeroLengthSettled fullDescriptor)
    (hc : ConfigurationDescriptor.at fullDescriptor 0 = some configuration)
    (hpos : descriptorAt fullDescriptor k = some position)
    (hd : CommonDescriptor.at fullDescriptor position = some d) (hz : d.bLength = 0)
    (hm : missingAt fullDescriptor configuration k = some m) : m.SettledBy fullDescriptor position d := by
  induction k generalizing m with
  | zero => exact h configuration hc 0 position d m hpos (fun j hj => absurd hj (Nat.not_lt_zero j)) hd hz hm
  | succ k ih =>
    by_cases hk : descriptorAt fullDescriptor k = some position
    · obtain ⟨m₀, position₀, d₀, hm₀, hpos₀, hd₀, hb⟩ := missingAt_of_succ hm
      cases hpos₀.symm.trans hk
      cases hd₀.symm.trans hd
      exact (Missing.settledBy_behind hb).mpr (ih hk hm₀)
    · refine h configuration hc (k + 1) position d m hpos (fun j hj hj' => hk ?_) hd hz hm
      have hle : j + (k - j) = k := by omega
      rw [← hle]
      exact descriptorAt_zero hj' hd hz (k - j)

end Chain

/-! ## The parser on the descriptors -/

section Parser

variable {fullDescriptor : List Byte} {configuration : ConfigurationDescriptor} {s s' : ParseState}
  {k : Nat} {w : DescriptorType} {d : CommonDescriptor}

/-- What the counters of the loops leave missing. -/
def ParseState.missing (configuration : ConfigurationDescriptor) (s : ParseState) : Missing :=
  match s.inner with
  | none => ⟨configuration.bNumInterfaces.toNat - s.interfaceIndex, 0⟩
  | some l => ⟨configuration.bNumInterfaces.toNat - (s.interfaceIndex + 1),
      l.interfaceDescriptor.bNumEndpoints.toNat - l.endpointIndex⟩

/-- A loop that looks for a descriptor of the type is about to run its body. -/
def ParseState.LooksFor (configuration : ConfigurationDescriptor) (s : ParseState) :
    DescriptorType → Prop
  | .interface => s.inner = none ∧ s.interfaceIndex < configuration.bNumInterfaces.toNat
  | .endpoint => ∃ l, s.inner = some l ∧ l.endpointIndex < l.interfaceDescriptor.bNumEndpoints.toNat

/-- The parser is at the `k`-th descriptor and misses what is missing there. -/
structure ParseState.IsAt (fullDescriptor : List Byte) (configuration : ConfigurationDescriptor)
    (s : ParseState) (k : Nat) : Prop where
  position : descriptorAt fullDescriptor k = some s.position
  missing : missingAt fullDescriptor configuration k = some (s.missing configuration)

theorem ParseState.LooksFor.wanted (h : s.LooksFor configuration w) :
    (s.missing configuration).wanted = some w := by
  cases w with
  | interface =>
    obtain ⟨hin, hidx⟩ := h
    rw [Missing.wanted_interface, ParseState.missing, hin]
    exact ⟨rfl, Nat.sub_pos_of_lt hidx⟩
  | endpoint =>
    obtain ⟨l, hin, hidx⟩ := h
    rw [Missing.wanted_endpoint, ParseState.missing, hin]
    exact Nat.sub_pos_of_lt hidx

theorem ParseState.LooksFor.skips (h : s.LooksFor configuration w)
    (hd : CommonDescriptor.at fullDescriptor s.position = some d) (ht : d.bDescriptorType ≠ w.toU8) :
    parseStep fullDescriptor configuration s =
      .next { s with position := s.position + d.bLength.toNat } := by
  cases w with
  | interface =>
    obtain ⟨hin, hidx⟩ := h
    simp only [parseStep, hin, interfaceStep, if_pos hidx, hd, if_neg ht]
  | endpoint =>
    obtain ⟨l, hin, hidx⟩ := h
    simp only [parseStep, hin, endpointStep, if_pos hidx, hd, if_neg ht]

theorem ParseState.LooksFor.step (h : s.LooksFor configuration w)
    (hd : CommonDescriptor.at fullDescriptor s.position = some d) {m : Missing}
    (hm : (s.missing configuration).behind fullDescriptor s.position d = some m) :
    ∃ s', parseStep fullDescriptor configuration s = .next s' ∧
      s'.position = s.position + d.bLength.toNat ∧ s'.missing configuration = m := by
  by_cases ht : d.bDescriptorType = w.toU8
  · cases w with
    | interface =>
      rw [Missing.behind_interface h.wanted ht] at hm
      obtain ⟨hin, hidx⟩ := h
      obtain ⟨i, hi, rfl⟩ := Option.map_eq_some_iff.mp hm
      refine ⟨{ s with position := s.position + d.bLength.toNat, inner := some ⟨i, [], 0⟩ }, ?_, rfl, ?_⟩
      · simp only [parseStep, hin, interfaceStep, if_pos hidx, hd, if_pos ht, hi]
      · simp only [ParseState.missing, hin, Nat.sub_sub, Nat.sub_zero]
    | endpoint =>
      rw [Missing.behind_endpoint h.wanted ht] at hm
      obtain ⟨l, hin, hidx⟩ := h
      obtain ⟨e, he, rfl⟩ := Option.map_eq_some_iff.mp hm
      refine ⟨{ s with
        position := s.position + d.bLength.toNat
        inner := some { l with
          endpoints := l.endpoints ++ [e.info], endpointIndex := l.endpointIndex + 1 } }, ?_, rfl, ?_⟩
      · simp only [parseStep, hin, endpointStep, if_pos hidx, hd, if_pos ht, he]
      · simp only [ParseState.missing, hin, Nat.sub_sub]
  · rw [Missing.behind_other h.wanted ht] at hm
    cases hm
    exact ⟨_, h.skips hd ht, rfl, rfl⟩

/-- A loop that does not find what it looks for at a descriptor of length zero stays as it is. -/
theorem ParseState.LooksFor.stalls (h : s.LooksFor configuration w)
    (hd : CommonDescriptor.at fullDescriptor s.position = some d) (hz : d.bLength = 0)
    (ht : d.bDescriptorType ≠ w.toU8) : parseStep fullDescriptor configuration s = .next s := by
  rw [h.skips hd ht, hz]
  rfl

/-- What an iteration does that goes on: a loop steps to the next descriptor, or the inner loop ends. -/
theorem parseStep_next (h : parseStep fullDescriptor configuration s = .next s') :
    (∃ w d, s.LooksFor configuration w ∧ CommonDescriptor.at fullDescriptor s.position = some d ∧
      (s.missing configuration).behind fullDescriptor s.position d = some (s'.missing configuration) ∧
      s'.position = s.position + d.bLength.toNat) ∨
    s.inner.isSome ∧ s'.inner = none ∧ s'.position = s.position ∧
      s'.missing configuration = s.missing configuration := by
  unfold parseStep at h
  split at h
  next hin =>
    obtain ⟨hidx, d, hd, hcase⟩ := interfaceStep_next h
    have hl : s.LooksFor configuration .interface := ⟨hin, hidx⟩
    refine .inl ⟨.interface, d, hl, hd, ?_⟩
    obtain ⟨i, hi, ht, rfl⟩ | ⟨ht, rfl⟩ := hcase
    · rw [Missing.behind_interface hl.wanted ht, hi]
      simp only [ParseState.missing, hin, Option.map_some, Nat.sub_sub, Nat.sub_zero, and_self]
    · exact ⟨Missing.behind_other hl.wanted ht, rfl⟩
  next l hin =>
    obtain ⟨hidx, d, hd, hcase⟩ | ⟨hidx, rfl⟩ := endpointStep_next h
    · have hl : s.LooksFor configuration .endpoint := ⟨l, hin, hidx⟩
      refine .inl ⟨.endpoint, d, hl, hd, ?_⟩
      obtain ⟨e, he, ht, rfl⟩ | ⟨ht, rfl⟩ := hcase
      · rw [Missing.behind_endpoint hl.wanted ht, he]
        simp only [ParseState.missing, hin, Option.map_some, Nat.sub_sub, and_self]
      · exact ⟨Missing.behind_other hl.wanted ht, rfl⟩
    · refine .inr ⟨by rw [hin]; rfl, rfl, rfl, ?_⟩
      simp only [ParseState.missing, hin, Nat.sub_eq_zero_of_le hidx]

theorem isAt_of_steps (h : Steps (parseStep fullDescriptor configuration) .start s) :
    ∃ k, s.IsAt fullDescriptor configuration k := by
  induction h with
  | refl => exact ⟨0, rfl, rfl⟩
  | tail _ hstep ih =>
    obtain ⟨k, hk⟩ := ih
    obtain ⟨w, d, -, hd, hb, hpos⟩ | ⟨-, -, hpos, hm⟩ := parseStep_next hstep
    · refine ⟨k + 1, ?_, ?_⟩
      · rw [descriptorAt_succ hk.position hd, hpos]
      · rw [missingAt_succ hk.missing hk.position hd, hb]
    · exact ⟨k, by rw [hpos]; exact hk.position, by rw [hm]; exact hk.missing⟩

/-- A parser that misses something comes to look for it at the same descriptor. -/
theorem ParseState.IsAt.looks (h : s.IsAt fullDescriptor configuration k)
    (hw : (s.missing configuration).wanted = some w) :
    ∃ s', Steps (parseStep fullDescriptor configuration) s s' ∧ s'.IsAt fullDescriptor configuration k ∧
      s'.missing configuration = s.missing configuration ∧ s'.LooksFor configuration w := by
  cases hin : s.inner with
  | none =>
    have hm : s.missing configuration =
        ⟨configuration.bNumInterfaces.toNat - s.interfaceIndex, 0⟩ := by
      simp only [ParseState.missing, hin]
    refine ⟨s, .refl, h, rfl, ?_⟩
    rw [hm] at hw
    cases w with
    | interface => exact ⟨hin, Nat.lt_of_sub_pos (Missing.wanted_interface.mp hw).2⟩
    | endpoint => exact absurd (Missing.wanted_endpoint.mp hw) (lt_irrefl 0)
  | some l =>
    have hm : s.missing configuration = ⟨configuration.bNumInterfaces.toNat - (s.interfaceIndex + 1),
        l.interfaceDescriptor.bNumEndpoints.toNat - l.endpointIndex⟩ := by
      simp only [ParseState.missing, hin]
    by_cases hidx : l.endpointIndex < l.interfaceDescriptor.bNumEndpoints.toNat
    · have hl : s.LooksFor configuration .endpoint := ⟨l, hin, hidx⟩
      obtain rfl : w = .endpoint := Option.some.inj (hw.symm.trans hl.wanted)
      exact ⟨s, .refl, h, rfl, hl⟩
    · -- the inner loop ends first
      have hdone := Nat.sub_eq_zero_of_le (Nat.le_of_not_lt hidx)
      let s' : ParseState := { s with
        interfaces := s.interfaces ++ [l.interfaceDescriptor.info l.endpoints]
        interfaceIndex := s.interfaceIndex + 1
        inner := none }
      have hstep : parseStep fullDescriptor configuration s = .next s' := by
        simp only [parseStep, hin, endpointStep, if_neg hidx]
        rfl
      have hm' : s'.missing configuration = s.missing configuration := by
        rw [hm, hdone]
        rfl
      refine ⟨s', .single hstep, ⟨h.position, by rw [hm']; exact h.missing⟩, hm', ?_⟩
      rw [hm, hdone] at hw
      cases w with
      | interface => exact ⟨rfl, Nat.lt_of_sub_pos (Missing.wanted_interface.mp hw).2⟩
      | endpoint => exact absurd (Missing.wanted_endpoint.mp hw) (lt_irrefl 0)

/-- The parser comes to every descriptor at which something is missing. -/
theorem exists_looks {m : Missing} {position : Nat} (hpos : descriptorAt fullDescriptor k = some position)
    (hm : missingAt fullDescriptor configuration k = some m) (hw : m.wanted = some w) :
    ∃ s, Steps (parseStep fullDescriptor configuration) .start s ∧ s.position = position ∧
      s.LooksFor configuration w := by
  suffices h : ∃ s, Steps (parseStep fullDescriptor configuration) .start s ∧
      s.IsAt fullDescriptor configuration k by
    obtain ⟨s, hs, hat⟩ := h
    cases hat.missing.symm.trans hm
    obtain ⟨s', hs', hat', -, hl⟩ := hat.looks hw
    exact ⟨s', hs.trans hs', Option.some.inj (hat'.position.symm.trans hpos), hl⟩
  induction k generalizing m w position with
  | zero => exact ⟨.start, .refl, rfl, rfl⟩
  | succ k ih =>
    obtain ⟨m₀, position₀, d, hm₀, hpos₀, hd, hb⟩ := missingAt_of_succ hm
    cases hw₀ : m₀.wanted with
    | none =>
      -- nothing was missing before, so nothing is now
      rw [Missing.behind_none hw₀] at hb
      cases hb
      cases hw₀.symm.trans hw
    | some w₀ =>
      obtain ⟨s, hs, hat⟩ := ih hpos₀ hm₀ hw₀
      cases hat.missing.symm.trans hm₀
      obtain ⟨s', hs', hat', hmiss, hl⟩ := hat.looks hw₀
      cases hat'.position.symm.trans hpos₀
      rw [← hmiss] at hb
      obtain ⟨t, ht, hpos', hm'⟩ := hl.step hd hb
      refine ⟨t, (hs.trans hs').tail ht, ?_, ?_⟩
      · rw [descriptorAt_succ hat'.position hd, hpos']
      · rw [hm, hm']

/-- A loop stands on a descriptor of length zero that it does not look for. -/
def Stalled (fullDescriptor : List Byte) (configuration : ConfigurationDescriptor) (s : ParseState) :
    Prop :=
  ∃ w d, s.LooksFor configuration w ∧ CommonDescriptor.at fullDescriptor s.position = some d ∧
    d.bLength = 0 ∧ d.bDescriptorType ≠ w.toU8

/-- What is left to do: bytes to step over, descriptors to find, the inner loop to end. -/
def workLeft (fullDescriptor : List Byte) (configuration : ConfigurationDescriptor) (s : ParseState) : Nat :=
  (fullDescriptor.length - s.position) * 2 + (s.missing configuration).interfaces * 1000 +
    (s.missing configuration).endpoints * 2 + s.inner.isSome.toNat

/-- Every iteration makes progress unless it is stalled. -/
theorem workLeft_lt (hstall : ¬ Stalled fullDescriptor configuration s)
    (h : parseStep fullDescriptor configuration s = .next s') :
    workLeft fullDescriptor configuration s' < workLeft fullDescriptor configuration s := by
  have hinner := Bool.toNat_le s'.inner.isSome
  unfold workLeft
  obtain ⟨w, d, hl, hd, hb, hpos⟩ | ⟨hin, hin', hpos, hm⟩ := parseStep_next h
  · by_cases ht : d.bDescriptorType = w.toU8
    · cases w with
      | interface =>
        rw [Missing.behind_interface hl.wanted ht] at hb
        obtain ⟨i, -, hm⟩ := Option.map_eq_some_iff.mp hb
        have hlt := (Missing.wanted_interface.mp hl.wanted).2
        have hnum := i.bNumEndpoints.isLt
        rw [← hm, hpos]
        dsimp only
        omega
      | endpoint =>
        rw [Missing.behind_endpoint hl.wanted ht] at hb
        obtain ⟨e, -, hm⟩ := Option.map_eq_some_iff.mp hb
        have hlt := Missing.wanted_endpoint.mp hl.wanted
        rw [← hm, hpos]
        dsimp only
        omega
    · rw [Missing.behind_other hl.wanted ht, Option.some.injEq] at hb
      have hlen : 0 < d.bLength.toNat :=
        Nat.pos_of_ne_zero fun e => hstall ⟨w, d, hl, hd, BitVec.eq_of_toNat_eq e, ht⟩
      have hle := CommonDescriptor.at_le hd
      rw [← hb, hpos]
      omega
  · rw [hpos, hm, hin, hin']
    exact Nat.lt_succ_self _

end Parser

/-- **When parsing ends**: exactly if the first descriptor of length zero settles what the descriptors
before it left missing. -/
theorem parseEnds_iff (fullDescriptor : List Byte) :
    ParseEnds fullDescriptor ↔ ZeroLengthSettled fullDescriptor := by
  unfold ParseEnds ConfigurationInfo.fromDescriptor
  constructor
  · rintro ⟨n, r, h⟩ configuration hc k position d m hpos - hd hz hm
    simp only [hc] at h
    by_contra hs
    obtain ⟨k', m', w, hpos', hm', hw, ht⟩ := stuck_of_not_settled hpos hd hz hm hs
    obtain ⟨s, hreach, rfl, hl⟩ := exists_looks hpos' hm' hw
    rw [iterate_of_stalled hreach (hl.stalls hd hz ht)] at h
    cases h
  · intro h
    cases hc : ConfigurationDescriptor.at fullDescriptor 0 with
    | none => exact ⟨0, _, rfl⟩
    | some configuration =>
      refine iterate_of_measure (workLeft fullDescriptor configuration) fun t t' ht hs =>
        workLeft_lt (fun ⟨w, d, hl, hd, hz, hne⟩ => ?_) hs
      obtain ⟨k, hk⟩ := isAt_of_steps ht
      exact hne (Missing.settledBy_type
        (h.settled hc hk.position hd hz hk.missing) hl.wanted)

/-- One interface is announced, and behind the configuration descriptor there are two zero bytes. -/
theorem not_parseEnds_zero_length : ¬ ∀ fullDescriptor, ParseEnds fullDescriptor := by
  intro h
  obtain ⟨n, r, hr⟩ := h [9, 2, 11, 0, 1, 1, 0, 0x80, 50, 0, 0]
  have hl : ParseState.start.LooksFor ⟨9, 2, 11, 1, 1, 0, 0x80, 50⟩ .interface := ⟨rfl, by decide⟩
  have hnone : ConfigurationInfo.fromDescriptor [9, 2, 11, 0, 1, 1, 0, 0x80, 50, 0, 0] n = none :=
    iterate_of_stalled .refl (hl.stalls (d := ⟨0, 0⟩) (by decide) (by decide) (by decide)) n
  rw [hnone] at hr
  cases hr

end EzEhci
