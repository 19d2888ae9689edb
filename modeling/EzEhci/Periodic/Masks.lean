import EzEhci.Lib.Run
import EzEhci.Endpoint.Interrupt
import EzEhci.Periodic.Schedule

/-!
# The micro-frame masks of interrupt endpoints

The capabilities word of a queue head has two masks of micro-frames. The
interrupt schedule mask selects the micro-frames in which the controller
executes the queue head; the split completion mask belongs to split
transactions, which a high-speed endpoint does not have. `watch` writes both,
with the schedule mask of an interval of a frame or more, and `add_qh` is to
refine it for shorter ones. It writes the refined mask to the other field.

`MaskWorld` has any number of `watch` calls, whose requests are served in any
order.
-/

namespace EzEhci

open Lib

/-- A `watch` that has asked for a place in the periodic list. -/
structure Watching where
  ep : InterruptEndpoint
  res : WatchInterruptResources
  interval : NormalizedInterval
  /-- The request was served by `add_qh`. -/
  added : Bool
  deriving DecidableEq

namespace Watching

def ptr (c : Watching) : Ptr := c.res.qh.ptr

def power (c : Watching) : Nat := min (c.ep.info.interval.toNat - 1) 13

/-- The micro-frames in which an endpoint of this interval is to be polled. -/
def Due (c : Watching) (u : Nat) : Prop := 2 ^ min c.power 3 ∣ u

instance (c : Watching) (u : Nat) : Decidable (c.Due u) := inferInstanceAs (Decidable (_ ∣ _))

end Watching

/-- The periodic list and the calls of `watch`. -/
structure MaskWorld where
  periodic : PeriodicState
  calls : List Watching

inductive MaskStep where
  | watch (ep : InterruptEndpoint) (res : WatchInterruptResources)
  | serve (i : Nat)
  | arm (i : Nat)
  deriving DecidableEq, Repr

namespace MaskWorld

variable (oc : OverflowChecks)

def writeQh (s : MaskWorld) (p : Ptr) (qh : Qh) : MaskWorld :=
  { s with periodic.heap := s.periodic.heap.modify p fun q => { q with qh } }

def capabilities (s : MaskWorld) (p : Ptr) : EndpointCapabilities :=
  (s.periodic.heap p).qh.endpointCapabilities

def step (s : MaskWorld) : MaskStep → Option MaskWorld
  | .watch ep res =>
    -- no two calls are given the same queue head
    if 1 ≤ ep.info.interval.toNat ∧ ep.info.interval.toNat ≤ 16 ∧
        res.qh.ptr ∉ s.calls.map Watching.ptr then
      (ep.prepareWatch oc res).map fun r => { s.writeQh res.qh.ptr r.1 with
        calls := s.calls ++ [⟨ep, res, r.2, false⟩] }
    else none
  | .serve i => s.calls[i]?.bind fun c =>
    if c.added then none
    else (PeriodicListManager.addQh s.periodic c.res.qh c.interval).map fun periodic =>
      ⟨periodic, s.calls.set i { c with added := true }⟩
  | .arm i => s.calls[i]?.bind fun c =>
    if c.added then
      (c.ep.armWatch oc c.res (s.periodic.heap c.ptr).qh).map fun r => s.writeQh c.ptr r.1
    else none

def start (heap : Heap QhWithMetaP) (seg : CtrlDsSegment) : MaskWorld :=
  ⟨⟨heap, .new .empty seg⟩, []⟩

end MaskWorld

/-- The schedule mask selects the micro-frames in which the endpoint is due, and the split
completion mask is unused. -/
structure MasksRight (c : Watching) (capabilities : EndpointCapabilities) : Prop where
  schedule : ∀ u < 8, capabilities.interruptScheduleMask.getLsbD u = true ↔ c.Due u
  split : capabilities.splitCompletionMask = 0

/-! ## What the driver writes -/

theorem haltedQh_masks (ep : InterruptEndpoint) :
    ep.haltedQh.endpointCapabilities.interruptScheduleMask = 1 ∧
      ep.haltedQh.endpointCapabilities.splitCompletionMask = 0 := by
  have h : ep.haltedQh.endpointCapabilities = ⟨0x40000001⟩ := by
    unfold InterruptEndpoint.haltedQh
    exact (by decide : ((((EndpointCapabilities.zero.withInterruptScheduleMask 1).withSplitCompletionMask
      0).withHubAddr 0).withPortNumber 0).withHighBandwidthPipeMultiplier 1 = ⟨0x40000001⟩)
  rw [h]
  decide

@[simp] theorem interruptScheduleMask_withSplitCompletionMask (c : EndpointCapabilities) (v : BitVec 8) :
    (c.withSplitCompletionMask v).interruptScheduleMask = c.interruptScheduleMask := by
  simp [EndpointCapabilities.interruptScheduleMask, EndpointCapabilities.withSplitCompletionMask,
    field_setField_of_disjoint]

@[simp] theorem splitCompletionMask_withSplitCompletionMask (c : EndpointCapabilities) (v : BitVec 8) :
    (c.withSplitCompletionMask v).splitCompletionMask = v := by
  simp [EndpointCapabilities.splitCompletionMask, EndpointCapabilities.withSplitCompletionMask]

namespace PeriodicListManager

section Capabilities

variable {heap : Heap QhWithMetaP} {p q : Ptr}

@[simp] theorem setLink_capabilities (v : QhHorizontalLinkPtr) :
    (setLink heap p v q).qh.endpointCapabilities = (heap q).qh.endpointCapabilities := by
  simp only [setLink, Heap.modify_apply]
  split <;> rfl

@[simp] theorem setNext_capabilities (v : Option Ptr) :
    (setNext heap p v q).qh.endpointCapabilities = (heap q).qh.endpointCapabilities := by
  simp only [setNext, Heap.modify_apply]
  split <;> rfl

@[simp] theorem setPrev_capabilities (v : Option Ptr) :
    (setPrev heap p v q).qh.endpointCapabilities = (heap q).qh.endpointCapabilities := by
  simp only [setPrev, Heap.modify_apply]
  split <;> rfl

theorem linkBehind_capabilities (qh existing : MappedMem) (offset : BitVec 32) :
    (linkBehind heap qh existing offset q).qh.endpointCapabilities =
      (heap q).qh.endpointCapabilities := by
  unfold linkBehind
  split <;> simp

theorem linkToNext_capabilities (qh : MappedMem) (next : Option (BitVec 32 × Ptr)) :
    (linkToNext heap qh next q).qh.endpointCapabilities = (heap q).qh.endpointCapabilities := by
  cases next with
  | none => simp [linkToNext]
  | some n => simp [linkToNext]

theorem prepareQh_capabilities (qh : MappedMem) (iv : NormalizedInterval) :
    (prepareQh heap qh iv q).qh.endpointCapabilities =
      if q = qh.ptr then (heap q).qh.endpointCapabilities.withSplitCompletionMask (sMask iv)
      else (heap q).qh.endpointCapabilities := by
  simp only [prepareQh, Heap.modify_apply]
  split <;> rfl

end Capabilities

section AddQh

variable {s s' : PeriodicState} {qh : MappedMem} {iv : NormalizedInterval}

theorem insertAfterExisting_capabilities {existing : MappedMem}
    (h : insertAfterExisting s qh iv existing = some s') (q : Ptr) :
    (s'.heap q).qh.endpointCapabilities = (s.heap q).qh.endpointCapabilities := by
  obtain ⟨offset, -, h⟩ := Option.bind_eq_some_iff.mp h
  cases h
  exact linkBehind_capabilities qh existing offset

theorem insertNewInterval_capabilities (h : insertNewInterval s qh iv = some s') (q : Ptr) :
    (s'.heap q).qh.endpointCapabilities = (s.heap q).qh.endpointCapabilities := by
  obtain ⟨next, -, h⟩ := Option.bind_eq_some_iff.mp h
  obtain ⟨offset, -, h⟩ := Option.bind_eq_some_iff.mp h
  split at h
  · cases h
    simp [linkToNext_capabilities]
  · cases h
    simp [linkToNext_capabilities]

/-- `add_qh` writes the split completion mask of the new queue head, and no other capabilities. -/
theorem addQh_capabilities (h : addQh s qh iv = some s') (q : Ptr) :
    (s'.heap q).qh.endpointCapabilities =
      if q = qh.ptr then (s.heap q).qh.endpointCapabilities.withSplitCompletionMask (sMask iv)
      else (s.heap q).qh.endpointCapabilities := by
  rw [← prepareQh_capabilities]
  unfold addQh at h
  dsimp only at h
  split at h
  · exact insertAfterExisting_capabilities h q
  · exact insertNewInterval_capabilities h q

end AddQh

/-- The mask `add_qh` computes selects every `2 ^ p`-th micro-frame. -/
theorem sMask_getLsbD (iv : NormalizedInterval) :
    ∀ u < 8, (sMask iv).getLsbD u = decide (2 ^ min iv.microFramesPower.toNat 3 ∣ u) := by
  unfold sMask
  generalize iv.microFramesPower.toNat = p
  rcases p with _ | _ | _ | p
  · decide
  · decide
  · decide
  · rw [Nat.min_eq_right (by omega)]
    exact (by decide : ∀ u < 8, (0b00000001 : BitVec 8).getLsbD u = decide (2 ^ 3 ∣ u))

end PeriodicListManager

theorem normalizedInterval_power {oc : OverflowChecks} {ep : InterruptEndpoint} {iv : NormalizedInterval}
    (h : ep.normalizedInterval oc = some iv) (h1 : 1 ≤ ep.info.interval.toNat)
    (h16 : ep.info.interval.toNat ≤ 16) :
    iv.microFramesPower.toNat = min (ep.info.interval.toNat - 1) 13 := by
  obtain ⟨iv', hiv, hpower⟩ := InterruptEndpoint.normalizedInterval_eq oc h1 h16
  rw [h] at hiv
  cases hiv
  exact hpower

/-! ## The masks in every state -/

namespace MaskWorld

/-- The queue heads of the calls are distinct; the schedule mask of each is the one `watch` wrote, and
the mask of an added one is in the other field. -/
structure Inv (s : MaskWorld) : Prop where
  distinct : (s.calls.map Watching.ptr).Nodup
  power : ∀ c ∈ s.calls, c.interval.microFramesPower.toNat = c.power
  schedule : ∀ c ∈ s.calls, (s.capabilities c.ptr).interruptScheduleMask = 1
  split : ∀ c ∈ s.calls, c.added = true →
    (s.capabilities c.ptr).splitCompletionMask = PeriodicListManager.sMask c.interval

section Steps

variable {oc : OverflowChecks} {s s' : MaskWorld}

theorem capabilities_writeQh (s : MaskWorld) (p q : Ptr) (qh : Qh) :
    (s.writeQh p qh).capabilities q =
      if q = p then qh.endpointCapabilities else s.capabilities q := by
  simp only [capabilities, writeQh, Heap.modify_apply]
  split <;> rfl

theorem Inv.watch (h : s.Inv) {ep : InterruptEndpoint} {res : WatchInterruptResources}
    (hs : s.step oc (.watch ep res) = some s') : s'.Inv := by
  obtain ⟨⟨h1, h16, hnew⟩, hs⟩ := Option.ite_none_right_eq_some.mp hs
  obtain ⟨⟨qh, iv⟩, hp, rfl⟩ := Option.map_eq_some_iff.mp hs
  have hqh : ep.normalizedInterval oc = some iv ∧ ep.haltedQh = qh := by
    unfold InterruptEndpoint.prepareWatch at hp
    split at hp
    · cases hp
    · split at hp
      · cases hp
      · obtain ⟨iv', hiv, heq⟩ := Option.map_eq_some_iff.mp hp
        cases heq
        exact ⟨hiv, rfl⟩
  obtain ⟨hiv, rfl⟩ := hqh
  -- an earlier call keeps the capabilities of its queue head
  have hkeep : ∀ c ∈ s.calls, (s.writeQh res.qh.ptr ep.haltedQh).capabilities c.ptr =
      s.capabilities c.ptr := by
    intro c hc
    rw [capabilities_writeQh, if_neg]
    exact fun heq => hnew (heq ▸ List.mem_map_of_mem hc)
  have hmem : ∀ {P : Watching → Prop}, (∀ c ∈ s.calls, P c) → P ⟨ep, res, iv, false⟩ →
      ∀ c ∈ s.calls ++ [⟨ep, res, iv, false⟩], P c := by
    intro P hP hlast c hc
    rcases List.mem_append.mp hc with hc | hc
    · exact hP c hc
    · rw [List.mem_singleton.mp hc]
      exact hlast
  refine ⟨?_, hmem h.power ?_, hmem (fun c hc => ?_) ?_, hmem (fun c hc => ?_) nofun⟩
  · rw [List.map_append, List.nodup_append]
    refine ⟨h.distinct, by simp, ?_⟩
    rintro p hp q hq rfl
    obtain rfl : p = res.qh.ptr := List.mem_singleton.mp hq
    exact hnew hp
  · exact normalizedInterval_power hiv h1 h16
  · exact (congrArg _ (hkeep c hc)).trans (h.schedule c hc)
  · have := capabilities_writeQh s res.qh.ptr res.qh.ptr ep.haltedQh
    rw [if_pos rfl] at this
    exact (congrArg _ this).trans (haltedQh_masks ep).1
  · exact fun ha => (congrArg _ (hkeep c hc)).trans (h.split c hc ha)

theorem map_ptr_set {l : List Watching} {i : Nat} {c c' : Watching} (hc : l[i]? = some c)
    (hptr : c'.ptr = c.ptr) : (l.set i c').map Watching.ptr = l.map Watching.ptr := by
  refine List.ext_getElem? fun j => ?_
  rw [List.getElem?_map, List.getElem?_map, List.getElem?_set]
  split
  next hij =>
    rw [if_pos (List.getElem?_eq_some_iff.mp hc).1, ← hij, hc, Option.map_some, Option.map_some, hptr]
  next => rfl

theorem mem_set_cases {l : List Watching} {i : Nat} {c c' d : Watching} (hnd : (l.map Watching.ptr).Nodup)
    (hc : l[i]? = some c) (hd : d ∈ l.set i c') : d = c' ∨ d ∈ l ∧ d.ptr ≠ c.ptr := by
  have hi := (List.getElem?_eq_some_iff.mp hc).1
  obtain ⟨j, hj⟩ := List.mem_iff_getElem?.mp hd
  by_cases hij : i = j
  · subst hij
    rw [List.getElem?_set_self hi] at hj
    exact .inl (Option.some.inj hj).symm
  · rw [List.getElem?_set_ne hij] at hj
    refine .inr ⟨List.mem_of_getElem? hj, fun heq => hij ?_⟩
    refine (List.getElem?_inj (by simpa using hi) hnd).mp ?_
    rw [List.getElem?_map, List.getElem?_map, hc, hj, Option.map_some, Option.map_some, heq]

theorem Inv.serve (h : s.Inv) {i : Nat} (hs : s.step oc (.serve i) = some s') : s'.Inv := by
  obtain ⟨c, hc, hs⟩ := Option.bind_eq_some_iff.mp hs
  obtain ⟨hadd, hs⟩ := Option.ite_none_left_eq_some.mp hs
  obtain ⟨periodic, hp, rfl⟩ := Option.map_eq_some_iff.mp hs
  have hcaps := PeriodicListManager.addQh_capabilities hp
  have hcm := List.mem_of_getElem? hc
  have hother : ∀ d : Watching, d.ptr ≠ c.ptr →
      (periodic.heap d.ptr).qh.endpointCapabilities = s.capabilities d.ptr :=
    fun d hne => (hcaps d.ptr).trans (if_neg hne)
  have hnew : (periodic.heap c.ptr).qh.endpointCapabilities =
      (s.capabilities c.ptr).withSplitCompletionMask (PeriodicListManager.sMask c.interval) :=
    (hcaps c.ptr).trans (if_pos rfl)
  have hptrs : (s.calls.set i { c with added := true }).map Watching.ptr = _ := map_ptr_set hc rfl
  refine ⟨hptrs ▸ h.distinct, fun d hd => ?_, fun d hd => ?_, fun d hd ha => ?_⟩
  · rcases mem_set_cases h.distinct hc hd with rfl | ⟨hd, -⟩
    · exact h.power c hcm
    · exact h.power d hd
  · rcases mem_set_cases h.distinct hc hd with rfl | ⟨hd, hne⟩
    · refine (congrArg _ hnew).trans ?_
      rw [interruptScheduleMask_withSplitCompletionMask]
      exact h.schedule c hcm
    · exact (congrArg _ (hother d hne)).trans (h.schedule d hd)
  · rcases mem_set_cases h.distinct hc hd with rfl | ⟨hd, hne⟩
    · refine (congrArg _ hnew).trans ?_
      rw [splitCompletionMask_withSplitCompletionMask]
    · exact (congrArg _ (hother d hne)).trans (h.split d hd ha)

theorem Inv.arm (h : s.Inv) {i : Nat} (hs : s.step oc (.arm i) = some s') : s'.Inv := by
  obtain ⟨c, hc, hs⟩ := Option.bind_eq_some_iff.mp hs
  obtain ⟨hadd, hs⟩ := Option.ite_none_right_eq_some.mp hs
  obtain ⟨⟨qh, w⟩, hr, rfl⟩ := Option.map_eq_some_iff.mp hs
  have hqh : qh.endpointCapabilities = s.capabilities c.ptr := by
    simp only [InterruptEndpoint.armWatch, Option.bind_eq_bind, Option.bind_eq_some_iff,
      Option.some.injEq, Prod.mk.injEq] at hr
    obtain ⟨-, -, -, -, rfl, -⟩ := hr
    rfl
  have hkeep : (s.writeQh c.ptr qh).capabilities = s.capabilities := by
    funext q
    rw [capabilities_writeQh]
    split
    next heq => rw [hqh, heq]
    next => rfl
  exact ⟨h.distinct, h.power, fun d hd => hkeep ▸ h.schedule d hd, fun d hd => hkeep ▸ h.split d hd⟩

end Steps

end MaskWorld

section Masks

variable {oc : OverflowChecks} {heap : Heap QhWithMetaP} {seg : CtrlDsSegment}

theorem MaskWorld.Inv.of_exec {tr : List MaskStep} {s : MaskWorld}
    (h : exec (MaskWorld.step oc) (.start heap seg) tr = some s) : s.Inv := by
  have h0 : (MaskWorld.start heap seg).Inv := ⟨List.nodup_nil, nofun, nofun, nofun⟩
  refine exec_invariant h0 (fun s a s' hinv hs => ?_) h
  cases a with
  | watch ep res => exact hinv.watch hs
  | serve i => exact hinv.serve hs
  | arm i => exact hinv.arm hs

/-- The mask of micro-frame 0 is the one of the intervals of a frame and more. -/
theorem schedule_one_iff (c : Watching) :
    (∀ u < 8, (1 : BitVec 8).getLsbD u = true ↔ c.Due u) ↔ 4 ≤ c.ep.info.interval.toNat := by
  have hpow : ∀ p ≤ 3, (∀ u < 8, (1 : BitVec 8).getLsbD u = true ↔ 2 ^ p ∣ u) ↔ p = 3 := by decide
  refine (hpow (min c.power 3) (Nat.min_le_right _ _)).trans ?_
  unfold Watching.power
  omega

/-- **The masks of the periodic list.** In every state the micro-frames in which an added queue head is
due are selected by its split completion mask, and its schedule mask is the one `watch` wrote. So the
masks of no added queue head are right; the schedule mask alone is for intervals of a frame and more. -/
theorem not_masksRight_of_exec {tr : List MaskStep} {s : MaskWorld}
    (h : exec (MaskWorld.step oc) (.start heap seg) tr = some s) :
    ∀ c ∈ s.calls, c.added = true →
      ¬ MasksRight c (s.capabilities c.ptr) ∧
      (∀ u < 8, (s.capabilities c.ptr).splitCompletionMask.getLsbD u = decide (c.Due u)) ∧
      ((∀ u < 8, (s.capabilities c.ptr).interruptScheduleMask.getLsbD u = true ↔ c.Due u) ↔
        4 ≤ c.ep.info.interval.toNat) := by
  have hinv := MaskWorld.Inv.of_exec h
  intro c hc hadd
  have hsplit : ∀ u < 8, (s.capabilities c.ptr).splitCompletionMask.getLsbD u = decide (c.Due u) := by
    intro u hu
    rw [hinv.split c hc hadd, PeriodicListManager.sMask_getLsbD _ u hu, hinv.power c hc]
    rfl
  refine ⟨fun hright => ?_, hsplit, hinv.schedule c hc ▸ schedule_one_iff c⟩
  -- every endpoint is due in micro-frame 0
  have hzero := hsplit 0 (by decide)
  have hdue : c.Due 0 := Nat.dvd_zero _
  rw [hright.split, decide_eq_true hdue] at hzero
  cases hzero

end Masks

/-- An endpoint that is to be polled in every micro-frame. -/
def fastEndpoint : InterruptEndpoint := ⟨1, 0, ⟨⟨0x81⟩, ⟨3⟩, ⟨8⟩, 1⟩, .lower4G⟩

def fastResources : WatchInterruptResources :=
  ⟨⟨0x1000, 0x1000⟩, ⟨0x2000, 0x2000, 1⟩, ⟨0x3000, 0x3000, 8⟩⟩

theorem not_masksRight_of_exec_fast : ∃ s,
    exec (MaskWorld.step .on) (.start blankQhs .lower4G)
      [.watch fastEndpoint fastResources, .serve 0, .arm 0] = some s ∧
    ∃ c ∈ s.calls, c.added = true ∧ ¬ MasksRight c (s.capabilities c.ptr) := by
  obtain ⟨s, hs, c, hc, hadd⟩ := exec_witness (MaskWorld.step .on) (.start blankQhs .lower4G)
    [.watch fastEndpoint fastResources, .serve 0, .arm 0] (fun s => ∃ c ∈ s.calls, c.added = true)
    (by decide +kernel)
  exact ⟨s, hs, c, hc, hadd, (not_masksRight_of_exec hs c hc hadd).1⟩

/-- `bInterval` 1: the schedule mask selects one micro-frame of eight. -/
theorem not_masksRight_every_microframe :
    ¬ ∀ oc heap seg tr s, exec (MaskWorld.step oc) (.start heap seg) tr = some s →
      ∀ c ∈ s.calls, c.added = true → MasksRight c (s.capabilities c.ptr) := by
  intro h
  obtain ⟨s, hs, c, hc, hadd, hdue, hschedule, -⟩ := exec_witness (MaskWorld.step .on)
    (.start blankQhs .lower4G) [.watch fastEndpoint fastResources, .serve 0, .arm 0]
    (fun s => ∃ c ∈ s.calls, c.added = true ∧ c.Due 1 ∧
      (s.capabilities c.ptr).interruptScheduleMask = 0b00000001 ∧
      (s.capabilities c.ptr).splitCompletionMask = 0b11111111) (by decide +kernel)
  have hbit := ((h _ _ _ _ s hs c hc hadd).schedule 1 (by decide)).mpr hdue
  rw [hschedule] at hbit
  exact absurd hbit (by decide)

end EzEhci
