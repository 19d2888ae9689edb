import EzEhci.Reset.Refine

/-!
# The supply of addresses

A reset takes an address for its device, and the runner never gives one back. A
device that takes the place of another on its port thus costs an address: the
addresses taken are those of the devices and of the one being addressed exactly
as long as no device is replaced, and after 127 of them none is left.
-/

namespace EzEhci

open Lib

def ResetStage.addressing : ResetStage → Nat
  | .waitForSetAddr _ | .waitForQhRemove _ _ => 1
  | .waitingToStopReset | .waitForPortToBeEnabled => 0

namespace ResetState

def addressing (s : ResetState) : Nat :=
  match s.ongoing with
  | some r => r.stage.addressing
  | none => 0

/-- The devices that have an address or are being given one. -/
def addressed (s : ResetState) : Nat := s.devicePorts.length + s.addressing

/-- No address is taken but by these devices, and there is one left. -/
structure AddressSupply (s : ResetState) : Prop where
  accounted : s.addrAllocator.allocated.card ≤ s.addressed
  supplied : s.addrAllocator.allocateAddr ≠ none

end ResetState

/-- No reset is finished on a port that has a device. -/
def ReplacesNoDevice (s : ResetState) (o : Option ResetReadings) : Prop :=
  ∀ r addr sender, s.ongoing = some r → o.isSome = true → r.stage = .waitForQhRemove addr sender →
    sender ∈ s.async.sent → ∀ p ∈ s.devicePorts, p.toNat ≠ r.rootPort

def ResetEvent.isAssigned : ResetEvent → Bool
  | .assigned _ _ => true
  | _ => false

def assignments (log : List ResetEvent) : Nat := log.countP ResetEvent.isAssigned

section Steps

variable {dma : Dma} {log l : List ResetEvent} {s s' : ResetState} {o : Option ResetReadings}

theorem assignments_append (log l : List ResetEvent) :
    assignments (log ++ l) = assignments log + assignments l :=
  List.countP_append

theorem assignments_outside (hl : ∀ e ∈ l, e.outside = true) : assignments l = 0 := by
  refine List.countP_eq_zero.mpr fun e he => ?_
  have hout := hl e he
  cases e <;> first | exact Bool.false_ne_true | cases hout

theorem assignments_disconnected (rds : ResetReadings) (r : OngoingReset) :
    assignments (disconnectedEvents rds r) = 0 := by
  unfold disconnectedEvents
  split <;> rfl

/-- What the addresses and the devices keep in every run. -/
structure Accounting (log : List ResetEvent) (s : ResetState) : Prop where
  zero : s.addrAllocator.ZeroTaken
  sorted : s.devicePorts.Pairwise (· < ·)
  port : ∀ r, s.ongoing = some r → r.rootPort < 16
  assigned : s.addrAllocator.allocated.card = assignments log

theorem length_ports {ports ports' : List RootPortNumber} {i : Nat} (hi : i < 16)
    (hsorted : ports.Pairwise (· < ·)) (hsorted' : ports'.Pairwise (· < ·))
    (hports : ∀ p, p ∈ ports' ↔ p.toNat = i ∨ p ∈ ports) :
    ports'.length = ports.length + if ∀ p ∈ ports, p.toNat ≠ i then 1 else 0 := by
  have hnodup : ∀ {l : List RootPortNumber}, l.Pairwise (· < ·) → l.Nodup :=
    fun hl => hl.imp fun h he => by simp [he] at h
  have hport : ∀ p : RootPortNumber, p.toNat = i ↔ p = BitVec.ofNat 4 i := by
    intro p
    rw [← BitVec.toNat_inj, BitVec.toNat_ofNat, Nat.mod_eq_of_lt hi]
  have hinsert : ports'.toFinset = insert (BitVec.ofNat 4 i) ports.toFinset := by
    ext p
    rw [List.mem_toFinset, hports, hport, Finset.mem_insert, List.mem_toFinset]
  rw [← List.toFinset_card_of_nodup (hnodup hsorted'), ← List.toFinset_card_of_nodup (hnodup hsorted), hinsert]
  split
  next hne =>
    refine Finset.card_insert_of_notMem fun hmem => ?_
    exact hne _ (List.mem_toFinset.mp hmem) ((hport _).mpr rfl)
  next hex =>
    refine congrArg Finset.card (Finset.insert_eq_of_mem (List.mem_toFinset.mpr ?_))
    simp only [not_forall, not_not] at hex
    obtain ⟨p, hp, hpi⟩ := hex
    exact (hport p).mp hpi ▸ hp

theorem length_ports_le {ports : List RootPortNumber} (h : ports.Pairwise (· < ·)) : ports.length ≤ 16 := by
  have hnodup : (ports.map BitVec.toNat).Nodup := by
    refine List.Nodup.map (fun _ _ => BitVec.eq_of_toNat_eq) ?_
    exact h.imp fun h he => by simp [he] at h
  have hsub : ports.map BitVec.toNat ⊆ List.range 16 := by
    intro i hi
    obtain ⟨p, -, rfl⟩ := List.mem_map.mp hi
    exact List.mem_range.mpr p.isLt
  have hle := (hnodup.subperm hsub).length_le
  rwa [List.length_map, List.length_range] at hle

namespace ResetState

theorem addressing_of_ongoing {r : OngoingReset} (hr : s.ongoing = some r) :
    s.addressing = r.stage.addressing := by
  rw [addressing, hr]

/-- The addresses taken and the addressed devices went up together. -/
def Balanced (s s' : ResetState) (leak : Nat) : Prop :=
  s'.addrAllocator.allocated.card + s.addressed = s.addrAllocator.allocated.card + s'.addressed + leak

theorem balanced_of_eq (halloc : s'.addrAllocator = s.addrAllocator) (hports : s'.devicePorts = s.devicePorts)
    (haddr : s'.addressing = s.addressing) : s.Balanced s' 0 := by
  rw [Balanced, addressed, addressed, halloc, hports, haddr, Nat.add_zero]

end ResetState

namespace Accounting

/-- A step of the reset in progress that finishes no reset. -/
theorem replaces_of_progress {rds : ResetReadings} {r : OngoingReset} (hr : s.ongoing = some r)
    (hstage : ∀ addr sender, r.stage = .waitForQhRemove addr sender → sender ∉ s.async.sent) :
    ReplacesNoDevice s (some rds) := by
  intro r' addr sender hr' _ hst hsent
  rw [hr] at hr'
  cases hr'
  exact absurd hsent (hstage addr sender hst)

theorem keeps (h : Accounting log s) {rds : ResetReadings} {r : OngoingReset} (hr : s.ongoing = some r)
    (hl : assignments l = 0)
    (hstage : ∀ addr sender, r.stage = .waitForQhRemove addr sender → sender ∉ s.async.sent)
    (halloc : s'.addrAllocator = s.addrAllocator) (hports : s'.devicePorts = s.devicePorts)
    (hport : ∀ r', s'.ongoing = some r' → r'.rootPort = r.rootPort)
    (haddr : s'.addressing = r.stage.addressing) :
    Accounting (log ++ l) s' ∧ (ReplacesNoDevice s (some rds) ∧ s.Balanced s' 0 ∨
      ¬ ReplacesNoDevice s (some rds) ∧ s.Balanced s' 1) := by
  refine ⟨⟨halloc ▸ h.zero, hports ▸ h.sorted, fun r' hr' => ?_, ?_⟩,
    .inl ⟨replaces_of_progress hr hstage, ?_⟩⟩
  · rw [hport r' hr']
    exact h.port r hr
  · rw [assignments_append, hl, halloc]
    exact h.assigned
  · exact ResetState.balanced_of_eq halloc hports (haddr.trans (ResetState.addressing_of_ongoing hr).symm)

theorem removed (h : Accounting log s) {rds : ResetReadings} {r : OngoingReset} (hr : s.ongoing = some r)
    (hl : assignments l = 0) {addr : BitVec 7} {sender : SenderId}
    (hstage : r.stage = .waitForQhRemove addr sender) (hsent : sender ∈ s.async.sent)
    (halloc : s'.addrAllocator = s.addrAllocator) (hnone : s'.ongoing = none)
    (hports : ∀ p, p ∈ s'.devicePorts ↔ p.toNat = r.rootPort ∨ p ∈ s.devicePorts)
    (hsorted : s'.devicePorts.Pairwise (· < ·)) :
    Accounting (log ++ l) s' ∧ (ReplacesNoDevice s (some rds) ∧ s.Balanced s' 0 ∨
      ¬ ReplacesNoDevice s (some rds) ∧ s.Balanced s' 1) := by
  have hlen := length_ports (h.port r hr) h.sorted hsorted hports
  have hs : s.addressing = 1 := by rw [ResetState.addressing_of_ongoing hr, hstage]; rfl
  have hs' : s'.addressing = 0 := by rw [ResetState.addressing, hnone]
  have hiff : ReplacesNoDevice s (some rds) ↔ ∀ p ∈ s.devicePorts, p.toNat ≠ r.rootPort := by
    constructor
    · exact fun hD => hD r addr sender hr rfl hstage hsent
    · intro hne r' addr' sender' hr' _ _ _
      rw [hr] at hr'
      cases hr'
      exact hne
  constructor
  · refine ⟨halloc ▸ h.zero, hsorted, fun r' hr' => ?_, ?_⟩
    · rw [hnone] at hr'
      cases hr'
    · rw [assignments_append, hl, halloc]
      exact h.assigned
  · rw [hiff]
    simp only [ResetState.Balanced, ResetState.addressed, hs, hs', hlen, halloc]
    by_cases hne : ∀ p ∈ s.devicePorts, p.toNat ≠ r.rootPort
    · rw [if_pos hne]
      exact .inl ⟨hne, by omega⟩
    · rw [if_neg hne]
      exact .inr ⟨hne, by omega⟩

theorem progress (h : Accounting log s) {rds : ResetReadings} {r : OngoingReset} (hr : s.ongoing = some r)
    (hp : ResetProgress s rds r l s') :
    Accounting (log ++ l) s' ∧ (ReplacesNoDevice s (some rds) ∧ s.Balanced s' 0 ∨
      ¬ ReplacesNoDevice s (some rds) ∧ s.Balanced s' 1) := by
  have hfirst : ∀ {stage}, r.stage = stage → (∀ addr sender, stage ≠ .waitForQhRemove addr sender) →
      ∀ addr sender, r.stage = .waitForQhRemove addr sender → sender ∉ s.async.sent :=
    fun hst hne addr sender hst' => absurd (hst.symm.trans hst') (hne addr sender)
  cases hp with
  | disconnected hstage =>
    rcases hstage with hst | hst <;>
      exact h.keeps hr rfl (hfirst hst nofun) rfl rfl nofun (by rw [hst]; rfl)
  | resetDone v hstage =>
    refine h.keeps hr rfl (hfirst hstage nofun) rfl rfl ?_ (by rw [hstage]; rfl)
    rintro r' ⟨⟩
    rfl
  | fullSpeed hstage =>
    exact h.keeps hr rfl (hfirst hstage nofun) rfl rfl nofun (by rw [hstage]; rfl)
  | enabled alloc addr prepared async hstage hread halloc hasync =>
    obtain ⟨hzero, hcard⟩ := AddressAllocator.card_allocated_of_allocateAddr halloc h.zero
    refine ⟨⟨hzero, h.sorted, fun r' hr' => ?_, ?_⟩,
      .inl ⟨replaces_of_progress hr (hfirst hstage nofun), ?_⟩⟩
    · cases hr'
      exact h.port r hr
    · rw [assignments_append]
      exact hcard.trans (congrArg (· + 1) h.assigned)
    · have hs : s.addressing = 0 := by rw [ResetState.addressing_of_ongoing hr, hstage]; rfl
      simp only [ResetState.Balanced, ResetState.addressed, hs, hcard]
      simp only [ResetState.addressing, ResetState.setStage, ResetStage.addressing]
      omega
  | addressed addr hstage =>
    refine h.keeps hr rfl (hfirst hstage nofun) rfl rfl ?_ (by rw [hstage]; rfl)
    rintro r' ⟨⟩
    rfl
  | removed addr sender device e hstage hsent hdevice ports hports hsorted =>
    exact h.removed hr rfl hstage hsent rfl rfl hports (hsorted h.sorted)
  | waits hwait =>
    refine h.keeps hr rfl (fun addr sender hst => ?_) rfl rfl ?_ ?_
    · rcases hwait with ⟨hst' | hst', -⟩ | ⟨addr', hst', -⟩ | ⟨addr', sender', hst', hsent⟩ <;>
        (rw [hst'] at hst; cases hst)
      exact hsent
    · intro r' hr'
      rw [hr] at hr'
      cases hr'
      rfl
    · exact ResetState.addressing_of_ongoing hr

theorem step (h : Accounting log s) (hs : ResetStep dma log s o l s') :
    Accounting (log ++ l) s' ∧ (ReplacesNoDevice s o ∧ s.Balanced s' 0 ∨
      ¬ ReplacesNoDevice s o ∧ s.Balanced s' 1) := by
  rcases hs.kinds with ⟨rfl, hl, hongoing, halloc, hports⟩ |
    ⟨i, req, v, rfl, rfl, -, hnone, hi, -, rfl⟩ | ⟨rds, r, l', rfl, hr, rfl, hp⟩
  · refine ⟨⟨halloc ▸ h.zero, hports ▸ h.sorted, fun r hr => h.port r (hongoing ▸ hr), ?_⟩,
      .inl ⟨fun _ _ _ _ ho => (nomatch ho), ?_⟩⟩
    · rw [assignments_append, assignments_outside hl, halloc]
      exact h.assigned
    · refine ResetState.balanced_of_eq halloc hports ?_
      rw [ResetState.addressing, ResetState.addressing, hongoing]
  · refine ⟨⟨h.zero, h.sorted, fun r hr => ?_, ?_⟩, .inl ⟨fun _ _ _ _ ho => (nomatch ho), ?_⟩⟩
    · cases hr
      exact hi
    · rw [assignments_append]
      exact h.assigned
    · refine ResetState.balanced_of_eq rfl rfl ?_
      simp only [ResetState.addressing, hnone, ResetStage.addressing]
  · rw [← List.append_assoc]
    refine progress ⟨h.zero, h.sorted, h.port, ?_⟩ hr hp
    rw [assignments_append, assignments_disconnected]
    exact h.assigned

end Accounting

end Steps

/-! ## Runs -/

section Runs

variable {W : Type} [Wakers W] {dma : Dma} {oc : OverflowChecks} {nPorts : Nat} {s₀ s : ResetWorld W}

omit [Wakers W] in
theorem ResetWorld.Begun.accounting (h : s₀.Begun dma nPorts) :
    Accounting s₀.log s₀.state ∧ s₀.state.addrAllocator.allocated.card = s₀.state.addressed := by
  obtain ⟨seg, anchor, list, heap₀, heap, periodicHeap, qtds, runnerTask, -, -, rfl⟩ := h
  have hzero : AddressAllocator.default.ZeroTaken := by decide
  have hcard : AddressAllocator.default.allocated.card = 0 := by decide +kernel
  exact ⟨⟨hzero, .nil, nofun, hcard⟩, hcard⟩

/-- The addresses taken are those of the addressed devices as long as no device was replaced. -/
theorem ResetWorld.accounting_of_exec (hb : s₀.Begun dma nPorts) {tr : List (ResetLabel W)}
    (h : exec (step dma oc) s₀ tr = some s) :
    Accounting s.log s.state ∧
      (Meets (step dma oc) (Within ReplacesNoDevice) s₀ tr →
        s.state.addrAllocator.allocated.card = s.state.addressed) ∧
      (¬ Meets (step dma oc) (Within ReplacesNoDevice) s₀ tr →
        s.state.addressed < s.state.addrAllocator.allocated.card) := by
  obtain ⟨hacc, hcard⟩ := hb.accounting
  refine (exec_history (C := fun _ _ => True) (P := fun tr s => s.PortsIdle ∧ Accounting s.log s.state ∧
    (Meets (step dma oc) (Within ReplacesNoDevice) s₀ tr →
      s.state.addrAllocator.allocated.card = s.state.addressed) ∧
    (¬ Meets (step dma oc) (Within ReplacesNoDevice) s₀ tr →
      s.state.addressed < s.state.addrAllocator.allocated.card))
    ⟨hb.portsIdle, hacc, fun _ => hcard, fun hn => absurd trivial hn⟩ ?_ (meets_true s₀ tr) h).2
  rintro tr m a m' hm ⟨hp, hinv, heq, hlt⟩ - hs
  obtain ⟨⟨l, hlog, hl⟩, hp'⟩ := refines hp hs
  obtain ⟨hinv', hbal⟩ := hinv.step hl
  have hmeets : Meets (step dma oc) (Within ReplacesNoDevice) s₀ (tr ++ [a]) ↔
      Meets (step dma oc) (Within ReplacesNoDevice) s₀ tr ∧
        ReplacesNoDevice m.state (m.readings a) := by
    refine ⟨fun h' => meets_snoc h' hm, fun ⟨h1, h2⟩ => meets_append.mpr ⟨h1, fun m₁ hm₁ => ?_⟩⟩
    rw [hm] at hm₁
    cases hm₁
    exact ⟨h2, fun _ _ => trivial⟩
  refine ⟨hp', hlog ▸ hinv', fun hM => ?_, fun hM => ?_⟩
  · obtain ⟨hM, hD⟩ := hmeets.mp hM
    rcases hbal with ⟨-, hbal⟩ | ⟨hnD, -⟩
    · have := heq hM
      simp only [ResetState.Balanced] at hbal
      omega
    · exact absurd hD hnD
  · rw [hmeets, not_and] at hM
    rcases hbal with ⟨hD, hbal⟩ | ⟨hnD, hbal⟩
    · have := hlt fun hM' => hM hM' hD
      simp only [ResetState.Balanced] at hbal
      omega
    · have : m.state.addressed ≤ m.state.addrAllocator.allocated.card := by
        by_cases hM' : Meets (step dma oc) (Within ReplacesNoDevice) s₀ tr
        · exact (heq hM').ge
        · exact (hlt hM').le
      simp only [ResetState.Balanced] at hbal
      omega

/-- **The supply of addresses.** In every run of the running driver: the addresses taken are those of
the devices and of the one being addressed, and one is left, exactly if no reset was finished on a port
that had a device; and no address is left exactly if 127 were given out. -/
theorem addressSupply_iff (hb : s₀.Begun dma nPorts) {tr : List (ResetLabel W)}
    (h : exec (ResetWorld.step dma oc) s₀ tr = some s) :
    (s.state.AddressSupply ↔
      Meets (ResetWorld.step dma oc) (ResetWorld.Within ReplacesNoDevice) s₀ tr) ∧
    (s.state.addrAllocator.allocateAddr = none ↔ 127 ≤ assignments s.log) := by
  obtain ⟨hacc, heq, hlt⟩ := ResetWorld.accounting_of_exec hb h
  refine ⟨⟨fun hsupply => ?_, fun hM => ⟨(heq hM).le, fun hnone => ?_⟩⟩, ?_⟩
  · by_contra hM
    exact absurd hsupply.accounted (Nat.not_le.mpr (hlt hM))
  · have hge := (AddressAllocator.allocateAddr_eq_none_iff hacc.zero).mp hnone
    have hports := length_ports_le hacc.sorted
    have haddressing : s.state.addressing ≤ 1 := by
      unfold ResetState.addressing ResetStage.addressing
      split
      · split <;> decide
      · decide
    rw [heq hM, ResetState.addressed] at hge
    omega
  · rw [AddressAllocator.allocateAddr_eq_none_iff hacc.zero, hacc.assigned]

end Runs

/-- The first device on a port. -/
theorem addressSupply_exampleReset : ∃ s,
    exec (ResetWorld.step .identity .on) ResetWorld.example₀ ResetWorld.exampleReset = some s ∧
    s.state.devicePorts = [1] ∧ s.state.addrAllocator.allocated = {1} ∧
    Meets (ResetWorld.step .identity .on) (ResetWorld.Within ReplacesNoDevice) ResetWorld.example₀
      ResetWorld.exampleReset := by
  obtain ⟨s, hs, hports, halloc, hle, hsome⟩ := exec_witness (ResetWorld.step .identity .on)
    ResetWorld.example₀ ResetWorld.exampleReset (fun s => s.state.devicePorts = [1] ∧
      s.state.addrAllocator.allocated = {1} ∧
      s.state.addrAllocator.allocated.card ≤ s.state.addressed ∧
      s.state.addrAllocator.allocateAddr ≠ none) (by decide +kernel)
  exact ⟨s, hs, hports, halloc, (addressSupply_iff ResetWorld.example₀_begun hs).1.mp ⟨hle, hsome⟩⟩

def exampleReplace : List (ResetLabel TaskWaker) :=
  ResetWorld.exampleReset ++
    .pollReset 1 ⟨1⟩ :: .client (.resetDevice 1 (ResetWorld.exampleRequest 0x2000)) ::
    ResetWorld.examplePoll 17 DriverWorld.exampleReadings ++
    .client (.irq (UsbStsReg.zero.set .asyncAdvance)) ::
    ResetWorld.examplePoll 16 DriverWorld.exampleReadings

/-- One device, and two addresses taken. -/
theorem not_addressSupply_exampleReplace : ResetWorld.example₀.Begun .identity 2 ∧ ∃ s,
    exec (ResetWorld.step .identity .on) ResetWorld.example₀ exampleReplace = some s ∧
    s.state.ongoing = none ∧ s.state.devicePorts = [1] ∧
    s.state.addrAllocator.allocated = {1, 2} ∧ ¬ s.state.AddressSupply := by
  obtain ⟨s, hs, hidle, hports, halloc, hgt⟩ := exec_witness (ResetWorld.step .identity .on)
    ResetWorld.example₀ exampleReplace (fun s => s.state.ongoing = none ∧ s.state.devicePorts = [1] ∧
      s.state.addrAllocator.allocated = {1, 2} ∧
      ¬ s.state.addrAllocator.allocated.card ≤ s.state.addressed) (by decide +kernel)
  exact ⟨ResetWorld.example₀_begun, s, hs, hidle, hports, halloc, fun hsupply => hgt hsupply.accounted⟩

end EzEhci
