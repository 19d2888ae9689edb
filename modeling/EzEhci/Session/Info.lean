import EzEhci.Session.Realize

/-!
# Bringing up a device

`get_info` and `set_configuration` on the bus, against a device with the
descriptors of a `DeviceTree`: in every run the driver asks for exactly these
descriptors, learns what is in them and puts the device into the configuration
it was told to.
-/

namespace EzEhci

open Lib

/-! ## Trees of descriptors -/

/-- A configuration as in `serialize`, that the driver's buffer holds. -/
structure ConfigurationTree where
  descriptor : ConfigurationDescriptor
  items : List InterfaceItem
  trailing : List Byte
  counted : descriptor.bNumInterfaces.toNat ≤ items.length
  fits : (serialize descriptor items trailing).length ≤ maxConfigurationDescriptorLen

namespace ConfigurationTree

def bytes (t : ConfigurationTree) : List Byte := serialize t.descriptor t.items t.trailing

def info (t : ConfigurationTree) : ConfigurationInfo :=
  t.descriptor.info ((t.items.take t.descriptor.bNumInterfaces.toNat).map InterfaceItem.info)

end ConfigurationTree

structure DeviceTree where
  device : DeviceDescriptor
  configurations : List ConfigurationTree
  counted : device.bNumConfigurations.toNat = configurations.length

namespace DeviceTree

def descriptors (T : DeviceTree) : DescriptorSet where
  device := T.device
  configurations := T.configurations.map ConfigurationTree.bytes
  counted := by rw [T.counted, List.length_map]

/-- What the driver is to know about the device. -/
def info (T : DeviceTree) : IdentifiedDeviceInfo :=
  .fromDescriptor T.device (T.configurations.map ConfigurationTree.info)

end DeviceTree

theorem fromDescriptor_mono {full : List Byte} {n m : Nat} {r : Parsed}
    (h : ConfigurationInfo.fromDescriptor full n = some r) (hm : n ≤ m) :
    ConfigurationInfo.fromDescriptor full m = some r := by
  unfold ConfigurationInfo.fromDescriptor at h ⊢
  cases hc : ConfigurationDescriptor.at full 0 with
  | none => simpa only [hc] using h
  | some configuration =>
    simp only [hc] at h ⊢
    exact iterate_mono h hm

theorem parsed_tree (t : ConfigurationTree) :
    ∃ n₀, ∀ n, n₀ ≤ n → parsed n (t.bytes.take maxConfigurationDescriptorLen) = .ok t.info := by
  obtain ⟨n₀, hn₀⟩ := fromDescriptor_take t.descriptor t.items t.trailing t.counted
  refine ⟨n₀, fun n hn => ?_⟩
  have hfits : t.bytes.length ≤ maxConfigurationDescriptorLen := t.fits
  rw [List.take_of_length_le hfits, parsed, ConfigurationTree.bytes, fromDescriptor_mono hn₀ hn]
  rfl

theorem parsedAll_trees (l : List ConfigurationTree) :
    ∃ n₀, ∀ n, n₀ ≤ n → DescriptorSet.parsedAll n (l.map ConfigurationTree.bytes) =
      .ok (l.map ConfigurationTree.info) := by
  induction l with
  | nil => exact ⟨0, fun _ _ => rfl⟩
  | cons t l ih =>
    obtain ⟨n₁, h₁⟩ := parsed_tree t
    obtain ⟨n₂, h₂⟩ := ih
    refine ⟨max n₁ n₂, fun n hn => ?_⟩
    have ht := h₁ n ((Nat.le_max_left _ _).trans hn)
    have hl := h₂ n ((Nat.le_max_right _ _).trans hn)
    simp only [DescriptorSet.parsedAll] at hl ⊢
    rw [List.map_cons, List.mapM_cons, ht, hl]
    rfl

/-! ## `get_info` on the bus -/

section Sessions

variable {δ : Type} {dma : Dma} {oc : OverflowChecks} {seg : CtrlDsSegment} {m : SessionMem}
  {dev : UsbDevice δ}

theorem Session.allowed_within {questions : List Question}
    (h : ∀ q ∈ questions, q.bufferLen ≤ m.buffer.len) :
    Bus.Allowed m (@Session.Within δ questions) :=
  fun _ _ hq => ⟨hq.1, h _ (hq.2.mem (by simp))⟩

theorem DescriptorSet.bufferLen_questions (D : DescriptorSet) :
    ∀ q ∈ D.questions, q.bufferLen ≤ maxConfigurationDescriptorLen := by
  intro q hq
  rcases List.mem_cons.mp hq with rfl | hq
  · exact le_rfl
  · obtain ⟨num, -, rfl⟩ := List.mem_map.mp hq
    exact le_rfl

def bringUp (n configurationIndex : Nat) : SessionProg (IdentifiedDeviceInfo × ConfigurationInfo) := do
  let info ← getInfo n
  let configuration ← setConfiguration info.toDeviceInfo configurationIndex
  pure (info, configuration)

def DeviceTree.questions (T : DeviceTree) (configurationIndex : Nat) : List Question :=
  T.descriptors.questions ++ (T.configurations[configurationIndex]?).toList.map fun t =>
    .transferNoData (.newSetConfiguration t.info.number)

theorem DeviceTree.bufferLen_questions (T : DeviceTree) (index : Nat) :
    ∀ q ∈ T.questions index, q.bufferLen ≤ maxConfigurationDescriptorLen := by
  intro q hq
  rcases List.mem_append.mp hq with hq | hq
  · exact T.descriptors.bufferLen_questions q hq
  · obtain ⟨t, -, rfl⟩ := List.mem_map.mp hq
    exact Nat.zero_le _

/-- The device has the configuration it was last told to have. -/
structure UsbDevice.Configures (dev : UsbDevice δ) (configuration : δ → Byte) : Prop where
  set : ∀ d p v, p.decode = some (.setConfiguration v) → configuration (dev.respond d p).1 = v

theorem wp_bringUp {T : DeviceTree} (hdev : dev.Describes T.descriptors) {configuration : δ → Byte}
    (hset : dev.Configures configuration) {n : Nat}
    (hn : DescriptorSet.parsedAll n T.descriptors.configurations =
      .ok (T.configurations.map ConfigurationTree.info)) (index : Nat) (d : δ) :
    Prog.wp dev.answer (Session.Within (T.questions index))
      (fun r s => s.questions = T.questions index ∧ r.1 = T.info ∧ T.info.configurations[index]? = some r.2 ∧
        configuration s.device = r.2.number)
      (fun e _ => e = .panicked ∧ T.configurations.length ≤ index) (bringUp n index) ⟨d, []⟩ := by
  simp only [bringUp, Prog.wp_bind_eq, Prog.wp_pure]
  have hprefix : T.descriptors.questions <+: T.questions index := List.prefix_append _ _
  refine Prog.wp_mono (Prog.wp_ok_mono (wp_getInfo hdev n d)
    fun s q hq => ⟨hq.1, hq.2.trans hprefix⟩) ?_ ?_
  · rintro info s ⟨hlog, infos, hinfos, rfl⟩
    rw [hn] at hinfos
    cases hinfos
    show Prog.wp _ _ _ _ (setConfiguration T.info.toDeviceInfo index) s
    have hget : T.info.configurations[index]? = (T.configurations[index]?).map ConfigurationTree.info :=
      List.getElem?_map
    unfold setConfiguration
    cases ht : T.configurations[index]? with
    | none =>
      rw [ht, Option.map_none] at hget
      simp only [hget, Prog.wp_fail, true_and]
      exact List.getElem?_eq_none_iff.mp ht
    | some t =>
      rw [ht, Option.map_some] at hget
      have hquestions : T.questions index =
          s.questions ++ [.transferNoData (.newSetConfiguration t.info.number)] := by
        rw [DeviceTree.questions, ht, hlog]
        rfl
      have hdirection : (BmRequestType.mk 0).direction = false := by decide
      simp only [hget, Prog.wp_bind_eq, Prog.wp_request, Prog.wp_pure, true_and]
      refine ⟨⟨⟨hdirection, rfl⟩, hquestions ▸ List.prefix_rfl⟩,
        (dev.questions_answer s _).trans hquestions.symm, rfl, ?_⟩
      exact hset.set _ _ _ (DriverRequest.decode_packet (.setConfiguration t.info.number))
  · intro e s he
    rw [hn] at he
    cases he

end Sessions

/-! ## A device for every tree -/

theorem SetupPacket.decode_length {p : SetupPacket} {type : RequestType} {kind index : Byte}
    {len : BitVec 16} (h : p.decode = some (.getDescriptor type kind index len)) : p.wLength = len := by
  unfold SetupPacket.decode at h
  dsimp only at h
  split at h
  case h_6 => split at h <;> cases h
  all_goals cases h
  all_goals rfl

namespace DeviceTree

/-- What a device with the tree sends for a request. -/
def response (T : DeviceTree) : UsbRequest → List Byte
  | .getDescriptor .standard 1 0 _ => T.device.bytes
  | .getDescriptor .standard 2 index _ =>
    ((T.configurations[index.toNat]?).map ConfigurationTree.bytes).getD []
  | _ => []

/-- A device with the tree; its state is the value of its configuration. -/
def toDevice (T : DeviceTree) : UsbDevice Byte where
  respond d p :=
    (match p.decode with
      | some (.setConfiguration v) => v
      | _ => d,
      ((p.decode.map T.response).getD []).take p.wLength.toNat)
  pass d _ := d
  bounded _ _ := List.length_take_le _ _

theorem describes_toDevice (T : DeviceTree) : T.toDevice.Describes T.descriptors where
  device d p len h := by
    show ((p.decode.map T.response).getD []).take p.wLength.toNat = _
    rw [SetupPacket.decode_length h, h]
    rfl
  configuration d p len i full hfull h := by
    have hget : (T.configurations[i]?).map ConfigurationTree.bytes = some full := by
      rw [← hfull]
      exact List.getElem?_map.symm
    have hi : i < 256 := by
      have hlt := (List.getElem?_eq_some_iff.mp hfull).1
      rw [← T.descriptors.counted] at hlt
      exact hlt.trans T.descriptors.device.bNumConfigurations.isLt
    show ((p.decode.map T.response).getD []).take p.wLength.toNat = _
    rw [SetupPacket.decode_length h, h]
    show (((T.configurations[(BitVec.ofNat 8 i).toNat]?).map ConfigurationTree.bytes).getD []).take _ = _
    rw [BitVec.toNat_ofNat, Nat.mod_eq_of_lt hi, hget]
    rfl

theorem configures_toDevice (T : DeviceTree) : T.toDevice.Configures id where
  set d p v h := by
    show (match p.decode with | some (.setConfiguration v) => v | _ => d) = v
    rw [h]

end DeviceTree

/-! ## A keyboard -/

def keyboardTree : DeviceTree where
  device := ⟨18, 1, (0, 2), 0, 0, 0, 64, 0x46d, 0xc31c, 0x6402, 1, 2, 0, 1⟩
  configurations := [{
    descriptor := ⟨9, 2, 34, 1, 1, 0, 0xa0, 50⟩
    items := [keyboard]
    trailing := []
    counted := by decide
    fits := by decide }]
  counted := by decide

def exampleSessionMem : SessionMem where
  setupPacket := ⟨0x3000, 0x3000⟩
  buffer := ⟨0x5000, 0x5000, 4096⟩
  qtd0 := ⟨0x1000, 0x1000⟩
  qtd1 := ⟨0x1040, 0x1040⟩
  qtd2 := ⟨0x1080, 0x1080⟩

def exampleQueue : Queue := ⟨loadedQh 1 0, blankQueue.qtds⟩

/-- A transfer whose response of `k` bytes arrives in one piece. -/
def exampleTransferIn (k : Nat) : List BusLabel :=
  .issue :: .writeToken ::
    ([.fetch, .retire, .fetch, .store k, .retire, .fetch, .retire].map .controller ++ [.resume])

/-- The controller executes the setup descriptor between the two writes. -/
def exampleEarlySetup (k : Nat) : List BusLabel :=
  [.issue, .controller .fetch, .controller .retire, .writeToken] ++
    ([.fetch, .store k, .retire, .fetch, .retire].map .controller ++ [.resume])

end EzEhci
