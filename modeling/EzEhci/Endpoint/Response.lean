import EzEhci.Endpoint.DataStage

/-!
# What `transfer_in` returns

A control IN transfer has run to its end (`InPhase`). The driver computes the
length of the response from the tokens of the IN descriptors, and its caller
looks for the bytes in the buffers. They are there as far as the page pointers
of the descriptors lead: the part of the response in each buffer has to end
inside the five pages (`TakenFits`), which `BufferPtrs::new_contiguous` does
not check.
-/

namespace EzEhci

open Lib

/-! ## Memory -/

def span (a : BitVec 64) (n : Nat) : List (BitVec 64) := (List.range n).map fun i => a + BitVec.ofNat 64 i

/-- The addresses of the bytes of the buffers, one buffer after the other. -/
def bufferAddrs (buffers : List MappedSlice) : List (BitVec 64) :=
  buffers.flatMap fun b => span b.physAddr b.len

theorem bufferAddrs_cons (b : MappedSlice) (bs : List MappedSlice) :
    bufferAddrs (b :: bs) = span b.physAddr b.len ++ bufferAddrs bs := rfl

/-- A byte is stored at its address; one without an address is lost. -/
def storeByte (mem : BitVec 64 → Byte) : Option (BitVec 64) × Byte → BitVec 64 → Byte
  | (some a, b) => Function.update mem a b
  | (none, _) => mem

def applyStores (mem : BitVec 64 → Byte) (stores : List (Option (BitVec 64) × Byte)) :
    BitVec 64 → Byte :=
  stores.foldl storeByte mem

theorem applyStores_of_not_mem (mem : BitVec 64 → Byte) {stores : List (Option (BitVec 64) × Byte)}
    {x : BitVec 64} (h : some x ∉ stores.map Prod.fst) : applyStores mem stores x = mem x := by
  induction stores generalizing mem with
  | nil => rfl
  | cons st stores ih =>
    rw [List.map_cons, List.mem_cons, not_or] at h
    refine (ih (storeByte mem st) h.2).trans ?_
    rcases st with ⟨_ | a, b⟩
    · rfl
    · exact Function.update_of_ne (fun e => h.1 (congrArg some e)) _ _

theorem mem_of_mem_fst_zip {α β : Type} {l : List α} {l' : List β} {x : α}
    (h : x ∈ (l.zip l').map Prod.fst) : x ∈ l := by
  obtain ⟨y, hy, rfl⟩ := List.mem_map.mp h
  exact (List.of_mem_zip hy).1

/-- Bytes stored one by one at distinct addresses are read back, and the rest is as it was. -/
theorem map_applyStores_zip (mem : BitVec 64 → Byte) {addrs : List (BitVec 64)} {bytes : List Byte}
    (hnd : addrs.Nodup) (hlen : bytes.length ≤ addrs.length) :
    addrs.map (applyStores mem ((addrs.map some).zip bytes)) =
      bytes ++ (addrs.drop bytes.length).map mem := by
  induction addrs generalizing mem bytes with
  | nil =>
    rw [List.length_nil, Nat.le_zero, List.length_eq_zero_iff] at hlen
    subst hlen
    rfl
  | cons x addrs ih =>
    obtain ⟨hx, hnd⟩ := List.nodup_cons.mp hnd
    cases bytes with
    | nil => rfl
    | cons b bytes =>
      have hrest : some x ∉ ((addrs.map some).zip bytes).map Prod.fst := by
        intro h
        have hmem := mem_of_mem_fst_zip h
        exact hx (by simpa using hmem)
      have hold : (addrs.drop bytes.length).map (Function.update mem x b) =
          (addrs.drop bytes.length).map mem := by
        refine List.map_congr_left fun y hy => Function.update_of_ne ?_ _ _
        rintro rfl
        exact hx (List.mem_of_mem_drop hy)
      have hself := applyStores_of_not_mem (Function.update mem x b) hrest
      rw [Function.update_self] at hself
      simp only [List.map_cons, List.zip_cons_cons, List.length_cons, List.drop_succ_cons,
        List.cons_append, applyStores, List.foldl_cons, storeByte]
      rw [← hold, ← ih (Function.update mem x b) hnd (by simpa using hlen)]
      exact congrArg (· :: _) hself

/-! ## Where the page pointers lead -/

/-- The part of `n` bytes that each of the buffers takes, one buffer after the other, ends inside the
five pages from the page of the buffer on. -/
def TakenFits : List MappedSlice → Nat → Prop
  | [], _ => True
  | b :: bs, n => FitsPages b.physAddr (BitVec.ofNat 64 (min n b.len)) ∧ TakenFits bs (n - b.len)

@[simp] theorem length_span (a : BitVec 64) (n : Nat) : (span a n).length = n := by simp [span]

theorem take_span (a : BitVec 64) (n k : Nat) : (span a n).take k = span a (min k n) := by
  rw [span, ← List.map_take, List.take_range]
  rfl

theorem pagedSpan_eq_iff {a : BitVec 64} {n : Nat} (hn : n < 2 ^ 64) :
    pagedSpan a 0 n = (span a n).map some ↔ FitsPages a (BitVec.ofNat 64 n) := by
  rw [FitsPages, BitVec.toNat_ofNat, Nat.mod_eq_of_lt hn]
  constructor
  · intro h
    by_contra hfit
    -- the last byte has no pointer
    have hlast := congrArg (fun l => l[n - 1]?) h
    have hpos : n - 1 < n := by omega
    simp [pagedSpan, span, hpos, pagedAddr] at hlast
    omega
  · intro hfit
    refine List.ext_getElem (by simp) fun i h1 h2 => ?_
    rw [length_pagedSpan] at h1
    simp only [pagedSpan, span, List.getElem_map, List.getElem_range', List.getElem_range, pagedAddr]
    rw [if_pos (by omega)]
    simp

theorem length_pagedAddrs (buffers : List MappedSlice) :
    (pagedAddrs buffers).length = (bufferAddrs buffers).length := by
  induction buffers with
  | nil => rfl
  | cons b bs ih =>
    rw [pagedAddrs_cons, bufferAddrs_cons, List.length_append, List.length_append, ih, length_pagedSpan,
      length_span]

/-- The page pointers lead to `n` bytes of the buffers exactly if what each buffer takes fits. -/
theorem pagedAddrs_eq_iff {buffers : List MappedSlice} {n : Nat} (hn : n < 2 ^ 64) :
    (pagedAddrs buffers).take n = ((bufferAddrs buffers).take n).map some ↔ TakenFits buffers n := by
  induction buffers generalizing n with
  | nil => simp [pagedAddrs, bufferAddrs, TakenFits]
  | cons b bs ih =>
    rw [pagedAddrs_cons, bufferAddrs_cons, List.take_append, List.take_append, List.map_append, take_pagedSpan, take_span,
      length_pagedSpan, length_span, TakenFits, ← ih (by omega), ← pagedSpan_eq_iff (by omega)]
    constructor
    · intro h
      exact List.append_inj h (by simp)
    · rintro ⟨h1, h2⟩
      rw [h1, h2]

/-- A byte of a buffer is found at its address or nowhere. -/
theorem pagedAddrs_getElem {buffers : List MappedSlice} {i : Nat} (h : i < (pagedAddrs buffers).length)
    (h' : i < (bufferAddrs buffers).length) :
    (pagedAddrs buffers)[i] = none ∨ (pagedAddrs buffers)[i] = some (bufferAddrs buffers)[i] := by
  induction buffers generalizing i with
  | nil => cases h
  | cons b bs ih =>
    simp only [pagedAddrs_cons, bufferAddrs_cons, List.getElem_append, length_pagedSpan, length_span]
    split
    · simp only [pagedSpan, span, List.getElem_map, List.getElem_range', List.getElem_range, pagedAddr]
      split
      · exact .inr (by simp)
      · exact .inl rfl
    · exact ih _ _

section Stored

variable {buffers : List MappedSlice} {response : List Byte}

theorem stored_iff (hn : response.length < 2 ^ 64) (hlen : response.length ≤ (bufferAddrs buffers).length) :
    (pagedAddrs buffers).zip response = ((bufferAddrs buffers).map some).zip response ↔
      TakenFits buffers response.length := by
  have hzip : ∀ l : List (Option (BitVec 64)), l.length = (bufferAddrs buffers).length →
      l.zip response = (l.take response.length).zip response := by
    intro l hl
    conv_lhs => rw [List.zip_eq_zip_take_min, hl, Nat.min_eq_right hlen, List.take_length]
  have hpaged := hzip _ (length_pagedAddrs buffers)
  have haddrs := hzip ((bufferAddrs buffers).map some) (List.length_map _)
  rw [← pagedAddrs_eq_iff hn, List.map_take, hpaged, haddrs]
  constructor
  · intro h
    have h' := congrArg (List.map Prod.fst) h
    rwa [List.map_fst_zip (by simp), List.map_fst_zip (by simp)] at h'
  · intro h
    rw [h]

theorem occupied_iff (hn : response.length < 2 ^ 64) (hlen : response.length ≤ (bufferAddrs buffers).length)
    (hnd : (bufferAddrs buffers).Nodup) :
    (∀ mem, (bufferAddrs buffers).map (applyStores mem ((pagedAddrs buffers).zip response)) =
      response ++ ((bufferAddrs buffers).drop response.length).map mem) ↔
      TakenFits buffers response.length := by
  rw [← stored_iff hn hlen]
  constructor
  · intro h
    have hlens := length_pagedAddrs buffers
    refine List.ext_getElem (by simp [hlens]) fun i h1 h2 => ?_
    rw [List.length_zip] at h1
    have hi : i < response.length := by omega
    have hia : i < (bufferAddrs buffers).length := by omega
    simp only [List.getElem_zip, List.getElem_map, Prod.mk.injEq, and_true]
    refine (pagedAddrs_getElem (by omega) hia).resolve_left fun hnone => ?_
    -- the byte is lost, and memory has what it had before
    have hlost : some (bufferAddrs buffers)[i] ∉ ((pagedAddrs buffers).zip response).map Prod.fst := by
      intro hmem
      obtain ⟨j, hj, he⟩ := List.getElem_of_mem (mem_of_mem_fst_zip hmem)
      rcases pagedAddrs_getElem hj (hlens ▸ hj) with hj' | hj'
      · rw [hj'] at he
        cases he
      · rw [hj', Option.some.injEq, hnd.getElem_inj_iff] at he
        subst he
        rw [hnone] at hj'
        cases hj'
    have hread := congrArg (fun l => l[i]?) (h fun _ => response[i] + 1)
    simp only [List.getElem?_map, List.getElem?_eq_getElem hia, Option.map_some,
      applyStores_of_not_mem _ hlost, List.getElem?_append_left hi, List.getElem?_eq_getElem hi,
      Option.some.injEq] at hread
    simp at hread
  · intro h mem
    rw [h, map_applyStores_zip mem hnd hlen]

end Stored

/-! ## The driver's count -/

theorem subU_received (oc : OverflowChecks) {len : Nat} {total : BitVec 15} (hlt : len < 2 ^ 15)
    (hle : total.toNat ≤ len) :
    subU oc (BitVec.ofNat 16 len) (total.setWidth 16) = some (BitVec.ofNat 16 (len - total.toNat)) := by
  have hlen : (BitVec.ofNat 16 len).toNat = len := by
    rw [BitVec.toNat_ofNat]
    exact Nat.mod_eq_of_lt (by omega)
  have htotal : (total.setWidth 16).toNat = total.toNat := BitVec.toNat_setWidth_of_le (by decide)
  rw [subU, if_neg (by omega), Option.some.injEq]
  apply BitVec.eq_of_toNat_eq
  rw [BitVec.toNat_sub_of_le (by rw [BitVec.le_def]; omega), hlen, htotal, BitVec.toNat_ofNat]
  exact (Nat.mod_eq_of_lt (by omega)).symm

/-- The loop of `transfer_in` adds up what the tokens say, without overflow. -/
theorem bytesTransferred_eq (oc : OverflowChecks) (q : Queue) {buffers : List MappedSlice}
    {ins rest : List MappedMem} (hlen : ins.length = buffers.length) {acc : BitVec 16}
    (hb : ∀ j ∈ (ins.map MappedMem.ptr).zip buffers, j.2.len < 2 ^ 15 ∧
      (q.qtds j.1).qtdToken.totalBytesToTransfer.toNat ≤ j.2.len)
    (hmax : acc.toNat + InJobs.received q.qtds ((ins.map MappedMem.ptr).zip buffers) < 2 ^ 16) :
    bytesTransferred oc q acc buffers (ins ++ rest) = some (acc +
      BitVec.ofNat 16 (InJobs.received q.qtds ((ins.map MappedMem.ptr).zip buffers))) := by
  induction buffers generalizing ins acc with
  | nil => simp [bytesTransferred, InJobs.received]
  | cons buffer buffers ih =>
    cases ins with
    | nil => cases hlen
    | cons m ins =>
      simp only [List.map_cons, List.zip_cons_cons, InJobs.received_cons] at hmax ⊢
      obtain ⟨hlt, hle⟩ : buffer.len < 2 ^ 15 ∧
          (q.qtds m.ptr).qtdToken.totalBytesToTransfer.toNat ≤ buffer.len :=
        hb (m.ptr, buffer) List.mem_cons_self
      have hsub := subU_received oc hlt hle
      generalize buffer.len - (q.qtds m.ptr).qtdToken.totalBytesToTransfer.toNat = n at hmax hsub ⊢
      have hn : (BitVec.ofNat 16 n).toNat = n := by
        rw [BitVec.toNat_ofNat]
        exact Nat.mod_eq_of_lt (by omega)
      have hadd : addU oc acc (BitVec.ofNat 16 n) = some (acc + BitVec.ofNat 16 n) := by
        rw [addU, if_neg (by omega)]
      have hacc : (acc + BitVec.ofNat 16 n).toNat = acc.toNat + n := by
        rw [BitVec.toNat_add, hn]
        exact Nat.mod_eq_of_lt (by omega)
      simp only [List.cons_append, bytesTransferred, if_pos (show buffer.len < 2 ^ 16 by omega), hsub,
        hadd, Option.bind_eq_bind, Option.bind_some]
      rw [ih (by simpa using hlen) (fun j hj => hb j (List.mem_cons_of_mem _ hj)) (by omega),
        BitVec.add_assoc, BitVec.ofNat_add]

theorem transferInStart_inChain {dma : Dma} {oc : OverflowChecks} {seg : CtrlDsSegment} {q q' : Queue}
    {setupPacket setup status : MappedMem} {buffers : List MappedSlice} {ins : List MappedMem}
    (husable : ∀ m ∈ setup :: (ins ++ [status]), m.Usable dma seg)
    (hnd : ((setup :: (ins ++ [status])).map MappedMem.ptr).Nodup)
    (hlen : ins.length = buffers.length) (hpos : 0 < ins.length)
    (h : transferInStart oc seg q setupPacket buffers (setup :: (ins ++ [status])) = some q') :
    InChain dma seg q'.qtds setup.ptr ((ins.map MappedMem.ptr).zip buffers) status.ptr ∧
      IdleAt dma seg q' (some setup.ptr) := by
  have hatt := transferInStart_attached husable hnd hlen hpos h
  obtain ⟨hsetup, hins, hstatus⟩ := transferInStart_data (husable status (by simp)) hnd hlen hpos h
  have hfst : ((ins.map MappedMem.ptr).zip buffers).map Prod.fst = ins.map MappedMem.ptr :=
    List.map_fst_zip (by simp [hlen])
  refine ⟨⟨?_, hsetup, fun j hj => ?_, hstatus⟩, hatt.idle.1, hatt.idle.2, hatt.head⟩
  · rw [hfst]
    exact hatt.chain
  · rw [List.zip_map_left] at hj
    obtain ⟨mb, hmb, rfl⟩ := List.mem_map.mp hj
    exact ⟨_, hins mb hmb, alt_newValid (husable status (by simp))⟩

section Transfer

variable {dma : Dma} {oc : OverflowChecks} {seg : CtrlDsSegment} {q q₀ : Queue}
  {setupPacket : MappedMem} {buffers : List MappedSlice} {qtds : List MappedMem}
  {response : List Byte} {tr : List DataLabel} {s : DataStage}

theorem inPhase_of_exec {setup status : MappedMem} {ins : List MappedMem}
    (husable : ∀ m ∈ setup :: (ins ++ [status]), m.Usable dma seg)
    (hnd : ((setup :: (ins ++ [status])).map MappedMem.ptr).Nodup)
    (hlen : ins.length = buffers.length) (hpos : 0 < ins.length)
    (hn : response.length ≤ InJobs.size ((ins.map MappedMem.ptr).zip buffers))
    (hb : transferInStart oc seg q setupPacket buffers (setup :: (ins ++ [status])) = some q₀)
    (hr : exec (DataStage.step dma seg) (.start q₀ response) tr = some s) :
    InChain dma seg q₀.qtds setup.ptr ((ins.map MappedMem.ptr).zip buffers) status.ptr ∧
      InPhase dma seg q₀.qtds setup.ptr ((ins.map MappedMem.ptr).zip buffers) status.ptr response s := by
  obtain ⟨hchain, hidle⟩ := transferInStart_inChain husable hnd hlen hpos hb
  have hjobs : (ins.map MappedMem.ptr).zip buffers ≠ [] := by
    rw [← List.length_pos_iff, List.length_zip, List.length_map]
    omega
  refine ⟨hchain, exec_invariant ?_ (fun _ _ _ h hs => h.step hchain hjobs hn hs) hr⟩
  exact .start hidle rfl rfl ⟨Nat.zero_le _, rfl, rfl⟩

theorem size_zip {ps : List Ptr} (h : ps.length = buffers.length) :
    InJobs.size (ps.zip buffers) = (buffers.map MappedSlice.len).sum := by
  have hsnd : (ps.zip buffers).map Prod.snd = buffers := List.map_snd_zip (by omega)
  conv_rhs => rw [← hsnd, List.map_map]
  rfl

theorem addrs_zip {ps : List Ptr} (h : ps.length = buffers.length) :
    InJobs.addrs (ps.zip buffers) = pagedAddrs buffers := by
  rw [InJobs.addrs, List.map_snd_zip (by omega)]

/-- When the status descriptor is inactive, the controller has executed the setup descriptor, a prefix
of the IN descriptors in order and the status descriptor; what the device sent went where the page
pointers lead; and the driver counts it. -/
theorem transferIn_settled {status : MappedMem} (husable : ∀ m ∈ qtds, m.Usable dma seg)
    (hnd : (qtds.map MappedMem.ptr).Nodup)
    (hn : response.length ≤ min 65535 (buffers.map MappedSlice.len).sum)
    (hb : transferInStart oc seg q setupPacket buffers qtds = some q₀)
    (hlast : qtds.getLast? = some status)
    (hr : exec (DataStage.step dma seg) (.start q₀ response) tr = some s)
    (hw : s.queue.waitTest status.ptr = true) :
    (∃ setup ins k, qtds = setup :: (ins ++ [status]) ∧ k ≤ ins.length ∧
      s.executed = setup.ptr :: ((ins.take k).map MappedMem.ptr ++ [status.ptr])) ∧
    s.stores = (pagedAddrs buffers).zip response ∧
    (∃ n, bytesTransferred oc s.queue 0 buffers (qtds.drop 1) = some n ∧ n.toNat = response.length) ∧
    response.length ≤ (bufferAddrs buffers).length := by
  obtain ⟨setup, ins, status', rfl, hlen, hpos⟩ := transferInStart_shape hb
  obtain rfl : status' = status := by
    rw [← List.cons_append, List.getLast?_concat] at hlast
    exact Option.some.inj hlast
  have hlen' : (ins.map MappedMem.ptr).length = buffers.length := by rw [List.length_map, hlen]
  have hsize := size_zip hlen'
  obtain ⟨hn16, hntotal⟩ := Nat.le_min.mp hn
  obtain ⟨hchain, hphase⟩ := inPhase_of_exec husable hnd hlen hpos (hsize ▸ hntotal) hb hr
  obtain ⟨pre, rest, hsplit, hexec, hbounded, hreceived, hmoved⟩ := hphase.finished_of_waitTest hchain hw
  refine ⟨⟨setup, ins, pre.length, rfl, ?_, ?_⟩, ?_, ⟨BitVec.ofNat 16 response.length, ?_, ?_⟩, ?_⟩
  · have := congrArg List.length hsplit
    rw [List.length_append, List.length_zip, List.length_map] at this
    omega
  · -- the descriptors of a prefix of the jobs
    have hpre : pre.map Prod.fst = (ins.take pre.length).map MappedMem.ptr := by
      have hfst : ((ins.map MappedMem.ptr).zip buffers).map Prod.fst = ins.map MappedMem.ptr :=
        List.map_fst_zip (by omega)
      rw [hsplit, List.map_append] at hfst
      rw [List.map_take, ← hfst, List.take_left' (List.length_map _)]
    rw [hexec, hpre]
  · rw [hmoved.stores, addrs_zip hlen', List.take_of_length_le]
    rw [List.length_zip]
    exact Nat.min_le_right _ _
  · have : bytesTransferred oc s.queue 0 buffers (ins ++ [status']) = _ :=
      bytesTransferred_eq oc s.queue hlen hbounded (by rw [hreceived]; simp; omega)
    simpa [hreceived] using this
  · rw [BitVec.toNat_ofNat]
    exact Nat.mod_eq_of_lt (by omega)
  · rw [← length_pagedAddrs, ← addrs_zip hlen', InJobs.length_addrs, hsize]
    exact hntotal

/-- The transfer ran along its chain, the response occupies the first bytes of the buffers, in order,
and `transfer_in` returns its length. -/
structure ReturnsResponse (oc : OverflowChecks) (buffers : List MappedSlice) (qtds : List MappedMem)
    (response : List Byte) (s : DataStage) : Prop where
  executed : ∃ setup ins status k, qtds = setup :: (ins ++ [status]) ∧ k ≤ ins.length ∧
    s.executed = setup.ptr :: ((ins.take k).map MappedMem.ptr ++ [status.ptr])
  stored : s.stores = ((bufferAddrs buffers).map some).zip response
  occupied : (bufferAddrs buffers).Nodup → ∀ mem, (bufferAddrs buffers).map (applyStores mem s.stores) =
    response ++ ((bufferAddrs buffers).drop response.length).map mem
  returned : ∃ n, bytesTransferred oc s.queue 0 buffers (qtds.drop 1) = some n ∧
    n.toNat = response.length

/-- **When a control IN transfer returns what the device sent**: exactly if the part of the response
that each buffer takes ends inside the five pages. Elsewhere bytes are missing from the buffers, also
from distinct ones. -/
theorem transferIn_response_iff {status : MappedMem} (husable : ∀ m ∈ qtds, m.Usable dma seg)
    (hnd : (qtds.map MappedMem.ptr).Nodup)
    (hn : response.length ≤ min 65535 (buffers.map MappedSlice.len).sum)
    (hb : transferInStart oc seg q setupPacket buffers qtds = some q₀)
    (hlast : qtds.getLast? = some status)
    (hr : exec (DataStage.step dma seg) (.start q₀ response) tr = some s)
    (hw : s.queue.waitTest status.ptr = true) :
    (ReturnsResponse oc buffers qtds response s ↔ TakenFits buffers response.length) ∧
    ((bufferAddrs buffers).Nodup → ((∀ mem, (bufferAddrs buffers).map (applyStores mem s.stores) =
      response ++ ((bufferAddrs buffers).drop response.length).map mem) ↔
        TakenFits buffers response.length)) := by
  obtain ⟨⟨setup, ins, k, hqtds, hk, hexec⟩, hstores, hcount, hlen⟩ :=
    transferIn_settled husable hnd hn hb hlast hr hw
  have hmax : response.length < 2 ^ 64 := by omega
  have hoccupied : (bufferAddrs buffers).Nodup → _ := occupied_iff hmax hlen
  rw [← hstores] at hoccupied
  refine ⟨⟨fun h => ?_, fun h => ?_⟩, hoccupied⟩
  · rw [← stored_iff hmax hlen, ← hstores]
    exact h.stored
  · refine ⟨⟨setup, ins, status, k, hqtds, hk, hexec⟩, ?_, fun hd => (hoccupied hd).mpr h, hcount⟩
    rw [hstores]
    exact (stored_iff hmax hlen).mpr h

/-- A two-buffer transfer; the device's response ends exactly with the first buffer, so that the
second descriptor receives a zero-length packet. -/
theorem transferIn_response_boundary :
    let buffers : List MappedSlice := [⟨0x5000, 0x5000, 64⟩, ⟨0x6000, 0x6000, 100⟩]
    let qtds : List MappedMem := [⟨0x1000, 0x1000⟩, ⟨0x1040, 0x1040⟩, ⟨0x1080, 0x1080⟩, ⟨0x10c0, 0x10c0⟩]
    let response : List Byte := (List.range 64).map (BitVec.ofNat 8)
    ∃ q₀ s, transferInStart .on .lower4G blankQueue ⟨0x3000, 0x3000⟩ buffers qtds = some q₀ ∧
      exec (DataStage.step .identity .lower4G) (.start q₀ response)
        [.fetch, .retire, .fetch, .store 64, .retire, .fetch, .retire, .fetch, .retire] = some s ∧
      s.executed = [0x1000, 0x1040, 0x1080, 0x10c0] ∧ ReturnsResponse .on buffers qtds response s := by
  intro buffers qtds response
  have h : ((transferInStart .on .lower4G blankQueue ⟨0x3000, 0x3000⟩ buffers qtds).bind fun q₀ =>
      (exec (DataStage.step .identity .lower4G) (.start q₀ response) [.fetch, .retire, .fetch, .store 64,
        .retire, .fetch, .retire, .fetch, .retire]).map fun s => (s.executed, s.queue.waitTest 0x10c0)) =
      some ([0x1000, 0x1040, 0x1080, 0x10c0], true) := by decide +kernel
  obtain ⟨q₀, hq₀, h⟩ := Option.bind_eq_some_iff.mp h
  obtain ⟨s, hs, h⟩ := Option.map_eq_some_iff.mp h
  obtain ⟨hexec, hwait⟩ := Prod.mk.inj h
  have hiff := (transferIn_response_iff (by decide) (by decide) (by decide) hq₀
    (show qtds.getLast? = some ⟨0x10c0, 0x10c0⟩ from rfl) hs hwait).1
  exact ⟨q₀, s, hq₀, hs, hexec, hiff.mpr ⟨by decide, by decide, trivial⟩⟩

end Transfer

/-- A buffer of five pages that starts in the middle of a page is accepted, but the last bytes of a
response that fills it have no page pointer. -/
theorem not_transferIn_response_sixth_page :
    ¬ ∀ (dma : Dma) (oc : OverflowChecks) (seg : CtrlDsSegment) (q q₀ : Queue) (setupPacket status : MappedMem)
      (buffers : List MappedSlice) (qtds : List MappedMem) (response : List Byte) (tr : List DataLabel)
      (s : DataStage), (∀ b ∈ buffers, 0 < b.len) → (∀ b ∈ buffers.dropLast, 64 ∣ b.len) →
      (∀ m ∈ qtds, m.Usable dma seg) → (qtds.map MappedMem.ptr).Nodup →
      response.length ≤ min 65535 (buffers.map MappedSlice.len).sum →
      transferInStart oc seg q setupPacket buffers qtds = some q₀ → qtds.getLast? = some status →
      exec (DataStage.step dma seg) (.start q₀ response) tr = some s → s.queue.waitTest status.ptr = true →
      ReturnsResponse oc buffers qtds response s := by
  intro h
  let setup : MappedMem := ⟨0x1000, 0x1000⟩
  let data : MappedMem := ⟨0x1040, 0x1040⟩
  let status : MappedMem := ⟨0x1080, 0x1080⟩
  let buffers : List MappedSlice := [⟨0x1800, 0x1800, 0x5000⟩]
  let qtds := setup :: ([data] ++ [status])
  let response : List Byte := List.replicate 0x5000 0
  have husable : ∀ m ∈ qtds, m.Usable .identity .lower4G := by decide
  have hnd : (qtds.map MappedMem.ptr).Nodup := by decide
  have hlen : response.length = 0x5000 := List.length_replicate
  have hn : response.length ≤ min 65535 (buffers.map MappedSlice.len).sum := by
    rw [hlen]
    decide
  obtain ⟨q₀, hq₀⟩ : ∃ q₀, transferInStart .on .lower4G blankQueue ⟨0x3000, 0x3000⟩ buffers qtds = some q₀ :=
    Option.isSome_iff_exists.mp (by decide +kernel)
  -- the transfer is attached, and the controller can take it to its end
  have hstart : exec (DataStage.step .identity .lower4G) (.start q₀ response) [] =
      some (.start q₀ response) := rfl
  obtain ⟨hchain, hphase⟩ := inPhase_of_exec husable hnd rfl Nat.one_pos (by rw [hlen]; decide) hq₀ hstart
  obtain ⟨tr, s, hrun, hwait⟩ := hphase.exists_finished hchain (by simp [buffers]) (by rw [hlen]; decide)
  have hlast : qtds.getLast? = some status := rfl
  obtain ⟨-, hstores, -, hle⟩ := transferIn_settled husable hnd hn hq₀ hlast hrun hwait
  have hr := (h .identity .on .lower4G blankQueue q₀ ⟨0x3000, 0x3000⟩ status buffers qtds response tr s
    (by decide) (by decide) husable hnd hn hq₀ hlast hrun hwait).stored
  rw [hstores, stored_iff (by rw [hlen]; decide) hle, hlen] at hr
  exact absurd hr.1 (by decide)

end EzEhci
