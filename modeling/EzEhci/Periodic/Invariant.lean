import EzEhci.Periodic.Schedule

/-!
# The representation invariant of the periodic list

What holds of the manager's memory after every sequence of `add_qh` calls: the
links the controller follows and the `next` pointers of the driver name the
same list, `prev` is inverse to `next`, the QHs of one interval are next to
each other with the table pointing at the last of them, and the frame list
points into the list.
-/

namespace EzEhci

open Lib

/-! ## Blocks of one interval -/

/-- The added QHs of table place `i`. -/
def blockOf (reqs : List PeriodicEntry) (i : Fin 11) : List PeriodicEntry :=
  reqs.filter fun e => e.index = i

theorem mem_blockOf {reqs : List PeriodicEntry} {i : Fin 11} {e : PeriodicEntry} :
    e ∈ blockOf reqs i ↔ e ∈ reqs ∧ e.index = i := by
  simp [blockOf]

/-- The list consists of the blocks of the places in `order`. -/
structure Arranged (reqs l : List PeriodicEntry) (order : List (Fin 11)) : Prop where
  nodup : order.Nodup
  mem : ∀ i, i ∈ order ↔ ∃ e ∈ reqs, e.index = i
  eq : l = order.flatMap (blockOf reqs)

section Arranged

variable {reqs l : List PeriodicEntry} {order : List (Fin 11)} {x : PeriodicEntry}

theorem index_mem_of_flatMap {e : PeriodicEntry} (h : e ∈ order.flatMap (blockOf reqs)) :
    e.index ∈ order := by
  obtain ⟨i, hi, he⟩ := List.mem_flatMap.mp h
  rw [(mem_blockOf.mp he).2]
  exact hi

theorem Arranged.exists_iff (h : Arranged reqs l order) (i : Fin 11) :
    (∃ e ∈ l, e.index = i) ↔ i ∈ order := by
  rw [h.eq]
  constructor
  · rintro ⟨e, he, rfl⟩
    exact index_mem_of_flatMap he
  · intro hi
    obtain ⟨e, he, hei⟩ := (h.mem i).mp hi
    exact ⟨e, List.mem_flatMap.mpr ⟨i, hi, mem_blockOf.mpr ⟨he, hei⟩⟩, hei⟩

theorem Arranged.split (h : Arranged reqs l order) {i : Fin 11} {o₁ o₂ : List (Fin 11)}
    (ho : order = o₁ ++ i :: o₂) :
    l = o₁.flatMap (blockOf reqs) ++ (blockOf reqs i ++ o₂.flatMap (blockOf reqs)) ∧
    (∀ e ∈ o₁.flatMap (blockOf reqs), e.index ≠ i) ∧ ∀ e ∈ o₂.flatMap (blockOf reqs), e.index ≠ i := by
  have hnd := h.nodup
  rw [ho, List.nodup_middle, List.nodup_cons, List.mem_append, not_or] at hnd
  refine ⟨by rw [h.eq, ho, List.flatMap_append, List.flatMap_cons], fun e he hi => ?_, fun e he hi => ?_⟩
  · exact hnd.1.1 (hi ▸ index_mem_of_flatMap he)
  · exact hnd.1.2 (hi ▸ index_mem_of_flatMap he)

/-- Insertion behind the last entry of a place ends its block. -/
theorem Arranged.insertAfterLast (h : Arranged reqs l order) {i : Fin 11} {o₁ o₂ : List (Fin 11)}
    (ho : order = o₁ ++ i :: o₂) :
    insertAfterLast i x l =
      o₁.flatMap (blockOf reqs) ++ (blockOf reqs i ++ x :: o₂.flatMap (blockOf reqs)) := by
  obtain ⟨hl, -, hafter⟩ := h.split ho
  obtain ⟨e, he, hei⟩ := (h.mem i).mp (by simp [ho])
  obtain ⟨b, d, hb⟩ : ∃ b d, blockOf reqs i = b ++ [d] :=
    ⟨_, _, (List.dropLast_append_getLast (List.ne_nil_of_mem (mem_blockOf.mpr ⟨he, hei⟩))).symm⟩
  have hd : d.index = i := (mem_blockOf.mp (by rw [hb]; simp : d ∈ blockOf reqs i)).2
  rw [hl, hb, List.append_assoc, ← List.append_assoc, List.singleton_append,
    insertAfterLast_split hd hafter]
  simp

theorem blockOf_snoc_self : blockOf (reqs ++ [x]) x.index = blockOf reqs x.index ++ [x] := by
  simp [blockOf]

theorem blockOf_snoc_of_ne {i : Fin 11} (h : x.index ≠ i) : blockOf (reqs ++ [x]) i = blockOf reqs i := by
  simp [blockOf, h]

theorem flatMap_blockOf_snoc {o : List (Fin 11)} (h : x.index ∉ o) :
    o.flatMap (blockOf (reqs ++ [x])) = o.flatMap (blockOf reqs) := by
  refine List.flatMap_congr fun i hi => ?_
  exact blockOf_snoc_of_ne fun heq => h (heq ▸ hi)

theorem mem_order_snoc (h : ∀ i, i ∈ order ↔ ∃ e ∈ reqs, e.index = i) (i : Fin 11) :
    (∃ e ∈ reqs ++ [x], e.index = i) ↔ i ∈ order ∨ i = x.index := by
  rw [h i]
  constructor
  · rintro ⟨e, he, hi⟩
    rcases List.mem_append.mp he with he | he
    · exact .inl ⟨e, he, hi⟩
    · exact .inr (by rw [← hi, List.mem_singleton.mp he])
  · rintro (⟨e, he, hi⟩ | rfl)
    · exact ⟨e, List.mem_append_left _ he, hi⟩
    · exact ⟨x, by simp, rfl⟩

/-- An insertion extends a block or starts a new one. -/
theorem Arranged.insertEntry (h : Arranged reqs l order) :
    ∃ order', Arranged (reqs ++ [x]) (insertEntry x l) order' := by
  unfold EzEhci.insertEntry
  split
  next hex =>
    obtain ⟨o₁, o₂, ho⟩ := List.append_of_mem ((h.exists_iff x.index).mp hex)
    have hnd := h.nodup
    rw [ho, List.nodup_middle, List.nodup_cons, List.mem_append, not_or] at hnd
    refine ⟨order, h.nodup, fun i => ?_, ?_⟩
    · rw [mem_order_snoc h.mem]
      exact ⟨.inl, fun hi => hi.elim id fun hi => by rw [hi, ho]; simp⟩
    · rw [h.insertAfterLast ho, ho, List.flatMap_append, List.flatMap_cons, blockOf_snoc_self,
        flatMap_blockOf_snoc hnd.1.1, flatMap_blockOf_snoc hnd.1.2]
      simp
  next hnew =>
    have hx : x.index ∉ order := fun hx => hnew ((h.exists_iff _).mpr hx)
    have hself : blockOf (reqs ++ [x]) x.index = [x] := by
      rw [blockOf_snoc_self, List.append_left_eq_self, List.eq_nil_iff_forall_not_mem]
      intro e he
      exact hx ((h.mem _).mpr ⟨e, (mem_blockOf.mp he).1, (mem_blockOf.mp he).2⟩)
    -- at the front, or behind the first block
    have hfront : Arranged (reqs ++ [x]) (x :: l) (x.index :: order) := by
      refine ⟨List.nodup_cons.mpr ⟨hx, h.nodup⟩, fun i => ?_, ?_⟩
      · rw [mem_order_snoc h.mem, List.mem_cons, or_comm]
      · rw [List.flatMap_cons, hself, flatMap_blockOf_snoc hx, ← h.eq]
        rfl
    split
    next d hd =>
      split
      · cases order with
        | nil =>
          rw [h.eq] at hd
          cases hd
        | cons i o =>
          have hdi : d.index = i := by
            obtain ⟨e, he, hei⟩ := (h.mem i).mp List.mem_cons_self
            obtain ⟨b, bs, hb⟩ := List.exists_cons_of_ne_nil
              (List.ne_nil_of_mem (mem_blockOf.mpr ⟨he, hei⟩))
            rw [h.eq, List.flatMap_cons, hb, List.cons_append, List.head?_cons] at hd
            cases hd
            exact (mem_blockOf.mp (by rw [hb]; exact List.mem_cons_self)).2
          have hxo := List.mem_cons.not.mp hx
          rw [not_or] at hxo
          obtain ⟨hio, hnd⟩ := List.nodup_cons.mp h.nodup
          refine ⟨i :: x.index :: o, ?_, fun j => ?_, ?_⟩
          · rw [List.nodup_cons, List.nodup_cons, List.mem_cons, not_or]
            exact ⟨⟨Ne.symm hxo.1, hio⟩, hxo.2, hnd⟩
          · rw [mem_order_snoc h.mem]
            simp only [List.mem_cons]
            tauto
          · rw [hdi, h.insertAfterLast (show i :: o = [] ++ i :: o from rfl), List.flatMap_cons, List.flatMap_cons, hself,
              blockOf_snoc_of_ne hxo.1, flatMap_blockOf_snoc hxo.2]
            rfl
      · exact ⟨_, hfront⟩
    next hnone =>
      rw [List.head?_eq_none_iff.mp hnone] at hfront
      exact ⟨_, hfront⟩

theorem arranged_scheduleOf (reqs : List PeriodicEntry) :
    ∃ order, Arranged reqs (scheduleOf reqs) order := by
  induction reqs using List.reverseRecOn with
  | nil => exact ⟨[], List.nodup_nil, by simp, rfl⟩
  | append_singleton reqs x ih =>
    obtain ⟨order, h⟩ := ih
    have hsched : scheduleOf (reqs ++ [x]) = EzEhci.insertEntry x (scheduleOf reqs) := by
      simp [scheduleOf]
    rw [hsched]
    exact h.insertEntry

theorem Arranged.block (h : Arranged reqs l order) (i : Fin 11) :
    ∃ l₁ l₂, l = l₁ ++ (blockOf reqs i ++ l₂) ∧ (∀ e ∈ l₁, e.index ≠ i) ∧ ∀ e ∈ l₂, e.index ≠ i := by
  by_cases hi : i ∈ order
  · obtain ⟨o₁, o₂, ho⟩ := List.append_of_mem hi
    exact ⟨_, _, h.split ho⟩
  · refine ⟨l, [], ?_, fun e he hei => hi ((h.exists_iff i).mp ⟨e, he, hei⟩), nofun⟩
    have hnil : blockOf reqs i = [] := List.eq_nil_iff_forall_not_mem.mpr fun e he =>
      hi ((h.mem i).mpr ⟨e, (mem_blockOf.mp he).1, (mem_blockOf.mp he).2⟩)
    rw [hnil, List.append_nil, List.append_nil]

theorem Arranged.lastAt (h : Arranged reqs l order) (i : Fin 11) :
    lastAt i l = (blockOf reqs i).getLast? := by
  obtain ⟨l₁, l₂, rfl, h1, h2⟩ := h.block i
  have hfilter : ∀ k : List PeriodicEntry, (∀ e ∈ k, e.index ≠ i) →
      k.filter (fun e => decide (e.index = i)) = [] := by
    intro k hk
    simpa [List.filter_eq_nil_iff] using hk
  unfold EzEhci.lastAt
  rw [List.filter_append, List.filter_append, hfilter l₁ h1, hfilter l₂ h2, List.append_nil,
    List.nil_append, blockOf, List.filter_filter]
  simp

end Arranged

/-! ## The invariant -/

/-- The QH a frame list element points at. -/
def slotTarget (dma : Dma) (s : PeriodicState) (f : Fin 1024) : Option Ptr :=
  (s.mgr.list f).ptr.map fun a => dma.virt (s.mgr.ctrlDsSegment.addr a)

/-- The manager's memory after the QHs `reqs` were added, with the QHs in the order of the `chain`. -/
structure ChainInvariant (dma : Dma) (s : PeriodicState) (reqs chain : List PeriodicEntry) : Prop where
  /-- Every added QH is in the chain once. -/
  perm : chain.Perm reqs
  nodup : (ptrs chain).Nodup
  /-- From `first_qh` the horizontal links and the `next` pointers visit the chain and end. -/
  links : Walk (hwNext dma s.mgr.ctrlDsSegment s.heap) (s.mgr.firstQh.map MappedMem.ptr) (ptrs chain)
  next : Walk (fun p => (s.heap p).next) (s.mgr.firstQh.map MappedMem.ptr) (ptrs chain)
  /-- `prev` is inverse to `next`. -/
  prev : ∀ p ∈ ptrs chain, ∀ q ∈ ptrs chain, (s.heap p).next = some q ↔ (s.heap q).prev = some p
  prev_none : ∀ p ∈ ptrs chain, (s.heap p).prev = none ↔ s.mgr.firstQh.map MappedMem.ptr = some p
  /-- The QHs of one interval are a block of the chain, and the table holds its last QH. -/
  block : ∀ i, ∃ l₁ l₂, chain = l₁ ++ (blockOf reqs i ++ l₂)
  table : ∀ i, s.mgr.qhs i = (blockOf reqs i).getLast?.map (·.qh)
  table_none : ∀ i, s.mgr.qhs i = none ↔ ∀ e ∈ reqs, e.index ≠ i
  /-- Slot 0 points at `first_qh`, every slot into the chain. -/
  slot_zero : reqs ≠ [] → slotTarget dma s 0 = s.mgr.firstQh.map MappedMem.ptr ∧ s.mgr.firstQh ≠ none
  slot : ∀ f, slotTarget dma s f = none ∨ ∃ p ∈ ptrs chain, slotTarget dma s f = some p

theorem slotTarget_of_element {dma : Dma} {s : PeriodicState} {f : Fin 1024} {m : MappedMem}
    (hu : m.Usable dma s.mgr.ctrlDsSegment) (hf : s.mgr.list f = elementTo m) :
    slotTarget dma s f = some m.ptr := by
  rw [slotTarget, hf, elementTo, PeriodicFrameListElement.ptr_new, shift5_of_aligned hu.aligned,
    Option.map_some, hu.resolve]

theorem PeriodicRep.chainInvariant {dma : Dma} {s : PeriodicState} {reqs l : List PeriodicEntry}
    {order : List (Fin 11)} (h : PeriodicRep dma s l) (ha : Arranged reqs l order)
    (hperm : l.Perm reqs) : ChainInvariant dma s reqs l := by
  have hfirst : s.mgr.firstQh.map MappedMem.ptr = (ptrs l).head? := by
    rw [h.list.first, ptrs, List.head?_map, Option.map_map]
    rfl
  refine ⟨hperm, h.list.nodup, ?_, ?_, fun p hp q hq => ?_, fun p hp => ?_, fun i => ?_, fun i => ?_,
    fun i => ?_, fun hne => ?_, fun f => ?_⟩
  · rw [hfirst]
    exact h.list.links.walk
  · rw [hfirst]
    exact h.list.next.walk
  · exact linked_iff_backLinked h.list.next h.list.prev hp hq
  · rw [hfirst]
    exact backLinked_none_iff h.list.prev hp
  · obtain ⟨l₁, l₂, hl, -⟩ := ha.block i
    exact ⟨l₁, l₂, hl⟩
  · rw [h.list.last, ha.lastAt]
  · rw [h.list.last, Option.map_eq_none_iff, lastAt_eq_none]
    exact forall_congr' fun e => by rw [hperm.mem_iff]
  · obtain ⟨d, hd⟩ := Option.isSome_iff_exists.mp
      (List.isSome_head?.mpr fun hl => hne (List.nil_perm.mp (hl ▸ hperm)))
    have hu := h.list.usable d (List.mem_of_mem_head? hd)
    rw [slotTarget_of_element hu (h.slots.zero d hd), h.list.first, hd]
    exact ⟨rfl, nofun⟩
  · rcases h.slots.member f with hf | ⟨e, he, hf⟩
    · refine .inl ?_
      rw [slotTarget, hf, PeriodicFrameListElement.ptr_terminated]
      rfl
    · exact .inr ⟨e.qh.ptr, List.mem_map.mpr ⟨e, he, rfl⟩,
        slotTarget_of_element (h.list.usable e he) hf⟩

/-- **The representation invariant** holds after every sequence of `add_qh` calls on distinct usable
QHs, none of which panics. -/
theorem addAll_chainInvariant {dma : Dma} {seg : CtrlDsSegment} (heap : Heap QhWithMetaP)
    {reqs : List PeriodicEntry} (hu : ∀ e ∈ reqs, e.qh.Usable dma seg)
    (hnd : (reqs.map fun e => e.qh.ptr).Nodup) :
    ∃ s chain, addAll ⟨heap, .new .empty seg⟩ reqs = some s ∧ ChainInvariant dma s reqs chain := by
  obtain ⟨s, hs, hrep, -, hperm⟩ := addAll_refines dma seg heap reqs hu hnd
  obtain ⟨order, harr⟩ := arranged_scheduleOf reqs
  exact ⟨s, scheduleOf reqs, hs, hrep.chainInvariant harr hperm⟩

/-- QHs of 8 ms, 1 ms, 2 ms and 8 ms again. -/
theorem addAll_chainInvariant_four :
    ∃ s chain, addAll ⟨blankQhs, .new .empty .lower4G⟩
        [entryAt 0x1000 6 (by decide), entryAt 0x2000 3 (by decide), entryAt 0x3000 4 (by decide),
          entryAt 0x4000 6 (by decide)] = some s ∧
      ChainInvariant .identity s [entryAt 0x1000 6 (by decide), entryAt 0x2000 3 (by decide),
        entryAt 0x3000 4 (by decide), entryAt 0x4000 6 (by decide)] chain :=
  addAll_chainInvariant blankQhs (by decide) (by decide)

end EzEhci
