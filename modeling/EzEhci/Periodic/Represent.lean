import EzEhci.Lib.Linked
import EzEhci.Periodic.Manager

/-!
# What `add_qh` does to the periodic list

The abstract list is the sequence of added QHs in the order the controller
meets them; `insertEntry` is the driver's insertion on it. `ListRep` relates
the list to the heap and the manager's table, `SlotRep` to the frame list.
`addQh_refines`: from a represented list, `addQh` does not panic and
represents the list with the new entry inserted.
-/

namespace EzEhci

open Lib

/-- A QH handed to `add_qh` with its interval. -/
structure PeriodicEntry where
  qh : MappedMem
  interval : NormalizedInterval
  deriving DecidableEq

/-- The entry's place in the manager's table. -/
abbrev PeriodicEntry.index (e : PeriodicEntry) : Fin 11 := e.interval.index

/-! ## Insertion on the abstract list -/

/-- Insert `x` right after the last entry of table place `i`. -/
def insertAfterLast (i : Fin 11) (x : PeriodicEntry) : List PeriodicEntry → List PeriodicEntry
  | [] => []
  | e :: l =>
    if e.index = i ∧ ∀ d ∈ l, d.index ≠ i then e :: x :: l else e :: insertAfterLast i x l

/-- The place of a new entry: behind the entries of its own interval, else behind those of the
smallest interval present, else (it is itself the smallest) at the front. -/
def insertEntry (x : PeriodicEntry) (l : List PeriodicEntry) : List PeriodicEntry :=
  if ∃ e ∈ l, e.index = x.index then insertAfterLast x.index x l
  else match l.head? with
    | some h => if h.index < x.index then insertAfterLast h.index x l else x :: l
    | none => [x]

theorem insertAfterLast_split {i : Fin 11} {x e : PeriodicEntry} {l₁ l₂ : List PeriodicEntry}
    (he : e.index = i) (h2 : ∀ d ∈ l₂, d.index ≠ i) :
    insertAfterLast i x (l₁ ++ e :: l₂) = l₁ ++ e :: x :: l₂ := by
  induction l₁ with
  | nil => simp only [List.nil_append, insertAfterLast]; rw [if_pos ⟨he, h2⟩]
  | cons a l₁ ih =>
    simp only [List.cons_append, insertAfterLast]
    rw [if_neg (fun h => h.2 e (by simp) he), ih]

def lastAt (i : Fin 11) (l : List PeriodicEntry) : Option PeriodicEntry :=
  (l.filter fun e => e.index = i).getLast?

theorem lastAt_eq_some {i : Fin 11} {e : PeriodicEntry} {l : List PeriodicEntry}
    (h : lastAt i l = some e) :
    ∃ l₁ l₂, l = l₁ ++ e :: l₂ ∧ e.index = i ∧ ∀ d ∈ l₂, d.index ≠ i := by
  obtain ⟨init, hi⟩ := List.getLast?_eq_some_iff.mp h
  obtain ⟨l₁, l', rfl, -, h2⟩ := List.filter_eq_append_iff.mp hi
  obtain ⟨k₁, k₂, rfl, -, he, h3⟩ := List.filter_eq_cons_iff.mp h2
  refine ⟨l₁ ++ k₁, k₂, by simp, by simpa using he, fun d hd => ?_⟩
  simpa using List.filter_eq_nil_iff.mp h3 d hd

theorem lastAt_eq_none {i : Fin 11} {l : List PeriodicEntry} :
    lastAt i l = none ↔ ∀ e ∈ l, e.index ≠ i := by
  simp [lastAt]

theorem lastAt_insert_self {x : PeriodicEntry} {l₁ l₂ : List PeriodicEntry}
    (h : ∀ d ∈ l₂, d.index ≠ x.index) : lastAt x.index (l₁ ++ x :: l₂) = some x := by
  have h2 : l₂.filter (fun e => decide (e.index = x.index)) = [] := by
    simpa [List.filter_eq_nil_iff] using h
  simp [lastAt, List.filter_append, h2]

theorem lastAt_insert_of_ne {i : Fin 11} {x : PeriodicEntry} {l₁ l₂ : List PeriodicEntry}
    (h : x.index ≠ i) : lastAt i (l₁ ++ x :: l₂) = lastAt i (l₁ ++ l₂) := by
  simp [lastAt, List.filter_append, h]

/-! ## The representation -/

/-- The QH the controller reaches from the QH at `p`. -/
def hwNext (dma : Dma) (seg : CtrlDsSegment) (heap : Heap QhWithMetaP) (p : Ptr) : Option Ptr :=
  (heap p).qh.horizontalLinkPtr.ptr.map fun a => dma.virt (seg.addr a)

abbrev ptrs (l : List PeriodicEntry) : List Ptr := l.map fun e => e.qh.ptr

structure ListRep (dma : Dma) (s : PeriodicState) (l : List PeriodicEntry) : Prop where
  usable : ∀ e ∈ l, e.qh.Usable dma s.mgr.ctrlDsSegment
  nodup : (ptrs l).Nodup
  next : Linked (fun p => (s.heap p).next) (ptrs l) none
  links : Linked (hwNext dma s.mgr.ctrlDsSegment s.heap) (ptrs l) none
  prev : BackLinked (fun p => (s.heap p).prev) none (ptrs l)
  first : s.mgr.firstQh = l.head?.map (·.qh)
  last : ∀ i, s.mgr.qhs i = (lastAt i l).map (·.qh)
  head_min : ∀ h, l.head? = some h → ∀ e ∈ l, h.index ≤ e.index

/-- The frame list element that points at a QH. -/
def elementTo (m : MappedMem) : PeriodicFrameListElement := .new .qh (m.physAddr.setWidth 32)

/-- The frame list of the list `l`: only the slots of the smallest interval are used, slot 0 starts
at the first entry, and so does every slot that no larger interval shares. -/
structure SlotRep (list : PeriodicFrameList) (l : List PeriodicEntry) : Prop where
  zero : ∀ h, l.head? = some h → list 0 = elementTo h.qh
  member : ∀ f, list f = .terminated ∨ ∃ e ∈ l, list f = elementTo e.qh
  unused : ∀ f : Fin 1024, (∀ h, l.head? = some h → ¬ h.interval.frames ∣ f.val) →
    list f = .terminated
  own : ∀ (f : Fin 1024) h, l.head? = some h → h.interval.frames ∣ f.val →
    (∀ e ∈ l, e.index ≠ h.index → ¬ e.interval.frames ∣ f.val) → list f = elementTo h.qh

/-! ## Heap updates -/

section Heap

open PeriodicListManager

variable (heap : Heap QhWithMetaP) (p q : Ptr)

@[simp] theorem setLink_link (v : QhHorizontalLinkPtr) :
    (setLink heap p v q).qh.horizontalLinkPtr =
      if q = p then v else (heap q).qh.horizontalLinkPtr := by
  unfold setLink; rw [Heap.modify_apply]; split <;> rfl

@[simp] theorem setLink_next (v : QhHorizontalLinkPtr) : (setLink heap p v q).next = (heap q).next := by
  unfold setLink; rw [Heap.modify_apply]; split <;> rfl

@[simp] theorem setLink_prev (v : QhHorizontalLinkPtr) : (setLink heap p v q).prev = (heap q).prev := by
  unfold setLink; rw [Heap.modify_apply]; split <;> rfl

@[simp] theorem setNext_link (v : Option Ptr) :
    (setNext heap p v q).qh.horizontalLinkPtr = (heap q).qh.horizontalLinkPtr := by
  unfold setNext; rw [Heap.modify_apply]; split <;> rfl

@[simp] theorem setNext_next (v : Option Ptr) :
    (setNext heap p v q).next = if q = p then v else (heap q).next := by
  unfold setNext; rw [Heap.modify_apply]; split <;> rfl

@[simp] theorem setNext_prev (v : Option Ptr) : (setNext heap p v q).prev = (heap q).prev := by
  unfold setNext; rw [Heap.modify_apply]; split <;> rfl

@[simp] theorem setPrev_link (v : Option Ptr) :
    (setPrev heap p v q).qh.horizontalLinkPtr = (heap q).qh.horizontalLinkPtr := by
  unfold setPrev; rw [Heap.modify_apply]; split <;> rfl

@[simp] theorem setPrev_next (v : Option Ptr) : (setPrev heap p v q).next = (heap q).next := by
  unfold setPrev; rw [Heap.modify_apply]; split <;> rfl

@[simp] theorem setPrev_prev (v : Option Ptr) :
    (setPrev heap p v q).prev = if q = p then v else (heap q).prev := by
  unfold setPrev; rw [Heap.modify_apply]; split <;> rfl

variable (qh : MappedMem) (iv : NormalizedInterval)

@[simp] theorem prepareQh_link :
    (prepareQh heap qh iv q).qh.horizontalLinkPtr = (heap q).qh.horizontalLinkPtr := by
  simp only [prepareQh, Heap.modify_apply]; split <;> rfl

@[simp] theorem prepareQh_next : (prepareQh heap qh iv q).next = (heap q).next := by
  simp only [prepareQh, Heap.modify_apply]; split <;> rfl

@[simp] theorem prepareQh_prev : (prepareQh heap qh iv q).prev = (heap q).prev := by
  simp only [prepareQh, Heap.modify_apply]; split <;> rfl

end Heap

/-! ## Insertion behind an entry -/

/-- `heap'` is `heap` with the QH at `x` linked in behind the one at `a`, in all three link
structures. -/
structure InsertedBehind (dma : Dma) (seg : CtrlDsSegment) (heap heap' : Heap QhWithMetaP)
    (a x : Ptr) : Prop where
  next_new : (heap' x).next = (heap a).next
  next_prev : (heap' a).next = some x
  next_rest : ∀ p, p ≠ x → p ≠ a → (heap' p).next = (heap p).next
  link_new : hwNext dma seg heap' x = hwNext dma seg heap a
  link_prev : hwNext dma seg heap' a = some x
  link_rest : ∀ p, p ≠ x → p ≠ a → hwNext dma seg heap' p = hwNext dma seg heap p
  prev_new : (heap' x).prev = some a
  prev_next : ∀ n, (heap a).next = some n → (heap' n).prev = some x
  prev_rest : ∀ p, p ≠ x → (heap a).next ≠ some p → (heap' p).prev = (heap p).prev

section Insert

variable {dma : Dma} {s s' : PeriodicState} {l₁ l₂ : List PeriodicEntry} {e x : PeriodicEntry}

theorem InsertedBehind.linked (h : ListRep dma s (l₁ ++ e :: l₂))
    (hx : x.qh.ptr ∉ ptrs (l₁ ++ e :: l₂))
    (hi : InsertedBehind dma s.mgr.ctrlDsSegment s.heap s'.heap e.qh.ptr x.qh.ptr) :
    Linked (fun p => (s'.heap p).next) (ptrs (l₁ ++ e :: x :: l₂)) none ∧
    Linked (hwNext dma s.mgr.ctrlDsSegment s'.heap) (ptrs (l₁ ++ e :: x :: l₂)) none ∧
    BackLinked (fun p => (s'.heap p).prev) none (ptrs (l₁ ++ e :: x :: l₂)) := by
  have hnd := h.nodup
  have hnext := h.next
  have hlink := h.links
  have hprev := h.prev
  simp only [ptrs, List.map_append, List.map_cons] at hnd hnext hlink hprev hx ⊢
  obtain ⟨he, hnd'⟩ := List.nodup_cons.mp (List.nodup_middle.mp hnd)
  have hrest : ∀ p ∈ l₁.map (fun e => e.qh.ptr) ++ l₂.map (fun e => e.qh.ptr),
      p ≠ x.qh.ptr ∧ p ≠ e.qh.ptr := by
    intro p hp
    refine ⟨?_, fun heq => he (heq ▸ hp)⟩
    rintro rfl
    rcases List.mem_append.mp hp with hp | hp <;> simp [hp] at hx
  have hmid := linked_mid hnext
  rw [Option.or_none] at hmid
  refine ⟨?_, ?_, ?_⟩
  · exact linked_insert _ hnext hi.next_prev hi.next_new
      fun p hp => hi.next_rest p (hrest p hp).1 (hrest p hp).2
  · exact linked_insert _ hlink hi.link_prev hi.link_new
      fun p hp => hi.link_rest p (hrest p hp).1 (hrest p hp).2
  · refine backLinked_insert hprev hi.prev_new (fun c hc => hi.prev_next c (hmid.trans hc)) ?_
      fun c hc => ?_
    · refine hi.prev_rest _ (fun heq => hx (by rw [← heq]; simp)) fun heq => he ?_
      exact List.mem_append_right _ (List.mem_of_mem_head? (hmid.symm.trans heq))
    · have hc' := ((List.tail_sublist _).append_left _).subset hc
      exact hi.prev_rest c (hrest c hc').1 (hmid ▸ head?_ne_of_nodup hnd' hc)

/-- The manager's fields after an insertion that leaves the first QH alone. -/
structure TableUpdated (s s' : PeriodicState) (x : PeriodicEntry) : Prop where
  seg : s'.mgr.ctrlDsSegment = s.mgr.ctrlDsSegment
  qhs : s'.mgr.qhs = Function.update s.mgr.qhs x.index (some x.qh)

theorem TableUpdated.last (ht : TableUpdated s s' x) (l₁ l₂ : List PeriodicEntry)
    (h : ListRep dma s (l₁ ++ l₂))
    (hlast : ∀ d ∈ l₂, d.index ≠ x.index) (i : Fin 11) :
    s'.mgr.qhs i = (lastAt i (l₁ ++ x :: l₂)).map (·.qh) := by
  rw [ht.qhs]
  by_cases hi : i = x.index
  · subst hi
    rw [Function.update_self, lastAt_insert_self hlast]
    rfl
  · rw [Function.update_of_ne hi, lastAt_insert_of_ne (Ne.symm hi), h.last]

theorem ListRep.insertBehind (h : ListRep dma s (l₁ ++ e :: l₂))
    (hu : x.qh.Usable dma s.mgr.ctrlDsSegment) (hx : x.qh.ptr ∉ ptrs (l₁ ++ e :: l₂))
    (hi : InsertedBehind dma s.mgr.ctrlDsSegment s.heap s'.heap e.qh.ptr x.qh.ptr)
    (ht : TableUpdated s s' x) (hf : s'.mgr.firstQh = s.mgr.firstQh)
    (hlast : ∀ d ∈ l₂, d.index ≠ x.index)
    (hmin : ∀ d, (l₁ ++ e :: l₂).head? = some d → d.index ≤ x.index) :
    ListRep dma s' (l₁ ++ e :: x :: l₂) := by
  obtain ⟨hnext, hlinks, hprev⟩ := hi.linked h hx
  have hperm : (l₁ ++ e :: x :: l₂).Perm (x :: (l₁ ++ e :: l₂)) := by
    have : (l₁ ++ [e] ++ x :: l₂).Perm (x :: (l₁ ++ [e] ++ l₂)) := List.perm_middle
    simpa using this
  have hhead : (l₁ ++ e :: x :: l₂).head? = (l₁ ++ e :: l₂).head? := by cases l₁ <;> rfl
  refine ⟨?_, ?_, hnext, ?_, hprev, ?_, ?_, ?_⟩
  · intro d hd
    rw [ht.seg]
    rcases List.mem_cons.mp (hperm.mem_iff.mp hd) with rfl | hd
    · exact hu
    · exact h.usable d hd
  · rw [(hperm.map _).nodup_iff]
    exact List.nodup_cons.mpr ⟨hx, h.nodup⟩
  · rw [ht.seg]; exact hlinks
  · rw [hf, h.first, hhead]
  · have := ht.last (l₁ ++ [e]) l₂ (show ListRep dma s _ by simpa using h) hlast
    simpa using this
  · intro d hd b hb
    rw [hhead] at hd
    rcases List.mem_cons.mp (hperm.mem_iff.mp hb) with rfl | hb
    · exact hmin d hd
    · exact h.head_min d hd b hb

/-! ## The table lookup -/

theorem mem_take_finRange {n k : Nat} {i : Fin n} : i ∈ (List.finRange n).take k ↔ i.val < k := by
  rw [List.mem_take_iff_getElem]
  constructor
  · rintro ⟨j, hj, rfl⟩
    simp at hj ⊢
    omega
  · intro h
    exact ⟨i.val, by simp; omega, by simp⟩

theorem prevQhPower_eq_none {mgr : PeriodicListManager} {iv : NormalizedInterval}
    (h : mgr.prevQhPower iv = none) {j : Fin 11} (hj : j < iv.index) : mgr.qhs j = none := by
  have := List.findSome?_eq_none_iff.mp h j (mem_take_finRange.mpr hj)
  simpa using this

/-- `prev_qh_power` is the lowest occupied place of the table, not the nearest one. -/
theorem prevQhPower_eq_some {mgr : PeriodicListManager} {iv : NormalizedInterval} {i : Fin 11}
    {m : MappedMem} (h : mgr.prevQhPower iv = some (i, m)) :
    i < iv.index ∧ mgr.qhs i = some m ∧ ∀ j < i, mgr.qhs j = none := by
  obtain ⟨l₁, a, l₂, hl, ha, hn⟩ := List.findSome?_eq_some_iff.mp h
  simp only [Option.map_eq_some_iff, Prod.mk.injEq] at ha
  obtain ⟨m', hm, rfl, rfl⟩ := ha
  have hlt : a < iv.index := mem_take_finRange.mp (by rw [hl]; simp)
  have hsorted : (l₁ ++ a :: l₂).Pairwise (· < ·) := by
    rw [← hl]
    exact (List.pairwise_lt_finRange 11).sublist (List.take_sublist _ _)
  refine ⟨hlt, hm, fun j hj => ?_⟩
  have hmem : j ∈ l₁ ++ a :: l₂ := by
    rw [← hl]
    exact mem_take_finRange.mpr (hj.trans hlt)
  rcases List.mem_append.mp hmem with hmem | hmem
  · simpa using hn j hmem
  · rcases List.mem_cons.mp hmem with rfl | hmem
    · exact absurd hj (lt_irrefl _)
    · have := (List.pairwise_cons.mp (List.pairwise_append.mp hsorted).2.1).1 j hmem
      exact absurd hj (not_lt_of_gt this)

/-! ## The three cases of `add_qh` -/

theorem hwNext_congr {seg : CtrlDsSegment} {heap heap' : Heap QhWithMetaP} {p q : Ptr}
    (h : (heap' p).qh.horizontalLinkPtr = (heap q).qh.horizontalLinkPtr) :
    hwNext dma seg heap' p = hwNext dma seg heap q := by
  unfold hwNext; rw [h]

theorem hwNext_of_link {seg : CtrlDsSegment} {heap : Heap QhWithMetaP} {p : Ptr} {m : MappedMem}
    (hu : m.Usable dma seg)
    (h : (heap p).qh.horizontalLinkPtr = .new .qh (m.physAddr.setWidth 32)) :
    hwNext dma seg heap p = some m.ptr := by
  unfold hwNext
  rw [h, ← qhLink, qhLink_ptr hu]
  exact congrArg some hu.resolve

theorem linkBehind_inserts {seg : CtrlDsSegment} {heap : Heap QhWithMetaP} {qh existing : MappedMem}
    (hu : qh.Usable dma seg) (hne : existing.ptr ≠ qh.ptr)
    (hnx : (heap existing.ptr).next ≠ some qh.ptr) :
    InsertedBehind dma seg heap
      (PeriodicListManager.linkBehind heap qh existing (qh.physAddr.setWidth 32))
      existing.ptr qh.ptr := by
  have hne' := Ne.symm hne
  unfold PeriodicListManager.linkBehind
  cases hn : (heap existing.ptr).next with
  | none =>
    exact {
      next_new := by simp [*]
      next_prev := by simp
      next_rest := by simp +contextual [*]
      link_new := hwNext_congr (by simp [*])
      link_prev := hwNext_of_link hu (by simp [*])
      link_rest := fun p h1 h2 => hwNext_congr (by simp [*])
      prev_new := by simp [*]
      prev_next := by simp [hn]
      prev_rest := by simp +contextual [*] }
  | some n =>
    have hnq : n ≠ qh.ptr := fun h => hnx (by rw [hn, h])
    have hnq' := Ne.symm hnq
    exact {
      next_new := by simp [*]
      next_prev := by simp
      next_rest := by simp +contextual [*]
      link_new := hwNext_congr (by simp [*])
      link_prev := hwNext_of_link hu (by simp [*])
      link_rest := fun p h1 h2 => hwNext_congr (by simp [*])
      prev_new := by simp [*]
      prev_next := by simp [*]
      prev_rest := fun p h1 h2 => by
        have hpn : p ≠ n := fun h => h2 (by rw [hn, h])
        simp [*] }

theorem insertAfterExisting_refines (h : ListRep dma s (l₁ ++ e :: l₂))
    (hu : x.qh.Usable dma s.mgr.ctrlDsSegment) (hx : x.qh.ptr ∉ ptrs (l₁ ++ e :: l₂))
    (he : e.index = x.index) (hlast : ∀ d ∈ l₂, d.index ≠ x.index) :
    ∃ s', PeriodicListManager.insertAfterExisting s x.qh x.interval e.qh = some s' ∧
      ListRep dma s' (l₁ ++ e :: x :: l₂) ∧ s'.mgr.ctrlDsSegment = s.mgr.ctrlDsSegment ∧
      s'.mgr.list = s.mgr.list := by
  have hex : e.qh.ptr ≠ x.qh.ptr := fun heq => hx (by rw [← heq]; simp)
  have hnx : (s.heap e.qh.ptr).next ≠ some x.qh.ptr := fun heq =>
    hx ((linked_mem h.next (by simp) heq).resolve_right nofun)
  simp only [PeriodicListManager.insertAfterExisting, hu.offset, Option.bind_eq_bind,
    Option.bind_some]
  refine ⟨_, rfl, h.insertBehind hu hx (linkBehind_inserts hu hex hnx) ⟨rfl, rfl⟩ rfl hlast ?_,
    rfl, rfl⟩
  intro d hd
  rw [← he]
  exact h.head_min d hd e (by simp)

theorem nextQh_prev (h : ListRep dma s (l₁ ++ e :: l₂)) (i : Fin 11) :
    ∃ nx, PeriodicListManager.nextQh s (some (i, e.qh)) = some nx ∧
      (nx = none ∧ (s.heap e.qh.ptr).next = none ∧
          hwNext dma s.mgr.ctrlDsSegment s.heap e.qh.ptr = none ∨
        ∃ a n, nx = some (a, n) ∧ (s.heap e.qh.ptr).next = some n ∧ (a >>> 5) <<< 5 = a ∧
          dma.virt (s.mgr.ctrlDsSegment.addr a) = n ∧
          hwNext dma s.mgr.ctrlDsSegment s.heap e.qh.ptr = some n) := by
  have hn := h.next
  have hl := h.links
  simp only [ptrs, List.map_append, List.map_cons] at hn hl
  have hn := linked_mid hn
  have hl := (linked_mid hl).trans hn.symm
  simp only [PeriodicListManager.nextQh]
  cases hp : (s.heap e.qh.ptr).qh.horizontalLinkPtr.ptr with
  | none =>
    have hl' : hwNext dma s.mgr.ctrlDsSegment s.heap e.qh.ptr = none := by simp [hwNext, hp]
    exact ⟨none, rfl, .inl ⟨rfl, hl.symm.trans hl', hl'⟩⟩
  | some a =>
    have hl' : hwNext dma s.mgr.ctrlDsSegment s.heap e.qh.ptr =
        some (dma.virt (s.mgr.ctrlDsSegment.addr a)) := by simp [hwNext, hp]
    have hn' := hl.symm.trans hl'
    exact ⟨_, by rw [hn']; rfl,
      .inr ⟨a, _, rfl, hn', QhHorizontalLinkPtr.ptr_shift hp, rfl, hl'⟩⟩

theorem hwNext_of_addr {seg : CtrlDsSegment} {heap : Heap QhWithMetaP} {p n : Ptr} {a : BitVec 32}
    (ha : (a >>> 5) <<< 5 = a) (hn : dma.virt (seg.addr a) = n)
    (h : (heap p).qh.horizontalLinkPtr = .new .qh a) : hwNext dma seg heap p = some n := by
  unfold hwNext
  rw [h, QhHorizontalLinkPtr.ptr_new, ha, ← hn]
  rfl

/-- A new interval behind the entries of a smaller one. -/
theorem insertNewInterval_behind (h : ListRep dma s (l₁ ++ e :: l₂))
    (hu : x.qh.Usable dma s.mgr.ctrlDsSegment) (hx : x.qh.ptr ∉ ptrs (l₁ ++ e :: l₂)) {i : Fin 11}
    (hp : s.mgr.prevQhPower x.interval = some (i, e.qh)) (hnew : ∀ d ∈ l₁ ++ e :: l₂, d.index ≠ x.index)
    (hmin : ∀ d, (l₁ ++ e :: l₂).head? = some d → d.index ≤ x.index) :
    ∃ s', PeriodicListManager.insertNewInterval s x.qh x.interval = some s' ∧
      ListRep dma s' (l₁ ++ e :: x :: l₂) ∧ s'.mgr.ctrlDsSegment = s.mgr.ctrlDsSegment ∧
      s'.mgr.list = writeSlots (fun j => j &&& (1 <<< i.val) == 0) (elementTo x.qh)
        x.interval.frames_pos s.mgr.list x.interval.frames := by
  have hex : e.qh.ptr ≠ x.qh.ptr := fun heq => hx (by rw [← heq]; simp)
  have hxe := Ne.symm hex
  have hnx : (s.heap e.qh.ptr).next ≠ some x.qh.ptr := fun heq =>
    hx ((linked_mem h.next (by simp) heq).resolve_right nofun)
  obtain ⟨nx, hnext, hcase⟩ := nextQh_prev h i
  simp only [PeriodicListManager.insertNewInterval, hp, hnext, hu.offset, Option.bind_eq_bind,
    Option.bind_some]
  refine ⟨_, rfl, h.insertBehind hu hx ?_ ⟨rfl, rfl⟩ rfl (fun d hd => hnew d (by simp [hd])) hmin,
    rfl, rfl⟩
  rcases hcase with ⟨rfl, hn, hl⟩ | ⟨a, n, rfl, hn, ha, hv, hl⟩
  · exact {
      next_new := by simp [PeriodicListManager.linkToNext, *]
      next_prev := by simp
      next_rest := by simp +contextual [PeriodicListManager.linkToNext]
      link_new := by rw [hl]; simp [hwNext, PeriodicListManager.linkToNext, hxe]
      link_prev := hwNext_of_link hu (by simp)
      link_rest := fun p h1 h2 => hwNext_congr (by simp [PeriodicListManager.linkToNext, *])
      prev_new := by simp
      prev_next := by simp [hn]
      prev_rest := by simp +contextual [PeriodicListManager.linkToNext] }
  · have hnq : n ≠ x.qh.ptr := fun heq => hnx (by rw [hn, heq])
    have hqn := Ne.symm hnq
    exact {
      next_new := by simp [PeriodicListManager.linkToNext, *]
      next_prev := by simp
      next_rest := by simp +contextual [PeriodicListManager.linkToNext]
      link_new := by
        rw [hl]
        exact hwNext_of_addr ha hv (by simp [PeriodicListManager.linkToNext, hxe])
      link_prev := hwNext_of_link hu (by simp)
      link_rest := fun p h1 h2 => hwNext_congr (by simp [PeriodicListManager.linkToNext, *])
      prev_new := by simp
      prev_next := by simp [PeriodicListManager.linkToNext, *]
      prev_rest := fun p h1 h2 => by
        have hpn : p ≠ n := fun heq => h2 (by rw [hn, heq])
        simp [PeriodicListManager.linkToNext, *] }

theorem ListRep.insertFront {l : List PeriodicEntry} (h : ListRep dma s l)
    (hu : x.qh.Usable dma s.mgr.ctrlDsSegment) (hx : x.qh.ptr ∉ ptrs l)
    (hnext : (s'.heap x.qh.ptr).next = (ptrs l).head?)
    (hlink : hwNext dma s.mgr.ctrlDsSegment s'.heap x.qh.ptr = (ptrs l).head?)
    (hprev : (s'.heap x.qh.ptr).prev = none)
    (hhead : ∀ n, (ptrs l).head? = some n → (s'.heap n).prev = some x.qh.ptr)
    (hrest : ∀ p, p ≠ x.qh.ptr → (s'.heap p).next = (s.heap p).next ∧
      (s'.heap p).qh.horizontalLinkPtr = (s.heap p).qh.horizontalLinkPtr)
    (hprest : ∀ p, p ≠ x.qh.ptr → (ptrs l).head? ≠ some p → (s'.heap p).prev = (s.heap p).prev)
    (ht : TableUpdated s s' x) (hf : s'.mgr.firstQh = some x.qh)
    (hmin : ∀ d ∈ l, x.index < d.index) : ListRep dma s' (x :: l) := by
  have hne : ∀ p ∈ ptrs l, p ≠ x.qh.ptr := fun p hp heq => hx (heq ▸ hp)
  refine ⟨?_, List.nodup_cons.mpr ⟨hx, h.nodup⟩, ⟨?_, ?_⟩, ⟨?_, ?_⟩, ⟨hprev, ?_⟩, ?_, ?_, ?_⟩
  · intro d hd
    rw [ht.seg]
    rcases List.mem_cons.mp hd with rfl | hd
    · exact hu
    · exact h.usable d hd
  · simpa using hnext
  · exact linked_congr (fun p hp => (hrest p (hne p hp)).1) h.next
  · rw [ht.seg]; simpa using hlink
  · rw [ht.seg]
    exact linked_congr (fun p hp => hwNext_congr (hrest p (hne p hp)).2) h.links
  · have hback := h.prev
    have hnd := h.nodup
    change BackLinked _ _ (ptrs l)
    generalize ptrs l = k at *
    cases k with
    | nil => trivial
    | cons n k =>
      refine ⟨hhead n rfl, backLinked_congr (fun p hp => ?_) hback.2⟩
      refine hprest p (hne p (List.mem_cons_of_mem n hp)) fun heq => ?_
      cases heq
      exact (List.nodup_cons.mp hnd).1 hp
  · rw [hf]; rfl
  · exact ht.last [] l h fun d hd heq => absurd (hmin d hd) (by rw [heq]; exact lt_irrefl _)
  · intro d hd b hb
    cases hd
    rcases List.mem_cons.mp hb with rfl | hb
    · exact le_refl _
    · exact le_of_lt (hmin b hb)

/-- A new interval smaller than every other one. -/
theorem insertNewInterval_front {l : List PeriodicEntry} (h : ListRep dma s l)
    (hu : x.qh.Usable dma s.mgr.ctrlDsSegment) (hx : x.qh.ptr ∉ ptrs l)
    (hp : s.mgr.prevQhPower x.interval = none) (hmin : ∀ d ∈ l, x.index < d.index) :
    ∃ s', PeriodicListManager.insertNewInterval s x.qh x.interval = some s' ∧
      ListRep dma s' (x :: l) ∧ s'.mgr.ctrlDsSegment = s.mgr.ctrlDsSegment ∧
      s'.mgr.list = writeSlots (fun _ => true) (elementTo x.qh) x.interval.frames_pos s.mgr.list 0 := by
  have hfirst := h.first
  have hnext : PeriodicListManager.nextQh s none =
      some (l.head?.map fun e => (e.qh.physAddr.setWidth 32, e.qh.ptr)) := by
    simp only [PeriodicListManager.nextQh, hfirst]
    cases l with
    | nil => rfl
    | cons e l => simp [(h.usable e List.mem_cons_self).offset]
  simp only [PeriodicListManager.insertNewInterval, hp, hnext, hu.offset, Option.bind_eq_bind,
    Option.bind_some]
  refine ⟨_, rfl, ?_, rfl, rfl⟩
  cases l with
  | nil =>
    refine h.insertFront hu hx ?_ ?_ ?_ nofun ?_ ?_ ⟨rfl, rfl⟩ rfl hmin
    all_goals simp +contextual [PeriodicListManager.linkToNext, hwNext]
  | cons e l =>
    have hue := h.usable e List.mem_cons_self
    have hne : e.qh.ptr ≠ x.qh.ptr := fun heq => hx (by rw [← heq]; simp)
    refine h.insertFront hu hx ?_ (hwNext_of_link hue ?_) ?_ ?_ ?_ (fun p h1 h2 => ?_) ⟨rfl, rfl⟩
      rfl hmin
    case refine_6 =>
      have hpe : p ≠ e.qh.ptr := fun heq => h2 (by rw [heq]; rfl)
      simp [PeriodicListManager.linkToNext, h1, hpe]
    all_goals simp +contextual [PeriodicListManager.linkToNext, *]

end Insert

/-! ## The frame list slots -/

theorem writeSlots_apply (test : Nat → Bool) (el : PeriodicFrameListElement) {step : Nat}
    (hstep : 0 < step) (list : PeriodicFrameList) (i : Nat) (f : Fin 1024) :
    writeSlots test el hstep list i f =
      if i ≤ f.val ∧ step ∣ f.val - i ∧ test f.val then el else list f := by
  induction list, i using writeSlots.induct test el hstep with
  | case1 list i hi ih =>
    simp only [dite_eq_ite] at ih
    rw [writeSlots, dif_pos hi, ih]
    by_cases hif : i ≤ f.val
    · by_cases heq : f.val = i
      · have hf : f = ⟨i, hi⟩ := Fin.ext heq
        subst hf
        have h1 : ¬ i + step ≤ i := by omega
        by_cases ht : test i <;> simp [h1, ht]
      · have hne : f ≠ ⟨i, hi⟩ := fun h => heq (by rw [h])
        have hrest : (if test i then Function.update list ⟨i, hi⟩ el else list) f = list f := by
          split
          · rw [Function.update_of_ne hne]
          · rfl
        rw [hrest]
        have hdvd : (i + step ≤ f.val ∧ step ∣ f.val - (i + step)) ↔ step ∣ f.val - i := by
          constructor
          · rintro ⟨h1, h2⟩
            have : f.val - i = f.val - (i + step) + step := by omega
            rw [this]
            exact Nat.dvd_add h2 (Nat.dvd_refl _)
          · intro h
            have hle : step ≤ f.val - i := Nat.le_of_dvd (by omega) h
            have : f.val - (i + step) = f.val - i - step := by omega
            rw [this]
            exact ⟨by omega, Nat.dvd_sub h (Nat.dvd_refl _)⟩
        simp only [← and_assoc, hdvd, hif, true_and]
    · have hne : f ≠ ⟨i, hi⟩ := fun h => hif (by rw [h])
      have h1 : ¬ i + step ≤ f.val := by omega
      simp only [hif, h1, false_and, if_false]
      split
      · rw [Function.update_of_ne hne]
      · rfl
  | case2 list i hi =>
    rw [writeSlots, dif_neg hi, if_neg (by omega)]

theorem frames_dvd_of_le {a b : NormalizedInterval} (h : a.index ≤ b.index) : a.frames ∣ b.frames :=
  Nat.pow_dvd_pow 2 h

theorem not_frames_dvd_of_lt {a b : NormalizedInterval} (h : a.index < b.index) :
    ¬ b.frames ∣ a.frames := fun hd =>
  absurd ((Nat.pow_dvd_pow_iff_le_right (by omega)).mp hd) (not_le_of_gt h)

section Slots

variable {list : PeriodicFrameList} {l l' : List PeriodicEntry} {x : PeriodicEntry}

/-- Entries inserted behind the head keep the slots that are not rewritten. -/
theorem SlotRep.insertBehind (h : SlotRep list l) {list' : PeriodicFrameList}
    (hhead : l'.head? = l.head?) (hsub : ∀ e ∈ l, e ∈ l') (hx : x ∈ l') (hne : l ≠ [])
    (hkeep : ∀ f : Fin 1024, ¬ x.interval.frames ∣ f.val ∨ f = 0 → list' f = list f)
    (hor : ∀ f, list' f = list f ∨ list' f = elementTo x.qh)
    (hmin : ∀ d, l.head? = some d → d.index ≤ x.index)
    (hstrict : ∀ d, l.head? = some d → list' = list ∨ d.index ≠ x.index) : SlotRep list' l' := by
  refine ⟨?_, ?_, ?_, ?_⟩
  · intro d hd
    rw [hhead] at hd
    rw [hkeep 0 (.inr rfl), h.zero d hd]
  · intro f
    rcases hor f with hf | hf
    · rcases h.member f with hm | ⟨e, he, hm⟩
      · exact .inl (hf.trans hm)
      · exact .inr ⟨e, hsub e he, hf.trans hm⟩
    · exact .inr ⟨x, hx, hf⟩
  · intro f hf
    rw [hhead] at hf
    obtain ⟨d, hd⟩ := Option.isSome_iff_exists.mp (List.isSome_head?.mpr hne)
    rw [hkeep f (.inl fun hdvd => hf d hd (Nat.dvd_trans (frames_dvd_of_le (hmin d hd)) hdvd))]
    exact h.unused f hf
  · intro f d hd hdvd hf
    rw [hhead] at hd
    have hown := h.own f d hd hdvd fun e he => hf e (hsub e he)
    rcases hstrict d hd with heq | hidx
    · rw [heq]; exact hown
    · rw [hkeep f (.inl (hf x hx (Ne.symm hidx)))]
      exact hown

theorem SlotRep.insertFront (h : SlotRep list l) (hmin : ∀ d ∈ l, x.index < d.index) :
    SlotRep (writeSlots (fun _ => true) (elementTo x.qh) x.interval.frames_pos list 0) (x :: l) := by
  have hw : ∀ f : Fin 1024, writeSlots (fun _ => true) (elementTo x.qh) x.interval.frames_pos list 0 f =
      if x.interval.frames ∣ f.val then elementTo x.qh else list f := by
    intro f
    rw [writeSlots_apply]
    simp
  refine ⟨?_, ?_, ?_, ?_⟩
  · intro d hd
    cases hd
    rw [hw]
    simp
  · intro f
    rw [hw]
    split
    · exact .inr ⟨x, List.mem_cons_self, rfl⟩
    · rcases h.member f with hm | ⟨e, he, hm⟩
      · exact .inl hm
      · exact .inr ⟨e, List.mem_cons_of_mem x he, hm⟩
  · intro f hf
    have hx := hf x rfl
    rw [hw, if_neg hx]
    refine h.unused f fun d hd hdvd => hx ?_
    exact Nat.dvd_trans (frames_dvd_of_le (le_of_lt (hmin d (List.mem_of_mem_head? hd)))) hdvd
  · intro f d hd hdvd _
    cases hd
    rw [hw, if_pos hdvd]

end Slots

/-! ## Refinement -/

/-- The state represents the list `l`: heap, table and frame list. -/
structure PeriodicRep (dma : Dma) (s : PeriodicState) (l : List PeriodicEntry) : Prop where
  list : ListRep dma s l
  slots : SlotRep s.mgr.list l

theorem PeriodicRep.empty (dma : Dma) (heap : Heap QhWithMetaP) (seg : CtrlDsSegment) :
    PeriodicRep dma ⟨heap, .new .empty seg⟩ [] where
  list := ⟨nofun, List.nodup_nil, trivial, trivial, trivial, rfl, fun _ => rfl, nofun⟩
  slots := ⟨nofun, fun _ => .inl rfl, fun _ _ => rfl, nofun⟩

theorem ListRep.prepare {dma : Dma} {s : PeriodicState} {l : List PeriodicEntry}
    (h : ListRep dma s l) (qh : MappedMem) (iv : NormalizedInterval) :
    ListRep dma { s with heap := PeriodicListManager.prepareQh s.heap qh iv } l where
  usable := h.usable
  nodup := h.nodup
  next := linked_congr (fun p _ => prepareQh_next s.heap p qh iv) h.next
  links := linked_congr (fun p _ => hwNext_congr (prepareQh_link s.heap p qh iv)) h.links
  prev := backLinked_congr (fun p _ => prepareQh_prev s.heap p qh iv) h.prev
  first := h.first
  last := h.last
  head_min := h.head_min

section Refine

variable {dma : Dma} {s : PeriodicState} {l : List PeriodicEntry} {x : PeriodicEntry}

theorem ListRep.index_ne {i : Fin 11} (h : ListRep dma s l) (hq : s.mgr.qhs i = none) :
    ∀ e ∈ l, e.index ≠ i :=
  lastAt_eq_none.mp (Option.map_eq_none_iff.mp ((h.last i).symm.trans hq))

theorem ListRep.split {i : Fin 11} {m : MappedMem} (h : ListRep dma s l)
    (hq : s.mgr.qhs i = some m) :
    ∃ l₁ e l₂, l = l₁ ++ e :: l₂ ∧ e.qh = m ∧ e.index = i ∧ ∀ d ∈ l₂, d.index ≠ i := by
  obtain ⟨e, he, hm⟩ := Option.map_eq_some_iff.mp ((h.last i).symm.trans hq)
  obtain ⟨l₁, l₂, hl, hidx, hno⟩ := lastAt_eq_some he
  exact ⟨l₁, e, l₂, hl, hm, hidx, hno⟩

theorem writeSlots_second (test : Nat → Bool) (f : Fin 1024) {list : PeriodicFrameList}
    (hf : ¬ x.interval.frames ∣ f.val ∨ f = 0) :
    writeSlots test (elementTo x.qh) x.interval.frames_pos list x.interval.frames f = list f := by
  rw [writeSlots_apply, if_neg]
  rintro ⟨hle, hdvd, -⟩
  have hpos := x.interval.frames_pos
  rcases hf with hf | rfl
  · refine hf ?_
    have := Nat.dvd_add hdvd (Nat.dvd_refl x.interval.frames)
    rwa [Nat.sub_add_cancel hle] at this
  · simp at hle
    omega

/-- The interval of the new QH is in use: behind the last QH that has it. -/
theorem addQh_existing (h : PeriodicRep dma s l) (hu : x.qh.Usable dma s.mgr.ctrlDsSegment)
    (hx : x.qh.ptr ∉ ptrs l) {existing : MappedMem} (hq : s.mgr.qhs x.index = some existing) :
    ∃ s', PeriodicListManager.addQh s x.qh x.interval = some s' ∧
      PeriodicRep dma s' (insertEntry x l) ∧ s'.mgr.ctrlDsSegment = s.mgr.ctrlDsSegment := by
  obtain ⟨l₁, e, l₂, rfl, rfl, hidx, hno⟩ := h.list.split hq
  obtain ⟨s', hs', hrep, hseg, hlist⟩ :=
    insertAfterExisting_refines (h.list.prepare x.qh x.interval) hu hx hidx hno
  have hins : insertEntry x (l₁ ++ e :: l₂) = l₁ ++ e :: x :: l₂ := by
    rw [insertEntry, if_pos ⟨e, by simp, hidx⟩, insertAfterLast_split hidx hno]
  refine ⟨s', by simp only [PeriodicListManager.addQh, hq]; exact hs', ⟨hins ▸ hrep, ?_⟩, hseg⟩
  rw [hins, hlist]
  refine h.slots.insertBehind (x := x) (by cases l₁ <;> rfl) (by simp; tauto) (by simp) (by simp)
    (fun _ _ => rfl) (fun _ => .inl rfl) (fun d hd => ?_) (fun _ _ => .inl rfl)
  rw [← hidx]
  exact h.list.head_min d hd e (by simp)

/-- A smaller interval is in use: behind the last QH of the smallest one. -/
theorem addQh_behind (h : PeriodicRep dma s l) (hu : x.qh.Usable dma s.mgr.ctrlDsSegment)
    (hx : x.qh.ptr ∉ ptrs l) (hq : s.mgr.qhs x.index = none) {i : Fin 11} {m : MappedMem}
    (hp : s.mgr.prevQhPower x.interval = some (i, m)) :
    ∃ s', PeriodicListManager.addQh s x.qh x.interval = some s' ∧
      PeriodicRep dma s' (insertEntry x l) ∧ s'.mgr.ctrlDsSegment = s.mgr.ctrlDsSegment := by
  have hnew := h.list.index_ne hq
  obtain ⟨hlt, hqi, hbelow⟩ := prevQhPower_eq_some hp
  obtain ⟨l₁, e, l₂, rfl, rfl, rfl, hno⟩ := h.list.split hqi
  obtain ⟨d, hd⟩ : ∃ d, (l₁ ++ e :: l₂).head? = some d := by cases l₁ <;> exact ⟨_, rfl⟩
  -- the head has the lowest occupied index, which is that of `e`
  have hde : d.index = e.index := by
    refine le_antisymm (h.list.head_min d hd e (by simp)) (not_lt.mp fun hlt' => ?_)
    exact h.list.index_ne (hbelow _ hlt') d (List.mem_of_mem_head? hd) rfl
  have hmin : ∀ d', (l₁ ++ e :: l₂).head? = some d' → d'.index < x.index := by
    intro d' hd'
    rw [hd] at hd'
    cases hd'
    exact hde ▸ hlt
  obtain ⟨s', hs', hrep, hseg, hlist⟩ := insertNewInterval_behind
    (h.list.prepare x.qh x.interval) hu hx hp hnew fun d' hd' => le_of_lt (hmin d' hd')
  have hins : insertEntry x (l₁ ++ e :: l₂) = l₁ ++ e :: x :: l₂ := by
    rw [insertEntry, if_neg (fun ⟨b, hb, hi⟩ => hnew b hb hi), hd]
    simp only [hde]
    rw [if_pos hlt, insertAfterLast_split rfl hno]
  refine ⟨s', by simp only [PeriodicListManager.addQh, hq]; exact hs', ⟨hins ▸ hrep, ?_⟩, hseg⟩
  rw [hins, hlist]
  refine h.slots.insertBehind (x := x) (by cases l₁ <;> rfl) (by simp; tauto) (by simp) (by simp)
    (fun f hf => writeSlots_second _ f hf) (fun f => ?_) (fun d' hd' => le_of_lt (hmin d' hd'))
    (fun d' hd' => .inr (ne_of_lt (hmin d' hd')))
  rw [writeSlots_apply]
  split
  · exact .inr rfl
  · exact .inl rfl

/-- The new interval is the smallest one: in front of the list. -/
theorem addQh_front (h : PeriodicRep dma s l) (hu : x.qh.Usable dma s.mgr.ctrlDsSegment)
    (hx : x.qh.ptr ∉ ptrs l) (hq : s.mgr.qhs x.index = none)
    (hp : s.mgr.prevQhPower x.interval = none) :
    ∃ s', PeriodicListManager.addQh s x.qh x.interval = some s' ∧
      PeriodicRep dma s' (insertEntry x l) ∧ s'.mgr.ctrlDsSegment = s.mgr.ctrlDsSegment := by
  have hnew := h.list.index_ne hq
  have hmin : ∀ d ∈ l, x.index < d.index := by
    intro d hd
    refine lt_of_le_of_ne (not_lt.mp fun hlt => ?_) (Ne.symm (hnew d hd))
    exact h.list.index_ne (prevQhPower_eq_none hp hlt) d hd rfl
  obtain ⟨s', hs', hrep, hseg, hlist⟩ :=
    insertNewInterval_front (h.list.prepare x.qh x.interval) hu hx hp hmin
  have hins : insertEntry x l = x :: l := by
    rw [insertEntry, if_neg (fun ⟨b, hb, hi⟩ => hnew b hb hi)]
    cases l with
    | nil => rfl
    | cons d l =>
      simp only [List.head?_cons]
      rw [if_neg (not_lt_of_gt (hmin d List.mem_cons_self))]
  refine ⟨s', by simp only [PeriodicListManager.addQh, hq]; exact hs', ⟨hins ▸ hrep, ?_⟩, hseg⟩
  rw [hins, hlist]
  exact h.slots.insertFront hmin

/-- **`add_qh` refines the abstract insertion**: on a represented list and a fresh usable QH it does
not panic, and the result represents the list with the QH inserted. -/
theorem addQh_refines (h : PeriodicRep dma s l) (hu : x.qh.Usable dma s.mgr.ctrlDsSegment)
    (hx : x.qh.ptr ∉ ptrs l) :
    ∃ s', PeriodicListManager.addQh s x.qh x.interval = some s' ∧
      PeriodicRep dma s' (insertEntry x l) ∧ s'.mgr.ctrlDsSegment = s.mgr.ctrlDsSegment := by
  cases hq : s.mgr.qhs x.index with
  | some existing => exact addQh_existing h hu hx hq
  | none =>
    cases hp : s.mgr.prevQhPower x.interval with
    | some prev => exact addQh_behind h hu hx hq hp
    | none => exact addQh_front h hu hx hq hp

end Refine

end EzEhci
