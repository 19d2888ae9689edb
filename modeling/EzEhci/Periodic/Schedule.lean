import EzEhci.Periodic.Represent
import Mathlib.Data.List.Induction

/-!
# The periodic schedule

`addAll` is a sequence of `add_qh` calls. In frame slot `f` the controller
starts at the slot's element and follows the horizontal links (`FrameWalk`).
The schedule is exact (`ScheduledExactly`) when that walk visits, for every
slot, the QHs whose interval divides the slot number and no others.

`add_qh` searches the table for the QH in front of the new one from the small
intervals upwards, so small intervals end up in front of large ones: the slots
of the smallest interval walk the whole list. The schedule is therefore exact
exactly when all QHs have the same interval.
-/

namespace EzEhci

open Lib

def addAll (s : PeriodicState) (reqs : List PeriodicEntry) : Option PeriodicState :=
  reqs.foldlM (fun s e => PeriodicListManager.addQh s e.qh e.interval) s

/-- The list that a sequence of `add_qh` calls builds. -/
def scheduleOf (reqs : List PeriodicEntry) : List PeriodicEntry :=
  reqs.foldl (fun l e => insertEntry e l) []

/-- The QHs the controller visits in frame slot `f`. -/
def FrameWalk (dma : Dma) (s : PeriodicState) (f : Fin 1024) (visited : List Ptr) : Prop :=
  Walk (hwNext dma s.mgr.ctrlDsSegment s.heap)
    ((s.mgr.list f).ptr.map fun a => dma.virt (s.mgr.ctrlDsSegment.addr a)) visited

/-- In every slot the walk ends, and visits an added QH once if its interval divides the slot
number and not at all otherwise. -/
def ScheduledExactly (dma : Dma) (s : PeriodicState) (reqs : List PeriodicEntry) : Prop :=
  ∀ f : Fin 1024, ∃ visited, FrameWalk dma s f visited ∧
    ∀ e ∈ reqs, visited.count e.qh.ptr = if e.interval.frames ∣ f.val then 1 else 0

theorem insertAfterLast_perm {i : Fin 11} (x : PeriodicEntry) {l : List PeriodicEntry}
    (h : ∃ e ∈ l, e.index = i) : (insertAfterLast i x l).Perm (x :: l) := by
  induction l with
  | nil => obtain ⟨e, he, -⟩ := h; cases he
  | cons a l ih =>
    simp only [insertAfterLast]
    split
    · exact List.Perm.swap x a l
    · rename_i hn
      have hl : ∃ e ∈ l, e.index = i := by
        obtain ⟨e, he, hi⟩ := h
        rcases List.mem_cons.mp he with rfl | he
        · by_contra hno
          exact hn ⟨hi, fun d hd hdi => hno ⟨d, hd, hdi⟩⟩
        · exact ⟨e, he, hi⟩
      exact ((ih hl).cons a).trans (List.Perm.swap x a l)

theorem insertEntry_perm (x : PeriodicEntry) (l : List PeriodicEntry) :
    (insertEntry x l).Perm (x :: l) := by
  unfold insertEntry
  split
  · rename_i h
    exact insertAfterLast_perm x h
  · cases l with
    | nil => exact .refl _
    | cons a l =>
      simp only [List.head?_cons]
      split
      · exact insertAfterLast_perm x ⟨a, List.mem_cons_self, rfl⟩
      · exact .refl _

/-- A sequence of `add_qh` calls on distinct usable QHs does not panic, and its result represents
the abstract list, which holds the added QHs. -/
theorem addAll_refines (dma : Dma) (seg : CtrlDsSegment) (heap : Heap QhWithMetaP)
    (reqs : List PeriodicEntry) (hu : ∀ e ∈ reqs, e.qh.Usable dma seg)
    (hnd : (reqs.map fun e => e.qh.ptr).Nodup) :
    ∃ s, addAll ⟨heap, .new .empty seg⟩ reqs = some s ∧ PeriodicRep dma s (scheduleOf reqs) ∧
      s.mgr.ctrlDsSegment = seg ∧ (scheduleOf reqs).Perm reqs := by
  induction reqs using List.reverseRecOn with
  | nil => exact ⟨_, rfl, PeriodicRep.empty dma heap seg, rfl, .refl _⟩
  | append_singleton reqs x ih =>
    rw [List.map_append, List.nodup_append] at hnd
    obtain ⟨s, hs, hrep, hseg, hperm⟩ := ih (fun e he => hu e (by simp [he])) hnd.1
    have hx : x.qh.ptr ∉ ptrs (scheduleOf reqs) := fun hmem =>
      hnd.2.2 _ ((hperm.map _).mem_iff.mp hmem) _ (by simp) rfl
    obtain ⟨s', hs', hrep', hseg'⟩ := addQh_refines hrep (hseg ▸ hu x (by simp)) hx
    have hsched : scheduleOf (reqs ++ [x]) = insertEntry x (scheduleOf reqs) := by
      simp [scheduleOf]
    refine ⟨s', ?_, hsched ▸ hrep', hseg'.trans hseg, ?_⟩
    · unfold addAll at hs ⊢
      rw [List.foldlM_append, hs]
      simp [hs']
    · rw [hsched]
      exact (insertEntry_perm x _).trans ((hperm.cons x).trans (List.perm_append_singleton x reqs).symm)

section Slots

variable {dma : Dma} {s : PeriodicState} {l : List PeriodicEntry}

theorem PeriodicRep.walk_of_head (h : PeriodicRep dma s l) {f : Fin 1024} {d : PeriodicEntry}
    (hd : l.head? = some d) (hf : s.mgr.list f = elementTo d.qh) : FrameWalk dma s f (ptrs l) := by
  have hu := h.list.usable d (List.mem_of_mem_head? hd)
  have hw := h.list.links.walk
  have hstart : (ptrs l).head? = some d.qh.ptr := by simp [hd]
  unfold FrameWalk
  rw [hf, elementTo, PeriodicFrameListElement.ptr_new, shift5_of_aligned hu.aligned,
    Option.map_some, hu.resolve, ← hstart]
  exact hw

theorem PeriodicRep.walk_of_terminated {f : Fin 1024} (hf : s.mgr.list f = .terminated) :
    FrameWalk dma s f [] := by
  unfold FrameWalk
  rw [hf, PeriodicFrameListElement.ptr_terminated]
  exact .done

/-- If all entries have the same interval, every slot walks the whole list or nothing. -/
theorem PeriodicRep.exact_of_frames_eq (h : PeriodicRep dma s l)
    (heq : ∀ e ∈ l, ∀ e' ∈ l, e.interval.frames = e'.interval.frames) : ScheduledExactly dma s l := by
  intro f
  have hcount : ∀ e ∈ l, (ptrs l).count e.qh.ptr = 1 := fun e he =>
    List.count_eq_one_of_mem h.list.nodup (List.mem_map.mpr ⟨e, he, rfl⟩)
  cases hd : l.head? with
  | none =>
    refine ⟨[], PeriodicRep.walk_of_terminated (h.slots.unused f ?_), ?_⟩
    · rw [hd]; nofun
    · intro e he
      rw [List.head?_eq_none_iff.mp hd] at he
      cases he
  | some d =>
    have hdm := List.mem_of_mem_head? hd
    by_cases hdvd : d.interval.frames ∣ f.val
    · refine ⟨ptrs l, h.walk_of_head hd (h.slots.own f d hd hdvd fun e he hne => absurd ?_ hne), ?_⟩
      · exact Fin.ext (Nat.pow_right_injective (le_refl 2) (heq e he d hdm))
      · intro e he
        rw [hcount e he, heq e he d hdm, if_pos hdvd]
    · refine ⟨[], PeriodicRep.walk_of_terminated (h.slots.unused f ?_), ?_⟩
      · intro d' hd'
        rw [hd] at hd'
        cases hd'
        exact hdvd
      · intro e he
        rw [heq e he d hdm, if_neg hdvd, List.count_nil]

/-- With two different intervals, the slot numbered by the smallest one visits a QH of a larger
interval, which does not divide it. -/
theorem PeriodicRep.frames_eq_of_exact (h : PeriodicRep dma s l) (hex : ScheduledExactly dma s l) :
    ∀ e ∈ l, ∀ e' ∈ l, e.interval.frames = e'.interval.frames := by
  cases hd : l.head? with
  | none =>
    rw [List.head?_eq_none_iff.mp hd]
    nofun
  | some d =>
    suffices hall : ∀ e ∈ l, e.index = d.index by
      intro e he e' he'
      have h1 : e.index = e'.index := (hall e he).trans (hall e' he').symm
      exact congrArg (2 ^ ·) (Fin.ext_iff.mp h1)
    intro e he
    by_contra hne
    have hlt : d.index < e.index := lt_of_le_of_ne (h.list.head_min d hd e he) (Ne.symm hne)
    have hbound : d.interval.frames < 1024 := by
      have h1 : d.interval.framesPower < e.interval.framesPower := hlt
      have h2 := e.interval.framesPower_lt
      calc d.interval.frames < 2 ^ 10 := Nat.pow_lt_pow_right (by decide) (by omega)
        _ = 1024 := rfl
    let f : Fin 1024 := ⟨d.interval.frames, hbound⟩
    have hslot := h.slots.own f d hd (Nat.dvd_refl _) fun b hb hnb =>
      not_frames_dvd_of_lt (lt_of_le_of_ne (h.list.head_min d hd b hb) (Ne.symm hnb))
    obtain ⟨v, hv, hcount⟩ := hex f
    rw [Walk.unique hv (h.walk_of_head hd hslot)] at hcount
    have h1 := List.count_eq_one_of_mem h.list.nodup (List.mem_map.mpr ⟨e, he, rfl⟩)
    rw [hcount e he, if_neg (not_frames_dvd_of_lt hlt)] at h1
    exact absurd h1 (by decide)

end Slots

theorem ScheduledExactly.of_perm {dma : Dma} {s : PeriodicState} {l l' : List PeriodicEntry}
    (hp : l.Perm l') (h : ScheduledExactly dma s l) : ScheduledExactly dma s l' := by
  intro f
  obtain ⟨v, hv, hc⟩ := h f
  exact ⟨v, hv, fun e he => hc e (hp.mem_iff.mpr he)⟩

/-- **The schedule is exact exactly when all added QHs have the same interval in frames.** -/
theorem addAll_scheduledExactly_iff {dma : Dma} {seg : CtrlDsSegment} (heap : Heap QhWithMetaP)
    {reqs : List PeriodicEntry} (hu : ∀ e ∈ reqs, e.qh.Usable dma seg)
    (hnd : (reqs.map fun e => e.qh.ptr).Nodup) :
    (∃ s, addAll ⟨heap, .new .empty seg⟩ reqs = some s ∧ ScheduledExactly dma s reqs) ↔
      ∀ e ∈ reqs, ∀ e' ∈ reqs, e.interval.frames = e'.interval.frames := by
  obtain ⟨s, hs, hrep, -, hperm⟩ := addAll_refines dma seg heap reqs hu hnd
  constructor
  · rintro ⟨s', hs', hex⟩
    rw [hs] at hs'
    cases hs'
    intro e he e' he'
    exact hrep.frames_eq_of_exact (hex.of_perm hperm.symm) e (hperm.mem_iff.mpr he) e'
      (hperm.mem_iff.mpr he')
  · intro heq
    refine ⟨s, hs, (hrep.exact_of_frames_eq fun e he e' he' => ?_).of_perm hperm⟩
    exact heq e (hperm.mem_iff.mp he) e' (hperm.mem_iff.mp he')

def blankQhs : Heap QhWithMetaP := fun _ => ⟨.new .zero .zero, none, none, ⟨0, by decide⟩⟩

/-- A QH at a physical address of the identity mapping, with a micro-frames power. -/
def entryAt (addr : BitVec 64) (p : BitVec 4) (h : p.toNat ≤ 13) : PeriodicEntry :=
  ⟨⟨addr, addr.toNat⟩, ⟨p, h⟩⟩

/-- Two QHs of 8 ms: the schedule is exact. -/
theorem addAll_scheduledExactly_two :
    ∃ s, addAll ⟨blankQhs, .new .empty .lower4G⟩
        [entryAt 0x1000 6 (by decide), entryAt 0x2000 6 (by decide)] = some s ∧
      ScheduledExactly .identity s [entryAt 0x1000 6 (by decide), entryAt 0x2000 6 (by decide)] := by
  exact (addAll_scheduledExactly_iff blankQhs (by decide) (by decide)).mpr (by decide)

/-- A QH of 1 ms and one of 8 ms: the schedule is not exact. -/
theorem addAll_not_scheduledExactly :
    ¬ ∃ s, addAll ⟨blankQhs, .new .empty .lower4G⟩
        [entryAt 0x1000 3 (by decide), entryAt 0x2000 6 (by decide)] = some s ∧
      ScheduledExactly .identity s [entryAt 0x1000 3 (by decide), entryAt 0x2000 6 (by decide)] := by
  rintro ⟨s', hs', hex⟩
  obtain ⟨s, hs, hrep, -, hperm⟩ := addAll_refines .identity .lower4G blankQhs
    [entryAt 0x1000 3 (by decide), entryAt 0x2000 6 (by decide)] (by decide) (by decide)
  rw [hs] at hs'
  cases hs'
  have := hrep.frames_eq_of_exact (hex.of_perm hperm.symm) (entryAt 0x1000 3 (by decide))
    (hperm.mem_iff.mpr (by decide)) (entryAt 0x2000 6 (by decide)) (hperm.mem_iff.mpr (by decide))
  exact absurd this (by decide)

end EzEhci
