import Mathlib.Data.List.Basic
import Mathlib.Data.List.Nodup
import Mathlib.Logic.Function.Basic
import Mathlib.Logic.Relation

/-!
# Linked lists in a heap

`Linked nxt l e`: the pointer function `nxt` links the nodes of `l` in order
and the last one points at `e` (`none` for a terminated list, the first node
for a ring). `BackLinked prv b l` is the same for backward pointers: the first
node of `l` points back at `b`. Both split at an append, so an insertion or a
removal only concerns the nodes at the seam. `Walk nxt a l` is what a reader
of the list does: start at `a`, follow `nxt` to the end, visit `l`.
-/

namespace EzEhci.Lib

variable {α : Type*}

/-- `nxt` links the nodes of the list in order; the last one points at `e`. -/
def Linked (nxt : α → Option α) : List α → Option α → Prop
  | [], _ => True
  | a :: l, e => nxt a = l.head?.or e ∧ Linked nxt l e

/-- `prv` links the nodes of the list backwards; the first one points at `b`. -/
def BackLinked (prv : α → Option α) : Option α → List α → Prop
  | _, [] => True
  | b, a :: l => prv a = b ∧ BackLinked prv (some a) l

theorem head?_or_append (l₁ l₂ : List α) (e : Option α) :
    (l₁ ++ l₂).head?.or e = l₁.head?.or (l₂.head?.or e) := by
  cases l₁ <;> simp

theorem linked_append {nxt : α → Option α} {l₁ l₂ : List α} {e : Option α} :
    Linked nxt (l₁ ++ l₂) e ↔ Linked nxt l₁ (l₂.head?.or e) ∧ Linked nxt l₂ e := by
  induction l₁ with
  | nil => simp [Linked]
  | cons a l₁ ih => simp only [List.cons_append, Linked, ih, head?_or_append, and_assoc]

theorem linked_congr {nxt nxt' : α → Option α} {l : List α} {e : Option α}
    (h : ∀ a ∈ l, nxt' a = nxt a) (hl : Linked nxt l e) : Linked nxt' l e := by
  induction l with
  | nil => trivial
  | cons a l ih =>
    exact ⟨(h a List.mem_cons_self).trans hl.1,
      ih (fun b hb => h b (List.mem_cons_of_mem a hb)) hl.2⟩

/-- The last node of a list, or the node before it. -/
def lastOr (b : Option α) (l : List α) : Option α := l.getLast?.or b

theorem lastOr_cons (b : Option α) (a : α) (l : List α) : lastOr b (a :: l) = lastOr (some a) l := by
  cases l with
  | nil => rfl
  | cons c l => simp [lastOr, List.getLast?_cons]

theorem lastOr_mem {b : Option α} {l : List α} {a : α} (h : lastOr b l = some a) :
    a ∈ l ∨ b = some a := by
  rcases Option.or_eq_some_iff.mp h with h | h
  · exact .inl (List.mem_of_getLast? h)
  · exact .inr h.2

theorem backLinked_append {prv : α → Option α} {b : Option α} (l₁ l₂ : List α) :
    BackLinked prv b (l₁ ++ l₂) ↔ BackLinked prv b l₁ ∧ BackLinked prv (lastOr b l₁) l₂ := by
  induction l₁ generalizing b with
  | nil => simp [BackLinked, lastOr]
  | cons a l₁ ih => simp only [List.cons_append, BackLinked, ih, lastOr_cons, and_assoc]

theorem backLinked_congr {prv prv' : α → Option α} {b : Option α} {l : List α}
    (h : ∀ a ∈ l, prv' a = prv a) (hl : BackLinked prv b l) : BackLinked prv' b l := by
  induction l generalizing b with
  | nil => trivial
  | cons a l ih =>
    exact ⟨(h a List.mem_cons_self).trans hl.1,
      ih (fun c hc => h c (List.mem_cons_of_mem a hc)) hl.2⟩

theorem linked_mid {nxt : α → Option α} {l₁ l₂ : List α} {a : α} {e : Option α}
    (h : Linked nxt (l₁ ++ a :: l₂) e) : nxt a = l₂.head?.or e := (linked_append.mp h).2.1

theorem backLinked_mid {prv : α → Option α} {l₁ l₂ : List α} {a : α} {b : Option α}
    (h : BackLinked prv b (l₁ ++ a :: l₂)) : prv a = lastOr b l₁ := ((backLinked_append _ _).mp h).2.1

theorem head?_ne_of_nodup {l₁ l₂ : List α} {c : α} (hnd : (l₁ ++ l₂).Nodup) (hc : c ∈ l₁ ++ l₂.tail) :
    l₂.head? ≠ some c := by
  intro he
  cases l₂ with
  | nil => cases he
  | cons d l₂ =>
    cases he
    rcases List.mem_append.mp hc with hc | hc
    · exact (List.nodup_append.mp hnd).2.2 c hc c List.mem_cons_self rfl
    · exact (List.nodup_cons.mp (List.nodup_append.mp hnd).2.1).1 hc

theorem linked_mem {nxt : α → Option α} {l : List α} {e : Option α} (h : Linked nxt l e) {a c : α}
    (ha : a ∈ l) (hc : nxt a = some c) : c ∈ l ∨ e = some c := by
  obtain ⟨l₁, l₂, rfl⟩ := List.append_of_mem ha
  rw [linked_mid h] at hc
  cases l₂ with
  | nil => exact .inr (by simpa using hc)
  | cons d l₂ =>
    simp only [List.head?_cons, Option.some_or, Option.some.injEq] at hc
    exact .inl (by simp [hc])

/-- Forward and backward pointers of a terminated list are inverse to each other. -/
theorem linked_iff_backLinked {nxt prv : α → Option α} {l : List α} (hn : Linked nxt l none)
    (hp : BackLinked prv none l) {a c : α} (ha : a ∈ l) (hc : c ∈ l) :
    nxt a = some c ↔ prv c = some a := by
  constructor
  · intro h
    obtain ⟨l₁, l₂, rfl⟩ := List.append_of_mem ha
    rw [linked_mid hn, Option.or_none] at h
    obtain ⟨l₃, rfl⟩ := List.head?_eq_some_iff.mp h
    rw [List.append_cons] at hp
    rw [backLinked_mid hp]
    simp [lastOr]
  · intro h
    obtain ⟨l₁, l₂, rfl⟩ := List.append_of_mem hc
    rw [backLinked_mid hp, lastOr, Option.or_none] at h
    obtain ⟨l₀, rfl⟩ := List.getLast?_eq_some_iff.mp h
    rw [List.append_assoc] at hn
    rw [linked_mid hn]
    rfl

/-- Only the first node has no predecessor. -/
theorem backLinked_none_iff {prv : α → Option α} {l : List α} (hp : BackLinked prv none l) {a : α}
    (ha : a ∈ l) : prv a = none ↔ l.head? = some a := by
  constructor
  · intro h
    obtain ⟨l₁, l₂, rfl⟩ := List.append_of_mem ha
    rw [backLinked_mid hp, lastOr, Option.or_none, List.getLast?_eq_none_iff] at h
    rw [h]
    rfl
  · intro h
    obtain ⟨l₂, rfl⟩ := List.head?_eq_some_iff.mp h
    exact hp.1

/-- **Insertion after `a`**: `x` takes over `a`'s link and `a` points at `x`. -/
theorem linked_insert {nxt nxt' : α → Option α} (l₁ : List α) {l₂ : List α} {a x : α} {e : Option α}
    (h : Linked nxt (l₁ ++ a :: l₂) e) (ha : nxt' a = some x) (hx : nxt' x = nxt a)
    (hrest : ∀ c ∈ l₁ ++ l₂, nxt' c = nxt c) : Linked nxt' (l₁ ++ a :: x :: l₂) e := by
  obtain ⟨h1, h2, h3⟩ := linked_append.mp h
  refine linked_append.mpr ⟨linked_congr (fun c hc => hrest c (by simp [hc])) h1, ?_⟩
  exact ⟨by simpa using ha, hx.trans h2, linked_congr (fun c hc => hrest c (by simp [hc])) h3⟩

theorem backLinked_insert {prv prv' : α → Option α} {l₁ l₂ : List α} {a x : α} {b : Option α}
    (h : BackLinked prv b (l₁ ++ a :: l₂)) (hx : prv' x = some a)
    (hnext : ∀ c, l₂.head? = some c → prv' c = some x) (ha : prv' a = prv a)
    (hrest : ∀ c ∈ l₁ ++ l₂.tail, prv' c = prv c) : BackLinked prv' b (l₁ ++ a :: x :: l₂) := by
  obtain ⟨h1, h2, h3⟩ := (backLinked_append _ _).mp h
  refine (backLinked_append _ _).mpr ⟨backLinked_congr (fun c hc => hrest c (by simp [hc])) h1, ?_⟩
  refine ⟨ha.trans h2, hx, ?_⟩
  cases l₂ with
  | nil => trivial
  | cons c l₂ =>
    exact ⟨hnext c rfl, backLinked_congr (fun d hd => hrest d (by simp [hd])) h3.2⟩

/-- **Removal of `x`**: its predecessor `a` takes over its link. -/
theorem linked_remove {nxt nxt' : α → Option α} {l₁ l₂ : List α} {a x : α} {e : Option α}
    (h : Linked nxt (l₁ ++ a :: x :: l₂) e) (ha : nxt' a = nxt x)
    (hrest : ∀ c ∈ l₁ ++ l₂, nxt' c = nxt c) : Linked nxt' (l₁ ++ a :: l₂) e := by
  obtain ⟨h1, _, h2, h3⟩ := linked_append.mp h
  refine linked_append.mpr ⟨linked_congr (fun c hc => hrest c (by simp [hc])) h1, ?_⟩
  exact ⟨ha.trans h2, linked_congr (fun c hc => hrest c (by simp [hc])) h3⟩

theorem backLinked_remove {prv prv' : α → Option α} {l₁ l₂ : List α} {a x : α} {b : Option α}
    (h : BackLinked prv b (l₁ ++ a :: x :: l₂)) (hnext : ∀ c, l₂.head? = some c → prv' c = some a)
    (ha : prv' a = prv a) (hrest : ∀ c ∈ l₁ ++ l₂.tail, prv' c = prv c) :
    BackLinked prv' b (l₁ ++ a :: l₂) := by
  obtain ⟨h1, h2, _, h3⟩ := (backLinked_append _ _).mp h
  refine (backLinked_append _ _).mpr ⟨backLinked_congr (fun c hc => hrest c (by simp [hc])) h1, ?_⟩
  refine ⟨ha.trans h2, ?_⟩
  cases l₂ with
  | nil => trivial
  | cons c l₂ =>
    exact ⟨hnext c rfl, backLinked_congr (fun d hd => hrest d (by simp [hd])) h3.2⟩

/-! ## Rings

A ring is linked with its first node as the end; backwards, the first node
points at the last one. -/

/-- Insertion after the first node `a` of a ring. -/
theorem backRing_insert {prv prv' : α → Option α} {l : List α} {a x : α}
    (h : BackLinked prv (lastOr none (a :: l)) (a :: l)) (hx : prv' x = some a)
    (hnext : ∀ c, l.head?.or (some a) = some c → prv' c = some x)
    (hrest : ∀ c ∈ a :: l, l.head?.or (some a) ≠ some c → prv' c = prv c) (hd : (a :: l).Nodup) :
    BackLinked prv' (lastOr none (a :: x :: l)) (a :: x :: l) := by
  cases l with
  | nil => exact ⟨hnext a rfl, hx, trivial⟩
  | cons c l =>
    obtain ⟨h1, h2, h3⟩ := h
    simp only [List.nodup_cons, List.mem_cons, not_or] at hd
    obtain ⟨⟨hac, hal⟩, hcl, -⟩ := hd
    refine ⟨?_, hx, hnext c rfl, backLinked_congr (fun d hd => hrest d (by simp [hd]) ?_) h3⟩
    · rw [hrest a (by simp) (by simpa using Ne.symm hac), h1]
      simp only [lastOr_cons]
    · rintro e
      cases e
      exact hcl hd

/-- Removal of the node `x` behind `a` from a ring that starts at `r`. -/
theorem backRing_remove {prv prv' : α → Option α} {l₁ l₂ : List α} {a x r : α}
    (h : BackLinked prv (lastOr none (l₁ ++ a :: x :: l₂)) (l₁ ++ a :: x :: l₂))
    (hr : (l₁ ++ [a]).head? = some r) (hnext : ∀ c, l₂.head?.or (some r) = some c → prv' c = some a)
    (hrest : ∀ c ∈ l₁ ++ a :: l₂, l₂.head?.or (some r) ≠ some c → prv' c = prv c)
    (hd : (l₁ ++ a :: l₂).Nodup) :
    BackLinked prv' (lastOr none (l₁ ++ a :: l₂)) (l₁ ++ a :: l₂) := by
  obtain ⟨d1, d2, d3⟩ := List.nodup_append.mp hd
  cases l₂ with
  | nil =>
    -- the removed node was the last one: the first node's pointer moves to `a`
    have hlast : lastOr none (l₁ ++ [a]) = some a := by simp [lastOr]
    rw [hlast]
    cases l₁ with
    | nil =>
      cases hr
      exact ⟨hnext a rfl, trivial⟩
    | cons b l₁ =>
      cases hr
      obtain ⟨-, h2⟩ := h
      have hne : ∀ c ∈ l₁ ++ [a], r ≠ c := by
        intro c hc e
        subst e
        simp only [List.cons_append, List.nodup_cons] at hd
        exact hd.1 hc
      refine ⟨hnext r rfl, backLinked_congr (fun c hc => hrest c ?_ ?_) ?_⟩
      · exact List.mem_cons_of_mem r hc
      · simpa using hne c hc
      · have := (backLinked_append (l₁ ++ [a]) [x]).mp (by simpa using h2)
        exact this.1
  | cons c l₂ =>
    have hlast : lastOr none (l₁ ++ a :: x :: c :: l₂) = lastOr none (l₁ ++ a :: c :: l₂) := by
      simp [lastOr, List.getLast?_append, List.getLast?_cons]
    rw [hlast] at h
    simp only [List.nodup_cons, List.mem_cons, not_or] at d2
    refine backLinked_remove h (fun d hd => hnext d (by simpa using hd)) (hrest a (by simp) ?_) ?_
    · simpa using Ne.symm d2.1.1
    · intro d hd
      refine hrest d (by simp at hd ⊢; tauto) ?_
      rintro ⟨⟩
      rcases List.mem_append.mp hd with hd | hd
      · exact d3 c hd c (by simp) rfl
      · exact d2.2.1 hd

theorem Linked.exists_next {nxt : α → Option α} {l : List α} {r : α}
    (h : Linked nxt (r :: l) (some r)) {a : α} (ha : a ∈ r :: l) : ∃ c ∈ r :: l, nxt a = some c := by
  obtain ⟨l₁, l₂, hl⟩ := List.append_of_mem ha
  have hmid : nxt a = l₂.head?.or (some r) := linked_mid (hl ▸ h)
  cases l₂ with
  | nil => exact ⟨r, List.mem_cons_self, hmid⟩
  | cons c l₂ => exact ⟨c, by rw [hl]; simp, hmid⟩

/-- Forward and backward pointers of a ring are inverse to each other. -/
theorem ring_linked_iff {nxt prv : α → Option α} {l : List α} {r : α}
    (hn : Linked nxt (r :: l) (some r)) (hp : BackLinked prv (lastOr none (r :: l)) (r :: l)) {a c : α}
    (ha : a ∈ r :: l) (hc : c ∈ r :: l) : nxt a = some c ↔ prv c = some a := by
  constructor
  · intro h
    obtain ⟨l₁, l₂, hl⟩ := List.append_of_mem ha
    rw [hl] at hn
    rw [linked_mid hn] at h
    cases l₂ with
    | nil =>
      -- `a` is the last node, `c` the first one
      cases h
      rw [hp.1, hl]
      simp [lastOr]
    | cons d l₂ =>
      cases h
      rw [hl, List.append_cons] at hp
      rw [backLinked_mid hp]
      simp [lastOr]
  · intro h
    obtain ⟨l₁, l₂, hl⟩ := List.append_of_mem hc
    rw [hl] at hp
    rw [backLinked_mid hp] at h
    rcases List.eq_nil_or_concat l₁ with rfl | ⟨l₀, b, rfl⟩
    · obtain ⟨rfl, rfl⟩ := List.cons.inj hl
      rw [lastOr, List.getLast?_nil, Option.none_or, lastOr, Option.or_none] at h
      obtain ⟨l₀, h0⟩ := List.getLast?_eq_some_iff.mp h
      rw [List.nil_append] at h0
      rw [h0] at hn
      rw [linked_mid hn]
      rfl
    · have hba : b = a := by simpa [lastOr] using h
      subst hba
      rw [hl, List.concat_eq_append, List.append_assoc] at hn
      rw [linked_mid hn]
      rfl

/-! ## Removed nodes

Nodes taken out of a structure keep the links they had. -/

/-- Each node of the list links into `live` or to a later node of the list. -/
def Drains (nxt : α → Option α) (live : List α) : List α → Prop
  | [] => True
  | a :: l => (∃ t, nxt a = some t ∧ (t ∈ live ∨ t ∈ l)) ∧ Drains nxt live l

theorem Drains.append_right {nxt : α → Option α} {live l₁ l₂ : List α}
    (h : Drains nxt live (l₁ ++ l₂)) : Drains nxt live l₂ := by
  induction l₁ with
  | nil => exact h
  | cons a l₁ ih => exact ih h.2

theorem Drains.mem {nxt : α → Option α} {live l : List α} (h : Drains nxt live l) {a t : α}
    (ha : a ∈ l) (ht : nxt a = some t) : t ∈ live ∨ t ∈ l := by
  induction l with
  | nil => cases ha
  | cons b l ih =>
    rcases List.mem_cons.mp ha with rfl | ha
    · obtain ⟨⟨t', ht', hm⟩, -⟩ := h
      rw [ht] at ht'
      cases ht'
      exact hm.imp_right (List.mem_cons_of_mem a)
    · exact (ih h.2 ha).imp_right (List.mem_cons_of_mem b)

/-- The links stay and what they lead to stays live or joins the list at its end. -/
theorem Drains.snoc {nxt nxt' : α → Option α} {live live' l : List α} {x t : α}
    (h : Drains nxt live l) (hnxt : ∀ a ∈ l, nxt' a = nxt a)
    (hlive : ∀ a ∈ live, a ∈ live' ∨ a = x) (hx : nxt' x = some t) (ht : t ∈ live') :
    Drains nxt' live' (l ++ [x]) := by
  induction l with
  | nil => exact ⟨⟨t, hx, .inl ht⟩, trivial⟩
  | cons a l ih =>
    obtain ⟨⟨u, hu, hm⟩, hl⟩ := h
    refine ⟨⟨u, (hnxt a (by simp)).trans hu, ?_⟩, ih hl fun b hb => hnxt b (by simp [hb])⟩
    rcases hm with hm | hm
    · exact (hlive u hm).imp_right fun e => by simp [e]
    · exact .inr (by simp [hm])

theorem Drains.mono {nxt nxt' : α → Option α} {live live' l : List α} (h : Drains nxt live l)
    (hnxt : ∀ a ∈ l, nxt' a = nxt a) (hlive : ∀ a ∈ live, a ∈ live') : Drains nxt' live' l := by
  induction l with
  | nil => trivial
  | cons a l ih =>
    obtain ⟨⟨u, hu, hm⟩, hl⟩ := h
    exact ⟨⟨u, (hnxt a (by simp)).trans hu, hm.imp_left (hlive u)⟩,
      ih hl fun b hb => hnxt b (by simp [hb])⟩

/-- From every node of a list, the links lead to its end through nodes of the list. -/
theorem Linked.reaches {nxt : α → Option α} {l : List α} {e : α} (h : Linked nxt l (some e))
    {ok : α → Prop} (hok : ∀ a ∈ l, ok a) (he : ok e) {a : α} (ha : a ∈ l) :
    Relation.TransGen (fun a b => nxt a = some b ∧ ok b) a e := by
  induction l generalizing a with
  | nil => cases ha
  | cons c l ih =>
    obtain ⟨hc, hl⟩ := h
    have ih := fun b (hb : b ∈ l) => ih hl (fun d hd => hok d (List.mem_cons_of_mem c hd)) hb
    rcases List.mem_cons.mp ha with rfl | ha
    · cases l with
      | nil => exact .single ⟨hc, he⟩
      | cons d l => exact .head ⟨hc, hok d (by simp)⟩ (ih d (by simp))
    · exact ih a ha

/-- The links lead from the first node of a list to every other. -/
theorem Linked.reached {nxt : α → Option α} {r : α} {l : List α} {e : Option α}
    (h : Linked nxt (r :: l) e) {a : α} (ha : a ∈ r :: l) :
    Relation.ReflTransGen (fun a b => nxt a = some b) r a := by
  induction l generalizing r with
  | nil =>
    rw [List.mem_singleton.mp ha]
  | cons c l ih =>
    obtain ⟨hr, hl⟩ := h
    rcases List.mem_cons.mp ha with rfl | ha
    · exact .refl
    · exact .head hr (ih hl ha)

/-- **Removed nodes find their way back**: from a node of the ring or of the list that drains into
it, the links lead to the ring's first node, through nodes of the two only. -/
theorem Drains.reaches {nxt : α → Option α} {l rem : List α} {r : α} (hd : Drains nxt (r :: l) rem)
    (hl : Linked nxt (r :: l) (some r)) {ok : α → Prop} (hok : ∀ a, a ∈ r :: l ∨ a ∈ rem → ok a) {a : α}
    (ha : a ∈ r :: l ∨ a ∈ rem) : Relation.TransGen (fun a b => nxt a = some b ∧ ok b) a r := by
  have hring : ∀ c ∈ r :: l, Relation.TransGen (fun a b => nxt a = some b ∧ ok b) c r :=
    fun c hc => hl.reaches (fun b hb => hok b (.inl hb)) (hok r (.inl List.mem_cons_self)) hc
  induction rem generalizing a with
  | nil => exact hring a (ha.resolve_right (by simp))
  | cons c rem ih =>
    obtain ⟨⟨t, ht, hmem⟩, hd⟩ := hd
    have ih := fun b (hb : b ∈ r :: l ∨ b ∈ rem) =>
      ih hd (fun d h => hok d (h.imp_right (List.mem_cons_of_mem c))) hb
    rcases ha with ha | ha
    · exact hring a ha
    · rcases List.mem_cons.mp ha with rfl | ha
      · exact .head ⟨ht, hok t (hmem.imp_right (List.mem_cons_of_mem a))⟩ (ih t hmem)
      · exact ih a (.inr ha)

/-! ## Walks -/

/-- Starting at `a` and following `nxt` to the end visits the nodes of `l` in order. -/
inductive Walk (nxt : α → Option α) : Option α → List α → Prop where
  | done : Walk nxt none []
  | visit {a : α} {l : List α} : Walk nxt (nxt a) l → Walk nxt (some a) (a :: l)

theorem Walk.unique {nxt : α → Option α} {a : Option α} {l l' : List α} (h : Walk nxt a l)
    (h' : Walk nxt a l') : l = l' := by
  induction h generalizing l' with
  | done => cases h'; rfl
  | visit _ ih =>
    cases h' with
    | visit h' => rw [ih h']

/-- A terminated list is walked from its first node to its end. -/
theorem Linked.walk {nxt : α → Option α} {l : List α} (h : Linked nxt l none) :
    Walk nxt l.head? l := by
  induction l with
  | nil => exact .done
  | cons a l ih =>
    refine .visit ?_
    rw [h.1, Option.or_none]
    exact ih h.2

end EzEhci.Lib
