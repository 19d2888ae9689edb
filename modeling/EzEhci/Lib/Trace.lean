import Mathlib.Data.List.Basic

/-!
# Recorded events

A run records events in a list. `Each A log l` says that every event of `l`,
recorded after those of `log`, is allowed by `A`, which sees the events before
it. `Since p log e` says that `e` was recorded and none of the events `p` since
then.
-/

namespace EzEhci.Lib

variable {ε : Type*} {A B : List ε → ε → Prop} {log l l' : List ε} {e : ε}

/-- Every event of `l` is allowed after the ones before it. -/
def Each (A : List ε → ε → Prop) : List ε → List ε → Prop
  | _, [] => True
  | log, e :: l => A log e ∧ Each A (log ++ [e]) l

theorem each_append : Each A log (l ++ l') ↔ Each A log l ∧ Each A (log ++ l) l' := by
  induction l generalizing log with
  | nil => simp [Each]
  | cons e l ih => simp [Each, ih, and_assoc]

theorem each_of_forall (h : ∀ before, log <+: before → ∀ e ∈ l, A before e) : Each A log l := by
  induction l generalizing log with
  | nil => trivial
  | cons e l ih =>
    refine ⟨h log (List.prefix_refl log) e List.mem_cons_self, ih fun before hpre x hx => ?_⟩
    exact h before ((List.prefix_append log [e]).trans hpre) x (List.mem_cons_of_mem e hx)

/-- The events of a run are those of its start and those recorded since. -/
theorem Each.record (h : Each A [] log) (h' : Each A log l) : Each A [] (log ++ l) :=
  each_append.mpr ⟨h, h'⟩

/-- An event of a run was allowed when it was recorded. -/
theorem Each.at (h : Each A [] log) (hl : l ++ [e] <+: log) : A l e := by
  obtain ⟨rest, rfl⟩ := hl
  rw [List.append_assoc, each_append] at h
  exact h.2.1

theorem foldl_of_neutral {σ : Type*} {f : σ → ε → σ} {s : σ} (h : ∀ e ∈ l, f s e = s) : l.foldl f s = s := by
  induction l with
  | nil => rfl
  | cons e l ih =>
    rw [List.foldl_cons, h e List.mem_cons_self]
    exact ih fun e he => h e (List.mem_cons_of_mem _ he)

theorem foldl_of_kept {f : List ε → ε → List ε} {s : List ε} (h : ∀ e ∈ l, ∀ s, f s e = s ++ [e]) :
    l.foldl f s = s ++ l := by
  induction l generalizing s with
  | nil => exact (List.append_nil s).symm
  | cons e l ih =>
    rw [List.foldl_cons, h e List.mem_cons_self, ih fun e he => h e (List.mem_cons_of_mem _ he),
      List.append_assoc, List.singleton_append]

/-- The event `e` was recorded, and none of the events `p` since then. -/
def Since (p : ε → Prop) (log : List ε) (e : ε) : Prop :=
  ∃ before after, log = before ++ e :: after ∧ ∀ x ∈ after, ¬ p x

variable {p : ε → Prop} {x : ε}

theorem since_nil : ¬ Since p [] e := by
  rintro ⟨before, after, hlog, -⟩
  simp at hlog

theorem since_snoc : Since p (log ++ [x]) e ↔ x = e ∨ Since p log e ∧ ¬ p x := by
  constructor
  · rintro ⟨before, after, hlog, hp⟩
    rcases List.eq_nil_or_concat after with rfl | ⟨after, y, rfl⟩
    · left
      simpa using (List.append_inj' hlog rfl).2
    · right
      rw [List.concat_eq_append, ← List.cons_append, ← List.append_assoc] at hlog
      obtain ⟨hbefore, hx⟩ := List.append_inj' hlog rfl
      cases hx
      exact ⟨⟨before, after, hbefore, fun y hy => hp y (by simp [hy])⟩, hp x (by simp)⟩
  · rintro (rfl | ⟨⟨before, after, rfl, hp⟩, hx⟩)
    · exact ⟨log, [], rfl, by simp⟩
    · refine ⟨before, after ++ [x], by simp, fun y hy => ?_⟩
      rcases List.mem_append.mp hy with hy | hy
      · exact hp y hy
      · rwa [List.mem_singleton.mp hy]

end EzEhci.Lib
