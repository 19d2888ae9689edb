import Mathlib.Data.List.Induction

/-!
# Loops that may panic

A loop over a list whose body may panic is `List.mapM` or `List.foldlM` in
`Option`: it returns when every iteration does. The rules for `mapM` give the
result iteration by iteration; those for `foldl` and `foldlM` carry an
invariant `P` through the loop, and what an iteration establishes of its own
element (`Q`) and every later one keeps.
-/

namespace EzEhci.Lib

variable {α β : Type*} {f : α → Option β}

theorem mapM_eq_some_cons {a : α} {l : List α} {l' : List β} :
    (a :: l).mapM f = some l' ↔ ∃ b bs, f a = some b ∧ l.mapM f = some bs ∧ l' = b :: bs := by
  rw [List.mapM_cons]
  simp only [Option.pure_def, Option.bind_eq_bind, Option.bind_eq_some_iff, Option.some.injEq]
  constructor
  · rintro ⟨b, hb, bs, hbs, rfl⟩
    exact ⟨b, bs, hb, hbs, rfl⟩
  · rintro ⟨b, bs, hb, hbs, rfl⟩
    exact ⟨b, hb, bs, hbs, rfl⟩

theorem mapM_length {l : List α} {l' : List β} (h : l.mapM f = some l') :
    l'.length = l.length := by
  induction l generalizing l' with
  | nil =>
    cases h
    rfl
  | cons a l ih =>
    obtain ⟨b, bs, -, hbs, rfl⟩ := mapM_eq_some_cons.mp h
    rw [List.length_cons, List.length_cons, ih hbs]

theorem mapM_getElem? {l : List α} {l' : List β} (h : l.mapM f = some l') (i : Nat) :
    l'[i]? = l[i]?.bind f := by
  induction l generalizing l' i with
  | nil =>
    cases h
    rfl
  | cons a l ih =>
    obtain ⟨b, bs, hb, hbs, rfl⟩ := mapM_eq_some_cons.mp h
    cases i with
    | zero => simp [hb]
    | succ i => simpa using ih hbs i

section Fold

variable {σ : Type*} {P : σ → Prop} {Q : α → σ → Prop} {s s' : σ} {l : List α}

theorem foldl_forall {g : σ → α → σ} (hP : ∀ s a, P s → P (g s a))
    (hQ : ∀ s a b, P s → b = a ∨ Q b s → Q b (g s a)) (h : P s) :
    P (l.foldl g s) ∧ ∀ a ∈ l, Q a (l.foldl g s) := by
  induction l using List.reverseRecOn with
  | nil => exact ⟨h, by simp⟩
  | append_singleton l a ih =>
    rw [List.foldl_append]
    refine ⟨hP _ _ ih.1, fun b hb => hQ _ _ _ ih.1 ?_⟩
    rcases List.mem_append.mp hb with hb | hb
    · exact .inr (ih.2 b hb)
    · exact .inl (List.mem_singleton.mp hb)

theorem foldl_invariant {g : σ → α → σ} (hP : ∀ s a, P s → P (g s a)) (h : P s) : P (l.foldl g s) :=
  (foldl_forall (Q := fun _ _ => True) hP (fun _ _ _ _ _ => trivial) h).1

theorem foldlM_append_singleton {g : σ → α → Option σ} {a : α} :
    (l ++ [a]).foldlM g s = some s' ↔ ∃ m, l.foldlM g s = some m ∧ g m a = some s' := by
  rw [List.foldlM_append]
  simp [Option.bind_eq_some_iff]

theorem foldlM_forall {g : σ → α → Option σ} (hP : ∀ s a s', P s → g s a = some s' → P s')
    (hQ : ∀ s a s' b, P s → g s a = some s' → b = a ∨ Q b s → Q b s') (h : P s)
    (hl : l.foldlM g s = some s') : P s' ∧ ∀ a ∈ l, Q a s' := by
  induction l using List.reverseRecOn generalizing s' with
  | nil =>
    cases hl
    exact ⟨h, by simp⟩
  | append_singleton l a ih =>
    obtain ⟨m, hm, ha⟩ := foldlM_append_singleton.mp hl
    obtain ⟨hPm, hQm⟩ := ih hm
    refine ⟨hP _ _ _ hPm ha, fun b hb => hQ _ _ _ _ hPm ha ?_⟩
    rcases List.mem_append.mp hb with hb | hb
    · exact .inr (hQm b hb)
    · exact .inl (List.mem_singleton.mp hb)

theorem foldlM_invariant {g : σ → α → Option σ} (hP : ∀ s a s', P s → g s a = some s' → P s')
    (h : P s) (hl : l.foldlM g s = some s') : P s' :=
  (foldlM_forall (Q := fun _ _ => True) hP (fun _ _ _ _ _ _ _ => trivial) h hl).1

end Fold

end EzEhci.Lib
