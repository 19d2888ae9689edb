import Mathlib.Algebra.Order.Monoid.Defs
import Mathlib.Data.List.Induction

/-!
# Runs of a labelled transition function

A system is a partial step function `step : σ → ℓ → Option σ`: the label says
which party moves and what it reads, `none` that the move is not enabled.
`exec step s tr` performs the labels of `tr` in order. `Meets step C s tr`
says that each step of that run, in the state it is taken in, satisfies the
condition `C`. The rules below turn what one step preserves into what a run
preserves, and a measure that pays for every step into a bound on what a run
costs.
-/

namespace EzEhci.Lib

variable {σ ℓ : Type*} {step : σ → ℓ → Option σ} {s s' : σ} {a : ℓ} {tr : List ℓ}

/-- The state after the labels `tr`; `none` if one of the steps is not enabled. -/
def exec (step : σ → ℓ → Option σ) : σ → List ℓ → Option σ
  | s, [] => some s
  | s, a :: tr => (step s a).bind fun s' => exec step s' tr

/-- Every step of the run `tr` from `s` meets the condition `C`. -/
def Meets (step : σ → ℓ → Option σ) (C : σ → ℓ → Prop) : σ → List ℓ → Prop
  | _, [] => True
  | s, a :: tr => C s a ∧ ∀ s', step s a = some s' → Meets step C s' tr

/-- Whether a given run meets a decidable condition can be computed. -/
def decidableMeets {C : σ → ℓ → Prop} [∀ s a, Decidable (C s a)] :
    (s : σ) → (tr : List ℓ) → Decidable (Meets step C s tr)
  | _, [] => .isTrue trivial
  | s, a :: tr =>
    match h : step s a with
    | none => decidable_of_iff (C s a) (by simp [Meets, h])
    | some s' =>
      haveI := decidableMeets (C := C) s' tr
      decidable_of_iff (C s a ∧ Meets step C s' tr) (by simp [Meets, h])

instance {C : σ → ℓ → Prop} [∀ s a, Decidable (C s a)] (s : σ) (tr : List ℓ) :
    Decidable (Meets step C s tr) := decidableMeets s tr

theorem exec_append (s : σ) (tr tr' : List ℓ) :
    exec step s (tr ++ tr') = (exec step s tr).bind fun m => exec step m tr' := by
  induction tr generalizing s with
  | nil => rfl
  | cons a tr ih =>
    simp only [List.cons_append, exec, Option.bind_assoc]
    congr 1
    funext m
    exact ih m

theorem exec_trans {m : σ} {tr' : List ℓ} (h : exec step s tr = some m)
    (h' : exec step m tr' = some s') : exec step s (tr ++ tr') = some s' := by
  rw [exec_append, h, Option.bind_some, h']

theorem exec_snoc_iff :
    exec step s (tr ++ [a]) = some s' ↔ ∃ m, exec step s tr = some m ∧ step m a = some s' := by
  rw [exec_append, Option.bind_eq_some_iff]
  simp [exec]

theorem meets_append {C : σ → ℓ → Prop} {tr' : List ℓ} :
    Meets step C s (tr ++ tr') ↔
      Meets step C s tr ∧ ∀ m, exec step s tr = some m → Meets step C m tr' := by
  induction tr generalizing s with
  | nil => simp [Meets, exec]
  | cons a tr ih =>
    simp only [List.cons_append, Meets, exec, ih, Option.bind_eq_some_iff]
    constructor
    · rintro ⟨hc, h⟩
      exact ⟨⟨hc, fun m hm => (h m hm).1⟩, fun m' ⟨m, hm, hm'⟩ => (h m hm).2 m' hm'⟩
    · rintro ⟨⟨hc, h⟩, h'⟩
      exact ⟨hc, fun m hm => ⟨h m hm, fun m' hm' => h' m' ⟨m, hm, hm'⟩⟩⟩

theorem meets_snoc {C : σ → ℓ → Prop} {m : σ} (h : Meets step C s (tr ++ [a]))
    (he : exec step s tr = some m) : Meets step C s tr ∧ C m a := by
  obtain ⟨h1, h2⟩ := meets_append.mp h
  exact ⟨h1, (h2 m he).1⟩

/-- A given run, evaluated. -/
theorem exec_witness (step : σ → ℓ → Option σ) (s : σ) (tr : List ℓ) (P : σ → Prop)
    [DecidablePred P] (h : (exec step s tr).any (fun s' => decide (P s')) = true) :
    ∃ s', exec step s tr = some s' ∧ P s' := by
  obtain ⟨s', hs, hp⟩ := (Option.any_eq_true _ _).mp h
  exact ⟨s', hs, of_decide_eq_true hp⟩

/-- **Induction over a run and its history**, for runs whose steps meet `C`. -/
theorem exec_history {C : σ → ℓ → Prop} {P : List ℓ → σ → Prop} {s₀ : σ} (h0 : P [] s₀)
    (hstep : ∀ tr s a s', exec step s₀ tr = some s → P tr s → C s a → step s a = some s' →
      P (tr ++ [a]) s')
    (hC : Meets step C s₀ tr) (h : exec step s₀ tr = some s) : P tr s := by
  induction tr using List.reverseRecOn generalizing s with
  | nil => cases h; exact h0
  | append_singleton tr a ih =>
    obtain ⟨m, hm, ha⟩ := exec_snoc_iff.mp h
    obtain ⟨hC1, hC2⟩ := meets_snoc hC hm
    exact hstep tr m a s hm (ih hC1 hm) hC2 ha

theorem meets_true (s : σ) (tr : List ℓ) : Meets step (fun _ _ => True) s tr := by
  induction tr generalizing s with
  | nil => trivial
  | cons a tr ih => exact ⟨trivial, fun s' _ => ih s'⟩

theorem exec_invariant {I : σ → Prop} {s₀ : σ} (h0 : I s₀)
    (hstep : ∀ s a s', I s → step s a = some s' → I s') (h : exec step s₀ tr = some s) : I s :=
  exec_history (C := fun _ _ => True) (P := fun _ s => I s) h0
    (fun _ s a s' _ hi _ hs => hstep s a s' hi hs) (meets_true s₀ tr) h

/-- A property that every step meeting `C` preserves holds after every run of such steps. -/
theorem exec_invariant_of_meets {C : σ → ℓ → Prop} {I : σ → Prop} {s₀ : σ} (h0 : I s₀)
    (hstep : ∀ s a s', I s → C s a → step s a = some s' → I s')
    (hC : Meets step C s₀ tr) (h : exec step s₀ tr = some s) : I s :=
  exec_history (P := fun _ s => I s) h0 (fun _ s a s' _ hi hc hs => hstep s a s' hi hc hs) hC h

/-! ## What a run costs -/

section Cost

variable {M : Type*} [AddCommMonoid M]

/-- The sum of what the steps of the run `tr` from `s` cost. -/
def cost (step : σ → ℓ → Option σ) (c : σ → ℓ → M) : σ → List ℓ → M
  | _, [] => 0
  | s, a :: tr => c s a + (step s a).elim 0 fun s' => cost step c s' tr

theorem cost_cons {c : σ → ℓ → M} (h : step s a = some s') :
    cost step c s (a :: tr) = c s a + cost step c s' tr := by
  rw [cost, h, Option.elim_some]

/-- **Bound on a run.** As long as a run has not reached `Q`, its measure `f` pays for what its
steps cost. -/
theorem exec_until [PartialOrder M] [IsOrderedAddMonoid M] {c : σ → ℓ → M} {f : σ → M}
    {I Q : σ → Prop} {L : ℓ → Prop} {s₀ : σ} (h0 : I s₀)
    (hstep : ∀ s a s', I s → L a → step s a = some s' →
      I s' ∧ c s a + f s' ≤ f s ∨ Q s' ∧ c s a ≤ f s)
    (hL : ∀ a ∈ tr, L a) (h : exec step s₀ tr = some s) :
    I s ∧ cost step c s₀ tr + f s ≤ f s₀ ∨
      ∃ tr₁ m, tr₁ <+: tr ∧ exec step s₀ tr₁ = some m ∧ Q m ∧ cost step c s₀ tr₁ ≤ f s₀ := by
  induction tr generalizing s₀ with
  | nil =>
    cases h
    exact .inl ⟨h0, by rw [cost, zero_add]⟩
  | cons a tr ih =>
    obtain ⟨s₁, hs, h⟩ := Option.bind_eq_some_iff.mp h
    rcases hstep s₀ a s₁ h0 (hL a List.mem_cons_self) hs with ⟨h1, hle⟩ | ⟨hq, hle⟩
    · have hpay : ∀ x, x ≤ f s₁ → c s₀ a + x ≤ f s₀ := fun x hx => (add_le_add_right hx _).trans hle
      rcases ih h1 (fun b hb => hL b (List.mem_cons_of_mem a hb)) h with
        ⟨hi, hcost⟩ | ⟨tr₁, m, hpre, hm, hq, hcost⟩
      · refine .inl ⟨hi, ?_⟩
        rw [cost_cons hs, add_assoc]
        exact hpay _ hcost
      · refine .inr ⟨a :: tr₁, m, List.cons_prefix_cons.mpr ⟨rfl, hpre⟩, ?_, hq, ?_⟩
        · rw [exec, hs, Option.bind_some, hm]
        · rw [cost_cons hs]
          exact hpay _ hcost
    · refine .inr ⟨[a], s₁, List.cons_prefix_cons.mpr ⟨rfl, List.nil_prefix⟩, ?_, hq, ?_⟩
      · rw [exec, hs, Option.bind_some, exec]
      · rw [cost_cons hs, cost, add_zero]
        exact hle

end Cost

end EzEhci.Lib
