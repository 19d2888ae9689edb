import Mathlib.Logic.Relation

/-!
# Unbounded loops

A loop is a function `step : σ → Iter σ β` that says what one iteration does:
go on in another state, or leave the loop with a result. `iterate step n s`
performs at most `n` iterations; `none` means that the loop has not been left
by then. `Steps step` is what any number of iterations can reach.
-/

namespace EzEhci.Lib

/-- What one iteration of a loop does. -/
inductive Iter (σ β : Type*) where
  | next (s : σ)
  | stop (b : β)

variable {σ β : Type*}

/-- The result of the loop, if it is left within `n` iterations. -/
def iterate (step : σ → Iter σ β) : Nat → σ → Option β
  | 0, _ => none
  | n + 1, s =>
    match step s with
    | .next s' => iterate step n s'
    | .stop b => some b

/-- Iterations lead from one state to the other. -/
abbrev Steps (step : σ → Iter σ β) : σ → σ → Prop :=
  Relation.ReflTransGen fun s s' => step s = .next s'

section Results

variable {step : σ → Iter σ β} {s s' : σ} {b : β}

theorem iterate_next (h : step s = .next s') (n : Nat) :
    iterate step (n + 1) s = iterate step n s' := by
  rw [iterate, h]

theorem iterate_stop (h : step s = .stop b) (n : Nat) : iterate step (n + 1) s = some b := by
  rw [iterate, h]

/-- A loop that reaches a state in which it is left returns. -/
theorem iterate_of_steps (h : Steps step s s') (hs : step s' = .stop b) :
    ∃ n, iterate step n s = some b := by
  induction h using Relation.ReflTransGen.head_induction_on with
  | refl => exact ⟨1, iterate_stop hs 0⟩
  | head hstep _ ih =>
    obtain ⟨n, hn⟩ := ih
    exact ⟨n + 1, (iterate_next hstep n).trans hn⟩

/-- A loop that returns was left in a state with everything that its iterations keep. -/
theorem iterate_invariant {P : σ → Prop} {n : Nat} (h0 : P s)
    (hstep : ∀ t t', P t → step t = .next t' → P t') (h : iterate step n s = some b) :
    ∃ s', P s' ∧ step s' = .stop b := by
  induction n generalizing s with
  | zero => cases h
  | succ n ih =>
    cases hs : step s with
    | next m =>
      rw [iterate_next hs] at h
      exact ih (hstep s m h0 hs) h
    | stop b' =>
      rw [iterate_stop hs] at h
      cases h
      exact ⟨s, h0, hs⟩

/-- Enough iterations give the same result as more. -/
theorem iterate_mono {n m : Nat} (h : iterate step n s = some b) (hm : n ≤ m) :
    iterate step m s = some b := by
  induction n generalizing s m with
  | zero => cases h
  | succ n ih =>
    obtain ⟨m, rfl⟩ : ∃ k, m = k + 1 := ⟨m - 1, by omega⟩
    cases hs : step s with
    | next s' =>
      rw [iterate_next hs] at h ⊢
      exact ih h (by omega)
    | stop b' =>
      rw [iterate_stop hs] at h ⊢
      exact h

theorem iterate_unique {n m : Nat} {b' : β} (h : iterate step n s = some b)
    (h' : iterate step m s = some b') : b = b' := by
  have h1 := iterate_mono h (Nat.le_max_left n m)
  have h2 := iterate_mono h' (Nat.le_max_right n m)
  rw [h1] at h2
  exact Option.some.inj h2

/-- **A stalled loop** is never left. -/
theorem iterate_of_stalled (h : Steps step s s') (hs : step s' = .next s') (n : Nat) :
    iterate step n s = none := by
  induction n generalizing s with
  | zero => rfl
  | succ n ih =>
    rcases h.cases_head with rfl | ⟨m, hm, h⟩
    · rw [iterate_next hs]
      exact ih .refl
    · rw [iterate_next hm]
      exact ih h

/-- **Termination by a measure** that every iteration from a reachable state decreases. -/
theorem iterate_of_measure (f : σ → Nat)
    (hf : ∀ t t', Steps step s t → step t = .next t' → f t' < f t) : ∃ n b, iterate step n s = some b := by
  induction hn : f s using Nat.strongRecOn generalizing s with
  | _ n ih =>
    cases hs : step s with
    | stop b => exact ⟨1, b, iterate_stop hs 0⟩
    | next s' =>
      obtain ⟨m, b, hb⟩ := ih (f s') (hn ▸ hf s s' .refl hs)
        (fun t t' ht => hf t t' (.head hs ht)) rfl
      exact ⟨m + 1, b, (iterate_next hs m).trans hb⟩

end Results

end EzEhci.Lib
