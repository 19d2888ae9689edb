import Mathlib.Data.Fintype.Card

/-!
# Chains of pointers

`next : α → Option α` gives each element the one behind it. `chainAt next p n`
is the element `n` places behind `p`, if the chain from `p` is that long. A
chain over finitely many elements ends exactly if none of them occurs twice
(`acyclic_of_ends`, `Acyclic.ends`), and then it is no longer than there are
elements.
-/

namespace EzEhci.Lib

variable {α : Type*} {next : α → Option α} {p : Option α}

/-- The element `n` places behind `p`. -/
def chainAt (next : α → Option α) : Option α → Nat → Option α
  | p, 0 => p
  | p, n + 1 => chainAt next (p.bind next) n

/-- No element occurs twice. -/
def Acyclic (next : α → Option α) (p : Option α) : Prop :=
  ∀ m n a, m < n → chainAt next p m = some a → chainAt next p n ≠ some a

theorem chainAt_add (m n : Nat) : chainAt next p (m + n) = chainAt next (chainAt next p m) n := by
  induction m generalizing p with
  | zero => rw [Nat.zero_add, chainAt]
  | succ m ih => rw [Nat.add_right_comm, chainAt, chainAt, ih]

theorem chainAt_none (n : Nat) : chainAt next none n = none := by
  induction n with
  | zero => rfl
  | succ n ih => exact ih

theorem chainAt_of_le {m n : Nat} (h : chainAt next p m = none) (hn : m ≤ n) : chainAt next p n = none := by
  obtain ⟨k, rfl⟩ := Nat.exists_eq_add_of_le hn
  rw [chainAt_add, h, chainAt_none]

/-- A chain that comes back to an element goes round forever. -/
theorem chainAt_of_repeated {m k : Nat} {a : α} (hm : chainAt next p m = some a)
    (hk : chainAt next p (m + k) = some a) (i : Nat) : chainAt next p (m + i * k) = some a := by
  rw [chainAt_add, hm] at hk
  induction i with
  | zero => rwa [Nat.zero_mul, Nat.add_zero]
  | succ i ih => rw [Nat.succ_mul, ← Nat.add_assoc, chainAt_add, ih, hk]

theorem acyclic_of_ends {n : Nat} (h : chainAt next p n = none) : Acyclic next p := by
  intro m m' a hlt hm hm'
  obtain ⟨k, rfl⟩ := Nat.exists_eq_add_of_lt hlt
  have hrep := chainAt_of_repeated hm (k := k + 1) (by rwa [← Nat.add_assoc]) n
  have hle : n ≤ n * (k + 1) := Nat.le_mul_of_pos_right n (Nat.succ_pos k)
  rw [chainAt_of_le h (by omega)] at hrep
  cases hrep

/-- A chain without repetition is no longer than there are elements. -/
theorem Acyclic.ends {n : Nat} (code : α ↪ Fin n) (h : Acyclic next p) : chainAt next p n = none := by
  by_contra hn
  have hsome : ∀ i : Fin (n + 1), ∃ a, chainAt next p i = some a := by
    intro i
    rw [← Option.ne_none_iff_exists']
    exact fun hnone => hn (chainAt_of_le hnone (Nat.le_of_lt_succ i.isLt))
  choose f hf using hsome
  have hinj : Function.Injective f := by
    intro i j hij
    by_contra hne
    rcases lt_or_gt_of_ne hne with hlt | hlt
    · exact h i j (f i) hlt (hf i) (hij ▸ hf j)
    · exact h j i (f j) hlt (hf j) (hij ▸ hf i)
  have hcard := Fintype.card_le_of_injective _ (code.injective.comp hinj)
  rw [Fintype.card_fin, Fintype.card_fin] at hcard
  omega

end EzEhci.Lib
