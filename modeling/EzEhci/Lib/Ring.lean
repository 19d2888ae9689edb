import Mathlib.Data.List.Nodup
import Mathlib.Data.List.Range

/-!
# Slots of a ring

A producer and a consumer go round a ring of `n` slots: the `k`-th turn is at
slot `k % n`, and `turns n k` lists the slots of the first `k` turns. As long
as the producer is at most one lap ahead, it is never at a slot the consumer
has not left.
-/

namespace EzEhci.Lib

theorem mod_ne_of_lt {n a b : Nat} (h : a < b) (hlap : b < a + n) : b % n ≠ a % n := by
  intro heq
  have hdvd : n ∣ b - a := Nat.dvd_of_mod_eq_zero (Nat.sub_mod_eq_zero_of_mod_eq heq)
  have := Nat.le_of_dvd (by omega) hdvd
  omega

theorem succ_mod_of_lt {n i : Nat} (h : i < n) : (i + 1) % n = if i + 1 = n then 0 else i + 1 := by
  split
  next heq => rw [heq, Nat.mod_self]
  next hne => exact Nat.mod_eq_of_lt (by omega)

/-- The slots of the first `k` turns. -/
def turns (n k : Nat) : List Nat := (List.range k).map (· % n)

@[simp] theorem length_turns (n k : Nat) : (turns n k).length = k := by
  simp [turns]

theorem turns_succ (n k : Nat) : turns n (k + 1) = turns n k ++ [k % n] := by
  simp [turns, List.range_succ]

theorem turns_add (n k j : Nat) :
    turns n (k + j) = turns n k ++ (List.range j).map (fun i => (k + i) % n) := by
  simp [turns, List.range_add, Function.comp_def]

theorem turns_mono {n k k' : Nat} (h : k ≤ k') : turns n k <+: turns n k' := by
  obtain ⟨j, rfl⟩ := Nat.exists_eq_add_of_le h
  rw [turns_add]
  exact List.prefix_append _ _

/-- One lap visits every slot at most once. -/
theorem nodup_lap (n k : Nat) : ((List.range n).map (fun i => (k + i) % n)).Nodup := by
  refine List.Nodup.map_on (fun i hi j hj heq => ?_) List.nodup_range
  rw [List.mem_range] at hi hj
  rcases Nat.lt_trichotomy i j with hlt | heq | hlt
  · exact absurd heq.symm (mod_ne_of_lt (by omega) (by omega))
  · exact heq
  · exact absurd heq (mod_ne_of_lt (by omega) (by omega))

/-- **At most one lap ahead**: no slot was visited twice since the consumer left it. -/
theorem count_turns_le {n k a : Nat} (h : k ≤ a + n) (i : Nat) :
    (turns n k).count i ≤ (turns n a).count i + 1 := by
  calc (turns n k).count i ≤ (turns n (a + n)).count i := (turns_mono h).sublist.count_le i
    _ = (turns n a).count i + ((List.range n).map (fun j => (a + j) % n)).count i := by
        rw [turns_add, List.count_append]
    _ ≤ (turns n a).count i + 1 := by
        have := List.nodup_iff_count_le_one.mp (nodup_lap n a) i
        omega

end EzEhci.Lib
