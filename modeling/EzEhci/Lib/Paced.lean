import Mathlib.Algebra.Order.Floor.Div

/-!
# Checks at a pace

A condition is checked again and again until it holds or a timeout, counted from
`start`, is over. After a check that failed the next one is made at the end of
the interval, or at the deadline if that is earlier, or later than that.
`Paced interval timeout start k next` is the state of such a wait after `k`
failed checks: none of them came too late, and the next one is made at `next` or
after it. So the number of checks is bounded although nobody counts them.
-/

namespace EzEhci.Lib

/-- After `k` failed checks the next one is made no earlier than `next`. -/
structure Paced (interval timeout start k next : Nat) : Prop where
  started : start ≤ next
  waited : start + min (k * interval) timeout ≤ next
  failed : ∀ j < k, j * interval < timeout

namespace Paced

variable {interval timeout start k next next' : Nat}

theorem begin (interval timeout start : Nat) : Paced interval timeout start 0 start :=
  ⟨le_rfl, by simp, fun j hj => absurd hj (Nat.not_lt_zero j)⟩

theorem mono (h : Paced interval timeout start k next) (hle : next ≤ next') :
    Paced interval timeout start k next' :=
  ⟨h.started.trans hle, h.waited.trans hle, h.failed⟩

theorem again {now : Nat} (h : Paced interval timeout start k next) (hnow : next ≤ now)
    (htime : now - start < timeout) :
    Paced interval timeout start (k + 1) (min (now + interval) (start + timeout)) := by
  have hstart := h.started
  have hwaited := h.waited
  have hk : k * interval < timeout := by omega
  refine ⟨by omega, ?_, fun j hj => ?_⟩
  · rw [Nat.add_mul, one_mul]
    omega
  · rcases Nat.lt_succ_iff_lt_or_eq.mp hj with hj | rfl
    · exact h.failed j hj
    · exact hk

/-- The number of checks that fail before the timeout is over. -/
theorem le_ceilDiv (h : Paced interval timeout start k next) (hpos : 0 < interval) :
    k ≤ timeout ⌈/⌉ interval := by
  cases k with
  | zero => exact Nat.zero_le _
  | succ j =>
    by_contra hlt
    have hle : timeout ⌈/⌉ interval ≤ j := by omega
    have htimeout := (ceilDiv_le_iff_le_mul hpos).mp hle
    have hj := h.failed j (Nat.lt_succ_self j)
    rw [Nat.mul_comm] at hj
    omega

end Paced

end EzEhci.Lib
