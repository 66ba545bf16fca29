import Mathlib.Algebra.BigOperators.Group.List.Basic
import Mathlib.Algebra.Order.Ring.Nat

/-!
# Exponential backoff

A loop that waits after every failure, twice as long each time and never longer than a
cap, and starts over after a success. The wait after `k` failures in a row has a closed
form, and so does the time that a series of failures takes.

* `delay` — the wait after a failure that follows `k` others;
* `total` — all the waits of a series of failures.
-/

namespace Backoff

variable (first cap : Nat)

/-- The wait after a failure that `k` failures precede. -/
def delay (k : Nat) : Nat := min (first * 2 ^ k) cap

/-- The waits of `n` failures in a row. -/
def total (n : Nat) : Nat := ((List.range n).map (delay first cap)).sum

variable {first cap}

@[simp] theorem delay_zero (h : first ≤ cap) : delay first cap 0 = first := by
  simp [delay, h]

theorem delay_le (k : Nat) : delay first cap k ≤ cap := min_le_right _ _

/-- **Doubling and capping the wait** gives the next one. -/
theorem min_delay_mul_two (k : Nat) : min (delay first cap k * 2) cap = delay first cap (k + 1) := by
  have hpow : first * 2 ^ (k + 1) = first * 2 ^ k * 2 := by rw [pow_succ, ← mul_assoc]
  unfold delay
  rw [hpow]
  omega

@[simp] theorem total_zero : total first cap 0 = 0 := rfl

theorem total_succ (n : Nat) : total first cap (n + 1) = total first cap n + delay first cap n := by
  simp [total, List.range_succ]

theorem total_mono {n m : Nat} (h : n ≤ m) : total first cap n ≤ total first cap m := by
  induction h with
  | refl => exact le_refl _
  | step _ ih =>
      rw [total_succ]
      exact ih.trans (Nat.le_add_right _ _)

end Backoff
