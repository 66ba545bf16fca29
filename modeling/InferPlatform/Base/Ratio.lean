import Mathlib.Algebra.BigOperators.Ring.List
import Mathlib.Algebra.Order.BigOperators.Group.List
import Mathlib.Algebra.Order.Field.Basic
import Mathlib.Tactic.Linarith

/-!
# Quotients of sums

A share of a whole, where both are summed up over parts, is a mean of the shares of the
parts: one part has no larger share and one no smaller.

* `exists_div_le`, `exists_le_div` — the two parts.
-/

namespace Ratio

variable {α K : Type} [Field K] [LinearOrder K] [IsStrictOrderedRing K] {l : List α} {a b : α → K}

omit [IsStrictOrderedRing K] in
theorem sum_mul_div (hpos : 0 < (l.map b).sum) :
    (l.map fun x => (l.map a).sum / (l.map b).sum * b x).sum = (l.map a).sum := by
  rw [List.sum_map_mul_left, div_mul_cancel₀ _ hpos.ne']

/-- Some part counts. -/
theorem exists_pos_of_sum_pos (hpos : 0 < (l.map b).sum) : ∃ x ∈ l, 0 < b x :=
  List.exists_lt_of_sum_lt (fun _ => 0) b (by simpa using hpos)

/-- A part without a larger share than the whole. -/
theorem exists_div_le (hb : ∀ x ∈ l, 0 ≤ b x) (ha : ∀ x ∈ l, b x = 0 → a x = 0)
    (hpos : 0 < (l.map b).sum) :
    ∃ x ∈ l, 0 < b x ∧ a x / b x ≤ (l.map a).sum / (l.map b).sum := by
  by_contra hnone
  push Not at hnone
  obtain ⟨y, hy, hypos⟩ := exists_pos_of_sum_pos hpos
  have hle : ∀ x ∈ l, (l.map a).sum / (l.map b).sum * b x ≤ a x := by
    intro x hx
    rcases eq_or_lt_of_le (hb x hx) with hzero | hxpos
    · rw [← hzero, ha x hx hzero.symm, mul_zero]
    · exact ((lt_div_iff₀ hxpos).mp (hnone x hx hxpos)).le
  have hlt : (l.map a).sum / (l.map b).sum * b y < a y :=
    (lt_div_iff₀ hypos).mp (hnone y hy hypos)
  have hsum := List.sum_lt_sum _ _ hle ⟨y, hy, hlt⟩
  rw [sum_mul_div hpos] at hsum
  exact lt_irrefl _ hsum

/-- A part without a smaller share than the whole. -/
theorem exists_le_div (hb : ∀ x ∈ l, 0 ≤ b x) (ha : ∀ x ∈ l, b x = 0 → a x = 0)
    (hpos : 0 < (l.map b).sum) :
    ∃ x ∈ l, 0 < b x ∧ (l.map a).sum / (l.map b).sum ≤ a x / b x := by
  have hneg : ∀ x ∈ l, b x = 0 → -a x = 0 := fun x hx hzero => by rw [ha x hx hzero, neg_zero]
  obtain ⟨x, hx, hxpos, hle⟩ := exists_div_le hb hneg hpos
  have hsum : (l.map fun x => -a x).sum = -(l.map a).sum := by
    rw [List.sum_neg, List.map_map]
    rfl
  rw [hsum, neg_div, neg_div, neg_le_neg_iff] at hle
  exact ⟨x, hx, hxpos, hle⟩

end Ratio
