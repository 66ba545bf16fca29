import Mathlib.Algebra.Order.Floor.Semiring
import Mathlib.Tactic.Linarith

/-!
# Linear interpolation

A sequence that is known at the natural numbers is read between them in proportion.

* `atPoint_mono` — of a monotone sequence the reading is monotone;
* `le_atPoint`, `atPoint_le` — it stays within what bounds the sequence.
-/

namespace Interpolation

variable {K : Type} [Field K] [LinearOrder K] [IsStrictOrderedRing K] [FloorRing K]

/-- The sequence between two neighbours. -/
def atPoint (f : ℕ → K) (x : K) : K := f ⌊x⌋₊ + (x - ⌊x⌋₊) * (f ⌈x⌉₊ - f ⌊x⌋₊)

variable {f : ℕ → K}

omit [IsStrictOrderedRing K] in
/-- The next number may stand for the upper neighbour: at a number itself its weight is
zero. -/
theorem atPoint_eq {x : K} (hx : 0 ≤ x) :
    atPoint f x = f ⌊x⌋₊ + (x - ⌊x⌋₊) * (f (⌊x⌋₊ + 1) - f ⌊x⌋₊) := by
  have hfloor : (⌊x⌋₊ : K) ≤ x := Nat.floor_le hx
  rcases eq_or_lt_of_le hfloor with hint | hlt
  · have hzero : x - (⌊x⌋₊ : K) = 0 := sub_eq_zero.mpr hint.symm
    rw [atPoint, hzero, zero_mul, zero_mul]
  · have hceil : ⌈x⌉₊ = ⌊x⌋₊ + 1 := by
      apply le_antisymm (Nat.ceil_le_floor_add_one x)
      exact Nat.lt_ceil.mpr hlt
    rw [atPoint, hceil]

theorem floor_le_atPoint (hf : Monotone f) {x : K} (hx : 0 ≤ x) : f ⌊x⌋₊ ≤ atPoint f x := by
  rw [atPoint_eq hx]
  have hweight : 0 ≤ x - (⌊x⌋₊ : K) := sub_nonneg.mpr (Nat.floor_le hx)
  have hstep : 0 ≤ f (⌊x⌋₊ + 1) - f ⌊x⌋₊ := sub_nonneg.mpr (hf (Nat.le_succ _))
  exact le_add_of_nonneg_right (mul_nonneg hweight hstep)

theorem atPoint_le_succ (hf : Monotone f) {x : K} (hx : 0 ≤ x) :
    atPoint f x ≤ f (⌊x⌋₊ + 1) := by
  rw [atPoint_eq hx]
  have hweight : x - (⌊x⌋₊ : K) ≤ 1 := by
    have hlt := Nat.lt_floor_add_one x
    linarith
  have hstep : 0 ≤ f (⌊x⌋₊ + 1) - f ⌊x⌋₊ := sub_nonneg.mpr (hf (Nat.le_succ _))
  have hscaled := mul_le_of_le_one_left hstep hweight
  linarith

/-- **Of a monotone sequence the reading is monotone.** Within one step it is linear; else
there is a number of the sequence in between. -/
theorem atPoint_mono (hf : Monotone f) {x y : K} (hx : 0 ≤ x) (hxy : x ≤ y) :
    atPoint f x ≤ atPoint f y := by
  have hy : 0 ≤ y := hx.trans hxy
  rcases eq_or_lt_of_le (Nat.floor_le_floor hxy) with hsame | hlt
  · have hstep : 0 ≤ f (⌊y⌋₊ + 1) - f ⌊y⌋₊ := sub_nonneg.mpr (hf (Nat.le_succ _))
    rw [atPoint_eq hx, atPoint_eq hy, hsame]
    have hscaled := mul_le_mul_of_nonneg_right (sub_le_sub_right hxy (⌊y⌋₊ : K)) hstep
    linarith
  · calc atPoint f x ≤ f (⌊x⌋₊ + 1) := atPoint_le_succ hf hx
      _ ≤ f ⌊y⌋₊ := hf hlt
      _ ≤ atPoint f y := floor_le_atPoint hf hy

/-- A reading is no smaller than what is below the sequence. -/
theorem le_atPoint (hf : Monotone f) {x lo : K} (hx : 0 ≤ x) (hlo : ∀ i, lo ≤ f i) :
    lo ≤ atPoint f x := (hlo _).trans (floor_le_atPoint hf hx)

theorem atPoint_le (hf : Monotone f) {x hi : K} (hx : 0 ≤ x) (hhi : ∀ i, f i ≤ hi) :
    atPoint f x ≤ hi := (atPoint_le_succ hf hx).trans (hhi _)

end Interpolation
