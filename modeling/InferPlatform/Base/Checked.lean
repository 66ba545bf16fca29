import Mathlib.Tactic

/-!
# Fixed-width arithmetic with build profiles

A Rust program compiled with overflow checks panics where the same program
compiled without them wraps around. Both behaviours are one definition here:
every operation takes the `Profile` it was compiled under and returns the
wrapped value or the panic that ends the thread.

* `Profile.guard` — the single point at which the two profiles differ;
* `add32`, `sub32`, `add64`, `mul64`, `div64` — the operations, each with the
  lemma saying that inside the range both profiles agree with the integers;
* `saturatingSub64`, `min32`, `truncate32` — the operations that never panic.
-/

namespace Checked

/-- What ends a thread. -/
inductive Panic
  | overflow
  | divideByZero
  | outOfBounds
  deriving DecidableEq, Repr

/-- Whether overflow checks are compiled in (`dev`) or not (`release`). -/
inductive Profile
  | release
  | dev
  deriving DecidableEq, Repr

/-- An arithmetic result: `release` always returns the wrapped value, `dev`
panics unless the exact result fits. -/
def Profile.guard {α : Type} (p : Profile) (fits : Prop) [Decidable fits] (wrapped : α) :
    Except Panic α :=
  if fits ∨ p = .release then .ok wrapped else .error .overflow

theorem Profile.guard_of_fits {α : Type} (p : Profile) {fits : Prop} [Decidable fits]
    (wrapped : α) (h : fits) : p.guard fits wrapped = .ok wrapped :=
  if_pos (.inl h)

def Profile.add32 (p : Profile) (a b : UInt32) : Except Panic UInt32 :=
  p.guard (a.toNat + b.toNat < 2 ^ 32) (a + b)

def Profile.sub32 (p : Profile) (a b : UInt32) : Except Panic UInt32 :=
  p.guard (b.toNat ≤ a.toNat) (a - b)

def Profile.add64 (p : Profile) (a b : UInt64) : Except Panic UInt64 :=
  p.guard (a.toNat + b.toNat < 2 ^ 64) (a + b)

def Profile.mul64 (p : Profile) (a b : UInt64) : Except Panic UInt64 :=
  p.guard (a.toNat * b.toNat < 2 ^ 64) (a * b)

/-- Division by zero panics under either profile. -/
def div64 (a b : UInt64) : Except Panic UInt64 :=
  if b = 0 then .error .divideByZero else .ok (a / b)

def saturatingSub64 (a b : UInt64) : UInt64 :=
  if b ≤ a then a - b else 0

def min32 (a b : UInt32) : UInt32 :=
  if a ≤ b then a else b

/-- The narrowing cast `as u32`: it truncates and never panics. -/
def truncate32 (a : UInt64) : UInt32 := a.toUInt32

/-- `iter().sum()` over `u64`: a checked addition for every element. -/
def Profile.sum64 (p : Profile) (values : List UInt64) : Except Panic UInt64 :=
  values.foldlM p.add64 0

/-! ## Inside the range both profiles compute the integer -/

theorem Profile.add32_of_lt (p : Profile) {a b : UInt32} (h : a.toNat + b.toNat < 2 ^ 32) :
    p.add32 a b = .ok (a + b) ∧ (a + b).toNat = a.toNat + b.toNat := by
  refine ⟨p.guard_of_fits _ h, ?_⟩
  rw [UInt32.toNat_add]
  exact Nat.mod_eq_of_lt h

theorem Profile.sub32_of_le (p : Profile) {a b : UInt32} (h : b.toNat ≤ a.toNat) :
    p.sub32 a b = .ok (a - b) ∧ (a - b).toNat = a.toNat - b.toNat :=
  ⟨p.guard_of_fits _ h, UInt32.toNat_sub_of_le a b (UInt32.le_iff_toNat_le.mpr h)⟩

theorem Profile.add64_of_lt (p : Profile) {a b : UInt64} (h : a.toNat + b.toNat < 2 ^ 64) :
    p.add64 a b = .ok (a + b) ∧ (a + b).toNat = a.toNat + b.toNat := by
  refine ⟨p.guard_of_fits _ h, ?_⟩
  rw [UInt64.toNat_add]
  exact Nat.mod_eq_of_lt h

theorem Profile.mul64_of_lt (p : Profile) {a b : UInt64} (h : a.toNat * b.toNat < 2 ^ 64) :
    p.mul64 a b = .ok (a * b) ∧ (a * b).toNat = a.toNat * b.toNat := by
  refine ⟨p.guard_of_fits _ h, ?_⟩
  rw [UInt64.toNat_mul]
  exact Nat.mod_eq_of_lt h

theorem div64_of_pos {a b : UInt64} (h : 0 < b.toNat) :
    div64 a b = .ok (a / b) ∧ (a / b).toNat = a.toNat / b.toNat := by
  have hne : b ≠ 0 := by
    rintro rfl
    simp at h
  exact ⟨if_neg hne, UInt64.toNat_div a b⟩

/-- A sum that fits is computed, from any start. -/
theorem Profile.foldlM_add64_of_lt (p : Profile) (values : List UInt64) (start : UInt64)
    (h : start.toNat + (values.map UInt64.toNat).sum < 2 ^ 64) :
    ∃ total, values.foldlM p.add64 start = .ok total ∧
      total.toNat = start.toNat + (values.map UInt64.toNat).sum := by
  induction values generalizing start with
  | nil => exact ⟨start, rfl, rfl⟩
  | cons a values ih =>
      rw [List.map_cons, List.sum_cons] at h
      obtain ⟨hadd, haddNat⟩ := p.add64_of_lt (a := start) (b := a) (by omega)
      obtain ⟨total, hrun, htotal⟩ := ih (start + a) (by omega)
      refine ⟨total, ?_, ?_⟩
      · rw [List.foldlM_cons, hadd]
        exact hrun
      · rw [htotal, haddNat, List.map_cons, List.sum_cons]
        omega

theorem Profile.sum64_of_lt (p : Profile) {values : List UInt64}
    (h : (values.map UInt64.toNat).sum < 2 ^ 64) :
    ∃ total, p.sum64 values = .ok total ∧ total.toNat = (values.map UInt64.toNat).sum := by
  obtain ⟨total, hrun, htotal⟩ := p.foldlM_add64_of_lt values 0 (by simpa using h)
  exact ⟨total, hrun, by simpa using htotal⟩

@[simp] theorem toNat_saturatingSub64 (a b : UInt64) :
    (saturatingSub64 a b).toNat = a.toNat - b.toNat := by
  unfold saturatingSub64
  split
  · rename_i hle
    exact UInt64.toNat_sub_of_le a b hle
  · rename_i hlt
    have : a.toNat < b.toNat := UInt64.lt_iff_toNat_lt.mp (UInt64.not_le.mp hlt)
    simp
    omega

@[simp] theorem toNat_min32 (a b : UInt32) : (min32 a b).toNat = min a.toNat b.toNat := by
  unfold min32
  split
  · rename_i hle
    exact (Nat.min_eq_left (UInt32.le_iff_toNat_le.mp hle)).symm
  · rename_i hlt
    have : b.toNat < a.toNat := UInt32.lt_iff_toNat_lt.mp (UInt32.not_le.mp hlt)
    exact (Nat.min_eq_right this.le).symm

@[simp] theorem toNat_truncate32 (a : UInt64) :
    (truncate32 a).toNat = a.toNat % 2 ^ 32 := by
  simp [truncate32]

end Checked
