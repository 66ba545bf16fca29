import Mathlib.Algebra.Order.BigOperators.Group.List
import Mathlib.Algebra.Order.Ring.Nat

/-!
# Greedy filling

A demand is met from a list of capacities, from left to right: every place takes what
it holds, until nothing is left. Places that hold nothing take no part.

* `fill` — what the places take;
* `sum_fill`, `length_fill_le` — how much they take, and how many of them do;
* `sum_le_sum_take` — no places hold more than as many of the first ones, if the
  capacities descend;
* `sum_add_largest_le` — growth never makes the places beside the largest one smaller.
-/

namespace Greedy

/-- What the places that take part take. -/
def fill : List Nat → Nat → List Nat
  | [], _ => []
  | c :: cs, demand =>
    if demand = 0 then []
    else if c = 0 then fill cs demand
    else min c demand :: fill cs (demand - c)

@[simp] theorem fill_zero (cs : List Nat) : fill cs 0 = [] := by
  cases cs <;> simp [fill]

/-- Everything is taken that there is, up to the demand. -/
theorem sum_fill (cs : List Nat) (demand : Nat) : (fill cs demand).sum = min cs.sum demand := by
  induction cs generalizing demand with
  | nil => simp [fill]
  | cons c cs ih =>
      rw [fill, List.sum_cons]
      split
      · simp [*]
      · split
        · rename_i hc
          rw [ih, hc, Nat.zero_add]
        · rw [List.sum_cons, ih]
          omega

/-- The places after those that meet the demand take no part. -/
theorem length_fill_le {cs : List Nat} {demand k : Nat} (h : demand ≤ (cs.take k).sum) :
    (fill cs demand).length ≤ k := by
  induction cs generalizing demand k with
  | nil => simp [fill]
  | cons c cs ih =>
      rw [fill]
      split
      · simp
      · rename_i hdemand
        cases k with
        | zero =>
            rw [List.take_zero, List.sum_nil] at h
            omega
        | succ k =>
            rw [List.take_succ_cons, List.sum_cons] at h
            split
            · rename_i hc
              have hrest : (fill cs demand).length ≤ k := ih (by omega)
              omega
            · have hrest : (fill cs (demand - c)).length ≤ k := ih (by omega)
              show (fill cs (demand - c)).length + 1 ≤ k + 1
              omega

/-! ## Descending capacities -/

/-- One place more holds no more than the first one. -/
theorem sum_take_succ_le {c : Nat} {cs : List Nat} (h : ∀ d ∈ cs, d ≤ c) (n : Nat) :
    (cs.take (n + 1)).sum ≤ c + (cs.take n).sum := by
  by_cases hn : n < cs.length
  · rw [List.take_add_one, List.getElem?_eq_getElem hn, List.sum_append]
    have hle := h cs[n] (List.getElem_mem hn)
    show (cs.take n).sum + (cs[n] + 0) ≤ _
    omega
  · have hlen : cs.length ≤ n := Nat.not_lt.mp hn
    rw [List.take_of_length_le hlen, List.take_of_length_le (Nat.le_succ_of_le hlen)]
    exact Nat.le_add_left _ _

/-- **The first places hold most.** Induction on how the choice sits in the list: a place
that it leaves out holds as much as the one that it has in addition. -/
theorem sum_le_sum_take_of_sublist {chosen cs : List Nat} (hsub : chosen.Sublist cs)
    (hcs : cs.Pairwise fun a b => b ≤ a) : chosen.sum ≤ (cs.take chosen.length).sum := by
  induction hsub with
  | slnil => simp
  | @cons chosen cs c hsub ih =>
      obtain ⟨hc, hcs⟩ := List.pairwise_cons.mp hcs
      have hle := ih hcs
      cases chosen with
      | nil => simp
      | cons d chosen =>
          have hone := sum_take_succ_le hc chosen.length
          rw [List.length_cons] at hle ⊢
          show _ ≤ c + (cs.take chosen.length).sum
          omega
  | @cons_cons chosen cs c hsub ih =>
      have hle := ih (List.pairwise_cons.mp hcs).2
      rw [List.length_cons, List.take_succ_cons, List.sum_cons, List.sum_cons]
      omega

theorem sum_le_sum_take {chosen cs : List Nat} (hsub : chosen.Subperm cs)
    (hcs : cs.Pairwise fun a b => b ≤ a) : chosen.sum ≤ (cs.take chosen.length).sum := by
  obtain ⟨kept, hperm, hkept⟩ := hsub
  rw [← hperm.sum_eq, ← hperm.length_eq]
  exact sum_le_sum_take_of_sublist hkept hcs

/-! ## Growth -/

/-- The largest capacity. -/
def largest (cs : List Nat) : Nat := cs.foldr max 0

theorem largest_mem {cs : List Nat} (h : cs ≠ []) : largest cs ∈ cs := by
  induction cs with
  | nil => exact absurd rfl h
  | cons d cs ih =>
      by_cases hcs : cs = []
      · simp [hcs, largest]
      · rcases Nat.le_total (largest cs) d with hle | hle
        · have hd : largest (d :: cs) = d := Nat.max_eq_left hle
          rw [hd]
          exact List.mem_cons_self
        · have hd : largest (d :: cs) = largest cs := Nat.max_eq_right hle
          rw [hd]
          exact List.mem_cons_of_mem _ (ih hcs)

/-- Among grown places, one that is dropped takes no more with it than it had grown by
and the largest one held. -/
theorem sum_add_le_of_forall₂ {cs grown : List Nat} (h : List.Forall₂ (· ≤ ·) cs grown) {d : Nat}
    (hd : d ∈ grown) : cs.sum + d ≤ grown.sum + largest cs := by
  induction h with
  | nil => cases hd
  | @cons c e cs grown hce hrest ih =>
      have hsum := hrest.sum_le_sum
      have hlargest : largest (c :: cs) = max c (largest cs) := rfl
      rw [hlargest, List.sum_cons, List.sum_cons]
      rcases List.mem_cons.mp hd with rfl | hd
      · have hle := Nat.le_max_left c (largest cs)
        omega
      · have hle := Nat.le_max_right c (largest cs)
        have hih := ih hd
        omega

/-- **Growth and the largest place**: where every place grows and places are added, in
any order, the places beside the largest one do not hold less than before. -/
theorem sum_add_largest_le {cs grown added cs' : List Nat} (h : List.Forall₂ (· ≤ ·) cs grown)
    (hperm : cs'.Perm (grown ++ added)) : cs.sum + largest cs' ≤ cs'.sum + largest cs := by
  have hsum' : cs'.sum = grown.sum + added.sum := by
    rw [hperm.sum_eq, List.sum_append]
  have hsum := h.sum_le_sum
  by_cases hne : cs' = []
  · rw [hne] at hsum' ⊢
    show cs.sum + 0 ≤ 0 + _
    rw [List.sum_nil] at hsum'
    omega
  · rcases List.mem_append.mp (hperm.mem_iff.mp (largest_mem hne)) with hmem | hmem
    · have hle := sum_add_le_of_forall₂ h hmem
      omega
    · have hle : largest cs' ≤ added.sum := List.le_sum_of_mem hmem
      omega

end Greedy
