import Mathlib.Algebra.BigOperators.Group.List.Basic
import Mathlib.Data.List.Nodup
import Mathlib.Tactic.Abel

/-!
# Joins and groups

A join pairs each element of a list with the elements of another one that it
matches. Sums over the groups of a list add up to the sum over the list; sums
over a join take an element once for each of its matches.

* `sum_groups` — groups by a key, over all keys;
* `map_filter_joinOn` — a join in which an element has one match at most;
* `sum_joinOn` — **a sum over a join is the sum over the elements that match, and once
  more for each match after the first**.
-/

variable {α β κ M : Type} [AddCommMonoid M]

/-! ## Groups -/

/-- Of a list of keys without duplicates, one is the key. -/
theorem sum_ite_of_nodup [DecidableEq κ] {keys : List κ} (hnodup : keys.Nodup) {k : κ}
    (hk : k ∈ keys) (x : M) : (keys.map fun k' => if k = k' then x else 0).sum = x := by
  induction keys with
  | nil => cases hk
  | cons k' keys ih =>
      obtain ⟨hk', hkeys⟩ := List.nodup_cons.mp hnodup
      rw [List.map_cons, List.sum_cons]
      rcases List.mem_cons.mp hk with rfl | hk
      · have hrest : (keys.map fun k' => if k = k' then x else 0).sum = 0 := by
          apply List.sum_eq_zero
          intro y hy
          obtain ⟨k', hmem, rfl⟩ := List.mem_map.mp hy
          exact if_neg (ne_of_mem_of_not_mem hmem hk').symm
        rw [if_pos rfl, hrest, add_zero]
      · rw [if_neg (ne_of_mem_of_not_mem hk hk'), zero_add]
        exact ih hkeys hk

/-- The sums over the groups of all keys, added up. -/
theorem sum_groups [DecidableEq κ] (key : α → κ) (f : α → M) {keys : List κ}
    (hnodup : keys.Nodup) {l : List α} (hl : ∀ a ∈ l, key a ∈ keys) :
    (keys.map fun k => ((l.filter fun a => key a = k).map f).sum).sum = (l.map f).sum := by
  induction l with
  | nil =>
      apply List.sum_eq_zero
      simp
  | cons a l ih =>
      obtain ⟨ha, hl⟩ := List.forall_mem_cons.mp hl
      have hgroup : ∀ k, (((a :: l).filter fun a => key a = k).map f).sum =
          (if key a = k then f a else 0) + ((l.filter fun a => key a = k).map f).sum := by
        intro k
        by_cases hk : key a = k
        · simp [hk]
        · simp [hk]
      simp only [hgroup, List.sum_map_add, ih hl, sum_ite_of_nodup hnodup ha, List.map_cons,
        List.sum_cons]

/-! ## Joins -/

variable (p : α → β → Bool) (as : List α) (bs : List β)

def joinOn : List (α × β) := as.flatMap fun a => (bs.filter (p a)).map fun b => (a, b)

/-- The elements that match at all. -/
def matching : List α := as.filter fun a => bs.any (p a)

variable {p as bs}

theorem mem_joinOn {pair : α × β} :
    pair ∈ joinOn p as bs ↔ pair.1 ∈ as ∧ pair.2 ∈ bs ∧ p pair.1 pair.2 := by
  obtain ⟨a, b⟩ := pair
  simp [joinOn]

/-- Where an element has one match at most, a join filters the elements: those are left of
which the match passes. -/
theorem map_filter_joinOn (q : α → β → Bool) (hone : ∀ a ∈ as, bs.countP (p a) ≤ 1) :
    ((joinOn p as bs).filter fun pair => q pair.1 pair.2).map (fun pair => pair.1) =
      as.filter fun a => bs.any fun b => p a b && q a b := by
  induction as with
  | nil => rfl
  | cons a as ih =>
      obtain ⟨ha, has⟩ := List.forall_mem_cons.mp hone
      have hany : (bs.any fun b => p a b && q a b) = (bs.filter (p a)).any (q a) := by
        rw [List.any_filter]
      have hjoin : joinOn p (a :: as) bs =
          (bs.filter (p a)).map (fun b => (a, b)) ++ joinOn p as bs := rfl
      rw [hjoin, List.filter_append, List.map_append, ih has, List.filter_cons, hany]
      rw [List.countP_eq_length_filter] at ha
      match bs.filter (p a), ha with
      | [], _ => rfl
      | [b], _ => by_cases hq : q a b <;> simp [hq]

variable (p as bs)

/-- A match has been taken once, each further one takes the element again. -/
theorem sum_joinOn (f : α → M) :
    ((joinOn p as bs).map fun pair => f pair.1).sum =
      ((matching p as bs).map f).sum + (as.map fun a => (bs.countP (p a) - 1) • f a).sum := by
  induction as with
  | nil => simp [joinOn, matching]
  | cons a as ih =>
      have hpairs : (((bs.filter (p a)).map fun b => (a, b)).map fun pair => f pair.1).sum =
          bs.countP (p a) • f a := by
        simp [List.countP_eq_length_filter, Function.comp_def]
      have hjoin : joinOn p (a :: as) bs =
          (bs.filter (p a)).map (fun b => (a, b)) ++ joinOn p as bs := rfl
      rw [hjoin, List.map_append, List.sum_append, hpairs, ih, List.map_cons, List.sum_cons]
      by_cases hany : bs.any (p a)
      · have hpos : bs.countP (p a) = bs.countP (p a) - 1 + 1 := by
          have : 0 < bs.countP (p a) := List.countP_pos_iff.mpr (List.any_eq_true.mp hany)
          omega
        have hmatching : matching p (a :: as) bs = a :: matching p as bs :=
          List.filter_cons_of_pos hany
        rw [hmatching, List.map_cons, List.sum_cons]
        conv_lhs => rw [hpos, succ_nsmul]
        abel
      · have hzero : bs.countP (p a) = 0 := by
          rw [List.countP_eq_zero]
          simpa using hany
        have hmatching : matching p (a :: as) bs = matching p as bs :=
          List.filter_cons_of_neg hany
        rw [hmatching, hzero, zero_nsmul, zero_add, zero_add]

variable {p as bs}

/-- Nothing is taken again when every element matches at most once. -/
theorem sum_again_eq_zero_iff :
    (as.map fun a => bs.countP (p a) - 1).sum = 0 ↔ ∀ a ∈ as, bs.countP (p a) ≤ 1 := by
  rw [List.sum_eq_zero_iff_forall_eq_nat, List.forall_mem_map]
  simp only [Nat.sub_eq_zero_iff_le]
