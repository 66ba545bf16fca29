import Mathlib.Data.List.Sort
import Mathlib.Order.Std

/-!
# Sorting by a comparison

`sort_by` sorts a list stably by a comparison. What a stable sort is does not
depend on how it is done.

* `StableSort` — the same elements, in the order of the comparison, and elements
  that need not change places in the places they had;
* `sortBy` — the sort;
* `sortBy_pairwise` — elements that compare equal keep the order that they had.
-/

variable {α : Type}

/-- The list `sorted` is `l`, sorted stably. -/
structure StableSort (cmp : α → α → Ordering) (l sorted : List α) : Prop where
  perm : sorted.Perm l
  ordered : sorted.Pairwise fun a b => (cmp a b).isLE
  stable : ∀ a b, (cmp a b).isLE → [a, b].Sublist l → [a, b].Sublist sorted

/-- `sort_by`. -/
def sortBy (cmp : α → α → Ordering) (l : List α) : List α :=
  l.insertionSort fun a b => (cmp a b).isLE

theorem sortBy_perm (cmp : α → α → Ordering) (l : List α) : (sortBy cmp l).Perm l :=
  List.perm_insertionSort _ l

theorem stableSort_sortBy (cmp : α → α → Ordering) [Std.TransCmp cmp] (l : List α) :
    StableSort cmp l (sortBy cmp l) := by
  have htotal : Std.Total fun a b => ((cmp a b).isLE : Prop) := by
    refine ⟨fun a b => ?_⟩
    have hswap : cmp b a = (cmp a b).swap := Std.OrientedCmp.eq_swap
    rw [hswap]
    cases cmp a b <;> simp
  have htrans : IsTrans α fun a b => ((cmp a b).isLE : Prop) :=
    ⟨fun _ _ _ => Std.TransCmp.isLE_trans⟩
  refine ⟨sortBy_perm cmp l, List.pairwise_insertionSort _ l, ?_⟩
  intro a b hle hsub
  exact List.pair_sublist_insertionSort hle hsub

theorem sortBy_cons (cmp : α → α → Ordering) (a : α) (l : List α) :
    sortBy cmp (a :: l) = (sortBy cmp l).orderedInsert (fun a b => (cmp a b).isLE) a :=
  List.insertionSort_cons ..

/-- The relation of the elements of a list, by the comparison first. -/
def LexBy (cmp : α → α → Ordering) (R : α → α → Prop) (a b : α) : Prop :=
  cmp a b = .lt ∨ (cmp a b = .eq ∧ R a b)

theorem LexBy.isLE {cmp : α → α → Ordering} {R : α → α → Prop} {a b : α} (h : LexBy cmp R a b) :
    (cmp a b).isLE := by
  rcases h with h | ⟨h, -⟩ <;> simp [h]

/-- An element goes before those that compare equal. -/
theorem orderedInsert_pairwise {cmp : α → α → Ordering} [Std.TransCmp cmp] {R : α → α → Prop}
    {a : α} {l : List α} (hl : l.Pairwise (LexBy cmp R)) (ha : ∀ b ∈ l, R a b) :
    (l.orderedInsert (fun a b => (cmp a b).isLE) a).Pairwise (LexBy cmp R) := by
  induction l with
  | nil => simp
  | cons b l ih =>
      obtain ⟨hb, hl'⟩ := List.pairwise_cons.mp hl
      rw [List.orderedInsert_cons]
      split
      · rename_i hle
        refine List.pairwise_cons.mpr ⟨fun c hc => ?_, hl⟩
        have hac : (cmp a c).isLE := by
          rcases List.mem_cons.mp hc with rfl | hc'
          · exact hle
          · exact Std.TransCmp.isLE_trans hle (hb c hc').isLE
        cases hcmp : cmp a c with
        | lt => exact .inl hcmp
        | eq => exact .inr ⟨hcmp, ha c hc⟩
        | gt => rw [hcmp] at hac; cases hac
      · rename_i hgt
        have hswap : cmp b a = (cmp a b).swap := Std.OrientedCmp.eq_swap
        have hba : cmp b a = .lt := by
          rw [hswap]
          cases hcmp : cmp a b <;> simp_all
        refine List.pairwise_cons.mpr
          ⟨fun c hc => ?_, ih hl' fun c hc => ha c (List.mem_cons_of_mem _ hc)⟩
        rcases (List.mem_orderedInsert _).mp hc with rfl | hc
        · exact .inl hba
        · exact hb c hc

/-- **A sort by a comparison orders by it first and by the order of the list second.** -/
theorem sortBy_pairwise (cmp : α → α → Ordering) [Std.TransCmp cmp] {R : α → α → Prop} {l : List α}
    (h : l.Pairwise R) : (sortBy cmp l).Pairwise (LexBy cmp R) := by
  induction l with
  | nil => exact .nil
  | cons a l ih =>
      obtain ⟨ha, hl⟩ := List.pairwise_cons.mp h
      rw [sortBy_cons]
      apply orderedInsert_pairwise (ih hl)
      intro b hb
      exact ha b ((sortBy_perm cmp l).mem_iff.mp hb)

/-- Of two members one comes before the other. -/
theorem pair_sublist_or {a b : α} {l : List α} (ha : a ∈ l) (hb : b ∈ l) (hne : a ≠ b) :
    [a, b].Sublist l ∨ [b, a].Sublist l := by
  obtain ⟨before, after, rfl⟩ := List.append_of_mem ha
  rcases List.mem_append.mp hb with hb | hb
  · right
    exact (List.singleton_sublist.mpr hb).append (List.singleton_sublist.mpr List.mem_cons_self)
  · left
    have hafter : b ∈ after := (List.mem_cons.mp hb).resolve_left (Ne.symm hne)
    exact List.sublist_append_of_sublist_right ((List.singleton_sublist.mpr hafter).cons_cons a)

theorem transCmp_comap {β : Type} (cmp : β → β → Ordering) [Std.TransCmp cmp] (f : α → β) :
    Std.TransCmp fun a b => cmp (f a) (f b) where
  eq_swap := Std.OrientedCmp.eq_swap
  isLE_trans := Std.TransCmp.isLE_trans

/-- A list may be sorted by its positions. -/
theorem map_sortBy {β : Type} (cmp : β → β → Ordering) (f : α → β) (l : List α) :
    (sortBy (fun a b => cmp (f a) (f b)) l).map f = sortBy cmp (l.map f) :=
  List.map_insertionSort _ _ f l fun _ _ _ _ => Iff.rfl
