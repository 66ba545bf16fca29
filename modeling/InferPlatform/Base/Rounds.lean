import Mathlib.Data.List.Induction
import Mathlib.Data.List.Nodup
import Mathlib.Data.List.Perm.Subperm
import Mathlib.Tactic

/-!
# Picks in rounds

A list of picks from `n` candidates is read in rounds of `n` picks each. All
candidates have been picked equally often, up to one, as long as no pick repeats one
of its own round (`even_of_fair`), and a pick that repeats one of its round ends that
(`not_even_of_repeat`).
-/

namespace Rounds

variable {α β : Type}

/-- The picks since the last full round. -/
def current (n : Nat) (picks : List α) : List α := picks.drop (picks.length / n * n)

/-- No pick repeats one of its round. -/
def Fair (n : Nat) (picks : List α) : Prop :=
  ∀ earlier a, earlier ++ [a] <+: picks → a ∉ current n earlier

theorem current_map (n : Nat) (f : α → β) (picks : List α) :
    current n (picks.map f) = (current n picks).map f := by
  rw [current, current, List.length_map, List.map_drop]

theorem length_current (n : Nat) (picks : List α) :
    (current n picks).length = picks.length % n := by
  rw [current, List.length_drop, Nat.mod_eq_sub_mul_div, Nat.mul_comm]

theorem fair_nil (n : Nat) : Fair n ([] : List α) := by
  intro earlier a h
  exact absurd (List.prefix_nil.mp h) (by simp)

/-- One more pick is fair if it repeats none of its round. -/
theorem Fair.concat {n : Nat} {picks : List α} {a : α} (h : Fair n picks)
    (ha : a ∉ current n picks) : Fair n (picks ++ [a]) := by
  intro earlier b hpre
  rcases List.prefix_concat_iff.mp hpre with heq | hpre
  · obtain ⟨rfl, hlast⟩ := List.append_inj' heq rfl
    obtain rfl := List.singleton_inj.mp hlast
    exact ha
  · exact h earlier b hpre

theorem Fair.of_concat {n : Nat} {picks : List α} {a : α} (h : Fair n (picks ++ [a])) :
    Fair n picks ∧ a ∉ current n picks :=
  ⟨fun earlier b hpre => h earlier b (hpre.trans (List.prefix_append _ _)),
    h picks a (List.prefix_refl _)⟩

/-- A pick inside a round. -/
theorem current_concat_inside {n : Nat} {picks : List α} (a : α)
    (h : picks.length % n + 1 < n) :
    current n (picks ++ [a]) = current n picks ++ [a] ∧
      (picks ++ [a]).length / n = picks.length / n := by
  have hlen := Nat.mod_add_div picks.length n
  have hdiv : (picks ++ [a]).length / n = picks.length / n := by
    refine ((Nat.div_mod_unique (by omega)).mpr (⟨?_, h⟩ : _ ∧ picks.length % n + 1 < n)).1
    rw [List.length_append, List.length_singleton]
    omega
  refine ⟨?_, hdiv⟩
  rw [current, hdiv, List.drop_append_of_le_length (Nat.div_mul_le_self _ _), current]

/-- The pick that completes a round. -/
theorem current_concat_last {n : Nat} {picks : List α} (a : α) (h : picks.length % n + 1 = n) :
    current n (picks ++ [a]) = [] ∧ (picks ++ [a]).length / n = picks.length / n + 1 := by
  have hlen := Nat.mod_add_div picks.length n
  obtain ⟨hdiv, hmod⟩ : (picks ++ [a]).length / n = picks.length / n + 1 ∧
      (picks ++ [a]).length % n = 0 := by
    refine (Nat.div_mod_unique (by omega)).mpr ⟨?_, by omega⟩
    rw [List.length_append, List.length_singleton, Nat.mul_add]
    omega
  refine ⟨List.length_eq_zero_iff.mp ?_, hdiv⟩
  rw [length_current, hmod]

/-! ## Counting -/

variable [BEq α] [LawfulBEq α]

/-- All candidates have been picked equally often, up to one. -/
def Even (candidates picks : List α) : Prop :=
  ∀ a ∈ candidates, ∀ b ∈ candidates, picks.count a ≤ picks.count b + 1

/-- The picks of a round are different candidates, and how often a candidate was
picked: once in every full round, and once more if it was in the current one. -/
theorem Fair.count_eq {candidates picks : List α} (hcandidates : candidates.Nodup)
    (hmem : ∀ a ∈ picks, a ∈ candidates) (hfair : Fair candidates.length picks) :
    (current candidates.length picks).Nodup ∧ ∀ a ∈ candidates,
      picks.count a = picks.length / candidates.length +
        if a ∈ current candidates.length picks then 1 else 0 := by
  induction picks using List.reverseRecOn with
  | nil => exact ⟨by simp [current], fun a _ => by simp [current]⟩
  | append_singleton picks b ih =>
      obtain ⟨hfair, hb⟩ := hfair.of_concat
      obtain ⟨hnodup, hcount⟩ := ih (fun a ha => hmem a (List.mem_append_left _ ha)) hfair
      have hbmem : b ∈ candidates := hmem b (by simp)
      have hnodup' : (current candidates.length picks ++ [b]).Nodup :=
        List.concat_eq_append ▸ hnodup.concat hb
      have hpos : 0 < candidates.length := List.length_pos_of_mem hbmem
      have hlt := Nat.mod_lt picks.length hpos
      rcases Nat.lt_or_ge (picks.length % candidates.length + 1) candidates.length with h | h
      · obtain ⟨hcurrent, hdiv⟩ := current_concat_inside b h
        rw [hcurrent, hdiv]
        refine ⟨hnodup', fun a ha => ?_⟩
        rw [List.count_append, hcount a ha]
        by_cases hab : a = b
        · subst hab
          simp [hb]
        · simp [hab, Ne.symm hab]
      · obtain ⟨hcurrent, hdiv⟩ := current_concat_last b (Nat.le_antisymm hlt h)
        -- the full round has as many different candidates as there are
        have hsub : current candidates.length picks ++ [b] ⊆ candidates := by
          intro a ha
          refine hmem a ?_
          rcases List.mem_append.mp ha with ha | ha
          · exact List.mem_append_left _ (List.mem_of_mem_drop ha)
          · exact List.mem_append_right _ ha
        have hall : (current candidates.length picks ++ [b]).Perm candidates := by
          refine (hnodup'.subperm hsub).perm_of_length_le ?_
          rw [List.length_append, length_current, List.length_singleton]
          exact h
        rw [hcurrent, hdiv]
        refine ⟨List.nodup_nil, fun a ha => ?_⟩
        rw [List.count_append, hcount a ha]
        have hround := List.count_eq_one_of_mem hcandidates ha
        rw [← hall.count_eq, List.count_append] at hround
        by_cases hin : a ∈ current candidates.length picks
        · rw [List.count_eq_one_of_mem hnodup hin] at hround
          rw [if_pos hin, if_neg List.not_mem_nil]
          omega
        · rw [List.count_eq_zero.mpr hin] at hround
          rw [if_neg hin, if_neg List.not_mem_nil]
          omega

/-- **Fair rounds are even.** -/
theorem even_of_fair {candidates picks : List α} (hcandidates : candidates.Nodup)
    (hmem : ∀ a ∈ picks, a ∈ candidates) (hfair : Fair candidates.length picks) :
    Even candidates picks := by
  obtain ⟨-, hcount⟩ := hfair.count_eq hcandidates hmem
  intro a ha b hb
  rw [hcount a ha, hcount b hb]
  split <;> split <;> omega

/-- **A repeated pick is not**: some candidate has not been picked in this round. -/
theorem not_even_of_repeat {candidates picks : List α} {a : α} (hcandidates : candidates.Nodup)
    (hmem : ∀ a ∈ picks, a ∈ candidates) (hfair : Fair candidates.length picks)
    (ha : a ∈ current candidates.length picks) : ¬ Even candidates (picks ++ [a]) := by
  obtain ⟨hnodup, hcount⟩ := hfair.count_eq hcandidates hmem
  have hamem : a ∈ candidates := hmem a (List.mem_of_mem_drop ha)
  obtain ⟨b, hb, hnot⟩ : ∃ b ∈ candidates, b ∉ current candidates.length picks := by
    by_contra hall
    push Not at hall
    have hle := (hcandidates.subperm hall).length_le
    rw [length_current] at hle
    exact absurd (Nat.mod_lt picks.length (List.length_pos_of_mem hamem)) (by omega)
  have hne : a ≠ b := fun hab => hnot (hab ▸ ha)
  intro heven
  have hle := heven a hamem b hb
  rw [List.count_append, List.count_append, List.count_singleton_self,
    List.count_singleton, if_neg (by simpa using hne), hcount a hamem, hcount b hb, if_pos ha,
    if_neg hnot] at hle
  omega

end Rounds
