import Mathlib.Data.List.Basic

/-!
# Keyed critical sections

Processes in a list, each with a key. At most one process of a key is in its
critical section, as long as none enters it while another one of its key is there.
-/

variable {ρ κ : Type}

/-- A process of the list after one of them has made a step. -/
theorem List.getElem?_set_cases {l : List ρ} {i j : Nat} {x b : ρ}
    (h : (l.set i x)[j]? = some b) : (j = i ∧ b = x) ∨ (j ≠ i ∧ l[j]? = some b) := by
  by_cases hj : j = i
  · left
    rw [hj, List.getElem?_set] at h
    simp only [if_true] at h
    split at h
    · exact ⟨hj, (Option.some.inj h).symm⟩
    · cases h
  · rw [List.getElem?_set_ne (Ne.symm hj)] at h
    exact .inr ⟨hj, h⟩

theorem List.getElem?_concat_cases {l : List ρ} {j : Nat} {x b : ρ}
    (h : (l ++ [x])[j]? = some b) : b = x ∨ l[j]? = some b := by
  rw [List.getElem?_append] at h
  split at h
  · exact .inr h
  · exact .inl (List.mem_singleton.mp (List.mem_of_getElem? h))

/-- The list before and after a step of one of them. -/
theorem List.exists_split_of_set {l : List ρ} {i : Nat} {a : ρ} (h : l[i]? = some a) (b : ρ) :
    ∃ before after, l = before ++ a :: after ∧ l.set i b = before ++ b :: after := by
  obtain ⟨hi, rfl⟩ := List.getElem?_eq_some_iff.mp h
  obtain ⟨before, after, hsplit, -, hset⟩ := List.exists_of_set hi
  exact ⟨before, after, hsplit, hset⟩

/-- No two processes of a key are busy. -/
def Exclusive (busy : ρ → Prop) (key : ρ → κ) (l : List ρ) : Prop :=
  ∀ (i j : Nat) (a b : ρ),
    l[i]? = some a → l[j]? = some b → busy a → busy b → key a = key b → i = j

namespace Exclusive

variable {busy : ρ → Prop} {key : ρ → κ} {l : List ρ}

theorem nil : Exclusive busy key [] := by
  intro i j a b ha
  simp at ha

/-- A process starts outside of its critical section. -/
theorem concat (h : Exclusive busy key l) {x : ρ} (hx : ¬ busy x) :
    Exclusive busy key (l ++ [x]) := by
  intro i j a b ha hb hbusya hbusyb hkey
  rcases List.getElem?_concat_cases ha with rfl | ha
  · exact absurd hbusya hx
  rcases List.getElem?_concat_cases hb with rfl | hb
  · exact absurd hbusyb hx
  · exact h i j a b ha hb hbusya hbusyb hkey

/-- The other processes of a key are not busy while one is. -/
theorem not_busy (h : Exclusive busy key l) {i j : Nat} {a b : ρ} (ha : l[i]? = some a)
    (hbusy : busy a) (hb : l[j]? = some b) (hkey : key b = key a) (hne : j ≠ i) : ¬ busy b := by
  intro hbusy'
  exact hne (h j i b a hb ha hbusy' hbusy hkey)

/-- A step of a process keeps exclusion if it goes on, leaves, or enters alone. -/
theorem set (h : Exclusive busy key l) {i : Nat} {x : ρ}
    (hx : busy x → ∀ j b, j ≠ i → l[j]? = some b → key b = key x → ¬ busy b) :
    Exclusive busy key (l.set i x) := by
  intro j k a b ha hb hbusya hbusyb hkey
  rcases List.getElem?_set_cases ha with ⟨hj, hax⟩ | ⟨hj, ha'⟩
  · subst hax
    rcases List.getElem?_set_cases hb with ⟨hk, -⟩ | ⟨hk, hb'⟩
    · exact hj.trans hk.symm
    · exact absurd hbusyb (hx hbusya k b hk hb' hkey.symm)
  · rcases List.getElem?_set_cases hb with ⟨-, hbx⟩ | ⟨hk, hb'⟩
    · subst hbx
      exact absurd hbusya (hx hbusyb j a hj ha' hkey)
    · exact h j k a b ha' hb' hbusya hbusyb hkey

/-- In particular a busy process may go on under its key. -/
theorem set_of_busy (h : Exclusive busy key l) {i : Nat} {old x : ρ} (hold : l[i]? = some old)
    (hbusy : busy old) (hkey : key x = key old) : Exclusive busy key (l.set i x) := by
  apply h.set
  intro _ j b hne hb hkeyb
  exact h.not_busy hold hbusy hb (hkeyb.trans hkey) hne

end Exclusive
