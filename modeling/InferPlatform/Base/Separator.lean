import Mathlib

/-!
# Texts joined by a separator

A text, a separator and a tail without the separator determine both parts, as
in an address with a port or a name with a number at its end.
-/

namespace Separator

/-- What follows the last separator determines the rest. -/
theorem append_inj {sep : Char} {left right tail tail' : List Char} (h : sep ∉ tail)
    (h' : sep ∉ tail') (heq : left ++ sep :: tail = right ++ sep :: tail') :
    left = right ∧ tail = tail' := by
  rcases List.append_eq_append_iff.mp heq with ⟨mid, hright, htail⟩ | ⟨mid, hleft, htail⟩
  · cases mid with
    | nil => simp_all
    | cons c mid =>
        injection htail with _ htail
        exact absurd (htail ▸ List.mem_append_right mid List.mem_cons_self) h
  · cases mid with
    | nil => simp_all
    | cons c mid =>
        injection htail with _ htail
        exact absurd (htail ▸ List.mem_append_right mid List.mem_cons_self) h'

/-- A decimal number has only digits. -/
theorem notMem_repr {sep : Char} (hsep : sep.isDigit = false) (n : Nat) :
    sep ∉ n.repr.toList := by
  intro h
  rw [Nat.toList_repr] at h
  have hdigit := Nat.isDigit_of_mem_toDigits (by decide) (by decide) h
  rw [hsep] at hdigit
  cases hdigit

/-- The pieces of a text have no separator. -/
theorem notMem_of_mem_splitOn {α : Type} [DecidableEq α] {sep : α} {text piece : List α}
    (h : piece ∈ text.splitOn sep) : sep ∉ piece := by
  induction text generalizing piece with
  | nil =>
      obtain rfl : piece = [] := by simpa using h
      simp
  | cons c text ih =>
      rw [List.splitOn_cons_eq_if_modifyHead] at h
      cases hsplit : text.splitOn sep with
      | nil => exact absurd hsplit (List.splitOn_ne_nil sep text)
      | cons first rest =>
          rw [hsplit] at h ih
          split at h
          · rcases List.mem_cons.mp h with rfl | h
            · simp
            · exact ih h
          · rename_i hc
            rcases List.mem_cons.mp h with rfl | h
            · have hfirst := ih List.mem_cons_self
              simp only [beq_iff_eq] at hc
              rw [List.mem_cons, not_or]
              exact ⟨Ne.symm hc, hfirst⟩
            · exact ih (List.mem_cons_of_mem _ h)

/-- The pieces of a text and one more without a separator. -/
theorem splitOn_append_cons {α : Type} [DecidableEq α] {sep : α} {tail : List α} (h : sep ∉ tail)
    (text : List α) : (text ++ sep :: tail).splitOn sep = text.splitOn sep ++ [tail] := by
  rw [List.splitOn_append_cons_self, List.splitOn_eq_singleton h]

end Separator
