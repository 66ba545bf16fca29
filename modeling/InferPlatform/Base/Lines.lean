import Mathlib.Data.List.Basic
import Mathlib.Data.List.DropRight

/-!
# Lines of a text

The complete lines of a text, each ended by a line feed, and what follows the
last one. Reading a text piece by piece and keeping what follows the last line
for the next piece gives the same lines (`splitLines_append`).
-/

namespace Lines

/-- The complete lines, without their line feeds, and the remainder. -/
def splitLines : List Char → List (List Char) × List Char
  | [] => ([], [])
  | c :: text =>
    if c = '\n' then ([] :: (splitLines text).1, (splitLines text).2)
    else match (splitLines text).1 with
      | [] => ([], c :: (splitLines text).2)
      | line :: lines => ((c :: line) :: lines, (splitLines text).2)

/-- A text of complete lines. -/
def joinLines (lines : List (List Char)) : List Char := lines.flatMap (· ++ ['\n'])

theorem joinLines_cons (line : List Char) (lines : List (List Char)) :
    joinLines (line :: lines) = line ++ '\n' :: joinLines lines := by
  rw [joinLines, List.flatMap_cons, List.append_assoc]
  rfl

/-- Drop white space at both ends. -/
def trim (isSpace : Char → Bool) (text : List Char) : List Char :=
  (text.dropWhile isSpace).rdropWhile isSpace

theorem trim_of_not_isSpace {isSpace : Char → Bool} {first last : Char} (mid : List Char)
    (hfirst : isSpace first = false) (hlast : isSpace last = false) :
    trim isSpace (first :: (mid ++ [last])) = first :: (mid ++ [last]) := by
  rw [trim, List.dropWhile_cons_of_neg (by simp [hfirst]), ← List.cons_append,
    List.rdropWhile_concat_neg _ _ _ (by simp [hlast])]

theorem splitLines_of_notMem {text : List Char} (h : '\n' ∉ text) : splitLines text = ([], text) := by
  induction text with
  | nil => rfl
  | cons c text ih =>
      rw [List.mem_cons, not_or] at h
      rw [splitLines, if_neg (Ne.symm h.1), ih h.2]

/-- A line and what follows it. -/
theorem splitLines_line {line : List Char} (h : '\n' ∉ line) (text : List Char) :
    splitLines (line ++ '\n' :: text) =
      (line :: (splitLines text).1, (splitLines text).2) := by
  induction line with
  | nil => rfl
  | cons c line ih =>
      rw [List.mem_cons, not_or] at h
      rw [List.cons_append, splitLines, if_neg (Ne.symm h.1), ih h.2]

theorem remainder_notMem (text : List Char) : '\n' ∉ (splitLines text).2 := by
  induction text with
  | nil => exact List.not_mem_nil
  | cons c text ih =>
      rw [splitLines]
      split
      · exact ih
      · split
        · rw [List.mem_cons, not_or]
          exact ⟨Ne.symm ‹_›, ih⟩
        · exact ih

/-- Every text is its complete lines and a remainder. -/
theorem joinLines_splitLines (text : List Char) :
    joinLines (splitLines text).1 ++ (splitLines text).2 = text := by
  induction text with
  | nil => rfl
  | cons c text ih =>
      rw [splitLines]
      split
      · rename_i hc
        rw [joinLines_cons, List.nil_append, List.cons_append, ih, hc]
      · split
        · rename_i hlines
          rw [hlines] at ih
          exact congrArg (c :: ·) ih
        · rename_i line lines hlines
          rw [hlines] at ih
          exact congrArg (c :: ·) ih

/-- Each complete line has no line feed. -/
theorem notMem_of_mem_splitLines {text line : List Char} (h : line ∈ (splitLines text).1) :
    '\n' ∉ line := by
  induction text generalizing line with
  | nil => cases h
  | cons c text ih =>
      rw [splitLines] at h
      split at h
      · rcases List.mem_cons.mp h with rfl | h
        · exact List.not_mem_nil
        · exact ih h
      · split at h
        · cases h
        · rename_i hc _ first lines hlines
          rcases List.mem_cons.mp h with rfl | h
          · rw [List.mem_cons, not_or]
            exact ⟨Ne.symm hc, ih (hlines ▸ List.mem_cons_self)⟩
          · exact ih (hlines ▸ List.mem_cons_of_mem _ h)

theorem splitLines_joinLines {lines : List (List Char)} (h : ∀ line ∈ lines, '\n' ∉ line)
    (text : List Char) :
    splitLines (joinLines lines ++ text) = (lines ++ (splitLines text).1, (splitLines text).2) := by
  induction lines with
  | nil => rfl
  | cons line lines ih =>
      rw [joinLines_cons, List.append_assoc, List.cons_append,
        splitLines_line (h line List.mem_cons_self),
        ih fun l hl => h l (List.mem_cons_of_mem _ hl)]
      rfl

theorem splitLines_joinLines_fst {lines : List (List Char)} (h : ∀ line ∈ lines, '\n' ∉ line) :
    (splitLines (joinLines lines)).1 = lines := by
  have hsplit := splitLines_joinLines h []
  rw [List.append_nil] at hsplit
  rw [hsplit]
  exact List.append_nil lines

/-- **Reading on**: the lines of the first piece, then the lines of its
remainder and the second piece. -/
theorem splitLines_append (text more : List Char) :
    splitLines (text ++ more) =
      ((splitLines text).1 ++ (splitLines ((splitLines text).2 ++ more)).1,
        (splitLines ((splitLines text).2 ++ more)).2) := by
  conv_lhs => rw [← joinLines_splitLines text, List.append_assoc]
  exact splitLines_joinLines (fun _ => notMem_of_mem_splitLines) _

/-! ## Trimming -/

section Trim

variable {isSpace : Char → Bool} {text pad : List Char}

theorem trim_dropWhile : trim isSpace (text.dropWhile isSpace) = trim isSpace text := by
  rw [trim, List.dropWhile_idempotent, trim]

theorem trim_append_left (h : ∀ c ∈ pad, isSpace c) :
    trim isSpace (pad ++ text) = trim isSpace text := by
  rw [trim, List.dropWhile_append_of_pos h, trim]

theorem rdropWhile_append_right (h : ∀ c ∈ pad, isSpace c) :
    (text ++ pad).rdropWhile isSpace = text.rdropWhile isSpace := by
  rw [List.rdropWhile, List.reverse_append,
    List.dropWhile_append_of_pos fun c hc => h c (List.mem_reverse.mp hc), List.rdropWhile]

theorem trim_append_right (h : ∀ c ∈ pad, isSpace c) :
    trim isSpace (text ++ pad) = trim isSpace text := by
  rw [trim, List.dropWhile_append]
  split
  · rename_i hempty
    have hnil : text.dropWhile isSpace = [] := List.isEmpty_iff.mp hempty
    have hpad : pad.dropWhile isSpace = [] := List.dropWhile_eq_nil_iff.mpr h
    rw [hpad, trim, hnil]
  · rw [rdropWhile_append_right h, trim]

theorem trim_rdropWhile : trim isSpace (text.rdropWhile isSpace) = trim isSpace text := by
  have hpad : ∀ c ∈ text.rtakeWhile isSpace, isSpace c := fun c hc => List.mem_rtakeWhile_imp hc
  conv_rhs => rw [← List.rdropWhile_append_rtakeWhile (p := isSpace) (l := text)]
  rw [trim_append_right hpad]

/-- Nothing is dropped before a character that is no white space. -/
theorem rdropWhile_append_cons {c : Char} (hc : isSpace c = false) (left right : List Char) :
    (left ++ c :: right).rdropWhile isSpace = left ++ c :: right.rdropWhile isSpace := by
  induction right using List.reverseRecOn with
  | nil => exact List.rdropWhile_concat_neg _ _ _ (by simp [hc])
  | append_singleton right d ih =>
      have hassoc : left ++ c :: (right ++ [d]) = (left ++ c :: right) ++ [d] := by simp
      rw [hassoc, List.rdropWhile_concat, List.rdropWhile_concat]
      split
      · exact ih
      · simp

theorem mem_trim {c : Char} (hmem : c ∈ text) (hc : isSpace c = false) :
    c ∈ trim isSpace text := by
  obtain ⟨left, right, rfl⟩ := List.append_of_mem hmem
  rw [trim, List.dropWhile_append]
  split
  · rw [List.dropWhile_cons_of_neg (by simp [hc]), ← List.nil_append (c :: right),
      rdropWhile_append_cons hc]
    simp
  · rw [rdropWhile_append_cons hc]
    simp

/-- A trimmed text has no white space at its end. -/
theorem not_isSpace_of_getLast? {c : Char} (h : trim isSpace text = text)
    (hlast : text.getLast? = some c) : isSpace c = false := by
  have hself : text.rdropWhile isSpace = text := by
    rw [← h, trim, List.rdropWhile_idempotent]
  have hne : text ≠ [] := by
    rintro rfl
    cases hlast
  rw [List.getLast?_eq_some_getLast hne] at hlast
  have hnot := List.rdropWhile_eq_self_iff.mp hself hne
  rw [Option.some.inj hlast] at hnot
  simpa using hnot

end Trim

end Lines
