import InferPlatform.Base.Replacing
import InferPlatform.Gateway.Sanitize
import Mathlib.Data.List.Induction

/-!
# Redacted texts are clean

The four patterns are replaced one after the other, and each replacement gives the text
around it new neighbours. No match comes of that, since every pattern begins and ends with
a word boundary and none takes the brackets around the replacement texts.

* `not_occurs_redact` — no pattern matches after its stage;
* `filterPii_complete` — **a redacted text has no match of any pattern, and to redact it
  again changes nothing**.
-/

namespace InferPlatform.Gateway

open Regex

/-- In the Unicode tables the brackets are no white space. -/
structure Unicode.BracketsPlain (u : Unicode) : Prop where
  isSpace_open : u.isSpace '[' = false
  isSpace_close : u.isSpace ']' = false

theorem bracketsPlain_ascii : Unicode.ascii.BracketsPlain := ⟨by decide, by decide⟩

variable {u : Unicode}

/-! ## The patterns and their replacements -/

theorem bounded_redactions {stage : Pat Char × String} (h : stage ∈ redactions u) :
    stage.1.Bounded := by
  simp only [redactions, List.mem_cons, List.not_mem_nil, or_false] at h
  rcases h with rfl | rfl | rfl | rfl
  · simp [ssnRe, digits, lit, Pat.Bounded, Pat.Ends, Pat.Free]
  · simp [creditCardRe, digits, cardSep, Pat.Bounded, Pat.Ends, Pat.Free]
  · simp [emailRe, lit, Pat.plus, Pat.Bounded, Pat.Ends, Pat.Free]
  · simp [phoneRe, digits, phoneSep, lit, Pat.Bounded, Pat.Ends, Pat.Free]

/-- No class of the patterns has a bracket. -/
theorem avoids_redactions (hu : u.BracketsPlain) {d : Char} (hd : d = '[' ∨ d = ']')
    {stage : Pat Char × String} (h : stage ∈ redactions u) : stage.1.Avoids d := by
  have hdigit : u.isDigit d = false := by
    rcases hd with rfl | rfl <;> exact u.isDigit_ascii _ (by decide)
  have hspace : u.isSpace d = false := by
    rcases hd with rfl | rfl
    · exact hu.isSpace_open
    · exact hu.isSpace_close
  have hplain : d ≠ '-' ∧ d ≠ '.' ∧ d ≠ '@' ∧ d ≠ '+' ∧ d ≠ '1' ∧ d ≠ '(' ∧ d ≠ ')' := by
    rcases hd with rfl | rfl <;> decide
  have hletters : foldedLetter d = false ∧ localPart d = false ∧ domainPart d = false := by
    rcases hd with rfl | rfl <;> decide
  simp only [redactions, List.mem_cons, List.not_mem_nil, or_false] at h
  rcases h with rfl | rfl | rfl | rfl
  · simp [ssnRe, digits, lit, Pat.Avoids, hdigit, hplain]
  · simp [creditCardRe, digits, cardSep, Pat.Avoids, hdigit, hspace, hplain]
  · simp [emailRe, lit, Pat.plus, Pat.Avoids, hplain, hletters]
  · simp [phoneRe, digits, phoneSep, lit, Pat.Avoids, hdigit, hspace, hplain]

/-- The replacement texts are in brackets. -/
theorem bracketed_redactions {stage : Pat Char × String} (h : stage ∈ redactions u) :
    stage.2.toList.head? = some '[' ∧ stage.2.toList.getLast? = some ']' := by
  have htexts : ∀ text ∈ ["[SSN REDACTED]", "[CARD REDACTED]", "[EMAIL REDACTED]",
      "[PHONE REDACTED]"], text.toList.head? = some '[' ∧ text.toList.getLast? = some ']' := by
    decide
  apply htexts
  exact List.mem_map_of_mem (f := fun stage : Pat Char × String => stage.2) h

/-- No match of one pattern overlaps the replacement text of another, or its own. -/
theorem sealed_redactions (hu : u.BracketsPlain) {stage later : Pat Char × String}
    (h : stage ∈ redactions u) (hlater : later ∈ redactions u) :
    Sealed (isTelling u) stage.1 later.2.toList := by
  obtain ⟨hhead, hend⟩ := bracketed_redactions hlater
  obtain ⟨tail, hfirst⟩ := List.head?_eq_some_iff.mp hhead
  obtain ⟨init, hlast⟩ := List.getLast?_eq_some_iff.mp hend
  exact ⟨⟨'[', tail, hfirst, avoids_redactions hu (.inl rfl) h⟩,
    ⟨init, ']', hlast, avoids_redactions hu (.inr rfl) h⟩,
    (stageOk_redactions h).needs, (stageOk_redactions hlater).clean⟩

/-! ## The stages -/

theorem redact_concat (stages : List (Pat Char × String)) (stage : Pat Char × String)
    (text : List Char) : redact u (stages ++ [stage]) text =
      replaceAll u.isWord stage.1 stage.2.toList (redact u stages text) := by
  rw [redact, List.foldl_append]
  rfl

/-- **No pattern matches after its stage**, whatever stages follow. Induction on the stages
from the last one: it leaves no match of its own pattern and makes none of another. -/
theorem not_occurs_redact (hu : u.BracketsPlain) {stages : List (Pat Char × String)}
    (hstages : ∀ stage ∈ stages, stage ∈ redactions u) (text : List Char) :
    ∀ stage ∈ stages, ¬ Occurs u.isWord stage.1 none (redact u stages text) := by
  induction stages using List.reverseRecOn with
  | nil =>
      intro stage hstage
      cases hstage
  | append_singleton stages last ih =>
      have hlast : last ∈ redactions u := hstages last (by simp)
      have hearlier : ∀ stage ∈ stages, stage ∈ redactions u := fun stage hstage =>
        hstages stage (List.mem_append_left _ hstage)
      intro stage hstage hoccurs
      rw [redact_concat] at hoccurs
      rcases List.mem_append.mp hstage with hstage | hself
      · have hredact := hearlier stage hstage
        exact ih hearlier stage hstage (hoccurs.of_replaceAll (bounded_redactions hlast)
          (stageOk_redactions hlast).needs (bounded_redactions hredact)
          (sealed_redactions hu hredact hlast))
      · obtain rfl := List.mem_singleton.mp hself
        exact not_occurs_replaceAll (bounded_redactions hlast) (sealed_redactions hu hlast hlast) _
          hoccurs

/-- Where no pattern occurs, the text is clean. -/
theorem containsPii_eq_false_iff {text : List Char} : containsPii u text = false ↔
    ∀ stage ∈ redactions u, ¬ Occurs u.isWord stage.1 none text := by
  rw [containsPii, List.any_eq_false]
  apply forall₂_congr
  intro stage _
  rw [isMatch, isMatchFrom_iff]

/-- **Redaction is complete.** The result has no match of any of the four patterns, to
redact it again changes nothing, and no pass leaves a match of its own or an earlier
pattern. -/
theorem filterPii_complete (hu : u.BracketsPlain) (text : String) :
    (∀ stage ∈ redactions u, ¬ Occurs u.isWord stage.1 none (filterPii u text).toList) ∧
      filterPii u (filterPii u text) = filterPii u text ∧
      ∀ passes, passes <+: redactions u → ∀ stage ∈ passes,
        ¬ Occurs u.isWord stage.1 none (redact u passes text.toList) := by
  have hclean : ∀ stage ∈ redactions u,
      ¬ Occurs u.isWord stage.1 none (filterPii u text).toList := by
    rw [filterPii, String.toList_ofList]
    exact not_occurs_redact hu (fun _ h => h) _
  refine ⟨hclean, filterPii_of_clean (containsPii_eq_false_iff.mpr hclean), ?_⟩
  intro passes hprefix
  exact not_occurs_redact hu (fun stage hstage => hprefix.subset hstage) _

/-- A card number right after a social security number. -/
theorem filterPii_complete_adjacent :
    filterPii .ascii (filterPii .ascii "123-45-6789 4111 1111 1111 1111, a@b.org") =
      filterPii .ascii "123-45-6789 4111 1111 1111 1111, a@b.org" :=
  (filterPii_complete bracketsPlain_ascii _).2.1

end InferPlatform.Gateway
