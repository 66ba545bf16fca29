import InferPlatform.Base.Regex
import Mathlib.Data.String.Basic

/-!
# Redaction of personal data

`filter_pii` replaces social security numbers, card numbers, e-mail addresses
and phone numbers, one kind after the other.

* `filterPii_of_clean` — a text with no match of any pattern is unchanged;
* `filterPii_ne` — a text with a match of some pattern is changed: each stage
  that finds something leaves fewer digits and at signs, and none brings any in.
-/

namespace InferPlatform.Gateway

open Regex

/-- The Unicode classes that the patterns and `trim` rely on: `\d`, white space
and `\w`. The laws are what is used of the tables. -/
structure Unicode where
  isDigit : Char → Bool
  isSpace : Char → Bool
  isWord : Char → Bool
  isDigit_ascii : ∀ c, c.toNat < 0x80 → isDigit c = c.isDigit
  isSpace_replacement : isSpace (Char.ofNat 0xFFFD) = false

/-- The classes restricted to ASCII. -/
def Unicode.ascii : Unicode where
  isDigit := Char.isDigit
  isSpace c := c.toNat = 32 ∨ 9 ≤ c.toNat ∧ c.toNat ≤ 13
  isWord c := c.isAlphanum || c = '_'
  isDigit_ascii _ _ := rfl
  isSpace_replacement := by decide

section

variable (u : Unicode)

/-! ## The patterns -/

def lit (c : Char) : Pat Char := .set fun d => d = c

def digits (n : Nat) (rest : Pat Char) : Pat Char := .times (.set u.isDigit) n rest

/-- Letters under `(?i)`: the long s and the Kelvin sign fold to ASCII letters. -/
def foldedLetter (c : Char) : Bool := c.isAlpha || c.toNat = 0x17F || c.toNat = 0x212A

def localPart (c : Char) : Bool :=
  foldedLetter c || c.isDigit || ['.', '_', '%', '+', '-'].contains c

def domainPart (c : Char) : Bool := foldedLetter c || c.isDigit || c = '.' || c = '-'

/-- An optional `[\s\-]`. -/
def cardSep : Pat Char := .opt (.set fun c => u.isSpace c || c = '-')

/-- An optional `[\s\-.]`. -/
def phoneSep : Pat Char := .opt (.set fun c => u.isSpace c || c = '-' || c = '.')

def ssnRe : Pat Char :=
  .seq .boundary (digits u 3 (.seq (lit '-') (digits u 2 (.seq (lit '-') (digits u 4 .boundary)))))

def creditCardRe : Pat Char :=
  .seq .boundary (digits u 4 (.seq (cardSep u) (digits u 4 (.seq (cardSep u)
    (digits u 4 (.seq (cardSep u) (digits u 4 .boundary)))))))

def emailRe : Pat Char :=
  .seq .boundary (.seq (.plus localPart) (.seq (lit '@') (.seq (.plus domainPart)
    (.seq (lit '.') (.seq (.times (.set foldedLetter) 2 (.many foldedLetter)) .boundary)))))

def phoneRe : Pat Char :=
  .seq .boundary (.seq (.opt (.seq (.opt (lit '+')) (.seq (lit '1') (phoneSep u))))
    (.seq (.opt (lit '(')) (digits u 3 (.seq (.opt (lit ')')) (.seq (phoneSep u)
      (digits u 3 (.seq (phoneSep u) (digits u 4 .boundary))))))))

/-- Pattern and replacement, in the order in which they are applied. -/
def redactions : List (Pat Char × String) :=
  [(ssnRe u, "[SSN REDACTED]"), (creditCardRe u, "[CARD REDACTED]"),
    (emailRe, "[EMAIL REDACTED]"), (phoneRe u, "[PHONE REDACTED]")]

def redact (stages : List (Pat Char × String)) (text : List Char) : List Char :=
  stages.foldl (fun s stage => replaceAll u.isWord stage.1 stage.2.toList s) text

def filterPii (text : String) : String := String.ofList (redact u (redactions u) text.toList)

/-- Some pattern matches somewhere in the text. -/
def containsPii (text : List Char) : Bool :=
  (redactions u).any fun stage => isMatch u.isWord stage.1 text

/-! ## What redaction changes -/

/-- The characters one of which every match has: a digit or an at sign. -/
def isTelling (c : Char) : Bool := u.isDigit c || c = '@'

/-- A stage whose matches need a telling character and are long enough not to
be a single character, and whose replacement has no telling character. -/
structure StageOk (stage : Pat Char × String) : Prop where
  needs : stage.1.Needs (isTelling u)
  clean : stage.2.toList.countP (isTelling u) = 0
  long : 2 ≤ stage.1.minLen

variable {u}

theorem isTelling_of_isDigit {c : Char} (h : u.isDigit c = true) : isTelling u c = true := by
  simp [isTelling, h]

/-- ASCII characters other than digits and the at sign are not telling. -/
theorem countP_isTelling_ascii (text : String)
    (h : (text.toList.all fun c => c.toNat < 0x80 && !c.isDigit && c != '@') = true) :
    text.toList.countP (isTelling u) = 0 := by
  rw [List.countP_eq_zero]
  intro c hc
  have hplain := List.all_eq_true.mp h c hc
  simp only [Bool.and_eq_true, decide_eq_true_eq, Bool.not_eq_true', bne_iff_ne] at hplain
  obtain ⟨⟨hascii, hdigit⟩, hat⟩ := hplain
  simp [isTelling, u.isDigit_ascii c hascii, hdigit, hat]

theorem stageOk_ssn : StageOk u (ssnRe u, "[SSN REDACTED]") where
  needs := .inr (.inl fun _ => isTelling_of_isDigit)
  clean := countP_isTelling_ascii "[SSN REDACTED]" rfl
  long := by simp [ssnRe, digits, lit, Pat.minLen, Pat.minLen_times]

theorem stageOk_creditCard : StageOk u (creditCardRe u, "[CARD REDACTED]") where
  needs := .inr (.inl fun _ => isTelling_of_isDigit)
  clean := countP_isTelling_ascii "[CARD REDACTED]" rfl
  long := by simp [creditCardRe, digits, cardSep, Pat.minLen, Pat.minLen_times]

theorem stageOk_email : StageOk u (emailRe, "[EMAIL REDACTED]") where
  needs := .inr (.inr (.inl fun c hc => by simp_all [isTelling]))
  clean := countP_isTelling_ascii "[EMAIL REDACTED]" rfl
  long := by simp [emailRe, lit, Pat.plus, Pat.minLen, Pat.minLen_times]

theorem stageOk_phone : StageOk u (phoneRe u, "[PHONE REDACTED]") where
  needs := .inr (.inr (.inr (.inl fun _ => isTelling_of_isDigit)))
  clean := countP_isTelling_ascii "[PHONE REDACTED]" rfl
  long := by simp [phoneRe, digits, phoneSep, Pat.minLen, Pat.minLen_times]

theorem stageOk_redactions {stage : Pat Char × String} (h : stage ∈ redactions u) :
    StageOk u stage := by
  simp only [redactions, List.mem_cons, List.not_mem_nil, or_false] at h
  rcases h with rfl | rfl | rfl | rfl
  · exact stageOk_ssn
  · exact stageOk_creditCard
  · exact stageOk_email
  · exact stageOk_phone

/-- Stages that find nothing change nothing. -/
theorem redact_of_not_isMatch {stages : List (Pat Char × String)} {text : List Char}
    (h : ∀ stage ∈ stages, isMatch u.isWord stage.1 text = false) :
    redact u stages text = text := by
  induction stages with
  | nil => rfl
  | cons stage stages ih =>
      rw [redact, List.foldl_cons, replaceAll,
        replaceFrom_of_not_isMatch (h stage List.mem_cons_self)]
      exact ih fun s hs => h s (List.mem_cons_of_mem _ hs)

theorem countP_redact_le {stages : List (Pat Char × String)}
    (hok : ∀ stage ∈ stages, StageOk u stage) (text : List Char) :
    (redact u stages text).countP (isTelling u) ≤ text.countP (isTelling u) := by
  induction stages generalizing text with
  | nil => exact Nat.le_refl _
  | cons stage stages ih =>
      have hfirst : (replaceAll u.isWord stage.1 stage.2.toList text).countP (isTelling u) ≤
          text.countP (isTelling u) :=
        countP_replaceAll_le (hok stage List.mem_cons_self).clean text
      exact (ih (fun s hs => hok s (List.mem_cons_of_mem _ hs)) _).trans hfirst

/-- The first stage that finds something leaves fewer telling characters. -/
theorem countP_redact_lt {stages : List (Pat Char × String)}
    (hok : ∀ stage ∈ stages, StageOk u stage) {text : List Char}
    (h : ∃ stage ∈ stages, isMatch u.isWord stage.1 text = true) :
    (redact u stages text).countP (isTelling u) < text.countP (isTelling u) := by
  induction stages with
  | nil =>
      obtain ⟨_, hmem, _⟩ := h
      cases hmem
  | cons stage stages ih =>
      have hrest : ∀ s ∈ stages, StageOk u s := fun s hs => hok s (List.mem_cons_of_mem _ hs)
      have hstage := hok stage List.mem_cons_self
      rw [redact, List.foldl_cons]
      cases hmatch : isMatch u.isWord stage.1 text with
      | true =>
          have hlt := countP_replaceAll_lt hstage.needs hstage.clean hmatch
          exact (countP_redact_le hrest _).trans_lt hlt
      | false =>
          rw [replaceAll, replaceFrom_of_not_isMatch hmatch]
          obtain ⟨s, hs, hsmatch⟩ := h
          rcases List.mem_cons.mp hs with rfl | hs
          · rw [hmatch] at hsmatch
            cases hsmatch
          · exact ih hrest ⟨s, hs, hsmatch⟩

theorem filterPii_of_clean {text : String} (h : containsPii u text.toList = false) :
    filterPii u text = text := by
  rw [containsPii, List.any_eq_false] at h
  rw [filterPii, redact_of_not_isMatch fun stage hs => by simpa using h stage hs,
    String.ofList_toList]

/-- Redaction leaves no text empty. -/
theorem filterPii_eq_empty {text : String} : filterPii u text = "" ↔ text = "" := by
  have hredact : ∀ chars, redact u (redactions u) chars = [] ↔ chars = [] := by
    intro chars
    simp only [redact, redactions, List.foldl_cons, List.foldl_nil]
    repeat rw [replaceAll_eq_nil (by decide)]
  rw [filterPii, ← String.toList_inj, String.toList_ofList, ← String.toList_inj]
  exact hredact text.toList

/-- **Redaction changes every text in which a pattern matches.** -/
theorem filterPii_ne {text : String} (h : containsPii u text.toList = true) :
    filterPii u text ≠ text := by
  intro heq
  rw [containsPii, List.any_eq_true] at h
  have hlt := countP_redact_lt (fun stage hs => stageOk_redactions hs) h
  have hchars := congrArg String.toList heq
  rw [filterPii, String.toList_ofList] at hchars
  rw [hchars] at hlt
  exact Nat.lt_irrefl _ hlt

/-- One text for each kind. -/
example : ["SSN is 123-45-6789 for patient", "Card: 4111 1111 1111 1111",
      "Contact user@example.com for details", "Call 555-867-5309 now"].map (filterPii .ascii) =
    ["SSN is [SSN REDACTED] for patient", "Card: [CARD REDACTED]",
      "Contact [EMAIL REDACTED] for details", "Call [PHONE REDACTED] now"] := by
  decide +kernel

/-- No pattern matches a text without telling characters. -/
theorem containsPii_of_countP_zero {text : List Char} (h : text.countP (isTelling u) = 0) :
    containsPii u text = false := by
  cases hpii : containsPii u text with
  | false => rfl
  | true =>
      rw [containsPii, List.any_eq_true] at hpii
      have hlt := countP_redact_lt (fun stage hs => stageOk_redactions hs) hpii
      omega

/-- No pattern matches a text of fewer than two characters. -/
theorem containsPii_of_length_lt {text : List Char} (h : text.length < 2) :
    containsPii u text = false := by
  rw [containsPii, List.any_eq_false]
  intro stage hs
  have hlong := (stageOk_redactions hs).long
  have hnone : isMatch u.isWord stage.1 text = false := isMatchFrom_of_length_lt (by omega)
  simp [hnone]

end

end InferPlatform.Gateway
