import Mathlib.Data.List.Basic

/-!
# JSON string literals

Writing a text between quotes with the escapes that JSON requires, and reading
it back: `readString_writeString`.
-/

namespace JsonText

def hexDigit (n : Nat) : Char := if n < 10 then Char.ofNat (48 + n) else Char.ofNat (87 + n)

def hexValue (c : Char) : Option Nat :=
  if '0' ≤ c ∧ c ≤ '9' then some (c.toNat - 48)
  else if 'a' ≤ c ∧ c ≤ 'f' then some (c.toNat - 87)
  else if 'A' ≤ c ∧ c ≤ 'F' then some (c.toNat - 55)
  else none

/-- Quotes and backslashes are escaped, control characters written by number. -/
def escapeChar (c : Char) : List Char :=
  if c = '"' ∨ c = '\\' then ['\\', c]
  else if c.toNat < 0x20 then ['\\', 'u', '0', '0', hexDigit (c.toNat / 16), hexDigit (c.toNat % 16)]
  else [c]

def writeString (text : List Char) : List Char := text.flatMap escapeChar ++ ['"']

/-- Inside a literal: between characters, after a backslash, or with `left` more
digits to come after the next one. -/
inductive StringState
  | plain
  | escape
  | hex (left value : Nat)

/-- The characters that a backslash gives a meaning. -/
def unescape (c : Char) : Option Char :=
  if c = '"' ∨ c = '\\' ∨ c = '/' then some c
  else if c = 'n' then some '\n'
  else if c = 't' then some '\t'
  else if c = 'r' then some '\r'
  else if c = 'b' then some (Char.ofNat 8)
  else if c = 'f' then some (Char.ofNat 12)
  else none

/-- The text of a literal up to its closing quote, and what follows it. Code
units above the basic plane are not combined. -/
def readString : StringState → List Char → Option (List Char × List Char)
  | _, [] => none
  | .plain, c :: rest =>
    if c = '"' then some ([], rest)
    else if c = '\\' then readString .escape rest
    else if c.toNat < 0x20 then none
    else (readString .plain rest).map fun r => (c :: r.1, r.2)
  | .escape, c :: rest =>
    if c = 'u' then readString (.hex 3 0) rest
    else match unescape c with
      | some d => (readString .plain rest).map fun r => (d :: r.1, r.2)
      | none => none
  | .hex left value, c :: rest =>
    match hexValue c with
    | none => none
    | some d =>
      match left with
      | 0 => (readString .plain rest).map fun r => (Char.ofNat (16 * value + d) :: r.1, r.2)
      | left + 1 => readString (.hex left (16 * value + d)) rest

theorem hexValue_hexDigit : ∀ n < 16, hexValue (hexDigit n) = some n := by decide

theorem readString_escapeChar (c : Char) (rest : List Char) :
    readString .plain (escapeChar c ++ rest) =
      (readString .plain rest).map fun r => (c :: r.1, r.2) := by
  unfold escapeChar
  by_cases hquote : c = '"' ∨ c = '\\'
  · rw [if_pos hquote]
    rcases hquote with rfl | rfl <;> rfl
  rw [if_neg hquote]
  rw [not_or] at hquote
  by_cases hcontrol : c.toNat < 0x20
  · rw [if_pos hcontrol]
    have hhigh := hexValue_hexDigit (c.toNat / 16) (by omega)
    have hlow := hexValue_hexDigit (c.toNat % 16) (by omega)
    have hvalue : 16 * (c.toNat / 16) + c.toNat % 16 = c.toNat := by omega
    show readString (.hex 1 0)
      (hexDigit (c.toNat / 16) :: hexDigit (c.toNat % 16) :: rest) = _
    simp only [readString, hhigh, hlow, Nat.mul_zero, Nat.zero_add, hvalue, Char.ofNat_toNat]
  · rw [if_neg hcontrol, List.singleton_append, readString, if_neg hquote.1, if_neg hquote.2,
      if_neg hcontrol]

/-- **Reading inverts writing.** -/
theorem readString_writeString (text rest : List Char) :
    readString .plain (writeString text ++ rest) = some (text, rest) := by
  induction text with
  | nil => rfl
  | cons c text ih =>
      rw [writeString, List.append_assoc] at ih ⊢
      rw [List.flatMap_cons, List.append_assoc, readString_escapeChar, ih]
      rfl

/-- A literal is written on one line. -/
theorem newline_notMem_writeString (text : List Char) : '\n' ∉ writeString text := by
  have hhex : ∀ n < 16, hexDigit n ≠ '\n' := by decide
  rw [writeString, List.mem_append, not_or]
  refine ⟨fun h => ?_, by decide⟩
  obtain ⟨c, -, hc⟩ := List.mem_flatMap.mp h
  unfold escapeChar at hc
  split at hc
  · rename_i hquote
    rcases hquote with rfl | rfl <;> exact absurd hc (by decide)
  · split at hc
    · rename_i hcontrol
      have hhigh := hhex (c.toNat / 16) (by omega)
      have hlow := hhex (c.toNat % 16) (by omega)
      simp [hhigh.symm, hlow.symm] at hc
    · rename_i hcontrol
      rw [← List.mem_singleton.mp hc] at hcontrol
      exact hcontrol (by decide)

end JsonText
