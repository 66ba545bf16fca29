import InferPlatform.Base.Lines

/-!
# Model licences

A node names the licence of each of its models when it registers. Licences are
compared without the white space around them and without case.
-/

namespace InferPlatform.Gateway

open Lines

structure ModelRegistration where
  name : String
  license : String
  deriving DecidableEq, Repr

def approvedLicenses : List String :=
  ["apache-2.0", "mit", "gpl-3.0", "lgpl-3.0", "bsd-2-clause", "bsd-3-clause", "cc-by-4.0",
    "cc-by-sa-4.0", "openrail", "openrail++", "bigcode-openrail-m", "llama-2", "llama-3",
    "llama-3.1", "llama-3.2", "llama-3.3", "gemma", "gemma-2", "mistral", "phi-3", "phi-3.5",
    "qwen", "deepseek", "falcon-llm"]

structure LicenseViolation where
  model : String
  license : String
  deriving DecidableEq, Repr

/-- Unicode white space, which `trim` drops. -/
def isWhitespace (c : Char) : Bool :=
  (9 ≤ c.toNat ∧ c.toNat ≤ 13) ∨ (0x2000 ≤ c.toNat ∧ c.toNat ≤ 0x200A) ∨
    c.toNat ∈ [0x20, 0x85, 0xA0, 0x1680, 0x2028, 0x2029, 0x202F, 0x205F, 0x3000]

/-- `to_lowercase` as far as a comparison with a licence can tell: outside ASCII,
the Kelvin sign alone has an ASCII text as its lower case. -/
def lowercase (c : Char) : Char := if c.toNat = 0x212A then 'k' else c.toLower

/-- `license.trim().to_lowercase()`. -/
def normalized (license : String) : String :=
  String.ofList ((trim isWhitespace license.toList).map lowercase)

def isApproved (license : String) : Bool := approvedLicenses.contains (normalized license)

/-- The models whose licence is not approved. -/
def findViolations (models : List ModelRegistration) : List LicenseViolation :=
  (models.filter fun m => ¬ isApproved m.license).map fun m => ⟨m.name, m.license⟩

/-- Case does not matter; an unknown or empty licence is not approved. -/
example : ["apache-2.0", "Apache-2.0", "MIT", "llama-3.1", "gemma", "proprietary", "custom-commercial",
    "", "gpt-4-license"].map isApproved =
      [true, true, true, true, true, false, false, false, false] := by
  decide +kernel

end InferPlatform.Gateway
