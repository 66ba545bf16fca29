import InferPlatform.Planner.Plan

/-!
# The model registry

The VRAM figures of the known models, and the estimate for all others.

* `ModelRegistry.get`, `ModelRegistry.estimate` — lookup by prefix, and fallback;
* `ModelSpec.Regular` — what the planner's callers rely on: the figures fit a
  machine word, and the context takes no more than all layers but one;
* `regular_of_get` — every known model is regular.
-/

namespace InferPlatform.Planner

open Checked

structure KnownModel where
  name : String
  totalLayers : UInt32
  vramPerLayerMb : UInt64
  contextVramMb : UInt64
  deriving DecidableEq, Repr

def KnownModel.toModelSpec (k : KnownModel) : ModelSpec :=
  ⟨k.name, k.totalLayers, k.vramPerLayerMb, k.contextVramMb⟩

/-- `KNOWN_MODELS`; the first entry that matches counts. -/
def knownModels : List KnownModel :=
  [⟨"llama3.2:1b", 16, 80, 150⟩,
   ⟨"llama3.2:3b", 28, 70, 200⟩,
   ⟨"llama3.1:8b", 32, 145, 512⟩,
   ⟨"llama3.1:70b", 80, 480, 2048⟩,
   ⟨"llama3.1:405b", 126, 1820, 4096⟩,
   ⟨"llama3.3:70b", 80, 480, 2048⟩,
   ⟨"mistral:7b", 32, 120, 400⟩,
   ⟨"mistral-nemo", 40, 175, 600⟩,
   ⟨"qwen2.5:7b", 28, 150, 400⟩,
   ⟨"qwen2.5:14b", 48, 175, 600⟩,
   ⟨"qwen2.5:32b", 64, 300, 1024⟩,
   ⟨"qwen2.5:72b", 80, 540, 2048⟩,
   ⟨"phi4:14b", 40, 200, 600⟩,
   ⟨"deepseek-r1:7b", 28, 145, 400⟩,
   ⟨"deepseek-r1:14b", 48, 175, 600⟩,
   ⟨"deepseek-r1:32b", 64, 300, 1024⟩,
   ⟨"deepseek-r1:70b", 80, 480, 2048⟩,
   ⟨"gemma3:9b", 46, 120, 400⟩,
   ⟨"gemma3:27b", 62, 260, 1024⟩]

/-- The lower case of a character, as far as a comparison with an ASCII text can
tell: outside ASCII, only the Kelvin sign and the dotted capital I have a lower case
that begins in ASCII. -/
def lowercase (c : Char) : List Char :=
  if c.toNat = 0x212A then ['k']
  else if c.toNat = 0x130 then ['i', Char.ofNat 0x307]
  else [c.toLower]

namespace ModelRegistry

/-- The name may go on after the known one: `llama3.1:8b-instruct`. -/
def get (modelName : String) : Option ModelSpec :=
  let lower := modelName.toList.flatMap lowercase
  (knownModels.find? fun m => lower == m.name.toList || m.name.toList.isPrefixOf lower).map
    KnownModel.toModelSpec

/-- An eighth of the given size is context, the rest 32 equal layers. -/
def estimate (modelName : String) (totalVramMb : UInt64) : ModelSpec :=
  let layers : UInt32 := 32
  let context := totalVramMb / 8
  let weightVram := saturatingSub64 totalVramMb context
  { name := modelName
    totalLayers := layers
    vramPerLayerMb := weightVram / layers.toUInt64
    contextVramMb := context }

end ModelRegistry

/-! ## Regular specs -/

/-- `total_vram_mb` over the integers. -/
def ModelSpec.neededMb (model : ModelSpec) : Nat :=
  model.totalLayers.toNat * model.vramPerLayerMb.toNat + model.contextVramMb.toNat

/-- The context takes no more than all layers but one. -/
structure ModelSpec.Regular (model : ModelSpec) : Prop where
  layers_pos : 1 ≤ model.totalLayers.toNat
  perLayer_pos : 1 ≤ model.vramPerLayerMb.toNat
  needed_lt : model.neededMb < 2 ^ 32
  context_le : model.contextVramMb.toNat + model.vramPerLayerMb.toNat ≤
    model.totalLayers.toNat * model.vramPerLayerMb.toNat

/-- Without overflow, the profiles and the integers agree on `total_vram_mb`. -/
theorem ModelSpec.totalVramMb_of_lt (p : Profile) {model : ModelSpec}
    (h : model.neededMb < 2 ^ 64) :
    ∃ total, model.totalVramMb p = .ok total ∧ total.toNat = model.neededMb := by
  have hwide : model.totalLayers.toUInt64.toNat = model.totalLayers.toNat := by simp
  unfold neededMb at h
  have hmul : model.totalLayers.toUInt64.toNat * model.vramPerLayerMb.toNat < 2 ^ 64 := by
    rw [hwide]
    omega
  obtain ⟨hweights, hweightsNat⟩ := p.mul64_of_lt hmul
  have hadd : (model.totalLayers.toUInt64 * model.vramPerLayerMb).toNat +
      model.contextVramMb.toNat < 2 ^ 64 := by
    rw [hweightsNat, hwide]
    exact h
  obtain ⟨htotal, htotalNat⟩ := p.add64_of_lt hadd
  refine ⟨model.totalLayers.toUInt64 * model.vramPerLayerMb + model.contextVramMb, ?_, ?_⟩
  · rw [ModelSpec.totalVramMb, hweights]
    exact htotal
  · rw [htotalNat, hweightsNat, hwide]
    rfl

theorem ModelSpec.Regular.totalVramMb (p : Profile) {model : ModelSpec} (h : model.Regular) :
    ∃ total, model.totalVramMb p = .ok total ∧ total.toNat = model.neededMb :=
  ModelSpec.totalVramMb_of_lt p (h.needed_lt.trans (by decide))

theorem regular_of_mem {k : KnownModel} (h : k ∈ knownModels) : k.toModelSpec.Regular := by
  have hall : ∀ k ∈ knownModels, 1 ≤ k.totalLayers.toNat ∧ 1 ≤ k.vramPerLayerMb.toNat ∧
      k.toModelSpec.neededMb < 2 ^ 32 ∧
      k.contextVramMb.toNat + k.vramPerLayerMb.toNat ≤
        k.totalLayers.toNat * k.vramPerLayerMb.toNat := by
    decide
  obtain ⟨hlayers, hper, hneeded, hcontext⟩ := hall k h
  exact ⟨hlayers, hper, hneeded, hcontext⟩

theorem regular_of_get {modelName : String} {model : ModelSpec}
    (h : ModelRegistry.get modelName = some model) : model.Regular := by
  obtain ⟨k, hfind, rfl⟩ := Option.map_eq_some_iff.mp h
  exact regular_of_mem (List.mem_of_find?_eq_some hfind)

end InferPlatform.Planner
