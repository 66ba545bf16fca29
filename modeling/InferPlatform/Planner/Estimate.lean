import InferPlatform.Planner.Solo

/-!
# Estimated models

A model that is not in the registry is estimated from its size: an eighth is context, the
rest is cut into 32 layers. A small size leaves nothing for a layer, and the planner then
divides by a layer of 0 MB.

* `neededMb_estimate` — what the divisions lose is less than 32 MB;
* `plannable_iff` — **estimates from 36 MB on can be planned, smaller ones only where the
  planner does not come to its loop**;
* `not_plannable_ten` — an estimate of 10 MB.
-/

namespace InferPlatform.Planner

open Checked

/-- The planner does not divide by zero, the estimate is the given size up to 32 MB, and a
single node with room for the estimate gets all layers. -/
structure Plannable (p : Profile) (modelName : String) (totalVramMb : UInt64)
    (nodes : List NodeCapacity) : Prop where
  divides : planShards p (ModelRegistry.estimate modelName totalVramMb) nodes ≠
    .error .divideByZero
  total : ∃ total, (ModelRegistry.estimate modelName totalVramMb).totalVramMb p = .ok total ∧
    total.toNat ≤ totalVramMb.toNat ∧ totalVramMb.toNat < total.toNat + 32
  solo : ∀ node, nodes = [node] →
    (ModelRegistry.estimate modelName totalVramMb).neededMb ≤ node.availableVramMb.toNat →
    planShards p (ModelRegistry.estimate modelName totalVramMb) nodes =
      .ok (.ok (soloPlan (ModelRegistry.estimate modelName totalVramMb) node))

/-! ## The figures of an estimate -/

section

variable (modelName : String) (totalVramMb : UInt64)

theorem contextVramMb_estimate :
    (ModelRegistry.estimate modelName totalVramMb).contextVramMb.toNat = totalVramMb.toNat / 8 :=
  UInt64.toNat_div totalVramMb 8

theorem vramPerLayerMb_estimate :
    (ModelRegistry.estimate modelName totalVramMb).vramPerLayerMb.toNat =
      (totalVramMb.toNat - totalVramMb.toNat / 8) / 32 := by
  show (saturatingSub64 totalVramMb (totalVramMb / 8) / 32).toNat = _
  rw [UInt64.toNat_div, toNat_saturatingSub64, UInt64.toNat_div]
  rfl

theorem neededMb_estimate :
    (ModelRegistry.estimate modelName totalVramMb).neededMb =
      32 * ((totalVramMb.toNat - totalVramMb.toNat / 8) / 32) + totalVramMb.toNat / 8 := by
  rw [ModelSpec.neededMb, vramPerLayerMb_estimate, contextVramMb_estimate]
  rfl

theorem neededMb_estimate_bounds :
    (ModelRegistry.estimate modelName totalVramMb).neededMb ≤ totalVramMb.toNat ∧
      totalVramMb.toNat < (ModelRegistry.estimate modelName totalVramMb).neededMb + 32 := by
  rw [neededMb_estimate]
  omega

theorem neededMb_estimate_lt :
    (ModelRegistry.estimate modelName totalVramMb).neededMb < 2 ^ 64 :=
  (neededMb_estimate_bounds modelName totalVramMb).1.trans_lt totalVramMb.toNat_lt

/-- A layer of an estimate takes some memory from 36 MB on. -/
theorem one_le_vramPerLayerMb_iff :
    1 ≤ (ModelRegistry.estimate modelName totalVramMb).vramPerLayerMb.toNat ↔
      36 ≤ totalVramMb.toNat := by
  rw [vramPerLayerMb_estimate]
  omega

variable {modelName totalVramMb}

theorem regular_estimate (hsize : 36 ≤ totalVramMb.toNat)
    (hneeded : (ModelRegistry.estimate modelName totalVramMb).neededMb < 2 ^ 32) :
    (ModelRegistry.estimate modelName totalVramMb).Regular where
  layers_pos := by
    show 1 ≤ (32 : UInt32).toNat
    decide
  perLayer_pos := (one_le_vramPerLayerMb_iff modelName totalVramMb).mpr hsize
  needed_lt := hneeded
  context_le := by
    rw [contextVramMb_estimate, vramPerLayerMb_estimate]
    show _ ≤ 32 * _
    omega

/-! ## Layers of nothing -/

/-- A layer of 0 MB fits every node, and the first visit divides by it. -/
theorem assignLayers_divideByZero (p : Profile) {model : ModelSpec} {nodes : List NodeCapacity}
    (hper : model.vramPerLayerMb = 0) (hopen : 0 < model.totalLayers) (hne : nodes ≠ [])
    (contextReserve : UInt64) :
    assignLayers p model nodes 0 contextReserve = .error .divideByZero := by
  obtain ⟨node, rest, rfl⟩ := List.exists_cons_of_ne_nil hne
  have hroom : ¬ saturatingSub64 node.availableVramMb contextReserve < model.vramPerLayerMb := by
    rw [hper]
    exact UInt64.not_lt_zero
  have hplace : ∀ usable, placeLayers p model node 0 usable = .error .divideByZero := by
    intro usable
    rw [placeLayers, hper]
    rfl
  rw [assignLayers, if_neg (UInt32.not_le.mpr hopen)]
  dsimp only
  rw [if_neg hroom, hplace]
  rfl

/-- Of a small estimate only the context is left. With memory for it the planner comes to
its loop. -/
theorem planShards_small (p : Profile) {nodes : List NodeCapacity}
    (hsum : (nodes.map (·.availableVramMb.toNat)).sum < 2 ^ 64)
    (hsize : totalVramMb.toNat < 36) (hne : nodes ≠ []) :
    planShards p (ModelRegistry.estimate modelName totalVramMb) nodes = .error .divideByZero ↔
      totalVramMb.toNat / 8 ≤ (nodes.map (·.availableVramMb.toNat)).sum := by
  have hper : (ModelRegistry.estimate modelName totalVramMb).vramPerLayerMb.toNat = 0 := by
    rw [vramPerLayerMb_estimate]
    omega
  have hneeded : (ModelRegistry.estimate modelName totalVramMb).neededMb =
      totalVramMb.toNat / 8 := by
    rw [neededMb_estimate]
    omega
  have hsorted : sortByVram nodes ≠ [] := by
    intro hnil
    have hperm := sortByVram_perm nodes
    rw [hnil] at hperm
    exact hne hperm.symm.eq_nil
  have hrun : assignLayers p (ModelRegistry.estimate modelName totalVramMb) (sortByVram nodes) 0
      (ModelRegistry.estimate modelName totalVramMb).contextVramMb = .error .divideByZero :=
    assignLayers_divideByZero p (UInt64.toNat_inj.mp hper) (by decide : (0 : UInt32) < 32) hsorted _
  have hsum' : ((nodes.map (·.availableVramMb)).map UInt64.toNat).sum < 2 ^ 64 := by
    rwa [List.map_map]
  obtain ⟨available, havailable, havailableNat⟩ := p.sum64_of_lt hsum'
  obtain ⟨needed, hneededOk, hneededNat⟩ :=
    ModelSpec.totalVramMb_of_lt p (neededMb_estimate_lt modelName totalVramMb)
  have hisEmpty : nodes.isEmpty = false := by simpa using hne
  have hlow : available < needed ↔
      ¬ totalVramMb.toNat / 8 ≤ (nodes.map (·.availableVramMb.toNat)).sum := by
    rw [UInt64.lt_iff_toNat_lt, havailableNat, hneededNat, hneeded, List.map_map, not_le]
    rfl
  unfold planShards placeShards
  rw [hisEmpty, havailable, hneededOk]
  simp only [bind, Except.bind, pure, Except.pure, hrun]
  by_cases hfits : totalVramMb.toNat / 8 ≤ (nodes.map (·.availableVramMb.toNat)).sum
  · simp [hfits, mt hlow.mp (not_not.mpr hfits)]
  · simp [hfits, hlow.mpr hfits]

/-- **An estimate can be planned** from 36 MB on. A smaller one can be planned only where
the planner answers before its loop: without nodes, or with too little memory for the
context. -/
theorem plannable_iff (p : Profile) (modelName : String) (totalVramMb : UInt64)
    (nodes : List NodeCapacity)
    (hvram : ∀ node ∈ nodes, node.availableVramMb.toNat < 2 ^ 32)
    (hsum : (nodes.map (·.availableVramMb.toNat)).sum < 2 ^ 64) :
    Plannable p modelName totalVramMb nodes ↔
      36 ≤ totalVramMb.toNat ∨ nodes = [] ∨
        (nodes.map (·.availableVramMb.toNat)).sum < totalVramMb.toNat / 8 := by
  have hbounds := neededMb_estimate_bounds modelName totalVramMb
  have htotal : ∃ total, (ModelRegistry.estimate modelName totalVramMb).totalVramMb p =
      .ok total ∧ total.toNat ≤ totalVramMb.toNat ∧ totalVramMb.toNat < total.toNat + 32 := by
    obtain ⟨total, hok, htotalNat⟩ :=
      ModelSpec.totalVramMb_of_lt p (neededMb_estimate_lt modelName totalVramMb)
    exact ⟨total, hok, by omega, by omega⟩
  constructor
  · intro hplannable
    by_contra hnot
    rw [not_or, not_or, not_le, not_lt] at hnot
    obtain ⟨hsize, hne, hfits⟩ := hnot
    exact hplannable.divides ((planShards_small p hsum hsize hne).mpr hfits)
  · intro hcondition
    by_cases hsize : 36 ≤ totalVramMb.toNat
    · have hper := (one_le_vramPerLayerMb_iff modelName totalVramMb).mpr hsize
      obtain ⟨result, hresult⟩ :=
        planShards_returns p hper (neededMb_estimate_lt modelName totalVramMb) hsum
      refine ⟨?_, htotal, ?_⟩
      · rw [hresult]
        intro herror
        cases herror
      · rintro node rfl hfits
        have hnode := hvram node List.mem_cons_self
        exact planShards_solo p (regular_estimate hsize (by omega)) hnode hfits
    · by_cases hne : nodes = []
      · rw [hne]
        refine ⟨?_, htotal, ?_⟩
        · intro herror
          cases herror
        · intro node hnil
          cases hnil
      · have hlow := (hcondition.resolve_left hsize).resolve_left hne
        refine ⟨?_, htotal, ?_⟩
        · intro herror
          have hfits := (planShards_small p hsum (not_le.mp hsize) hne).mp herror
          exact absurd hfits (not_le.mpr hlow)
        · rintro node rfl hfits
          -- a node with room for the estimate has memory for the context
          rw [neededMb_estimate] at hfits
          rw [List.map_singleton, List.sum_singleton] at hlow
          omega

end

/-! ## Two sizes -/

/-- A node with 8 GB. -/
def smallNode : NodeCapacity := ⟨"gpu0", "gpu0.local", 11434, 8181, 8192⟩

theorem plannable_4096 : Plannable .release "house" 4096 [smallNode] :=
  (plannable_iff .release "house" 4096 [smallNode] (by decide) (by decide)).mpr
    (.inl (by decide))

/-- The thread that plans a model of 10 MB ends in a division by zero. -/
theorem not_plannable_ten :
    planShards .release (ModelRegistry.estimate "house" 10) [smallNode] = .error .divideByZero ∧
      ¬ Plannable .release "house" 10 [smallNode] := by
  have hpanic : planShards .release (ModelRegistry.estimate "house" 10) [smallNode] =
      .error .divideByZero := by decide +kernel
  exact ⟨hpanic, fun h => h.divides hpanic⟩

end InferPlatform.Planner
