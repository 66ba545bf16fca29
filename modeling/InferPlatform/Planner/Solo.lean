import InferPlatform.Planner.Controller
import InferPlatform.Planner.ModelRegistry

/-!
# Plans of one node

A caller that looks at the VRAM of one node alone must agree with the planner.

* `planShards_returns` — memories that can be added up never end the thread;
* `planShards_solo` — a node with room for all of a regular model gets all of it;
* `two_le_assignments` — nodes without that room never get a plan of one node.
-/

namespace InferPlatform.Planner

open Checked

/-- All layers on one node. -/
def soloPlan (model : ModelSpec) (node : NodeCapacity) : ShardPlan :=
  { model := model.name
    totalLayers := model.totalLayers
    assignments :=
      [{ nodeId := node.nodeId
         host := node.host
         ollamaPort := node.ollamaPort
         agentPort := node.agentPort
         layerStart := 0
         layerEnd := model.totalLayers
         vramRequiredMb := model.totalLayers.toUInt64 * model.vramPerLayerMb }] }

/-- The planner, once its sums and its loop are known. -/
theorem placeShards_eq {p : Profile} {model : ModelSpec} {nodes : List NodeCapacity}
    {totalAvailable totalNeeded : UInt64} {placements : List Placement} {layerCursor : UInt32}
    (hne : nodes ≠ [])
    (havailable : p.sum64 (nodes.map (·.availableVramMb)) = .ok totalAvailable)
    (hneeded : model.totalVramMb p = .ok totalNeeded)
    (hrun : assignLayers p model (sortByVram nodes) 0 model.contextVramMb =
      .ok (placements, layerCursor)) :
    placeShards p model nodes =
      if totalAvailable < totalNeeded ∨ layerCursor < model.totalLayers then
        .ok (.error (.insufficientVram totalNeeded totalAvailable nodes.length))
      else .ok (.ok placements) := by
  have hisEmpty : nodes.isEmpty = false := by simpa using hne
  unfold placeShards
  rw [hisEmpty, havailable, hneeded]
  simp only [bind, Except.bind, pure, Except.pure, hrun]
  by_cases hlow : totalAvailable < totalNeeded
  · simp [hlow]
  · by_cases hopen : layerCursor < model.totalLayers <;> simp [hlow, hopen]

theorem planShards_of_placeShards {p : Profile} {model : ModelSpec} {nodes : List NodeCapacity}
    {placements : List Placement} (h : placeShards p model nodes = .ok (.ok placements)) :
    planShards p model nodes = .ok (.ok (.ofPlacements model placements)) := by
  rw [planShards, h]
  rfl

/-- The planner returns, with a plan or an error. -/
theorem planShards_returns (p : Profile) {model : ModelSpec} (hper : 1 ≤ model.vramPerLayerMb.toNat)
    (hneeded : model.neededMb < 2 ^ 64) {nodes : List NodeCapacity}
    (hsum : (nodes.map (·.availableVramMb.toNat)).sum < 2 ^ 64) :
    ∃ result, planShards p model nodes = .ok result := by
  by_cases hne : nodes = []
  · rw [hne]
    exact ⟨_, rfl⟩
  · have hsum' : ((nodes.map (·.availableVramMb)).map UInt64.toNat).sum < 2 ^ 64 := by
      rwa [List.map_map]
    obtain ⟨available, havailable, -⟩ := p.sum64_of_lt hsum'
    obtain ⟨needed, hneeded, -⟩ := ModelSpec.totalVramMb_of_lt p hneeded
    obtain ⟨placements, last, hrun, -⟩ :=
      assignLayers_spec hper (sortByVram nodes) 0 model.contextVramMb (Nat.zero_le _)
    rw [planShards, placeShards_eq hne havailable hneeded (hrun p)]
    split
    · exact ⟨_, rfl⟩
    · exact ⟨_, rfl⟩

/-- The placement of a visit that has room for every layer. -/
theorem Loaded.all_layers {model : ModelSpec} {usable : Nat} {placement : Placement}
    (h : Loaded model 0 usable placement) (hper : 1 ≤ model.vramPerLayerMb.toNat)
    (husable : usable < 2 ^ 32)
    (hfits : model.totalLayers.toNat * model.vramPerLayerMb.toNat ≤ usable) :
    ShardPlan.ofPlacements model [placement] = soloPlan model placement.node := by
  obtain ⟨node, a⟩ := placement
  obtain ⟨⟨hid, hhost, hollama, hagent⟩, hstart, hstop, hvram, -⟩ := h
  have hquotient : model.totalLayers.toNat ≤ usable / model.vramPerLayerMb.toNat :=
    (Nat.le_div_iff_mul_le hper).mpr hfits
  -- the quotient is a `u32` already, so the cast keeps it
  have hcast : usable / model.vramPerLayerMb.toNat % 2 ^ 32 =
      usable / model.vramPerLayerMb.toNat :=
    Nat.mod_eq_of_lt ((Nat.div_le_self _ _).trans_lt husable)
  rw [hcast, UInt32.toNat_zero, Nat.sub_zero, Nat.zero_add, Nat.min_eq_right hquotient] at hstop
  have hwide : model.totalLayers.toUInt64.toNat = model.totalLayers.toNat := by simp
  have hmul : model.totalLayers.toUInt64.toNat * model.vramPerLayerMb.toNat < 2 ^ 64 := by
    rw [hwide]
    omega
  have hvramEq : a.vramRequiredMb = model.totalLayers.toUInt64 * model.vramPerLayerMb := by
    apply UInt64.toNat_inj.mp
    rw [hvram, (Profile.release.mul64_of_lt hmul).2, hwide, hstop, UInt32.toNat_zero, Nat.sub_zero]
  have hstopEq : a.layerEnd = model.totalLayers := UInt32.toNat_inj.mp hstop
  obtain ⟨nodeId, host, ollamaPort, agentPort, layerStart, layerEnd, vramRequiredMb⟩ := a
  dsimp only at hid hhost hollama hagent hstart hstopEq hvramEq
  subst hid hhost hollama hagent hstart hstopEq hvramEq
  rfl

/-- **One node with room for the whole model** gets all layers. -/
theorem planShards_solo (p : Profile) {model : ModelSpec} (hmodel : model.Regular)
    {node : NodeCapacity} (hvram : node.availableVramMb.toNat < 2 ^ 32)
    (hfits : model.neededMb ≤ node.availableVramMb.toNat) :
    planShards p model [node] = .ok (.ok (soloPlan model node)) := by
  obtain ⟨hlayers, hper, hneeded, hcontext⟩ := hmodel
  have hopen : (0 : UInt32) < model.totalLayers := UInt32.lt_iff_toNat_lt.mpr hlayers
  have hlayer : model.vramPerLayerMb.toNat ≤
      model.totalLayers.toNat * model.vramPerLayerMb.toNat := Nat.le_mul_of_pos_left _ hlayers
  have hall : model.totalLayers.toNat * model.vramPerLayerMb.toNat ≤
      node.availableVramMb.toNat - model.contextVramMb.toNat := by
    unfold ModelSpec.neededMb at hfits
    omega
  have hroom : model.vramPerLayerMb ≤
      saturatingSub64 node.availableVramMb model.contextVramMb := by
    rw [UInt64.le_iff_toNat_le, toNat_saturatingSub64]
    omega
  obtain ⟨placement, hnode, hloaded, hstep⟩ := assignLayers_place node [] hper hopen hroom
  have hsolo : ShardPlan.ofPlacements model [placement] = soloPlan model node := by
    rw [hloaded.all_layers hper (by omega) hall, hnode]
  have hend : placement.assignment.layerEnd = model.totalLayers := by
    have hassigned := congrArg ShardPlan.assignments hsolo
    simp only [ShardPlan.ofPlacements, soloPlan, List.map_cons, List.cons.injEq] at hassigned
    rw [hassigned.1]
  have hrun : assignLayers p model (sortByVram [node]) 0 model.contextVramMb =
      .ok ([placement], placement.assignment.layerEnd) := hstep p
  have hsum : ([node.availableVramMb].map UInt64.toNat).sum < 2 ^ 64 := by
    rw [List.map_singleton, List.sum_singleton]
    omega
  obtain ⟨available, havailable, havailableNat⟩ := p.sum64_of_lt hsum
  obtain ⟨needed, hneededOk, hneededNat⟩ := ModelSpec.totalVramMb_of_lt p
    (hneeded.trans (by decide))
  have hplaced : placeShards p model [node] = .ok (.ok [placement]) := by
    rw [placeShards_eq (List.cons_ne_nil _ _) havailable hneededOk hrun, if_neg]
    rw [not_or, UInt64.not_lt, UInt32.not_lt, UInt64.le_iff_toNat_le, hneededNat, havailableNat,
      hend]
    exact ⟨by simpa using hfits, UInt32.le_refl _⟩
  rw [planShards_of_placeShards hplaced, hsolo]

/-! ## Nodes without that room -/

/-- A plan that covers a layer has an assignment. -/
theorem assignments_ne_nil {p : Profile} {model : ModelSpec} {nodes : List NodeCapacity}
    {plan : ShardPlan} (hper : 1 ≤ model.vramPerLayerMb) (hlayers : 1 ≤ model.totalLayers.toNat)
    (h : planShards p model nodes = .ok (.ok plan)) : plan.assignments ≠ [] := by
  intro hnil
  have hcover := (planShards_sound p model nodes plan hper h).contiguous
  rw [hnil] at hcover
  have hzero : (0 : UInt32) = model.totalLayers := hcover
  rw [← hzero] at hlayers
  exact absurd hlayers (by decide)

/-- **Nodes none of which has room for the whole model** never get a plan of one
node. The largest one lacks room for all layers beside the context; and when it has
no room for the context and a layer, no node has room for all layers at all. -/
theorem two_le_assignments {p : Profile} {model : ModelSpec} (hmodel : model.Regular)
    {nodes : List NodeCapacity} {plan : ShardPlan}
    (hsmall : ∀ node ∈ nodes, node.availableVramMb.toNat < model.neededMb)
    (h : planShards p model nodes = .ok (.ok plan)) : 2 ≤ plan.assignments.length := by
  obtain ⟨hlayers, hper, -, hcontext⟩ := hmodel
  have hsound := planShards_sound p model nodes plan (UInt64.le_iff_toNat_le.mpr hper) h
  have hne := assignments_ne_nil (UInt64.le_iff_toNat_le.mpr hper) hlayers h
  obtain ⟨placements, hplaced, rfl⟩ := planShards_ok h
  obtain ⟨last, hcovered, hrun⟩ := placeShards_ok hplaced
  have hperm := sortByVram_perm nodes
  have hsorted := sortByVram_pairwise nodes
  by_contra hone
  cases hlist : sortByVram nodes with
  | nil =>
      rw [hlist, assignLayers, Except.ok.injEq, Prod.mk.injEq] at hrun
      rw [← hrun.1] at hne
      exact hne rfl
  | cons largest rest =>
      rw [hlist] at hrun hperm hsorted
      have hlargest := hsmall largest (hperm.mem_iff.mp List.mem_cons_self)
      obtain ⟨first, others, rfl, hfirst⟩ :=
        assignLayers_first hper hlayers hsorted hcovered hrun
      obtain rfl : others = [] := by
        cases others with
        | nil => rfl
        | cons _ _ => exact absurd (by simp [ShardPlan.ofPlacements]) hone
      -- the only assignment ends with the last layer
      have hend : first.assignment.layerEnd = model.totalLayers := hsound.contiguous.2.2
      have hloads : ∀ {usable : Nat}, Loaded model 0 usable first →
          model.totalLayers.toNat * model.vramPerLayerMb.toNat ≤ usable := by
        intro usable hloaded
        have hvram := hloaded.vram_le
        rwa [hloaded.vram_eq, hend, UInt32.toNat_zero, Nat.sub_zero] at hvram
      unfold ModelSpec.neededMb at hlargest
      rcases hfirst with ⟨hroom, -, hloaded⟩ | ⟨hfull, second, tail, rfl, -, hloaded⟩
      · have hall := hloads hloaded
        omega
      · have hall := hloads hloaded
        have hle := UInt64.le_iff_toNat_le.mp
          ((List.pairwise_cons.mp hsorted).1 second List.mem_cons_self)
        omega

end InferPlatform.Planner
