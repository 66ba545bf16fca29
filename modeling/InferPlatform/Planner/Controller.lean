import InferPlatform.Planner.Soundness

/-!
# Where the context overhead lands

The planner reserves `context_vram_mb` on the first node of the sorted list
and clears the reserve after that visit. When the largest node cannot hold the
context and one layer, the visit skips it, and the next node becomes the
controller with nothing reserved.

* `ControllerHostsContext` — the controller's node is a largest one and has
  room for its layers and the context;
* `ContextFits` — the condition on the input under which that is so;
* `controllerHostsContext_iff` — for every `Ok` plan the two are equivalent.
-/

namespace InferPlatform.Planner

open Checked

/-- The largest `available_vram_mb` of the input nodes. -/
def largestVram (nodes : List NodeCapacity) : Nat :=
  (nodes.map fun node => node.availableVramMb.toNat).foldr max 0

/-- The node the controller's assignment was made for is a largest one and has
memory for that assignment plus the context. -/
def ControllerHostsContext (p : Profile) (model : ModelSpec) (nodes : List NodeCapacity)
    (plan : ShardPlan) : Prop :=
  ∃ first rest, placeShards p model nodes = .ok (.ok (first :: rest)) ∧
    plan.controller = .ok first.assignment ∧
    (∀ node ∈ nodes, node.availableVramMb ≤ first.node.availableVramMb) ∧
    first.assignment.vramRequiredMb.toNat + model.contextVramMb.toNat ≤
      first.node.availableVramMb.toNat

/-- A largest node has room for the context and one layer. The second case is
a corner of the narrowing cast: a second node of the same size, whose quotient
is a multiple of `2 ^ 32`, becomes the controller of an empty range. -/
def ContextFits (model : ModelSpec) (nodes : List NodeCapacity) : Prop :=
  model.contextVramMb.toNat + model.vramPerLayerMb.toNat ≤ largestVram nodes ∨
    (2 ≤ nodes.countP (fun node => node.availableVramMb.toNat = largestVram nodes) ∧
      model.contextVramMb.toNat ≤ largestVram nodes ∧
      largestVram nodes / model.vramPerLayerMb.toNat % 2 ^ 32 = 0)

theorem le_largestVram {nodes : List NodeCapacity} {node : NodeCapacity} (h : node ∈ nodes) :
    node.availableVramMb.toNat ≤ largestVram nodes := by
  induction nodes with
  | nil => cases h
  | cons head tail ih =>
      rcases List.mem_cons.mp h with rfl | h
      · exact Nat.le_max_left _ _
      · exact (ih h).trans (Nat.le_max_right _ _)

theorem largestVram_le {nodes : List NodeCapacity} {bound : Nat}
    (h : ∀ node ∈ nodes, node.availableVramMb.toNat ≤ bound) : largestVram nodes ≤ bound := by
  induction nodes with
  | nil => exact Nat.zero_le _
  | cons head tail ih =>
      exact Nat.max_le.mpr ⟨h head List.mem_cons_self,
        ih fun node hnode => h node (List.mem_cons_of_mem _ hnode)⟩

theorem largestVram_eq {nodes : List NodeCapacity} {node : NodeCapacity} (hmem : node ∈ nodes)
    (hmax : ∀ other ∈ nodes, other.availableVramMb ≤ node.availableVramMb) :
    largestVram nodes = node.availableVramMb.toNat :=
  Nat.le_antisymm
    (largestVram_le fun other hother => UInt64.le_iff_toNat_le.mp (hmax other hother))
    (le_largestVram hmem)

/-- With nothing reserved, a list whose nodes are all below one layer receives
nothing. -/
theorem assignLayers_too_small (p : Profile) {model : ModelSpec} :
    ∀ (nodes : List NodeCapacity) (layerCursor : UInt32),
    (∀ node ∈ nodes, node.availableVramMb < model.vramPerLayerMb) →
    assignLayers p model nodes layerCursor 0 = .ok ([], layerCursor) := by
  intro nodes
  induction nodes with
  | nil => intro layerCursor _; rfl
  | cons node rest ih =>
      intro layerCursor hsmall
      by_cases hdone : model.totalLayers ≤ layerCursor
      · rw [assignLayers, if_pos hdone]
      · have hfull : saturatingSub64 node.availableVramMb 0 < model.vramPerLayerMb := by
          have := UInt64.lt_iff_toNat_lt.mp (hsmall node List.mem_cons_self)
          rw [UInt64.lt_iff_toNat_lt, toNat_saturatingSub64]
          simpa using this
        rw [assignLayers_skip p node rest (UInt32.not_le.mp hdone) hfull]
        exact ih layerCursor fun other hother => hsmall other (List.mem_cons_of_mem _ hother)

theorem first_of_map {first : Placement} {result : Except Panic (List Placement × UInt32)}
    {placements : List Placement} {last : UInt32}
    (h : result.map (fun run => (first :: run.1, run.2)) = .ok (placements, last)) :
    ∃ others, placements = first :: others := by
  cases result with
  | error e => cases h
  | ok run =>
      simp only [Except.map, Except.ok.injEq, Prod.mk.injEq] at h
      exact ⟨run.1, h.1.symm⟩

/-- The first placement of a run that covers at least one layer: it was made
for the head of the list when the head has room beside the reserve, and for
the second node, with nothing reserved, otherwise. -/
theorem assignLayers_first {p : Profile} {model : ModelSpec} {node : NodeCapacity}
    {rest : List NodeCapacity} {placements : List Placement} {last : UInt32}
    (hper : 1 ≤ model.vramPerLayerMb.toNat) (hlayers : 1 ≤ model.totalLayers.toNat)
    (hsorted : (node :: rest).Pairwise fun a b => b.availableVramMb ≤ a.availableVramMb)
    (hcovered : model.totalLayers ≤ last)
    (hrun : assignLayers p model (node :: rest) 0 model.contextVramMb = .ok (placements, last)) :
    ∃ first others, placements = first :: others ∧
      ((model.contextVramMb.toNat + model.vramPerLayerMb.toNat ≤ node.availableVramMb.toNat ∧
          first.node = node ∧
          Loaded model 0 (node.availableVramMb.toNat - model.contextVramMb.toNat) first) ∨
        (node.availableVramMb.toNat < model.contextVramMb.toNat + model.vramPerLayerMb.toNat ∧
          ∃ second tail, rest = second :: tail ∧ first.node = second ∧
            Loaded model 0 second.availableVramMb.toNat first)) := by
  have hopen : 0 < model.totalLayers := UInt32.lt_iff_toNat_lt.mpr hlayers
  by_cases hroom : model.vramPerLayerMb ≤ saturatingSub64 node.availableVramMb model.contextVramMb
  · obtain ⟨first, hnode, hloaded, hstep⟩ := assignLayers_place node rest hper hopen hroom
    obtain ⟨others, rfl⟩ := first_of_map ((hstep p).symm.trans hrun)
    rw [UInt64.le_iff_toNat_le, toNat_saturatingSub64] at hroom
    exact ⟨first, others, rfl, .inl ⟨by omega, hnode, hloaded⟩⟩
  · have hfull := UInt64.not_le.mp hroom
    rw [assignLayers_skip p node rest hopen hfull] at hrun
    rw [UInt64.lt_iff_toNat_lt, toNat_saturatingSub64] at hfull
    have hsmall : node.availableVramMb.toNat <
        model.contextVramMb.toNat + model.vramPerLayerMb.toNat := by omega
    cases rest with
    | nil =>
        -- nothing was assigned, so no layer is covered
        simp only [assignLayers, Except.ok.injEq, Prod.mk.injEq] at hrun
        exact absurd hcovered (by rw [← hrun.2]; exact UInt32.not_le.mpr hopen)
    | cons second tail =>
        by_cases hnext : second.availableVramMb < model.vramPerLayerMb
        · have hall : ∀ other ∈ second :: tail, other.availableVramMb < model.vramPerLayerMb := by
            intro other hother
            rcases List.mem_cons.mp hother with rfl | hother
            · exact hnext
            · exact UInt64.lt_of_le_of_lt
                ((List.pairwise_cons.mp (List.pairwise_cons.mp hsorted).2).1 other hother) hnext
          rw [assignLayers_too_small p _ _ hall] at hrun
          simp only [Except.ok.injEq, Prod.mk.injEq] at hrun
          exact absurd hcovered (by rw [← hrun.2]; exact UInt32.not_le.mpr hopen)
        · have hroom2 : model.vramPerLayerMb ≤ saturatingSub64 second.availableVramMb 0 := by
            have := UInt64.le_iff_toNat_le.mp (UInt64.not_lt.mp hnext)
            rw [UInt64.le_iff_toNat_le, toNat_saturatingSub64]
            simpa using this
          obtain ⟨first, hnode, hloaded, hstep⟩ :=
            assignLayers_place second tail hper hopen hroom2
          obtain ⟨others, rfl⟩ := first_of_map ((hstep p).symm.trans hrun)
          exact ⟨first, others, rfl, .inr ⟨hsmall, second, tail, rfl, hnode, by simpa using hloaded⟩⟩

/-- In a list sorted by memory, a second node of the largest size is the one
right after the head. -/
theorem countP_largest_le_one {head second : NodeCapacity} {tail : List NodeCapacity}
    (hsorted : (head :: second :: tail).Pairwise
      fun a b => b.availableVramMb ≤ a.availableVramMb)
    (hlt : second.availableVramMb.toNat < head.availableVramMb.toNat) :
    (head :: second :: tail).countP
      (fun node => node.availableVramMb.toNat = head.availableVramMb.toNat) ≤ 1 := by
  have hrest : (second :: tail).countP
      (fun node => node.availableVramMb.toNat = head.availableVramMb.toNat) = 0 := by
    rw [List.countP_eq_zero]
    intro node hnode
    have hle : node.availableVramMb.toNat ≤ second.availableVramMb.toNat := by
      rcases List.mem_cons.mp hnode with rfl | hnode
      · exact Nat.le_refl _
      · exact UInt64.le_iff_toNat_le.mp
          ((List.pairwise_cons.mp (List.pairwise_cons.mp hsorted).2).1 node hnode)
    have hne : node.availableVramMb.toNat ≠ head.availableVramMb.toNat := by omega
    simpa using hne
  rw [List.countP_cons, hrest]
  split <;> omega

/-- The controller when the largest node was skipped: it sits on the second
node, and hosts the context only in the corner of the narrowing cast. -/
theorem second_hosts_iff {model : ModelSpec} {nodes tail : List NodeCapacity}
    {largest second : NodeCapacity} {first : Placement}
    (hlayers : 1 ≤ model.totalLayers.toNat)
    (hperm : (largest :: second :: tail).Perm nodes)
    (hsorted : (largest :: second :: tail).Pairwise
      fun a b => b.availableVramMb ≤ a.availableVramMb)
    (hmax : ∀ node ∈ nodes, node.availableVramMb ≤ largest.availableVramMb)
    (hsmall : largest.availableVramMb.toNat <
      model.contextVramMb.toNat + model.vramPerLayerMb.toNat)
    (hloaded : Loaded model 0 second.availableVramMb.toNat first) :
    ((∀ node ∈ nodes, node.availableVramMb ≤ second.availableVramMb) ∧
        first.assignment.vramRequiredMb.toNat + model.contextVramMb.toNat ≤
          second.availableVramMb.toNat) ↔
      2 ≤ nodes.countP (fun node =>
          node.availableVramMb.toNat = largest.availableVramMb.toNat) ∧
        model.contextVramMb.toNat ≤ largest.availableVramMb.toNat ∧
        largest.availableVramMb.toNat / model.vramPerLayerMb.toNat % 2 ^ 32 = 0 := by
  have hsecond : second ∈ nodes := hperm.mem_iff.mp (by simp)
  have hle := UInt64.le_iff_toNat_le.mp (hmax second hsecond)
  have hvram := hloaded.vram_eq
  have hstop := hloaded.stop_eq
  rw [UInt32.toNat_zero, Nat.sub_zero, Nat.zero_add] at hstop
  rw [hstop, UInt32.toNat_zero, Nat.sub_zero] at hvram
  rw [← hperm.countP_eq]
  constructor
  · rintro ⟨hall, hfits⟩
    have hge := UInt64.le_iff_toNat_le.mp (hall largest (hperm.mem_iff.mp List.mem_cons_self))
    have heq : second.availableVramMb.toNat = largest.availableVramMb.toNat := by omega
    rw [heq] at hvram hfits
    refine ⟨?_, by omega, ?_⟩
    · rw [List.countP_cons_of_pos (by simp), List.countP_cons_of_pos (by simpa using heq)]
      omega
    · -- a single layer beside the context would already be too much
      by_contra hnonzero
      have hone : 1 ≤ min (largest.availableVramMb.toNat / model.vramPerLayerMb.toNat % 2 ^ 32)
          model.totalLayers.toNat := by omega
      have hlayer := Nat.mul_le_mul_right model.vramPerLayerMb.toNat hone
      omega
  · rintro ⟨htwo, hcontext, hzero⟩
    have heq : second.availableVramMb.toNat = largest.availableVramMb.toNat := by
      by_contra hne
      have := countP_largest_le_one hsorted (by omega)
      omega
    refine ⟨fun node hnode => ?_, ?_⟩
    · rw [UInt64.le_iff_toNat_le, heq]
      exact UInt64.le_iff_toNat_le.mp (hmax node hnode)
    · rw [hvram, heq, hzero, Nat.zero_min, Nat.zero_mul]
      omega

/-- **Controller and context.** For every `Ok` plan with at least one layer, the
controller's node is a largest one with room for its layers and the context
exactly when `ContextFits` holds of the input. -/
theorem controllerHostsContext_iff (p : Profile) (model : ModelSpec)
    (nodes : List NodeCapacity) (plan : ShardPlan) (hlayers : 1 ≤ model.totalLayers)
    (hper : 1 ≤ model.vramPerLayerMb) (h : planShards p model nodes = .ok (.ok plan)) :
    ControllerHostsContext p model nodes plan ↔ ContextFits model nodes := by
  have hper' : 1 ≤ model.vramPerLayerMb.toNat := UInt64.le_iff_toNat_le.mp hper
  have hlayers' : 1 ≤ model.totalLayers.toNat := UInt32.le_iff_toNat_le.mp hlayers
  obtain ⟨placements, hplaced, rfl⟩ := planShards_ok h
  obtain ⟨last, hcovered, hrun⟩ := placeShards_ok hplaced
  have hperm := sortByVram_perm nodes
  have hsorted := sortByVram_pairwise nodes
  cases hlist : sortByVram nodes with
  | nil =>
      rw [hlist, assignLayers, Except.ok.injEq, Prod.mk.injEq] at hrun
      rw [← hrun.2, UInt32.le_iff_toNat_le] at hcovered
      exact absurd hcovered (by simp; omega)
  | cons largest rest =>
      rw [hlist] at hrun hperm hsorted
      have hmax : ∀ node ∈ nodes, node.availableVramMb ≤ largest.availableVramMb := by
        intro node hnode
        rcases List.mem_cons.mp (hperm.mem_iff.mpr hnode) with rfl | hnode
        · exact UInt64.le_refl _
        · exact (List.pairwise_cons.mp hsorted).1 node hnode
      have hlargest : largestVram nodes = largest.availableVramMb.toNat :=
        largestVram_eq (hperm.mem_iff.mp List.mem_cons_self) hmax
      obtain ⟨first, others, rfl, hfirst⟩ :=
        assignLayers_first hper' hlayers' hsorted hcovered hrun
      have hproperty : ControllerHostsContext p model nodes
            (ShardPlan.ofPlacements model (first :: others)) ↔
          (∀ node ∈ nodes, node.availableVramMb ≤ first.node.availableVramMb) ∧
            first.assignment.vramRequiredMb.toNat + model.contextVramMb.toNat ≤
              first.node.availableVramMb.toNat := by
        constructor
        · rintro ⟨first', rest', hplaced', -, hall, hfits⟩
          have hsame := hplaced.symm.trans hplaced'
          simp only [Except.ok.injEq, List.cons.injEq] at hsame
          rw [hsame.1]
          exact ⟨hall, hfits⟩
        · rintro ⟨hall, hfits⟩
          exact ⟨first, others, hplaced, rfl, hall, hfits⟩
      rw [hproperty, ContextFits, hlargest]
      rcases hfirst with ⟨hroom, hnode, hloaded⟩ | ⟨hsmall, second, tail, rfl, hnode, hloaded⟩
      · have hfits := hloaded.vram_le
        rw [hnode]
        exact ⟨fun _ => .inl hroom, fun _ => ⟨hmax, by omega⟩⟩
      · -- the largest node was skipped: the controller sits on the second one
        rw [hnode, second_hosts_iff hlayers' hperm hsorted hmax hsmall hloaded]
        exact ⟨.inr, fun h => h.resolve_left (by omega)⟩

/-- The largest node has no room for the context and a layer, so all four
layers and the controller's role go to the other one. -/
theorem controller_without_context :
    let model : ModelSpec := ⟨"llama3.1:70b", 4, 480, 2048⟩
    let nodes : List NodeCapacity :=
      [⟨"big", "big.local", 11434, 8181, 2500⟩, ⟨"small", "small.local", 11434, 8181, 2400⟩]
    ∃ plan, planShards .release model nodes = .ok (.ok plan) ∧
      ¬ ControllerHostsContext .release model nodes plan := by
  refine ⟨⟨"llama3.1:70b", 4, [⟨"small", "small.local", 11434, 8181, 0, 4, 1920⟩]⟩,
    by decide, ?_⟩
  rintro ⟨first, rest, hplaced, -, hall, -⟩
  have hrun : placeShards .release ⟨"llama3.1:70b", 4, 480, 2048⟩
      [⟨"big", "big.local", 11434, 8181, 2500⟩, ⟨"small", "small.local", 11434, 8181, 2400⟩] =
      .ok (.ok [⟨⟨"small", "small.local", 11434, 8181, 2400⟩,
        ⟨"small", "small.local", 11434, 8181, 0, 4, 1920⟩⟩]) := by decide
  rw [hrun] at hplaced
  injection hplaced with hplaced
  injection hplaced with hplaced
  injection hplaced with hfirst _
  subst hfirst
  exact absurd (hall ⟨"big", "big.local", 11434, 8181, 2500⟩ (by simp)) (by decide)

/-- The condition holds on two 24 GB nodes, and the 24 GB controller does host
the context of a 70b model. -/
theorem controllerHostsContext_iff_two_gpus :
    let model : ModelSpec := ⟨"llama3.1:70b", 80, 480, 2048⟩
    let nodes : List NodeCapacity :=
      [⟨"gpu0", "gpu0.local", 11434, 8181, 24576⟩, ⟨"gpu1", "gpu1.local", 11434, 8181, 24576⟩]
    ControllerHostsContext .release model nodes
        ⟨"llama3.1:70b", 80,
          [⟨"gpu0", "gpu0.local", 11434, 8181, 0, 46, 22080⟩,
           ⟨"gpu1", "gpu1.local", 11434, 8181, 46, 80, 16320⟩]⟩ ↔
      ContextFits model nodes :=
  controllerHostsContext_iff .release _ _ _ (by decide) (by decide) (by decide)

end InferPlatform.Planner
