import InferPlatform.Planner.Capacity
import Mathlib.Algebra.BigOperators.Fin

/-!
# No allocation needs fewer nodes

The planner against every other way of handing out the layers.

* `Allocation` — whole layers on nodes, the context on one of largest memory;
* `covers_le_take` — no allocation covers more than the first visits, as many as it has
  nodes, have room for;
* `planShards_fewest` — **where there is an allocation, the planner finds a plan, of no
  more nodes**.
-/

namespace InferPlatform.Planner

open Checked Greedy

variable {model : ModelSpec} {nodes : List NodeCapacity}

/-- The memory of a node. -/
abbrev vramAt (nodes : List NodeCapacity) (i : Fin nodes.length) : Nat :=
  (nodes.get i).availableVramMb.toNat

/-- All layers handed out to nodes with room for them; the context and at least one layer
are on a node of largest memory. -/
structure Allocation (model : ModelSpec) (nodes : List NodeCapacity) where
  layers : Fin nodes.length → Nat
  controller : Fin nodes.length
  largest : ∀ i, vramAt nodes i ≤ vramAt nodes controller
  hosts : 1 ≤ layers controller
  room_controller : layers controller * model.vramPerLayerMb.toNat + model.contextVramMb.toNat ≤
    vramAt nodes controller
  room : ∀ i, i ≠ controller → layers i * model.vramPerLayerMb.toNat ≤ vramAt nodes i
  covers : ∑ i, layers i = model.totalLayers.toNat

namespace Allocation

/-- The nodes with layers. -/
def used (a : Allocation model nodes) : Finset (Fin nodes.length) :=
  Finset.univ.filter fun i => a.layers i ≠ 0

theorem controller_mem (a : Allocation model nodes) : a.controller ∈ a.used := by
  have hhosts := a.hosts
  simp only [used, Finset.mem_filter, Finset.mem_univ, true_and]
  omega

theorem sum_used (a : Allocation model nodes) :
    a.layers a.controller + ∑ i ∈ a.used.erase a.controller, a.layers i =
      model.totalLayers.toNat := by
  rw [Finset.add_sum_erase _ _ a.controller_mem, used, Finset.sum_filter_ne_zero, a.covers]

/-- An allocation needs no more memory than the planner asks for. -/
theorem needed_le (a : Allocation model nodes) : model.neededMb ≤ totalVram nodes := by
  have htotal : totalVram nodes = ∑ i, vramAt nodes i := by
    rw [Fin.sum_univ_def, totalVram]
    conv_lhs => rw [← List.map_get_finRange nodes, List.map_map]
    rfl
  have hothers : ∑ i ∈ Finset.univ.erase a.controller, a.layers i * model.vramPerLayerMb.toNat ≤
      ∑ i ∈ Finset.univ.erase a.controller, vramAt nodes i := by
    apply Finset.sum_le_sum
    intro i hi
    exact a.room i (Finset.ne_of_mem_erase hi)
  have hall : ∑ i, a.layers i * model.vramPerLayerMb.toNat =
      model.totalLayers.toNat * model.vramPerLayerMb.toNat := by
    rw [← Finset.sum_mul, a.covers]
  rw [← Finset.add_sum_erase Finset.univ _ (Finset.mem_univ a.controller)] at hall htotal
  have hroom := a.room_controller
  rw [htotal, ModelSpec.neededMb, ← hall]
  omega

/-- The first visit is of a node with the memory of the controller. -/
theorem head_vram (a : Allocation model nodes) {head : NodeCapacity} {rest : List NodeCapacity}
    (hlist : sortByVram nodes = head :: rest) :
    head.availableVramMb.toNat = vramAt nodes a.controller := by
  rw [← largestVram_of_sortByVram hlist]
  apply Nat.le_antisymm
  · apply largestVram_le
    intro node hnode
    obtain ⟨i, rfl⟩ := List.get_of_mem hnode
    exact a.largest i
  · exact le_largestVram (List.get_mem _ _)

/-- The nodes of an allocation beside its controller are among those that the planner
visits after the first one, by memory. -/
theorem subperm_rest (a : Allocation model nodes) {head : NodeCapacity} {rest : List NodeCapacity}
    (hlist : sortByVram nodes = head :: rest) :
    ((a.used.erase a.controller).toList.map (vramAt nodes)).Subperm
      (rest.map fun node => node.availableVramMb.toNat) := by
  have hperm := sortByVram_perm nodes
  rw [hlist] at hperm
  have hhead := a.head_vram hlist
  -- all nodes but the controller have the memories of the nodes behind the head
  have hrest : (((List.finRange nodes.length).erase a.controller).map (vramAt nodes)).Perm
      (rest.map fun node => node.availableVramMb.toNat) := by
    apply List.Perm.cons_inv (a := vramAt nodes a.controller)
    have hall : ((List.finRange nodes.length).map (vramAt nodes)) =
        nodes.map fun node => node.availableVramMb.toNat := by
      conv_rhs => rw [← List.map_get_finRange nodes, List.map_map]
      rfl
    have herase := (List.perm_cons_erase (List.mem_finRange a.controller)).map (vramAt nodes)
    rw [hall] at herase
    have hsorted := hperm.map fun node => node.availableVramMb.toNat
    rw [List.map_cons, hhead] at hsorted
    exact herase.symm.trans hsorted.symm
  have hsub : (a.used.erase a.controller).toList.Subperm
      ((List.finRange nodes.length).erase a.controller) := by
    apply List.subperm_of_subset (Finset.nodup_toList _)
    intro i hi
    have hne := Finset.ne_of_mem_erase (Finset.mem_toList.mp hi)
    exact (List.mem_erase_of_ne hne).mpr (List.mem_finRange i)
  obtain ⟨kept, hkept, hsublist⟩ := hsub
  have hmapped : ((a.used.erase a.controller).toList.map (vramAt nodes)).Subperm
      (((List.finRange nodes.length).erase a.controller).map (vramAt nodes)) :=
    ⟨kept.map (vramAt nodes), hkept.map _, hsublist.map _⟩
  exact hmapped.trans hrest.subperm

/-- The nodes beside the controller have no more layers than as many visits after the first
one have room for. -/
theorem sum_others_le (a : Allocation model nodes) (hper : 1 ≤ model.vramPerLayerMb.toNat)
    {head : NodeCapacity} {rest : List NodeCapacity} (hlist : sortByVram nodes = head :: rest) :
    ∑ i ∈ a.used.erase a.controller, a.layers i ≤
      ((rest.map fun node => model.layersIn node.availableVramMb.toNat).take
        (a.used.erase a.controller).card).sum := by
  obtain ⟨kept, hkept, hsublist⟩ := a.subperm_rest hlist
  have hsorted := sortByVram_pairwise nodes
  rw [hlist] at hsorted
  have hdescending : (rest.map fun node => model.layersIn node.availableVramMb.toNat).Pairwise
      fun x y => y ≤ x := by
    rw [List.pairwise_map]
    exact (List.pairwise_cons.mp hsorted).2.imp fun h =>
      model.layersIn_mono (UInt64.le_iff_toNat_le.mp h)
  have hchosen : (((a.used.erase a.controller).toList.map (vramAt nodes)).map
      model.layersIn).Subperm (rest.map fun node => model.layersIn node.availableVramMb.toNat) := by
    refine ⟨kept.map model.layersIn, hkept.map _, ?_⟩
    have hmapped := hsublist.map model.layersIn
    rwa [List.map_map] at hmapped
  calc ∑ i ∈ a.used.erase a.controller, a.layers i
      ≤ ∑ i ∈ a.used.erase a.controller, model.layersIn (vramAt nodes i) := by
        apply Finset.sum_le_sum
        intro i hi
        exact (Nat.le_div_iff_mul_le hper).mpr (a.room i (Finset.ne_of_mem_erase hi))
    _ = (((a.used.erase a.controller).toList.map (vramAt nodes)).map model.layersIn).sum := by
        rw [List.map_map, ← Finset.sum_map_toList]
        rfl
    _ ≤ _ := by
        have hle := sum_le_sum_take hchosen hdescending
        rwa [List.length_map, List.length_map, Finset.length_toList] at hle

/-- **No allocation covers more** than the first visits, as many as it has nodes, have
room for: the first visit is of the controller or its equal, and the visits after it are
of the nodes with most room. -/
theorem covers_le_take (a : Allocation model nodes) (hper : 1 ≤ model.vramPerLayerMb.toNat) :
    model.totalLayers.toNat ≤
      ((layerRooms model (sortByVram nodes) model.contextVramMb).take a.used.card).sum := by
  cases hlist : sortByVram nodes with
  | nil =>
      have hnil : nodes = [] := by
        have hperm := sortByVram_perm nodes
        rw [hlist] at hperm
        exact hperm.symm.eq_nil
      have hcontroller := a.controller
      rw [hnil] at hcontroller
      exact hcontroller.elim0
  | cons head rest =>
      have hcard : a.used.card = (a.used.erase a.controller).card + 1 :=
        (Finset.card_erase_add_one a.controller_mem).symm
      have hroom : a.layers a.controller ≤
          model.layersIn (head.availableVramMb.toNat - model.contextVramMb.toNat) := by
        have hcontroller := a.room_controller
        rw [a.head_vram hlist]
        exact (Nat.le_div_iff_mul_le hper).mpr (by omega)
      have hothers := a.sum_others_le hper hlist
      have hsum := a.sum_used
      rw [hcard, layerRooms, List.take_succ_cons, List.sum_cons]
      omega

end Allocation

/-- **Greedy planning is complete and uses the fewest nodes.** -/
theorem planShards_fewest (p : Profile) (model : ModelSpec) (nodes : List NodeCapacity)
    (hper : 1 ≤ model.vramPerLayerMb)
    (hvram : ∀ node ∈ nodes, node.availableVramMb.toNat < 2 ^ 32)
    (hsum : totalVram nodes < 2 ^ 64) (a : Allocation model nodes) :
    ∃ plan, planShards p model nodes = .ok (.ok plan) ∧
      plan.assignments.length ≤ a.used.card := by
  have hper' : 1 ≤ model.vramPerLayerMb.toNat := UInt64.le_iff_toNat_le.mp hper
  have hne : nodes ≠ [] := by
    rintro rfl
    exact a.controller.elim0
  have hcovers := a.covers_le_take hper'
  have henough : model.totalLayers.toNat ≤ wholeLayers model nodes := by
    rw [← sum_layerRooms model hne]
    exact hcovers.trans ((List.take_sublist _ _).sum_le_sum fun _ _ => Nat.zero_le _)
  obtain ⟨needed, hneeded, hneededNat⟩ :=
    ModelSpec.totalVramMb_of_lt p (a.needed_le.trans_lt hsum)
  obtain ⟨available, plan, -, hlength, hdecides⟩ :=
    planShards_decides hper' hne hvram hsum hneeded
  have hmegabytes := a.needed_le
  rw [if_neg (by omega)] at hdecides
  refine ⟨plan, hdecides, ?_⟩
  rw [hlength]
  exact length_fill_le hcovers

/-- Eight layers of a small model on three nodes, of which two are enough. -/
theorem planShards_fewest_three_nodes :
    let model : ModelSpec := ⟨"tiny", 8, 100, 150⟩
    let nodes : List NodeCapacity :=
      [⟨"gpu0", "gpu0.local", 11434, 8181, 400⟩, ⟨"gpu1", "gpu1.local", 11434, 8181, 700⟩,
        ⟨"gpu2", "gpu2.local", 11434, 8181, 350⟩]
    ∃ plan, planShards .release model nodes = .ok (.ok plan) ∧ plan.assignments.length ≤ 2 :=
  planShards_fewest .release ⟨"tiny", 8, 100, 150⟩
    [⟨"gpu0", "gpu0.local", 11434, 8181, 400⟩, ⟨"gpu1", "gpu1.local", 11434, 8181, 700⟩,
      ⟨"gpu2", "gpu2.local", 11434, 8181, 350⟩] (by decide) (by decide) (by decide)
    { layers := ![3, 5, 0]
      controller := 1
      largest := by decide
      hosts := by decide
      room_controller := by decide
      room := by decide
      covers := by decide }

end InferPlatform.Planner
