import InferPlatform.Gateway.Coordinator
import InferPlatform.Planner.Order

/-!
# The order of the nodes of a plan

`build_plan` sorts the online nodes by VRAM and latency, and the planner sorts what it is
given once more, by VRAM alone.

* `Before` — VRAM first, then latency, then the place in the table;
* `OrderedPlan` — the nodes of a plan in this order, each once;
* `buildPlan_ordered` — **every plan is ordered so, and there is one exactly where the
  planner makes one of the online nodes as they stand in the table**.
-/

namespace InferPlatform.Gateway

open Checked Planner

variable {Ms : Type} [LinearOrder Ms]

/-- A place of the table comes before another one: with more VRAM, or with as much and a
lower latency, or with both equal and further up. -/
def Before (maxMs : Ms) (stats : StatsMap Ms) (nodes : List NodeInfo) (i j : Fin nodes.length) :
    Prop :=
  nodes[j].vramMb < nodes[i].vramMb ∨
    (nodes[i].vramMb = nodes[j].vramMb ∧
      (p50 maxMs stats nodes[i] < p50 maxMs stats nodes[j] ∨
        (p50 maxMs stats nodes[i] = p50 maxMs stats nodes[j] ∧ i < j)))

/-- The assignments of a plan are made for online nodes at different places of the table, in
this order. -/
def OrderedPlan (maxMs : Ms) (stats : StatsMap Ms) (nodes : List NodeInfo) (plan : ShardPlan) :
    Prop :=
  ∃ places : List (Fin nodes.length), places.Nodup ∧ places.Pairwise (Before maxMs stats nodes) ∧
    (∀ i ∈ places, nodes[i].status = .online) ∧
    List.Forall₂ (fun a i => Copies a nodes[i].capacity) plan.assignments places

/-- The online nodes, as they stand in the table. -/
def onlineNodes (nodes : List NodeInfo) : List NodeInfo :=
  nodes.filter fun n => n.status = .online

/-- Where the online nodes stand. -/
def onlinePlaces (nodes : List NodeInfo) : List (Fin nodes.length) :=
  (List.finRange nodes.length).filter fun i => nodes[i].status = .online

/-! ## Both sorts -/

instance (maxMs : Ms) (stats : StatsMap Ms) : Std.TransCmp (byVram maxMs stats) :=
  have : Std.TransCmp fun a b => compareOn NodeInfo.vramMb b a := .opposite
  inferInstanceAs (Std.TransCmp (compareLex _ _))

theorem map_onlinePlaces (nodes : List NodeInfo) :
    (onlinePlaces nodes).map (fun i => nodes[i]) = onlineNodes nodes := by
  have hall : (List.finRange nodes.length).map (fun i => nodes[i]) = nodes :=
    List.map_get_finRange nodes
  conv_rhs => rw [onlineNodes, ← hall, List.filter_map]
  rfl

theorem mem_onlinePlaces {nodes : List NodeInfo} {i : Fin nodes.length} :
    i ∈ onlinePlaces nodes ↔ nodes[i].status = .online := by
  simp [onlinePlaces]

/-- What the comparison of `build_plan` says of two nodes. -/
theorem byVram_eq_lt {maxMs : Ms} {stats : StatsMap Ms} {a b : NodeInfo} :
    byVram maxMs stats a b = .lt ↔ b.vramMb < a.vramMb ∨
      (a.vramMb = b.vramMb ∧ p50 maxMs stats a < p50 maxMs stats b) := by
  rw [byVram, compareLex, Ordering.then_eq_lt]
  show compare b.vramMb a.vramMb = .lt ∨
    compare b.vramMb a.vramMb = .eq ∧ compare (p50 maxMs stats a) (p50 maxMs stats b) = .lt ↔ _
  rw [Std.compare_eq_lt, compare_lt_iff_lt, Std.compare_eq_iff_eq, eq_comm]

theorem byVram_eq_eq {maxMs : Ms} {stats : StatsMap Ms} {a b : NodeInfo} :
    byVram maxMs stats a b = .eq ↔
      a.vramMb = b.vramMb ∧ p50 maxMs stats a = p50 maxMs stats b := by
  rw [byVram, compareLex, Ordering.then_eq_eq]
  show compare b.vramMb a.vramMb = .eq ∧
    compare (p50 maxMs stats a) (p50 maxMs stats b) = .eq ↔ _
  rw [Std.compare_eq_iff_eq, compare_eq_iff_eq, eq_comm]

/-- The places of the online nodes after the first sort. -/
def sortedPlaces (maxMs : Ms) (stats : StatsMap Ms) (nodes : List NodeInfo) :
    List (Fin nodes.length) :=
  sortBy (fun i j => byVram maxMs stats nodes[i] nodes[j]) (onlinePlaces nodes)

theorem map_sortedPlaces (maxMs : Ms) (stats : StatsMap Ms) (nodes : List NodeInfo) :
    (sortedPlaces maxMs stats nodes).map (fun i => nodes[i]) =
      sortBy (byVram maxMs stats) (onlineNodes nodes) := by
  rw [← map_onlinePlaces]
  exact map_sortBy (byVram maxMs stats) (fun i : Fin nodes.length => nodes[i]) (onlinePlaces nodes)

theorem sortedPlaces_pairwise (maxMs : Ms) (stats : StatsMap Ms) (nodes : List NodeInfo) :
    (sortedPlaces maxMs stats nodes).Pairwise (Before maxMs stats nodes) := by
  have hcmp : Std.TransCmp fun i j : Fin nodes.length => byVram maxMs stats nodes[i] nodes[j] :=
    transCmp_comap (byVram maxMs stats) fun i : Fin nodes.length => nodes[i]
  have hplaces : (onlinePlaces nodes).Pairwise (· < ·) :=
    (List.sortedLT_finRange nodes.length).pairwise.filter _
  refine (sortBy_pairwise _ hplaces).imp ?_
  rintro i j (hlt | ⟨heq, hij⟩)
  · rcases byVram_eq_lt.mp hlt with hvram | ⟨hvram, hp50⟩
    · exact .inl hvram
    · exact .inr ⟨hvram, .inl hp50⟩
  · -- a stable sort leaves equal nodes in the order of the table
    obtain ⟨hvram, hp50⟩ := byVram_eq_eq.mp heq
    exact .inr ⟨hvram, .inr ⟨hp50, hij⟩⟩

theorem Before.irrefl {maxMs : Ms} {stats : StatsMap Ms} {nodes : List NodeInfo}
    (i : Fin nodes.length) : ¬ Before maxMs stats nodes i i := by
  rintro (hvram | ⟨-, hp50 | ⟨-, hlt⟩⟩)
  · exact UInt64.lt_irrefl _ hvram
  · exact lt_irrefl _ hp50
  · exact lt_irrefl _ hlt

/-- The second sort finds the memories in order. -/
theorem sortByVram_sorted (maxMs : Ms) (stats : StatsMap Ms) (nodes : List NodeInfo) :
    sortByVram ((sortBy (byVram maxMs stats) (onlineNodes nodes)).map NodeInfo.capacity) =
      (sortBy (byVram maxMs stats) (onlineNodes nodes)).map NodeInfo.capacity := by
  apply List.Pairwise.insertionSort_eq
  rw [← map_sortedPlaces, List.map_map, List.pairwise_map]
  refine (sortedPlaces_pairwise maxMs stats nodes).imp ?_
  rintro i j (hvram | ⟨hvram, -⟩)
  · exact UInt64.le_of_lt hvram
  · exact UInt64.le_of_eq hvram.symm

/-! ## The plan -/

/-- A plan over capacities that are in order already takes some of them, in this order. -/
theorem exists_sublist_of_planShards {p : Profile} {model : ModelSpec} {nodes : List NodeCapacity}
    {plan : ShardPlan} (hper : 1 ≤ model.vramPerLayerMb) (hsorted : sortByVram nodes = nodes)
    (h : planShards p model nodes = .ok (.ok plan)) :
    ∃ chosen : List NodeCapacity, chosen.Sublist nodes ∧
      List.Forall₂ Copies plan.assignments chosen := by
  obtain ⟨placements, hplaced, rfl⟩ := planShards_ok h
  obtain ⟨last, -, hrun⟩ := placeShards_ok hplaced
  obtain ⟨placements', last', hspec, hassigned⟩ := assignLayers_spec
    (UInt64.le_iff_toNat_le.mp hper) (sortByVram nodes) 0 model.contextVramMb (Nat.zero_le _)
  cases (hspec p).symm.trans hrun
  refine ⟨placements.map Placement.node, hsorted ▸ hassigned.visited, ?_⟩
  show List.Forall₂ Copies (placements.map Placement.assignment) (placements.map Placement.node)
  rw [List.forall₂_map_left_iff, List.forall₂_map_right_iff, List.forall₂_same]
  intro placement hmem
  obtain ⟨_, _, -, hloaded⟩ := hassigned.loaded placement hmem
  exact hloaded.copies

theorem buildPlan_eq (p : Profile) (maxMs : Ms) (model : String) (nodes : List NodeInfo)
    (stats : StatsMap Ms) :
    buildPlan p maxMs model nodes stats =
      if onlineNodes nodes = [] then .ok none
      else (planShards p (requestSpec model)
        ((sortBy (byVram maxMs stats) (onlineNodes nodes)).map NodeInfo.capacity)).map
          Except.toOption := by
  have hempty : ((sortBy (byVram maxMs stats) (onlineNodes nodes)).map
      NodeInfo.capacity).isEmpty ↔ onlineNodes nodes = [] := by
    rw [List.isEmpty_map, List.isEmpty_iff, ← List.length_eq_zero_iff,
      (sortBy_perm _ _).length_eq, List.length_eq_zero_iff]
  rw [buildPlan, ← onlineNodes]
  simp only [hempty]
  split
  · rfl
  · cases planShards p (requestSpec model)
      ((sortBy (byVram maxMs stats) (onlineNodes nodes)).map NodeInfo.capacity) <;> rfl

/-- There is a plan exactly where the planner makes one of the sorted nodes. -/
theorem buildPlan_eq_some {p : Profile} {maxMs : Ms} {model : String} {nodes : List NodeInfo}
    {stats : StatsMap Ms} {plan : ShardPlan} :
    buildPlan p maxMs model nodes stats = .ok (some plan) ↔
      planShards p (requestSpec model)
        ((sortBy (byVram maxMs stats) (onlineNodes nodes)).map NodeInfo.capacity) =
          .ok (.ok plan) := by
  rw [buildPlan_eq]
  by_cases hnone : onlineNodes nodes = []
  · rw [if_pos hnone, hnone]
    exact iff_of_false (by simp) (fun h => nomatch h)
  · rw [if_neg hnone]
    rcases planShards p (requestSpec model) _ with panic | e | plan'
    · simp [Except.map]
    · simp [Except.map, Except.toOption]
    · simp [Except.map, Except.toOption]

/-- **The nodes of a plan are online, different, and in the order of VRAM, latency and place
in the table**; and there is a plan exactly where the planner makes one of the online nodes
in table order. -/
theorem buildPlan_ordered (p : Profile) (maxMs : Ms) (model : String) (nodes : List NodeInfo)
    (stats : StatsMap Ms) :
    (∀ plan, buildPlan p maxMs model nodes stats = .ok (some plan) →
      OrderedPlan maxMs stats nodes plan) ∧
    ((∃ plan, buildPlan p maxMs model nodes stats = .ok (some plan)) ↔
      ∃ plan, planShards p (requestSpec model) ((onlineNodes nodes).map NodeInfo.capacity) =
        .ok (.ok plan)) := by
  have hper : 1 ≤ (requestSpec model).vramPerLayerMb :=
    UInt64.le_iff_toNat_le.mpr (regular_requestSpec model).perLayer_pos
  refine ⟨fun plan hplan => ?_, ?_⟩
  · obtain ⟨chosen, hchosen, hcopies⟩ := exists_sublist_of_planShards hper
      (sortByVram_sorted maxMs stats nodes) (buildPlan_eq_some.mp hplan)
    rw [← map_sortedPlaces, List.map_map] at hchosen
    obtain ⟨places, hplaces, rfl⟩ := List.sublist_map_iff.mp hchosen
    have hbefore := (sortedPlaces_pairwise maxMs stats nodes).sublist hplaces
    refine ⟨places, hbefore.imp fun hij heq => ?_, hbefore, fun i hi => ?_, ?_⟩
    · subst heq
      exact Before.irrefl _ hij
    · exact mem_onlinePlaces.mp ((sortBy_perm _ _).mem_iff.mp (hplaces.subset hi))
    · rwa [List.forall₂_map_right_iff] at hcopies
  · -- whether there is a plan does not depend on the order of the nodes
    simp only [buildPlan_eq_some]
    have hperm : ((sortBy (byVram maxMs stats) (onlineNodes nodes)).map NodeInfo.capacity).Perm
        ((onlineNodes nodes).map NodeInfo.capacity) := (sortBy_perm _ _).map _
    rcases (planShards_perm p (requestSpec model) hper _ _ hperm).1 with
      ⟨placements, placements', hleft, hright, -, -, -⟩ | ⟨e, hleft, hright⟩ | ⟨e, -, hleft, hright⟩
    · exact iff_of_true ⟨_, hleft⟩ ⟨_, hright⟩
    · simp [hleft, hright]
    · simp [hleft, hright]

end InferPlatform.Gateway
