import InferPlatform.Planner.Capacity

/-!
# The planner over the natural numbers

The planner adds memories in `u64`, casts a quotient down to `u32` and counts layers in
`u32`. Here the same algorithm runs over the natural numbers, and the two are compared.

* `exactPlanShards` — the algorithm without widths;
* `Visits` — the divisions of a run;
* `MachineExact` — the planner computes what the algorithm does, and no step wraps;
* `machineExact_iff` — **that is so exactly where the inputs fit the widths**.
-/

namespace InferPlatform.Planner

open Checked

/-! ## Without widths -/

structure ExactAssignment where
  nodeId : String
  host : String
  ollamaPort : UInt16
  agentPort : UInt16
  layerStart : Nat
  layerEnd : Nat
  vramRequiredMb : Nat
  deriving DecidableEq, Repr

structure ExactPlan where
  model : String
  totalLayers : Nat
  assignments : List ExactAssignment
  deriving DecidableEq, Repr

inductive ExactError
  | noNodes
  | insufficientVram (needMb haveMb nodeCount : Nat)
  deriving DecidableEq, Repr

/-- The loop of `assignLayers`. -/
def exactAssign (model : ModelSpec) : List NodeCapacity → Nat → Nat → List ExactAssignment × Nat
  | [], layerCursor, _ => ([], layerCursor)
  | node :: rest, layerCursor, contextReserve =>
    if model.totalLayers.toNat ≤ layerCursor then ([], layerCursor)
    else
      let usable := node.availableVramMb.toNat - contextReserve
      if usable < model.vramPerLayerMb.toNat then exactAssign model rest layerCursor 0
      else
        let assigned := min (usable / model.vramPerLayerMb.toNat)
          (model.totalLayers.toNat - layerCursor)
        let (assignments, last) := exactAssign model rest (layerCursor + assigned) 0
        (⟨node.nodeId, node.host, node.ollamaPort, node.agentPort, layerCursor,
          layerCursor + assigned, assigned * model.vramPerLayerMb.toNat⟩ :: assignments, last)

/-- `planShards` over the natural numbers; the sort only compares. -/
def exactPlanShards (model : ModelSpec) (nodes : List NodeCapacity) :
    Except ExactError ExactPlan :=
  if nodes.isEmpty then .error .noNodes
  else if totalVram nodes < model.neededMb then
    .error (.insufficientVram model.neededMb (totalVram nodes) nodes.length)
  else
    let (assignments, layerCursor) :=
      exactAssign model (sortByVram nodes) 0 model.contextVramMb.toNat
    if layerCursor < model.totalLayers.toNat then
      .error (.insufficientVram model.neededMb (totalVram nodes) nodes.length)
    else .ok ⟨model.name, model.totalLayers.toNat, assignments⟩

/-! ## What the planner computes -/

def ShardAssignment.exact (a : ShardAssignment) : ExactAssignment :=
  { nodeId := a.nodeId
    host := a.host
    ollamaPort := a.ollamaPort
    agentPort := a.agentPort
    layerStart := a.layerStart.toNat
    layerEnd := a.layerEnd.toNat
    vramRequiredMb := a.vramRequiredMb.toNat }

def ShardPlan.exact (plan : ShardPlan) : ExactPlan :=
  ⟨plan.model, plan.totalLayers.toNat, plan.assignments.map ShardAssignment.exact⟩

def PlanError.exact : PlanError → ExactError
  | .noNodes => .noNodes
  | .insufficientVram needMb haveMb nodeCount =>
    .insufficientVram needMb.toNat haveMb.toNat nodeCount

/-- A result in natural numbers. -/
def exactResult (result : Except PlanError ShardPlan) : Except ExactError ExactPlan :=
  match result with
  | .error e => .error e.exact
  | .ok plan => .ok plan.exact

/-- The run gets past the check of the sums. -/
def LoopReached (p : Profile) (model : ModelSpec) (nodes : List NodeCapacity) : Prop :=
  ∃ available needed, p.sum64 (nodes.map (·.availableVramMb)) = .ok available ∧
    model.totalVramMb p = .ok needed ∧ needed ≤ available

/-- The loop comes to a node with layers left, and divides what is usable of it. -/
def Visits (p : Profile) (model : ModelSpec) (nodes : List NodeCapacity) (usable : UInt64) : Prop :=
  LoopReached p model nodes ∧ ∃ before node after placements layerCursor,
    sortByVram nodes = before ++ node :: after ∧
    assignLayers p model before 0 model.contextVramMb = .ok (placements, layerCursor) ∧
    layerCursor < model.totalLayers ∧
    usable = saturatingSub64 node.availableVramMb (if before = [] then model.contextVramMb else 0) ∧
    model.vramPerLayerMb ≤ usable

/-- The planner does what the algorithm does over the natural numbers: its two sums are
exact, no cast cuts a quotient, no assignment is empty, and the results are the same.
Without nodes it does not ask what the model needs. -/
structure MachineExact (p : Profile) (model : ModelSpec) (nodes : List NodeCapacity) : Prop where
  sum : ∃ available, p.sum64 (nodes.map (·.availableVramMb)) = .ok available ∧
    available.toNat = totalVram nodes
  needed : nodes ≠ [] → ∃ needed, model.totalVramMb p = .ok needed ∧
    needed.toNat = model.neededMb
  casts : ∀ usable, Visits p model nodes usable →
    (truncate32 (usable / model.vramPerLayerMb)).toNat =
      usable.toNat / model.vramPerLayerMb.toNat
  nonempty : ∀ plan, planShards p model nodes = .ok (.ok plan) →
    ∀ a ∈ plan.assignments, a.layerStart < a.layerEnd
  result : ∃ result, planShards p model nodes = .ok result ∧
    exactResult result = exactPlanShards model nodes

/-- Fewer than `2 ^ 32` layers fit where the loop looks: into a largest node beside the
context, and, unless that one takes all layers, into every other node. -/
def NarrowQuotients (model : ModelSpec) (nodes : List NodeCapacity) : Prop :=
  model.totalLayers = 0 ∨
    (model.layersIn (largestVram nodes - model.contextVramMb.toNat) < 2 ^ 32 ∧
      (model.totalLayers.toNat ≤ model.layersIn (largestVram nodes - model.contextVramMb.toNat) ∨
        nodes.countP (fun node => 2 ^ 32 ≤ model.layersIn node.availableVramMb.toNat) ≤ 1))

/-- The inputs fit the widths of the planner. -/
def FitsWidths (model : ModelSpec) (nodes : List NodeCapacity) : Prop :=
  nodes = [] ∨
    (totalVram nodes < 2 ^ 64 ∧ model.neededMb < 2 ^ 64 ∧
      (totalVram nodes < model.neededMb ∨ NarrowQuotients model nodes))

/-! ## The loop -/

/-- The loop does over the nodes what it does without widths, and pushes no empty range. -/
def ExactRun (model : ModelSpec) (nodes : List NodeCapacity) (layerCursor : UInt32)
    (contextReserve : UInt64) : Prop :=
  ∃ placements last,
    (∀ p, assignLayers p model nodes layerCursor contextReserve = .ok (placements, last)) ∧
    exactAssign model nodes layerCursor.toNat contextReserve.toNat =
      (placements.map (·.assignment.exact), last.toNat) ∧
    ∀ placement ∈ placements, placement.assignment.layerStart < placement.assignment.layerEnd

theorem assignLayers_done (p : Profile) {model : ModelSpec} {layerCursor : UInt32}
    (h : model.totalLayers ≤ layerCursor) (nodes : List NodeCapacity) (contextReserve : UInt64) :
    assignLayers p model nodes layerCursor contextReserve = .ok ([], layerCursor) := by
  cases nodes with
  | nil => rfl
  | cons node rest => rw [assignLayers, if_pos h]

theorem exactRun_done {model : ModelSpec} {layerCursor : UInt32}
    (h : model.totalLayers ≤ layerCursor) (nodes : List NodeCapacity) (contextReserve : UInt64) :
    ExactRun model nodes layerCursor contextReserve := by
  refine ⟨[], layerCursor, fun p => assignLayers_done p h nodes contextReserve, ?_, by simp⟩
  cases nodes with
  | nil => rfl
  | cons node rest =>
      rw [exactAssign, if_pos (UInt32.le_iff_toNat_le.mp h)]
      rfl

/-- A placement of a visit whose quotient the cast keeps. -/
theorem Loaded.exact {model : ModelSpec} {layerCursor : UInt32} {usable : Nat}
    {placement : Placement} (h : Loaded model layerCursor usable placement)
    (hnarrow : model.layersIn usable < 2 ^ 32) :
    placement.assignment.exact =
      let assigned := min (model.layersIn usable) (model.totalLayers.toNat - layerCursor.toNat)
      ⟨placement.node.nodeId, placement.node.host, placement.node.ollamaPort,
        placement.node.agentPort, layerCursor.toNat, layerCursor.toNat + assigned,
        assigned * model.vramPerLayerMb.toNat⟩ := by
  obtain ⟨hid, hhost, hollama, hagent⟩ := h.copies
  have hstop := h.stop_eq
  have hcast : usable / model.vramPerLayerMb.toNat % 2 ^ 32 = model.layersIn usable :=
    Nat.mod_eq_of_lt hnarrow
  rw [hcast] at hstop
  have hvram := h.vram_eq
  rw [hstop, Nat.add_sub_cancel_left] at hvram
  simp only [ShardAssignment.exact, hid, hhost, hollama, hagent, h.start_eq, hstop, hvram]

/-- One visit whose quotient the cast keeps, and what follows it. -/
theorem exactRun_cons {model : ModelSpec} (hper : 1 ≤ model.vramPerLayerMb.toNat)
    {node : NodeCapacity} {rest : List NodeCapacity} {layerCursor : UInt32}
    {contextReserve : UInt64}
    (hnarrow : model.layersIn (node.availableVramMb.toNat - contextReserve.toNat) < 2 ^ 32)
    (hrest : ∀ next : UInt32, next.toNat = layerCursor.toNat +
        min (model.layersIn (node.availableVramMb.toNat - contextReserve.toNat))
          (model.totalLayers.toNat - layerCursor.toNat) → ExactRun model rest next 0) :
    ExactRun model (node :: rest) layerCursor contextReserve := by
  by_cases hdone : model.totalLayers ≤ layerCursor
  · exact exactRun_done hdone _ _
  · have hopen : layerCursor < model.totalLayers := UInt32.not_le.mp hdone
    have hopenNat := UInt32.lt_iff_toNat_lt.mp hopen
    by_cases hfull : saturatingSub64 node.availableVramMb contextReserve < model.vramPerLayerMb
    · have hzero := ModelSpec.layersIn_of_full hfull
      obtain ⟨placements, last, hrun, hexact, hnonempty⟩ := hrest layerCursor (by simp [hzero])
      refine ⟨placements, last, ?_, ?_, hnonempty⟩
      · intro p
        rw [assignLayers_skip p node rest hopen hfull, hrun p]
      · rw [UInt64.lt_iff_toNat_lt, toNat_saturatingSub64] at hfull
        rw [exactAssign, if_neg (by omega), ← hexact]
        exact if_pos hfull
    · have hroom := UInt64.not_lt.mp hfull
      have hpos := ModelSpec.layersIn_of_room hper hroom
      obtain ⟨placement, hnode, hloaded, hstep⟩ := assignLayers_place node rest hper hopen hroom
      have hplaced := hloaded.exact hnarrow
      have hend : placement.assignment.layerEnd.toNat = layerCursor.toNat +
          min (model.layersIn (node.availableVramMb.toNat - contextReserve.toNat))
            (model.totalLayers.toNat - layerCursor.toNat) := congrArg ExactAssignment.layerEnd hplaced
      obtain ⟨placements, last, hrun, hexact, hnonempty⟩ := hrest _ hend
      refine ⟨placement :: placements, last, ?_, ?_, ?_⟩
      · intro p
        rw [hstep p, hrun p]
        rfl
      · rw [UInt64.not_lt, UInt64.le_iff_toNat_le, toNat_saturatingSub64] at hfull
        rw [hend] at hexact
        rw [exactAssign, if_neg (by omega)]
        dsimp only
        rw [if_neg (by omega)]
        show (_ :: (exactAssign model rest (layerCursor.toNat +
          min (model.layersIn (node.availableVramMb.toNat - contextReserve.toNat)) _) 0).1, _) = _
        rw [List.map_cons, hplaced, hnode]
        exact congrArg (fun run : List ExactAssignment × Nat => (_ :: run.1, run.2)) hexact
      · refine List.forall_mem_cons.mpr ⟨?_, hnonempty⟩
        rw [UInt32.lt_iff_toNat_lt, hloaded.start_eq, hend]
        omega

/-- Nodes into which fewer than `2 ^ 32` layers fit, from any cursor and reserve. -/
theorem exactRun_of_narrow {model : ModelSpec} (hper : 1 ≤ model.vramPerLayerMb.toNat)
    (nodes : List NodeCapacity) (layerCursor : UInt32) (contextReserve : UInt64)
    (hcursor : layerCursor.toNat ≤ model.totalLayers.toNat)
    (hnarrow : ∀ node ∈ nodes, model.layersIn node.availableVramMb.toNat < 2 ^ 32) :
    ExactRun model nodes layerCursor contextReserve := by
  induction nodes generalizing layerCursor contextReserve with
  | nil => exact ⟨[], layerCursor, fun _ => rfl, rfl, by simp⟩
  | cons node rest ih =>
      obtain ⟨hnode, hrest⟩ := List.forall_mem_cons.mp hnarrow
      apply exactRun_cons hper
      · exact (model.layersIn_mono (Nat.sub_le _ _)).trans_lt hnode
      · intro next hnext
        exact ih next 0 (by omega) hrest

/-! ## The sorted nodes -/

/-- At most one node is wide exactly where the ones after a largest node are narrow. -/
theorem countP_wide_le_one_iff {model : ModelSpec} {nodes rest : List NodeCapacity}
    {largest : NodeCapacity} (hsort : sortByVram nodes = largest :: rest) :
    nodes.countP (fun node => 2 ^ 32 ≤ model.layersIn node.availableVramMb.toNat) ≤ 1 ↔
      ∀ node ∈ rest, model.layersIn node.availableVramMb.toNat < 2 ^ 32 := by
  have hperm := sortByVram_perm nodes
  have hsorted := sortByVram_pairwise nodes
  rw [hsort] at hperm hsorted
  rw [← hperm.countP_eq, List.countP_cons]
  constructor
  · intro hone node hnode
    by_contra hwide
    have hle := UInt64.le_iff_toNat_le.mp ((List.pairwise_cons.mp hsorted).1 node hnode)
    have hlargest := model.layersIn_mono hle
    have hpos : 0 < rest.countP fun node => 2 ^ 32 ≤ model.layersIn node.availableVramMb.toNat :=
      List.countP_pos_iff.mpr ⟨node, hnode, by simpa using hwide⟩
    rw [if_pos (by simpa using (Nat.le_of_not_lt hwide).trans hlargest)] at hone
    omega
  · intro hnarrow
    have hzero :
        rest.countP (fun node => 2 ^ 32 ≤ model.layersIn node.availableVramMb.toNat) = 0 := by
      rw [List.countP_eq_zero]
      intro node hnode
      simpa using hnarrow node hnode
    rw [hzero]
    split <;> omega

/-- A first node that takes all layers ends the loop. -/
theorem covers_of_first {p : Profile} {model : ModelSpec} (hper : 1 ≤ model.vramPerLayerMb.toNat)
    {node : NodeCapacity} {rest : List NodeCapacity} {placements : List Placement} {last : UInt32}
    (hnarrow : model.layersIn (node.availableVramMb.toNat - model.contextVramMb.toNat) < 2 ^ 32)
    (hall : model.totalLayers.toNat ≤
      model.layersIn (node.availableVramMb.toNat - model.contextVramMb.toNat))
    (hrun : assignLayers p model (node :: rest) 0 model.contextVramMb = .ok (placements, last)) :
    model.totalLayers ≤ last := by
  by_cases hdone : model.totalLayers ≤ 0
  · rw [assignLayers_done p hdone] at hrun
    cases hrun
    exact hdone
  · have hopen : 0 < model.totalLayers := UInt32.not_le.mp hdone
    have hroom : model.vramPerLayerMb ≤
        saturatingSub64 node.availableVramMb model.contextVramMb := by
      by_contra hfull
      rw [ModelSpec.layersIn_of_full (UInt64.not_le.mp hfull)] at hall
      exact hdone (UInt32.le_iff_toNat_le.mpr hall)
    obtain ⟨placement, -, hloaded, hstep⟩ := assignLayers_place node rest hper hopen hroom
    have hend : placement.assignment.layerEnd.toNat = model.totalLayers.toNat := by
      have hexact : placement.assignment.layerEnd.toNat = _ :=
        congrArg ExactAssignment.layerEnd (hloaded.exact hnarrow)
      simpa [hall] using hexact
    have hcovered : model.totalLayers ≤ placement.assignment.layerEnd :=
      UInt32.le_iff_toNat_le.mpr hend.ge
    rw [hstep p, assignLayers_done p hcovered] at hrun
    cases hrun
    exact hcovered

/-- The cursor after one visit. -/
theorem exactAssign_singleton_le (model : ModelSpec) (node : NodeCapacity) (contextReserve : Nat) :
    (exactAssign model [node] 0 contextReserve).2 ≤
      model.layersIn (node.availableVramMb.toNat - contextReserve) := by
  simp only [exactAssign]
  split
  · exact Nat.zero_le _
  · split
    · exact Nat.zero_le _
    · rw [Nat.zero_add]
      exact Nat.min_le_left _ _

/-- Narrow quotients make the whole run exact. -/
theorem NarrowQuotients.exactRun {model : ModelSpec} {nodes : List NodeCapacity}
    (h : NarrowQuotients model nodes) (hper : 1 ≤ model.vramPerLayerMb.toNat) :
    ExactRun model (sortByVram nodes) 0 model.contextVramMb := by
  rcases h with hzero | ⟨hfirst, hothers⟩
  · exact exactRun_done (by rw [hzero]; exact UInt32.le_refl 0) _ _
  · cases hsort : sortByVram nodes with
    | nil => exact exactRun_of_narrow hper [] 0 _ (Nat.zero_le _) (by simp)
    | cons largest rest =>
        rw [largestVram_of_sortByVram hsort] at hfirst hothers
        apply exactRun_cons hper hfirst
        intro next hnext
        rcases hothers with hall | hone
        · -- the first node takes all layers
          apply exactRun_done
          rw [UInt32.le_iff_toNat_le, hnext, UInt32.toNat_zero]
          omega
        · refine exactRun_of_narrow hper rest next 0 ?_ ((countP_wide_le_one_iff hsort).mp hone)
          rw [hnext, UInt32.toNat_zero]
          omega

/-- Narrow quotients are those of every visit. -/
theorem NarrowQuotients.visits {p : Profile} {model : ModelSpec} {nodes : List NodeCapacity}
    (h : NarrowQuotients model nodes) (hper : 1 ≤ model.vramPerLayerMb.toNat) {usable : UInt64}
    (hvisit : Visits p model nodes usable) : model.layersIn usable.toNat < 2 ^ 32 := by
  obtain ⟨-, before, node, after, placements, layerCursor, hsort, hrun, hopen, rfl, -⟩ := hvisit
  rcases h with hzero | ⟨hfirst, hothers⟩
  · rw [hzero] at hopen
    exact absurd (UInt32.lt_iff_toNat_lt.mp hopen) (Nat.not_lt_zero _)
  · rw [toNat_saturatingSub64]
    cases before with
    | nil =>
        rw [largestVram_of_sortByVram hsort] at hfirst
        exact hfirst
    | cons largest before =>
        rw [largestVram_of_sortByVram hsort] at hfirst hothers
        rcases hothers with hall | hone
        · have hcovered := covers_of_first hper hfirst hall hrun
          exact absurd hopen (UInt32.not_lt.mpr hcovered)
        · rw [if_neg (List.cons_ne_nil _ _)]
          apply (model.layersIn_mono (Nat.sub_le _ _)).trans_lt
          exact (countP_wide_le_one_iff hsort).mp hone node (by simp)

/-- A node with room for so many layers has room for one. -/
theorem vramPerLayerMb_le_of_wide {model : ModelSpec} {available contextReserve : UInt64}
    (h : ¬ model.layersIn (saturatingSub64 available contextReserve).toNat < 2 ^ 32) :
    model.vramPerLayerMb ≤ saturatingSub64 available contextReserve := by
  by_contra hfull
  rw [toNat_saturatingSub64, ModelSpec.layersIn_of_full (UInt64.not_le.mp hfull)] at h
  exact h (by decide)

/-- The first of the nodes after a largest one is the largest of them. -/
theorem layersIn_le_second {model : ModelSpec} {nodes tail : List NodeCapacity}
    {largest second : NodeCapacity} (hsort : sortByVram nodes = largest :: second :: tail) :
    ∀ node ∈ second :: tail,
      model.layersIn node.availableVramMb.toNat ≤ model.layersIn second.availableVramMb.toNat := by
  have hsorted := sortByVram_pairwise nodes
  rw [hsort] at hsorted
  intro node hnode
  apply model.layersIn_mono
  rcases List.mem_cons.mp hnode with rfl | hnode
  · exact Nat.le_refl _
  · exact UInt64.le_iff_toNat_le.mp
      ((List.pairwise_cons.mp (List.pairwise_cons.mp hsorted).2).1 node hnode)

/-- A loop that is reached and whose casts all keep their quotients has narrow ones. -/
theorem narrowQuotients_of_casts {p : Profile} {model : ModelSpec} {nodes : List NodeCapacity}
    (hper : 1 ≤ model.vramPerLayerMb.toNat) (hne : nodes ≠ []) (hreached : LoopReached p model nodes)
    (hcasts : ∀ usable, Visits p model nodes usable → model.layersIn usable.toNat < 2 ^ 32) :
    NarrowQuotients model nodes := by
  by_cases hzero : model.totalLayers = 0
  · exact .inl hzero
  · have hopen : 0 < model.totalLayers := UInt32.pos_iff_ne_zero.mpr hzero
    cases hsort : sortByVram nodes with
    | nil => exact absurd ((hsort ▸ sortByVram_perm nodes).nil_eq.symm) hne
    | cons largest rest =>
        have hfirst : model.layersIn
            (largest.availableVramMb.toNat - model.contextVramMb.toNat) < 2 ^ 32 := by
          by_contra hwide
          rw [← toNat_saturatingSub64] at hwide
          exact hwide (hcasts _ ⟨hreached, [], largest, rest, [], 0, hsort, rfl, hopen, rfl,
            vramPerLayerMb_le_of_wide hwide⟩)
        rw [NarrowQuotients, largestVram_of_sortByVram hsort, countP_wide_le_one_iff hsort]
        refine .inr ⟨hfirst, ?_⟩
        by_contra hothers
        rw [not_or, Nat.not_le] at hothers
        obtain ⟨hlayers, hwide⟩ := hothers
        cases rest with
        | nil => exact hwide (by simp)
        | cons second tail =>
            -- the second node is visited, and it is the largest of the rest
            have hone : ExactRun model [largest] 0 model.contextVramMb :=
              exactRun_cons hper hfirst fun next _ => ⟨[], next, fun _ => rfl, rfl, by simp⟩
            obtain ⟨placements, last, hrun, hexact, -⟩ := hone
            have hlast := exactAssign_singleton_le model largest model.contextVramMb.toNat
            rw [UInt32.toNat_zero] at hexact
            rw [hexact] at hlast
            have hsecond :
                model.layersIn (saturatingSub64 second.availableVramMb 0).toNat < 2 ^ 32 := by
              by_contra hwide
              exact hwide (hcasts _ ⟨hreached, [largest], second, tail, placements, last, hsort,
                hrun p, UInt32.lt_iff_toNat_lt.mpr (hlast.trans_lt hlayers), rfl,
                vramPerLayerMb_le_of_wide hwide⟩)
            rw [toNat_saturatingSub64] at hsecond
            exact hwide fun node hnode => (layersIn_le_second hsort node hnode).trans_lt hsecond

/-! ## The comparison -/

/-- A sum is exact if and only if it fits. -/
theorem sum64_exact_iff (p : Profile) (nodes : List NodeCapacity) :
    (∃ available, p.sum64 (nodes.map (·.availableVramMb)) = .ok available ∧
      available.toNat = totalVram nodes) ↔ totalVram nodes < 2 ^ 64 := by
  constructor
  · rintro ⟨available, -, hexact⟩
    rw [← hexact]
    exact available.toNat_lt
  · intro hfits
    have hsum : ((nodes.map (·.availableVramMb)).map UInt64.toNat).sum < 2 ^ 64 := by
      rwa [List.map_map]
    obtain ⟨available, havailable, hexact⟩ := p.sum64_of_lt hsum
    rw [List.map_map] at hexact
    exact ⟨available, havailable, hexact⟩

theorem totalVramMb_exact_iff (p : Profile) (model : ModelSpec) :
    (∃ needed, model.totalVramMb p = .ok needed ∧ needed.toNat = model.neededMb) ↔
      model.neededMb < 2 ^ 64 := by
  constructor
  · rintro ⟨needed, -, hexact⟩
    rw [← hexact]
    exact needed.toNat_lt
  · exact ModelSpec.totalVramMb_of_lt p

/-- The cast keeps a quotient if and only if it is narrow. -/
theorem truncate32_exact_iff {model : ModelSpec} (usable : UInt64) :
    (truncate32 (usable / model.vramPerLayerMb)).toNat =
      usable.toNat / model.vramPerLayerMb.toNat ↔ model.layersIn usable.toNat < 2 ^ 32 := by
  rw [toNat_truncate32, UInt64.toNat_div]
  exact Nat.mod_eq_iff_lt (by decide)

/-- Where the sums are exact and too small, the planner fails like the algorithm. -/
theorem planShards_exact_of_low {p : Profile} {model : ModelSpec} {nodes : List NodeCapacity}
    (hper : 1 ≤ model.vramPerLayerMb.toNat) (hne : nodes ≠ []) {available needed : UInt64}
    (havailable : p.sum64 (nodes.map (·.availableVramMb)) = .ok available)
    (havailableNat : available.toNat = totalVram nodes)
    (hneeded : model.totalVramMb p = .ok needed) (hneededNat : needed.toNat = model.neededMb)
    (hlow : totalVram nodes < model.neededMb) :
    ∃ e, planShards p model nodes = .ok (.error e) ∧
      .error e.exact = exactPlanShards model nodes := by
  obtain ⟨placements, last, hrun, -⟩ :=
    assignLayers_spec hper (sortByVram nodes) 0 model.contextVramMb (Nat.zero_le _)
  refine ⟨.insufficientVram needed available nodes.length, ?_, ?_⟩
  · have hlow' : available < needed := by
      rwa [UInt64.lt_iff_toNat_lt, havailableNat, hneededNat]
    rw [planShards, placeShards_eq hne havailable hneeded (hrun p), if_pos (.inl hlow')]
    rfl
  · rw [exactPlanShards, if_neg (by simpa using hne), if_pos hlow, PlanError.exact, havailableNat,
      hneededNat]

/-- Where they are exact and large enough, and so is the run, the planner does what the
algorithm does. -/
theorem planShards_exact_of_enough {p : Profile} {model : ModelSpec} {nodes : List NodeCapacity}
    (hne : nodes ≠ []) {available needed : UInt64}
    (havailable : p.sum64 (nodes.map (·.availableVramMb)) = .ok available)
    (havailableNat : available.toNat = totalVram nodes)
    (hneeded : model.totalVramMb p = .ok needed) (hneededNat : needed.toNat = model.neededMb)
    (henough : ¬ totalVram nodes < model.neededMb)
    (hrun : ExactRun model (sortByVram nodes) 0 model.contextVramMb) :
    ∃ result, planShards p model nodes = .ok result ∧
      exactResult result = exactPlanShards model nodes ∧
      ∀ plan, result = .ok plan → ∀ a ∈ plan.assignments, a.layerStart < a.layerEnd := by
  obtain ⟨placements, last, hrun, hexact, hnonempty⟩ := hrun
  have henough' : ¬ available < needed := by
    rwa [UInt64.lt_iff_toNat_lt, havailableNat, hneededNat]
  rw [UInt32.toNat_zero] at hexact
  have halgorithm : exactPlanShards model nodes =
      if last.toNat < model.totalLayers.toNat then
        .error (.insufficientVram model.neededMb (totalVram nodes) nodes.length)
      else .ok ⟨model.name, model.totalLayers.toNat, placements.map (·.assignment.exact)⟩ := by
    rw [exactPlanShards, if_neg (by simpa using hne), if_neg henough, hexact]
  rw [planShards, placeShards_eq hne havailable hneeded (hrun p), halgorithm]
  by_cases hopen : last < model.totalLayers
  · rw [if_pos (.inr hopen), if_pos (UInt32.lt_iff_toNat_lt.mp hopen)]
    refine ⟨_, rfl, ?_, fun plan hplan => ?_⟩
    · simp only [Except.map, exactResult, PlanError.exact, havailableNat, hneededNat]
    · cases hplan
  · rw [if_neg (not_or.mpr ⟨henough', hopen⟩),
      if_neg (fun h => hopen (UInt32.lt_iff_toNat_lt.mpr h))]
    refine ⟨_, rfl, ?_, fun plan hplan => ?_⟩
    · simp [Except.map, exactResult, ShardPlan.exact, ShardPlan.ofPlacements]
    · injection hplan with hplan
      rw [← hplan]
      exact List.forall_mem_map.mpr hnonempty

/-- Without nodes there is nothing to add up and nothing to place. -/
theorem machineExact_nil (p : Profile) (model : ModelSpec) : MachineExact p model [] := by
  refine ⟨(sum64_exact_iff p []).mpr (by decide), (absurd rfl ·), ?_, ?_, _, rfl, rfl⟩
  · rintro usable ⟨-, before, node, after, -, -, hsort, -⟩
    exact absurd hsort.symm (by simp [sortByVram])
  · intro plan hplan
    cases hplan

theorem needed_le_iff {model : ModelSpec} {nodes : List NodeCapacity} {available needed : UInt64}
    (havailable : available.toNat = totalVram nodes) (hneeded : needed.toNat = model.neededMb) :
    needed ≤ available ↔ ¬ totalVram nodes < model.neededMb := by
  rw [UInt64.le_iff_toNat_le, havailable, hneeded, Nat.not_lt]

theorem MachineExact.fitsWidths {p : Profile} {model : ModelSpec} {nodes : List NodeCapacity}
    (h : MachineExact p model nodes) (hper : 1 ≤ model.vramPerLayerMb.toNat) (hne : nodes ≠ []) :
    FitsWidths model nodes := by
  obtain ⟨available, havailable, havailableNat⟩ := h.sum
  obtain ⟨needed, hneeded, hneededNat⟩ := h.needed hne
  refine .inr ⟨(sum64_exact_iff p nodes).mp h.sum,
    (totalVramMb_exact_iff p model).mp (h.needed hne), ?_⟩
  by_cases hsums : totalVram nodes < model.neededMb
  · exact .inl hsums
  · right
    have hreached : LoopReached p model nodes :=
      ⟨available, needed, havailable, hneeded, (needed_le_iff havailableNat hneededNat).mpr hsums⟩
    apply narrowQuotients_of_casts hper hne hreached
    intro usable hvisit
    exact (truncate32_exact_iff usable).mp (h.casts usable hvisit)

theorem FitsWidths.machineExact {model : ModelSpec} {nodes : List NodeCapacity}
    (h : FitsWidths model nodes) (hper : 1 ≤ model.vramPerLayerMb.toNat) (hne : nodes ≠ [])
    (p : Profile) : MachineExact p model nodes := by
  obtain ⟨hsum, hneeded, hquotients⟩ := h.resolve_left hne
  obtain ⟨available, havailable, havailableNat⟩ := (sum64_exact_iff p nodes).mpr hsum
  obtain ⟨needed, hneeded, hneededNat⟩ := (totalVramMb_exact_iff p model).mpr hneeded
  by_cases hsums : totalVram nodes < model.neededMb
  · -- the planner returns before the loop
    have hunvisited : ∀ usable, ¬ Visits p model nodes usable := by
      rintro usable ⟨⟨available', needed', havailable', hneeded', hle⟩, -⟩
      cases havailable.symm.trans havailable'
      cases hneeded.symm.trans hneeded'
      exact (needed_le_iff havailableNat hneededNat).mp hle hsums
    obtain ⟨e, hplan, hexact⟩ := planShards_exact_of_low hper hne havailable havailableNat
      hneeded hneededNat hsums
    refine ⟨⟨available, havailable, havailableNat⟩, fun _ => ⟨needed, hneeded, hneededNat⟩,
      fun usable hvisit => absurd hvisit (hunvisited usable), ?_, .error e, hplan, hexact⟩
    intro plan hplan'
    rw [hplan] at hplan'
    cases hplan'
  · have hnarrow := hquotients.resolve_left hsums
    obtain ⟨result, hplan, hexact, hnonempty⟩ := planShards_exact_of_enough hne havailable
      havailableNat hneeded hneededNat hsums (hnarrow.exactRun hper)
    refine ⟨⟨available, havailable, havailableNat⟩, fun _ => ⟨needed, hneeded, hneededNat⟩,
      fun usable hvisit => ?_, ?_, result, hplan, hexact⟩
    · exact (truncate32_exact_iff usable).mpr (hnarrow.visits hper hvisit)
    · intro plan hplan'
      rw [hplan] at hplan'
      injection hplan' with hplan'
      exact hnonempty plan hplan'

/-- **Machine arithmetic changes nothing exactly where the inputs fit its widths.** -/
theorem machineExact_iff (p : Profile) (model : ModelSpec) (nodes : List NodeCapacity)
    (hper : 1 ≤ model.vramPerLayerMb) : MachineExact p model nodes ↔ FitsWidths model nodes := by
  have hper' : 1 ≤ model.vramPerLayerMb.toNat := UInt64.le_iff_toNat_le.mp hper
  by_cases hne : nodes = []
  · subst hne
    exact iff_of_true (machineExact_nil p model) (.inl rfl)
  · exact ⟨fun h => h.fitsWidths hper' hne, fun h => h.machineExact hper' hne p⟩

/-- A node into which `2 ^ 32` layers of a 3b model fit gets none of them, and the memories
of two nodes of `2 ^ 63` MB add up to nothing. -/
theorem not_machineExact_large :
    let model : ModelSpec := ⟨"llama3.2:3b", 28, 70, 200⟩
    let wide : List NodeCapacity := [⟨"gpu0", "gpu0.local", 11434, 8181, 300647710920⟩]
    let two : List NodeCapacity := [⟨"gpu0", "gpu0.local", 11434, 8181, 9223372036854775808⟩,
      ⟨"gpu1", "gpu1.local", 11434, 8181, 9223372036854775808⟩]
    planShards .release model wide = .ok (.error (.insufficientVram 2160 300647710920 1)) ∧
      planShards .release model two = .ok (.error (.insufficientVram 2160 0 2)) ∧
      planShards .dev model two = .error .overflow ∧
      ¬ MachineExact .release model wide ∧ ∀ p, ¬ MachineExact p model two := by
  intro model wide two
  have hwide : planShards .release model wide =
      .ok (.error (.insufficientVram 2160 300647710920 1)) := by decide
  have hexact : exactPlanShards model wide =
      .ok ⟨"llama3.2:3b", 28, [⟨"gpu0", "gpu0.local", 11434, 8181, 0, 28, 1960⟩]⟩ := by decide
  refine ⟨hwide, by decide, by decide, ?_, ?_⟩
  · intro h
    obtain ⟨result, hplan, hresult⟩ := h.result
    rw [hwide] at hplan
    cases hplan
    rw [hexact] at hresult
    cases hresult
  · intro p h
    have hsum := (sum64_exact_iff p two).mp h.sum
    exact absurd hsum (by decide)

/-- Two nodes of 24 GB. -/
theorem machineExact_iff_two_gpus :
    let model : ModelSpec := ⟨"llama3.1:70b", 80, 480, 2048⟩
    let nodes : List NodeCapacity :=
      [⟨"gpu0", "gpu0.local", 11434, 8181, 24576⟩, ⟨"gpu1", "gpu1.local", 11434, 8181, 24576⟩]
    MachineExact .release model nodes ↔ FitsWidths model nodes :=
  machineExact_iff .release ⟨"llama3.1:70b", 80, 480, 2048⟩ _ (by decide)

end InferPlatform.Planner
