import InferPlatform.Base.Checked
import Mathlib.Data.List.Sort

/-!
# The shard planner

The greedy layer planner of `shard-planner`: sort the nodes by VRAM, largest
first, walk them with a layer cursor, and reserve the context overhead on the
first node walked. Every integer operation carries the build profile, so a
panic of the planning thread is a value of the model and not an assumption.

* `ModelSpec`, `NodeCapacity`, `ShardAssignment`, `ShardPlan` — the data of
  the crate, field for field;
* `assignLayers` — the assignment loop, from any cursor and reserve;
* `planShards` — the whole planner with its two VRAM checks.
-/

namespace InferPlatform.Planner

open Checked

/-- Per-model metadata needed to plan a shard assignment. -/
structure ModelSpec where
  name : String
  totalLayers : UInt32
  vramPerLayerMb : UInt64
  contextVramMb : UInt64
  deriving DecidableEq, Repr

/-- VRAM capacity and address of a single compute node. -/
structure NodeCapacity where
  nodeId : String
  host : String
  ollamaPort : UInt16
  agentPort : UInt16
  availableVramMb : UInt64
  deriving DecidableEq, Repr

/-- Which layers `[layerStart, layerEnd)` a node runs and how to reach it. -/
structure ShardAssignment where
  nodeId : String
  host : String
  ollamaPort : UInt16
  agentPort : UInt16
  layerStart : UInt32
  layerEnd : UInt32
  vramRequiredMb : UInt64
  deriving DecidableEq, Repr

structure ShardPlan where
  model : String
  totalLayers : UInt32
  assignments : List ShardAssignment
  deriving DecidableEq, Repr

inductive PlanError
  | noNodes
  | insufficientVram (needMb haveMb : UInt64) (nodeCount : Nat)
  deriving DecidableEq, Repr

/-- `layer_end - layer_start`. -/
def ShardAssignment.layerCount (p : Profile) (a : ShardAssignment) : Except Panic UInt32 :=
  p.sub32 a.layerEnd a.layerStart

def ShardAssignment.ollamaBaseUrl (a : ShardAssignment) : String :=
  s!"http://{a.host}:{a.ollamaPort.toNat}"

def ShardAssignment.agentBaseUrl (a : ShardAssignment) : String :=
  s!"http://{a.host}:{a.agentPort.toNat}"

def ShardPlan.isSingleNode (plan : ShardPlan) : Bool :=
  plan.assignments.length == 1

/-- `&self.assignments[0]`: a plan without assignments panics here. -/
def ShardPlan.controller (plan : ShardPlan) : Except Panic ShardAssignment :=
  match plan.assignments with
  | [] => .error .outOfBounds
  | first :: _ => .ok first

/-- `total_layers * vram_per_layer_mb + context_vram_mb` in `u64`. -/
def ModelSpec.totalVramMb (p : Profile) (model : ModelSpec) : Except Panic UInt64 := do
  let weights ← p.mul64 model.totalLayers.toUInt64 model.vramPerLayerMb
  p.add64 weights model.contextVramMb

/-- The stable descending sort by VRAM (`sort_by_key` on `Reverse`). -/
def sortByVram (nodes : List NodeCapacity) : List NodeCapacity :=
  nodes.insertionSort fun a b => b.availableVramMb ≤ a.availableVramMb

/-- An assignment together with the node the loop was visiting when it pushed
it. The source keeps the assignment only; `planShards` forgets the node. -/
structure Placement where
  node : NodeCapacity
  assignment : ShardAssignment
  deriving DecidableEq, Repr

/-- What one visit that has room pushes: `assigned` layers from the cursor on. -/
def placeLayers (p : Profile) (model : ModelSpec) (node : NodeCapacity)
    (layerCursor : UInt32) (usable : UInt64) : Except Panic (Placement × UInt32) := do
  let quotient ← div64 usable model.vramPerLayerMb
  -- the quotient is cast to `u32`, whatever its size
  let maxLayers := truncate32 quotient
  let remaining ← p.sub32 model.totalLayers layerCursor
  let assigned := min32 maxLayers remaining
  let layerEnd ← p.add32 layerCursor assigned
  let vramRequiredMb ← p.mul64 assigned.toUInt64 model.vramPerLayerMb
  return (⟨node,
    { nodeId := node.nodeId
      host := node.host
      ollamaPort := node.ollamaPort
      agentPort := node.agentPort
      layerStart := layerCursor
      layerEnd
      vramRequiredMb }⟩, layerEnd)

/-- The assignment loop over the sorted nodes: what it pushes and the cursor it
ends with. The reserve is cleared by the first visit, whether or not that node
receives a layer. -/
def assignLayers (p : Profile) (model : ModelSpec) :
    List NodeCapacity → UInt32 → UInt64 → Except Panic (List Placement × UInt32)
  | [], layerCursor, _ => .ok ([], layerCursor)
  | node :: rest, layerCursor, contextReserve =>
    if model.totalLayers ≤ layerCursor then
      .ok ([], layerCursor)
    else
      let usable := saturatingSub64 node.availableVramMb contextReserve
      if usable < model.vramPerLayerMb then
        -- no layer fits: the node is skipped, and the reserve is cleared all the same
        assignLayers p model rest layerCursor 0
      else do
        let (placement, next) ← placeLayers p model node layerCursor usable
        let (placements, last) ← assignLayers p model rest next 0
        return (placement :: placements, last)

/-- `plan_shards` with the nodes of the assignments still attached. -/
def placeShards (p : Profile) (model : ModelSpec) (nodes : List NodeCapacity) :
    Except Panic (Except PlanError (List Placement)) :=
  if nodes.isEmpty then
    .ok (.error .noNodes)
  else do
    let totalAvailable ← p.sum64 (nodes.map (·.availableVramMb))
    let totalNeeded ← model.totalVramMb p
    -- room that is too small for a layer counts here
    if totalAvailable < totalNeeded then
      return .error (.insufficientVram totalNeeded totalAvailable nodes.length)
    let (placements, layerCursor) ←
      assignLayers p model (sortByVram nodes) 0 model.contextVramMb
    if layerCursor < model.totalLayers then
      return .error (.insufficientVram totalNeeded totalAvailable nodes.length)
    return .ok placements

/-- The plan made of the placements, with their nodes forgotten. -/
def ShardPlan.ofPlacements (model : ModelSpec) (placements : List Placement) : ShardPlan :=
  { model := model.name
    totalLayers := model.totalLayers
    assignments := placements.map Placement.assignment }

/-- Greedy layer-assignment planner: the outer `Except` is the panic of the
planning thread, the inner one the `Result` the source returns. -/
def planShards (p : Profile) (model : ModelSpec) (nodes : List NodeCapacity) :
    Except Panic (Except PlanError ShardPlan) := do
  let planned ← placeShards p model nodes
  return planned.map (ShardPlan.ofPlacements model)

/-! ## What an `Ok` plan is made of -/

/-- An `Ok` plan comes from a loop run that covered every layer. -/
theorem placeShards_ok {p : Profile} {model : ModelSpec} {nodes : List NodeCapacity}
    {placements : List Placement} (h : placeShards p model nodes = .ok (.ok placements)) :
    ∃ layerCursor, model.totalLayers ≤ layerCursor ∧
      assignLayers p model (sortByVram nodes) 0 model.contextVramMb =
        .ok (placements, layerCursor) := by
  unfold placeShards at h
  split at h
  · simp at h
  · simp only [bind, Except.bind] at h
    split at h
    · simp at h
    · split at h
      · simp at h
      · split at h
        · simp [pure, Except.pure] at h
        · split at h
          · simp at h
          · rename_i run hrun
            obtain ⟨found, layerCursor⟩ := run
            by_cases hlt : layerCursor < model.totalLayers
            · simp [pure, Except.pure, hlt] at h
            · simp only [pure, Except.pure, if_neg hlt, Except.ok.injEq] at h
              subst h
              exact ⟨layerCursor, UInt32.not_lt.mp hlt, hrun⟩

theorem planShards_ok {p : Profile} {model : ModelSpec} {nodes : List NodeCapacity}
    {plan : ShardPlan} (h : planShards p model nodes = .ok (.ok plan)) :
    ∃ placements, placeShards p model nodes = .ok (.ok placements) ∧
      plan = ShardPlan.ofPlacements model placements := by
  unfold planShards at h
  cases hplaced : placeShards p model nodes with
  | error panic => simp [hplaced, bind, Except.bind] at h
  | ok planned =>
      cases planned with
      | error e => simp [hplaced, bind, Except.bind, pure, Except.pure, Except.map] at h
      | ok placements =>
          simp only [hplaced, bind, Except.bind, pure, Except.pure, Except.map,
            Except.ok.injEq] at h
          exact ⟨placements, rfl, h.symm⟩

/-! ## The sort -/

theorem sortByVram_perm (nodes : List NodeCapacity) : (sortByVram nodes).Perm nodes :=
  List.perm_insertionSort _ nodes

theorem sortByVram_pairwise (nodes : List NodeCapacity) :
    (sortByVram nodes).Pairwise fun a b => b.availableVramMb ≤ a.availableVramMb := by
  have : Std.Total fun a b : NodeCapacity => b.availableVramMb ≤ a.availableVramMb :=
    ⟨fun a b => UInt64.le_total b.availableVramMb a.availableVramMb⟩
  have : IsTrans NodeCapacity fun a b => b.availableVramMb ≤ a.availableVramMb :=
    ⟨fun _ _ _ hab hbc => UInt64.le_trans hbc hab⟩
  exact List.pairwise_insertionSort _ nodes

end InferPlatform.Planner
