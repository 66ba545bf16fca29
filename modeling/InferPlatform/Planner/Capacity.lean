import InferPlatform.Base.Greedy
import InferPlatform.Planner.Controller
import InferPlatform.Planner.Solo

/-!
# What the planner has room for

The two checks of the planner measure different things: the first one adds up
megabytes, the second one whole layers, of which every node may leave a remainder.

* `layerRooms` — the whole layers that each visit of the loop has room for;
* `assignLayers_fill` — **the loop is greedy filling**;
* `truthful_iff` — an `InsufficientVram` error is truthful exactly where megabytes or
  whole layers decide alike;
* `planShards_grown` — more nodes and more memory never turn a plan into an error.
-/

namespace InferPlatform.Planner

open Checked Greedy

/-- The whole layers that fit into so much memory. -/
def ModelSpec.layersIn (model : ModelSpec) (usable : Nat) : Nat :=
  usable / model.vramPerLayerMb.toNat

theorem ModelSpec.layersIn_of_full {model : ModelSpec} {available contextReserve : UInt64}
    (hfull : saturatingSub64 available contextReserve < model.vramPerLayerMb) :
    model.layersIn (available.toNat - contextReserve.toNat) = 0 := by
  rw [UInt64.lt_iff_toNat_lt, toNat_saturatingSub64] at hfull
  exact Nat.div_eq_of_lt hfull

theorem ModelSpec.layersIn_of_room {model : ModelSpec} (hper : 1 ≤ model.vramPerLayerMb.toNat)
    {available contextReserve : UInt64}
    (hroom : model.vramPerLayerMb ≤ saturatingSub64 available contextReserve) :
    model.layersIn (available.toNat - contextReserve.toNat) ≠ 0 := by
  rw [UInt64.le_iff_toNat_le, toNat_saturatingSub64] at hroom
  exact Nat.pos_iff_ne_zero.mp (Nat.div_pos hroom hper)

/-- What each visit has room for. The reserve is taken from the first one. -/
def layerRooms (model : ModelSpec) : List NodeCapacity → UInt64 → List Nat
  | [], _ => []
  | node :: rest, contextReserve =>
    model.layersIn (node.availableVramMb.toNat - contextReserve.toNat) ::
      rest.map fun other => model.layersIn other.availableVramMb.toNat

theorem layerRooms_zero (model : ModelSpec) (nodes : List NodeCapacity) :
    layerRooms model nodes 0 = nodes.map fun node => model.layersIn node.availableVramMb.toNat := by
  cases nodes <;> simp [layerRooms]

def Placement.layers (placement : Placement) : Nat :=
  placement.assignment.layerEnd.toNat - placement.assignment.layerStart.toNat

/-- A visit with less than 4 PiB, whose quotient the cast to `u32` keeps. -/
theorem Loaded.layers_eq {model : ModelSpec} {layerCursor : UInt32} {usable : Nat}
    {placement : Placement} (h : Loaded model layerCursor usable placement)
    (husable : usable < 2 ^ 32) :
    placement.layers = min (model.layersIn usable) (model.totalLayers.toNat - layerCursor.toNat) ∧
      placement.assignment.layerEnd.toNat = layerCursor.toNat + placement.layers := by
  have hcast : usable / model.vramPerLayerMb.toNat % 2 ^ 32 = model.layersIn usable :=
    Nat.mod_eq_of_lt ((Nat.div_le_self _ _).trans_lt husable)
  have hstop := h.stop_eq
  rw [hcast] at hstop
  have hlayers : placement.layers =
      min (model.layersIn usable) (model.totalLayers.toNat - layerCursor.toNat) := by
    rw [Placement.layers, h.start_eq, hstop, Nat.add_sub_cancel_left]
  exact ⟨hlayers, by rw [hlayers, hstop]⟩

/-- **The loop is greedy filling** of the layers that are left. Induction over the nodes
left to visit; cursor and reserve are general because each visit changes both. -/
theorem assignLayers_fill {model : ModelSpec} (hper : 1 ≤ model.vramPerLayerMb.toNat) :
    ∀ (nodes : List NodeCapacity) (layerCursor : UInt32) (contextReserve : UInt64),
    (∀ node ∈ nodes, node.availableVramMb.toNat < 2 ^ 32) →
    layerCursor.toNat ≤ model.totalLayers.toNat →
    ∃ placements last,
      (∀ p, assignLayers p model nodes layerCursor contextReserve = .ok (placements, last)) ∧
      placements.map Placement.layers = fill (layerRooms model nodes contextReserve)
        (model.totalLayers.toNat - layerCursor.toNat) ∧
      last.toNat = layerCursor.toNat + (placements.map Placement.layers).sum := by
  intro nodes
  induction nodes with
  | nil =>
      intro layerCursor contextReserve _ _
      exact ⟨[], layerCursor, fun _ => rfl, rfl, rfl⟩
  | cons node rest ih =>
      intro layerCursor contextReserve hvram hcursor
      obtain ⟨hnode, hrest⟩ := List.forall_mem_cons.mp hvram
      by_cases hdone : model.totalLayers ≤ layerCursor
      · have hzero : model.totalLayers.toNat - layerCursor.toNat = 0 :=
          Nat.sub_eq_zero_of_le (UInt32.le_iff_toNat_le.mp hdone)
        refine ⟨[], layerCursor, fun p => by rw [assignLayers, if_pos hdone], ?_, rfl⟩
        rw [hzero, fill_zero]
        rfl
      · have hopen : layerCursor < model.totalLayers := UInt32.not_le.mp hdone
        have hleft : ¬ model.totalLayers.toNat - layerCursor.toNat = 0 :=
          Nat.sub_ne_zero_of_lt (UInt32.lt_iff_toNat_lt.mp hopen)
        rw [layerRooms, fill, if_neg hleft]
        by_cases hfull :
            saturatingSub64 node.availableVramMb contextReserve < model.vramPerLayerMb
        · -- no layer fits, and the place takes no part
          obtain ⟨placements, last, hrun, hlayers, hlast⟩ := ih layerCursor 0 hrest hcursor
          refine ⟨placements, last, ?_, ?_, hlast⟩
          · intro p
            rw [assignLayers_skip p node rest hopen hfull, hrun p]
          · rw [if_pos (ModelSpec.layersIn_of_full hfull), hlayers, layerRooms_zero]
        · have hroom := UInt64.not_lt.mp hfull
          obtain ⟨placement, -, hloaded, hstep⟩ :=
            assignLayers_place node rest hper hopen hroom
          obtain ⟨htaken, hend⟩ := hloaded.layers_eq ((Nat.sub_le _ _).trans_lt hnode)
          obtain ⟨placements, last, hrun, hlayers, hlast⟩ :=
            ih placement.assignment.layerEnd 0 hrest (hloaded.end_le_total hcursor)
          refine ⟨placement :: placements, last, ?_, ?_, ?_⟩
          · intro p
            rw [hstep p, hrun p]
            rfl
          · have hrestLayers : model.totalLayers.toNat - placement.assignment.layerEnd.toNat =
                model.totalLayers.toNat - layerCursor.toNat -
                  model.layersIn (node.availableVramMb.toNat - contextReserve.toNat) := by
              omega
            rw [if_neg (ModelSpec.layersIn_of_room hper hroom), List.map_cons, hlayers,
              layerRooms_zero, hrestLayers, htaken]
          · rw [hlast, List.map_cons, List.sum_cons, hend]
            omega

/-! ## Both checks -/

/-- The memory of all nodes. -/
def totalVram (nodes : List NodeCapacity) : Nat :=
  (nodes.map fun node => node.availableVramMb.toNat).sum

/-- The whole layers that the nodes have room for, with the context on a largest one. -/
def wholeLayers (model : ModelSpec) (nodes : List NodeCapacity) : Nat :=
  model.layersIn (largestVram nodes - model.contextVramMb.toNat) +
    ((nodes.map fun node => model.layersIn node.availableVramMb.toNat).sum -
      model.layersIn (largestVram nodes))

/-- The head of the sorted list is a largest node. -/
theorem largestVram_of_sortByVram {nodes rest : List NodeCapacity} {largest : NodeCapacity}
    (h : sortByVram nodes = largest :: rest) :
    largestVram nodes = largest.availableVramMb.toNat := by
  have hperm := sortByVram_perm nodes
  have hsorted := sortByVram_pairwise nodes
  rw [h] at hperm hsorted
  apply largestVram_eq (hperm.mem_iff.mp List.mem_cons_self)
  intro node hnode
  rcases List.mem_cons.mp (hperm.mem_iff.mpr hnode) with rfl | hnode
  · exact UInt64.le_refl _
  · exact (List.pairwise_cons.mp hsorted).1 node hnode

theorem sum_layerRooms (model : ModelSpec) {nodes : List NodeCapacity} (hne : nodes ≠ []) :
    (layerRooms model (sortByVram nodes) model.contextVramMb).sum = wholeLayers model nodes := by
  have hperm := sortByVram_perm nodes
  cases hlist : sortByVram nodes with
  | nil =>
      rw [hlist] at hperm
      exact absurd hperm.symm.eq_nil hne
  | cons largest rest =>
      have hlargest := largestVram_of_sortByVram hlist
      rw [hlist] at hperm
      have hall := (hperm.map fun node => model.layersIn node.availableVramMb.toNat).sum_eq
      rw [List.map_cons, List.sum_cons] at hall
      rw [layerRooms, List.sum_cons, wholeLayers, hlargest, ← hall, Nat.add_sub_cancel_left]

/-- **The planner decides by megabytes and by whole layers**: it fails where either of them
are too few. -/
theorem placeShards_decides {p : Profile} {model : ModelSpec}
    (hper : 1 ≤ model.vramPerLayerMb.toNat) {nodes : List NodeCapacity} (hne : nodes ≠ [])
    (hvram : ∀ node ∈ nodes, node.availableVramMb.toNat < 2 ^ 32)
    (hsum : totalVram nodes < 2 ^ 64) {needed : UInt64}
    (hneeded : model.totalVramMb p = .ok needed) :
    ∃ available placements, available.toNat = totalVram nodes ∧
      placements.map Placement.layers =
        fill (layerRooms model (sortByVram nodes) model.contextVramMb) model.totalLayers.toNat ∧
      placeShards p model nodes =
        if totalVram nodes < needed.toNat ∨ wholeLayers model nodes < model.totalLayers.toNat then
          .ok (.error (.insufficientVram needed available nodes.length))
        else .ok (.ok placements) := by
  have hsum' : ((nodes.map (·.availableVramMb)).map UInt64.toNat).sum < 2 ^ 64 := by
    rwa [List.map_map]
  obtain ⟨available, havailable, havailableNat⟩ := p.sum64_of_lt hsum'
  rw [List.map_map] at havailableNat
  have hvram' : ∀ node ∈ sortByVram nodes, node.availableVramMb.toNat < 2 ^ 32 :=
    fun node hnode => hvram node ((sortByVram_perm nodes).mem_iff.mp hnode)
  obtain ⟨placements, last, hrun, hlayers, hlast⟩ :=
    assignLayers_fill hper (sortByVram nodes) 0 model.contextVramMb hvram' (Nat.zero_le _)
  rw [UInt32.toNat_zero, Nat.sub_zero] at hlayers
  rw [hlayers, sum_fill, sum_layerRooms model hne, UInt32.toNat_zero, Nat.zero_add] at hlast
  refine ⟨available, placements, havailableNat, hlayers, ?_⟩
  rw [placeShards_eq hne havailable hneeded (hrun p)]
  -- the cursor ends below the last layer where the whole layers do
  have hlow : available < needed ↔ totalVram nodes < needed.toNat := by
    rw [UInt64.lt_iff_toNat_lt, havailableNat]
    rfl
  have hopen : last < model.totalLayers ↔ wholeLayers model nodes < model.totalLayers.toNat := by
    rw [UInt32.lt_iff_toNat_lt, hlast]
    omega
  simp only [hlow, hopen]

theorem planShards_decides {p : Profile} {model : ModelSpec}
    (hper : 1 ≤ model.vramPerLayerMb.toNat) {nodes : List NodeCapacity} (hne : nodes ≠ [])
    (hvram : ∀ node ∈ nodes, node.availableVramMb.toNat < 2 ^ 32)
    (hsum : totalVram nodes < 2 ^ 64) {needed : UInt64}
    (hneeded : model.totalVramMb p = .ok needed) :
    ∃ available plan, available.toNat = totalVram nodes ∧
      plan.assignments.length = (fill (layerRooms model (sortByVram nodes) model.contextVramMb)
        model.totalLayers.toNat).length ∧
      planShards p model nodes =
        if totalVram nodes < needed.toNat ∨ wholeLayers model nodes < model.totalLayers.toNat then
          .ok (.error (.insufficientVram needed available nodes.length))
        else .ok (.ok plan) := by
  obtain ⟨available, placements, havailable, hlayers, hplaced⟩ :=
    placeShards_decides hper hne hvram hsum hneeded
  refine ⟨available, .ofPlacements model placements, havailable, ?_, ?_⟩
  · rw [← hlayers]
    simp [ShardPlan.ofPlacements]
  · rw [planShards, hplaced]
    split <;> rfl

/-! ## Truthful errors -/

/-- The planner says that there is too little memory only where there is less than it
needs. -/
def Truthful (p : Profile) (model : ModelSpec) (nodes : List NodeCapacity) : Prop :=
  ∀ needMb haveMb nodeCount,
    planShards p model nodes = .ok (.error (.insufficientVram needMb haveMb nodeCount)) →
      haveMb < needMb

/-- Once the first check has passed, every layer is placed. -/
def CheckSuffices (p : Profile) (model : ModelSpec) (nodes : List NodeCapacity) : Prop :=
  ∀ needed, model.totalVramMb p = .ok needed → needed.toNat ≤ totalVram nodes →
    ∃ plan, planShards p model nodes = .ok (.ok plan)

/-- The megabytes are too few already, or the whole layers are enough. -/
def ChecksAgree (p : Profile) (model : ModelSpec) (nodes : List NodeCapacity) : Prop :=
  ∀ needed, model.totalVramMb p = .ok needed →
    totalVram nodes < needed.toNat ∨ model.totalLayers.toNat ≤ wholeLayers model nodes

/-- A planner that returns knows what the model needs, and an error reports that. -/
theorem totalVramMb_of_returns {p : Profile} {model : ModelSpec} {nodes : List NodeCapacity}
    {result : Except PlanError ShardPlan} (hne : nodes ≠ [])
    (h : planShards p model nodes = .ok result) :
    ∃ needed, model.totalVramMb p = .ok needed ∧
      ∀ needMb haveMb nodeCount,
        result = .error (.insufficientVram needMb haveMb nodeCount) → needMb = needed := by
  have hisEmpty : nodes.isEmpty = false := by simpa using hne
  unfold planShards placeShards at h
  rw [hisEmpty] at h
  cases hsum : p.sum64 (nodes.map (·.availableVramMb)) with
  | error panic =>
      rw [hsum] at h
      cases h
  | ok available =>
      cases hneeded : model.totalVramMb p with
      | error panic =>
          rw [hsum, hneeded] at h
          cases h
      | ok needed =>
          refine ⟨needed, rfl, ?_⟩
          rintro needMb haveMb nodeCount rfl
          rw [hsum, hneeded] at h
          simp only [bind, Except.bind, pure, Except.pure] at h
          by_cases hlow : available < needed
          · simp only [hlow, if_true] at h
            cases h
            rfl
          · simp only [hlow, if_false] at h
            cases hrun : assignLayers p model (sortByVram nodes) 0 model.contextVramMb with
            | error panic =>
                rw [hrun] at h
                cases h
            | ok run =>
                rw [hrun] at h
                dsimp only at h
                by_cases hopen : run.2 < model.totalLayers
                · rw [if_pos hopen] at h
                  cases h
                  rfl
                · rw [if_neg hopen] at h
                  cases h

/-- **Errors are truthful exactly where the two checks agree**: where the megabytes are
enough and the whole layers are not, the error reports more memory than is needed. -/
theorem truthful_iff (p : Profile) (model : ModelSpec) (nodes : List NodeCapacity)
    (hper : 1 ≤ model.vramPerLayerMb) (hne : nodes ≠ [])
    (hvram : ∀ node ∈ nodes, node.availableVramMb.toNat < 2 ^ 32)
    (hsum : totalVram nodes < 2 ^ 64) :
    (Truthful p model nodes ↔ ChecksAgree p model nodes) ∧
      (CheckSuffices p model nodes ↔ ChecksAgree p model nodes) := by
  have hdecides := fun needed (hneeded : model.totalVramMb p = .ok needed) =>
    planShards_decides (UInt64.le_iff_toNat_le.mp hper) hne hvram hsum hneeded
  refine ⟨⟨?_, ?_⟩, ⟨?_, ?_⟩⟩
  · intro htruthful needed hneeded
    obtain ⟨available, plan, havailable, -, hplan⟩ := hdecides needed hneeded
    by_contra hdisagree
    rw [not_or, Nat.not_lt, Nat.not_le] at hdisagree
    rw [if_pos (.inr hdisagree.2)] at hplan
    have hlow := UInt64.lt_iff_toNat_lt.mp (htruthful needed available nodes.length hplan)
    omega
  · intro hagree needMb haveMb nodeCount herror
    obtain ⟨needed, hneeded, hsame⟩ := totalVramMb_of_returns hne herror
    obtain rfl := hsame needMb haveMb nodeCount rfl
    obtain ⟨available, plan, havailable, -, hplan⟩ := hdecides needMb hneeded
    rw [herror] at hplan
    split at hplan
    · rename_i hfails
      injection hplan with hplan
      injection hplan with hplan
      injection hplan with _ hhave
      rw [hhave, UInt64.lt_iff_toNat_lt, havailable]
      have hcases := hagree needMb hneeded
      omega
    · cases hplan
  · intro hsuffices needed hneeded
    obtain ⟨available, plan, havailable, -, hplan⟩ := hdecides needed hneeded
    by_contra hdisagree
    rw [not_or, Nat.not_lt, Nat.not_le] at hdisagree
    obtain ⟨plan', hplan'⟩ := hsuffices needed hneeded hdisagree.1
    rw [if_pos (.inr hdisagree.2), hplan'] at hplan
    cases hplan
  · intro hagree needed hneeded henough
    obtain ⟨available, plan, -, -, hplan⟩ := hdecides needed hneeded
    have hcases := hagree needed hneeded
    rw [if_neg (by omega)] at hplan
    exact ⟨plan, hplan⟩

/-- Two nodes with just the memory for a 3b model, each of which wastes some of it: the
error says that 2160 MB are needed and 2160 MB are there. -/
theorem not_truthful_two_halves :
    let model : ModelSpec := ⟨"llama3.2:3b", 28, 70, 200⟩
    let nodes : List NodeCapacity :=
      [⟨"gpu0", "gpu0.local", 11434, 8181, 1080⟩, ⟨"gpu1", "gpu1.local", 11434, 8181, 1080⟩]
    planShards .release model nodes = .ok (.error (.insufficientVram 2160 2160 2)) ∧
      ¬ Truthful .release model nodes ∧ ¬ CheckSuffices .release model nodes := by
  intro model nodes
  have herror : planShards .release model nodes =
      .ok (.error (.insufficientVram 2160 2160 2)) := by decide
  refine ⟨herror, ?_, ?_⟩
  · intro htruthful
    exact absurd (htruthful 2160 2160 2 herror) (by decide)
  · intro hsuffices
    obtain ⟨plan, hplan⟩ := hsuffices 2160 (by decide) (by decide)
    rw [herror] at hplan
    cases hplan

/-- With 20 MB more on one of them the checks agree. -/
theorem truthful_iff_two_halves :
    let model : ModelSpec := ⟨"llama3.2:3b", 28, 70, 200⟩
    let nodes : List NodeCapacity :=
      [⟨"gpu0", "gpu0.local", 11434, 8181, 1080⟩, ⟨"gpu1", "gpu1.local", 11434, 8181, 1120⟩]
    Truthful .release model nodes ↔ ChecksAgree .release model nodes :=
  (truthful_iff .release ⟨"llama3.2:3b", 28, 70, 200⟩
    [⟨"gpu0", "gpu0.local", 11434, 8181, 1080⟩, ⟨"gpu1", "gpu1.local", 11434, 8181, 1120⟩]
    (by decide) (by decide) (by decide) (by decide)).1

/-! ## Growth -/

/-- The same node with as much memory or more. -/
def Raised (node node' : NodeCapacity) : Prop :=
  node.availableVramMb ≤ node'.availableVramMb ∧
    node' = { node with availableVramMb := node'.availableVramMb }

/-- The nodes after some were given more memory and others were added, at any places. -/
def Grown (nodes nodes' : List NodeCapacity) : Prop :=
  ∃ raised added, List.Forall₂ Raised nodes raised ∧ nodes'.Perm (raised ++ added)

theorem ModelSpec.layersIn_mono (model : ModelSpec) {a b : Nat} (h : a ≤ b) :
    model.layersIn a ≤ model.layersIn b :=
  Nat.div_le_div_right h

/-- The largest node has room for most layers. -/
theorem largest_layersIn (model : ModelSpec) (nodes : List NodeCapacity) :
    largest (nodes.map fun node => model.layersIn node.availableVramMb.toNat) =
      model.layersIn (largestVram nodes) := by
  induction nodes with
  | nil => simp [largest, largestVram, ModelSpec.layersIn]
  | cons node nodes ih =>
      have hmono : Monotone model.layersIn := fun _ _ => model.layersIn_mono
      show max (model.layersIn node.availableVramMb.toNat) (largest (nodes.map _)) =
        model.layersIn (max node.availableVramMb.toNat (largestVram nodes))
      rw [ih, hmono.map_max]

theorem Grown.sum_add_largest_le {nodes nodes' : List NodeCapacity} (h : Grown nodes nodes')
    {f : Nat → Nat} (hf : Monotone f) :
    (nodes.map fun node => f node.availableVramMb.toNat).sum +
        largest (nodes'.map fun node => f node.availableVramMb.toNat) ≤
      (nodes'.map fun node => f node.availableVramMb.toNat).sum +
        largest (nodes.map fun node => f node.availableVramMb.toNat) := by
  obtain ⟨raised, added, hraised, hperm⟩ := h
  have hperm' := hperm.map fun node => f node.availableVramMb.toNat
  rw [List.map_append] at hperm'
  apply Greedy.sum_add_largest_le _ hperm'
  rw [List.forall₂_map_left_iff, List.forall₂_map_right_iff]
  exact hraised.imp fun node node' hnode => hf (UInt64.le_iff_toNat_le.mp hnode.1)

/-- Every node is still there, with as much memory or more. -/
theorem Grown.exists_raised {nodes nodes' : List NodeCapacity} (h : Grown nodes nodes')
    {node : NodeCapacity} (hnode : node ∈ nodes) :
    ∃ node' ∈ nodes', node.availableVramMb.toNat ≤ node'.availableVramMb.toNat := by
  obtain ⟨raised, added, hraised, hperm⟩ := h
  have hmem : ∃ node' ∈ raised, Raised node node' := by
    clear hperm
    induction hraised with
    | nil => cases hnode
    | @cons head head' tail tail' hhead _ ih =>
        rcases List.mem_cons.mp hnode with rfl | hnode
        · exact ⟨head', List.mem_cons_self, hhead⟩
        · obtain ⟨node', hnode', hle⟩ := ih hnode
          exact ⟨node', List.mem_cons_of_mem _ hnode', hle⟩
  obtain ⟨node', hnode', hle, -⟩ := hmem
  exact ⟨node', hperm.mem_iff.mpr (List.mem_append_left _ hnode'), UInt64.le_iff_toNat_le.mp hle⟩

theorem Grown.largestVram_le {nodes nodes' : List NodeCapacity} (h : Grown nodes nodes') :
    largestVram nodes ≤ largestVram nodes' := by
  apply Planner.largestVram_le
  intro node hnode
  obtain ⟨node', hnode', hle⟩ := h.exists_raised hnode
  exact hle.trans (le_largestVram hnode')

theorem Grown.totalVram_le {nodes nodes' : List NodeCapacity} (h : Grown nodes nodes') :
    totalVram nodes ≤ totalVram nodes' := by
  obtain ⟨raised, added, hraised, hperm⟩ := h
  have hsum : totalVram nodes ≤ totalVram raised := by
    apply List.Forall₂.sum_le_sum
    rw [List.forall₂_map_left_iff, List.forall₂_map_right_iff]
    exact hraised.imp fun node node' hnode => UInt64.le_iff_toNat_le.mp hnode.1
  have hall : totalVram nodes' = totalVram raised + totalVram added := by
    rw [totalVram, (hperm.map _).sum_eq, List.map_append, List.sum_append]
    rfl
  omega

/-- **The whole layers grow with the nodes**, although a new largest node takes the context
over: the node that kept it before gets back at least what it lost. -/
theorem Grown.wholeLayers_le (model : ModelSpec) {nodes nodes' : List NodeCapacity}
    (h : Grown nodes nodes') : wholeLayers model nodes ≤ wholeLayers model nodes' := by
  have hsums := h.sum_add_largest_le fun _ _ => model.layersIn_mono
  have hcontext := model.layersIn_mono
    (Nat.sub_le_sub_right h.largestVram_le model.contextVramMb.toNat)
  rw [largest_layersIn, largest_layersIn] at hsums
  unfold wholeLayers
  omega

/-- **More capacity never hurts.** -/
theorem planShards_grown (p : Profile) (model : ModelSpec) (nodes nodes' : List NodeCapacity)
    (hper : 1 ≤ model.vramPerLayerMb) (hgrown : Grown nodes nodes')
    (hvram : ∀ node ∈ nodes', node.availableVramMb.toNat < 2 ^ 32)
    (hsum : totalVram nodes' < 2 ^ 64)
    (hplan : ∃ plan, planShards p model nodes = .ok (.ok plan)) :
    ∃ plan, planShards p model nodes' = .ok (.ok plan) := by
  have hper' : 1 ≤ model.vramPerLayerMb.toNat := UInt64.le_iff_toNat_le.mp hper
  obtain ⟨plan, hplan⟩ := hplan
  have hne : nodes ≠ [] := by
    rintro rfl
    cases hplan
  have hne' : nodes' ≠ [] := by
    rintro rfl
    obtain ⟨node, hnode⟩ := List.exists_mem_of_ne_nil nodes hne
    obtain ⟨node', hnode', -⟩ := hgrown.exists_raised hnode
    cases hnode'
  have hvramOld : ∀ node ∈ nodes, node.availableVramMb.toNat < 2 ^ 32 := by
    intro node hnode
    obtain ⟨node', hnode', hle⟩ := hgrown.exists_raised hnode
    exact hle.trans_lt (hvram node' hnode')
  have hsumOld : totalVram nodes < 2 ^ 64 := hgrown.totalVram_le.trans_lt hsum
  obtain ⟨needed, hneeded, -⟩ := totalVramMb_of_returns hne hplan
  obtain ⟨_, _, -, -, hdecides⟩ := planShards_decides hper' hne hvramOld hsumOld hneeded
  obtain ⟨_, plan', -, -, hdecides'⟩ := planShards_decides hper' hne' hvram hsum hneeded
  rw [hplan] at hdecides
  split at hdecides
  · cases hdecides
  · rename_i henough
    have htotal := hgrown.totalVram_le
    have hwhole := hgrown.wholeLayers_le model
    rw [if_neg (by omega)] at hdecides'
    exact ⟨plan', hdecides'⟩

/-- The other node of a pair becomes the controller when it is raised. -/
theorem planShards_grown_controller :
    let model : ModelSpec := ⟨"llama3.1:70b", 80, 480, 2048⟩
    let nodes : List NodeCapacity :=
      [⟨"gpu0", "gpu0.local", 11434, 8181, 24576⟩, ⟨"gpu1", "gpu1.local", 11434, 8181, 20480⟩]
    let nodes' : List NodeCapacity :=
      [⟨"gpu2", "gpu2.local", 11434, 8181, 1024⟩, ⟨"gpu0", "gpu0.local", 11434, 8181, 24576⟩,
        ⟨"gpu1", "gpu1.local", 11434, 8181, 49152⟩]
    Grown nodes nodes' ∧ ∃ plan, planShards .release model nodes' = .ok (.ok plan) := by
  intro model nodes nodes'
  have hgrown : Grown nodes nodes' := by
    refine ⟨[⟨"gpu0", "gpu0.local", 11434, 8181, 24576⟩, ⟨"gpu1", "gpu1.local", 11434, 8181, 49152⟩],
      [⟨"gpu2", "gpu2.local", 11434, 8181, 1024⟩], ?_, ?_⟩
    · exact .cons ⟨by decide, rfl⟩ (.cons ⟨by decide, rfl⟩ .nil)
    · show List.Perm ([_] ++ [_, _]) _
      exact List.perm_append_comm
  refine ⟨hgrown, planShards_grown .release model nodes nodes' (by decide) hgrown (by decide)
    (by decide) ?_⟩
  exact ⟨⟨"llama3.1:70b", 80,
    [⟨"gpu0", "gpu0.local", 11434, 8181, 0, 46, 22080⟩,
     ⟨"gpu1", "gpu1.local", 11434, 8181, 46, 80, 16320⟩]⟩, by decide⟩

end InferPlatform.Planner
