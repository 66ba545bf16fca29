import InferPlatform.Planner.Plan
import Mathlib.Data.List.NodupEquivFin

/-!
# Every `Ok` plan is sound

The loop invariant of the planner and what it gives for a whole plan. One visit
is described once (`placeLayers_spec`); the loop lemma `assignLayers_spec` is an
induction over the nodes left to visit, generalised over cursor and reserve; the
plan-level facts are read off it at cursor zero.

* `Contiguous` — ranges that follow each other without gap or overlap;
* `Loaded` — a placement that copies its node and fits in its memory;
* `Assigned` — the invariant: what a run of the loop has pushed.
-/

namespace InferPlatform.Planner

open Checked

/-- The ranges, read in order, start at `start`, follow each other and end at
`stop`. -/
def Contiguous (start : UInt32) : List ShardAssignment → UInt32 → Prop
  | [], stop => start = stop
  | a :: rest, stop =>
    a.layerStart = start ∧ a.layerStart ≤ a.layerEnd ∧ Contiguous a.layerEnd rest stop

/-- The assignment carries the identity and address of the node. -/
def Copies (a : ShardAssignment) (node : NodeCapacity) : Prop :=
  a.nodeId = node.nodeId ∧ a.host = node.host ∧ a.ollamaPort = node.ollamaPort ∧
    a.agentPort = node.agentPort

/-- The assignment was made for the node: it copies its address, and the memory
it asks for is its layers' and is there. -/
def TakenFrom (p : Profile) (model : ModelSpec) (a : ShardAssignment)
    (node : NodeCapacity) : Prop :=
  Copies a node ∧ ∃ count, a.layerCount p = .ok count ∧
    a.vramRequiredMb.toNat = count.toNat * model.vramPerLayerMb.toNat ∧
    a.vramRequiredMb ≤ node.availableVramMb

/-- A placement as one visit makes it: from `layerCursor` on, inside `usable`
megabytes, and at most up to the last layer. -/
structure Loaded (model : ModelSpec) (layerCursor : UInt32) (usable : Nat)
    (placement : Placement) : Prop where
  copies : Copies placement.assignment placement.node
  start_eq : placement.assignment.layerStart = layerCursor
  stop_eq : placement.assignment.layerEnd.toNat = layerCursor.toNat +
    min (usable / model.vramPerLayerMb.toNat % 2 ^ 32)
      (model.totalLayers.toNat - layerCursor.toNat)
  vram_eq : placement.assignment.vramRequiredMb.toNat =
    (placement.assignment.layerEnd.toNat - layerCursor.toNat) * model.vramPerLayerMb.toNat
  vram_le : placement.assignment.vramRequiredMb.toNat ≤ usable

/-- A `u32` layer count times the memory of a layer stays in `usable` when the
count came from dividing `usable`. -/
theorem min_mod_mul_le (usable perLayer remaining : Nat) :
    min (usable / perLayer % 2 ^ 32) remaining * perLayer ≤ usable :=
  calc min (usable / perLayer % 2 ^ 32) remaining * perLayer
      ≤ usable / perLayer * perLayer :=
        Nat.mul_le_mul_right _ ((Nat.min_le_left _ _).trans (Nat.mod_le _ _))
    _ ≤ usable := Nat.div_mul_le_self _ _

/-- One visit with room never panics, under either profile, and makes a
`Loaded` placement. -/
theorem placeLayers_spec {model : ModelSpec} (node : NodeCapacity) {layerCursor : UInt32}
    (usable : UInt64) (hper : 1 ≤ model.vramPerLayerMb.toNat)
    (hcursor : layerCursor.toNat ≤ model.totalLayers.toNat) :
    ∃ placement, (∀ p, placeLayers p model node layerCursor usable =
        .ok (placement, placement.assignment.layerEnd)) ∧
      placement.node = node ∧ Loaded model layerCursor usable.toNat placement := by
  obtain ⟨hdiv, hquotient⟩ := div64_of_pos (a := usable) hper
  generalize hassigned : min32 (truncate32 (usable / model.vramPerLayerMb))
    (model.totalLayers - layerCursor) = assigned
  have hcount : assigned.toNat =
      min (usable.toNat / model.vramPerLayerMb.toNat % 2 ^ 32)
        (model.totalLayers.toNat - layerCursor.toNat) := by
    rw [← hassigned, toNat_min32, toNat_truncate32, hquotient,
      (Profile.release.sub32_of_le hcursor).2]
  have hfits : assigned.toNat * model.vramPerLayerMb.toNat ≤ usable.toNat := by
    rw [hcount]
    exact min_mod_mul_le _ _ _
  have hend : layerCursor.toNat + assigned.toNat < 2 ^ 32 := by
    have htotal := model.totalLayers.toNat_lt
    omega
  have hwide : assigned.toUInt64.toNat = assigned.toNat := by simp
  have hmul : assigned.toUInt64.toNat * model.vramPerLayerMb.toNat < 2 ^ 64 := by
    have husable := usable.toNat_lt
    rw [hwide]
    omega
  refine ⟨⟨node, ⟨node.nodeId, node.host, node.ollamaPort, node.agentPort, layerCursor,
    layerCursor + assigned, assigned.toUInt64 * model.vramPerLayerMb⟩⟩, ?_, rfl,
    ⟨⟨rfl, rfl, rfl, rfl⟩, rfl, ?_, ?_, ?_⟩⟩
  · intro p
    simp only [placeLayers, hdiv, bind, Except.bind, pure, Except.pure,
      (p.sub32_of_le hcursor).1, hassigned, (p.add32_of_lt hend).1, (p.mul64_of_lt hmul).1]
  · show (layerCursor + assigned).toNat = _
    rw [(Profile.release.add32_of_lt hend).2, hcount]
  · show (assigned.toUInt64 * model.vramPerLayerMb).toNat =
      ((layerCursor + assigned).toNat - layerCursor.toNat) * model.vramPerLayerMb.toNat
    rw [(Profile.release.mul64_of_lt hmul).2, (Profile.release.add32_of_lt hend).2, hwide,
      Nat.add_sub_cancel_left]
  · show (assigned.toUInt64 * model.vramPerLayerMb).toNat ≤ usable.toNat
    rw [(Profile.release.mul64_of_lt hmul).2, hwide]
    exact hfits

/-! ## The loop -/

/-- A visit without room passes the cursor on and clears the reserve. -/
theorem assignLayers_skip (p : Profile) {model : ModelSpec} (node : NodeCapacity)
    (rest : List NodeCapacity) {layerCursor : UInt32} {contextReserve : UInt64}
    (hopen : layerCursor < model.totalLayers)
    (hfull : saturatingSub64 node.availableVramMb contextReserve < model.vramPerLayerMb) :
    assignLayers p model (node :: rest) layerCursor contextReserve =
      assignLayers p model rest layerCursor 0 := by
  rw [assignLayers, if_neg (UInt32.not_le.mpr hopen)]
  exact if_pos hfull

/-- A visit with room pushes one placement and goes on after its last layer. -/
theorem assignLayers_place {model : ModelSpec} (node : NodeCapacity)
    (rest : List NodeCapacity) {layerCursor : UInt32} {contextReserve : UInt64}
    (hper : 1 ≤ model.vramPerLayerMb.toNat) (hopen : layerCursor < model.totalLayers)
    (hroom : model.vramPerLayerMb ≤ saturatingSub64 node.availableVramMb contextReserve) :
    ∃ placement, placement.node = node ∧
      Loaded model layerCursor (node.availableVramMb.toNat - contextReserve.toNat) placement ∧
      ∀ p, assignLayers p model (node :: rest) layerCursor contextReserve =
        (assignLayers p model rest placement.assignment.layerEnd 0).map
          fun run => (placement :: run.1, run.2) := by
  have hcursor : layerCursor.toNat ≤ model.totalLayers.toNat :=
    (UInt32.lt_iff_toNat_lt.mp hopen).le
  obtain ⟨placement, hplace, hnode, hloaded⟩ :=
    placeLayers_spec node (saturatingSub64 node.availableVramMb contextReserve) hper hcursor
  rw [toNat_saturatingSub64] at hloaded
  refine ⟨placement, hnode, hloaded, ?_⟩
  intro p
  rw [assignLayers, if_neg (UInt32.not_le.mpr hopen)]
  simp only [if_neg (UInt64.not_lt.mpr hroom), hplace, bind, Except.bind, pure, Except.pure]
  cases assignLayers p model rest placement.assignment.layerEnd 0 <;> rfl

/-- The loop invariant: what a run over `nodes` from `layerCursor` has pushed
when it stops at `last`. -/
structure Assigned (model : ModelSpec) (nodes : List NodeCapacity) (layerCursor : UInt32)
    (placements : List Placement) (last : UInt32) : Prop where
  contiguous : Contiguous layerCursor (placements.map Placement.assignment) last
  last_le : last.toNat ≤ model.totalLayers.toNat
  visited : (placements.map Placement.node).Sublist nodes
  loaded : ∀ placement ∈ placements, ∃ cursor usable,
    usable ≤ placement.node.availableVramMb.toNat ∧ Loaded model cursor usable placement

theorem Loaded.start_le_end {model : ModelSpec} {layerCursor : UInt32} {usable : Nat}
    {placement : Placement} (h : Loaded model layerCursor usable placement) :
    placement.assignment.layerStart ≤ placement.assignment.layerEnd := by
  rw [UInt32.le_iff_toNat_le, h.start_eq, h.stop_eq]
  exact Nat.le_add_right _ _

theorem Loaded.end_le_total {model : ModelSpec} {layerCursor : UInt32} {usable : Nat}
    {placement : Placement} (h : Loaded model layerCursor usable placement)
    (hcursor : layerCursor.toNat ≤ model.totalLayers.toNat) :
    placement.assignment.layerEnd.toNat ≤ model.totalLayers.toNat := by
  have hstop := h.stop_eq
  omega

/-- Every run of the loop returns, does the same under both profiles, and keeps
the invariant. Induction over the nodes left to visit; the cursor and the
reserve are general because each visit changes both. -/
theorem assignLayers_spec {model : ModelSpec} (hper : 1 ≤ model.vramPerLayerMb.toNat) :
    ∀ (nodes : List NodeCapacity) (layerCursor : UInt32) (contextReserve : UInt64),
    layerCursor.toNat ≤ model.totalLayers.toNat →
    ∃ placements last,
      (∀ p, assignLayers p model nodes layerCursor contextReserve = .ok (placements, last)) ∧
      Assigned model nodes layerCursor placements last := by
  intro nodes
  induction nodes with
  | nil =>
      intro layerCursor contextReserve hcursor
      exact ⟨[], layerCursor, fun p => rfl, ⟨rfl, hcursor, List.Sublist.refl _, by simp⟩⟩
  | cons node rest ih =>
      intro layerCursor contextReserve hcursor
      by_cases hdone : model.totalLayers ≤ layerCursor
      · exact ⟨[], layerCursor, fun p => by rw [assignLayers, if_pos hdone],
          ⟨rfl, hcursor, List.nil_sublist _, by simp⟩⟩
      · have hopen : layerCursor < model.totalLayers := UInt32.not_le.mp hdone
        by_cases hfull :
            saturatingSub64 node.availableVramMb contextReserve < model.vramPerLayerMb
        · obtain ⟨placements, last, hrun, inv⟩ := ih layerCursor 0 hcursor
          refine ⟨placements, last, ?_, { inv with visited := inv.visited.cons node }⟩
          intro p
          rw [assignLayers_skip p node rest hopen hfull, hrun p]
        · obtain ⟨placement, hnode, hloaded, hstep⟩ :=
            assignLayers_place node rest hper hopen (UInt64.not_lt.mp hfull)
          obtain ⟨placements, last, hrun, inv⟩ :=
            ih placement.assignment.layerEnd 0 (hloaded.end_le_total hcursor)
          refine ⟨placement :: placements, last, ?_, ?_⟩
          · intro p
            rw [hstep p, hrun p]
            rfl
          · refine ⟨⟨hloaded.start_eq, hloaded.start_le_end, inv.contiguous⟩, inv.last_le, ?_, ?_⟩
            · rw [List.map_cons, hnode]
              exact inv.visited.cons_cons node
            · intro other hother
              rcases List.mem_cons.mp hother with rfl | hother
              · exact ⟨layerCursor, _, by rw [hnode]; exact Nat.sub_le _ _, hloaded⟩
              · exact inv.loaded other hother

/-! ## From a run to a plan -/

theorem Loaded.takenFrom (p : Profile) {model : ModelSpec} {layerCursor : UInt32} {usable : Nat}
    {placement : Placement} (h : Loaded model layerCursor usable placement)
    (husable : usable ≤ placement.node.availableVramMb.toNat) :
    TakenFrom p model placement.assignment placement.node := by
  obtain ⟨hcount, hsub⟩ := p.sub32_of_le (UInt32.le_iff_toNat_le.mp h.start_le_end)
  refine ⟨h.copies, _, hcount, ?_, ?_⟩
  · rw [hsub, h.start_eq]
    exact h.vram_eq
  · rw [UInt64.le_iff_toNat_le]
    exact h.vram_le.trans husable

/-- In a contiguous list every range has a layer count, and the counts add up
to the distance covered. -/
theorem Contiguous.layerCounts (p : Profile) : ∀ {assignments : List ShardAssignment}
    {start stop : UInt32}, Contiguous start assignments stop →
    ∃ counts, assignments.mapM (ShardAssignment.layerCount p) = .ok counts ∧
      start.toNat + (counts.map UInt32.toNat).sum = stop.toNat := by
  intro assignments
  induction assignments with
  | nil =>
      intro start stop h
      exact ⟨[], rfl, by simp [show start = stop from h]⟩
  | cons a rest ih =>
      rintro start stop ⟨hstart, hle, hrest⟩
      obtain ⟨counts, hcounts, hsum⟩ := ih hrest
      obtain ⟨hcount, hsub⟩ := p.sub32_of_le (UInt32.le_iff_toNat_le.mp hle)
      refine ⟨(a.layerEnd - a.layerStart) :: counts, ?_, ?_⟩
      · rw [List.mapM_cons, ShardAssignment.layerCount, hcount, hcounts]
        rfl
      · have hle' := UInt32.le_iff_toNat_le.mp hle
        rw [List.map_cons, List.sum_cons, hsub, ← hstart]
        omega

/-- Elements of a list, up to order and omission, sit at pairwise different
positions of it. -/
theorem exists_positions {α : Type} {found all : List α} (h : found.Subperm all) :
    ∃ positions : List (Fin all.length), positions.Nodup ∧ positions.map all.get = found := by
  obtain ⟨kept, hperm, hsub⟩ := h
  rw [← List.map_get_finRange all, List.sublist_map_iff] at hsub
  obtain ⟨indices, hindices, rfl⟩ := hsub
  have hlift : Relation.Comp (· = List.map all.get ·) List.Perm found indices := by
    rw [List.eq_map_comp_perm]
    exact hperm.symm
  obtain ⟨positions, hpositions, hsame⟩ := hlift
  exact ⟨positions, hsame.nodup_iff.mpr (hindices.nodup (List.nodup_finRange _)),
    hpositions.symm⟩

/-- What an `Ok` plan promises. `taken` gives, for every assignment, the
position of its node in the input list. -/
structure SoundPlan (p : Profile) (model : ModelSpec) (nodes : List NodeCapacity)
    (plan : ShardPlan) : Prop where
  contiguous : Contiguous 0 plan.assignments model.totalLayers
  layers : ∃ counts, plan.assignments.mapM (ShardAssignment.layerCount p) = .ok counts ∧
    (counts.map UInt32.toNat).sum = model.totalLayers.toNat
  taken : ∃ positions : List (Fin nodes.length), positions.Nodup ∧
    List.Forall₂ (fun a i => TakenFrom p model a (nodes.get i)) plan.assignments positions ∧
    positions.Pairwise fun i j =>
      (nodes.get j).availableVramMb ≤ (nodes.get i).availableVramMb
  noOverflow : ∃ run, ∀ profile,
    assignLayers profile model (sortByVram nodes) 0 model.contextVramMb = .ok run

/-- The nodes of the placements sit at different positions of the input. -/
theorem Assigned.taken (p : Profile) {model : ModelSpec} {nodes : List NodeCapacity}
    {placements : List Placement} {layerCursor last : UInt32}
    (inv : Assigned model (sortByVram nodes) layerCursor placements last) :
    ∃ positions : List (Fin nodes.length), positions.Nodup ∧
      List.Forall₂ (fun a i => TakenFrom p model a (nodes.get i))
        (placements.map Placement.assignment) positions ∧
      positions.Pairwise fun i j =>
        (nodes.get j).availableVramMb ≤ (nodes.get i).availableVramMb := by
  have hsub : (placements.map Placement.node).Subperm nodes :=
    inv.visited.subperm.trans (sortByVram_perm nodes).subperm
  obtain ⟨positions, hnodup, hnodes⟩ := exists_positions hsub
  refine ⟨positions, hnodup, ?_, ?_⟩
  · have htaken : List.Forall₂ (fun a node => TakenFrom p model a node)
        (placements.map Placement.assignment) (placements.map Placement.node) := by
      rw [List.forall₂_map_left_iff, List.forall₂_map_right_iff, List.forall₂_same]
      intro placement hmem
      obtain ⟨cursor, usable, husable, hloaded⟩ := inv.loaded placement hmem
      exact hloaded.takenFrom p husable
    rwa [← hnodes, List.forall₂_map_right_iff] at htaken
  · have hsorted := (sortByVram_pairwise nodes).sublist inv.visited
    rwa [← hnodes, List.pairwise_map] at hsorted

/-- **Plan soundness.** Whenever the planner returns `Ok`, for any layer count,
context and node memories, the plan covers every layer exactly once with
memory the chosen nodes have, and no operation of the loop overflowed. -/
theorem planShards_sound (p : Profile) (model : ModelSpec) (nodes : List NodeCapacity)
    (plan : ShardPlan) (hper : 1 ≤ model.vramPerLayerMb)
    (h : planShards p model nodes = .ok (.ok plan)) : SoundPlan p model nodes plan := by
  obtain ⟨placements, hplaced, rfl⟩ := planShards_ok h
  obtain ⟨last, hcovered, hrun⟩ := placeShards_ok hplaced
  obtain ⟨placements', last', hspec, inv⟩ :=
    assignLayers_spec (UInt64.le_iff_toNat_le.mp hper) (sortByVram nodes) 0
      model.contextVramMb (by simp)
  have hsame := (hspec p).symm.trans hrun
  simp only [Except.ok.injEq, Prod.mk.injEq] at hsame
  obtain ⟨rfl, rfl⟩ := hsame
  have hlast : last' = model.totalLayers :=
    UInt32.toNat_inj.mp (Nat.le_antisymm inv.last_le (UInt32.le_iff_toNat_le.mp hcovered))
  have hcontiguous : Contiguous 0 (placements'.map Placement.assignment) model.totalLayers :=
    hlast ▸ inv.contiguous
  obtain ⟨counts, hcounts, hsum⟩ := hcontiguous.layerCounts p
  exact ⟨hcontiguous, ⟨counts, hcounts, by simpa using hsum⟩, inv.taken p, ⟨_, hspec⟩⟩

/-- A cluster on which the plan splits: 80 layers of a 70b model over two nodes. -/
theorem planShards_sound_split :
    let model : ModelSpec := ⟨"llama3.1:70b", 80, 480, 2048⟩
    let nodes : List NodeCapacity :=
      [⟨"gpu0", "gpu0.local", 11434, 8181, 24576⟩, ⟨"gpu1", "gpu1.local", 11434, 8181, 24576⟩]
    SoundPlan .release model nodes
      ⟨"llama3.1:70b", 80,
        [⟨"gpu0", "gpu0.local", 11434, 8181, 0, 46, 22080⟩,
         ⟨"gpu1", "gpu1.local", 11434, 8181, 46, 80, 16320⟩]⟩ :=
  planShards_sound .release _ _ _ (by decide) (by decide)

end InferPlatform.Planner
