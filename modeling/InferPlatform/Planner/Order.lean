import InferPlatform.Planner.Solo

/-!
# The order of the nodes does not matter

The planner sorts its nodes by memory, and what it then does with a node depends on
nothing else of it.

* `Placement.shape` — an assignment without the identity of its node;
* `assignLayers_congr` — the loop, over lists with the same memories;
* `PlanAlike` — two lists with plans of one shape, or with the same error;
* `planShards_perm` — **permuted lists are alike**; with pairwise different memories they
  have the same plan.
-/

namespace InferPlatform.Planner

open Checked

/-- The layers, the memory they need and the memory of the node. -/
structure Shape where
  layerStart : UInt32
  layerEnd : UInt32
  vramRequiredMb : UInt64
  availableVramMb : UInt64
  deriving DecidableEq, Repr

def Placement.shape (placement : Placement) : Shape :=
  ⟨placement.assignment.layerStart, placement.assignment.layerEnd,
    placement.assignment.vramRequiredMb, placement.node.availableVramMb⟩

/-- Two results with one image are the same panic, or values with one image. -/
theorem map_eq_map_iff {ε α β : Type} {f : α → β} {x y : Except ε α} :
    x.map f = y.map f ↔
      (∃ e, x = .error e ∧ y = .error e) ∨ ∃ a b, x = .ok a ∧ y = .ok b ∧ f a = f b := by
  cases x <;> cases y <;> simp [Except.map, eq_comm]

/-! ## Sums -/

theorem add64_release (a b : UInt64) : Profile.release.add64 a b = .ok (a + b) :=
  if_pos (.inr rfl)

theorem foldlM_add64_release (values : List UInt64) (start : UInt64) :
    ∃ total, values.foldlM Profile.release.add64 start = .ok total := by
  induction values generalizing start with
  | nil => exact ⟨start, rfl⟩
  | cons a values ih =>
      rw [List.foldlM_cons, add64_release]
      exact ih (start + a)

/-- Two additions that leave the range panic, the second one if not the first. -/
theorem dev_overflows {start a b : UInt64}
    (h : ¬ start.toNat + a.toNat + b.toNat < 2 ^ 64) :
    (Profile.dev.add64 start a).bind (Profile.dev.add64 · b) = .error .overflow := by
  by_cases hfirst : start.toNat + a.toNat < 2 ^ 64
  · obtain ⟨hadd, haddNat⟩ := Profile.dev.add64_of_lt hfirst
    rw [hadd]
    show Profile.dev.add64 (start + a) b = .error .overflow
    rw [Profile.add64, haddNat, Profile.guard, if_neg (by simpa using h)]
  · rw [Profile.add64, Profile.guard, if_neg (by simpa using hfirst)]
    rfl

/-- Two additions panic in both orders, or in none. -/
theorem add64_right_comm (p : Profile) (start a b : UInt64) :
    (p.add64 start a).bind (p.add64 · b) = (p.add64 start b).bind (p.add64 · a) := by
  have hcomm : start + a + b = start + b + a := by
    rw [UInt64.add_assoc, UInt64.add_comm a b, ← UInt64.add_assoc]
  cases p with
  | release =>
      rw [add64_release, add64_release]
      show Profile.release.add64 (start + a) b = Profile.release.add64 (start + b) a
      rw [add64_release, add64_release, hcomm]
  | dev =>
      by_cases htotal : start.toNat + a.toNat + b.toNat < 2 ^ 64
      · obtain ⟨hadd, haddNat⟩ := Profile.dev.add64_of_lt (a := start) (b := a) (by omega)
        obtain ⟨hadd', haddNat'⟩ := Profile.dev.add64_of_lt (a := start) (b := b) (by omega)
        rw [hadd, hadd']
        show Profile.dev.add64 (start + a) b = Profile.dev.add64 (start + b) a
        rw [(Profile.dev.add64_of_lt (by omega)).1, (Profile.dev.add64_of_lt (by omega)).1, hcomm]
      · rw [dev_overflows htotal, dev_overflows (by omega)]

/-- A checked sum panics for every order of its terms, or for none. -/
theorem foldlM_add64_perm (p : Profile) {values values' : List UInt64}
    (h : values.Perm values') (start : UInt64) :
    values.foldlM p.add64 start = values'.foldlM p.add64 start := by
  induction h generalizing start with
  | nil => rfl
  | cons a _ ih =>
      rw [List.foldlM_cons, List.foldlM_cons]
      cases hadd : p.add64 start a with
      | error panic => rfl
      | ok next => exact ih next
  | swap a b rest =>
      have htwo : ∀ x y : UInt64, (x :: y :: rest).foldlM p.add64 start =
          ((p.add64 start x).bind (p.add64 · y)).bind fun next => rest.foldlM p.add64 next := by
        intro x y
        rw [List.foldlM_cons]
        cases p.add64 start x with
        | error panic => rfl
        | ok next => rfl
      rw [htwo, htwo, add64_right_comm]
  | trans _ _ ih ih' => exact (ih start).trans (ih' start)

theorem sum64_perm (p : Profile) {values values' : List UInt64} (h : values.Perm values') :
    p.sum64 values = p.sum64 values' :=
  foldlM_add64_perm p h 0

/-! ## The loop -/

/-- What one visit pushes depends on the memory of the node only, but for its identity. -/
theorem placeLayers_congr (p : Profile) (model : ModelSpec) {node node' : NodeCapacity}
    (hnode : node.availableVramMb = node'.availableVramMb) (layerCursor : UInt32) (usable : UInt64) :
    (placeLayers p model node layerCursor usable).map (fun run => (run.1.shape, run.2)) =
      (placeLayers p model node' layerCursor usable).map fun run => (run.1.shape, run.2) := by
  unfold placeLayers
  cases div64 usable model.vramPerLayerMb with
  | error panic => rfl
  | ok quotient =>
      simp only [bind, Except.bind]
      cases p.sub32 model.totalLayers layerCursor with
      | error panic => rfl
      | ok remaining =>
          dsimp only
          cases p.add32 layerCursor (min32 (truncate32 quotient) remaining) with
          | error panic => rfl
          | ok layerEnd =>
              dsimp only
              cases p.mul64 (min32 (truncate32 quotient) remaining).toUInt64
                model.vramPerLayerMb with
              | error panic => rfl
              | ok vramRequiredMb =>
                  simp only [Except.map, pure, Except.pure, Placement.shape, hnode]

/-- The loop does the same over lists with the same memories. Induction over one list; the
other one has a head where it has one. -/
theorem assignLayers_congr (p : Profile) (model : ModelSpec) :
    ∀ (nodes nodes' : List NodeCapacity) (layerCursor : UInt32) (contextReserve : UInt64),
    nodes.map (·.availableVramMb) = nodes'.map (·.availableVramMb) →
    (assignLayers p model nodes layerCursor contextReserve).map
        (fun run => (run.1.map Placement.shape, run.2)) =
      (assignLayers p model nodes' layerCursor contextReserve).map
        fun run => (run.1.map Placement.shape, run.2) := by
  intro nodes
  induction nodes with
  | nil =>
      intro nodes' layerCursor contextReserve hvram
      have hnil : nodes' = [] := List.map_eq_nil_iff.mp hvram.symm
      rw [hnil]
  | cons node rest ih =>
      intro nodes' layerCursor contextReserve hvram
      obtain ⟨node', rest', rfl, hnode, hrest⟩ := List.map_eq_cons_iff.mp hvram.symm
      rw [assignLayers, assignLayers, hnode]
      by_cases hdone : model.totalLayers ≤ layerCursor
      · rw [if_pos hdone, if_pos hdone]
      · rw [if_neg hdone, if_neg hdone]
        dsimp only
        by_cases hfull :
            saturatingSub64 node.availableVramMb contextReserve < model.vramPerLayerMb
        · rw [if_pos hfull, if_pos hfull]
          exact ih rest' layerCursor 0 hrest.symm
        · rw [if_neg hfull, if_neg hfull]
          have hplaced := placeLayers_congr p model hnode.symm layerCursor
            (saturatingSub64 node.availableVramMb contextReserve)
          simp only [bind, Except.bind]
          rcases map_eq_map_iff.mp hplaced with
            ⟨panic, hleft, hright⟩ | ⟨run, run', hleft, hright, hpushed⟩
          · rw [hleft, hright]
          · obtain ⟨placement, next⟩ := run
            obtain ⟨placement', next'⟩ := run'
            obtain ⟨hshape, rfl⟩ := Prod.mk.inj hpushed
            rw [hleft, hright]
            dsimp only
            rcases map_eq_map_iff.mp (ih rest' next 0 hrest.symm) with
              ⟨panic, hleft, hright⟩ | ⟨run, run', hleft, hright, hothers⟩
            · rw [hleft, hright]
            · obtain ⟨hshapes, hlast⟩ := Prod.mk.inj hothers
              rw [hleft, hright]
              simp only [Except.map, pure, Except.pure, List.map_cons, hshape, hshapes, hlast]

/-! ## The sort -/

/-- Permuted nodes are visited by the same memories. -/
theorem vram_sortByVram_perm {nodes nodes' : List NodeCapacity} (h : nodes.Perm nodes') :
    (sortByVram nodes).map (·.availableVramMb) = (sortByVram nodes').map (·.availableVramMb) := by
  have hsorted : ∀ l : List NodeCapacity,
      ((sortByVram l).map (·.availableVramMb)).Pairwise fun a b => b ≤ a := by
    intro l
    rw [List.pairwise_map]
    exact sortByVram_pairwise l
  have hperm := ((sortByVram_perm nodes).trans (h.trans (sortByVram_perm nodes').symm)).map
    (·.availableVramMb)
  exact hperm.eq_of_pairwise (fun _ _ _ _ hab hba => UInt64.le_antisymm hba hab)
    (hsorted nodes) (hsorted nodes')

/-- Permuted nodes with pairwise different memories are visited in the same order. -/
theorem sortByVram_perm_of_nodup {nodes nodes' : List NodeCapacity} (h : nodes.Perm nodes')
    (hnodup : (nodes.map (·.availableVramMb)).Nodup) : sortByVram nodes = sortByVram nodes' := by
  have hinj : ∀ a ∈ nodes, ∀ b ∈ nodes, a.availableVramMb = b.availableVramMb → a = b :=
    fun a ha b hb hab => List.inj_on_of_nodup_map hnodup ha hb hab
  have hperm := (sortByVram_perm nodes).trans (h.trans (sortByVram_perm nodes').symm)
  apply hperm.eq_of_pairwise _ (sortByVram_pairwise nodes) (sortByVram_pairwise nodes')
  intro a b ha hb hab hba
  exact hinj a ((sortByVram_perm nodes).mem_iff.mp ha) b
    (h.mem_iff.mpr ((sortByVram_perm nodes').mem_iff.mp hb)) (UInt64.le_antisymm hba hab)

/-! ## The planner -/

theorem placeShards_perm (p : Profile) (model : ModelSpec) {nodes nodes' : List NodeCapacity}
    (h : nodes.Perm nodes') :
    (placeShards p model nodes).map (·.map (List.map Placement.shape)) =
      (placeShards p model nodes').map (·.map (List.map Placement.shape)) := by
  have hsum : p.sum64 (nodes.map (·.availableVramMb)) =
      p.sum64 (nodes'.map (·.availableVramMb)) := sum64_perm p (h.map _)
  have hloop := assignLayers_congr p model (sortByVram nodes) (sortByVram nodes') 0
    model.contextVramMb (vram_sortByVram_perm h)
  by_cases hempty : nodes = []
  · rw [hempty] at h ⊢
    rw [h.nil_eq]
  · have hempty' : nodes' ≠ [] := fun hnil => hempty (h.trans (.of_eq hnil)).eq_nil
    unfold placeShards
    rw [if_neg (by simpa using hempty), if_neg (by simpa using hempty'), hsum, h.length_eq]
    simp only [bind, Except.bind]
    cases p.sum64 (nodes'.map (·.availableVramMb)) with
    | error panic => rfl
    | ok available =>
        dsimp only
        cases model.totalVramMb p with
        | error panic => rfl
        | ok needed =>
            dsimp only
            by_cases hlow : available < needed
            · rw [if_pos hlow, if_pos hlow]
            · rw [if_neg hlow, if_neg hlow]
              rcases map_eq_map_iff.mp hloop with
                ⟨panic, hleft, hright⟩ | ⟨run, run', hleft, hright, hpushed⟩
              · rw [hleft, hright]
              · obtain ⟨placements, layerCursor⟩ := run
                obtain ⟨placements', layerCursor'⟩ := run'
                obtain ⟨hshapes, rfl⟩ := Prod.mk.inj hpushed
                rw [hleft, hright]
                dsimp only
                by_cases hopen : layerCursor < model.totalLayers
                · rw [if_pos hopen, if_pos hopen]
                · rw [if_neg hopen, if_neg hopen]
                  simp only [Except.map, pure, Except.pure, hshapes]

theorem placeShards_congr_sort (p : Profile) (model : ModelSpec) {nodes nodes' : List NodeCapacity}
    (h : nodes.Perm nodes') (hsorted : sortByVram nodes = sortByVram nodes') :
    placeShards p model nodes = placeShards p model nodes' := by
  have hsum : p.sum64 (nodes.map (·.availableVramMb)) =
      p.sum64 (nodes'.map (·.availableVramMb)) := sum64_perm p (h.map _)
  have hempty : nodes.isEmpty = nodes'.isEmpty := by
    rw [Bool.eq_iff_iff, List.isEmpty_iff, List.isEmpty_iff]
    exact ⟨fun hnil => (hnil ▸ h).nil_eq.symm, fun hnil => (hnil ▸ h).eq_nil⟩
  rw [placeShards, placeShards, hempty, hsum, hsorted, h.length_eq]

/-- Without overflow checks the planner returns. -/
theorem placeShards_release {model : ModelSpec} (hper : 1 ≤ model.vramPerLayerMb)
    (nodes : List NodeCapacity) : ∃ result, placeShards .release model nodes = .ok result := by
  by_cases hne : nodes = []
  · rw [hne]
    exact ⟨_, rfl⟩
  · obtain ⟨available, havailable⟩ := foldlM_add64_release (nodes.map (·.availableVramMb)) 0
    have hweights : Profile.release.mul64 model.totalLayers.toUInt64 model.vramPerLayerMb =
        .ok (model.totalLayers.toUInt64 * model.vramPerLayerMb) := if_pos (.inr rfl)
    have hneeded : model.totalVramMb .release =
        .ok (model.totalLayers.toUInt64 * model.vramPerLayerMb + model.contextVramMb) := by
      rw [ModelSpec.totalVramMb, hweights]
      exact add64_release _ _
    obtain ⟨placements, last, hrun, -⟩ := assignLayers_spec (UInt64.le_iff_toNat_le.mp hper)
      (sortByVram nodes) 0 model.contextVramMb (Nat.zero_le _)
    rw [placeShards_eq hne havailable hneeded (hrun .release)]
    split
    · exact ⟨_, rfl⟩
    · exact ⟨_, rfl⟩

/-- The planner does the same with both lists: plans of the same shape, one error, or, with
overflow checks, one panic. -/
inductive PlanAlike (p : Profile) (model : ModelSpec) (nodes nodes' : List NodeCapacity) : Prop
  | plans (placements placements' : List Placement)
      (left : planShards p model nodes = .ok (.ok (.ofPlacements model placements)))
      (right : planShards p model nodes' = .ok (.ok (.ofPlacements model placements')))
      (visited : placeShards p model nodes = .ok (.ok placements))
      (visited' : placeShards p model nodes' = .ok (.ok placements'))
      (shapes : placements.map Placement.shape = placements'.map Placement.shape)
  | error (e : PlanError)
      (left : planShards p model nodes = .ok (.error e))
      (right : planShards p model nodes' = .ok (.error e))
  | panic (reason : Panic) (checked : p = .dev)
      (left : planShards p model nodes = .error reason)
      (right : planShards p model nodes' = .error reason)

/-- **Planning does not depend on the order of the nodes.** -/
theorem planShards_perm (p : Profile) (model : ModelSpec) (hper : 1 ≤ model.vramPerLayerMb)
    (nodes nodes' : List NodeCapacity) (h : nodes.Perm nodes') :
    PlanAlike p model nodes nodes' ∧
      ((nodes.map (·.availableVramMb)).Nodup →
        planShards p model nodes = planShards p model nodes') := by
  refine ⟨?_, fun hnodup => ?_⟩
  · rcases map_eq_map_iff.mp (placeShards_perm p model h) with
      ⟨reason, hleft, hright⟩ | ⟨planned, planned', hleft, hright, hsame⟩
    · have hdev : p = .dev := by
        cases p with
        | dev => rfl
        | release =>
            obtain ⟨result, hreturns⟩ := placeShards_release hper nodes
            rw [hreturns] at hleft
            cases hleft
      exact .panic reason hdev (by rw [planShards, hleft]; rfl) (by rw [planShards, hright]; rfl)
    · rcases map_eq_map_iff.mp hsame with
        ⟨e, rfl, rfl⟩ | ⟨placements, placements', rfl, rfl, hshapes⟩
      · exact .error e (by rw [planShards, hleft]; rfl) (by rw [planShards, hright]; rfl)
      · exact .plans placements placements' (planShards_of_placeShards hleft)
          (planShards_of_placeShards hright) hleft hright hshapes
  · rw [planShards, planShards,
      placeShards_congr_sort p model h (sortByVram_perm_of_nodup h hnodup)]

/-- Two nodes of one memory and a larger one, and three different nodes, in two orders. -/
theorem planShards_perm_three_nodes :
    let model : ModelSpec := ⟨"tiny", 8, 100, 150⟩
    let gpu0 : NodeCapacity := ⟨"gpu0", "gpu0.local", 11434, 8181, 400⟩
    let gpu1 : NodeCapacity := ⟨"gpu1", "gpu1.local", 11434, 8181, 700⟩
    let gpu2 : NodeCapacity := ⟨"gpu2", "gpu2.local", 11434, 8181, 400⟩
    let gpu3 : NodeCapacity := ⟨"gpu3", "gpu3.local", 11434, 8181, 350⟩
    PlanAlike .release model [gpu0, gpu1, gpu2] [gpu2, gpu0, gpu1] ∧
      planShards .release model [gpu0, gpu1, gpu3] = planShards .release model [gpu3, gpu0, gpu1] :=
  ⟨(planShards_perm .release ⟨"tiny", 8, 100, 150⟩ (by decide)
      [⟨"gpu0", "gpu0.local", 11434, 8181, 400⟩, ⟨"gpu1", "gpu1.local", 11434, 8181, 700⟩,
        ⟨"gpu2", "gpu2.local", 11434, 8181, 400⟩]
      [⟨"gpu2", "gpu2.local", 11434, 8181, 400⟩, ⟨"gpu0", "gpu0.local", 11434, 8181, 400⟩,
        ⟨"gpu1", "gpu1.local", 11434, 8181, 700⟩] (by decide)).1,
    (planShards_perm .release ⟨"tiny", 8, 100, 150⟩ (by decide)
      [⟨"gpu0", "gpu0.local", 11434, 8181, 400⟩, ⟨"gpu1", "gpu1.local", 11434, 8181, 700⟩,
        ⟨"gpu3", "gpu3.local", 11434, 8181, 350⟩]
      [⟨"gpu3", "gpu3.local", 11434, 8181, 350⟩, ⟨"gpu0", "gpu0.local", 11434, 8181, 400⟩,
        ⟨"gpu1", "gpu1.local", 11434, 8181, 700⟩] (by decide)).2 (by decide)⟩

end InferPlatform.Planner
