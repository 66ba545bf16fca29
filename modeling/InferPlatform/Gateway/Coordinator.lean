import InferPlatform.Base.StableSort
import InferPlatform.Gateway.Nodes
import InferPlatform.Planner.Solo
import Mathlib.Data.List.Rotate

/-!
# The shard coordinator

`build_candidates` turns the node table into a list of plans to try. Nodes that can
hold the model alone get a plan each, sorted by latency and rotated by a counter
that all models share; without such a node there is at most one plan, over several
nodes.

* `buildCandidates`, `buildPlan` — the two functions;
* `soloNodes` — the nodes that can hold a model alone;
* `buildCandidates_solo` — the candidates when there is such a node;
* `buildCandidates_exact` — the candidates in every case.
-/

namespace InferPlatform.Gateway

open Checked Planner

/-- The statistics of a node. `Ms` is the type of the latencies: any linear order
stands for the floating-point numbers that can be compared. -/
structure NodeStats (Ms : Type) where
  p50Ms : Ms
  p95Ms : Ms
  uptime7d : Ms
  deriving DecidableEq, Repr

/-- `node_stats`, by node id. -/
abbrev StatsMap (Ms : Type) := List (String × NodeStats Ms)

def NodeInfo.capacity (node : NodeInfo) : NodeCapacity :=
  { nodeId := node.id
    host := node.host
    ollamaPort := node.port
    agentPort := node.agentPort
    availableVramMb := node.vramMb }

/-- The spec that a request is planned with. -/
def requestSpec (model : String) : ModelSpec :=
  (ModelRegistry.get model).getD (ModelRegistry.estimate model 4096)

section

variable {Ms : Type} [LinearOrder Ms]

/-- A node without statistics counts as slow as can be; `maxMs` is `f64::MAX`. -/
def p50 (maxMs : Ms) (stats : StatsMap Ms) (node : NodeInfo) : Ms :=
  ((stats.lookup node.id).map (·.p50Ms)).getD maxMs

/-- Fastest first; the larger VRAM breaks ties. -/
def byLatency (maxMs : Ms) (stats : StatsMap Ms) : NodeInfo → NodeInfo → Ordering :=
  compareLex (compareOn (p50 maxMs stats)) fun a b => compareOn NodeInfo.vramMb b a

/-- Largest VRAM first; the lower latency breaks ties. -/
def byVram (maxMs : Ms) (stats : StatsMap Ms) : NodeInfo → NodeInfo → Ordering :=
  compareLex (fun a b => compareOn NodeInfo.vramMb b a) (compareOn (p50 maxMs stats))

/-- `build_plan`: one plan over all online nodes. -/
def buildPlan (p : Profile) (maxMs : Ms) (model : String) (nodes : List NodeInfo)
    (stats : StatsMap Ms) : Except Panic (Option ShardPlan) :=
  let candidates := sortBy (byVram maxMs stats) (nodes.filter fun n => n.status = .online)
  let capacities := candidates.map NodeInfo.capacity
  if capacities.isEmpty then .ok none
  else do
    let planned ← planShards p (requestSpec model) capacities
    return planned.toOption

/-- The end of `build_candidates`: the plan over several nodes, if there is one. -/
def fallback (p : Profile) (maxMs : Ms) (model : String) (nodes : List NodeInfo)
    (stats : StatsMap Ms) : Except Panic (List ShardPlan) := do
  let plan ← buildPlan p maxMs model nodes stats
  return plan.toList

/-- The plans for the nodes one by one, without those that cannot be planned. -/
def soloCandidates (p : Profile) (spec : ModelSpec) (solo : List NodeInfo) :
    Except Panic (List ShardPlan) := do
  let planned ← solo.mapM fun node => planShards p spec [node.capacity]
  return planned.filterMap Except.toOption

/-- `build_candidates`, with the counter before and after. -/
def buildCandidates (p : Profile) (maxMs : Ms) (rrCounter : UInt64) (model : String)
    (nodes : List NodeInfo) (stats : StatsMap Ms) : Except Panic (List ShardPlan) × UInt64 :=
  let spec := requestSpec model
  match spec.totalVramMb p with
  | .error panic => (.error panic, rrCounter)
  | .ok needed =>
    let online := nodes.filter fun n => n.status = .online
    -- nodes that can serve the model without splitting
    let solo := online.filter fun n => needed ≤ n.vramMb
    if solo.isEmpty then (fallback p maxMs model nodes stats, rrCounter)
    else
      let offset := rrCounter.toNat % solo.length
      let rotated := (sortBy (byLatency maxMs stats) solo).rotate offset
      -- the counter moves on before anything is planned
      (do
        let candidates ← soloCandidates p spec rotated
        if candidates.isEmpty then fallback p maxMs model nodes stats else return candidates,
        rrCounter + 1)

/-! ## Latency order -/

instance (maxMs : Ms) (stats : StatsMap Ms) : Std.TransCmp (byLatency maxMs stats) :=
  have : Std.TransCmp fun a b => compareOn NodeInfo.vramMb b a := .opposite
  inferInstanceAs (Std.TransCmp (compareLex _ _))

/-- A node whose latency is known to be below the largest number comes before every
node whose latency is unknown. -/
theorem byLatency_of_unknown {maxMs : Ms} {stats : StatsMap Ms} {known unknown : NodeInfo}
    {s : NodeStats Ms} (hknown : stats.lookup known.id = some s) (hlt : s.p50Ms < maxMs)
    (hunknown : stats.lookup unknown.id = none) : byLatency maxMs stats known unknown = .lt := by
  have hlatency : compareOn (p50 maxMs stats) known unknown = .lt := by
    show compare (p50 maxMs stats known) (p50 maxMs stats unknown) = .lt
    rw [p50, p50, hknown, hunknown]
    exact compare_lt_iff_lt.mpr hlt
  rw [byLatency, compareLex, hlatency]
  rfl

end

/-! ## The candidates -/

theorem regular_requestSpec (model : String) : (requestSpec model).Regular := by
  unfold requestSpec
  cases hget : ModelRegistry.get model with
  | some spec => exact regular_of_get hget
  | none =>
      show (ModelRegistry.estimate model 4096).Regular
      constructor
      all_goals
        simp only [ModelSpec.neededMb, ModelRegistry.estimate]
        decide

/-- The nodes that can hold the model alone. -/
def soloNodes (model : String) (nodes : List NodeInfo) : List NodeInfo :=
  nodes.filter fun n => n.status = .online ∧ (requestSpec model).neededMb ≤ n.vramMb.toNat

theorem mem_soloNodes {model : String} {nodes : List NodeInfo} {n : NodeInfo} :
    n ∈ soloNodes model nodes ↔
      n ∈ nodes ∧ n.status = .online ∧ (requestSpec model).neededMb ≤ n.vramMb.toNat := by
  simp [soloNodes]

variable {Ms : Type} [LinearOrder Ms]

/-- The coordinator filters by the integers. -/
theorem buildCandidates_eq (p : Profile) (maxMs : Ms) (rrCounter : UInt64) (model : String)
    (nodes : List NodeInfo) (stats : StatsMap Ms) :
    buildCandidates p maxMs rrCounter model nodes stats =
      if soloNodes model nodes = [] then (fallback p maxMs model nodes stats, rrCounter)
      else
        (do
          let candidates ← soloCandidates p (requestSpec model)
            ((sortBy (byLatency maxMs stats) (soloNodes model nodes)).rotate
              (rrCounter.toNat % (soloNodes model nodes).length))
          if candidates.isEmpty then fallback p maxMs model nodes stats else return candidates,
          rrCounter + 1) := by
  obtain ⟨needed, hneeded, hneededNat⟩ := (regular_requestSpec model).totalVramMb p
  have hsolo : ((nodes.filter fun n => n.status = .online).filter fun n => needed ≤ n.vramMb) =
      soloNodes model nodes := by
    rw [List.filter_filter, soloNodes]
    refine List.filter_congr fun n _ => ?_
    simp only [UInt64.le_iff_toNat_le, hneededNat, Bool.decide_and, Bool.and_comm]
  dsimp only [buildCandidates]
  rw [hneeded]
  dsimp only
  rw [hsolo]
  by_cases hempty : soloNodes model nodes = []
  · rw [if_pos (by rw [hempty]; rfl), if_pos hempty]
  · rw [if_neg (by simpa using hempty), if_neg hempty]

/-- Nodes with room for the model each get the plan with all layers. -/
theorem soloCandidates_eq (p : Profile) {spec : ModelSpec} (hspec : spec.Regular)
    {solo : List NodeInfo} (hvram : ∀ n ∈ solo, n.vramMb.toNat < 2 ^ 32)
    (hfits : ∀ n ∈ solo, spec.neededMb ≤ n.vramMb.toNat) :
    soloCandidates p spec solo = .ok (solo.map fun n => soloPlan spec n.capacity) := by
  have hplanned : (solo.mapM fun n => planShards p spec [n.capacity]) =
      .ok (solo.map fun n => .ok (soloPlan spec n.capacity)) := by
    induction solo with
    | nil => rfl
    | cons n solo ih =>
        obtain ⟨hvram₁, hvram⟩ := List.forall_mem_cons.mp hvram
        obtain ⟨hfits₁, hfits⟩ := List.forall_mem_cons.mp hfits
        rw [List.mapM_cons, planShards_solo p hspec hvram₁ hfits₁, ih hvram hfits]
        rfl
  rw [soloCandidates, hplanned]
  show Except.ok (List.filterMap _ (List.map _ solo)) = _
  rw [List.filterMap_map, ← List.filterMap_eq_map]
  rfl

/-- **Candidates on one node each**: every node that can hold the model alone, in
order of latency, rotated by the counter. -/
theorem buildCandidates_solo (p : Profile) (maxMs : Ms) (rrCounter : UInt64) {model : String}
    {nodes : List NodeInfo} (stats : StatsMap Ms)
    (hvram : ∀ n ∈ soloNodes model nodes, n.vramMb.toNat < 2 ^ 32)
    (hsolo : soloNodes model nodes ≠ []) :
    buildCandidates p maxMs rrCounter model nodes stats =
      (.ok (((sortBy (byLatency maxMs stats) (soloNodes model nodes)).rotate
          (rrCounter.toNat % (soloNodes model nodes).length)).map
            fun n => soloPlan (requestSpec model) n.capacity),
        rrCounter + 1) := by
  have hmem : ∀ n ∈ (sortBy (byLatency maxMs stats) (soloNodes model nodes)).rotate
      (rrCounter.toNat % (soloNodes model nodes).length), n ∈ soloNodes model nodes := by
    intro n hn
    exact (sortBy_perm _ _).mem_iff.mp (List.mem_rotate.mp hn)
  have hplans := soloCandidates_eq p (regular_requestSpec model)
    (fun n hn => hvram n (hmem n hn)) (fun n hn => (mem_soloNodes.mp (hmem n hn)).2.2)
  have hne : ((sortBy (byLatency maxMs stats) (soloNodes model nodes)).rotate
      (rrCounter.toNat % (soloNodes model nodes).length)).isEmpty = false := by
    rw [List.isEmpty_eq_false_iff, ne_eq, List.rotate_eq_nil_iff]
    intro hnil
    rw [← List.length_eq_zero_iff, (sortBy_perm _ _).length_eq] at hnil
    exact hsolo (List.length_eq_zero_iff.mp hnil)
  rw [buildCandidates_eq, if_neg hsolo, hplans]
  simp only [bind, Except.bind, pure, Except.pure, List.isEmpty_map, hne, Bool.false_eq_true,
    if_false]

/-! ## The plan over several nodes -/

/-- The assignments are on different nodes of the list, in order. -/
def OnDistinctNodes (nodes : List NodeInfo) (assignments : List ShardAssignment) : Prop :=
  ∃ chosen : List NodeInfo, chosen.Subperm nodes ∧
    List.Forall₂ (fun a n => Copies a n.capacity) assignments chosen

/-- A plan over the capacities of a list of nodes is on different nodes of it. -/
theorem onDistinctNodes_of_planShards {p : Profile} {model : ModelSpec} {nodes : List NodeInfo}
    {plan : ShardPlan} (hper : 1 ≤ model.vramPerLayerMb)
    (h : planShards p model (nodes.map NodeInfo.capacity) = .ok (.ok plan)) :
    OnDistinctNodes nodes plan.assignments := by
  obtain ⟨positions, hnodup, htaken, -⟩ := (planShards_sound p _ _ plan hper h).taken
  have hlen : (nodes.map NodeInfo.capacity).length = nodes.length := List.length_map _
  refine ⟨positions.map fun i => nodes.get (i.cast hlen), ?_, ?_⟩
  · have hpositions : (positions.map (Fin.cast hlen)).Subperm (List.finRange nodes.length) := by
      refine List.subperm_of_subset (hnodup.map (Fin.cast_injective hlen)) ?_
      intro i _
      exact List.mem_finRange i
    obtain ⟨kept, hperm, hsub⟩ := hpositions
    have hchosen := hperm.map nodes.get
    rw [List.map_map] at hchosen
    have hkept := hsub.map nodes.get
    rw [List.map_get_finRange] at hkept
    exact ⟨kept.map nodes.get, hchosen, hkept⟩
  · rw [List.forall₂_map_right_iff]
    refine htaken.imp ?_
    intro a i hcopies
    have hget : (nodes.map NodeInfo.capacity).get i = (nodes.get (i.cast hlen)).capacity := by
      simp
    rw [← hget]
    exact hcopies.1

theorem fallback_eq_ok {p : Profile} {maxMs : Ms} {model : String} {nodes : List NodeInfo}
    {stats : StatsMap Ms} {plans : List ShardPlan}
    (h : fallback p maxMs model nodes stats = .ok plans) :
    ∃ planned, buildPlan p maxMs model nodes stats = .ok planned ∧ planned.toList = plans := by
  unfold fallback at h
  cases hplan : buildPlan p maxMs model nodes stats with
  | error panic =>
      rw [hplan] at h
      cases h
  | ok planned =>
      rw [hplan] at h
      cases h
      exact ⟨planned, rfl, rfl⟩

/-- **Without a node for the whole model** there is no plan, or one over at least
two different online nodes. -/
theorem fallback_cases (p : Profile) (maxMs : Ms) {model : String} {nodes : List NodeInfo}
    (stats : StatsMap Ms) (hsum : (nodes.map (·.vramMb.toNat)).sum < 2 ^ 64)
    (hnone : soloNodes model nodes = []) :
    ∃ plans, fallback p maxMs model nodes stats = .ok plans ∧
      (plans = [] ∨ ∃ plan, plans = [plan] ∧ 2 ≤ plan.assignments.length ∧
        OnDistinctNodes (nodes.filter fun n => n.status = .online) plan.assignments) := by
  have hspec := regular_requestSpec model
  generalize hcandidates : sortBy (byVram maxMs stats) (nodes.filter fun n => n.status = .online) =
    candidates
  have hperm : candidates.Perm (nodes.filter fun n => n.status = .online) :=
    hcandidates ▸ sortBy_perm _ _
  have hsmall : ∀ c ∈ candidates.map NodeInfo.capacity,
      c.availableVramMb.toNat < (requestSpec model).neededMb := by
    intro c hc
    obtain ⟨n, hn, rfl⟩ := List.mem_map.mp hc
    have hn := List.mem_filter.mp (hperm.mem_iff.mp hn)
    by_contra hfits
    have hmem : n ∈ soloNodes model nodes :=
      mem_soloNodes.mpr ⟨hn.1, of_decide_eq_true hn.2, Nat.le_of_not_lt hfits⟩
    rw [hnone] at hmem
    exact List.not_mem_nil hmem
  have hsum' : ((candidates.map NodeInfo.capacity).map (·.availableVramMb.toNat)).sum < 2 ^ 64 := by
    rw [List.map_map]
    refine lt_of_le_of_lt ?_ hsum
    calc (candidates.map fun n => n.vramMb.toNat).sum
        = ((nodes.filter fun n => n.status = .online).map fun n => n.vramMb.toNat).sum :=
          (hperm.map _).sum_eq
      _ ≤ (nodes.map fun n => n.vramMb.toNat).sum :=
          ((List.filter_sublist).map _).sum_le_sum fun _ _ => Nat.zero_le _
  rw [fallback, buildPlan, hcandidates]
  by_cases hempty : (candidates.map NodeInfo.capacity).isEmpty
  · rw [if_pos hempty]
    exact ⟨[], rfl, .inl rfl⟩
  · obtain ⟨result, hresult⟩ := planShards_returns p hspec.perLayer_pos
      (hspec.needed_lt.trans (by decide)) hsum'
    rw [if_neg hempty, hresult]
    cases result with
    | error e => exact ⟨[], rfl, .inl rfl⟩
    | ok plan =>
        refine ⟨[plan], rfl, .inr ⟨plan, rfl, two_le_assignments hspec hsmall hresult, ?_⟩⟩
        obtain ⟨chosen, hchosen, hcopies⟩ := onDistinctNodes_of_planShards
          (UInt64.le_iff_toNat_le.mpr hspec.perLayer_pos) hresult
        exact ⟨chosen, hchosen.trans hperm.subperm, hcopies⟩

/-! ## Plans over online nodes -/

theorem exists_mem_of_forall₂ {α β : Type} {R : α → β → Prop} {l : List α} {l' : List β}
    (h : List.Forall₂ R l l') {a : α} (ha : a ∈ l) : ∃ b ∈ l', R a b := by
  induction h with
  | nil => cases ha
  | @cons first b l l' hfirst _ ih =>
      rcases List.mem_cons.mp ha with rfl | ha
      · exact ⟨b, List.mem_cons_self, hfirst⟩
      · obtain ⟨b', hb', hrelated⟩ := ih ha
        exact ⟨b', List.mem_cons_of_mem _ hb', hrelated⟩

/-- The node of a shard. -/
theorem exists_copied {nodes : List NodeInfo} {assignments : List ShardAssignment}
    (h : OnDistinctNodes nodes assignments) {a : ShardAssignment} (ha : a ∈ assignments) :
    ∃ n ∈ nodes, Copies a n.capacity := by
  obtain ⟨chosen, hchosen, hcopies⟩ := h
  obtain ⟨n, hn, hcopy⟩ := exists_mem_of_forall₂ hcopies ha
  exact ⟨n, hchosen.subset hn, hcopy⟩

theorem exists_of_mem_mapM {ε α β : Type} {f : α → Except ε β} {xs : List α} {ys : List β}
    (h : xs.mapM f = .ok ys) : ∀ y ∈ ys, ∃ x ∈ xs, f x = .ok y := by
  induction xs generalizing ys with
  | nil =>
      cases h
      simp
  | cons x xs ih =>
      rw [List.mapM_cons] at h
      cases hx : f x with
      | error e =>
          rw [hx] at h
          cases h
      | ok first =>
          cases hxs : xs.mapM f with
          | error e =>
              rw [hx, hxs] at h
              cases h
          | ok rest =>
              rw [hx, hxs] at h
              cases h
              refine List.forall_mem_cons.mpr ⟨⟨x, List.mem_cons_self, hx⟩, ?_⟩
              intro y hy
              obtain ⟨x', hx', hf⟩ := ih hxs y hy
              exact ⟨x', List.mem_cons_of_mem _ hx', hf⟩

section

variable {p : Profile} {maxMs : Ms} {model : String} {nodes : List NodeInfo} {stats : StatsMap Ms}
  {plans : List ShardPlan} {plan : ShardPlan}

/-- The plan is one over some of the online nodes. -/
def PlannedFrom (p : Profile) (model : String) (nodes : List NodeInfo)
    (plan : ShardPlan) : Prop :=
  ∃ chosen : List NodeInfo, (∀ n ∈ chosen, n ∈ nodes ∧ n.status = .online) ∧
    planShards p (requestSpec model) (chosen.map NodeInfo.capacity) = .ok (.ok plan)

theorem plannedFrom_fallback (h : fallback p maxMs model nodes stats = .ok plans)
    (hplan : plan ∈ plans) : PlannedFrom p model nodes plan := by
  rw [fallback] at h
  cases hbuilt : buildPlan p maxMs model nodes stats with
  | error panic =>
      rw [hbuilt] at h
      cases h
  | ok built =>
      rw [hbuilt] at h
      cases h
      obtain rfl := Option.mem_toList.mp hplan
      rw [buildPlan] at hbuilt
      refine ⟨sortBy (byVram maxMs stats) (nodes.filter fun n => n.status = .online), ?_, ?_⟩
      · intro n hn
        obtain ⟨hn, honline⟩ := List.mem_filter.mp ((sortBy_perm _ _).mem_iff.mp hn)
        exact ⟨hn, of_decide_eq_true honline⟩
      · split at hbuilt
        · cases hbuilt
        · cases hplanned : planShards p (requestSpec model)
              ((sortBy (byVram maxMs stats) (nodes.filter fun n => n.status = .online)).map
                NodeInfo.capacity) with
          | error panic =>
              rw [hplanned] at hbuilt
              cases hbuilt
          | ok result =>
              rw [hplanned] at hbuilt
              cases result with
              | error e => cases hbuilt
              | ok found =>
                  cases hbuilt
                  rfl

theorem plannedFrom_solo {solo : List NodeInfo} (hsolo : ∀ n ∈ solo, n ∈ nodes ∧ n.status = .online)
    (h : soloCandidates p (requestSpec model) solo = .ok plans) (hplan : plan ∈ plans) :
    PlannedFrom p model nodes plan := by
  rw [soloCandidates] at h
  cases hplanned : solo.mapM fun node => planShards p (requestSpec model) [node.capacity] with
  | error panic =>
      rw [hplanned] at h
      cases h
  | ok results =>
      rw [hplanned] at h
      cases h
      obtain ⟨result, hresult, hfound⟩ := List.mem_filterMap.mp hplan
      obtain ⟨n, hn, hone⟩ := exists_of_mem_mapM hplanned result hresult
      cases result with
      | error e => cases hfound
      | ok found =>
          cases hfound
          exact ⟨[n], by simpa using hsolo n hn, hone⟩

/-- Every candidate is a plan over some of the nodes. -/
theorem plannedFrom_buildCandidates {rrCounter : UInt64}
    (h : (buildCandidates p maxMs rrCounter model nodes stats).1 = .ok plans)
    (hplan : plan ∈ plans) : PlannedFrom p model nodes plan := by
  rw [buildCandidates_eq] at h
  split at h
  · exact plannedFrom_fallback h hplan
  · dsimp only at h
    cases hsolo : soloCandidates p (requestSpec model)
        ((sortBy (byLatency maxMs stats) (soloNodes model nodes)).rotate
          (rrCounter.toNat % (soloNodes model nodes).length)) with
    | error panic =>
        rw [hsolo] at h
        cases h
    | ok candidates =>
        rw [hsolo] at h
        simp only [bind, Except.bind, pure, Except.pure] at h
        split at h
        · exact plannedFrom_fallback h hplan
        · cases h
          refine plannedFrom_solo ?_ hsolo hplan
          intro n hn
          have hmem := (sortBy_perm _ _).mem_iff.mp (List.mem_rotate.mp hn)
          obtain ⟨hn, honline, -⟩ := mem_soloNodes.mp hmem
          exact ⟨hn, honline⟩

/-- A shard of such a plan is on one of the nodes. -/
theorem PlannedFrom.copied (h : PlannedFrom p model nodes plan) {a : ShardAssignment}
    (ha : a ∈ plan.assignments) : ∃ n ∈ nodes, n.status = .online ∧ Copies a n.capacity := by
  obtain ⟨chosen, hchosen, hplanned⟩ := h
  have hper : 1 ≤ (requestSpec model).vramPerLayerMb :=
    UInt64.le_iff_toNat_le.mpr (regular_requestSpec model).perLayer_pos
  obtain ⟨n, hn, hcopy⟩ := exists_copied (onDistinctNodes_of_planShards hper hplanned) ha
  exact ⟨n, (hchosen n hn).1, (hchosen n hn).2, hcopy⟩

end

/-! ## Every case -/

theorem controller_of_ne_nil {plan : ShardPlan} (h : plan.assignments ≠ []) :
    ∃ a, plan.controller = .ok a := by
  unfold ShardPlan.controller
  cases hassignments : plan.assignments with
  | nil => exact absurd hassignments h
  | cons a rest => exact ⟨a, rfl⟩

/-- What the candidates are for a counter value: with nodes that can hold the model
alone, one plan for each, stably sorted by latency, an unknown one last, then rotated;
without, at most one plan, over at least two nodes. -/
structure ExactCandidates (maxMs : Ms) (rrCounter : UInt64) (model : String)
    (nodes : List NodeInfo) (stats : StatsMap Ms) (plans : List ShardPlan) : Prop where
  solo : soloNodes model nodes ≠ [] → ∃ sorted,
    StableSort (byLatency maxMs stats) (soloNodes model nodes) sorted ∧
    (∀ known unknown s, stats.lookup known.id = some s → s.p50Ms < maxMs →
      stats.lookup unknown.id = none → ¬ [unknown, known].Sublist sorted) ∧
    plans.length = (soloNodes model nodes).length ∧
    plans = (sorted.rotate (rrCounter.toNat % (soloNodes model nodes).length)).map
      fun n => soloPlan (requestSpec model) n.capacity
  several : soloNodes model nodes = [] → plans = [] ∨ ∃ plan, plans = [plan] ∧
    2 ≤ plan.assignments.length ∧
    OnDistinctNodes (nodes.filter fun n => n.status = .online) plan.assignments
  controller : ∀ plan ∈ plans, ∃ a, plan.controller = .ok a

theorem exactCandidates_solo {maxMs : Ms} (rrCounter : UInt64) {model : String}
    {nodes : List NodeInfo} (stats : StatsMap Ms) (hsolo : soloNodes model nodes ≠ []) :
    ExactCandidates maxMs rrCounter model nodes stats
      (((sortBy (byLatency maxMs stats) (soloNodes model nodes)).rotate
          (rrCounter.toNat % (soloNodes model nodes).length)).map
        fun n => soloPlan (requestSpec model) n.capacity) where
  solo _ := by
    have hsort := stableSort_sortBy (byLatency maxMs stats) (soloNodes model nodes)
    refine ⟨_, hsort, ?_, ?_, rfl⟩
    · intro known unknown s hknown hlt hunknown hsub
      have hle := List.pairwise_pair.mp (hsort.ordered.sublist hsub)
      have hswap : byLatency maxMs stats unknown known =
          (byLatency maxMs stats known unknown).swap := Std.OrientedCmp.eq_swap
      rw [hswap, byLatency_of_unknown hknown hlt hunknown] at hle
      cases hle
    · rw [List.length_map, List.length_rotate, hsort.perm.length_eq]
  several hnone := absurd hnone hsolo
  controller := by
    intro plan hplan
    obtain ⟨n, -, rfl⟩ := List.mem_map.mp hplan
    exact ⟨_, rfl⟩

/-- **The candidates are exact**, and no call panics. -/
theorem buildCandidates_exact (p : Profile) (maxMs : Ms) (rrCounter : UInt64) (model : String)
    (nodes : List NodeInfo) (stats : StatsMap Ms)
    (hvram : ∀ n ∈ nodes, n.vramMb.toNat < 2 ^ 32)
    (hsum : (nodes.map (·.vramMb.toNat)).sum < 2 ^ 64) :
    ∃ plans, (buildCandidates p maxMs rrCounter model nodes stats).1 = .ok plans ∧
      ExactCandidates maxMs rrCounter model nodes stats plans := by
  by_cases hsolo : soloNodes model nodes = []
  · obtain ⟨plans, hplans, hcases⟩ := fallback_cases p maxMs stats hsum hsolo
    refine ⟨plans, ?_, fun hne => absurd hsolo hne, fun _ => hcases, ?_⟩
    · rw [buildCandidates_eq, if_pos hsolo, hplans]
    · rcases hcases with rfl | ⟨plan, rfl, htwo, -⟩
      · intro plan hplan
        cases hplan
      · intro other hother
        obtain rfl := List.mem_singleton.mp hother
        refine controller_of_ne_nil fun hnil => ?_
        rw [hnil] at htwo
        exact absurd htwo (by simp)
  · have hmemVram : ∀ n ∈ soloNodes model nodes, n.vramMb.toNat < 2 ^ 32 :=
      fun n hn => hvram n (mem_soloNodes.mp hn).1
    refine ⟨_, ?_, exactCandidates_solo rrCounter stats hsolo⟩
    rw [buildCandidates_solo p maxMs rrCounter stats hmemVram hsolo]

/-- The largest `f64`. -/
def f64Max : Nat := 2 ^ 1024 - 2 ^ 971

/-- An online node with its name as its id. -/
def gpu (name : String) (vramMb : UInt64) : NodeInfo :=
  { id := name
    name
    host := name ++ ".local"
    port := 11434
    agentPort := 8181
    gpuName := "RTX 4090"
    vramMb
    status := .online
    registeredAt := 0
    lastSeen := 0 }

/-- Two nodes with room for a 3b model, one of them measured. -/
theorem buildCandidates_exact_two_gpus :
    let nodes := [gpu "gpu0" 8192, gpu "gpu1" 24576]
    let stats : StatsMap Nat := [("gpu1", ⟨20, 30, 1⟩)]
    ∃ plans, (buildCandidates .release f64Max 1 "llama3.2:3b" nodes stats).1 = .ok plans ∧
      ExactCandidates f64Max 1 "llama3.2:3b" nodes stats plans :=
  buildCandidates_exact .release f64Max 1 "llama3.2:3b" _ _ (by decide) (by decide)

end InferPlatform.Gateway
