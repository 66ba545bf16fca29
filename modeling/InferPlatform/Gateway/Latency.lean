import InferPlatform.Gateway.Coordinator
import Mathlib.Algebra.Order.Floor.Defs
import Mathlib.Data.Rat.Floor

/-!
# Latency statistics

With a database the health monitor stores statistics of a node after every probe, and the
coordinator sorts by them. A node without statistics counts as slow as can be; one whose
statistics hold no successful probe has a latency of zero.

* `computeStats` — the statistics of a node, over the rational numbers;
* `MeasuredFirst` — a measured node comes before one without a successful probe;
* `not_measuredFirst` — **it never does**.
-/

namespace InferPlatform.Gateway

open Planner

/-- `percentile_cont`: the value at a rank between two neighbours is taken in proportion. -/
def percentileCont (fraction : ℚ) (values : List ℚ) : Option ℚ :=
  let sorted := values.insertionSort (· ≤ ·)
  let rank := fraction * ((sorted.length : ℚ) - 1)
  match sorted[⌊rank⌋.toNat]?, sorted[⌈rank⌉.toNat]? with
  | some lower, some upper => some (lower + (rank - ⌊rank⌋) * (upper - lower))
  | _, _ => none

/-- The successful probes of a node in the last hour. -/
def recentSuccesses (rows : List NodeHealth) (nodeId : String) (now : Int) : List NodeHealth :=
  rows.filter fun r => r.nodeId = nodeId ∧ now - 3600000000 < r.checkedAt ∧ r.success

/-- Successful probes by all probes, if there are any. -/
def uptime (rows : List NodeHealth) : Option ℚ :=
  if rows.length = 0 then none
  else some ((rows.countP fun r => r.success : ℚ) / (rows.length : ℚ))

/-- `compute_stats`, where both queries succeed. An aggregate without rows becomes 0. -/
def computeStats (rows : List NodeHealth) (nodeId : String) (now : Int) : NodeStats ℚ :=
  let latencies :=
    ((recentSuccesses rows nodeId now).filterMap (·.latencyMs)).map fun ms => (ms.toInt : ℚ)
  let week := rows.filter fun r => r.nodeId = nodeId ∧ now - 604800000000 < r.checkedAt
  { p50Ms := (percentileCont (1 / 2) latencies).getD 0
    p95Ms := (percentileCont (19 / 20) latencies).getD 0
    uptime7d := (uptime week).getD 0 }

/-- The end of `probe_db`: `node_stats.insert`, unless a query failed. -/
def storeStats (stats : StatsMap ℚ) (rows : List NodeHealth) (nodeId : String) (now : Int)
    (ok : Bool) : StatsMap ℚ :=
  if ok then
    (nodeId, computeStats rows nodeId now) :: stats.filter fun entry => entry.1 ≠ nodeId
  else stats

/-- The map holds what was computed for the node, from the rows there were. -/
def Stored (stats : StatsMap ℚ) (rows : List NodeHealth) (nodeId : String) (now : Int) : Prop :=
  stats.lookup nodeId = some (computeStats rows nodeId now)

theorem stored_storeStats (stats : StatsMap ℚ) (rows : List NodeHealth) (nodeId : String)
    (now : Int) : Stored (storeStats stats rows nodeId now true) rows nodeId now := by
  simp [Stored, storeStats]

/-- Statistics of another node stay. -/
theorem Stored.storeStats_of_ne {stats : StatsMap ℚ} {rows rows' : List NodeHealth}
    {nodeId other : String} {now now' : Int} (h : Stored stats rows nodeId now)
    (hne : nodeId ≠ other) (ok : Bool) :
    Stored (storeStats stats rows' other now' ok) rows nodeId now := by
  have hlookup : ∀ entries : StatsMap ℚ,
      (entries.filter fun entry => entry.1 ≠ other).lookup nodeId = entries.lookup nodeId := by
    intro entries
    induction entries with
    | nil => rfl
    | cons entry entries ih =>
        obtain ⟨id, s⟩ := entry
        by_cases hid : id = other
        · have hother : (nodeId == id) = false := by simp [hid, hne]
          rw [List.filter_cons_of_neg (by simp [hid]), ih, List.lookup_cons, hother]
        · rw [List.filter_cons_of_pos (by simp [hid]), List.lookup_cons, List.lookup_cons, ih]
  cases ok with
  | false => exact h
  | true =>
      have hother : (nodeId == other) = false := by simp [hne]
      show List.lookup nodeId (_ :: _) = _
      rw [List.lookup_cons, hother]
      exact (hlookup stats).trans h

/-- The node has been probed, and no probe of the last hour succeeded. -/
structure Unmeasured (rows : List NodeHealth) (nodeId : String) (now : Int) : Prop where
  probed : ∃ r ∈ rows, r.nodeId = nodeId
  noSuccess : recentSuccesses rows nodeId now = []

/-- Without a successful probe the latency is zero. -/
theorem Unmeasured.p50 {rows : List NodeHealth} {nodeId : String} {now : Int}
    (h : Unmeasured rows nodeId now) : (computeStats rows nodeId now).p50Ms = 0 := by
  simp [computeStats, h.noSuccess, percentileCont]

/-- In the order of the candidates before the rotation, the measured node is first. -/
def MeasuredFirst (maxMs : ℚ) (model : String) (nodes : List NodeInfo) (stats : StatsMap ℚ)
    (measured unmeasured : NodeInfo) : Prop :=
  [measured, unmeasured].Sublist (sortBy (byLatency maxMs stats) (soloNodes model nodes))

/-- The comparison prefers the node without a successful probe. -/
theorem byLatency_unmeasured {maxMs : ℚ} {stats : StatsMap ℚ} {measured unmeasured : NodeInfo}
    {rows rows' : List NodeHealth} {now now' : Int} (hstored : Stored stats rows measured.id now)
    (hstored' : Stored stats rows' unmeasured.id now')
    (hmeasured : 0 < (computeStats rows measured.id now).p50Ms)
    (hunmeasured : Unmeasured rows' unmeasured.id now') :
    byLatency maxMs stats unmeasured measured = .lt := by
  have hlatency : compareOn (p50 maxMs stats) unmeasured measured = .lt := by
    show compare (p50 maxMs stats unmeasured) (p50 maxMs stats measured) = .lt
    rw [p50, p50, hstored, hstored']
    show compare (computeStats rows' unmeasured.id now').p50Ms
      (computeStats rows measured.id now).p50Ms = .lt
    rw [hunmeasured.p50]
    exact compare_lt_iff_lt.mpr hmeasured
  rw [byLatency, compareLex, hlatency]
  rfl

/-- **A measured node is never first**: of two nodes that can hold the model alone, the one
that failed all its probes comes before the one with a positive latency. -/
theorem not_measuredFirst (maxMs : ℚ) (model : String) (nodes : List NodeInfo)
    (stats : StatsMap ℚ) (rows rows' : List NodeHealth) (now now' : Int)
    (measured unmeasured : NodeInfo) (hmem : measured ∈ soloNodes model nodes)
    (hmem' : unmeasured ∈ soloNodes model nodes) (hstored : Stored stats rows measured.id now)
    (hstored' : Stored stats rows' unmeasured.id now')
    (hmeasured : 0 < (computeStats rows measured.id now).p50Ms)
    (hunmeasured : Unmeasured rows' unmeasured.id now') :
    ¬ MeasuredFirst maxMs model nodes stats measured unmeasured ∧
      [unmeasured, measured].Sublist (sortBy (byLatency maxMs stats) (soloNodes model nodes)) := by
  have hlt : byLatency maxMs stats unmeasured measured = .lt :=
    byLatency_unmeasured hstored hstored' hmeasured hunmeasured
  have hswap : byLatency maxMs stats measured unmeasured =
      (byLatency maxMs stats unmeasured measured).swap := Std.OrientedCmp.eq_swap
  have hsort := stableSort_sortBy (byLatency maxMs stats) (soloNodes model nodes)
  have hnot : ¬ MeasuredFirst maxMs model nodes stats measured unmeasured := by
    intro hfirst
    have hle := List.pairwise_pair.mp (hsort.ordered.sublist hfirst)
    rw [hswap, hlt] at hle
    cases hle
  have hne : measured ≠ unmeasured := by
    rintro rfl
    rw [hlt] at hswap
    cases hswap
  refine ⟨hnot, ?_⟩
  exact (pair_sublist_or (hsort.perm.mem_iff.mpr hmem) (hsort.perm.mem_iff.mpr hmem')
    hne).resolve_left hnot

/-! ## Two nodes -/

/-- One node that answered after 20 ms, and one that did not answer. -/
def probedTwice : List NodeHealth :=
  [⟨"gpu0", some 20, true, 1000⟩, ⟨"gpu1", none, false, 1000⟩]

def twoStats : StatsMap ℚ :=
  storeStats (storeStats [] probedTwice "gpu0" 2000 true) probedTwice "gpu1" 2000 true

theorem unmeasured_gpu1 : Unmeasured probedTwice "gpu1" 2000 :=
  ⟨⟨_, List.mem_cons_of_mem _ List.mem_cons_self, rfl⟩, by decide⟩

theorem p50_gpu0 : (computeStats probedTwice "gpu0" 2000).p50Ms = 20 := by
  decide +kernel

/-- The one that did not answer comes first. -/
theorem unmeasured_first :
    sortBy (byLatency (f64Max : ℚ) twoStats)
        (soloNodes "llama3.2:3b" [gpu "gpu0" 8192, gpu "gpu1" 8192]) =
      [gpu "gpu1" 8192, gpu "gpu0" 8192] ∧
      ¬ MeasuredFirst f64Max "llama3.2:3b" [gpu "gpu0" 8192, gpu "gpu1" 8192] twoStats
        (gpu "gpu0" 8192) (gpu "gpu1" 8192) := by
  have hsort : sortBy (byLatency (f64Max : ℚ) twoStats)
      (soloNodes "llama3.2:3b" [gpu "gpu0" 8192, gpu "gpu1" 8192]) =
        [gpu "gpu1" 8192, gpu "gpu0" 8192] := by decide +kernel
  refine ⟨hsort, ?_⟩
  rw [MeasuredFirst, hsort]
  decide

theorem not_measuredFirst_two_gpus :
    ¬ MeasuredFirst f64Max "llama3.2:3b" [gpu "gpu0" 8192, gpu "gpu1" 8192] twoStats
        (gpu "gpu0" 8192) (gpu "gpu1" 8192) := by
  have hp50 : 0 < (computeStats probedTwice (gpu "gpu0" 8192).id 2000).p50Ms := by
    show 0 < (computeStats probedTwice "gpu0" 2000).p50Ms
    rw [p50_gpu0]
    decide
  exact (not_measuredFirst f64Max "llama3.2:3b" [gpu "gpu0" 8192, gpu "gpu1" 8192] twoStats
    probedTwice probedTwice 2000 2000 (gpu "gpu0" 8192) (gpu "gpu1" 8192) (by decide) (by decide)
    ((stored_storeStats _ _ _ _).storeStats_of_ne (by decide) true) (stored_storeStats _ _ _ _)
    hp50 unmeasured_gpu1).1

end InferPlatform.Gateway
