import InferPlatform.Base.Grouping
import InferPlatform.Gateway.Latency
import Mathlib.Algebra.Order.Field.Rat

/-!
# The uptime of the platform

The endpoint for a model reports an uptime over all online nodes, from one query over
`node_health`. The health monitor stores the uptime of one node, from another query. The
first one asks for successful probes only, and then for their share in what is left.

* `buildInferStats` — what the endpoint reports;
* `SameUptime` — it is the share of the successful probes, for one node that of the monitor;
* `sameUptime_iff` — **it is so exactly where no probe has failed**;
* `not_sameUptime_one_failure` — one success and one failure.
-/

namespace InferPlatform.Gateway

/-- What `build_infer_stats` returns; the numbers are rational. -/
structure InferStats where
  availableNodes : Nat
  latencyP50Ms : Option ℚ
  latencyP95Ms : Option ℚ
  uptime7d : Option ℚ
  deriving DecidableEq, Repr

/-- The rows of the query: `node_health` joined with `nodes`, and its `WHERE`. -/
def inferRows (db : Database) (now : Int) : List NodeHealth :=
  ((joinOn (fun r n => r.nodeId = n.id) db.nodeHealth db.nodes.rows).filter fun pair =>
    pair.2.status = "online" ∧ now - 604800000000 < pair.1.checkedAt ∧ pair.1.success).map (·.1)

def mean (values : List ℚ) : ℚ := values.sum / values.length

/-- `build_infer_stats`, from the lists in memory and the database; `ok` says whether the
query succeeds. -/
def buildInferStats (nodes : List NodeInfo) (stats : StatsMap ℚ) (db : Option Database)
    (now : Int) (ok : Bool) : InferStats :=
  let snapshot := stats.map (·.2)
  let availableNodes := nodes.countP fun n => n.status = .online
  match db, ok with
  | some db, true =>
    let rows := inferRows db now
    let latencies := (rows.filterMap (·.latencyMs)).map fun ms => (ms.toInt : ℚ)
    { availableNodes
      latencyP50Ms := percentileCont (1 / 2) latencies
      latencyP95Ms := percentileCont (19 / 20) latencies
      uptime7d := uptime rows }
  -- no database, or a query that failed
  | _, _ =>
    if snapshot = [] then
      { availableNodes, latencyP50Ms := none, latencyP95Ms := none, uptime7d := none }
    else
      { availableNodes
        latencyP50Ms := some (mean (snapshot.map (·.p50Ms)))
        latencyP95Ms := some (mean (snapshot.map (·.p95Ms)))
        uptime7d := some (mean (snapshot.map (·.uptime7d))) }

/-- The probes of the online nodes in the last seven days. -/
def onlineProbes (db : Database) (now : Int) : List NodeHealth :=
  db.nodeHealth.filter fun r =>
    now - 604800000000 < r.checkedAt ∧ ∃ n ∈ db.nodes.rows, n.status = "online" ∧ n.id = r.nodeId

/-- The uptime that is returned from the database is the share of the successful probes,
and for a single online node the one that the monitor stores for it. -/
structure SameUptime (nodes : List NodeInfo) (stats : StatsMap ℚ) (db : Database) (now : Int) :
    Prop where
  ofProbes : (buildInferStats nodes stats (some db) now true).uptime7d =
    some (((onlineProbes db now).countP fun r => r.success : ℚ) / (onlineProbes db now).length)
  ofNode : ∀ n, (db.nodes.rows.filter fun n => n.status = "online") = [n] →
    (buildInferStats nodes stats (some db) now true).uptime7d =
      some (computeStats db.nodeHealth n.id now).uptime7d

/-! ## The rows of both queries -/

/-- A row has one node at most. -/
theorem countP_node_le_one (db : Database) (r : NodeHealth) :
    db.nodes.rows.countP (fun n => r.nodeId = n.id) ≤ 1 := by
  have hcount := List.nodup_iff_count_le_one.mp db.nodes.ids r.nodeId
  rw [List.count, List.countP_map] at hcount
  refine le_trans (List.countP_mono_left ?_) hcount
  intro n _ hn
  exact beq_iff_eq.mpr (of_decide_eq_true hn).symm

/-- The query looks at the successful probes. -/
theorem inferRows_eq (db : Database) (now : Int) :
    inferRows db now = (onlineProbes db now).filter fun r => r.success := by
  have hjoin := map_filter_joinOn
    (fun (r : NodeHealth) (n : DbNode) =>
      n.status = "online" ∧ now - 604800000000 < r.checkedAt ∧ r.success)
    fun r (_ : r ∈ db.nodeHealth) => countP_node_le_one db r
  rw [inferRows, hjoin, onlineProbes, List.filter_filter]
  apply List.filter_congr
  intro r _
  rw [Bool.eq_iff_iff]
  simp only [List.any_eq_true, Bool.and_eq_true, decide_eq_true_eq]
  constructor
  · rintro ⟨n, hn, hid, honline, hweek, hok⟩
    exact ⟨hok, hweek, n, hn, honline, hid.symm⟩
  · rintro ⟨hok, hweek, n, hn, honline, hid⟩
    exact ⟨n, hn, hid.symm, honline, hweek, hok⟩

/-- All rows of the query are successes, so their share is 1, or there are none. -/
theorem uptime7d_eq (nodes : List NodeInfo) (stats : StatsMap ℚ) (db : Database) (now : Int) :
    (buildInferStats nodes stats (some db) now true).uptime7d =
      if ∃ r ∈ onlineProbes db now, r.success then some 1 else none := by
  show uptime (inferRows db now) = _
  have hall : (inferRows db now).countP (fun r => r.success) = (inferRows db now).length := by
    rw [List.countP_eq_length, inferRows_eq]
    intro r hr
    exact (List.mem_filter.mp hr).2
  rw [uptime, hall]
  by_cases hsome : ∃ r ∈ onlineProbes db now, r.success
  · have hpos : (inferRows db now).length ≠ 0 := by
      obtain ⟨r, hr, hok⟩ := hsome
      rw [inferRows_eq]
      exact List.length_pos_of_mem (List.mem_filter.mpr ⟨hr, hok⟩) |>.ne'
    rw [if_neg hpos, if_pos hsome, div_self (Nat.cast_ne_zero.mpr hpos)]
  · have hzero : (inferRows db now).length = 0 := by
      rw [inferRows_eq, List.length_eq_zero_iff, List.filter_eq_nil_iff]
      intro r hr hok
      exact hsome ⟨r, hr, hok⟩
    rw [if_pos hzero, if_neg hsome]

/-- With one online node the probes are the ones that the monitor counts. -/
theorem onlineProbes_single {db : Database} {n : DbNode} (now : Int)
    (hsingle : (db.nodes.rows.filter fun n => n.status = "online") = [n]) :
    onlineProbes db now =
      db.nodeHealth.filter fun r => r.nodeId = n.id ∧ now - 604800000000 < r.checkedAt := by
  have honline : ∀ n', n' ∈ db.nodes.rows ∧ n'.status = "online" ↔ n' = n := by
    intro n'
    rw [← List.mem_singleton (a := n'), ← hsingle, List.mem_filter, decide_eq_true_eq]
  apply List.filter_congr
  intro r _
  rw [decide_eq_decide]
  constructor
  · rintro ⟨hweek, n', hn', hstatus, hid⟩
    rw [(honline n').mp ⟨hn', hstatus⟩] at hid
    exact ⟨hid.symm, hweek⟩
  · rintro ⟨hid, hweek⟩
    obtain ⟨hn, hstatus⟩ := (honline n).mpr rfl
    exact ⟨hweek, n, hn, hstatus, hid.symm⟩

/-- A share is 1 where everything counts, and only there. -/
theorem share_eq_one_iff {α : Type} {l : List α} {p : α → Bool} (hl : l ≠ []) :
    (l.countP p : ℚ) / l.length = 1 ↔ ∀ a ∈ l, p a := by
  have hlength : (l.length : ℚ) ≠ 0 := by
    simpa using hl
  rw [div_eq_one_iff_eq hlength, Nat.cast_inj, List.countP_eq_length]

/-- **The uptime is the same where no probe has failed, and only there.** -/
theorem sameUptime_iff (nodes : List NodeInfo) (stats : StatsMap ℚ) (db : Database) (now : Int)
    (hprobes : onlineProbes db now ≠ []) :
    SameUptime nodes stats db now ↔ ∀ r ∈ onlineProbes db now, r.success := by
  constructor
  · intro hsame
    have hshare := hsame.ofProbes
    rw [uptime7d_eq] at hshare
    split at hshare
    · rw [← share_eq_one_iff hprobes]
      exact (Option.some.inj hshare).symm
    · cases hshare
  · intro hall
    obtain ⟨r, hr⟩ := List.exists_mem_of_ne_nil _ hprobes
    have hone : (buildInferStats nodes stats (some db) now true).uptime7d = some 1 := by
      rw [uptime7d_eq, if_pos ⟨r, hr, hall r hr⟩]
    have hshare := (share_eq_one_iff hprobes).mpr hall
    refine ⟨?_, ?_⟩
    · rw [hone, hshare]
    · intro n hsingle
      rw [onlineProbes_single now hsingle] at hprobes hshare
      have hlength : _ ≠ 0 := mt List.length_eq_zero_iff.mp hprobes
      rw [hone]
      show _ = some ((uptime _).getD 0)
      rw [uptime, if_neg hlength, hshare]
      rfl

/-! ## Answers and a failure -/

/-- One online node, and its probes. -/
def oneOnline (probes : List NodeHealth) : Database where
  nodes := ⟨[.ofNodeInfo (gpu "gpu0" 8192)], List.nodup_singleton _, List.nodup_singleton _⟩
  nodeHealth := probes
  nodeModels := []

/-- Two online nodes with their probes, of which one has failed more than a week ago. -/
def twoAnswering : Database where
  nodes := ⟨[.ofNodeInfo (gpu "gpu0" 8192), .ofNodeInfo (gpu "gpu1" 8192)], by decide, by decide⟩
  nodeHealth := [⟨"gpu0", some 20, true, 1000⟩, ⟨"gpu1", none, false, -700000000000⟩,
    ⟨"gpu1", some 35, true, 1200⟩, ⟨"gpu0", some 25, true, 1500⟩]
  nodeModels := []

theorem sameUptime_answering : SameUptime [] [] twoAnswering 2000 :=
  (sameUptime_iff [] [] twoAnswering 2000 (by decide)).mpr (by decide)

/-- One answer and one failure: the endpoint says 1, the monitor ½. -/
theorem not_sameUptime_one_failure :
    let db := oneOnline [⟨"gpu0", some 20, true, 1000⟩, ⟨"gpu0", none, false, 1500⟩]
    (buildInferStats [] [] (some db) 2000 true).uptime7d = some 1 ∧
      (computeStats db.nodeHealth "gpu0" 2000).uptime7d = 1 / 2 ∧
      onlineProbes db 2000 ≠ [] ∧ ¬ SameUptime [] [] db 2000 := by
  refine ⟨by decide +kernel, by decide +kernel, by decide, ?_⟩
  intro hsame
  exact absurd (hsame.ofNode (.ofNodeInfo (gpu "gpu0" 8192)) rfl) (by decide +kernel)

end InferPlatform.Gateway
