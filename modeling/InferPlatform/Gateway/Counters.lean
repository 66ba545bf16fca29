import InferPlatform.Gateway.Health

/-!
# The two failure counters

The health monitor counts the failures of a node in two ways. With a database it counts
the newest ten rows after every probe; in memory it keeps a `u32` for every node, which a
success removes and a failure increments without a check.

* `run_probeDb`, `run_probeMemory` — a probe is what the monitor does for one target;
* `countersAgree_iff` — **the counters give a node the same statuses after every probe if
  it never fails 2^32 probes in a row**, and only then;
* `not_countersAgree_wrapped` — after so many failures memory mode has the node online.
-/

namespace InferPlatform.Gateway

/-- The outcome of a probe, and the time of its row. -/
structure Probe where
  success : Bool
  latencyMs : Int32
  checkedAt : Int
  deriving DecidableEq, Repr

/-- `probe_db`, where all of its statements succeed. -/
def probeDb (db : Database) (id : String) (p : Probe) : Option Database :=
  (recordProbe db id p.success (if p.success then some p.latencyMs else none) p.checkedAt).map
    fun db' => updateNodeStatus db' id (countConsecutiveFailures db' id true)

/-- The tables after probes of one node. -/
def probeAllDb (db : Database) (id : String) (probes : List Probe) : Option Database :=
  probes.foldlM (fun db p => probeDb db id p) db

/-- The list and the counters after probes of one node. -/
def probeAllMemory (nodes : List NodeInfo) (counts : FailureCounts) (id : String)
    (probes : List Probe) : List NodeInfo × FailureCounts :=
  probes.foldl (fun s p => probeMemory s.1 s.2 id p.success) (nodes, counts)

/-- What the monitor does for a target with a database. -/
theorem run_probeDb {st : RegistryState} {target : Target} {queue : List Target}
    {db db' : Database} {p : Probe} (hpc : st.monitor = .next (target :: queue))
    (hdb : st.store.db = some db) (h : probeDb db target.id p = some db') :
    registry.run AllSucceed st [.ping p.success p.latencyMs, .recordProbe p.checkedAt .ok,
      .countFailures true, .updateStatus .ok] =
        some { st with store := { st.store with db := some db' }, monitor := .next queue } := by
  obtain ⟨recorded, hrecord, rfl⟩ := Option.map_eq_some_iff.mp h
  simp [System.run, registry, registryStep, AllSucceed, hpc, hdb, hrecord]

/-- What the monitor does for a target in memory mode. -/
theorem run_probeMemory {st : RegistryState} {target : Target} {queue : List Target} (p : Probe)
    (hpc : st.monitor = .next (target :: queue)) (hdb : st.store.db = none) :
    registry.run AllSucceed st [.ping p.success p.latencyMs] =
      some ⟨{ st.store with
          nodes := (probeMemory st.store.nodes st.failureCounts target.id p.success).1 },
        (probeMemory st.store.nodes st.failureCounts target.id p.success).2, .next queue⟩ := by
  simp [System.run, registry, registryStep, AllSucceed, hpc, hdb]

/-! ## What the counters should agree on -/

/-- After the probes the node has one status in both storage modes. -/
def SameStatus (db : Database) (nodes : List NodeInfo) (counts : FailureCounts) (id : String)
    (probes : List Probe) : Prop :=
  ∃ db', probeAllDb db id probes = some db' ∧ ∃ status,
    NodeStore.statusOf ⟨some db', []⟩ id = some status ∧
      NodeStore.statusOf ⟨none, (probeAllMemory nodes counts id probes).1⟩ id = some status

/-- After every probe the node has one status in both storage modes. -/
def CountersAgree (db : Database) (nodes : List NodeInfo) (counts : FailureCounts) (id : String)
    (probes : List Probe) : Prop :=
  ∀ earlier, earlier <+: probes → earlier ≠ [] → SameStatus db nodes counts id earlier

/-- The failures since the last success. -/
def failuresAtEnd (probes : List Probe) : Nat :=
  (probes.reverse.takeWhile fun p => ¬ p.success).length

/-- So many probes in a row have failed. -/
def FailsInARow (n : Nat) (probes : List Probe) : Prop :=
  ∃ earlier, earlier <+: probes ∧ n ≤ failuresAtEnd earlier

@[simp] theorem failuresAtEnd_nil : failuresAtEnd [] = 0 := rfl

theorem failuresAtEnd_concat (probes : List Probe) (p : Probe) :
    failuresAtEnd (probes ++ [p]) = if p.success then 0 else failuresAtEnd probes + 1 := by
  rw [failuresAtEnd, List.reverse_append, List.reverse_singleton, List.singleton_append,
    List.takeWhile_cons]
  cases p.success <;> simp [failuresAtEnd]

/-- Before more failures in a row there have been fewer. -/
theorem FailsInARow.exactly {n : Nat} {probes : List Probe} (h : FailsInARow n probes) :
    ∃ earlier, earlier <+: probes ∧ failuresAtEnd earlier = n := by
  obtain ⟨earlier, hprefix, hle⟩ := h
  induction earlier using List.reverseRecOn with
  | nil =>
      refine ⟨[], hprefix, ?_⟩
      rw [failuresAtEnd_nil] at hle ⊢
      omega
  | append_singleton earlier p ih =>
      by_cases hn : failuresAtEnd (earlier ++ [p]) = n
      · exact ⟨_, hprefix, hn⟩
      · apply ih ((List.prefix_append _ _).trans hprefix)
        rw [failuresAtEnd_concat] at hle hn
        split at hle
        · simp_all
        · rename_i hfailed
          rw [if_neg hfailed] at hn
          omega

/-! ## What one probe does to either count -/

/-- The rows of the node show the failures at the end; the counter shows them as far as a
`u32` can. -/
structure Counted (id : String) (probes : List Probe) (db : Database) (nodes : List NodeInfo)
    (counts : FailureCounts) : Prop where
  rows : trailingFailures db.nodeHealth id = failuresAtEnd probes
  counter : (counts.get id).toNat = failuresAtEnd probes % 4294967296
  times : ∀ r ∈ db.nodeHealth, r.nodeId = id → ∃ p ∈ probes, r.checkedAt = p.checkedAt
  table : id ∈ db.nodes.rows.map (·.id)
  memory : id ∈ nodes.map (·.id)

theorem map_id_setNodeStatus (id : String) (status : NodeStatus) (nodes : List NodeInfo) :
    (setNodeStatus id status nodes).map (·.id) = nodes.map (·.id) := by
  induction nodes with
  | nil => rfl
  | cons n nodes ih =>
      rw [setNodeStatus]
      split
      · rfl
      · rw [List.map_cons, ih, List.map_cons]

theorem map_id_updateNodeStatus (db : Database) (id : String) (consec : UInt32) :
    (updateNodeStatus db id consec).nodes.rows.map (·.id) = db.nodes.rows.map (·.id) := by
  simp only [updateNodeStatus, NodeTable.setStatus, NodeTable.update, List.map_map]
  apply List.map_congr_left
  intro r _
  show (if decide (r.id = id) then _ else r).id = r.id
  split <;> rfl

theorem Counted.probe {id : String} {probes : List Probe} {db : Database} {nodes : List NodeInfo}
    {counts : FailureCounts} (h : Counted id probes db nodes counts) {p : Probe}
    (hlast : ∀ earlier ∈ probes, earlier.checkedAt < p.checkedAt) :
    ∃ db', probeDb db id p = some db' ∧
      Counted id (probes ++ [p]) db' (probeMemory nodes counts id p.success).1
        (probeMemory nodes counts id p.success).2 := by
  let row : NodeHealth := ⟨id, if p.success then some p.latencyMs else none, p.success, p.checkedAt⟩
  let recorded : Database := { db with nodeHealth := db.nodeHealth ++ [row] }
  have hrecord : recordProbe db id p.success (if p.success then some p.latencyMs else none)
      p.checkedAt = some recorded := if_pos h.table
  refine ⟨updateNodeStatus recorded id (countConsecutiveFailures recorded id true), ?_, ?_⟩
  · rw [probeDb, hrecord]
    rfl
  have holder : ∀ r ∈ db.nodeHealth, r.nodeId = row.nodeId → r.checkedAt < row.checkedAt := by
    intro r hr hnode
    obtain ⟨earlier, hearlier, htime⟩ := h.times r hr hnode
    rw [htime]
    exact hlast earlier hearlier
  refine ⟨?_, ?_, ?_, ?_, ?_⟩
  · -- the new row is the newest one of the node
    have hcount : trailingFailures (db.nodeHealth ++ [row]) id =
        if p.success then 0 else trailingFailures db.nodeHealth id + 1 :=
      trailingFailures_concat holder
    show trailingFailures (db.nodeHealth ++ [row]) id = _
    rw [hcount, h.rows, failuresAtEnd_concat]
  · rw [get_probeMemory, if_pos rfl, failuresAtEnd_concat]
    cases p.success with
    | true => rfl
    | false =>
        -- the increment is the one of a `u32`
        have hcounter := h.counter
        simp only [Bool.false_eq_true, if_false, UInt32.toNat_add, UInt32.reduceToNat]
        omega
  · intro r hr hnode
    rcases List.mem_append.mp (show r ∈ db.nodeHealth ++ [row] from hr) with hold | hnew
    · obtain ⟨earlier, hearlier, htime⟩ := h.times r hold hnode
      exact ⟨earlier, List.mem_append_left _ hearlier, htime⟩
    · obtain rfl := List.mem_singleton.mp hnew
      exact ⟨p, by simp, rfl⟩
  · rw [map_id_updateNodeStatus]
    exact h.table
  · rw [probeMemory, map_id_setNodeStatus]
    exact h.memory

/-- Both counts stand for one status as long as the counter has not wrapped, or counts ten
failures again. -/
theorem byFailures_eq_iff {window counter : UInt32} {failures : Nat}
    (hwindow : window.toNat = min 10 failures) (hcounter : counter.toNat = failures % 4294967296) :
    byFailures window NodeStatus.offline .degraded .online =
        byFailures counter .offline .degraded .online ↔
      failures < 4294967296 ∨ 10 ≤ failures % 4294967296 := by
  have hten : ∀ n : UInt32, 10 ≤ n ↔ 10 ≤ n.toNat := fun _ => UInt32.le_iff_toNat_le
  have hthree : ∀ n : UInt32, 3 ≤ n ↔ 3 ≤ n.toNat := fun _ => UInt32.le_iff_toNat_le
  simp only [byFailures, hten, hthree, hwindow, hcounter]
  by_cases hlt : failures < 4294967296
  · have hmod : failures % 4294967296 = failures := Nat.mod_eq_of_lt hlt
    rw [hmod]
    refine iff_of_true ?_ (.inl hlt)
    by_cases h10 : 10 ≤ failures
    · simp [h10]
    · by_cases h3 : 3 ≤ failures <;> simp [h10, h3]
  · -- the window is full of failures, while the counter starts again
    have hmin : min 10 failures = 10 := by omega
    rw [hmin]
    by_cases h10 : 10 ≤ failures % 4294967296
    · simp [h10]
    · have hdiffer : ¬ NodeStatus.offline =
          if 3 ≤ failures % 4294967296 then .degraded else .online := by
        split <;> simp
      simpa [h10, hlt] using hdiffer

theorem exists_statusOf {st : NodeStore} {id : String} (h : id ∈ st.roster.map (·.id)) :
    ∃ status, st.statusOf id = some status := by
  obtain ⟨n, hn, hid⟩ := List.mem_map.mp h
  have hfound : (st.roster.find? fun n => n.id = id).isSome := by
    rw [List.find?_isSome]
    exact ⟨n, hn, by simpa using hid⟩
  obtain ⟨m, hm⟩ := Option.isSome_iff_exists.mp hfound
  exact ⟨m.status, by rw [NodeStore.statusOf, hm]; rfl⟩

/-- The status that `probe_db` derives. -/
theorem statusOf_probeDb {db db' : Database} {id : String} {p : Probe}
    (h : probeDb db id p = some db') :
    NodeStore.statusOf ⟨some db', []⟩ id =
      some (byFailures (countConsecutiveFailures db' id true) .offline .degraded .online) := by
  obtain ⟨recorded, hrecord, rfl⟩ := Option.map_eq_some_iff.mp h
  obtain ⟨hid, hrecorded⟩ := recordProbe_eq_some hrecord
  obtain ⟨old, hold⟩ : ∃ old, NodeStore.statusOf ⟨some recorded, []⟩ id = some old := by
    apply exists_statusOf
    rw [roster_of_db rfl, List.map_map, hrecorded]
    exact hid
  have hstatus : NodeStore.statusOf ⟨some (updateNodeStatus recorded id
      (countConsecutiveFailures recorded id true)), []⟩ id =
        (NodeStore.statusOf ⟨some recorded, []⟩ id).map fun _ =>
          byFailures (countConsecutiveFailures recorded id true) .offline .degraded .online := by
    have hdb : (NodeStore.mk (some recorded) []).db = some recorded := rfl
    exact statusOf_updateNodeStatus hdb id _
  rw [hold] at hstatus
  exact hstatus

/-- The status that `probe_memory` derives. -/
theorem statusOf_probeMemory {nodes : List NodeInfo} {counts : FailureCounts} {id : String}
    {success : Bool} (h : id ∈ nodes.map (·.id)) :
    NodeStore.statusOf ⟨none, (probeMemory nodes counts id success).1⟩ id =
      some (byFailures ((probeMemory nodes counts id success).2.get id)
        .offline .degraded .online) := by
  obtain ⟨old, hold⟩ : ∃ old, NodeStore.statusOf ⟨none, nodes⟩ id = some old := by
    apply exists_statusOf
    rw [roster_of_memory rfl]
    exact h
  have hstatus : NodeStore.statusOf ⟨none, (probeMemory nodes counts id success).1⟩ id =
      (NodeStore.statusOf ⟨none, nodes⟩ id).map fun _ =>
        byFailures (if success then 0 else counts.get id + 1) .offline .degraded .online := by
    have hdb : (NodeStore.mk none nodes).db = none := rfl
    exact statusOf_pingMemory hdb counts id success
  rw [hstatus, hold, get_probeMemory, if_pos rfl]
  rfl

/-! ## What a whole sequence does -/

theorem probeAllDb_concat (db : Database) (id : String) (probes : List Probe) (p : Probe) :
    probeAllDb db id (probes ++ [p]) =
      (probeAllDb db id probes).bind fun db' => probeDb db' id p := by
  simp [probeAllDb, List.foldlM_append]

theorem probeAllMemory_concat (nodes : List NodeInfo) (counts : FailureCounts) (id : String)
    (probes : List Probe) (p : Probe) :
    probeAllMemory nodes counts id (probes ++ [p]) =
      probeMemory (probeAllMemory nodes counts id probes).1
        (probeAllMemory nodes counts id probes).2 id p.success := by
  simp [probeAllMemory, List.foldl_append]

section Probes

variable {db : Database} {nodes : List NodeInfo} {counts : FailureCounts} {id : String}
  (htable : id ∈ db.nodes.rows.map (·.id)) (hmemory : id ∈ nodes.map (·.id))
  (hrows : ∀ r ∈ db.nodeHealth, r.nodeId ≠ id) (hcounts : counts.get id = 0)
include htable hmemory hrows hcounts

theorem counted_probeAll {probes : List Probe}
    (htimes : probes.Pairwise fun p q => p.checkedAt < q.checkedAt) :
    ∃ db', probeAllDb db id probes = some db' ∧
      Counted id probes db' (probeAllMemory nodes counts id probes).1
        (probeAllMemory nodes counts id probes).2 := by
  induction probes using List.reverseRecOn with
  | nil =>
      have hnone : (db.nodeHealth.filter fun r => r.nodeId = id) = [] := by
        simpa using hrows
      refine ⟨db, rfl, ?_, ?_, ?_, htable, hmemory⟩
      · simp [trailingFailures, hnone]
      · rw [show (probeAllMemory nodes counts id []).2 = counts from rfl, hcounts]
        rfl
      · intro r hr hnode
        exact absurd hnode (hrows r hr)
  | append_singleton probes p ih =>
      obtain ⟨hbefore, -, hlast⟩ := List.pairwise_append.mp htimes
      obtain ⟨db', hdb', hcounted⟩ := ih hbefore
      obtain ⟨db'', hprobe, hcounted'⟩ := hcounted.probe fun q hq => hlast q hq p (by simp)
      refine ⟨db'', ?_, ?_⟩
      · rw [probeAllDb_concat, hdb']
        exact hprobe
      · rw [probeAllMemory_concat]
        exact hcounted'

/-- After a probe the statuses are those of the two counts. -/
theorem sameStatus_iff {probes : List Probe}
    (htimes : probes.Pairwise fun p q => p.checkedAt < q.checkedAt) (hne : probes ≠ []) :
    SameStatus db nodes counts id probes ↔
      failuresAtEnd probes < 4294967296 ∨ 10 ≤ failuresAtEnd probes % 4294967296 := by
  obtain ⟨db', hdb', hafter⟩ := counted_probeAll htable hmemory hrows hcounts htimes
  obtain ⟨earlier, p, rfl⟩ : ∃ earlier p, probes = earlier ++ [p] :=
    ⟨_, _, (List.dropLast_append_getLast hne).symm⟩
  obtain ⟨before, hbefore, hcounted⟩ :=
    counted_probeAll htable hmemory hrows hcounts (List.pairwise_append.mp htimes).1
  have hprobe : probeDb before id p = some db' := by
    rw [probeAllDb_concat, hbefore] at hdb'
    exact hdb'
  have hmemory' : NodeStore.statusOf
      ⟨none, (probeAllMemory nodes counts id (earlier ++ [p])).1⟩ id =
        some (byFailures ((probeAllMemory nodes counts id (earlier ++ [p])).2.get id)
          .offline .degraded .online) := by
    rw [probeAllMemory_concat]
    exact statusOf_probeMemory hcounted.memory
  have hwindow : (countConsecutiveFailures db' id true).toNat =
      min 10 (failuresAtEnd (earlier ++ [p])) := by
    rw [countConsecutiveFailures_toNat, hafter.rows]
  rw [← byFailures_eq_iff hwindow hafter.counter]
  constructor
  · rintro ⟨last, hlast, status, htable', hlist⟩
    obtain rfl : db' = last := Option.some.inj (hdb'.symm.trans hlast)
    rw [statusOf_probeDb hprobe] at htable'
    rw [hmemory'] at hlist
    exact Option.some.inj (htable'.trans hlist.symm)
  · intro hsame
    refine ⟨db', hdb', _, statusOf_probeDb hprobe, ?_⟩
    rw [hmemory', hsame]

/-- **Both counters give a node the same statuses after every probe** if it never fails 2^32
probes in a row, and only then. -/
theorem countersAgree_iff {probes : List Probe}
    (htimes : probes.Pairwise fun p q => p.checkedAt < q.checkedAt) :
    CountersAgree db nodes counts id probes ↔ ¬ FailsInARow 4294967296 probes := by
  have hafter : ∀ earlier, earlier <+: probes → earlier ≠ [] →
      (SameStatus db nodes counts id earlier ↔
        failuresAtEnd earlier < 4294967296 ∨ 10 ≤ failuresAtEnd earlier % 4294967296) :=
    fun earlier hprefix hne =>
      sameStatus_iff htable hmemory hrows hcounts (htimes.sublist hprefix.sublist) hne
  constructor
  · intro hagree hrow
    -- the counter wraps where the row of failures gets so long
    obtain ⟨earlier, hprefix, hfailures⟩ := hrow.exactly
    have hne : earlier ≠ [] := by
      rintro rfl
      rw [failuresAtEnd_nil] at hfailures
      omega
    have hsame := (hafter earlier hprefix hne).mp (hagree earlier hprefix hne)
    rw [hfailures] at hsame
    omega
  · intro hrow earlier hprefix hne
    apply (hafter earlier hprefix hne).mpr
    left
    by_contra hlong
    exact hrow ⟨earlier, hprefix, by omega⟩

end Probes

/-! ## One node -/

def probedNode : NodeInfo := newNode sampleRequest sampleInput

/-- A table of one node that has not been probed. -/
def probedTable : Database := ⟨⟨[.ofNodeInfo probedNode], by decide, by decide⟩, [], []⟩

/-- Three failures and a success. -/
theorem countersAgree_iff_recovery :
    CountersAgree probedTable [probedNode] [] "node-1"
      [⟨false, 0, 1⟩, ⟨false, 0, 2⟩, ⟨false, 0, 3⟩, ⟨true, 20, 4⟩] := by
  apply (countersAgree_iff (by decide) (by decide) (by decide) (by decide) (by decide)).mpr
  rintro ⟨earlier, hprefix, hlong⟩
  have hlength : failuresAtEnd earlier ≤ earlier.length := by
    have hreverse : earlier.reverse.length = earlier.length := List.length_reverse
    rw [failuresAtEnd, ← hreverse]
    exact (List.takeWhile_sublist _).length_le
  have hfour : earlier.length ≤ 4 := hprefix.length_le
  omega

/-- Probes that fail at the times from 0 on. -/
def failing (n : Nat) : List Probe := (List.range n).map fun i : Nat => (⟨false, 0, i⟩ : Probe)

theorem failuresAtEnd_failing (n : Nat) : failuresAtEnd (failing n) = n := by
  induction n with
  | zero => rfl
  | succ n ih =>
      have hlast : failing (n + 1) = failing n ++ [⟨false, 0, n⟩] := by
        simp [failing, List.range_succ]
      rw [hlast, failuresAtEnd_concat, ih]
      rfl

theorem pairwise_failing (n : Nat) :
    (failing n).Pairwise fun p q => p.checkedAt < q.checkedAt := by
  rw [failing, List.pairwise_map]
  exact List.pairwise_lt_range.imp fun hlt => by simpa using hlt

/-- After 2^32 failures in a row the row is offline, but the node in memory is online. -/
theorem not_countersAgree_wrapped :
    ¬ CountersAgree probedTable [probedNode] [] "node-1" (failing 4294967296) := by
  intro hagree
  have hfailures := failuresAtEnd_failing 4294967296
  have hne : failing 4294967296 ≠ [] := by
    intro hnil
    rw [hnil, failuresAtEnd_nil] at hfailures
    omega
  have hsame := (sameStatus_iff (by decide) (by decide) (by decide) (by decide)
    (pairwise_failing _) hne).mp (hagree _ (List.prefix_refl _) hne)
  rw [hfailures] at hsame
  omega

end InferPlatform.Gateway
