import InferPlatform.Gateway.Registration
import InferPlatform.Gateway.Registry

/-!
# The roster

The nodes where the gateway keeps them: the rows of its table, or else its list in
memory. A registration is an upsert of the roster and every other writer sets a
status where a condition holds, in either storage mode.
-/

namespace InferPlatform.Gateway

/-- The nodes of the gateway, from the table if there is one. -/
def NodeStore.roster (st : NodeStore) : List NodeInfo :=
  match st.db with
  | some db => db.nodes.rows.map (·.toNodeInfo)
  | none => st.nodes

/-- The name of the node with an id. -/
def NodeStore.nameOf (st : NodeStore) (id : String) : Option String :=
  (st.roster.find? fun n => n.id = id).map (·.name)

/-- The status of the node with an id. -/
def NodeStore.statusOf (st : NodeStore) (id : String) : Option NodeStatus :=
  (st.roster.find? fun n => n.id = id).map (·.status)

/-- What an upsert of the store keeps of an old record. -/
def NodeStore.merge (st : NodeStore) (old new : NodeInfo) : NodeInfo :=
  if st.db = none then new else keepFirst old new

/-- The nodes of a condition get a status. -/
def setWhere (p : NodeInfo → Prop) [DecidablePred p] (status : NodeStatus)
    (nodes : List NodeInfo) : List NodeInfo :=
  nodes.map fun n => if p n then { n with status } else n

section SetWhere

variable {p : NodeInfo → Prop} [DecidablePred p] {status : NodeStatus} {nodes : List NodeInfo}

@[simp] theorem map_name_setWhere : (setWhere p status nodes).map (·.name) = nodes.map (·.name) := by
  rw [setWhere, List.map_map]
  apply List.map_congr_left
  intro n _
  show (if p n then { n with status } else n).name = n.name
  split <;> rfl

@[simp] theorem map_id_setWhere : (setWhere p status nodes).map (·.id) = nodes.map (·.id) := by
  rw [setWhere, List.map_map]
  apply List.map_congr_left
  intro n _
  show (if p n then { n with status } else n).id = n.id
  split <;> rfl

theorem mem_setWhere {n : NodeInfo} (h : n ∈ setWhere p status nodes) :
    ∃ old ∈ nodes, n.id = old.id ∧ n.name = old.name ∧
      n.status = if p old then status else old.status := by
  obtain ⟨old, hold, rfl⟩ := List.mem_map.mp h
  refine ⟨old, hold, ?_⟩
  split <;> exact ⟨rfl, rfl, rfl⟩

end SetWhere

/-! ## What each writer does to the roster -/

theorem roster_of_memory {st : NodeStore} (hdb : st.db = none) : st.roster = st.nodes := by
  simp [NodeStore.roster, hdb]

theorem roster_of_db {st : NodeStore} {db : Database} (hdb : st.db = some db) :
    st.roster = db.nodes.rows.map (·.toNodeInfo) := by
  simp [NodeStore.roster, hdb]

theorem register_rejected {st : NodeStore} {req : RegisterNodeRequest} {input : RegisterInput}
    (h : findViolations req.models ≠ []) : (register st req input).1 = st := by
  simp [register, h]

/-- An accepted registration is an upsert, also where the answer to its statement is lost. -/
theorem roster_upserted {st : NodeStore} {req : RegisterNodeRequest} {input : RegisterInput}
    (haccepted : findViolations req.models = []) (hok : st.db ≠ none → input.upsert ≠ .failed)
    (hfresh : st.Fresh input.id) :
    (register st req input).1.roster =
      upsertBy (·.name) st.merge (newNode req input) st.roster := by
  cases hdb : st.db with
  | none =>
      have hmerge : st.merge = fun _ new => new := by
        funext old new
        exact if_pos hdb
      have hregister : (register st req input).1 =
          ⟨none, registerMemory st.nodes (newNode req input)⟩ := by
        simp [register, haccepted, hdb]
      rw [hregister, hmerge, roster_of_memory rfl, roster_of_memory hdb, registerMemory_eq]
  | some db =>
      have hne : st.db ≠ none := by simp [hdb]
      have hmerge : st.merge = keepFirst := by
        funext old new
        exact if_neg hne
      have hid : (newNode req input).id ∉ db.nodes.rows.map (·.id) := hfresh.2 db hdb
      obtain ⟨t, row, hupsert, ht, -⟩ := upsert_toNodeInfo hid rfl
      rw [roster_of_db hdb, hmerge, ← ht]
      cases ho : input.upsert with
      | ok => simp [register, haccepted, hdb, hupsert, ho, NodeStore.roster]
      | lost => simp [register, haccepted, hdb, hupsert, ho, NodeStore.roster]
      | failed => exact absurd ho (hok hne)

theorem roster_register {st : NodeStore} {req : RegisterNodeRequest} {input : RegisterInput}
    (haccepted : findViolations req.models = []) (hok : st.db ≠ none → input.upsert = .ok)
    (hfresh : st.Fresh input.id) :
    (register st req input).1.roster =
      upsertBy (·.name) st.merge (newNode req input) st.roster :=
  roster_upserted haccepted (fun hne => by simp [hok hne]) hfresh

/-- A statement that fails leaves the table. -/
theorem roster_register_failed {st : NodeStore} {req : RegisterNodeRequest} {input : RegisterInput}
    (hdb : st.db ≠ none) (hfailed : input.upsert = .failed) :
    (register st req input).1.roster = st.roster := by
  unfold register
  dsimp only
  split
  · rfl
  · cases hst : st.db with
    | none => exact absurd hst hdb
    | some db =>
        rw [roster_of_db hst, hfailed]
        dsimp only
        cases db.nodes.upsert (newNode req input) with
        | none => rfl
        | some upserted => rfl

/-- A text stands for `offline` after the sweep's statement if it did or the node is
stale. -/
theorem toNodeInfo_stale (r : DbNode) (cutoff : Int) :
    (if r.lastSeen < cutoff ∧ r.status ≠ "offline" then { r with status := "offline" }
      else r).toNodeInfo =
      if r.toNodeInfo.lastSeen < cutoff then { r.toNodeInfo with status := .offline }
      else r.toNodeInfo := by
  have hlastSeen : r.toNodeInfo.lastSeen = r.lastSeen := rfl
  by_cases hstale : r.lastSeen < cutoff
  · by_cases hstatus : r.status = "offline"
    · simp [hstatus, hstale, DbNode.toNodeInfo, NodeStatus.ofText]
    · rw [if_pos ⟨hstale, hstatus⟩, hlastSeen, if_pos hstale]
      rfl
  · rw [if_neg (fun h => hstale h.1), hlastSeen, if_neg hstale]

/-- A sweep takes every stale node offline. -/
theorem roster_sweep {st : NodeStore} {now : Int} {o : Outcome} (ho : st.db ≠ none → o ≠ .failed) :
    (sweep st now o).roster = setWhere (fun n => n.lastSeen < now - 90000000) .offline st.roster := by
  cases hdb : st.db with
  | none =>
      have hsweep : (sweep st now o).db = none := sweep_db_eq_none.mpr hdb
      rw [roster_of_memory hsweep, roster_of_memory hdb]
      simp only [sweep, hdb, setWhere]
      apply List.map_congr_left
      intro n _
      by_cases hstatus : n.status = .offline
      · have hsame : { n with status := .offline } = n := by rw [← hstatus]
        simp [hstatus, hsame]
      · simp [hstatus]
  | some db =>
      have hok : o ≠ .failed := ho (by simp [hdb])
      simp only [sweep, hdb, if_neg hok, NodeStore.roster, NodeTable.setStatus, NodeTable.update,
        setWhere, List.map_map]
      apply List.map_congr_left
      intro r _
      simpa using toNodeInfo_stale r (now - 90000000)

theorem sweep_failed {st : NodeStore} {now : Int} (hdb : st.db ≠ none) :
    sweep st now .failed = st := by
  cases hst : st.db with
  | none => exact absurd hst hdb
  | some db => simp [sweep, hst]

/-- The first node of an id is the only one. -/
theorem setNodeStatus_eq {id : String} {status : NodeStatus} {nodes : List NodeInfo}
    (h : (nodes.map (·.id)).Nodup) :
    setNodeStatus id status nodes = setWhere (fun n => n.id = id) status nodes := by
  induction nodes with
  | nil => rfl
  | cons n nodes ih =>
      rw [List.map_cons, List.nodup_cons] at h
      rw [setNodeStatus, ih h.2]
      split
      · rename_i hn
        have hrest : setWhere (fun n => n.id = id) status nodes = nodes := by
          conv_rhs => rw [← List.map_id nodes]
          apply List.map_congr_left
          intro m hm
          have hne : ¬ m.id = id := fun hmid => h.1 (List.mem_map.mpr ⟨m, hm, hmid.trans hn.symm⟩)
          exact if_neg hne
        show { n with status } :: nodes = (if n.id = id then { n with status } else n) ::
          setWhere (fun n => n.id = id) status nodes
        rw [if_pos hn, hrest]
      · rename_i hn
        show n :: setWhere (fun n => n.id = id) status nodes =
          (if n.id = id then { n with status } else n) :: setWhere (fun n => n.id = id) status nodes
        rw [if_neg hn]

theorem ofText_byFailures (consec : UInt32) :
    NodeStatus.ofText (byFailures consec "offline" "degraded" "online") =
      byFailures consec .offline .degraded .online := by
  unfold byFailures
  split
  · rfl
  · split <;> rfl

/-- The second statement of a probe sets the status of one node. -/
theorem roster_updateNodeStatus {st : NodeStore} {db : Database} (hdb : st.db = some db)
    (id : String) (consec : UInt32) :
    NodeStore.roster { st with db := some (updateNodeStatus db id consec) } =
      setWhere (fun n => n.id = id) (byFailures consec .offline .degraded .online) st.roster := by
  rw [roster_of_db hdb]
  simp only [NodeStore.roster, updateNodeStatus, NodeTable.setStatus, NodeTable.update, setWhere,
    List.map_map, ← ofText_byFailures]
  apply List.map_congr_left
  intro r _
  show (if decide (r.id = id) then _ else r).toNodeInfo = if r.id = id then _ else r.toNodeInfo
  by_cases hr : r.id = id <;> simp [hr, DbNode.toNodeInfo]

/-- The first statement of a probe needs its node, and leaves the nodes. -/
theorem recordProbe_eq_some {db db' : Database} {id : String} {success : Bool}
    {latencyMs : Option Int32} {checkedAt : Int}
    (h : recordProbe db id success latencyMs checkedAt = some db') :
    id ∈ db.nodes.rows.map (·.id) ∧
      db' = { db with nodeHealth := db.nodeHealth ++ [⟨id, latencyMs, success, checkedAt⟩] } := by
  unfold recordProbe at h
  split at h
  · rename_i hid
    exact ⟨hid, (Option.some.inj h).symm⟩
  · cases h

/-- A registration writes no probe. -/
theorem nodeHealth_register {st : NodeStore} {req : RegisterNodeRequest} {input : RegisterInput} :
    (register st req input).1.db.map (·.nodeHealth) = st.db.map (·.nodeHealth) := by
  unfold register
  dsimp only
  split
  · rfl
  · cases hdb : st.db with
    | none => rfl
    | some db =>
        dsimp only
        split <;> rfl

theorem nodeHealth_sweep {st : NodeStore} {now : Int} {o : Outcome} :
    (sweep st now o).db.map (·.nodeHealth) = st.db.map (·.nodeHealth) := by
  unfold sweep
  dsimp only
  cases hdb : st.db with
  | none => rfl
  | some db =>
      dsimp only
      split
      · rw [hdb]
      · rfl

/-! ## Names and ids are unique -/

/-- No two nodes of the roster share a name or an id. -/
structure Distinct (nodes : List NodeInfo) : Prop where
  names : (nodes.map (·.name)).Nodup
  ids : (nodes.map (·.id)).Nodup

theorem Distinct.setWhere {p : NodeInfo → Prop} [DecidablePred p] {status : NodeStatus}
    {nodes : List NodeInfo} (h : Distinct nodes) : Distinct (setWhere p status nodes) := by
  refine ⟨?_, ?_⟩
  · rw [map_name_setWhere]
    exact h.names
  · rw [map_id_setWhere]
    exact h.ids

/-- A table is distinct by its constraints. -/
theorem distinct_of_db {st : NodeStore} (hdb : st.db ≠ none) : Distinct st.roster := by
  obtain ⟨db, hst⟩ := Option.ne_none_iff_exists'.mp hdb
  rw [roster_of_db hst]
  refine ⟨?_, ?_⟩
  · rw [List.map_map]
    exact db.nodes.names
  · rw [List.map_map]
    exact db.nodes.ids

theorem merge_name (st : NodeStore) (old new : NodeInfo) (h : old.name = new.name) :
    (st.merge old new).name = new.name := by
  unfold NodeStore.merge
  split
  · rfl
  · exact h

theorem merge_id (st : NodeStore) (old new : NodeInfo) :
    (st.merge old new).id = if st.db = none then new.id else old.id := by
  unfold NodeStore.merge
  split <;> rfl

theorem Distinct.upsert {st : NodeStore} {node : NodeInfo} (h : Distinct st.roster)
    (hid : node.id ∉ st.roster.map (·.id)) :
    Distinct (upsertBy (·.name) st.merge node st.roster) := by
  refine ⟨nodup_upsertBy (merge_name st) node h.names, ?_⟩
  apply nodup_map_upsertBy h.ids hid
  intro old _ _
  rw [merge_id]
  split
  · exact .inr rfl
  · exact .inl rfl

theorem not_mem_ids_of_fresh {st : NodeStore} {id : String} (h : st.Fresh id) :
    id ∉ st.roster.map (·.id) := by
  cases hdb : st.db with
  | none =>
      rw [roster_of_memory hdb]
      intro hmem
      obtain ⟨n, hn, hid⟩ := List.mem_map.mp hmem
      exact h.1 n hn hid
  | some db =>
      rw [roster_of_db hdb, List.map_map]
      exact h.2 db hdb

theorem distinct_register {st : NodeStore} {req : RegisterNodeRequest} {input : RegisterInput}
    (haccepted : findViolations req.models = []) (hok : input.upsert = .ok)
    (hfresh : st.Fresh input.id) (h : Distinct st.roster) :
    Distinct (register st req input).1.roster := by
  rw [roster_register haccepted (fun _ => hok) hfresh]
  exact h.upsert (not_mem_ids_of_fresh hfresh)

/-- A registration leaves the records of other names. -/
theorem mem_register_of_ne {st : NodeStore} {req : RegisterNodeRequest} {input : RegisterInput}
    (haccepted : findViolations req.models = []) (hok : input.upsert = .ok)
    (hfresh : st.Fresh input.id) {n : NodeInfo} (hn : n ∈ (register st req input).1.roster)
    (hne : n.name ≠ req.name) : n ∈ st.roster := by
  rw [roster_register haccepted (fun _ => hok) hfresh] at hn
  rcases mem_upsertBy hn with ⟨rfl, -⟩ | hn | ⟨old, -, hold, rfl⟩
  · exact absurd rfl hne
  · exact hn
  · exact absurd (merge_name st old _ hold) hne

/-- With a database, a record after a registration is new or has the id of an old one. -/
theorem mem_register_of_db {st : NodeStore} {req : RegisterNodeRequest} {input : RegisterInput}
    (haccepted : findViolations req.models = []) (hok : input.upsert = .ok)
    (hfresh : st.Fresh input.id) (hdb : st.db ≠ none) {n : NodeInfo}
    (hn : n ∈ (register st req input).1.roster) :
    n.name ∉ st.roster.map (·.name) ∨ ∃ old ∈ st.roster, n.id = old.id ∧ n.name = old.name := by
  rw [roster_register haccepted (fun _ => hok) hfresh] at hn
  rcases mem_upsertBy hn with ⟨rfl, hnew⟩ | hn | ⟨old, hold, hsame, rfl⟩
  · exact .inl hnew
  · exact .inr ⟨n, hn, rfl, rfl⟩
  · refine .inr ⟨old, hold, ?_, ?_⟩
    · rw [merge_id, if_neg hdb]
    · rw [merge_name _ _ _ hsame, hsame]

theorem nameOf_of_mem {st : NodeStore} (h : Distinct st.roster) {n : NodeInfo}
    (hn : n ∈ st.roster) : st.nameOf n.id = some n.name := by
  rw [NodeStore.nameOf, (find?_key_eq_some_iff h.ids).mpr hn]
  rfl

theorem exists_of_nameOf {st : NodeStore} {id name : String} (h : st.nameOf id = some name) :
    ∃ n ∈ st.roster, n.id = id ∧ n.name = name := by
  obtain ⟨n, hn, hname⟩ := Option.map_eq_some_iff.mp h
  exact ⟨n, List.mem_of_find?_eq_some hn, by simpa using List.find?_some hn, hname⟩

/-- The name of an id is the name of every node with it. -/
theorem nameOf_eq {st : NodeStore} (h : Distinct st.roster) {id name : String}
    (hname : st.nameOf id = some name) {n : NodeInfo} (hn : n ∈ st.roster) (hid : n.id = id) :
    n.name = name := by
  rw [← hid, nameOf_of_mem h hn] at hname
  exact Option.some.inj hname

/-- An id without a name is of no node. -/
theorem id_ne_of_nameOf {st : NodeStore} (h : Distinct st.roster) {id : String}
    (hname : st.nameOf id = none) {n : NodeInfo} (hn : n ∈ st.roster) : n.id ≠ id := by
  intro hid
  rw [← hid, nameOf_of_mem h hn] at hname
  cases hname

/-- With unique names, only the node of an id has its name. -/
theorem nameOf_ne {st : NodeStore} (h : Distinct st.roster) {id name : String}
    (hid : st.nameOf id = some name) {n : NodeInfo} (hn : n ∈ st.roster) (hne : n.id ≠ id) :
    n.name ≠ name := by
  intro hname
  obtain ⟨m, hm, rfl, rfl⟩ := exists_of_nameOf hid
  exact hne (congrArg NodeInfo.id (List.inj_on_of_nodup_map h.names hn hm hname))

/-- A probe that cannot be recorded is of no node. -/
theorem nameOf_eq_none {st : NodeStore} {db : Database} {id : String} {success : Bool}
    {latencyMs : Option Int32} {checkedAt : Int} (hdb : st.db = some db)
    (h : recordProbe db id success latencyMs checkedAt = none) : st.nameOf id = none := by
  cases hname : st.nameOf id with
  | none => rfl
  | some name =>
      obtain ⟨n, hn, hid, -⟩ := exists_of_nameOf hname
      have hmem : id ∈ db.nodes.rows.map (·.id) := by
        rw [roster_of_db hdb] at hn
        obtain ⟨row, hrow, rfl⟩ := List.mem_map.mp hn
        exact List.mem_map.mpr ⟨row, hrow, hid⟩
      rw [recordProbe, if_pos hmem] at h
      cases h

/-- What a ping in memory mode does to the list. -/
theorem roster_pingMemory {st : NodeStore} {counts : FailureCounts} {id : String} {success : Bool}
    (hdb : st.db = none) (h : Distinct st.roster) :
    NodeStore.roster { st with nodes := (probeMemory st.nodes counts id success).1 } =
      setWhere (fun n => n.id = id)
        (byFailures (if success then 0 else counts.get id + 1) .offline .degraded .online)
        st.roster := by
  rw [roster_of_memory hdb] at h ⊢
  rw [← setNodeStatus_eq h.ids]
  cases success <;> simp [NodeStore.roster, hdb, probeMemory, FailureCounts.get]

/-! ## Statuses after a probe -/

theorem find?_setNodeStatus (id : String) (status : NodeStatus) (nodes : List NodeInfo) :
    ((setNodeStatus id status nodes).find? fun n => n.id = id).map (·.status) =
      (nodes.find? fun n => n.id = id).map fun _ => status := by
  induction nodes with
  | nil => rfl
  | cons n nodes ih =>
      rw [setNodeStatus]
      by_cases hn : n.id = id
      · simp [hn]
      · simp [hn, ih]

theorem find?_setWhere (id : String) (status : NodeStatus) (nodes : List NodeInfo) :
    ((setWhere (fun n => n.id = id) status nodes).find? fun n => n.id = id).map (·.status) =
      (nodes.find? fun n => n.id = id).map fun _ => status := by
  induction nodes with
  | nil => rfl
  | cons n nodes ih =>
      show (((if n.id = id then { n with status } else n) ::
        setWhere (fun n => n.id = id) status nodes).find? fun n => n.id = id).map _ = _
      by_cases hn : n.id = id
      · simp [hn]
      · simp [hn, ih]

/-- The status after a ping in memory mode. -/
theorem statusOf_pingMemory {st : NodeStore} (hdb : st.db = none) (counts : FailureCounts)
    (id : String) (success : Bool) :
    NodeStore.statusOf { st with nodes := (probeMemory st.nodes counts id success).1 } id =
      (st.statusOf id).map fun _ =>
        byFailures (if success then 0 else counts.get id + 1) .offline .degraded .online := by
  have hroster : NodeStore.roster { st with nodes := (probeMemory st.nodes counts id success).1 } =
      setNodeStatus id
        (byFailures (if success then 0 else counts.get id + 1) .offline .degraded .online)
        st.nodes := by
    cases success <;> simp [NodeStore.roster, hdb, probeMemory, FailureCounts.get]
  rw [NodeStore.statusOf, hroster, find?_setNodeStatus, NodeStore.statusOf, roster_of_memory hdb,
    Option.map_map]
  rfl

/-- The status after the last statement of a probe. -/
theorem statusOf_updateNodeStatus {st : NodeStore} {db : Database} (hdb : st.db = some db)
    (id : String) (consec : UInt32) :
    NodeStore.statusOf { st with db := some (updateNodeStatus db id consec) } id =
      (st.statusOf id).map fun _ => byFailures consec .offline .degraded .online := by
  rw [NodeStore.statusOf, roster_updateNodeStatus hdb, find?_setWhere, NodeStore.statusOf,
    Option.map_map]
  rfl

theorem distinct_move {st st' : RegistryState} {a : RegistryAction} (hmove : RegistryMove st a st')
    (h : Distinct st.store.roster) : Distinct st'.store.roster := by
  by_cases hdb : st'.store.db = none
  · cases hmove with
    | @register req input hfresh =>
        have hdb' : st.store.db = none := register_db_eq_none.mp hdb
        by_cases haccepted : findViolations req.models = []
        · rw [roster_register haccepted (fun hne => absurd hdb' hne) hfresh]
          exact h.upsert (not_mem_ids_of_fresh hfresh)
        · rw [register_rejected haccepted]
          exact h
    | sweep =>
        have hdb' : st.store.db = none := sweep_db_eq_none.mp hdb
        rw [roster_sweep fun hne => absurd hdb' hne]
        exact h.setWhere
    | tick | pingDb | drop | count | updateFailed => exact h
    | pingMemory _ hnone =>
        rw [roster_pingMemory hnone h]
        exact h.setWhere
    | record | update => cases hdb
  · exact distinct_of_db hdb

end InferPlatform.Gateway
