import InferPlatform.Gateway.Nodes

/-!
# The registry over time

Registrations, probe rounds and sweeps of a gateway interleave, statement by
statement. Inference is routed by the list in memory; the node list endpoint
shows the table, if there is one.

* `registry` — the gateway's store and its health monitor as a system;
* `routingAgrees_iff` — **where no statement fails, the two views agree in memory
  mode and over tables without an online node, and nowhere else**;
* `registered_not_routable` — a node that is registered and listed, but never
  chosen.
-/

namespace InferPlatform.Gateway

/-! ## The system -/

/-- Where the health monitor stands in its round: its next statement, and the
targets that are left. -/
inductive MonitorPc
  | next (queue : List Target)
  | record (target : Target) (success : Bool) (latencyMs : Option Int32) (queue : List Target)
  | count (target : Target) (queue : List Target)
  | update (target : Target) (consec : UInt32) (queue : List Target)
  deriving DecidableEq, Repr

structure RegistryState where
  store : NodeStore
  failureCounts : FailureCounts
  monitor : MonitorPc
  deriving DecidableEq

inductive RegistryAction
  | register (req : RegisterNodeRequest) (input : RegisterInput)
  | sweep (now : Int) (o : Outcome)
  | tick (ok : Bool)
  | ping (success : Bool) (latencyMs : Int32)
  | recordProbe (checkedAt : Int) (o : Outcome)
  | countFailures (ok : Bool)
  | updateStatus (o : Outcome)
  deriving DecidableEq, Repr

/-- No node has the id. -/
def NodeStore.Fresh (st : NodeStore) (id : String) : Prop :=
  (∀ n ∈ st.nodes, n.id ≠ id) ∧ ∀ db ∈ st.db, id ∉ db.nodes.rows.map (·.id)

instance (st : NodeStore) (id : String) : Decidable (st.Fresh id) :=
  inferInstanceAs (Decidable (_ ∧ _))

/-- A registration has a fresh id. The monitor starts a round, pings the targets of
the round one after the other, and records each result with three statements if
there is a database, or else at once. -/
def registryStep (st : RegistryState) : RegistryAction → Option RegistryState
  | .register req input =>
    if st.store.Fresh input.id then some { st with store := (register st.store req input).1 }
    else none
  | .sweep now o => some { st with store := sweep st.store now o }
  | .tick ok =>
    match st.monitor with
    | .next [] => some { st with monitor := .next (collectTargets st.store ok) }
    | _ => none
  | .ping success latencyMs =>
    match st.monitor, st.store.db with
    | .next (target :: queue), some _ =>
      some { st with
        monitor := .record target success (if success then some latencyMs else none) queue }
    | .next (target :: queue), none =>
      let probed := probeMemory st.store.nodes st.failureCounts target.id success
      -- memory mode: counters and list change together
      some ⟨{ st.store with nodes := probed.1 }, probed.2, .next queue⟩
    | _, _ => none
  | .recordProbe checkedAt o =>
    match st.monitor, st.store.db with
    | .record target success latencyMs queue, some db =>
      match recordProbe db target.id success latencyMs checkedAt, o with
      -- the probe is dropped
      | none, _ | some _, .failed => some { st with monitor := .next queue }
      | some db', .ok =>
        some { st with store := { st.store with db := some db' }, monitor := .count target queue }
      | some db', .lost =>
        some { st with store := { st.store with db := some db' }, monitor := .next queue }
    | _, _ => none
  | .countFailures ok =>
    match st.monitor, st.store.db with
    | .count target queue, some db =>
      some { st with monitor := .update target (countConsecutiveFailures db target.id ok) queue }
    | _, _ => none
  | .updateStatus o =>
    match st.monitor, st.store.db with
    | .update target consec queue, some db =>
      if o = .failed then some { st with monitor := .next queue }
      else
        some { st with
          store := { st.store with db := some (updateNodeStatus db target.id consec) }
          monitor := .next queue }
    | _, _ => none

/-- A gateway from its start, in either storage mode and over any tables. -/
def registry : System RegistryState RegistryAction where
  init st := st.store.nodes = [] ∧ st.failureCounts = [] ∧ st.monitor = .next []
  step := registryStep

/-- What a step does, by the action and the statement that it stands for. -/
inductive RegistryMove (st : RegistryState) : RegistryAction → RegistryState → Prop
  | register {req : RegisterNodeRequest} {input : RegisterInput} (hfresh : st.store.Fresh input.id) :
      RegistryMove st (.register req input) { st with store := (register st.store req input).1 }
  | sweep {now : Int} {o : Outcome} :
      RegistryMove st (.sweep now o) { st with store := sweep st.store now o }
  | tick {ok : Bool} (hpc : st.monitor = .next []) :
      RegistryMove st (.tick ok) { st with monitor := .next (collectTargets st.store ok) }
  | pingDb {success : Bool} {latencyMs : Int32} {target : Target} {queue : List Target}
      {db : Database} (hpc : st.monitor = .next (target :: queue)) (hdb : st.store.db = some db) :
      RegistryMove st (.ping success latencyMs) { st with
        monitor := .record target success (if success then some latencyMs else none) queue }
  | pingMemory {success : Bool} {latencyMs : Int32} {target : Target} {queue : List Target}
      (hpc : st.monitor = .next (target :: queue)) (hdb : st.store.db = none) :
      RegistryMove st (.ping success latencyMs)
        ⟨{ st.store with
            nodes := (probeMemory st.store.nodes st.failureCounts target.id success).1 },
          (probeMemory st.store.nodes st.failureCounts target.id success).2, .next queue⟩
  | drop {checkedAt : Int} {o : Outcome} {target : Target} {success : Bool}
      {latencyMs : Option Int32} {queue : List Target} {db : Database}
      (hpc : st.monitor = .record target success latencyMs queue) (hdb : st.store.db = some db)
      (hdrop : o = .failed ∨ recordProbe db target.id success latencyMs checkedAt = none) :
      RegistryMove st (.recordProbe checkedAt o) { st with monitor := .next queue }
  | record {checkedAt : Int} {o : Outcome} {target : Target} {success : Bool}
      {latencyMs : Option Int32} {queue : List Target} {db db' : Database}
      (hpc : st.monitor = .record target success latencyMs queue) (hdb : st.store.db = some db)
      (hrecord : recordProbe db target.id success latencyMs checkedAt = some db')
      (ho : o ≠ .failed) :
      RegistryMove st (.recordProbe checkedAt o) { st with
        store := { st.store with db := some db' }
        monitor := if o = .ok then .count target queue else .next queue }
  | count {ok : Bool} {target : Target} {queue : List Target} {db : Database}
      (hpc : st.monitor = .count target queue) (hdb : st.store.db = some db) :
      RegistryMove st (.countFailures ok) { st with
        monitor := .update target (countConsecutiveFailures db target.id ok) queue }
  | updateFailed {target : Target} {consec : UInt32} {queue : List Target}
      (hpc : st.monitor = .update target consec queue) :
      RegistryMove st (.updateStatus .failed) { st with monitor := .next queue }
  | update {o : Outcome} {target : Target} {consec : UInt32} {queue : List Target} {db : Database}
      (hpc : st.monitor = .update target consec queue) (hdb : st.store.db = some db)
      (ho : o ≠ .failed) :
      RegistryMove st (.updateStatus o) { st with
        store := { st.store with db := some (updateNodeStatus db target.id consec) }
        monitor := .next queue }

theorem registryMove_of_step {st st' : RegistryState} {a : RegistryAction}
    (h : registryStep st a = some st') : RegistryMove st a st' := by
  cases a with
  | register req input =>
      simp only [registryStep] at h
      split at h
      · rename_i hfresh
        cases h
        exact .register hfresh
      · cases h
  | sweep now o =>
      cases h
      exact .sweep
  | tick ok =>
      simp only [registryStep] at h
      split at h
      · rename_i hpc
        cases h
        exact .tick hpc
      · cases h
  | ping success latencyMs =>
      simp only [registryStep] at h
      split at h
      · rename_i hpc hdb
        cases h
        exact .pingDb hpc hdb
      · rename_i hpc hdb
        cases h
        exact .pingMemory hpc hdb
      · cases h
  | recordProbe checkedAt o =>
      simp only [registryStep] at h
      split at h
      · rename_i hpc hdb
        split at h
        · rename_i hrecord
          cases h
          exact .drop hpc hdb (.inr hrecord)
        · cases h
          exact .drop hpc hdb (.inl rfl)
        · rename_i hrecord
          cases h
          exact .record hpc hdb hrecord (by simp)
        · rename_i hrecord
          cases h
          exact .record hpc hdb hrecord (by simp)
      · cases h
  | countFailures ok =>
      simp only [registryStep] at h
      split at h
      · rename_i hpc hdb
        cases h
        exact .count hpc hdb
      · cases h
  | updateStatus o =>
      simp only [registryStep] at h
      split at h
      · rename_i hpc hdb
        split at h
        · rename_i ho
          cases h
          subst ho
          exact .updateFailed hpc
        · rename_i ho
          cases h
          exact .update hpc hdb ho
      · cases h

/-- Every statement of the step succeeds. -/
def AllSucceed (_ : RegistryState) : RegistryAction → Prop
  | .register _ input => input.upsert = .ok ∧ ∀ o ∈ input.models, o = .ok
  | .sweep _ o | .recordProbe _ o | .updateStatus o => o = .ok
  | .tick ok | .countFailures ok => ok = true
  | .ping _ _ => True

instance (st : RegistryState) : (a : RegistryAction) → Decidable (AllSucceed st a)
  | .register _ _ => inferInstanceAs (Decidable (_ ∧ _))
  | .sweep _ _ | .recordProbe _ _ | .updateStatus _ => inferInstanceAs (Decidable (_ = _))
  | .tick _ | .countFailures _ => inferInstanceAs (Decidable (_ = _))
  | .ping _ _ => inferInstanceAs (Decidable True)

/-! ## The two views -/

/-- What routing needs to know of a node. -/
def NodeInfo.route (n : NodeInfo) : String × String × UInt16 × UInt64 :=
  (n.name, n.host, n.port, n.vramMb)

/-- The routes of the nodes that are online. -/
def onlineRoutes (nodes : List NodeInfo) : List (String × String × UInt16 × UInt64) :=
  (nodes.filter fun n => n.status = .online).map (·.route)

/-- `completions` passes the list in memory to `build_candidates`. -/
def routingView (st : NodeStore) : List (String × String × UInt16 × UInt64) :=
  onlineRoutes st.nodes

/-- The nodes that the list endpoint reports as online. -/
def listedView (st : NodeStore) : List (String × String × UInt16 × UInt64) :=
  onlineRoutes (list st true).data

/-- Both views have the same nodes. -/
def RoutingAgrees (st : NodeStore) : Prop := ∀ r, r ∈ routingView st ↔ r ∈ listedView st

/-- There is no table, or no row of it is online. -/
def NoOnlineRow (st : NodeStore) : Prop :=
  ∀ db ∈ st.db, ∀ row ∈ db.nodes.rows, row.status ≠ "online"

/-! ## With a database, memory stays empty -/

/-- The list in memory is not used beside a table. -/
def MemoryUnused (st : RegistryState) : Prop := st.store.db ≠ none → st.store.nodes = []

theorem register_nodes_of_db {st : NodeStore} {req : RegisterNodeRequest} {input : RegisterInput}
    (hdb : st.db ≠ none) (hfresh : st.Fresh input.id) (hok : input.upsert = .ok) :
    (register st req input).1.nodes = st.nodes := by
  unfold register
  dsimp only
  split
  · rfl
  · cases hst : st.db with
    | none => exact absurd hst hdb
    | some db =>
        have hid : (newNode req input).id ∉ db.nodes.rows.map (·.id) := hfresh.2 db hst
        obtain ⟨upserted, hupsert⟩ := Option.isSome_iff_exists.mp (NodeTable.upsert_isSome hid)
        simp only [hupsert, hok]

/-- The storage mode of a gateway does not change. -/
theorem register_db_eq_none {st : NodeStore} {req : RegisterNodeRequest} {input : RegisterInput} :
    (register st req input).1.db = none ↔ st.db = none := by
  unfold register
  dsimp only
  split
  · rfl
  · cases hst : st.db with
    | none => simp
    | some db =>
        dsimp only
        split <;> simp

theorem sweep_nodes_of_db {st : NodeStore} {now : Int} {o : Outcome} (hdb : st.db ≠ none) :
    (sweep st now o).nodes = st.nodes := by
  unfold sweep
  dsimp only
  cases hst : st.db with
  | none => exact absurd hst hdb
  | some db =>
      dsimp only
      split <;> rfl

theorem sweep_db_eq_none {st : NodeStore} {now : Int} {o : Outcome} :
    (sweep st now o).db = none ↔ st.db = none := by
  unfold sweep
  dsimp only
  cases hst : st.db with
  | none => simp
  | some db =>
      dsimp only
      split
      · simp [hst]
      · simp

/-- Where every statement succeeds, no step of a gateway with a database touches
the list. -/
theorem memoryUnused_step {st st' : RegistryState} {a : RegistryAction} (hinv : MemoryUnused st)
    (hok : AllSucceed st a) (hstep : registryStep st a = some st') : MemoryUnused st' := by
  have hmove := registryMove_of_step hstep
  intro hdb
  cases hmove with
  | register hfresh =>
      have hdb' : st.store.db ≠ none := fun h => hdb (register_db_eq_none.mpr h)
      show (register st.store _ _).1.nodes = []
      rw [register_nodes_of_db hdb' hfresh hok.1]
      exact hinv hdb'
  | sweep =>
      have hdb' : st.store.db ≠ none := fun h => hdb (sweep_db_eq_none.mpr h)
      show (sweep st.store _ _).nodes = []
      rw [sweep_nodes_of_db hdb']
      exact hinv hdb'
  | tick _ => exact hinv hdb
  | pingDb _ _ => exact hinv hdb
  | pingMemory _ hnone => exact absurd hnone hdb
  | drop _ _ _ => exact hinv hdb
  | record _ hsome _ _ =>
      show st.store.nodes = []
      exact hinv (by simp [hsome])
  | count _ _ => exact hinv hdb
  | updateFailed _ => exact hinv hdb
  | update _ hsome _ =>
      show st.store.nodes = []
      exact hinv (by simp [hsome])

theorem memoryUnused_of_reachedBy {st : RegistryState} (h : registry.ReachedBy AllSucceed st) :
    MemoryUnused st := by
  apply h.invariant MemoryUnused
  · intro s hs _
    exact hs.1
  · intro s a s' hs hok hstep
    exact memoryUnused_step hs hok hstep

/-! ## Where the views agree -/

theorem list_of_db {st : NodeStore} {db : Database} (hdb : st.db = some db) :
    (list st true).data = listNodesDb db := by
  simp [list, hdb]

theorem list_of_memory {st : NodeStore} (hdb : st.db = none) : (list st true).data = st.nodes := by
  simp [list, hdb]

/-- A table without online rows, and no other, is listed without online nodes. -/
theorem onlineRoutes_listNodesDb {db : Database} :
    onlineRoutes (listNodesDb db) = [] ↔ ∀ row ∈ db.nodes.rows, row.status ≠ "online" := by
  simp only [onlineRoutes, listNodesDb, List.map_eq_nil_iff, List.filter_eq_nil_iff,
    List.forall_mem_map, List.mem_insertionSort, decide_eq_true_eq]
  exact forall₂_congr fun row _ => not_congr NodeStatus.ofText_eq_online

/-- **Where no statement fails, the views agree in memory mode and over tables
without an online row, and nowhere else.** -/
theorem routingAgrees_iff {st : RegistryState} (h : registry.ReachedBy AllSucceed st) :
    RoutingAgrees st.store ↔ NoOnlineRow st.store := by
  unfold RoutingAgrees NoOnlineRow
  cases hdb : st.store.db with
  | none => simp [routingView, listedView, list_of_memory hdb]
  | some db =>
      have hunused : st.store.nodes = [] := memoryUnused_of_reachedBy h (by simp [hdb])
      have hrouting : routingView st.store = [] := by
        rw [routingView, hunused]
        rfl
      have hlisted : listedView st.store = onlineRoutes (listNodesDb db) := by
        rw [listedView, list_of_db hdb]
      rw [hrouting, hlisted]
      simp only [Option.mem_def, Option.some.injEq, forall_eq', ← onlineRoutes_listNodesDb,
        List.not_mem_nil, false_iff, List.eq_nil_iff_forall_not_mem]

/-! ## A registration in either mode -/

def sampleRequest : RegisterNodeRequest :=
  ⟨"gpu-1", "10.0.0.1", 11434, 8181, "RTX 4090", 24576, [⟨"llama3.2:3b", "llama-3.2"⟩]⟩

def sampleInput : RegisterInput := ⟨"node-1", 0, 0, .ok, []⟩

/-- A gateway at its start; `db` is its storage mode. -/
def startState (db : Option Database) : RegistryState := ⟨⟨db, []⟩, [], .next []⟩

/-- A probe of the only node that fails, as the monitor does it in either mode. -/
def failedProbe (db : Bool) (now : Int) : List RegistryAction :=
  if db then [.tick true, .ping false 0, .recordProbe now .ok, .countFailures true, .updateStatus .ok]
  else [.tick true, .ping false 0]

/-- In memory mode a node that registers is routed to and listed. -/
theorem routingAgrees_iff_memory : ∃ st,
    registry.run AllSucceed (startState none) [.register sampleRequest sampleInput] = some st ∧
      routingView st.store = [("gpu-1", "10.0.0.1", 11434, 24576)] ∧ RoutingAgrees st.store := by
  have hrun : (registry.run AllSucceed (startState none) [.register sampleRequest sampleInput]).map
      (fun st => (routingView st.store, st.store.db)) =
        some ([("gpu-1", "10.0.0.1", 11434, 24576)], none) := by decide +kernel
  have hinit : registry.init (startState none) := ⟨rfl, rfl, rfl⟩
  obtain ⟨st, hst, hreached, hvalue⟩ := System.exists_reachedBy_of_run (.init hinit) hrun
  injection hvalue with hview hdb
  refine ⟨st, hst, hview, ?_⟩
  apply (routingAgrees_iff hreached).mpr
  simp [NoOnlineRow, hdb]

/-- The store of a gateway with a database after the registration. -/
def registeredStore : NodeStore :=
  (register (startState (some ⟨.empty, [], []⟩)).store sampleRequest sampleInput).1

/-- With a database a node that registers is listed as online, but inference does
not know of it. -/
theorem registered_not_routable :
    registry.ReachedBy AllSucceed ⟨registeredStore, [], .next []⟩ ∧
      listedView registeredStore = [("gpu-1", "10.0.0.1", 11434, 24576)] ∧
      routingView registeredStore = [] ∧ ¬ RoutingAgrees registeredStore := by
  have hlisted : listedView registeredStore = [("gpu-1", "10.0.0.1", 11434, 24576)] := by
    decide +kernel
  have hrouting : routingView registeredStore = [] := by decide +kernel
  have hsucceed : AllSucceed (startState (some ⟨.empty, [], []⟩))
      (.register sampleRequest sampleInput) := by decide
  have hstep : registryStep (startState (some ⟨.empty, [], []⟩))
      (.register sampleRequest sampleInput) = some ⟨registeredStore, [], .next []⟩ := by
    have hfresh : (startState (some ⟨.empty, [], []⟩)).store.Fresh sampleInput.id := by decide
    rw [registryStep, if_pos hfresh]
    rfl
  refine ⟨.step (.init ⟨rfl, rfl, rfl⟩) hsucceed hstep, hlisted, hrouting, ?_⟩
  intro hagrees
  have hmem := (hagrees ("gpu-1", "10.0.0.1", 11434, 24576)).mpr (by simp [hlisted])
  simp [hrouting] at hmem

end InferPlatform.Gateway
