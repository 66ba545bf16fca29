import InferPlatform.Base.System
import InferPlatform.Gateway.License
import Mathlib.Data.List.Nodup
import Mathlib.Data.List.Sort

/-!
# Nodes

The gateway keeps its nodes in two places: the `nodes` table, if it has a
database, and a list in memory. Registration, the node list, the health probes
and the sweep of stale nodes each choose between the two on their own.

* `NodeTable` — the table with its unique names and ids;
* `register`, `list`, `sweep` — the two handlers and the sweep;
* `recordProbe`, `countConsecutiveFailures`, `probeMemory` — what follows a ping.
-/

namespace InferPlatform.Gateway

/-! ## Records -/

inductive NodeStatus
  | online
  | offline
  | busy
  | degraded
  deriving DecidableEq, Repr

structure NodeInfo where
  id : String
  name : String
  host : String
  port : UInt16
  agentPort : UInt16
  gpuName : String
  vramMb : UInt64
  status : NodeStatus
  registeredAt : Int
  lastSeen : Int
  deriving DecidableEq, Repr

structure RegisterNodeRequest where
  name : String
  host : String
  port : UInt16
  agentPort : UInt16
  gpuName : String
  vramMb : UInt64
  models : List ModelRegistration
  deriving DecidableEq, Repr

/-- A row of `nodes`. -/
structure DbNode where
  id : String
  name : String
  host : String
  port : Int32
  agentPort : Int32
  gpuName : String
  vramMb : Int64
  status : String
  registeredAt : Int
  lastSeen : Int
  deriving DecidableEq, Repr

/-- Every text but three is offline. -/
def NodeStatus.ofText (status : String) : NodeStatus :=
  match status with
  | "online" => .online
  | "busy" => .busy
  | "degraded" => .degraded
  | _ => .offline

/-- `From<DbNode> for NodeInfo`. -/
def DbNode.toNodeInfo (r : DbNode) : NodeInfo :=
  { id := r.id
    name := r.name
    host := r.host
    port := r.port.toUInt32.toUInt16
    agentPort := r.agentPort.toUInt32.toUInt16
    gpuName := r.gpuName
    vramMb := r.vramMb.toUInt64
    status := .ofText r.status
    registeredAt := r.registeredAt
    lastSeen := r.lastSeen }

/-- The row that an upsert inserts. -/
def DbNode.ofNodeInfo (node : NodeInfo) : DbNode :=
  { id := node.id
    name := node.name
    host := node.host
    port := node.port.toUInt32.toInt32
    agentPort := node.agentPort.toUInt32.toInt32
    gpuName := node.gpuName
    vramMb := node.vramMb.toInt64
    status := "online"
    registeredAt := node.registeredAt
    lastSeen := node.lastSeen }

/-- What an upsert leaves of a row of the same name: its id and `registered_at`. -/
def DbNode.refresh (r : DbNode) (node : NodeInfo) : DbNode :=
  { DbNode.ofNodeInfo node with
    id := r.id
    name := r.name
    registeredAt := r.registeredAt }

theorem DbNode.toNodeInfo_ofNodeInfo (node : NodeInfo) :
    (DbNode.ofNodeInfo node).toNodeInfo = { node with status := .online } := by
  simp [DbNode.ofNodeInfo, DbNode.toNodeInfo, NodeStatus.ofText]

theorem NodeStatus.ofText_eq_online {status : String} :
    NodeStatus.ofText status = .online ↔ status = "online" := by
  unfold NodeStatus.ofText
  split <;> simp_all

/-! ## Tables -/

/-- The table `nodes`: `name` is unique, `id` the primary key. -/
structure NodeTable where
  rows : List DbNode
  names : (rows.map (·.name)).Nodup
  ids : (rows.map (·.id)).Nodup
  deriving DecidableEq

namespace NodeTable

def empty : NodeTable := ⟨[], List.nodup_nil, List.nodup_nil⟩

/-- An update that keeps names and ids. -/
def update (t : NodeTable) (f : DbNode → DbNode) (hname : ∀ r, (f r).name = r.name)
    (hid : ∀ r, (f r).id = r.id) : NodeTable where
  rows := t.rows.map f
  names := by
    rw [List.map_map]
    exact (List.map_congr_left fun r _ => hname r) ▸ t.names
  ids := by
    rw [List.map_map]
    exact (List.map_congr_left fun r _ => hid r) ▸ t.ids

def insert (t : NodeTable) (row : DbNode) (hname : row.name ∉ t.rows.map (·.name))
    (hid : row.id ∉ t.rows.map (·.id)) : NodeTable where
  rows := t.rows ++ [row]
  names := by
    rw [List.map_append, List.map_singleton, ← List.concat_eq_append]
    exact t.names.concat hname
  ids := by
    rw [List.map_append, List.map_singleton, ← List.concat_eq_append]
    exact t.ids.concat hid

/-- `INSERT … ON CONFLICT (name) DO UPDATE … RETURNING`. The statement fails when a
new name comes with an id that is taken. -/
def upsert (t : NodeTable) (node : NodeInfo) : Option (NodeTable × DbNode) :=
  match h : t.rows.find? fun r => r.name = node.name with
  | some row =>
    some (t.update (fun r => if r.name = node.name then r.refresh node else r)
      (by intro r; split <;> rfl) (by intro r; split <;> rfl), row.refresh node)
  | none =>
    if hid : node.id ∈ t.rows.map (·.id) then none
    else
      have hname : node.name ∉ t.rows.map (·.name) := by
        intro hmem
        obtain ⟨r, hr, hrname⟩ := List.mem_map.mp hmem
        simpa [hrname] using List.find?_eq_none.mp h r hr
      some (t.insert (.ofNodeInfo node) hname hid, .ofNodeInfo node)

/-- `UPDATE nodes SET status = …` where a condition holds. -/
def setStatus (t : NodeTable) (select : DbNode → Bool) (status : String) : NodeTable :=
  t.update (fun r => if select r then { r with status } else r)
    (by intro r; split <;> rfl) (by intro r; split <;> rfl)

/-- With a fresh id the upsert succeeds. -/
theorem upsert_isSome {t : NodeTable} {node : NodeInfo} (h : node.id ∉ t.rows.map (·.id)) :
    (t.upsert node).isSome := by
  unfold upsert
  split
  · rfl
  · rw [dif_neg h]
    rfl

end NodeTable

/-- A row of `node_health`. -/
structure NodeHealth where
  nodeId : String
  latencyMs : Option Int32
  success : Bool
  checkedAt : Int
  deriving DecidableEq, Repr

/-- A row of `node_models`, one for each node and model. -/
structure NodeModel where
  nodeId : String
  modelName : String
  license : String
  deriving DecidableEq, Repr

/-- The rows of `node_health` come in the order of their insertion. -/
structure Database where
  nodes : NodeTable
  nodeHealth : List NodeHealth
  nodeModels : List NodeModel
  deriving DecidableEq

/-- `state.db` and `state.nodes`. -/
structure NodeStore where
  db : Option Database
  nodes : List NodeInfo
  deriving DecidableEq

/-! ## Registration -/

/-- The body of the answer to a request with violations. -/
structure LicenseRejection where
  error : String
  message : String
  violations : List LicenseViolation
  approvedLicenses : List String
  deriving DecidableEq, Repr

inductive RegisterResult
  | created (node : NodeInfo)
  | unprocessable (body : LicenseRejection)
  deriving DecidableEq, Repr

/-- What a registration is given: a fresh id, two clock readings, and the answers
to its statements; those to the model statements come in order. -/
structure RegisterInput where
  id : String
  registeredAt : Int
  lastSeen : Int
  upsert : Outcome
  models : List Outcome
  deriving DecidableEq, Repr

def newNode (req : RegisterNodeRequest) (input : RegisterInput) : NodeInfo :=
  { id := input.id
    name := req.name
    host := req.host
    port := req.port
    agentPort := req.agentPort
    gpuName := req.gpuName
    vramMb := req.vramMb
    status := .online
    registeredAt := input.registeredAt
    lastSeen := input.lastSeen }

/-- The statement of `upsert_node_models` for one model. -/
def upsertNodeModel (rows : List NodeModel) (nodeId : String) (m : ModelRegistration) :
    List NodeModel :=
  let row : NodeModel := ⟨nodeId, m.name, normalized m.license⟩
  if rows.any fun r => r.nodeId = nodeId ∧ r.modelName = m.name then
    rows.map fun r => if r.nodeId = nodeId ∧ r.modelName = m.name then row else r
  else rows ++ [row]

/-- The rows after `upsert_node_models`, which stops at the first error. -/
def upsertNodeModels (rows : List NodeModel) (nodeId : String) :
    List ModelRegistration → List Outcome → List NodeModel
  | [], _ => rows
  | m :: models, outcomes =>
    match outcomes.headD .ok with
    | .ok => upsertNodeModels (upsertNodeModel rows nodeId m) nodeId models outcomes.tail
    | .failed => rows
    | .lost => upsertNodeModel rows nodeId m

/-- The list after a registration in memory, which replaces a node of the name. -/
def registerMemory (nodes : List NodeInfo) (node : NodeInfo) : List NodeInfo :=
  match nodes.findIdx? fun n => n.name = node.name with
  | some pos => nodes.set pos node
  | none => nodes ++ [node]

/-- `POST /v1/internal/nodes`. An upsert that fails falls back to memory; a failed
model statement is only logged. -/
def register (st : NodeStore) (req : RegisterNodeRequest) (input : RegisterInput) :
    NodeStore × RegisterResult :=
  let violations := findViolations req.models
  if violations ≠ [] then
    (st, .unprocessable
      { error := "license_not_approved"
        message := "One or more models use licenses not approved for this platform."
        violations
        approvedLicenses })
  else
    let node := newNode req input
    let memory (db : Option Database) : NodeStore × RegisterResult :=
      ({ db, nodes := registerMemory st.nodes node }, .created node)
    match st.db with
    -- no database: the list is all there is
    | none => memory none
    | some db =>
      match db.nodes.upsert node, input.upsert with
      -- errors are logged, and the node goes to memory
      | none, _ => memory (some db)
      | some _, .failed => memory (some db)
      | some (table, _), .lost => memory (some { db with nodes := table })
      | some (table, row), .ok =>
        -- the answer comes back from the table; memory is not touched
        ({ st with
            db := some { db with
              nodes := table
              nodeModels := upsertNodeModels db.nodeModels row.id req.models input.models } },
          .created row.toNodeInfo)

/-! ## The node list -/

structure NodeList where
  object : String
  data : List NodeInfo
  total : Nat
  deriving DecidableEq, Repr

/-- `SELECT … FROM nodes ORDER BY registered_at DESC`. -/
def listNodesDb (db : Database) : List NodeInfo :=
  (db.nodes.rows.insertionSort fun a b => b.registeredAt ≤ a.registeredAt).map (·.toNodeInfo)

/-- `GET /v1/internal/nodes`; `ok` says whether its query succeeds. -/
def list (st : NodeStore) (ok : Bool) : NodeList :=
  let answer (nodes : List NodeInfo) : NodeList := ⟨"list", nodes, nodes.length⟩
  match st.db, ok with
  | some db, true => answer (listNodesDb db)
  -- no database, or a query that failed
  | _, _ => answer st.nodes

/-! ## The sweep -/

/-- Nodes not seen for 90 seconds become offline. -/
def sweep (st : NodeStore) (now : Int) (o : Outcome) : NodeStore :=
  let cutoff := now - 90000000
  match st.db with
  | some db =>
    if o = .failed then st
    else
      let stale (r : DbNode) : Bool := r.lastSeen < cutoff ∧ r.status ≠ "offline"
      { st with db := some { db with nodes := db.nodes.setStatus stale "offline" } }
  | none =>
    { st with
      nodes := st.nodes.map fun n =>
        if n.lastSeen < cutoff ∧ n.status ≠ .offline then { n with status := .offline } else n }

/-! ## Probes -/

/-- A node that a probe round is going to ping. -/
structure Target where
  id : String
  host : String
  agentPort : UInt16
  deriving DecidableEq, Repr

/-- The nodes of a round, from where the gateway keeps them; none if the query for
them fails. -/
def collectTargets (st : NodeStore) (ok : Bool) : List Target :=
  match st.db, ok with
  | some db, true => db.nodes.rows.map fun r => ⟨r.id, r.host, r.agentPort.toUInt32.toUInt16⟩
  | some _, false => []
  | none, _ => st.nodes.map fun n => ⟨n.id, n.host, n.agentPort⟩

/-- What consecutive failures make of a node, in the words of either store. -/
def byFailures {α : Type} (consec : UInt32) (offline degraded online : α) : α :=
  if 10 ≤ consec then offline else if 3 ≤ consec then degraded else online

/-- The first statement of `probe_db`. It fails for a node that is not there. -/
def recordProbe (db : Database) (nodeId : String) (success : Bool) (latencyMs : Option Int32)
    (checkedAt : Int) : Option Database :=
  if nodeId ∈ db.nodes.rows.map (·.id) then
    some { db with nodeHealth := db.nodeHealth ++ [⟨nodeId, latencyMs, success, checkedAt⟩] }
  else none

/-- The ten newest rows of a node, newest first. -/
def newestTen (rows : List NodeHealth) (nodeId : String) : List NodeHealth :=
  (((rows.filter fun r => r.nodeId = nodeId).reverse).insertionSort fun a b =>
    b.checkedAt ≤ a.checkedAt).take 10

/-- The failures since the last success, of the last ten probes; 0 where the query
fails. -/
def countConsecutiveFailures (db : Database) (nodeId : String) (ok : Bool) : UInt32 :=
  if ok then
    UInt32.ofNat ((newestTen db.nodeHealth nodeId).takeWhile fun r => ¬ r.success).length
  else 0

/-- The second statement of `probe_db`. -/
def updateNodeStatus (db : Database) (nodeId : String) (consec : UInt32) : Database :=
  { db with
    nodes := db.nodes.setStatus (fun r => r.id = nodeId)
      (byFailures consec "offline" "degraded" "online") }

/-- The first node with the id gets the status. -/
def setNodeStatus (nodeId : String) (status : NodeStatus) : List NodeInfo → List NodeInfo
  | [] => []
  | n :: nodes =>
    if n.id = nodeId then { n with status } :: nodes else n :: setNodeStatus nodeId status nodes

/-- `failure_counts`; a node that is not in it has none. -/
abbrev FailureCounts := List (String × UInt32)

def FailureCounts.get (counts : FailureCounts) (nodeId : String) : UInt32 :=
  (counts.lookup nodeId).getD 0

def FailureCounts.remove (counts : FailureCounts) (nodeId : String) : FailureCounts :=
  counts.filter fun entry => entry.1 ≠ nodeId

/-- `probe_memory`: the nodes and the counters after a ping. The counter wraps as in a release
build; with overflow checks the monitor's task ends at the 2^32nd failure in a row. -/
def probeMemory (nodes : List NodeInfo) (counts : FailureCounts) (nodeId : String)
    (success : Bool) : List NodeInfo × FailureCounts :=
  let counts' :=
    if success then counts.remove nodeId
    else (nodeId, counts.get nodeId + 1) :: counts.remove nodeId
  let consec := if success then 0 else counts'.get nodeId
  (setNodeStatus nodeId (byFailures consec .offline .degraded .online) nodes, counts')

end InferPlatform.Gateway
