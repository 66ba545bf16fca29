import InferPlatform.Base.Upsert
import InferPlatform.Gateway.Nodes

/-!
# Registration in the two storage modes

The gateway upserts a registration by name, with an SQL statement into the table
or by hand into the list in memory. Both are upserts into a keyed list, but they
merge differently: the statement keeps id and `registered_at` of the row it finds,
the list takes the new record whole.

* `registerMemory_eq`, `upsert_toNodeInfo` — either store is a keyed list;
* `sameUpsert_iff` — **the two stores hold the records that a history of
  registrations asks for when no name registers twice, and only then**.
-/

namespace InferPlatform.Gateway

/-! ## Histories -/

/-- A request with what the gateway reads for it. -/
structure Registration where
  req : RegisterNodeRequest
  input : RegisterInput
  deriving DecidableEq, Repr

def Registration.node (r : Registration) : NodeInfo := newNode r.req r.input

/-- The licenses are approved, and a database does its upsert. -/
def Registration.Accepted (r : Registration) : Prop :=
  findViolations r.req.models = [] ∧ r.input.upsert = .ok

instance (r : Registration) : Decidable r.Accepted := inferInstanceAs (Decidable (_ ∧ _))

/-- The store after a history of registrations. -/
def registerAll (st : NodeStore) (history : List Registration) : NodeStore :=
  history.foldl (fun st r => (register st r.req r.input).1) st

/-- The list of a gateway without a database. -/
def memoryNodes (history : List Registration) : List NodeInfo :=
  (registerAll ⟨none, []⟩ history).nodes

/-- The rows of a gateway with a database, as it reads them back. -/
def tableNodes (history : List Registration) : List NodeInfo :=
  match (registerAll ⟨some ⟨.empty, [], []⟩, []⟩ history).db with
  | some db => db.nodes.rows.map (·.toNodeInfo)
  | none => []

/-! ## What a history asks for -/

/-- What registrations of one name ask for: id and `registered_at` of the first
one, all else from the last one. -/
def firstAndLast (nodes : List NodeInfo) : Option NodeInfo :=
  match nodes.head?, nodes.getLast? with
  | some first, some last =>
    some { last with
      id := first.id
      registeredAt := first.registeredAt
      status := .online }
  | _, _ => none

def recordOf (history : List NodeInfo) (name : String) : Option NodeInfo :=
  firstAndLast (history.filter fun n => n.name = name)

/-- The records of a history: one for each name that has registered. -/
structure Upserted (history : List Registration) (nodes : List NodeInfo) : Prop where
  names : (nodes.map (·.name)).Nodup
  records : ∀ n, n ∈ nodes ↔ recordOf (history.map (·.node)) n.name = some n

/-- After each request both stores hold the records asked for, and what the table
casts comes back from it. -/
structure SameUpsert (history : List Registration) : Prop where
  memory : ∀ earlier, earlier <+: history → Upserted earlier (memoryNodes earlier)
  table : ∀ earlier, earlier <+: history → Upserted earlier (tableNodes earlier)
  lossless : ∀ node, (DbNode.ofNodeInfo node).toNodeInfo = { node with status := .online }

/-! ## The stores as keyed lists -/

/-- The merge of the SQL statement. -/
def keepFirst (old new : NodeInfo) : NodeInfo :=
  { new with id := old.id, name := old.name, registeredAt := old.registeredAt }

theorem registerMemory_eq (nodes : List NodeInfo) (node : NodeInfo) :
    registerMemory nodes node = upsertBy (·.name) (fun _ new => new) node nodes := by
  induction nodes with
  | nil => rfl
  | cons n nodes ih =>
      rw [upsertBy, ← ih]
      unfold registerMemory
      rw [List.findIdx?_cons]
      by_cases hn : n.name = node.name
      · simp [hn]
      · cases List.findIdx? (fun n => decide (n.name = node.name)) nodes <;> simp [hn]

/-- An upsert of a node that is online and has a fresh id, in the words of `NodeInfo`. -/
theorem upsert_toNodeInfo {t : NodeTable} {node : NodeInfo} (hid : node.id ∉ t.rows.map (·.id))
    (hstatus : node.status = .online) : ∃ t' row, t.upsert node = some (t', row) ∧
      t'.rows.map (·.toNodeInfo) = upsertBy (·.name) keepFirst node (t.rows.map (·.toNodeInfo)) ∧
      ∀ id ∈ t'.rows.map (·.id), id = node.id ∨ id ∈ t.rows.map (·.id) := by
  have hnode : (DbNode.ofNodeInfo node).toNodeInfo = node := by
    rw [DbNode.toNodeInfo_ofNodeInfo, ← hstatus]
  have hnames : (t.rows.map (·.toNodeInfo)).map (·.name) = t.rows.map (·.name) := by
    rw [List.map_map]
    rfl
  unfold NodeTable.upsert
  split
  · rename_i row hrow
    have hname : node.name ∈ (t.rows.map (·.toNodeInfo)).map (·.name) := by
      rw [hnames]
      exact List.mem_map.mpr ⟨row, List.mem_of_find?_eq_some hrow, by
        simpa using List.find?_some hrow⟩
    refine ⟨_, _, rfl, ?_, ?_⟩
    · rw [upsertBy_of_mem (hnames ▸ t.names) hname, NodeTable.update, List.map_map, List.map_map]
      apply List.map_congr_left
      intro r _
      show (if r.name = node.name then r.refresh node else r).toNodeInfo =
        if r.name = node.name then keepFirst r.toNodeInfo node else r.toNodeInfo
      split
      · have hmerge : (r.refresh node).toNodeInfo =
            keepFirst r.toNodeInfo (DbNode.ofNodeInfo node).toNodeInfo := rfl
        rw [hmerge, hnode]
      · rfl
    · intro id hmem
      right
      rw [NodeTable.update, List.map_map] at hmem
      have hids : t.rows.map ((·.id) ∘ fun r => if r.name = node.name then r.refresh node else r) =
          t.rows.map (·.id) := by
        apply List.map_congr_left
        intro r _
        show (if r.name = node.name then r.refresh node else r).id = r.id
        split <;> rfl
      rwa [hids] at hmem
  · rename_i hnone
    have hnew : ∀ n ∈ t.rows.map (·.toNodeInfo), n.name ≠ node.name := by
      intro n hn hname
      obtain ⟨r, hr, rfl⟩ := List.mem_map.mp hn
      have hne : ¬ r.name = node.name := by simpa using List.find?_eq_none.mp hnone r hr
      exact hne hname
    rw [dif_neg hid]
    refine ⟨_, _, rfl, ?_, ?_⟩
    · show (t.rows ++ [DbNode.ofNodeInfo node]).map (·.toNodeInfo) = _
      rw [upsertBy_of_new hnew, List.map_append, List.map_singleton, hnode]
    · intro id hmem
      simpa [NodeTable.insert, DbNode.ofNodeInfo, or_comm] using hmem

/-! ## The stores over a history -/

theorem registerAll_concat (st : NodeStore) (history : List Registration) (r : Registration) :
    registerAll st (history ++ [r]) = (register (registerAll st history) r.req r.input).1 := by
  simp [registerAll]

theorem register_of_memory {st : NodeStore} {r : Registration} (hdb : st.db = none)
    (hr : r.Accepted) :
    (register st r.req r.input).1 = ⟨none, registerMemory st.nodes r.node⟩ := by
  simp [register, hr.1, hdb, Registration.node]

theorem register_of_db {st : NodeStore} {db : Database} {r : Registration} {t : NodeTable}
    {row : DbNode} (hdb : st.db = some db) (hr : r.Accepted)
    (hupsert : db.nodes.upsert r.node = some (t, row)) :
    (register st r.req r.input).1.db = some { db with
      nodes := t
      nodeModels := upsertNodeModels db.nodeModels row.id r.req.models r.input.models } := by
  have hupsert' : db.nodes.upsert (newNode r.req r.input) = some (t, row) := hupsert
  simp [register, hr.1, hr.2, hdb, hupsert']

/-- In memory the last registration of a name is all that is left. -/
theorem registerAll_memory {history : List Registration} (h : ∀ r ∈ history, r.Accepted) :
    registerAll ⟨none, []⟩ history =
      ⟨none, upsertAll (·.name) (fun _ new => new) (history.map (·.node))⟩ := by
  induction history using List.reverseRecOn with
  | nil => rfl
  | append_singleton history r ih =>
      have hr : r.Accepted := h r (by simp)
      rw [registerAll_concat, ih fun r hr => h r (List.mem_append_left _ hr),
        register_of_memory rfl hr, registerMemory_eq, List.map_append, List.map_singleton,
        upsertAll_concat]

/-- In the table the first registration of a name leaves its id and `registered_at`. -/
theorem registerAll_table {history : List Registration} (h : ∀ r ∈ history, r.Accepted)
    (hids : (history.map (·.input.id)).Nodup) :
    ∃ db, (registerAll ⟨some ⟨.empty, [], []⟩, []⟩ history).db = some db ∧
      db.nodes.rows.map (·.toNodeInfo) =
        upsertAll (·.name) keepFirst (history.map (·.node)) ∧
      ∀ id ∈ db.nodes.rows.map (·.id), id ∈ history.map (·.input.id) := by
  induction history using List.reverseRecOn with
  | nil => exact ⟨_, rfl, rfl, by simp [NodeTable.empty]⟩
  | append_singleton history r ih =>
      rw [List.map_append, List.nodup_append] at hids
      obtain ⟨hids, -, hdisjoint⟩ := hids
      obtain ⟨db, hdb, hrows, hmem⟩ := ih (fun r hr => h r (List.mem_append_left _ hr)) hids
      have hr : r.Accepted := h r (by simp)
      have hid : r.node.id ∉ db.nodes.rows.map (·.id) := by
        intro hid
        exact hdisjoint _ (hmem _ hid) r.node.id (by simp [Registration.node, newNode]) rfl
      obtain ⟨t, row, hupsert, ht, htids⟩ := upsert_toNodeInfo hid rfl
      rw [registerAll_concat, register_of_db hdb hr hupsert]
      refine ⟨_, rfl, ?_, ?_⟩
      · show t.rows.map (·.toNodeInfo) = _
        rw [ht, hrows, List.map_append, List.map_singleton, upsertAll_concat]
      · intro id hid
        rw [List.map_append, List.mem_append]
        rcases htids id hid with rfl | hid
        · right
          simp [Registration.node, newNode]
        · exact .inl (hmem id hid)

/-! ## What the two merges make of a history -/

theorem mergeAll_keepFirst {name : String} {nodes : List NodeInfo}
    (h : ∀ n ∈ nodes, n.name = name ∧ n.status = .online) :
    mergeAll keepFirst nodes = firstAndLast nodes := by
  induction nodes using List.reverseRecOn with
  | nil => rfl
  | append_singleton nodes last ih =>
      have hlast := h last (by simp)
      rw [mergeAll_concat, ih fun n hn => h n (List.mem_append_left _ hn)]
      cases nodes with
      | nil =>
          simp only [firstAndLast, List.head?_nil, List.nil_append, List.head?_cons,
            List.getLast?_singleton, ← hlast.2]
          rfl
      | cons first rest =>
          have hfirst := h first (by simp)
          rw [firstAndLast, firstAndLast, List.getLast?_concat, List.cons_append, List.head?_cons,
            List.head?_cons, List.getLast?_eq_getLast_of_ne_nil (List.cons_ne_nil _ _)]
          simp [keepFirst, hlast, (h _ (List.mem_append_left _ (List.getLast_mem _))).1]

theorem map_node_filter (history : List Registration) (name : String) :
    ∀ n ∈ (history.map (·.node)).filter (fun n => n.name = name),
      n.name = name ∧ n.status = .online := by
  intro n hn
  obtain ⟨hmem, hname⟩ := List.mem_filter.mp hn
  obtain ⟨r, -, rfl⟩ := List.mem_map.mp hmem
  exact ⟨by simpa using hname, rfl⟩

/-- **The table holds the records that its history asks for.** -/
theorem upserted_tableNodes {history : List Registration} (h : ∀ r ∈ history, r.Accepted)
    (hids : (history.map (·.input.id)).Nodup) : Upserted history (tableNodes history) := by
  obtain ⟨db, hdb, hrows, -⟩ := registerAll_table h hids
  have htable : tableNodes history = upsertAll (·.name) keepFirst (history.map (·.node)) := by
    rw [tableNodes, hdb, ← hrows]
  have hkey : ∀ old new : NodeInfo, old.name = new.name → (keepFirst old new).name = new.name :=
    fun _ _ h => h
  have hnames := nodup_upsertAll hkey (history.map (·.node))
  rw [htable]
  refine ⟨hnames, ?_⟩
  intro n
  rw [← find?_key_eq_some_iff hnames, find?_upsertAll hkey,
    mergeAll_keepFirst (map_node_filter history n.name), recordOf]

theorem memoryNodes_eq {history : List Registration} (h : ∀ r ∈ history, r.Accepted) :
    memoryNodes history = upsertAll (·.name) (fun _ new => new) (history.map (·.node)) := by
  rw [memoryNodes, registerAll_memory h]

/-- The record of a name in memory is that of its last registration. -/
theorem mem_memoryNodes {history : List Registration} (h : ∀ r ∈ history, r.Accepted)
    (n : NodeInfo) :
    n ∈ memoryNodes history ↔
      ((history.map (·.node)).filter fun r => r.name = n.name).getLast? = some n := by
  rw [memoryNodes_eq h, mem_upsertAll_iff]

/-- One record is the first and the last one of its name. -/
theorem firstAndLast_eq_getLast? {name : String} {nodes : List NodeInfo}
    (h : ∀ n ∈ nodes, n.name = name ∧ n.status = .online)
    (hnodup : (nodes.map (·.name)).Nodup) : firstAndLast nodes = nodes.getLast? := by
  match nodes, h, hnodup with
  | [], _, _ => rfl
  | [n], h, _ =>
      have hn := h n (by simp)
      simp [firstAndLast, ← hn.2]
  | n :: n' :: nodes, h, hnodup =>
      have hn := h n (by simp)
      have hn' := h n' (by simp)
      simp [hn.1, hn'.1] at hnodup

theorem upserted_memoryNodes {history : List Registration} (h : ∀ r ∈ history, r.Accepted)
    (hnames : (history.map (·.req.name)).Nodup) : Upserted history (memoryNodes history) := by
  have hkey : ∀ old new : NodeInfo, old.name = new.name → new.name = new.name := fun _ _ _ => rfl
  refine ⟨?_, ?_⟩
  · rw [memoryNodes_eq h]
    exact nodup_upsertAll hkey (history.map (·.node))
  · intro n
    have hnodes : ((history.map (·.node)).map (·.name)).Nodup := by
      rw [List.map_map]
      exact hnames
    have hofName : (((history.map (·.node)).filter fun r => r.name = n.name).map (·.name)).Nodup :=
      (List.filter_sublist.map _).nodup hnodes
    rw [mem_memoryNodes h, recordOf,
      firstAndLast_eq_getLast? (map_node_filter history n.name) hofName]

/-! ## Where the modes agree -/

/-- A name that registers again gets a new id in memory. -/
theorem not_upserted_of_repeated {earlier : List Registration} {r : Registration}
    (h : ∀ r' ∈ earlier ++ [r], r'.Accepted) (hid : r.input.id ∉ earlier.map (·.input.id))
    (hname : r.req.name ∈ earlier.map (·.req.name)) :
    ¬ Upserted (earlier ++ [r]) (memoryNodes (earlier ++ [r])) := by
  intro hupserted
  have hmem : r.node ∈ memoryNodes (earlier ++ [r]) := by
    rw [mem_memoryNodes h]
    simp
  have hrecord := (hupserted.records r.node).mp hmem
  obtain ⟨r', hr', hname'⟩ := List.mem_map.mp hname
  have hofName : r'.node ∈ (earlier.map (·.node)).filter fun n => n.name = r.node.name := by
    rw [List.mem_filter]
    exact ⟨List.mem_map_of_mem hr', decide_eq_true hname'⟩
  obtain ⟨first, rest, hfirst⟩ := List.exists_cons_of_ne_nil (List.ne_nil_of_mem hofName)
  have hearlier : first ∈ earlier.map (·.node) := by
    apply List.mem_of_mem_filter (p := fun n => n.name = r.node.name)
    rw [hfirst]
    exact List.mem_cons_self
  obtain ⟨r₁, hr₁, rfl⟩ := List.mem_map.mp hearlier
  have hids : r₁.node.id = r.node.id := by
    have hlast : firstAndLast (r₁.node :: rest ++ [r.node]) = some r.node := by
      rw [← hfirst]
      simpa [recordOf] using hrecord
    rw [firstAndLast, List.getLast?_concat] at hlast
    injection hlast with hlast
    rw [← hlast]
  exact hid (List.mem_map.mpr ⟨r₁, hr₁, hids⟩)

/-- Where memory is right after each request, no name registers twice. -/
theorem nodup_names_of_upserted {history : List Registration} (h : ∀ r ∈ history, r.Accepted)
    (hids : (history.map (·.input.id)).Nodup)
    (hmemory : ∀ earlier, earlier <+: history → Upserted earlier (memoryNodes earlier)) :
    (history.map (·.req.name)).Nodup := by
  induction history using List.reverseRecOn with
  | nil => exact List.nodup_nil
  | append_singleton history r ih =>
      rw [List.map_append, List.map_singleton, ← List.concat_eq_append,
        List.nodup_concat] at hids ⊢
      have hnew : r.req.name ∉ history.map (·.req.name) := by
        intro hname
        exact not_upserted_of_repeated h hids.1 hname (hmemory _ (List.prefix_refl _))
      have hearlier := ih (fun r hr => h r (List.mem_append_left _ hr)) hids.2
        fun earlier hpre => hmemory earlier (hpre.trans (List.prefix_append _ _))
      exact ⟨hnew, hearlier⟩

/-- **The two stores hold what a history asks for when no name registers twice, and
only then.** -/
theorem sameUpsert_iff {history : List Registration} (h : ∀ r ∈ history, r.Accepted)
    (hids : (history.map (·.input.id)).Nodup) :
    SameUpsert history ↔ (history.map (·.req.name)).Nodup := by
  constructor
  · intro hsame
    exact nodup_names_of_upserted h hids hsame.memory
  · intro hnames
    refine ⟨?_, ?_, DbNode.toNodeInfo_ofNodeInfo⟩
    · intro earlier hearlier
      exact upserted_memoryNodes (fun r hr => h r (hearlier.subset hr))
        ((hearlier.sublist.map _).nodup hnames)
    · intro earlier hearlier
      exact upserted_tableNodes (fun r hr => h r (hearlier.subset hr))
        ((hearlier.sublist.map _).nodup hids)

/-! ## A node that registers twice -/

/-- The registration of one node, with the id and the time that the gateway reads. -/
def sampleRegistration (id : String) (now : Int) : Registration :=
  ⟨⟨"gpu-1", "10.0.0.1", 11434, 8181, "RTX 4090", 24576, []⟩, ⟨id, now, now, .ok, []⟩⟩

/-- Another node. -/
def otherRegistration : Registration :=
  ⟨⟨"gpu-2", "10.0.0.2", 11434, 8181, "RTX 4090", 24576, []⟩, ⟨"node-2", 1000000, 1000000, .ok, []⟩⟩

theorem sameUpsert_iff_sample :
    SameUpsert [sampleRegistration "node-1" 0, otherRegistration] :=
  (sameUpsert_iff (by decide +kernel) (by decide)).mpr (by decide)

/-- A heartbeat gives the node a new id and a new `registered_at` in memory. -/
theorem not_sameUpsert_heartbeat :
    ¬ SameUpsert [sampleRegistration "node-1" 0, sampleRegistration "node-2" 30000000] := by
  intro hsame
  have hrecords := (hsame.memory _ (List.prefix_refl _)).records
    (sampleRegistration "node-2" 30000000).node
  revert hrecords
  decide +kernel

end InferPlatform.Gateway
