import InferPlatform.Base.Grouping
import InferPlatform.Gateway.Accounts
import InferPlatform.Gateway.Billing
import InferPlatform.Gateway.Nodes
import Mathlib.Algebra.BigOperators.Ring.Finset
import Mathlib.Data.List.Dedup

/-!
# Provider statistics

The provider page shows for each node, and in total, the requests and tokens of
the last seven days. A usage row names no node, only a model, and the query joins
it with every node that offers the model.

* `stats` — the handler, from the tables and the answers to its queries;
* `totals_of_succeeds` — the totals, from the rows and the nodes that offer their models;
* `conserves_iff` — **no row is credited twice as long as no two nodes offer the
  model of a row, and only then**, unless the sums wrap around;
* `not_conserves_shared` — one request, and two nodes that offer its model.
-/

namespace InferPlatform.Gateway.Provider

/-! ## Records -/

structure NodeProviderStats where
  nodeId : String
  nodeName : String
  gpuName : String
  vramMb : Int64
  status : String
  uptimePct7d : Float
  avgLatencyMs7d : Option Float
  probeCount7d : Int64
  requestCount7d : Int64
  tokensIn7d : Int64
  tokensOut7d : Int64
  tokensServed7d : Int64
  estimatedEarningsUsd7d : Float
  stripeOnboardingComplete : Bool
  models : List String
  deriving Repr

structure ProviderTotals where
  nodeCount : Nat
  requestCount7d : Int64
  tokensServed7d : Int64
  estimatedEarningsUsd7d : Float
  deriving Repr

structure ProviderStatsResponse where
  nodes : List NodeProviderStats
  totals : ProviderTotals
  deriving Repr

/-- A row that the query over `node_health` answers. -/
structure HealthRow where
  nodeId : String
  probeCount : Option Int64
  successCount : Option Int64
  avgLatencyMs : Option Float
  deriving Repr

structure UsageRow where
  nodeId : String
  requestCount : Option Int64
  tokensIn : Option Int64
  tokensOut : Option Int64
  deriving DecidableEq, Repr

/-- The tables; the rows of `node_models` are in the order of `registered_at`. A model
is there once for a node, and the node is in `nodes`. -/
structure Tables where
  nodes : NodeTable
  nodeModels : List NodeModel
  usageLogs : List UsageLog
  unique : (nodeModels.map fun r => (r.nodeId, r.modelName)).Nodup
  known : ∀ r ∈ nodeModels, r.nodeId ∈ nodes.rows.map (·.id)

/-- The clock, the two variables where they hold a number, and which of the queries
succeed. Of the queries over other tables it holds the rows, none after an error. -/
structure Input where
  now : Int
  tokenRateUsd : Option Float
  revenueShare : Option Float
  nodesOk : Bool
  usageOk : Bool
  modelsOk : Bool
  healthRows : List HealthRow
  stripeRows : List ProviderAccount

/-! ## Queries -/

/-- `timestamp > NOW() - INTERVAL '7 days'`. -/
def Tables.recent (t : Tables) (now : Int) : List UsageLog :=
  t.usageLogs.filter fun row => now - 604800000000 < row.timestamp

/-- `nm.model_name = ul.model`. -/
def offers (row : UsageLog) (nm : NodeModel) : Bool := nm.modelName = row.model

def Tables.joined (t : Tables) (now : Int) : List (UsageLog × NodeModel) :=
  joinOn offers (t.recent now) t.nodeModels

/-- The usage rows of a node's group. -/
def Tables.group (t : Tables) (now : Int) (nodeId : String) : List UsageLog :=
  ((t.joined now).filter fun pair => pair.2.nodeId = nodeId).map (·.1)

/-- The `bigint` numbers. -/
def Bigint (n : Int) : Prop := -9223372036854775808 ≤ n ∧ n < 9223372036854775808

instance (n : Int) : Decidable (Bigint n) := inferInstanceAs (Decidable (_ ∧ _))

/-- The count and the sums are numbers of their type. -/
def Summable (rows : List UsageLog) : Prop :=
  Bigint rows.length ∧ Bigint (sumIn rows) ∧ Bigint (sumOut rows)

instance (rows : List UsageLog) : Decidable (Summable rows) :=
  inferInstanceAs (Decidable (_ ∧ _ ∧ _))

def usageRow (nodeId : String) (rows : List UsageLog) : UsageRow :=
  { nodeId
    requestCount := some (.ofInt rows.length)
    tokensIn := some (.ofInt (sumIn rows))
    tokensOut := some (.ofInt (sumOut rows)) }

/-- The query for the usage rows. It is an error if a count or a sum is out of range. -/
def Tables.usageRows (t : Tables) (now : Int) : Option (List UsageRow) :=
  let ids := ((t.joined now).map (·.2.nodeId)).dedup
  if ∀ id ∈ ids, Summable (t.group now id) then
    some (ids.map fun id => usageRow id (t.group now id))
  else none

/-! ## The handler -/

def round2 (v : Float) : Float := (v * 100.0).round / 100.0

def round4 (v : Float) : Float := (v * 10000.0).round / 10000.0

/-- A `HashMap` collected from rows: of the rows of a key, the last one is in it. -/
def collected {α : Type} (key : α → String) (rows : List α) (k : String) : Option α :=
  (rows.filter fun r => key r = k).getLast?

/-- The entry of a node; sums wrap around. Ids are unique, so no other node asks for what
`remove` takes out of the map of the models. -/
def nodeStats (input : Input) (usageRows : List UsageRow) (modelRows : List NodeModel)
    (n : DbNode) : NodeProviderStats :=
  let health := collected (·.nodeId) input.healthRows n.id
  let usage := collected (·.nodeId) usageRows n.id
  let models := (modelRows.filter fun r => r.nodeId = n.id).map (·.modelName)
  let stripeComplete :=
    ((collected (·.nodeId) input.stripeRows n.id).map (·.onboardingComplete)).getD false
  let probeCount := (health.bind (·.probeCount)).getD 0
  let successCount := (health.bind (·.successCount)).getD 0
  let uptimePct :=
    if 0 < probeCount then round2 (successCount.toFloat / probeCount.toFloat * 100.0) else 0.0
  let reqCount := (usage.bind (·.requestCount)).getD 0
  let tokensIn := (usage.bind (·.tokensIn)).getD 0
  let tokensOut := (usage.bind (·.tokensOut)).getD 0
  let tokensTotal := tokensIn + tokensOut
  let tokenRate := input.tokenRateUsd.getD 0.000001
  let revenueShare := input.revenueShare.getD 0.70
  { nodeId := n.id
    nodeName := n.name
    gpuName := n.gpuName
    vramMb := n.vramMb
    status := n.status
    uptimePct7d := uptimePct
    avgLatencyMs7d := (health.bind (·.avgLatencyMs)).map fun l => (l * 10.0).round / 10.0
    probeCount7d := probeCount
    requestCount7d := reqCount
    tokensIn7d := tokensIn
    tokensOut7d := tokensOut
    tokensServed7d := tokensTotal
    estimatedEarningsUsd7d := round4 (tokensTotal.toFloat * tokenRate * revenueShare)
    stripeOnboardingComplete := stripeComplete
    models }

def totals (nodes : List NodeProviderStats) : ProviderTotals :=
  { nodeCount := nodes.length
    requestCount7d := (nodes.map (·.requestCount7d)).sum
    tokensServed7d := (nodes.map (·.tokensServed7d)).sum
    estimatedEarningsUsd7d :=
      round4 ((nodes.map (·.estimatedEarningsUsd7d)).foldl (· + ·) 0.0) }

/-- `ORDER BY registered_at DESC`. -/
def Tables.ordered (t : Tables) : List DbNode :=
  t.nodes.rows.insertionSort fun a b => b.registeredAt ≤ a.registeredAt

/-- `GET /v1/internal/provider/stats`. Only the query for the nodes must succeed. -/
def stats (db : Option Tables) (input : Input) : Except ApiError ProviderStatsResponse :=
  match db with
  | none => .error ⟨503, "database not configured", "server_error"⟩
  | some t =>
    if ¬ input.nodesOk then .error (internalError "query failed")
    else
      let usageRows := if input.usageOk then (t.usageRows input.now).getD [] else []
      let modelRows := if input.modelsOk then t.nodeModels else []
      let nodes := t.ordered.map (nodeStats input usageRows modelRows)
      .ok { nodes, totals := totals nodes }

/-! ## What is asked of the totals -/

/-- All queries succeed. -/
structure Succeeds (t : Tables) (input : Input) : Prop where
  nodes : input.nodesOk = true
  usage : input.usageOk = true
  models : input.modelsOk = true
  rows : (t.usageRows input.now).isSome = true

/-- Some node in the list offers the model of the row. -/
def Tables.Offered (t : Tables) (row : UsageLog) : Prop :=
  ∃ n ∈ t.ordered, ∃ r ∈ t.nodeModels, r.nodeId = n.id ∧ r.modelName = row.model

instance (t : Tables) (row : UsageLog) : Decidable (t.Offered row) :=
  inferInstanceAs (Decidable (∃ _ ∈ _, ∃ _ ∈ _, _ ∧ _))

/-- The recent usage of models that some node offers. -/
def Tables.served (t : Tables) (now : Int) : List UsageLog :=
  (t.recent now).filter fun row => t.Offered row

/-- Input and output tokens. -/
def tokens (row : UsageLog) : Int := row.tokensIn.toInt + row.tokensOut.toInt

/-- The totals are the number and the tokens of the served rows. -/
structure Conserved (t : Tables) (now : Int) (totals : ProviderTotals) : Prop where
  requests : totals.requestCount7d.toInt = (t.served now).length
  tokens : totals.tokensServed7d.toInt = ((t.served now).map tokens).sum

/-- The answer holds such totals. -/
def Conserves (t : Tables) (input : Input) : Prop :=
  ∃ body, stats (some t) input = .ok body ∧ Conserved t input.now body.totals

/-- The number and the tokens of the served rows are `i64` numbers. -/
def Fits (t : Tables) (now : Int) : Prop :=
  Bigint (t.served now).length ∧ Bigint ((t.served now).map tokens).sum

/-- No two nodes offer the model of a recent row. -/
def CreditedOnce (t : Tables) (now : Int) : Prop :=
  ∀ row ∈ t.recent now, ∀ a ∈ t.nodeModels, ∀ b ∈ t.nodeModels,
    a.modelName = row.model → b.modelName = row.model → a.nodeId = b.nodeId

/-- The nodes that offer the model of the row, less one. -/
def Tables.again (t : Tables) (row : UsageLog) : Nat := t.nodeModels.countP (offers row) - 1

/-- Rows are credited again, and 64 bits do not show it: number and tokens of these credits
are multiples of `2 ^ 64`. -/
structure WrapsAround (t : Tables) (now : Int) : Prop where
  again : 0 < ((t.recent now).map t.again).sum
  number : 18446744073709551616 ∣ ((t.recent now).map t.again).sum
  tokens : 18446744073709551616 ∣ ((t.recent now).map fun row => t.again row * tokens row).sum

/-! ## The number of a node -/

theorem collected_map {α : Type} (key : α → String) (f : String → α) (hf : ∀ k, key (f k) = k)
    {keys : List String} (hnodup : keys.Nodup) (k : String) :
    collected key (keys.map f) k = if k ∈ keys then some (f k) else none := by
  have hfilter : (keys.map f).filter (fun r => key r = k) = (keys.filter (· = k)).map f := by
    rw [List.filter_map]
    congr 1
    apply List.filter_congr
    intro k' _
    simp [hf]
  rw [collected, hfilter, List.filter_eq, hnodup.count]
  split <;> rfl

/-- A node without rows has an empty group, and the count and the sums of it are zero. -/
theorem getD_collected (field : UsageRow → Option Int64) (value : List UsageLog → Int)
    (hfield : ∀ id g, field (usageRow id g) = some (.ofInt (value g))) (hnil : value [] = 0)
    {t : Tables} {now : Int} {rows : List UsageRow} (h : t.usageRows now = some rows)
    (nodeId : String) :
    ((collected (·.nodeId) rows nodeId).bind field).getD 0 =
      .ofInt (value (t.group now nodeId)) := by
  unfold Tables.usageRows at h
  dsimp only at h
  split at h
  · injection h with h
    have hcollected := collected_map UsageRow.nodeId (fun id => usageRow id (t.group now id))
      (fun _ => rfl) (List.nodup_dedup ((t.joined now).map (·.2.nodeId))) nodeId
    rw [← h, hcollected]
    split
    · rw [Option.bind_some, hfield]
      rfl
    · rename_i hid
      have hgroup : t.group now nodeId = [] := by
        rw [Tables.group, List.map_eq_nil_iff, List.filter_eq_nil_iff]
        intro pair hpair heq
        apply hid
        rw [List.mem_dedup, ← of_decide_eq_true heq]
        exact List.mem_map_of_mem hpair
      rw [hgroup, hnil]
      rfl
  · cases h

theorem sum_tokens (rows : List UsageLog) : sumIn rows + sumOut rows = (rows.map tokens).sum :=
  List.sum_map_add.symm

/-- The entry of a node counts the rows of its group and sums up their tokens. -/
theorem requestCount_nodeStats {t : Tables} {input : Input} {rows : List UsageRow}
    (h : t.usageRows input.now = some rows) (modelRows : List NodeModel) (n : DbNode) :
    (nodeStats input rows modelRows n).requestCount7d =
      .ofInt ((t.group input.now n.id).map fun _ => 1).sum := by
  have hcount := getD_collected (·.requestCount) (fun g => (g.map fun _ => 1).sum)
    (by simp [usageRow]) rfl h n.id
  exact hcount

theorem tokensServed_nodeStats {t : Tables} {input : Input} {rows : List UsageRow}
    (h : t.usageRows input.now = some rows) (modelRows : List NodeModel) (n : DbNode) :
    (nodeStats input rows modelRows n).tokensServed7d =
      .ofInt ((t.group input.now n.id).map tokens).sum := by
  have hin := getD_collected (·.tokensIn) sumIn (fun _ _ => rfl) rfl h n.id
  have hout := getD_collected (·.tokensOut) sumOut (fun _ _ => rfl) rfl h n.id
  rw [← sum_tokens, Int64.ofInt_add, ← hin, ← hout]
  rfl

/-! ## The sum over the nodes -/

theorem sum_ofInt {α : Type} (l : List α) (f : α → Int) :
    (l.map fun x => Int64.ofInt (f x)).sum = .ofInt (l.map f).sum := by
  induction l with
  | nil => rfl
  | cons x l ih =>
      rw [List.map_cons, List.sum_cons, List.map_cons, List.sum_cons, ih, Int64.ofInt_add]

theorem Tables.nodup_ordered (t : Tables) : (t.ordered.map (·.id)).Nodup :=
  ((List.perm_insertionSort _ _).map _).nodup_iff.mpr t.nodes.ids

theorem Tables.mem_ordered (t : Tables) {id : String} :
    id ∈ t.ordered.map (·.id) ↔ id ∈ t.nodes.rows.map (·.id) :=
  ((List.perm_insertionSort _ _).map _).mem_iff

/-- Every row of `node_models` is of a listed node. -/
theorem Tables.offered_iff (t : Tables) (row : UsageLog) :
    t.Offered row ↔ t.nodeModels.any (offers row) := by
  rw [List.any_eq_true]
  constructor
  · rintro ⟨n, -, r, hr, -, hmodel⟩
    exact ⟨r, hr, decide_eq_true hmodel⟩
  · rintro ⟨r, hr, hoffers⟩
    obtain ⟨n, hn, hid⟩ := List.mem_map.mp (t.mem_ordered.mpr (t.known r hr))
    exact ⟨n, hn, r, hr, hid.symm, of_decide_eq_true hoffers⟩

theorem Tables.served_eq (t : Tables) (now : Int) :
    t.served now = matching offers (t.recent now) t.nodeModels := by
  apply List.filter_congr
  intro row _
  rw [Bool.eq_iff_iff, decide_eq_true_eq, t.offered_iff]

/-- **What the nodes are credited with**, for any amount of a row: the amounts of the served
rows, and once more for each further node. -/
theorem sum_group (t : Tables) (now : Int) (amount : UsageLog → Int) :
    (t.ordered.map fun n => ((t.group now n.id).map amount).sum).sum =
      ((t.served now).map amount).sum +
        ((t.recent now).map fun row => t.again row * amount row).sum := by
  have hkeys : ∀ pair ∈ t.joined now, pair.2.nodeId ∈ t.ordered.map (·.id) := by
    intro pair hpair
    exact t.mem_ordered.mpr (t.known _ (mem_joinOn.mp hpair).2.1)
  have hgroups := sum_groups (fun pair : UsageLog × NodeModel => pair.2.nodeId)
    (fun pair => amount pair.1) t.nodup_ordered hkeys
  rw [List.map_map] at hgroups
  calc (t.ordered.map fun n => ((t.group now n.id).map amount).sum).sum
      = ((t.joined now).map fun pair => amount pair.1).sum := by
        rw [← hgroups]
        simp only [Tables.group, List.map_map, Function.comp_def]
    _ = _ := by
        rw [Tables.joined, sum_joinOn, t.served_eq]
        simp only [Tables.again, nsmul_eq_mul]

/-- A field that holds an amount of each node's group adds up to what the nodes are credited
with. -/
theorem sum_entries {t : Tables} {input : Input} {rows : List UsageRow}
    {modelRows : List NodeModel} (field : NodeProviderStats → Int64) (amount : UsageLog → Int)
    (hfield : ∀ n, field (nodeStats input rows modelRows n) =
      .ofInt ((t.group input.now n.id).map amount).sum) :
    ((t.ordered.map (nodeStats input rows modelRows)).map field).sum =
      .ofInt (((t.served input.now).map amount).sum +
        ((t.recent input.now).map fun row => t.again row * amount row).sum) := by
  have hentries : ∀ n ∈ t.ordered, (field ∘ nodeStats input rows modelRows) n =
      .ofInt ((t.group input.now n.id).map amount).sum := fun n _ => hfield n
  rw [List.map_map, List.map_congr_left hentries, sum_ofInt, sum_group]

/-- **The totals** are what the nodes are credited with, as `i64` numbers. -/
theorem totals_of_succeeds {t : Tables} {input : Input} (h : Succeeds t input) :
    ∃ body, stats (some t) input = .ok body ∧
      body.totals.requestCount7d =
        .ofInt ((t.served input.now).length + ((t.recent input.now).map t.again).sum) ∧
      body.totals.tokensServed7d =
        .ofInt (((t.served input.now).map tokens).sum +
          ((t.recent input.now).map fun row => t.again row * tokens row).sum) := by
  obtain ⟨rows, hrows⟩ := Option.isSome_iff_exists.mp h.rows
  have hstats : stats (some t) input = .ok
      { nodes := t.ordered.map (nodeStats input rows t.nodeModels)
        totals := totals (t.ordered.map (nodeStats input rows t.nodeModels)) } := by
    simp [stats, h.nodes, h.usage, h.models, hrows]
  refine ⟨_, hstats, ?_, ?_⟩
  · have hcount := sum_entries (·.requestCount7d) (fun _ => 1)
      (requestCount_nodeStats hrows t.nodeModels)
    -- a row counts as one
    simpa [totals, Function.comp_def] using hcount
  · exact sum_entries (·.tokensServed7d) tokens (tokensServed_nodeStats hrows t.nodeModels)

/-! ## When the totals are right -/

/-- The rows of one model are of different nodes, so two of them are two nodes. -/
theorem countP_offers_le_one_iff (t : Tables) (row : UsageLog) :
    t.nodeModels.countP (offers row) ≤ 1 ↔ ∀ a ∈ t.nodeModels, ∀ b ∈ t.nodeModels,
      a.modelName = row.model → b.modelName = row.model → a.nodeId = b.nodeId := by
  have hunique : ((t.nodeModels.filter (offers row)).map fun r => (r.nodeId, r.modelName)).Nodup :=
    (List.filter_sublist.map _).nodup t.unique
  have hmem : ∀ r, r ∈ t.nodeModels.filter (offers row) ↔
      r ∈ t.nodeModels ∧ r.modelName = row.model := by
    simp [offers]
  rw [List.countP_eq_length_filter]
  constructor
  · intro hle a ha b hb hamodel hbmodel
    have ha := (hmem a).mpr ⟨ha, hamodel⟩
    have hb := (hmem b).mpr ⟨hb, hbmodel⟩
    match hrows : t.nodeModels.filter (offers row) with
    | [] => simp [hrows] at ha
    | [r] =>
        rw [hrows, List.mem_singleton] at ha hb
        rw [ha, hb]
    | _ :: _ :: _ => simp [hrows] at hle
  · intro hsame
    match hrows : t.nodeModels.filter (offers row) with
    | [] | [_] => simp
    | a :: b :: rest =>
        have ha := (hmem a).mp (by simp [hrows])
        have hb := (hmem b).mp (by simp [hrows])
        have hpair : (a.nodeId, a.modelName) = (b.nodeId, b.modelName) := by
          rw [hsame a ha.1 b hb.1 ha.2 hb.2, ha.2, hb.2]
        rw [hrows] at hunique
        simp [hpair] at hunique

/-- Rows are credited again just where two nodes offer the model of one. -/
theorem again_eq_zero_iff (t : Tables) (now : Int) :
    ((t.recent now).map t.again).sum = 0 ↔ CreditedOnce t now := by
  unfold Tables.again
  rw [sum_again_eq_zero_iff]
  exact forall₂_congr fun row _ => countP_offers_le_one_iff t row

/-- A number comes back from 64 bits, plus what was added to it, if it is in range and the
rest is a multiple of `2 ^ 64`. -/
theorem toInt_ofInt_add_iff (n again : Int) :
    (Int64.ofInt (n + again)).toInt = n ↔ Bigint n ∧ 18446744073709551616 ∣ again := by
  have hsub : n - (n + again) = -again := by omega
  rw [Int64.toInt_ofInt, Int.bmod_eq_iff (by decide), hsub, Int.dvd_neg]
  exact and_assoc.symm

/-- **Each row is credited once as long as no two nodes offer its model, and only then**:
the totals are the usage of the models that the listed nodes offer if it fits into 64 bits
and no row is credited again, or so many rows are that the totals wrap around. -/
theorem conserves_iff (t : Tables) (input : Input) (h : Succeeds t input) :
    Conserves t input ↔
      Fits t input.now ∧ (CreditedOnce t input.now ∨ WrapsAround t input.now) := by
  obtain ⟨body, hbody, hcount, htokens⟩ := totals_of_succeeds h
  have hconserved : Conserves t input ↔ Conserved t input.now body.totals := by
    simp [Conserves, hbody]
  rw [hconserved, ← again_eq_zero_iff]
  constructor
  · rintro ⟨hrequests, htotal⟩
    rw [hcount, toInt_ofInt_add_iff] at hrequests
    rw [htokens, toInt_ofInt_add_iff] at htotal
    refine ⟨⟨hrequests.1, htotal.1⟩, ?_⟩
    rcases Nat.eq_zero_or_pos ((t.recent input.now).map t.again).sum with hzero | hpos
    · exact .inl hzero
    · exact .inr ⟨hpos, by exact_mod_cast hrequests.2, htotal.2⟩
  · rintro ⟨⟨hnumber, hsum⟩, hagain⟩
    have hdvd : (18446744073709551616 : Int) ∣ ((t.recent input.now).map t.again).sum ∧
        (18446744073709551616 : Int) ∣
          ((t.recent input.now).map fun row => t.again row * tokens row).sum := by
      rcases hagain with hzero | hwraps
      · have hnone : ∀ row ∈ t.recent input.now, t.again row = 0 := by
          simpa [List.sum_eq_zero_iff_forall_eq_nat] using hzero
        have hzeros : ((t.recent input.now).map fun row => t.again row * tokens row).sum = 0 := by
          apply List.sum_eq_zero
          rw [List.forall_mem_map]
          intro row hrow
          simp [hnone row hrow]
        rw [hzero, hzeros]
        exact ⟨Int.dvd_zero _, Int.dvd_zero _⟩
      · exact ⟨by exact_mod_cast hwraps.number, hwraps.tokens⟩
    constructor
    · rw [hcount, toInt_ofInt_add_iff]
      exact ⟨hnumber, hdvd.1⟩
    · rw [htokens, toInt_ofInt_add_iff]
      exact ⟨hsum, hdvd.2⟩

/-! ## Two nodes that offer one model -/

/-- The nodes with their models, registered one after the other, and one request. -/
def sampleTables : Tables where
  nodes :=
    { rows := [⟨"node-1", "gpu-1", "10.0.0.1", 11434, 8181, "RTX 4090", 24576, "online", 0, 0⟩,
        ⟨"node-2", "gpu-2", "10.0.0.2", 11434, 8181, "RTX 3090", 24576, "online", 1000000, 0⟩]
      names := by decide
      ids := by decide }
  nodeModels := [⟨"node-1", "llama3.2:3b", "llama-3.2"⟩, ⟨"node-2", "llama3.2:3b", "llama-3.2"⟩,
    ⟨"node-2", "qwen2.5:7b", "qwen"⟩]
  usageLogs := [⟨1, "key-1", "llama3.2:3b", 20, 100, 2000000⟩]
  unique := by decide
  known := by decide

def sampleInput : Input := ⟨3000000, none, none, true, true, true, [], []⟩

/-- **The request and its 120 tokens are credited twice.** -/
theorem not_conserves_shared :
    sampleTables.served sampleInput.now = sampleTables.usageLogs ∧
      ((stats (some sampleTables) sampleInput).toOption.map fun body =>
        (body.totals.requestCount7d, body.totals.tokensServed7d)) = some (2, 240) ∧
      ¬ Conserves sampleTables sampleInput := by
  have hserved : sampleTables.served sampleInput.now = sampleTables.usageLogs := by decide +kernel
  have htotals : ((stats (some sampleTables) sampleInput).toOption.map fun body =>
      (body.totals.requestCount7d, body.totals.tokensServed7d)) = some (2, 240) := by
    decide +kernel
  refine ⟨hserved, htotals, ?_⟩
  rintro ⟨body, hbody, hrequests, -⟩
  rw [hbody] at htotals
  have hcount : body.totals.requestCount7d = 2 :=
    congrArg Prod.fst (Option.some.inj htotals)
  rw [hcount, hserved] at hrequests
  revert hrequests
  decide

/-- The second node offers the model alone. -/
def apartTables : Tables :=
  { sampleTables with
    nodeModels := sampleTables.nodeModels.tail
    unique := by decide
    known := by decide }

theorem conserves_iff_apart : Conserves apartTables sampleInput := by
  have hsucceeds : Succeeds apartTables sampleInput := ⟨rfl, rfl, rfl, by decide +kernel⟩
  have hfits : Fits apartTables sampleInput.now := by
    unfold Fits
    decide +kernel
  have honce : CreditedOnce apartTables sampleInput.now := by
    unfold CreditedOnce
    decide +kernel
  exact (conserves_iff apartTables sampleInput hsucceeds).mpr ⟨hfits, .inl honce⟩

end InferPlatform.Gateway.Provider
