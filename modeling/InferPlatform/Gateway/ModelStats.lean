import InferPlatform.Base.Ratio
import InferPlatform.Gateway.Accounts
import InferPlatform.Gateway.Uptime
import Mathlib.Data.List.Sort

/-!
# The model browser

The model browser shows every registered model with the number of its nodes, and with the
latency and the uptime of the last week over all of them. One query joins the models with
the probes of their nodes; the health monitor has another query for the uptime of a node.

* `modelsStats` — the handler, over the rational numbers;
* `uptime_modelProbes_between` — the uptime of a model is between those of its nodes;
* `modelsStats_agrees` — **every model is shown once, and its uptime lies between the ones
  that the monitor computes for two of its nodes**, or nothing is shown at all.
-/

namespace InferPlatform.Gateway

namespace ModelStats

/-! ## The handler -/

structure ModelBrowserEntry where
  name : String
  license : String
  nodeCount : Int64
  avgLatencyMs : Option ℚ
  uptime7d : Option ℚ
  pricePerMTokens : ℚ
  deriving DecidableEq, Repr

structure ModelBrowserResponse where
  models : List ModelBrowserEntry
  pricePerMTokens : ℚ
  deriving DecidableEq, Repr

structure ModelRow where
  modelName : String
  license : Option String
  nodeCount : Option Int64
  avgLatencyMs : Option ℚ
  uptime7d : Option ℚ
  deriving DecidableEq, Repr

/-- `f64::round`: halves go away from zero. -/
def roundAway (v : ℚ) : ℤ := if v < 0 then -⌊-v + 1 / 2⌋ else ⌊v + 1 / 2⌋

/-- `(v * k).round() / k`. -/
def roundTo (k v : ℚ) : ℚ := roundAway (v * k) / k

/-- The probes of a node in the last seven days. -/
def weekProbes (rows : List NodeHealth) (nodeId : String) (now : Int) : List NodeHealth :=
  rows.filter fun r => r.nodeId = nodeId ∧ now - 604800000000 < r.checkedAt

/-- The rows of `node_models` for a model. -/
def rowsOf (db : Database) (name : String) : List NodeModel :=
  db.nodeModels.filter fun m => m.modelName = name

/-- The probes that are joined to them; a row without any adds nothing to the numbers. -/
def modelProbes (db : Database) (now : Int) (name : String) : List NodeHealth :=
  (joinOn (fun (m : NodeModel) (r : NodeHealth) =>
      r.nodeId = m.nodeId ∧ now - 604800000000 < r.checkedAt)
    (rowsOf db name) db.nodeHealth).map (·.2)

/-- `COUNT(DISTINCT nm.node_id)` counts these. -/
def hosts (db : Database) (name : String) : List String := ((rowsOf db name).map (·.nodeId)).dedup

/-- `AVG`, of the numbers that are not null. -/
def average (values : List ℚ) : Option ℚ := if values = [] then none else some (mean values)

/-- The latencies of the successful probes. -/
def latenciesOf (rows : List NodeHealth) : List ℚ :=
  ((rows.filter fun r => r.success).filterMap (·.latencyMs)).map fun ms => (ms.toInt : ℚ)

section

-- the collation of the database
variable (le : String → String → Prop) [DecidableRel le]

/-- `MIN` of texts. -/
def least : List String → Option String
  | [] => none
  | text :: texts =>
    match least texts with
    | none => some text
    | some other => if le text other then some text else some other

def modelQuery (db : Database) (now : Int) : List ModelRow :=
  let names := (db.nodeModels.map (·.modelName)).dedup
  (names.insertionSort le).map fun name =>
    { modelName := name
      license := least le ((rowsOf db name).map (·.license))
      nodeCount := some (.ofInt (hosts db name).length)
      avgLatencyMs := average (latenciesOf (modelProbes db now name))
      uptime7d := uptime (modelProbes db now name) }

def entryOf (pricePerM : ℚ) (r : ModelRow) : ModelBrowserEntry :=
  { name := r.modelName
    license := r.license.getD "unknown"
    nodeCount := r.nodeCount.getD 0
    avgLatencyMs := r.avgLatencyMs.map (roundTo 10)
    uptime7d := r.uptime7d.map (roundTo 10000)
    pricePerMTokens := pricePerM }

/-- The average of integers is a `numeric`, which is read into an `f64` here. A null is
read as nothing, whatever its type. -/
def decodes (numericAsF64 : Bool) (r : ModelRow) : Bool := numericAsF64 || r.avgLatencyMs.isNone

/-- `GET /v1/internal/models/stats`, with the variable if it holds a number. Whether the
driver reads a `numeric` into an `f64` is `numericAsF64`, and `ok` says whether the query
succeeds. -/
def modelsStats (numericAsF64 : Bool) (db : Option Database) (tokenRateUsd : Option ℚ)
    (now : Int) (ok : Bool) : Except ApiError ModelBrowserResponse :=
  match db with
  | none => .error ⟨503, "database not configured", "server_error"⟩
  | some db =>
    let pricePerM := roundTo 10000 (tokenRateUsd.getD (1 / 1000000) * 1000000)
    let answered := modelQuery le db now
    -- `unwrap_or_default` makes an empty list of an error, one row's too
    let rows := if ok && answered.all (decodes numericAsF64) then answered else []
    .ok ⟨rows.map (entryOf pricePerM), pricePerM⟩

end

/-! ## Rounding -/

theorem roundAway_mono {v w : ℚ} (h : v ≤ w) : roundAway v ≤ roundAway w := by
  unfold roundAway
  by_cases hv : v < 0
  · rw [if_pos hv]
    have hpos : 0 ≤ ⌊-v + 1 / 2⌋ := Int.floor_nonneg.mpr (by linarith)
    by_cases hw : w < 0
    · rw [if_pos hw, neg_le_neg_iff]
      exact Int.floor_le_floor (by linarith)
    · rw [if_neg hw]
      have hpos' : 0 ≤ ⌊w + 1 / 2⌋ := Int.floor_nonneg.mpr (by linarith)
      omega
  · rw [if_neg hv, if_neg (by linarith)]
    exact Int.floor_le_floor (by linarith)

theorem roundTo_mono {k : ℚ} (hk : 0 < k) {v w : ℚ} (h : v ≤ w) : roundTo k v ≤ roundTo k w := by
  have hscaled := roundAway_mono (mul_le_mul_of_nonneg_right h hk.le)
  exact div_le_div_of_nonneg_right (by exact_mod_cast hscaled) hk.le

/-! ## One model -/

theorem modelProbes_eq (db : Database) (now : Int) (name : String) :
    modelProbes db now name =
      (rowsOf db name).flatMap fun m => weekProbes db.nodeHealth m.nodeId now := by
  rw [modelProbes, joinOn, List.map_flatMap]
  apply List.flatMap_congr
  intro m _
  rw [List.map_map]
  exact List.map_id _

theorem mem_hosts {db : Database} {name nodeId : String} :
    nodeId ∈ hosts db name ↔ ∃ m ∈ db.nodeModels, m.modelName = name ∧ m.nodeId = nodeId := by
  simp [hosts, rowsOf, and_assoc]

/-- Probes of the nodes of a model. -/
theorem mem_modelProbes {db : Database} {now : Int} {name : String} {r : NodeHealth} :
    r ∈ modelProbes db now name ↔
      r ∈ db.nodeHealth ∧ r.nodeId ∈ hosts db name ∧ now - 604800000000 < r.checkedAt := by
  rw [modelProbes_eq, List.mem_flatMap]
  constructor
  · rintro ⟨m, hm, hr⟩
    obtain ⟨hr, hcond⟩ := List.mem_filter.mp hr
    obtain ⟨hid, hweek⟩ := of_decide_eq_true hcond
    obtain ⟨hmem, hname⟩ := List.mem_filter.mp hm
    exact ⟨hr, mem_hosts.mpr ⟨m, hmem, of_decide_eq_true hname, hid.symm⟩, hweek⟩
  · rintro ⟨hr, hhost, hweek⟩
    obtain ⟨m, hm, hname, hid⟩ := mem_hosts.mp hhost
    exact ⟨m, List.mem_filter.mpr ⟨hm, decide_eq_true hname⟩,
      List.mem_filter.mpr ⟨hr, decide_eq_true ⟨hid.symm, hweek⟩⟩⟩

/-- The uptime that the monitor computes, where there are probes. -/
theorem uptime7d_computeStats {rows : List NodeHealth} {nodeId : String} {now : Int}
    (h : 0 < (weekProbes rows nodeId now).length) :
    (computeStats rows nodeId now).uptime7d =
      ((weekProbes rows nodeId now).countP (fun r => r.success) : ℚ) /
        ((weekProbes rows nodeId now).length : ℚ) := by
  show (uptime (weekProbes rows nodeId now)).getD 0 = _
  rw [uptime, if_neg h.ne']
  rfl

/-- **The uptime of a model is between those of two of its nodes.** It is a quotient of
sums over the rows of the model. -/
theorem uptime_modelProbes_between {db : Database} {now : Int} {name : String} {v : ℚ}
    (h : uptime (modelProbes db now name) = some v) :
    ∃ worse ∈ hosts db name, ∃ better ∈ hosts db name,
      (computeStats db.nodeHealth worse now).uptime7d ≤ v ∧
        v ≤ (computeStats db.nodeHealth better now).uptime7d := by
  let answered (m : NodeModel) : ℚ :=
    ((weekProbes db.nodeHealth m.nodeId now).countP (fun r => r.success) : ℚ)
  let probed (m : NodeModel) : ℚ := ((weekProbes db.nodeHealth m.nodeId now).length : ℚ)
  have hlength : ((modelProbes db now name).length : ℚ) = ((rowsOf db name).map probed).sum := by
    rw [modelProbes_eq, List.length_flatMap, Nat.cast_list_sum, List.map_map]
    rfl
  have hcount : ((modelProbes db now name).countP (fun r => r.success) : ℚ) =
      ((rowsOf db name).map answered).sum := by
    rw [modelProbes_eq, List.countP_flatMap, Nat.cast_list_sum, List.map_map]
    rfl
  unfold uptime at h
  split at h
  · cases h
  · rename_i hprobes
    have hpos : 0 < ((rowsOf db name).map probed).sum := by
      rw [← hlength]
      exact_mod_cast Nat.pos_of_ne_zero hprobes
    have hnonneg : ∀ m ∈ rowsOf db name, 0 ≤ probed m := fun m _ => Nat.cast_nonneg _
    have hempty : ∀ m ∈ rowsOf db name, probed m = 0 → answered m = 0 := by
      intro m _ hzero
      have hnil := List.length_eq_zero_iff.mp (Nat.cast_eq_zero.mp hzero)
      simp [answered, hnil]
    have hshare : ∀ m ∈ rowsOf db name, 0 < probed m → m.nodeId ∈ hosts db name ∧
        (computeStats db.nodeHealth m.nodeId now).uptime7d = answered m / probed m := by
      intro m hm hprobed
      refine ⟨List.mem_dedup.mpr (List.mem_map_of_mem hm), uptime7d_computeStats ?_⟩
      exact Nat.cast_pos.mp hprobed
    obtain ⟨m, hm, hmpos, hle⟩ := Ratio.exists_div_le hnonneg hempty hpos
    obtain ⟨m', hm', hmpos', hge⟩ := Ratio.exists_le_div hnonneg hempty hpos
    obtain ⟨hhost, hm_eq⟩ := hshare m hm hmpos
    obtain ⟨hhost', hm'_eq⟩ := hshare m' hm' hmpos'
    rw [← Option.some.inj h, hcount, hlength]
    exact ⟨m.nodeId, hhost, m'.nodeId, hhost', by rw [hm_eq]; exact hle, by rw [hm'_eq]; exact hge⟩

theorem uptime_modelProbes_eq_none {db : Database} {now : Int} {name : String} :
    uptime (modelProbes db now name) = none ↔
      ∀ r ∈ db.nodeHealth, r.nodeId ∈ hosts db name → r.checkedAt ≤ now - 604800000000 := by
  have hnil : uptime (modelProbes db now name) = none ↔ modelProbes db now name = [] := by
    unfold uptime
    split
    · rename_i hlength
      simp [List.length_eq_zero_iff.mp hlength]
    · rename_i hlength
      simp only [reduceCtorEq, false_iff]
      exact mt List.length_eq_zero_iff.mpr hlength
  rw [hnil, List.eq_nil_iff_forall_not_mem]
  constructor
  · intro hnone r hr hhost
    by_contra hweek
    exact hnone r (mem_modelProbes.mpr ⟨hr, hhost, by omega⟩)
  · intro hold r hprobe
    obtain ⟨hr, hhost, hweek⟩ := mem_modelProbes.mp hprobe
    have := hold r hr hhost
    omega

theorem least_mem (le : String → String → Prop) [DecidableRel le] {texts : List String}
    (hne : texts ≠ []) : ∃ text ∈ texts, least le texts = some text := by
  induction texts with
  | nil => exact absurd rfl hne
  | cons text texts ih =>
      rw [least]
      cases hleast : least le texts with
      | none => exact ⟨text, List.mem_cons_self, rfl⟩
      | some other =>
          have hmem : other ∈ texts := by
            by_cases htexts : texts = []
            · rw [htexts] at hleast
              cases hleast
            · obtain ⟨found, hfound, heq⟩ := ih htexts
              rw [hleast] at heq
              exact Option.some.inj heq ▸ hfound
          dsimp only
          split
          · exact ⟨text, List.mem_cons_self, rfl⟩
          · exact ⟨other, List.mem_cons_of_mem _ hmem, rfl⟩

/-! ## The answer -/

/-- What the entry of a model says: one of its licences, how many nodes have it, and an
uptime, where there are probes, between those that the monitor computes for two of them,
rounded like them. -/
structure Faithful (db : Database) (now : Int) (e : ModelBrowserEntry) : Prop where
  license : ∃ m ∈ db.nodeModels, m.modelName = e.name ∧ m.license = e.license
  nodeCount : ∃ ids : List String, ids.Nodup ∧ e.nodeCount = .ofInt ids.length ∧
    ∀ id, id ∈ ids ↔ ∃ m ∈ db.nodeModels, m.modelName = e.name ∧ m.nodeId = id
  unprobed : e.uptime7d = none ↔ ∀ r ∈ db.nodeHealth,
    (∃ m ∈ db.nodeModels, m.modelName = e.name ∧ m.nodeId = r.nodeId) →
      r.checkedAt ≤ now - 604800000000
  uptime : ∀ v, e.uptime7d = some v →
    ∃ worse ∈ db.nodeModels, worse.modelName = e.name ∧
      ∃ better ∈ db.nodeModels, better.modelName = e.name ∧
        roundTo 10000 (computeStats db.nodeHealth worse.nodeId now).uptime7d ≤ v ∧
          v ≤ roundTo 10000 (computeStats db.nodeHealth better.nodeId now).uptime7d

theorem faithful_entryOf {le : String → String → Prop} [DecidableRel le] {db : Database}
    {now : Int} {name : String} (hname : ∃ m ∈ db.nodeModels, m.modelName = name) (pricePerM : ℚ) :
    Faithful db now (entryOf pricePerM
      { modelName := name
        license := least le ((rowsOf db name).map (·.license))
        nodeCount := some (.ofInt (hosts db name).length)
        avgLatencyMs := average (latenciesOf (modelProbes db now name))
        uptime7d := uptime (modelProbes db now name) }) := by
  refine ⟨?_, ⟨hosts db name, List.nodup_dedup _, rfl, fun id => mem_hosts⟩, ?_, ?_⟩
  · obtain ⟨m, hm, hmodel⟩ := hname
    have hne : (rowsOf db name).map (·.license) ≠ [] := by
      have hrow : m ∈ rowsOf db name := List.mem_filter.mpr ⟨hm, decide_eq_true hmodel⟩
      exact List.ne_nil_of_mem (List.mem_map_of_mem hrow)
    obtain ⟨text, htext, hleast⟩ := least_mem le hne
    obtain ⟨row, hrow, rfl⟩ := List.mem_map.mp htext
    obtain ⟨hmem, hrowName⟩ := List.mem_filter.mp hrow
    refine ⟨row, hmem, of_decide_eq_true hrowName, ?_⟩
    show row.license = (least le _).getD "unknown"
    rw [hleast]
    rfl
  · show (ModelStats.entryOf pricePerM _).uptime7d = none ↔ _
    rw [entryOf, Option.map_eq_none_iff, uptime_modelProbes_eq_none]
    apply forall₂_congr
    intro r _
    rw [mem_hosts]
  · intro v hv
    obtain ⟨share, hshare, rfl⟩ := Option.map_eq_some_iff.mp hv
    obtain ⟨worse, hworse, better, hbetter, hle, hge⟩ := uptime_modelProbes_between hshare
    obtain ⟨m, hm, hmodel, rfl⟩ := mem_hosts.mp hworse
    obtain ⟨m', hm', hmodel', rfl⟩ := mem_hosts.mp hbetter
    exact ⟨m, hm, hmodel, m', hm', hmodel', roundTo_mono (by norm_num) hle,
      roundTo_mono (by norm_num) hge⟩

/-- A node of some model has answered a probe in the last week. -/
def Answered (db : Database) (now : Int) : Prop :=
  ∃ r ∈ db.nodeHealth, r.success ∧ r.latencyMs ≠ none ∧ now - 604800000000 < r.checkedAt ∧
    ∃ m ∈ db.nodeModels, m.nodeId = r.nodeId

instance (db : Database) (now : Int) : Decidable (Answered db now) :=
  inferInstanceAs (Decidable (∃ r ∈ db.nodeHealth, _ ∧ _ ∧ _ ∧ _))

theorem average_eq_none {values : List ℚ} : average values = none ↔ values = [] := by
  simp [average]

theorem latenciesOf_eq_nil {rows : List NodeHealth} :
    latenciesOf rows = [] ↔ ∀ r ∈ rows, r.success → r.latencyMs = none := by
  simp [latenciesOf]

theorem mem_names {db : Database} {name : String} :
    name ∈ (db.nodeModels.map (·.modelName)).dedup ↔ ∃ m ∈ db.nodeModels, m.modelName = name := by
  rw [List.mem_dedup, List.mem_map]

/-- All rows are read, unless one has an average and the driver does not read it. -/
theorem all_decodes (le : String → String → Prop) [DecidableRel le] (numericAsF64 : Bool)
    (db : Database) (now : Int) :
    (modelQuery le db now).all (decodes numericAsF64) =
      decide ¬(numericAsF64 = false ∧ Answered db now) := by
  cases numericAsF64 with
  | true => simp [decodes]
  | false =>
      have hrow : ∀ name, (average (latenciesOf (modelProbes db now name))).isNone = true ↔
          ∀ r ∈ modelProbes db now name, r.success → r.latencyMs = none := by
        intro name
        rw [Option.isNone_iff_eq_none, average_eq_none, latenciesOf_eq_nil]
      rw [Bool.eq_iff_iff, List.all_eq_true, decide_eq_true_eq, modelQuery, List.forall_mem_map]
      simp only [decodes, Bool.false_or, hrow, List.mem_insertionSort, true_and]
      constructor
      · rintro hall ⟨r, hr, hok, hlatency, hweek, m, hm, hid⟩
        have hhost : r.nodeId ∈ hosts db m.modelName := mem_hosts.mpr ⟨m, hm, rfl, hid⟩
        exact hlatency (hall m.modelName (mem_names.mpr ⟨m, hm, rfl⟩) r
          (mem_modelProbes.mpr ⟨hr, hhost, hweek⟩) hok)
      · intro hnever name _ r hprobe hok
        by_contra hlatency
        obtain ⟨hr, hhost, hweek⟩ := mem_modelProbes.mp hprobe
        obtain ⟨m, hm, _, hid⟩ := mem_hosts.mp hhost
        exact hnever ⟨r, hr, hok, hlatency, hweek, m, hm, hid⟩

/-- **The model browser agrees with the monitor, or shows nothing.** Where a node has
answered a probe in the last week, and the driver does not read a `numeric` into an `f64`,
it shows no model. Otherwise it shows every registered model exactly once, and what it says
of a model is faithful to its nodes. -/
theorem modelsStats_agrees (le : String → String → Prop) [DecidableRel le] (numericAsF64 : Bool)
    (db : Database) (tokenRateUsd : Option ℚ) (now : Int) :
    ∃ answer, modelsStats le numericAsF64 (some db) tokenRateUsd now true = .ok answer ∧
      if numericAsF64 = false ∧ Answered db now then answer.models = []
      else
        (answer.models.map (·.name)).Nodup ∧
        (∀ name, name ∈ answer.models.map (·.name) ↔ ∃ m ∈ db.nodeModels, m.modelName = name) ∧
        ∀ e ∈ answer.models, Faithful db now e := by
  let names := (db.nodeModels.map (·.modelName)).dedup.insertionSort le
  have hperm : names.Perm (db.nodeModels.map (·.modelName)).dedup := List.perm_insertionSort _ _
  have hnames : ∀ name, name ∈ names ↔ ∃ m ∈ db.nodeModels, m.modelName = name := by
    intro name
    rw [hperm.mem_iff, mem_names]
  let pricePerM := roundTo 10000 (tokenRateUsd.getD (1 / 1000000) * 1000000)
  simp only [modelsStats, all_decodes, Bool.true_and, decide_eq_true_eq]
  by_cases hlost : numericAsF64 = false ∧ Answered db now
  · rw [if_neg (not_not_intro hlost)]
    exact ⟨⟨[], pricePerM⟩, rfl, by rw [if_pos hlost]⟩
  · rw [if_pos hlost]
    refine ⟨⟨(modelQuery le db now).map (entryOf pricePerM), pricePerM⟩, rfl, ?_⟩
    have hshown : ((modelQuery le db now).map (entryOf pricePerM)).map (·.name) = names := by
      rw [modelQuery, List.map_map, List.map_map]
      exact List.map_id _
    rw [if_neg hlost]
    dsimp only
    rw [hshown]
    refine ⟨hperm.nodup_iff.mpr (List.nodup_dedup _), hnames, ?_⟩
    intro e he
    obtain ⟨row, hrow, rfl⟩ := List.mem_map.mp he
    obtain ⟨name, hname, rfl⟩ := List.mem_map.mp hrow
    exact faithful_entryOf ((hnames name).mp hname) pricePerM

end ModelStats

end InferPlatform.Gateway
