import InferPlatform.Gateway.LicenseGate

/-!
# The models of a registration

A registration writes its models row by row, each in a statement of its own, and stops at
the first error. The error becomes a line in the log and the answer is 201 all the same;
nodes register again with each heartbeat.

* `written_upsertNodeModels` — the rows after the statements;
* `register_rowByRow` — **the answer is 201, and the rows are those of the models up to the
  first error**;
* `not_allOrNothing_second_model` — two models, of which one is written.
-/

namespace InferPlatform.Gateway

/-! ## What the statements write -/

/-- The row of a model, with its licence normalised. -/
def modelRow (nodeId : String) (m : ModelRegistration) : NodeModel :=
  ⟨nodeId, m.name, normalized m.license⟩

/-- Of the models, the one that a row is for; the last one if a name is listed again. -/
def lastListed (nodeId : String) (models : List ModelRegistration) (r : NodeModel) :
    Option ModelRegistration :=
  if r.nodeId = nodeId then (models.filter fun m => m.name = r.modelName).getLast? else none

/-- `rows'` is `rows` with the models written for the node: their rows have the licence
that was listed last, and rows of other models and other nodes are there as before. -/
def Written (nodeId : String) (models : List ModelRegistration) (rows rows' : List NodeModel) :
    Prop :=
  ∀ r, r ∈ rows' ↔
    match lastListed nodeId models r with
    | some m => r = modelRow nodeId m
    | none => r ∈ rows

/-- How many statements are done: those before the first error, and the one with the error
if it was done and its answer was lost. -/
def statementsDone (models : List ModelRegistration) (outcomes : List Outcome) : Nat :=
  match outcomes.findIdx? fun o => o ≠ .ok with
  | none => models.length
  | some i => if outcomes[i]? = some .lost then i + 1 else i

/-- The rows of `node_models`; without a database there are none. -/
def NodeStore.nodeModels (st : NodeStore) : List NodeModel :=
  match st.db with
  | some db => db.nodeModels
  | none => []

/-- The node is in the table, and the statement that put it there was answered. -/
def Persisted (st : NodeStore) (req : RegisterNodeRequest) (input : RegisterInput) : Prop :=
  ∃ db, st.db = some db ∧ (db.nodes.upsert (newNode req input)).isSome ∧ input.upsert = .ok

/-- The answer is 201 and every model has its row, or it is an error and the rows are as
they were. -/
def AllOrNothing (st : NodeStore) (req : RegisterNodeRequest) (input : RegisterInput) : Prop :=
  let after := register st req input
  (∃ node, after.2 = .created node ∧
      ∀ m ∈ req.models, modelRow node.id m ∈ after.1.nodeModels) ∨
    (∃ body, after.2 = .unprocessable body) ∧ after.1.nodeModels = st.nodeModels

/-! ## One statement after the other -/

theorem lastListed_append (nodeId : String) (models models' : List ModelRegistration)
    (r : NodeModel) : lastListed nodeId (models ++ models') r =
      (lastListed nodeId models' r).or (lastListed nodeId models r) := by
  unfold lastListed
  split
  · rw [List.filter_append, List.getLast?_append]
  · rfl

theorem lastListed_singleton (nodeId : String) (m : ModelRegistration) (r : NodeModel) :
    lastListed nodeId [m] r =
      if r.nodeId = nodeId ∧ r.modelName = m.name then some m else none := by
  by_cases hid : r.nodeId = nodeId
  · by_cases hname : r.modelName = m.name
    · simp [lastListed, hid, hname]
    · have hname' : m.name ≠ r.modelName := fun h => hname h.symm
      simp [lastListed, hid, hname, hname']
  · simp [lastListed, hid]

theorem written_nil (nodeId : String) (rows : List NodeModel) : Written nodeId [] rows rows := by
  intro r
  have hnone : lastListed nodeId [] r = none := ite_self _
  rw [hnone]

/-- One statement writes one model. -/
theorem written_upsertNodeModel (rows : List NodeModel) (nodeId : String) (m : ModelRegistration) :
    Written nodeId [m] rows (upsertNodeModel rows nodeId m) := by
  intro r
  have hmem : r ∈ upsertNodeModel rows nodeId m ↔ r = modelRow nodeId m ∨
      r ∈ rows ∧ ¬ (r.nodeId = nodeId ∧ r.modelName = m.name) := mem_upsertNodeModel
  rw [hmem, lastListed_singleton]
  by_cases hkey : r.nodeId = nodeId ∧ r.modelName = m.name
  · rw [if_pos hkey]
    simp [hkey]
  · have hne : r ≠ modelRow nodeId m := by
      rintro rfl
      exact hkey ⟨rfl, rfl⟩
    rw [if_neg hkey]
    simp [hkey, hne]

/-- A model that is listed again is written again. -/
theorem Written.trans {nodeId : String} {models models' : List ModelRegistration}
    {rows rows' rows'' : List NodeModel} (h : Written nodeId models rows rows')
    (h' : Written nodeId models' rows' rows'') :
    Written nodeId (models ++ models') rows rows'' := by
  intro r
  have hr := h r
  have hr' := h' r
  rw [lastListed_append]
  cases hlast : lastListed nodeId models' r with
  | some m =>
      rw [hlast] at hr'
      exact hr'
  | none =>
      rw [hlast] at hr'
      exact hr'.trans hr

theorem statementsDone_ok (m : ModelRegistration) (models : List ModelRegistration)
    (outcomes : List Outcome) :
    statementsDone (m :: models) (.ok :: outcomes) = statementsDone models outcomes + 1 := by
  unfold statementsDone
  rw [List.findIdx?_cons, if_neg (by decide)]
  cases outcomes.findIdx? fun o => o ≠ .ok with
  | none => rfl
  | some i =>
      show (if (Outcome.ok :: outcomes)[i + 1]? = some .lost then i + 1 + 1 else i + 1) =
        (if outcomes[i]? = some .lost then i + 1 else i) + 1
      rw [List.getElem?_cons_succ, apply_ite (· + 1)]

/-- The statements before the first error. Induction over the models that are left. -/
theorem written_upsertNodeModels (nodeId : String) (models : List ModelRegistration) :
    ∀ (rows : List NodeModel) (outcomes : List Outcome),
      Written nodeId (models.take (statementsDone models outcomes)) rows
        (upsertNodeModels rows nodeId models outcomes) := by
  induction models with
  | nil =>
      intro rows outcomes
      rw [List.take_nil]
      exact written_nil nodeId rows
  | cons m models ih =>
      intro rows outcomes
      have hfirst := written_upsertNodeModel rows nodeId m
      cases outcomes with
      | nil =>
          have hrest := ih (upsertNodeModel rows nodeId m) []
          exact hfirst.trans hrest
      | cons o outcomes =>
          cases o with
          | ok =>
              have hrest := ih (upsertNodeModel rows nodeId m) outcomes
              rw [statementsDone_ok]
              exact hfirst.trans hrest
          | failed => exact written_nil nodeId rows
          | lost => exact hfirst

/-! ## The request -/

/-- **A request with approved licences is answered with 201.** If the node is in the table,
the models up to the first error have been written for it; if it is in memory, the rows are
as they were. -/
theorem register_rowByRow (st : NodeStore) (req : RegisterNodeRequest) (input : RegisterInput)
    (happroved : ∀ m ∈ req.models, isApproved m.license) :
    ∃ node, (register st req input).2 = .created node ∧
      (Persisted st req input →
        Written node.id (req.models.take (statementsDone req.models input.models))
          st.nodeModels (register st req input).1.nodeModels) ∧
      (¬ Persisted st req input → (register st req input).1.nodeModels = st.nodeModels) := by
  have hviolations : findViolations req.models = [] := by
    simpa [findViolations] using happroved
  unfold register
  rw [if_neg (by simp [hviolations])]
  cases hdb : st.db with
  | none =>
      refine ⟨_, rfl, ?_, ?_⟩
      · rintro ⟨db, hsome, -⟩
        rw [hdb] at hsome
        cases hsome
      · intro _
        rw [NodeStore.nodeModels, NodeStore.nodeModels, hdb]
  | some db =>
      have hrows : st.nodeModels = db.nodeModels := by
        rw [NodeStore.nodeModels, hdb]
      have hpersisted : Persisted st req input ↔
          (db.nodes.upsert (newNode req input)).isSome ∧ input.upsert = .ok := by
        constructor
        · rintro ⟨db', hsome, hupsert⟩
          rw [hdb] at hsome
          cases hsome
          exact hupsert
        · rintro ⟨hupsert, hok⟩
          exact ⟨db, hdb, hupsert, hok⟩
      rw [hpersisted, hrows]
      dsimp only
      cases db.nodes.upsert (newNode req input) with
      | none =>
          refine ⟨_, rfl, ?_, fun _ => rfl⟩
          rintro ⟨hupsert, -⟩
          cases hupsert
      | some result =>
          obtain ⟨table, row⟩ := result
          cases hupsert : input.upsert with
          | ok =>
              refine ⟨_, rfl, ?_, ?_⟩
              · intro _
                exact written_upsertNodeModels row.id req.models db.nodeModels input.models
              · intro hnot
                exact absurd ⟨rfl, rfl⟩ hnot
          -- the node goes to memory
          | failed =>
              refine ⟨_, rfl, ?_, fun _ => rfl⟩
              rintro ⟨-, hok⟩
              cases hok
          | lost =>
              refine ⟨_, rfl, ?_, fun _ => rfl⟩
              rintro ⟨-, hok⟩
              cases hok

/-! ## Two models -/

/-- A node with two models. -/
def twoModels : RegisterNodeRequest :=
  ⟨"gpu-2", "10.0.0.2", 11434, 8181, "RTX 3090", 24576,
    [⟨"llama3.2:3b", " LLAMA-3.2"⟩, ⟨"mistral:7b", "apache-2.0"⟩]⟩

/-- The statement of the second model fails. -/
def secondFails : RegisterInput := ⟨"node-2", 0, 0, .ok, [.ok, .failed]⟩

theorem persisted_two_models :
    Persisted ⟨some ⟨.empty, [], []⟩, []⟩ twoModels secondFails :=
  ⟨_, rfl, NodeTable.upsert_isSome (by decide), rfl⟩

theorem register_rowByRow_two_models :
    ∃ nodeId, Written nodeId [⟨"llama3.2:3b", " LLAMA-3.2"⟩] []
      (register ⟨some ⟨.empty, [], []⟩, []⟩ twoModels secondFails).1.nodeModels := by
  obtain ⟨node, -, hwritten, -⟩ :=
    register_rowByRow ⟨some ⟨.empty, [], []⟩, []⟩ twoModels secondFails (by decide +kernel)
  exact ⟨node.id, hwritten persisted_two_models⟩

/-- The answer is 201, and the second model has no row. -/
theorem not_allOrNothing_second_model :
    let after := register ⟨some ⟨.empty, [], []⟩, []⟩ twoModels secondFails
    after.1.nodeModels = [⟨"node-2", "llama3.2:3b", "llama-3.2"⟩] ∧
      after.2 = .created (newNode twoModels secondFails) ∧
      ¬ AllOrNothing ⟨some ⟨.empty, [], []⟩, []⟩ twoModels secondFails := by
  have hrows : (register ⟨some ⟨.empty, [], []⟩, []⟩ twoModels secondFails).1.nodeModels =
      [⟨"node-2", "llama3.2:3b", "llama-3.2"⟩] := by decide +kernel
  have hanswer : (register ⟨some ⟨.empty, [], []⟩, []⟩ twoModels secondFails).2 =
      .created (newNode twoModels secondFails) := by decide +kernel
  refine ⟨hrows, hanswer, ?_⟩
  rintro (⟨node, -, hall⟩ | ⟨⟨body, hrejected⟩, -⟩)
  · have hrow := hall ⟨"mistral:7b", "apache-2.0"⟩ (by decide)
    rw [hrows, List.mem_singleton] at hrow
    have hname : "mistral:7b" = "llama3.2:3b" := congrArg NodeModel.modelName hrow
    exact absurd hname (by decide)
  · rw [hanswer] at hrejected
    cases hrejected

end InferPlatform.Gateway
