import InferPlatform.Gateway.Roster

/-!
# The licence gate

A registration is checked as a whole before anything is written, and what is written of
a model is its licence in the form that was compared.

* `LicensesApproved` — every stored licence is literally an approved one;
* `register_licensesApproved` — no registration breaks that, whatever its statements do;
* `registerAll_gated` — **over any history of registrations the table holds approved
  licences only**, and a request with another licence is turned down and leaves no trace.
-/

namespace InferPlatform.Gateway

/-- The licence of every row of `node_models` is an element of the list. -/
def LicensesApproved (st : NodeStore) : Prop :=
  ∀ db ∈ st.db, ∀ row ∈ db.nodeModels, row.license ∈ approvedLicenses

/-- The models of a request whose licence, without white space around it and in lower
case, is not in the list. -/
def unapproved (models : List ModelRegistration) : List (String × String) :=
  (models.filter fun m => normalized m.license ∉ approvedLicenses).map fun m =>
    (m.name, m.license)

/-! ## The check -/

theorem findViolations_eq (models : List ModelRegistration) :
    findViolations models = (unapproved models).map fun pair => ⟨pair.1, pair.2⟩ := by
  simp [findViolations, unapproved, isApproved]

/-- The check passes when it has nothing to list. -/
theorem findViolations_eq_nil_iff {models : List ModelRegistration} :
    findViolations models = [] ↔ ∀ m ∈ models, normalized m.license ∈ approvedLicenses := by
  simp [findViolations, isApproved]

/-! ## What is written -/

/-- One statement replaces the row of its model, or adds it. -/
theorem mem_upsertNodeModel {rows : List NodeModel} {nodeId : String} {m : ModelRegistration}
    {r : NodeModel} : r ∈ upsertNodeModel rows nodeId m ↔
      r = ⟨nodeId, m.name, normalized m.license⟩ ∨
        r ∈ rows ∧ ¬ (r.nodeId = nodeId ∧ r.modelName = m.name) := by
  unfold upsertNodeModel
  dsimp only
  split
  · rename_i hany
    rw [List.mem_map]
    constructor
    · rintro ⟨old, hold, rfl⟩
      split
      · exact .inl rfl
      · rename_i hkey
        exact .inr ⟨hold, hkey⟩
    · rintro (rfl | ⟨hold, hkey⟩)
      · obtain ⟨old, hold, hkey⟩ := List.any_eq_true.mp hany
        exact ⟨old, hold, if_pos (of_decide_eq_true hkey)⟩
      · exact ⟨r, hold, if_neg hkey⟩
  · rename_i hany
    rw [List.mem_append, List.mem_singleton]
    constructor
    · rintro (hold | hnew)
      · refine .inr ⟨hold, ?_⟩
        intro hkey
        exact hany (List.any_eq_true.mpr ⟨r, hold, decide_eq_true hkey⟩)
      · exact .inl hnew
    · rintro (hnew | ⟨hold, -⟩)
      · exact .inr hnew
      · exact .inl hold

/-- The statement for a model writes its normalized licence, and no other one. -/
theorem license_upsertNodeModel {rows : List NodeModel} {nodeId : String} {m : ModelRegistration}
    {row : NodeModel} (h : row ∈ upsertNodeModel rows nodeId m) :
    row ∈ rows ∨ row.license = normalized m.license := by
  rcases mem_upsertNodeModel.mp h with rfl | ⟨hold, -⟩
  · exact .inr rfl
  · exact .inl hold

/-- The statements stop at any point. Induction over the models that are left. -/
theorem license_upsertNodeModels {nodeId : String} {models : List ModelRegistration}
    (hmodels : ∀ m ∈ models, normalized m.license ∈ approvedLicenses) :
    ∀ {rows : List NodeModel} {outcomes : List Outcome},
      (∀ row ∈ rows, row.license ∈ approvedLicenses) →
      ∀ row ∈ upsertNodeModels rows nodeId models outcomes, row.license ∈ approvedLicenses := by
  induction models with
  | nil =>
      intro rows outcomes hrows
      exact hrows
  | cons m models ih =>
      intro rows outcomes hrows
      obtain ⟨hm, hmodels⟩ := List.forall_mem_cons.mp hmodels
      have hstatement : ∀ row ∈ upsertNodeModel rows nodeId m, row.license ∈ approvedLicenses := by
        intro row hrow
        rcases license_upsertNodeModel hrow with hold | hnew
        · exact hrows row hold
        · rw [hnew]
          exact hm
      unfold upsertNodeModels
      cases outcomes.headD .ok with
      | ok => exact ih hmodels hstatement
      | failed => exact hrows
      | lost => exact hstatement

/-- **No registration** brings another licence into the table. -/
theorem register_licensesApproved {st : NodeStore} (h : LicensesApproved st)
    (req : RegisterNodeRequest) (input : RegisterInput) :
    LicensesApproved (register st req input).1 := by
  by_cases hviolations : findViolations req.models = []
  · have hmodels := findViolations_eq_nil_iff.mp hviolations
    unfold register
    rw [if_neg (by simp [hviolations])]
    cases hdb : st.db with
    | none =>
        intro db hsome
        cases hsome
    | some db =>
        have hrows := h db hdb
        dsimp only
        split
        -- the node goes to memory, with the table as it was or with a new node
        · intro db' hsome
          cases hsome
          exact hrows
        · intro db' hsome
          cases hsome
          exact hrows
        · intro db' hsome
          cases hsome
          exact hrows
        · intro db' hsome
          cases hsome
          exact license_upsertNodeModels hmodels hrows
  · rw [register_rejected hviolations]
    exact h

/-- Over a history too, one registration after the other. -/
theorem registerAll_licensesApproved {st : NodeStore} (h : LicensesApproved st)
    (history : List Registration) : LicensesApproved (registerAll st history) := by
  induction history using List.reverseRecOn with
  | nil => exact h
  | append_singleton history r ih =>
      rw [registerAll_concat]
      exact register_licensesApproved ih r.req r.input

/-- The answer to a request with unapproved licences, and the store after it. -/
theorem register_unapproved {st : NodeStore} {req : RegisterNodeRequest} (input : RegisterInput)
    (h : unapproved req.models ≠ []) :
    register st req input =
      (st, .unprocessable
        { error := "license_not_approved"
          message := "One or more models use licenses not approved for this platform."
          violations := (unapproved req.models).map fun pair => ⟨pair.1, pair.2⟩
          approvedLicenses }) := by
  have hviolations : findViolations req.models ≠ [] := by
    rw [findViolations_eq]
    exact fun hnil => h (List.map_eq_nil_iff.mp hnil)
  unfold register
  rw [if_pos hviolations, findViolations_eq]

/-- **The gate holds over any history**, from any table of approved licences: the table
stays one, and a request with an unapproved licence gets the list of them and changes
nothing. -/
theorem registerAll_gated (st : NodeStore) (hstart : LicensesApproved st)
    (history : List Registration) :
    LicensesApproved (registerAll st history) ∧
      ∀ (req : RegisterNodeRequest) (input : RegisterInput),
        (∃ m ∈ req.models, normalized m.license ∉ approvedLicenses) →
        register (registerAll st history) req input =
          (registerAll st history, .unprocessable
            { error := "license_not_approved"
              message := "One or more models use licenses not approved for this platform."
              violations := (unapproved req.models).map fun pair => ⟨pair.1, pair.2⟩
              approvedLicenses }) := by
  refine ⟨registerAll_licensesApproved hstart history, ?_⟩
  rintro req input ⟨m, hm, hlicense⟩
  apply register_unapproved
  have hpair : (m.name, m.license) ∈ unapproved req.models :=
    List.mem_map_of_mem (List.mem_filter.mpr ⟨hm, decide_eq_true hlicense⟩)
  exact List.ne_nil_of_mem hpair

/-- A node with two models, of which one has a licence of its own. -/
def unlicensedRequest : RegisterNodeRequest :=
  ⟨"gpu-2", "10.0.0.2", 11434, 8181, "RTX 3090", 24576,
    [⟨"llama3.2:3b", " LLAMA-3.2"⟩, ⟨"house", "proprietary"⟩]⟩

/-- An empty table, a registration of one node, and the request of another. -/
theorem registerAll_gated_two_nodes :
    let st := registerAll ⟨some ⟨.empty, [], []⟩, []⟩ [sampleRegistration "node-1" 0]
    LicensesApproved st ∧ ∃ body, register st unlicensedRequest ⟨"node-2", 1, 1, .ok, []⟩ =
      (st, .unprocessable body) ∧ body.violations = [⟨"house", "proprietary"⟩] := by
  have hgated := registerAll_gated ⟨some ⟨.empty, [], []⟩, []⟩
    (by
      intro db hdb row hrow
      cases hdb
      cases hrow)
    [sampleRegistration "node-1" 0]
  refine ⟨hgated.1, _, hgated.2 unlicensedRequest ⟨"node-2", 1, 1, .ok, []⟩ ?_, ?_⟩
  · exact ⟨⟨"house", "proprietary"⟩, by simp [unlicensedRequest], by decide +kernel⟩
  · decide +kernel

end InferPlatform.Gateway
