import InferPlatform.Gateway.Provider

/-!
# Consumer analytics

The consumer page shows the requests and tokens of a time range in total, for each model
and for each day. Three queries answer for the three parts, one after the other and in no
transaction. A part whose query failed is empty, and the answer is 200 all the same.

* `analytics` — the handler, from the rows that each query finds;
* `sum_groups_ofInt` — the numbers of the groups add up to that of all rows;
* `analytics_parts` — **a part adds up to the totals and what was inserted before its query,
  or it is empty since its query failed**;
* `not_addsUp_failed_or_inserted` — a query that failed, and a row that was inserted.
-/

namespace InferPlatform.Gateway.Consumer

open Provider (Bigint Summable tokens sum_ofInt sum_tokens)

/-! ## Records -/

/-- `from` and `to` are texts. -/
structure ConsumerQuery where
  apiKeyId : Option String
  fromText : Option String
  toText : Option String
  deriving DecidableEq, Repr

structure ModelBreakdown where
  model : String
  requests : Int64
  tokensIn : Int64
  tokensOut : Int64
  tokensTotal : Int64
  spendUsd : Float
  deriving Repr

structure DailyPoint where
  date : String
  requests : Int64
  tokens : Int64
  spendUsd : Float
  deriving Repr

structure ConsumerAnalyticsResponse where
  totalRequests : Int64
  totalTokensIn : Int64
  totalTokensOut : Int64
  totalTokens : Int64
  totalSpendUsd : Float
  tokensByModel : List ModelBreakdown
  dailySpend : List DailyPoint
  deriving Repr

structure TotalsRow where
  totalRequests : Option Int64
  totalTokensIn : Option Int64
  totalTokensOut : Option Int64
  deriving DecidableEq, Repr

structure ModelRow where
  model : String
  requests : Option Int64
  tokensIn : Option Int64
  tokensOut : Option Int64
  deriving DecidableEq, Repr

structure DayRow where
  date : String
  requests : Option Int64
  tokens : Option Int64
  deriving DecidableEq, Repr

/-- What all three queries bind. -/
structure Filter where
  keyFilter : Option String
  fromDt : Int
  toDt : Int
  deriving DecidableEq, Repr

/-- Two readings of the clock, the variable if it holds a number, which of the queries
succeed, and the rows that others insert before the second and before the third one. -/
structure Input where
  nowFrom : Int
  nowTo : Int
  tokenRateUsd : Option Float
  totalsOk : Bool
  modelsOk : Bool
  daysOk : Bool
  beforeModels : List UsageLog
  beforeDays : List UsageLog

/-! ## Queries -/

/-- The condition of all three queries. -/
def Filter.selects (f : Filter) (usage : List UsageLog) : List UsageLog :=
  usage.filter fun row =>
    (f.keyFilter = none ∨ f.keyFilter = some row.keyId) ∧
      f.fromDt ≤ row.timestamp ∧ row.timestamp ≤ f.toDt

/-- `GROUP BY`. -/
def groups {κ : Type} [DecidableEq κ] (key : UsageLog → κ) (rows : List UsageLog) :
    List (κ × List UsageLog) :=
  (rows.map key).dedup.map fun k => (k, rows.filter fun row => key row = k)

/-- The `integer` numbers; `tokens_in + tokens_out` is one. -/
def Integer (n : Int) : Prop := -2147483648 ≤ n ∧ n < 2147483648

instance (n : Int) : Decidable (Integer n) := inferInstanceAs (Decidable (_ ∧ _))

/-- `SUM(tokens_in + tokens_out)` is in range, for each row and for the group. -/
def TokensSummable (rows : List UsageLog) : Prop :=
  (∀ row ∈ rows, Integer (tokens row)) ∧ Bigint (rows.map tokens).sum

instance (rows : List UsageLog) : Decidable (TokensSummable rows) :=
  inferInstanceAs (Decidable (_ ∧ _))

/-- A query is an error if a number is out of range. -/
def totalsQuery (rows : List UsageLog) : Option TotalsRow :=
  if Summable rows then
    some ⟨some (.ofInt rows.length), some (.ofInt (sumIn rows)), some (.ofInt (sumOut rows))⟩
  else none

/-- The models, the one with the most tokens first. -/
def modelQuery (rows : List UsageLog) : Option (List ModelRow) :=
  let found := groups (·.model) rows
  if ∀ g ∈ found, Summable g.2 ∧ TokensSummable g.2 then
    let ordered := found.insertionSort fun a b => (b.2.map tokens).sum ≤ (a.2.map tokens).sum
    some (ordered.map fun g =>
      ⟨g.1, some (.ofInt g.2.length), some (.ofInt (sumIn g.2)), some (.ofInt (sumOut g.2))⟩)
  else none

section

-- `DATE_TRUNC('day', …)`, which depends on the time zone of the session, and `TO_CHAR`
variable (dateTrunc : Int → Int) (toChar : Int → String)

/-- The days, in their order. -/
def dayQuery (rows : List UsageLog) : Option (List DayRow) :=
  let found := groups (fun row => dateTrunc row.timestamp) rows
  if ∀ g ∈ found, Bigint g.2.length ∧ TokensSummable g.2 then
    let ordered := found.insertionSort fun a b => a.1 ≤ b.1
    some (ordered.map fun g =>
      ⟨toChar g.1, some (.ofInt g.2.length), some (.ofInt (g.2.map tokens).sum)⟩)
  else none

/-! ## The handler -/

-- the parsers of a time and of a day
variable (parseFromRfc3339 parseDay : String → Option Int)

def parseDate (s : String) : Option Int :=
  match parseFromRfc3339 s with
  | some dt => some dt
  | none => parseDay s

/-- Without dates these are the last 30 days. -/
def filterOf (params : ConsumerQuery) (input : Input) : Filter :=
  { keyFilter := params.apiKeyId
    fromDt := (params.fromText.bind (parseDate parseFromRfc3339 parseDay)).getD
      (input.nowFrom - 2592000000000)
    toDt := (params.toText.bind (parseDate parseFromRfc3339 parseDay)).getD input.nowTo }

def round4 (v : Float) : Float := (v * 10000.0).round / 10000.0

/-- Sums of `i64` numbers wrap around. -/
def modelBreakdown (tokenRate : Float) (r : ModelRow) : ModelBreakdown :=
  let ti := r.tokensIn.getD 0
  let to_ := r.tokensOut.getD 0
  let total := ti + to_
  { model := r.model
    requests := r.requests.getD 0
    tokensIn := ti
    tokensOut := to_
    tokensTotal := total
    spendUsd := round4 (total.toFloat * tokenRate) }

def dailyPoint (tokenRate : Float) (r : DayRow) : DailyPoint :=
  let tokens := r.tokens.getD 0
  { date := r.date
    requests := r.requests.getD 0
    tokens
    spendUsd := round4 (tokens.toFloat * tokenRate) }

/-- The rows of the second query, if it succeeds. -/
def modelRows (f : Filter) (usage : List UsageLog) (input : Input) : Option (List ModelRow) :=
  if input.modelsOk then modelQuery (f.selects (usage ++ input.beforeModels)) else none

/-- The rows of the third query, if it succeeds. -/
def dayRows (f : Filter) (usage : List UsageLog) (input : Input) : Option (List DayRow) :=
  if input.daysOk then
    dayQuery dateTrunc toChar (f.selects (usage ++ input.beforeModels ++ input.beforeDays))
  else none

/-- `GET /v1/internal/analytics/consumer`. -/
def analytics (db : Option (List UsageLog)) (params : ConsumerQuery) (input : Input) :
    Except ApiError ConsumerAnalyticsResponse :=
  match db with
  | none => .error ⟨503, "database not configured", "server_error"⟩
  | some usage =>
    let tokenRate := input.tokenRateUsd.getD 0.000001
    let f := filterOf parseFromRfc3339 parseDay params input
    match if input.totalsOk then totalsQuery (f.selects usage) else none with
    | none => .error (internalError "query failed")
    | some totals =>
      let totalTokensIn := totals.totalTokensIn.getD 0
      let totalTokensOut := totals.totalTokensOut.getD 0
      let totalTokens := totalTokensIn + totalTokensOut
      .ok
        { totalRequests := totals.totalRequests.getD 0
          totalTokensIn
          totalTokensOut
          totalTokens
          totalSpendUsd := round4 (totalTokens.toFloat * tokenRate)
          -- `unwrap_or_default` makes an empty list of an error
          tokensByModel := ((modelRows f usage input).getD []).map (modelBreakdown tokenRate)
          dailySpend := ((dayRows dateTrunc toChar f usage input).getD []).map
            (dailyPoint tokenRate) }

/-! ## What is asked of the answer -/

/-- The parts add up to the totals. -/
structure AddsUp (body : ConsumerAnalyticsResponse) : Prop where
  modelRequests : (body.tokensByModel.map (·.requests)).sum = body.totalRequests
  modelTokens : (body.tokensByModel.map (·.tokensTotal)).sum = body.totalTokens
  dayRequests : (body.dailySpend.map (·.requests)).sum = body.totalRequests
  dayTokens : (body.dailySpend.map (·.tokens)).sum = body.totalTokens

/-- The part of a query that was answered, as pairs of requests and tokens: it adds up to
the totals and the rows that were inserted before the query. The part of a query that
failed is empty. -/
structure PartOf (body : ConsumerAnalyticsResponse) (answered : Bool) (inserted : List UsageLog)
    (points : List (Int64 × Int64)) : Prop where
  requests : answered →
    (points.map (·.1)).sum = body.totalRequests + .ofInt inserted.length
  tokens : answered →
    (points.map (·.2)).sum = body.totalTokens + .ofInt (inserted.map tokens).sum
  empty : ¬ answered → points = []

end

/-! ## Groups -/

/-- The numbers of the groups, in any order, add up to the number of all rows. -/
theorem sum_groups_ofInt {κ : Type} [DecidableEq κ] {key : UsageLog → κ} {rows : List UsageLog}
    {ordered : List (κ × List UsageLog)} (hperm : ordered.Perm (groups key rows))
    (amount : UsageLog → Int) :
    (ordered.map fun g => Int64.ofInt (g.2.map amount).sum).sum =
      .ofInt (rows.map amount).sum := by
  have hkeys : ∀ row ∈ rows, key row ∈ (rows.map key).dedup := by
    intro row hrow
    exact List.mem_dedup.mpr (List.mem_map_of_mem hrow)
  have hgroups := sum_groups key amount (List.nodup_dedup (rows.map key)) hkeys
  rw [sum_ofInt, (hperm.map _).sum_eq, groups, List.map_map]
  exact congrArg Int64.ofInt hgroups

/-- A part that has a point for each group, in any order. -/
theorem partOf_groups {κ : Type} [DecidableEq κ] {key : UsageLog → κ}
    {rows inserted : List UsageLog} {ordered : List (κ × List UsageLog)}
    {body : ConsumerAnalyticsResponse} (hperm : ordered.Perm (groups key (rows ++ inserted)))
    (hrequests : body.totalRequests = .ofInt rows.length)
    (htokens : body.totalTokens = .ofInt (rows.map tokens).sum) :
    PartOf body true inserted
      (ordered.map fun g => (Int64.ofInt g.2.length, Int64.ofInt (g.2.map tokens).sum)) where
  requests _ := by
    have hcount := sum_groups_ofInt hperm fun _ => 1
    rw [hrequests, List.map_map, ← Int64.ofInt_add]
    -- a row counts as one
    simpa [Function.comp_def] using hcount
  tokens _ := by
    have hsum := sum_groups_ofInt hperm tokens
    rw [List.map_append, List.sum_append] at hsum
    rw [htokens, List.map_map, ← Int64.ofInt_add]
    exact hsum
  empty hnot := absurd rfl hnot

theorem Filter.selects_append (f : Filter) (usage inserted : List UsageLog) :
    f.selects (usage ++ inserted) = f.selects usage ++ f.selects inserted :=
  List.filter_append usage inserted

/-! ## The three queries -/

/-- The totals are those of the rows. -/
theorem totalsQuery_eq {rows : List UsageLog} {totals : TotalsRow}
    (h : totalsQuery rows = some totals) :
    totals.totalRequests.getD 0 = .ofInt rows.length ∧
      totals.totalTokensIn.getD 0 + totals.totalTokensOut.getD 0 =
        .ofInt (rows.map tokens).sum := by
  unfold totalsQuery at h
  split at h
  · injection h with h
    rw [← h, ← sum_tokens, Int64.ofInt_add]
    exact ⟨rfl, rfl⟩
  · cases h

/-- A point for each model. -/
theorem modelQuery_eq {rows : List UsageLog} {found : List ModelRow}
    (h : modelQuery rows = some found) (tokenRate : Float) :
    ∃ ordered : List (String × List UsageLog), ordered.Perm (groups (·.model) rows) ∧
      ((found.map (modelBreakdown tokenRate)).map fun m => (m.requests, m.tokensTotal)) =
        ordered.map fun g => (Int64.ofInt g.2.length, Int64.ofInt (g.2.map tokens).sum) := by
  unfold modelQuery at h
  dsimp only at h
  split at h
  · injection h with h
    refine ⟨(groups (·.model) rows).insertionSort fun a b =>
      (b.2.map tokens).sum ≤ (a.2.map tokens).sum, List.perm_insertionSort _ _, ?_⟩
    rw [← h, List.map_map, List.map_map]
    apply List.map_congr_left
    intro g _
    rw [← sum_tokens, Int64.ofInt_add]
    rfl
  · cases h

/-- A point for each day. -/
theorem dayQuery_eq {dateTrunc : Int → Int} {toChar : Int → String} {rows : List UsageLog}
    {found : List DayRow} (h : dayQuery dateTrunc toChar rows = some found)
    (tokenRate : Float) :
    ∃ ordered : List (Int × List UsageLog),
      ordered.Perm (groups (fun row => dateTrunc row.timestamp) rows) ∧
      ((found.map (dailyPoint tokenRate)).map fun d => (d.requests, d.tokens)) =
        ordered.map fun g => (Int64.ofInt g.2.length, Int64.ofInt (g.2.map tokens).sum) := by
  unfold dayQuery at h
  dsimp only at h
  split at h
  · injection h with h
    refine ⟨(groups (fun row => dateTrunc row.timestamp) rows).insertionSort fun a b => a.1 ≤ b.1,
      List.perm_insertionSort _ _, ?_⟩
    rw [← h, List.map_map, List.map_map]
    rfl
  · cases h

/-! ## The parts -/

/-- The part of a query that failed. -/
theorem partOf_failed (body : ConsumerAnalyticsResponse) (inserted : List UsageLog) :
    PartOf body false inserted [] where
  requests hanswered := absurd hanswered (by decide)
  tokens hanswered := absurd hanswered (by decide)
  empty _ := rfl

section

variable {f : Filter} {usage : List UsageLog} (input : Input) {body : ConsumerAnalyticsResponse}
  (hrequests : body.totalRequests = .ofInt (f.selects usage).length)
  (htokens : body.totalTokens = .ofInt ((f.selects usage).map tokens).sum)

include hrequests htokens

theorem partOf_models (tokenRate : Float) :
    PartOf body (modelRows f usage input).isSome (f.selects input.beforeModels)
      ((((modelRows f usage input).getD []).map (modelBreakdown tokenRate)).map fun m =>
        (m.requests, m.tokensTotal)) := by
  cases hmodels : modelRows f usage input with
  | none => exact partOf_failed body _
  | some found =>
      unfold modelRows at hmodels
      split at hmodels
      · rw [f.selects_append] at hmodels
        obtain ⟨ordered, hperm, hpoints⟩ := modelQuery_eq hmodels tokenRate
        rw [Option.getD_some, hpoints]
        exact partOf_groups hperm hrequests htokens
      · cases hmodels

theorem partOf_days (dateTrunc : Int → Int) (toChar : Int → String) (tokenRate : Float) :
    PartOf body (dayRows dateTrunc toChar f usage input).isSome
      (f.selects (input.beforeModels ++ input.beforeDays))
      ((((dayRows dateTrunc toChar f usage input).getD []).map (dailyPoint tokenRate)).map
        fun d => (d.requests, d.tokens)) := by
  cases hdays : dayRows dateTrunc toChar f usage input with
  | none => exact partOf_failed body _
  | some found =>
      unfold dayRows at hdays
      split at hdays
      · rw [List.append_assoc, f.selects_append] at hdays
        obtain ⟨ordered, hperm, hpoints⟩ := dayQuery_eq hdays tokenRate
        rw [Option.getD_some, hpoints]
        exact partOf_groups hperm hrequests htokens
      · cases hdays

end

/-- Without rows in between a part adds up to the totals themselves. -/
theorem PartOf.sums {body : ConsumerAnalyticsResponse} {points : List (Int64 × Int64)}
    (h : PartOf body true [] points) :
    (points.map (·.1)).sum = body.totalRequests ∧ (points.map (·.2)).sum = body.totalTokens := by
  refine ⟨(h.requests rfl).trans ?_, (h.tokens rfl).trans ?_⟩
  · exact Int64.add_zero body.totalRequests
  · exact Int64.add_zero body.totalTokens

/-- An answer has the totals of the rows, and a list for each of the other queries. -/
theorem analytics_ok {dateTrunc : Int → Int} {toChar : Int → String}
    {parseFromRfc3339 parseDay : String → Option Int} {usage : List UsageLog}
    {params : ConsumerQuery} {input : Input} {body : ConsumerAnalyticsResponse}
    (h : analytics dateTrunc toChar parseFromRfc3339 parseDay (some usage) params input =
      .ok body) :
    let f := filterOf parseFromRfc3339 parseDay params input
    body.totalRequests = .ofInt (f.selects usage).length ∧
      body.totalTokens = .ofInt ((f.selects usage).map tokens).sum ∧
      ∃ tokenRate,
        body.tokensByModel =
          ((modelRows f usage input).getD []).map (modelBreakdown tokenRate) ∧
        body.dailySpend =
          ((dayRows dateTrunc toChar f usage input).getD []).map (dailyPoint tokenRate) := by
  intro f
  unfold analytics at h
  dsimp only at h
  split at h
  · cases h
  · rename_i totals htotals
    injection h with h
    have hquery : totalsQuery (f.selects usage) = some totals := by
      split at htotals
      · exact htotals
      · cases htotals
    obtain ⟨hrequests, htokens⟩ := totalsQuery_eq hquery
    rw [← h]
    exact ⟨hrequests, htokens, _, rfl, rfl⟩

/-- **Each part adds up to the totals** and what was inserted before its query, or it is
empty since its query failed. So both add up to the totals where all queries succeed and
no such row was inserted. -/
theorem analytics_parts (dateTrunc : Int → Int) (toChar : Int → String)
    (parseFromRfc3339 parseDay : String → Option Int) (usage : List UsageLog)
    (params : ConsumerQuery) (input : Input) (body : ConsumerAnalyticsResponse)
    (h : analytics dateTrunc toChar parseFromRfc3339 parseDay (some usage) params input =
      .ok body) :
    let f := filterOf parseFromRfc3339 parseDay params input
    PartOf body (modelRows f usage input).isSome (f.selects input.beforeModels)
        (body.tokensByModel.map fun m => (m.requests, m.tokensTotal)) ∧
      PartOf body (dayRows dateTrunc toChar f usage input).isSome
        (f.selects (input.beforeModels ++ input.beforeDays))
        (body.dailySpend.map fun d => (d.requests, d.tokens)) ∧
      ((modelRows f usage input).isSome → (dayRows dateTrunc toChar f usage input).isSome →
        f.selects (input.beforeModels ++ input.beforeDays) = [] → AddsUp body) := by
  intro f
  obtain ⟨hrequests, htokens, tokenRate, hmodels, hdays⟩ := analytics_ok h
  have hmodelPart := partOf_models input hrequests htokens tokenRate
  have hdayPart := partOf_days input hrequests htokens dateTrunc toChar tokenRate
  rw [← hmodels] at hmodelPart
  rw [← hdays] at hdayPart
  refine ⟨hmodelPart, hdayPart, ?_⟩
  intro hmodelsOk hdaysOk hnone
  -- no row before the third query, so none before the second one
  have hsplit := f.selects_append input.beforeModels input.beforeDays
  rw [hnone] at hsplit
  have hnoneBefore := (List.append_eq_nil_iff.mp hsplit.symm).1
  rw [hmodelsOk, hnoneBefore] at hmodelPart
  rw [hdaysOk, hnone] at hdayPart
  obtain ⟨hmodelRequests, hmodelTokens⟩ := hmodelPart.sums
  obtain ⟨hdayRequests, hdayTokens⟩ := hdayPart.sums
  rw [List.map_map] at hmodelRequests hmodelTokens hdayRequests hdayTokens
  exact ⟨hmodelRequests, hmodelTokens, hdayRequests, hdayTokens⟩

/-! ## One request, and a second one -/

/-- Days begin at midnight, in UTC. -/
def utcDay (time : Int) : Int := time / 86400000000 * 86400000000

/-- The text of the first day of the epoch. -/
def utcText (_ : Int) : String := "1970-01-01"

/-- No text here has a time. -/
def readTime (_ : String) : Option Int := none

def readDay (s : String) : Option Int :=
  if s = "1970-01-01" then some 0 else if s = "1970-01-02" then some 86400000000 else none

def firstDay : ConsumerQuery := ⟨none, some "1970-01-01", some "1970-01-02"⟩

def sampleUsage : List UsageLog := [⟨1, "key-1", "llama3.2:3b", 20, 100, 2000000⟩]

/-- A row that is inserted before the second query. -/
def laterUsage : List UsageLog := [⟨2, "key-1", "qwen2.5:7b", 10, 50, 3000000⟩]

/-- The input of the handler; the query for the models may fail, and rows may come in
between. -/
def sampleInput (modelsOk : Bool) (beforeModels : List UsageLog) : Input :=
  ⟨4000000, 4000000, none, true, modelsOk, true, beforeModels, []⟩

/-- The answer to a sample input. -/
def sampleAnswer (modelsOk : Bool) (beforeModels : List UsageLog) :
    Except ApiError ConsumerAnalyticsResponse :=
  analytics utcDay utcText readTime readDay (some sampleUsage) firstDay
    (sampleInput modelsOk beforeModels)

theorem analytics_parts_sample : ∃ body, sampleAnswer true [] = .ok body ∧ AddsUp body := by
  cases hanswer : sampleAnswer true [] with
  | error e =>
      have hok : (sampleAnswer true []).isOk := by decide +kernel
      rw [hanswer] at hok
      cases hok
  | ok body =>
      have hparts := analytics_parts utcDay utcText readTime readDay sampleUsage firstDay
        (sampleInput true []) body hanswer
      exact ⟨body, rfl, hparts.2.2 (by decide +kernel) (by decide +kernel) (by decide +kernel)⟩

/-- A query that fails, and a row in between: the answer is 200 and the models do not add
up to the totals. -/
theorem not_addsUp_failed_or_inserted :
    (∃ body, sampleAnswer false [] = .ok body ∧ ¬ AddsUp body) ∧
      ∃ body, sampleAnswer true laterUsage = .ok body ∧ ¬ AddsUp body := by
  have hsums : ∀ modelsOk beforeModels,
      ((sampleAnswer modelsOk beforeModels).toOption.map fun body =>
        decide ((body.tokensByModel.map (·.tokensTotal)).sum = body.totalTokens)) = some false →
      ∃ body, sampleAnswer modelsOk beforeModels = .ok body ∧ ¬ AddsUp body := by
    intro modelsOk beforeModels hsum
    cases hanswer : sampleAnswer modelsOk beforeModels with
    | error e =>
        rw [hanswer] at hsum
        cases hsum
    | ok body =>
        rw [hanswer] at hsum
        refine ⟨body, rfl, ?_⟩
        intro hadds
        exact absurd hadds.modelTokens (of_decide_eq_false (Option.some.inj hsum))
  exact ⟨hsums false [] (by decide +kernel), hsums true laterUsage (by decide +kernel)⟩

end InferPlatform.Gateway.Consumer
