import InferPlatform.Gateway.Consumer

/-!
# The usage summary

The summary shows the requests and tokens of every key, the busiest key first, and adds
them up. It is a second view of the rows that the consumer page sums up for one key or for
all of them.

* `summary` — the handler;
* `summary_agrees` — **the summary has every key once, and agrees with the consumer page on
  each key and on the totals**.
-/

namespace InferPlatform.Gateway

open Consumer (groups sum_groups_ofInt)
open Provider (Bigint Summable tokens sum_tokens)

namespace UsageSummary

/-! ## The handler -/

structure KeyUsageSummary where
  keyId : String
  requestCount : Int64
  totalTokensIn : Int64
  totalTokensOut : Int64
  totalTokens : Int64
  deriving DecidableEq, Repr

structure TotalUsage where
  requestCount : Int64
  totalTokensIn : Int64
  totalTokensOut : Int64
  totalTokens : Int64
  deriving DecidableEq, Repr

structure UsageResponse where
  byKey : List KeyUsageSummary
  totals : TotalUsage
  deriving DecidableEq, Repr

structure Row where
  keyId : Option String
  requestCount : Option Int64
  totalTokensIn : Option Int64
  totalTokensOut : Option Int64
  deriving DecidableEq, Repr

/-- One row for each key, the one with the most requests first. -/
def usageQuery (usage : List UsageLog) : Option (List Row) :=
  let found := groups (·.keyId) usage
  if ∀ g ∈ found, Summable g.2 then
    let ordered := found.insertionSort fun a b => b.2.length ≤ a.2.length
    some (ordered.map fun g => ⟨some g.1, some (.ofInt g.2.length), some (.ofInt (sumIn g.2)),
      some (.ofInt (sumOut g.2))⟩)
  else none

def keyUsage (r : Row) : KeyUsageSummary :=
  let ti := r.totalTokensIn.getD 0
  let to_ := r.totalTokensOut.getD 0
  { keyId := r.keyId.getD ""
    requestCount := r.requestCount.getD 0
    totalTokensIn := ti
    totalTokensOut := to_
    totalTokens := ti + to_ }

/-- `GET /v1/internal/usage`; `ok` says whether its query succeeds. Sums wrap around. -/
def summary (db : Option (List UsageLog)) (ok : Bool) : Except ApiError UsageResponse :=
  match db with
  | none => .error ⟨503, "database not configured", "server_error"⟩
  | some usage =>
    match if ok then usageQuery usage else none with
    | none => .error (internalError "query failed")
    | some rows =>
      let byKey := rows.map keyUsage
      .ok
        { byKey
          totals :=
            { requestCount := (byKey.map (·.requestCount)).sum
              totalTokensIn := (byKey.map (·.totalTokensIn)).sum
              totalTokensOut := (byKey.map (·.totalTokensOut)).sum
              totalTokens := (byKey.map (·.totalTokens)).sum } }

/-! ## Entries -/

/-- The entry of a group. -/
def entryOf (g : String × List UsageLog) : KeyUsageSummary :=
  { keyId := g.1
    requestCount := .ofInt g.2.length
    totalTokensIn := .ofInt (sumIn g.2)
    totalTokensOut := .ofInt (sumOut g.2)
    totalTokens := .ofInt (g.2.map tokens).sum }

/-- **The answer in closed form**: an entry for each group, in order of size, and the
totals of the table. -/
theorem summary_ok {usage : List UsageLog} {ok : Bool} {answer : UsageResponse}
    (h : summary (some usage) ok = .ok answer) :
    ∃ ordered : List (String × List UsageLog), ordered.Perm (groups (·.keyId) usage) ∧
      ordered.Pairwise (fun a b => b.2.length ≤ a.2.length) ∧
      (∀ g ∈ ordered, Summable g.2) ∧ answer.byKey = ordered.map entryOf ∧
      answer.totals = ⟨.ofInt usage.length, .ofInt (sumIn usage), .ofInt (sumOut usage),
        .ofInt (usage.map tokens).sum⟩ := by
  unfold summary at h
  dsimp only at h
  split at h
  · cases h
  · rename_i rows hrows
    injection h with h
    have hquery : usageQuery usage = some rows := by
      split at hrows
      · exact hrows
      · cases hrows
    unfold usageQuery at hquery
    dsimp only at hquery
    split at hquery
    · rename_i hsummable
      injection hquery with hquery
      let larger (a b : String × List UsageLog) : Prop := b.2.length ≤ a.2.length
      have htotal : Std.Total larger := ⟨fun a b => le_total b.2.length a.2.length⟩
      have htrans : IsTrans (String × List UsageLog) larger := ⟨fun _ _ _ hab hbc => hbc.trans hab⟩
      let ordered := (groups (·.keyId) usage).insertionSort larger
      have hperm : ordered.Perm (groups (·.keyId) usage) := List.perm_insertionSort _ _
      have hentries : rows.map keyUsage = ordered.map entryOf := by
        rw [← hquery, List.map_map]
        apply List.map_congr_left
        intro g _
        show keyUsage ⟨some g.1, _, _, _⟩ = entryOf g
        rw [entryOf, ← sum_tokens, Int64.ofInt_add]
        rfl
      refine ⟨ordered, hperm, List.pairwise_insertionSort _ _, ?_, ?_, ?_⟩
      · intro g hg
        exact hsummable g (hperm.mem_iff.mp hg)
      · rw [← h]
        exact hentries
      · have hcount := sum_groups_ofInt hperm fun _ => 1
        have hin := sum_groups_ofInt hperm fun row => row.tokensIn.toInt
        have hout := sum_groups_ofInt hperm fun row => row.tokensOut.toInt
        have hboth := sum_groups_ofInt hperm tokens
        rw [← h, hentries]
        simp only [List.map_map]
        congr 1
        simpa [Function.comp_def, entryOf] using hcount
    · cases hquery

/-! ## Two pages -/

def KeyUsageSummary.numbers (entry : KeyUsageSummary) : TotalUsage :=
  ⟨entry.requestCount, entry.totalTokensIn, entry.totalTokensOut, entry.totalTokens⟩

/-- The totals of the consumer page. -/
def pageTotals (body : Consumer.ConsumerAnalyticsResponse) : TotalUsage :=
  ⟨body.totalRequests, body.totalTokensIn, body.totalTokensOut, body.totalTokens⟩

/-- The numbers of some rows. -/
def numbersOf (rows : List UsageLog) : TotalUsage :=
  ⟨.ofInt rows.length, .ofInt (sumIn rows), .ofInt (sumOut rows), .ofInt (rows.map tokens).sum⟩

/-- The range of a filter has every row that its key has. -/
def Covers (f : Consumer.Filter) (usage : List UsageLog) : Prop :=
  ∀ row ∈ usage, f.keyFilter = none ∨ f.keyFilter = some row.keyId →
    f.fromDt ≤ row.timestamp ∧ row.timestamp ≤ f.toDt

instance (f : Consumer.Filter) (usage : List UsageLog) : Decidable (Covers f usage) :=
  inferInstanceAs (Decidable (∀ row ∈ usage, _))

theorem Covers.selects_all {f : Consumer.Filter} {usage : List UsageLog} (h : Covers f usage)
    (hall : f.keyFilter = none) : f.selects usage = usage := by
  rw [Consumer.Filter.selects, List.filter_eq_self]
  intro row hrow
  simp [hall, h row hrow (.inl hall)]

theorem Covers.selects_key {f : Consumer.Filter} {usage : List UsageLog} (h : Covers f usage)
    {k : String} (hkey : f.keyFilter = some k) :
    f.selects usage = usage.filter fun row => row.keyId = k := by
  apply List.filter_congr
  intro row hrow
  by_cases hrowKey : row.keyId = k
  · have hrange := h row hrow (.inr (by rw [hkey, hrowKey]))
    simp [hkey, hrowKey, hrange]
  · simp [hkey, hrowKey, Ne.symm hrowKey]

theorem pageTotals_eq {dateTrunc : Int → Int} {toChar : Int → String}
    {parseFromRfc3339 parseDay : String → Option Int} {usage : List UsageLog}
    {params : Consumer.ConsumerQuery} {input : Consumer.Input}
    {body : Consumer.ConsumerAnalyticsResponse}
    (h : Consumer.analytics dateTrunc toChar parseFromRfc3339 parseDay (some usage) params input =
      .ok body) :
    pageTotals body =
      numbersOf ((Consumer.filterOf parseFromRfc3339 parseDay params input).selects usage) := by
  unfold Consumer.analytics at h
  dsimp only at h
  split at h
  · cases h
  · rename_i totals htotals
    injection h with h
    have hquery : Consumer.totalsQuery
        ((Consumer.filterOf parseFromRfc3339 parseDay params input).selects usage) = some totals := by
      split at htotals
      · exact htotals
      · cases htotals
    unfold Consumer.totalsQuery at hquery
    split at hquery
    · injection hquery with hquery
      rw [← h, ← hquery, numbersOf, ← sum_tokens, Int64.ofInt_add]
      rfl
    · cases hquery

/-- What the summary says of the table: every key has one entry, the busiest come first. -/
structure Keyed (usage : List UsageLog) (answer : UsageResponse) : Prop where
  once : (answer.byKey.map (·.keyId)).Nodup
  keys : ∀ k, k ∈ answer.byKey.map (·.keyId) ↔ ∃ row ∈ usage, row.keyId = k
  busiestFirst : answer.byKey.Pairwise fun a b => b.requestCount ≤ a.requestCount

/-- Counts of the groups of a summable table are compared as numbers. -/
theorem ofInt_le_ofInt {a b : Int} (ha : Bigint a) (hb : Bigint b) (h : a ≤ b) :
    Int64.ofInt a ≤ Int64.ofInt b := by
  obtain ⟨ha₁, ha₂⟩ := ha
  obtain ⟨hb₁, hb₂⟩ := hb
  rw [Int64.le_iff_toInt_le, Int64.toInt_ofInt_of_le (by omega) (by omega),
    Int64.toInt_ofInt_of_le (by omega) (by omega)]
  exact h

/-- **Two views of one table.** The summary has each key once, in order of requests; on
every key, and on all of them, it says what the consumer page says for a range that has
the rows. -/
theorem summary_agrees {usage : List UsageLog} {ok : Bool} {answer : UsageResponse}
    (h : summary (some usage) ok = .ok answer) :
    Keyed usage answer ∧
      ∀ dateTrunc toChar parseFromRfc3339 parseDay params input body,
        Consumer.analytics dateTrunc toChar parseFromRfc3339 parseDay (some usage) params input =
          .ok body →
        Covers (Consumer.filterOf parseFromRfc3339 parseDay params input) usage →
        (params.apiKeyId = none → pageTotals body = answer.totals) ∧
          ∀ entry ∈ answer.byKey, params.apiKeyId = some entry.keyId →
            pageTotals body = entry.numbers := by
  obtain ⟨ordered, hperm, hsorted, hsummable, hentries, htotals⟩ := summary_ok h
  have hkeys : answer.byKey.map (·.keyId) = ordered.map (·.1) := by
    rw [hentries, List.map_map]
    rfl
  have hdedup : (ordered.map (·.1)).Perm (usage.map (·.keyId)).dedup := by
    refine (hperm.map _).trans ?_
    rw [groups, List.map_map]
    exact List.Perm.of_eq (List.map_id _)
  refine ⟨⟨?_, ?_, ?_⟩, ?_⟩
  · rw [hkeys]
    exact hdedup.nodup_iff.mpr (List.nodup_dedup _)
  · intro k
    rw [hkeys, hdedup.mem_iff, List.mem_dedup, List.mem_map]
  · rw [hentries, List.pairwise_map]
    refine hsorted.imp_of_mem ?_
    intro a b ha hb hle
    exact ofInt_le_ofInt (hsummable b hb).1 (hsummable a ha).1 (by exact_mod_cast hle)
  · intro dateTrunc toChar parseFromRfc3339 parseDay params input body hbody hcovers
    rw [pageTotals_eq hbody]
    refine ⟨?_, ?_⟩
    · intro hall
      rw [hcovers.selects_all hall, htotals]
      rfl
    · intro entry hentry hkey
      rw [hentries] at hentry
      obtain ⟨g, hg, rfl⟩ := List.mem_map.mp hentry
      obtain ⟨k, -, rfl⟩ := List.mem_map.mp (hperm.mem_iff.mp hg)
      rw [hcovers.selects_key hkey]
      rfl

/-! ## Two keys -/

def twoKeys : List UsageLog :=
  [⟨1, "key-1", "llama3.2:3b", 20, 100, 2000000⟩, ⟨2, "key-2", "qwen2.5:7b", 10, 50, 3000000⟩,
    ⟨3, "key-2", "llama3.2:3b", 1, 2, 3500000⟩]

/-- The page of the second key. -/
def secondKey : Consumer.ConsumerQuery := { Consumer.firstDay with apiKeyId := some "key-2" }

theorem summary_agrees_two_keys : ∃ answer body,
    summary (some twoKeys) true = .ok answer ∧ answer.byKey.map (·.keyId) = ["key-2", "key-1"] ∧
      Consumer.analytics Consumer.utcDay Consumer.utcText Consumer.readTime Consumer.readDay
        (some twoKeys) secondKey (Consumer.sampleInput true []) = .ok body ∧
      ∀ entry ∈ answer.byKey, some "key-2" = some entry.keyId → pageTotals body = entry.numbers := by
  have hsummary : ∃ answer, summary (some twoKeys) true = .ok answer ∧
      answer.byKey.map (·.keyId) = ["key-2", "key-1"] := ⟨_, rfl, by decide +kernel⟩
  obtain ⟨answer, hanswer, hkeys⟩ := hsummary
  cases hbody : Consumer.analytics Consumer.utcDay Consumer.utcText Consumer.readTime
      Consumer.readDay (some twoKeys) secondKey (Consumer.sampleInput true []) with
  | error e =>
      have hok : (Consumer.analytics Consumer.utcDay Consumer.utcText Consumer.readTime
        Consumer.readDay (some twoKeys) secondKey (Consumer.sampleInput true [])).isOk := by
        decide +kernel
      rw [hbody] at hok
      cases hok
  | ok body =>
      refine ⟨answer, body, hanswer, hkeys, rfl, ?_⟩
      exact ((summary_agrees hanswer).2 Consumer.utcDay Consumer.utcText Consumer.readTime
        Consumer.readDay secondKey (Consumer.sampleInput true []) body hbody (by decide +kernel)).2

end UsageSummary

end InferPlatform.Gateway
