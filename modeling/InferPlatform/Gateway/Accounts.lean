import InferPlatform.Base.Exclusion
import InferPlatform.Base.Json
import InferPlatform.Gateway.Payouts
import Mathlib.Data.List.Nodup

/-!
# Connect accounts

A node is paid through a Stripe Connect account. The `connect` handler looks for
the node's account, has Stripe create one if there is none, and inserts it. The
table has no constraint on the node, so two requests that both find no account
insert two, and the node is paid twice. An insert that a request no longer waits for
is carried out all the same.

* `connectAdvance` — the handler, one statement or call at a time;
* `connectAbandon`, `connectLate` — an insert that outlives its request;
* `connects` — any number of requests, webhooks and registrations;
* `oneAccount_of_apart` — **a node has one account at most, and is paid once a run,
  in runs in which no two requests of a node are between lookup and the end of the
  insert**;
* `two_accounts` — two requests of a node at the same time.
-/

namespace InferPlatform.Gateway

/-! ## Answers of the billing routes -/

/-- The status and the members of the error object. -/
structure ApiError where
  status : Nat
  message : String
  type : String
  deriving DecidableEq, Repr

def internalError (msg : String) : ApiError := ⟨500, msg, "server_error"⟩

def stripeError (msg : String) : ApiError := ⟨502, msg, "stripe_error"⟩

/-- `state.db` and `state.stripe` are set. -/
structure BillingSetup where
  db : Bool
  stripe : Bool
  deriving DecidableEq, Repr

/-- `require_db` and `require_stripe`. -/
def BillingSetup.missing (setup : BillingSetup) : Option ApiError :=
  if ¬ setup.db then
    some ⟨503, "Billing requires DATABASE_URL to be configured", "service_unavailable"⟩
  else if ¬ setup.stripe then
    some ⟨503, "Billing requires STRIPE_SECRET_KEY to be configured", "service_unavailable"⟩
  else none

/-! ## The handler -/

/-- A row of `provider_stripe_accounts`. -/
structure ProviderAccount where
  id : String
  nodeId : String
  stripeAccountId : String
  onboardingComplete : Bool
  deriving DecidableEq, Repr

structure ConnectRequest where
  nodeId : String
  returnUrl : String
  refreshUrl : String
  email : Option String
  deriving DecidableEq, Repr

structure ConnectResponse where
  accountId : String
  onboardingUrl : String
  deriving DecidableEq, Repr

/-- Where a request stands: its next statement or call, or its answer; it is dropped
when the client goes away or the process stops. A request that has `givenUp` has failed,
or been dropped if there is no error, while its insert is still on the way. -/
inductive ConnectPc
  | lookup
  | relink (accountId : String)
  | createAccount
  | createLink (accountId : String)
  | insert (accountId onboardingUrl : String)
  | givenUp (accountId rowId : String) (error : Option ApiError)
  | done (status : Nat) (response : ConnectResponse)
  | failed (error : ApiError)
  | dropped
  deriving DecidableEq, Repr

structure ConnectRun where
  req : ConnectRequest
  pc : ConnectPc
  deriving DecidableEq, Repr

/-- The ids in `nodes`, the rows of `provider_stripe_accounts`, and the requests. -/
structure ConnectState where
  nodes : List String
  accounts : List ProviderAccount
  requests : List ConnectRun
  deriving DecidableEq, Repr

/-- `INSERT INTO provider_stripe_accounts`: `id` and `stripe_account_id` are unique and
`node_id` refers to a node. -/
def insertAccount (st : ConnectState) (row : ProviderAccount) : Option (List ProviderAccount) :=
  if row.id ∈ st.accounts.map (·.id) ∨
      row.stripeAccountId ∈ st.accounts.map (·.stripeAccountId) ∨ row.nodeId ∉ st.nodes then
    none
  else some (st.accounts ++ [row])

/-- One statement or call of a request. `reply` is what a call returns, or the fresh id
of the row to insert. -/
def connectAdvance (st : ConnectState) (run : ConnectRun) (o : Outcome) (reply : String) :
    ConnectState × ConnectRun :=
  let goto (pc : ConnectPc) : ConnectState × ConnectRun := (st, { run with pc })
  match run.pc with
  | .lookup =>
    if o = .ok then
      match st.accounts.find? fun a => a.nodeId = run.req.nodeId with
      | some existing =>
        if existing.onboardingComplete then
          goto (.failed ⟨409, "Stripe Connect onboarding already complete for this node",
            "invalid_request_error"⟩)
        else goto (.relink existing.stripeAccountId)
      | none => goto .createAccount
    else goto (.failed (internalError "database error"))
  | .relink accountId =>
    if o = .ok then goto (.done 200 ⟨accountId, reply⟩)
    else goto (.failed (stripeError "failed to create account link"))
  | .createAccount =>
    if o = .ok then goto (.createLink reply)
    else goto (.failed (stripeError "failed to create Connect account"))
  | .createLink accountId =>
    if o = .ok then goto (.insert accountId reply)
    else goto (.failed (stripeError "failed to create account link"))
  | .insert accountId onboardingUrl =>
    match insertAccount st ⟨reply, run.req.nodeId, accountId, false⟩, o with
    | none, _ | some _, .failed => goto (.failed (internalError "database error"))
    | some accounts, .ok =>
      ({ st with accounts }, { run with pc := .done 201 ⟨accountId, onboardingUrl⟩ })
    | some accounts, .lost =>
      ({ st with accounts }, { run with pc := .failed (internalError "database error") })
  | .givenUp _ _ _ | .done _ _ | .failed _ | .dropped => goto run.pc

/-- The request stops waiting for its insert, which the database has yet to carry out: its
connection is lost, or it is dropped. An account that Stripe still creates for a request
that is gone reaches no table. -/
def connectAbandon (run : ConnectRun) (rowId : String) (dropped : Bool) : Option ConnectRun :=
  match run.pc with
  | .insert accountId _ =>
    let error := if dropped then none else some (internalError "database error")
    some { run with pc := .givenUp accountId rowId error }
  | _ => none

/-- The database carries out the insert. -/
def connectLate (st : ConnectState) (run : ConnectRun) : Option (ConnectState × ConnectRun) :=
  match run.pc with
  | .givenUp accountId rowId error =>
    let ended := { run with pc := (error.map ConnectPc.failed).getD .dropped }
    match insertAccount st ⟨rowId, run.req.nodeId, accountId, false⟩ with
    | some accounts => some ({ st with accounts }, ended)
    | none => some (st, ended)
  | _ => none

/-- The rows after an `account.updated` event; `ok` says whether the statement succeeds. -/
def handleAccountUpdated (accounts : List ProviderAccount) (event : Json) (ok : Bool) :
    List ProviderAccount :=
  match (event.pointer ["data", "object", "id"]).bind (·.asStr) with
  | none => accounts
  | some accountId =>
    let flag (name : String) : Bool :=
      ((event.pointer ["data", "object", name]).bind (·.asBool)).getD false
    let complete := flag "charges_enabled" && flag "payouts_enabled"
    if ok then
      accounts.map fun a =>
        if a.stripeAccountId = accountId then { a with onboardingComplete := complete } else a
    else accounts

/-- The providers of a payout run: `provider_stripe_accounts` joined with `nodes`. -/
def joinProviders (st : ConnectState) : List Provider :=
  (st.accounts.filter fun a => a.onboardingComplete ∧ a.nodeId ∈ st.nodes).map fun a =>
    ⟨a.nodeId, a.stripeAccountId⟩

/-! ## The system -/

inductive ConnectAction
  | registerNode (id : String)
  | connect (req : ConnectRequest)
  | advance (i : Nat) (o : Outcome) (reply : String)
  | drop (i : Nat)
  | abandon (i : Nat) (rowId : String) (dropped : Bool)
  | late (i : Nat)
  | accountUpdated (event : Json) (ok : Bool)

def connectStep (setup : BillingSetup) (st : ConnectState) : ConnectAction → Option ConnectState
  | .registerNode id => if id ∈ st.nodes then none else some { st with nodes := st.nodes ++ [id] }
  | .connect req =>
    let pc : ConnectPc :=
      match setup.missing with
      | some error => .failed error
      | none => .lookup
    some { st with requests := st.requests ++ [⟨req, pc⟩] }
  | .advance i o reply =>
    match st.requests[i]? with
    | none => none
    | some run =>
      let next := connectAdvance st run o reply
      some { next.1 with requests := st.requests.set i next.2 }
  | .drop i =>
    match st.requests[i]? with
    | none => none
    | some run =>
      match run.pc with
      | .givenUp _ _ _ | .done _ _ | .failed _ => none
      | _ => some { st with requests := st.requests.set i { run with pc := .dropped } }
  | .abandon i rowId dropped =>
    (st.requests[i]?.bind fun run => connectAbandon run rowId dropped).map fun run =>
      { st with requests := st.requests.set i run }
  | .late i =>
    (st.requests[i]?.bind fun run => connectLate st run).map fun next =>
      { next.1 with requests := st.requests.set i next.2 }
  | .accountUpdated event ok =>
    some { st with accounts := handleAccountUpdated st.accounts event ok }

/-- All requests of a gateway, from an empty table of accounts. -/
def connects (setup : BillingSetup) : System ConnectState ConnectAction where
  init st := st.accounts = [] ∧ st.requests = []
  step := connectStep setup

/-- A node has one row at most, and no payout run has two transfers for it. -/
structure OneAccount (st : ConnectState) : Prop where
  rows : (st.accounts.map (·.nodeId)).Nodup
  transfers : ∀ cfg usage now o run,
    processPayouts cfg usage (joinProviders st) now o = .ok (some run) →
      (run.transfers.map (·.1.nodeId)).Nodup

/-- The request has found no account, and may still insert one. -/
def ConnectRun.creating (run : ConnectRun) : Bool :=
  match run.pc with
  | .createAccount | .createLink _ | .insert _ _ | .givenUp _ _ _ => true
  | .lookup | .relink _ | .done _ _ | .failed _ | .dropped => false

/-- A request looks its node up while no other request of the node is creating an
account, or has given up with its insert still on the way. -/
def Apart (st : ConnectState) : ConnectAction → Prop
  | .advance i _ _ => ∀ run ∈ st.requests[i]?, run.pc = .lookup →
      ∀ other ∈ st.requests.eraseIdx i, other.req.nodeId = run.req.nodeId → ¬ other.creating
  | .registerNode _ | .connect _ | .drop _ | .abandon _ _ _ | .late _ | .accountUpdated _ _ => True

instance (st : ConnectState) : (a : ConnectAction) → Decidable (Apart st a)
  | .advance _ _ _ => inferInstanceAs (Decidable (∀ _ ∈ _, _))
  | .registerNode _ | .connect _ | .drop _ | .abandon _ _ _ | .late _ | .accountUpdated _ _ =>
    inferInstanceAs (Decidable True)

/-! ## What a step does -/

/-- A request begins to create an account where it has found none, goes on, ends, or
stores its row. -/
inductive ConnectMove (st : ConnectState) (run : ConnectRun) : ConnectState → ConnectRun → Prop
  | enter (hpc : run.pc = .lookup) (hnone : ∀ a ∈ st.accounts, a.nodeId ≠ run.req.nodeId) :
      ConnectMove st run st { run with pc := .createAccount }
  | goOn {pc : ConnectPc} (hcreating : run.creating) : ConnectMove st run st { run with pc }
  | leave {pc : ConnectPc} (hpc : ¬ ConnectRun.creating { run with pc }) :
      ConnectMove st run st { run with pc }
  | store {row : ProviderAccount} {pc : ConnectPc} (hcreating : run.creating)
      (hnode : row.nodeId = run.req.nodeId) (hpc : ¬ ConnectRun.creating { run with pc }) :
      ConnectMove st run { st with accounts := st.accounts ++ [row] } { run with pc }

theorem insertAccount_eq_some {st : ConnectState} {row : ProviderAccount}
    {accounts : List ProviderAccount} (h : insertAccount st row = some accounts) :
    accounts = st.accounts ++ [row] := by
  unfold insertAccount at h
  split at h
  · cases h
  · exact (Option.some.inj h).symm

theorem connectAdvance_move (st : ConnectState) (run : ConnectRun) (o : Outcome) (reply : String) :
    ConnectMove st run (connectAdvance st run o reply).1 (connectAdvance st run o reply).2 := by
  obtain ⟨req, pc⟩ := run
  unfold connectAdvance
  cases pc with
  | lookup =>
      dsimp only
      split
      · split
        · split
          · exact .leave (by simp [ConnectRun.creating])
          · exact .leave (by simp [ConnectRun.creating])
        · rename_i hnone
          apply ConnectMove.enter rfl
          intro a ha
          simpa using List.find?_eq_none.mp hnone a ha
      · exact .leave (by simp [ConnectRun.creating])
  | relink accountId =>
      dsimp only
      split <;> exact .leave (by simp [ConnectRun.creating])
  | createAccount =>
      dsimp only
      split <;> exact .goOn rfl
  | createLink accountId =>
      dsimp only
      split <;> exact .goOn rfl
  | insert accountId onboardingUrl =>
      dsimp only
      split
      · exact .goOn rfl
      · exact .goOn rfl
      · rename_i accounts hstored
        rw [insertAccount_eq_some hstored]
        exact .store rfl rfl (by simp [ConnectRun.creating])
      · rename_i accounts hstored
        rw [insertAccount_eq_some hstored]
        exact .store rfl rfl (by simp [ConnectRun.creating])
  | givenUp accountId rowId error => exact .goOn rfl
  | done status response => exact .leave (by simp [ConnectRun.creating])
  | failed error => exact .leave (by simp [ConnectRun.creating])
  | dropped => exact .leave (by simp [ConnectRun.creating])

theorem connectAbandon_move (st : ConnectState) {run run' : ConnectRun} {rowId : String}
    {dropped : Bool} (h : connectAbandon run rowId dropped = some run') :
    ConnectMove st run st run' := by
  unfold connectAbandon at h
  split at h
  · rename_i hpc
    cases h
    exact .goOn (by simp [ConnectRun.creating, hpc])
  · cases h

theorem connectLate_move {st : ConnectState} {run : ConnectRun} {next : ConnectState × ConnectRun}
    (h : connectLate st run = some next) : ConnectMove st run next.1 next.2 := by
  unfold connectLate at h
  split at h
  · rename_i accountId rowId error hpc
    have hended : ¬ ConnectRun.creating
        { run with pc := (error.map ConnectPc.failed).getD .dropped } := by
      cases error <;> simp [ConnectRun.creating]
    dsimp only at h
    split at h
    · rename_i accounts hstored
      cases h
      rw [insertAccount_eq_some hstored]
      exact .store (by simp [ConnectRun.creating, hpc]) rfl hended
    · cases h
      exact .leave hended
  · cases h

theorem map_nodeId_handleAccountUpdated (accounts : List ProviderAccount) (event : Json)
    (ok : Bool) : (handleAccountUpdated accounts event ok).map (·.nodeId) =
      accounts.map (·.nodeId) := by
  unfold handleAccountUpdated
  split
  · rfl
  · dsimp only
    split
    · rw [List.map_map]
      apply List.map_congr_left
      intro a _
      dsimp only [Function.comp]
      split <;> rfl
    · rfl

/-! ## The invariant -/

/-- At most one request of a node is creating an account, and only while the node has
none. -/
structure ConnectInv (st : ConnectState) : Prop where
  rows : (st.accounts.map (·.nodeId)).Nodup
  exclusive : Exclusive (fun run => run.creating = true) (·.req.nodeId) st.requests
  noRow : ∀ (i : Nat) (run : ConnectRun), st.requests[i]? = some run → run.creating →
    run.req.nodeId ∉ st.accounts.map (·.nodeId)

/-- A request that ends, or is dropped, makes room for others. -/
theorem connectInv_leave {st : ConnectState} (hinv : ConnectInv st) (i : Nat) {run' : ConnectRun}
    (hidle : ¬ run'.creating) : ConnectInv { st with requests := st.requests.set i run' } := by
  refine ⟨hinv.rows, hinv.exclusive.set fun hbusy => absurd hbusy hidle, ?_⟩
  intro j other hother hcreating
  rcases List.getElem?_set_cases hother with ⟨-, rfl⟩ | ⟨-, hother⟩
  · exact absurd hcreating hidle
  · exact hinv.noRow j other hother hcreating

/-- A step of a request keeps the invariant. -/
theorem connectInv_move {st st' : ConnectState} {i : Nat} {run run' : ConnectRun}
    (hinv : ConnectInv st) (hrun : st.requests[i]? = some run)
    (hapart : run.pc = .lookup → ∀ other ∈ st.requests.eraseIdx i,
      other.req.nodeId = run.req.nodeId → ¬ other.creating)
    (hmove : ConnectMove st run st' run') :
    ConnectInv { st' with requests := st.requests.set i run' } := by
  cases hmove with
  | enter hpc hnone =>
      refine ⟨hinv.rows, ?_, ?_⟩
      · apply hinv.exclusive.set
        intro _ j other hj hother hkey
        have hmem := List.mem_eraseIdx_iff_getElem?.mpr ⟨j, hj, hother⟩
        exact hapart hpc other hmem hkey
      · intro j other hother hcreating
        rcases List.getElem?_set_cases hother with ⟨-, rfl⟩ | ⟨-, hother⟩
        · intro hmem
          obtain ⟨a, ha, hnode⟩ := List.mem_map.mp hmem
          exact hnone a ha hnode
        · exact hinv.noRow j other hother hcreating
  | goOn hcreating =>
      refine ⟨hinv.rows, hinv.exclusive.set_of_busy hrun hcreating rfl, ?_⟩
      intro j other hother hcreating'
      rcases List.getElem?_set_cases hother with ⟨-, rfl⟩ | ⟨-, hother⟩
      · exact hinv.noRow i run hrun hcreating
      · exact hinv.noRow j other hother hcreating'
  | leave hpc => exact connectInv_leave hinv i hpc
  | @store row _ hcreating hnode hpc =>
      have hnew := hinv.noRow i run hrun hcreating
      refine ⟨?_, hinv.exclusive.set fun hbusy => absurd hbusy hpc, ?_⟩
      · show ((st.accounts ++ [row]).map (·.nodeId)).Nodup
        rw [List.map_append, List.map_singleton, ← List.concat_eq_append, hnode]
        exact hinv.rows.concat hnew
      · intro j other hother hcreating'
        rcases List.getElem?_set_cases hother with ⟨-, rfl⟩ | ⟨hj, hother⟩
        · exact absurd hcreating' hpc
        · -- a request of another node
          have hne : other.req.nodeId ≠ run.req.nodeId := by
            intro hkey
            exact hinv.exclusive.not_busy hrun hcreating hother hkey hj hcreating'
          show other.req.nodeId ∉ (st.accounts ++ [row]).map (·.nodeId)
          rw [List.map_append, List.mem_append, not_or]
          refine ⟨hinv.noRow j other hother hcreating', ?_⟩
          simpa [hnode] using hne

theorem connectInv_step {setup : BillingSetup} {st st' : ConnectState} {a : ConnectAction}
    (hinv : ConnectInv st) (hapart : Apart st a) (hstep : connectStep setup st a = some st') :
    ConnectInv st' := by
  cases a with
  | registerNode id =>
      simp only [connectStep] at hstep
      split at hstep
      · cases hstep
      · cases hstep
        exact ⟨hinv.rows, hinv.exclusive, hinv.noRow⟩
  | connect req =>
      cases hstep
      have hidle : ¬ ConnectRun.creating ⟨req, match setup.missing with
          | some error => .failed error
          | none => .lookup⟩ := by
        cases setup.missing <;> simp [ConnectRun.creating]
      refine ⟨hinv.rows, hinv.exclusive.concat hidle, ?_⟩
      intro i run hrun hcreating
      rcases List.getElem?_concat_cases hrun with rfl | hrun
      · exact absurd hcreating hidle
      · exact hinv.noRow i run hrun hcreating
  | advance i o reply =>
      simp only [connectStep] at hstep
      cases hrun : st.requests[i]? with
      | none =>
          rw [hrun] at hstep
          cases hstep
      | some run =>
          rw [hrun] at hstep
          cases hstep
          exact connectInv_move hinv hrun (hapart run hrun) (connectAdvance_move st run o reply)
  | drop i =>
      simp only [connectStep] at hstep
      cases hrun : st.requests[i]? with
      | none =>
          rw [hrun] at hstep
          cases hstep
      | some run =>
          rw [hrun] at hstep
          dsimp only at hstep
          split at hstep
          · cases hstep
          · cases hstep
          · cases hstep
          · cases hstep
            exact connectInv_leave hinv i (by simp [ConnectRun.creating])
  | abandon i rowId dropped =>
      obtain ⟨run', hbind, rfl⟩ := Option.map_eq_some_iff.mp hstep
      obtain ⟨run, hrun, habandon⟩ := Option.bind_eq_some_iff.mp hbind
      have hlookup : run.pc ≠ .lookup := by
        intro hpc
        simp [connectAbandon, hpc] at habandon
      exact connectInv_move hinv hrun (fun hpc => absurd hpc hlookup)
        (connectAbandon_move st habandon)
  | late i =>
      obtain ⟨next, hbind, rfl⟩ := Option.map_eq_some_iff.mp hstep
      obtain ⟨run, hrun, hlate⟩ := Option.bind_eq_some_iff.mp hbind
      have hlookup : run.pc ≠ .lookup := by
        intro hpc
        simp [connectLate, hpc] at hlate
      exact connectInv_move hinv hrun (fun hpc => absurd hpc hlookup) (connectLate_move hlate)
  | accountUpdated event ok =>
      cases hstep
      refine ⟨?_, hinv.exclusive, ?_⟩
      · show ((handleAccountUpdated st.accounts event ok).map (·.nodeId)).Nodup
        rw [map_nodeId_handleAccountUpdated]
        exact hinv.rows
      · intro i run hrun hcreating
        show run.req.nodeId ∉ (handleAccountUpdated st.accounts event ok).map (·.nodeId)
        rw [map_nodeId_handleAccountUpdated]
        exact hinv.noRow i run hrun hcreating

/-! ## Payouts -/

/-- A payout run has one transfer for each provider that it reads. -/
theorem transfers_of_processPayouts {cfg : PayoutConfig} {usage : List UsageLog}
    {providers : List Provider} {now : Int} {o : PayoutOutcome} {run : PayoutRun}
    (h : processPayouts cfg usage providers now o = .ok (some run)) :
    run.transfers.map (·.1) = providers := by
  unfold processPayouts at h
  dsimp only at h
  split at h
  · cases h
  split at h
  · cases h
  split at h
  · cases h
  split at h
  · cases h
  split at h
  · cases h
  split at h
  · cases h
  · injection h with h
    injection h with h
    rw [← h, List.map_map]
    exact List.map_id _

theorem oneAccount_of_nodup {st : ConnectState} (h : (st.accounts.map (·.nodeId)).Nodup) :
    OneAccount st := by
  refine ⟨h, ?_⟩
  intro cfg usage now o run hrun
  have hnodes : run.transfers.map (·.1.nodeId) = (joinProviders st).map (·.nodeId) := by
    rw [← transfers_of_processPayouts hrun, List.map_map]
    rfl
  rw [hnodes, joinProviders, List.map_map]
  exact (List.filter_sublist.map _).nodup h

/-- **A node has one account at most, and is paid once a run**, where no two requests of
a node are creating its account at the same time. -/
theorem oneAccount_of_apart {setup : BillingSetup} {st : ConnectState}
    (h : (connects setup).ReachedBy Apart st) : OneAccount st := by
  have hinv : ConnectInv st := by
    apply h.invariant ConnectInv
    · intro s hs
      refine ⟨by simp [hs.1], ?_, ?_⟩
      · rw [hs.2]
        exact .nil
      · intro i run hrun
        simp [hs.2] at hrun
    · intro s a s' hs ha hstep
      exact connectInv_step hs ha hstep
  exact oneAccount_of_nodup hinv.rows

/-! ## Requests of one node -/

def sampleConnect : ConnectRequest :=
  ⟨"node-1", "https://infer/return", "https://infer/refresh", none⟩

def connectStart : ConnectState := ⟨["node-1"], [], []⟩

/-- A request that loses its connection before its insert is carried out, and a second one
after that, which finds the account. -/
def lateInsert : List ConnectAction :=
  [.connect sampleConnect, .advance 0 .ok "", .advance 0 .ok "acct_1",
    .advance 0 .ok "https://stripe/link", .abandon 0 "row-1" false, .connect sampleConnect, .late 0,
    .advance 1 .ok "", .advance 1 .ok "https://stripe/again"]

theorem oneAccount_of_apart_repeated : ∃ st,
    (connects ⟨true, true⟩).run Apart connectStart lateInsert = some st ∧
    st.accounts = [⟨"row-1", "node-1", "acct_1", false⟩] ∧
    st.requests.map (·.pc) = [.failed (internalError "database error"),
      .done 200 ⟨"acct_1", "https://stripe/again"⟩] ∧ OneAccount st := by
  have hrun : ((connects ⟨true, true⟩).run Apart connectStart lateInsert).map
      (fun st => (st.accounts, st.requests.map (·.pc))) =
        some ([⟨"row-1", "node-1", "acct_1", false⟩],
          [.failed (internalError "database error"),
            .done 200 ⟨"acct_1", "https://stripe/again"⟩]) := by decide +kernel
  have hinit : (connects ⟨true, true⟩).init connectStart := ⟨rfl, rfl⟩
  obtain ⟨st, hst, hreached, hvalue⟩ := System.exists_reachedBy_of_run (.init hinit) hrun
  obtain ⟨haccounts, hrequests⟩ := Prod.mk.inj hvalue
  exact ⟨st, hst, haccounts, hrequests, oneAccount_of_apart hreached⟩

/-- Two requests both look up before one of them inserts. -/
def twoConnects : List ConnectAction :=
  [.connect sampleConnect, .connect sampleConnect, .advance 0 .ok "", .advance 1 .ok "",
    .advance 0 .ok "acct_1", .advance 1 .ok "acct_2", .advance 0 .ok "https://stripe/1",
    .advance 1 .ok "https://stripe/2", .advance 0 .ok "row-1", .advance 1 .ok "row-2"]

/-- An event that completes the onboarding of an account. -/
def onboarded (accountId : String) : Json :=
  .object [("data", .object [("object", .object
    [("charges_enabled", .bool true), ("id", .string accountId), ("payouts_enabled", .bool true)])])]

/-- The accounts after the two requests, with both onboarded: one payout run pays the
node twice. -/
theorem two_accounts : ¬ ∀ st, (connects ⟨true, true⟩).Reachable st → OneAccount st := by
  have hrun : ((connects ⟨true, true⟩).run (fun _ _ => True) connectStart
      (twoConnects ++ [.accountUpdated (onboarded "acct_1") true,
        .accountUpdated (onboarded "acct_2") true])).map joinProviders =
      some [⟨"node-1", "acct_1"⟩, ⟨"node-1", "acct_2"⟩] := by decide +kernel
  intro h
  have hinit : (connects ⟨true, true⟩).init connectStart := ⟨rfl, rfl⟩
  obtain ⟨st, -, hreached, hproviders⟩ := System.exists_reachedBy_of_run (.init hinit) hrun
  have hone := h st hreached
  have htransfers := hone.transfers ⟨true, true, fun _ _ => 100⟩ [⟨0, "key-1", "m", 1, 0, 0⟩] 1
    ⟨true, true, fun _ => true⟩
  rw [hproviders] at htransfers
  exact absurd (htransfers _ rfl) (by decide)

end InferPlatform.Gateway
