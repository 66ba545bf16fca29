import InferPlatform.Gateway.Accounts

/-!
# Billing setup

The `setup` handler makes an API key a Stripe customer with a payment method and,
where a price is configured, a subscription. It returns the stored record of a key
that has one; but the record is stored last, so that a request that fails half-way
is started afresh. What a request has sent is carried out also if it no longer waits
for the answer.

* `setupAdvance` — the handler, one statement or call at a time;
* `setupAbandon`, `setupLate` — a call or statement that outlives its request;
* `setups` — any number of requests and keys;
* `setupOnce_of_oneByOne` — **a key gets one customer and one subscription at most** in
  runs in which no request of a key begins while another one of it is under way or
  after one that ended with a customer created and not stored;
* `setup_retried` — a payment method that is declined and tried again.
-/

namespace InferPlatform.Gateway

/-! ## The handler -/

/-- A row of `billing_customers`. -/
structure BillingCustomer where
  id : String
  keyId : String
  stripeCustomerId : String
  stripePaymentMethodId : String
  stripeSubscriptionId : Option String
  deriving DecidableEq, Repr

structure SetupResponse where
  customerId : String
  subscriptionId : Option String
  deriving DecidableEq, Repr

/-- A call or statement that creates something. -/
inductive SetupCall
  | customer (id : String)
  | subscription (id : String)
  | insert (rowId customerId : String) (subscriptionId : Option String)
  deriving DecidableEq, Repr

/-- Where a request stands: its next statement or call, or its answer, unless it is
dropped. Attaching a payment method takes two calls. A request that has `givenUp` has
failed, or been dropped if there is no error, while its call is still on the way. -/
inductive SetupPc
  | lookup
  | owner
  | createCustomer (owner : String)
  | attach (customerId : String)
  | setDefault (customerId : String)
  | subscribe (customerId priceId : String)
  | insert (customerId : String) (subscriptionId : Option String)
  | givenUp (call : SetupCall) (error : Option ApiError)
  | done (status : Nat) (response : SetupResponse)
  | failed (error : ApiError)
  | dropped
  deriving DecidableEq, Repr

/-- A request of an API key. -/
structure SetupRun where
  keyId : String
  paymentMethodId : String
  pc : SetupPc
  deriving DecidableEq, Repr

/-- A row of `api_keys`. -/
structure KeyOwner where
  id : String
  owner : String
  deriving DecidableEq, Repr

/-- What Stripe has created for a request: a customer or a subscription, and the key of
the request. -/
structure Created where
  keyId : String
  id : String
  deriving DecidableEq, Repr

/-- The database, what Stripe has created, and the requests. -/
structure SetupState where
  apiKeys : List KeyOwner
  rows : List BillingCustomer
  customers : List Created
  subscriptions : List Created
  requests : List SetupRun
  deriving DecidableEq, Repr

/-- `INSERT INTO billing_customers`: `id`, `key_id` and `stripe_customer_id` are unique
and `key_id` refers to a key. -/
def insertCustomer (st : SetupState) (row : BillingCustomer) : Option (List BillingCustomer) :=
  if row.id ∈ st.rows.map (·.id) ∨ row.keyId ∈ st.rows.map (·.keyId) ∨
      row.stripeCustomerId ∈ st.rows.map (·.stripeCustomerId) ∨
      row.keyId ∉ st.apiKeys.map (·.id) then
    none
  else some (st.rows ++ [row])

/-- One statement or call of a request; `priceId` is configured or not. `reply` is the
id that a call returns, or the fresh id of the row to insert. -/
def setupAdvance (priceId : Option String) (st : SetupState) (run : SetupRun) (o : Outcome)
    (reply : String) : SetupState × SetupRun :=
  let goto (st : SetupState) (pc : SetupPc) : SetupState × SetupRun := (st, { run with pc })
  match run.pc with
  | .lookup =>
    if o = .ok then
      match st.rows.find? fun row => row.keyId = run.keyId with
      | some existing =>
        goto st (.done 200 ⟨existing.stripeCustomerId, existing.stripeSubscriptionId⟩)
      | none => goto st .owner
    else goto st (.failed (internalError "database error"))
  | .owner =>
    if o = .ok then
      let owner := (st.apiKeys.find? fun key => key.id = run.keyId).map (·.owner)
      goto st (.createCustomer (owner.getD run.keyId))
    else goto st (.failed (internalError "database error"))
  | .createCustomer _ =>
    let created := { st with customers := st.customers ++ [⟨run.keyId, reply⟩] }
    match o with
    | .ok => goto created (.attach reply)
    | .failed => goto st (.failed (stripeError "failed to create Stripe customer"))
    | .lost => goto created (.failed (stripeError "failed to create Stripe customer"))
  | .attach customerId =>
    if o = .ok then goto st (.setDefault customerId)
    else goto st (.failed (stripeError "failed to attach payment method"))
  | .setDefault customerId =>
    if o = .ok then
      match priceId with
      | some priceId => goto st (.subscribe customerId priceId)
      | none => goto st (.insert customerId none)
    else goto st (.failed (stripeError "failed to attach payment method"))
  | .subscribe customerId _ =>
    let created := { st with subscriptions := st.subscriptions ++ [⟨run.keyId, reply⟩] }
    match o with
    | .ok => goto created (.insert customerId (some reply))
    | .failed => goto st (.failed (stripeError "failed to create subscription"))
    | .lost => goto created (.failed (stripeError "failed to create subscription"))
  | .insert customerId subscriptionId =>
    let row : BillingCustomer :=
      ⟨reply, run.keyId, customerId, run.paymentMethodId, subscriptionId⟩
    match insertCustomer st row, o with
    | none, _ | some _, .failed => goto st (.failed (internalError "database error"))
    | some rows, .ok => goto { st with rows } (.done 201 ⟨customerId, subscriptionId⟩)
    | some rows, .lost => goto { st with rows } (.failed (internalError "database error"))
  | .givenUp _ _ | .done _ _ | .failed _ | .dropped => goto st run.pc

/-- The request stops waiting for what it has sent, which Stripe or the database has yet to
carry out: its connection is lost, or it is dropped. -/
def setupAbandon (run : SetupRun) (reply : String) (dropped : Bool) : Option SetupRun :=
  let givenUp (call : SetupCall) (error : ApiError) : Option SetupRun :=
    some { run with pc := .givenUp call (if dropped then none else some error) }
  match run.pc with
  | .createCustomer _ => givenUp (.customer reply) (stripeError "failed to create Stripe customer")
  | .subscribe _ _ => givenUp (.subscription reply) (stripeError "failed to create subscription")
  | .insert customerId subscriptionId =>
    givenUp (.insert reply customerId subscriptionId) (internalError "database error")
  | _ => none

/-- Stripe or the database carries it out. -/
def setupLate (st : SetupState) (run : SetupRun) : Option (SetupState × SetupRun) :=
  match run.pc with
  | .givenUp call error =>
    let ended := { run with pc := (error.map SetupPc.failed).getD .dropped }
    match call with
    | .customer id => some ({ st with customers := st.customers ++ [⟨run.keyId, id⟩] }, ended)
    | .subscription id =>
      some ({ st with subscriptions := st.subscriptions ++ [⟨run.keyId, id⟩] }, ended)
    | .insert rowId customerId subscriptionId =>
      match insertCustomer st
        ⟨rowId, run.keyId, customerId, run.paymentMethodId, subscriptionId⟩ with
      | some rows => some ({ st with rows }, ended)
      | none => some (st, ended)
  | _ => none

/-! ## The system -/

inductive SetupAction
  | createKey (key : KeyOwner)
  | setup (keyId paymentMethodId : String)
  | advance (i : Nat) (o : Outcome) (reply : String)
  | drop (i : Nat)
  | abandon (i : Nat) (reply : String) (dropped : Bool)
  | late (i : Nat)
  deriving DecidableEq, Repr

def setupStep (setup : BillingSetup) (priceId : Option String) (st : SetupState) :
    SetupAction → Option SetupState
  | .createKey key =>
    if key.id ∈ st.apiKeys.map (·.id) then none
    else some { st with apiKeys := st.apiKeys ++ [key] }
  | .setup keyId paymentMethodId =>
    let pc : SetupPc :=
      match setup.missing with
      | some error => .failed error
      | none => .lookup
    some { st with requests := st.requests ++ [⟨keyId, paymentMethodId, pc⟩] }
  | .advance i o reply =>
    match st.requests[i]? with
    | none => none
    | some run =>
      let next := setupAdvance priceId st run o reply
      some { next.1 with requests := st.requests.set i next.2 }
  | .drop i =>
    match st.requests[i]? with
    | none => none
    | some run =>
      match run.pc with
      | .givenUp _ _ | .done _ _ | .failed _ => none
      | _ => some { st with requests := st.requests.set i { run with pc := .dropped } }
  | .abandon i reply dropped =>
    (st.requests[i]?.bind fun run => setupAbandon run reply dropped).map fun run =>
      { st with requests := st.requests.set i run }
  | .late i =>
    (st.requests[i]?.bind fun run => setupLate st run).map fun next =>
      { next.1 with requests := st.requests.set i next.2 }

/-- All requests of a gateway, from an empty table of customers. -/
def setups (setup : BillingSetup) (priceId : Option String) : System SetupState SetupAction where
  init st := st.rows = [] ∧ st.customers = [] ∧ st.subscriptions = [] ∧ st.requests = []
  step := setupStep setup priceId

/-- What Stripe has created for the requests of a key. -/
def createdFor (keyId : String) (created : List Created) : List Created :=
  created.filter fun c => c.keyId = keyId

/-- A key has one customer and one subscription at most, and an answer names the customer
that is stored for the key. -/
structure SetupOnce (st : SetupState) : Prop where
  customers : ∀ keyId, (createdFor keyId st.customers).length ≤ 1
  subscriptions : ∀ keyId, (createdFor keyId st.subscriptions).length ≤ 1
  answers : ∀ run ∈ st.requests, ∀ status response, run.pc = .done status response →
    ∃ row ∈ st.rows, row.keyId = run.keyId ∧ row.stripeCustomerId = response.customerId
  unique : (st.rows.map (·.keyId)).Nodup

/-- The request has found no record, and may still create or store something. -/
def SetupRun.underWay (run : SetupRun) : Bool :=
  match run.pc with
  | .owner | .createCustomer _ | .attach _ | .setDefault _ | .subscribe _ _ | .insert _ _
  | .givenUp _ _ => true
  | .lookup | .done _ _ | .failed _ | .dropped => false

/-- A request looks its key up while no other request of the key is under way, also none that
has given up with its call still on the way, and every customer that Stripe has created for
the key is stored. -/
def OneByOne (st : SetupState) : SetupAction → Prop
  | .advance i _ _ => ∀ run ∈ st.requests[i]?, run.pc = .lookup →
      (∀ other ∈ st.requests.eraseIdx i, other.keyId = run.keyId → ¬ other.underWay) ∧
        (createdFor run.keyId st.customers ≠ [] → run.keyId ∈ st.rows.map (·.keyId))
  | .createKey _ | .setup _ _ | .drop _ | .abandon _ _ _ | .late _ => True

instance (st : SetupState) : (a : SetupAction) → Decidable (OneByOne st a)
  | .advance _ _ _ => inferInstanceAs (Decidable (∀ _ ∈ _, _))
  | .createKey _ | .setup _ _ | .drop _ | .abandon _ _ _ | .late _ =>
    inferInstanceAs (Decidable True)

/-! ## The invariant -/

/-- Its customer is still to be created. -/
def SetupPc.beforeCustomer : SetupPc → Bool
  | .owner | .createCustomer _ | .givenUp (.customer _) _ => true
  | _ => false

/-- Its customer is created, its subscription is not. -/
def SetupPc.betweenCalls : SetupPc → Bool
  | .attach _ | .setDefault _ | .subscribe _ _ | .givenUp (.subscription _) _ => true
  | _ => false

/-- What holds of the records of every key. -/
structure SetupCounts (st : SetupState) : Prop where
  unique : (st.rows.map (·.keyId)).Nodup
  customers : ∀ keyId, (createdFor keyId st.customers).length ≤ 1
  subscriptions : ∀ keyId, (createdFor keyId st.subscriptions).length ≤ 1
  ordered : ∀ keyId, createdFor keyId st.customers = [] → createdFor keyId st.subscriptions = []

/-- What holds of a request. -/
structure SetupRunOk (st : SetupState) (run : SetupRun) : Prop where
  noRow : run.underWay → run.keyId ∉ st.rows.map (·.keyId)
  before : run.pc.beforeCustomer → createdFor run.keyId st.customers = []
  between : run.pc.betweenCalls →
    createdFor run.keyId st.customers ≠ [] ∧ createdFor run.keyId st.subscriptions = []
  answer : ∀ status response, run.pc = .done status response →
    ∃ row ∈ st.rows, row.keyId = run.keyId ∧ row.stripeCustomerId = response.customerId

structure SetupInv (st : SetupState) : Prop where
  counts : SetupCounts st
  exclusive : Exclusive (fun run => run.underWay = true) (·.keyId) st.requests
  runs : ∀ (i : Nat) (run : SetupRun), st.requests[i]? = some run → SetupRunOk st run

/-- A step adds records of one key only. -/
structure OnlyFor (keyId : String) (st st' : SetupState) : Prop where
  rows : ∀ row ∈ st.rows, row ∈ st'.rows
  keys : ∀ key ∈ st'.rows.map (·.keyId), key = keyId ∨ key ∈ st.rows.map (·.keyId)
  customers : ∀ key, key ≠ keyId → createdFor key st'.customers = createdFor key st.customers
  subscriptions : ∀ key, key ≠ keyId →
    createdFor key st'.subscriptions = createdFor key st.subscriptions

theorem beforeCustomer_underWay {run : SetupRun} (h : run.pc.beforeCustomer) : run.underWay := by
  obtain ⟨keyId, paymentMethodId, pc⟩ := run
  cases pc <;> first | rfl | cases h

theorem betweenCalls_underWay {run : SetupRun} (h : run.pc.betweenCalls) : run.underWay := by
  obtain ⟨keyId, paymentMethodId, pc⟩ := run
  cases pc <;> first | rfl | cases h

/-- Records of a key do not concern the requests of other keys, nor those that are not
under way. -/
theorem SetupRunOk.frame {st st' : SetupState} {keyId : String} {run : SetupRun}
    (h : SetupRunOk st run) (honly : OnlyFor keyId st st')
    (hidle : run.keyId = keyId → ¬ run.underWay) : SetupRunOk st' run := by
  have hne : run.underWay → run.keyId ≠ keyId := fun hbusy hkey => hidle hkey hbusy
  refine ⟨?_, ?_, ?_, ?_⟩
  · intro hbusy hmem
    rcases honly.keys _ hmem with hkey | hmem
    · exact hne hbusy hkey
    · exact h.noRow hbusy hmem
  · intro hbefore
    rw [honly.customers _ (hne (beforeCustomer_underWay hbefore))]
    exact h.before hbefore
  · intro hbetween
    have hkey := hne (betweenCalls_underWay hbetween)
    rw [honly.customers _ hkey, honly.subscriptions _ hkey]
    exact h.between hbetween
  · intro status response hdone
    obtain ⟨row, hrow, hrest⟩ := h.answer status response hdone
    exact ⟨row, honly.rows row hrow, hrest⟩

/-- The keys and the requests are not among the records. -/
theorem SetupInv.ofRecords {st : SetupState} {apiKeys : List KeyOwner} {requests : List SetupRun}
    (hcounts : SetupCounts st)
    (hexclusive : Exclusive (fun run => run.underWay = true) (·.keyId) requests)
    (hruns : ∀ (i : Nat) (run : SetupRun), requests[i]? = some run → SetupRunOk st run) :
    SetupInv { st with apiKeys, requests } := by
  refine ⟨?_, hexclusive, ?_⟩
  · exact ⟨hcounts.unique, hcounts.customers, hcounts.subscriptions, hcounts.ordered⟩
  · intro i run hrun
    have hok := hruns i run hrun
    exact ⟨hok.noRow, hok.before, hok.between, hok.answer⟩

/-- A step of a request that is under way adds records of its key. -/
theorem setupInv_set {st st' : SetupState} {i : Nat} {run : SetupRun} (run' : SetupRun)
    (hinv : SetupInv st) (hrun : st.requests[i]? = some run) (hbusy : run.underWay)
    (hkey : run'.keyId = run.keyId) (honly : OnlyFor run.keyId st st') (hok : SetupRunOk st' run')
    (hcounts : SetupCounts st') :
    SetupInv { st' with requests := st.requests.set i run' } := by
  apply SetupInv.ofRecords hcounts (hinv.exclusive.set_of_busy hrun hbusy hkey)
  intro j other hother
  rcases List.getElem?_set_cases hother with ⟨-, rfl⟩ | ⟨hj, hother⟩
  · exact hok
  · apply (hinv.runs j other hother).frame honly
    intro hkey
    exact hinv.exclusive.not_busy hrun hbusy hother hkey hj

/-- A step without new records. -/
theorem setupInv_goto {st : SetupState} {i : Nat} {run' : SetupRun} (hinv : SetupInv st)
    (hexclusive : Exclusive (fun run => run.underWay = true) (·.keyId) (st.requests.set i run'))
    (hok : SetupRunOk st run') : SetupInv { st with requests := st.requests.set i run' } := by
  apply SetupInv.ofRecords hinv.counts hexclusive
  intro j other hother
  rcases List.getElem?_set_cases hother with ⟨-, rfl⟩ | ⟨-, hother⟩
  · exact hok
  · exact hinv.runs j other hother

/-! ## The steps -/

theorem createdFor_concat (keyId key id : String) (l : List Created) :
    createdFor key (l ++ [⟨keyId, id⟩]) =
      if keyId = key then createdFor key l ++ [⟨keyId, id⟩] else createdFor key l := by
  by_cases h : keyId = key <;> simp [createdFor, h]

theorem createdFor_concat_of_ne {keyId key : String} (h : key ≠ keyId) (id : String)
    (l : List Created) : createdFor key (l ++ [⟨keyId, id⟩]) = createdFor key l := by
  rw [createdFor_concat, if_neg (Ne.symm h)]

/-- The request has ended without an answer from a record. -/
def SetupPc.Stopped (pc : SetupPc) : Prop := pc = .dropped ∨ ∃ error, pc = .failed error

theorem stopped_ended (error : Option ApiError) :
    ((error.map SetupPc.failed).getD .dropped).Stopped := by
  cases error with
  | none => exact .inl rfl
  | some error => exact .inr ⟨error, rfl⟩

/-- Nothing is asked of such a request. -/
theorem setupRunOk_stopped (st : SetupState) {keyId paymentMethodId : String} {pc : SetupPc}
    (hstopped : pc.Stopped) : SetupRunOk st ⟨keyId, paymentMethodId, pc⟩ := by
  rcases hstopped with rfl | ⟨error, rfl⟩
  · refine ⟨?_, ?_, ?_, ?_⟩ <;>
      simp [SetupRun.underWay, SetupPc.beforeCustomer, SetupPc.betweenCalls]
  · refine ⟨?_, ?_, ?_, ?_⟩ <;>
      simp [SetupRun.underWay, SetupPc.beforeCustomer, SetupPc.betweenCalls]

/-- A request that ends, fails or is dropped is no longer under way. -/
theorem setupInv_leave {st : SetupState} {i : Nat} {run' : SetupRun} (hinv : SetupInv st)
    (hidle : ¬ run'.underWay) (hok : SetupRunOk st run') :
    SetupInv { st with requests := st.requests.set i run' } :=
  setupInv_goto hinv (hinv.exclusive.set fun hbusy => absurd hbusy hidle) hok

/-- A request that is under way goes on. -/
theorem setupInv_goOn {st : SetupState} {i : Nat} {keyId paymentMethodId : String}
    {pc pc' : SetupPc} (hinv : SetupInv st)
    (hrun : st.requests[i]? = some ⟨keyId, paymentMethodId, pc⟩)
    (hbusy : SetupRun.underWay ⟨keyId, paymentMethodId, pc⟩)
    (hok : SetupRunOk st ⟨keyId, paymentMethodId, pc'⟩) :
    SetupInv { st with requests := st.requests.set i ⟨keyId, paymentMethodId, pc'⟩ } :=
  setupInv_goto hinv (hinv.exclusive.set_of_busy hrun hbusy rfl) hok

theorem setupInv_failed {st : SetupState} (hinv : SetupInv st) (i : Nat)
    (keyId paymentMethodId : String) (error : ApiError) :
    SetupInv { st with requests := st.requests.set i ⟨keyId, paymentMethodId, .failed error⟩ } :=
  setupInv_leave hinv (by simp [SetupRun.underWay]) (setupRunOk_stopped st (.inr ⟨error, rfl⟩))

/-- The key has a row: the answer is the customer of that row. -/
theorem setupInv_found {st : SetupState} {i : Nat} {keyId paymentMethodId : String}
    {existing : BillingCustomer} (hinv : SetupInv st)
    (hexisting : (st.rows.find? fun row => row.keyId = keyId) = some existing) :
    SetupInv { st with requests := st.requests.set i ⟨keyId, paymentMethodId,
      .done 200 ⟨existing.stripeCustomerId, existing.stripeSubscriptionId⟩⟩ } := by
  apply setupInv_leave hinv (by simp [SetupRun.underWay])
  refine ⟨by simp [SetupRun.underWay], by simp [SetupPc.beforeCustomer],
    by simp [SetupPc.betweenCalls], ?_⟩
  intro status response hdone
  injection hdone with _ hresponse
  refine ⟨existing, List.mem_of_find?_eq_some hexisting, ?_, by rw [← hresponse]⟩
  simpa using List.find?_some hexisting

/-- The key has no row: in a run one by one it has no customer either, and the request is
the only one of its key. -/
theorem setupInv_notFound {st : SetupState} {i : Nat} {keyId paymentMethodId : String}
    (hinv : SetupInv st) (hnone : (st.rows.find? fun row => row.keyId = keyId) = none)
    (halone : ∀ other ∈ st.requests.eraseIdx i, other.keyId = keyId → ¬ other.underWay)
    (hstored : createdFor keyId st.customers ≠ [] → keyId ∈ st.rows.map (·.keyId)) :
    SetupInv { st with requests := st.requests.set i ⟨keyId, paymentMethodId, .owner⟩ } := by
  have hnoRow : keyId ∉ st.rows.map (·.keyId) := by
    intro hmem
    obtain ⟨row, hrow, hkey⟩ := List.mem_map.mp hmem
    simpa [hkey] using List.find?_eq_none.mp hnone row hrow
  apply setupInv_goto hinv
  · apply hinv.exclusive.set
    intro _ j other hj hother hkey
    exact halone other (List.mem_eraseIdx_iff_getElem?.mpr ⟨j, hj, hother⟩) hkey
  · refine ⟨fun _ => hnoRow, ?_, by simp [SetupPc.betweenCalls], by simp⟩
    intro _
    by_contra hcustomers
    exact hnoRow (hstored hcustomers)

/-- A customer is created. -/
theorem setupInv_customer {st : SetupState} {i : Nat} {keyId paymentMethodId id : String}
    {before after : SetupPc} (hinv : SetupInv st)
    (hrun : st.requests[i]? = some ⟨keyId, paymentMethodId, before⟩)
    (hbefore : before.beforeCustomer) (hafter : after = .attach id ∨ after.Stopped) :
    SetupInv { st with
      customers := st.customers ++ [⟨keyId, id⟩]
      requests := st.requests.set i ⟨keyId, paymentMethodId, after⟩ } := by
  have hok := hinv.runs i _ hrun
  have hbusy : SetupRun.underWay ⟨keyId, paymentMethodId, before⟩ := beforeCustomer_underWay hbefore
  have hnone : createdFor keyId st.customers = [] := hok.before hbefore
  have hself : createdFor keyId (st.customers ++ [⟨keyId, id⟩]) = [⟨keyId, id⟩] := by
    rw [createdFor_concat, if_pos rfl, hnone]
    rfl
  have honly : OnlyFor keyId st { st with customers := st.customers ++ [⟨keyId, id⟩] } :=
    ⟨fun _ h => h, fun _ h => .inr h, fun _ hne => createdFor_concat_of_ne hne _ _,
      fun _ _ => rfl⟩
  refine setupInv_set ⟨keyId, paymentMethodId, after⟩ hinv hrun hbusy rfl honly ?_ ?_
  · rcases hafter with rfl | hstopped
    · refine ⟨fun _ => hok.noRow hbusy, by simp [SetupPc.beforeCustomer], ?_, by simp⟩
      intro _
      exact ⟨by simp [hself], hinv.counts.ordered keyId hnone⟩
    · exact setupRunOk_stopped _ hstopped
  · refine ⟨hinv.counts.unique, ?_, hinv.counts.subscriptions, ?_⟩
    · intro key
      by_cases hkey : key = keyId
      · subst hkey
        simp [hself]
      · simpa only [createdFor_concat_of_ne hkey] using hinv.counts.customers key
    · intro key hcustomers
      by_cases hkey : key = keyId
      · subst hkey
        rw [hself] at hcustomers
        cases hcustomers
      · rw [createdFor_concat_of_ne hkey] at hcustomers
        exact hinv.counts.ordered key hcustomers

/-- A subscription is created. -/
theorem setupInv_subscription {st : SetupState} {i : Nat} {keyId paymentMethodId id : String}
    {before after : SetupPc} (hinv : SetupInv st)
    (hrun : st.requests[i]? = some ⟨keyId, paymentMethodId, before⟩)
    (hbetween : before.betweenCalls)
    (hafter : (∃ customerId, after = .insert customerId (some id)) ∨ after.Stopped) :
    SetupInv { st with
      subscriptions := st.subscriptions ++ [⟨keyId, id⟩]
      requests := st.requests.set i ⟨keyId, paymentMethodId, after⟩ } := by
  have hok := hinv.runs i _ hrun
  have hbusy : SetupRun.underWay ⟨keyId, paymentMethodId, before⟩ := betweenCalls_underWay hbetween
  obtain ⟨hcustomer, hnone⟩ := hok.between hbetween
  have honly : OnlyFor keyId st { st with subscriptions := st.subscriptions ++ [⟨keyId, id⟩] } :=
    ⟨fun _ h => h, fun _ h => .inr h, fun _ _ => rfl,
      fun _ hne => createdFor_concat_of_ne hne _ _⟩
  refine setupInv_set ⟨keyId, paymentMethodId, after⟩ hinv hrun hbusy rfl honly ?_ ?_
  · rcases hafter with ⟨customerId, rfl⟩ | hstopped
    · exact ⟨fun _ => hok.noRow hbusy, by simp [SetupPc.beforeCustomer],
        by simp [SetupPc.betweenCalls], by simp⟩
    · exact setupRunOk_stopped _ hstopped
  · refine ⟨hinv.counts.unique, hinv.counts.customers, ?_, ?_⟩
    · intro key
      by_cases hkey : key = keyId
      · subst hkey
        simp [createdFor_concat, hnone]
      · simpa only [createdFor_concat_of_ne hkey] using hinv.counts.subscriptions key
    · intro key hcustomers
      have hkey : key ≠ keyId := by
        rintro rfl
        exact hcustomer hcustomers
      show createdFor key (st.subscriptions ++ [⟨keyId, id⟩]) = []
      rw [createdFor_concat_of_ne hkey]
      exact hinv.counts.ordered key hcustomers

/-- A row is stored. -/
theorem setupInv_store {st : SetupState} {i : Nat} {keyId paymentMethodId : String}
    {row : BillingCustomer} {before after : SetupPc} (hinv : SetupInv st)
    (hrun : st.requests[i]? = some ⟨keyId, paymentMethodId, before⟩)
    (hbusy : SetupRun.underWay ⟨keyId, paymentMethodId, before⟩) (hkey : row.keyId = keyId)
    (hafter : after = .done 201 ⟨row.stripeCustomerId, row.stripeSubscriptionId⟩ ∨ after.Stopped) :
    SetupInv { st with
      rows := st.rows ++ [row]
      requests := st.requests.set i ⟨keyId, paymentMethodId, after⟩ } := by
  have hok := hinv.runs i _ hrun
  have hkeys : (st.rows ++ [row]).map (·.keyId) = st.rows.map (·.keyId) ++ [keyId] := by
    rw [List.map_append, List.map_singleton, hkey]
  have honly : OnlyFor keyId st { st with rows := st.rows ++ [row] } := by
    refine ⟨fun _ h => List.mem_append_left _ h, ?_, fun _ _ => rfl, fun _ _ => rfl⟩
    intro key hmem
    replace hmem : key ∈ (st.rows ++ [row]).map (·.keyId) := hmem
    rw [hkeys, List.mem_append, List.mem_singleton] at hmem
    exact hmem.symm
  refine setupInv_set ⟨keyId, paymentMethodId, after⟩ hinv hrun hbusy rfl honly ?_ ?_
  · rcases hafter with rfl | hstopped
    · refine ⟨by simp [SetupRun.underWay], by simp [SetupPc.beforeCustomer],
        by simp [SetupPc.betweenCalls], ?_⟩
      intro status response hdone
      injection hdone with _ hresponse
      exact ⟨row, by simp, hkey, by rw [← hresponse]⟩
    · exact setupRunOk_stopped _ hstopped
  · refine ⟨?_, hinv.counts.customers, hinv.counts.subscriptions, hinv.counts.ordered⟩
    show ((st.rows ++ [row]).map (·.keyId)).Nodup
    rw [hkeys, ← List.concat_eq_append]
    exact hinv.counts.unique.concat (hok.noRow hbusy)

theorem insertCustomer_eq_some {st : SetupState} {row : BillingCustomer}
    {rows : List BillingCustomer} (h : insertCustomer st row = some rows) :
    rows = st.rows ++ [row] := by
  unfold insertCustomer at h
  split at h
  · cases h
  · exact (Option.some.inj h).symm

theorem setupInv_advance {priceId : Option String} {st : SetupState} {i : Nat} {o : Outcome}
    {reply : String} {run : SetupRun} (hinv : SetupInv st) (hrun : st.requests[i]? = some run)
    (hone : OneByOne st (.advance i o reply)) :
    SetupInv { (setupAdvance priceId st run o reply).1 with
      requests := st.requests.set i (setupAdvance priceId st run o reply).2 } := by
  have hok := hinv.runs i run hrun
  obtain ⟨keyId, paymentMethodId, pc⟩ := run
  have hfail := setupInv_failed hinv i keyId paymentMethodId
  unfold setupAdvance
  cases pc with
  | lookup =>
      dsimp only
      split
      · split
        · rename_i existing hexisting
          exact setupInv_found hinv hexisting
        · rename_i hnone
          obtain ⟨halone, hstored⟩ := hone _ hrun rfl
          exact setupInv_notFound hinv hnone halone hstored
      · exact hfail _
  | owner =>
      dsimp only
      split
      · apply setupInv_goOn hinv hrun rfl
        exact ⟨fun _ => hok.noRow rfl, fun _ => hok.before rfl, by simp [SetupPc.betweenCalls],
          by simp⟩
      · exact hfail _
  | createCustomer owner =>
      dsimp only
      split
      · exact setupInv_customer hinv hrun rfl (.inl rfl)
      · exact hfail _
      · exact setupInv_customer hinv hrun rfl (.inr (.inr ⟨_, rfl⟩))
  | attach customerId =>
      dsimp only
      split
      · apply setupInv_goOn hinv hrun rfl
        exact ⟨fun _ => hok.noRow rfl, by simp [SetupPc.beforeCustomer],
          fun _ => hok.between rfl, by simp⟩
      · exact hfail _
  | setDefault customerId =>
      dsimp only
      split
      · split
        · apply setupInv_goOn hinv hrun rfl
          exact ⟨fun _ => hok.noRow rfl, by simp [SetupPc.beforeCustomer],
            fun _ => hok.between rfl, by simp⟩
        · apply setupInv_goOn hinv hrun rfl
          exact ⟨fun _ => hok.noRow rfl, by simp [SetupPc.beforeCustomer],
            by simp [SetupPc.betweenCalls], by simp⟩
      · exact hfail _
  | subscribe customerId price =>
      dsimp only
      split
      · exact setupInv_subscription hinv hrun rfl (.inl ⟨_, rfl⟩)
      · exact hfail _
      · exact setupInv_subscription hinv hrun rfl (.inr (.inr ⟨_, rfl⟩))
  | insert customerId subscriptionId =>
      dsimp only
      split
      · exact hfail _
      · exact hfail _
      · rename_i rows hrows
        rw [insertCustomer_eq_some hrows]
        exact setupInv_store hinv hrun rfl rfl (.inl rfl)
      · rename_i rows hrows
        rw [insertCustomer_eq_some hrows]
        exact setupInv_store hinv hrun rfl rfl (.inr (.inr ⟨_, rfl⟩))
  | givenUp call error => exact setupInv_goOn hinv hrun rfl hok
  | done status response => exact setupInv_leave hinv (by simp [SetupRun.underWay]) hok
  | failed error => exact hfail error
  | dropped => exact setupInv_leave hinv (by simp [SetupRun.underWay]) hok

/-- A request that gives up still has its call on the way. -/
theorem setupInv_abandon {st : SetupState} {i : Nat} {run run' : SetupRun} {reply : String}
    {dropped : Bool} (hinv : SetupInv st) (hrun : st.requests[i]? = some run)
    (h : setupAbandon run reply dropped = some run') :
    SetupInv { st with requests := st.requests.set i run' } := by
  have hok := hinv.runs i run hrun
  obtain ⟨keyId, paymentMethodId, pc⟩ := run
  unfold setupAbandon at h
  dsimp only at h
  split at h
  · cases h
    apply setupInv_goOn hinv hrun rfl
    exact ⟨fun _ => hok.noRow rfl, fun _ => hok.before rfl, by simp [SetupPc.betweenCalls], by simp⟩
  · cases h
    apply setupInv_goOn hinv hrun rfl
    exact ⟨fun _ => hok.noRow rfl, by simp [SetupPc.beforeCustomer], fun _ => hok.between rfl,
      by simp⟩
  · cases h
    apply setupInv_goOn hinv hrun rfl
    exact ⟨fun _ => hok.noRow rfl, by simp [SetupPc.beforeCustomer],
      by simp [SetupPc.betweenCalls], by simp⟩
  · cases h

/-- What was on the way is created or stored, or its row is refused. -/
theorem setupInv_late {st : SetupState} {i : Nat} {run : SetupRun} {next : SetupState × SetupRun}
    (hinv : SetupInv st) (hrun : st.requests[i]? = some run) (h : setupLate st run = some next) :
    SetupInv { next.1 with requests := st.requests.set i next.2 } := by
  obtain ⟨keyId, paymentMethodId, pc⟩ := run
  unfold setupLate at h
  dsimp only at h
  split at h
  · rename_i call error
    have hended := stopped_ended error
    split at h
    · cases h
      exact setupInv_customer hinv hrun rfl (.inr hended)
    · cases h
      exact setupInv_subscription hinv hrun rfl (.inr hended)
    · split at h
      · rename_i rows hrows
        cases h
        rw [insertCustomer_eq_some hrows]
        exact setupInv_store hinv hrun rfl rfl (.inr hended)
      · cases h
        have hidle : ¬ SetupRun.underWay
            ⟨keyId, paymentMethodId, (error.map SetupPc.failed).getD .dropped⟩ := by
          cases error <;> simp [SetupRun.underWay]
        exact setupInv_leave hinv hidle (setupRunOk_stopped st hended)
  · cases h

/-- A new request looks its key up, or fails at once. -/
theorem setupInv_setup {st : SetupState} {keyId paymentMethodId : String} {pc : SetupPc}
    (hinv : SetupInv st) (hpc : pc = .lookup ∨ ∃ error, pc = .failed error) :
    SetupInv { st with requests := st.requests ++ [⟨keyId, paymentMethodId, pc⟩] } := by
  have hidle : ¬ SetupRun.underWay ⟨keyId, paymentMethodId, pc⟩ := by
    rcases hpc with rfl | ⟨error, rfl⟩ <;> simp [SetupRun.underWay]
  have hokNew : SetupRunOk st ⟨keyId, paymentMethodId, pc⟩ := by
    rcases hpc with rfl | hfailed
    · refine ⟨?_, ?_, ?_, ?_⟩ <;>
        simp [SetupRun.underWay, SetupPc.beforeCustomer, SetupPc.betweenCalls]
    · exact setupRunOk_stopped st (.inr hfailed)
  apply SetupInv.ofRecords hinv.counts (hinv.exclusive.concat hidle)
  intro i run hrun
  rcases List.getElem?_concat_cases hrun with rfl | hrun
  · exact hokNew
  · exact hinv.runs i run hrun

theorem setupInv_step {setup : BillingSetup} {priceId : Option String} {st st' : SetupState}
    {a : SetupAction} (hinv : SetupInv st) (hone : OneByOne st a)
    (hstep : setupStep setup priceId st a = some st') : SetupInv st' := by
  cases a with
  | createKey key =>
      simp only [setupStep] at hstep
      split at hstep
      · cases hstep
      · cases hstep
        exact SetupInv.ofRecords hinv.counts hinv.exclusive hinv.runs
  | setup keyId paymentMethodId =>
      cases hstep
      apply setupInv_setup hinv
      cases setup.missing with
      | none => exact .inl rfl
      | some error => exact .inr ⟨error, rfl⟩
  | advance i o reply =>
      simp only [setupStep] at hstep
      cases hrun : st.requests[i]? with
      | none =>
          rw [hrun] at hstep
          cases hstep
      | some run =>
          rw [hrun] at hstep
          cases hstep
          exact setupInv_advance hinv hrun hone
  | drop i =>
      simp only [setupStep] at hstep
      cases hrun : st.requests[i]? with
      | none =>
          rw [hrun] at hstep
          cases hstep
      | some run =>
          rw [hrun] at hstep
          dsimp only at hstep
          split at hstep
          · cases hstep
          · cases hstep
          · cases hstep
          · cases hstep
            exact setupInv_leave hinv (by simp [SetupRun.underWay])
              (setupRunOk_stopped st (.inl rfl))
  | abandon i reply dropped =>
      obtain ⟨run', hbind, rfl⟩ := Option.map_eq_some_iff.mp hstep
      obtain ⟨run, hrun, habandon⟩ := Option.bind_eq_some_iff.mp hbind
      exact setupInv_abandon hinv hrun habandon
  | late i =>
      obtain ⟨next, hbind, rfl⟩ := Option.map_eq_some_iff.mp hstep
      obtain ⟨run, hrun, hlate⟩ := Option.bind_eq_some_iff.mp hbind
      exact setupInv_late hinv hrun hlate

/-- **A key gets one customer and one subscription at most**, and every answer names the
customer that is stored, where the requests of a key come one by one and none comes after
one that ended with a customer created and not stored. -/
theorem setupOnce_of_oneByOne {setup : BillingSetup} {priceId : Option String} {st : SetupState}
    (h : (setups setup priceId).ReachedBy OneByOne st) : SetupOnce st := by
  have hinv : SetupInv st := by
    apply h.invariant SetupInv
    · intro s hs
      obtain ⟨hrows, hcustomers, hsubscriptions, hrequests⟩ := hs
      refine ⟨?_, ?_, ?_⟩
      · refine ⟨?_, ?_, ?_, ?_⟩ <;> simp [hrows, hcustomers, hsubscriptions, createdFor]
      · rw [hrequests]
        exact .nil
      · intro i run hrun
        simp [hrequests] at hrun
    · intro s a s' hs ha hstep
      exact setupInv_step hs ha hstep
  refine ⟨hinv.counts.customers, hinv.counts.subscriptions, ?_, hinv.counts.unique⟩
  intro run hrun
  obtain ⟨i, hi⟩ := List.mem_iff_getElem?.mp hrun
  exact (hinv.runs i run hi).answer

/-! ## A key with a card that is declined -/

def setupStart : SetupState := ⟨[⟨"key-1", "alice"⟩], [], [], [], []⟩

/-- The statements and calls of request `i`, all of which succeed. -/
def completeSetup (i : Nat) (customerId subscriptionId rowId : String) : List SetupAction :=
  [.advance i .ok "", .advance i .ok "", .advance i .ok customerId, .advance i .ok "",
    .advance i .ok "", .advance i .ok subscriptionId, .advance i .ok rowId]

/-- A request whose client goes away while its record is on the way to the table. -/
def lateRecord : List SetupAction :=
  [.setup "key-1" "pm_1", .advance 0 .ok "", .advance 0 .ok "", .advance 0 .ok "cus_1",
    .advance 0 .ok "", .advance 0 .ok "", .advance 0 .ok "sub_1", .abandon 0 "row-1" true, .late 0]

/-- A request after that one gets the stored customer. -/
theorem setupOnce_of_oneByOne_repeated : ∃ st,
    (setups ⟨true, true⟩ (some "price_1")).run OneByOne setupStart
      (lateRecord ++ [.setup "key-1" "pm_1", .advance 1 .ok ""]) = some st ∧
    st.requests.map (·.pc) = [.dropped, .done 200 ⟨"cus_1", some "sub_1"⟩] ∧ SetupOnce st := by
  have hrun : ((setups ⟨true, true⟩ (some "price_1")).run OneByOne setupStart
      (lateRecord ++ [.setup "key-1" "pm_1", .advance 1 .ok ""])).map
        (fun st => st.requests.map (·.pc)) =
      some [.dropped, .done 200 ⟨"cus_1", some "sub_1"⟩] := by decide +kernel
  have hinit : (setups ⟨true, true⟩ (some "price_1")).init setupStart := ⟨rfl, rfl, rfl, rfl⟩
  obtain ⟨st, hst, hreached, hrequests⟩ := System.exists_reachedBy_of_run (.init hinit) hrun
  exact ⟨st, hst, hrequests, setupOnce_of_oneByOne hreached⟩

/-- A request whose payment method Stripe does not attach, and the next one. -/
def declinedThenRetried : List SetupAction :=
  [.setup "key-1" "pm_declined", .advance 0 .ok "", .advance 0 .ok "", .advance 0 .ok "cus_1",
    .advance 0 .failed "", .setup "key-1" "pm_1"] ++ completeSetup 1 "cus_2" "sub_1" "row-1"

/-- The second request creates a second customer. -/
theorem setup_retried :
    ¬ ∀ st, (setups ⟨true, true⟩ (some "price_1")).Reachable st → SetupOnce st := by
  have hrun : ((setups ⟨true, true⟩ (some "price_1")).run (fun _ _ => True) setupStart
      declinedThenRetried).map (·.customers) =
      some [⟨"key-1", "cus_1"⟩, ⟨"key-1", "cus_2"⟩] := by decide +kernel
  intro h
  have hinit : (setups ⟨true, true⟩ (some "price_1")).init setupStart := ⟨rfl, rfl, rfl, rfl⟩
  obtain ⟨st, -, hreached, hcustomers⟩ := System.exists_reachedBy_of_run (.init hinit) hrun
  have honce := (h st hreached).customers "key-1"
  rw [hcustomers] at honce
  exact absurd honce (by decide)

end InferPlatform.Gateway
