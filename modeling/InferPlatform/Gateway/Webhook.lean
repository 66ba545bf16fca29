import InferPlatform.Gateway.Accounts
import InferPlatform.Gateway.Signature

/-!
# Webhooks

Stripe reports changes of a Connect account through a webhook, more than once and in no
fixed order. Each `account.updated` event is written to the row of its account as it
comes; its `created` time is not looked at. So the event that was received last decides
whether the account is paid.

* `stripeWebhook` — the handler;
* `receiveAll_eq` — **the flag of an account is that of its event received last**;
* `not_newestDecides_older_last` — an older event that comes after a newer one.
-/

namespace InferPlatform.Gateway

/-- A request to the handler. The header is there if it is text. -/
structure WebhookRequest where
  stripeSignature : Option String
  body : List UInt8
  deriving DecidableEq, Repr

section

variable (hmac : List UInt8 → List UInt8 → List UInt8) (fromSlice : List UInt8 → Option Json)

/-- The check of the signature. Without a secret there is none. -/
def checkSignature (webhookSecret : String) (req : WebhookRequest) : Except ApiError Unit :=
  if webhookSecret = "" then .ok ()
  else
    match req.stripeSignature with
    | none => .error ⟨400, "Missing Stripe-Signature header", "invalid_request_error"⟩
    | some sig =>
      match validateWebhookSignature hmac req.body sig webhookSecret with
      | .error _ => .error ⟨400, "Invalid webhook signature", "invalid_request_error"⟩
      | .ok false =>
        .error ⟨401, "Webhook signature verification failed", "authentication_error"⟩
      | .ok true => .ok ()

/-- `event["type"]`. -/
def eventType (event : Json) : String := ((event.get? "type").bind (·.asStr)).getD "unknown"

/-- `stripe_webhook`: the rows of `provider_stripe_accounts`, if there is a database, and
the answer. `webhookSecret` is there if Stripe is configured; `ok` says whether the
statement succeeds. -/
def stripeWebhook (webhookSecret : Option String) (db : Option (List ProviderAccount))
    (req : WebhookRequest) (ok : Bool) : Option (List ProviderAccount) × Except ApiError Nat :=
  match webhookSecret with
  | none =>
    (db, .error ⟨503, "Billing requires STRIPE_SECRET_KEY to be configured",
      "service_unavailable"⟩)
  | some secret =>
    match checkSignature hmac secret req with
    | .error e => (db, .error e)
    | .ok () =>
      match fromSlice req.body with
      | none => (db, .error ⟨400, "Invalid JSON payload", "invalid_request_error"⟩)
      | some event =>
        -- `invoice.payment_failed` only touches `billing_customers`
        if eventType event = "account.updated" then
          (db.map fun accounts => handleAccountUpdated accounts event ok, .ok 200)
        else (db, .ok 200)

/-- The handler receives requests one after the other, in the order of their statements;
all of these succeed. -/
def receiveAll (webhookSecret : Option String) :
    Option (List ProviderAccount) → List WebhookRequest →
      Option (List ProviderAccount) × List (Except ApiError Nat)
  | db, [] => (db, [])
  | db, req :: reqs =>
    let received := stripeWebhook hmac fromSlice webhookSecret db req true
    let rest := receiveAll webhookSecret received.1 reqs
    (rest.1, received.2 :: rest.2)

/-- The request carries an `account.updated` event, and its signature is valid. -/
structure Delivers (secret : String) (req : WebhookRequest) (event : Json) : Prop where
  signed : checkSignature hmac secret req = .ok ()
  parsed : fromSlice req.body = some event
  updated : eventType event = "account.updated"

/-! ## What an event says -/

/-- The account of an event. -/
def eventAccount (event : Json) : Option String :=
  (event.pointer ["data", "object", "id"]).bind (·.asStr)

def eventFlag (event : Json) (name : String) : Bool :=
  ((event.pointer ["data", "object", name]).bind (·.asBool)).getD false

/-- The account can charge and be paid. -/
def eventComplete (event : Json) : Bool :=
  eventFlag event "charges_enabled" && eventFlag event "payouts_enabled"

def eventCreated (event : Json) : Option UInt64 := (event.get? "created").bind (·.asU64)

/-- The events of an account, in the order in which they are received. -/
def eventsOf (account : String) (events : List Json) : List Json :=
  events.filter fun e => eventAccount e = some account

/-- The row of an account after all events. -/
def lastReceived (events : List Json) (a : ProviderAccount) : ProviderAccount :=
  { a with
    onboardingComplete :=
      ((eventsOf a.stripeAccountId events).getLast?.map eventComplete).getD
        a.onboardingComplete }

/-- The flag of an account is that of its event with the greatest `created` time. -/
def NewestDecides (events : List Json) (accounts : List ProviderAccount) : Prop :=
  ∀ a ∈ accounts, ∀ e ∈ eventsOf a.stripeAccountId events,
    (∀ e' ∈ eventsOf a.stripeAccountId events, e' = e ∨
      ∃ t' t, eventCreated e' = some t' ∧ eventCreated e = some t ∧ t' < t) →
    a.onboardingComplete = eventComplete e

/-! ## One event after the other -/

/-- An event sets the flag of its account. -/
theorem handleAccountUpdated_eq (accounts : List ProviderAccount) (event : Json) :
    handleAccountUpdated accounts event true = accounts.map (lastReceived [event]) := by
  have hrow : ∀ a, lastReceived [event] a =
      if eventAccount event = some a.stripeAccountId then
        { a with onboardingComplete := eventComplete event }
      else a := by
    intro a
    by_cases haccount : eventAccount event = some a.stripeAccountId
    · simp [lastReceived, eventsOf, haccount]
    · simp [lastReceived, eventsOf, haccount]
  unfold handleAccountUpdated
  split
  · rename_i hnone
    have hsame : ∀ a, lastReceived [event] a = a := by
      intro a
      rw [hrow, if_neg]
      rw [eventAccount, hnone]
      exact Option.some_ne_none _ |>.symm
    rw [List.map_congr_left fun a _ => hsame a, List.map_id']
  · rename_i accountId haccount
    rw [if_pos rfl]
    apply List.map_congr_left
    intro a _
    rw [hrow, eventAccount, haccount]
    by_cases hid : a.stripeAccountId = accountId
    · rw [if_pos hid, if_pos (congrArg some hid.symm)]
      rfl
    · rw [if_neg hid, if_neg fun h => hid (Option.some.inj h).symm]

/-- A later event is written over what the earlier ones left. -/
theorem lastReceived_cons (event : Json) (events : List Json) (a : ProviderAccount) :
    lastReceived events (lastReceived [event] a) = lastReceived (event :: events) a := by
  have hsplit : eventsOf a.stripeAccountId (event :: events) =
      eventsOf a.stripeAccountId [event] ++ eventsOf a.stripeAccountId events :=
    List.filter_append [event] events
  simp only [lastReceived, hsplit, List.getLast?_append]
  cases (eventsOf a.stripeAccountId events).getLast? with
  | none => simp
  | some e => simp

/-- An event of a valid request is written and answered. -/
theorem Delivers.stripeWebhook_eq {secret : String} {req : WebhookRequest} {event : Json}
    (h : Delivers hmac fromSlice secret req event) (accounts : List ProviderAccount) :
    stripeWebhook hmac fromSlice (some secret) (some accounts) req true =
      (some (accounts.map (lastReceived [event])), .ok 200) := by
  simp only [stripeWebhook, h.signed, h.parsed, if_pos h.updated, Option.map_some,
    handleAccountUpdated_eq]

/-- **The flag of an account is that of its event received last**, in whatever order and
however often the events are received. -/
theorem receiveAll_eq (secret : String) (accounts : List ProviderAccount)
    (reqs : List WebhookRequest) (events : List Json)
    (h : List.Forall₂ (Delivers hmac fromSlice secret) reqs events) :
    receiveAll hmac fromSlice (some secret) (some accounts) reqs =
      (some (accounts.map (lastReceived events)), reqs.map fun _ => .ok 200) := by
  induction h generalizing accounts with
  | nil =>
      have hsame : accounts.map (lastReceived []) = accounts := List.map_id' accounts
      rw [hsame]
      rfl
  | cons hreq _ ih =>
      rw [receiveAll, hreq.stripeWebhook_eq]
      simp only [ih, List.map_map, List.map_cons]
      congr 2
      apply List.map_congr_left
      intro a _
      exact lastReceived_cons _ _ a

end

/-! ## Two events of one account -/

/-- An event of the account `acct_1`, and its text. -/
def accountUpdated (created : UInt64) (complete : Bool) : Json :=
  .object
    [("created", .number (.posInt created)),
      ("data", .object [("object", .object
        [("charges_enabled", .bool complete), ("id", .string "acct_1"),
          ("payouts_enabled", .bool complete)])]),
      ("type", .string "account.updated")]

def newerBody : List UInt8 :=
  Utf8.encode ("\x7b\"created\":200,\"data\":\x7b\"object\":\x7b\"charges_enabled\":true," ++
    "\"id\":\"acct_1\",\"payouts_enabled\":true\x7d\x7d,\"type\":\"account.updated\"\x7d").toList

def olderBody : List UInt8 :=
  Utf8.encode ("\x7b\"created\":100,\"data\":\x7b\"object\":\x7b\"charges_enabled\":false," ++
    "\"id\":\"acct_1\",\"payouts_enabled\":false\x7d\x7d,\"type\":\"account.updated\"\x7d").toList

/-- `serde_json` on both texts. -/
def readEvent (body : List UInt8) : Option Json :=
  if body = newerBody then some (accountUpdated 200 true)
  else if body = olderBody then some (accountUpdated 100 false)
  else none

/-- `HMAC-SHA256` with the key `whsec_test`, on both texts at the time `201`. -/
def eventMac (key message : List UInt8) : List UInt8 :=
  if key ≠ Utf8.encode "whsec_test".toList then []
  else if message = macInput "201" newerBody then
    [230, 141, 75, 147, 51, 231, 66, 234, 225, 110, 101, 123, 246, 162, 53, 7,
      174, 126, 86, 210, 209, 15, 88, 66, 180, 99, 45, 67, 7, 214, 23, 194]
  else if message = macInput "201" olderBody then
    [161, 22, 137, 225, 106, 136, 129, 43, 47, 121, 211, 231, 157, 164, 131, 244,
      232, 182, 106, 79, 51, 85, 232, 90, 40, 62, 117, 250, 16, 180, 71, 129]
  else []

def newerRequest : WebhookRequest :=
  ⟨some "t=201,v1=e68d4b9333e742eae16e657bf6a23507ae7e56d2d10f5842b4632d4307d617c2", newerBody⟩

def olderRequest : WebhookRequest :=
  ⟨some "t=201,v1=a11689e16a88812b2f79d3e79da483f4e8b66a4f3355e85a283e75fa10b44781", olderBody⟩

def acct1 (onboardingComplete : Bool) : ProviderAccount :=
  ⟨"row-1", "node-1", "acct_1", onboardingComplete⟩

theorem delivers_newer :
    Delivers eventMac readEvent "whsec_test" newerRequest (accountUpdated 200 true) where
  signed := by decide +kernel
  parsed := by
    dsimp only [newerRequest]
    rw [readEvent, if_pos rfl]
  updated := by decide +kernel

theorem delivers_older :
    Delivers eventMac readEvent "whsec_test" olderRequest (accountUpdated 100 false) where
  signed := by decide +kernel
  parsed := by
    have hne : olderBody ≠ newerBody := by decide +kernel
    dsimp only [olderRequest]
    rw [readEvent, if_neg hne, if_pos rfl]
  updated := by decide +kernel

theorem receiveAll_newer_twice :
    receiveAll eventMac readEvent (some "whsec_test") (some [acct1 false])
        [newerRequest, olderRequest, newerRequest] =
      (some ([acct1 false].map
        (lastReceived [accountUpdated 200 true, accountUpdated 100 false,
          accountUpdated 200 true])), [.ok 200, .ok 200, .ok 200]) :=
  receiveAll_eq eventMac readEvent "whsec_test" [acct1 false]
    [newerRequest, olderRequest, newerRequest]
    [accountUpdated 200 true, accountUpdated 100 false, accountUpdated 200 true]
    (.cons delivers_newer (.cons delivers_older (.cons delivers_newer .nil)))

theorem stripeWebhook_newer : stripeWebhook eventMac readEvent (some "whsec_test")
    (some [acct1 false]) newerRequest true = (some [acct1 true], .ok 200) := by
  rw [delivers_newer.stripeWebhook_eq]
  rfl

theorem stripeWebhook_older : stripeWebhook eventMac readEvent (some "whsec_test")
    (some [acct1 true]) olderRequest true = (some [acct1 false], .ok 200) := by
  rw [delivers_older.stripeWebhook_eq]
  rfl

/-- The older event comes last, and its flag stays. -/
theorem not_newestDecides_older_last :
    receiveAll eventMac readEvent (some "whsec_test") (some [acct1 false])
        [newerRequest, olderRequest] = (some [acct1 false], [.ok 200, .ok 200]) ∧
      ¬ NewestDecides [accountUpdated 200 true, accountUpdated 100 false] [acct1 false] := by
  refine ⟨?_, ?_⟩
  · simp only [receiveAll, stripeWebhook_newer, stripeWebhook_older]
  · intro hnewest
    have hflag := hnewest (acct1 false) List.mem_cons_self (accountUpdated 200 true)
      (List.mem_filter.mpr ⟨List.mem_cons_self, by decide⟩) ?_
    · exact absurd hflag (by decide)
    · intro e' he'
      have hmem := (List.mem_filter.mp he').1
      rcases List.mem_cons.mp hmem with rfl | hmem
      · exact .inl rfl
      · rw [List.mem_singleton.mp hmem]
        exact .inr ⟨100, 200, rfl, rfl, by decide⟩

end InferPlatform.Gateway
