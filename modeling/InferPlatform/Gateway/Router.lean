import InferPlatform.Base.Separator
import InferPlatform.Gateway.ApiKeys
import InferPlatform.Gateway.License

/-!
# The router

Requests come in by method and path, through one of two layers or none. The layer over the
consumer's routes lets in the tokens of issued keys; the one over the internal routes lets
in one secret, and behind it keys are issued and revoked.

* `fromEnv` — the tokens and the secret that the gateway starts with;
* `route`, `serve` — what a request is for, and whether its layer lets it through;
* `Brings` — the header that the layers read a token from;
* `gateway` — any sequence of requests to a gateway with a database;
* `exists_follows` — the requests go through a run of the keys;
* `served_iff_granted` — **whatever the requests, a token is let in while a request with
  the secret has issued it and none has revoked it since**;
* `served_in_memory_iff` — without a database, the keys of the environment are let in.
-/

namespace InferPlatform.Gateway

/-! ## The environment -/

/-- `INFER_API_KEYS`, split at commas, without white space and empty pieces. -/
def apiKeysOf (raw : String) : List String :=
  (((raw.toList.splitOn ',').map (Lines.trim isWhitespace)).filter fun piece => piece ≠ []).map
    String.ofList

/-- The keys and the secret of `AppState::from_env`, from the two variables and the
database. Without a database there has to be a key. -/
def fromEnv (inferApiKeys inferInternalKey : Option String) (db : Option ApiKeyTable) :
    Except String (KeyStore × String) :=
  let apiKeys := apiKeysOf (inferApiKeys.getD "")
  if db = none ∧ apiKeys = [] then
    .error "INFER_API_KEYS must be set when DATABASE_URL is not configured (dev mode)"
  else .ok (⟨db, apiKeys⟩, inferInternalKey.getD "internal_dev_secret")

/-! ## Routes -/

inductive Method
  | get
  | head
  | post
  | delete
  | options
  | other
  deriving DecidableEq, Repr

/-- The handlers, of which `createKey` is `keys::create` and so on. -/
inductive Handler
  | completions
  | listModels
  | getModel
  | setup
  | register
  | listNodes
  | createKey
  | listKeys
  | revokeKey
  | usageSummary
  | listLicenses
  | providerStats
  | analytics
  | modelsStats
  | connect
  | ping
  | check
  | stripeWebhook
  deriving DecidableEq, Repr

inductive Layer
  | requireApiKey
  | requireInternalKey
  deriving DecidableEq, Repr

structure Route where
  path : String
  method : Method
  handler : Handler
  deriving DecidableEq, Repr

def authed : List Route :=
  [⟨"/v1/chat/completions", .post, .completions⟩,
    ⟨"/v1/models", .get, .listModels⟩,
    ⟨"/v1/models/:id", .get, .getModel⟩,
    ⟨"/v1/billing/setup", .post, .setup⟩]

def internal : List Route :=
  [⟨"/v1/internal/nodes", .post, .register⟩,
    ⟨"/v1/internal/nodes", .get, .listNodes⟩,
    ⟨"/v1/internal/keys", .post, .createKey⟩,
    ⟨"/v1/internal/keys", .get, .listKeys⟩,
    ⟨"/v1/internal/keys/:id", .delete, .revokeKey⟩,
    ⟨"/v1/internal/usage", .get, .usageSummary⟩,
    ⟨"/v1/internal/licenses", .get, .listLicenses⟩,
    ⟨"/v1/internal/provider/stats", .get, .providerStats⟩,
    ⟨"/v1/internal/analytics/consumer", .get, .analytics⟩,
    ⟨"/v1/internal/models/stats", .get, .modelsStats⟩,
    ⟨"/v1/internal/billing/connect", .post, .connect⟩]

/-- The routes without a layer; the signature of a webhook is checked by its handler. -/
def unguarded : List Route :=
  [⟨"/ping", .get, .ping⟩,
    ⟨"/health", .get, .check⟩,
    ⟨"/v1/webhooks/stripe", .post, .stripeWebhook⟩]

def buildRouter : List (Option Layer × Route) :=
  authed.map (some .requireApiKey, ·) ++ internal.map (some .requireInternalKey, ·) ++
    unguarded.map (none, ·)

def segments (path : String) : List (List Char) := path.toList.splitOn '/'

/-- The parameters of a path, if it is of the pattern: a segment with a colon stands for any
that is not empty. -/
def matchPath : List (List Char) → List (List Char) → Option (List String)
  | [], [] => some []
  | (':' :: _) :: pattern, segment :: path =>
    if segment = [] then none
    else (matchPath pattern path).map fun params => String.ofList segment :: params
  | static :: pattern, segment :: path => if static = segment then matchPath pattern path else none
  | _, _ => none

/-- A route for `GET` takes `HEAD` too. -/
def Route.params (r : Route) (method : Method) (path : String) : Option (List String) :=
  if method = r.method ∨ method = .head ∧ r.method = .get then
    matchPath (segments r.path) (segments path)
  else none

/-- What a request is for: a handler, with the parameters of the path, or an answer of the
router's own. -/
inductive Endpoint
  | handler (handler : Handler) (params : List String)
  | methodNotAllowed
  | notFound
  deriving DecidableEq, Repr

def handlerFor (method : Method) (path : String) : Option (Option Layer × Endpoint) :=
  buildRouter.findSome? fun (layer, r) =>
    (r.params method path).map fun params => (layer, .handler r.handler params)

/-- The layer of a request and what is behind it. A layer lies over all methods of its paths.
What has no route goes to the fallback of the router that was merged last, so through its
layer. -/
def route (method : Method) (path : String) : Option Layer × Endpoint :=
  match handlerFor method path with
  | some found => found
  | none =>
    match buildRouter.find? fun (_, r) => (matchPath (segments r.path) (segments path)).isSome with
    | some (layer, _) => (layer, .methodNotAllowed)
    | none => (some .requireInternalKey, .notFound)

/-! ## Requests -/

/-- A request, with what the layers and the handlers of keys read for it: the body, if it
is one for a new key, fresh bytes and ids, the clock, and the answers to statements. -/
structure HttpRequest where
  method : Method
  path : String
  authorization : Option (List UInt8)
  createBody : Option Keys.CreateKeyRequest
  createInput : Keys.CreateInput
  now : Int
  update : Outcome
  validateOk : Bool
  limiter : Option (Auth.ValidatedKey → Except Unit Bool)

/-- A preflight request is answered before the layers. Any other is let through to what it is
for, with the key that its layer has found, or answered by the layer. A handler may still
turn down a body or a parameter that it cannot read. -/
inductive Routed
  | preflight
  | letThrough (endpoint : Endpoint) (key : Option Auth.ValidatedKey)
  | refused (e : Auth.AuthError)
  deriving DecidableEq, Repr

/-- The bytes of a header that `to_str` takes for text. -/
def isVisibleAscii (b : UInt8) : Bool := 32 ≤ b ∧ b < 127 ∨ b = 9

/-- `HeaderValue::to_str`. -/
def HeaderValue.toStr (bytes : List UInt8) : Option String :=
  if bytes.all isVisibleAscii then some (String.ofList (bytes.map Utf8.asciiChar)) else none

/-- The header as the layers read it. -/
def HttpRequest.header (req : HttpRequest) : Option String :=
  req.authorization.bind HeaderValue.toStr

/-- `require_internal_key`: whether the request goes on. -/
def Auth.requireInternalKey (internalKey : String) (header : Option String) : Bool :=
  Auth.extractBearer header = some internalKey

section

-- the digest, and how a parameter of a path is decoded
variable (sha256 : List UInt8 → List UInt8) (decode : String → Option String)

def serve (internalKey : String) (st : KeyStore) (req : HttpRequest) : Routed :=
  if req.method = .options then .preflight
  else
    match route req.method req.path with
    | (none, endpoint) => .letThrough endpoint none
    | (some .requireApiKey, endpoint) =>
      match Auth.requireApiKey sha256 st req.header req.validateOk req.limiter with
      | .next key => .letThrough endpoint (some key)
      | .respond e => .refused e
    | (some .requireInternalKey, endpoint) =>
      if Auth.requireInternalKey internalKey req.header then .letThrough endpoint none
      else .refused ⟨401, "Invalid internal key", "authentication_error", none⟩

/-- The keys after a request. Of all handlers two write them, if they can read the request. -/
def keysAfter (internalKey : String) (st : KeyStore) (req : HttpRequest) : KeyStore :=
  match serve sha256 internalKey st req, req.createBody with
  | .letThrough (.handler .createKey _) _, some body =>
    (Keys.create sha256 st body req.createInput).1
  | .letThrough (.handler .revokeKey [id]) _, _ =>
    match decode id with
    | some id => (Keys.revoke st id req.now req.update).1
    | none => st
  | _, _ => st

/-- A gateway with a database, from an empty table on, with the requests so far, the newest
first. -/
def gateway (internalKey : String) : System (KeyStore × List HttpRequest) HttpRequest :=
  ({ init := fun st => st.db = some .empty
     step := fun st req => some (keysAfter sha256 decode internalKey st req) } :
    System KeyStore HttpRequest).observed [] fun log _ req _ => req :: log

end

/-! ## What the requests say -/

/-- A text that may stand in a header. -/
def Visible (text : String) : Prop :=
  ∀ c ∈ text.toList, 32 ≤ c.toNat ∧ c.toNat < 127 ∨ c = '\t'

/-- The request brings the token in its header, and it can be read there. -/
structure Brings (req : HttpRequest) (token : String) : Prop where
  header : req.authorization = some (Utf8.encode ("Bearer " ++ token).toList)
  visible : Visible token

/-- The request has the secret and asks for a new key; this token, id and limit would be
its. -/
structure Issues (internalKey : String) (req : HttpRequest) (token id : String) (rpm : Int32) :
    Prop where
  method : req.method = .post
  path : req.path = "/v1/internal/keys"
  authorization : Brings req internalKey
  body : ∃ body, req.createBody = some body ∧ body.rateLimitRpm = rpm
  token : req.createInput.rawKey = token
  id : req.createInput.keyId = id

/-- The request has the secret and asks to revoke the key of the id. -/
structure Revokes (decode : String → Option String) (internalKey : String) (req : HttpRequest)
    (id : String) : Prop where
  method : req.method = .delete
  path : ∃ segment : String, req.path = "/v1/internal/keys/" ++ segment ∧ segment ≠ "" ∧
    '/' ∉ segment.toList ∧ decode segment = some id
  authorization : Brings req internalKey

/-- A request has issued the token with this id and limit, and none after it has revoked
the id. -/
def Granted (decode : String → Option String) (internalKey : String) (log : List HttpRequest)
    (token id : String) (rpm : Int32) : Prop :=
  ∃ later earlier req, log = later ++ req :: earlier ∧ Issues internalKey req token id rpm ∧
    ∀ req' ∈ later, ¬ Revokes decode internalKey req' id

/-- Statements succeed, and a request for a new key draws a token and an id that no request
before it has drawn. -/
structure RequestsInOrder (internalKey : String) (used : String → Prop)
    (s : KeyStore × List HttpRequest) (req : HttpRequest) : Prop where
  update : req.update = .ok
  insert : req.createInput.insert = .ok
  drawn : ∀ token id rpm, Issues internalKey req token id rpm → used token ∧
    ∀ req' ∈ s.2, ∀ token' id' rpm', Issues internalKey req' token' id' rpm' →
      token ≠ token' ∧ id ≠ id'

theorem granted_cons {decode : String → Option String} {internalKey : String}
    {req : HttpRequest} {log : List HttpRequest} {token id : String} {rpm : Int32} :
    Granted decode internalKey (req :: log) token id rpm ↔
      Issues internalKey req token id rpm ∨
        Granted decode internalKey log token id rpm ∧ ¬ Revokes decode internalKey req id := by
  constructor
  · rintro ⟨later, earlier, issuer, hsplit, hissues, hlater⟩
    cases later with
    | nil =>
        obtain ⟨rfl, -⟩ := List.cons.inj hsplit
        exact .inl hissues
    | cons first later =>
        obtain ⟨rfl, hrest⟩ := List.cons.inj hsplit
        refine .inr ⟨⟨later, earlier, issuer, hrest, hissues, ?_⟩, ?_⟩
        · intro req' hmem
          exact hlater req' (List.mem_cons_of_mem _ hmem)
        · exact hlater req List.mem_cons_self
  · rintro (hissues | ⟨⟨later, earlier, issuer, rfl, hissues, hlater⟩, hkept⟩)
    · exact ⟨[], log, req, rfl, hissues, by simp⟩
    · refine ⟨req :: later, earlier, issuer, rfl, hissues, ?_⟩
      intro req' hmem
      rcases List.mem_cons.mp hmem with rfl | hmem
      · exact hkept
      · exact hlater req' hmem

/-! ## Headers and paths -/

theorem isVisibleAscii_iff {b : UInt8} :
    isVisibleAscii b = true ↔ 32 ≤ b.toNat ∧ b.toNat < 127 ∨ b.toNat = 9 := by
  rw [isVisibleAscii, decide_eq_true_eq, UInt8.le_iff_toNat_le, UInt8.lt_iff_toNat_lt,
    ← UInt8.toNat_inj]
  rfl

theorem Visible.ascii {text : String} (h : Visible text) : ∀ c ∈ text.toList, c.toNat < 0x80 := by
  intro c hc
  rcases h c hc with hrange | rfl
  · omega
  · decide

theorem isVisibleAscii_asciiChar {b : UInt8} (h : b.toNat < 0x80) :
    isVisibleAscii b = true ↔ 32 ≤ (Utf8.asciiChar b).toNat ∧ (Utf8.asciiChar b).toNat < 127 ∨
      Utf8.asciiChar b = '\t' := by
  rw [isVisibleAscii_iff, Utf8.toNat_asciiChar h, ← Char.toNat_inj, Utf8.toNat_asciiChar h]
  rfl

/-- A header is read as a text if it is the encoding of it and all characters are visible. -/
theorem toStr_eq_some {bytes : List UInt8} {text : String} :
    HeaderValue.toStr bytes = some text ↔
      bytes = Utf8.encode text.toList ∧ Visible text := by
  unfold HeaderValue.toStr
  constructor
  · intro h
    split at h
    · rename_i hall
      obtain rfl := Option.some.inj h
      have hascii : ∀ b ∈ bytes, b.toNat < 0x80 := by
        intro b hb
        have hvisible := isVisibleAscii_iff.mp (List.all_eq_true.mp hall b hb)
        omega
      rw [Visible, String.toList_ofList]
      refine ⟨(Utf8.encode_map_asciiChar hascii).symm, ?_⟩
      intro c hc
      obtain ⟨b, hb, rfl⟩ := List.mem_map.mp hc
      exact (isVisibleAscii_asciiChar (hascii b hb)).mp (List.all_eq_true.mp hall b hb)
    · cases h
  · rintro ⟨rfl, hvisible⟩
    have hchars := Utf8.map_asciiChar_encode hvisible.ascii
    rw [if_pos, hchars, String.ofList_toList]
    apply List.all_eq_true.mpr
    intro b hb
    obtain ⟨c, hc, hsame⟩ := Utf8.exists_of_mem_encode hvisible.ascii hb
    rw [isVisibleAscii_iff, ← hsame]
    exact (hvisible c hc).imp_right fun htab => congrArg Char.toNat htab

theorem extractBearer_eq_some {header : Option String} {token : String} :
    Auth.extractBearer header = some token ↔ header = some ("Bearer " ++ token) := by
  constructor
  · intro h
    obtain ⟨v, rfl, hv⟩ := Option.bind_eq_some_iff.mp h
    obtain ⟨rest, hrest, rfl⟩ := Option.map_eq_some_iff.mp hv
    obtain ⟨first, hsplit, hfirst⟩ := List.dropPrefix?_eq_some_iff.mp hrest
    rw [eq_of_beq hfirst] at hsplit
    rw [← String.ofList_toList (s := v), hsplit, String.ofList_append, String.ofList_toList]
  · rintro rfl
    exact extractBearer_bearer token

/-- The layers read the token that a request brings. -/
theorem extractBearer_iff_brings {req : HttpRequest} {token : String} :
    Auth.extractBearer req.header = some token ↔ Brings req token := by
  rw [extractBearer_eq_some, HttpRequest.header, Option.bind_eq_some_iff]
  constructor
  · rintro ⟨bytes, hbytes, htext⟩
    obtain ⟨rfl, hvisible⟩ := toStr_eq_some.mp htext
    refine ⟨hbytes, ?_⟩
    intro c hc
    exact hvisible c (by rw [String.toList_append]; exact List.mem_append_right _ hc)
  · rintro ⟨hheader, hvisible⟩
    refine ⟨_, hheader, toStr_eq_some.mpr ⟨rfl, ?_⟩⟩
    have hread : HeaderValue.toStr (Utf8.encode "Bearer ".toList) = some "Bearer " := by
      decide +kernel
    have hbearer := (toStr_eq_some.mp hread).2
    intro c hc
    rw [String.toList_append] at hc
    exact (List.mem_append.mp hc).elim (hbearer c) (hvisible c)

/-- A path is made of its segments. -/
theorem segments_injective : Function.Injective segments := by
  intro path path' h
  have hjoin := congrArg (List.intercalate ['/']) h
  rw [segments, segments, List.intercalate_splitOn, List.intercalate_splitOn] at hjoin
  exact String.toList_inj.mp hjoin

/-- Segments without a colon stand for themselves. -/
theorem matchPath_static_append {static : List (List Char)}
    (h : ∀ s ∈ static, s.head? ≠ some ':') {pattern path : List (List Char)}
    {params : List String} :
    matchPath (static ++ pattern) path = some params ↔
      ∃ rest, path = static ++ rest ∧ matchPath pattern rest = some params := by
  induction static generalizing path with
  | nil => simp
  | cons segment static ih =>
      have hsegment := h segment List.mem_cons_self
      have hstatic : ∀ s ∈ static, s.head? ≠ some ':' := by
        intro s hs
        exact h s (List.mem_cons_of_mem _ hs)
      cases path with
      | nil => simp [matchPath]
      | cons segment' path =>
          rw [List.cons_append,
            matchPath.eq_3 _ _ _ _ (by rintro name rfl; exact hsegment rfl)]
          by_cases hsame : segment = segment'
          · rw [if_pos hsame, ih hstatic, hsame]
            simp
          · rw [if_neg hsame]
            simp [Ne.symm hsame]

/-- A parameter at the end stands for one segment. -/
theorem matchPath_param {name : List Char} {path : List (List Char)} {params : List String} :
    matchPath [':' :: name] path = some params ↔
      ∃ segment ≠ [], path = [segment] ∧ params = [String.ofList segment] := by
  cases path with
  | nil => simp [matchPath]
  | cons segment path =>
      by_cases hsegment : segment = []
      · simp [matchPath, hsegment]
      · cases path with
        | nil => simp [matchPath, hsegment, eq_comm]
        | cons _ _ => simp [matchPath, hsegment]

/-! ## The handlers of keys -/

/-- What is routed to a handler is so by a route of it. -/
theorem exists_of_route {method : Method} {path : String} {layer : Option Layer}
    {handler : Handler} {params : List String}
    (h : route method path = (layer, .handler handler params)) :
    ∃ r, (layer, r) ∈ buildRouter ∧ r.handler = handler ∧ r.params method path = some params := by
  unfold route at h
  split at h
  · rename_i hfound
    rw [h] at hfound
    obtain ⟨⟨layer', r⟩, hr, hparams⟩ := List.exists_of_findSome?_eq_some hfound
    obtain ⟨params', hparams', heq⟩ := Option.map_eq_some_iff.mp hparams
    cases heq
    exact ⟨r, hr, rfl, hparams'⟩
  · split at h <;> cases h

theorem route_createKey {method : Method} {path : String} {layer : Option Layer}
    {params : List String} (h : route method path = (layer, .handler .createKey params)) :
    layer = some .requireInternalKey ∧ method = .post ∧ path = "/v1/internal/keys" := by
  obtain ⟨r, hr, hhandler, hparams⟩ := exists_of_route h
  obtain ⟨rfl, rfl⟩ : layer = some .requireInternalKey ∧
      r = ⟨"/v1/internal/keys", .post, .createKey⟩ := by
    have hall : ∀ route ∈ buildRouter, route.2.handler = .createKey →
        route = (some .requireInternalKey, ⟨"/v1/internal/keys", .post, .createKey⟩) := by decide
    exact Prod.mk.inj (hall _ hr hhandler)
  simp only [Route.params, reduceCtorEq, and_false, or_false] at hparams
  split at hparams
  · rename_i hmethod
    have hpath : segments path = segments "/v1/internal/keys" := by
      rw [← List.append_nil (segments "/v1/internal/keys")] at hparams
      obtain ⟨rest, hrest, hnil⟩ := (matchPath_static_append (by decide)).mp hparams
      cases rest with
      | nil => simpa using hrest
      | cons _ _ => simp [matchPath] at hnil
    exact ⟨rfl, hmethod, segments_injective hpath⟩
  · cases hparams

theorem segments_keys {segment : String} (h : '/' ∉ segment.toList) :
    segments ("/v1/internal/keys/" ++ segment) =
      segments "/v1/internal/keys" ++ [segment.toList] := by
  have hpath : ("/v1/internal/keys/" ++ segment).toList =
      "/v1/internal/keys".toList ++ '/' :: segment.toList := String.toList_append
  rw [segments, hpath, Separator.splitOn_append_cons h, segments]

theorem keys_of_segments {path : String} {segment : List Char}
    (h : segments path = segments "/v1/internal/keys" ++ [segment]) :
    path = "/v1/internal/keys/" ++ String.ofList segment ∧ '/' ∉ segment := by
  have hsegment : '/' ∉ segment := by
    have hmem : segment ∈ segments path := by
      rw [h]
      exact List.mem_append_right _ List.mem_cons_self
    exact Separator.notMem_of_mem_splitOn hmem
  refine ⟨segments_injective ?_, hsegment⟩
  rw [h, segments_keys (by rwa [String.toList_ofList]), String.toList_ofList]

/-- The only route for `DELETE`. -/
theorem route_delete {path : String} {segment : String} (hsegment : segment ≠ "")
    (hslash : '/' ∉ segment.toList) (hpath : path = "/v1/internal/keys/" ++ segment) :
    route .delete path = (some .requireInternalKey, .handler .revokeKey [segment]) := by
  have hmatch : matchPath (segments "/v1/internal/keys/:id") (segments path) = some [segment] := by
    have hpattern : segments "/v1/internal/keys/:id" =
        segments "/v1/internal/keys" ++ [":id".toList] := by decide
    rw [hpath, segments_keys hslash, hpattern]
    apply (matchPath_static_append (by decide)).mpr
    refine ⟨_, rfl, matchPath_param.mpr ⟨segment.toList, ?_, rfl, ?_⟩⟩
    · simpa using hsegment
    · rw [String.ofList_toList]
  simp [route, handlerFor, buildRouter, authed, internal, unguarded, Route.params, hmatch]

theorem route_revokeKey {method : Method} {path : String} {layer : Option Layer}
    {params : List String} (h : route method path = (layer, .handler .revokeKey params)) :
    layer = some .requireInternalKey ∧ method = .delete ∧ ∃ segment : String,
      path = "/v1/internal/keys/" ++ segment ∧ segment ≠ "" ∧ '/' ∉ segment.toList ∧
        params = [segment] := by
  obtain ⟨r, hr, hhandler, hparams⟩ := exists_of_route h
  obtain ⟨rfl, rfl⟩ : layer = some .requireInternalKey ∧
      r = ⟨"/v1/internal/keys/:id", .delete, .revokeKey⟩ := by
    have hall : ∀ route ∈ buildRouter, route.2.handler = .revokeKey →
        route = (some .requireInternalKey, ⟨"/v1/internal/keys/:id", .delete, .revokeKey⟩) := by
      decide
    exact Prod.mk.inj (hall _ hr hhandler)
  simp only [Route.params, reduceCtorEq, and_false, or_false] at hparams
  split at hparams
  · rename_i hmethod
    have hpattern : segments "/v1/internal/keys/:id" =
        segments "/v1/internal/keys" ++ [":id".toList] := by decide
    rw [hpattern] at hparams
    obtain ⟨rest, hrest, hparam⟩ := (matchPath_static_append (by decide)).mp hparams
    obtain ⟨segment, hsegment, rfl, rfl⟩ := matchPath_param.mp hparam
    obtain ⟨hpath, hslash⟩ := keys_of_segments hrest
    refine ⟨rfl, hmethod, String.ofList segment, hpath, ?_, ?_, rfl⟩
    · simpa using hsegment
    · rwa [String.toList_ofList]
  · cases hparams

/-! ## What a request does -/

section Runs

variable {sha256 : List UInt8 → List UInt8} {decode : String → Option String}
  {internalKey : String} {used : String → Prop}

theorem requireInternalKey_iff {req : HttpRequest} :
    Auth.requireInternalKey internalKey req.header = true ↔ Brings req internalKey := by
  rw [Auth.requireInternalKey, decide_eq_true_eq, extractBearer_iff_brings]

/-- A request is let through as it is routed, and by the layer of the internal routes only with
the secret. -/
theorem exists_of_letThrough {st : KeyStore} {req : HttpRequest} {endpoint : Endpoint}
    {key : Option Auth.ValidatedKey}
    (h : serve sha256 internalKey st req = .letThrough endpoint key) :
    ∃ layer, route req.method req.path = (layer, endpoint) ∧
      (layer = some .requireInternalKey → Brings req internalKey) := by
  unfold serve at h
  split at h
  · cases h
  split at h
  · rename_i hroute
    cases h
    exact ⟨none, hroute, by simp⟩
  · rename_i hroute
    split at h
    · cases h
      exact ⟨some .requireApiKey, hroute, by simp⟩
    · cases h
  · rename_i hroute
    split at h
    · rename_i hsecret
      cases h
      exact ⟨some .requireInternalKey, hroute, fun _ => requireInternalKey_iff.mp hsecret⟩
    · cases h

theorem serve_internal {st : KeyStore} {req : HttpRequest} {endpoint : Endpoint}
    (hmethod : req.method ≠ .options)
    (hroute : route req.method req.path = (some .requireInternalKey, endpoint))
    (hsecret : Brings req internalKey) :
    serve sha256 internalKey st req = .letThrough endpoint none := by
  unfold serve
  rw [if_neg hmethod, hroute]
  exact if_pos (requireInternalKey_iff.mpr hsecret)

/-- A request issues a key, revokes one, or leaves the keys. -/
inductive RequestMove (sha256 : List UInt8 → List UInt8) (decode : String → Option String)
    (internalKey : String) (st : KeyStore) (req : HttpRequest) : KeyStore → Prop
  | issue {body : Keys.CreateKeyRequest}
      (hissues : ∀ token id rpm, Issues internalKey req token id rpm ↔
        req.createInput.rawKey = token ∧ req.createInput.keyId = id ∧ body.rateLimitRpm = rpm)
      (hrevokes : ∀ id, ¬ Revokes decode internalKey req id) :
      RequestMove sha256 decode internalKey st req (Keys.create sha256 st body req.createInput).1
  | revoke {id : String} (hissues : ∀ token id rpm, ¬ Issues internalKey req token id rpm)
      (hrevokes : ∀ id', Revokes decode internalKey req id' ↔ id' = id) :
      RequestMove sha256 decode internalKey st req (Keys.revoke st id req.now req.update).1
  | leave (hissues : ∀ token id rpm, ¬ Issues internalKey req token id rpm)
      (hrevokes : ∀ id, ¬ Revokes decode internalKey req id) :
      RequestMove sha256 decode internalKey st req st

theorem issues_iff {req : HttpRequest} {token id : String} {rpm : Int32}
    {body : Keys.CreateKeyRequest} (h : Issues internalKey req token id rpm)
    (hbody : req.createBody = some body) (token' id' : String) (rpm' : Int32) :
    Issues internalKey req token' id' rpm' ↔
      req.createInput.rawKey = token' ∧ req.createInput.keyId = id' ∧
        body.rateLimitRpm = rpm' := by
  constructor
  · intro h'
    obtain ⟨body', hbody', hrpm⟩ := h'.body
    obtain rfl : body = body' := Option.some.inj (hbody.symm.trans hbody')
    exact ⟨h'.token, h'.id, hrpm⟩
  · rintro ⟨htoken, hid, hrpm⟩
    exact ⟨h.method, h.path, h.authorization, ⟨body, hbody, hrpm⟩, htoken, hid⟩

theorem revokes_iff {req : HttpRequest} {id : String}
    (h : Revokes decode internalKey req id) (id' : String) :
    Revokes decode internalKey req id' ↔ id' = id := by
  constructor
  · intro h'
    obtain ⟨segment, hpath, -, -, hdecode⟩ := h.path
    obtain ⟨segment', hpath', -, -, hdecode'⟩ := h'.path
    have hsame : segment = segment' := by
      have heq := congrArg String.toList (hpath.symm.trans hpath')
      rw [String.toList_append, String.toList_append] at heq
      exact String.toList_inj.mp (List.append_cancel_left heq)
    rw [← hsame, hdecode] at hdecode'
    exact (Option.some.inj hdecode').symm
  · rintro rfl
    exact h

theorem keysAfter_of_issues {st : KeyStore} {req : HttpRequest} {token id : String}
    {rpm : Int32} {body : Keys.CreateKeyRequest} (h : Issues internalKey req token id rpm)
    (hbody : req.createBody = some body) :
    keysAfter sha256 decode internalKey st req =
      (Keys.create sha256 st body req.createInput).1 := by
  have hroute : route req.method req.path =
      (some .requireInternalKey, .handler .createKey []) := by
    rw [h.method, h.path]
    decide
  have hmethod : req.method ≠ .options := by simp [h.method]
  unfold keysAfter
  rw [serve_internal hmethod hroute h.authorization, hbody]

theorem keysAfter_of_revokes {st : KeyStore} {req : HttpRequest} {id : String}
    (h : Revokes decode internalKey req id) :
    keysAfter sha256 decode internalKey st req =
      (Keys.revoke st id req.now req.update).1 := by
  obtain ⟨segment, hpath, hsegment, hslash, hdecode⟩ := h.path
  have hroute : route req.method req.path =
      (some .requireInternalKey, .handler .revokeKey [segment]) := by
    rw [h.method]
    exact route_delete hsegment hslash hpath
  have hmethod : req.method ≠ .options := by simp [h.method]
  unfold keysAfter
  rw [serve_internal hmethod hroute h.authorization]
  simp only [hdecode]

/-- A request without the secret, or for another handler. -/
theorem keysAfter_eq_self {st : KeyStore} {req : HttpRequest}
    (hissues : ∀ token id rpm, ¬ Issues internalKey req token id rpm)
    (hrevokes : ∀ id, ¬ Revokes decode internalKey req id) :
    keysAfter sha256 decode internalKey st req = st := by
  unfold keysAfter
  split
  · rename_i body hserve hbody
    obtain ⟨layer, hroute, hsecret⟩ := exists_of_letThrough hserve
    obtain ⟨rfl, hmethod, hpath⟩ := route_createKey hroute
    exact absurd ⟨hmethod, hpath, hsecret rfl, ⟨body, hbody, rfl⟩, rfl, rfl⟩ (hissues _ _ _)
  · rename_i param _ hserve
    obtain ⟨layer, hroute, hsecret⟩ := exists_of_letThrough hserve
    obtain ⟨rfl, hmethod, segment, hpath, hsegment, hslash, hparams⟩ := route_revokeKey hroute
    obtain rfl : param = segment := List.singleton_inj.mp hparams
    split
    · rename_i id hdecode
      exact absurd ⟨hmethod, ⟨param, hpath, hsegment, hslash, hdecode⟩, hsecret rfl⟩ (hrevokes id)
    · rfl
  · rfl

theorem requestMove (st : KeyStore) (req : HttpRequest) :
    RequestMove sha256 decode internalKey st req
      (keysAfter sha256 decode internalKey st req) := by
  by_cases hissue : ∃ token id rpm, Issues internalKey req token id rpm
  · obtain ⟨token, id, rpm, hissues⟩ := hissue
    obtain ⟨body, hbody, -⟩ := hissues.body
    rw [keysAfter_of_issues hissues hbody]
    refine .issue (issues_iff hissues hbody) ?_
    intro id' hrevokes
    have hmethod := hissues.method.symm.trans hrevokes.method
    cases hmethod
  have hissues : ∀ token id rpm, ¬ Issues internalKey req token id rpm := by
    intro token id rpm h
    exact hissue ⟨token, id, rpm, h⟩
  by_cases hrevoke : ∃ id, Revokes decode internalKey req id
  · obtain ⟨id, hrevokes⟩ := hrevoke
    rw [keysAfter_of_revokes hrevokes]
    exact .revoke hissues (revokes_iff hrevokes)
  have hrevokes : ∀ id, ¬ Revokes decode internalKey req id := by
    intro id h
    exact hrevoke ⟨id, h⟩
  rw [keysAfter_eq_self hissues hrevokes]
  exact .leave hissues hrevokes

/-! ## Requests as a history of keys -/

/-- The requests have gone through this run of the keys. -/
structure Follows (sha256 : List UInt8 → List UInt8) (decode : String → Option String)
    (internalKey : String) (used : String → Prop) (s : KeyStore × List HttpRequest)
    (history : List KeyEvent) : Prop where
  run : (keyRuns sha256).ReachedBy (KeysInOrder used) (s.1, history)
  live : ∀ token id rpm, Live history token id rpm ↔ Granted decode internalKey s.2 token id rpm
  issued : ∀ token id rpm, .issued token id rpm ∈ history →
    ∃ req ∈ s.2, Issues internalKey req token id rpm

theorem Follows.logged {s : KeyStore × List HttpRequest} {history : List KeyEvent}
    (h : Follows sha256 decode internalKey used s history) (req : HttpRequest) {token id : String}
    {rpm : Int32} (hmem : .issued token id rpm ∈ history) :
    ∃ req' ∈ req :: s.2, Issues internalKey req' token id rpm := by
  obtain ⟨req', hreq', hissues⟩ := h.issued token id rpm hmem
  exact ⟨req', List.mem_cons_of_mem _ hreq', hissues⟩

theorem Follows.issue (hno : NoCollision sha256 used) {s : KeyStore × List HttpRequest}
    {history : List KeyEvent} (h : Follows sha256 decode internalKey used s history)
    {req : HttpRequest} (hallowed : RequestsInOrder internalKey used s req)
    {body : Keys.CreateKeyRequest}
    (hissues : ∀ token id rpm, Issues internalKey req token id rpm ↔
      req.createInput.rawKey = token ∧ req.createInput.keyId = id ∧ body.rateLimitRpm = rpm)
    (hrevokes : ∀ id, ¬ Revokes decode internalKey req id) :
    Follows sha256 decode internalKey used
      ((Keys.create sha256 s.1 body req.createInput).1, req :: s.2)
      (.issued req.createInput.rawKey req.createInput.keyId body.rateLimitRpm :: history) := by
  have hnew := (hissues _ _ _).mpr ⟨rfl, rfl, rfl⟩
  obtain ⟨hused, hfresh⟩ := hallowed.drawn _ _ _ hnew
  have hdrawn : ∀ token id rpm, .issued token id rpm ∈ history →
      req.createInput.rawKey ≠ token ∧ req.createInput.keyId ≠ id := by
    intro token id rpm hmem
    obtain ⟨req', hreq', hissues'⟩ := h.issued token id rpm hmem
    exact hfresh req' hreq' _ _ _ hissues'
  obtain ⟨table, hdb, hmirrors⟩ := exists_mirrors hno h.run
  obtain ⟨table', hinsert, -⟩ := hmirrors.insert hno body hused hdrawn
  have hcreate := Keys.create_of_insert hdb hallowed.insert hinsert
  have hnote : noteKeys sha256 history s.1 (.create body req.createInput)
      (Keys.create sha256 s.1 body req.createInput).1 =
      .issued req.createInput.rawKey req.createInput.keyId body.rateLimitRpm :: history := by
    rw [noteKeys, hcreate]
  refine ⟨?_, ?_, ?_⟩
  · rw [← hnote]
    exact .step (a := .create body req.createInput) h.run ⟨hallowed.insert, hused, hdrawn⟩ rfl
  · intro token id rpm
    rw [live_cons, granted_cons, h.live, hissues]
    simp [hrevokes]
  · intro token id rpm hmem
    rcases List.mem_cons.mp hmem with heq | hmem
    · cases heq
      exact ⟨req, List.mem_cons_self, hnew⟩
    · exact h.logged req hmem

theorem Follows.revoke (hno : NoCollision sha256 used) {s : KeyStore × List HttpRequest}
    {history : List KeyEvent} (h : Follows sha256 decode internalKey used s history)
    {req : HttpRequest} (hallowed : RequestsInOrder internalKey used s req) {id : String}
    (hissues : ∀ token id' rpm, ¬ Issues internalKey req token id' rpm)
    (hrevokes : ∀ id', Revokes decode internalKey req id' ↔ id' = id) :
    ∃ history', Follows sha256 decode internalKey used
      ((Keys.revoke s.1 id req.now req.update).1, req :: s.2) history' := by
  obtain ⟨table, hdb, hmirrors⟩ := exists_mirrors hno h.run
  have hrevoke := Keys.revoke_of_db hdb id req.now
  have hrun := System.ReachedBy.step (a := KeyAction.revoke id req.now .ok) h.run rfl rfl
  rw [hallowed.update]
  by_cases haffected : table.rowsAffected id = 0
  · -- no token of the id is live, so nothing is lost
    have hnote : noteKeys sha256 history s.1 (.revoke id req.now .ok)
        (Keys.revoke s.1 id req.now .ok).1 = history := by
      rw [noteKeys, hrevoke, if_pos haffected]
    refine ⟨history, ?_, ?_, ?_⟩
    · rw [← hnote]
      exact hrun
    · intro token id' rpm
      rw [granted_cons, ← h.live, hrevokes]
      constructor
      · intro hlive
        refine .inr ⟨hlive, ?_⟩
        rintro rfl
        exact hmirrors.rowsAffected.mp haffected token rpm hlive
      · rintro (hnew | ⟨hlive, -⟩)
        · exact absurd hnew (hissues token id' rpm)
        · exact hlive
    · intro token id' rpm hmem
      exact h.logged req hmem
  · have hnote : noteKeys sha256 history s.1 (.revoke id req.now .ok)
        (Keys.revoke s.1 id req.now .ok).1 = .revoked id req.now :: history := by
      rw [noteKeys, hrevoke, if_neg haffected]
    refine ⟨.revoked id req.now :: history, ?_, ?_, ?_⟩
    · rw [← hnote]
      exact hrun
    · intro token id' rpm
      rw [live_cons, granted_cons, ← h.live, hrevokes]
      simp [hissues, eq_comm]
    · intro token id' rpm hmem
      exact h.logged req (by simpa using hmem)

theorem Follows.leave {s : KeyStore × List HttpRequest} {history : List KeyEvent}
    (h : Follows sha256 decode internalKey used s history) {req : HttpRequest}
    (hissues : ∀ token id rpm, ¬ Issues internalKey req token id rpm)
    (hrevokes : ∀ id, ¬ Revokes decode internalKey req id) :
    Follows sha256 decode internalKey used (s.1, req :: s.2) history := by
  refine ⟨h.run, ?_, ?_⟩
  · intro token id rpm
    rw [granted_cons, ← h.live]
    simp [hissues, hrevokes]
  · intro token id rpm hmem
    exact h.logged req hmem

/-- **Refinement**: whatever the requests, they go through a run of the keys. -/
theorem exists_follows (hno : NoCollision sha256 used) {s : KeyStore × List HttpRequest}
    (h : (gateway sha256 decode internalKey).ReachedBy (RequestsInOrder internalKey used) s) :
    ∃ history, Follows sha256 decode internalKey used s history := by
  refine h.invariant (fun s => ∃ history, Follows sha256 decode internalKey used s history) ?_ ?_
  · rintro ⟨st, log⟩ ⟨hdb, rfl⟩
    exact ⟨[], .init ⟨hdb, rfl⟩, by simp [Live, Granted], by simp⟩
  · rintro s req s' ⟨history, hfollows⟩ hallowed hstep
    obtain ⟨hmove, hlog⟩ := System.observed_step hstep
    have hkeys : keysAfter sha256 decode internalKey s.1 req = s'.1 := Option.some.inj hmove
    have hs' : s' = (keysAfter sha256 decode internalKey s.1 req, req :: s.2) := by
      rw [hkeys, ← hlog]
    have hrequest : RequestMove sha256 decode internalKey s.1 req
        (keysAfter sha256 decode internalKey s.1 req) := requestMove s.1 req
    rw [hs']
    generalize keysAfter sha256 decode internalKey s.1 req = after at hrequest
    cases hrequest with
    | issue hissues hrevokes => exact ⟨_, hfollows.issue hno hallowed hissues hrevokes⟩
    | revoke hissues hrevokes => exact hfollows.revoke hno hallowed hissues hrevokes
    | leave hissues hrevokes => exact ⟨history, hfollows.leave hissues hrevokes⟩

/-- What is let through by the layer of the consumer's routes. -/
theorem serve_key_iff {st : KeyStore} {req : HttpRequest} {endpoint : Endpoint}
    {key : Auth.ValidatedKey} :
    serve sha256 internalKey st req = .letThrough endpoint (some key) ↔
      req.method ≠ .options ∧
        route req.method req.path = (some .requireApiKey, endpoint) ∧
        Auth.requireApiKey sha256 st req.header req.validateOk req.limiter = .next key := by
  unfold serve
  by_cases hmethod : req.method = .options
  · simp [hmethod]
  rw [if_neg hmethod]
  split
  · rename_i hroute
    simp [hroute]
  · rename_i hroute
    rw [hroute]
    cases Auth.requireApiKey sha256 st req.header req.validateOk req.limiter with
    | next key' => simp [hmethod]
    | respond e => simp
  · rename_i hroute
    rw [hroute]
    split <;> simp

end Runs

/-- **Who is let in.** After any requests whose statements succeed, in any order and by
anyone, the layer of the consumer's routes lets a token through if a request with the secret
has issued it and none since has revoked its id, and the limiter does not turn it down. -/
theorem served_iff_granted (sha256 : List UInt8 → List UInt8) (decode : String → Option String)
    (internalKey : String) (used : String → Prop) (hno : NoCollision sha256 used)
    (s : KeyStore × List HttpRequest)
    (h : (gateway sha256 decode internalKey).ReachedBy (RequestsInOrder internalKey used) s)
    (req : HttpRequest) (hvalidate : req.validateOk = true)
    (hbrought : ∀ token, Brings req token → used token)
    (endpoint : Endpoint) (key : Auth.ValidatedKey) :
    serve sha256 internalKey s.1 req = .letThrough endpoint (some key) ↔
      req.method ≠ .options ∧
        route req.method req.path = (some .requireApiKey, endpoint) ∧
        ∃ token rpm, Brings req token ∧ Granted decode internalKey s.2 token key.keyId rpm ∧
          key.rateLimitRpm = rpm.toInt64 ∧ Passes req.limiter key := by
  obtain ⟨history, hfollows⟩ := exists_follows hno h
  obtain ⟨table, hdb, hmirrors⟩ := exists_mirrors hno hfollows.run
  rw [serve_key_iff, hvalidate, requireApiKey_next hdb]
  apply and_congr_right
  intro _
  apply and_congr_right
  intro _
  constructor
  · rintro ⟨token, htoken, hvalid, hpasses⟩
    have hbrings := extractBearer_iff_brings.mp htoken
    obtain ⟨rpm, hlive, hrpm⟩ :=
      (hmirrors.validateFromDb_iff hno (hbrought token hbrings)).mp hvalid
    exact ⟨token, rpm, hbrings, (hfollows.live _ _ _).mp hlive, hrpm, hpasses⟩
  · rintro ⟨token, rpm, hbrings, hgranted, hrpm, hpasses⟩
    refine ⟨token, extractBearer_iff_brings.mpr hbrings, ?_, hpasses⟩
    apply (hmirrors.validateFromDb_iff hno (hbrought token hbrings)).mpr
    exact ⟨rpm, (hfollows.live _ _ _).mpr hgranted, hrpm⟩

/-- A request that asks for a key. -/
def issueRequest : HttpRequest :=
  ⟨.post, "/v1/internal/keys", some (Utf8.encode "Bearer secret".toList),
    some ⟨"acme", Keys.defaultRpm, none⟩, Keys.sampleInput, 0, .ok, true, none⟩

/-- A request that brings the token of the key. -/
def modelsRequest : HttpRequest :=
  { issueRequest with
    method := .get
    path := "/v1/models/llama3.2"
    authorization := some (Utf8.encode "Bearer pk_000102030405060708090a0b0c0d0e0f".toList) }

theorem served_iff_granted_issued : ∃ s : KeyStore × List HttpRequest, s.2 = [issueRequest] ∧
    serve sampleDigest "secret" s.1 modelsRequest =
      .letThrough (.handler .getModel ["llama3.2"]) (some ⟨"key-1", 60⟩) ∧
    ∃ token rpm, Brings modelsRequest token ∧
      Granted some "secret" s.2 token "key-1" rpm := by
  have hno : NoCollision sampleDigest (· ∈ sampleTokens) := by
    have hall : ∀ token ∈ sampleTokens, ∀ token' ∈ sampleTokens,
        sampleDigest (Utf8.encode token.toList) = sampleDigest (Utf8.encode token'.toList) →
        token = token' := by decide +kernel
    intro token token' hused hused'
    exact hall token hused token' hused'
  have hused : Keys.sampleInput.rawKey ∈ sampleTokens := by decide +kernel
  have hallowed : RequestsInOrder "secret" (· ∈ sampleTokens) (⟨some .empty, []⟩, [])
      issueRequest := by
    refine ⟨rfl, rfl, ?_⟩
    intro token id rpm hissues
    rw [← hissues.token]
    exact ⟨hused, by simp⟩
  have hissued : (gateway sampleDigest some "secret").ReachedBy
      (RequestsInOrder "secret" (· ∈ sampleTokens)) _ := .step (.init ⟨rfl, rfl⟩) hallowed rfl
  have hbrought : ∀ token, Brings modelsRequest token → token ∈ sampleTokens := by
    intro token hbrings
    have hread : Auth.extractBearer modelsRequest.header =
        some "pk_000102030405060708090a0b0c0d0e0f" := by decide +kernel
    obtain rfl := Option.some.inj (hread.symm.trans (extractBearer_iff_brings.mpr hbrings))
    exact List.mem_cons_self
  have hserve : serve sampleDigest "secret"
      (keysAfter sampleDigest some "secret" ⟨some .empty, []⟩ issueRequest) modelsRequest =
      .letThrough (.handler .getModel ["llama3.2"]) (some ⟨"key-1", 60⟩) := by decide +kernel
  obtain ⟨-, -, token, rpm, htoken, hgranted, -⟩ := (served_iff_granted sampleDigest some
    "secret" (· ∈ sampleTokens) hno _ hissued modelsRequest rfl hbrought
    (.handler .getModel ["llama3.2"]) ⟨"key-1", 60⟩).mp hserve
  exact ⟨_, rfl, hserve, token, rpm, htoken, hgranted⟩

/-! ## Without a database -/

/-- A key that stands in `INFER_API_KEYS` as it is. -/
def Plain (key : String) : Prop :=
  key ≠ "" ∧ ',' ∉ key.toList ∧ Lines.trim isWhitespace key.toList = key.toList

/-- Keys that are joined by commas are read back. -/
theorem apiKeysOf_intercalate {keys : List String} (hne : keys ≠ [])
    (hplain : ∀ key ∈ keys, Plain key) : apiKeysOf (",".intercalate keys) = keys := by
  have hsplit : (",".intercalate keys).toList.splitOn ',' = keys.map String.toList := by
    rw [String.toList_intercalate]
    apply List.splitOn_intercalate
    · intro piece hpiece
      obtain ⟨key, hkey, rfl⟩ := List.mem_map.mp hpiece
      exact (hplain key hkey).2.1
    · simpa using hne
  have htrim : (keys.map String.toList).map (Lines.trim isWhitespace) =
      keys.map String.toList := by
    rw [List.map_map]
    apply List.map_congr_left
    intro key hkey
    exact (hplain key hkey).2.2
  have hfilter : (keys.map String.toList).filter (fun piece => piece ≠ []) =
      keys.map String.toList := by
    apply List.filter_eq_self.mpr
    intro piece hpiece
    obtain ⟨key, hkey, rfl⟩ := List.mem_map.mp hpiece
    simpa using (hplain key hkey).1
  rw [apiKeysOf, hsplit, htrim, hfilter, List.map_map]
  simp

/-- Without a database no request changes the keys. -/
theorem keysAfter_of_memory {sha256 : List UInt8 → List UInt8}
    {decode : String → Option String} {internalKey : String} {st : KeyStore}
    (hdb : st.db = none) (req : HttpRequest) :
    keysAfter sha256 decode internalKey st req = st := by
  have hmove : RequestMove sha256 decode internalKey st req
      (keysAfter sha256 decode internalKey st req) := requestMove st req
  generalize keysAfter sha256 decode internalKey st req = after at hmove
  cases hmove with
  | issue => simp [Keys.create, hdb]
  | revoke => simp [Keys.revoke, hdb]
  | leave => rfl

theorem requireApiKey_of_memory {sha256 : List UInt8 → List UInt8} {keys : List String}
    {header : Option String} {ok : Bool}
    {limiter : Option (Auth.ValidatedKey → Except Unit Bool)} {key : Auth.ValidatedKey} :
    Auth.requireApiKey sha256 ⟨none, keys⟩ header ok limiter = .next key ↔
      ∃ token ∈ keys, Auth.extractBearer header = some token ∧ key = ⟨token, 60⟩ ∧
        Passes limiter key := by
  unfold Auth.requireApiKey
  cases Auth.extractBearer header with
  | none => simp
  | some token =>
      by_cases hmem : token ∈ keys
      · have hvalid : Auth.validateFromMemory ⟨none, keys⟩ token = .ok (some ⟨token, 60⟩) := by
          simp [Auth.validateFromMemory, hmem]
        simp only [hvalid, Option.some.injEq]
        cases limiter with
        | none => simp [Passes, hmem, eq_comm]
        | some check =>
            cases hcheck : check ⟨token, 60⟩ with
            | error e =>
                simp only [hcheck, Auth.Decision.next.injEq]
                constructor
                · rintro rfl
                  exact ⟨token, hmem, rfl, rfl, by simp [Passes, hcheck]⟩
                · rintro ⟨_, -, rfl, rfl, -⟩
                  rfl
            | ok within =>
                cases within with
                | true =>
                    simp only [hcheck, Auth.Decision.next.injEq]
                    constructor
                    · rintro rfl
                      exact ⟨token, hmem, rfl, rfl, by simp [Passes, hcheck]⟩
                    · rintro ⟨_, -, rfl, rfl, -⟩
                      rfl
                | false =>
                    simp only [hcheck, reduceCtorEq, false_iff]
                    rintro ⟨_, -, rfl, rfl, hpasses⟩
                    exact hpasses check rfl hcheck
      · have hvalid : Auth.validateFromMemory ⟨none, keys⟩ token = .ok none := by
          simp [Auth.validateFromMemory, hmem]
        simp only [hvalid, Option.some.injEq, reduceCtorEq, false_iff]
        rintro ⟨_, hkey, rfl, -⟩
        exact hmem hkey

/-- The keys of the environment that can stand in a header, and no other token, are let
through at any time. -/
theorem served_in_memory_iff (sha256 : List UInt8 → List UInt8)
    (decode : String → Option String) (keys : List String) (hne : keys ≠ [])
    (hplain : ∀ key ∈ keys, Plain key) (secret : Option String) :
    ∃ st internalKey, fromEnv (some (",".intercalate keys)) secret none = .ok (st, internalKey) ∧
      ∀ s, ((gateway sha256 decode internalKey).startingAt (st, [])).Reachable s →
        ∀ req endpoint key,
          serve sha256 internalKey s.1 req = .letThrough endpoint (some key) ↔
            req.method ≠ .options ∧
              route req.method req.path = (some .requireApiKey, endpoint) ∧
              ∃ token ∈ keys, Brings req token ∧ key = ⟨token, 60⟩ ∧ Passes req.limiter key := by
  refine ⟨⟨none, keys⟩, secret.getD "internal_dev_secret", ?_, ?_⟩
  · simp [fromEnv, apiKeysOf_intercalate hne hplain, hne]
  · intro s hs req endpoint key
    have hkeys : s.1 = ⟨none, keys⟩ := by
      refine hs.invariant (fun s => s.1 = ⟨none, keys⟩) ?_ ?_
      · rintro s rfl
        rfl
      · rintro s req s' hinv - hstep
        have hgateway : (gateway sha256 decode (secret.getD "internal_dev_secret")).step s req =
            some s' := hstep
        have hmove := (System.observed_step hgateway).1
        rw [← Option.some.inj hmove, keysAfter_of_memory (by rw [hinv]), hinv]
    rw [hkeys, serve_key_iff]
    apply and_congr_right
    intro _
    apply and_congr_right
    intro _
    rw [requireApiKey_of_memory]
    simp only [extractBearer_iff_brings]

theorem served_in_memory_iff_two_keys : ∃ st internalKey,
    fromEnv (some "dev-a,dev-b") none none = .ok (st, internalKey) ∧
      serve sampleDigest internalKey st
          { modelsRequest with authorization := Utf8.encode "Bearer dev-b".toList } =
        .letThrough (.handler .getModel ["llama3.2"]) (some ⟨"dev-b", 60⟩) := by
  have hplain : ∀ key ∈ ["dev-a", "dev-b"], Plain key := by
    have hall : ∀ key ∈ ["dev-a", "dev-b"], key ≠ "" ∧ ',' ∉ key.toList ∧
        Lines.trim isWhitespace key.toList = key.toList := by decide +kernel
    exact hall
  obtain ⟨st, internalKey, hstart, hserved⟩ :=
    served_in_memory_iff sampleDigest some ["dev-a", "dev-b"] (by simp) hplain none
  have hroute : route .get "/v1/models/llama3.2" =
      (some .requireApiKey, .handler .getModel ["llama3.2"]) := by decide +kernel
  have hread : HeaderValue.toStr (Utf8.encode "dev-b".toList) = some "dev-b" := by decide +kernel
  have hvisible := (toStr_eq_some.mp hread).2
  refine ⟨st, internalKey, hstart, ?_⟩
  apply (hserved _ (.init rfl) _ _ _).mpr
  exact ⟨by simp [modelsRequest], hroute, "dev-b", by simp, ⟨rfl, hvisible⟩, rfl,
    by simp [Passes, modelsRequest, issueRequest]⟩

end InferPlatform.Gateway
