import InferPlatform.Base.JsonText
import InferPlatform.Base.System
import InferPlatform.Base.Utf8
import InferPlatform.Gateway.Accounts

/-!
# API keys

A key is issued once, in plain text, and only its hash is stored. A request is let in by
the hash of the token it brings. Issuing and checking each have a hash function of their
own; both are over the SHA-256 digest, which is a parameter here.

* `Keys.create`, `Keys.revoke` — the two handlers, over the table `api_keys`;
* `Auth.validateFromDb`, `Auth.requireApiKey` — the check of a token, and the middleware;
* `apiKeys` — any sequence of these, noted as a history of keys issued and revoked;
* `lifeCycle` — **a token is let in while its key is issued and not revoked, and at no
  other time**.
-/

namespace InferPlatform.Gateway

/-! ## The table -/

/-- A row of `api_keys`. -/
structure ApiKey where
  id : String
  keyHash : String
  owner : String
  rateLimitRpm : Int32
  dailySpendCapCents : Option Int32
  createdAt : Int
  revokedAt : Option Int
  deriving DecidableEq, Repr

/-- `id` is the primary key, and `key_hash` is unique. -/
structure ApiKeyTable where
  rows : List ApiKey
  ids : (rows.map (·.id)).Nodup
  hashes : (rows.map (·.keyHash)).Nodup
  deriving DecidableEq

namespace ApiKeyTable

def empty : ApiKeyTable := ⟨[], List.nodup_nil, List.nodup_nil⟩

/-- The statement fails on an id or a hash that is taken. -/
def insert (t : ApiKeyTable) (row : ApiKey) : Option ApiKeyTable :=
  if h : row.id ∉ t.rows.map (·.id) ∧ row.keyHash ∉ t.rows.map (·.keyHash) then
    some
      { rows := t.rows ++ [row]
        ids := by
          rw [List.map_append, List.map_singleton, ← List.concat_eq_append]
          exact t.ids.concat h.1
        hashes := by
          rw [List.map_append, List.map_singleton, ← List.concat_eq_append]
          exact t.hashes.concat h.2 }
  else none

/-- An update that keeps ids and hashes. -/
def update (t : ApiKeyTable) (f : ApiKey → ApiKey) (hid : ∀ r, (f r).id = r.id)
    (hhash : ∀ r, (f r).keyHash = r.keyHash) : ApiKeyTable where
  rows := t.rows.map f
  ids := by
    rw [List.map_map]
    exact (List.map_congr_left fun r _ => hid r) ▸ t.ids
  hashes := by
    rw [List.map_map]
    exact (List.map_congr_left fun r _ => hhash r) ▸ t.hashes

/-- `UPDATE api_keys SET revoked_at = $1 WHERE id = $2 AND revoked_at IS NULL`. -/
def setRevoked (t : ApiKeyTable) (id : String) (now : Int) : ApiKeyTable :=
  t.update (fun r => if r.id = id ∧ r.revokedAt = none then { r with revokedAt := some now } else r)
    (by intro r; split <;> rfl) (by intro r; split <;> rfl)

/-- `rows_affected` of that statement. -/
def rowsAffected (t : ApiKeyTable) (id : String) : Nat :=
  t.rows.countP fun r => r.id = id ∧ r.revokedAt = none

end ApiKeyTable

/-- `state.db`, as far as its keys go, and `state.api_keys`. -/
structure KeyStore where
  db : Option ApiKeyTable
  apiKeys : List String
  deriving DecidableEq

/-- `hex::encode`. -/
def hexEncode (bytes : List UInt8) : String :=
  String.ofList (bytes.flatMap fun b =>
    [JsonText.hexDigit (b.toNat / 16), JsonText.hexDigit (b.toNat % 16)])

/-! ## Issuing and revoking -/

namespace Keys

section

variable (sha256 : List UInt8 → List UInt8)

def hashKey (key : String) : String := hexEncode (sha256 (Utf8.encode key.toList))

def defaultRpm : Int32 := 60

structure CreateKeyRequest where
  owner : String
  rateLimitRpm : Int32 := defaultRpm
  dailySpendCapCents : Option Int32 := none
  deriving DecidableEq, Repr

structure CreateKeyResponse where
  id : String
  key : String
  owner : String
  rateLimitRpm : Int32
  createdAt : Int
  deriving DecidableEq, Repr

/-- What `create` reads: random bytes, a fresh id, the clock, and the answer to its
statement. -/
structure CreateInput where
  randomBytes : Vector UInt8 16
  keyId : String
  now : Int
  insert : Outcome
  deriving DecidableEq, Repr

/-- `require_db`, where there is none. -/
def noDatabase : ApiError :=
  ⟨503, "Key management requires DATABASE_URL to be configured", "service_unavailable"⟩

def CreateInput.rawKey (input : CreateInput) : String :=
  "pk_" ++ hexEncode input.randomBytes.toList

/-- The row of a new key. -/
def newKey (req : CreateKeyRequest) (input : CreateInput) : ApiKey :=
  { id := input.keyId
    keyHash := hashKey sha256 input.rawKey
    owner := req.owner
    rateLimitRpm := req.rateLimitRpm
    dailySpendCapCents := req.dailySpendCapCents
    createdAt := input.now
    revokedAt := none }

/-- `POST /v1/internal/keys`. -/
def create (st : KeyStore) (req : CreateKeyRequest) (input : CreateInput) :
    KeyStore × Except ApiError CreateKeyResponse :=
  match st.db with
  | none => (st, .error noDatabase)
  | some table =>
    match table.insert (newKey sha256 req input), input.insert with
    | none, _ | some _, .failed => (st, .error (internalError "failed to create key"))
    | some table', .lost =>
      ({ st with db := some table' }, .error (internalError "failed to create key"))
    | some table', .ok =>
      ({ st with db := some table' }, .ok
        { id := input.keyId
          key := input.rawKey
          owner := req.owner
          rateLimitRpm := req.rateLimitRpm
          createdAt := input.now })

end

/-- The answer to a key that cannot be revoked. -/
def notFound : ApiError := ⟨404, "Key not found or already revoked", "invalid_request_error"⟩

/-- `DELETE /v1/internal/keys/:id`; success is the status 204. -/
def revoke (st : KeyStore) (keyId : String) (now : Int) (update : Outcome) :
    KeyStore × Except ApiError Nat :=
  match st.db with
  | none => (st, .error noDatabase)
  | some table =>
    match update with
    | .failed => (st, .error (internalError "failed to revoke key"))
    | .lost =>
      ({ st with db := some (table.setRevoked keyId now) },
        .error (internalError "failed to revoke key"))
    | .ok =>
      ({ st with db := some (table.setRevoked keyId now) },
        if table.rowsAffected keyId = 0 then .error notFound else .ok 204)

end Keys

/-! ## Checking -/

namespace Auth

section

variable (sha256 : List UInt8 → List UInt8)

structure ValidatedKey where
  keyId : String
  rateLimitRpm : Int64
  deriving DecidableEq, Repr

/-- What follows `Bearer ` in a header that is text. -/
def extractBearer (header : Option String) : Option String :=
  header.bind fun v => (v.toList.dropPrefix? "Bearer ".toList).map String.ofList

/-- The second copy of the function. -/
def hashKey (key : String) : String := hexEncode (sha256 (Utf8.encode key.toList))

/-- `ok` says whether the query succeeds. -/
def validateFromDb (table : ApiKeyTable) (key : String) (ok : Bool) :
    Except Unit (Option ValidatedKey) :=
  if ok then
    let hash := hashKey sha256 key
    .ok ((table.rows.find? fun r => r.keyHash = hash ∧ r.revokedAt = none).map fun r =>
      ⟨r.id, r.rateLimitRpm.toInt64⟩)
  else .error ()

def validateFromMemory (st : KeyStore) (key : String) : Except Unit (Option ValidatedKey) :=
  .ok (if st.apiKeys.contains key then some ⟨key, 60⟩ else none)

/-- The status and the members of the error object. -/
structure AuthError where
  status : Nat
  message : String
  type : String
  code : Option String
  deriving DecidableEq, Repr

/-- The request goes on with its key, or it is answered. -/
inductive Decision
  | next (key : ValidatedKey)
  | respond (e : AuthError)
  deriving DecidableEq, Repr

def unauthorized (message : String) : AuthError :=
  ⟨401, message, "invalid_request_error", some "invalid_api_key"⟩

def rateLimited : AuthError :=
  ⟨429, "Rate limit exceeded", "rate_limit_error", some "rate_limit_exceeded"⟩

/-- The middleware; `limiter` is the rate limiter, if there is one, with what
`check_and_increment` answers for a key. -/
def requireApiKey (st : KeyStore) (header : Option String) (ok : Bool)
    (limiter : Option (ValidatedKey → Except Unit Bool)) : Decision :=
  match extractBearer header with
  | none => .respond (unauthorized "Missing or invalid Authorization header")
  | some key =>
    let validated := match st.db with
      | some table => validateFromDb sha256 table key ok
      | none => validateFromMemory st key
    match validated with
    | .ok none => .respond (unauthorized "Invalid API key")
    | .error () => .respond ⟨500, "internal error", "server_error", none⟩
    | .ok (some v) =>
      match limiter with
      | none => .next v
      | some check =>
        match check v with
        | .ok true => .next v
        | .ok false => .respond rateLimited
        -- fail open
        | .error () => .next v

end

end Auth

/-! ## The system -/

inductive KeyAction
  | create (req : Keys.CreateKeyRequest) (input : Keys.CreateInput)
  | revoke (keyId : String) (now : Int) (update : Outcome)
  | attempt (header : Option String) (ok : Bool)

/-- A gateway with a database, from an empty table on. -/
def apiKeys (sha256 : List UInt8 → List UInt8) : System KeyStore KeyAction where
  init st := st.db = some .empty
  step st
    | .create req input => some (Keys.create sha256 st req input).1
    | .revoke keyId now update => some (Keys.revoke st keyId now update).1
    | .attempt _ _ => some st

/-- A token that was returned, with its id and limit; and an id that was revoked. -/
inductive KeyEvent
  | issued (token id : String) (rpm : Int32)
  | revoked (id : String) (now : Int)
  deriving DecidableEq, Repr

/-- The events that the answers tell of, the newest first. -/
def noteKeys (sha256 : List UInt8 → List UInt8) (history : List KeyEvent) (st : KeyStore) :
    KeyAction → KeyStore → List KeyEvent
  | .create req input, _ =>
    match (Keys.create sha256 st req input).2 with
    | .ok answer => .issued answer.key answer.id answer.rateLimitRpm :: history
    | .error _ => history
  | .revoke keyId now update, _ =>
    match (Keys.revoke st keyId now update).2 with
    | .ok _ => .revoked keyId now :: history
    | .error _ => history
  | .attempt _ _, _ => history

/-- The keys of a gateway with their history. -/
abbrev keyRuns (sha256 : List UInt8 → List UInt8) : System (KeyStore × List KeyEvent) KeyAction :=
  (apiKeys sha256).observed [] (noteKeys sha256)

/-- The digests of the tokens in use differ. -/
def NoCollision (sha256 : List UInt8 → List UInt8) (used : String → Prop) : Prop :=
  ∀ token token', used token → used token' →
    sha256 (Utf8.encode token.toList) = sha256 (Utf8.encode token'.toList) → token = token'

/-- Statements succeed, and a new token and a new id have not been issued before. -/
def KeysInOrder (used : String → Prop) (s : KeyStore × List KeyEvent) : KeyAction → Prop
  | .create _ input =>
    input.insert = .ok ∧ used input.rawKey ∧
      ∀ token id rpm, .issued token id rpm ∈ s.2 → input.rawKey ≠ token ∧ input.keyId ≠ id
  | .revoke _ _ update => update = .ok
  | .attempt header ok => ok = true ∧ ∀ token ∈ Auth.extractBearer header, used token

/-- The token was issued with this id and limit, and the id has not been revoked since. -/
def Live (history : List KeyEvent) (token id : String) (rpm : Int32) : Prop :=
  ∃ later earlier, history = later ++ .issued token id rpm :: earlier ∧
    ∀ now, .revoked id now ∉ later

/-! ## Histories -/

theorem live_cons {e : KeyEvent} {history : List KeyEvent} {token id : String} {rpm : Int32} :
    Live (e :: history) token id rpm ↔
      e = .issued token id rpm ∨ Live history token id rpm ∧ ∀ now, e ≠ .revoked id now := by
  constructor
  · rintro ⟨later, earlier, hsplit, hlater⟩
    cases later with
    | nil => exact .inl (List.cons.inj hsplit).1
    | cons first later =>
        obtain ⟨rfl, hrest⟩ := List.cons.inj hsplit
        refine .inr ⟨⟨later, earlier, hrest, ?_⟩, ?_⟩
        · intro now hmem
          exact hlater now (List.mem_cons_of_mem _ hmem)
        · rintro now rfl
          exact hlater now List.mem_cons_self
  · rintro (rfl | ⟨⟨later, earlier, rfl, hlater⟩, hne⟩)
    · exact ⟨[], history, rfl, by simp⟩
    · refine ⟨e :: later, earlier, rfl, ?_⟩
      intro now hmem
      rcases List.mem_cons.mp hmem with heq | hmem
      · exact hne now heq.symm
      · exact hlater now hmem

theorem Live.mem {history : List KeyEvent} {token id : String} {rpm : Int32}
    (h : Live history token id rpm) : .issued token id rpm ∈ history := by
  obtain ⟨later, earlier, rfl, -⟩ := h
  simp

/-! ## Hashes -/

theorem hexDigit_inj : ∀ a < 16, ∀ b < 16, JsonText.hexDigit a = JsonText.hexDigit b → a = b := by
  decide

theorem hexEncode_injective : Function.Injective hexEncode := by
  intro bytes
  induction bytes with
  | nil =>
      intro bytes' h
      cases bytes' with
      | nil => rfl
      | cons _ _ => simp [hexEncode] at h
  | cons b bytes ih =>
      intro bytes' h
      cases bytes' with
      | nil => simp [hexEncode] at h
      | cons b' bytes' =>
          have hb := b.toNat_lt
          have hb' := b'.toNat_lt
          simp only [hexEncode, List.flatMap_cons, String.ofList_inj, List.cons_append,
            List.nil_append, List.cons.injEq] at h
          obtain ⟨hhigh, hlow, hrest⟩ := h
          have hhigh := hexDigit_inj _ (by omega) _ (by omega) hhigh
          have hlow := hexDigit_inj _ (by omega) _ (by omega) hlow
          have hbyte : b = b' := UInt8.toNat_inj.mp (by omega)
          rw [hbyte, ih (String.ofList_inj.mpr hrest)]

/-- The two copies of the hash function are one. -/
theorem hashKey_eq (sha256 : List UInt8 → List UInt8) :
    Keys.hashKey sha256 = Auth.hashKey sha256 := rfl

theorem NoCollision.hashKey_inj {sha256 : List UInt8 → List UInt8} {used : String → Prop}
    (h : NoCollision sha256 used) {token token' : String} (hused : used token)
    (hused' : used token') (heq : Auth.hashKey sha256 token = Auth.hashKey sha256 token') :
    token = token' :=
  h token token' hused hused' (hexEncode_injective heq)

/-! ## The statements -/

namespace ApiKeyTable

theorem insert_of_fresh {t : ApiKeyTable} {row : ApiKey} (hid : ∀ r ∈ t.rows, r.id ≠ row.id)
    (hhash : ∀ r ∈ t.rows, r.keyHash ≠ row.keyHash) :
    ∃ t', t.insert row = some t' ∧ t'.rows = t.rows ++ [row] := by
  have hfresh : row.id ∉ t.rows.map (·.id) ∧ row.keyHash ∉ t.rows.map (·.keyHash) := by
    simp only [List.mem_map, not_exists, not_and]
    exact ⟨hid, hhash⟩
  exact ⟨_, dif_pos hfresh, rfl⟩

theorem mem_setRevoked {t : ApiKeyTable} {id : String} {now : Int} {row : ApiKey} :
    row ∈ (t.setRevoked id now).rows ↔
      (row ∈ t.rows ∧ ¬ (row.id = id ∧ row.revokedAt = none)) ∨
        ∃ old ∈ t.rows, old.id = id ∧ old.revokedAt = none ∧
          row = { old with revokedAt := some now } := by
  constructor
  · intro h
    obtain ⟨old, hold, rfl⟩ := List.mem_map.mp h
    split
    · rename_i hmatch
      exact .inr ⟨old, hold, hmatch.1, hmatch.2, rfl⟩
    · rename_i hmatch
      exact .inl ⟨hold, hmatch⟩
  · rintro (⟨hrow, hmatch⟩ | ⟨old, hold, hid, hrevoked, rfl⟩)
    · exact List.mem_map.mpr ⟨row, hrow, if_neg hmatch⟩
    · exact List.mem_map.mpr ⟨old, hold, if_pos ⟨hid, hrevoked⟩⟩

theorem rowsAffected_eq_zero {t : ApiKeyTable} {id : String} :
    t.rowsAffected id = 0 ↔ ∀ row ∈ t.rows, row.id = id → row.revokedAt ≠ none := by
  simp [rowsAffected, List.countP_eq_zero]

/-- The row that the statement found. -/
theorem exists_of_rowsAffected {t : ApiKeyTable} {id : String} (h : t.rowsAffected id ≠ 0) :
    ∃ row ∈ t.rows, row.id = id ∧ row.revokedAt = none := by
  by_contra hnot
  apply h
  rw [rowsAffected_eq_zero]
  intro row hrow hid hnone
  exact hnot ⟨row, hrow, hid, hnone⟩

/-- A statement without affected rows leaves the table. -/
theorem setRevoked_eq_self {t : ApiKeyTable} {id : String} (h : t.rowsAffected id = 0)
    (now : Int) : t.setRevoked id now = t := by
  have hrows : (t.setRevoked id now).rows = t.rows := by
    show t.rows.map _ = t.rows
    conv_rhs => rw [← List.map_id t.rows]
    apply List.map_congr_left
    intro row hrow
    exact if_neg fun hmatch => rowsAffected_eq_zero.mp h row hrow hmatch.1 hmatch.2
  cases t
  rw [ApiKeyTable.mk.injEq]
  exact hrows

/-- The row of an id is the only one. -/
theorem eq_of_id {t : ApiKeyTable} {row row' : ApiKey} (h : row ∈ t.rows) (h' : row' ∈ t.rows)
    (hid : row.id = row'.id) : row = row' :=
  List.inj_on_of_nodup_map t.ids h h' hid

theorem eq_of_keyHash {t : ApiKeyTable} {row row' : ApiKey} (h : row ∈ t.rows)
    (h' : row' ∈ t.rows) (hhash : row.keyHash = row'.keyHash) : row = row' :=
  List.inj_on_of_nodup_map t.hashes h h' hhash

end ApiKeyTable

/-! ## The table mirrors the history -/

section Runs

variable {sha256 : List UInt8 → List UInt8} {used : String → Prop}

/-- What the rows of the table say of the history. -/
structure Mirrors (sha256 : List UInt8 → List UInt8) (used : String → Prop) (table : ApiKeyTable)
    (history : List KeyEvent) : Prop where
  live : ∀ id hash rpm,
    (∃ row ∈ table.rows, row.id = id ∧ row.keyHash = hash ∧ row.rateLimitRpm = rpm ∧
      row.revokedAt = none) ↔
    ∃ token, Auth.hashKey sha256 token = hash ∧ Live history token id rpm
  issued : ∀ row ∈ table.rows, ∃ token rpm, .issued token row.id rpm ∈ history ∧
    Auth.hashKey sha256 token = row.keyHash
  tokens : ∀ token id rpm, .issued token id rpm ∈ history → used token
  revoked : ∀ id now, .revoked id now ∈ history ↔
    ∃ row ∈ table.rows, row.id = id ∧ row.revokedAt = some now

theorem mirrors_empty : Mirrors sha256 used .empty [] := by
  constructor <;> simp [ApiKeyTable.empty, Live]

/-- A new token and a new id: the statement succeeds, with the new row behind the others. -/
theorem Mirrors.insert {table : ApiKeyTable} {history : List KeyEvent}
    (h : Mirrors sha256 used table history) (hno : NoCollision sha256 used)
    (req : Keys.CreateKeyRequest) {input : Keys.CreateInput} (hused : used input.rawKey)
    (hfresh : ∀ token id rpm, .issued token id rpm ∈ history →
      input.rawKey ≠ token ∧ input.keyId ≠ id) :
    ∃ table', table.insert (Keys.newKey sha256 req input) = some table' ∧
      table'.rows = table.rows ++ [Keys.newKey sha256 req input] := by
  apply ApiKeyTable.insert_of_fresh
  · intro row hrow hid
    obtain ⟨token, rpm, hissued, -⟩ := h.issued row hrow
    exact (hfresh token row.id rpm hissued).2 hid.symm
  · intro row hrow hhash
    obtain ⟨token, rpm, hissued, htoken⟩ := h.issued row hrow
    have hsame : Auth.hashKey sha256 input.rawKey = Auth.hashKey sha256 token :=
      hhash.symm.trans htoken.symm
    exact (hfresh token row.id rpm hissued).1
      (hno.hashKey_inj hused (h.tokens token row.id rpm hissued) hsame)

theorem Mirrors.create {table table' : ApiKeyTable} {history : List KeyEvent}
    (h : Mirrors sha256 used table history) {req : Keys.CreateKeyRequest}
    {input : Keys.CreateInput} (hused : used input.rawKey)
    (hrows : table'.rows = table.rows ++ [Keys.newKey sha256 req input]) :
    Mirrors sha256 used table'
      (.issued input.rawKey input.keyId req.rateLimitRpm :: history) := by
  refine ⟨?_, ?_, ?_, ?_⟩
  · intro id hash rpm
    constructor
    · rintro ⟨row, hrow, rfl, rfl, rfl, hrevoked⟩
      rw [hrows, List.mem_append, List.mem_singleton] at hrow
      rcases hrow with hrow | rfl
      · obtain ⟨token, htoken, hlive⟩ := (h.live _ _ _).mp ⟨row, hrow, rfl, rfl, rfl, hrevoked⟩
        exact ⟨token, htoken, live_cons.mpr (.inr ⟨hlive, by simp⟩)⟩
      · exact ⟨input.rawKey, rfl, live_cons.mpr (.inl rfl)⟩
    · rintro ⟨token, rfl, hlive⟩
      rcases live_cons.mp hlive with heq | ⟨hlive, -⟩
      · cases heq
        exact ⟨Keys.newKey sha256 req input, by simp [hrows], rfl, rfl, rfl, rfl⟩
      · obtain ⟨row, hrow, hmatch⟩ := (h.live id _ rpm).mpr ⟨token, rfl, hlive⟩
        exact ⟨row, by simp [hrows, hrow], hmatch⟩
  · intro row hrow
    rw [hrows, List.mem_append, List.mem_singleton] at hrow
    rcases hrow with hrow | rfl
    · obtain ⟨token, rpm, hissued, htoken⟩ := h.issued row hrow
      exact ⟨token, rpm, List.mem_cons_of_mem _ hissued, htoken⟩
    · exact ⟨input.rawKey, req.rateLimitRpm, List.mem_cons_self, rfl⟩
  · intro token id rpm hmem
    rcases List.mem_cons.mp hmem with heq | hmem
    · cases heq
      exact hused
    · exact h.tokens token id rpm hmem
  · intro id now
    rw [List.mem_cons, hrows]
    simp [h.revoked, Keys.newKey]

theorem Mirrors.revoke {table : ApiKeyTable} {history : List KeyEvent}
    (h : Mirrors sha256 used table history) {id : String} {now : Int}
    (haffected : table.rowsAffected id ≠ 0) :
    Mirrors sha256 used (table.setRevoked id now) (.revoked id now :: history) := by
  refine ⟨?_, ?_, ?_, ?_⟩
  · intro id' hash rpm
    constructor
    · rintro ⟨row, hrow, rfl, rfl, rfl, hrevoked⟩
      rcases ApiKeyTable.mem_setRevoked.mp hrow with ⟨hrow, hother⟩ | ⟨old, -, -, -, rfl⟩
      · obtain ⟨token, htoken, hlive⟩ := (h.live _ _ _).mp ⟨row, hrow, rfl, rfl, rfl, hrevoked⟩
        refine ⟨token, htoken, live_cons.mpr (.inr ⟨hlive, ?_⟩)⟩
        intro now' heq
        cases heq
        exact hother ⟨rfl, hrevoked⟩
      · cases hrevoked
    · rintro ⟨token, rfl, hlive⟩
      rcases live_cons.mp hlive with heq | ⟨hlive, hother⟩
      · cases heq
      · obtain ⟨row, hrow, rfl, hmatch⟩ := (h.live id' _ rpm).mpr ⟨token, rfl, hlive⟩
        refine ⟨row, ApiKeyTable.mem_setRevoked.mpr (.inl ⟨hrow, ?_⟩), rfl, hmatch⟩
        rintro ⟨rfl, -⟩
        exact hother now rfl
  · intro row hrow
    rcases ApiKeyTable.mem_setRevoked.mp hrow with ⟨hrow, -⟩ | ⟨old, hold, -, -, rfl⟩
    · obtain ⟨token, rpm, hissued, htoken⟩ := h.issued row hrow
      exact ⟨token, rpm, List.mem_cons_of_mem _ hissued, htoken⟩
    · obtain ⟨token, rpm, hissued, htoken⟩ := h.issued old hold
      exact ⟨token, rpm, List.mem_cons_of_mem _ hissued, htoken⟩
  · intro token id' rpm hmem
    rcases List.mem_cons.mp hmem with heq | hmem
    · cases heq
    · exact h.tokens token id' rpm hmem
  · intro id' now'
    rw [List.mem_cons, h.revoked]
    constructor
    · rintro (heq | ⟨row, hrow, hid, hrevoked⟩)
      · cases heq
        obtain ⟨old, hold, hid, hnone⟩ := ApiKeyTable.exists_of_rowsAffected haffected
        exact ⟨{ old with revokedAt := some now },
          ApiKeyTable.mem_setRevoked.mpr (.inr ⟨old, hold, hid, hnone, rfl⟩), hid, rfl⟩
      · refine ⟨row, ApiKeyTable.mem_setRevoked.mpr (.inl ⟨hrow, ?_⟩), hid, hrevoked⟩
        rintro ⟨-, hnone⟩
        rw [hnone] at hrevoked
        cases hrevoked
    · rintro ⟨row, hrow, hid, hrevoked⟩
      rcases ApiKeyTable.mem_setRevoked.mp hrow with ⟨hrow, -⟩ | ⟨old, -, rfl, -, rfl⟩
      · exact .inr ⟨row, hrow, hid, hrevoked⟩
      · cases hrevoked
        exact .inl (by rw [← hid])

/-- What a step does, in a run in order. -/
inductive KeyMove (sha256 : List UInt8 → List UInt8) (used : String → Prop) (table : ApiKeyTable)
    (history : List KeyEvent) : KeyAction → ApiKeyTable → List KeyEvent → Prop
  | create {req : Keys.CreateKeyRequest} {input : Keys.CreateInput} {table' : ApiKeyTable}
      (hused : used input.rawKey)
      (hrows : table'.rows = table.rows ++ [Keys.newKey sha256 req input]) :
      KeyMove sha256 used table history (.create req input) table'
        (.issued input.rawKey input.keyId req.rateLimitRpm :: history)
  | revoke {id : String} {now : Int} {update : Outcome} (haffected : table.rowsAffected id ≠ 0) :
      KeyMove sha256 used table history (.revoke id now update) (table.setRevoked id now)
        (.revoked id now :: history)
  | notFound {id : String} {now : Int} {update : Outcome} (haffected : table.rowsAffected id = 0) :
      KeyMove sha256 used table history (.revoke id now update) table history
  | attempt {header : Option String} {ok : Bool} :
      KeyMove sha256 used table history (.attempt header ok) table history

theorem Keys.create_of_insert {st : KeyStore} {table table' : ApiKeyTable}
    {req : Keys.CreateKeyRequest} {input : Keys.CreateInput} (hdb : st.db = some table)
    (hok : input.insert = .ok)
    (hinsert : table.insert (Keys.newKey sha256 req input) = some table') :
    Keys.create sha256 st req input =
      ({ st with db := some table' },
        .ok ⟨input.keyId, input.rawKey, req.owner, req.rateLimitRpm, input.now⟩) := by
  unfold Keys.create
  rw [hdb]
  dsimp only
  rw [hinsert, hok]

theorem Keys.revoke_of_db {st : KeyStore} {table : ApiKeyTable} (hdb : st.db = some table)
    (id : String) (now : Int) :
    Keys.revoke st id now .ok =
      ({ st with db := some (table.setRevoked id now) },
        if table.rowsAffected id = 0 then .error Keys.notFound else .ok 204) := by
  unfold Keys.revoke
  rw [hdb]

theorem keyMove_of_step (hno : NoCollision sha256 used) {s s' : KeyStore × List KeyEvent}
    {a : KeyAction} {table : ApiKeyTable} (hdb : s.1.db = some table)
    (hmirrors : Mirrors sha256 used table s.2) (hallowed : KeysInOrder used s a)
    (hstep : (keyRuns sha256).step s a = some s') :
    ∃ table', s'.1.db = some table' ∧ KeyMove sha256 used table s.2 a table' s'.2 := by
  obtain ⟨hmove, hnote⟩ := System.observed_step hstep
  cases a with
  | create req input =>
      obtain ⟨hok, hused, hfresh⟩ := hallowed
      obtain ⟨table', hinsert, hrows⟩ := hmirrors.insert hno req hused hfresh
      have hcreate := Keys.create_of_insert hdb hok hinsert
      have hstate : (Keys.create sha256 s.1 req input).1 = s'.1 := Option.some.inj hmove
      rw [hcreate] at hstate
      rw [hnote, noteKeys, hcreate, ← hstate]
      exact ⟨table', rfl, .create hused hrows⟩
  | revoke id now update =>
      obtain rfl : update = .ok := hallowed
      have hrevoke := Keys.revoke_of_db hdb id now
      have hstate : (Keys.revoke s.1 id now .ok).1 = s'.1 := Option.some.inj hmove
      rw [hrevoke] at hstate
      rw [hnote, noteKeys, hrevoke, ← hstate]
      by_cases haffected : table.rowsAffected id = 0
      · rw [if_pos haffected]
        exact ⟨_, rfl, by
          rw [ApiKeyTable.setRevoked_eq_self haffected]
          exact .notFound haffected⟩
      · rw [if_neg haffected]
        exact ⟨_, rfl, .revoke haffected⟩
  | attempt header ok =>
      have hstate : s.1 = s'.1 := Option.some.inj hmove
      rw [hnote, ← hstate]
      exact ⟨table, hdb, .attempt⟩

theorem Mirrors.move {table table' : ApiKeyTable} {history history' : List KeyEvent} {a : KeyAction}
    (h : Mirrors sha256 used table history)
    (hmove : KeyMove sha256 used table history a table' history') :
    Mirrors sha256 used table' history' := by
  cases hmove with
  | create hused hrows => exact h.create hused hrows
  | revoke haffected => exact h.revoke haffected
  | notFound | attempt => exact h

theorem exists_mirrors (hno : NoCollision sha256 used) {s : KeyStore × List KeyEvent}
    (h : (keyRuns sha256).ReachedBy (KeysInOrder used) s) :
    ∃ table, s.1.db = some table ∧ Mirrors sha256 used table s.2 := by
  refine h.invariant (fun s => ∃ table, s.1.db = some table ∧ Mirrors sha256 used table s.2) ?_ ?_
  · rintro s ⟨hdb, hhistory⟩
    rw [hhistory]
    exact ⟨.empty, hdb, mirrors_empty⟩
  · rintro s a s' ⟨table, hdb, hmirrors⟩ hallowed hstep
    obtain ⟨table', hdb', hmove⟩ := keyMove_of_step hno hdb hmirrors hallowed hstep
    exact ⟨table', hdb', hmirrors.move hmove⟩

/-! ## The check -/

theorem extractBearer_bearer (token : String) :
    Auth.extractBearer (some ("Bearer " ++ token)) = some token := by
  have hdrop : ("Bearer ".toList ++ token.toList).dropPrefix? "Bearer ".toList =
      some token.toList := List.dropPrefix?_append_of_beq _ (beq_self_eq_true _)
  show (("Bearer " ++ token).toList.dropPrefix? "Bearer ".toList).map String.ofList = some token
  rw [String.toList_append, hdrop, Option.map_some, String.ofList_toList]

theorem validateFromDb_iff {table : ApiKeyTable} {token : String} {key : Auth.ValidatedKey} :
    Auth.validateFromDb sha256 table token true = .ok (some key) ↔
      ∃ row ∈ table.rows, row.keyHash = Auth.hashKey sha256 token ∧ row.revokedAt = none ∧
        key = ⟨row.id, row.rateLimitRpm.toInt64⟩ := by
  show Except.ok _ = Except.ok (some key) ↔ _
  rw [Except.ok.injEq, Option.map_eq_some_iff]
  constructor
  · rintro ⟨row, hfind, rfl⟩
    have hmatch := List.find?_some hfind
    simp only [decide_eq_true_eq] at hmatch
    exact ⟨row, List.mem_of_find?_eq_some hfind, hmatch.1, hmatch.2, rfl⟩
  · rintro ⟨row, hrow, hhash, hrevoked, rfl⟩
    refine ⟨row, ?_, rfl⟩
    obtain ⟨found, hfound⟩ : ∃ found, table.rows.find?
        (fun r => r.keyHash = Auth.hashKey sha256 token ∧ r.revokedAt = none) = some found := by
      apply Option.isSome_iff_exists.mp
      exact List.find?_isSome.mpr ⟨row, hrow, by simp [hhash, hrevoked]⟩
    have hmatch := List.find?_some hfound
    simp only [decide_eq_true_eq] at hmatch
    rw [hfound, ApiKeyTable.eq_of_keyHash (List.mem_of_find?_eq_some hfound) hrow
      (hmatch.1.trans hhash.symm)]

/-- The rate limiter, if there is one, does not turn the key down. -/
def Passes (limiter : Option (Auth.ValidatedKey → Except Unit Bool)) (key : Auth.ValidatedKey) :
    Prop :=
  ∀ check ∈ limiter, check key ≠ .ok false

/-- What the middleware lets in: a token that the table knows, and that is within its
limit. -/
theorem requireApiKey_next {st : KeyStore} {table : ApiKeyTable} (hdb : st.db = some table)
    {header : Option String} {limiter : Option (Auth.ValidatedKey → Except Unit Bool)}
    {key : Auth.ValidatedKey} :
    Auth.requireApiKey sha256 st header true limiter = .next key ↔
      ∃ token, Auth.extractBearer header = some token ∧
        Auth.validateFromDb sha256 table token true = .ok (some key) ∧ Passes limiter key := by
  unfold Auth.requireApiKey
  cases Auth.extractBearer header with
  | none => simp
  | some token =>
      simp only [hdb, Option.some.injEq, exists_eq_left']
      cases Auth.validateFromDb sha256 table token true with
      | error e => simp
      | ok found =>
          cases found with
          | none => simp
          | some v =>
              cases limiter with
              | none => simp [Passes]
              | some check =>
                  simp only [Except.ok.injEq, Option.some.injEq, Passes, Option.mem_def,
                    forall_eq']
                  cases hcheck : check v with
                  | error e =>
                      constructor
                      · intro h
                        cases h
                        simp [hcheck]
                      · rintro ⟨rfl, -⟩
                        rfl
                  | ok within =>
                      cases within with
                      | true =>
                          constructor
                          · intro h
                            cases h
                            simp [hcheck]
                          · rintro ⟨rfl, -⟩
                            rfl
                      | false =>
                          constructor
                          · intro h
                            cases h
                          · rintro ⟨rfl, hpass⟩
                            exact absurd hcheck hpass

/-! ## The life of a key -/

/-- The keys of a gateway behave as they should after the history so far. -/
structure LifeCycle (sha256 : List UInt8 → List UInt8) (used : String → Prop)
    (s : KeyStore × List KeyEvent) : Prop where
  /-- A new key is returned. -/
  creates : ∀ req input, KeysInOrder used s (.create req input) →
    (Keys.create sha256 s.1 req input).2 =
      .ok ⟨input.keyId, input.rawKey, req.owner, req.rateLimitRpm, input.now⟩
  /-- A token is let in if it is live, with its id and limit, unless it is over the limit. -/
  accepts : ∀ token, used token → ∀ limiter key,
    Auth.requireApiKey sha256 s.1 (some ("Bearer " ++ token)) true limiter = .next key ↔
      (∃ rpm, Live s.2 token key.keyId rpm ∧ key.rateLimitRpm = rpm.toInt64) ∧ Passes limiter key
  /-- `revoked_at` is the time of the revocation. -/
  recorded : ∀ id now, .revoked id now ∈ s.2 ↔
    ∃ table ∈ s.1.db, ∃ row ∈ table.rows, row.id = id ∧ row.revokedAt = some now
  /-- The row of a revoked key never changes again, and no token is let in as that key. -/
  final : ∀ table ∈ s.1.db, ∀ row ∈ table.rows, row.revokedAt ≠ none →
    ∀ s', ((keyRuns sha256).startingAt s).ReachedBy (KeysInOrder used) s' →
      (∃ table' ∈ s'.1.db, row ∈ table'.rows) ∧
        ∀ header limiter key, Auth.requireApiKey sha256 s'.1 header true limiter = .next key →
          key.keyId ≠ row.id
  /-- A live key can be revoked. -/
  revokes : ∀ id now token rpm, Live s.2 token id rpm → (Keys.revoke s.1 id now .ok).2 = .ok 204
  /-- An unknown or revoked id is not found, and nothing changes. -/
  notFound : ∀ id now,
    (∀ token rpm, .issued token id rpm ∉ s.2) ∨ (∃ earlier, .revoked id earlier ∈ s.2) →
    Keys.revoke s.1 id now .ok = (s.1, .error Keys.notFound)

/-- A revoked row stays in the table as it is. -/
theorem KeyMove.keeps {table table' : ApiKeyTable} {history history' : List KeyEvent}
    {a : KeyAction} (hmove : KeyMove sha256 used table history a table' history') {row : ApiKey}
    (hrow : row ∈ table.rows) (hrevoked : row.revokedAt ≠ none) : row ∈ table'.rows := by
  cases hmove with
  | create _ hrows =>
      rw [hrows]
      exact List.mem_append_left _ hrow
  | revoke =>
      apply ApiKeyTable.mem_setRevoked.mpr
      exact .inl ⟨hrow, fun hmatch => hrevoked hmatch.2⟩
  | notFound | attempt => exact hrow

theorem keeps_later (hno : NoCollision sha256 used) {s s' : KeyStore × List KeyEvent}
    (h : (keyRuns sha256).ReachedBy (KeysInOrder used) s)
    (hlater : ((keyRuns sha256).startingAt s).ReachedBy (KeysInOrder used) s') {row : ApiKey}
    (hrow : ∃ table ∈ s.1.db, row ∈ table.rows) (hrevoked : row.revokedAt ≠ none) :
    ∃ table ∈ s'.1.db, row ∈ table.rows := by
  induction hlater with
  | init hs =>
      rw [hs]
      exact hrow
  | step hearlier hallowed hstep ih =>
      obtain ⟨table, hdb, hrow⟩ := ih
      obtain ⟨_, hdb', hmirrors⟩ := exists_mirrors hno (h.continued hearlier)
      obtain rfl : table = _ := Option.some.inj (hdb.symm.trans hdb')
      obtain ⟨table', htable', hmove⟩ := keyMove_of_step hno hdb hmirrors hallowed hstep
      exact ⟨table', htable', hmove.keeps hrow hrevoked⟩

/-- An id can be revoked while its key is live. -/
theorem Mirrors.rowsAffected {table : ApiKeyTable} {history : List KeyEvent}
    (h : Mirrors sha256 used table history) {id : String} :
    table.rowsAffected id = 0 ↔ ∀ token rpm, ¬ Live history token id rpm := by
  rw [ApiKeyTable.rowsAffected_eq_zero]
  constructor
  · intro hnone token rpm hlive
    obtain ⟨row, hrow, hid, -, -, hrevoked⟩ := (h.live id _ rpm).mpr ⟨token, rfl, hlive⟩
    exact hnone row hrow hid hrevoked
  · rintro hlive row hrow rfl hrevoked
    obtain ⟨token, -, hlive'⟩ := (h.live _ _ _).mp ⟨row, hrow, rfl, rfl, rfl, hrevoked⟩
    exact hlive token _ hlive'

theorem Mirrors.rowsAffected_of_revoked {table : ApiKeyTable} {history : List KeyEvent}
    (h : Mirrors sha256 used table history) {id : String} {earlier : Int}
    (hearlier : .revoked id earlier ∈ history) : table.rowsAffected id = 0 := by
  obtain ⟨row, hrow, rfl, hrevoked⟩ := (h.revoked _ _).mp hearlier
  apply ApiKeyTable.rowsAffected_eq_zero.mpr
  intro row' hrow' hid hnone
  rw [ApiKeyTable.eq_of_id hrow' hrow hid, hrevoked] at hnone
  cases hnone

/-- The table knows the live tokens, each with its id and limit, and no other token. -/
theorem Mirrors.validateFromDb_iff {table : ApiKeyTable} {history : List KeyEvent}
    (h : Mirrors sha256 used table history) (hno : NoCollision sha256 used) {token : String}
    (hused : used token) {key : Auth.ValidatedKey} :
    Auth.validateFromDb sha256 table token true = .ok (some key) ↔
      ∃ rpm, Live history token key.keyId rpm ∧ key.rateLimitRpm = rpm.toInt64 := by
  rw [InferPlatform.Gateway.validateFromDb_iff]
  constructor
  · rintro ⟨row, hrow, hhash, hrevoked, rfl⟩
    obtain ⟨token', htoken', hlive⟩ := (h.live _ _ _).mp ⟨row, hrow, rfl, rfl, rfl, hrevoked⟩
    have hsame : token' = token :=
      hno.hashKey_inj (h.tokens _ _ _ hlive.mem) hused (htoken'.trans hhash)
    rw [hsame] at hlive
    exact ⟨row.rateLimitRpm, hlive, rfl⟩
  · rintro ⟨rpm, hlive, hrpm⟩
    obtain ⟨row, hrow, hid, hhash, rfl, hrevoked⟩ :=
      (h.live key.keyId _ rpm).mpr ⟨token, rfl, hlive⟩
    refine ⟨row, hrow, hhash, hrevoked, ?_⟩
    rw [hid, ← hrpm]

/-- **The life of a key**, over any sequence of requests whose statements succeed. -/
theorem lifeCycle (sha256 : List UInt8 → List UInt8) (used : String → Prop)
    (hno : NoCollision sha256 used) (s : KeyStore × List KeyEvent)
    (h : (keyRuns sha256).ReachedBy (KeysInOrder used) s) : LifeCycle sha256 used s := by
  obtain ⟨table, hdb, hmirrors⟩ := exists_mirrors hno h
  refine ⟨?_, ?_, ?_, ?_, ?_, ?_⟩
  · rintro req input ⟨hok, hused, hfresh⟩
    obtain ⟨table', hinsert, -⟩ := hmirrors.insert hno req hused hfresh
    rw [Keys.create_of_insert hdb hok hinsert]
  · intro token hused limiter key
    rw [requireApiKey_next hdb, extractBearer_bearer]
    simp only [Option.some.injEq, exists_eq_left', hmirrors.validateFromDb_iff hno hused]
  · intro id now
    rw [hmirrors.revoked, hdb]
    simp
  · intro table₀ htable₀ row hrow hrevoked s' hlater
    obtain ⟨table', hdb', hrow'⟩ := keeps_later hno h hlater ⟨table₀, htable₀, hrow⟩ hrevoked
    refine ⟨⟨table', hdb', hrow'⟩, ?_⟩
    intro header limiter key hnext hid
    obtain ⟨token, -, hvalid, -⟩ := (requireApiKey_next hdb').mp hnext
    obtain ⟨found, hfound, -, hnone, rfl⟩ := validateFromDb_iff.mp hvalid
    obtain rfl := ApiKeyTable.eq_of_id hfound hrow' hid
    exact hrevoked hnone
  · intro id now token rpm hlive
    rw [Keys.revoke_of_db hdb, if_neg]
    intro hzero
    exact hmirrors.rowsAffected.mp hzero token rpm hlive
  · intro id now hdead
    have hzero : table.rowsAffected id = 0 := by
      rcases hdead with hunknown | ⟨earlier, hearlier⟩
      · apply hmirrors.rowsAffected.mpr
        intro token rpm hlive
        exact hunknown token rpm hlive.mem
      · exact hmirrors.rowsAffected_of_revoked hearlier
    rw [Keys.revoke_of_db hdb, if_pos hzero, ApiKeyTable.setRevoked_eq_self hzero, ← hdb]

end Runs

/-! ## A key that is issued and revoked -/

/-- A token that was issued, and one that was not. -/
def sampleTokens : List String := ["pk_000102030405060708090a0b0c0d0e0f", "pk_guess"]

/-- The SHA-256 digests of the two. -/
def sampleDigest (bytes : List UInt8) : List UInt8 :=
  if bytes = Utf8.encode "pk_000102030405060708090a0b0c0d0e0f".toList then
    [61, 251, 193, 232, 139, 26, 244, 105, 150, 238, 192, 96, 197, 238, 169, 25, 228, 119, 161, 144,
      212, 139, 236, 77, 156, 235, 36, 13, 164, 168, 105, 136]
  else if bytes = Utf8.encode "pk_guess".toList then
    [252, 168, 143, 18, 243, 134, 147, 99, 1, 18, 76, 178, 128, 174, 128, 27, 235, 145, 210, 152,
      118, 35, 177, 215, 98, 227, 179, 82, 23, 228, 134, 65]
  else []

def Keys.sampleInput : Keys.CreateInput :=
  ⟨#v[0, 1, 2, 3, 4, 5, 6, 7, 8, 9, 10, 11, 12, 13, 14, 15], "key-1", 0, .ok⟩

theorem lifeCycle_revoked : ∃ s : KeyStore × List KeyEvent,
    s.2 = [.revoked "key-1" 9,
      .issued "pk_000102030405060708090a0b0c0d0e0f" "key-1" Keys.defaultRpm] ∧
    LifeCycle sampleDigest (· ∈ sampleTokens) s := by
  have hno : NoCollision sampleDigest (· ∈ sampleTokens) := by
    have hall : ∀ token ∈ sampleTokens, ∀ token' ∈ sampleTokens,
        sampleDigest (Utf8.encode token.toList) = sampleDigest (Utf8.encode token'.toList) →
        token = token' := by decide +kernel
    intro token token' hused hused'
    exact hall token hused token' hused'
  have hused : Keys.sampleInput.rawKey ∈ sampleTokens := by decide +kernel
  have hcreate : ((keyRuns sampleDigest).startingAt (⟨some .empty, []⟩, [])).ReachedBy
      (KeysInOrder (· ∈ sampleTokens)) _ :=
    .step (a := .create ⟨"acme", Keys.defaultRpm, none⟩ Keys.sampleInput) (.init rfl)
      ⟨rfl, hused, by simp⟩ rfl
  have hrevoke := System.ReachedBy.step (a := KeyAction.revoke "key-1" 9 .ok) hcreate rfl rfl
  have hinit : (keyRuns sampleDigest).ReachedBy (KeysInOrder (· ∈ sampleTokens))
      (⟨some .empty, []⟩, []) := .init ⟨rfl, rfl⟩
  refine ⟨_, ?_, lifeCycle sampleDigest (· ∈ sampleTokens) hno _ (hinit.continued hrevoke)⟩
  decide +kernel

end InferPlatform.Gateway
