import InferPlatform.Gateway.ApiKeys
import Mathlib.Data.List.Sort

/-!
# The key list

The list of API keys is read from the same table that the middleware checks tokens
against. It shows neither tokens nor their hashes, so what it says of a key can only be
compared with what the middleware does with the token that `create` returned.

* `Keys.list` — the handler;
* `list_shows` — **the list shows every key ever issued, newest first, and shows a key
  as not revoked exactly where its token is let in**.
-/

namespace InferPlatform.Gateway

namespace Keys

structure KeyListItem where
  id : String
  owner : String
  rateLimitRpm : Int32
  createdAt : Int
  revokedAt : Option Int
  deriving DecidableEq, Repr

structure KeyList where
  object : String
  data : List KeyListItem
  total : Nat
  deriving DecidableEq, Repr

def KeyListItem.ofRow (r : ApiKey) : KeyListItem :=
  ⟨r.id, r.owner, r.rateLimitRpm, r.createdAt, r.revokedAt⟩

/-- `GET /v1/internal/keys`; `ok` says whether its query succeeds. -/
def list (st : KeyStore) (ok : Bool) : Except ApiError KeyList :=
  match st.db with
  | none => .error noDatabase
  | some table =>
    if ok then
      -- `ORDER BY created_at DESC`
      let keys := (table.rows.insertionSort fun a b => b.createdAt ≤ a.createdAt).map .ofRow
      .ok ⟨"list", keys, keys.length⟩
    else .error (internalError "failed to list keys")

end Keys

section

variable {sha256 : List UInt8 → List UInt8} {used : String → Prop}

/-! ## The table and the issued tokens -/

/-- Every row is of a token that was issued with its id and limit, and the other way
round. -/
structure Ledger (sha256 : List UInt8 → List UInt8) (table : ApiKeyTable)
    (history : List KeyEvent) : Prop where
  issued : ∀ row ∈ table.rows, ∃ token, .issued token row.id row.rateLimitRpm ∈ history ∧
    Auth.hashKey sha256 token = row.keyHash
  rows : ∀ token id rpm, .issued token id rpm ∈ history → ∃ row ∈ table.rows, row.id = id ∧
    row.rateLimitRpm = rpm ∧ row.keyHash = Auth.hashKey sha256 token

theorem Ledger.move {table table' : ApiKeyTable} {history history' : List KeyEvent} {a : KeyAction}
    (h : Ledger sha256 table history)
    (hmove : KeyMove sha256 used table history a table' history') :
    Ledger sha256 table' history' := by
  cases hmove with
  | @create req input _ hused hrows =>
      refine ⟨?_, ?_⟩
      · intro row hrow
        rw [hrows] at hrow
        rcases List.mem_append.mp hrow with hold | hnew
        · obtain ⟨token, htoken, hhash⟩ := h.issued row hold
          exact ⟨token, List.mem_cons_of_mem _ htoken, hhash⟩
        · rw [List.mem_singleton.mp hnew]
          exact ⟨input.rawKey, List.mem_cons_self, rfl⟩
      · intro token id rpm hissued
        rw [hrows]
        rcases List.mem_cons.mp hissued with hnew | hold
        · cases hnew
          exact ⟨_, List.mem_append_right _ List.mem_cons_self, rfl, rfl, rfl⟩
        · obtain ⟨row, hrow, hsame⟩ := h.rows token id rpm hold
          exact ⟨row, List.mem_append_left _ hrow, hsame⟩
  | @revoke id now update haffected =>
      -- only `revoked_at` changes
      have hkeeps : ∀ r : ApiKey,
          (if r.id = id ∧ r.revokedAt = none then { r with revokedAt := some now } else r).id =
              r.id ∧
            (if r.id = id ∧ r.revokedAt = none then { r with revokedAt := some now }
              else r).rateLimitRpm = r.rateLimitRpm ∧
            (if r.id = id ∧ r.revokedAt = none then { r with revokedAt := some now }
              else r).keyHash = r.keyHash := by
        intro r
        split <;> exact ⟨rfl, rfl, rfl⟩
      refine ⟨?_, ?_⟩
      · intro row hrow
        obtain ⟨old, hold, rfl⟩ := List.mem_map.mp hrow
        obtain ⟨token, htoken, hhash⟩ := h.issued old hold
        obtain ⟨hid, hrpm, hkey⟩ := hkeeps old
        rw [hid, hrpm, hkey]
        exact ⟨token, List.mem_cons_of_mem _ htoken, hhash⟩
      · intro token id' rpm hissued
        have hold : .issued token id' rpm ∈ history := by simpa using hissued
        obtain ⟨old, hrow, hid', hrpm', hhash⟩ := h.rows token id' rpm hold
        obtain ⟨hid, hrpm, hkey⟩ := hkeeps old
        exact ⟨_, List.mem_map.mpr ⟨old, hrow, rfl⟩, hid.trans hid', hrpm.trans hrpm',
          hkey.trans hhash⟩
  | notFound | attempt => exact h

theorem exists_ledger (hno : NoCollision sha256 used) {s : KeyStore × List KeyEvent}
    (h : (keyRuns sha256).ReachedBy (KeysInOrder used) s) :
    ∃ table, s.1.db = some table ∧ Mirrors sha256 used table s.2 ∧ Ledger sha256 table s.2 := by
  refine h.invariant
    (fun s => ∃ table, s.1.db = some table ∧ Mirrors sha256 used table s.2 ∧
      Ledger sha256 table s.2) ?_ ?_
  · rintro s ⟨hdb, hhistory⟩
    rw [hhistory]
    refine ⟨.empty, hdb, mirrors_empty, ?_, ?_⟩
    · simp [ApiKeyTable.empty]
    · simp
  · rintro s a s' ⟨table, hdb, hmirrors, hledger⟩ hallowed hstep
    obtain ⟨table', hdb', hmove⟩ := keyMove_of_step hno hdb hmirrors hallowed hstep
    exact ⟨table', hdb', hmirrors.move hmove, hledger.move hmove⟩

/-- The row of a token is not revoked exactly where the token is let in. -/
theorem requireApiKey_iff_live {st : KeyStore} {table : ApiKeyTable} (hdb : st.db = some table)
    {row : ApiKey} (hrow : row ∈ table.rows) {token : String}
    (hhash : Auth.hashKey sha256 token = row.keyHash) :
    Auth.requireApiKey sha256 st (some ("Bearer " ++ token)) true none =
        .next ⟨row.id, row.rateLimitRpm.toInt64⟩ ↔ row.revokedAt = none := by
  rw [requireApiKey_next hdb, extractBearer_bearer]
  constructor
  · rintro ⟨token', htoken', hvalid, -⟩
    obtain rfl := Option.some.inj htoken'
    obtain ⟨found, hfound, -, hnone, hsame⟩ := validateFromDb_iff.mp hvalid
    have hid : row.id = found.id := congrArg Auth.ValidatedKey.keyId hsame
    rw [ApiKeyTable.eq_of_id hrow hfound hid]
    exact hnone
  · intro hnone
    have hvalid := validateFromDb_iff.mpr ⟨row, hrow, hhash.symm, hnone, rfl⟩
    exact ⟨token, rfl, hvalid, by simp [Passes]⟩

/-! ## The list -/

/-- What the list says of the history, and of what the middleware does. -/
structure Shows (sha256 : List UInt8 → List UInt8) (s : KeyStore × List KeyEvent)
    (answer : Keys.KeyList) : Prop where
  total : answer.total = answer.data.length
  newestFirst : answer.data.Pairwise fun a b => b.createdAt ≤ a.createdAt
  ids : (answer.data.map (·.id)).Nodup
  complete : ∀ token id rpm, .issued token id rpm ∈ s.2 →
    ∃ item ∈ answer.data, item.id = id ∧ item.rateLimitRpm = rpm
  active : ∀ item ∈ answer.data, ∃ token, .issued token item.id item.rateLimitRpm ∈ s.2 ∧
    (Auth.requireApiKey sha256 s.1 (some ("Bearer " ++ token)) true none =
      .next ⟨item.id, item.rateLimitRpm.toInt64⟩ ↔ item.revokedAt = none)
  revoked : ∀ item ∈ answer.data, ∀ now, item.revokedAt = some now ↔ .revoked item.id now ∈ s.2

/-- **The list agrees with the middleware**, after any sequence of requests whose
statements succeed. -/
theorem list_shows (sha256 : List UInt8 → List UInt8) (used : String → Prop)
    (hno : NoCollision sha256 used) (s : KeyStore × List KeyEvent)
    (h : (keyRuns sha256).ReachedBy (KeysInOrder used) s) :
    ∃ answer, Keys.list s.1 true = .ok answer ∧ Shows sha256 s answer := by
  obtain ⟨table, hdb, hmirrors, hledger⟩ := exists_ledger hno h
  let newest (a b : ApiKey) : Prop := b.createdAt ≤ a.createdAt
  let sorted := table.rows.insertionSort newest
  have hperm : sorted.Perm table.rows := List.perm_insertionSort newest table.rows
  have htotal : Std.Total newest := ⟨fun a b => le_total b.createdAt a.createdAt⟩
  have htrans : IsTrans ApiKey newest := ⟨fun _ _ _ hab hbc => le_trans hbc hab⟩
  have hsorted : sorted.Pairwise newest := List.pairwise_insertionSort newest table.rows
  refine ⟨⟨"list", sorted.map .ofRow, (sorted.map Keys.KeyListItem.ofRow).length⟩, ?_,
    rfl, ?_, ?_, ?_, ?_, ?_⟩
  · simp only [Keys.list, hdb]
    rfl
  · exact List.pairwise_map.mpr hsorted
  · rw [List.map_map]
    exact (hperm.map _).nodup_iff.mpr table.ids
  · intro token id rpm hissued
    obtain ⟨row, hrow, hid, hrpm, -⟩ := hledger.rows token id rpm hissued
    exact ⟨.ofRow row, List.mem_map.mpr ⟨row, hperm.mem_iff.mpr hrow, rfl⟩, hid, hrpm⟩
  · intro item hitem
    obtain ⟨row, hrow, rfl⟩ := List.mem_map.mp hitem
    have hmem := hperm.mem_iff.mp hrow
    obtain ⟨token, htoken, hhash⟩ := hledger.issued row hmem
    exact ⟨token, htoken, requireApiKey_iff_live hdb hmem hhash⟩
  · intro item hitem now
    obtain ⟨row, hrow, rfl⟩ := List.mem_map.mp hitem
    have hmem := hperm.mem_iff.mp hrow
    show row.revokedAt = some now ↔ .revoked row.id now ∈ s.2
    rw [hmirrors.revoked]
    constructor
    · intro hrevoked
      exact ⟨row, hmem, rfl, hrevoked⟩
    · rintro ⟨found, hfound, hid, hrevoked⟩
      rw [ApiKeyTable.eq_of_id hmem hfound hid.symm]
      exact hrevoked

end

/-! ## Two keys, of which one is revoked -/

def Keys.secondInput : Keys.CreateInput :=
  ⟨#v[16, 17, 18, 19, 20, 21, 22, 23, 24, 25, 26, 27, 28, 29, 30, 31], "key-2", 5, .ok⟩

def twoTokens : List String := ["pk_000102030405060708090a0b0c0d0e0f", "pk_101112131415161718191a1b1c1d1e1f"]

/-- The SHA-256 digests of the two. -/
def twoDigests (bytes : List UInt8) : List UInt8 :=
  if bytes = Utf8.encode "pk_101112131415161718191a1b1c1d1e1f".toList then
    [225, 33, 198, 23, 120, 239, 110, 177, 220, 245, 59, 0, 222, 65, 51, 23, 96, 96, 174, 171, 125,
     16, 189, 232, 114, 60, 93, 61, 49, 51, 166, 120]
  else sampleDigest bytes

theorem list_shows_revoked : ∃ s : KeyStore × List KeyEvent,
    Keys.list s.1 true =
        .ok ⟨"list", [⟨"key-2", "acme", 60, 5, none⟩, ⟨"key-1", "acme", 60, 0, some 9⟩], 2⟩ ∧
      ∃ answer, Keys.list s.1 true = .ok answer ∧ Shows twoDigests s answer := by
  have hno : NoCollision twoDigests (· ∈ twoTokens) := by
    have hall : ∀ token ∈ twoTokens, ∀ token' ∈ twoTokens,
        twoDigests (Utf8.encode token.toList) = twoDigests (Utf8.encode token'.toList) →
        token = token' := by decide +kernel
    intro token token' hused hused'
    exact hall token hused token' hused'
  have hfirst : Keys.sampleInput.rawKey ∈ twoTokens := by decide +kernel
  have hsecond : Keys.secondInput.rawKey ∈ twoTokens := by decide +kernel
  have hstart : (keyRuns twoDigests).ReachedBy (KeysInOrder (· ∈ twoTokens))
      (⟨some .empty, []⟩, []) := .init ⟨rfl, rfl⟩
  have hone := System.ReachedBy.step
    (a := KeyAction.create ⟨"acme", Keys.defaultRpm, none⟩ Keys.sampleInput) hstart
    ⟨rfl, hfirst, by simp⟩ rfl
  have htwo := System.ReachedBy.step
    (a := KeyAction.create ⟨"acme", Keys.defaultRpm, none⟩ Keys.secondInput) hone
    ⟨rfl, hsecond, by
      intro token id rpm hissued
      obtain ⟨rfl, rfl, rfl⟩ := KeyEvent.issued.inj (List.mem_singleton.mp hissued)
      decide +kernel⟩ rfl
  have hrevoke := System.ReachedBy.step (a := KeyAction.revoke "key-1" 9 .ok) htwo rfl rfl
  refine ⟨_, ?_, list_shows twoDigests (· ∈ twoTokens) hno _ hrevoke⟩
  decide +kernel

end InferPlatform.Gateway
