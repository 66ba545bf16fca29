import InferPlatform.Agent.Shard

/-!
# The answer of a pipeline on its way back

An agent serialises its answer with the Ollama body flattened into it: the
entries of the body follow the two fields of the envelope, in one object. The
agent before it decodes that object again, and so on up to the gateway, which
reads a plain JSON value.

* `encodeResponse`, `decodeResponse` — the wire form of `ShardForwardResponse`;
* `relayReply`, `serve`, `passBack` — one way back over any number of agents;
* `responseRoundTrips_iff` — **an answer survives the way back exactly when the
  body has no key of the envelope**.
-/

namespace InferPlatform.Agent

open SortedMap

/-! ## The wire form -/

/-- What a value that cannot be flattened is called in the error text. -/
def unsupported : Json → String
  | .bool _ => "a boolean"
  | .number (.float _) => "a float"
  | .number _ => "an integer"
  | .string _ => "a string"
  | .array _ => "a sequence"
  | .null | .object _ => ""

/-- The entries that a flattened value adds to the object around it. -/
def flattenEntries : Json → Except String (List (String × Json))
  | .object entries => .ok entries
  | .null => .ok []
  | value => .error s!"can only flatten structs and maps (got {unsupported value})"

/-- `ShardForwardResponse` as it is serialised: the named fields, then the
entries of the body, with no check for repeated keys. -/
def encodeResponse (r : ShardForwardResponse) : Except String (List (String × Json)) := do
  let body ← flattenEntries r.ollamaBody
  -- the body may bring keys of the envelope with it
  return [("request_id", .string r.requestId), ("model", .string r.model)] ++ body

inductive DecodeError
  | duplicateField (name : String)
  | missingField (name : String)
  | invalidType (name : String)
  | notAnObject
  deriving DecidableEq, Repr

/-- The fields of a response read so far; `rest` collects the unknown entries. -/
structure PartialResponse where
  requestId : Option String := none
  model : Option String := none
  rest : List (String × Json) := []

/-- Read a named field: a second occurrence is refused before its value is
looked at. -/
def readField (name : String) (seen : Option String) (value : Json) :
    Except DecodeError String :=
  if seen.isSome then .error (.duplicateField name)
  else match value with
    | .string s => .ok s
    | _ => .error (.invalidType name)

def acceptEntry (p : PartialResponse) (entry : String × Json) :
    Except DecodeError PartialResponse :=
  if entry.1 = "request_id" then do
    let requestId ← readField "request_id" p.requestId entry.2
    return { p with requestId := some requestId }
  else if entry.1 = "model" then do
    let model ← readField "model" p.model entry.2
    return { p with model := some model }
  else .ok { p with rest := p.rest ++ [entry] }

/-- The end of the object: both named fields must have occurred, and the
unknown entries become the body. -/
def finishResponse (p : PartialResponse) : Except DecodeError ShardForwardResponse :=
  match p.requestId, p.model with
  | none, _ => .error (.missingField "request_id")
  | some _, none => .error (.missingField "model")
  | some requestId, some model => .ok ⟨requestId, model, .ofEntries p.rest⟩

def decodeResponse (entries : List (String × Json)) :
    Except DecodeError ShardForwardResponse := do
  let p ← entries.foldlM acceptEntry {}
  finishResponse p

/-! ## The way back -/

/-- What comes back from a posted request: no answer, or a status with its
reason and a body, which is an object or other text. -/
inductive HttpReply
  | unreachable (error : String)
  | answered (status : Nat) (reason : String) (body : Except String (List (String × Json)))

/-- The HTTP answer an agent's result is turned into. -/
def serve : ForwardResult → HttpReply
  | .error e =>
    .answered e.status "Bad Gateway" (match e.body with
      | .object entries => .ok entries
      | _ => .error "")
  | .ok r =>
    match encodeResponse r with
    | .ok entries => .answered 200 "OK" (.ok entries)
    | .error e => .answered 500 "Internal Server Error" (.error e)

def decodeBody : Except String (List (String × Json)) → Except DecodeError ShardForwardResponse
  | .ok entries => decodeResponse entries
  | .error _ => .error .notAnObject

section WayBack

-- the HTTP client's text for a body that does not decode
variable (describe : DecodeError → String)

/-- `forward`, after its outgoing call. -/
def relayReply : HttpReply → ForwardResult
  | .unreachable e => .error (badGateway s!"next shard unreachable: {e}")
  | .answered status reason body =>
    if 200 ≤ status ∧ status < 300 then
      match decodeBody body with
      | .ok finalBody => .ok finalBody
      | .error e => .error (badGateway s!"failed to parse next shard response: {describe e}")
    else .error (badGateway s!"next shard returned {status} {reason}")

/-- A result after it went back over `hops` agents. -/
def passBack : Nat → ForwardResult → ForwardResult
  | 0, result => result
  | hops + 1, result => passBack hops (relayReply describe (serve result))

/-- The answer that reaches the gateway over `hops` agents is a success whose
members include every member of the body. -/
def ReachesGateway (hops : Nat) (r : ShardForwardResponse) : Prop :=
  ∃ entries, serve (passBack describe hops (.ok r)) = .answered 200 "OK" (.ok entries) ∧
    ∀ key value, r.ollamaBody.get? key = some value →
      (Json.ofEntries entries).get? key = some value

/-- The previous agent decodes what was sent, and any number of agents hand the
body on to the gateway. -/
structure RoundTrips (r : ShardForwardResponse) : Prop where
  decodes : ∃ entries, encodeResponse r = .ok entries ∧ decodeResponse entries = .ok r
  passedBack : ∀ hops, ReachesGateway describe hops r

end WayBack

/-! ## Decoding -/

/-- The keys of the envelope. -/
def IsEnvelopeKey (key : String) : Prop := key = "request_id" ∨ key = "model"

theorem readField_of_seen (name : String) {seen : Option String} (value : Json)
    (h : seen.isSome) : readField name seen value = .error (.duplicateField name) :=
  if_pos h

theorem acceptEntry_of_unknown (p : PartialResponse) {entry : String × Json}
    (h : ¬ IsEnvelopeKey entry.1) :
    acceptEntry p entry = .ok { p with rest := p.rest ++ [entry] } := by
  obtain ⟨hid, hmodel⟩ := not_or.mp h
  rw [acceptEntry, if_neg hid, if_neg hmodel]

/-- Once both fields were read, an envelope key is refused. -/
theorem acceptEntry_of_repeated {p : PartialResponse} {entry : String × Json}
    (hp : p.requestId.isSome ∧ p.model.isSome) (h : IsEnvelopeKey entry.1) :
    acceptEntry p entry = .error (.duplicateField entry.1) := by
  obtain ⟨hid, hmodel⟩ := hp
  unfold acceptEntry
  rcases h with h | h
  · rw [if_pos h, readField_of_seen _ _ hid, h]
    rfl
  · rw [if_neg (by simp [h]), if_pos h, readField_of_seen _ _ hmodel, h]
    rfl

/-- Unknown entries are collected in their order. -/
theorem foldlM_acceptEntry_of_unknown {entries : List (String × Json)} (p : PartialResponse)
    (h : ∀ entry ∈ entries, ¬ IsEnvelopeKey entry.1) :
    entries.foldlM acceptEntry p = .ok { p with rest := p.rest ++ entries } := by
  induction entries generalizing p with
  | nil => simp [pure, Except.pure]
  | cons entry entries ih =>
      rw [List.foldlM_cons, acceptEntry_of_unknown p (h entry List.mem_cons_self)]
      show entries.foldlM acceptEntry _ = _
      rw [ih _ fun e he => h e (List.mem_cons_of_mem _ he)]
      simp

/-- One envelope key among the entries after the envelope and the decoder gives
up. -/
theorem foldlM_acceptEntry_of_repeated {entries : List (String × Json)} {p : PartialResponse}
    (hp : p.requestId.isSome ∧ p.model.isSome)
    (h : ∃ entry ∈ entries, IsEnvelopeKey entry.1) :
    ∃ e, entries.foldlM acceptEntry p = .error e := by
  induction entries generalizing p with
  | nil =>
      obtain ⟨_, hmem, _⟩ := h
      cases hmem
  | cons entry entries ih =>
      rw [List.foldlM_cons]
      by_cases hkey : IsEnvelopeKey entry.1
      · rw [acceptEntry_of_repeated hp hkey]
        exact ⟨_, rfl⟩
      · rw [acceptEntry_of_unknown p hkey]
        obtain ⟨e, hmem, he⟩ := h
        rcases List.mem_cons.mp hmem with rfl | hmem
        · exact absurd he hkey
        · exact ih (p := { p with rest := p.rest ++ [entry] }) hp ⟨e, hmem, he⟩

/-- The decoder's state after the envelope. -/
theorem decodeResponse_envelope (requestId model : String) (body : List (String × Json)) :
    decodeResponse ([("request_id", .string requestId), ("model", .string model)] ++ body) =
      (body.foldlM acceptEntry ⟨some requestId, some model, []⟩).bind finishResponse := rfl

theorem encodeResponse_map (requestId model : String) (m : JsonMap) :
    encodeResponse ⟨requestId, model, m.toJson⟩ =
      .ok ([("request_id", .string requestId), ("model", .string model)] ++ m.entries) := rfl

/-- The body has no key of the envelope. -/
def AvoidsEnvelope (m : JsonMap) : Prop := ∀ entry ∈ m.entries, ¬ IsEnvelopeKey entry.1

theorem decodeResponse_of_avoids {m : JsonMap} (requestId model : String)
    (h : AvoidsEnvelope m) :
    decodeResponse ([("request_id", .string requestId), ("model", .string model)] ++ m.entries) =
      .ok ⟨requestId, model, m.toJson⟩ := by
  rw [decodeResponse_envelope, foldlM_acceptEntry_of_unknown _ h, ← m.ofEntries_entries]
  rfl

theorem decodeResponse_of_collides {m : JsonMap} (requestId model : String)
    (h : ¬ AvoidsEnvelope m) :
    ∃ e, decodeResponse
      ([("request_id", .string requestId), ("model", .string model)] ++ m.entries) = .error e := by
  have hkey : ∃ entry ∈ m.entries, IsEnvelopeKey entry.1 := by
    simpa [AvoidsEnvelope] using h
  obtain ⟨e, he⟩ := foldlM_acceptEntry_of_repeated
    (p := ⟨some requestId, some model, []⟩) ⟨rfl, rfl⟩ hkey
  refine ⟨e, ?_⟩
  rw [decodeResponse_envelope, he]
  rfl

/-! ## Any number of hops -/

theorem passBack_ok_of_avoids (describe : DecodeError → String) {m : JsonMap}
    (requestId model : String) (h : AvoidsEnvelope m) (hops : Nat) :
    passBack describe hops (.ok ⟨requestId, model, m.toJson⟩) =
      .ok ⟨requestId, model, m.toJson⟩ := by
  induction hops with
  | zero => rfl
  | succ hops ih =>
      have hop : relayReply describe (serve (.ok ⟨requestId, model, m.toJson⟩)) =
          .ok ⟨requestId, model, m.toJson⟩ := by
        simp only [serve, encodeResponse_map, relayReply, decodeBody,
          decodeResponse_of_avoids requestId model h]
        rfl
      rw [passBack, hop, ih]

/-- A failure stays a failure on its way back. -/
theorem passBack_error (describe : DecodeError → String) (error : String) (hops : Nat) :
    ∃ error', passBack describe hops (.error (badGateway error)) = .error (badGateway error') := by
  induction hops generalizing error with
  | zero => exact ⟨error, rfl⟩
  | succ hops ih => exact ih _

/-- The gateway keeps the last of several members with one key, and the body is
sent after the envelope. -/
theorem get?_ofEntries_append (m : JsonMap) (envelope : List (String × Json)) {key : String}
    {value : Json} (h : m.get? key = some value) :
    (Json.ofEntries (envelope ++ m.entries)).get? key = some value := by
  have hcollect : (collect m.entries).lookup key = some value := by
    rw [collect_sorted m.sorted]
    exact h
  rw [lookup_collect] at hcollect
  show (collect (envelope ++ m.entries)).lookup key = some value
  rw [lookup_collect, List.reverse_append, List.lookup_append, hcollect]
  rfl

/-- **The way back is lossless exactly for bodies that do not use the
envelope's keys**: with a `model` or `request_id` of its own, a body is refused
by the first agent it passes. -/
theorem responseRoundTrips_iff (describe : DecodeError → String) (requestId model : String)
    (m : JsonMap) :
    RoundTrips describe ⟨requestId, model, m.toJson⟩ ↔ AvoidsEnvelope m := by
  constructor
  · intro h
    by_contra hcollides
    obtain ⟨entries, hencode, hdecode⟩ := h.decodes
    obtain ⟨e, he⟩ := decodeResponse_of_collides requestId model hcollides
    rw [encodeResponse_map] at hencode
    injection hencode with hentries
    rw [← hentries, he] at hdecode
    cases hdecode
  · intro h
    refine ⟨⟨_, encodeResponse_map requestId model m, decodeResponse_of_avoids requestId model h⟩,
      fun hops => ?_⟩
    refine ⟨_, by rw [passBack_ok_of_avoids describe requestId model h]; rfl, ?_⟩
    intro key value hvalue
    exact get?_ofEntries_append m _ hvalue

/-- An answer of Ollama's chat endpoint: like every such answer, it names its
model. -/
def chatAnswer : ShardForwardResponse :=
  { requestId := "req-1"
    model := "llama3.2:3b"
    ollamaBody := .object [("done", .bool true),
      ("message", .object [("content", .string "Hello"), ("role", .string "assistant")]),
      ("model", .string "llama3.2:3b")] }

theorem chatAnswer_refused :
    (∃ entries, encodeResponse chatAnswer = .ok entries ∧
      decodeResponse entries = .error (.duplicateField "model")) ∧
    ∀ describe, ¬ RoundTrips describe chatAnswer := by
  refine ⟨⟨_, rfl, rfl⟩, fun describe h => ?_⟩
  obtain ⟨entries, hencode, hdecode⟩ := h.decodes
  cases hencode
  cases hdecode

end InferPlatform.Agent
