import InferPlatform.Gateway.Clean
import InferPlatform.Gateway.Contacts
import InferPlatform.Gateway.Limits

/-!
# The ways of a chat request

A request is streamed from one node, tried on one candidate after the other, or handed to
the gateway's own Ollama server. Each way posts it in a form of its own and reads the answer
with a reader of its own.

* `Sent.Says` — the model and the messages in what is posted;
* `filtered_streamResponse` — what a stream emits;
* `completions_shielded` — **whichever way a request goes, what is posted is sanitised,
  what is returned is redacted, and it is charged at most once, to its key**;
* `completions_streamed_small` — **a streamed request for a model that no online node can
  hold alone is posted whole to one node that cannot hold it**.
-/

namespace InferPlatform.Gateway

open Agent Checked Planner Wire

/-! ## What is posted -/

/-- The model and the messages of a request that is posted. -/
def Sent.Says (sent : Sent) (model : String) (messages : List ChatMessage) : Prop :=
  match sent with
  | .value body => body.get? "model" = some (.string model) ∧
      body.get? "messages" = some (.array (messages.map ChatMessage.toJson))
  | .chat req => req.model = model ∧ req.messages = messages
  | .shard req => req.model = model ∧ req.messages = messages

theorem get?_ollamaRequest (model : String) (messages : List ChatMessage)
    (options : List (String × Json)) :
    (ollamaRequest model messages options).get? "model" = some (.string model) ∧
      (ollamaRequest model messages options).get? "messages" =
        some (.array (messages.map ChatMessage.toJson)) := by
  simp only [ollamaRequest, Json.ofEntries, Json.get?, SortedMap.lookup_collect]
  by_cases hoptions : options.isEmpty
  · simp [hoptions, List.lookup]
  · simp [hoptions, List.lookup]

/-- What is sent to one candidate. -/
theorem says_execute {answer : ShardPlan → NodeAnswer} {req : ChatCompletionRequest}
    {requestId : String} {plan : ShardPlan} {contact : Contact} {result : Except String Json}
    (h : execute answer req requestId plan = .ok (contact, result)) :
    contact.sent.Says req.model req.messages := by
  unfold execute at h
  split at h
  · unfold singleNodeExecute at h
    cases hcontroller : plan.controller with
    | error panic =>
        rw [hcontroller] at h
        cases h
    | ok node =>
        rw [hcontroller] at h
        cases h
        exact get?_ollamaRequest _ _ _
  · unfold pipelineExecute Agent.pipelineExecute at h
    cases hcontroller : plan.controller with
    | error panic =>
        rw [hcontroller] at h
        cases h
    | ok node =>
        rw [hcontroller] at h
        cases h
        exact ⟨rfl, rfl⟩

theorem says_tryCandidates (answer : ShardPlan → NodeAnswer) (req : ChatCompletionRequest)
    (requestId : String) (plans : List ShardPlan) (lastErr : String) :
    ∀ contact ∈ (tryCandidates answer req requestId lastErr plans).1,
      contact.sent.Says req.model req.messages := by
  induction plans generalizing lastErr with
  | nil => simp [tryCandidates]
  | cons plan rest ih =>
      rw [tryCandidates]
      cases hexecute : execute answer req requestId plan with
      | error panic => simp
      | ok outcome =>
          obtain ⟨contact, result⟩ := outcome
          have hposted := says_execute hexecute
          cases result with
          | ok body => simpa using hposted
          | error e => simpa using ⟨hposted, ih e⟩

/-! ## What is returned -/

variable {u : Unicode}

theorem containsPii_filterPii (hu : u.BracketsPlain) (text : String) :
    containsPii u (filterPii u text).toList = false := by
  rw [filterPii, String.toList_ofList]
  exact containsPii_eq_false_iff.mpr (not_occurs_redact hu (fun _ h => h) _)

/-- The texts of an event. -/
def SseData.texts : SseData → List String
  | .chunk c => c.choices.filterMap (·.delta.content)
  | .done => []

/-- The texts of an answer; the text of an error is not one of them. -/
def Response.texts : Response → List String
  | .completion r => r.contents
  | .error _ _ => []
  | .events e => e.events.flatMap SseData.texts

/-- Every text is a redacted one, and a charge is the session's. -/
structure Filtered (s : Session) (e : Emitted) : Prop where
  texts : ∀ text ∈ e.events.flatMap SseData.texts, ∃ raw, text = filterPii s.unicode raw
  charge : ∀ row, e.closed = some (some row) → s.db = true ∧ row.keyId = s.keyId ∧ row.model = s.model

section Stream

variable {s : Session}

theorem filtered_nothing : Filtered s .nothing := ⟨by simp [Emitted.nothing], by rintro row ⟨⟩⟩

theorem Filtered.andThen {e next : Emitted} (h : Filtered s e) (hnext : Filtered s next) :
    Filtered s (e.andThen next) := by
  obtain ⟨events, closed⟩ := e
  cases closed with
  | some usage => exact h
  | none =>
      refine ⟨?_, hnext.charge⟩
      intro text htext
      rw [Emitted.andThen, List.flatMap_append] at htext
      rcases List.mem_append.mp htext with hfirst | hrest
      · exact h.texts text hfirst
      · exact hnext.texts text hrest

theorem filtered_chunkOutcome (chunk : OllamaChunk) : Filtered s (chunkOutcome s chunk) := by
  unfold chunkOutcome
  split
  · refine ⟨by simp [stopEvent, chunkEvent, SseData.texts], ?_⟩
    intro row hrow
    by_cases hdb : s.db = true
    · simp only [if_pos hdb, Option.some.injEq] at hrow
      rw [← hrow]
      exact ⟨hdb, rfl, rfl⟩
    · simp [hdb] at hrow
  · split
    · rename_i msg _
      dsimp only
      split
      · exact filtered_nothing
      · refine ⟨?_, by rintro row ⟨⟩⟩
        intro text htext
        obtain rfl : text = filterPii s.unicode msg.content := by
          simpa [contentEvent, chunkEvent, SseData.texts] using htext
        exact ⟨msg.content, rfl⟩
    · exact filtered_nothing

theorem filtered_streamLines (lines : List (List Char)) : Filtered s (streamLines s lines) := by
  induction lines with
  | nil => exact filtered_nothing
  | cons line lines ih =>
      refine Filtered.andThen ?_ ih
      unfold lineOutcome
      dsimp only
      split
      · exact filtered_nothing
      · split
        · exact filtered_chunkOutcome _
        · exact filtered_nothing

theorem filtered_readLoop (items : List (Except String (List UInt8))) (buf : List Char) :
    Filtered s (readLoop s buf items) := by
  have hdone : Filtered s ⟨[.done], some none⟩ := ⟨by simp [SseData.texts], by rintro row ⟨⟩⟩
  induction items generalizing buf with
  | nil => exact hdone
  | cons item items ih =>
      cases item with
      | error e => exact hdone
      | ok chunk => exact (filtered_streamLines _).andThen (ih _)

/-- **A stream**, whatever the backend sends. -/
theorem filtered_streamResponse {upstream : Upstream} {e : Emitted}
    (h : streamResponse s upstream = .ok e) : Filtered s e := by
  cases upstream with
  | unreachable => cases h
  | status status => cases h
  | body items =>
      cases h
      have hrole : Filtered s ⟨[roleEvent s], none⟩ :=
        ⟨by simp [roleEvent, chunkEvent, SseData.texts], by rintro row ⟨⟩⟩
      exact hrole.andThen (filtered_readLoop _ _)

end Stream

/-! ## Every way -/

/-- What may be seen of a request from outside: what is posted is the sanitised request,
a text that is returned has no match of a pattern, and at most one row is charged, to the
key, for a success. -/
structure Shielded (u : Unicode) (db : Bool) (keyId model : String) (messages : List ChatMessage)
    (c : Completed) : Prop where
  sent : ∀ contact ∈ c.contacted, contact.sent.Says model messages
  returned : ∀ response, c.response = .ok response → ∀ text ∈ response.texts,
    containsPii u text.toList = false
  charged : c.usage.length ≤ 1 ∧ ∀ row ∈ c.usage, db = true ∧ row.keyId = keyId ∧ row.model = model ∧
    ∃ response, c.response = .ok response ∧ response.status = 200

section

variable {Ms : Type} (p : Profile) (state : AppState Ms) (o : Outside) (keyId : String)

theorem shielded_error {messages : List ChatMessage} {model : String} {rrCounter : UInt64}
    {contacted : List Contact} (hsent : ∀ contact ∈ contacted, contact.sent.Says model messages)
    {status : Nat} {body : Json} :
    Shielded u state.db keyId model messages
      ⟨rrCounter, contacted, .ok (.error status body), []⟩ := by
  refine ⟨hsent, ?_, Nat.zero_le _, by simp⟩
  rintro response ⟨⟩ text htext
  cases htext

theorem shielded_panic {messages : List ChatMessage} {model : String} {rrCounter : UInt64}
    {contacted : List Contact} (hsent : ∀ contact ∈ contacted, contact.sent.Says model messages)
    {panic : Panic} :
    Shielded u state.db keyId model messages ⟨rrCounter, contacted, .error panic, []⟩ := by
  refine ⟨hsent, ?_, Nat.zero_le _, by simp⟩
  rintro response ⟨⟩

theorem shielded_complete (hu : u.BracketsPlain) {messages : List ChatMessage} {model : String}
    {rrCounter : UInt64} {contacted : List Contact}
    (hsent : ∀ contact ∈ contacted, contact.sent.Says model messages) (body : Json) :
    Shielded u state.db keyId model messages
      (complete u p state o keyId rrCounter contacted body model) := by
  unfold complete
  cases hbuild : buildOpenaiResponse u p o.created body model o.requestId with
  | error panic => exact shielded_panic state keyId hsent
  | ok r =>
      refine ⟨hsent, ?_, ?_, ?_⟩
      · rintro response ⟨⟩ text htext
        rw [Response.texts, buildOpenaiResponse_contents hbuild] at htext
        rw [List.mem_singleton.mp htext]
        exact containsPii_filterPii hu _
      · dsimp only
        split <;> simp
      · intro row hrow
        dsimp only at hrow
        split at hrow
        · rename_i hdb
          rw [List.mem_singleton.mp hrow]
          exact ⟨hdb, rfl, rfl, _, rfl, rfl⟩
        · cases hrow

theorem shielded_nonStreamResponse (hu : u.BracketsPlain) (rrCounter : UInt64)
    (req : ChatCompletionRequest) :
    Shielded u state.db keyId req.model req.messages
      (nonStreamResponse u p state o keyId rrCounter req) := by
  have hsent : ∀ contact ∈ [(⟨none, s!"{state.ollamaUrl}/api/chat",
      .chat (ollamaChat req false)⟩ : Contact)], contact.sent.Says req.model req.messages := by
    intro contact hcontact
    rw [List.mem_singleton.mp hcontact]
    exact ⟨rfl, rfl⟩
  unfold nonStreamResponse
  cases o.own with
  | unreachable | status | malformed => exact shielded_error state keyId hsent
  | ok body => exact shielded_complete p state o keyId hu hsent body

theorem shielded_streamCompletion (hu : u.BracketsPlain) (parse : List Char → Option Json)
    (rrCounter : UInt64) (candidates : List ShardPlan) (req : ChatCompletionRequest) :
    Shielded u state.db keyId req.model req.messages
      (streamCompletion u state o keyId parse rrCounter candidates req) := by
  unfold streamCompletion
  cases candidates.head?.mapM ShardPlan.controller with
  | error panic => exact shielded_panic state keyId (by simp)
  | ok node =>
      dsimp only
      have hsent : ∀ contact ∈ [(⟨node,
          s!"{(node.map ShardAssignment.ollamaBaseUrl).getD state.ollamaUrl}/api/chat",
          .chat (ollamaChat req true)⟩ : Contact)], contact.sent.Says req.model req.messages := by
        intro contact hcontact
        rw [List.mem_singleton.mp hcontact]
        exact ⟨rfl, rfl⟩
      split
      · exact shielded_error state keyId hsent
      · rename_i e hstream
        have hfiltered := filtered_streamResponse hstream
        refine ⟨hsent, ?_, ?_, ?_⟩
        · rintro response ⟨⟩ text htext
          obtain ⟨raw, rfl⟩ := hfiltered.texts text htext
          exact containsPii_filterPii hu raw
        · exact Option.length_toList_le
        · intro row hrow
          have hclosed : e.closed = some (some row) := by
            simpa [Option.bind_eq_some_iff] using hrow
          obtain ⟨hdb, hkey, hmodel⟩ := hfiltered.charge row hclosed
          exact ⟨hdb, hkey, hmodel, _, rfl, rfl⟩

variable [LinearOrder Ms] (maxMs : Ms) (parse : List Char → Option Json)

theorem shielded_completions (hu : u.BracketsPlain) {req req' : ChatCompletionRequest}
    (hreq : sanitizeRequest req = .ok req') :
    Shielded u state.db keyId req'.model req'.messages
      (completions u p maxMs state o keyId parse req) := by
  rw [completions, hreq]
  dsimp only
  generalize buildCandidates p maxMs state.rrCounter req'.model state.nodes state.nodeStats = built
  obtain ⟨planned, rrCounter⟩ := built
  cases planned with
  | error panic => exact shielded_panic state keyId (by simp)
  | ok candidates =>
      dsimp only
      split
      · exact shielded_streamCompletion state o keyId hu parse rrCounter candidates req'
      · split
        · exact shielded_nonStreamResponse p state o keyId hu rrCounter req'
        · rename_i hsome
          have hsent : ∀ contact ∈ (executeWithFailover o.answer req' o.requestId candidates).1,
              contact.sent.Says req'.model req'.messages := by
            rw [executeWithFailover, if_neg hsome]
            exact says_tryCandidates _ _ _ _ _
          generalize executeWithFailover o.answer req' o.requestId candidates = tried at hsent
          obtain ⟨contacted, panic | e | body⟩ := tried
          · exact shielded_panic state keyId hsent
          · exact shielded_error state keyId hsent
          · exact shielded_complete p state o keyId hu hsent body

/-- **No way around the sanitiser and the filter.** For every request, whatever the nodes
answer: one that is refused is answered at once, and leaves no trace; of any other, every
post says the stripped messages and nothing else, no text that comes back has a match of a
pattern, and the charge is at most one row of its key. -/
theorem completions_shielded (hu : u.BracketsPlain) (req : ChatCompletionRequest) :
    let c := completions u p maxMs state o keyId parse req
    Shielded u state.db keyId req.model (req.messages.map stripMessage) c ∧
      (c.contacted ≠ [] → ∀ msg ∈ req.messages.map stripMessage, PassesLimit msg ∧
        ∀ d ∈ msg.content.toList, isKept d = true) ∧
      ∀ e, sanitizeRequest req = .error e →
        c = ⟨state.rrCounter, [], .ok (errorResponse 422 e.text), []⟩ := by
  intro c
  cases hreq : sanitizeRequest req with
  | error e =>
      have hc : c = ⟨state.rrCounter, [], .ok (errorResponse 422 e.text), []⟩ := by
        show completions u p maxMs state o keyId parse req = _
        rw [completions, hreq]
      refine ⟨?_, ?_, ?_⟩
      · rw [hc]
        exact shielded_error state keyId (by simp)
      · intro hne
        rw [hc] at hne
        exact absurd rfl hne
      · rintro e' ⟨⟩
        exact hc
  | ok req' =>
      obtain ⟨-, hall, hreq'⟩ := sanitizeRequest_eq_ok_iff.mp hreq
      refine ⟨?_, ?_, by rintro e ⟨⟩⟩
      · have hshielded := shielded_completions p state o keyId maxMs parse hu hreq
        rw [hreq'] at hshielded
        exact hshielded
      · intro _ msg hmsg
        obtain ⟨old, hold, rfl⟩ := List.mem_map.mp hmsg
        refine ⟨passes_stripMessage.mpr (hall old hold), ?_⟩
        intro d hd
        rw [stripMessage, toList_strip] at hd
        exact (List.mem_filter.mp hd).2

/-! ## Streaming without a node for the model -/

/-- Where a request is posted, with the plan that there is for it: to the gateway's own Ollama
server, or to the node that the plan is controlled from. -/
structure PostedWhole (state : AppState Ms) (req : ChatCompletionRequest)
    (planned : Option ShardPlan) (contact : Contact) : Prop where
  sent : contact.sent = .chat (ollamaChat req true)
  own : planned = none → contact.Own state
  controller : ∀ plan, planned = some plan → ∃ a, plan.controller = .ok a ∧
    contact.node = some a ∧ contact.url = s!"{a.ollamaBaseUrl}/api/chat" ∧
    ∃ n ∈ state.nodes, n.status = .online ∧ n.vramMb.toNat < (requestSpec req.model).neededMb ∧
      Copies a n.capacity

/-- **Streaming ignores the plan.** Where no online node can hold the model alone, a
streamed request is posted once and whole: without a plan to the gateway's own Ollama server,
and else to the controller of the plan, an online node without room for the model. -/
theorem completions_streamed_small {req req' : ChatCompletionRequest}
    (hreq : sanitizeRequest req = .ok req') (hstream : req.stream = true)
    (hsum : (state.nodes.map (·.vramMb.toNat)).sum < 2 ^ 64)
    (hnone : soloNodes req.model state.nodes = []) :
    ∃ planned, buildPlan p maxMs req.model state.nodes state.nodeStats = .ok planned ∧
      ∃ contact, (completions u p maxMs state o keyId parse req).contacted = [contact] ∧
        PostedWhole state req' planned contact := by
  have hframe := sanitizeRequest_ok hreq
  have hmodel : req'.model = req.model := by rw [hframe]
  have hstream' : req'.stream = true := by
    rw [hframe]
    exact hstream
  obtain ⟨plans, hfallback, hplans⟩ := fallback_cases p maxMs state.nodeStats hsum hnone
  have hcompletions : completions u p maxMs state o keyId parse req =
      streamCompletion u state o keyId parse state.rrCounter plans req' := by
    rw [completions, hreq]
    dsimp only
    rw [hmodel, buildCandidates_eq, if_pos hnone, hfallback]
    dsimp only
    rw [if_pos hstream']
  rw [hcompletions]
  obtain ⟨planned, hplanned, rfl⟩ := fallback_eq_ok hfallback
  refine ⟨planned, hplanned, ?_⟩
  cases planned with
  | none =>
      refine ⟨_, streamCompletion_of_node u state o keyId parse rfl, rfl, fun _ => ⟨rfl, rfl⟩, ?_⟩
      rintro plan ⟨⟩
  | some plan =>
      obtain ⟨hsplit, chosen, hchosen, hcopies⟩ : 2 ≤ plan.assignments.length ∧
          OnDistinctNodes (state.nodes.filter fun n => n.status = .online) plan.assignments := by
        rcases hplans with hnil | ⟨plan', hplan', hsplit⟩
        · cases hnil
        · obtain rfl := List.singleton_inj.mp hplan'
          exact hsplit
      -- the controller is the first assignment of a plan over several nodes
      obtain ⟨model, totalLayers, assignments⟩ := plan
      cases hcopies with
      | nil => exact absurd hsplit (by show ¬ 2 ≤ 0; omega)
      | @cons a n rest chosen hcopy _ =>
          refine ⟨_, streamCompletion_of_node u state o keyId parse rfl, rfl, ?_, ?_⟩
          · rintro ⟨⟩
          rintro plan ⟨⟩
          have hmem := hchosen.subset List.mem_cons_self
          obtain ⟨hn, honline⟩ := List.mem_filter.mp hmem
          have honline := of_decide_eq_true honline
          refine ⟨a, rfl, rfl, rfl, n, hn, honline, ?_, hcopy⟩
          rw [hmodel]
          by_contra hroom
          have hsolo : n ∈ soloNodes req.model state.nodes :=
            mem_soloNodes.mpr ⟨hn, honline, Nat.le_of_not_lt hroom⟩
          rw [hnone] at hsolo
          cases hsolo

end

/-! ## One request on each way -/

/-- Nodes that answer with an e-mail address, and a backend that does not stream. -/
def leakyOutside : Outside where
  answer _ := .ok (.object [("message", .object [("content", .string "Ask user@example.com")])])
  own := .unreachable
  upstream _ := .unreachable
  requestId := "1"
  completionId := "1"
  created := 0

theorem completions_shielded_email :
    let state : AppState Nat := ⟨[gpu "gpu0" 24576], [], 0, "http://localhost:11434", true⟩
    let c := completions .ascii .release f64Max state leakyOutside "key-1" readPlain
      (userRequest "Who\x00?")
    (∃ response, c.response = .ok response ∧ response.texts = ["Ask [EMAIL REDACTED]"]) ∧
      Shielded .ascii true "key-1" "llama3.2:3b" [⟨"user", "Who?"⟩] c := by
  intro state c
  refine ⟨⟨_, rfl, by decide +kernel⟩, ?_⟩
  exact (completions_shielded .release state leakyOutside "key-1" f64Max readPlain bracketsPlain_ascii
    (userRequest "Who\x00?")).1

/-- A streamed request for a model that takes two such nodes. -/
def streamedGreeting : ChatCompletionRequest :=
  { greeting with model := "llama3.1:70b", stream := true }

theorem completions_streamed_small_two_gpus :
    let state : AppState Nat :=
      ⟨[gpu "gpu0" 24576, gpu "gpu1" 24576], [], 0, "http://localhost:11434", true⟩
    ∃ plan contact, buildPlan .release f64Max streamedGreeting.model state.nodes [] =
        .ok (some plan) ∧
      plan.assignments.map (·.nodeId) = ["gpu0", "gpu1"] ∧
      (completions .ascii .release f64Max state leakyOutside "key-1" readPlain
        streamedGreeting).contacted = [contact] ∧
      PostedWhole state streamedGreeting (some plan) contact ∧
      contact.node.map (·.nodeId) = some "gpu0" := by
  intro state
  have hreq : sanitizeRequest streamedGreeting = .ok streamedGreeting := rfl
  obtain ⟨planned, hplanned, contact, hcontacted, hposted⟩ := completions_streamed_small .release
    state leakyOutside "key-1" f64Max readPlain hreq rfl (by decide) (by decide)
  have hnodes : (buildPlan .release f64Max streamedGreeting.model state.nodes []).map
      (·.map fun plan => plan.assignments.map (·.nodeId)) = .ok (some ["gpu0", "gpu1"]) := by
    decide +kernel
  rw [show buildPlan .release f64Max streamedGreeting.model state.nodes [] = _ from hplanned]
    at hnodes
  cases planned with
  | none => cases hnodes
  | some plan =>
      have hids : plan.assignments.map (·.nodeId) = ["gpu0", "gpu1"] :=
        Option.some.inj (Except.ok.inj hnodes)
      refine ⟨plan, contact, hplanned, hids, hcontacted, hposted, ?_⟩
      have hfirst : ((completions .ascii .release f64Max state leakyOutside "key-1" readPlain
          streamedGreeting).contacted.map fun c => c.node.map (·.nodeId)) = [some "gpu0"] := by
        decide +kernel
      rw [hcontacted] at hfirst
      simpa using hfirst

end InferPlatform.Gateway
