import InferPlatform.Agent.Shard
import InferPlatform.Gateway.Completion
import InferPlatform.Gateway.Coordinator
import InferPlatform.Gateway.Requests
import InferPlatform.Gateway.Stream

/-!
# Completions and failover

The handler of `/v1/chat/completions`: it builds the candidates, then either streams
from the first one or tries them in order until one answers.

* `execute`, `tryCandidates`, `executeWithFailover` — one candidate, and all of them;
* `completions` — the handler;
* `tryCandidates_solo` — which nodes are contacted;
* `completions_failover` — **a request that is not streamed contacts the nodes that can
  hold its model alone in candidate order up to the first success, and is charged
  exactly when there is one** whose token counts can be added.
-/

namespace InferPlatform.Gateway

open Agent Checked Planner Wire

/-! ## One candidate -/

/-- What a node makes of a request: no connection, a status that is no success with
its text, a text that is not JSON, or an answer. -/
inductive NodeAnswer
  | unreachable
  | status (status body : String)
  | malformed
  | ok (body : Json)

structure OllamaOptions where
  numPredict : Option UInt32
  temperature : Option Float32
  topP : Option Float32

structure OllamaChatRequest where
  model : String
  messages : List ChatMessage
  stream : Bool
  options : Option OllamaOptions

/-- What is sent: the coordinator's chat as a JSON value, the chat of the other two
paths as a record, or a request for a pipeline. -/
inductive Sent
  | value (body : Json)
  | chat (req : OllamaChatRequest)
  | shard (req : ShardForwardRequest)

/-- A request that was sent; no node for the gateway's own Ollama server. -/
structure Contact where
  node : Option ShardAssignment
  url : String
  sent : Sent

def buildOptions (req : ChatCompletionRequest) : Option OllamaOptions :=
  if req.maxTokens.isNone && req.temperature.isNone && req.topP.isNone then none
  else some ⟨req.maxTokens, req.temperature, req.topP⟩

def ollamaChat (req : ChatCompletionRequest) (stream : Bool) : OllamaChatRequest :=
  ⟨req.model, req.messages, stream, buildOptions req⟩

def singleNodeExecute (answer : ShardPlan → NodeAnswer) (req : ChatCompletionRequest)
    (plan : ShardPlan) : Except Panic (Contact × Except String Json) := do
  let node ← plan.controller
  let url := s!"{node.ollamaBaseUrl}/api/chat"
  let result := match answer plan with
    | .unreachable => .error s!"failed to reach node {node.nodeId} at {url}"
    | .status status body => .error s!"node {node.nodeId} returned {status}: {body}"
    | .malformed => .error "failed to parse Ollama response"
    | .ok body => .ok body
  let body :=
    ollamaRequest req.model req.messages (ollamaOptions req.temperature req.topP req.maxTokens)
  return (⟨some node, url, .value body⟩, result)

def pipelineExecute (answer : ShardPlan → NodeAnswer) (req : ChatCompletionRequest)
    (requestId : String) (plan : ShardPlan) : Except Panic (Contact × Except String Json) := do
  let controller ← plan.controller
  let (url, sent) ← Agent.pipelineExecute req plan requestId
  let result := match answer plan with
    | .unreachable => .error s!"failed to reach controller {controller.nodeId} at {url}"
    | .status status body => .error s!"controller returned {status}: {body}"
    | .malformed => .error "failed to parse shard response from controller"
    | .ok body => .ok body
  return (⟨some controller, url, .shard sent⟩, result)

def execute (answer : ShardPlan → NodeAnswer) (req : ChatCompletionRequest) (requestId : String)
    (plan : ShardPlan) : Except Panic (Contact × Except String Json) :=
  if plan.isSingleNode then singleNodeExecute answer req plan
  else pipelineExecute answer req requestId plan

/-! ## All candidates -/

/-- The loop over the candidates, with the requests sent; the last error counts. -/
def tryCandidates (answer : ShardPlan → NodeAnswer) (req : ChatCompletionRequest)
    (requestId : String) : String → List ShardPlan → List Contact × Except Panic (Except String Json)
  | lastErr, [] => ([], .ok (.error lastErr))
  | _, plan :: rest =>
    match execute answer req requestId plan with
    | .error panic => ([], .error panic)
    | .ok (contact, .ok body) => ([contact], .ok (.ok body))
    | .ok (contact, .error e) =>
      let (contacted, result) := tryCandidates answer req requestId e rest
      (contact :: contacted, result)

def executeWithFailover (answer : ShardPlan → NodeAnswer) (req : ChatCompletionRequest)
    (requestId : String) (candidates : List ShardPlan) :
    List Contact × Except Panic (Except String Json) :=
  if candidates.isEmpty then
    ([], .ok (.error s!"no inference nodes available for model '{req.model}'"))
  else tryCandidates answer req requestId "all candidates failed" candidates

/-! ## The handler -/

/-- What the handler reads of the gateway's state. -/
structure AppState (Ms : Type) where
  nodes : List NodeInfo
  nodeStats : StatsMap Ms
  rrCounter : UInt64
  ollamaUrl : String
  db : Bool

/-- What comes from outside: the answers of the nodes, of the gateway's own Ollama
server and of a streaming backend, fresh ids and the clock. -/
structure Outside where
  answer : ShardPlan → NodeAnswer
  own : NodeAnswer
  upstream : String → Upstream
  requestId : String
  completionId : String
  created : Int

inductive Response
  | completion (r : ChatCompletionResponse)
  | error (status : Nat) (body : Json)
  | events (e : Emitted)

/-- An answer's status code; events come with 200 however they end. -/
def Response.status : Response → Nat
  | .completion _ | .events _ => 200
  | .error status _ => status

/-- What a request leaves behind: the counter, the requests sent, the answer, and the
calls of `record_usage`. -/
structure Completed where
  rrCounter : UInt64
  contacted : List Contact
  response : Except Panic Response
  usage : List UsageRow

def errorResponse (status : Nat) (message : String) : Response :=
  .error (errorJson status message).1 (errorJson status message).2

section

variable {Ms : Type} [LinearOrder Ms] (u : Unicode) (p : Profile) (maxMs : Ms)
  (state : AppState Ms) (o : Outside) (keyId : String)

/-- An answer from Ollama in OpenAI's format, and its charge. -/
def complete (rrCounter : UInt64) (contacted : List Contact) (body : Json) (model : String) :
    Completed :=
  match buildOpenaiResponse u p o.created body model o.requestId with
  | .error panic => ⟨rrCounter, contacted, .error panic, []⟩
  | .ok r =>
    { rrCounter
      contacted
      response := .ok (.completion r)
      usage :=
        if state.db then
          [⟨keyId, model, r.usage.promptTokens.toInt32, r.usage.completionTokens.toInt32⟩]
        else [] }

/-- `non_stream_response`, which asks the gateway's own Ollama server. -/
def nonStreamResponse (rrCounter : UInt64) (req : ChatCompletionRequest) : Completed :=
  let contact : Contact := ⟨none, s!"{state.ollamaUrl}/api/chat", .chat (ollamaChat req false)⟩
  let failed (message : String) : Completed :=
    ⟨rrCounter, [contact], .ok (errorResponse 502 message), []⟩
  match o.own with
  | .unreachable => failed "inference backend unavailable"
  | .status status _ => failed s!"backend returned {status}"
  | .malformed => failed "invalid response from backend"
  | .ok body => complete u p state o keyId rrCounter [contact] body req.model

/-- The streaming branch: only the first candidate is asked. -/
def streamCompletion (parse : List Char → Option Json) (rrCounter : UInt64)
    (candidates : List ShardPlan) (req : ChatCompletionRequest) : Completed :=
  match candidates.head?.mapM ShardPlan.controller with
  | .error panic => ⟨rrCounter, [], .error panic, []⟩
  | .ok node =>
    let ollamaBase := (node.map ShardAssignment.ollamaBaseUrl).getD state.ollamaUrl
    let url := s!"{ollamaBase}/api/chat"
    let session : Session :=
      { unicode := u
        parse
        completionId := s!"chatcmpl-{o.completionId}"
        created := o.created
        model := req.model
        keyId
        db := state.db }
    let contact : Contact := ⟨node, url, .chat (ollamaChat req true)⟩
    match streamResponse session (o.upstream url) with
    | .error (status, body) => ⟨rrCounter, [contact], .ok (.error status body), []⟩
    | .ok e => ⟨rrCounter, [contact], .ok (.events e), (e.closed.bind id).toList⟩

/-- `completions`, for a request with the given key. -/
def completions (parse : List Char → Option Json) (req : ChatCompletionRequest) : Completed :=
  match sanitizeRequest req with
  | .error e => ⟨state.rrCounter, [], .ok (errorResponse 422 e.text), []⟩
  | .ok req =>
    match buildCandidates p maxMs state.rrCounter req.model state.nodes state.nodeStats with
    | (.error panic, rrCounter) => ⟨rrCounter, [], .error panic, []⟩
    | (.ok candidates, rrCounter) =>
      if req.stream then streamCompletion u state o keyId parse rrCounter candidates req
      -- no nodes registered: the gateway's own Ollama server
      else if candidates.isEmpty then nonStreamResponse u p state o keyId rrCounter req
      else match executeWithFailover o.answer req o.requestId candidates with
        | (contacted, .error panic) => ⟨rrCounter, contacted, .error panic, []⟩
        | (contacted, .ok (.error e)) =>
          ⟨rrCounter, contacted, .ok (errorResponse 502 e), []⟩
        | (contacted, .ok (.ok body)) =>
          complete u p state o keyId rrCounter contacted body req.model

end

/-! ## Which nodes are contacted -/

/-- The node answers a request that has its whole model on it. -/
def Succeeds (answer : ShardPlan → NodeAnswer) (spec : ModelSpec) (n : NodeInfo) : Prop :=
  ∃ body, answer (soloPlan spec n.capacity) = .ok body

/-- The assignment of such a request. -/
def soloContact (spec : ModelSpec) (n : NodeInfo) : Option ShardAssignment :=
  (soloPlan spec n.capacity).assignments.head?

/-- A candidate on one node: its node is contacted, and the answer is the node's, or an
error. -/
theorem execute_solo (answer : ShardPlan → NodeAnswer) (req : ChatCompletionRequest)
    (requestId : String) (spec : ModelSpec) (n : NodeInfo) :
    ∃ contact result,
      execute answer req requestId (soloPlan spec n.capacity) = .ok (contact, result) ∧
      contact.node = soloContact spec n ∧
      ((∃ body, answer (soloPlan spec n.capacity) = .ok body ∧ result = .ok body) ∨
        (¬ Succeeds answer spec n ∧ ∃ e, result = .error e)) := by
  refine ⟨_, _, rfl, rfl, ?_⟩
  unfold Succeeds
  cases answer (soloPlan spec n.capacity) with
  | ok body => exact .inl ⟨body, rfl, rfl⟩
  | unreachable => exact .inr ⟨(fun ⟨_, h⟩ => nomatch h), _, rfl⟩
  | status status body => exact .inr ⟨(fun ⟨_, h⟩ => nomatch h), _, rfl⟩
  | malformed => exact .inr ⟨(fun ⟨_, h⟩ => nomatch h), _, rfl⟩

/-- **The loop over candidates on one node each**: it contacts them in order up to the
first success, and all of them if there is none. Induction on the candidates; the last
error is general because every failure replaces it. -/
theorem tryCandidates_solo (answer : ShardPlan → NodeAnswer) (req : ChatCompletionRequest)
    (requestId : String) (spec : ModelSpec) (order : List NodeInfo) (lastErr : String) :
    ∃ contacted result,
      tryCandidates answer req requestId lastErr (order.map fun n => soloPlan spec n.capacity) =
        (contacted, .ok result) ∧
      ((∃ failed n rest body, order = failed ++ n :: rest ∧
          (∀ m ∈ failed, ¬ Succeeds answer spec m) ∧
          answer (soloPlan spec n.capacity) = .ok body ∧ result = .ok body ∧
          contacted.map (·.node) = (failed ++ [n]).map (soloContact spec)) ∨
        ((∀ m ∈ order, ¬ Succeeds answer spec m) ∧ (∃ e, result = .error e) ∧
          contacted.map (·.node) = order.map (soloContact spec))) := by
  induction order generalizing lastErr with
  | nil => exact ⟨[], _, rfl, .inr ⟨fun m hm => absurd hm List.not_mem_nil, ⟨_, rfl⟩, rfl⟩⟩
  | cons n rest ih =>
      obtain ⟨contact, result, hexecute, hnode, hresult⟩ :=
        execute_solo answer req requestId spec n
      rw [List.map_cons, tryCandidates, hexecute]
      rcases hresult with ⟨body, hanswer, rfl⟩ | ⟨hfails, e, rfl⟩
      · refine ⟨[contact], _, rfl, .inl ⟨[], n, rest, body, rfl, ?_, hanswer, rfl, ?_⟩⟩
        · intro m hm
          cases hm
        · simp [hnode]
      · obtain ⟨contacted, result, hrun, hcases⟩ := ih e
        dsimp only
        rw [hrun]
        refine ⟨contact :: contacted, result, rfl, ?_⟩
        rcases hcases with ⟨failed, m, rest', body, rfl, hfailed, hanswer, hresult, hcontacted⟩ |
          ⟨hfailed, herror, hcontacted⟩
        · left
          refine ⟨n :: failed, m, rest', body, rfl, ?_, hanswer, hresult, ?_⟩
          · exact List.forall_mem_cons.mpr ⟨hfails, hfailed⟩
          · rw [List.map_cons, hnode, hcontacted]
            rfl
        · right
          refine ⟨List.forall_mem_cons.mpr ⟨hfails, hfailed⟩, herror, ?_⟩
          rw [List.map_cons, hnode, hcontacted]
          rfl

/-! ## The handler without streaming -/

variable {Ms : Type}

/-- A build with overflow checks cannot add the token counts of the answer. -/
def TotalOverflows (p : Profile) (body : Json) : Prop :=
  p = .dev ∧
    2 ^ 32 ≤ (tokenCount body "prompt_eval_count").toNat + (tokenCount body "eval_count").toNat

/-- An answer becomes a completion, and is charged once, unless its token counts cannot be
added: then the handler panics, and nothing is charged. -/
theorem complete_cases (u : Unicode) (p : Profile) (state : AppState Ms) (o : Outside)
    (keyId : String) (rrCounter : UInt64) (contacted : List Contact) (body : Json)
    (model : String) :
    (¬ TotalOverflows p body ∧ ∃ r row,
      complete u p state o keyId rrCounter contacted body model =
        ⟨rrCounter, contacted, .ok (.completion r), if state.db then [row] else []⟩) ∨
    (TotalOverflows p body ∧
      complete u p state o keyId rrCounter contacted body model =
        ⟨rrCounter, contacted, .error .overflow, []⟩) := by
  unfold complete buildOpenaiResponse
  dsimp only
  by_cases hover : TotalOverflows p body
  · obtain ⟨rfl, hlarge⟩ := hover
    have hadd : Profile.dev.add32 (tokenCount body "prompt_eval_count")
        (tokenCount body "eval_count") = .error .overflow :=
      if_neg (by simpa using hlarge)
    rw [hadd]
    exact .inr ⟨⟨rfl, hlarge⟩, rfl⟩
  · have hadd : p.add32 (tokenCount body "prompt_eval_count") (tokenCount body "eval_count") =
        .ok (tokenCount body "prompt_eval_count" + tokenCount body "eval_count") := by
      unfold TotalOverflows at hover
      refine if_pos ?_
      cases p with
      | release => exact .inr rfl
      | dev => exact .inl (by simpa using hover)
    rw [hadd]
    exact .inl ⟨hover, _, _, rfl⟩

variable [LinearOrder Ms]

/-- With nodes that can hold the model alone the handler tries these. -/
theorem completions_solo (u : Unicode) (p : Profile) (maxMs : Ms) (state : AppState Ms)
    (o : Outside) (keyId : String) (parse : List Char → Option Json)
    {req req' : ChatCompletionRequest} (hreq : sanitizeRequest req = .ok req')
    (hstream : req.stream = false) {order : List NodeInfo} {rrCounter : UInt64}
    (hcandidates : buildCandidates p maxMs state.rrCounter req'.model state.nodes
      state.nodeStats =
        (.ok (order.map fun n => soloPlan (requestSpec req'.model) n.capacity), rrCounter))
    (horder : order ≠ []) :
    completions u p maxMs state o keyId parse req =
      match tryCandidates o.answer req' o.requestId "all candidates failed"
          (order.map fun n => soloPlan (requestSpec req'.model) n.capacity) with
      | (contacted, .error panic) => ⟨rrCounter, contacted, .error panic, []⟩
      | (contacted, .ok (.error e)) => ⟨rrCounter, contacted, .ok (errorResponse 502 e), []⟩
      | (contacted, .ok (.ok body)) =>
        complete u p state o keyId rrCounter contacted body req'.model := by
  have hstream' : req'.stream = false := by
    rw [sanitizeRequest_ok hreq]
    exact hstream
  have hempty : (order.map fun n => soloPlan (requestSpec req'.model) n.capacity).isEmpty =
      false := by
    rw [List.isEmpty_map]
    simpa using horder
  rw [completions, hreq]
  dsimp only
  rw [hcandidates]
  dsimp only
  rw [hstream', hempty, executeWithFailover, hempty]
  rfl

/-- **Failover.** A request that is not streamed, for a model that some online node can
hold alone: the nodes contacted are such nodes, in the order of the candidates, up to
the first success; the answer is 200 exactly when one of them succeeds, and then one
call records the usage; without a success all of them were contacted and the answer is
502. The exception is a build with overflow checks and a first success with token counts
that do not add up to 32 bits: there the handler panics before it answers. -/
theorem completions_failover (u : Unicode) (p : Profile) (maxMs : Ms) (state : AppState Ms)
    (o : Outside) (keyId : String) (parse : List Char → Option Json)
    (req req' : ChatCompletionRequest) (hreq : sanitizeRequest req = .ok req')
    (hstream : req.stream = false) (hdb : state.db = true)
    (hvram : ∀ n ∈ state.nodes, n.vramMb.toNat < 2 ^ 32)
    (hsolo : soloNodes req'.model state.nodes ≠ []) :
    let spec := requestSpec req'.model
    let result := completions u p maxMs state o keyId parse req
    ∃ order, order.Perm (soloNodes req'.model state.nodes) ∧
      (buildCandidates p maxMs state.rrCounter req'.model state.nodes
        state.nodeStats).1 = .ok (order.map fun n => soloPlan spec n.capacity) ∧
      (∀ response, result.response = .ok response → (response.status = 200 ↔
        ∃ n ∈ soloNodes req'.model state.nodes, Succeeds o.answer spec n)) ∧
      ((∃ failed n rest body, order = failed ++ n :: rest ∧
          (∀ m ∈ failed, ¬ Succeeds o.answer spec m) ∧
          o.answer (soloPlan spec n.capacity) = .ok body ∧
          result.contacted.map (·.node) = (failed ++ [n]).map (soloContact spec) ∧
          ((¬ TotalOverflows p body ∧ ∃ response row, result.response = .ok response ∧
              response.status = 200 ∧ result.usage = [row]) ∨
            (TotalOverflows p body ∧ result.response = .error .overflow ∧ result.usage = []))) ∨
        ((∀ m ∈ order, ¬ Succeeds o.answer spec m) ∧
          result.contacted.map (·.node) = order.map (soloContact spec) ∧
          ∃ response, result.response = .ok response ∧ response.status = 502 ∧
            result.usage = [])) := by
  intro spec result
  have hcandidates := buildCandidates_solo p maxMs state.rrCounter state.nodeStats
    (fun n hn => hvram n (mem_soloNodes.mp hn).1) hsolo
  generalize horder : (sortBy (byLatency maxMs state.nodeStats)
    (soloNodes req'.model state.nodes)).rotate
      (state.rrCounter.toNat % (soloNodes req'.model state.nodes).length) = order at hcandidates
  have hperm : order.Perm (soloNodes req'.model state.nodes) := by
    rw [← horder]
    exact (List.rotate_perm _ _).trans (sortBy_perm _ _)
  have hne : order ≠ [] := fun hnil => hsolo (List.perm_nil.mp (hnil ▸ hperm.symm))
  obtain ⟨contacted, outcome, htry, hcases⟩ := tryCandidates_solo o.answer req' o.requestId spec
    order "all candidates failed"
  have hresult : result = _ :=
    completions_solo u p maxMs state o keyId parse hreq hstream hcandidates hne
  rw [htry] at hresult
  rcases hcases with ⟨failed, n, rest, body, hsplit, hfailed, hanswer, rfl, hcontacted⟩ |
    ⟨hfailed, ⟨e, rfl⟩, hcontacted⟩
  · have hn : n ∈ order := hsplit ▸ List.mem_append_right _ List.mem_cons_self
    have hsucceeds : ∃ m ∈ soloNodes req'.model state.nodes, Succeeds o.answer spec m :=
      ⟨n, hperm.mem_iff.mp hn, body, hanswer⟩
    rw [hresult]
    dsimp only
    rcases complete_cases u p state o keyId (state.rrCounter + 1) contacted body req'.model with
      ⟨hfits, r, row, hcomplete⟩ | ⟨hover, hcomplete⟩
    · rw [hdb, if_pos rfl] at hcomplete
      rw [hcomplete]
      refine ⟨order, hperm, congrArg Prod.fst hcandidates, ?_, .inl
        ⟨failed, n, rest, body, hsplit, hfailed, hanswer, hcontacted,
          .inl ⟨hfits, _, row, rfl, rfl, rfl⟩⟩⟩
      rintro response hresponse
      cases hresponse
      exact iff_of_true rfl hsucceeds
    · rw [hcomplete]
      refine ⟨order, hperm, congrArg Prod.fst hcandidates, ?_, .inl
        ⟨failed, n, rest, body, hsplit, hfailed, hanswer, hcontacted, .inr ⟨hover, rfl, rfl⟩⟩⟩
      rintro response hresponse
      cases hresponse
  · rw [hresult]
    refine ⟨order, hperm, congrArg Prod.fst hcandidates, ?_,
      .inr ⟨hfailed, hcontacted, errorResponse 502 e, rfl, rfl, rfl⟩⟩
    rintro response hresponse
    cases hresponse
    refine iff_of_false (show 502 ≠ 200 by decide) ?_
    rintro ⟨n, hn, hsucceeds⟩
    exact hfailed n (hperm.mem_iff.mpr hn) hsucceeds

/-- A request with one message. -/
def greeting : ChatCompletionRequest :=
  { model := "llama3.2:3b"
    messages := [⟨"user", "Hello"⟩]
    stream := false
    maxTokens := none
    temperature := none
    topP := none }

theorem sanitizeRequest_greeting : sanitizeRequest greeting = .ok greeting := rfl

/-- Two nodes with room for the model, the first of which does not answer: both are contacted,
and the answer of the second one is charged, in a build with overflow checks too. -/
theorem completions_failover_second_node :
    let state : AppState Nat :=
      ⟨[gpu "gpu0" 24576, gpu "gpu1" 24576], [], 0, "http://localhost:11434", true⟩
    let o : Outside :=
      { answer := fun plan =>
          if plan.assignments.head?.map (·.nodeId) = some "gpu0" then .unreachable
          else .ok (.object [("eval_count", .number (.posInt 3))])
        own := .unreachable
        upstream := fun _ => .unreachable
        requestId := "1"
        completionId := "1"
        created := 0 }
    let result := completions .ascii .dev f64Max state o "key-1" readPlain greeting
    result.contacted.map (·.node.map (·.nodeId)) = [some "gpu0", some "gpu1"] ∧
      ∃ response row, result.response = .ok response ∧ response.status = 200 ∧
        result.usage = [row] := by
  intro state o result
  have hrun : result.contacted.map (·.node.map (·.nodeId)) = [some "gpu0", some "gpu1"] ∧
      result.response.toOption.map Response.status = some 200 := by decide +kernel
  obtain ⟨order, -, -, -, hcases⟩ := completions_failover .ascii .dev f64Max state o
    "key-1" readPlain greeting greeting sanitizeRequest_greeting rfl rfl (by decide) (by decide)
  refine ⟨hrun.1, ?_⟩
  rcases hcases with ⟨-, -, -, -, -, -, -, -, ⟨-, hcharged⟩ | ⟨-, hpanic, -⟩⟩ |
    ⟨-, -, response, hresponse, hstatus, -⟩
  · exact hcharged
  · have hstatus := hrun.2
    rw [hpanic] at hstatus
    cases hstatus
  · have hstatus' := hrun.2
    rw [hresponse] at hstatus'
    injection hstatus' with hstatus'
    rw [hstatus] at hstatus'
    cases hstatus'

end InferPlatform.Gateway
