import InferPlatform.Base.Separator
import InferPlatform.Planner.Plan
import InferPlatform.Wire.Chat

/-!
# The shard inference endpoint of a node agent

`POST /infer/shard`: the agent finds its own place in the plan it is sent, runs
the request on its local Ollama, and either answers or relays the request to
the next shard. The handler is cut at its one outgoing HTTP call: `forward` is
everything before it, `relayReply` everything after it.
-/

namespace InferPlatform.Agent

open Wire Planner

/-- What an agent process knows of itself: its ports, the `NODE_HOST` of its
environment, and the Ollama servers on its own machine, by port. -/
structure AgentState where
  nodePort : UInt16
  agentPort : UInt16
  nodeHost : Option String
  ollama : UInt16 → Json → Except String Json

structure ShardForwardRequest where
  requestId : String
  model : String
  messages : List ChatMessage
  stream : Bool
  maxTokens : Option UInt32
  temperature : Option Float32
  topP : Option Float32
  plan : ShardPlan

/-- `ollamaBody` is flattened into the response object on the wire. -/
structure ShardForwardResponse where
  requestId : String
  model : String
  ollamaBody : Json

/-- The status code and body of an error answer. -/
structure ErrorReply where
  status : Nat
  body : Json

abbrev ForwardResult := Except ErrorReply ShardForwardResponse

/-- Every failure of the handler is a 502 with its text under `error`. -/
def badGateway (error : String) : ErrorReply :=
  ⟨502, .ofEntries [("error", .string error)]⟩

def localHost (agent : AgentState) : String := agent.nodeHost.getD "127.0.0.1"

/-- The plan position the agent takes itself to be at: the first assignment
whose host or agent port is its own, looked up again by node id; 0 otherwise. -/
def shardIndex (agent : AgentState) (plan : ShardPlan) : Nat :=
  let myAssignment := plan.assignments.find? fun a =>
    -- either of the two is enough
    a.host = localHost agent ∨ a.agentPort = agent.agentPort
  (myAssignment.bind fun a =>
    plan.assignments.findIdx? fun x => x.nodeId = a.nodeId).getD 0

/-- `run_ollama_inference`: the request as a non-streaming chat on the local
Ollama server. -/
def runOllamaInference (agent : AgentState) (req : ShardForwardRequest) : Except String Json :=
  agent.ollama agent.nodePort
    (ollamaRequest req.model req.messages
      (ollamaOptions req.temperature req.topP req.maxTokens))

/-- The endpoint an assignment's agent is reached at. -/
def shardUrl (a : ShardAssignment) : String := s!"{a.agentBaseUrl}/infer/shard"

/-- Where the handler stands at its outgoing call: it has answered already, or
it posts `next` to `url`. -/
inductive Forwarded
  | answered (result : ForwardResult)
  | relayed (url : String) (next : ShardForwardRequest)

/-- The request for the next shard: the local output is appended as an
assistant turn, and the rest of the request is kept. -/
def nextRequest (req : ShardForwardRequest) (ollamaBody : Json) : ShardForwardRequest :=
  let assistantContent := ((ollamaBody.pointer ["message", "content"]).bind Json.asStr).getD ""
  { req with
    messages := req.messages ++ [⟨"assistant", assistantContent⟩]
    stream := false }

/-- `forward`, up to its outgoing call. -/
def forward (agent : AgentState) (req : ShardForwardRequest) : Forwarded :=
  match runOllamaInference agent req with
  | .error e => .answered (.error (badGateway e))
  | .ok ollamaBody =>
    match req.plan.assignments[shardIndex agent req.plan + 1]? with
    | some next => .relayed (shardUrl next) (nextRequest req ollamaBody)
    -- the last shard answers
    | none => .answered (.ok ⟨req.requestId, req.model, ollamaBody⟩)

/-- The request with which the gateway starts a pipeline: `ShardExecutionRequest`
has the fields of the agent's `ShardForwardRequest`. -/
def pipelineRequest (req : ChatCompletionRequest) (plan : ShardPlan) (requestId : String) :
    ShardForwardRequest :=
  { requestId
    model := req.model
    messages := req.messages
    stream := false
    maxTokens := req.maxTokens
    temperature := req.temperature
    topP := req.topP
    plan }

/-- `pipeline_execute`, up to its HTTP call: where the gateway posts what. -/
def pipelineExecute (req : ChatCompletionRequest) (plan : ShardPlan) (requestId : String) :
    Except Checked.Panic (String × ShardForwardRequest) := do
  let controller ← plan.controller
  return (shardUrl controller, pipelineRequest req plan requestId)

@[simp] theorem nextRequest_plan (req : ShardForwardRequest) (ollamaBody : Json) :
    (nextRequest req ollamaBody).plan = req.plan := rfl

@[simp] theorem pipelineRequest_plan (req : ChatCompletionRequest) (plan : ShardPlan)
    (requestId : String) : (pipelineRequest req plan requestId).plan = plan := rfl

/-! ## Addresses -/

theorem shardUrl_toList (a : ShardAssignment) : (shardUrl a).toList =
    "http://".toList ++ ((a.host.toList ++ ':' :: a.agentPort.toNat.repr.toList) ++
      "/infer/shard".toList) := by
  show ("http://" ++ a.host ++ ":" ++ a.agentPort.toNat.repr ++ "/infer/shard").toList = _
  simp only [String.toList_append, List.append_assoc]
  rfl

/-- Two assignments with the same endpoint have the same host and agent port. -/
theorem shardUrl_inj {a b : ShardAssignment} (h : shardUrl a = shardUrl b) :
    a.host = b.host ∧ a.agentPort = b.agentPort := by
  have hchars := congrArg String.toList h
  rw [shardUrl_toList, shardUrl_toList, List.append_cancel_left_eq,
    List.append_cancel_right_eq] at hchars
  obtain ⟨hhost, hport⟩ :=
    Separator.append_inj (Separator.notMem_repr rfl _) (Separator.notMem_repr rfl _) hchars
  exact ⟨String.toList_inj.mp hhost,
    UInt16.toNat_inj.mp (Nat.repr_inj.mp (String.toList_inj.mp hport))⟩

end InferPlatform.Agent
