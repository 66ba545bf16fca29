import InferPlatform.Agent.Pipeline
import InferPlatform.Agent.Reply
import InferPlatform.Base.Relay

/-!
# The conversation of a pipeline

A shard answers the whole conversation that it is sent, adds its answer to it as a turn of
the assistant, and sends it on; the answer of the last shard goes all the way back. Here
Ollama may fail on any agent.

* `Fleet.converse` — the conversation, a relay of the shards;
* `Answers` — the chain of requests with its answers on the way back;
* `answers_iff` — the chain is the relay;
* `pipeline_converses` — **a pipeline asks its shards in order as the relay does, and the
  gateway gets the relay's answer exactly when it survives the way back**.
-/

namespace InferPlatform.Agent

open Wire Planner

/-- One running agent for each assignment, as in a `Deployment`, with an Ollama that may
fail. An object that Ollama answers is decoded into memory. -/
structure Fleet (plan : ShardPlan) where
  agent : Fin plan.assignments.length → AgentState
  host_eq : ∀ i, (agent i).nodeHost = some (plan.assignments.get i).host
  port_eq : ∀ i, (agent i).agentPort = (plan.assignments.get i).agentPort
  sorted : ∀ i port body entries, (agent i).ollama port body = .ok (.object entries) →
    SortedMap.Sorted entries

section

variable {plan : ShardPlan} (net : Fleet plan)

/-- The same agents with an Ollama that never fails: an agent's place does not depend on
it. -/
def Fleet.deployment : Deployment plan where
  agent i := { net.agent i with ollama := fun _ _ => .ok .null }
  host_eq := net.host_eq
  port_eq := net.port_eq
  ollama_ok _ _ _ := ⟨_, rfl⟩

/-- The turn that an answer becomes. -/
def turn (ollamaBody : Json) : ChatMessage :=
  ⟨"assistant", ((ollamaBody.pointer ["message", "content"]).bind Json.asStr).getD ""⟩

/-- What a shard answers to a conversation, with the model and the options of a request. -/
def Fleet.speaker (req : ShardForwardRequest) (i : Fin plan.assignments.length)
    (messages : List ChatMessage) : Except String Json :=
  runOllamaInference (net.agent i) { req with messages }

/-- The conversation from shard `i` on. -/
def Fleet.converse (req : ShardForwardRequest) (i : Fin plan.assignments.length) :
    List (List ChatMessage) × Except String Json :=
  Relay.run (fun messages body => messages ++ [turn body]) (net.speaker req i)
    (((List.finRange plan.assignments.length).drop (i.val + 1)).map (net.speaker req)) req.messages

variable (describe : DecodeError → String)

/-- A chain of requests that all arrive, what each agent was sent with its position, and
the answer that comes back. -/
inductive Answers : String → ShardForwardRequest → List (List ChatMessage × Nat) →
    ForwardResult → Prop
  | answered {url req i result} : net.deployment.dial url = some i →
      forward (net.agent i) req = .answered result → Answers url req [(req.messages, i.val)] result
  | relayed {url req i url' req' heard result} : net.deployment.dial url = some i →
      forward (net.agent i) req = .relayed url' req' → Answers url' req' heard result →
      Answers url req ((req.messages, i.val) :: heard) (relayReply describe (serve result))

/-- The answer of the agent that ends the relay. -/
def finished (req : ShardForwardRequest) : Except String Json → ForwardResult
  | .ok body => .ok ⟨req.requestId, req.model, body⟩
  | .error e => .error (badGateway e)

/-! ## The chain is the relay -/

/-- One more hop may be put at the end as well as at the start. -/
theorem passBack_succ (hops : Nat) (result : ForwardResult) :
    passBack describe (hops + 1) result = relayReply describe (serve (passBack describe hops result))
    := by
  induction hops generalizing result with
  | zero => rfl
  | succ hops ih => exact ih _

variable {net}

/-- What an agent does that finds its own place. -/
theorem Fleet.forward_eq {i : Fin plan.assignments.length} (hindex : net.deployment.index i = i)
    {req : ShardForwardRequest} (hplan : req.plan = plan) :
    forward (net.agent i) req =
      match net.speaker req i req.messages with
      | .error e => .answered (.error (badGateway e))
      | .ok body =>
        if h : i.val + 1 < plan.assignments.length then
          .relayed (shardUrl (plan.assignments.get ⟨i.val + 1, h⟩)) (nextRequest req body)
        else .answered (.ok ⟨req.requestId, req.model, body⟩) := by
  have hplace : shardIndex (net.agent i) req.plan = i.val := by
    rw [hplan]
    exact hindex
  unfold forward
  show (match net.speaker req i req.messages with | .error e => _ | .ok body => _) = _
  cases net.speaker req i req.messages with
  | error e => rfl
  | ok body =>
      dsimp only
      rw [hplace, hplan]
      by_cases h : i.val + 1 < plan.assignments.length
      · simp [h]
      · simp [h]

/-- The rest of the conversation, when this shard's answer is relayed. -/
theorem Fleet.converse_ok {i : Fin plan.assignments.length} {req : ShardForwardRequest}
    {body : Json} (hbody : net.speaker req i req.messages = .ok body)
    (h : i.val + 1 < plan.assignments.length) :
    net.converse req i =
      (req.messages :: (net.converse (nextRequest req body) ⟨i.val + 1, h⟩).1,
        (net.converse (nextRequest req body) ⟨i.val + 1, h⟩).2) := by
  have hdrop : (List.finRange plan.assignments.length).drop (i.val + 1) =
      ⟨i.val + 1, h⟩ :: (List.finRange plan.assignments.length).drop (i.val + 2) := by
    rw [List.drop_eq_getElem_cons (by simpa using h)]
    simp
  unfold Fleet.converse
  rw [hdrop, List.map_cons, Relay.run_cons_ok hbody]
  rfl

/-- A shard whose answer is not relayed: the last one, or one that fails. -/
theorem Fleet.converse_last {i : Fin plan.assignments.length} {req : ShardForwardRequest}
    (h : ¬ i.val + 1 < plan.assignments.length) :
    net.converse req i = ([req.messages], net.speaker req i req.messages) := by
  have hdrop : (List.finRange plan.assignments.length).drop (i.val + 1) = [] :=
    List.drop_eq_nil_of_le (by simpa using h)
  rw [Fleet.converse, hdrop]
  rfl

theorem Fleet.converse_error {i : Fin plan.assignments.length} {req : ShardForwardRequest}
    {e : String} (he : net.speaker req i req.messages = .error e) :
    net.converse req i = ([req.messages], .error e) := by
  by_cases h : i.val + 1 < plan.assignments.length
  · have hdrop : (List.finRange plan.assignments.length).drop (i.val + 1) =
        ⟨i.val + 1, h⟩ :: (List.finRange plan.assignments.length).drop (i.val + 2) := by
      rw [List.drop_eq_getElem_cons (by simpa using h)]
      simp
    rw [Fleet.converse, hdrop, List.map_cons, Relay.run_cons_error he]
  · rw [Fleet.converse_last h, he]

/-- A chain at an agent that answers. -/
theorem answers_of_answered {url : String} {i : Fin plan.assignments.length}
    {req : ShardForwardRequest} {answer : ForwardResult}
    (hdial : net.deployment.dial url = some i)
    (hforward : forward (net.agent i) req = .answered answer)
    {heard : List (List ChatMessage × Nat)} {result : ForwardResult} :
    Answers net describe url req heard result ↔ heard = [(req.messages, i.val)] ∧ result = answer := by
  constructor
  · intro h
    cases h with
    | answered hat hans =>
        obtain rfl := Option.some.inj (hat.symm.trans hdial)
        rw [hforward] at hans
        cases hans
        exact ⟨rfl, rfl⟩
    | relayed hat hrel _ =>
        obtain rfl := Option.some.inj (hat.symm.trans hdial)
        rw [hforward] at hrel
        cases hrel
  · rintro ⟨rfl, rfl⟩
    exact .answered hdial hforward

/-- A chain at an agent that relays. -/
theorem answers_of_relayed {url url' : String} {i : Fin plan.assignments.length}
    {req req' : ShardForwardRequest} (hdial : net.deployment.dial url = some i)
    (hforward : forward (net.agent i) req = .relayed url' req')
    {heard : List (List ChatMessage × Nat)} {result : ForwardResult} :
    Answers net describe url req heard result ↔ ∃ heard' result',
      Answers net describe url' req' heard' result' ∧ heard = (req.messages, i.val) :: heard' ∧
        result = relayReply describe (serve result') := by
  constructor
  · intro h
    cases h with
    | answered hat hans =>
        obtain rfl := Option.some.inj (hat.symm.trans hdial)
        rw [hforward] at hans
        cases hans
    | relayed hat hrel hrest =>
        obtain rfl := Option.some.inj (hat.symm.trans hdial)
        rw [hforward] at hrel
        cases hrel
        exact ⟨_, _, hrest, rfl, rfl⟩
  · rintro ⟨heard', result', hrest, rfl, rfl⟩
    exact .relayed hdial hforward hrest

/-- **A chain computes the relay.** Where every agent finds its own place, the chain from
shard `i` on has exactly one outcome. Induction on the number of shards after `i`. -/
theorem answers_iff (distinct : DistinctShards plan)
    (hindex : ∀ j : Fin plan.assignments.length, net.deployment.index j = j) :
    ∀ (after : Nat) (i : Fin plan.assignments.length) (req : ShardForwardRequest),
    i.val + (after + 1) = plan.assignments.length → req.plan = plan →
    ∀ heard result, Answers net describe (shardUrl (plan.assignments.get i)) req heard result ↔
      heard = (net.converse req i).1.zipIdx i.val ∧
        result = passBack describe (heard.length - 1) (finished req (net.converse req i).2) := by
  intro after
  induction after with
  | zero =>
      intro i req hafter hplan heard result
      have hlast : ¬ i.val + 1 < plan.assignments.length := by omega
      have hforward : forward (net.agent i) req =
          .answered (finished req (net.speaker req i req.messages)) := by
        rw [Fleet.forward_eq (hindex i) hplan]
        cases net.speaker req i req.messages with
        | error e => rfl
        | ok body => simp [hlast, finished]
      rw [answers_of_answered describe (net.deployment.dial_shardUrl distinct i) hforward,
        Fleet.converse_last hlast]
      apply and_congr_right
      rintro rfl
      rfl
  | succ after ih =>
      intro i req hafter hplan heard result
      have hdial := net.deployment.dial_shardUrl distinct i
      have hforward := Fleet.forward_eq (hindex i) hplan
      cases hspeaks : net.speaker req i req.messages with
      | error e =>
          rw [hspeaks] at hforward
          rw [answers_of_answered describe hdial hforward, Fleet.converse_error hspeaks]
          apply and_congr_right
          rintro rfl
          rfl
      | ok body =>
          have hnext : i.val + 1 < plan.assignments.length := by omega
          rw [hspeaks] at hforward
          dsimp only at hforward
          rw [dif_pos hnext] at hforward
          rw [answers_of_relayed describe hdial hforward, Fleet.converse_ok hspeaks hnext]
          have hrest := ih ⟨i.val + 1, hnext⟩ (nextRequest req body)
            (by show i.val + 1 + _ = _; omega) (by simpa using hplan)
          generalize hconverse : net.converse (nextRequest req body) ⟨i.val + 1, hnext⟩ = rest
            at hrest
          have hhops : (req.messages :: rest.1).length - 1 = rest.1.length - 1 + 1 := by
            have hne : rest.1 ≠ [] := hconverse ▸ Relay.run_seen_ne_nil _ _ _
            have hpos := List.length_pos_iff.mpr hne
            simp only [List.length_cons]
            omega
          constructor
          · rintro ⟨heard', result', hchain, rfl, rfl⟩
            obtain ⟨rfl, rfl⟩ := (hrest _ _).mp hchain
            refine ⟨rfl, ?_⟩
            rw [← List.zipIdx_cons, List.length_zipIdx, List.length_zipIdx, hhops, passBack_succ]
            rfl
          · rintro ⟨rfl, rfl⟩
            refine ⟨_, _, (hrest _ _).mpr ⟨rfl, rfl⟩, rfl, ?_⟩
            rw [List.length_zipIdx, List.length_zipIdx, hhops, passBack_succ]
            rfl

/-! ## What reaches the gateway -/

/-- The answer of a relay that survives `hops` hops: one that can be flattened and, where
it is decoded again, has no key of the envelope. -/
def Deliverable (hops : Nat) (ollamaBody : Json) : Prop :=
  ∃ entries, flattenEntries ollamaBody = .ok entries ∧
    (hops = 0 ∨ ∀ entry ∈ entries, ¬ IsEnvelopeKey entry.1)

/-- The gateway gets an object with a status that is a success. -/
def Succeeded (reply : HttpReply) : Prop :=
  ∃ status reason entries, reply = .answered status reason (.ok entries) ∧
    200 ≤ status ∧ status < 300

/-- The gateway gets a success that has every member of the body. -/
def Delivered (result : ForwardResult) (ollamaBody : Json) : Prop :=
  ∃ entries, serve result = .answered 200 "OK" (.ok entries) ∧
    ∀ key value, ollamaBody.get? key = some value →
      (Json.ofEntries entries).get? key = some value

/-- An answer of a value in memory is flattened to a map. -/
theorem flattenEntries_ok {ollamaBody : Json} {entries : List (String × Json)}
    (hsorted : ∀ members, ollamaBody = .object members → SortedMap.Sorted members)
    (h : flattenEntries ollamaBody = .ok entries) :
    ∃ m : JsonMap, m.entries = entries ∧
      ∀ key value, ollamaBody.get? key = some value → m.get? key = some value := by
  cases ollamaBody with
  | object members =>
      cases h
      exact ⟨⟨_, hsorted _ rfl⟩, rfl, fun _ _ h => h⟩
  | null =>
      cases h
      refine ⟨⟨[], List.Pairwise.nil⟩, rfl, ?_⟩
      intro key value hvalue
      cases hvalue
  | bool | number | string | array => cases h

variable {describe}

theorem not_succeeded_badGateway (e : String) : ¬ Succeeded (serve (.error (badGateway e))) := by
  rintro ⟨status, reason, entries, hreply, -, hstatus⟩
  obtain ⟨rfl, -⟩ : 502 = status ∧ _ := HttpReply.answered.inj hreply
  omega

theorem not_succeeded_passBack (e : String) (hops : Nat) :
    ¬ Succeeded (serve (passBack describe hops (.error (badGateway e)))) := by
  obtain ⟨e', he'⟩ := passBack_error describe e hops
  rw [he']
  exact not_succeeded_badGateway e'

/-- The object in which an agent sends its answer. -/
def envelope (requestId model : String) : List (String × Json) :=
  [("request_id", .string requestId), ("model", .string model)]

theorem serve_ok {requestId model : String} {ollamaBody : Json} {entries : List (String × Json)}
    (hflatten : flattenEntries ollamaBody = .ok entries) :
    serve (.ok ⟨requestId, model, ollamaBody⟩) =
      .answered 200 "OK" (.ok (envelope requestId model ++ entries)) := by
  simp [serve, encodeResponse, envelope, hflatten, bind, Except.bind, pure, Except.pure]

/-- An answer that is deliverable arrives as its agent has sent it. -/
theorem serve_passBack {requestId model : String} {ollamaBody : Json}
    (hsorted : ∀ members, ollamaBody = .object members → SortedMap.Sorted members) {hops : Nat}
    (h : Deliverable hops ollamaBody) : ∃ entries, flattenEntries ollamaBody = .ok entries ∧
      serve (passBack describe hops (.ok ⟨requestId, model, ollamaBody⟩)) =
        .answered 200 "OK" (.ok (envelope requestId model ++ entries)) := by
  obtain ⟨entries, hflatten, havoids⟩ := h
  refine ⟨entries, hflatten, ?_⟩
  cases hops with
  | zero => exact serve_ok hflatten
  | succ hops =>
      obtain ⟨m, rfl, -⟩ := flattenEntries_ok hsorted hflatten
      have havoids : AvoidsEnvelope m := havoids.resolve_left (Nat.succ_ne_zero hops)
      have hhop : relayReply describe (serve (.ok ⟨requestId, model, ollamaBody⟩)) =
          .ok ⟨requestId, model, m.toJson⟩ := by
        rw [serve_ok hflatten]
        simp only [relayReply, envelope, decodeBody,
          decodeResponse_of_avoids requestId model havoids]
        rfl
      rw [passBack, hhop, passBack_ok_of_avoids describe requestId model havoids hops]
      exact serve_ok rfl

/-- An answer that reaches the gateway could be flattened, and decoded on its way. -/
theorem deliverable_of_succeeded {requestId model : String} {ollamaBody : Json}
    (hsorted : ∀ members, ollamaBody = .object members → SortedMap.Sorted members) {hops : Nat}
    (h : Succeeded (serve (passBack describe hops (.ok ⟨requestId, model, ollamaBody⟩)))) :
    Deliverable hops ollamaBody := by
  cases hflatten : flattenEntries ollamaBody with
  | error e =>
      have hserve : serve (.ok ⟨requestId, model, ollamaBody⟩) =
          .answered 500 "Internal Server Error" (.error e) := by
        simp [serve, encodeResponse, hflatten, bind, Except.bind]
      cases hops with
      | zero =>
          rw [passBack, hserve] at h
          obtain ⟨status, reason, entries, hreply, -⟩ := h
          cases hreply
      | succ hops =>
          rw [passBack, hserve] at h
          exact absurd h (not_succeeded_passBack _ hops)
  | ok entries =>
      refine ⟨entries, hflatten, ?_⟩
      cases hops with
      | zero => exact .inl rfl
      | succ hops =>
          right
          obtain ⟨m, rfl, -⟩ := flattenEntries_ok hsorted hflatten
          by_contra hcollides
          obtain ⟨e, he⟩ := decodeResponse_of_collides requestId model hcollides
          have hhop : relayReply describe (serve (.ok ⟨requestId, model, ollamaBody⟩)) =
              .error (badGateway s!"failed to parse next shard response: {describe e}") := by
            rw [serve_ok hflatten]
            simp only [relayReply, envelope, decodeBody, he]
            rfl
          rw [passBack, hhop] at h
          exact not_succeeded_passBack _ hops h

variable (describe)

/-- **The way back of one answer.** -/
theorem delivered_passBack_iff (requestId model : String) {ollamaBody : Json}
    (hsorted : ∀ members, ollamaBody = .object members → SortedMap.Sorted members) (hops : Nat) :
    Delivered (passBack describe hops (.ok ⟨requestId, model, ollamaBody⟩)) ollamaBody ↔
      Deliverable hops ollamaBody := by
  constructor
  · rintro ⟨entries, hserve, -⟩
    exact deliverable_of_succeeded hsorted ⟨200, "OK", entries, hserve, by decide⟩
  · intro h
    obtain ⟨entries, hflatten, hserve⟩ := serve_passBack hsorted h
    obtain ⟨m, rfl, hmembers⟩ := flattenEntries_ok hsorted hflatten
    refine ⟨_, hserve, ?_⟩
    intro key value hvalue
    exact get?_ofEntries_append m _ (hmembers key value hvalue)

/-- The answer of a relay is in memory. -/
theorem Fleet.sorted_converse {req : ShardForwardRequest} {i : Fin plan.assignments.length}
    {ollamaBody : Json} (h : (net.converse req i).2 = .ok ollamaBody) :
    ∀ members, ollamaBody = .object members → SortedMap.Sorted members := by
  rintro members rfl
  obtain ⟨stage, hstage, messages, hspeaks⟩ := Relay.exists_stage_of_ok h
  rw [← List.map_cons] at hstage
  obtain ⟨j, -, rfl⟩ := List.mem_map.mp hstage
  exact net.sorted j _ _ members hspeaks

/-- An answer comes from the last shard, so every shard was asked. -/
theorem Fleet.length_converse {req : ShardForwardRequest} {i : Fin plan.assignments.length}
    {ollamaBody : Json} (h : (net.converse req i).2 = .ok ollamaBody) :
    (net.converse req i).1.length = plan.assignments.length - i.val := by
  have hlength := Relay.length_run_of_ok h
  rw [List.length_map, List.length_drop, List.length_finRange] at hlength
  have hi := i.isLt
  show (Relay.run _ _ _ _).1.length = _
  omega

variable (net)

/-- What a pipeline does with a request: it asks shards `0, 1, …` as the relay does and
has no other outcome; an answer of the relay, which is the last shard's, reaches the gateway
exactly when it is deliverable, and is a failure there if it is not; a failure stays one. -/
structure Converses (url : String) (first : ShardForwardRequest)
    (relay : List (List ChatMessage) × Except String Json)
    (heard : List (List ChatMessage × Nat)) (result : ForwardResult) : Prop where
  outcome : ∀ heard' result',
    Answers net describe url first heard' result' ↔ heard' = heard ∧ result' = result
  asked : heard = relay.1.zipIdx
  answered : ∀ ollamaBody, relay.2 = .ok ollamaBody →
    heard.length = plan.assignments.length ∧
      (Delivered result ollamaBody ↔ Deliverable (plan.assignments.length - 1) ollamaBody) ∧
      (¬ Deliverable (plan.assignments.length - 1) ollamaBody → ¬ Succeeded (serve result))
  failed : ∀ e, relay.2 = .error e → ∃ error, result = .error (badGateway error)

/-- **A pipeline is a relay of its shards**, where no two share a host, an agent port or a
node id. -/
theorem pipeline_converses (hne : 0 < plan.assignments.length)
    (hids : (plan.assignments.map (·.nodeId)).Nodup)
    (hhosts : (plan.assignments.map (·.host)).Nodup)
    (hports : (plan.assignments.map (·.agentPort)).Nodup)
    (req : ChatCompletionRequest) (requestId : String) :
    ∃ url first heard result, pipelineExecute req plan requestId = .ok (url, first) ∧
      Converses net describe url first (net.converse first ⟨0, hne⟩) heard result := by
  have haddresses : (plan.assignments.map fun a => (a.host, a.agentPort)).Nodup := by
    refine List.Nodup.of_map Prod.fst ?_
    rw [List.map_map]
    exact hhosts
  have distinct : DistinctShards plan := ⟨haddresses, hids⟩
  have hindex := (index_eq_iff_nodup net.deployment distinct.nodeIds).mpr ⟨hhosts, hports⟩
  let first := pipelineRequest req plan requestId
  have hchain := answers_iff describe distinct hindex (plan.assignments.length - 1) ⟨0, hne⟩ first
    (by show 0 + _ = _; omega) rfl
  let relay := net.converse first ⟨0, hne⟩
  refine ⟨_, first, relay.1.zipIdx,
    passBack describe (relay.1.zipIdx.length - 1) (finished first relay.2),
    pipelineExecute_ok req requestId hne, ?_, rfl, ?_, ?_⟩
  · intro heard' result'
    rw [hchain]
    constructor
    · rintro ⟨rfl, rfl⟩
      exact ⟨rfl, rfl⟩
    · rintro ⟨rfl, rfl⟩
      exact ⟨rfl, rfl⟩
  · intro ollamaBody hanswer
    have hlength : relay.1.zipIdx.length = plan.assignments.length := by
      rw [List.length_zipIdx]
      exact Fleet.length_converse hanswer
    have hsorted := Fleet.sorted_converse hanswer
    rw [hlength, hanswer]
    exact ⟨rfl, delivered_passBack_iff describe _ _ hsorted _,
      mt (deliverable_of_succeeded hsorted)⟩
  · intro e he
    rw [he]
    exact passBack_error describe e _

end

/-! ## Two shards -/

/-- The plan of two machines with an agent port of its own each. -/
def twoPortPlan : ShardPlan :=
  ⟨"llama3.1:70b", 80,
    [⟨"gpu0", "10.0.0.1", 11434, 8181, 0, 46, 22080⟩,
     ⟨"gpu1", "10.0.0.2", 11434, 8182, 46, 80, 16320⟩]⟩

/-- Every agent of the fleet answers `Hi`, in a body without the name of a model. -/
def greetingFleet : Fleet twoPortPlan where
  agent i :=
    { nodePort := (twoPortPlan.assignments.get i).ollamaPort
      agentPort := (twoPortPlan.assignments.get i).agentPort
      nodeHost := some (twoPortPlan.assignments.get i).host
      ollama := fun _ _ => .ok (.object [("message", .object [("content", .string "Hi")])]) }
  host_eq _ := rfl
  port_eq _ := rfl
  sorted i port body entries h := by
    cases h
    exact List.pairwise_singleton _ _

theorem pipeline_converses_two_shards : ∃ url first heard result,
    pipelineExecute helloRequest twoPortPlan "r1" = .ok (url, first) ∧
      Answers greetingFleet (fun _ => "error decoding response body") url first heard result ∧
      heard = [([⟨"user", "hello"⟩], 0), ([⟨"user", "hello"⟩, ⟨"assistant", "Hi"⟩], 1)] ∧
      Delivered result (.object [("message", .object [("content", .string "Hi")])]) := by
  obtain ⟨url, first, heard, result, hstart, hconverses⟩ :=
    pipeline_converses greetingFleet (fun _ => "error decoding response body") (by decide)
      (by decide) (by decide) (by decide) helloRequest "r1"
  cases hstart
  refine ⟨_, _, heard, result, rfl, (hconverses.outcome _ _).mpr ⟨rfl, rfl⟩, hconverses.asked, ?_⟩
  refine (hconverses.answered _ rfl).2.1.mpr ⟨_, rfl, .inr ?_⟩
  simp [IsEnvelopeKey]

end InferPlatform.Agent
