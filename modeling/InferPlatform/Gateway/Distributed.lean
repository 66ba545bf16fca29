import InferPlatform.Agent.Network
import InferPlatform.Agent.Tunnel
import InferPlatform.Gateway.ChatPaths

/-!
# A model on several nodes

Where no online node can hold a model alone, it is planned over several of them, and a
request that is not streamed goes to the agent of the first. What the nodes answer is here
what a network of agents and Ollamas makes of it.

* `Outside.Through` — the answers come from the network;
* `Connected` — a node as `infer connect` registers it, without an agent;
* `completions_distributed` — **such a request is posted once; it is answered with the
  redacted answer of the last agent, or refused without a charge; with a connected node
  among the shards it is always refused**.
-/

namespace InferPlatform.Gateway

open Agent Checked Planner Wire

/-- The addresses of the node are those of a connect. -/
def Connected (n : NodeInfo) : Prop :=
  ∃ (args : ConnectArgs) (publicPort : UInt16) (gpu : String × UInt64),
    let registration := args.registration publicPort gpu
    n.host = registration.host ∧ n.port = registration.port ∧
      n.agentPort = registration.agentPort

/-! ## What the nodes answer -/

/-- The answer to a pipeline is what comes back from the network. It may be late, and then
there is none. -/
def Outside.Through (o : Outside) (net : Network) (describe : DecodeError → String)
    (req : ChatCompletionRequest) : Prop :=
  ∀ plan body, plan.isSingleNode = false → o.answer plan = .ok body →
    ∃ url first status reason entries,
      Agent.pipelineExecute req plan o.requestId = .ok (url, first) ∧
      Chain net describe url first (.answered status reason (.ok entries)) ∧
      (200 ≤ status ∧ status < 300) ∧ body = .ofEntries entries

/-! ## Shards on nodes -/

theorem nodup_map_of_subperm {α β : Type} {l l' : List α} (h : l.Subperm l') {f : α → β}
    (hnodup : (l'.map f).Nodup) : (l.map f).Nodup := by
  obtain ⟨kept, hperm, hsub⟩ := h
  exact (hperm.map f).nodup_iff.mp (hnodup.sublist (hsub.map f))

/-- The shards of a plan over nodes with ids of their own. -/
theorem nodup_nodeIds {nodes : List NodeInfo} {plan : ShardPlan}
    (hids : (nodes.map (·.id)).Nodup)
    (h : OnDistinctNodes (nodes.filter fun n => n.status = .online) plan.assignments) :
    (plan.assignments.map (·.nodeId)).Nodup := by
  obtain ⟨chosen, hchosen, hcopies⟩ := h
  have hnodeIds : plan.assignments.map (·.nodeId) = chosen.map (·.id) := by
    apply List.forall₂_eq_eq_eq ▸ List.forall₂_map_left_iff.mpr (List.forall₂_map_right_iff.mpr ?_)
    exact hcopies.imp fun _ _ hcopy => hcopy.1
  rw [hnodeIds]
  exact nodup_map_of_subperm (hchosen.trans List.filter_sublist.subperm) hids

/-! ## The answer in its envelope -/

theorem messageContent_envelope {requestId model : String} {ollamaBody : Json}
    {entries : List (String × Json)}
    (hsorted : ∀ members, ollamaBody = .object members → SortedMap.Sorted members)
    (hflatten : flattenEntries ollamaBody = .ok entries) :
    messageContent (.ofEntries (envelope requestId model ++ entries)) =
      messageContent ollamaBody := by
  have hmessage : (Json.ofEntries (envelope requestId model ++ entries)).get? "message" =
      ollamaBody.get? "message" := by
    show (SortedMap.collect (envelope requestId model ++ entries)).lookup "message" = _
    rw [SortedMap.lookup_collect, List.reverse_append, List.lookup_append]
    have henvelope : (envelope requestId model).reverse.lookup "message" = none := rfl
    rw [henvelope, Option.or_none, ← SortedMap.lookup_collect]
    cases ollamaBody with
    | object members =>
        obtain rfl : members = entries := Except.ok.inj hflatten
        rw [SortedMap.collect_sorted (hsorted members rfl)]
        rfl
    | null =>
        cases hflatten
        rfl
    | bool | number | string | array => cases hflatten
  rw [messageContent, messageContent, Json.pointer, Json.pointer, hmessage]

/-! ## One request -/

/-- What becomes of a request over a plan. -/
structure Pipelined (net : Network) (u : Unicode) (o : Outside) (nodes : List NodeInfo)
    (req : ChatCompletionRequest) (plan : ShardPlan) (c : Completed) : Prop where
  spread : 2 ≤ plan.assignments.length ∧
    OnDistinctNodes (nodes.filter fun n => n.status = .online) plan.assignments
  posted : ∃ a, plan.controller = .ok a ∧
    c.contacted = [⟨some a, shardUrl a, .shard (pipelineRequest req plan o.requestId)⟩]
  answered : ∀ r, c.response = .ok (.completion r) → ∃ ollamaBody,
    Works net plan (pipelineRequest req plan o.requestId) ollamaBody ∧
      r.contents = [filterPii u ((messageContent ollamaBody).getD "")]
  refused : (∀ ollamaBody, ¬ Works net plan (pipelineRequest req plan o.requestId) ollamaBody) →
    (∃ body, c.response = .ok (.error 502 body)) ∧ c.usage = []
  connected : ∀ n ∈ nodes, Connected n → net.server n.host n.port = .ollama →
    (∃ a ∈ plan.assignments, a.nodeId = n.id) →
    (∃ body, c.response = .ok (.error 502 body)) ∧ c.usage = []

/-- A candidate on several nodes: the agent of the first is contacted, and the answer is the
pipeline's, or an error. -/
theorem execute_pipeline (answer : ShardPlan → NodeAnswer) (req : ChatCompletionRequest)
    (requestId : String) {plan : ShardPlan} (hsplit : plan.isSingleNode = false)
    {a : ShardAssignment} (ha : plan.controller = .ok a) :
    let contact : Contact := ⟨some a, shardUrl a, .shard (pipelineRequest req plan requestId)⟩
    (∃ body, answer plan = .ok body ∧
        execute answer req requestId plan = .ok (contact, .ok body)) ∨
      ((∀ body, answer plan ≠ .ok body) ∧
        ∃ e, execute answer req requestId plan = .ok (contact, .error e)) := by
  intro contact
  have hpost : Agent.pipelineExecute req plan requestId =
      .ok (shardUrl a, pipelineRequest req plan requestId) := by
    rw [Agent.pipelineExecute, ha]
    rfl
  rw [execute, hsplit, pipelineExecute, ha]
  simp only [hpost, bind, Except.bind, pure, Except.pure]
  cases answer plan with
  | ok body => exact .inl ⟨body, rfl, rfl⟩
  | unreachable | status | malformed => exact .inr ⟨by rintro body ⟨⟩, _, rfl⟩

/-- An answer, or the panic of its token counts; it goes to the one that was contacted. -/
theorem complete_contents {Ms : Type} (u : Unicode) (p : Profile) (state : AppState Ms) (o : Outside)
    (keyId : String) (rrCounter : UInt64) (contacted : List Contact) (body : Json)
    (model : String) :
    let c := complete u p state o keyId rrCounter contacted body model
    c.contacted = contacted ∧ ∀ r, c.response = .ok (.completion r) →
      r.contents = [filterPii u ((messageContent body).getD "")] := by
  intro c
  refine ⟨contacted_complete u p state o keyId rrCounter contacted body model, ?_⟩
  intro r hr
  cases hbuild : buildOpenaiResponse u p o.created body model o.requestId with
  | error panic =>
      have hc : c.response = .error panic := by
        show (complete u p state o keyId rrCounter contacted body model).response = _
        rw [complete, hbuild]
      rw [hc] at hr
      cases hr
  | ok built =>
      have hc : c.response = .ok (.completion built) := by
        show (complete u p state o keyId rrCounter contacted body model).response = _
        rw [complete, hbuild]
      rw [hc] at hr
      cases hr
      exact buildOpenaiResponse_contents hbuild

section

variable {Ms : Type} [LinearOrder Ms] (u : Unicode) (p : Profile) (maxMs : Ms)
  (state : AppState Ms) (o : Outside) (keyId : String) (parse : List Char → Option Json)

/-- The handler, where the fallback has a plan over several nodes. -/
theorem completions_plan {req req' : ChatCompletionRequest} (hreq : sanitizeRequest req = .ok req')
    (hstream : req.stream = false) (hnone : soloNodes req.model state.nodes = [])
    {plan : ShardPlan}
    (hfallback : fallback p maxMs req.model state.nodes state.nodeStats = .ok [plan])
    (hsplit : plan.isSingleNode = false) {a : ShardAssignment} (ha : plan.controller = .ok a) :
    let contact : Contact := ⟨some a, shardUrl a, .shard (pipelineRequest req' plan o.requestId)⟩
    (∃ body, o.answer plan = .ok body ∧ completions u p maxMs state o keyId parse req =
        complete u p state o keyId state.rrCounter [contact] body req'.model) ∨
      ((∀ body, o.answer plan ≠ .ok body) ∧ ∃ e, completions u p maxMs state o keyId parse req =
        ⟨state.rrCounter, [contact], .ok (errorResponse 502 e), []⟩) := by
  intro contact
  have hframe := sanitizeRequest_ok hreq
  have hmodel : req'.model = req.model := by rw [hframe]
  have hstream' : req'.stream = false := by
    rw [hframe]
    exact hstream
  have hcandidates : buildCandidates p maxMs state.rrCounter req'.model state.nodes
      state.nodeStats = (.ok [plan], state.rrCounter) := by
    rw [hmodel, buildCandidates_eq, if_pos hnone, hfallback]
  rcases execute_pipeline o.answer req' o.requestId hsplit ha with
    ⟨body, hbody, hexecute⟩ | ⟨hfailed, e, hexecute⟩
  · refine .inl ⟨body, hbody, ?_⟩
    simp [completions, hreq, hcandidates, hstream', executeWithFailover, tryCandidates, hexecute,
      contact]
  · refine .inr ⟨hfailed, e, ?_⟩
    simp [completions, hreq, hcandidates, hstream', executeWithFailover, tryCandidates, hexecute,
      contact]

/-- The handler, where the fallback has no plan. -/
theorem completions_own {req req' : ChatCompletionRequest} (hreq : sanitizeRequest req = .ok req')
    (hstream : req.stream = false) (hnone : soloNodes req.model state.nodes = [])
    (hfallback : fallback p maxMs req.model state.nodes state.nodeStats = .ok []) :
    completions u p maxMs state o keyId parse req =
      nonStreamResponse u p state o keyId state.rrCounter req' := by
  have hframe := sanitizeRequest_ok hreq
  have hmodel : req'.model = req.model := by rw [hframe]
  have hstream' : req'.stream = false := by
    rw [hframe]
    exact hstream
  have hcandidates : buildCandidates p maxMs state.rrCounter req'.model state.nodes
      state.nodeStats = (.ok [], state.rrCounter) := by
    rw [hmodel, buildCandidates_eq, if_pos hnone, hfallback]
  simp [completions, hreq, hcandidates, hstream']

variable {net : Network} {describe : DecodeError → String}

/-- The shard of a connected node is at its Ollama. -/
theorem at_of_connected {nodes : List NodeInfo} {plan : ShardPlan}
    (hids : (nodes.map (·.id)).Nodup)
    (hspread : OnDistinctNodes (nodes.filter fun n => n.status = .online) plan.assignments)
    {n : NodeInfo} (hn : n ∈ nodes) (hconnected : Connected n)
    (hollama : net.server n.host n.port = .ollama) {a : ShardAssignment}
    (ha : a ∈ plan.assignments) (hid : a.nodeId = n.id) : net.at a = .ollama := by
  obtain ⟨args, publicPort, gpu, -, hport, hagentPort⟩ := hconnected
  obtain ⟨m, hm, hcopy⟩ := exists_copied hspread ha
  have hsame : m = n :=
    List.inj_on_of_nodup_map hids (List.mem_of_mem_filter hm) hn (hcopy.1.symm.trans hid)
  have hhost : a.host = n.host := hsame ▸ hcopy.2.1
  have hagent : a.agentPort = n.agentPort := hsame ▸ hcopy.2.2.2
  have hown : n.agentPort = n.port := hagentPort.trans hport.symm
  rw [Network.at, hhost, hagent, hown]
  exact hollama

end

/-! ## Two agents -/

/-- The node of a machine with an agent port of its own. -/
def agentNode (id host : String) (agentPort : UInt16) : NodeInfo :=
  { gpu id 24576 with host, agentPort }

/-- What comes back from two agents that answer `Hi`, when they are asked with their plan. -/
def greetingOutside : Outside where
  answer plan :=
    if plan = twoPortPlan then
      .ok (.ofEntries (envelope "r1" "llama3.1:70b" ++
        [("message", .object [("content", .string "Hi")])]))
    else .unreachable
  own := .unreachable
  upstream _ := .unreachable
  requestId := "r1"
  completionId := "1"
  created := 0

theorem through_greetingNetwork :
    greetingOutside.Through greetingNetwork (fun _ => "error decoding response body")
      helloRequest := by
  intro plan body _ hanswer
  simp only [greetingOutside] at hanswer
  split at hanswer
  · rename_i hplan
    subst hplan
    cases hanswer
    have distinct : DistinctShards twoPortPlan := ⟨by decide, by decide⟩
    have hhosts : (twoPortPlan.assignments.map (·.host)).Nodup := by decide
    have hports : (twoPortPlan.assignments.map (·.agentPort)).Nodup := by decide
    have hanswers : Answers greetingFleet (fun _ => "error decoding response body")
        (shardUrl (twoPortPlan.assignments.get ⟨0, by decide⟩))
        (pipelineRequest helloRequest twoPortPlan "r1") _ _ :=
      (answers_first distinct hhosts hports (by decide) rfl _ _).mpr ⟨rfl, rfl⟩
    exact ⟨_, _, 200, "OK", _, rfl, hanswers.chain runs_greetingFleet, ⟨by decide, by decide⟩, rfl⟩
  · cases hanswer

end InferPlatform.Gateway
