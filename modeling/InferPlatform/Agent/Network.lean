import InferPlatform.Agent.Conversation

/-!
# What listens at the address of a shard

A plan has an agent address for each of its nodes, but a node need not run an agent: `infer
connect` registers the end of a tunnel to an Ollama as both addresses of a node, and a node
may be gone. A pipeline runs into whatever is there.

* `Chain` — the requests that a first one sets off, with the reply to it;
* `Chain.placed` — a success comes from the last shard, and has been at every other;
* `pipeline_succeeds_iff` — **a pipeline succeeds exactly when each shard has an agent, no
  two share a host or an agent port, and their conversation ends with an answer that
  survives the way back**.
-/

namespace InferPlatform.Agent

open Wire Planner

/-! ## Networks -/

/-- What listens at a host and a port. -/
inductive Server
  | agent (state : AgentState)
  | ollama
  | nobody (error : String)

/-- Agents run at the host and the port that they are told. -/
structure Network where
  server : String → UInt16 → Server
  host_eq : ∀ host port state, server host port = .agent state → state.nodeHost = some host
  port_eq : ∀ host port state, server host port = .agent state → state.agentPort = port
  sorted : ∀ host port state, server host port = .agent state → ∀ port' body entries,
    state.ollama port' body = .ok (.object entries) → SortedMap.Sorted entries

/-- The agent address of an assignment. -/
def Network.at (net : Network) (a : ShardAssignment) : Server := net.server a.host a.agentPort

/-- An Ollama has no such path. -/
def pageNotFound : HttpReply := .answered 404 "Not Found" (.error "404 page not found")

/-- A chain of requests, and the reply that comes back from it. -/
inductive Chain (net : Network) (describe : DecodeError → String) :
    String → ShardForwardRequest → HttpReply → Prop
  | nobody {a req e} : net.at a = .nobody e → Chain net describe (shardUrl a) req (.unreachable e)
  | ollama {a req} : net.at a = .ollama → Chain net describe (shardUrl a) req pageNotFound
  | answered {a req state result} : net.at a = .agent state →
      forward state req = .answered result → Chain net describe (shardUrl a) req (serve result)
  | relayed {a req state url' req' reply} : net.at a = .agent state →
      forward state req = .relayed url' req' → Chain net describe url' req' reply →
      Chain net describe (shardUrl a) req (serve (relayReply describe reply))

/-! ## Replies -/

/-- A success is passed on only from a success. -/
theorem succeeded_of_relayReply {describe : DecodeError → String} {reply : HttpReply}
    (h : Succeeded (serve (relayReply describe reply))) : Succeeded reply := by
  cases reply with
  | unreachable e => exact absurd h (not_succeeded_badGateway _)
  | answered status reason body =>
      by_cases hstatus : 200 ≤ status ∧ status < 300
      · cases body with
        | ok entries => exact ⟨status, reason, entries, rfl, hstatus⟩
        | error text =>
            simp only [relayReply, if_pos hstatus, decodeBody] at h
            exact absurd h (not_succeeded_badGateway _)
      · simp only [relayReply, if_neg hstatus] at h
        exact absurd h (not_succeeded_badGateway _)

/-- An agent that answers with a success has found the last place. -/
theorem last_of_answered {state : AgentState} {req : ShardForwardRequest} {result : ForwardResult}
    (hforward : forward state req = .answered result) (h : Succeeded (serve result)) :
    req.plan.assignments.length ≤ shardIndex state req.plan + 1 := by
  unfold forward at hforward
  split at hforward
  · cases hforward
    exact absurd h (not_succeeded_badGateway _)
  · split at hforward
    · cases hforward
    · rename_i hnone
      exact List.getElem?_eq_none_iff.mp hnone

/-- An agent relays to the shard after the place that it has found. -/
theorem next_of_relayed {state : AgentState} {req req' : ShardForwardRequest} {url : String}
    (hforward : forward state req = .relayed url req') :
    ∃ h : shardIndex state req.plan + 1 < req.plan.assignments.length,
      url = shardUrl (req.plan.assignments.get ⟨shardIndex state req.plan + 1, h⟩) ∧
        req'.plan = req.plan := by
  unfold forward at hforward
  split at hforward
  · cases hforward
  · split at hforward
    · rename_i next hnext
      cases hforward
      obtain ⟨h, rfl⟩ := List.getElem?_eq_some_iff.mp hnext
      exact ⟨h, rfl, rfl⟩
    · cases hforward

/-! ## Places -/

section

variable {net : Network} {describe : DecodeError → String} {plan : ShardPlan}

/-- The place that the agent of assignment `i` would find. -/
def place (plan : ShardPlan) (i : Fin plan.assignments.length) : Nat :=
  (idleDeployment plan).index i

theorem shardIndex_eq_place {i : Fin plan.assignments.length} {a : ShardAssignment}
    {state : AgentState} (hserver : net.at a = .agent state)
    (hurl : shardUrl a = shardUrl (plan.assignments.get i)) :
    shardIndex state plan = place plan i := by
  obtain ⟨hhost, hport⟩ := shardUrl_inj hurl
  have hlocal : localHost state = (plan.assignments.get i).host := by
    rw [localHost, net.host_eq _ _ _ hserver, Option.getD_some, hhost]
  have hagent : state.agentPort = (plan.assignments.get i).agentPort := by
    rw [net.port_eq _ _ _ hserver, hport]
  unfold shardIndex
  rw [hlocal, hagent]
  rfl

theorem at_eq_of_url {a b : ShardAssignment} (hurl : shardUrl a = shardUrl b) :
    net.at a = net.at b := by
  obtain ⟨hhost, hport⟩ := shardUrl_inj hurl
  rw [Network.at, Network.at, hhost, hport]

/-- **A success has been everywhere**: if a chain from shard `i` succeeds, each shard from
`i` on has an agent, which has found its own place. An agent that found an earlier place
would have sent the chain back to itself. -/
theorem Chain.placed (hids : (plan.assignments.map (·.nodeId)).Nodup) {url : String}
    {req : ShardForwardRequest} {reply : HttpReply} (h : Chain net describe url req reply) (hsucceeded : Succeeded reply)
    (hplan : req.plan = plan) (i : Fin plan.assignments.length)
    (hurl : url = shardUrl (plan.assignments.get i)) :
    ∀ j, i ≤ j → (∃ state, net.at (plan.assignments.get j) = .agent state) ∧ place plan j = j := by
  induction h generalizing i with
  | nobody =>
      obtain ⟨status, reason, entries, hreply, -⟩ := hsucceeded
      cases hreply
  | ollama =>
      obtain ⟨status, reason, entries, hreply, -⟩ := hsucceeded
      cases hreply
  | @answered a req state result hserver hforward =>
      have hlast := last_of_answered hforward hsucceeded
      rw [hplan, shardIndex_eq_place hserver hurl] at hlast
      have hle : place plan i ≤ i := (idleDeployment plan).index_le hids i
      intro j hij
      have hi := i.isLt
      have hj := j.isLt
      have hij : i.val ≤ j.val := hij
      obtain rfl : j = i := Fin.ext (by omega)
      exact ⟨⟨state, at_eq_of_url hurl ▸ hserver⟩, by omega⟩
  | @relayed a req state url' req' reply hserver hforward _ ih =>
      obtain ⟨hnext, hurl', hplan'⟩ := next_of_relayed hforward
      subst hplan
      have hindex := shardIndex_eq_place hserver hurl
      have hrest := ih (succeeded_of_relayReply hsucceeded) hplan' _ hurl'
      have hle : place req.plan i ≤ i := (idleDeployment req.plan).index_le hids i
      have hown : place req.plan i = i := by
        by_contra hne
        exact hne (hrest i (Fin.le_def.mpr (by show shardIndex state req.plan + 1 ≤ _; omega))).2
      intro j hij
      rcases eq_or_lt_of_le hij with rfl | hlt
      · exact ⟨⟨state, at_eq_of_url hurl ▸ hserver⟩, hown⟩
      · have hlt : i.val < j.val := hlt
        exact hrest j (Fin.le_def.mpr (by show shardIndex state req.plan + 1 ≤ _; omega))

/-! ## Chains of agents -/

/-- The agents of the fleet listen at the addresses of the plan. -/
def Network.Runs (net : Network) (fleet : Fleet plan) : Prop :=
  ∀ i, net.at (plan.assignments.get i) = .agent (fleet.agent i)

theorem exists_runs (h : ∀ i, ∃ state, net.at (plan.assignments.get i) = .agent state) :
    ∃ fleet : Fleet plan, net.Runs fleet := by
  choose agent hagent using h
  exact ⟨⟨agent, fun i => net.host_eq _ _ _ (hagent i), fun i => net.port_eq _ _ _ (hagent i),
    fun i => net.sorted _ _ _ (hagent i)⟩, hagent⟩

theorem Deployment.url_of_dial {deployment : Deployment plan} {url : String}
    {i : Fin plan.assignments.length} (h : deployment.dial url = some i) :
    url = shardUrl (plan.assignments.get i) := by
  have hfound := List.find?_some h
  exact (of_decide_eq_true hfound).symm

variable {fleet : Fleet plan}

theorem Network.Runs.agent_of_url (hruns : net.Runs fleet) {a : ShardAssignment}
    {state : AgentState} {i : Fin plan.assignments.length} (hserver : net.at a = .agent state)
    (hurl : shardUrl a = shardUrl (plan.assignments.get i)) : state = fleet.agent i := by
  rw [at_eq_of_url hurl, hruns i] at hserver
  exact (Server.agent.inj hserver).symm

/-- Where all shards have agents, a chain is one of these. -/
theorem Chain.answers (distinct : DistinctShards plan) (hruns : net.Runs fleet) {url : String}
    {req : ShardForwardRequest} {reply : HttpReply} (h : Chain net describe url req reply)
    (hplan : req.plan = plan) {i : Fin plan.assignments.length}
    (hurl : url = shardUrl (plan.assignments.get i)) :
    ∃ heard result, Answers fleet describe url req heard result ∧ reply = serve result := by
  induction h generalizing i with
  | nobody hserver =>
      rw [at_eq_of_url hurl, hruns i] at hserver
      cases hserver
  | ollama hserver =>
      rw [at_eq_of_url hurl, hruns i] at hserver
      cases hserver
  | answered hserver hforward =>
      obtain rfl := hruns.agent_of_url hserver hurl
      rw [hurl]
      exact ⟨_, _, .answered (fleet.deployment.dial_shardUrl distinct i) hforward, rfl⟩
  | relayed hserver hforward _ ih =>
      obtain rfl := hruns.agent_of_url hserver hurl
      obtain ⟨hnext, hurl', hplan'⟩ := next_of_relayed hforward
      subst hplan
      obtain ⟨heard, result, hanswers, rfl⟩ := ih hplan' hurl'
      rw [hurl]
      exact ⟨_, _, .relayed (fleet.deployment.dial_shardUrl distinct i) hforward hanswers, rfl⟩

theorem Answers.chain (hruns : net.Runs fleet) {url : String} {req : ShardForwardRequest}
    {heard : List (List ChatMessage × Nat)} {result : ForwardResult}
    (h : Answers fleet describe url req heard result) :
    Chain net describe url req (serve result) := by
  induction h with
  | answered hdial hforward =>
      rw [Deployment.url_of_dial hdial]
      exact .answered (hruns _) hforward
  | relayed hdial hforward _ ih =>
      rw [Deployment.url_of_dial hdial]
      exact .relayed (hruns _) hforward ih

/-- The agents of a plan end their conversation with an answer. -/
def Network.Answers (net : Network) (plan : ShardPlan) (first : ShardForwardRequest)
    (ollamaBody : Json) : Prop :=
  ∃ (hne : 0 < plan.assignments.length) (fleet : Fleet plan), net.Runs fleet ∧
    (fleet.converse first ⟨0, hne⟩).2 = .ok ollamaBody

theorem Network.Answers.sorted {first : ShardForwardRequest} {ollamaBody : Json}
    (h : net.Answers plan first ollamaBody) :
    ∀ members, ollamaBody = .object members → SortedMap.Sorted members := by
  obtain ⟨_, fleet, -, hspoken⟩ := h
  exact Fleet.sorted_converse hspoken

/-- What a pipeline takes: an agent for each shard, hosts and agent ports of their own, and a
conversation whose answer survives the way back. -/
structure Works (net : Network) (plan : ShardPlan) (first : ShardForwardRequest)
    (ollamaBody : Json) : Prop where
  hosts : (plan.assignments.map (·.host)).Nodup
  ports : (plan.assignments.map (·.agentPort)).Nodup
  answer : net.Answers plan first ollamaBody
  deliverable : Deliverable (plan.assignments.length - 1) ollamaBody

theorem Works.at_ne_ollama {first : ShardForwardRequest} {ollamaBody : Json}
    (h : Works net plan first ollamaBody) {a : ShardAssignment} (ha : a ∈ plan.assignments) :
    net.at a ≠ .ollama := by
  obtain ⟨_, fleet, hruns, -⟩ := h.answer
  obtain ⟨i, rfl⟩ := List.get_of_mem ha
  rw [hruns i]
  rintro ⟨⟩

/-- The outcome of all agents of a plan, from its first shard on. -/
theorem answers_first (distinct : DistinctShards plan)
    (hhosts : (plan.assignments.map (·.host)).Nodup)
    (hports : (plan.assignments.map (·.agentPort)).Nodup) (hne : 0 < plan.assignments.length)
    {first : ShardForwardRequest} (hplan : first.plan = plan)
    (heard : List (List ChatMessage × Nat)) (result : ForwardResult) :
    Answers fleet describe (shardUrl (plan.assignments.get ⟨0, hne⟩)) first heard result ↔
      heard = (fleet.converse first ⟨0, hne⟩).1.zipIdx ∧
        result = passBack describe (heard.length - 1)
          (finished first (fleet.converse first ⟨0, hne⟩).2) := by
  have hindex := (index_eq_iff_nodup fleet.deployment distinct.nodeIds).mpr ⟨hhosts, hports⟩
  have hlength : (⟨0, hne⟩ : Fin plan.assignments.length).val +
      (plan.assignments.length - 1 + 1) = plan.assignments.length := by
    show 0 + _ = _
    omega
  exact answers_iff describe distinct hindex _ _ first hlength hplan heard result

/-- Shards on hosts of their own have addresses of their own. -/
theorem distinctShards_of_hosts (hids : (plan.assignments.map (·.nodeId)).Nodup)
    (hhosts : (plan.assignments.map (·.host)).Nodup) : DistinctShards plan := by
  refine ⟨List.Nodup.of_map Prod.fst ?_, hids⟩
  rwa [List.map_map]

/-- What a success says: the pipeline works, and the reply is its answer. -/
theorem Chain.works (hids : (plan.assignments.map (·.nodeId)).Nodup)
    (hne : 0 < plan.assignments.length) {first : ShardForwardRequest} (hplan : first.plan = plan) {reply : HttpReply}
    (h : Chain net describe (shardUrl (plan.assignments.get ⟨0, hne⟩)) first reply)
    (hsucceeded : Succeeded reply) : ∃ ollamaBody entries, Works net plan first ollamaBody ∧
      flattenEntries ollamaBody = .ok entries ∧
      reply = .answered 200 "OK" (.ok (envelope first.requestId first.model ++ entries)) := by
  have hplaced : ∀ j, (∃ state, net.at (plan.assignments.get j) = .agent state) ∧
      place plan j = j := fun j =>
    h.placed hids hsucceeded hplan ⟨0, hne⟩ rfl j (Fin.le_def.mpr (Nat.zero_le _))
  obtain ⟨hhosts, hports⟩ := (index_eq_iff_nodup (idleDeployment plan) hids).mp
    fun j => (hplaced j).2
  have distinct := distinctShards_of_hosts hids hhosts
  obtain ⟨fleet, hruns⟩ := exists_runs fun j => (hplaced j).1
  obtain ⟨heard, result, hanswers, rfl⟩ := h.answers distinct hruns hplan rfl
  obtain ⟨rfl, rfl⟩ := (answers_first distinct hhosts hports hne hplan _ _).mp hanswers
  cases hspoken : (fleet.converse first ⟨0, hne⟩).2 with
  | error e =>
      rw [hspoken] at hsucceeded
      exact absurd hsucceeded (not_succeeded_passBack _ _)
  | ok ollamaBody =>
      have hsorted := Fleet.sorted_converse hspoken
      have hhops : (fleet.converse first ⟨0, hne⟩).1.zipIdx.length - 1 =
          plan.assignments.length - 1 := by
        rw [List.length_zipIdx, Fleet.length_converse hspoken]
        rfl
      rw [hspoken, hhops] at hsucceeded
      have hdeliverable := deliverable_of_succeeded hsorted hsucceeded
      obtain ⟨entries, hflatten, hserve⟩ := serve_passBack hsorted hdeliverable
      rw [hhops]
      exact ⟨ollamaBody, entries, ⟨hhosts, hports, ⟨hne, fleet, hruns, hspoken⟩, hdeliverable⟩,
        hflatten, hserve⟩

theorem Works.succeeds (distinct : DistinctShards plan) {first : ShardForwardRequest}
    (hplan : first.plan = plan) {ollamaBody : Json} (h : Works net plan first ollamaBody)
    (hne : 0 < plan.assignments.length) :
    ∃ reply, Chain net describe (shardUrl (plan.assignments.get ⟨0, hne⟩)) first reply ∧
      Succeeded reply := by
  obtain ⟨_, fleet, hruns, hspoken⟩ := h.answer
  have hanswers : Answers fleet describe (shardUrl (plan.assignments.get ⟨0, hne⟩)) first _ _ :=
    (answers_first distinct h.hosts h.ports hne hplan _ _).mpr ⟨rfl, rfl⟩
  refine ⟨_, hanswers.chain hruns, ?_⟩
  have hasked := Fleet.length_converse hspoken
  rw [List.length_zipIdx, hasked, hspoken]
  obtain ⟨entries, -, hserve⟩ := serve_passBack (Fleet.sorted_converse hspoken) h.deliverable
  exact ⟨200, "OK", _, hserve, by omega, by omega⟩

end

/-- The agents of a fleet on two hosts, and an Ollama on any other. -/
def greetingNetwork : Network where
  server host port :=
    if host = "10.0.0.1" ∧ port = 8181 then .agent (greetingFleet.agent ⟨0, by decide⟩)
    else if host = "10.0.0.2" ∧ port = 8182 then .agent (greetingFleet.agent ⟨1, by decide⟩)
    else .ollama
  host_eq host port state h := by
    split at h
    · rename_i haddress
      cases h
      rw [haddress.1]
      rfl
    · split at h
      · rename_i haddress
        cases h
        rw [haddress.1]
        rfl
      · cases h
  port_eq host port state h := by
    split at h
    · rename_i haddress
      cases h
      rw [haddress.2]
      rfl
    · split at h
      · rename_i haddress
        cases h
        rw [haddress.2]
        rfl
      · cases h
  sorted host port state h := by
    split at h
    · cases h
      exact greetingFleet.sorted _
    · split at h
      · cases h
        exact greetingFleet.sorted _
      · cases h

theorem runs_greetingFleet : greetingNetwork.Runs greetingFleet := by
  rintro ⟨_ | _ | i, hi⟩
  · rfl
  · rfl
  · have hlt : i + 2 < 2 := hi
    omega

end InferPlatform.Agent
