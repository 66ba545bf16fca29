import InferPlatform.Agent.RegisterLoop
import InferPlatform.Gateway.Distributed
import InferPlatform.Gateway.Fallback

/-!
# Agents with one agent port

An agent finds its place in a plan by its host or its agent port, and the agent port of an
agent that is not told otherwise is 8181. Agents with one agent port, be it this, all take
themselves for the first shard, and the second never answers. Nodes of `infer connect` may be
among them: no agent listens at the end of a tunnel.

* `AgentEnv` — what `main` makes of the environment of an agent;
* `Chain.not_succeeded` — such a plan gets no answer;
* `OnePort` — registrations by such agents, and by connects;
* `one_port_refused` — **after any run of such registrations, a request that is not streamed
  for a model that no online node can hold alone is refused without a charge, unless the
  gateway's own Ollama answers it**.
-/

namespace InferPlatform.Agent

open Gateway (isWhitespace)
open Planner Wire

/-! ## The environment of an agent -/

/-- The variables that an agent reads, and its `/etc/hostname`. -/
structure AgentEnv where
  nodeName : Option String
  hostname : Option String
  etcHostname : Option String
  nodePort : Option String
  agentPort : Option String
  nodeHost : Option String

def hostname (env : AgentEnv) : String :=
  match env.hostname, env.etcHostname with
  | some name, _ => name
  | none, some text => String.ofList (Lines.trim isWhitespace text.toList)
  | none, none => "unknown-node"

/-- The value of a port variable; a text that is not a port counts as if it were not set. -/
def portOf (value : Option String) (unset : String) (invalid : UInt16) : UInt16 :=
  (parseU16 (value.getD unset).toList).getD invalid

def AgentEnv.agentPortOf (env : AgentEnv) : UInt16 := portOf env.agentPort "8181" 8181

/-- What the agent registers with, from its environment and hardware. -/
def AgentEnv.registrant (env : AgentEnv) (gpu : String × UInt64) : Registrant :=
  { nodeName := env.nodeName.getD (Agent.hostname env)
    nodeHost := env.nodeHost
    nodePort := portOf env.nodePort "11434" 11434
    agentPort := env.agentPortOf
    gpuName := gpu.1
    vramMb := gpu.2 }

/-- The process itself. -/
def AgentEnv.agent (env : AgentEnv) (ollama : UInt16 → Json → Except String Json) : AgentState :=
  { nodePort := portOf env.nodePort "11434" 11434
    agentPort := env.agentPortOf
    nodeHost := env.nodeHost
    ollama }

/-! ## The first shard, and no other -/

/-- An agent with the agent port of the first shard takes itself for it. -/
theorem shardIndex_eq_zero {agent : AgentState} {plan : ShardPlan}
    {hne : 0 < plan.assignments.length}
    (hport : (plan.assignments.get ⟨0, hne⟩).agentPort = agent.agentPort) :
    shardIndex agent plan = 0 := by
  obtain ⟨model, totalLayers, assignments⟩ := plan
  cases assignments with
  | nil => cases hne
  | cons first rest =>
      have hown : first.agentPort = agent.agentPort := hport
      simp [shardIndex, hown, List.findIdx?_cons]

section

variable {net : Network} {describe : DecodeError → String} {plan : ShardPlan} {port : UInt16}

/-- A chain among agents with one agent port has not come to an end. -/
theorem Chain.not_succeeded_of_first {hne : 0 < plan.assignments.length}
    (htwo : 2 ≤ plan.assignments.length)
    (hports : ∀ a ∈ plan.assignments, a.agentPort = port ∨ ∀ state, net.at a ≠ .agent state)
    (hfirst : (plan.assignments.get ⟨0, hne⟩).agentPort = port) {url : String}
    {req : ShardForwardRequest} {reply : HttpReply} (h : Chain net describe url req reply)
    (hplan : req.plan = plan) (i : Fin plan.assignments.length)
    (hurl : url = shardUrl (plan.assignments.get i)) : ¬ Succeeded reply := by
  -- the agent at a shard has the port, and finds the first place
  have hindex : ∀ {a : ShardAssignment} {state : AgentState} {i : Fin plan.assignments.length},
      net.at a = .agent state → shardUrl a = shardUrl (plan.assignments.get i) →
      shardIndex state plan = 0 := by
    intro a state i hserver hurl
    have hthere : net.at (plan.assignments.get i) = .agent state := at_eq_of_url hurl ▸ hserver
    have hport := (hports _ (List.get_mem _ _)).resolve_right fun h => h state hthere
    have hown : state.agentPort = (plan.assignments.get i).agentPort :=
      net.port_eq _ _ _ hthere
    exact shardIndex_eq_zero (hfirst.trans (hown.trans hport).symm)
  induction h generalizing i with
  | nobody =>
      rintro ⟨status, reason, entries, hreply, -⟩
      cases hreply
  | ollama =>
      rintro ⟨status, reason, entries, hreply, -⟩
      cases hreply
  | answered hserver hforward =>
      intro hsucceeded
      have hlast := last_of_answered hforward hsucceeded
      rw [hplan, hindex hserver hurl] at hlast
      omega
  | relayed hserver hforward _ ih =>
      intro hsucceeded
      obtain ⟨hnext, hurl', hplan'⟩ := next_of_relayed hforward
      subst hplan
      exact ih hplan' _ hurl' (succeeded_of_relayReply hsucceeded)

/-- **No answer**: a plan over two or more nodes, of which the agents have one agent port. -/
theorem Chain.not_succeeded {hne : 0 < plan.assignments.length}
    (htwo : 2 ≤ plan.assignments.length)
    (hports : ∀ a ∈ plan.assignments, a.agentPort = port ∨ ∀ state, net.at a ≠ .agent state)
    {req : ShardForwardRequest} {reply : HttpReply}
    (h : Chain net describe (shardUrl (plan.assignments.get ⟨0, hne⟩)) req reply)
    (hplan : req.plan = plan) : ¬ Succeeded reply := by
  rcases hports _ (List.get_mem plan.assignments ⟨0, hne⟩) with hfirst | hnone
  · exact h.not_succeeded_of_first htwo hports hfirst hplan ⟨0, hne⟩ rfl
  · -- the gateway itself reaches no agent
    generalize hurl : shardUrl (plan.assignments.get ⟨0, hne⟩) = url at h
    cases h with
    | nobody =>
        rintro ⟨status, reason, entries, hreply, -⟩
        cases hreply
    | ollama =>
        rintro ⟨status, reason, entries, hreply, -⟩
        cases hreply
    | answered hserver => exact absurd (at_eq_of_url hurl ▸ hserver) (hnone _)
    | relayed hserver => exact absurd (at_eq_of_url hurl ▸ hserver) (hnone _)

end

end InferPlatform.Agent

namespace InferPlatform.Gateway

open Agent Checked Planner Wire

/-! ## The list in memory -/

theorem mem_setNodeStatus {id : String} {status : NodeStatus} {nodes : List NodeInfo} {n : NodeInfo}
    (h : n ∈ setNodeStatus id status nodes) : ∃ old ∈ nodes, n.endpoint = old.endpoint := by
  induction nodes with
  | nil => cases h
  | cons first rest ih =>
      rw [setNodeStatus] at h
      split at h
      · rcases List.mem_cons.mp h with rfl | h
        · exact ⟨first, List.mem_cons_self, rfl⟩
        · exact ⟨n, List.mem_cons_of_mem _ h, rfl⟩
      · rcases List.mem_cons.mp h with rfl | h
        · exact ⟨n, List.mem_cons_self, rfl⟩
        · obtain ⟨old, hold, hsame⟩ := ih h
          exact ⟨old, List.mem_cons_of_mem _ hold, hsame⟩

theorem mem_register_nodes {st : NodeStore} {req : RegisterNodeRequest} {input : RegisterInput}
    {n : NodeInfo} (h : n ∈ (register st req input).1.nodes) :
    n ∈ st.nodes ∨ n = newNode req input := by
  have hmemory : (register st req input).1.nodes = st.nodes ∨
      (register st req input).1.nodes = registerMemory st.nodes (newNode req input) := by
    unfold register
    dsimp only
    split
    · exact .inl rfl
    · split
      · exact .inr rfl
      · split
        · exact .inr rfl
        · exact .inr rfl
        · exact .inr rfl
        · exact .inl rfl
  rcases hmemory with hsame | hnew
  · rw [hsame] at h
    exact .inl h
  · rw [hnew, registerMemory_eq] at h
    rcases mem_upsertBy h with ⟨rfl, -⟩ | hold | ⟨_, -, -, rfl⟩
    · exact .inr rfl
    · exact .inl hold
    · exact .inr rfl

/-- **Only registrations bring endpoints** into the list in memory. -/
theorem endpoint_of_move {st st' : RegistryState} {a : RegistryAction}
    (hmove : RegistryMove st a st') {n : NodeInfo} (hn : n ∈ st'.store.nodes) :
    (∃ old ∈ st.store.nodes, n.endpoint = old.endpoint) ∨
      ∃ req input, a = .register req input ∧ n = newNode req input := by
  cases hmove with
  | @register req input hfresh =>
      rcases mem_register_nodes hn with hold | hnew
      · exact .inl ⟨n, hold, rfl⟩
      · exact .inr ⟨req, input, rfl, hnew⟩
  | @sweep now o =>
      left
      cases hdb : st.store.db with
      | none =>
          have hswept : n ∈ (sweep st.store now o).nodes := hn
          simp only [sweep, hdb] at hswept
          obtain ⟨old, hold, rfl⟩ := List.mem_map.mp hswept
          refine ⟨old, hold, ?_⟩
          split <;> rfl
      | some db =>
          have hsame : (sweep st.store now o).nodes = st.store.nodes :=
            sweep_nodes_of_db (by simp [hdb])
          exact ⟨n, hsame ▸ hn, rfl⟩
  | pingMemory => exact .inl (mem_setNodeStatus hn)
  | tick | pingDb | drop | record | count | updateFailed | update => exact .inl ⟨n, hn, rfl⟩

/-! ## Registrations -/

/-- A registration by an agent with this agent port, or by a connect, at the end of whose
tunnel no agent listens. -/
def OnePort (net : Network) (port : UInt16) (_ : RegistryState) : RegistryAction → Prop
  | .register req _ =>
    (∃ (env : AgentEnv) (gpu : String × UInt64), env.agentPortOf = port ∧
        req = (env.registrant gpu).payload) ∨
      ∃ (args : ConnectArgs) (publicPort : UInt16) (gpu : String × UInt64),
        (∀ agent, net.server args.tunnelHost publicPort ≠ .agent agent) ∧
          req = args.registration publicPort gpu
  | _ => True

/-- Every node in memory has the port, or no agent at its address. -/
def AtOnePort (net : Network) (port : UInt16) (st : RegistryState) : Prop :=
  ∀ n ∈ st.store.nodes,
    n.agentPort = port ∨ ∀ agent, net.server n.host n.agentPort ≠ .agent agent

variable {net : Network} {port : UInt16}

theorem atOnePort_of_reachedBy {st : RegistryState} (h : registry.ReachedBy (OnePort net port) st) :
    AtOnePort net port st := by
  refine h.invariant (AtOnePort net port) ?_ ?_
  · rintro s ⟨hnodes, -⟩ n hn
    rw [hnodes] at hn
    cases hn
  · intro s a s' hinv hallowed hstep n hn
    rcases endpoint_of_move (registryMove_of_step hstep) hn with ⟨old, hold, hsame⟩ |
      ⟨req, input, rfl, rfl⟩
    · have hhost : n.host = old.host := congrArg (·.1) hsame
      have hport : n.agentPort = old.agentPort := congrArg (·.2.2.1) hsame
      rw [hhost, hport]
      exact hinv old hold
    · rcases hallowed with ⟨env, gpu, hport, rfl⟩ | ⟨args, publicPort, gpu, hnone, rfl⟩
      · exact .inl hport
      · exact .inr hnone

/-! ## Requests -/

section

variable {Ms : Type} [LinearOrder Ms] (u : Unicode) (p : Profile) (maxMs : Ms)
  (state : AppState Ms) (o : Outside) (keyId : String) (parse : List Char → Option Json)
  {describe : DecodeError → String}

/-- **Agents with one agent port never share a model.** After any run of registrations by
agents with one agent port and by connects, whatever the monitor and the sweeps did in
between, a request that is not streamed for a model that no online node can hold alone goes to
the gateway's own Ollama server if there is no plan, and is else refused without a charge. -/
theorem one_port_refused {st : RegistryState} (h : registry.ReachedBy (OnePort net port) st)
    (hnodes : state.nodes = st.store.nodes) {req req' : ChatCompletionRequest}
    (hreq : sanitizeRequest req = .ok req') (hstream : req.stream = false)
    (hsum : (state.nodes.map (·.vramMb.toNat)).sum < 2 ^ 64)
    (hnone : soloNodes req.model state.nodes = [])
    (hthrough : o.Through net describe req') :
    let c := completions u p maxMs state o keyId parse req
    let plans := fallback p maxMs req.model state.nodes state.nodeStats
    (plans = .ok [] ∧ c = nonStreamResponse u p state o keyId state.rrCounter req') ∨
      (∃ plan, plans = .ok [plan]) ∧ (∃ contact, c.contacted = [contact]) ∧
        (∃ body, c.response = .ok (.error 502 body)) ∧ c.usage = [] := by
  intro c plans
  obtain ⟨found, hfallback, hfound⟩ := fallback_cases p maxMs state.nodeStats hsum hnone
  rcases hfound with rfl | ⟨plan, rfl, htwo, hspread⟩
  · exact .inl ⟨hfallback,
      completions_own u p maxMs state o keyId parse hreq hstream hnone hfallback⟩
  · refine .inr ⟨⟨plan, hfallback⟩, ?_⟩
    have hne : 0 < plan.assignments.length := by omega
    have hsplit : plan.isSingleNode = false := by
      have hlength : plan.assignments.length ≠ 1 := by omega
      simp [ShardPlan.isSingleNode, hlength]
    have hports : ∀ a ∈ plan.assignments,
        a.agentPort = port ∨ ∀ agent, net.at a ≠ .agent agent := by
      intro a ha
      obtain ⟨n, hn, hcopy⟩ := exists_copied hspread ha
      have hn : n ∈ st.store.nodes := hnodes ▸ List.mem_of_mem_filter hn
      have hhost : a.host = n.host := hcopy.2.1
      have hport : a.agentPort = n.agentPort := hcopy.2.2.2
      rw [Network.at, hhost, hport]
      exact atOnePort_of_reachedBy h n hn
    obtain ⟨a, ha⟩ := controller_of_ne_nil (List.length_pos_iff.mp hne)
    rcases completions_plan u p maxMs state o keyId parse hreq hstream hnone hfallback hsplit ha
      with ⟨body, hbody, -⟩ | ⟨-, e, hc⟩
    · obtain ⟨url, first, status, reason, entries, hpost, hchain, hstatus, -⟩ :=
        hthrough plan body hsplit hbody
      rw [pipelineExecute_ok req' o.requestId hne] at hpost
      cases hpost
      exact absurd ⟨status, reason, entries, rfl, hstatus⟩
        (hchain.not_succeeded htwo hports rfl)
    · show (∃ contact, (completions u p maxMs state o keyId parse req).contacted = _) ∧
        (∃ body, (completions u p maxMs state o keyId parse req).response = _) ∧
          (completions u p maxMs state o keyId parse req).usage = _
      rw [hc]
      exact ⟨⟨_, rfl⟩, ⟨_, rfl⟩, rfl⟩

end

/-! ## Two agents on the default port -/

/-- An agent that is told its host only. -/
def hostEnv (host : String) : AgentEnv := ⟨some host, none, none, none, none, some host⟩

theorem agentPortOf_hostEnv (host : String) : (hostEnv host).agentPortOf = 8181 := by
  show portOf none "8181" 8181 = 8181
  decide +kernel

/-- Such an agent on every machine. -/
def hostNetwork : Network where
  server host port :=
    if port = 8181 then .agent ((hostEnv host).agent fun _ _ => .error "connection refused")
    else .nobody "connection refused"
  host_eq host port state h := by
    split at h
    · cases h
      rfl
    · cases h
  port_eq host port state h := by
    split at h
    · rename_i hport
      cases h
      rw [hport]
      exact agentPortOf_hostEnv host
    · cases h
  sorted host port state h := by
    split at h
    · cases h
      rintro port' body entries ⟨⟩
    · cases h

/-- The registration of the agent on a machine. -/
def hostRegistration (host : String) : RegistryAction :=
  .register ((hostEnv host).registrant ("RTX 4090", 24576)).payload ⟨host, 0, 0, .ok, []⟩

theorem onePort_hostRegistration (st : RegistryState) (host : String) :
    OnePort hostNetwork 8181 st (hostRegistration host) :=
  .inl ⟨hostEnv host, ("RTX 4090", 24576), agentPortOf_hostEnv host, rfl⟩

/-- A gateway without a database that knows some machines. -/
def hostState (hosts : List String) : RegistryState :=
  ⟨⟨none, hosts.map fun host => agentNode host host 8181⟩, [], .next []⟩

theorem reachedBy_hostState :
    registry.ReachedBy (OnePort hostNetwork 8181) (hostState ["10.0.0.1", "10.0.0.2"]) := by
  have hfirst : registryStep (hostState []) (hostRegistration "10.0.0.1") =
      some (hostState ["10.0.0.1"]) := by decide +kernel
  have hsecond : registryStep (hostState ["10.0.0.1"]) (hostRegistration "10.0.0.2") =
      some (hostState ["10.0.0.1", "10.0.0.2"]) := by decide +kernel
  have hinit : registry.init (hostState []) := ⟨rfl, rfl, rfl⟩
  exact .step (.step (.init hinit) (onePort_hostRegistration _ "10.0.0.1") hfirst)
    (onePort_hostRegistration _ "10.0.0.2") hsecond

/-- What comes of a request that two agents send around. -/
def silentOutside : Outside where
  answer _ := .unreachable
  own := .unreachable
  upstream _ := .unreachable
  requestId := "r1"
  completionId := "1"
  created := 0

theorem one_port_refused_two_agents :
    let state : AppState Nat :=
      ⟨(hostState ["10.0.0.1", "10.0.0.2"]).store.nodes, [], 0, "http://localhost:11434", true⟩
    let c := completions .ascii .release f64Max state silentOutside "key-1" readPlain helloRequest
    (∃ contact, c.contacted = [contact] ∧ contact.node.map (·.nodeId) = some "10.0.0.1") ∧
      (∃ body, c.response = .ok (.error 502 body)) ∧ c.usage = [] := by
  intro state c
  have hreq : sanitizeRequest helloRequest = .ok helloRequest := rfl
  have hthrough : silentOutside.Through hostNetwork (fun _ => "error decoding response body")
      helloRequest := by
    rintro plan body - ⟨⟩
  rcases one_port_refused .ascii .release f64Max state silentOutside "key-1" readPlain
    reachedBy_hostState rfl hreq rfl (by decide) (by decide) hthrough with
    ⟨-, hown⟩ | ⟨-, ⟨contact, hcontacted⟩, hrefused⟩
  · refine absurd (congrArg (fun c => c.contacted.map (·.url)) hown) ?_
    decide +kernel
  · refine ⟨⟨contact, hcontacted, ?_⟩, hrefused⟩
    have hfirst : (c.contacted.map fun c => c.node.map (·.nodeId)) = [some "10.0.0.1"] := by
      decide +kernel
    rw [hcontacted] at hfirst
    simpa using hfirst

end InferPlatform.Gateway
