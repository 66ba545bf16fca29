import InferPlatform.Agent.Shard

/-!
# The pipeline visits the shards in order, or never ends

A deployment runs one agent for every assignment of a plan, at the address the
plan gives. `Handled` is the chain of `/infer/shard` requests that a first
request sets off; it has a derivation exactly when the chain ends.

* `shardIndex_le`, `shardIndex_eq_iff` — the place an agent computes for
  itself is never after its own, and is its own exactly when no earlier
  assignment shares its host or its agent port;
* `handled_range_iff` — the chain visits every shard once, in order, exactly
  when hosts and agent ports are pairwise distinct;
* `pipeline_never_ends` — otherwise there is no finite chain at all.
-/

namespace InferPlatform.Agent

open Wire Planner

/-- One running agent for each assignment, reachable at its host and agent
port, whose Ollama answers every request. -/
structure Deployment (plan : ShardPlan) where
  agent : Fin plan.assignments.length → AgentState
  host_eq : ∀ i, (agent i).nodeHost = some (plan.assignments.get i).host
  port_eq : ∀ i, (agent i).agentPort = (plan.assignments.get i).agentPort
  ollama_ok : ∀ i port body, ∃ reply, (agent i).ollama port body = .ok reply

/-- Shards have different addresses and different node ids. -/
structure DistinctShards (plan : ShardPlan) : Prop where
  addresses : (plan.assignments.map fun a => (a.host, a.agentPort)).Nodup
  nodeIds : (plan.assignments.map (·.nodeId)).Nodup

/-- The agent that listens at a URL. -/
def Deployment.dial {plan : ShardPlan} (_ : Deployment plan) (url : String) :
    Option (Fin plan.assignments.length) :=
  (List.finRange plan.assignments.length).find? fun i => shardUrl (plan.assignments.get i) = url

/-- The chain of requests that `req` at `url` sets off, with the positions of
the agents that handle it, when every hop arrives and the last shard answers. -/
inductive Handled {plan : ShardPlan} (net : Deployment plan) :
    String → ShardForwardRequest → List Nat → Prop
  | answered {url req i resp} : net.dial url = some i →
      forward (net.agent i) req = .answered (.ok resp) → Handled net url req [i.val]
  | relayed {url req i url' req' visits} : net.dial url = some i →
      forward (net.agent i) req = .relayed url' req' → Handled net url' req' visits →
      Handled net url req (i.val :: visits)

/-- Assignments that an agent with this host and agent port takes for its own. -/
def Claims (host : String) (agentPort : UInt16) (a : ShardAssignment) : Prop :=
  a.host = host ∨ a.agentPort = agentPort

section

variable {plan : ShardPlan} (net : Deployment plan)

/-- The position at which the agent of assignment `i` finds itself. -/
def Deployment.index (i : Fin plan.assignments.length) : Nat := shardIndex (net.agent i) plan

theorem position_eq_of_nodup {α β : Type} {f : α → β} {items : List α}
    (h : (items.map f).Nodup) {j k : Nat} (hj : j < items.length) (hk : k < items.length)
    (heq : f items[j] = f items[k]) : j = k := by
  have hget : (items.map f).get ⟨j, by simpa using hj⟩ =
      (items.map f).get ⟨k, by simpa using hk⟩ := by simpa using heq
  exact Fin.mk.inj ((List.Nodup.get_inj_iff h).mp hget)

/-- With distinct node ids, an agent finds itself at the first assignment that
shares its host or its agent port. -/
theorem Deployment.index_spec (hids : (plan.assignments.map (·.nodeId)).Nodup)
    (i : Fin plan.assignments.length) :
    ∃ k, ∃ hk : k < plan.assignments.length, net.index i = k ∧
      Claims (plan.assignments.get i).host (plan.assignments.get i).agentPort
        plan.assignments[k] ∧
      ∀ j (hj : j < k),
        ¬ Claims (plan.assignments.get i).host (plan.assignments.get i).agentPort
          plan.assignments[j] := by
  have hhost : localHost (net.agent i) = (plan.assignments.get i).host := by
    simp [localHost, net.host_eq i]
  unfold Deployment.index shardIndex
  rw [hhost, net.port_eq i]
  cases hfind : plan.assignments.find? (fun a => a.host = (plan.assignments.get i).host ∨
      a.agentPort = (plan.assignments.get i).agentPort) with
  | none =>
      rw [List.find?_eq_none] at hfind
      exact absurd (by simp) (hfind (plan.assignments.get i) (List.get_mem _ _))
  | some a =>
      obtain ⟨hclaims, k, hk, hget, hbefore⟩ := List.find?_eq_some_iff_getElem.mp hfind
      refine ⟨k, hk, ?_, ?_, ?_⟩
      · have hposition : plan.assignments.findIdx? (fun x => x.nodeId = a.nodeId) = some k := by
          rw [List.findIdx?_eq_some_iff_getElem]
          refine ⟨hk, by simp [hget], ?_⟩
          intro j hj hsame
          have hposition := position_eq_of_nodup hids (by omega) hk
            (show plan.assignments[j].nodeId = plan.assignments[k].nodeId by simpa [hget] using hsame)
          omega
        simp [hposition]
      · rw [hget]
        simpa [Claims] using hclaims
      · intro j hj hclaim
        have := hbefore j hj
        simp only [Bool.not_eq_true', decide_eq_false_iff_not] at this
        exact this hclaim

/-- An agent never finds itself after its own place. -/
theorem Deployment.index_le (hids : (plan.assignments.map (·.nodeId)).Nodup)
    (i : Fin plan.assignments.length) : net.index i ≤ i := by
  obtain ⟨k, hk, hindex, _, hbefore⟩ := net.index_spec hids i
  rw [hindex]
  by_contra hlt
  exact hbefore i (by omega) (.inl rfl)

/-- An agent finds its own place exactly when no earlier assignment shares its
host or its agent port. -/
theorem Deployment.index_eq_iff (hids : (plan.assignments.map (·.nodeId)).Nodup)
    (i : Fin plan.assignments.length) :
    net.index i = i ↔ ∀ j (hj : j < i.val),
      ¬ Claims (plan.assignments.get i).host (plan.assignments.get i).agentPort
        plan.assignments[j] := by
  obtain ⟨k, hk, hindex, hclaim, hbefore⟩ := net.index_spec hids i
  have hle := net.index_le hids i
  constructor
  · intro heq j hj
    exact hbefore j (by omega)
  · intro hnone
    by_contra hne
    exact hnone k (by omega) hclaim

/-- Different shards have different URLs, so a shard's URL dials its agent. -/
theorem Deployment.dial_shardUrl (distinct : DistinctShards plan)
    (i : Fin plan.assignments.length) :
    net.dial (shardUrl (plan.assignments.get i)) = some i := by
  unfold Deployment.dial
  rw [List.find?_eq_some_iff_getElem]
  refine ⟨by simp, i.val, by simp, by simp, ?_⟩
  intro j hj
  simp only [List.getElem_finRange, Bool.not_eq_true', decide_eq_false_iff_not]
  intro hurl
  obtain ⟨hhost, hport⟩ := shardUrl_inj hurl
  have hlen : j < plan.assignments.length := by omega
  have hsame := position_eq_of_nodup distinct.addresses hlen i.isLt
    (show (plan.assignments[j].host, plan.assignments[j].agentPort) = _ by
      simpa using ⟨hhost, hport⟩)
  omega

/-- What one agent does: it relays to the shard after the place it found, or
answers when it found the last place. -/
theorem Deployment.forward_spec (i : Fin plan.assignments.length) (req : ShardForwardRequest)
    (hplan : req.plan = plan) :
    (∃ h : net.index i + 1 < plan.assignments.length, ∃ next, next.plan = plan ∧
      forward (net.agent i) req =
        .relayed (shardUrl (plan.assignments.get ⟨net.index i + 1, h⟩)) next) ∨
    (plan.assignments.length ≤ net.index i + 1 ∧
      ∃ resp, forward (net.agent i) req = .answered (.ok resp)) := by
  obtain ⟨body, hbody⟩ := net.ollama_ok i (net.agent i).nodePort
    (ollamaRequest req.model req.messages (ollamaOptions req.temperature req.topP req.maxTokens))
  have hrun : runOllamaInference (net.agent i) req = .ok body := hbody
  unfold forward
  rw [hrun, hplan, show shardIndex (net.agent i) plan = net.index i from rfl]
  by_cases h : net.index i + 1 < plan.assignments.length
  · left
    refine ⟨h, nextRequest req body, by simpa using hplan, ?_⟩
    simp [List.getElem?_eq_getElem h]
  · right
    refine ⟨by omega, ⟨req.requestId, req.model, body⟩, ?_⟩
    simp [List.getElem?_eq_none (Nat.le_of_not_lt h)]

/-! ## Chains of requests -/

/-- A chain that starts at shard `i`: its agent is the first visit, and the
chain either ends there or goes on after the place that agent found. -/
theorem Handled.inv (distinct : DistinctShards plan) {i : Fin plan.assignments.length}
    {req : ShardForwardRequest} {visits : List Nat} (hplan : req.plan = plan)
    (h : Handled net (shardUrl (plan.assignments.get i)) req visits) :
    (plan.assignments.length ≤ net.index i + 1 ∧ visits = [i.val]) ∨
    (∃ hnext : net.index i + 1 < plan.assignments.length, ∃ next rest, next.plan = plan ∧
      visits = i.val :: rest ∧
      Handled net (shardUrl (plan.assignments.get ⟨net.index i + 1, hnext⟩)) next rest) := by
  have hdial := net.dial_shardUrl distinct i
  cases h with
  | answered hat hans =>
      obtain rfl := Option.some.inj (hat.symm.trans hdial)
      rcases net.forward_spec _ req hplan with ⟨_, next, _, hfwd⟩ | ⟨hlast, _⟩
      · rw [hans] at hfwd
        cases hfwd
      · exact .inl ⟨hlast, rfl⟩
  | relayed hat hrel hrest =>
      obtain rfl := Option.some.inj (hat.symm.trans hdial)
      rcases net.forward_spec _ req hplan with ⟨hnext, next, hnextPlan, hfwd⟩ | ⟨_, resp, hfwd⟩
      · rw [hrel] at hfwd
        injection hfwd with hurl hreq
        subst hurl hreq
        exact .inr ⟨hnext, _, _, hnextPlan, rfl, hrest⟩
      · rw [hrel] at hfwd
        cases hfwd

theorem Handled.head (distinct : DistinctShards plan) {i : Fin plan.assignments.length}
    {req : ShardForwardRequest} {visits : List Nat} (hplan : req.plan = plan)
    (h : Handled net (shardUrl (plan.assignments.get i)) req visits) :
    visits.head? = some i.val := by
  rcases h.inv net distinct hplan with ⟨_, rfl⟩ | ⟨_, _, _, _, rfl, _⟩ <;> rfl

/-- Along a chain that visits `i, i + 1, …, n - 1`, every agent found its own
place. Induction on the number of shards still to visit. -/
theorem index_eq_of_handled (distinct : DistinctShards plan) :
    ∀ (k : Nat) (i : Fin plan.assignments.length) (req : ShardForwardRequest),
    i.val + k = plan.assignments.length → req.plan = plan →
    Handled net (shardUrl (plan.assignments.get i)) req (List.range' i.val k) →
    ∀ j : Fin plan.assignments.length, i ≤ j → net.index j = j := by
  intro k
  induction k with
  | zero => intro i req hk; omega
  | succ k ih =>
      intro i req hk hplan h j hij
      have hle := net.index_le distinct.nodeIds i
      rw [List.range'_succ] at h
      rcases h.inv net distinct hplan with ⟨hlast, hvisits⟩ |
        ⟨hnext, next, rest, hnextPlan, hvisits, hrest⟩
      · have hk0 : k = 0 := by simpa using hvisits
        have hji : j = i := by omega
        rw [hji]
        omega
      · obtain rfl : List.range' (i.val + 1) k = rest := by simpa using hvisits
        have hhead := hrest.head net distinct hnextPlan
        cases k with
        | zero => simp at hhead
        | succ k =>
            have hindex : net.index i = i := by
              simp only [List.range'_succ, List.head?_cons, Option.some.injEq] at hhead
              omega
            rcases eq_or_lt_of_le hij with rfl | hlt
            · exact hindex
            · have hstart : (⟨net.index i + 1, hnext⟩ : Fin plan.assignments.length).val =
                  i.val + 1 := by simp [hindex]
              rw [← hstart] at hrest
              exact ih _ next (by rw [hstart]; omega) hnextPlan hrest j
                (Fin.le_def.mpr (by rw [hstart]; exact Fin.lt_def.mp hlt))

/-- When every agent finds its own place, the chain from `i` visits the shards
from `i` on, in order, and ends. -/
theorem handled_of_index_eq (distinct : DistinctShards plan)
    (hindex : ∀ j : Fin plan.assignments.length, net.index j = j) :
    ∀ (k : Nat) (i : Fin plan.assignments.length) (req : ShardForwardRequest),
    i.val + (k + 1) = plan.assignments.length → req.plan = plan →
    Handled net (shardUrl (plan.assignments.get i)) req (List.range' i.val (k + 1)) := by
  intro k
  induction k with
  | zero =>
      intro i req hk hplan
      rcases net.forward_spec i req hplan with ⟨hnext, _⟩ | ⟨_, resp, hfwd⟩
      · rw [hindex i] at hnext
        omega
      · exact .answered (net.dial_shardUrl distinct i) hfwd
  | succ k ih =>
      intro i req hk hplan
      rcases net.forward_spec i req hplan with ⟨hnext, next, hnextPlan, hfwd⟩ | ⟨hlast, _⟩
      · have hstart : (⟨net.index i + 1, hnext⟩ : Fin plan.assignments.length).val =
            i.val + 1 := by simp [hindex]
        have hrest := ih ⟨net.index i + 1, hnext⟩ next (by rw [hstart]; omega) hnextPlan
        rw [hstart] at hrest
        rw [List.range'_succ]
        exact .relayed (net.dial_shardUrl distinct i) hfwd hrest
      · rw [hindex i] at hlast
        omega

/-- Every agent finds its own place exactly when no two shards share a host
and no two share an agent port. -/
theorem index_eq_iff_nodup (hids : (plan.assignments.map (·.nodeId)).Nodup) :
    (∀ j : Fin plan.assignments.length, net.index j = j) ↔
      (plan.assignments.map (·.host)).Nodup ∧ (plan.assignments.map (·.agentPort)).Nodup := by
  simp only [List.Nodup, List.pairwise_iff_getElem, List.length_map, List.getElem_map]
  constructor
  · intro h
    have hne : ∀ (i j : Nat) (hi : i < plan.assignments.length)
        (hj : j < plan.assignments.length), i < j →
        ¬ Claims plan.assignments[j].host plan.assignments[j].agentPort plan.assignments[i] :=
      fun i j _ hj hij => (net.index_eq_iff hids ⟨j, hj⟩).mp (h ⟨j, hj⟩) i hij
    exact ⟨fun i j hi hj hij heq => hne i j hi hj hij (.inl heq),
      fun i j hi hj hij heq => hne i j hi hj hij (.inr heq)⟩
  · rintro ⟨hhosts, hports⟩ j
    rw [net.index_eq_iff hids]
    intro i hij hclaim
    rcases hclaim with heq | heq
    · exact hhosts i j.val (by omega) j.isLt hij heq
    · exact hports i j.val (by omega) j.isLt hij heq

/-- Once agent `i` finds an earlier place than its own, a chain from a shard up
to `i` comes back to one for ever: no finite chain starts there. -/
theorem not_handled_of_index_lt (distinct : DistinctShards plan)
    {i : Fin plan.assignments.length} (hback : net.index i < i) :
    ∀ (visits : List Nat) (j : Fin plan.assignments.length) (req : ShardForwardRequest),
    j ≤ i → req.plan = plan →
    ¬ Handled net (shardUrl (plan.assignments.get j)) req visits := by
  intro visits
  induction visits with
  | nil =>
      intro j req _ hplan h
      have := h.head net distinct hplan
      simp at this
  | cons visit rest ih =>
      intro j req hji hplan h
      -- the place agent `j` finds is before `i`, whether `j` is `i` or not
      have hbefore : net.index j + 1 ≤ i := by
        rcases eq_or_lt_of_le hji with rfl | hlt
        · exact hback
        · have hle := net.index_le distinct.nodeIds j
          have hlt := Fin.lt_def.mp hlt
          omega
      rcases h.inv net distinct hplan with ⟨hlast, _⟩ | ⟨hnext, next, rest', hnextPlan, hvisits, hrest⟩
      · have := i.isLt
        omega
      · obtain rfl : rest = rest' := by simpa using (List.cons.inj hvisits).2
        exact ih _ next (Fin.le_def.mpr hbefore) hnextPlan hrest

/-- Where two shards share a host or an agent port, no pipeline request ends. -/
theorem pipeline_never_ends (distinct : DistinctShards plan)
    (hshared : ¬ ((plan.assignments.map (·.host)).Nodup ∧
      (plan.assignments.map (·.agentPort)).Nodup))
    (hne : 0 < plan.assignments.length) (req : ShardForwardRequest) (hplan : req.plan = plan)
    (visits : List Nat) : ¬ Handled net (shardUrl (plan.assignments.get ⟨0, hne⟩)) req visits := by
  rw [← index_eq_iff_nodup net distinct.nodeIds] at hshared
  push Not at hshared
  obtain ⟨i, hi⟩ := hshared
  have hback : net.index i < i := lt_of_le_of_ne (net.index_le distinct.nodeIds i) hi
  exact not_handled_of_index_lt net distinct hback visits _ req (Fin.le_def.mpr (Nat.zero_le _))
    hplan

end

theorem pipelineExecute_ok {plan : ShardPlan} (req : ChatCompletionRequest) (requestId : String)
    (hne : 0 < plan.assignments.length) :
    pipelineExecute req plan requestId =
      .ok (shardUrl (plan.assignments.get ⟨0, hne⟩), pipelineRequest req plan requestId) := by
  obtain ⟨model, totalLayers, assignments⟩ := plan
  cases assignments with
  | nil => cases hne
  | cons first rest => rfl

/-- **Pipeline forwarding.** For a plan with distinct addresses and node ids,
deployed as it says, the gateway's request is handled by shards
`0, 1, …, n - 1` in this order, each once, and the chain ends there, exactly
when no two shards share a host and no two share an agent port. -/
theorem pipeline_in_order_iff (plan : ShardPlan) (net : Deployment plan)
    (distinct : DistinctShards plan) (hne : 1 ≤ plan.assignments.length)
    (req : ChatCompletionRequest) (requestId : String) :
    (∃ url first, pipelineExecute req plan requestId = .ok (url, first) ∧
        Handled net url first (List.range plan.assignments.length)) ↔
      (plan.assignments.map (·.host)).Nodup ∧ (plan.assignments.map (·.agentPort)).Nodup := by
  rw [← index_eq_iff_nodup net distinct.nodeIds, pipelineExecute_ok req requestId hne,
    List.range_eq_range']
  constructor
  · rintro ⟨url, first, hstart, h⟩ j
    simp only [Except.ok.injEq, Prod.mk.injEq] at hstart
    obtain ⟨rfl, rfl⟩ := hstart
    exact index_eq_of_handled net distinct _ ⟨0, hne⟩ _ (by simp) rfl h j
      (Fin.le_def.mpr (Nat.zero_le _))
  · intro hindex
    refine ⟨_, _, rfl, ?_⟩
    obtain ⟨k, hk⟩ := Nat.exists_eq_succ_of_ne_zero (show plan.assignments.length ≠ 0 by omega)
    have h := handled_of_index_eq net distinct hindex k ⟨0, hne⟩
      (pipelineRequest req plan requestId) (by simp [hk]) rfl
    have hrange : List.range' 0 plan.assignments.length = List.range' 0 (k + 1) := by rw [hk]
    rw [hrange]
    exact h

/-- Two machines with the default agent port, running layers 0–45 and 46–79. -/
def defaultPortPlan : ShardPlan :=
  ⟨"llama3.1:70b", 80,
    [⟨"gpu0", "10.0.0.1", 11434, 8181, 0, 46, 22080⟩,
     ⟨"gpu1", "10.0.0.2", 11434, 8181, 46, 80, 16320⟩]⟩

/-- Agents started as a plan says, with an Ollama that answers `{}`. -/
def idleDeployment (plan : ShardPlan) : Deployment plan where
  agent i :=
    { nodePort := (plan.assignments.get i).ollamaPort
      agentPort := (plan.assignments.get i).agentPort
      nodeHost := some (plan.assignments.get i).host
      ollama := fun _ _ => .ok (.object []) }
  host_eq _ := rfl
  port_eq _ := rfl
  ollama_ok _ _ _ := ⟨_, rfl⟩

def helloRequest : ChatCompletionRequest :=
  ⟨"llama3.1:70b", [⟨"user", "hello"⟩], false, none, none, none⟩

/-- On two machines with the default agent port the second agent takes itself
for the first, and the request never reaches an end. -/
theorem default_ports_never_end :
    DistinctShards defaultPortPlan ∧
      ¬ ∃ url first visits, pipelineExecute helloRequest defaultPortPlan "r1" = .ok (url, first) ∧
        Handled (idleDeployment defaultPortPlan) url first visits := by
  have distinct : DistinctShards defaultPortPlan := ⟨by decide, by decide⟩
  refine ⟨distinct, ?_⟩
  rintro ⟨url, first, visits, hstart, h⟩
  have hne : 0 < defaultPortPlan.assignments.length := by decide
  rw [pipelineExecute_ok helloRequest "r1" hne] at hstart
  simp only [Except.ok.injEq, Prod.mk.injEq] at hstart
  obtain ⟨rfl, rfl⟩ := hstart
  exact pipeline_never_ends (idleDeployment defaultPortPlan) distinct (by decide) (by decide) _
    rfl visits h

/-- The same two machines with different agent ports: shards 0 and 1 handle the
request, and it ends. -/
theorem pipeline_in_order_iff_two_ports :
    let plan : ShardPlan := ⟨"llama3.1:70b", 80,
      [⟨"gpu0", "10.0.0.1", 11434, 8181, 0, 46, 22080⟩,
       ⟨"gpu1", "10.0.0.2", 11434, 8182, 46, 80, 16320⟩]⟩
    ∃ url first, pipelineExecute helloRequest plan "r1" = .ok (url, first) ∧
      Handled (idleDeployment plan) url first [0, 1] :=
  (pipeline_in_order_iff _ (idleDeployment _) ⟨by decide, by decide⟩ (by decide)
    helloRequest "r1").mpr ⟨by decide, by decide⟩

end InferPlatform.Agent
