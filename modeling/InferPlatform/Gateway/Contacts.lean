import InferPlatform.Gateway.Failover
import InferPlatform.Gateway.Fallback

/-!
# Where requests go

A chat request is posted to nodes of the gateway's list in memory, or to the gateway's own
Ollama server. With a database, the list holds the registrations that the table has not taken.

* `contacted_online` — **a request is posted to online nodes of the list only**;
* `contacted_failed` — **with a database, it is posted to a node only where the newest
  registration that failed for its name is that of the node**, in every run of the registry.
-/

namespace InferPlatform.Gateway

open Agent Checked Planner Wire

/-! ## Contacts of candidates -/

theorem controller_mem {plan : ShardPlan} {a : ShardAssignment} (h : plan.controller = .ok a) :
    a ∈ plan.assignments := by
  unfold ShardPlan.controller at h
  split at h
  · cases h
  · rename_i first rest hassignments
    cases h
    rw [hassignments]
    exact List.mem_cons_self

/-- The request goes to the node of the assignment, or to its agent. -/
def Contact.At (contact : Contact) (a : ShardAssignment) : Prop :=
  contact.node = some a ∧
    (contact.url = s!"{a.ollamaBaseUrl}/api/chat" ∨ contact.url = shardUrl a)

/-- A candidate is asked at its controller. -/
theorem execute_contact {answer : ShardPlan → NodeAnswer} {req : ChatCompletionRequest}
    {requestId : String} {plan : ShardPlan} {contact : Contact} {result : Except String Json}
    (h : execute answer req requestId plan = .ok (contact, result)) :
    ∃ a ∈ plan.assignments, contact.At a := by
  cases hcontroller : plan.controller with
  | error panic =>
      rw [execute, singleNodeExecute, pipelineExecute, hcontroller] at h
      split at h <;> cases h
  | ok a =>
      refine ⟨a, controller_mem hcontroller, ?_⟩
      rw [execute] at h
      split at h
      · rw [singleNodeExecute, hcontroller] at h
        cases h
        exact ⟨rfl, .inl rfl⟩
      · have hpost : Agent.pipelineExecute req plan requestId =
            .ok (shardUrl a, pipelineRequest req plan requestId) := by
          rw [Agent.pipelineExecute, hcontroller]
          rfl
        rw [pipelineExecute, hcontroller] at h
        simp only [hpost, bind, Except.bind] at h
        cases h
        exact ⟨rfl, .inr rfl⟩

theorem contacted_tryCandidates {answer : ShardPlan → NodeAnswer} {req : ChatCompletionRequest}
    {requestId : String} (candidates : List ShardPlan) (lastErr : String) :
    ∀ contact ∈ (tryCandidates answer req requestId lastErr candidates).1,
      ∃ plan ∈ candidates, ∃ a ∈ plan.assignments, contact.At a := by
  induction candidates generalizing lastErr with
  | nil =>
      rintro contact ⟨⟩
  | cons plan rest ih =>
      intro contact hcontact
      rw [tryCandidates] at hcontact
      split at hcontact
      · cases hcontact
      · rename_i first body hexecute
        obtain rfl := List.mem_singleton.mp hcontact
        obtain ⟨a, ha, hnode⟩ := execute_contact hexecute
        exact ⟨plan, List.mem_cons_self, a, ha, hnode⟩
      · rename_i first e hexecute
        rcases List.mem_cons.mp hcontact with rfl | hcontact
        · obtain ⟨a, ha, hnode⟩ := execute_contact hexecute
          exact ⟨plan, List.mem_cons_self, a, ha, hnode⟩
        · obtain ⟨later, hlater, a, ha, hnode⟩ := ih e contact hcontact
          exact ⟨later, List.mem_cons_of_mem _ hlater, a, ha, hnode⟩

/-! ## Contacts of a request -/

section

variable {Ms : Type} (u : Unicode) (p : Profile) (state : AppState Ms) (o : Outside)
  (keyId : String) (parse : List Char → Option Json)

/-- The gateway's own Ollama server. -/
def Contact.Own (contact : Contact) : Prop :=
  contact.node = none ∧ contact.url = s!"{state.ollamaUrl}/api/chat"

theorem contacted_complete (rrCounter : UInt64) (contacted : List Contact) (body : Json)
    (model : String) :
    (complete u p state o keyId rrCounter contacted body model).contacted = contacted := by
  unfold complete
  split <;> rfl

theorem contacted_nonStreamResponse (rrCounter : UInt64) (req : ChatCompletionRequest) :
    ∀ contact ∈ (nonStreamResponse u p state o keyId rrCounter req).contacted,
      contact.Own state := by
  intro contact hcontact
  have hcontacted : (nonStreamResponse u p state o keyId rrCounter req).contacted =
      [⟨none, s!"{state.ollamaUrl}/api/chat", .chat (ollamaChat req false)⟩] := by
    unfold nonStreamResponse
    cases o.own with
    | unreachable | status | malformed => rfl
    | ok body => exact contacted_complete u p state o keyId _ _ _ _
  rw [hcontacted] at hcontact
  obtain rfl := List.mem_singleton.mp hcontact
  exact ⟨rfl, rfl⟩

theorem streamCompletion_of_node {rrCounter : UInt64} {candidates : List ShardPlan}
    {req : ChatCompletionRequest} {node : Option ShardAssignment}
    (hnode : candidates.head?.mapM ShardPlan.controller = .ok node) :
    (streamCompletion u state o keyId parse rrCounter candidates req).contacted =
      [⟨node, s!"{(node.map ShardAssignment.ollamaBaseUrl).getD state.ollamaUrl}/api/chat",
        .chat (ollamaChat req true)⟩] := by
  rw [streamCompletion, hnode]
  dsimp only
  split <;> rfl

/-- A stream is asked of the first candidate. -/
theorem contacted_streamCompletion (rrCounter : UInt64) (candidates : List ShardPlan)
    (req : ChatCompletionRequest) :
    ∀ contact ∈ (streamCompletion u state o keyId parse rrCounter candidates req).contacted,
      contact.Own state ∨ ∃ plan ∈ candidates, ∃ a ∈ plan.assignments, contact.At a := by
  intro contact hcontact
  cases hnode : candidates.head?.mapM ShardPlan.controller with
  | error panic =>
      rw [streamCompletion, hnode] at hcontact
      cases hcontact
  | ok node =>
      rw [streamCompletion_of_node u state o keyId parse hnode] at hcontact
      obtain rfl := List.mem_singleton.mp hcontact
      cases candidates with
      | nil =>
          cases hnode
          exact .inl ⟨rfl, rfl⟩
      | cons plan rest =>
          rw [List.head?_cons, Option.mapM_some] at hnode
          cases hcontroller : plan.controller with
          | error panic =>
              rw [hcontroller] at hnode
              cases hnode
          | ok a =>
              rw [hcontroller] at hnode
              cases hnode
              exact .inr ⟨plan, List.mem_cons_self, a, controller_mem hcontroller, rfl, .inl rfl⟩

variable [LinearOrder Ms] (maxMs : Ms)

/-- **Only online nodes are asked**: whatever a request says and whatever comes of it, it is
posted to the gateway's own Ollama server, or to online nodes of the list in memory. -/
theorem contacted_online (req : ChatCompletionRequest) :
    ∀ contact ∈ (completions u p maxMs state o keyId parse req).contacted,
      contact.Own state ∨
        ∃ n ∈ state.nodes, n.status = .online ∧ ∃ a, contact.At a ∧ Copies a n.capacity := by
  intro contact hcontact
  cases hreq : sanitizeRequest req with
  | error e =>
      rw [completions, hreq] at hcontact
      cases hcontact
  | ok req' =>
      rw [completions, hreq] at hcontact
      dsimp only at hcontact
      generalize hbuilt : buildCandidates p maxMs state.rrCounter req'.model state.nodes
        state.nodeStats = built at hcontact
      obtain ⟨candidates, rrCounter⟩ := built
      cases candidates with
      | error panic => cases hcontact
      | ok candidates =>
          have hplanned : ∀ plan ∈ candidates, PlannedFrom p req'.model state.nodes plan :=
            fun plan hplan => plannedFrom_buildCandidates (congrArg Prod.fst hbuilt) hplan
          have hnode : ∀ plan ∈ candidates, ∀ a ∈ plan.assignments, contact.At a →
              ∃ n ∈ state.nodes, n.status = .online ∧ ∃ a, contact.At a ∧ Copies a n.capacity := by
            intro plan hplan a ha hat
            obtain ⟨n, hn, honline, hcopy⟩ := (hplanned plan hplan).copied ha
            exact ⟨n, hn, honline, a, hat, hcopy⟩
          dsimp only at hcontact
          split at hcontact
          · rcases contacted_streamCompletion u state o keyId parse _ _ _ contact hcontact with
              hown | ⟨plan, hplan, a, ha, hat⟩
            · exact .inl hown
            · exact .inr (hnode plan hplan a ha hat)
          · split at hcontact
            · exact .inl (contacted_nonStreamResponse u p state o keyId _ _ contact hcontact)
            · right
              have htried : contact ∈
                  (tryCandidates o.answer req' o.requestId "all candidates failed" candidates).1 := by
                rename_i hsome
                have hexecute : executeWithFailover o.answer req' o.requestId candidates =
                    tryCandidates o.answer req' o.requestId "all candidates failed" candidates :=
                  if_neg hsome
                rw [hexecute] at hcontact
                split at hcontact
                · rename_i htry
                  rwa [htry]
                · rename_i htry
                  rwa [htry]
                · rename_i htry
                  rw [contacted_complete] at hcontact
                  rwa [htry]
              obtain ⟨plan, hplan, a, ha, hat⟩ := contacted_tryCandidates _ _ contact htried
              exact hnode plan hplan a ha hat

/-- **Behind a database only outages are routed to**: in every run of the registry with a
database, whatever comes of its statements, a request is posted to a node only if the table has
refused a registration of it, the newest that it has refused under this name. While it takes
every registration, all requests go to the gateway's own Ollama server. -/
theorem contacted_failed {s : RegistryState × Outages} (h : outages.Reachable s)
    (hdb : s.1.store.db ≠ none) (hnodes : state.nodes = s.1.store.nodes)
    (req : ChatCompletionRequest) :
    ∀ contact ∈ (completions u p maxMs state o keyId parse req).contacted,
      contact.Own state ∨
        ∃ n, newestOf s.2.failed n.name = some n ∧ ∃ a, contact.At a ∧ Copies a n.capacity := by
  intro contact hcontact
  rcases contacted_online u p state o keyId parse maxMs req contact hcontact with
    hown | ⟨n, hn, -, hat⟩
  · exact .inl hown
  · rw [hnodes] at hn
    exact .inr ⟨n, (noted_of_reachedBy h hdb).mem_nodes.mp hn, hat⟩

end

/-! ## One node during an outage, and one after it -/

theorem contacted_failed_outage : ∃ s, outages.Reachable s ∧ s.1.store.db ≠ none ∧
    (∃ newest ∈ s.2.succeeded, newest.name = "gpu-2") ∧
    let state : AppState Nat := ⟨s.1.store.nodes, [], 0, "http://localhost:11434", true⟩
    let o : Outside := ⟨fun _ => .unreachable, .unreachable, fun _ => .unreachable, "1", "1", 0⟩
    let c := completions .ascii .release f64Max state o "key-1" readPlain greeting
    c.contacted.map (fun contact => contact.node.map (·.host)) = [some "10.0.0.1"] ∧
      ∀ contact ∈ c.contacted, contact.Own state ∨
        ∃ n, newestOf s.2.failed n.name = some n ∧ ∃ a, contact.At a ∧ Copies a n.capacity := by
  have hrun : (outages.run (fun _ _ => True) (startState (some ⟨.empty, [], []⟩), ⟨[], [], none⟩)
      [.register sampleRequest failedInput,
        .register { sampleRequest with name := "gpu-2", host := "10.0.0.2" }
          ⟨"node-2", 1000000, 1000000, .ok, []⟩]).map
        (fun s => (s.1.store.nodes, s.1.store.db.isSome, s.2.succeeded.map (·.name))) =
      some ([newNode sampleRequest failedInput], true, ["gpu-2"]) := by decide +kernel
  have hinit : outages.init (startState (some ⟨.empty, [], []⟩), ⟨[], [], none⟩) :=
    ⟨⟨rfl, rfl, rfl⟩, rfl⟩
  obtain ⟨s, -, hreached, hvalue⟩ := System.exists_reachedBy_of_run (.init hinit) hrun
  obtain ⟨hnodes, hvalue⟩ := Prod.mk.inj hvalue
  obtain ⟨hsome, hsucceeded⟩ := Prod.mk.inj hvalue
  have hdb : s.1.store.db ≠ none := by
    intro hnone
    rw [hnone] at hsome
    cases hsome
  refine ⟨s, hreached, hdb, ?_, ?_, contacted_failed _ _ _ _ _ _ _ hreached hdb rfl _⟩
  · exact List.mem_map.mp (hsucceeded ▸ List.mem_singleton_self _)
  · rw [hnodes]
    decide +kernel

end InferPlatform.Gateway
