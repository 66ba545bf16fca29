import InferPlatform.Gateway.Roster

/-!
# The fallback to memory

With a database, a registration whose upsert fails goes to the list in memory. Nothing
takes it from there again: neither a later registration of the name that succeeds, nor the
sweep, nor the health monitor.

* `Outages` — what an observer notes of the registrations, and of a sweep just made;
* `nodes_eq` — memory holds the newest failed registration of every name, and no more;
* `noneOutlived_recovered` — **an entry is outdated as soon as its name registers
  otherwise, or a sweep finds it stale**, and not before;
* `outage_outlived` — an outage after which a node that moved is still routed to.
-/

namespace InferPlatform.Gateway

/-- The accepted registrations whose upsert succeeded and failed, in their order; and the
cutoff of a sweep that was the last step. -/
structure Outages where
  succeeded : List NodeInfo
  failed : List NodeInfo
  cutoff : Option Int
  deriving DecidableEq, Repr

/-- An upsert that is done, but with an error for the gateway, is a failed one. -/
def noteOutages (notes : Outages) (_ : RegistryState) : RegistryAction → RegistryState → Outages
  | .register req input, _ =>
    if findViolations req.models ≠ [] then { notes with cutoff := none }
    else if input.upsert = .ok then
      { notes with succeeded := notes.succeeded ++ [newNode req input], cutoff := none }
    else { notes with failed := notes.failed ++ [newNode req input], cutoff := none }
  | .sweep now _, _ => { notes with cutoff := some (now - 90000000) }
  | _, _ => { notes with cutoff := none }

/-- The registry of a gateway, observed. -/
abbrev outages : System (RegistryState × Outages) RegistryAction :=
  registry.observed ⟨[], [], none⟩ noteOutages

/-- The newest registration of a name. -/
def newestOf (history : List NodeInfo) (name : String) : Option NodeInfo :=
  (history.filter fun n => n.name = name).getLast?

/-- Where requests for the node go, and how much room it has. -/
def NodeInfo.endpoint (n : NodeInfo) : String × UInt16 × UInt16 × UInt64 :=
  (n.host, n.port, n.agentPort, n.vramMb)

/-- No online entry in memory differs from the newest successful registration of its name,
and right after a sweep none is older than its cutoff. -/
structure NoneOutlived (s : RegistryState × Outages) : Prop where
  current : ∀ n ∈ s.1.store.nodes, n.status = .online →
    ∀ newest ∈ newestOf s.2.succeeded n.name, n.endpoint = newest.endpoint
  swept : ∀ cutoff ∈ s.2.cutoff, ∀ n ∈ s.1.store.nodes, n.status = .online → cutoff ≤ n.lastSeen

/-- A registration agrees with the newest one of its name that came out otherwise, and a
sweep comes while the failed registrations are fresh. -/
def Recovered (s : RegistryState × Outages) : RegistryAction → Prop
  | .register req input => findViolations req.models = [] →
      if input.upsert = .ok then
        ∀ old ∈ newestOf s.2.failed req.name, old.endpoint = (newNode req input).endpoint
      else ∀ newest ∈ newestOf s.2.succeeded req.name,
        (newNode req input).endpoint = newest.endpoint
  | .sweep now _ => ∀ old ∈ s.2.failed, newestOf s.2.failed old.name = some old →
      now - 90000000 ≤ old.lastSeen
  | _ => True

instance (s : RegistryState × Outages) : (a : RegistryAction) → Decidable (Recovered s a)
  | .register _ _ => inferInstanceAs (Decidable (_ → _))
  | .sweep _ _ => inferInstanceAs (Decidable (∀ old ∈ s.2.failed, _ → _))
  | .tick _ | .ping _ _ | .recordProbe _ _ | .countFailures _ | .updateStatus _ =>
    inferInstanceAs (Decidable True)

/-! ## What a step does to memory -/

/-- A registration that the table does not take goes to memory. -/
theorem register_nodes_of_failed {st : NodeStore} {req : RegisterNodeRequest}
    {input : RegisterInput} (hdb : st.db ≠ none) (haccepted : findViolations req.models = [])
    (hfailed : input.upsert ≠ .ok) :
    (register st req input).1.nodes = registerMemory st.nodes (newNode req input) := by
  unfold register
  rw [if_neg (by simp [haccepted])]
  cases hst : st.db with
  | none => exact absurd hst hdb
  | some db =>
      dsimp only
      split
      · rfl
      · rfl
      · rfl
      · rename_i hok
        exact absurd hok hfailed

/-- The list in memory after a step, with a database. -/
def nodesAfter (nodes : List NodeInfo) : RegistryAction → List NodeInfo
  | .register req input =>
    if findViolations req.models = [] ∧ input.upsert ≠ .ok then
      upsertBy (·.name) (fun _ new => new) (newNode req input) nodes
    else nodes
  | _ => nodes

/-- With a database, only a registration of which the upsert fails touches memory. -/
theorem nodes_of_step {st st' : RegistryState} {a : RegistryAction}
    (hstep : registryStep st a = some st') (hdb : st.store.db ≠ none) :
    st'.store.nodes = nodesAfter st.store.nodes a := by
  cases registryMove_of_step hstep with
  | @register req input hfresh =>
      show (register st.store req input).1.nodes = if _ then _ else _
      by_cases haccepted : findViolations req.models = []
      · by_cases hok : input.upsert = .ok
        · rw [if_neg (by simp [hok]), register_nodes_of_db hdb hfresh hok]
        · rw [if_pos ⟨haccepted, hok⟩, register_nodes_of_failed hdb haccepted hok,
            registerMemory_eq]
      · rw [if_neg (by simp [haccepted]), register_rejected haccepted]
  | sweep => exact sweep_nodes_of_db hdb
  | pingMemory _ hnone => exact absurd hnone hdb
  | tick | pingDb | drop | record | count | updateFailed | update => rfl

/-- The storage mode stays. -/
theorem db_of_step {st st' : RegistryState} {a : RegistryAction}
    (hstep : registryStep st a = some st') : st'.store.db = none ↔ st.store.db = none := by
  cases registryMove_of_step hstep with
  | register => exact register_db_eq_none
  | sweep => exact sweep_db_eq_none
  | record _ hdb | update _ hdb => simp [hdb]
  | tick | pingDb | pingMemory | drop | count | updateFailed => exact Iff.rfl

/-! ## The newest registrations -/

theorem newestOf_concat (history : List NodeInfo) (new : NodeInfo) (name : String) :
    newestOf (history ++ [new]) name =
      if new.name = name then some new else newestOf history name := by
  rw [newestOf, List.filter_append]
  by_cases hname : new.name = name
  · simp [hname]
  · simp [hname, newestOf]

theorem newestOf_mem {history : List NodeInfo} {name : String} {n : NodeInfo}
    (h : newestOf history name = some n) : n ∈ history ∧ n.name = name := by
  have hmem := List.mem_of_getLast? h
  obtain ⟨hmem, hname⟩ := List.mem_filter.mp hmem
  exact ⟨hmem, of_decide_eq_true hname⟩

/-- With a database, memory is what the failed registrations make of it. -/
structure Noted (s : RegistryState × Outages) : Prop where
  nodes_eq : s.1.store.nodes = upsertAll (·.name) (fun _ new => new) s.2.failed
  online : ∀ n ∈ s.2.failed, n.status = .online

/-- Memory holds the newest failed registration of every name. -/
theorem Noted.mem_nodes {s : RegistryState × Outages} (h : Noted s) {n : NodeInfo} :
    n ∈ s.1.store.nodes ↔ newestOf s.2.failed n.name = some n := by
  rw [h.nodes_eq, mem_upsertAll_iff, newestOf]

theorem noted_step {s s' : RegistryState × Outages} {a : RegistryAction} (h : Noted s)
    (hdb : s.1.store.db ≠ none) (hstep : outages.step s a = some s') : Noted s' := by
  obtain ⟨st', notes'⟩ := s'
  obtain ⟨hmove, hnote⟩ := System.observed_step hstep
  have hnodes := nodes_of_step hmove hdb
  dsimp only at hnote hnodes
  subst hnote
  cases a with
  | register req input =>
      by_cases haccepted : findViolations req.models = []
      · by_cases hok : input.upsert = .ok
        · rw [nodesAfter, if_neg (by simp [hok])] at hnodes
          rw [noteOutages, if_neg (by simp [haccepted]), if_pos hok]
          exact ⟨hnodes.trans h.nodes_eq, h.online⟩
        · rw [nodesAfter, if_pos ⟨haccepted, hok⟩] at hnodes
          rw [noteOutages, if_neg (by simp [haccepted]), if_neg hok]
          refine ⟨?_, ?_⟩
          · show st'.store.nodes = upsertAll _ _ (s.2.failed ++ [newNode req input])
            rw [hnodes, h.nodes_eq, upsertAll_concat]
          · intro n hn
            rcases List.mem_append.mp hn with hn | hn
            · exact h.online n hn
            · rw [List.mem_singleton.mp hn]
              rfl
      · rw [nodesAfter, if_neg (by simp [haccepted])] at hnodes
        rw [noteOutages, if_pos haccepted]
        exact ⟨hnodes.trans h.nodes_eq, h.online⟩
  | sweep | tick | ping | recordProbe | countFailures | updateStatus =>
      exact ⟨hnodes.trans h.nodes_eq, h.online⟩

theorem noted_of_reachedBy {allowed : RegistryState × Outages → RegistryAction → Prop}
    {s : RegistryState × Outages} (h : outages.ReachedBy allowed s) :
    s.1.store.db ≠ none → Noted s := by
  refine h.invariant (fun s => s.1.store.db ≠ none → Noted s) ?_ ?_
  · rintro ⟨st, notes⟩ ⟨⟨hnodes, -, -⟩, hnotes⟩ _
    dsimp only at hnodes hnotes
    subst hnotes
    exact ⟨hnodes, by simp⟩
  · intro s a s' hs _ hstep hdb
    have hdb' : s.1.store.db ≠ none := by
      intro hnone
      exact hdb ((db_of_step (System.observed_step hstep).1).mpr hnone)
    exact noted_step (hs hdb') hdb' hstep

/-! ## When an entry is outdated -/

/-- The newest failed registration of a name agrees with the newest successful one. -/
def Outages.Current (notes : Outages) : Prop :=
  ∀ n, newestOf notes.failed n.name = some n →
    ∀ newest ∈ newestOf notes.succeeded n.name, n.endpoint = newest.endpoint

/-- It is not older than the cutoff of a sweep just made. -/
def Outages.Swept (notes : Outages) : Prop :=
  ∀ cutoff ∈ notes.cutoff, ∀ n, newestOf notes.failed n.name = some n → cutoff ≤ n.lastSeen

theorem Noted.noneOutlived_iff {s : RegistryState × Outages} (h : Noted s) :
    NoneOutlived s ↔ s.2.Current ∧ s.2.Swept := by
  have honline : ∀ n, newestOf s.2.failed n.name = some n → n.status = .online :=
    fun n hn => h.online n (newestOf_mem hn).1
  constructor
  · intro hnone
    exact ⟨fun n hn => hnone.current n (h.mem_nodes.mpr hn) (honline n hn),
      fun cutoff hcutoff n hn => hnone.swept cutoff hcutoff n (h.mem_nodes.mpr hn) (honline n hn)⟩
  · rintro ⟨hcurrent, hswept⟩
    exact ⟨fun n hn _ => hcurrent n (h.mem_nodes.mp hn),
      fun cutoff hcutoff n hn _ => hswept cutoff hcutoff n (h.mem_nodes.mp hn)⟩

/-- A name that registers successfully. -/
theorem Outages.current_succeeded {notes : Outages} (h : notes.Current) {new : NodeInfo}
    {cutoff : Option Int} :
    Outages.Current ⟨notes.succeeded ++ [new], notes.failed, cutoff⟩ ↔
      ∀ old ∈ newestOf notes.failed new.name, old.endpoint = new.endpoint := by
  constructor
  · intro hcurrent old hold
    have hname := (newestOf_mem hold).2
    apply hcurrent old
    · rw [hname]
      exact hold
    · rw [newestOf_concat, if_pos hname.symm]
      rfl
  · intro hnew n hn newest hnewest
    rw [newestOf_concat] at hnewest
    split at hnewest
    · rename_i hname
      cases hnewest
      apply hnew n
      rw [hname]
      exact hn
    · exact h n hn newest hnewest

/-- A name whose registration fails. -/
theorem Outages.current_failed {notes : Outages} (h : notes.Current) {new : NodeInfo}
    {cutoff : Option Int} :
    Outages.Current ⟨notes.succeeded, notes.failed ++ [new], cutoff⟩ ↔
      ∀ newest ∈ newestOf notes.succeeded new.name, new.endpoint = newest.endpoint := by
  constructor
  · intro hcurrent
    apply hcurrent new
    rw [newestOf_concat, if_pos rfl]
  · intro hnew n hn
    rw [newestOf_concat] at hn
    split at hn
    · cases hn
      exact hnew
    · exact h n hn

theorem Outages.swept_none {succeeded failed : List NodeInfo} :
    Outages.Swept ⟨succeeded, failed, none⟩ := by
  intro cutoff hcutoff
  cases hcutoff

/-- What a step does to the two conditions is what `Recovered` says of it. -/
theorem recovered_iff {s : RegistryState × Outages} (hcurrent : s.2.Current) (a : RegistryAction)
    (next : RegistryState) :
    (noteOutages s.2 s.1 a next).Current ∧ (noteOutages s.2 s.1 a next).Swept ↔ Recovered s a := by
  cases a with
  | register req input =>
      by_cases haccepted : findViolations req.models = []
      · by_cases hok : input.upsert = .ok
        · simp only [noteOutages, Recovered, haccepted, hok, ne_eq, not_true_eq_false, if_false,
            if_true, forall_const]
          rw [Outages.current_succeeded hcurrent]
          exact and_iff_left Outages.swept_none
        · simp only [noteOutages, Recovered, haccepted, hok, ne_eq, not_true_eq_false, if_false,
            forall_const]
          rw [Outages.current_failed hcurrent]
          exact and_iff_left Outages.swept_none
      · simp only [noteOutages, Recovered, haccepted, ne_eq, not_false_eq_true, if_true,
          false_implies, iff_true]
        exact ⟨hcurrent, Outages.swept_none⟩
  | sweep now o =>
      have hswept : (noteOutages s.2 s.1 (.sweep now o) next).Swept ↔
          Recovered s (.sweep now o) := by
        constructor
        · intro hswept old _ hnewest
          exact hswept _ rfl old hnewest
        · rintro hfresh cutoff ⟨⟩ n hn
          exact hfresh n (newestOf_mem hn).1 hn
      rw [hswept]
      exact and_iff_right hcurrent
  | tick | ping | recordProbe | countFailures | updateStatus =>
      exact iff_of_true ⟨hcurrent, Outages.swept_none⟩ trivial

/-- **No entry outlives an outage** in runs of a gateway with a database whose steps meet
the condition, and the first step that does not meet it leaves one that does. -/
theorem noneOutlived_recovered {s : RegistryState × Outages}
    (h : outages.ReachedBy Recovered s) (hdb : s.1.store.db ≠ none) :
    NoneOutlived s ∧
      ∀ a s', outages.step s a = some s' → (NoneOutlived s' ↔ Recovered s a) := by
  have hconditions : s.2.Current ∧ s.2.Swept := by
    refine h.invariant (fun s => s.2.Current ∧ s.2.Swept) ?_ ?_
    · rintro s ⟨-, hnotes⟩
      rw [hnotes]
      refine ⟨?_, Outages.swept_none⟩
      intro n hn
      cases hn
    · rintro s a s' ⟨hcurrent, -⟩ hrecovered hstep
      rw [(System.observed_step hstep).2]
      exact (recovered_iff hcurrent a s'.1).mpr hrecovered
  have hnoted := noted_of_reachedBy h hdb
  refine ⟨hnoted.noneOutlived_iff.mpr hconditions, ?_⟩
  intro a s' hstep
  rw [(noted_step hnoted hdb hstep).noneOutlived_iff, (System.observed_step hstep).2]
  exact recovered_iff hconditions.1 a s'.1

/-! ## An outage -/

/-- The upsert of a registration fails. -/
def failedInput : RegisterInput := ⟨"node-1", 0, 0, .failed, []⟩

/-- The node comes back under another address. -/
def movedRequest : RegisterNodeRequest := { sampleRequest with host := "10.0.0.2" }

/-- The node registers again as it was, within the 90 seconds. -/
theorem noneOutlived_recovered_heartbeat : ∃ s,
    outages.run Recovered (startState (some ⟨.empty, [], []⟩), ⟨[], [], none⟩)
      [.register sampleRequest failedInput,
        .register sampleRequest ⟨"node-2", 30000000, 30000000, .ok, []⟩,
        .sweep 60000000 .ok] = some s ∧
    s.1.store.nodes.map (·.host) = ["10.0.0.1"] ∧ NoneOutlived s := by
  have hrun : (outages.run Recovered (startState (some ⟨.empty, [], []⟩), ⟨[], [], none⟩)
      [.register sampleRequest failedInput,
        .register sampleRequest ⟨"node-2", 30000000, 30000000, .ok, []⟩,
        .sweep 60000000 .ok]).map (fun s => (s.1.store.nodes.map (·.host), s.1.store.db.isSome)) =
      some (["10.0.0.1"], true) := by decide +kernel
  have hinit : outages.init (startState (some ⟨.empty, [], []⟩), ⟨[], [], none⟩) :=
    ⟨⟨rfl, rfl, rfl⟩, rfl⟩
  obtain ⟨s, hs, hreached, hvalue⟩ := System.exists_reachedBy_of_run (.init hinit) hrun
  obtain ⟨hhosts, hdb⟩ := Prod.mk.inj hvalue
  exact ⟨s, hs, hhosts, (noneOutlived_recovered hreached (by
    intro hnone
    rw [hnone] at hdb
    cases hdb)).1⟩

/-- During an outage a node registers in memory; it moves, registers again, and is last seen
there. A sweep much later leaves the old address online. -/
theorem outage_outlived : ∃ s, outages.Reachable s ∧
    (∃ n ∈ s.1.store.nodes, n.status = .online ∧ n.host = "10.0.0.1" ∧ n.lastSeen = 0) ∧
    (∃ newest ∈ newestOf s.2.succeeded "gpu-1", newest.host = "10.0.0.2") ∧
    s.2.cutoff = some 210000000 ∧ ¬ NoneOutlived s := by
  have hrun : (outages.run (fun _ _ => True)
      (startState (some ⟨.empty, [], []⟩), ⟨[], [], none⟩)
      [.register sampleRequest failedInput,
        .register movedRequest ⟨"node-2", 30000000, 30000000, .ok, []⟩,
        .sweep 300000000 .ok]).map
      (fun s => (s.1.store.nodes, newestOf s.2.succeeded "gpu-1", s.2.cutoff)) =
      some ([newNode sampleRequest failedInput],
        some (newNode movedRequest ⟨"node-2", 30000000, 30000000, .ok, []⟩),
        some 210000000) := by decide +kernel
  have hinit : outages.init (startState (some ⟨.empty, [], []⟩), ⟨[], [], none⟩) :=
    ⟨⟨rfl, rfl, rfl⟩, rfl⟩
  obtain ⟨s, -, hreached, hvalue⟩ := System.exists_reachedBy_of_run (.init hinit) hrun
  simp only [Prod.mk.injEq] at hvalue
  obtain ⟨hnodes, hnewest, hcutoff⟩ := hvalue
  have hmem : newNode sampleRequest failedInput ∈ s.1.store.nodes := by simp [hnodes]
  refine ⟨s, hreached, ⟨_, hmem, rfl, rfl, rfl⟩, ⟨_, hnewest, rfl⟩, hcutoff, ?_⟩
  intro hnone
  exact absurd (hnone.swept _ hcutoff _ hmem rfl) (by decide)

end InferPlatform.Gateway
