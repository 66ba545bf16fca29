import InferPlatform.Gateway.Roster

/-!
# Stale nodes

The sweep takes nodes offline that have not registered for 90 seconds. The health
monitor does not know of it: it sets every status by its own count of failures, so
that a probe brings a stale node back, whether it succeeds or fails.

* `stale_out` — **a node found stale is offline until it registers**, if every probe
  of it that is concluded is at least its tenth failure in a row;
* `probed_stale` — one probe makes a stale node routable.
-/

namespace InferPlatform.Gateway

/-! ## What the sweeps find -/

/-- The names that sweeps have found stale and that have not registered since. -/
def noteStale (stale : List String) (st : RegistryState) (a : RegistryAction) (_ : RegistryState) :
    List String :=
  match a with
  | .sweep now _ =>
    stale ++ (st.store.roster.filter fun n => n.lastSeen < now - 90000000).map (·.name)
  | .register req _ =>
    if findViolations req.models = [] then stale.filter fun name => name ≠ req.name else stale
  | _ => stale

/-- The registry beside the names found stale. -/
def sweptRegistry : System (RegistryState × List String) RegistryAction :=
  registry.observed [] noteStale

/-- Every node found stale is offline. -/
def StaleOut (stale : List String) (st : NodeStore) : Prop :=
  ∀ n ∈ st.roster, n.name ∈ stale → n.status = .offline

instance (stale : List String) (st : NodeStore) : Decidable (StaleOut stale st) :=
  inferInstanceAs (Decidable (∀ _ ∈ _, _))

/-- The target of a ping, in memory mode the end of its probe too. -/
def MonitorPc.pinged : MonitorPc → Option Target
  | .next (target :: _) => some target
  | _ => none

/-- The target of a status update, the end of a probe with a database. -/
def MonitorPc.updated : MonitorPc → Option Target
  | .update target _ _ => some target
  | _ => none

/-- The node of an id has been found stale. -/
def FoundStale (s : RegistryState × List String) (id : String) : Prop :=
  ∃ name ∈ s.1.store.nameOf id, name ∈ s.2

instance (s : RegistryState × List String) (id : String) : Decidable (FoundStale s id) :=
  inferInstanceAs (Decidable (∃ _ ∈ _, _))

/-- Where a probe of a stale node ends, it is at least the tenth failure in a row. -/
def ProbesConfirm (s : RegistryState × List String) : RegistryAction → Prop
  | .ping success _ => s.1.store.db = none → ∀ target ∈ s.1.monitor.pinged,
      FoundStale s target.id → success = false ∧ 10 ≤ s.1.failureCounts.get target.id + 1
  | .updateStatus _ => ∀ db ∈ s.1.store.db, ∀ target ∈ s.1.monitor.updated,
      FoundStale s target.id → 10 ≤ countConsecutiveFailures db target.id true
  | _ => True

instance (s : RegistryState × List String) : (a : RegistryAction) → Decidable (ProbesConfirm s a)
  | .ping _ _ => inferInstanceAs (Decidable (_ → _))
  | .updateStatus _ => inferInstanceAs (Decidable (∀ _ ∈ _, _))
  | .register _ _ | .sweep _ _ | .tick _ | .recordProbe _ _ | .countFailures _ =>
    inferInstanceAs (Decidable True)

/-- Every statement succeeds, and no probe contradicts a sweep. -/
def SweepsHold (s : RegistryState × List String) (a : RegistryAction) : Prop :=
  AllSucceed s.1 a ∧ ProbesConfirm s a

instance (s : RegistryState × List String) (a : RegistryAction) : Decidable (SweepsHold s a) :=
  inferInstanceAs (Decidable (_ ∧ _))

/-! ## The invariant -/

/-- Nodes found stale are offline, and the count that the monitor is about to use is
that of the rows. -/
structure StaleInv (s : RegistryState × List String) : Prop where
  distinct : Distinct s.1.store.roster
  out : StaleOut s.2 s.1.store
  counted : ∀ target consec queue, s.1.monitor = .update target consec queue →
    ∀ db, s.1.store.db = some db → consec = countConsecutiveFailures db target.id true

theorem staleInv_init {s : RegistryState × List String} (h : sweptRegistry.init s) :
    StaleInv s := by
  obtain ⟨⟨hnodes, -, hpc⟩, hstale⟩ := h
  refine ⟨?_, ?_, ?_⟩
  · by_cases hdb : s.1.store.db = none
    · rw [roster_of_memory hdb, hnodes]
      exact ⟨List.nodup_nil, List.nodup_nil⟩
    · exact distinct_of_db hdb
  · intro n _ hn
    rw [hstale] at hn
    cases hn
  · intro target consec queue hupdate
    rw [hpc] at hupdate
    cases hupdate

/-- A count depends on the rows of `node_health` alone. -/
theorem StaleInv.counted_of_nodeHealth {s : RegistryState × List String} (hinv : StaleInv s)
    {store : NodeStore} (h : store.db.map (·.nodeHealth) = s.1.store.db.map (·.nodeHealth))
    (target : Target) (consec : UInt32) (queue : List Target)
    (hupdate : s.1.monitor = .update target consec queue) (db : Database)
    (hdb : store.db = some db) : consec = countConsecutiveFailures db target.id true := by
  rw [hdb, Option.map_some] at h
  obtain ⟨old, hold, hsame⟩ := Option.map_eq_some_iff.mp h.symm
  rw [hinv.counted target consec queue hupdate old hold]
  simp only [countConsecutiveFailures, hsame]

theorem staleInv_register {s : RegistryState × List String} (hinv : StaleInv s)
    {req : RegisterNodeRequest} {input : RegisterInput} (haccepted : findViolations req.models = [])
    (hok : input.upsert = .ok) (hfresh : s.1.store.Fresh input.id) :
    StaleInv ({ s.1 with store := (register s.1.store req input).1 },
      s.2.filter fun name => name ≠ req.name) := by
  refine ⟨distinct_register haccepted hok hfresh hinv.distinct, ?_,
    hinv.counted_of_nodeHealth nodeHealth_register⟩
  intro n hn hstale
  obtain ⟨hstale, hne⟩ : n.name ∈ s.2 ∧ n.name ≠ req.name := by
    simpa using List.mem_filter.mp hstale
  exact hinv.out n (mem_register_of_ne haccepted hok hfresh hn hne) hstale

theorem staleInv_sweep {s : RegistryState × List String} (hinv : StaleInv s) {now : Int}
    {o : Outcome} (hok : o = .ok) :
    StaleInv ({ s.1 with store := sweep s.1.store now o },
      s.2 ++ (s.1.store.roster.filter fun n => n.lastSeen < now - 90000000).map (·.name)) := by
  have hroster : (sweep s.1.store now o).roster = _ := roster_sweep fun _ => by simp [hok]
  refine ⟨?_, ?_, hinv.counted_of_nodeHealth nodeHealth_sweep⟩
  · show Distinct (sweep s.1.store now o).roster
    rw [hroster]
    exact hinv.distinct.setWhere
  · intro n hn hstale
    replace hn : n ∈ (sweep s.1.store now o).roster := hn
    rw [hroster] at hn
    obtain ⟨old, hold, -, hname, hstatus⟩ := mem_setWhere hn
    rw [hstatus]
    split
    · rfl
    · rename_i hseen
      rw [hname] at hstale
      rcases List.mem_append.mp hstale with hstale | hstale
      · exact hinv.out old hold hstale
      · -- the sweep found no other node of this name
        obtain ⟨m, hm, hmname⟩ := List.mem_map.mp hstale
        obtain ⟨hm, hmseen⟩ := List.mem_filter.mp hm
        have hsame : m = old := List.inj_on_of_nodup_map hinv.distinct.names hm hold hmname
        rw [hsame] at hmseen
        exact absurd (by simpa using hmseen) hseen

/-- A probe may set the status of a node found stale to offline only. -/
theorem staleOut_setWhere {s : RegistryState × List String} (hinv : StaleInv s) {store : NodeStore}
    {id : String} {consec : UInt32}
    (hroster : store.roster = setWhere (fun n => n.id = id)
      (byFailures consec .offline .degraded .online) s.1.store.roster)
    (hconfirm : FoundStale s id → 10 ≤ consec) : StaleOut s.2 store := by
  intro n hn hstale
  rw [hroster] at hn
  obtain ⟨old, hold, -, hname, hstatus⟩ := mem_setWhere hn
  rw [hname] at hstale
  rw [hstatus]
  split
  · rename_i hid
    have hfound : FoundStale s id := by
      refine ⟨old.name, ?_, hstale⟩
      rw [← hid]
      exact nameOf_of_mem hinv.distinct hold
    exact if_pos (hconfirm hfound)
  · exact hinv.out old hold hstale

/-! ## Runs -/

theorem staleInv_step {s s' : RegistryState × List String} {a : RegistryAction}
    (hinv : StaleInv s) (hok : SweepsHold s a) (hstep : sweptRegistry.step s a = some s') :
    StaleInv s' := by
  obtain ⟨hreg, hnote⟩ := System.observed_step hstep
  have hmove := registryMove_of_step hreg
  have hdistinct := distinct_move hmove hinv.distinct
  obtain ⟨st', stale'⟩ := s'
  dsimp only at hmove hnote hdistinct
  subst hnote
  obtain ⟨hsucceed, hconfirm⟩ := hok
  cases hmove with
  | @register req input hfresh =>
      by_cases haccepted : findViolations req.models = []
      · simpa only [noteStale, if_pos haccepted] using
          staleInv_register hinv haccepted hsucceed.1 hfresh
      · simpa only [noteStale, if_neg haccepted, register_rejected haccepted] using hinv
  | sweep => exact staleInv_sweep hinv hsucceed
  | tick hpc => exact ⟨hdistinct, hinv.out, by simp⟩
  | pingDb hpc hdb => exact ⟨hdistinct, hinv.out, by simp⟩
  | @pingMemory success _ target queue hpc hdb =>
      refine ⟨hdistinct, ?_, by simp⟩
      apply staleOut_setWhere hinv (roster_pingMemory hdb hinv.distinct)
      intro hfound
      obtain ⟨rfl, hten⟩ := hconfirm hdb target (by simp [hpc, MonitorPc.pinged]) hfound
      exact hten
  | drop hpc hdb hdrop => exact ⟨hdistinct, hinv.out, by simp⟩
  | @record _ o target success latencyMs queue db db' hpc hdb hrecord ho =>
      obtain ⟨-, rfl⟩ := recordProbe_eq_some hrecord
      refine ⟨hdistinct, ?_, ?_⟩
      · have hroster : s.1.store.roster = db.nodes.rows.map (·.toNodeInfo) := roster_of_db hdb
        show ∀ n ∈ db.nodes.rows.map (·.toNodeInfo), n.name ∈ s.2 → n.status = .offline
        rw [← hroster]
        exact hinv.out
      · intro target' consec queue' hupdate
        dsimp only at hupdate
        split at hupdate <;> cases hupdate
  | @count ok target queue db hpc hdb =>
      refine ⟨hdistinct, hinv.out, ?_⟩
      intro target' consec queue' hupdate db' hdb'
      obtain rfl : db = db' := Option.some.inj (hdb.symm.trans hdb')
      obtain rfl : ok = true := hsucceed
      injection hupdate with htarget hconsec
      rw [← htarget, hconsec]
  | updateFailed hpc => cases hsucceed
  | @update _ target consec queue db hpc hdb ho =>
      have hroster := roster_updateNodeStatus hdb target.id consec
      refine ⟨hdistinct, staleOut_setWhere hinv hroster ?_, by simp⟩
      intro hfound
      rw [hinv.counted target consec queue hpc db hdb]
      exact hconfirm db hdb target (by simp [hpc, MonitorPc.updated]) hfound

/-- **A node found stale is offline until it registers**, where every probe of it that ends
is at least its tenth failure in a row. -/
theorem stale_out {s : RegistryState × List String} (h : sweptRegistry.ReachedBy SweepsHold s) :
    StaleOut s.2 s.1.store := by
  have hinv : StaleInv s := by
    apply h.invariant StaleInv
    · intro s hs
      exact staleInv_init hs
    · intro s a s' hs hok hstep
      exact staleInv_step hs hok hstep
  exact hinv.out

/-! ## A node that stops registering -/

/-- A node that has failed ten probes stays offline after a sweep. -/
theorem stale_out_sample : ∃ s,
    sweptRegistry.run SweepsHold (startState none, [])
      (.register sampleRequest sampleInput ::
        (List.replicate 10 (failedProbe false 90000001)).flatten ++
        .sweep 90000001 .ok :: failedProbe false 90000001) = some s ∧
      s.2 = ["gpu-1"] ∧ StaleOut s.2 s.1.store := by
  have hrun : (sweptRegistry.run SweepsHold (startState none, [])
      (.register sampleRequest sampleInput ::
        (List.replicate 10 (failedProbe false 90000001)).flatten ++
        .sweep 90000001 .ok :: failedProbe false 90000001)).map (·.2) = some ["gpu-1"] := by
    decide +kernel
  have hinit : sweptRegistry.init (startState none, []) := ⟨⟨rfl, rfl, rfl⟩, rfl⟩
  obtain ⟨s, hs, hreached, hstale⟩ := System.exists_reachedBy_of_run (.init hinit) hrun
  exact ⟨s, hs, hstale, stale_out hreached⟩

/-- One probe makes a stale node routable, in either mode, and it need not succeed. -/
theorem probed_stale :
    (¬ ∀ s, sweptRegistry.ReachedBy (fun s a => AllSucceed s.1 a) s → s.1.store.db = none →
      StaleOut s.2 s.1.store) ∧
    (¬ ∀ s, sweptRegistry.ReachedBy (fun s a => AllSucceed s.1 a) s → s.1.store.db ≠ none →
      StaleOut s.2 s.1.store) := by
  have hinit : ∀ db, sweptRegistry.init (startState db, []) := fun _ => ⟨⟨rfl, rfl, rfl⟩, rfl⟩
  have hmemory : (sweptRegistry.run (fun s a => AllSucceed s.1 a) (startState none, [])
      (.register sampleRequest sampleInput :: .sweep 90000001 .ok :: failedProbe false 90000001)).map
        (fun s => (s.1.store.db, decide (StaleOut s.2 s.1.store))) = some (none, false) := by
    decide +kernel
  have hdb : (sweptRegistry.run (fun s a => AllSucceed s.1 a)
      (startState (some ⟨.empty, [], []⟩), [])
      (.register sampleRequest sampleInput :: .sweep 90000001 .ok :: failedProbe true 90000001)).map
        (fun s => (s.1.store.db.isSome, decide (StaleOut s.2 s.1.store))) = some (true, false) := by
    decide +kernel
  refine ⟨?_, ?_⟩
  · intro h
    obtain ⟨s, -, hreached, hvalue⟩ := System.exists_reachedBy_of_run (.init (hinit _)) hmemory
    simp only [Prod.mk.injEq, decide_eq_false_iff_not] at hvalue
    exact hvalue.2 (h s hreached hvalue.1)
  · intro h
    obtain ⟨s, -, hreached, hvalue⟩ := System.exists_reachedBy_of_run (.init (hinit _)) hdb
    simp only [Prod.mk.injEq, decide_eq_false_iff_not] at hvalue
    have hne : s.1.store.db ≠ none := Option.isSome_iff_ne_none.mp hvalue.1
    exact hvalue.2 (h s hreached hne)

end InferPlatform.Gateway
