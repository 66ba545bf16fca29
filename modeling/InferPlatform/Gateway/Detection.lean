import InferPlatform.Gateway.Health
import InferPlatform.Gateway.Staleness

/-!
# Detection

A node that is gone neither registers nor answers the health monitor. The monitor goes
on in rounds over all nodes; meanwhile others register, and sweeps run. After three whole
rounds the node is not online, wherever the monitor stood when the node went away.

* `watchedFrom` — a run from a state on, with the rounds that have begun since;
* `gone_detected` — **after three rounds a node that is gone is not online, and after ten
  it is offline**, in both storage modes;
* `answering_back` — **a node that answers is online after one round**.
-/

namespace InferPlatform.Gateway

/-! ## Rounds -/

def noteRounds (rounds : Nat) (_ : RegistryState × ProbeHistory) (a : RegistryAction)
    (_ : RegistryState × ProbeHistory) : Nat :=
  match a with
  | .tick _ => rounds + 1
  | _ => rounds

/-- The registry from a state on, beside the number of rounds that have begun since. -/
def watchedFrom (s : RegistryState × ProbeHistory) :
    System ((RegistryState × ProbeHistory) × Nat) RegistryAction :=
  (probedRegistry.startingAt s).observed 0 noteRounds

/-- The rounds that have begun since and are over. -/
def roundsOver (s : (RegistryState × ProbeHistory) × Nat) : Nat :=
  if s.1.1.monitor = .next [] then s.2 else s.2 - 1

/-- The node of a name does not register, and pings of it fail. Statements succeed. -/
def Gone (name : String) (s : RegistryState × ProbeHistory) (a : RegistryAction) : Prop :=
  ProbesCount s a ∧
    match a with
    | .register req _ => findViolations req.models = [] → req.name ≠ name
    | .ping success _ => ∀ target ∈ s.1.monitor.pinged,
        s.1.store.nameOf target.id = some name → success = false
    | .tick ok => ok = true
    | _ => True

instance (name : String) (s : RegistryState × ProbeHistory) :
    (a : RegistryAction) → Decidable (Gone name s a)
  | .register req _ =>
    inferInstanceAs (Decidable (_ ∧ (findViolations req.models = [] → req.name ≠ name)))
  | .ping _ _ => inferInstanceAs (Decidable (_ ∧ ∀ _ ∈ _, _))
  | .tick _ => inferInstanceAs (Decidable (_ ∧ _ = _))
  | .sweep _ _ | .recordProbe _ _ | .countFailures _ | .updateStatus _ =>
    inferInstanceAs (Decidable (_ ∧ True))

/-! ## What is left of a round -/

/-- The targets whose probes are not recorded yet. -/
def MonitorPc.unrecorded : MonitorPc → List Target
  | .next queue | .count _ queue | .update _ _ queue => queue
  | .record target _ _ queue => target :: queue

/-- The targets whose probes have not ended yet. -/
def MonitorPc.unconcluded : MonitorPc → List Target
  | .next queue => queue
  | .record target _ _ queue | .count target queue | .update target _ queue => target :: queue

/-- A count that goes up in every round: it is behind by one at most, and only where the
round is still to come to the id. -/
structure Behind (rounds count : Nat) (due : List Target) (id : String) : Prop where
  one : rounds ≤ count + 1
  due : id ∉ due.map (·.id) → rounds ≤ count

namespace Behind

variable {rounds count : Nat} {target : Target} {due : List Target} {id : String}

theorem zero (count : Nat) (due : List Target) (id : String) : Behind 0 count due id :=
  ⟨Nat.zero_le _, fun _ => Nat.zero_le _⟩

/-- A new round comes to the id. -/
theorem begin (h : Behind rounds count [] id) (hid : id ∈ due.map (·.id)) :
    Behind (rounds + 1) count due id := by
  refine ⟨?_, fun hout => absurd hid hout⟩
  have := h.due (by simp)
  omega

/-- The round is done with another id. -/
theorem other (h : Behind rounds count (target :: due) id) (hne : target.id ≠ id) :
    Behind rounds count due id := by
  refine ⟨h.one, fun hout => h.due ?_⟩
  rw [List.map_cons, List.mem_cons, not_or]
  exact ⟨hne.symm, hout⟩

/-- The round is done with the id, and has counted it. -/
theorem counted (h : Behind rounds count (target :: due) id) :
    Behind rounds (count + 1) due id :=
  ⟨h.one.trans (Nat.le_succ _), fun _ => h.one⟩

end Behind

/-! ## The node -/

/-- A node with the id and the name. -/
def NodeStore.Has (st : NodeStore) (id name : String) : Prop :=
  ∃ n ∈ st.roster, n.id = id ∧ n.name = name

theorem NodeStore.Has.setWhere {st st' : NodeStore} {id name : String} (h : st.Has id name)
    {p : NodeInfo → Prop} [DecidablePred p] {status : NodeStatus}
    (hroster : st'.roster = Gateway.setWhere p status st.roster) : st'.Has id name := by
  obtain ⟨n, hn, hid, hname⟩ := h
  refine ⟨if p n then { n with status } else n, ?_, ?_⟩
  · rw [hroster]
    exact List.mem_map_of_mem hn
  · split <;> exact ⟨hid, hname⟩

/-- A registration of another name leaves a node. -/
theorem mem_register_other {st : NodeStore} {req : RegisterNodeRequest} {input : RegisterInput}
    (hok : input.upsert = .ok) (hfresh : st.Fresh input.id) (hdistinct : Distinct st.roster)
    {n : NodeInfo} (hn : n ∈ st.roster)
    (hother : findViolations req.models = [] → req.name ≠ n.name) :
    n ∈ (register st req input).1.roster := by
  by_cases haccepted : findViolations req.models = []
  · have hfound := (find?_key_eq_some_iff hdistinct.names).mpr hn
    have hkept : ((register st req input).1.roster.find? fun m => m.name = n.name) = some n := by
      rw [roster_register haccepted (fun _ => hok) hfresh, find?_upsertBy (merge_name st)]
      exact (if_neg (hother haccepted)).trans hfound
    exact List.mem_of_find?_eq_some hkept
  · rw [register_rejected haccepted]
    exact hn

theorem NodeStore.Has.nameOf {st : NodeStore} {id name : String} (h : st.Has id name)
    (hdistinct : Distinct st.roster) : st.nameOf id = some name := by
  obtain ⟨n, hn, rfl, rfl⟩ := h
  exact nameOf_of_mem hdistinct hn

/-- Another id has another name. -/
theorem NodeStore.Has.ne_of_nameOf {st : NodeStore} {id name id' name' : String}
    (h : st.Has id name) (hdistinct : Distinct st.roster) (hne : id' ≠ id)
    (hname : st.nameOf id' = some name') : name ≠ name' := by
  obtain ⟨n, hn, rfl, rfl⟩ := h
  exact nameOf_ne hdistinct hname hn (Ne.symm hne)

theorem NodeStore.Has.mem_collectTargets {st : NodeStore} {id name : String} (h : st.Has id name) :
    id ∈ (collectTargets st true).map (·.id) := by
  obtain ⟨n, hn, rfl, -⟩ := h
  cases hdb : st.db with
  | none =>
      rw [roster_of_memory hdb] at hn
      simp only [collectTargets, hdb, List.map_map]
      exact List.mem_map.mpr ⟨n, hn, rfl⟩
  | some db =>
      rw [roster_of_db hdb] at hn
      obtain ⟨row, hrow, rfl⟩ := List.mem_map.mp hn
      simp only [collectTargets, hdb, List.map_map]
      exact List.mem_map.mpr ⟨row, hrow, rfl⟩

/-! ## The invariant -/

/-- The node is there, and the failures that are recorded of it, and those that its last
probe has seen, go up in every round. -/
structure Declining (name id : String) (s : (RegistryState × ProbeHistory) × Nat) : Prop where
  health : HealthInv s.1
  node : s.1.1.store.Has id name
  failures : s.1.1.store.db ≠ none →
    Behind s.2 (s.1.2.failures name) s.1.1.monitor.unrecorded id
  verdict : Behind s.2 (s.1.2.verdict name) s.1.1.monitor.unconcluded id
  record : ∀ target latencyMs queue,
    s.1.1.monitor = .record target true latencyMs queue → target.id = id → s.2 = 0

theorem declining_start {name id : String} {s : RegistryState × ProbeHistory} (h : HealthInv s)
    (hnode : s.1.store.Has id name) : Declining name id (s, 0) :=
  ⟨h, hnode, fun _ => .zero _ _ _, .zero _ _ _, fun _ _ _ _ _ => rfl⟩

theorem declining_step {name id : String} {s s' : (RegistryState × ProbeHistory) × Nat}
    {start : RegistryState × ProbeHistory} {a : RegistryAction} (hinv : Declining name id s)
    (hgone : Gone name s.1 a) (hstep : (watchedFrom start).step s a = some s') :
    Declining name id s' := by
  obtain ⟨hmonitored, hrounds⟩ := System.observed_step hstep
  have hprobed : probedRegistry.step s.1 a = some s'.1 := hmonitored
  have hhealth : HealthInv s'.1 := healthInv_step hinv.health hgone.1 hprobed
  obtain ⟨hreg, hnote⟩ := System.observed_step hprobed
  have hmove := registryMove_of_step hreg
  have hdistinct := hinv.health.distinct
  have hname := hinv.node.nameOf hdistinct
  obtain ⟨⟨st', history'⟩, rounds'⟩ := s'
  obtain ⟨⟨st, history⟩, rounds⟩ := s
  dsimp only at hmove hnote hrounds hname hdistinct
  subst hnote hrounds
  cases hmove with
  | @register req input hfresh =>
      obtain ⟨hok, hother⟩ := hgone
      have hnode : (register st.store req input).1.Has id name := by
        obtain ⟨n, hn, hid, hname⟩ := hinv.node
        exact ⟨n, mem_register_other hok hfresh hdistinct hn (hname ▸ hother), hid, hname⟩
      have hdb : (register st.store req input).1.db ≠ none → st.store.db ≠ none :=
        fun h hnone => h (register_db_eq_none.mpr hnone)
      by_cases haccepted : findViolations req.models = []
      · simp only [noteProbe, if_pos haccepted] at hhealth ⊢
        refine ⟨hhealth, hnode, fun h => hinv.failures (hdb h), ?_, hinv.record⟩
        show Behind rounds (Function.update history.verdict req.name 0 name) _ id
        rw [Function.update_of_ne (hother haccepted).symm]
        exact hinv.verdict
      · simp only [noteProbe, if_neg haccepted] at hhealth ⊢
        exact ⟨hhealth, hnode, fun h => hinv.failures (hdb h), hinv.verdict, hinv.record⟩
  | @sweep now o =>
      have hnode : (sweep st.store now o).Has id name := by
        by_cases ho : st.store.db ≠ none → o ≠ .failed
        · exact hinv.node.setWhere (roster_sweep ho)
        · push Not at ho
          rw [ho.2, sweep_failed ho.1]
          exact hinv.node
      exact ⟨hhealth, hnode, fun h => hinv.failures fun hnone => h (sweep_db_eq_none.mpr hnone),
        hinv.verdict, hinv.record⟩
  | @tick ok hpc =>
      obtain ⟨-, rfl⟩ : _ ∧ ok = true := hgone
      have hdue := hinv.node.mem_collectTargets
      have hfailures := hinv.failures
      have hverdict := hinv.verdict
      simp only [hpc] at hfailures hverdict
      exact ⟨hhealth, hinv.node, fun h => (hfailures h).begin hdue, hverdict.begin hdue,
        by rintro _ _ _ ⟨⟩⟩
  | @pingDb success latencyMs target queue db hpc hdb =>
      have hne : st.store.db ≠ none := by simp [hdb]
      have hfailures := hinv.failures
      have hverdict := hinv.verdict
      simp only [hpc] at hfailures hverdict
      simp only [noteProbe, hpc, if_neg hne] at hhealth ⊢
      refine ⟨hhealth, hinv.node, hfailures, hverdict, ?_⟩
      rintro _ _ _ ⟨⟩ hid
      have hfails := hgone.2 target (by simp [hpc, MonitorPc.pinged]) (hid ▸ hname)
      cases hfails
  | @pingMemory success latencyMs target queue hpc hdb =>
      have hverdict := hinv.verdict
      simp only [hpc] at hverdict
      simp only [noteProbe, hpc, if_pos hdb] at hhealth ⊢
      have hnode := hinv.node.setWhere
        (@roster_pingMemory st.store st.failureCounts target.id success hdb hdistinct)
      refine ⟨hhealth, hnode, fun h => absurd hdb h, ?_, by rintro _ _ _ ⟨⟩⟩
      by_cases hid : target.id = id
      · have hfails := hgone.2 target (by simp [hpc, MonitorPc.pinged]) (hid ▸ hname)
        rw [hid, hname, hfails]
        show Behind rounds (bump history.verdict false name name) queue id
        rw [bump_self]
        exact hverdict.counted
      · have hverdict := hverdict.other hid
        cases hother : st.store.nameOf target.id with
        | none => exact hverdict
        | some other =>
            show Behind rounds (bump history.verdict success other name) queue id
            rw [bump_of_ne (hinv.node.ne_of_nameOf hdistinct hid hother)]
            exact hverdict
  | @drop checkedAt o target success latencyMs queue db hpc hdb hdrop =>
      obtain ⟨⟨hok, -⟩, -⟩ := hgone
      have hnone : st.store.nameOf target.id = none := by
        rcases hdrop with hfailed | hrecord
        · rw [hok] at hfailed
          cases hfailed
        · exact nameOf_eq_none hdb hrecord
      have hid : target.id ≠ id := by
        rintro rfl
        rw [hname] at hnone
        cases hnone
      have hfailures := hinv.failures
      have hverdict := hinv.verdict
      simp only [hpc] at hfailures hverdict
      simp only [noteProbe, hpc, hnone, ProbeHistory.recorded] at hhealth ⊢
      exact ⟨hhealth, hinv.node, fun h => (hfailures h).other hid, hverdict.other hid,
        by rintro _ _ _ ⟨⟩⟩
  | @record checkedAt o target success latencyMs queue db db' hpc hdb hrecord ho =>
      obtain ⟨⟨rfl, -⟩, -⟩ := hgone
      have hne : st.store.db ≠ none := by simp [hdb]
      have hfailures := hinv.failures hne
      have hverdict := hinv.verdict
      simp only [hpc] at hfailures hverdict
      simp only [noteProbe, hpc] at hhealth ⊢
      have hroster : NodeStore.roster { st.store with db := some db' } = st.store.roster := by
        rw [roster_of_db rfl, roster_of_db hdb, (recordProbe_eq_some hrecord).2]
      have hnode : NodeStore.Has { st.store with db := some db' } id name := by
        obtain ⟨n, hn, hsame⟩ := hinv.node
        exact ⟨n, hroster ▸ hn, hsame⟩
      refine ⟨hhealth, hnode, fun _ => ?_, ?_, by rintro _ _ _ ⟨⟩⟩
      · by_cases hid : target.id = id
        · rw [hid, hname]
          show Behind rounds (bump history.failures success name name) queue id
          rw [bump_self]
          cases success with
          | false => exact hfailures.counted
          | true =>
              -- a success can only be from before
              obtain rfl : rounds = 0 := hinv.record target latencyMs queue hpc hid
              exact .zero _ _ _
        · have hfailures := hfailures.other hid
          cases hother : st.store.nameOf target.id with
          | none => exact hfailures
          | some other =>
              show Behind rounds (bump history.failures success other name) queue id
              rw [bump_of_ne (hinv.node.ne_of_nameOf hdistinct hid hother)]
              exact hfailures
      · cases hother : st.store.nameOf target.id with
        | none => exact hverdict
        | some other => exact hverdict
  | @count ok target queue db hpc hdb =>
      have hfailures := hinv.failures
      have hverdict := hinv.verdict
      simp only [hpc] at hfailures hverdict
      exact ⟨hhealth, hinv.node, hfailures, hverdict, by rintro _ _ _ ⟨⟩⟩
  | @updateFailed target consec queue hpc => exact absurd rfl hgone.1
  | @update o target consec queue db hpc hdb ho =>
      have hne : st.store.db ≠ none := by simp [hdb]
      have hfailures := hinv.failures hne
      have hverdict := hinv.verdict
      simp only [hpc] at hfailures hverdict
      simp only [noteProbe, hpc] at hhealth ⊢
      have hnode := hinv.node.setWhere (roster_updateNodeStatus hdb target.id consec)
      refine ⟨hhealth, hnode, fun _ => ?_, ?_, by rintro _ _ _ ⟨⟩⟩
      · cases hother : st.store.nameOf target.id with
        | none => exact hfailures
        | some other => exact hfailures
      · by_cases hid : target.id = id
        · rw [hid, hname]
          show Behind rounds (Function.update history.verdict name _ name) queue id
          rw [Function.update_self]
          exact hfailures
        · have hverdict := hverdict.other hid
          cases hother : st.store.nameOf target.id with
          | none => exact hverdict
          | some other =>
              show Behind rounds (Function.update history.verdict other _ name) queue id
              rw [Function.update_of_ne (hinv.node.ne_of_nameOf hdistinct hid hother)]
              exact hverdict

theorem StatusBound.mono {failures failures' : Nat} {status : NodeStatus}
    (h : StatusBound failures' status) (hle : failures ≤ failures') :
    StatusBound failures status :=
  ⟨fun hthree => h.1 (hthree.trans hle), fun hten => h.2 (hten.trans hle)⟩

/-- **A node that is gone is detected.** From any state on, while the node of a name does
not register and does not answer, it stays there; after three whole rounds of the monitor
it is not online, and after ten it is offline, whatever else the gateway does. -/
theorem gone_detected {name : String} {s : RegistryState × ProbeHistory}
    {s' : (RegistryState × ProbeHistory) × Nat} (h : probedRegistry.ReachedBy ProbesCount s)
    (hnode : name ∈ s.1.store.roster.map (·.name))
    (hlater : (watchedFrom s).ReachedBy (fun s a => Gone name s.1 a) s') :
    ∃ n ∈ s'.1.1.store.roster, n.name = name ∧ StatusBound (roundsOver s') n.status := by
  obtain ⟨start, hstart, hstartName⟩ := List.mem_map.mp hnode
  have hhealth : HealthInv s :=
    h.invariant _ (fun _ h => healthInv_init h) fun _ _ _ h hok => healthInv_step h hok
  have hinv : Declining name start.id s' := by
    refine hlater.invariant _ ?_ fun _ _ _ h hgone hstep => declining_step h hgone hstep
    rintro ⟨s, rounds⟩ ⟨rfl, rfl⟩
    exact declining_start hhealth ⟨start, hstart, rfl, hstartName⟩
  obtain ⟨n, hn, -, hname⟩ := hinv.node
  refine ⟨n, hn, hname, (hname ▸ hinv.health.out n hn).mono ?_⟩
  unfold roundsOver
  split
  · rename_i hpc
    have hverdict := hinv.verdict
    rw [hpc] at hverdict
    exact hverdict.due (by simp [MonitorPc.unconcluded])
  · have := hinv.verdict.one
    omega

/-- A gateway in memory mode after three failed probes of its node. -/
def failingState : RegistryState × ProbeHistory :=
  (probedRegistry.run ProbesCount (probedStart none) (threeFailures false)).getD (probedStart none)

theorem failingState_reached : probedRegistry.ReachedBy ProbesCount failingState := by
  have hsome : (probedRegistry.run ProbesCount (probedStart none) (threeFailures false)).isSome :=
    by decide +kernel
  obtain ⟨s, hs⟩ := Option.isSome_iff_exists.mp hsome
  rw [failingState, hs]
  exact System.reachedBy_of_run (.init (probedStart_init none)) hs

theorem gone_detected_ten_rounds : ∃ s',
    (watchedFrom failingState).run (fun s a => Gone "gpu-1" s.1 a) (failingState, 0)
      ((List.replicate 10 [.tick true, .ping false 0]).flatten) = some s' ∧ roundsOver s' = 10 ∧
      ∃ n ∈ s'.1.1.store.roster, n.name = "gpu-1" ∧ StatusBound (roundsOver s') n.status := by
  have hrun : ((watchedFrom failingState).run (fun s a => Gone "gpu-1" s.1 a) (failingState, 0)
      ((List.replicate 10 [.tick true, .ping false 0]).flatten)).map roundsOver = some 10 := by
    decide +kernel
  have hnode : "gpu-1" ∈ failingState.1.store.roster.map (·.name) := by decide +kernel
  have hinit : (watchedFrom failingState).init (failingState, 0) := ⟨rfl, rfl⟩
  obtain ⟨s', hs', hlater, hrounds⟩ := System.exists_reachedBy_of_run (.init hinit) hrun
  exact ⟨s', hs', hrounds, gone_detected failingState_reached hnode hlater⟩

/-! ## A node that answers -/

/-- Pings of the node of a name succeed, and no sweep finds it stale. Statements succeed. -/
def Answering (name : String) (s : RegistryState × ProbeHistory) (a : RegistryAction) : Prop :=
  ProbesCount s a ∧
    match a with
    | .sweep now _ => ∀ n ∈ s.1.store.roster, n.name = name → now - 90000000 ≤ n.lastSeen
    | .ping success _ => ∀ target ∈ s.1.monitor.pinged,
        s.1.store.nameOf target.id = some name → success = true
    | .tick ok => ok = true
    | _ => True

instance (name : String) (s : RegistryState × ProbeHistory) :
    (a : RegistryAction) → Decidable (Answering name s a)
  | .sweep _ _ => inferInstanceAs (Decidable (_ ∧ ∀ _ ∈ _, _))
  | .ping _ _ => inferInstanceAs (Decidable (_ ∧ ∀ _ ∈ _, _))
  | .tick _ => inferInstanceAs (Decidable (_ ∧ _ = _))
  | .register _ _ | .recordProbe _ _ | .countFailures _ | .updateStatus _ =>
    inferInstanceAs (Decidable (_ ∧ True))

/-- The node of the name, online unless its first probe is still to end. With a database it
keeps its id. -/
def NodeStore.HasBack (st : NodeStore) (name id : String) (rounds : Nat) (due : List Target) :
    Prop :=
  ∃ n ∈ st.roster, n.name = name ∧ (st.db ≠ none → n.id = id) ∧
    (n.status ≠ .online → Behind rounds 0 due n.id)

/-- The invariant of a node that answers: no failure is under way, after the first round
has begun. -/
structure Returning (name id : String) (s : (RegistryState × ProbeHistory) × Nat) : Prop where
  distinct : Distinct s.1.1.store.roster
  node : s.1.1.store.HasBack name id s.2 s.1.1.monitor.unconcluded
  record : ∀ target latencyMs queue,
    s.1.1.monitor = .record target false latencyMs queue → target.id = id → s.2 = 0
  count : ∀ target queue, s.1.1.monitor = .count target queue → target.id = id →
    ∀ db, s.1.1.store.db = some db → s.2 = 0 ∨ trailingFailures db.nodeHealth id = 0
  update : ∀ target consec queue, s.1.1.monitor = .update target consec queue →
    target.id = id → s.2 = 0 ∨ consec = 0

theorem returning_start {name : String} {n : NodeInfo} {s : RegistryState × ProbeHistory}
    (hdistinct : Distinct s.1.store.roster) (hn : n ∈ s.1.store.roster) (hname : n.name = name) :
    Returning name n.id (s, 0) :=
  ⟨hdistinct, ⟨n, hn, hname, fun _ => rfl, fun _ => .zero _ _ _⟩, fun _ _ _ _ _ => rfl,
    fun _ _ _ _ _ _ => .inl rfl, fun _ _ _ _ _ => .inl rfl⟩

/-- Failures are counted by the rows of `node_health` alone. -/
theorem Returning.counted {name id : String} {s : (RegistryState × ProbeHistory) × Nat}
    (hinv : Returning name id s) {store : NodeStore}
    (h : store.db.map (·.nodeHealth) = s.1.1.store.db.map (·.nodeHealth)) (target : Target)
    (queue : List Target) (hpc : s.1.1.monitor = .count target queue) (hid : target.id = id)
    (db : Database) (hdb : store.db = some db) :
    s.2 = 0 ∨ trailingFailures db.nodeHealth id = 0 := by
  rw [hdb, Option.map_some] at h
  obtain ⟨old, hold, hsame⟩ := Option.map_eq_some_iff.mp h.symm
  rw [← hsame]
  exact hinv.count target queue hpc hid old hold

/-- A registration of the name puts the node online; others leave it. -/
theorem NodeStore.HasBack.register {st : NodeStore} {name id : String} {rounds : Nat}
    {due : List Target} (h : st.HasBack name id rounds due) {req : RegisterNodeRequest}
    {input : RegisterInput} (hok : input.upsert = .ok) (hfresh : st.Fresh input.id)
    (hdistinct : Distinct st.roster) :
    (Gateway.register st req input).1.HasBack name id rounds due := by
  obtain ⟨n, hn, rfl, hid, hbehind⟩ := h
  have hdb : (Gateway.register st req input).1.db ≠ none → st.db ≠ none :=
    mt register_db_eq_none.mpr
  by_cases hsame : findViolations req.models = [] ∧ req.name = n.name
  · obtain ⟨haccepted, hname⟩ := hsame
    refine ⟨st.merge n (newNode req input), ?_, ?_, ?_, ?_⟩
    · have hfound := (find?_key_eq_some_iff hdistinct.names).mpr hn
      have hafter : ((Gateway.register st req input).1.roster.find? fun m => m.name = n.name) =
          some (st.merge n (newNode req input)) := by
        rw [roster_register haccepted (fun _ => hok) hfresh, find?_upsertBy (merge_name st), hfound]
        exact if_pos hname
      exact List.mem_of_find?_eq_some hafter
    · exact (merge_name st n (newNode req input) hname.symm).trans hname
    · intro hafter
      rw [merge_id, if_neg (hdb hafter)]
      exact hid (hdb hafter)
    · intro hstatus
      refine absurd ?_ hstatus
      unfold NodeStore.merge
      split <;> rfl
  · have hkept := mem_register_other hok hfresh hdistinct hn (not_and.mp hsame)
    exact ⟨n, hkept, rfl, fun hafter => hid (hdb hafter), hbehind⟩

/-- The probe of an id ends with a status. -/
theorem NodeStore.HasBack.setStatus {st st' : NodeStore} {name id : String} {rounds : Nat}
    {target : Target} {queue : List Target} (h : st.HasBack name id rounds (target :: queue))
    {status : NodeStatus} (hdb : st'.db = none ↔ st.db = none)
    (hroster : st'.roster = setWhere (fun n => n.id = target.id) status st.roster)
    (hback : ∀ n ∈ st.roster, n.name = name → n.id = target.id → status = .online ∨ rounds = 0) :
    st'.HasBack name id rounds queue := by
  obtain ⟨n, hn, hname, hid, hbehind⟩ := h
  by_cases htarget : n.id = target.id
  · refine ⟨{ n with status }, ?_, hname, fun h => hid (mt hdb.mpr h), ?_⟩
    · rw [hroster]
      exact List.mem_map.mpr ⟨n, hn, if_pos htarget⟩
    · intro hstatus
      rcases hback n hn hname htarget with honline | rfl
      · exact absurd honline hstatus
      · exact .zero _ _ _
  · refine ⟨n, ?_, hname, fun h => hid (mt hdb.mpr h), ?_⟩
    · rw [hroster]
      exact List.mem_map.mpr ⟨n, hn, if_neg htarget⟩
    · exact fun hstatus => (hbehind hstatus).other (Ne.symm htarget)

theorem returning_step {name id : String} {s s' : (RegistryState × ProbeHistory) × Nat}
    {start : RegistryState × ProbeHistory} {a : RegistryAction} (hinv : Returning name id s)
    (hanswers : Answering name s.1 a) (hstep : (watchedFrom start).step s a = some s') :
    Returning name id s' := by
  obtain ⟨hmonitored, hrounds⟩ := System.observed_step hstep
  obtain ⟨hreg, -⟩ : registryStep s.1.1 a = some s'.1.1 ∧ _ := System.observed_step
    (show probedRegistry.step s.1 a = some s'.1 from hmonitored)
  have hmove := registryMove_of_step hreg
  have hdistinct := hinv.distinct
  obtain ⟨⟨st', history'⟩, rounds'⟩ := s'
  obtain ⟨⟨st, history⟩, rounds⟩ := s
  dsimp only at hmove hrounds hdistinct
  subst hrounds
  -- what the node of the name is called by its id
  have hnameOf : ∀ n ∈ st.store.roster, n.name = name → st.store.nameOf n.id = some name := by
    rintro n hn rfl
    exact nameOf_of_mem hdistinct hn
  cases hmove with
  | @register req input hfresh =>
      obtain ⟨hok, -⟩ := hanswers
      have hafter : Distinct (register st.store req input).1.roster := by
        by_cases haccepted : findViolations req.models = []
        · exact distinct_register haccepted hok hfresh hdistinct
        · rw [register_rejected haccepted]
          exact hdistinct
      exact ⟨hafter, hinv.node.register hok hfresh hdistinct, hinv.record,
        hinv.counted nodeHealth_register, hinv.update⟩
  | @sweep now o =>
      obtain ⟨-, hseen⟩ := hanswers
      refine ⟨?_, ?_, hinv.record, hinv.counted nodeHealth_sweep, hinv.update⟩
      · show Distinct (sweep st.store now o).roster
        by_cases ho : st.store.db ≠ none → o ≠ .failed
        · rw [roster_sweep ho]
          exact hdistinct.setWhere
        · push Not at ho
          rw [ho.2, sweep_failed ho.1]
          exact hdistinct
      · obtain ⟨n, hn, hname, hid, hbehind⟩ := hinv.node
        refine ⟨n, ?_, hname, fun hdb => hid (mt sweep_db_eq_none.mpr hdb), hbehind⟩
        show n ∈ (sweep st.store now o).roster
        by_cases ho : st.store.db ≠ none → o ≠ .failed
        · rw [roster_sweep ho]
          exact List.mem_map.mpr ⟨n, hn, if_neg (not_lt.mpr (hseen n hn hname))⟩
        · push Not at ho
          rw [ho.2, sweep_failed ho.1]
          exact hn
  | @tick ok hpc =>
      obtain ⟨-, rfl⟩ : _ ∧ ok = true := hanswers
      refine ⟨hdistinct, ?_, by rintro _ _ _ ⟨⟩, by rintro _ _ ⟨⟩, by rintro _ _ _ ⟨⟩⟩
      obtain ⟨n, hn, hname, hid, hbehind⟩ := hinv.node
      simp only [hpc] at hbehind
      have hdue : st.store.Has n.id name := ⟨n, hn, rfl, hname⟩
      exact ⟨n, hn, hname, hid, fun hstatus => (hbehind hstatus).begin hdue.mem_collectTargets⟩
  | @pingDb success latencyMs target queue db hpc hdb =>
      have hnode := hinv.node
      simp only [hpc] at hnode
      refine ⟨hdistinct, hnode, ?_, by rintro _ _ ⟨⟩, by rintro _ _ _ ⟨⟩⟩
      rintro _ _ _ ⟨⟩ hid
      obtain ⟨n, hn, hname, hnode, -⟩ := hinv.node
      have hsame : n.id = target.id := (hnode (by simp [hdb])).trans hid.symm
      have hsuccess := hanswers.2 target (by simp [hpc, MonitorPc.pinged])
        (hsame ▸ hnameOf n hn hname)
      cases hsuccess
  | @pingMemory success latencyMs target queue hpc hdb =>
      have hnode := hinv.node
      simp only [hpc] at hnode
      have hroster := @roster_pingMemory st.store st.failureCounts target.id success hdb hdistinct
      refine ⟨?_, hnode.setStatus (by simp [hdb]) hroster ?_, by rintro _ _ _ ⟨⟩,
        by rintro _ _ ⟨⟩, by rintro _ _ _ ⟨⟩⟩
      · show Distinct (NodeStore.roster { st.store with nodes := _ })
        rw [hroster]
        exact hdistinct.setWhere
      · intro n hn hname hid
        have hsuccess := hanswers.2 target (by simp [hpc, MonitorPc.pinged])
          (hid ▸ hnameOf n hn hname)
        rw [hsuccess]
        exact .inl rfl
  | @drop checkedAt o target success latencyMs queue db hpc hdb hdrop =>
      obtain ⟨⟨hok, -⟩, -⟩ := hanswers
      refine ⟨hdistinct, ?_, by rintro _ _ _ ⟨⟩, by rintro _ _ ⟨⟩, by rintro _ _ _ ⟨⟩⟩
      have hnode := hinv.node
      simp only [hpc] at hnode
      obtain ⟨n, hn, hname, hid, hbehind⟩ := hnode
      have hne : target.id ≠ n.id := by
        intro hsame
        have hnone : st.store.nameOf target.id = none := by
          rcases hdrop with hfailed | hrecord
          · rw [hok] at hfailed
            cases hfailed
          · exact nameOf_eq_none hdb hrecord
        rw [hsame, hnameOf n hn hname] at hnone
        cases hnone
      exact ⟨n, hn, hname, hid, fun hstatus => (hbehind hstatus).other hne⟩
  | @record checkedAt o target success latencyMs queue db db' hpc hdb hrecord ho =>
      obtain ⟨⟨rfl, hclock⟩, -⟩ := hanswers
      obtain ⟨-, rfl⟩ := recordProbe_eq_some hrecord
      have hroster : ∀ health, NodeStore.roster { st.store with db := some { db with
          nodeHealth := health } } = st.store.roster := by
        intro health
        rw [roster_of_db rfl, roster_of_db hdb]
      refine ⟨?_, ?_, by rintro _ _ _ ⟨⟩, ?_, by rintro _ _ _ ⟨⟩⟩
      · show Distinct (NodeStore.roster _)
        rw [hroster]
        exact hdistinct
      · have hnode := hinv.node
        simp only [hpc] at hnode
        obtain ⟨n, hn, hname, hid, hbehind⟩ := hnode
        exact ⟨n, hroster _ ▸ hn, hname, fun _ => hid (by simp [hdb]), hbehind⟩
      · rintro _ _ ⟨⟩ rfl db' hdb'
        obtain rfl := Option.some.inj hdb'
        cases success with
        | false => exact .inl (hinv.record target latencyMs queue hpc rfl)
        | true =>
            right
            exact trailingFailures_concat fun r hr _ => hclock db hdb r hr
  | @count ok target queue db hpc hdb =>
      obtain rfl : ok = true := hanswers.1
      have hnode := hinv.node
      simp only [hpc] at hnode
      refine ⟨hdistinct, hnode, by rintro _ _ _ ⟨⟩, by rintro _ _ ⟨⟩, ?_⟩
      rintro _ _ _ ⟨⟩ hid
      rcases hinv.count target queue hpc hid db hdb with hzero | hnone
      · exact .inl hzero
      · right
        apply UInt32.toNat_inj.mp
        rw [countConsecutiveFailures_toNat, hid, hnone]
        rfl
  | @updateFailed target consec queue hpc => exact absurd rfl hanswers.1
  | @update o target consec queue db hpc hdb ho =>
      have hroster := roster_updateNodeStatus hdb target.id consec
      have hnode := hinv.node
      simp only [hpc] at hnode
      refine ⟨?_, hnode.setStatus (by simp [hdb]) hroster ?_, by rintro _ _ _ ⟨⟩,
        by rintro _ _ ⟨⟩, by rintro _ _ _ ⟨⟩⟩
      · show Distinct (NodeStore.roster _)
        rw [hroster]
        exact hdistinct.setWhere
      · intro n hn hname hid
        obtain ⟨m, hm, hmname, hmid, -⟩ := hinv.node
        have hsame : m = n :=
          List.inj_on_of_nodup_map hdistinct.names hm hn (hmname.trans hname.symm)
        have hown : n.id = id := hsame ▸ hmid (by simp [hdb])
        rcases hinv.update target consec queue hpc (hid.symm.trans hown) with hzero | rfl
        · exact .inr hzero
        · exact .inl rfl

/-- **A node that answers is back after one round.** From any state on, while pings of the
node of a name succeed and no sweep finds it stale, it is online once a whole round of the
monitor is over, in both storage modes. -/
theorem answering_back {name : String} {s : RegistryState × ProbeHistory}
    {s' : (RegistryState × ProbeHistory) × Nat} (h : probedRegistry.ReachedBy ProbesCount s)
    (hnode : name ∈ s.1.store.roster.map (·.name))
    (hlater : (watchedFrom s).ReachedBy (fun s a => Answering name s.1 a) s')
    (hround : 1 ≤ roundsOver s') :
    ∃ n ∈ s'.1.1.store.roster, n.name = name ∧ n.status = .online := by
  obtain ⟨start, hstart, hstartName⟩ := List.mem_map.mp hnode
  have hhealth : HealthInv s :=
    h.invariant _ (fun _ h => healthInv_init h) fun _ _ _ h hok => healthInv_step h hok
  have hinv : Returning name start.id s' := by
    refine hlater.invariant _ ?_ fun _ _ _ h hok hstep => returning_step h hok hstep
    rintro ⟨s, rounds⟩ ⟨rfl, rfl⟩
    exact returning_start hhealth.distinct hstart hstartName
  obtain ⟨n, hn, hname, -, hbehind⟩ := hinv.node
  refine ⟨n, hn, hname, ?_⟩
  by_contra hstatus
  have hlate := hbehind hstatus
  unfold roundsOver at hround
  split at hround
  · rename_i hpc
    rw [hpc] at hlate
    have := hlate.due (by simp [MonitorPc.unconcluded])
    omega
  · have := hlate.one
    omega

theorem answering_back_after_failures : ∃ s',
    (watchedFrom failingState).run (fun s a => Answering "gpu-1" s.1 a) (failingState, 0)
      [.tick true, .ping true 12] = some s' ∧
      (failingState.1.store.roster.map (·.status)) = [.degraded] ∧
      ∃ n ∈ s'.1.1.store.roster, n.name = "gpu-1" ∧ n.status = .online := by
  have hrun : ((watchedFrom failingState).run (fun s a => Answering "gpu-1" s.1 a)
      (failingState, 0) [.tick true, .ping true 12]).map roundsOver = some 1 := by decide +kernel
  have hnode : "gpu-1" ∈ failingState.1.store.roster.map (·.name) := by decide +kernel
  have hstatus : failingState.1.store.roster.map (·.status) = [.degraded] := by decide +kernel
  have hinit : (watchedFrom failingState).init (failingState, 0) := ⟨rfl, rfl⟩
  obtain ⟨s', hs', hlater, hrounds⟩ := System.exists_reachedBy_of_run (.init hinit) hrun
  refine ⟨s', hs', hstatus, answering_back failingState_reached hnode hlater ?_⟩
  rw [hrounds]

end InferPlatform.Gateway
