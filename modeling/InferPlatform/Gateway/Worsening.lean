import InferPlatform.Gateway.Health
import InferPlatform.Gateway.Staleness
import Mathlib

/-!
# Failed probes

A probe that fails should leave its node as it is or make it worse. The monitor, however,
sets the status that its count of failures stands for, whatever set the one before, and the
count is 0 where it cannot be read.

* `Cause` — what set the status of a node last: a registration, a sweep or a probe;
* `noneImproves_of_causes` — **failed probes improve no node in runs where each of them
  counts enough failures for what set the status before it**, and from every reachable state
  the next failed probe improves a node exactly if it does not;
* `causesAllow_memory` — in memory mode it is the sweep alone that needs failures counted,
  until the counter wraps;
* `failed_probe_improves` — a stale node that fails a probe is online again, and so is a
  degraded one of which the failures cannot be read.
-/

namespace InferPlatform.Gateway

/-! ## What sets the statuses -/

/-- Online, degraded, offline. A busy node is up. -/
def NodeStatus.severity : NodeStatus → Nat
  | .online | .busy => 0
  | .degraded => 1
  | .offline => 2

/-- What set a status: a registration, a sweep that found the node stale, or a probe for
which so many failures in a row were counted. -/
inductive Cause
  | registered
  | swept
  | probed (failures : Nat)
  deriving DecidableEq, Repr

def Cause.status : Cause → NodeStatus
  | .registered => .online
  | .swept => .offline
  | .probed failures => if 10 ≤ failures then .offline else if 3 ≤ failures then .degraded else .online

/-- The failures of an id since its last success, where they can be read. -/
def NodeStore.readFailures (st : NodeStore) (id : String) (ok : Bool) : Nat :=
  match st.db, ok with
  | some db, true => trailingFailures db.nodeHealth id
  | _, _ => 0

/-- What an observer notes: for each id what set its status last since the gateway started,
and its failed pings since the last success in memory mode; with a database, whether the probe
that is being recorded has failed and the failures read for it; and the statuses before and
after each failed probe. -/
structure ProbeNotes where
  cause : String → Option Cause
  streak : String → Nat
  failing : Bool
  failures : Nat
  applied : List (NodeStatus × NodeStatus)

namespace ProbeNotes

def empty : ProbeNotes := ⟨fun _ => none, fun _ => 0, false, 0, []⟩

/-- The statuses of some ids have been set. -/
def setBy (notes : ProbeNotes) (cause : Cause) (p : String → Prop) [DecidablePred p] : ProbeNotes :=
  { notes with cause := fun id => if p id then some cause else notes.cause id }

/-- A failed probe of an id has been applied. -/
def apply (notes : ProbeNotes) (id : String) (st st' : NodeStore) : ProbeNotes :=
  match st.statusOf id, st'.statusOf id with
  | some before, some after => { notes with applied := notes.applied ++ [(before, after)] }
  | _, _ => notes

/-- A ping in memory mode, which is a whole probe. -/
def pinged (notes : ProbeNotes) (id : String) (success : Bool) : ProbeNotes :=
  let failures := if success then 0 else notes.streak id + 1
  -- the counter has 32 bits
  { notes.setBy (.probed (failures % 2 ^ 32)) (· = id) with
    streak := Function.update notes.streak id failures }

end ProbeNotes

/-- A sweep at this time finds the node with the id stale. -/
def NodeStore.Stale (st : NodeStore) (now : Int) (id : String) : Prop :=
  ∃ n ∈ st.roster, n.id = id ∧ n.lastSeen < now - 90000000

instance (st : NodeStore) (now : Int) : DecidablePred (st.Stale now) := fun id =>
  inferInstanceAs (Decidable (∃ n ∈ st.roster, n.id = id ∧ n.lastSeen < now - 90000000))

/-- The observer of the registry. With a database a probe is applied by its last statement. -/
def noteFailed (notes : ProbeNotes) (st : RegistryState) (a : RegistryAction)
    (st' : RegistryState) : ProbeNotes :=
  match a, st.monitor with
  | .register req input, _ =>
    if findViolations req.models ≠ [] ∨ st.store.db ≠ none ∧ input.upsert = .failed then notes
    else notes.setBy .registered fun id => st'.store.nameOf id = some req.name
  | .sweep now o, _ =>
    if st.store.db ≠ none ∧ o = .failed then notes
    else notes.setBy .swept (st.store.Stale now)
  | .ping success _, .next (target :: _) =>
    if st.store.db = none then
      (if success then notes else notes.apply target.id st.store st'.store).pinged target.id success
    else notes
  | .recordProbe _ _, .record _ success _ _ => { notes with failing := !success }
  | .countFailures ok, .count target _ =>
    { notes with failures := st.store.readFailures target.id ok }
  | .updateStatus o, .update target _ _ =>
    let notes := if notes.failing then notes.apply target.id st.store st'.store else notes
    if o = .failed then notes else notes.setBy (.probed notes.failures) (· = target.id)
  | _, _ => notes

/-- The registry beside its failed probes. -/
def failingRegistry : System (RegistryState × ProbeNotes) RegistryAction :=
  registry.observed .empty noteFailed

/-- No failed probe has improved a node. -/
def NoneImproves (notes : ProbeNotes) : Prop :=
  ∀ change ∈ notes.applied, change.1.severity ≤ change.2.severity

instance (notes : ProbeNotes) : Decidable (NoneImproves notes) :=
  inferInstanceAs (Decidable (∀ _ ∈ _, _))

/-! ## Failures that are enough -/

/-- So many failures in a row explain the status. -/
def Explains (failures : Nat) (status : NodeStatus) : Prop :=
  (status = .degraded → 3 ≤ failures) ∧ (status = .offline → 10 ≤ failures)

instance (failures : Nat) (status : NodeStatus) : Decidable (Explains failures status) :=
  inferInstanceAs (Decidable (_ ∧ _))

/-- So many failures are enough for a probe after this one: none after a registration, ten
after a sweep, and after a probe as many as it took for its own status. -/
def Cause.Enough (failures : Nat) : Cause → Prop
  | .registered => True
  | .swept => 10 ≤ failures
  | .probed earlier => (3 ≤ earlier → 3 ≤ failures) ∧ (10 ≤ earlier → 10 ≤ failures)

instance (failures : Nat) : (cause : Cause) → Decidable (cause.Enough failures)
  | .registered => inferInstanceAs (Decidable True)
  | .swept => inferInstanceAs (Decidable (_ ≤ _))
  | .probed _ => inferInstanceAs (Decidable (_ ∧ _))

/-- Enough failures for what set the status; a status from before the gateway's start has to be
one that they explain. -/
def Allowed (failures : Nat) (status : NodeStatus) : Option Cause → Prop
  | some cause => cause.Enough failures
  | none => Explains failures status

instance (failures : Nat) (status : NodeStatus) : (cause : Option Cause) →
    Decidable (Allowed failures status cause)
  | some cause => inferInstanceAs (Decidable (cause.Enough failures))
  | none => inferInstanceAs (Decidable (Explains failures status))

/-- Where a failed probe is applied to a node, the failures counted for it are enough for what
set its status: in memory mode the failed pings since the last success, this one included and
modulo the counter's 32 bits; with a database the failures read, or none if they cannot be. -/
def CausesAllow (s : RegistryState × ProbeNotes) : RegistryAction → Prop
  | .ping success _ => success = false → s.1.store.db = none → ∀ target ∈ s.1.monitor.pinged,
      ∀ status ∈ s.1.store.statusOf target.id,
        Allowed ((s.2.streak target.id + 1) % 2 ^ 32) status (s.2.cause target.id)
  | .updateStatus o => o ≠ .failed → s.2.failing = true → ∀ target ∈ s.1.monitor.updated,
      ∀ status ∈ s.1.store.statusOf target.id,
        Allowed s.2.failures status (s.2.cause target.id)
  | _ => True

instance (s : RegistryState × ProbeNotes) : (a : RegistryAction) → Decidable (CausesAllow s a)
  | .ping _ _ => inferInstanceAs (Decidable (_ → _))
  | .updateStatus _ => inferInstanceAs (Decidable (_ → _))
  | .register _ _ | .sweep _ _ | .tick _ | .recordProbe _ _ | .countFailures _ =>
    inferInstanceAs (Decidable True)

/-- A count makes a node no better just where it explains its status. -/
theorem severity_le_iff {consec : UInt32} {status : NodeStatus} :
    status.severity ≤ (byFailures consec NodeStatus.offline .degraded .online).severity ↔
      Explains consec.toNat status := by
  have hten : (10 : UInt32) ≤ consec ↔ 10 ≤ consec.toNat := UInt32.le_iff_toNat_le
  have hthree : (3 : UInt32) ≤ consec ↔ 3 ≤ consec.toNat := UInt32.le_iff_toNat_le
  simp only [byFailures, hten, hthree, Explains]
  by_cases h10 : 10 ≤ consec.toNat
  · have h3 : 3 ≤ consec.toNat := by omega
    cases status <;> simp [h10, h3, NodeStatus.severity]
  · by_cases h3 : 3 ≤ consec.toNat
    · cases status <;> simp [h10, h3, NodeStatus.severity]
    · cases status <;> simp [h10, h3, NodeStatus.severity]

/-- The status that a probe sets is the one of its count, of which ten failures are seen at
most. -/
theorem status_probed {consec : UInt32} {failures : Nat}
    (h : consec.toNat = failures ∨ consec.toNat = min 10 failures) :
    (Cause.probed failures).status = byFailures consec .offline .degraded .online := by
  have hten : (10 : UInt32) ≤ consec ↔ 10 ≤ consec.toNat := UInt32.le_iff_toNat_le
  have hthree : (3 : UInt32) ≤ consec ↔ 3 ≤ consec.toNat := UInt32.le_iff_toNat_le
  have hten' : 10 ≤ consec.toNat ↔ 10 ≤ failures := by omega
  have hthree' : 3 ≤ consec.toNat ↔ 3 ≤ failures := by omega
  simp only [Cause.status, byFailures, hten, hthree, hten', hthree']

/-- Failures explain the status of a cause just where they are enough for it. -/
theorem explains_iff_allowed {failures : Nat} {status : NodeStatus} {cause : Option Cause}
    (h : ∀ c ∈ cause, status = c.status) :
    Explains failures status ↔ Allowed failures status cause := by
  cases cause with
  | none => rfl
  | some cause =>
      rw [h cause rfl]
      cases cause with
      | registered => simp [Allowed, Cause.Enough, Explains, Cause.status]
      | swept => simp [Allowed, Cause.Enough, Explains, Cause.status]
      | probed earlier =>
          simp only [Allowed, Cause.Enough, Explains, Cause.status]
          by_cases h10 : 10 ≤ earlier
          · have h3 : 3 ≤ earlier := by omega
            simp only [h10, h3, if_true, reduceCtorEq, false_implies, true_and, true_implies]
            omega
          · by_cases h3 : 3 ≤ earlier <;> simp [h10, h3]

/-! ## One probe -/

theorem noneImproves_concat {notes : ProbeNotes} (change : NodeStatus × NodeStatus) :
    NoneImproves { notes with applied := notes.applied ++ [change] } ↔
      NoneImproves notes ∧ change.1.severity ≤ change.2.severity := by
  simp only [NoneImproves, List.forall_mem_append, List.forall_mem_singleton]

/-- A failed probe that sets a status improves no node just where its count explains the
status before. -/
theorem noneImproves_apply {notes : ProbeNotes} {id : String} {st st' : NodeStore}
    {consec : UInt32} (hset : st'.statusOf id =
      (st.statusOf id).map fun _ => byFailures consec .offline .degraded .online) :
    NoneImproves (notes.apply id st st') ↔
      NoneImproves notes ∧ ∀ status ∈ st.statusOf id, Explains consec.toNat status := by
  rw [ProbeNotes.apply, hset]
  cases st.statusOf id with
  | none => simp
  | some before =>
      show NoneImproves { notes with
        applied := notes.applied ++ [(before, byFailures consec .offline .degraded .online)] } ↔ _
      rw [noneImproves_concat, severity_le_iff]
      simp

/-- A statement that fails leaves the status. -/
theorem noneImproves_apply_self {notes : ProbeNotes} (id : String) (st : NodeStore) :
    NoneImproves (notes.apply id st st) ↔ NoneImproves notes := by
  unfold ProbeNotes.apply
  split
  · rename_i before after hbefore hafter
    obtain rfl : before = after := Option.some.inj (hbefore.symm.trans hafter)
    exact (noneImproves_concat _).trans (and_iff_left (le_refl _))
  · rfl

/-- A probe that is applied leaves the other notes. -/
theorem ProbeNotes.apply_eq (notes : ProbeNotes) (id : String) (st st' : NodeStore) :
    ∃ applied, notes.apply id st st' = { notes with applied } := by
  unfold ProbeNotes.apply
  split
  · exact ⟨_, rfl⟩
  · exact ⟨_, rfl⟩

theorem exists_of_statusOf {st : NodeStore} {id : String} {status : NodeStatus}
    (h : st.statusOf id = some status) : ∃ n ∈ st.roster, n.id = id ∧ n.status = status := by
  obtain ⟨n, hn, hstatus⟩ := Option.map_eq_some_iff.mp h
  exact ⟨n, List.mem_of_find?_eq_some hn, by simpa using List.find?_some hn, hstatus⟩

/-! ## What the notes say of the statuses -/

/-- Every noted cause is the one of the status, the counters in memory are the noted failures,
and the count that the monitor is about to use is what it has read, up to ten. -/
structure CausesHold (s : RegistryState × ProbeNotes) : Prop where
  distinct : Distinct s.1.store.roster
  causes : ∀ n ∈ s.1.store.roster, ∀ c ∈ s.2.cause n.id, n.status = c.status
  counters : ∀ id, (s.1.failureCounts.get id).toNat = s.2.streak id % 2 ^ 32
  counted : ∀ target consec queue, s.1.monitor = .update target consec queue →
    consec.toNat = min 10 s.2.failures
  memory : s.1.store.db = none →
    (∀ n ∈ s.1.store.roster, s.2.cause n.id ≠ none) ∧
      ∀ id failures, s.2.cause id = some (.probed failures) → failures = s.2.streak id % 2 ^ 32

theorem causesHold_init {s : RegistryState × ProbeNotes} (h : failingRegistry.init s) :
    CausesHold s := by
  obtain ⟨⟨hnodes, hcounts, hpc⟩, hnotes⟩ := h
  refine ⟨?_, ?_, ?_, ?_, ?_⟩
  · by_cases hdb : s.1.store.db = none
    · rw [roster_of_memory hdb, hnodes]
      exact ⟨List.nodup_nil, List.nodup_nil⟩
    · exact distinct_of_db hdb
  · intro n _ c hc
    rw [hnotes] at hc
    cases hc
  · intro id
    rw [hcounts, hnotes]
    rfl
  · intro target consec queue hupdate
    rw [hpc] at hupdate
    cases hupdate
  · intro hdb
    refine ⟨?_, ?_⟩
    · rw [roster_of_memory hdb, hnodes]
      exact List.forall_mem_nil _
    · intro id failures hcause
      rw [hnotes] at hcause
      cases hcause

/-- After an accepted registration the node of its name is online, and the others are as they
were. -/
theorem mem_upserted {st : NodeStore} {req : RegisterNodeRequest} {input : RegisterInput}
    (haccepted : findViolations req.models = []) (hok : st.db ≠ none → input.upsert ≠ .failed)
    (hfresh : st.Fresh input.id) (hdistinct : Distinct (register st req input).1.roster)
    {n : NodeInfo} (hn : n ∈ (register st req input).1.roster) :
    n.name = req.name ∧ n.status = .online ∨ n.name ≠ req.name ∧ n ∈ st.roster := by
  have hfind := (find?_key_eq_some_iff hdistinct.names).mpr hn
  rw [roster_upserted haccepted hok hfresh, find?_upsertBy (merge_name st)] at hfind
  by_cases hname : (newNode req input).name = n.name
  · rw [if_pos hname, Option.some.injEq] at hfind
    refine .inl ⟨hname.symm, ?_⟩
    rw [← hfind]
    cases st.roster.find? fun m => m.name = n.name with
    | none => rfl
    | some old =>
        show (st.merge old (newNode req input)).status = .online
        unfold NodeStore.merge
        split <;> rfl
  · rw [if_neg hname] at hfind
    exact .inr ⟨fun h => hname h.symm, List.mem_of_find?_eq_some hfind⟩

/-- A writer that sets statuses, with a cause for the ids of the nodes that it sets. -/
theorem CausesHold.setWhere {s : RegistryState × ProbeNotes} (hinv : CausesHold s)
    {nodes : List NodeInfo} {p : NodeInfo → Prop} [DecidablePred p] {q : String → Prop}
    [DecidablePred q] {status : NodeStatus} {cause : Cause}
    (hnodes : nodes = Gateway.setWhere p status s.1.store.roster)
    (hq : ∀ n ∈ s.1.store.roster, q n.id ↔ p n) (hstatus : cause.status = status) :
    (∀ n ∈ nodes, ∀ c ∈ (s.2.setBy cause q).cause n.id, n.status = c.status) ∧
      (s.1.store.db = none → ∀ n ∈ nodes, (s.2.setBy cause q).cause n.id ≠ none) := by
  have hold : ∀ n ∈ nodes, ∃ old ∈ s.1.store.roster,
      n.status = (if p old then status else old.status) ∧
      (s.2.setBy cause q).cause n.id = if p old then some cause else s.2.cause old.id := by
    intro n hn
    obtain ⟨old, hold, hid, -, hset⟩ := mem_setWhere (hnodes ▸ hn)
    refine ⟨old, hold, hset, ?_⟩
    show (if q n.id then _ else _) = _
    simp only [hid, hq old hold]
  refine ⟨?_, ?_⟩
  · intro n hn c hc
    obtain ⟨old, hold, hset, hcause⟩ := hold n hn
    rw [hcause] at hc
    rw [hset]
    split
    · rename_i hp
      rw [if_pos hp] at hc
      rw [← Option.some.inj hc, hstatus]
    · rename_i hp
      rw [if_neg hp] at hc
      exact hinv.causes old hold c hc
  · intro hdb n hn
    obtain ⟨old, hold, -, hcause⟩ := hold n hn
    rw [hcause]
    split
    · simp
    · exact (hinv.memory hdb).1 old hold

theorem causesHold_register {s : RegistryState × ProbeNotes} (hinv : CausesHold s)
    {req : RegisterNodeRequest} {input : RegisterInput} (hfresh : s.1.store.Fresh input.id)
    (hdistinct : Distinct (register s.1.store req input).1.roster) :
    CausesHold ({ s.1 with store := (register s.1.store req input).1 },
      noteFailed s.2 s.1 (.register req input)
        { s.1 with store := (register s.1.store req input).1 }) := by
  have hmode : (register s.1.store req input).1.db = none ↔ s.1.store.db = none :=
    register_db_eq_none
  by_cases hkept : findViolations req.models ≠ [] ∨ s.1.store.db ≠ none ∧ input.upsert = .failed
  · -- nothing is written, or only to the list that a table stands for
    have hroster : (register s.1.store req input).1.roster = s.1.store.roster := by
      rcases hkept with hrejected | ⟨hdb, hfailed⟩
      · rw [register_rejected hrejected]
      · exact roster_register_failed hdb hfailed
    simp only [noteFailed, if_pos hkept]
    refine ⟨hdistinct, ?_, hinv.counters, hinv.counted, ?_⟩
    · intro n hn
      exact hinv.causes n (hroster ▸ hn)
    · intro hdb
      obtain ⟨hcaused, hprobed⟩ := hinv.memory (hmode.mp hdb)
      exact ⟨fun n hn => hcaused n (hroster ▸ hn), hprobed⟩
  · simp only [noteFailed, if_neg hkept]
    push Not at hkept
    have hmem : ∀ n ∈ (register s.1.store req input).1.roster, _ := fun n =>
      mem_upserted (n := n) hkept.1 hkept.2 hfresh hdistinct
    -- the id of a node with the name is noted, that of another one is not
    have hcause : ∀ n ∈ (register s.1.store req input).1.roster,
        (s.2.setBy .registered fun id =>
          (register s.1.store req input).1.nameOf id = some req.name).cause n.id =
          if n.name = req.name then some .registered else s.2.cause n.id := by
      intro n hn
      show (if _ then _ else _) = _
      simp only [nameOf_of_mem hdistinct hn, Option.some.injEq]
    refine ⟨hdistinct, ?_, hinv.counters, hinv.counted, ?_⟩
    · intro n hn c hc
      replace hc := (hcause n hn).symm.trans hc
      rcases hmem n hn with ⟨hname, hstatus⟩ | ⟨hname, hold⟩
      · rw [if_pos hname] at hc
        rw [← Option.some.inj hc, hstatus]
        rfl
      · rw [if_neg hname] at hc
        exact hinv.causes n hold c hc
    · intro hdb
      obtain ⟨hcaused, hprobed⟩ := hinv.memory (hmode.mp hdb)
      refine ⟨?_, ?_⟩
      · intro n hn
        show (s.2.setBy .registered _).cause n.id ≠ none
        rw [hcause n hn]
        rcases hmem n hn with ⟨hname, -⟩ | ⟨hname, hold⟩
        · simp [hname]
        · rw [if_neg hname]
          exact hcaused n hold
      · intro id failures hid
        simp only [ProbeNotes.setBy] at hid
        split at hid
        · cases hid
        · exact hprobed id failures hid

theorem causesHold_sweep {s : RegistryState × ProbeNotes} (hinv : CausesHold s) {now : Int}
    {o : Outcome} :
    CausesHold ({ s.1 with store := sweep s.1.store now o },
      noteFailed s.2 s.1 (.sweep now o) { s.1 with store := sweep s.1.store now o }) := by
  by_cases hfailed : s.1.store.db ≠ none ∧ o = .failed
  · simp only [noteFailed, if_pos hfailed]
    obtain ⟨hdb, rfl⟩ := hfailed
    rw [sweep_failed hdb]
    exact hinv
  · simp only [noteFailed, if_neg hfailed]
    have hroster : (sweep s.1.store now o).roster = _ :=
      roster_sweep fun hdb ho => hfailed ⟨hdb, ho⟩
    have hstale : ∀ n ∈ s.1.store.roster,
        s.1.store.Stale now n.id ↔ n.lastSeen < now - 90000000 := by
      intro n hn
      refine ⟨?_, fun hseen => ⟨n, hn, rfl, hseen⟩⟩
      rintro ⟨m, hm, hid, hseen⟩
      rwa [List.inj_on_of_nodup_map hinv.distinct.ids hm hn hid] at hseen
    have hswept : Cause.swept.status = .offline := rfl
    obtain ⟨hcauses, hcaused⟩ := hinv.setWhere hroster hstale hswept
    refine ⟨?_, hcauses, hinv.counters, hinv.counted, ?_⟩
    · show Distinct (sweep s.1.store now o).roster
      rw [hroster]
      exact hinv.distinct.setWhere
    · intro hdb
      have hdb' := sweep_db_eq_none.mp hdb
      refine ⟨hcaused hdb', ?_⟩
      intro id failures hid
      simp only [ProbeNotes.setBy] at hid
      split at hid
      · cases hid
      · exact (hinv.memory hdb').2 id failures hid

/-- The counter of a ping, as the notes have it. -/
theorem counter_pinged {s : RegistryState × ProbeNotes} (hinv : CausesHold s) (id : String)
    (success : Bool) :
    (if success then 0 else s.1.failureCounts.get id + 1 : UInt32).toNat =
      (if success then 0 else s.2.streak id + 1) % 2 ^ 32 := by
  cases success
  · have hcounter := hinv.counters id
    simp only [Bool.false_eq_true, if_false, UInt32.toNat_add, UInt32.reduceToNat]
    omega
  · rfl

/-- The notes after a ping in memory mode, whatever they say of the statuses applied. -/
theorem causesHold_pinged {s : RegistryState × ProbeNotes} (hinv : CausesHold s)
    (hdb : s.1.store.db = none) (target : Target) (queue : List Target) (success : Bool)
    (applied : List (NodeStatus × NodeStatus)) :
    CausesHold
      (⟨{ s.1.store with
          nodes := (probeMemory s.1.store.nodes s.1.failureCounts target.id success).1 },
        (probeMemory s.1.store.nodes s.1.failureCounts target.id success).2, .next queue⟩,
      ({ s.2 with applied }).pinged target.id success) := by
  have hroster : NodeStore.roster { s.1.store with
      nodes := (probeMemory s.1.store.nodes s.1.failureCounts target.id success).1 } = _ :=
    roster_pingMemory hdb hinv.distinct
  have hcounter := counter_pinged hinv target.id success
  obtain ⟨hcauses, hcaused⟩ := hinv.setWhere (q := (· = target.id)) hroster (fun _ _ => Iff.rfl)
    (status_probed (.inl hcounter))
  refine ⟨?_, hcauses, ?_, by simp, ?_⟩
  · show Distinct (NodeStore.roster _)
    rw [hroster]
    exact hinv.distinct.setWhere
  · intro id
    show (FailureCounts.get _ id).toNat = Function.update s.2.streak target.id _ id % 2 ^ 32
    rw [get_probeMemory]
    by_cases hid : id = target.id
    · rw [if_pos hid, hid, Function.update_self, hcounter]
    · rw [if_neg hid, Function.update_of_ne hid]
      exact hinv.counters id
  · intro _
    refine ⟨hcaused hdb, ?_⟩
    intro id failures hcause
    replace hcause : (if id = target.id then some (Cause.probed _) else s.2.cause id) =
      some (.probed failures) := hcause
    show failures = Function.update s.2.streak target.id _ id % 2 ^ 32
    by_cases hid : id = target.id
    · rw [if_pos hid, Option.some.injEq, Cause.probed.injEq] at hcause
      rw [hid, Function.update_self, ← hcause]
    · rw [if_neg hid] at hcause
      rw [Function.update_of_ne hid]
      exact (hinv.memory hdb).2 id failures hcause

/-- The notes after the last statement of a probe with a database. -/
theorem causesHold_update {s : RegistryState × ProbeNotes} (hinv : CausesHold s)
    {target : Target} {consec : UInt32} {queue : List Target} {db : Database}
    (hpc : s.1.monitor = .update target consec queue) (hdb : s.1.store.db = some db)
    (applied : List (NodeStatus × NodeStatus)) :
    CausesHold ({ s.1 with
        store := { s.1.store with db := some (updateNodeStatus db target.id consec) }
        monitor := .next queue },
      ({ s.2 with applied }).setBy (.probed s.2.failures) (· = target.id)) := by
  obtain ⟨hcauses, -⟩ := hinv.setWhere (q := (· = target.id))
    (roster_updateNodeStatus hdb target.id consec) (fun _ _ => Iff.rfl)
    (status_probed (.inr (hinv.counted target consec queue hpc)))
  refine ⟨distinct_of_db (by simp), hcauses, hinv.counters, by simp, ?_⟩
  rintro ⟨⟩

theorem countConsecutiveFailures_eq_readFailures {st : NodeStore} {db : Database}
    (hdb : st.db = some db) (id : String) (ok : Bool) :
    (countConsecutiveFailures db id ok).toNat = min 10 (st.readFailures id ok) := by
  cases ok with
  | false => simp [countConsecutiveFailures, NodeStore.readFailures]
  | true =>
      rw [countConsecutiveFailures_toNat]
      simp [NodeStore.readFailures, hdb]

/-- Notes of other statuses applied hold as well. -/
theorem CausesHold.withApplied {s : RegistryState × ProbeNotes} (h : CausesHold s)
    (applied : List (NodeStatus × NodeStatus)) : CausesHold (s.1, { s.2 with applied }) :=
  ⟨h.distinct, h.causes, h.counters, h.counted, h.memory⟩

/-- The monitor may move on, but not to an update. -/
theorem CausesHold.monitor {s : RegistryState × ProbeNotes} (h : CausesHold s) {pc : MonitorPc}
    (hpc : ∀ target consec queue, pc ≠ .update target consec queue) :
    CausesHold ({ s.1 with monitor := pc }, s.2) :=
  ⟨h.distinct, h.causes, h.counters, fun target consec queue hupdate =>
    absurd hupdate (hpc target consec queue), h.memory⟩

/-- Every step keeps what the notes say. -/
theorem causesHold_step {s s' : RegistryState × ProbeNotes} {a : RegistryAction}
    (hinv : CausesHold s) (hstep : failingRegistry.step s a = some s') : CausesHold s' := by
  obtain ⟨st', notes'⟩ := s'
  obtain ⟨hreg, hnote⟩ := System.observed_step hstep
  have hmove := registryMove_of_step hreg
  dsimp only at hmove hnote
  have hdistinct := distinct_move hmove hinv.distinct
  subst hnote
  cases hmove with
  | register hfresh => exact causesHold_register hinv hfresh hdistinct
  | sweep => exact causesHold_sweep hinv
  | tick => exact hinv.monitor (by simp)
  | @pingDb success latencyMs target queue db hpc hdb =>
      have hne : ¬ s.1.store.db = none := by simp [hdb]
      simp only [noteFailed, hpc, if_neg hne]
      exact hinv.monitor (by simp)
  | @pingMemory success latencyMs target queue hpc hdb =>
      simp only [noteFailed, hpc, if_pos hdb]
      cases success with
      | true => exact causesHold_pinged hinv hdb target queue true s.2.applied
      | false =>
          obtain ⟨applied, happly⟩ := s.2.apply_eq target.id s.1.store
            { s.1.store with
              nodes := (probeMemory s.1.store.nodes s.1.failureCounts target.id false).1 }
          simp only [Bool.false_eq_true, if_false, happly]
          exact causesHold_pinged hinv hdb target queue false applied
  | @drop _ _ target success _ queue db hpc hdb hdrop =>
      simp only [noteFailed, hpc]
      exact ⟨hinv.distinct, hinv.causes, hinv.counters, by simp, hinv.memory⟩
  | @record _ _ target success _ queue db db' hpc hdb hrecord ho =>
      obtain ⟨-, rfl⟩ := recordProbe_eq_some hrecord
      simp only [noteFailed, hpc]
      refine ⟨hdistinct, ?_, hinv.counters, ?_, ?_⟩
      · have hroster : s.1.store.roster = db.nodes.rows.map (·.toNodeInfo) := roster_of_db hdb
        show ∀ n ∈ db.nodes.rows.map (·.toNodeInfo), ∀ c ∈ s.2.cause n.id, n.status = c.status
        rw [← hroster]
        exact hinv.causes
      · intro target consec queue hupdate
        dsimp only at hupdate
        split at hupdate <;> cases hupdate
      · rintro ⟨⟩
  | @count ok target queue db hpc hdb =>
      simp only [noteFailed, hpc]
      refine ⟨hinv.distinct, hinv.causes, hinv.counters, ?_, hinv.memory⟩
      rintro _ _ _ ⟨⟩
      exact countConsecutiveFailures_eq_readFailures hdb target.id ok
  | @updateFailed target consec queue hpc =>
      obtain ⟨applied, happly⟩ := s.2.apply_eq target.id s.1.store s.1.store
      have hnext : CausesHold ({ s.1 with monitor := .next queue }, s.2) := hinv.monitor (by simp)
      simp only [noteFailed, hpc, if_true]
      split
      · rw [happly]
        exact hnext.withApplied applied
      · exact hnext
  | @update o target consec queue db hpc hdb ho =>
      obtain ⟨applied, happly⟩ := s.2.apply_eq target.id s.1.store
        { s.1.store with db := some (updateNodeStatus db target.id consec) }
      simp only [noteFailed, hpc, if_neg ho, happly]
      split
      · exact causesHold_update hinv hpc hdb applied
      · exact causesHold_update hinv hpc hdb s.2.applied

theorem causesHold_of_reachable {s : RegistryState × ProbeNotes}
    (h : failingRegistry.Reachable s) : CausesHold s :=
  h.invariant CausesHold (fun _ hs => causesHold_init hs) fun _ _ _ hs _ hstep =>
    causesHold_step hs hstep

/-! ## Runs -/

/-- A failed probe of a node improves it just where its count is not enough. -/
theorem noneImproves_apply_allowed {s : RegistryState × ProbeNotes} (hinv : CausesHold s)
    {id : String} {st' : NodeStore} {consec : UInt32} {failures : Nat}
    (hset : st'.statusOf id =
      (s.1.store.statusOf id).map fun _ => byFailures consec .offline .degraded .online)
    (hcount : consec.toNat = failures ∨ consec.toNat = min 10 failures) :
    NoneImproves (s.2.apply id s.1.store st') ↔ NoneImproves s.2 ∧
      ∀ status ∈ s.1.store.statusOf id, Allowed failures status (s.2.cause id) := by
  rw [noneImproves_apply hset]
  refine and_congr_right fun _ => forall₂_congr fun status hstatus => ?_
  have hexplains : Explains consec.toNat status ↔ Explains failures status := by
    unfold Explains
    rcases hcount with hcount | hcount
    · rw [hcount]
    · rw [hcount]
      refine and_congr (imp_congr_right fun _ => ?_) (imp_congr_right fun _ => ?_)
      · omega
      · omega
  rw [hexplains]
  apply explains_iff_allowed
  intro c hc
  obtain ⟨n, hn, rfl, rfl⟩ := exists_of_statusOf hstatus
  exact hinv.causes n hn c hc

/-- What a step does to the failed probes is what `CausesAllow` says of it. -/
theorem noneImproves_step {s s' : RegistryState × ProbeNotes} {a : RegistryAction}
    (hinv : CausesHold s) (hstep : failingRegistry.step s a = some s') :
    NoneImproves s'.2 ↔ NoneImproves s.2 ∧ CausesAllow s a := by
  obtain ⟨st', notes'⟩ := s'
  obtain ⟨hreg, hnote⟩ := System.observed_step hstep
  have hmove := registryMove_of_step hreg
  dsimp only at hmove hnote
  subst hnote
  cases hmove with
  | register =>
      simp only [noteFailed]
      split
      · exact (and_iff_left trivial).symm
      · exact (and_iff_left trivial).symm
  | sweep =>
      simp only [noteFailed]
      split
      · exact (and_iff_left trivial).symm
      · exact (and_iff_left trivial).symm
  | tick => exact (and_iff_left trivial).symm
  | @pingDb success latencyMs target queue db hpc hdb =>
      have hne : ¬ s.1.store.db = none := by simp [hdb]
      simp only [noteFailed, hpc, if_neg hne]
      exact (and_iff_left fun _ hdb' => absurd hdb' hne).symm
  | @pingMemory success latencyMs target queue hpc hdb =>
      simp only [noteFailed, hpc, if_pos hdb]
      cases success with
      | true =>
          have hallow : CausesAllow s (.ping true latencyMs) := by
            rintro ⟨⟩
          exact (and_iff_left hallow).symm
      | false =>
          have hcounter := counter_pinged hinv target.id false
          simp only [Bool.false_eq_true, if_false] at hcounter ⊢
          refine Iff.trans (b := NoneImproves (s.2.apply target.id s.1.store _)) Iff.rfl ?_
          rw [noneImproves_apply_allowed hinv (statusOf_pingMemory hdb _ _ false) (.inl hcounter)]
          simp [CausesAllow, hdb, hpc, MonitorPc.pinged]
  | @drop _ _ target success _ queue db hpc hdb hdrop =>
      simp only [noteFailed, hpc]
      exact (and_iff_left trivial).symm
  | @record _ _ target success _ queue db db' hpc hdb hrecord ho =>
      simp only [noteFailed, hpc]
      exact (and_iff_left trivial).symm
  | @count ok target queue db hpc hdb =>
      simp only [noteFailed, hpc]
      exact (and_iff_left trivial).symm
  | @updateFailed target consec queue hpc =>
      have hallow : CausesAllow s (.updateStatus .failed) := fun h => absurd rfl h
      simp only [noteFailed, hpc, if_true]
      rw [and_iff_left hallow]
      split
      · exact noneImproves_apply_self _ _
      · rfl
  | @update o target consec queue db hpc hdb ho =>
      have hcount := hinv.counted target consec queue hpc
      simp only [noteFailed, hpc, if_neg ho]
      split
      · rename_i hfailing
        refine Iff.trans (b := NoneImproves (s.2.apply target.id s.1.store _)) Iff.rfl ?_
        rw [noneImproves_apply_allowed hinv (statusOf_updateNodeStatus hdb _ _) (.inr hcount)]
        simp [CausesAllow, ho, hfailing, hpc, MonitorPc.updated]
      · rename_i hsucceeds
        exact (and_iff_left fun _ hfailing => absurd hfailing hsucceeds).symm

/-- **A failed probe improves no node** in runs where the failures counted for it are enough for
what set the node's status before; and from every reachable state, whatever happened before, the
next step leaves no improvement exactly if there was none and it meets this condition. -/
theorem noneImproves_of_causes (s : RegistryState × ProbeNotes) :
    (failingRegistry.ReachedBy CausesAllow s → NoneImproves s.2) ∧
      ∀ a s', failingRegistry.Reachable s → failingRegistry.step s a = some s' →
        (NoneImproves s'.2 ↔ NoneImproves s.2 ∧ CausesAllow s a) := by
  refine ⟨?_, fun a s' hs hstep => noneImproves_step (causesHold_of_reachable hs) hstep⟩
  intro h
  have hinv : CausesHold s ∧ NoneImproves s.2 := by
    refine h.invariant (fun s => CausesHold s ∧ NoneImproves s.2) ?_ ?_
    · intro s hs
      refine ⟨causesHold_init hs, ?_⟩
      rw [hs.2]
      exact List.forall_mem_nil _
    · rintro s a s' ⟨hcauses, hnone⟩ hallow hstep
      exact ⟨causesHold_step hcauses hstep, (noneImproves_step hcauses hstep).mpr ⟨hnone, hallow⟩⟩
  exact hinv.2

/-- **In memory mode only a sweep can be undone**, as long as the counter of the target does not
wrap: every other failed probe counts one more failure than what set the status before. -/
theorem causesAllow_memory {s : RegistryState × ProbeNotes} (h : failingRegistry.Reachable s)
    (hdb : s.1.store.db = none) {target : Target} (hpinged : s.1.monitor.pinged = some target)
    (hlimit : s.2.streak target.id + 1 < 2 ^ 32) (latencyMs : Int32) :
    CausesAllow s (.ping false latencyMs) ↔
      (s.1.store.statusOf target.id ≠ none → s.2.cause target.id = some .swept →
        10 ≤ s.2.streak target.id + 1) := by
  have hinv := causesHold_of_reachable h
  obtain ⟨hcaused, hprobed⟩ := hinv.memory hdb
  have hwraps : (s.2.streak target.id + 1) % 2 ^ 32 = s.2.streak target.id + 1 :=
    Nat.mod_eq_of_lt hlimit
  simp only [CausesAllow, hdb, hpinged, Option.mem_def, Option.some.injEq, forall_eq', hwraps,
    true_implies]
  cases hstatus : s.1.store.statusOf target.id with
  | none => simp
  | some status =>
      obtain ⟨n, hn, hid, -⟩ := exists_of_statusOf hstatus
      have hsome := hid ▸ hcaused n hn
      cases hcause : s.2.cause target.id with
      | none => exact absurd hcause hsome
      | some cause =>
          cases cause with
          | registered => simp [Allowed, Cause.Enough]
          | swept => simp [Allowed, Cause.Enough]
          | probed earlier =>
              have hearlier := hprobed target.id earlier hcause
              rw [Nat.mod_eq_of_lt (by omega)] at hearlier
              simp only [Allowed, Cause.Enough, Option.some.injEq, forall_eq', reduceCtorEq,
                false_implies, implies_true, iff_true]
              omega

/-! ## Nodes that a failure brings back -/

def failingStart (db : Option Database) : RegistryState × ProbeNotes :=
  (startState db, .empty)

/-- Ten failures, a sweep, one more failure, a registration with the next failure, and another
sweep before a probe. -/
def takenOut : List RegistryAction :=
  List.flatten [
    [.register sampleRequest sampleInput], (List.replicate 10 (failedProbe false 1)).flatten,
    [.sweep 90000001 .ok], failedProbe false 90000001,
    [.register sampleRequest { sampleInput with id := "node-2", lastSeen := 90000002 }],
    failedProbe false 90000003, [.sweep 180000003 .ok, .tick true]]

theorem failingStart_init (db : Option Database) : failingRegistry.init (failingStart db) :=
  ⟨⟨rfl, rfl, rfl⟩, rfl⟩

/-- With a database the third failure in a row takes a node out. In memory mode a sweep and a
registration come between ten failures and the next two, and the probe after the next sweep
improves the node. -/
theorem noneImproves_of_causes_sample : (∃ s,
    failingRegistry.run CausesAllow (failingStart (some ⟨.empty, [], []⟩))
        (threeFailures true) = some s ∧
      s.2.applied = [(.online, .online), (.online, .online), (.online, .degraded)] ∧
      NoneImproves s.2) ∧
    ∃ s s', failingRegistry.run CausesAllow (failingStart none) takenOut = some s ∧
      s.2.applied.length = 12 ∧ NoneImproves s.2 ∧
      failingRegistry.step s (.ping false 0) = some s' ∧ ¬ NoneImproves s'.2 := by
  refine ⟨?_, ?_⟩
  · have hrun : (failingRegistry.run CausesAllow (failingStart (some ⟨.empty, [], []⟩))
        (threeFailures true)).map (·.2.applied) =
          some [(.online, .online), (.online, .online), (.online, .degraded)] := by decide +kernel
    obtain ⟨s, hs, hreached, happlied⟩ :=
      System.exists_reachedBy_of_run (.init (failingStart_init _)) hrun
    exact ⟨s, hs, happlied, (noneImproves_of_causes s).1 hreached⟩
  · have hrun : (failingRegistry.run CausesAllow (failingStart none) takenOut).map
        (fun s => (s.2.applied.length, decide (CausesAllow s (.ping false 0)),
          (failingRegistry.step s (.ping false 0)).isSome)) = some (12, false, true) := by
      decide +kernel
    obtain ⟨s, hs, hreached, hvalue⟩ :=
      System.exists_reachedBy_of_run (.init (failingStart_init _)) hrun
    simp only [Prod.mk.injEq, decide_eq_false_iff_not] at hvalue
    obtain ⟨hlength, hundone, hstep⟩ := hvalue
    obtain ⟨s', hs'⟩ := Option.isSome_iff_exists.mp hstep
    refine ⟨s, s', hs, hlength, (noneImproves_of_causes s).1 hreached, hs', ?_⟩
    rw [(noneImproves_of_causes s).2 _ s' hreached.reachable hs']
    exact fun h => hundone h.2

/-- A stale node that fails a probe is online again, in memory mode. With a database, a
degraded one is if its failures cannot be read. -/
theorem failed_probe_improves :
    (∃ s, failingRegistry.Reachable s ∧ s.1.store.db = none ∧
      s.2.applied = [(.offline, .online)] ∧ ¬ NoneImproves s.2) ∧
    (∃ s, failingRegistry.Reachable s ∧ s.1.store.db ≠ none ∧
      (.degraded, .online) ∈ s.2.applied ∧ ¬ NoneImproves s.2) := by
  have hmemory : (failingRegistry.run (fun _ _ => True) (failingStart none)
      (.register sampleRequest sampleInput :: .sweep 90000001 .ok :: failedProbe false 90000001)).map
        (fun s => (s.1.store.db, s.2.applied)) = some (none, [(.offline, .online)]) := by
    decide +kernel
  have hdb : (failingRegistry.run (fun _ _ => True) (failingStart (some ⟨.empty, [], []⟩))
      (threeFailures true ++
        [.tick true, .ping false 0, .recordProbe 4 .ok, .countFailures false, .updateStatus .ok])).map
        (fun s => (s.1.store.db.isSome, s.2.applied)) =
      some (true, [(.online, .online), (.online, .online), (.online, .degraded),
        (.degraded, .online)]) := by
    decide +kernel
  refine ⟨?_, ?_⟩
  · obtain ⟨s, -, hreached, hvalue⟩ :=
      System.exists_reachedBy_of_run (.init (failingStart_init _)) hmemory
    obtain ⟨hnone, happlied⟩ := Prod.mk.inj hvalue
    refine ⟨s, hreached, hnone, happlied, ?_⟩
    intro himproves
    exact absurd (himproves (.offline, .online) (by simp [happlied])) (by decide)
  · obtain ⟨s, -, hreached, hvalue⟩ :=
      System.exists_reachedBy_of_run (.init (failingStart_init _)) hdb
    obtain ⟨hsome, happlied⟩ := Prod.mk.inj hvalue
    have hmem : (.degraded, .online) ∈ s.2.applied := by simp [happlied]
    refine ⟨s, hreached, Option.isSome_iff_ne_none.mp hsome, hmem, ?_⟩
    intro himproves
    exact absurd (himproves (.degraded, .online) hmem) (by decide)

end InferPlatform.Gateway
