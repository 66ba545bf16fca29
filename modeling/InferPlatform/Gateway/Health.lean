import InferPlatform.Gateway.Roster
import Mathlib.Logic.Function.Basic

/-!
# Health

The health monitor takes a node out after three failed probes in a row, and
offline after ten. A registration puts the node back at once, whatever the probes
found. With a database the monitor then goes on counting where it was; in memory
the node has a new id, so its count starts again.

* `unhealthy_out` — **a node whose last probe was its third failure in a row is not
  online until a probe succeeds or the node registers**, in both storage modes;
* `registered_unhealthy` — a registration brings a failing node online.
-/

namespace InferPlatform.Gateway

/-! ## What the probes say -/

/-- The status that so many failures in a row allow. -/
def StatusBound (failures : Nat) (status : NodeStatus) : Prop :=
  (3 ≤ failures → status ≠ .online) ∧ (10 ≤ failures → status = .offline)

/-- Every node has a status that its failures allow. -/
def UnhealthyOut (failures : String → Nat) (st : NodeStore) : Prop :=
  ∀ n ∈ st.roster, StatusBound (failures n.name) n.status

instance (failures : Nat) (status : NodeStatus) : Decidable (StatusBound failures status) :=
  inferInstanceAs (Decidable (_ ∧ _))

instance (failures : String → Nat) (st : NodeStore) : Decidable (UnhealthyOut failures st) :=
  inferInstanceAs (Decidable (∀ _ ∈ _, _))

/-- What an observer counts, by the names of nodes: the failed probes since the last
one that succeeded, and those that the last probe could see, none if the node has
registered since. -/
structure ProbeHistory where
  failures : String → Nat
  verdict : String → Nat

/-- One more failure in a row, or none any more. -/
def bump (count : String → Nat) (success : Bool) (name : String) : String → Nat :=
  Function.update count name (if success then 0 else count name + 1)

namespace ProbeHistory

def registered (h : ProbeHistory) (name : String) : ProbeHistory :=
  { h with verdict := Function.update h.verdict name 0 }

/-- A ping in memory mode is a whole probe. -/
def pinged (h : ProbeHistory) (name : Option String) (success : Bool) : ProbeHistory :=
  match name with
  | some name => ⟨bump h.failures success name, bump h.verdict success name⟩
  | none => h

def recorded (h : ProbeHistory) (name : Option String) (success : Bool) : ProbeHistory :=
  match name with
  | some name => { h with failures := bump h.failures success name }
  | none => h

def concluded (h : ProbeHistory) (name : Option String) : ProbeHistory :=
  match name with
  | some name => { h with verdict := Function.update h.verdict name (h.failures name) }
  | none => h

end ProbeHistory

/-- The observer of the registry. With a database a probe is recorded first and
concluded later. -/
def noteProbe (h : ProbeHistory) (st : RegistryState) (a : RegistryAction) (_ : RegistryState) :
    ProbeHistory :=
  match a, st.monitor with
  | .register req _, _ => if findViolations req.models = [] then h.registered req.name else h
  | .ping success _, .next (target :: _) =>
    if st.store.db = none then h.pinged (st.store.nameOf target.id) success else h
  | .recordProbe _ _, .record target success _ _ =>
    h.recorded (st.store.nameOf target.id) success
  | .updateStatus _, .update target _ _ => h.concluded (st.store.nameOf target.id)
  | _, _ => h

/-- The registry beside its probe history. -/
def probedRegistry : System (RegistryState × ProbeHistory) RegistryAction :=
  registry.observed ⟨fun _ => 0, fun _ => 0⟩ noteProbe

/-- The database does what a registration or a probe asks for, and its clock
advances; no counter in memory is at its limit. -/
def ProbesCount (s : RegistryState × ProbeHistory) : RegistryAction → Prop
  | .register _ input => input.upsert = .ok
  | .ping _ _ => ∀ entry ∈ s.1.failureCounts, entry.2 ≠ 4294967295
  | .recordProbe checkedAt o =>
    o = .ok ∧ ∀ db ∈ s.1.store.db, ∀ row ∈ db.nodeHealth, row.checkedAt < checkedAt
  | .countFailures ok => ok = true
  | .updateStatus o => o ≠ .failed
  | .sweep _ _ | .tick _ => True

instance (s : RegistryState × ProbeHistory) : (a : RegistryAction) → Decidable (ProbesCount s a)
  | .register _ _ => inferInstanceAs (Decidable (_ = _))
  | .ping _ _ => inferInstanceAs (Decidable (∀ _ ∈ _, _))
  | .recordProbe _ _ => inferInstanceAs (Decidable (_ ∧ _))
  | .countFailures _ => inferInstanceAs (Decidable (_ = _))
  | .updateStatus _ => inferInstanceAs (Decidable (_ ≠ _))
  | .sweep _ _ | .tick _ => inferInstanceAs (Decidable True)

/-! ## Statuses and failures -/

theorem statusBound_zero (status : NodeStatus) : StatusBound 0 status := by
  simp [StatusBound]

theorem statusBound_offline (failures : Nat) : StatusBound failures .offline := by
  simp [StatusBound]

/-- The monitor sees ten failures at most, which is enough. -/
theorem statusBound_byFailures {failures : Nat} {consec : UInt32}
    (h : min 10 failures ≤ consec.toNat) :
    StatusBound failures (byFailures consec .offline .degraded .online) := by
  have hten : (10 : UInt32) ≤ consec ↔ 10 ≤ consec.toNat := UInt32.le_iff_toNat_le
  have hthree : (3 : UInt32) ≤ consec ↔ 3 ≤ consec.toNat := UInt32.le_iff_toNat_le
  unfold byFailures StatusBound
  refine ⟨?_, ?_⟩
  · intro hf
    have hconsec : 3 ≤ consec.toNat := by omega
    split
    · simp
    · simp [hthree, hconsec]
  · intro hf
    have hconsec : 10 ≤ consec.toNat := by omega
    rw [if_pos (hten.mpr hconsec)]

/-- The failures since the last success. -/
def trailingFailures (rows : List NodeHealth) (nodeId : String) : Nat :=
  ((((rows.filter fun r => r.nodeId = nodeId).reverse).insertionSort fun a b =>
    b.checkedAt ≤ a.checkedAt).takeWhile fun r => ¬ r.success).length

/-- A row that is newer than all others of its node is counted first. -/
theorem trailingFailures_concat {rows : List NodeHealth} {row : NodeHealth}
    (h : ∀ r ∈ rows, r.nodeId = row.nodeId → r.checkedAt < row.checkedAt) :
    trailingFailures (rows ++ [row]) row.nodeId =
      if row.success then 0 else trailingFailures rows row.nodeId + 1 := by
  have hsorted : ∀ l : List NodeHealth, (∀ r ∈ l, r.checkedAt < row.checkedAt) →
      l.orderedInsert (fun a b => b.checkedAt ≤ a.checkedAt) row = row :: l := by
    intro l hl
    cases l with
    | nil => rfl
    | cons r l => exact List.orderedInsert_cons_of_le _ _ (hl r List.mem_cons_self).le
  simp only [trailingFailures, List.filter_append, List.reverse_append, List.filter_cons,
    decide_true, if_true, List.filter_nil, List.reverse_singleton, List.singleton_append,
    List.insertionSort_cons]
  rw [hsorted]
  · rw [List.takeWhile_cons]
    cases row.success <;> simp
  · intro r hr
    rw [List.mem_insertionSort, List.mem_reverse] at hr
    obtain ⟨hr, hnode⟩ := List.mem_filter.mp hr
    exact h r hr (of_decide_eq_true hnode)

theorem trailingFailures_concat_of_ne {rows : List NodeHealth} {row : NodeHealth} {id : String}
    (h : row.nodeId ≠ id) : trailingFailures (rows ++ [row]) id = trailingFailures rows id := by
  simp [trailingFailures, h]

theorem length_takeWhile_take {α : Type} (p : α → Bool) (n : Nat) (l : List α) :
    ((l.take n).takeWhile p).length = min n (l.takeWhile p).length := by
  induction l generalizing n with
  | nil => simp
  | cons x l ih =>
      cases n with
      | zero => simp
      | succ n =>
          rw [List.take_succ_cons, List.takeWhile_cons, List.takeWhile_cons]
          split
          · simp only [List.length_cons, ih]
            omega
          · simp

theorem countConsecutiveFailures_toNat (db : Database) (id : String) :
    (countConsecutiveFailures db id true).toNat = min 10 (trailingFailures db.nodeHealth id) := by
  rw [countConsecutiveFailures, if_pos rfl, newestTen, length_takeWhile_take]
  simp only [trailingFailures, UInt32.toNat_ofNat']
  omega

/-! ## What the observer and the monitor agree on -/

/-- What keeps unhealthy nodes out: the monitor's own count of a node's failures, in
either storage mode, is not below the observer's. -/
structure HealthInv (s : RegistryState × ProbeHistory) : Prop where
  distinct : Distinct s.1.store.roster
  out : UnhealthyOut s.2.verdict s.1.store
  counters : s.1.store.db = none →
    ∀ n ∈ s.1.store.roster, s.2.verdict n.name ≤ (s.1.failureCounts.get n.id).toNat
  rows : ∀ db, s.1.store.db = some db →
    ∀ n ∈ s.1.store.roster, s.2.failures n.name ≤ trailingFailures db.nodeHealth n.id
  unknown : ∀ name, name ∉ s.1.store.roster.map (·.name) → s.2.failures name = 0
  update : ∀ target consec queue, s.1.monitor = .update target consec queue →
    s.1.store.db ≠ none → ∀ n ∈ s.1.store.roster, n.id = target.id →
      min 10 (s.2.failures n.name) ≤ consec.toNat

theorem healthInv_init {s : RegistryState × ProbeHistory} (h : probedRegistry.init s) :
    HealthInv s := by
  obtain ⟨⟨hnodes, -, hpc⟩, hhistory⟩ := h
  have hdistinct : Distinct s.1.store.roster := by
    by_cases hdb : s.1.store.db = none
    · rw [roster_of_memory hdb, hnodes]
      exact ⟨List.nodup_nil, List.nodup_nil⟩
    · exact distinct_of_db hdb
  refine ⟨hdistinct, ?_, ?_, ?_, ?_, ?_⟩
  · intro n _
    rw [hhistory]
    exact statusBound_zero n.status
  · intro _ n _
    rw [hhistory]
    exact Nat.zero_le _
  · intro db _ n _
    rw [hhistory]
    exact Nat.zero_le _
  · intro name _
    rw [hhistory]
  · intro target consec queue hupdate
    rw [hpc] at hupdate
    cases hupdate

/-- The monitor may move on, but not to an update. -/
theorem healthInv_monitor {s : RegistryState × ProbeHistory} (hinv : HealthInv s) {pc : MonitorPc}
    (hpc : ∀ target consec queue, pc ≠ .update target consec queue) :
    HealthInv ({ s.1 with monitor := pc }, s.2) :=
  ⟨hinv.distinct, hinv.out, hinv.counters, hinv.rows, hinv.unknown,
    fun target consec queue h => absurd h (hpc target consec queue)⟩

/-- A status may be set that fits the observer's verdicts. -/
theorem healthInv_setWhere {s : RegistryState × ProbeHistory} (hinv : HealthInv s)
    {st' : RegistryState} {h' : ProbeHistory} {p : NodeInfo → Prop} [DecidablePred p]
    {status : NodeStatus} (hroster : st'.store.roster = setWhere p status s.1.store.roster)
    (hhealth : st'.store.db.map (·.nodeHealth) = s.1.store.db.map (·.nodeHealth))
    (hout : ∀ n ∈ s.1.store.roster,
      StatusBound (h'.verdict n.name) (if p n then status else n.status))
    (hcounters : st'.store.db = none →
      ∀ n ∈ s.1.store.roster, h'.verdict n.name ≤ (st'.failureCounts.get n.id).toNat)
    (hfailures : s.1.store.db ≠ none → h'.failures = s.2.failures)
    (hunknown : ∀ name, name ∉ s.1.store.roster.map (·.name) → h'.failures name = 0)
    (hmonitor : ∀ target consec queue, st'.monitor = .update target consec queue →
      s.1.monitor = .update target consec queue) :
    HealthInv (st', h') := by
  have hnone : st'.store.db = none ↔ s.1.store.db = none := by
    rw [← Option.map_eq_none_iff (f := (·.nodeHealth)), hhealth, Option.map_eq_none_iff]
  refine ⟨?_, ?_, ?_, ?_, ?_, ?_⟩
  · show Distinct st'.store.roster
    rw [hroster]
    exact hinv.distinct.setWhere
  · intro n hn
    obtain ⟨old, hold, -, hname, hstatus⟩ := mem_setWhere (hroster ▸ hn)
    rw [hname, hstatus]
    exact hout old hold
  · intro hdb n hn
    obtain ⟨old, hold, hid, hname, -⟩ := mem_setWhere (hroster ▸ hn)
    rw [hname, hid]
    exact hcounters hdb old hold
  · intro db' hdb n hn
    obtain ⟨old, hold, hid, hname, -⟩ := mem_setWhere (hroster ▸ hn)
    have hdb' : st'.store.db = some db' := hdb
    rw [hdb', Option.map_some] at hhealth
    obtain ⟨db, hdb, hsame⟩ := Option.map_eq_some_iff.mp hhealth.symm
    have hfailures' : h'.failures = s.2.failures := hfailures (by simp [hdb])
    show h'.failures n.name ≤ _
    rw [hfailures', hname, hid, ← hsame]
    exact hinv.rows db hdb old hold
  · intro name hname
    apply hunknown
    have hnames : st'.store.roster.map (·.name) = s.1.store.roster.map (·.name) := by
      rw [hroster, map_name_setWhere]
    rw [← hnames]
    exact hname
  · intro target consec queue hupdate hdb n hn hid
    obtain ⟨old, hold, hid', hname, -⟩ := mem_setWhere (hroster ▸ hn)
    have hdb' : s.1.store.db ≠ none := fun h => hdb (hnone.mpr h)
    show min 10 (h'.failures n.name) ≤ _
    rw [hfailures hdb', hname]
    exact hinv.update target consec queue (hmonitor _ _ _ hupdate) hdb' old hold
      (hid'.symm.trans hid)

/-- A sweep only takes nodes offline. -/
theorem healthInv_sweep {s : RegistryState × ProbeHistory} (hinv : HealthInv s) {now : Int}
    {o : Outcome} : HealthInv ({ s.1 with store := sweep s.1.store now o }, s.2) := by
  by_cases ho : s.1.store.db ≠ none ∧ o = .failed
  · obtain ⟨hdb, rfl⟩ := ho
    rw [sweep_failed hdb]
    exact hinv
  · have hroster : (sweep s.1.store now o).roster = _ := roster_sweep fun hdb ho' => ho ⟨hdb, ho'⟩
    refine healthInv_setWhere hinv hroster nodeHealth_sweep ?_ ?_ (fun _ => rfl) hinv.unknown
      fun _ _ _ h => h
    · intro n hn
      split
      · exact statusBound_offline _
      · exact hinv.out n hn
    · intro hdb
      exact hinv.counters (sweep_db_eq_none.mp hdb)

/-- A registration that is rejected changes nothing; one that is accepted gives the
name a record without failures in its verdict. -/
theorem healthInv_register {s : RegistryState × ProbeHistory} (hinv : HealthInv s)
    {req : RegisterNodeRequest} {input : RegisterInput} (haccepted : findViolations req.models = [])
    (hok : input.upsert = .ok) (hfresh : s.1.store.Fresh input.id) :
    HealthInv ({ s.1 with store := (register s.1.store req input).1 },
      s.2.registered req.name) := by
  have hothers : ∀ n ∈ (register s.1.store req input).1.roster, n.name ≠ req.name →
      n ∈ s.1.store.roster := fun _ => mem_register_of_ne haccepted hok hfresh
  refine ⟨distinct_register haccepted hok hfresh hinv.distinct, ?_, ?_, ?_, ?_, ?_⟩
  · intro n hn
    show StatusBound (Function.update s.2.verdict req.name 0 n.name) n.status
    by_cases hne : n.name = req.name
    · simp [hne, statusBound_zero]
    · rw [Function.update_of_ne hne]
      exact hinv.out n (hothers n hn hne)
  · intro hdb n hn
    show Function.update s.2.verdict req.name 0 n.name ≤ _
    by_cases hne : n.name = req.name
    · simp [hne]
    · rw [Function.update_of_ne hne]
      exact hinv.counters (register_db_eq_none.mp hdb) n (hothers n hn hne)
  · intro db' hdb' n hn
    have hhealth : (register s.1.store req input).1.db.map (·.nodeHealth) = _ :=
      nodeHealth_register
    rw [show (register s.1.store req input).1.db = some db' from hdb', Option.map_some] at hhealth
    obtain ⟨db, hdb, hsame⟩ := Option.map_eq_some_iff.mp hhealth.symm
    have hne : s.1.store.db ≠ none := by simp [hdb]
    rcases mem_register_of_db haccepted hok hfresh hne hn with hnew | ⟨old, hold, hid, hname⟩
    · show s.2.failures n.name ≤ _
      rw [hinv.unknown _ hnew]
      exact Nat.zero_le _
    · rw [hname, hid, ← hsame]
      exact hinv.rows db hdb old hold
  · intro name hunknown
    apply hinv.unknown
    intro hmem
    apply hunknown
    show name ∈ (register s.1.store req input).1.roster.map (·.name)
    rw [roster_register haccepted (fun _ => hok) hfresh, map_key_upsertBy (merge_name _)]
    split
    · exact hmem
    · exact List.mem_append_left _ hmem
  · intro target consec queue hupdate hdb n hn hid
    have hdb' : s.1.store.db ≠ none := fun h => hdb (register_db_eq_none.mpr h)
    rcases mem_register_of_db haccepted hok hfresh hdb' hn with hnew | ⟨old, hold, hid', hname⟩
    · show min 10 (s.2.failures n.name) ≤ _
      rw [hinv.unknown _ hnew]
      exact Nat.zero_le _
    · rw [hname]
      exact hinv.update target consec queue hupdate hdb' old hold (hid'.symm.trans hid)

/-! ## The probes -/

theorem unknown_ne {st : NodeStore} {id name other : String} (hid : st.nameOf id = some name)
    (hunknown : other ∉ st.roster.map (·.name)) : other ≠ name := by
  rintro rfl
  obtain ⟨n, hn, -, hname⟩ := exists_of_nameOf hid
  exact hunknown (List.mem_map.mpr ⟨n, hn, hname⟩)

theorem get_cons (counts : FailureCounts) (id other : String) (count : UInt32) :
    FailureCounts.get ((id, count) :: counts) other =
      if other = id then count else counts.get other := by
  rw [FailureCounts.get, List.lookup_cons]
  by_cases h : other = id
  · simp [h]
  · simp [h, beq_false_of_ne h, FailureCounts.get]

theorem get_remove (counts : FailureCounts) (id other : String) :
    (counts.remove id).get other = if other = id then 0 else counts.get other := by
  induction counts with
  | nil =>
      simp [FailureCounts.get, FailureCounts.remove]
  | cons entry counts ih =>
      by_cases hentry : entry.1 = id
      · have hremove : FailureCounts.remove (entry :: counts) id = FailureCounts.remove counts id := by
          simp [FailureCounts.remove, hentry]
        rw [hremove, ih, get_cons counts entry.1 other entry.2, hentry]
        split <;> rfl
      · have hremove : FailureCounts.remove (entry :: counts) id =
            entry :: FailureCounts.remove counts id := by
          simp [FailureCounts.remove, hentry]
        rw [hremove, get_cons _ entry.1 other entry.2, get_cons counts entry.1 other entry.2, ih]
        by_cases hother : other = id
        · have hne : ¬ id = entry.1 := fun h => hentry h.symm
          simp [hother, hne]
        · simp [hother]

/-- The counters after a ping. -/
theorem get_probeMemory (nodes : List NodeInfo) (counts : FailureCounts) (id other : String)
    (success : Bool) :
    (probeMemory nodes counts id success).2.get other =
      if other = id then (if success then 0 else counts.get id + 1) else counts.get other := by
  cases success
  · simp only [probeMemory, Bool.false_eq_true, if_false, get_cons, get_remove]
    split <;> rfl
  · simp [probeMemory, get_remove]

theorem get_ne_limit {counts : FailureCounts} (h : ∀ entry ∈ counts, entry.2 ≠ 4294967295)
    (id : String) : counts.get id ≠ 4294967295 := by
  induction counts with
  | nil => exact (by decide : (0 : UInt32) ≠ 4294967295)
  | cons entry counts ih =>
      rw [get_cons counts entry.1 id entry.2]
      split
      · exact h entry List.mem_cons_self
      · exact ih fun e he => h e (List.mem_cons_of_mem _ he)

/-- Below its limit a counter in memory counts. -/
theorem toNat_bumped {counts : FailureCounts} (h : ∀ entry ∈ counts, entry.2 ≠ 4294967295)
    (id : String) (success : Bool) :
    (if success then 0 else counts.get id + 1).toNat =
      if success then 0 else (counts.get id).toNat + 1 := by
  have hlimit : (counts.get id).toNat ≠ 4294967295 := fun hget =>
    get_ne_limit h id (UInt32.toNat_inj.mp hget)
  have hlt := (counts.get id).toNat_lt
  cases success
  · simp only [Bool.false_eq_true, if_false, UInt32.toNat_add, UInt32.reduceToNat]
    omega
  · rfl

theorem bump_self (count : String → Nat) (success : Bool) (name : String) :
    bump count success name name = if success then 0 else count name + 1 := by
  simp [bump]

theorem bump_of_ne {count : String → Nat} {success : Bool} {name other : String}
    (h : other ≠ name) : bump count success name other = count other := by
  simp [bump, h]

/-- A ping in memory mode sets the counter of the node and the status that goes with it. -/
theorem healthInv_pingMemory {s : RegistryState × ProbeHistory} (hinv : HealthInv s)
    (target : Target) (queue : List Target) (success : Bool) (hdb : s.1.store.db = none)
    (hlimit : ∀ entry ∈ s.1.failureCounts, entry.2 ≠ 4294967295) :
    HealthInv
      (⟨{ s.1.store with
          nodes := (probeMemory s.1.store.nodes s.1.failureCounts target.id success).1 },
        (probeMemory s.1.store.nodes s.1.failureCounts target.id success).2, .next queue⟩,
      s.2.pinged (s.1.store.nameOf target.id) success) := by
  have hroster : NodeStore.roster { s.1.store with
      nodes := (probeMemory s.1.store.nodes s.1.failureCounts target.id success).1 } = _ :=
    roster_pingMemory hdb hinv.distinct
  have hcounter := toNat_bumped hlimit target.id success
  cases hname : s.1.store.nameOf target.id with
  | none =>
      have hne : ∀ n ∈ s.1.store.roster, n.id ≠ target.id := fun _ =>
        id_ne_of_nameOf hinv.distinct hname
      refine healthInv_setWhere hinv hroster rfl ?_ ?_ (fun _ => rfl) hinv.unknown (by simp)
      · intro n hn
        rw [if_neg (hne n hn)]
        exact hinv.out n hn
      · intro _ n hn
        rw [get_probeMemory, if_neg (hne n hn)]
        exact hinv.counters hdb n hn
  | some name =>
      -- the verdict of the node goes up with its counter
      have hself : ∀ n ∈ s.1.store.roster, n.id = target.id →
          bump s.2.verdict success name n.name ≤
            (if success then 0 else s.1.failureCounts.get target.id + 1).toNat := by
        intro n hn hid
        have hle := hinv.counters hdb n hn
        rw [nameOf_eq hinv.distinct hname hn hid, hid] at hle
        rw [nameOf_eq hinv.distinct hname hn hid, bump_self, hcounter]
        split <;> omega
      have hother : ∀ n ∈ s.1.store.roster, n.id ≠ target.id →
          bump s.2.verdict success name n.name = s.2.verdict n.name := fun n hn hid =>
        bump_of_ne (nameOf_ne hinv.distinct hname hn hid)
      refine healthInv_setWhere hinv hroster rfl ?_ ?_ (fun h => absurd hdb h) ?_ (by simp)
      · intro n hn
        show StatusBound (bump s.2.verdict success name n.name) _
        by_cases hid : n.id = target.id
        · rw [if_pos hid]
          exact statusBound_byFailures ((Nat.min_le_right _ _).trans (hself n hn hid))
        · rw [if_neg hid, hother n hn hid]
          exact hinv.out n hn
      · intro _ n hn
        show bump s.2.verdict success name n.name ≤ _
        rw [get_probeMemory]
        by_cases hid : n.id = target.id
        · rw [if_pos hid]
          exact hself n hn hid
        · rw [if_neg hid, hother n hn hid]
          exact hinv.counters hdb n hn
      · intro other hunknown
        show bump s.2.failures success name other = 0
        rw [bump_of_ne (unknown_ne hname hunknown), hinv.unknown other hunknown]

/-- A probe is recorded: the table and the observer count it alike. -/
theorem healthInv_record {s : RegistryState × ProbeHistory} (hinv : HealthInv s)
    {target : Target} {success : Bool} {latencyMs : Option Int32} {checkedAt : Int}
    {db db' : Database} {pc : MonitorPc} (hdb : s.1.store.db = some db)
    (hrecord : recordProbe db target.id success latencyMs checkedAt = some db')
    (hclock : ∀ row ∈ db.nodeHealth, row.checkedAt < checkedAt)
    (hpc : ∀ target consec queue, pc ≠ .update target consec queue) :
    HealthInv ({ s.1 with store := { s.1.store with db := some db' }, monitor := pc },
      s.2.recorded (s.1.store.nameOf target.id) success) := by
  obtain ⟨htarget, rfl⟩ := recordProbe_eq_some hrecord
  obtain ⟨row, hrow, hrowid⟩ := List.mem_map.mp htarget
  have hroster : s.1.store.roster = db.nodes.rows.map (·.toNodeInfo) := roster_of_db hdb
  have hmem : row.toNodeInfo ∈ s.1.store.roster := by
    rw [hroster]
    exact List.mem_map_of_mem hrow
  have hname : s.1.store.nameOf target.id = some row.name := by
    rw [← hrowid]
    exact nameOf_of_mem hinv.distinct hmem
  rw [hname]
  refine ⟨?_, ?_, ?_, ?_, ?_, ?_⟩
  · exact distinct_of_db (by simp)
  · show ∀ n ∈ db.nodes.rows.map (·.toNodeInfo), StatusBound (s.2.verdict n.name) n.status
    rw [← hroster]
    exact hinv.out
  · intro hnone
    cases hnone
  · intro db' hdb' n hn
    obtain rfl := Option.some.inj hdb'
    replace hn : n ∈ s.1.store.roster := by
      rw [hroster]
      exact hn
    have hrows := hinv.rows db hdb n hn
    show bump s.2.failures success row.name n.name ≤
      trailingFailures (db.nodeHealth ++ [⟨target.id, latencyMs, success, checkedAt⟩]) n.id
    by_cases hid : n.id = target.id
    · have hcount : trailingFailures (db.nodeHealth ++ [⟨target.id, latencyMs, success, checkedAt⟩])
          target.id = if success then 0 else trailingFailures db.nodeHealth target.id + 1 :=
        trailingFailures_concat fun r hr _ => hclock r hr
      rw [nameOf_eq hinv.distinct hname hn hid, hid] at hrows ⊢
      rw [hcount, bump_self]
      split <;> omega
    · rw [bump_of_ne (nameOf_ne hinv.distinct hname hn hid),
        trailingFailures_concat_of_ne (Ne.symm hid)]
      exact hrows
  · intro other hunknown
    replace hunknown : other ∉ s.1.store.roster.map (·.name) := by
      rw [hroster]
      exact hunknown
    show bump s.2.failures success row.name other = 0
    rw [bump_of_ne (unknown_ne hname hunknown), hinv.unknown other hunknown]
  · intro target consec queue hupdate
    exact absurd hupdate (hpc target consec queue)

/-- A probe is concluded: the status follows the rows, and so does the verdict. -/
theorem healthInv_update {s : RegistryState × ProbeHistory} (hinv : HealthInv s)
    {target : Target} {consec : UInt32} {queue : List Target} {db : Database}
    (hpc : s.1.monitor = .update target consec queue) (hdb : s.1.store.db = some db) :
    HealthInv ({ s.1 with
        store := { s.1.store with db := some (updateNodeStatus db target.id consec) }
        monitor := .next queue },
      s.2.concluded (s.1.store.nameOf target.id)) := by
  have hroster := roster_updateNodeStatus hdb target.id consec
  have hhealth : (some (updateNodeStatus db target.id consec)).map (·.nodeHealth) =
      s.1.store.db.map (·.nodeHealth) := by
    rw [hdb]
    rfl
  have hne : s.1.store.db ≠ none := by simp [hdb]
  cases hname : s.1.store.nameOf target.id with
  | none =>
      refine healthInv_setWhere hinv hroster hhealth ?_ (by simp) (fun _ => rfl) hinv.unknown
        (by simp)
      intro n hn
      rw [if_neg (id_ne_of_nameOf hinv.distinct hname hn)]
      exact hinv.out n hn
  | some name =>
      refine healthInv_setWhere hinv hroster hhealth ?_ (by simp) (fun _ => rfl) hinv.unknown
        (by simp)
      intro n hn
      show StatusBound (Function.update s.2.verdict name (s.2.failures name) n.name) _
      by_cases hid : n.id = target.id
      · have hle := hinv.update target consec queue hpc hne n hn hid
        rw [nameOf_eq hinv.distinct hname hn hid] at hle ⊢
        rw [if_pos hid, Function.update_self]
        exact statusBound_byFailures hle
      · rw [if_neg hid, Function.update_of_ne (nameOf_ne hinv.distinct hname hn hid)]
        exact hinv.out n hn

/-- The failures are counted: the monitor sees as many as the rows show, up to ten. -/
theorem healthInv_count {s : RegistryState × ProbeHistory} (hinv : HealthInv s)
    {target : Target} {queue : List Target} {db : Database} (hdb : s.1.store.db = some db) :
    HealthInv ({ s.1 with
      monitor := .update target (countConsecutiveFailures db target.id true) queue }, s.2) := by
  refine ⟨hinv.distinct, hinv.out, hinv.counters, hinv.rows, hinv.unknown, ?_⟩
  intro target' consec queue' hupdate _ n hn hid
  injection hupdate with htarget hconsec
  subst htarget hconsec
  rw [countConsecutiveFailures_toNat, ← hid]
  have hrows := hinv.rows db hdb n hn
  show min 10 (s.2.failures n.name) ≤ min 10 (trailingFailures db.nodeHealth n.id)
  omega

/-! ## Runs -/

theorem healthInv_step {s s' : RegistryState × ProbeHistory} {a : RegistryAction}
    (hinv : HealthInv s) (hok : ProbesCount s a) (hstep : probedRegistry.step s a = some s') :
    HealthInv s' := by
  obtain ⟨hreg, hnote⟩ := System.observed_step hstep
  have hmove := registryMove_of_step hreg
  obtain ⟨st', h'⟩ := s'
  dsimp only at hmove hnote
  subst hnote
  cases hmove with
  | @register req input hfresh =>
      by_cases haccepted : findViolations req.models = []
      · simpa only [noteProbe, if_pos haccepted] using healthInv_register hinv haccepted hok hfresh
      · simpa only [noteProbe, if_neg haccepted, register_rejected haccepted] using hinv
  | sweep => exact healthInv_sweep hinv
  | tick => exact healthInv_monitor hinv (by simp)
  | pingDb hpc hdb =>
      have hne : s.1.store.db ≠ none := by simp [hdb]
      simpa only [noteProbe, hpc, if_neg hne] using healthInv_monitor hinv (by simp)
  | @pingMemory success _ target queue hpc hdb =>
      simpa only [noteProbe, hpc, if_pos hdb] using
        healthInv_pingMemory hinv target queue success hdb hok
  | @drop _ _ target success _ queue db hpc hdb hdrop =>
      -- the row of a target that is not in the table
      have hnone : s.1.store.nameOf target.id = none := by
        rcases hdrop with hfailed | hrecord
        · rw [hok.1] at hfailed
          cases hfailed
        · exact nameOf_eq_none hdb hrecord
      simpa only [noteProbe, hpc, hnone, ProbeHistory.recorded] using
        healthInv_monitor hinv (by simp)
  | @record _ _ target success _ queue db db' hpc hdb hrecord ho =>
      simp only [noteProbe, hpc]
      apply healthInv_record hinv hdb hrecord (hok.2 db hdb)
      intro target' consec queue' hupdate
      split at hupdate <;> cases hupdate
  | count hpc hdb =>
      obtain rfl : _ = true := hok
      exact healthInv_count hinv hdb
  | updateFailed hpc => exact absurd rfl hok
  | update hpc hdb ho => simpa only [noteProbe, hpc] using healthInv_update hinv hpc hdb

/-- **A node whose last probe was at least its third failure in a row is not online until a
probe succeeds or the node registers**, and after ten it is offline. -/
theorem unhealthy_out {s : RegistryState × ProbeHistory} (h : probedRegistry.ReachedBy ProbesCount s) :
    UnhealthyOut s.2.verdict s.1.store := by
  have hinv : HealthInv s := by
    apply h.invariant HealthInv
    · intro s hs
      exact healthInv_init hs
    · intro s a s' hs hok hstep
      exact healthInv_step hs hok hstep
  exact hinv.out

/-! ## A node that fails and goes on registering -/

def threeFailures (db : Bool) : List RegistryAction :=
  .register sampleRequest sampleInput :: failedProbe db 1 ++ failedProbe db 2 ++ failedProbe db 3

def probedStart (db : Option Database) : RegistryState × ProbeHistory :=
  (startState db, ⟨fun _ => 0, fun _ => 0⟩)

theorem probedStart_init (db : Option Database) : probedRegistry.init (probedStart db) :=
  ⟨⟨rfl, rfl, rfl⟩, rfl⟩

/-- After three failed probes a node in a table is degraded. -/
theorem unhealthy_out_sample : ∃ s,
    probedRegistry.run ProbesCount (probedStart (some ⟨.empty, [], []⟩)) (threeFailures true) = some s ∧
      s.2.verdict "gpu-1" = 3 ∧ UnhealthyOut s.2.verdict s.1.store := by
  have hrun : (probedRegistry.run ProbesCount (probedStart (some ⟨.empty, [], []⟩))
      (threeFailures true)).map (fun s => s.2.verdict "gpu-1") = some 3 := by decide +kernel
  obtain ⟨s, hs, hreached, hverdict⟩ :=
    System.exists_reachedBy_of_run (.init (probedStart_init _)) hrun
  exact ⟨s, hs, hverdict, unhealthy_out hreached⟩

/-- A registration brings a node online that has failed three probes, in either mode. -/
theorem registered_unhealthy :
    (¬ ∀ s, probedRegistry.ReachedBy ProbesCount s → s.1.monitor = .next [] →
      s.1.store.db = none → UnhealthyOut s.2.failures s.1.store) ∧
    (¬ ∀ s, probedRegistry.ReachedBy ProbesCount s → s.1.monitor = .next [] →
      s.1.store.db ≠ none → UnhealthyOut s.2.failures s.1.store) := by
  have hmemory : (probedRegistry.run ProbesCount (probedStart none)
      (threeFailures false ++ [.register sampleRequest { sampleInput with id := "node-2" }])).map
        (fun s => (s.1.monitor, s.1.store.db, decide (UnhealthyOut s.2.failures s.1.store))) =
      some (.next [], none, false) := by decide +kernel
  have hdb : (probedRegistry.run ProbesCount (probedStart (some ⟨.empty, [], []⟩))
      (threeFailures true ++ [.register sampleRequest { sampleInput with id := "node-2" }])).map
        (fun s => (s.1.monitor, s.1.store.db.isSome, decide (UnhealthyOut s.2.failures s.1.store))) =
      some (.next [], true, false) := by decide +kernel
  refine ⟨?_, ?_⟩
  · intro h
    obtain ⟨s, -, hreached, hvalue⟩ :=
      System.exists_reachedBy_of_run (.init (probedStart_init _)) hmemory
    simp only [Prod.mk.injEq, decide_eq_false_iff_not] at hvalue
    exact hvalue.2.2 (h s hreached hvalue.1 hvalue.2.1)
  · intro h
    obtain ⟨s, -, hreached, hvalue⟩ :=
      System.exists_reachedBy_of_run (.init (probedStart_init _)) hdb
    simp only [Prod.mk.injEq, decide_eq_false_iff_not] at hvalue
    have hne : s.1.store.db ≠ none := Option.isSome_iff_ne_none.mp hvalue.2.1
    exact hvalue.2.2 (h s hreached hvalue.1 hne)

end InferPlatform.Gateway
