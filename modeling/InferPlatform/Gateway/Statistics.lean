import InferPlatform.Base.Interpolation
import InferPlatform.Gateway.Roster
import InferPlatform.Gateway.Uptime
import Mathlib.Tactic.NormNum
import Mathlib.Tactic.Positivity

/-!
# Statistics over runs

The monitor stores statistics of a node with each probe; the coordinator sorts by them and
the endpoint for a model averages them where the database does not answer. The percentiles
come from one query and the uptime from another one, of a table that other gateways write
to as well.

* `percentileCont_le`, `percentileCont_between` — percentiles are in order, and within the
  values;
* `sound_computeStats` — one node's statistics;
* `monitors` — the map of one gateway, and the table, over time;
* `buildInferStats_sound` — **after any run, whatever the endpoint reports is in order and
  in range**.
-/

namespace InferPlatform.Gateway

/-! ## Percentiles -/

/-- The percentiles of a list read a monotone sequence of its values. -/
theorem percentileCont_eq {values : List ℚ} (hne : values ≠ []) :
    ∃ f : ℕ → ℚ, Monotone f ∧ (∀ i, f i ∈ values) ∧ ∀ fraction, 0 ≤ fraction → fraction ≤ 1 →
      percentileCont fraction values =
        some (Interpolation.atPoint f (fraction * ((values.length : ℚ) - 1))) := by
  let sorted := values.insertionSort (· ≤ ·)
  have hperm : sorted.Perm values := List.perm_insertionSort (· ≤ ·) values
  have hlength : sorted.length = values.length := hperm.length_eq
  have hpos : 0 < sorted.length := by
    rw [hlength]
    exact List.length_pos_iff.mpr hne
  have hsorted : sorted.Pairwise (· ≤ ·) := List.pairwise_insertionSort (· ≤ ·) values
  -- past the end the last value is repeated
  let f (i : ℕ) : ℚ := sorted.get ⟨min i (sorted.length - 1), by omega⟩
  have hf : Monotone f := by
    intro i j hij
    rcases Nat.lt_or_ge (min i (sorted.length - 1)) (min j (sorted.length - 1)) with hlt | hge
    · exact List.pairwise_iff_getElem.mp hsorted _ _ (by omega) (by omega) hlt
    · have hsame : min i (sorted.length - 1) = min j (sorted.length - 1) := by omega
      show sorted.get ⟨min i (sorted.length - 1), _⟩ ≤ sorted.get ⟨min j (sorted.length - 1), _⟩
      simp only [hsame, le_refl]
  refine ⟨f, hf, fun i => hperm.mem_iff.mp (List.get_mem _ _), ?_⟩
  intro fraction hzero hone
  have hsize : (1 : ℚ) ≤ values.length := by
    rw [← hlength]
    exact_mod_cast hpos
  have hrank : 0 ≤ fraction * ((values.length : ℚ) - 1) :=
    mul_nonneg hzero (sub_nonneg.mpr hsize)
  have hlast : fraction * ((values.length : ℚ) - 1) ≤ ((sorted.length - 1 : ℕ) : ℚ) := by
    rw [hlength, Nat.cast_sub (by omega), Nat.cast_one]
    exact mul_le_of_le_one_left (sub_nonneg.mpr hsize) hone
  have hceil := Nat.ceil_le.mpr hlast
  have hfloor := Nat.floor_le_ceil (fraction * ((values.length : ℚ) - 1))
  have hread : ∀ i, i ≤ sorted.length - 1 → sorted[i]? = some (f i) := by
    intro i hi
    rw [List.getElem?_eq_getElem (by omega)]
    show some sorted[i] = some (sorted.get ⟨min i (sorted.length - 1), _⟩)
    simp only [Nat.min_eq_left hi, List.get_eq_getElem]
  have hfloorInt : (⌊fraction * ((values.length : ℚ) - 1)⌋ : ℚ) =
      (⌊fraction * ((values.length : ℚ) - 1)⌋₊ : ℚ) := by
    rw [← Int.floor_toNat]
    exact_mod_cast (Int.toNat_of_nonneg (Int.floor_nonneg.mpr hrank)).symm
  have hlower : sorted[⌊fraction * ((sorted.length : ℚ) - 1)⌋.toNat]? =
      some (f ⌊fraction * ((values.length : ℚ) - 1)⌋₊) := by
    rw [hlength, Int.floor_toNat, hread _ (by omega)]
  have hupper : sorted[⌈fraction * ((sorted.length : ℚ) - 1)⌉.toNat]? =
      some (f ⌈fraction * ((values.length : ℚ) - 1)⌉₊) := by
    rw [hlength, Int.ceil_toNat, hread _ hceil]
  unfold percentileCont
  dsimp only
  rw [hlower, hupper]
  dsimp only
  rw [hlength, hfloorInt]
  rfl

/-- **Percentiles are in order.** -/
theorem percentileCont_le (values : List ℚ) {fraction fraction' : ℚ} (hzero : 0 ≤ fraction)
    (hle : fraction ≤ fraction') (hone : fraction' ≤ 1) :
    (percentileCont fraction values).getD 0 ≤ (percentileCont fraction' values).getD 0 := by
  by_cases hne : values = []
  · simp [hne, percentileCont]
  · obtain ⟨f, hf, -, hread⟩ := percentileCont_eq hne
    have hsize : (0 : ℚ) ≤ (values.length : ℚ) - 1 := by
      have hpos : 1 ≤ values.length := List.length_pos_iff.mpr hne
      rw [sub_nonneg]
      exact_mod_cast hpos
    rw [hread _ hzero (hle.trans hone), hread _ (hzero.trans hle) hone]
    exact Interpolation.atPoint_mono hf (mul_nonneg hzero hsize)
      (mul_le_mul_of_nonneg_right hle hsize)

/-- A percentile is within whatever the values are within. -/
theorem percentileCont_between {values : List ℚ} {fraction lo hi : ℚ} (hzero : 0 ≤ fraction)
    (hone : fraction ≤ 1) (hvalues : ∀ v ∈ values, lo ≤ v ∧ v ≤ hi) :
    ∀ v, percentileCont fraction values = some v → lo ≤ v ∧ v ≤ hi := by
  intro v hv
  by_cases hne : values = []
  · rw [hne] at hv
    simp [percentileCont] at hv
  · obtain ⟨f, hf, hmem, hread⟩ := percentileCont_eq hne
    have hsize : (0 : ℚ) ≤ (values.length : ℚ) - 1 := by
      have hpos : 1 ≤ values.length := List.length_pos_iff.mpr hne
      rw [sub_nonneg]
      exact_mod_cast hpos
    have hrank := mul_nonneg hzero hsize
    rw [hread _ hzero hone] at hv
    rw [← Option.some.inj hv]
    exact ⟨Interpolation.le_atPoint hf hrank fun i => (hvalues _ (hmem i)).1,
      Interpolation.atPoint_le hf hrank fun i => (hvalues _ (hmem i)).2⟩

/-! ## One node -/

/-- Statistics in order and in range. -/
structure SoundStats (limit : ℚ) (s : NodeStats ℚ) : Prop where
  p50 : 0 ≤ s.p50Ms
  order : s.p50Ms ≤ s.p95Ms
  p95 : s.p95Ms ≤ limit
  uptime : 0 ≤ s.uptime7d ∧ s.uptime7d ≤ 1

/-- Every latency of the rows is a number up to the limit. -/
def RowsWithin (limit : ℚ) (rows : List NodeHealth) : Prop :=
  ∀ r ∈ rows, ∀ ms, r.latencyMs = some ms → 0 ≤ ms.toInt ∧ (ms.toInt : ℚ) ≤ limit

theorem RowsWithin.latencies {limit : ℚ} {rows : List NodeHealth} (h : RowsWithin limit rows)
    {rows' : List NodeHealth} (hsub : ∀ r ∈ rows', r ∈ rows) :
    ∀ v ∈ (rows'.filterMap (·.latencyMs)).map fun ms => (ms.toInt : ℚ), 0 ≤ v ∧ v ≤ limit := by
  intro v hv
  obtain ⟨ms, hms, rfl⟩ := List.mem_map.mp hv
  obtain ⟨r, hr, hlatency⟩ := List.mem_filterMap.mp hms
  obtain ⟨hzero, hle⟩ := h r (hsub r hr) ms hlatency
  exact ⟨by exact_mod_cast hzero, hle⟩

theorem uptime_between (rows : List NodeHealth) :
    ∀ v, uptime rows = some v → 0 ≤ v ∧ v ≤ 1 := by
  intro v hv
  unfold uptime at hv
  split at hv
  · cases hv
  · rename_i hrows
    rw [← Option.some.inj hv]
    have hpos : (0 : ℚ) < rows.length := by exact_mod_cast Nat.pos_of_ne_zero hrows
    have hcount : (rows.countP (fun r => r.success) : ℚ) ≤ rows.length := by
      exact_mod_cast List.countP_le_length
    exact ⟨by positivity, (div_le_one hpos).mpr hcount⟩

/-- What is in range where it is there is in range when its absence counts as zero. -/
theorem getD_zero_between {hi : ℚ} {o : Option ℚ} (hhi : 0 ≤ hi)
    (h : ∀ v, o = some v → 0 ≤ v ∧ v ≤ hi) : 0 ≤ o.getD 0 ∧ o.getD 0 ≤ hi := by
  cases o with
  | none => exact ⟨le_refl 0, hhi⟩
  | some v => exact h v rfl

/-- **One node**, from any rows of the table. -/
theorem sound_computeStats {limit : ℚ} (hlimit : 0 ≤ limit) {rows : List NodeHealth}
    (h : RowsWithin limit rows) (nodeId : String) (now : Int) :
    SoundStats limit (computeStats rows nodeId now) := by
  have hrecent : ∀ r ∈ recentSuccesses rows nodeId now, r ∈ rows :=
    fun r hr => (List.mem_filter.mp hr).1
  have hvalues := h.latencies hrecent
  have hp50 : 0 ≤ (computeStats rows nodeId now).p50Ms ∧
      (computeStats rows nodeId now).p50Ms ≤ limit :=
    getD_zero_between hlimit (percentileCont_between (by norm_num) (by norm_num) hvalues)
  have hp95 : 0 ≤ (computeStats rows nodeId now).p95Ms ∧
      (computeStats rows nodeId now).p95Ms ≤ limit :=
    getD_zero_between hlimit (percentileCont_between (by norm_num) (by norm_num) hvalues)
  refine ⟨hp50.1, ?_, hp95.2, getD_zero_between zero_le_one (uptime_between _)⟩
  exact percentileCont_le _ (by norm_num) (by norm_num) (by norm_num)

/-! ## The map and the table over time -/

structure MonitoredState where
  registry : RegistryState
  nodeStats : StatsMap ℚ
  deriving DecidableEq

inductive MonitoredAction
  | registry (a : RegistryAction)
  | computeStats (nodeId : String) (now : Int) (ok : Bool)
  deriving DecidableEq, Repr

/-- Statistics may be computed for any node at any time; the monitor does so at the end of
each probe. -/
def monitoredStep (st : MonitoredState) : MonitoredAction → Option MonitoredState
  | .registry a => (registryStep st.registry a).map fun registry => { st with registry }
  | .computeStats nodeId now ok =>
    st.registry.store.db.map fun db =>
      { st with nodeStats := storeStats st.nodeStats db.nodeHealth nodeId now ok }

/-- A gateway from its start, over a table with latencies up to the limit. -/
def monitors (limit : ℚ) : System MonitoredState MonitoredAction where
  init st := registry.init st.registry ∧ st.nodeStats = [] ∧
    ∀ db, st.registry.store.db = some db → RowsWithin limit db.nodeHealth
  step := monitoredStep

/-- A probe that succeeds does so within the limit, after which the client gives up. -/
def PingsWithin (limit : ℚ) (_ : MonitoredState) : MonitoredAction → Prop
  | .registry (.ping success latencyMs) =>
    success = true → 0 ≤ latencyMs.toInt ∧ (latencyMs.toInt : ℚ) ≤ limit
  | .registry _ | .computeStats _ _ _ => True

instance (limit : ℚ) (st : MonitoredState) : (a : MonitoredAction) →
    Decidable (PingsWithin limit st a)
  | .registry (.ping success _) => inferInstanceAs (Decidable (success = true → _ ∧ _))
  | .registry (.register _ _) | .registry (.sweep _ _) | .registry (.tick _)
  | .registry (.recordProbe _ _) | .registry (.countFailures _) | .registry (.updateStatus _)
  | .computeStats _ _ _ => inferInstanceAs (Decidable True)

/-- The table, the probe that is about to be written, and the map. -/
structure MonitorSound (limit : ℚ) (st : MonitoredState) : Prop where
  table : ∀ db, st.registry.store.db = some db → RowsWithin limit db.nodeHealth
  probe : ∀ target success latencyMs queue,
    st.registry.monitor = .record target success latencyMs queue →
    ∀ ms, latencyMs = some ms → 0 ≤ ms.toInt ∧ (ms.toInt : ℚ) ≤ limit
  stats : ∀ entry ∈ st.nodeStats, SoundStats limit entry.2

/-- A table with the rows it had. -/
theorem MonitorSound.table_of_nodeHealth {limit : ℚ} {st : MonitoredState}
    (hinv : MonitorSound limit st) {store : NodeStore}
    (h : store.db.map (·.nodeHealth) = st.registry.store.db.map (·.nodeHealth)) :
    ∀ db, store.db = some db → RowsWithin limit db.nodeHealth := by
  intro db hdb
  rw [hdb, Option.map_some] at h
  obtain ⟨old, hold, hrows⟩ := Option.map_eq_some_iff.mp h.symm
  rw [← hrows]
  exact hinv.table old hold

theorem monitorSound_step {limit : ℚ} (hlimit : 0 ≤ limit) {st st' : MonitoredState}
    {a : MonitoredAction} (hinv : MonitorSound limit st) (hallowed : PingsWithin limit st a)
    (hstep : monitoredStep st a = some st') : MonitorSound limit st' := by
  cases a with
  | computeStats nodeId now ok =>
      obtain ⟨db, hdb, rfl⟩ := Option.map_eq_some_iff.mp hstep
      refine ⟨hinv.table, hinv.probe, ?_⟩
      intro entry hentry
      cases ok with
      | false => exact hinv.stats entry hentry
      | true =>
          rcases List.mem_cons.mp hentry with rfl | hold
          · exact sound_computeStats hlimit (hinv.table db hdb) nodeId now
          · exact hinv.stats entry (List.mem_filter.mp hold).1
  | registry a =>
      obtain ⟨next, hnext, rfl⟩ := Option.map_eq_some_iff.mp hstep
      cases registryMove_of_step hnext with
      | register hfresh =>
          exact ⟨hinv.table_of_nodeHealth nodeHealth_register, hinv.probe, hinv.stats⟩
      | sweep => exact ⟨hinv.table_of_nodeHealth nodeHealth_sweep, hinv.probe, hinv.stats⟩
      | tick hpc => exact ⟨hinv.table, by rintro _ _ _ _ ⟨⟩, hinv.stats⟩
      | @pingDb success latencyMs target queue db hpc hdb =>
          refine ⟨hinv.table, ?_, hinv.stats⟩
          rintro target' success' latency queue' ⟨⟩ ms hms
          cases success with
          | false => cases hms
          | true =>
              cases hms
              exact hallowed rfl
      | pingMemory hpc hdb =>
          exact ⟨hinv.table, by rintro _ _ _ _ ⟨⟩, hinv.stats⟩
      | drop hpc hdb hdrop => exact ⟨hinv.table, by rintro _ _ _ _ ⟨⟩, hinv.stats⟩
      | @record checkedAt o target success latencyMs queue db db' hpc hdb hrecord ho =>
          refine ⟨?_, ?_, hinv.stats⟩
          · rintro db'' ⟨⟩ r hr ms hms
            have hrows : db' = { db with nodeHealth :=
                db.nodeHealth ++ [⟨target.id, latencyMs, success, checkedAt⟩] } :=
              (recordProbe_eq_some hrecord).2
            rw [hrows] at hr
            rcases List.mem_append.mp hr with hold | hnew
            · exact hinv.table db hdb r hold ms hms
            · rw [List.mem_singleton.mp hnew] at hms
              exact hinv.probe _ _ _ _ hpc ms hms
          · dsimp only
            split <;> rintro _ _ _ _ ⟨⟩
      | count hpc hdb => exact ⟨hinv.table, by rintro _ _ _ _ ⟨⟩, hinv.stats⟩
      | updateFailed hpc => exact ⟨hinv.table, by rintro _ _ _ _ ⟨⟩, hinv.stats⟩
      | @update o target consec queue db hpc hdb ho =>
          refine ⟨?_, by rintro _ _ _ _ ⟨⟩, hinv.stats⟩
          rintro db' ⟨⟩
          exact hinv.table db hdb

/-! ## The report -/

/-- A report in order and in range; its percentiles are there together. -/
structure SoundReport (limit : ℚ) (report : InferStats) : Prop where
  together : report.latencyP50Ms.isSome = report.latencyP95Ms.isSome
  latency : ∀ p50 p95, report.latencyP50Ms = some p50 → report.latencyP95Ms = some p95 →
    0 ≤ p50 ∧ p50 ≤ p95 ∧ p95 ≤ limit
  uptime : ∀ v, report.uptime7d = some v → 0 ≤ v ∧ v ≤ 1

theorem mean_between {values : List ℚ} {lo hi : ℚ} (hne : values ≠ [])
    (h : ∀ v ∈ values, lo ≤ v ∧ v ≤ hi) : lo ≤ mean values ∧ mean values ≤ hi := by
  have hpos : (0 : ℚ) < values.length := by
    exact_mod_cast List.length_pos_iff.mpr hne
  have hlow := List.card_nsmul_le_sum values lo fun v hv => (h v hv).1
  have hhigh := List.sum_le_card_nsmul values hi fun v hv => (h v hv).2
  rw [nsmul_eq_mul] at hlow hhigh
  unfold mean
  exact ⟨(le_div_iff₀ hpos).mpr (by linarith), (div_le_iff₀ hpos).mpr (by linarith)⟩

theorem mean_map_le {α : Type} {l : List α} {f g : α → ℚ} (h : ∀ a ∈ l, f a ≤ g a) :
    mean (l.map f) ≤ mean (l.map g) := by
  unfold mean
  rw [List.length_map, List.length_map]
  exact div_le_div_of_nonneg_right (List.sum_le_sum h) (Nat.cast_nonneg _)

/-- From the database. -/
theorem soundReport_database {limit : ℚ} {db : Database}
    (hrows : RowsWithin limit db.nodeHealth) (nodes : List NodeInfo) (stats : StatsMap ℚ)
    (now : Int) : SoundReport limit (buildInferStats nodes stats (some db) now true) := by
  have hprobes : ∀ r ∈ inferRows db now, r ∈ db.nodeHealth := by
    intro r hr
    rw [inferRows_eq] at hr
    exact (List.mem_filter.mp (List.mem_filter.mp hr).1).1
  have hvalues := hrows.latencies hprobes
  let latencies := ((inferRows db now).filterMap (·.latencyMs)).map fun ms => (ms.toInt : ℚ)
  refine ⟨?_, ?_, uptime_between _⟩
  · show (percentileCont (1 / 2) latencies).isSome = (percentileCont (19 / 20) latencies).isSome
    by_cases hne : latencies = []
    · rw [hne]
      rfl
    · obtain ⟨f, -, -, hread⟩ := percentileCont_eq hne
      rw [hread _ (by norm_num) (by norm_num), hread _ (by norm_num) (by norm_num)]
      rfl
  · intro p50 p95 hp50 hp95
    have hp50' : percentileCont (1 / 2) latencies = some p50 := hp50
    have hp95' : percentileCont (19 / 20) latencies = some p95 := hp95
    have hle : (percentileCont (1 / 2) latencies).getD 0 ≤
        (percentileCont (19 / 20) latencies).getD 0 :=
      percentileCont_le _ (by norm_num) (by norm_num) (by norm_num)
    rw [hp50', hp95'] at hle
    exact ⟨(percentileCont_between (by norm_num) (by norm_num) hvalues p50 hp50').1, hle,
      (percentileCont_between (by norm_num) (by norm_num) hvalues p95 hp95').2⟩

/-- From the map. -/
theorem soundReport_map {limit : ℚ} {stats : StatsMap ℚ}
    (hstats : ∀ entry ∈ stats, SoundStats limit entry.2) (availableNodes : Nat)
    (hne : stats.map (·.2) ≠ []) :
    SoundReport limit
      { availableNodes
        latencyP50Ms := some (mean ((stats.map (·.2)).map (·.p50Ms)))
        latencyP95Ms := some (mean ((stats.map (·.2)).map (·.p95Ms)))
        uptime7d := some (mean ((stats.map (·.2)).map (·.uptime7d))) } := by
  have hall : ∀ s ∈ stats.map (·.2), SoundStats limit s := by
    intro s hs
    obtain ⟨entry, hentry, rfl⟩ := List.mem_map.mp hs
    exact hstats entry hentry
  have hbetween : ∀ (f : NodeStats ℚ → ℚ) (hi : ℚ),
      (∀ s, SoundStats limit s → 0 ≤ f s ∧ f s ≤ hi) →
      0 ≤ mean ((stats.map (·.2)).map f) ∧ mean ((stats.map (·.2)).map f) ≤ hi := by
    intro f hi hf
    refine mean_between (by simpa using hne) ?_
    intro v hv
    obtain ⟨s, hs, rfl⟩ := List.mem_map.mp hv
    exact hf s (hall s hs)
  refine ⟨rfl, ?_, ?_⟩
  · rintro p50 p95 ⟨⟩ ⟨⟩
    exact ⟨(hbetween (·.p50Ms) limit fun s hs => ⟨hs.p50, hs.order.trans hs.p95⟩).1,
      mean_map_le fun s hs => (hall s hs).order,
      (hbetween (·.p95Ms) limit fun s hs => ⟨hs.p50.trans hs.order, hs.p95⟩).2⟩
  · rintro v ⟨⟩
    exact hbetween (·.uptime7d) 1 fun s hs => hs.uptime

/-- **Whatever is reported is sound.** In every run in which a probe succeeds within the
limit or not at all, what is stored for a node, and what the endpoint reports from the
database or from the map, has a median between zero and the 95th percentile, that one
within the limit, and an uptime between zero and one. -/
theorem buildInferStats_sound {limit : ℚ} (hlimit : 0 ≤ limit) {st : MonitoredState}
    (h : (monitors limit).ReachedBy (PingsWithin limit) st) (now : Int) (ok : Bool) :
    (∀ entry ∈ st.nodeStats, SoundStats limit entry.2) ∧
      SoundReport limit
        (buildInferStats st.registry.store.nodes st.nodeStats st.registry.store.db now ok) := by
  have hinv : MonitorSound limit st := by
    refine h.invariant _ ?_ fun _ _ _ h hallowed => monitorSound_step hlimit h hallowed
    rintro s ⟨⟨-, -, hmonitor⟩, hstats, htable⟩
    refine ⟨htable, ?_, by simp [hstats]⟩
    intro target success latencyMs queue hrecord
    rw [hmonitor] at hrecord
    cases hrecord
  refine ⟨hinv.stats, ?_⟩
  have hfallback : ∀ db ok, db = none ∨ ok = false → SoundReport limit
      (buildInferStats st.registry.store.nodes st.nodeStats db now ok) := by
    intro db ok hcase
    have hshape : buildInferStats st.registry.store.nodes st.nodeStats db now ok =
        if st.nodeStats.map (·.2) = [] then
          { availableNodes := st.registry.store.nodes.countP fun n => n.status = .online
            latencyP50Ms := none, latencyP95Ms := none, uptime7d := none }
        else
          { availableNodes := st.registry.store.nodes.countP fun n => n.status = .online
            latencyP50Ms := some (mean ((st.nodeStats.map (·.2)).map (·.p50Ms)))
            latencyP95Ms := some (mean ((st.nodeStats.map (·.2)).map (·.p95Ms)))
            uptime7d := some (mean ((st.nodeStats.map (·.2)).map (·.uptime7d))) } := by
      rcases hcase with rfl | rfl
      · rfl
      · cases db <;> rfl
    rw [hshape]
    by_cases hne : st.nodeStats.map (·.2) = []
    · rw [if_pos hne]
      exact ⟨rfl, by rintro _ _ ⟨⟩, by rintro _ ⟨⟩⟩
    · rw [if_neg hne]
      exact soundReport_map hinv.stats _ hne
  cases hdb : st.registry.store.db with
  | none => exact hfallback none ok (.inl rfl)
  | some db =>
      cases ok with
      | false => exact hfallback (some db) false (.inr rfl)
      | true => exact soundReport_database (hinv.table db hdb) _ _ _

/-! ## Two probes -/

/-- A gateway over a table with one node and no probes. -/
def monitorStart : MonitoredState := ⟨startState (some (oneOnline [])), []⟩

/-- A probe of the node and the statistics after it. -/
def probeOnce (success : Bool) (latencyMs : Int32) (time : Int) : List MonitoredAction :=
  [.registry (.tick true), .registry (.ping success latencyMs),
    .registry (.recordProbe time .ok), .registry (.countFailures true),
    .registry (.updateStatus .ok), .computeStats "gpu0" time true]

/-- One answer after 20 ms and one failure; then the database does not answer. -/
theorem buildInferStats_sound_two_probes : ∃ st,
    (monitors 5000).run (PingsWithin 5000) monitorStart
        (probeOnce true 20 1000 ++ probeOnce false 0 2000) = some st ∧
      st.nodeStats = [("gpu0", ⟨20, 20, 1 / 2⟩)] ∧
      SoundReport 5000
        (buildInferStats st.registry.store.nodes st.nodeStats st.registry.store.db 3000 false) := by
  have hrun : ((monitors 5000).run (PingsWithin 5000) monitorStart
      (probeOnce true 20 1000 ++ probeOnce false 0 2000)).map (·.nodeStats) =
        some [("gpu0", ⟨20, 20, 1 / 2⟩)] := by decide +kernel
  have hinit : (monitors 5000).init monitorStart := by
    refine ⟨⟨rfl, rfl, rfl⟩, rfl, ?_⟩
    rintro db ⟨⟩ r hr
    cases hr
  obtain ⟨st, hst, hreached, hstats⟩ := System.exists_reachedBy_of_run (.init hinit) hrun
  exact ⟨st, hst, hstats, (buildInferStats_sound (by norm_num) hreached 3000 false).2⟩

end InferPlatform.Gateway
