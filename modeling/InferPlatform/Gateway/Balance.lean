import InferPlatform.Base.Rounds
import InferPlatform.Base.System
import InferPlatform.Gateway.Coordinator

/-!
# Load balancing

All models share the coordinator's counter, and each takes it modulo the number of
its own nodes. Which node comes first for a model then depends on how many requests
for other models came between.

* `balancing` — a coordinator that is called with a fixed node table, and what was
  the first candidate of each call;
* `InTurn` — the counter has not picked the same place before in the model's round of calls;
* `evenlyServed_of_inTurn` — **runs of such calls serve the nodes evenly** while the
  latency order stays within each round, and the first call out of turn ends that;
* `inTurn_of_one_model` — a single model with the same statistics is always in turn;
* `unevenly_served` — two models in turn, each served by one of its two nodes only.
-/

namespace InferPlatform.Gateway

open Checked Planner

variable {Ms : Type}

/-- The arguments of a call that differ from call to call. -/
structure Call (Ms : Type) where
  model : String
  stats : StatsMap Ms
  deriving DecidableEq

/-- The node of the first candidate's controller. -/
def firstNode (result : Except Panic (List ShardPlan)) : Option String :=
  ((result.toOption.bind List.head?).bind (·.assignments.head?)).map (·.nodeId)

/-- A call, with the counter that it met and the node that came first. -/
structure Visit (Ms : Type) where
  call : Call Ms
  rrCounter : UInt64
  first : Option String
  deriving DecidableEq

/-- The visits for a model. -/
def visitsFor (visits : List (Visit Ms)) (model : String) : List (Visit Ms) :=
  visits.filter fun v => v.call.model = model

theorem visitsFor_append_self (visits : List (Visit Ms)) (v : Visit Ms) :
    visitsFor (visits ++ [v]) v.call.model = visitsFor visits v.call.model ++ [v] := by
  simp [visitsFor]

theorem visitsFor_append_of_ne (visits : List (Visit Ms)) {v : Visit Ms} {model : String}
    (h : v.call.model ≠ model) : visitsFor (visits ++ [v]) model = visitsFor visits model := by
  simp [visitsFor, h]

variable [LinearOrder Ms]

section

variable (p : Profile) (maxMs : Ms) (nodes : List NodeInfo)

/-- A coordinator at any counter value; its state is the counter. -/
def coordinator : System UInt64 (Call Ms) where
  init _ := True
  step rrCounter call := some (buildCandidates p maxMs rrCounter call.model nodes call.stats).2

/-- The coordinator's calls, noted one after the other. -/
def balancing : System (UInt64 × List (Visit Ms)) (Call Ms) :=
  (coordinator p maxMs nodes).observed [] fun visits rrCounter call _ =>
    visits ++ [⟨call, rrCounter,
      firstNode (buildCandidates p maxMs rrCounter call.model nodes call.stats).1⟩]

def timesFirst (visits : List (Visit Ms)) (model : String) (node : NodeInfo) : Nat :=
  visits.countP fun v => v.call.model = model ∧ v.first = some node.id

/-- For each model, the nodes that can hold it alone have come first equally often,
up to one. -/
def EvenlyServed (visits : List (Visit Ms)) : Prop :=
  ∀ model, ∀ a ∈ soloNodes model nodes, ∀ b ∈ soloNodes model nodes,
    timesFirst visits model a ≤ timesFirst visits model b + 1

/-! ## Turns -/

/-- The node that stands at the place given by the counter, in the latency order of the
nodes that can hold the model. -/
def due (rrCounter : UInt64) (call : Call Ms) : Option NodeInfo :=
  let solo := soloNodes call.model nodes
  (sortBy (byLatency maxMs call.stats) solo)[rrCounter.toNat % solo.length]?

/-- The VRAM of the nodes that can hold the model fits the planner's cast. -/
def VramInRange (model : String) : Prop :=
  ∀ n ∈ soloNodes model nodes, n.vramMb.toNat < 2 ^ 32

/-- The visits of the model's current round, which has one call for each node that can hold
the model. -/
def roundOf (visits : List (Visit Ms)) (model : String) : List (Visit Ms) :=
  Rounds.current (soloNodes model nodes).length (visitsFor visits model)

/-- The call finds the latency order that the earlier calls of its round found. -/
def OrderKept (s : UInt64 × List (Visit Ms)) (call : Call Ms) : Prop :=
  ∀ v ∈ roundOf nodes s.2 call.model,
    sortBy (byLatency maxMs v.call.stats) (soloNodes call.model nodes) =
      sortBy (byLatency maxMs call.stats) (soloNodes call.model nodes)

/-- The call is in turn: the counter, modulo the number of nodes that can hold the model, is
not what it was at an earlier call of the round. -/
def InTurn (s : UInt64 × List (Visit Ms)) (call : Call Ms) : Prop :=
  soloNodes call.model nodes ≠ [] → ∀ v ∈ roundOf nodes s.2 call.model,
    v.rrCounter.toNat % (soloNodes call.model nodes).length ≠
      s.1.toNat % (soloNodes call.model nodes).length

/-- The node that is due has not been due in the current round. -/
def NewlyDue (s : UInt64 × List (Visit Ms)) (call : Call Ms) : Prop :=
  soloNodes call.model nodes ≠ [] → ∀ v ∈ roundOf nodes s.2 call.model,
    due maxMs nodes v.rrCounter v.call ≠ due maxMs nodes s.1 call

end

variable {p : Profile} {maxMs : Ms} {nodes : List NodeInfo}

/-- The counter picks a place among the sorted nodes. -/
theorem turn_lt (maxMs : Ms) (rrCounter : UInt64) (call : Call Ms)
    (hsolo : soloNodes call.model nodes ≠ []) :
    rrCounter.toNat % (soloNodes call.model nodes).length <
      (sortBy (byLatency maxMs call.stats) (soloNodes call.model nodes)).length := by
  rw [(sortBy_perm (byLatency maxMs call.stats) (soloNodes call.model nodes)).length_eq]
  exact Nat.mod_lt _ (List.length_pos_iff.mpr hsolo)

/-- The node that is due is one that can hold the model. -/
theorem exists_due (maxMs : Ms) (rrCounter : UInt64) (call : Call Ms)
    (hsolo : soloNodes call.model nodes ≠ []) :
    ∃ n ∈ soloNodes call.model nodes, due maxMs nodes rrCounter call = some n := by
  have hperm := sortBy_perm (byLatency maxMs call.stats) (soloNodes call.model nodes)
  have hlt := turn_lt maxMs rrCounter call hsolo
  exact ⟨_, hperm.mem_iff.mp (List.getElem_mem hlt), List.getElem?_eq_getElem hlt⟩

/-- **The first candidate** is the node that is due. -/
theorem firstNode_eq_due (rrCounter : UInt64) (call : Call Ms)
    (hsolo : soloNodes call.model nodes ≠ []) (hvram : VramInRange nodes call.model) :
    firstNode (buildCandidates p maxMs rrCounter call.model nodes call.stats).1 =
      (due maxMs nodes rrCounter call).map (·.id) := by
  rw [buildCandidates_solo p maxMs rrCounter call.stats hvram hsolo]
  have hlt := turn_lt maxMs rrCounter call hsolo
  simp only [firstNode, Except.toOption, Option.bind_some, List.head?_map,
    List.head?_rotate hlt, due]
  cases (sortBy (byLatency maxMs call.stats) (soloNodes call.model nodes))[rrCounter.toNat %
    (soloNodes call.model nodes).length]? with
  | none => rfl
  | some n => rfl

omit [LinearOrder Ms] in
theorem mem_roundOf {visits : List (Visit Ms)} {model : String} {v : Visit Ms}
    (h : v ∈ roundOf nodes visits model) : v.call.model = model :=
  of_decide_eq_true (List.mem_filter.mp (List.mem_of_mem_drop h)).2

/-- In the same order, the same node is due where the counter picks the same place. -/
theorem newlyDue_iff (hids : (nodes.map (·.id)).Nodup) {s : UInt64 × List (Visit Ms)}
    {call : Call Ms} (horder : OrderKept maxMs nodes s call) :
    NewlyDue maxMs nodes s call ↔ InTurn nodes s call := by
  refine forall_congr' fun hsolo => forall₂_congr fun v hv => not_congr ?_
  have hperm := sortBy_perm (byLatency maxMs call.stats) (soloNodes call.model nodes)
  have hnodup : (sortBy (byLatency maxMs call.stats) (soloNodes call.model nodes)).Nodup :=
    hperm.nodup_iff.mpr ((hids.of_map _).filter _)
  have hlt : v.rrCounter.toNat % (soloNodes call.model nodes).length <
      (sortBy (byLatency maxMs call.stats) (soloNodes call.model nodes)).length := by
    rw [hperm.length_eq]
    exact Nat.mod_lt _ (List.length_pos_iff.mpr hsolo)
  simp only [due, mem_roundOf hv, horder v hv]
  exact List.getElem?_inj hlt hnodup

/-- A step notes the call. -/
theorem balancing_step {s s' : UInt64 × List (Visit Ms)} {call : Call Ms}
    (h : (balancing p maxMs nodes).step s call = some s') :
    s'.2 = s.2 ++ [⟨call, s.1,
      firstNode (buildCandidates p maxMs s.1 call.model nodes call.stats).1⟩] :=
  (System.observed_step h).2

/-! ## The invariant -/

/-- The nodes that were due in the visits for a model. -/
def dues (maxMs : Ms) (nodes : List NodeInfo) (visits : List (Visit Ms)) (model : String) :
    List (Option NodeInfo) :=
  (visitsFor visits model).map fun v => due maxMs nodes v.rrCounter v.call

theorem dues_append_self (visits : List (Visit Ms)) (v : Visit Ms) :
    dues maxMs nodes (visits ++ [v]) v.call.model =
      dues maxMs nodes visits v.call.model ++ [due maxMs nodes v.rrCounter v.call] := by
  rw [dues, visitsFor_append_self, List.map_append, List.map_singleton, dues]

theorem mem_current_dues {n : Nat} {visits : List (Visit Ms)} {model : String}
    {d : Option NodeInfo} : d ∈ Rounds.current n (dues maxMs nodes visits model) ↔
      ∃ v ∈ Rounds.current n (visitsFor visits model), due maxMs nodes v.rrCounter v.call = d := by
  rw [dues, Rounds.current_map, List.mem_map]

/-- In every visit for a model with nodes of its own, the one that was due came first. -/
def DueFirst (maxMs : Ms) (nodes : List NodeInfo) (visits : List (Visit Ms)) : Prop :=
  ∀ v ∈ visits, soloNodes v.call.model nodes ≠ [] →
    v.first = (due maxMs nodes v.rrCounter v.call).map (·.id)

/-- Whether in turn or not, a call adds a visit in which the node that was due came
first. -/
theorem DueFirst.step {s s' : UInt64 × List (Visit Ms)} {call : Call Ms}
    (h : DueFirst maxMs nodes s.2) (hvram : VramInRange nodes call.model)
    (hstep : (balancing p maxMs nodes).step s call = some s') : DueFirst maxMs nodes s'.2 := by
  rw [balancing_step hstep]
  intro v hv hsolo
  rcases List.mem_append.mp hv with hv | hv
  · exact h v hv hsolo
  · obtain rfl := List.mem_singleton.mp hv
    exact firstNode_eq_due s.1 call hsolo hvram

/-- The node that was due always came first, and no round had a node due twice. -/
structure TurnsKept (maxMs : Ms) (nodes : List NodeInfo) (visits : List (Visit Ms)) : Prop where
  first : DueFirst maxMs nodes visits
  fair : ∀ model, soloNodes model nodes ≠ [] →
    Rounds.Fair (soloNodes model nodes).length (dues maxMs nodes visits model)

/-- A call for which another node is due keeps the turns. -/
theorem TurnsKept.step {s s' : UInt64 × List (Visit Ms)} {call : Call Ms}
    (h : TurnsKept maxMs nodes s.2) (hvram : VramInRange nodes call.model)
    (hturn : NewlyDue maxMs nodes s call)
    (hstep : (balancing p maxMs nodes).step s call = some s') : TurnsKept maxMs nodes s'.2 := by
  refine ⟨h.first.step hvram hstep, ?_⟩
  rw [balancing_step hstep]
  intro model hsolo
  by_cases hmodel : call.model = model
  · subst hmodel
    rw [dues_append_self]
    refine (h.fair call.model hsolo).concat ?_
    rw [mem_current_dues]
    rintro ⟨v, hv, hdue⟩
    exact hturn hsolo v hv hdue
  · rw [dues, visitsFor_append_of_ne s.2 hmodel]
    exact h.fair model hsolo

/-! ## Counting -/

theorem mem_dues {visits : List (Visit Ms)} {model : String} (hsolo : soloNodes model nodes ≠ []) :
    ∀ d ∈ dues maxMs nodes visits model, d ∈ (soloNodes model nodes).map some := by
  intro d hd
  obtain ⟨v, hv, rfl⟩ := List.mem_map.mp hd
  obtain rfl := of_decide_eq_true (List.mem_filter.mp hv).2
  obtain ⟨n, hn, hdue⟩ := exists_due maxMs v.rrCounter v.call hsolo
  rw [hdue]
  exact List.mem_map_of_mem hn

/-- How often a node came first is how often it was due. -/
theorem timesFirst_eq {visits : List (Visit Ms)} {model : String} {n : NodeInfo}
    (hids : (nodes.map (·.id)).Nodup) (hn : n ∈ soloNodes model nodes)
    (hfirst : DueFirst maxMs nodes visits) :
    timesFirst visits model n = (dues maxMs nodes visits model).count (some n) := by
  have hsolo := List.ne_nil_of_mem hn
  rw [timesFirst, dues, visitsFor, List.count, List.countP_map, List.countP_filter]
  refine List.countP_congr fun v hv => ?_
  by_cases hmodel : v.call.model = model
  · subst hmodel
    obtain ⟨m, hm, hdue⟩ := exists_due maxMs v.rrCounter v.call hsolo
    have hinj := List.inj_on_of_nodup_map hids (mem_soloNodes.mp hm).1 (mem_soloNodes.mp hn).1
    simp only [hfirst v hv hsolo, hdue, Option.map_some, Option.some.injEq, true_and,
      Function.comp_apply, beq_iff_eq, decide_eq_true_eq, decide_true, Bool.and_true]
    exact ⟨fun hid => hinj hid, fun heq => congrArg NodeInfo.id heq⟩
  · simp [hmodel]

/-- Served evenly means picked evenly. -/
theorem evenlyServed_iff {visits : List (Visit Ms)} (hids : (nodes.map (·.id)).Nodup)
    (hfirst : DueFirst maxMs nodes visits) :
    EvenlyServed nodes visits ↔ ∀ model,
      Rounds.Even ((soloNodes model nodes).map some) (dues maxMs nodes visits model) := by
  refine forall_congr' fun model => ?_
  simp only [Rounds.Even, List.forall_mem_map]
  refine forall₂_congr fun a ha => forall₂_congr fun b hb => ?_
  rw [timesFirst_eq hids ha hfirst, timesFirst_eq hids hb hfirst]

theorem nodup_soloNodes (hids : (nodes.map (·.id)).Nodup) (model : String) :
    ((soloNodes model nodes).map some).Nodup :=
  ((hids.of_map _).filter _).map (Option.some_injective _)

theorem TurnsKept.evenlyServed {visits : List (Visit Ms)} (hids : (nodes.map (·.id)).Nodup)
    (h : TurnsKept maxMs nodes visits) : EvenlyServed nodes visits := by
  rw [evenlyServed_iff hids h.first]
  intro model
  by_cases hsolo : soloNodes model nodes = []
  · rw [hsolo]
    intro a ha
    cases ha
  · refine Rounds.even_of_fair (nodup_soloNodes hids model) (mem_dues hsolo) ?_
    rw [List.length_map]
    exact h.fair model hsolo

/-- A call for which no other node is due leaves the nodes unevenly served. -/
theorem TurnsKept.not_evenlyServed {s s' : UInt64 × List (Visit Ms)} {call : Call Ms}
    (hids : (nodes.map (·.id)).Nodup) (h : TurnsKept maxMs nodes s.2)
    (hvram : VramInRange nodes call.model) (hturn : ¬ NewlyDue maxMs nodes s call)
    (hstep : (balancing p maxMs nodes).step s call = some s') : ¬ EvenlyServed nodes s'.2 := by
  unfold NewlyDue roundOf at hturn
  push Not at hturn
  obtain ⟨hsolo, hrepeat⟩ := hturn
  have hfair := h.fair call.model hsolo
  rw [← List.length_map (f := some)] at hfair hrepeat
  rw [evenlyServed_iff hids (h.first.step hvram hstep), balancing_step hstep]
  intro heven
  have hcall := heven call.model
  rw [dues_append_self] at hcall
  exact Rounds.not_even_of_repeat (nodup_soloNodes hids call.model) (mem_dues hsolo) hfair
    (mem_current_dues.mpr hrepeat) hcall

/-- **Even load.** As long as the counter picks another place at every call of a model's
round, the latency order is kept within the round, and the VRAM of the nodes that can hold
the model fits the planner's cast, the nodes are served evenly; after one more call with this
order and VRAM they are if and only if it is in turn. -/
theorem evenlyServed_of_inTurn (p : Profile) (maxMs : Ms) (nodes : List NodeInfo)
    (hids : (nodes.map (·.id)).Nodup) :
    let allowed (s : UInt64 × List (Visit Ms)) (call : Call Ms) :=
      VramInRange nodes call.model ∧ OrderKept maxMs nodes s call ∧ InTurn nodes s call
    ∀ s, (balancing p maxMs nodes).ReachedBy allowed s →
      EvenlyServed nodes s.2 ∧
        ∀ call s', VramInRange nodes call.model → OrderKept maxMs nodes s call →
          (balancing p maxMs nodes).step s call = some s' →
            (EvenlyServed nodes s'.2 ↔ InTurn nodes s call) := by
  intro allowed s hs
  have hkept : TurnsKept maxMs nodes s.2 := by
    refine hs.invariant (fun s => TurnsKept maxMs nodes s.2) ?_ ?_
    · rintro s ⟨-, hempty⟩
      rw [hempty]
      exact ⟨fun v hv => absurd hv List.not_mem_nil, fun _ _ => Rounds.fair_nil _⟩
    · rintro s call s' hkept ⟨hvram, horder, hturn⟩ hstep
      exact hkept.step hvram ((newlyDue_iff hids horder).mpr hturn) hstep
  refine ⟨hkept.evenlyServed hids, fun call s' hvram horder hstep => ?_⟩
  rw [← newlyDue_iff hids horder]
  refine ⟨?_, fun hdue => (hkept.step hvram hdue hstep).evenlyServed hids⟩
  intro heven
  by_contra hdue
  exact hkept.not_evenlyServed hids hvram hdue hstep heven

/-! ## One model -/

/-- The visits are all the same call, and the counter has moved on by one for each. -/
def Consecutive (call : Call Ms) (s : UInt64 × List (Visit Ms)) : Prop :=
  ∀ i v, s.2[i]? = some v → v.call = call ∧ v.rrCounter.toNat + (s.2.length - i) = s.1.toNat

theorem Consecutive.step {s s' : UInt64 × List (Visit Ms)} {call : Call Ms}
    (h : Consecutive call s) (hsolo : soloNodes call.model nodes ≠ [])
    (hwrap : s.1.toNat + 1 < 2 ^ 64)
    (hstep : (balancing p maxMs nodes).step s call = some s') : Consecutive call s' := by
  have hcounter : s'.1 = s.1 + 1 := by
    have hnext := (System.observed_step hstep).1
    rw [coordinator, Option.some.injEq, buildCandidates_eq, if_neg hsolo] at hnext
    exact hnext.symm
  have hnat : s'.1.toNat = s.1.toNat + 1 := by
    rw [hcounter, UInt64.toNat_add]
    exact Nat.mod_eq_of_lt hwrap
  intro i v hv
  rw [balancing_step hstep] at hv ⊢
  rw [List.length_append, List.length_singleton, hnat]
  rcases Nat.lt_or_ge i s.2.length with hi | hi
  · rw [List.getElem?_append_left hi] at hv
    obtain ⟨hcall, hdistance⟩ := h i v hv
    exact ⟨hcall, by omega⟩
  · rw [List.getElem?_append_right hi, List.getElem?_singleton] at hv
    split at hv
    · obtain rfl := Option.some.inj hv
      exact ⟨rfl, by dsimp only; omega⟩
    · cases hv

/-- **One model with the same statistics** is always in turn, until the counter
wraps. -/
theorem inTurn_of_one_model (p : Profile) {call : Call Ms} {s : UInt64 × List (Visit Ms)}
    (hs : (balancing p maxMs nodes).ReachedBy
      (fun s c => c = call ∧ s.1.toNat + 1 < 2 ^ 64) s) : InTurn nodes s call := by
  intro hsolo v hv
  have hconsecutive : Consecutive call s := by
    refine hs.invariant (Consecutive call) ?_ ?_
    · rintro s ⟨-, hempty⟩ i v hv
      rw [hempty] at hv
      cases hv
    · rintro s c s' hs ⟨rfl, hwrap⟩ hstep
      exact hs.step hsolo hwrap hstep
  have hall : visitsFor s.2 call.model = s.2 := by
    refine List.filter_eq_self.mpr fun v hv => ?_
    obtain ⟨i, hi⟩ := List.mem_iff_getElem?.mp hv
    rw [(hconsecutive i v hi).1]
    exact decide_eq_true rfl
  rw [roundOf, hall, Rounds.current, List.mem_iff_getElem?] at hv
  obtain ⟨i, hi⟩ := hv
  rw [List.getElem?_drop] at hi
  obtain ⟨-, hdistance⟩ := hconsecutive _ v hi
  obtain ⟨hlt, -⟩ := List.getElem?_eq_some_iff.mp hi
  intro hresidue
  -- the counter has moved on by less than a round
  have hpos := List.length_pos_iff.mpr hsolo
  have hround := Nat.mod_add_div s.2.length (soloNodes call.model nodes).length
  have hless := Nat.mod_lt s.2.length hpos
  rw [Nat.mul_comm] at hround
  have hmoved : s.1.toNat - v.rrCounter.toNat < (soloNodes call.model nodes).length := by omega
  have hdvd := (Nat.modEq_iff_dvd' (by omega)).mp hresidue
  exact absurd (Nat.le_of_dvd (by omega) hdvd) (by omega)

/-! ## Two models on two nodes -/

instance {s : UInt64 × List (Visit Ms)} {call : Call Ms} :
    Decidable (InTurn nodes s call) := inferInstanceAs (Decidable (_ → _))

instance {s : UInt64 × List (Visit Ms)} {call : Call Ms} :
    Decidable (OrderKept maxMs nodes s call) := inferInstanceAs (Decidable (∀ _ ∈ _, _ = _))

instance {model : String} : Decidable (VramInRange nodes model) :=
  inferInstanceAs (Decidable (∀ n ∈ _, _))

def twoGpus : List NodeInfo := [gpu "gpu0" 24576, gpu "gpu1" 24576]

def callFor (model : String) : Call Nat := ⟨model, []⟩

theorem mem_twoGpus : gpu "gpu0" 24576 ∈ soloNodes "llama3.2:1b" twoGpus ∧
    gpu "gpu1" 24576 ∈ soloNodes "llama3.2:1b" twoGpus := by decide

/-- Requests for two models in turn: each model is always served by the same node. -/
theorem unevenly_served : ∃ s, (balancing .release f64Max twoGpus).Reachable s ∧
    ¬ EvenlyServed twoGpus s.2 := by
  have hrun : ((balancing .release f64Max twoGpus).run (fun _ _ => True) (0, [])
      [callFor "llama3.2:1b", callFor "llama3.2:3b", callFor "llama3.2:1b",
        callFor "llama3.2:3b"]).map
      (fun s => (timesFirst s.2 "llama3.2:1b" (gpu "gpu0" 24576),
        timesFirst s.2 "llama3.2:1b" (gpu "gpu1" 24576))) = some (2, 0) := by
    decide +kernel
  have hinit : (balancing .release f64Max twoGpus).init (0, []) := ⟨trivial, rfl⟩
  obtain ⟨s, -, hreached, htimes⟩ := System.exists_reachedBy_of_run (.init hinit) hrun
  refine ⟨s, hreached, fun heven => ?_⟩
  have hle := heven "llama3.2:1b" _ mem_twoGpus.1 _ mem_twoGpus.2
  rw [Prod.mk.injEq] at htimes
  omega

/-- Requests for two models that come in another order in the second round of each. -/
def sixCalls : List (Call Nat) :=
  ["llama3.2:1b", "llama3.2:3b", "llama3.2:3b", "llama3.2:1b", "llama3.2:1b", "llama3.2:3b"].map
    callFor

/-- The six calls are in turn. The next one is, if it is for the second model, and the other
model would meet the counter at an even value again. -/
theorem evenlyServed_of_inTurn_two_models : ∃ s,
    (balancing .release f64Max twoGpus).Reachable s ∧
    s.2.map (fun v => (v.call.model, v.first)) =
      [("llama3.2:1b", some "gpu0"), ("llama3.2:3b", some "gpu1"), ("llama3.2:3b", some "gpu0"),
        ("llama3.2:1b", some "gpu1"), ("llama3.2:1b", some "gpu0"), ("llama3.2:3b", some "gpu1")] ∧
    EvenlyServed twoGpus s.2 ∧
    (∃ s', (balancing .release f64Max twoGpus).step s (callFor "llama3.2:3b") = some s' ∧
      EvenlyServed twoGpus s'.2) ∧
    ∃ s', (balancing .release f64Max twoGpus).step s (callFor "llama3.2:1b") = some s' ∧
      ¬ EvenlyServed twoGpus s'.2 := by
  have hrun : ((balancing .release f64Max twoGpus).run
      (fun s call => VramInRange twoGpus call.model ∧ OrderKept f64Max twoGpus s call ∧
        InTurn twoGpus s call) (0, []) sixCalls).map
      (fun s => (s.2.map fun v => (v.call.model, v.first),
        decide (OrderKept f64Max twoGpus s (callFor "llama3.2:3b") ∧
          InTurn twoGpus s (callFor "llama3.2:3b")),
        decide (OrderKept f64Max twoGpus s (callFor "llama3.2:1b") ∧
          ¬ InTurn twoGpus s (callFor "llama3.2:1b")))) =
      some ([("llama3.2:1b", some "gpu0"), ("llama3.2:3b", some "gpu1"),
        ("llama3.2:3b", some "gpu0"), ("llama3.2:1b", some "gpu1"), ("llama3.2:1b", some "gpu0"),
        ("llama3.2:3b", some "gpu1")], true, true) := by
    decide +kernel
  have hinit : (balancing .release f64Max twoGpus).init (0, []) := ⟨trivial, rfl⟩
  obtain ⟨s, -, hreached, hvalue⟩ := System.exists_reachedBy_of_run (.init hinit) hrun
  simp only [Prod.mk.injEq, decide_eq_true_eq] at hvalue
  obtain ⟨hfirst, ⟨horder, hturn⟩, ⟨horder', hturn'⟩⟩ := hvalue
  obtain ⟨heven, hnext⟩ := evenlyServed_of_inTurn .release f64Max twoGpus (by decide) s hreached
  refine ⟨s, hreached.reachable, hfirst, heven, ⟨_, rfl, ?_⟩, ⟨_, rfl, ?_⟩⟩
  · exact (hnext (callFor "llama3.2:3b") _ (by decide) horder rfl).mpr hturn
  · exact fun h => hturn' ((hnext (callFor "llama3.2:1b") _ (by decide) horder' rfl).mp h)

end InferPlatform.Gateway
