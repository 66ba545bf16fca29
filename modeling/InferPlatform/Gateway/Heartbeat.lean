import InferPlatform.Agent.RegisterLoop
import InferPlatform.Gateway.Roster
import Mathlib.Algebra.Order.Ring.Int
import Mathlib.Tactic.Ring

/-!
# Heartbeats

The registration loop of one agent beside the registry that it registers with: the
loop's requests, whatever else the gateway does (registrations of other agents, probes,
sweeps), and the time that passes between them.

* `heartbeats` — the agent and the gateway as a system;
* `fresh_of_timely` — **an agent whose failures in a row are few enough is never swept**;
* `registered_again` — **after any outage the agent is registered again in two minutes
  and two requests**.
-/

namespace InferPlatform.Gateway

open Agent

/-! ## The system -/

/-- Where the loop stands. `handled` says whether the gateway has handled the request
that is under way. -/
inductive LoopPc
  | sending (since : Int) (handled : Bool)
  | sleeping (due : Int)
  deriving DecidableEq, Repr

/-- Times are in microseconds, on one clock. -/
structure HeartbeatState where
  registry : RegistryState
  loop : RegisterLoop
  pc : LoopPc
  clock : Int
  deriving DecidableEq

inductive HeartbeatAction
  | elapse (time : Int)
  | send
  | handle (id : String) (upsert : Outcome)
  | receive (reply : Reply)
  | registry (a : RegistryAction)
  deriving DecidableEq, Repr

/-- The clock readings of a gateway action are readings of this clock. -/
def RegistryAction.ReadsClock (clock : Int) : RegistryAction → Prop
  | .register _ input => input.lastSeen = clock
  | .sweep now _ => now = clock
  | _ => True

instance (clock : Int) : (a : RegistryAction) → Decidable (a.ReadsClock clock)
  | .register _ input => inferInstanceAs (Decidable (input.lastSeen = clock))
  | .sweep now _ => inferInstanceAs (Decidable (now = clock))
  | .tick _ | .ping _ _ | .recordProbe _ _ | .countFailures _ | .updateStatus _ =>
    inferInstanceAs (Decidable True)

/-- A request ends after ten seconds at the latest, and succeeds only where the gateway
has handled it. The gateway may handle a request whose answer is lost. -/
def heartbeatStep (agent : Registrant) (st : HeartbeatState) :
    HeartbeatAction → Option HeartbeatState
  | .elapse time =>
    if time < st.clock then none
    else
      match st.pc with
      | .sending since _ => if time ≤ since + 10000000 then some { st with clock := time } else none
      | .sleeping _ => some { st with clock := time }
  | .send =>
    match st.pc with
    | .sleeping due => if due ≤ st.clock then some { st with pc := .sending st.clock false } else none
    | .sending _ _ => none
  | .handle id upsert =>
    match st.pc with
    | .sending since false =>
      let input : RegisterInput := ⟨id, st.clock, st.clock, upsert, []⟩
      if st.registry.store.Fresh id then
        let store := (register st.registry.store agent.payload input).1
        some { st with registry := { st.registry with store }, pc := .sending since true }
      else none
    | _ => none
  | .receive reply =>
    match st.pc with
    | .sending _ handled =>
      if reply.success ∧ ¬ handled then none
      else
        let (loop, secs) := st.loop.after reply
        some { st with loop, pc := .sleeping (st.clock + 1000000 * secs.toNat) }
    | .sleeping _ => none
  | .registry a =>
    if a.ReadsClock st.clock then
      (registryStep st.registry a).map fun registry => { st with registry }
    else none

/-- An agent and a gateway from the start of both. -/
def heartbeats (agent : Registrant) : System HeartbeatState HeartbeatAction where
  init st := registry.init st.registry ∧ st.loop = .start ∧ st.pc = .sleeping st.clock
  step := heartbeatStep agent

/-- What is noted of a run: when the last request that succeeded was sent, and the
failures since. -/
structure Beats where
  registered : Option Int
  failures : Nat
  deriving DecidableEq, Repr

def noteBeat (beats : Beats) (st : HeartbeatState) (a : HeartbeatAction) (_ : HeartbeatState) :
    Beats :=
  match a, st.pc with
  | .receive reply, .sending since _ =>
    if reply.success then ⟨some since, 0⟩ else { beats with failures := beats.failures + 1 }
  | _, _ => beats

/-- The system, and the notes. -/
abbrev notedBeats (agent : Registrant) : System (HeartbeatState × Beats) HeartbeatAction :=
  (heartbeats agent).observed ⟨none, 0⟩ noteBeat

/-- What a step does. -/
inductive HeartbeatMove (agent : Registrant) (st : HeartbeatState) :
    HeartbeatAction → HeartbeatState → Prop
  | elapse {time : Int} (hclock : st.clock ≤ time)
      (htimeout : ∀ since handled, st.pc = .sending since handled → time ≤ since + 10000000) :
      HeartbeatMove agent st (.elapse time) { st with clock := time }
  | send {due : Int} (hpc : st.pc = .sleeping due) (hdue : due ≤ st.clock) :
      HeartbeatMove agent st .send { st with pc := .sending st.clock false }
  | handle {id : String} {upsert : Outcome} {since : Int} (hpc : st.pc = .sending since false)
      (hfresh : st.registry.store.Fresh id) :
      HeartbeatMove agent st (.handle id upsert) { st with
        registry := { st.registry with
          store := (register st.registry.store agent.payload
            ⟨id, st.clock, st.clock, upsert, []⟩).1 }
        pc := .sending since true }
  | receive {reply : Reply} {since : Int} {handled : Bool} (hpc : st.pc = .sending since handled)
      (hhandled : reply.success = true → handled = true) :
      HeartbeatMove agent st (.receive reply) { st with
        loop := (st.loop.after reply).1
        pc := .sleeping (st.clock + 1000000 * (st.loop.after reply).2.toNat) }
  | registry {a : RegistryAction} {next : RegistryState} (hreads : a.ReadsClock st.clock)
      (hmove : RegistryMove st.registry a next) :
      HeartbeatMove agent st (.registry a) { st with registry := next }

theorem heartbeatMove_of_step {agent : Registrant} {st st' : HeartbeatState} {a : HeartbeatAction}
    (h : heartbeatStep agent st a = some st') : HeartbeatMove agent st a st' := by
  cases a with
  | elapse time =>
      simp only [heartbeatStep] at h
      split at h
      · cases h
      · rename_i hclock
        split at h
        · rename_i since handled hpc
          split at h
          · rename_i htime
            cases h
            refine .elapse (by omega) ?_
            intro since' handled' hpc'
            rw [hpc] at hpc'
            cases hpc'
            exact htime
          · cases h
        · rename_i due hpc
          cases h
          refine .elapse (by omega) ?_
          intro since handled hpc'
          rw [hpc] at hpc'
          cases hpc'
  | send =>
      simp only [heartbeatStep] at h
      split at h
      · rename_i due hpc
        split at h
        · rename_i hdue
          cases h
          exact .send hpc hdue
        · cases h
      · cases h
  | handle id upsert =>
      simp only [heartbeatStep] at h
      split at h
      · rename_i since hpc
        split at h
        · rename_i hfresh
          cases h
          exact .handle hpc hfresh
        · cases h
      · cases h
  | receive reply =>
      simp only [heartbeatStep] at h
      split at h
      · rename_i since handled hpc
        split at h
        · cases h
        · rename_i hhandled
          cases h
          refine .receive hpc ?_
          intro hsuccess
          simpa [hsuccess] using hhandled
      · cases h
  | registry a =>
      simp only [heartbeatStep] at h
      split at h
      · rename_i hreads
        obtain ⟨next, hnext, rfl⟩ := Option.map_eq_some_iff.mp h
        exact .registry hreads (registryMove_of_step hnext)
      · cases h

/-! ## What the gateway keeps of a heartbeat -/

/-- When the node of a name was last seen. -/
def lastSeenOf (nodes : List NodeInfo) (name : String) : Option Int :=
  (nodes.find? fun n => n.name = name).map (·.lastSeen)

/-- The node of the name was seen at `t` or later. -/
def SeenSince (name : String) (t : Int) (st : NodeStore) : Prop :=
  ∃ u, lastSeenOf st.roster name = some u ∧ t ≤ u

@[simp] theorem lastSeenOf_setWhere (p : NodeInfo → Prop) [DecidablePred p] (status : NodeStatus)
    (nodes : List NodeInfo) (name : String) :
    lastSeenOf (setWhere p status nodes) name = lastSeenOf nodes name := by
  have hname : (fun n : NodeInfo => decide (n.name = name)) ∘
      (fun n => if p n then { n with status } else n) = fun n => decide (n.name = name) := by
    funext n
    show decide ((if p n then { n with status } else n).name = name) = decide (n.name = name)
    split <;> rfl
  rw [lastSeenOf, setWhere, List.find?_map, hname, Option.map_map]
  show _ = (nodes.find? _).map _
  congr 1
  funext n
  show (if p n then { n with status } else n).lastSeen = n.lastSeen
  split <;> rfl

@[simp] theorem lastSeenOf_setNodeStatus (id : String) (status : NodeStatus)
    (nodes : List NodeInfo) (name : String) :
    lastSeenOf (setNodeStatus id status nodes) name = lastSeenOf nodes name := by
  induction nodes with
  | nil => rfl
  | cons n nodes ih =>
      unfold lastSeenOf at ih ⊢
      rw [setNodeStatus]
      by_cases hid : n.id = id
      · by_cases hname : n.name = name <;> simp [hid, hname]
      · by_cases hname : n.name = name
        · simp [hid, hname]
        · simpa [hid, hname] using ih

theorem lastSeenOf_upsertBy (st : NodeStore) (node : NodeInfo) (name : String) :
    lastSeenOf (upsertBy (·.name) st.merge node st.roster) name =
      if node.name = name then some node.lastSeen else lastSeenOf st.roster name := by
  unfold lastSeenOf
  rw [find?_upsertBy (merge_name st)]
  split
  · cases st.roster.find? fun n => n.name = name with
    | none => rfl
    | some old =>
        show some (st.merge old node).lastSeen = some node.lastSeen
        unfold NodeStore.merge
        split <;> rfl
  · rfl

/-- A registration with any answers to its statements is an upsert of the roster or
leaves it. -/
theorem roster_register_cases {st : NodeStore} (req : RegisterNodeRequest)
    {input : RegisterInput} (hfresh : st.Fresh input.id) :
    (register st req input).1.roster = st.roster ∨
      (register st req input).1.roster =
        upsertBy (·.name) st.merge (newNode req input) st.roster := by
  by_cases haccepted : findViolations req.models = []
  · cases hdb : st.db with
    | none =>
        exact .inr (roster_register haccepted (fun hne => absurd hdb hne) hfresh)
    | some db =>
        cases hupsert : input.upsert with
        | ok => exact .inr (roster_register haccepted (fun _ => hupsert) hfresh)
        | failed =>
            left
            cases hrow : db.nodes.upsert (newNode req input) <;>
              simp [register, haccepted, hdb, hupsert, hrow, NodeStore.roster]
        | lost =>
            -- the statement was done, as in a registration that is answered
            have hok : (register st req input).1.roster =
                (register st req { input with upsert := .ok }).1.roster := by
              have hnode : newNode req { input with upsert := .ok } = newNode req input := rfl
              cases hrow : db.nodes.upsert (newNode req input) <;>
                simp [register, haccepted, hdb, hupsert, hnode, hrow, NodeStore.roster]
            have hupserted : (register st req { input with upsert := .ok }).1.roster =
                upsertBy (·.name) st.merge (newNode req input) st.roster :=
              roster_register haccepted (fun _ => rfl) hfresh
            exact .inr (hok.trans hupserted)
  · exact .inl (congrArg NodeStore.roster (register_rejected haccepted))

/-- **Only registrations move `last_seen`**, to their reading of the clock. -/
theorem lastSeenOf_move {st st' : RegistryState} {a : RegistryAction} (name : String)
    (hmove : RegistryMove st a st') :
    lastSeenOf st'.store.roster name = lastSeenOf st.store.roster name ∨
      ∃ req input, a = .register req input ∧
        lastSeenOf st'.store.roster name = some input.lastSeen := by
  cases hmove with
  | @register req input hfresh =>
      show lastSeenOf (register st.store req input).1.roster name = _ ∨ _
      rcases roster_register_cases req hfresh with hsame | hupsert
      · exact .inl (by rw [hsame])
      · rw [hupsert, lastSeenOf_upsertBy]
        split
        · exact .inr ⟨req, input, rfl, rfl⟩
        · exact .inl rfl
  | @sweep now o =>
      left
      show lastSeenOf (sweep st.store now o).roster name = _
      by_cases ho : st.store.db ≠ none → o ≠ .failed
      · rw [roster_sweep ho, lastSeenOf_setWhere]
      · push Not at ho
        rw [ho.2, sweep_failed ho.1]
  | tick | pingDb | drop | count | updateFailed => exact .inl rfl
  | @pingMemory success latencyMs target queue hpc hdb =>
      left
      have hroster : NodeStore.roster { st.store with
            nodes := (probeMemory st.store.nodes st.failureCounts target.id success).1 } =
          (probeMemory st.store.nodes st.failureCounts target.id success).1 :=
        roster_of_memory hdb
      rw [hroster, roster_of_memory hdb]
      cases success <;> simp [probeMemory]
  | @record checkedAt o target success latencyMs queue db db' hpc hdb hrecord ho =>
      left
      rw [roster_of_db rfl, roster_of_db hdb, (recordProbe_eq_some hrecord).2]
  | @update o target consec queue db hpc hdb ho =>
      left
      rw [roster_updateNodeStatus hdb, lastSeenOf_setWhere]

theorem SeenSince.mono {name : String} {t t' : Int} {st : NodeStore} (h : SeenSince name t' st)
    (hle : t ≤ t') : SeenSince name t st := by
  obtain ⟨u, hu, hlate⟩ := h
  exact ⟨u, hu, hle.trans hlate⟩

/-- What the rest of the gateway does keeps a node seen. -/
theorem SeenSince.move {name : String} {t clock : Int} {st st' : RegistryState}
    {a : RegistryAction} (h : SeenSince name t st.store) (hmove : RegistryMove st a st')
    (hreads : a.ReadsClock clock) (ht : t ≤ clock) : SeenSince name t st'.store := by
  rcases lastSeenOf_move name hmove with hsame | ⟨req, input, rfl, hnew⟩
  · obtain ⟨u, hu, hlate⟩ := h
    exact ⟨u, hsame.trans hu, hlate⟩
  · have hreading : input.lastSeen = clock := hreads
    exact ⟨clock, by rw [hnew, hreading], ht⟩

/-- A registration whose statement succeeds is seen. -/
theorem seenSince_register {req : RegisterNodeRequest} (haccepted : findViolations req.models = [])
    (clock : Int) {st : NodeStore} {id : String} (hfresh : st.Fresh id) :
    SeenSince req.name clock (register st req ⟨id, clock, clock, .ok, []⟩).1 := by
  refine ⟨clock, ?_, le_refl _⟩
  rw [roster_register haccepted (fun _ => rfl) hfresh, lastSeenOf_upsertBy]
  exact if_pos rfl

/-- A sweep leaves a node as it is that was seen in the last ninety seconds. -/
theorem find?_sweep_of_fresh {st : NodeStore} {name : String} {clock : Int} {n : NodeInfo}
    (hfind : (st.roster.find? fun n => n.name = name) = some n)
    (hfresh : clock - 90000000 ≤ n.lastSeen) (o : Outcome) :
    ((sweep st clock o).roster.find? fun n => n.name = name) = some n := by
  by_cases ho : st.db ≠ none → o ≠ .failed
  · rw [roster_sweep ho, setWhere, List.find?_map]
    have hname : (fun n : NodeInfo => decide (n.name = name)) ∘
        (fun n => if n.lastSeen < clock - 90000000 then { n with status := .offline } else n) =
        fun n => decide (n.name = name) := by
      funext m
      show decide ((if m.lastSeen < clock - 90000000 then { m with status := .offline }
        else m).name = name) = decide (m.name = name)
      split <;> rfl
    rw [hname, hfind]
    show some (if n.lastSeen < clock - 90000000 then { n with status := .offline } else n) = some n
    rw [if_neg (by omega)]
  · push Not at ho
    rw [ho.2, sweep_failed ho.1]
    exact hfind

/-- What the sweep then makes of the node. -/
theorem SeenSince.swept {name : String} {t clock : Int} {st : NodeStore} (h : SeenSince name t st)
    (hclock : clock ≤ t + 90000000) :
    ∃ n, (st.roster.find? fun n => n.name = name) = some n ∧ clock - 90000000 ≤ n.lastSeen ∧
      ∀ o, ((sweep st clock o).roster.find? fun n => n.name = name) = some n := by
  obtain ⟨u, hu, hlate⟩ := h
  obtain ⟨n, hn, rfl⟩ := Option.map_eq_some_iff.mp hu
  have hfresh : clock - 90000000 ≤ n.lastSeen := by omega
  exact ⟨n, hn, hfresh, find?_sweep_of_fresh hn hfresh⟩

/-! ## An agent that is heard in time -/

/-- What is asked of a run: no more failures in a row, and requests and wake-ups no
later than so many microseconds. -/
structure Limits where
  failures : Nat
  request : Nat
  delay : Nat
  deriving DecidableEq, Repr

/-- How old a registration can be when the loop has gone to sleep after `failures`
failures. -/
def Limits.due (limits : Limits) (failures : Nat) : Int :=
  30000000 + (failures + 1) * limits.request + failures * limits.delay +
    1000000 * Backoff.total 2 120 failures

/-- How old it can be at all. -/
def Limits.age (limits : Limits) : Int :=
  limits.due limits.failures + limits.delay + limits.request

/-- A run within limits: time stands still where the loop would be late, the statement
of every heartbeat succeeds, and so does a request after enough failures. -/
def Timely (limits : Limits) (s : HeartbeatState × Beats) : HeartbeatAction → Prop
  | .elapse time =>
    match s.1.pc with
    | .sending since _ => time ≤ since + limits.request
    | .sleeping due => time ≤ due + limits.delay
  | .handle _ upsert => upsert = .ok
  | .receive reply => reply.success = true ∨ s.2.failures < limits.failures
  | .send | .registry _ => True

instance (limits : Limits) (s : HeartbeatState × Beats) :
    (a : HeartbeatAction) → Decidable (Timely limits s a)
  | .elapse time =>
    match hpc : s.1.pc with
    | .sending since _ =>
      decidable_of_iff (time ≤ since + limits.request) (by simp [Timely, hpc])
    | .sleeping due => decidable_of_iff (time ≤ due + limits.delay) (by simp [Timely, hpc])
  | .handle _ upsert => inferInstanceAs (Decidable (upsert = .ok))
  | .receive reply =>
    inferInstanceAs (Decidable (reply.success = true ∨ s.2.failures < limits.failures))
  | .send | .registry _ => inferInstanceAs (Decidable True)

/-- The invariant of a run within limits. -/
structure HeardInTime (limits : Limits) (agent : Registrant) (s : HeartbeatState × Beats) :
    Prop where
  waits : s.1.loop.Waits s.2.failures
  failures : s.2.failures ≤ limits.failures
  registered : ∀ b ∈ s.2.registered, b ≤ s.1.clock ∧
    SeenSince agent.nodeName b s.1.registry.store
  sending : ∀ since handled, s.1.pc = .sending since handled →
    since ≤ s.1.clock ∧ s.1.clock ≤ since + limits.request ∧
      (handled = true → SeenSince agent.nodeName since s.1.registry.store) ∧
      ∀ b ∈ s.2.registered, since ≤ b + limits.due s.2.failures + limits.delay
  sleeping : ∀ due, s.1.pc = .sleeping due →
    s.1.clock ≤ due + limits.delay ∧ ∀ b ∈ s.2.registered, due ≤ b + limits.due s.2.failures

theorem Limits.due_succ (limits : Limits) (failures : Nat) :
    limits.due (failures + 1) = limits.due failures + limits.delay + limits.request +
      1000000 * (backoff failures : Int) := by
  have htotal : Backoff.total 2 120 (failures + 1) =
      Backoff.total 2 120 failures + backoff failures := Backoff.total_succ failures
  unfold due
  rw [htotal]
  push_cast
  ring

theorem Limits.due_mono (limits : Limits) {n m : Nat} (h : n ≤ m) : limits.due n ≤ limits.due m := by
  have htotal : Backoff.total 2 120 n ≤ Backoff.total 2 120 m := Backoff.total_mono h
  unfold due
  have hrequest : (n : Int) * limits.request ≤ m * limits.request :=
    mul_le_mul_of_nonneg_right (by exact_mod_cast h) (Int.natCast_nonneg _)
  have hdelay : (n : Int) * limits.delay ≤ m * limits.delay :=
    mul_le_mul_of_nonneg_right (by exact_mod_cast h) (Int.natCast_nonneg _)
  rw [add_mul, add_mul]
  omega

theorem heardInTime_init {limits : Limits} {agent : Registrant} {s : HeartbeatState × Beats}
    (h : (notedBeats agent).init s) : HeardInTime limits agent s := by
  obtain ⟨⟨-, hloop, hpc⟩, hbeats⟩ := h
  refine ⟨?_, ?_, ?_, ?_, ?_⟩
  · rw [hloop, hbeats]
    exact RegisterLoop.waits_start
  · rw [hbeats]
    exact Nat.zero_le _
  · rw [hbeats]
    rintro b ⟨⟩
  · intro since handled hsending
    rw [hpc] at hsending
    cases hsending
  · intro due hsleeping
    rw [hpc] at hsleeping
    cases hsleeping
    refine ⟨by omega, ?_⟩
    rw [hbeats]
    rintro b ⟨⟩

/-- Where no reply comes in, the notes stay. -/
theorem noteBeat_of_ne {beats : Beats} {st st' : HeartbeatState} {a : HeartbeatAction}
    (h : ∀ reply, a ≠ .receive reply) : noteBeat beats st a st' = beats := by
  cases a with
  | receive reply => exact absurd rfl (h reply)
  | elapse | send | handle | registry => rfl

theorem noteBeat_receive {beats : Beats} {st st' : HeartbeatState} {reply : Reply} {since : Int}
    {handled : Bool} (hpc : st.pc = .sending since handled) :
    noteBeat beats st (.receive reply) st' =
      if reply.success then ⟨some since, 0⟩ else { beats with failures := beats.failures + 1 } := by
  simp [noteBeat, hpc]

theorem heardInTime_step {limits : Limits} {agent : Registrant} {s s' : HeartbeatState × Beats}
    {a : HeartbeatAction} (hinv : HeardInTime limits agent s) (hallowed : Timely limits s a)
    (hstep : (notedBeats agent).step s a = some s') : HeardInTime limits agent s' := by
  obtain ⟨hnext, hnotes⟩ := System.observed_step hstep
  obtain ⟨st, beats⟩ := s
  obtain ⟨st', beats'⟩ := s'
  dsimp only at hnext hnotes
  cases heartbeatMove_of_step hnext with
  | @elapse time hclock htimeout =>
      obtain rfl : beats' = beats := hnotes.trans (noteBeat_of_ne (by simp))
      refine ⟨hinv.waits, hinv.failures, ?_, ?_, ?_⟩
      · intro b hb
        exact ⟨(hinv.registered b hb).1.trans hclock, (hinv.registered b hb).2⟩
      · intro since handled hpc
        obtain ⟨hsince, -, hseen, hbound⟩ := hinv.sending since handled hpc
        have hpc' : st.pc = .sending since handled := hpc
        have hlimit : time ≤ since + limits.request := by simpa [Timely, hpc'] using hallowed
        exact ⟨hsince.trans hclock, hlimit, hseen, hbound⟩
      · intro due hpc
        have hpc' : st.pc = .sleeping due := hpc
        have hlimit : time ≤ due + limits.delay := by simpa [Timely, hpc'] using hallowed
        exact ⟨hlimit, (hinv.sleeping due hpc).2⟩
  | @send due hpc hdue =>
      obtain rfl : beats' = beats := hnotes.trans (noteBeat_of_ne (by simp))
      obtain ⟨hclock, hbound⟩ := hinv.sleeping due hpc
      refine ⟨hinv.waits, hinv.failures, hinv.registered, ?_, ?_⟩
      · rintro since handled ⟨⟩
        refine ⟨le_refl _, by show st.clock ≤ _; omega, by simp, ?_⟩
        intro b hb
        have hb' := hbound b hb
        show st.clock ≤ _
        dsimp only at hclock hb' ⊢
        omega
      · rintro due' ⟨⟩
  | @handle id upsert since hpc hfresh =>
      obtain rfl : beats' = beats := hnotes.trans (noteBeat_of_ne (by simp))
      obtain rfl : upsert = .ok := hallowed
      have haccepted : findViolations agent.payload.models = [] := rfl
      have hseen := seenSince_register haccepted st.clock hfresh
      obtain ⟨hsince, hlimit, -, hbound⟩ := hinv.sending since false hpc
      refine ⟨hinv.waits, hinv.failures, ?_, ?_, ?_⟩
      · intro b hb
        exact ⟨(hinv.registered b hb).1, hseen.mono (hinv.registered b hb).1⟩
      · rintro since' handled ⟨⟩
        exact ⟨hsince, hlimit, fun _ => hseen.mono hsince, hbound⟩
      · rintro due ⟨⟩
  | @receive reply since handled hpc hhandled =>
      obtain ⟨hsince, hlimit, hseen, hbound⟩ := hinv.sending since handled hpc
      dsimp only at hsince hlimit hbound
      rw [noteBeat_receive hpc] at hnotes
      cases hreply : reply.success with
      | true =>
          obtain ⟨hwaits, -, hsleep⟩ := RegisterLoop.Waits.succeeded st.loop hreply
          rw [if_pos hreply] at hnotes
          subst hnotes
          refine ⟨hwaits, Nat.zero_le _, ?_, by rintro _ _ ⟨⟩, ?_⟩
          · rintro b ⟨⟩
            exact ⟨hsince, hseen (hhandled hreply)⟩
          · rintro due ⟨⟩
            rw [hsleep]
            have hsecs : ((30 : UInt64).toNat : Int) = 30 := rfl
            refine ⟨by show st.clock ≤ _; omega, ?_⟩
            rintro b ⟨⟩
            have hzero : limits.due 0 = 30000000 + limits.request := by simp [Limits.due]
            show st.clock + _ ≤ since + limits.due 0
            omega
      | false =>
          obtain ⟨hwaits, -, hsleep⟩ := hinv.waits.failed hreply
          rw [if_neg (by simp [hreply])] at hnotes
          subst hnotes
          have hfew : beats.failures < limits.failures := by simpa [Timely, hreply] using hallowed
          refine ⟨hwaits, hfew, hinv.registered, by rintro _ _ ⟨⟩, ?_⟩
          rintro due ⟨⟩
          rw [hsleep]
          refine ⟨by show st.clock ≤ _; omega, ?_⟩
          intro b hb
          have hsucc := limits.due_succ beats.failures
          have hb' := hbound b hb
          show st.clock + _ ≤ b + limits.due (beats.failures + 1)
          push_cast
          omega
  | @registry a next hreads hmove =>
      obtain rfl : beats' = beats := hnotes.trans (noteBeat_of_ne (by simp))
      refine ⟨hinv.waits, hinv.failures, ?_, ?_, hinv.sleeping⟩
      · intro b hb
        obtain ⟨hle, hseen⟩ := hinv.registered b hb
        exact ⟨hle, hseen.move hmove hreads hle⟩
      · intro since handled hpc
        obtain ⟨hsince, hlimit, hseen, hbound⟩ := hinv.sending since handled hpc
        exact ⟨hsince, hlimit, fun h => (hseen h).move hmove hreads hsince, hbound⟩

/-- Within limits, a registration is never older than `age`. -/
theorem HeardInTime.registered_le {limits : Limits} {agent : Registrant}
    {s : HeartbeatState × Beats} (hinv : HeardInTime limits agent s) {b : Int}
    (hb : s.2.registered = some b) : s.1.clock ≤ b + limits.age := by
  have hdue := limits.due_mono hinv.failures
  unfold Limits.age
  cases hpc : s.1.pc with
  | sending since handled =>
      obtain ⟨-, hclock, -, hbound⟩ := hinv.sending since handled hpc
      have hb' := hbound b hb
      omega
  | sleeping due =>
      obtain ⟨hclock, hbound⟩ := hinv.sleeping due hpc
      have hb' := hbound b hb
      omega

/-- **An agent that is heard in time is never swept**: where the limits let a
registration grow no older than ninety seconds, from the first success on every sweep
finds the node and leaves it as it is. -/
theorem fresh_of_timely {limits : Limits} (hage : limits.age ≤ 90000000) {agent : Registrant}
    {s : HeartbeatState × Beats} (h : (notedBeats agent).ReachedBy (Timely limits) s)
    (hbeat : s.2.registered ≠ none) :
    ∃ n, (s.1.registry.store.roster.find? fun n => n.name = agent.nodeName) = some n ∧
      s.1.clock - 90000000 ≤ n.lastSeen ∧
      ∀ o, ((sweep s.1.registry.store s.1.clock o).roster.find? fun n =>
        n.name = agent.nodeName) = some n := by
  have hinv : HeardInTime limits agent s :=
    h.invariant _ (fun _ h => heardInTime_init h) fun _ _ _ h => heardInTime_step h
  obtain ⟨b, hb⟩ := Option.ne_none_iff_exists'.mp hbeat
  have hclock := hinv.registered_le hb
  exact (hinv.registered b hb).2.swept (by omega)

/-! ## Two failures, and a third -/

def sampleAgent : Registrant := ⟨"gpu-1", some "10.0.0.1", 11434, 8181, "RTX 4090", 24576⟩

def heartbeatStart : HeartbeatState := ⟨startState none, .start, .sleeping 0, 0⟩

/-- A heartbeat that the gateway answers at once. -/
def beat (time : Int) (id : String) : List HeartbeatAction :=
  [.elapse time, .send, .handle id .ok, .receive (.response 201)]

/-- A request that is sent at a time and gets no answer. -/
def unanswered (time : Int) : List HeartbeatAction :=
  [.elapse time, .send, .elapse (time + 10000000), .receive .unreachable]

/-- Two requests in a row may time out. -/
theorem fresh_of_timely_two_failures : ∃ s,
    (notedBeats sampleAgent).run (Timely ⟨2, 10000000, 4000000⟩) (heartbeatStart, ⟨none, 0⟩)
      (beat 0 "node-1" ++ unanswered 30000000 ++ unanswered 46000000 ++
        [.elapse 64000000, .send, .elapse 74000000]) = some s ∧
      s.1.clock = 74000000 ∧
      ∃ n, (s.1.registry.store.roster.find? fun n => n.name = sampleAgent.nodeName) = some n ∧
        s.1.clock - 90000000 ≤ n.lastSeen ∧
        ∀ o, ((sweep s.1.registry.store s.1.clock o).roster.find? fun n =>
          n.name = sampleAgent.nodeName) = some n := by
  have hrun : ((notedBeats sampleAgent).run (Timely ⟨2, 10000000, 4000000⟩)
      (heartbeatStart, ⟨none, 0⟩)
      (beat 0 "node-1" ++ unanswered 30000000 ++ unanswered 46000000 ++
        [.elapse 64000000, .send, .elapse 74000000])).map
        (fun s => (s.1.clock, s.2)) = some (74000000, ⟨some 0, 2⟩) := by decide +kernel
  have hinit : (notedBeats sampleAgent).init (heartbeatStart, ⟨none, 0⟩) :=
    ⟨⟨⟨rfl, rfl, rfl⟩, rfl, rfl⟩, rfl⟩
  obtain ⟨s, hs, hreached, hvalue⟩ := System.exists_reachedBy_of_run (.init hinit) hrun
  injection hvalue with hclock hbeats
  have hage : Limits.age ⟨2, 10000000, 4000000⟩ ≤ 90000000 := by decide
  exact ⟨s, hs, hclock, fresh_of_timely hage hreached (by simp [hbeats])⟩

/-- A third may not: the sweep finds a node stale that is about to be heard again. -/
theorem third_failure_swept : ∃ s,
    (notedBeats sampleAgent).ReachedBy (Timely ⟨3, 10000000, 0⟩) s ∧ s.2.registered ≠ none ∧
      (sweep s.1.registry.store s.1.clock .ok).roster.map (·.status) = [.offline] := by
  have hrun : ((notedBeats sampleAgent).run (Timely ⟨3, 10000000, 0⟩)
      (heartbeatStart, ⟨none, 0⟩)
      ([.send, .handle "node-1" .ok, .elapse 10000000, .receive (.response 201)] ++
        unanswered 40000000 ++ unanswered 52000000 ++ unanswered 66000000 ++
        [.elapse 84000000, .send, .elapse 90000001])).map
        (fun s => (s.2, (sweep s.1.registry.store s.1.clock .ok).roster.map (·.status))) =
          some (⟨some 0, 3⟩, [.offline]) := by decide +kernel
  have hinit : (notedBeats sampleAgent).init (heartbeatStart, ⟨none, 0⟩) :=
    ⟨⟨⟨rfl, rfl, rfl⟩, rfl, rfl⟩, rfl⟩
  obtain ⟨s, -, hreached, hvalue⟩ := System.exists_reachedBy_of_run (.init hinit) hrun
  injection hvalue with hbeats hstatus
  exact ⟨s, hreached, by simp [hbeats], hstatus⟩

/-! ## An agent after an outage -/

/-- From `t` on, wake-ups are prompt, the statement of every heartbeat succeeds, and so
does every request that is sent later. -/
def Recovering (delay : Nat) (t : Int) (st : HeartbeatState) : HeartbeatAction → Prop
  | .elapse time =>
    match st.pc with
    | .sending _ _ => True
    | .sleeping due => time ≤ due + delay
  | .handle _ upsert => upsert = .ok
  | .receive reply =>
    match st.pc with
    | .sending since _ => t < since → reply.success = true
    | .sleeping _ => True
  | .send | .registry _ => True

instance (delay : Nat) (t : Int) (st : HeartbeatState) :
    (a : HeartbeatAction) → Decidable (Recovering delay t st a)
  | .elapse time =>
    match hpc : st.pc with
    | .sending _ _ => decidable_of_iff True (by simp [Recovering, hpc])
    | .sleeping due => decidable_of_iff (time ≤ due + delay) (by simp [Recovering, hpc])
  | .receive reply =>
    match hpc : st.pc with
    | .sending since _ =>
      decidable_of_iff (t < since → reply.success = true) (by simp [Recovering, hpc])
    | .sleeping _ => decidable_of_iff True (by simp [Recovering, hpc])
  | .handle _ upsert => inferInstanceAs (Decidable (upsert = .ok))
  | .send | .registry _ => inferInstanceAs (Decidable True)

/-- What holds of the loop in any run. -/
structure LoopBounded (st : HeartbeatState) : Prop where
  waits : ∃ failures, st.loop.Waits failures
  sending : ∀ since handled, st.pc = .sending since handled →
    since ≤ st.clock ∧ st.clock ≤ since + 10000000
  sleeping : ∀ due, st.pc = .sleeping due → due ≤ st.clock + 120000000

/-- No sleep is longer than two minutes. -/
theorem after_le {loop : RegisterLoop} {failures : Nat} (h : loop.Waits failures) (reply : Reply) :
    (∃ failures', (loop.after reply).1.Waits failures') ∧ (loop.after reply).2.toNat ≤ 120 := by
  cases hreply : reply.success with
  | true =>
      obtain ⟨hwaits, -, hsleep⟩ := RegisterLoop.Waits.succeeded loop hreply
      refine ⟨⟨0, hwaits⟩, ?_⟩
      rw [hsleep]
      show 30 ≤ 120
      omega
  | false =>
      obtain ⟨hwaits, -, hsleep⟩ := h.failed hreply
      refine ⟨⟨_, hwaits⟩, ?_⟩
      rw [hsleep]
      exact Backoff.delay_le failures

theorem loopBounded_step {agent : Registrant} {st st' : HeartbeatState} {a : HeartbeatAction}
    (hinv : LoopBounded st) (hstep : (heartbeats agent).step st a = some st') :
    LoopBounded st' := by
  cases heartbeatMove_of_step hstep with
  | @elapse time hclock htimeout =>
      refine ⟨hinv.waits, ?_, ?_⟩
      · intro since handled hpc
        exact ⟨(hinv.sending since handled hpc).1.trans hclock, htimeout since handled hpc⟩
      · intro due hpc
        have hdue := hinv.sleeping due hpc
        show due ≤ time + 120000000
        omega
  | @send due hpc hdue =>
      refine ⟨hinv.waits, ?_, by rintro _ ⟨⟩⟩
      rintro since handled ⟨⟩
      exact ⟨le_refl _, by show st.clock ≤ _; omega⟩
  | @handle id upsert since hpc hfresh =>
      refine ⟨hinv.waits, ?_, by rintro _ ⟨⟩⟩
      rintro since' handled ⟨⟩
      exact hinv.sending since false hpc
  | @receive reply since handled hpc hhandled =>
      obtain ⟨failures, hwaits⟩ := hinv.waits
      obtain ⟨hnext, hsleep⟩ := after_le hwaits reply
      refine ⟨hnext, by rintro _ _ ⟨⟩, ?_⟩
      rintro due ⟨⟩
      show st.clock + 1000000 * ((st.loop.after reply).2.toNat : Int) ≤ st.clock + 120000000
      omega
  | registry hreads hmove => exact ⟨hinv.waits, hinv.sending, hinv.sleeping⟩

theorem loopBounded_of_reachable {agent : Registrant} {st : HeartbeatState}
    (h : (heartbeats agent).Reachable st) : LoopBounded st := by
  refine h.invariant LoopBounded ?_ fun _ _ _ h _ => loopBounded_step h
  rintro s ⟨-, hloop, hpc⟩
  refine ⟨⟨0, hloop ▸ RegisterLoop.waits_start⟩, ?_, ?_⟩
  · intro since handled hsending
    rw [hpc] at hsending
    cases hsending
  · intro due hsleeping
    rw [hpc] at hsleeping
    cases hsleeping
    omega

/-- The invariant of a recovery: until the node is seen, the next request is near. -/
structure Regaining (delay : Nat) (t : Int) (agent : Registrant) (st : HeartbeatState) : Prop where
  bounded : LoopBounded st
  clock : t ≤ st.clock
  sending : ∀ since handled, st.pc = .sending since handled →
    (t < since → handled = true → SeenSince agent.nodeName since st.registry.store) ∧
      (SeenSince agent.nodeName t st.registry.store ∨ since ≤ t + 130000000 + delay)
  sleeping : ∀ due, st.pc = .sleeping due →
    SeenSince agent.nodeName t st.registry.store ∨
      due ≤ t + 130000000 ∧ st.clock ≤ max t (due + delay)

theorem regaining_step {delay : Nat} {t : Int} {agent : Registrant} {st st' : HeartbeatState}
    {a : HeartbeatAction} (hinv : Regaining delay t agent st) (hallowed : Recovering delay t st a)
    (hstep : (heartbeats agent).step st a = some st') : Regaining delay t agent st' := by
  have hbounded := loopBounded_step hinv.bounded hstep
  cases heartbeatMove_of_step hstep with
  | @elapse time hclock htimeout =>
      refine ⟨hbounded, hinv.clock.trans hclock, hinv.sending, ?_⟩
      intro due hpc
      have hpc' : st.pc = .sleeping due := hpc
      have hlimit : time ≤ due + delay := by simpa [Recovering, hpc'] using hallowed
      rcases hinv.sleeping due hpc with hseen | ⟨hdue, -⟩
      · exact .inl hseen
      · exact .inr ⟨hdue, hlimit.trans (le_max_right _ _)⟩
  | @send due hpc hdue =>
      refine ⟨hbounded, hinv.clock, ?_, by rintro _ ⟨⟩⟩
      rintro since handled ⟨⟩
      refine ⟨by simp, ?_⟩
      rcases hinv.sleeping due hpc with hseen | ⟨hnear, hclock⟩
      · exact .inl hseen
      · right
        show st.clock ≤ t + 130000000 + delay
        omega
  | @handle id upsert since hpc hfresh =>
      obtain rfl : upsert = .ok := hallowed
      have haccepted : findViolations agent.payload.models = [] := rfl
      have hseen := seenSince_register haccepted st.clock hfresh
      refine ⟨hbounded, hinv.clock, ?_, by rintro _ ⟨⟩⟩
      rintro since' handled ⟨⟩
      have hsince := (hinv.bounded.sending since false hpc).1
      exact ⟨fun _ _ => hseen.mono hsince, .inl (hseen.mono hinv.clock)⟩
  | @receive reply since handled hpc hhandled =>
      obtain ⟨hnew, hseen⟩ := hinv.sending since handled hpc
      obtain ⟨hsince, hclock⟩ := hinv.bounded.sending since handled hpc
      refine ⟨hbounded, hinv.clock, by rintro _ _ ⟨⟩, ?_⟩
      intro due hdue
      by_cases hlater : t < since
      · have hsuccess : reply.success = true := by
          have := hallowed
          simp only [Recovering, hpc] at this
          exact this hlater
        exact .inl ((hnew hlater (hhandled hsuccess)).mono hlater.le)
      · -- a request from before `t`, over soon after it
        have hnear := hbounded.sleeping due hdue
        cases hdue
        dsimp only at hnear
        refine .inr ⟨by omega, ?_⟩
        show st.clock ≤ max t _
        omega
  | @registry a next hreads hmove =>
      refine ⟨hbounded, hinv.clock, ?_, ?_⟩
      · intro since handled hpc
        obtain ⟨hnew, hseen⟩ := hinv.sending since handled hpc
        have hsince := (hinv.bounded.sending since handled hpc).1
        exact ⟨fun hlater hhandled => (hnew hlater hhandled).move hmove hreads hsince,
          hseen.imp_left fun h => h.move hmove hreads hinv.clock⟩
      · intro due hpc
        exact (hinv.sleeping due hpc).imp_left fun h => h.move hmove hreads hinv.clock

/-- **After an outage of any length** the gateway hears of the agent again: 140 seconds
after the outage, and the delay of a wake-up, its node was seen since. -/
theorem registered_again {delay : Nat} {agent : Registrant} {st st' : HeartbeatState}
    (h : (heartbeats agent).Reachable st)
    (hlater : ((heartbeats agent).startingAt st).ReachedBy (Recovering delay st.clock) st')
    (hclock : st.clock + 140000000 + delay < st'.clock) :
    SeenSince agent.nodeName st.clock st'.registry.store := by
  have hstep : ∀ s a s', Regaining delay st.clock agent s → Recovering delay st.clock s a →
      ((heartbeats agent).startingAt st).step s a = some s' → Regaining delay st.clock agent s' :=
    fun _ _ _ h => regaining_step h
  have hinv : Regaining delay st.clock agent st' := by
    refine hlater.invariant _ ?_ hstep
    rintro s rfl
    have hbounded := loopBounded_of_reachable h
    refine ⟨hbounded, le_refl _, ?_, ?_⟩
    · intro since handled hpc
      have hsince := (hbounded.sending since handled hpc).1
      exact ⟨fun hlt => absurd hsince (not_le.mpr hlt), .inr (by omega)⟩
    · intro due hpc
      have hdue := hbounded.sleeping due hpc
      exact .inr ⟨by omega, le_max_left _ _⟩
  cases hpc : st'.pc with
  | sending since handled =>
      rcases (hinv.sending since handled hpc).2 with hseen | hnear
      · exact hseen
      · have hlimit := (hinv.bounded.sending since handled hpc).2
        omega
  | sleeping due =>
      rcases hinv.sleeping due hpc with hseen | ⟨hdue, hlimit⟩
      · exact hseen
      · omega

/-- The gateway comes back while the first request of an agent runs out. -/
theorem registered_again_at_start : ∃ st st',
    (heartbeats sampleAgent).Reachable st ∧
      ((heartbeats sampleAgent).startingAt st).run (Recovering 0 10000000) st
        (.receive .unreachable :: (List.range 6).flatMap fun i =>
          beat (12000000 + 30000000 * i) s!"node-{i}") = some st' ∧
      SeenSince "gpu-1" 10000000 st'.registry.store := by
  have hdown : ((heartbeats sampleAgent).run (fun _ _ => True) heartbeatStart
      [.send, .elapse 10000000]).map id =
        some { heartbeatStart with pc := .sending 0 false, clock := 10000000 } := by
    decide +kernel
  have hrun : (((heartbeats sampleAgent).startingAt
        { heartbeatStart with pc := .sending 0 false, clock := 10000000 }).run
      (Recovering 0 10000000) { heartbeatStart with pc := .sending 0 false, clock := 10000000 }
        (.receive .unreachable :: (List.range 6).flatMap fun i =>
          beat (12000000 + 30000000 * i) s!"node-{i}")).map (·.clock) = some 162000000 := by
    decide +kernel
  have hinit : (heartbeats sampleAgent).init heartbeatStart := ⟨⟨rfl, rfl, rfl⟩, rfl, rfl⟩
  obtain ⟨st, -, hreached, rfl⟩ := System.exists_reachedBy_of_run (.init hinit) hdown
  obtain ⟨st', hst', hlater, hclock⟩ := System.exists_reachedBy_of_run (.init rfl) hrun
  refine ⟨_, st', hreached, hst', registered_again hreached hlater ?_⟩
  rw [hclock]
  decide

end InferPlatform.Gateway
