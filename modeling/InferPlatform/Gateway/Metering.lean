import InferPlatform.Base.Separator
import InferPlatform.Base.System
import InferPlatform.Gateway.Billing

/-!
# Metered usage

`report_meter_usage` reports the usage of the last full clock hour to Stripe,
customer by customer: has the hour been reported, what was used, the meter event,
the record of the report. The four steps are statements of their own, so runs of
several processes interleave, and a run may end between any two of them. Usage rows
are stamped when their transaction starts and seen once it commits.

* `advance` — one step of a run, with the answer of database or Stripe to it;
* `giveUp`, `carryOut` — a call that is given up on the way, and carried out after all;
* `metering` — any number of runs over one database and one Stripe account;
* `MeterInv` — **what holds in every reachable state**: a counted event is named
  after a key and a past hour and covers usage of that key in that hour only;
* `billedOnce_of_reachable` — **no usage row is in two counted events**, whatever
  the interleaving, the failures and the restarts.
-/

namespace InferPlatform.Gateway

/-! ## Rows and runs -/

/-- A row of `billing_customers`, and since when it is there. Its key has no
other row. -/
structure Customer where
  keyId : String
  stripeCustomerId : String
  since : Int
  deriving DecidableEq, Repr

/-- A row of `billing_meter_reports`, one for each key and period. -/
structure MeterReport where
  keyId : String
  periodStart : Int
  periodEnd : Int
  tokensIn : Int
  tokensOut : Int
  stripeEventId : String
  deriving DecidableEq, Repr

/-- A meter event that Stripe counts; `covers` are the rows its value sums up. -/
structure MeterEvent where
  identifier : String
  stripeCustomerId : String
  value : UInt64
  timestamp : Int
  covers : List UsageLog
  deriving DecidableEq, Repr

/-- Where a run stands: its next statement or call, with the customers that are
left after the present one. -/
inductive ReportPc
  | fetch
  | check (queue : List Customer)
  | sum (cust : Customer) (queue : List Customer)
  | send (cust : Customer) (queue : List Customer) (rows : List UsageLog)
  | insert (cust : Customer) (queue : List Customer) (rows : List UsageLog)
  | finished
  | failed
  deriving DecidableEq, Repr

/-- A call of `report_meter_usage`. `passed` keeps the keys that it came past
without a failed statement and without an event that did not reach Stripe, each
with the number of usage rows seen by then; `gaveUp` the keys whose event it gave
up on the way. -/
structure ReportRun where
  periodStart : Int
  periodEnd : Int
  pc : ReportPc
  passed : List (String × Nat)
  gaveUp : List String
  deriving DecidableEq, Repr

/-- What was sent to Stripe or to the database, given up, and may still arrive. -/
inductive MeterCall
  | event (e : MeterEvent)
  | report (r : MeterReport)
  deriving DecidableEq, Repr

/-- `pending` are the usage rows whose transaction has not committed. -/
structure MeterState where
  clock : Int
  usage : List UsageLog
  pending : List UsageLog
  customers : List Customer
  reports : List MeterReport
  events : List MeterEvent
  onTheWay : List MeterCall
  runs : List ReportRun
  deriving DecidableEq, Repr

/-- The identifier of the meter event of a key and a period, in seconds. -/
def identifier (keyId : String) (periodStart : Int) : String :=
  s!"meter-{keyId}-{periodStart / 1000000}"

namespace MeterState

/-- The rows that the usage query sums up. -/
def usageOf (st : MeterState) (keyId : String) (start stop : Int) : List UsageLog :=
  st.usage.filter fun row => row.keyId = keyId ∧ row.Within start stop

/-- Stripe counts at most one event for an identifier. -/
def countEvent (st : MeterState) (e : MeterEvent) : MeterState :=
  if ∃ e' ∈ st.events, e'.identifier = e.identifier then st
  else { st with events := st.events ++ [e] }

/-- `INSERT … ON CONFLICT (key_id, period_start) DO NOTHING`. -/
def insertReport (st : MeterState) (report : MeterReport) : MeterState :=
  if ∃ r ∈ st.reports, r.keyId = report.keyId ∧ r.periodStart = report.periodStart then st
  else { st with reports := st.reports ++ [report] }

def carryOut (st : MeterState) : MeterCall → MeterState
  | .event e => st.countEvent e
  | .report r => st.insertReport r

end MeterState

/-- The event of a customer for the rows of a period. -/
def meterEvent (run : ReportRun) (cust : Customer) (rows : List UsageLog) : MeterEvent :=
  { identifier := identifier cust.keyId run.periodStart
    stripeCustomerId := cust.stripeCustomerId
    value := UInt64.ofNat (totalWeighted rows).toNat
    timestamp := run.periodStart / 1000000
    covers := rows }

def meterReport (run : ReportRun) (cust : Customer) (rows : List UsageLog) : MeterReport :=
  { keyId := cust.keyId
    periodStart := run.periodStart
    periodEnd := run.periodEnd
    tokensIn := sumIn rows
    tokensOut := sumOut rows
    stripeEventId := identifier cust.keyId run.periodStart }

/-- The run is through with a customer, with `seen` usage rows in the table. -/
def ReportRun.pass (run : ReportRun) (cust : Customer) (seen : Nat) (pc : ReportPc) : ReportRun :=
  { run with pc, passed := (cust.keyId, seen) :: run.passed }

/-- One step of a run. A failed statement ends it (`?`); a failed call to Stripe
is only logged. -/
def advance (st : MeterState) (run : ReportRun) (o : Outcome) : MeterState × ReportRun :=
  match run.pc with
  | .fetch =>
    if o = .ok then (st, { run with pc := .check st.customers })
    else (st, { run with pc := .failed })
  | .check [] => (st, { run with pc := .finished })
  | .check (cust :: queue) =>
    if o = .ok then
      -- idempotency check
      if ∃ r ∈ st.reports, r.keyId = cust.keyId ∧ r.periodStart = run.periodStart then
        (st, run.pass cust st.usage.length (.check queue))
      else (st, { run with pc := .sum cust queue })
    else (st, { run with pc := .failed })
  | .sum cust queue =>
    if o = .ok then
      let rows := st.usageOf cust.keyId run.periodStart run.periodEnd
      -- nothing to bill
      if totalWeighted rows ≤ 0 then (st, run.pass cust st.usage.length (.check queue))
      else (st, { run with pc := .send cust queue rows })
    else (st, { run with pc := .failed })
  | .send cust queue rows =>
    match o with
    | .ok =>
      (st.countEvent (meterEvent run cust rows),
        run.pass cust st.usage.length (.insert cust queue rows))
    -- logged with "will retry next hour"; the loop goes on
    | .failed => (st, { run with pc := .check queue })
    | .lost =>
      (st.countEvent (meterEvent run cust rows), run.pass cust st.usage.length (.check queue))
  | .insert cust queue rows =>
    match o with
    | .ok => (st.insertReport (meterReport run cust rows), { run with pc := .check queue })
    | .failed => (st, { run with pc := .failed })
    | .lost => (st.insertReport (meterReport run cust rows), { run with pc := .failed })
  | .finished | .failed => (st, run)

/-- The call that the run waits for is given up on the way: it timed out, or the
process crashed. -/
def giveUp (run : ReportRun) (crashed : Bool) : Option (MeterCall × ReportRun) :=
  match run.pc with
  | .send cust queue rows =>
    some (.event (meterEvent run cust rows),
      { run with
        pc := if crashed then .failed else .check queue
        gaveUp := cust.keyId :: run.gaveUp })
  | .insert cust _ rows => some (.report (meterReport run cust rows), { run with pc := .failed })
  | _ => none

/-! ## The system -/

inductive MeterAction
  | insertUsage (keyId model : String) (tokensIn tokensOut : Int32) (now : Int)
  | commitUsage (j : Nat)
  | addCustomer (keyId stripeCustomerId : String)
  | reorder (customers : List Customer)
  | elapse (time : Int)
  | start
  | advance (i : Nat) (o : Outcome)
  | giveUp (i : Nat) (crashed : Bool)
  | late (j : Nat)
  | crash (i : Nat)
  deriving DecidableEq, Repr

/-- Usage rows get the time at which the database starts their transaction, by its
own clock, and commit in any order; the customers come in any order; a run looks at
the clock hour before the present one; a crash ends a run wherever it stands. -/
def meterStep (st : MeterState) : MeterAction → Option MeterState
  | .insertUsage keyId model tokensIn tokensOut now =>
    if 0 ≤ now then
      some { st with
        pending := st.pending ++
          [⟨st.usage.length + st.pending.length, keyId, model, tokensIn, tokensOut, now⟩] }
    else none
  | .commitUsage j =>
    match st.pending[j]? with
    | none => none
    | some row => some { st with usage := st.usage ++ [row], pending := st.pending.eraseIdx j }
  | .addCustomer keyId stripeCustomerId =>
    if ∃ c ∈ st.customers, c.keyId = keyId then none
    else some { st with customers := st.customers ++ [⟨keyId, stripeCustomerId, st.clock⟩] }
  | .reorder customers =>
    if customers.Perm st.customers then some { st with customers } else none
  | .elapse time => if st.clock ≤ time then some { st with clock := time } else none
  | .start =>
    some { st with
      runs := st.runs ++
        -- whatever earlier hours left unreported
        [⟨hourStart st.clock - 3600000000, hourStart st.clock, .fetch, [], []⟩] }
  | .advance i o =>
    match st.runs[i]? with
    | none => none
    | some run =>
      let next := advance st run o
      some { next.1 with runs := st.runs.set i next.2 }
  | .giveUp i crashed =>
    match st.runs[i]? with
    | none => none
    | some run =>
      match giveUp run crashed with
      | none => none
      | some (call, next) =>
        some { st with onTheWay := st.onTheWay ++ [call], runs := st.runs.set i next }
  | .late j =>
    match st.onTheWay[j]? with
    | none => none
    | some call =>
      let st' := st.carryOut call
      some { st' with onTheWay := st.onTheWay.eraseIdx j }
  | .crash i =>
    match st.runs[i]? with
    | none => none
    | some run => some { st with runs := st.runs.set i { run with pc := .failed } }

/-- The report runs of all gateway processes, from an empty database at any time
after the epoch's first hour. -/
def metering : System MeterState MeterAction where
  init st := 3600000000 ≤ st.clock ∧ st.usage = [] ∧ st.pending = [] ∧ st.customers = [] ∧
    st.reports = [] ∧ st.events = [] ∧ st.onTheWay = [] ∧ st.runs = []
  step := meterStep

/-- No usage row is in two of the events that Stripe counts. -/
def BilledOnce (st : MeterState) : Prop :=
  st.events.Pairwise fun a b => ∀ row ∈ a.covers, row ∉ b.covers

/-! ## Identifiers -/

/-- A full clock hour after the epoch starts here. -/
def FullHour (start : Int) : Prop := 0 ≤ start ∧ start % 3600000000 = 0

instance (start : Int) : Decidable (FullHour start) := inferInstanceAs (Decidable (_ ∧ _))

theorem fullHour_hourStart {t : Int} (h : 0 ≤ t) : FullHour (hourStart t) := by
  unfold FullHour hourStart
  omega

/-- The identifier of a key and a full hour, as characters. -/
theorem toList_identifier (keyId : String) (n : Nat) :
    (identifier keyId (n * 1000000)).toList =
      ("meter-".toList ++ keyId.toList) ++ '-' :: n.repr.toList := by
  have hdiv : (n : Int) * 1000000 / 1000000 = n := by omega
  show (("meter-" ++ keyId ++ "-") ++ toString ((n : Int) * 1000000 / 1000000)).toList = _
  rw [hdiv]
  simp only [String.toList_append, List.append_assoc]
  rfl

/-- **An identifier determines its key and its hour.** A key may contain the
separator, the number after it does not. -/
theorem identifier_inj {keyId keyId' : String} {start start' : Int} (hstart : FullHour start)
    (hstart' : FullHour start') (h : identifier keyId start = identifier keyId' start') :
    keyId = keyId' ∧ start = start' := by
  obtain ⟨n, rfl⟩ : ∃ n : Nat, start = n * 1000000 := by
    refine ⟨(start / 1000000).toNat, ?_⟩
    unfold FullHour at hstart
    omega
  obtain ⟨m, rfl⟩ : ∃ m : Nat, start' = m * 1000000 := by
    refine ⟨(start' / 1000000).toNat, ?_⟩
    unfold FullHour at hstart'
    omega
  have hchars := congrArg String.toList h
  rw [toList_identifier, toList_identifier] at hchars
  obtain ⟨hkey, hnumber⟩ := Separator.append_inj (Separator.notMem_repr rfl n)
    (Separator.notMem_repr rfl m) hchars
  have hkey' := String.toList_inj.mp (List.append_cancel_left hkey)
  have hnm : n = m := Nat.repr_inj.mp (String.toList_inj.mp hnumber)
  exact ⟨hkey', by rw [hnm]⟩

/-! ## The invariant -/

/-- The row is usage of the key in the clock hour. -/
def UsageLog.OfHour (keyId : String) (start : Int) (row : UsageLog) : Prop :=
  row.keyId = keyId ∧ row.Within start (start + 3600000000)

theorem UsageLog.ofHour_self (row : UsageLog) : row.OfHour row.keyId (hourStart row.timestamp) := by
  refine ⟨rfl, ?_⟩
  unfold UsageLog.Within hourStart
  omega

theorem UsageLog.OfHour.start_eq {keyId : String} {start : Int} {row : UsageLog}
    (h : row.OfHour keyId start) (hstart : FullHour start) : hourStart row.timestamp = start := by
  have haligned := hstart.2
  have hfrom := h.2.1
  have huntil := h.2.2
  unfold hourStart
  omega

namespace MeterState

/-- A full hour that is over. -/
def PastHour (st : MeterState) (start : Int) : Prop :=
  FullHour start ∧ start + 3600000000 ≤ st.clock

/-- Stripe counts an event for the key and the hour. -/
def Sent (st : MeterState) (keyId : String) (start : Int) : Prop :=
  ∃ e ∈ st.events, e.identifier = identifier keyId start

instance (st : MeterState) (keyId : String) (start : Int) : Decidable (st.Sent keyId start) :=
  inferInstanceAs (Decidable (∃ _ ∈ _, _))

/-- `st'` comes later than `st`: its events are there still. -/
structure Later (st st' : MeterState) : Prop where
  clock : st.clock ≤ st'.clock
  events : ∀ e ∈ st.events, e ∈ st'.events

theorem Later.pastHour {st st' : MeterState} (h : st.Later st') {start : Int}
    (hpast : st.PastHour start) : st'.PastHour start :=
  ⟨hpast.1, hpast.2.trans h.clock⟩

theorem Later.sent {st st' : MeterState} (h : st.Later st') {keyId : String} {start : Int}
    (hsent : st.Sent keyId start) : st'.Sent keyId start := by
  obtain ⟨e, he, hid⟩ := hsent
  exact ⟨e, h.events e he, hid⟩

theorem mem_usageOf {st : MeterState} {keyId : String} {start : Int} {row : UsageLog} :
    row ∈ st.usageOf keyId start (start + 3600000000) ↔ row ∈ st.usage ∧ row.OfHour keyId start := by
  simp [usageOf, UsageLog.OfHour]

end MeterState

/-- The event is the one of a key and a past hour, and covers usage of both only. -/
def EventOk (st : MeterState) (e : MeterEvent) : Prop :=
  ∃ keyId start, st.PastHour start ∧ e.identifier = identifier keyId start ∧
    ∀ row ∈ e.covers, row.OfHour keyId start

/-- A call on the way: an event like those that are counted, or the report of one that is. -/
def MeterCallOk (st : MeterState) : MeterCall → Prop
  | .event e => EventOk st e
  | .report r => st.Sent r.keyId r.periodStart

/-- What holds of a run: it works on a past hour, what it sends is usage of that
hour, and it records what Stripe counts. -/
structure ReportRunOk (st : MeterState) (run : ReportRun) : Prop where
  past : st.PastHour run.periodStart
  stop : run.periodEnd = run.periodStart + 3600000000
  rows : ∀ cust queue rows, run.pc = .send cust queue rows →
    ∀ row ∈ rows, row.OfHour cust.keyId run.periodStart
  sent : ∀ cust queue rows, run.pc = .insert cust queue rows →
    st.Sent cust.keyId run.periodStart

structure MeterInv (st : MeterState) : Prop where
  clock : 3600000000 ≤ st.clock
  usage : ∀ row ∈ st.usage, 0 ≤ row.timestamp
  pending : ∀ row ∈ st.pending, 0 ≤ row.timestamp
  runs : ∀ run ∈ st.runs, ReportRunOk st run
  events : ∀ e ∈ st.events, EventOk st e
  distinct : st.events.Pairwise fun a b => a.identifier ≠ b.identifier
  reports : ∀ r ∈ st.reports, st.Sent r.keyId r.periodStart
  calls : ∀ call ∈ st.onTheWay, MeterCallOk st call

theorem EventOk.later {st st' : MeterState} (h : st.Later st') {e : MeterEvent}
    (he : EventOk st e) : EventOk st' e := by
  obtain ⟨keyId, start, hpast, hid, hcovers⟩ := he
  exact ⟨keyId, start, h.pastHour hpast, hid, hcovers⟩

theorem MeterCallOk.later {st st' : MeterState} (h : st.Later st') {call : MeterCall}
    (hcall : MeterCallOk st call) : MeterCallOk st' call := by
  cases call with
  | event e => exact EventOk.later h hcall
  | report r => exact h.sent hcall

theorem ReportRunOk.later {st st' : MeterState} (h : st.Later st') {run : ReportRun}
    (hrun : ReportRunOk st run) : ReportRunOk st' run where
  past := h.pastHour hrun.past
  stop := hrun.stop
  rows := hrun.rows
  sent cust queue rows hpc := h.sent (hrun.sent cust queue rows hpc)

/-! ## What one step does -/

theorem MeterState.countEvent_later (st : MeterState) (e : MeterEvent) :
    st.Later (st.countEvent e) := by
  unfold MeterState.countEvent
  split
  · exact ⟨le_rfl, fun _ h => h⟩
  · exact ⟨le_rfl, fun _ h => List.mem_append_left _ h⟩

theorem MeterState.insertReport_later (st : MeterState) (r : MeterReport) :
    st.Later (st.insertReport r) := by
  unfold MeterState.insertReport
  split
  · exact ⟨le_rfl, fun _ h => h⟩
  · exact ⟨le_rfl, fun _ h => h⟩

theorem MeterState.countEvent_sent (st : MeterState) (e : MeterEvent) :
    ∃ e' ∈ (st.countEvent e).events, e'.identifier = e.identifier := by
  unfold MeterState.countEvent
  split
  · assumption
  · exact ⟨e, List.mem_append_right _ (List.mem_singleton.mpr rfl), rfl⟩

/-- Recording a report counts no event. -/
@[simp] theorem MeterState.insertReport_events (st : MeterState) (r : MeterReport) :
    (st.insertReport r).events = st.events := by
  unfold MeterState.insertReport
  split <;> rfl

/-- What Stripe counts after a call: what it counted before, and the call's event if
there was none with its identifier. -/
theorem MeterState.mem_countEvent {st : MeterState} {e e' : MeterEvent}
    (h : e' ∈ (st.countEvent e).events) :
    e' ∈ st.events ∨ e' = e ∧ ∀ known ∈ st.events, known.identifier ≠ e.identifier := by
  unfold MeterState.countEvent at h
  split at h
  · exact .inl h
  · rename_i hnew
    refine (List.mem_append.mp h).imp_right fun he => ⟨List.mem_singleton.mp he, ?_⟩
    intro known hknown hid
    exact hnew ⟨known, hknown, hid⟩

/-- Events and reports are all that a call changes. -/
theorem MeterState.carryOut_frame (st : MeterState) (call : MeterCall) :
    ∃ events reports, st.carryOut call = { st with events, reports } := by
  cases call with
  | event e =>
      show ∃ events reports, st.countEvent e = _
      unfold MeterState.countEvent
      split
      · exact ⟨_, _, rfl⟩
      · exact ⟨_, _, rfl⟩
  | report r =>
      show ∃ events reports, st.insertReport r = _
      unfold MeterState.insertReport
      split
      · exact ⟨_, _, rfl⟩
      · exact ⟨_, _, rfl⟩

theorem MeterState.carryOut_later (st : MeterState) (call : MeterCall) :
    st.Later (st.carryOut call) := by
  cases call with
  | event e => exact st.countEvent_later e
  | report r => exact st.insertReport_later r

/-- Everything that a step of a run can do to the state and the run. -/
inductive Advance (st : MeterState) (run : ReportRun) : MeterState → ReportRun → Prop
  | ended (hpc : run.pc = .finished ∨ run.pc = .failed) : Advance st run st run
  | goto {pc : ReportPc} (hrun : ¬ (run.pc = .finished ∨ run.pc = .failed))
      (hpc : ∀ cust queue rows, pc ≠ .send cust queue rows ∧ pc ≠ .insert cust queue rows) :
      Advance st run st { run with pc }
  | skip {cust : Customer} {queue : List Customer}
      (hrun : ¬ (run.pc = .finished ∨ run.pc = .failed))
      (hdone : (∃ r ∈ st.reports, r.keyId = cust.keyId ∧ r.periodStart = run.periodStart) ∨
        totalWeighted (st.usageOf cust.keyId run.periodStart run.periodEnd) ≤ 0) :
      Advance st run st (run.pass cust st.usage.length (.check queue))
  | summed {cust : Customer} {queue : List Customer}
      (hrun : ¬ (run.pc = .finished ∨ run.pc = .failed)) :
      Advance st run st
        { run with pc := .send cust queue (st.usageOf cust.keyId run.periodStart run.periodEnd) }
  | sent {cust : Customer} {queue : List Customer} {rows : List UsageLog} {pc : ReportPc}
      (hrun : run.pc = .send cust queue rows)
      (hpc : pc = .insert cust queue rows ∨ pc = .check queue) :
      Advance st run (st.carryOut (.event (meterEvent run cust rows)))
        (run.pass cust st.usage.length pc)
  | recorded {cust : Customer} {queue : List Customer} {rows : List UsageLog} {pc : ReportPc}
      (hrun : run.pc = .insert cust queue rows) (hpc : pc = .check queue ∨ pc = .failed) :
      Advance st run (st.carryOut (.report (meterReport run cust rows))) { run with pc }

theorem advance_spec (st : MeterState) (run : ReportRun) (o : Outcome) :
    Advance st run (advance st run o).1 (advance st run o).2 := by
  unfold advance
  split <;> rename_i hpc
  · -- the customers
    split <;> exact .goto (by simp [hpc]) (by simp)
  · exact .goto (by simp [hpc]) (by simp)
  · -- is the period reported?
    split
    · split
      · rename_i hreported
        exact .skip (by simp [hpc]) (.inl hreported)
      · exact .goto (by simp [hpc]) (by simp)
    · exact .goto (by simp [hpc]) (by simp)
  · -- the usage
    dsimp only
    split
    · split
      · rename_i hzero
        exact .skip (by simp [hpc]) (.inr hzero)
      · exact .summed (by simp [hpc])
    · exact .goto (by simp [hpc]) (by simp)
  · -- the meter event
    cases o with
    | ok => exact .sent hpc (.inl rfl)
    | failed => exact .goto (by simp [hpc]) (by simp)
    | lost => exact .sent hpc (.inr rfl)
  · -- the record
    cases o with
    | ok => exact .recorded hpc (.inl rfl)
    | failed => exact .goto (by simp [hpc]) (by simp)
    | lost => exact .recorded hpc (.inr rfl)
  · exact .ended (.inl hpc)
  · exact .ended (.inr hpc)

/-- A run writes events and reports only. -/
theorem Advance.frame {st st' : MeterState} {run run' : ReportRun} (h : Advance st run st' run') :
    ∃ events reports, st' = { st with events, reports } := by
  cases h with
  | ended | goto | skip | summed => exact ⟨_, _, rfl⟩
  | sent | recorded => exact st.carryOut_frame _

theorem Advance.later {st st' : MeterState} {run run' : ReportRun} (h : Advance st run st' run') :
    st.Later st' := by
  cases h with
  | ended | goto | skip | summed => exact ⟨le_rfl, fun _ h => h⟩
  | sent | recorded => exact st.carryOut_later _

/-- A run keeps its period and the keys it passed or gave up, and passes the key of an
event that it sends; one that has ended stays as it is. -/
theorem Advance.run {st st' : MeterState} {run run' : ReportRun} (h : Advance st run st' run') :
    run'.periodStart = run.periodStart ∧ run.passed ⊆ run'.passed ∧ run'.gaveUp = run.gaveUp ∧
      (run.pc = .finished ∨ run.pc = .failed → run' = run) := by
  cases h with
  | ended => exact ⟨rfl, fun _ h => h, rfl, fun _ => rfl⟩
  | goto hrun | summed hrun => exact ⟨rfl, fun _ h => h, rfl, fun h => absurd h hrun⟩
  | skip hrun => exact ⟨rfl, List.subset_cons_self _ _, rfl, fun h => absurd h hrun⟩
  | sent hrun => exact ⟨rfl, List.subset_cons_self _ _, rfl, by simp [hrun]⟩
  | recorded hrun => exact ⟨rfl, fun _ h => h, rfl, by simp [hrun]⟩

/-- An event that was not counted before is that of a run under way, which passes
its key. -/
theorem Advance.events {st st' : MeterState} {run run' : ReportRun}
    (h : Advance st run st' run') {e : MeterEvent} (he : e ∈ st'.events) :
    e ∈ st.events ∨ ∃ cust queue rows, run.pc = .send cust queue rows ∧
      e = meterEvent run cust rows ∧
      (∀ known ∈ st.events, known.identifier ≠ e.identifier) ∧
      (cust.keyId, st.usage.length) ∈ run'.passed := by
  cases h with
  | ended | goto | skip | summed => exact .inl he
  | sent hrun =>
      rcases MeterState.mem_countEvent he with he | ⟨rfl, hnew⟩
      · exact .inl he
      · exact .inr ⟨_, _, _, hrun, rfl, hnew, List.mem_cons_self⟩
  | recorded =>
      rw [MeterState.carryOut, MeterState.insertReport_events] at he
      exact .inl he

/-- A call that is given up: its event or its report is on the way, and the run goes on
with the next customer or has ended. -/
theorem giveUp_cases {run run' : ReportRun} {crashed : Bool} {call : MeterCall}
    (h : giveUp run crashed = some (call, run')) :
    (∃ cust queue rows pc, run.pc = .send cust queue rows ∧
      (pc = .failed ∨ pc = .check queue) ∧ call = .event (meterEvent run cust rows) ∧
      run' = { run with pc, gaveUp := cust.keyId :: run.gaveUp }) ∨
    ∃ cust queue rows, run.pc = .insert cust queue rows ∧
      call = .report (meterReport run cust rows) ∧ run' = { run with pc := .failed } := by
  unfold giveUp at h
  split at h
  · rename_i cust queue rows hpc
    cases h
    refine .inl ⟨cust, queue, rows, _, hpc, ?_, rfl, rfl⟩
    cases crashed
    · exact .inr rfl
    · exact .inl rfl
  · rename_i cust queue rows hpc
    cases h
    exact .inr ⟨cust, queue, rows, hpc, rfl, rfl⟩
  · cases h

/-- The run goes on to another statement, and `passed` and `gaveUp` say what they may. -/
theorem ReportRunOk.goto {st : MeterState} {run : ReportRun} (h : ReportRunOk st run) {pc : ReportPc}
    {passed : List (String × Nat)} {gaveUp : List String}
    (hrows : ∀ cust queue rows, pc = .send cust queue rows →
      ∀ row ∈ rows, row.OfHour cust.keyId run.periodStart)
    (hsent : ∀ cust queue rows, pc = .insert cust queue rows →
      st.Sent cust.keyId run.periodStart) : ReportRunOk st { run with pc, passed, gaveUp } :=
  ⟨h.past, h.stop, hrows, hsent⟩

/-- **One step of a run keeps what holds of it.** -/
theorem Advance.runOk {st st' : MeterState} {run run' : ReportRun} (h : Advance st run st' run')
    (hrun : ReportRunOk st run) : ReportRunOk st' run' := by
  have hlater := hrun.later h.later
  cases h with
  | ended => exact hrun
  | goto _ hpc =>
      apply hrun.goto
      · intro cust queue rows heq
        exact absurd heq (hpc cust queue rows).1
      · intro cust queue rows heq
        exact absurd heq (hpc cust queue rows).2
  | skip => exact hrun.goto (by simp) (by simp)
  | summed =>
      apply hrun.goto _ (by simp)
      intro cust queue rows heq row hrow
      injection heq with hcust _ hsummed
      rw [← hsummed, hrun.stop] at hrow
      rw [← hcust]
      exact (MeterState.mem_usageOf.mp hrow).2
  | @sent cust queue rows pc _ hpc =>
      have hsent : (st.countEvent (meterEvent run cust rows)).Sent cust.keyId run.periodStart :=
        st.countEvent_sent (meterEvent run cust rows)
      rcases hpc with rfl | rfl
      · apply hlater.goto (by simp)
        intro cust' queue' rows' heq
        injection heq with hcust
        rwa [← hcust]
      · exact hlater.goto (by simp) (by simp)
  | recorded _ hpc =>
      rcases hpc with rfl | rfl
      · exact hlater.goto (by simp) (by simp)
      · exact hlater.goto (by simp) (by simp)

/-- A state with the same events and reports. -/
theorem MeterInv.later {st st' : MeterState} (hinv : MeterInv st) (hclock : st.clock ≤ st'.clock)
    (husage : ∀ row ∈ st'.usage, 0 ≤ row.timestamp) (hpending : ∀ row ∈ st'.pending, 0 ≤ row.timestamp)
    (hruns : ∀ run ∈ st'.runs, ReportRunOk st run) (hcalls : ∀ call ∈ st'.onTheWay, MeterCallOk st call)
    (hevents : st'.events = st.events) (hreports : st'.reports = st.reports) : MeterInv st' := by
  have hlater : st.Later st' := ⟨hclock, fun e he => hevents ▸ he⟩
  refine ⟨hinv.clock.trans hclock, husage, hpending, ?_, ?_, hevents ▸ hinv.distinct, ?_, ?_⟩
  · intro run hrun
    exact (hruns run hrun).later hlater
  · intro e he
    exact (hinv.events e (hevents ▸ he)).later hlater
  · intro r hr
    exact hlater.sent (hinv.reports r (hreports ▸ hr))
  · intro call hcall
    exact (hcalls call hcall).later hlater

/-- **A call is carried out**: Stripe's guard keeps identifiers apart, and a report stands
for a counted event. -/
theorem MeterInv.carryOut {st : MeterState} (hinv : MeterInv st) {call : MeterCall}
    (hcall : MeterCallOk st call) : MeterInv (st.carryOut call) := by
  have hlater := st.carryOut_later call
  cases call with
  | event e =>
      unfold MeterState.carryOut MeterState.countEvent at hlater ⊢
      dsimp only at hlater ⊢
      split at hlater
      · rename_i hknown
        rwa [if_pos hknown]
      · rename_i hnew
        rw [if_neg hnew]
        refine ⟨hinv.clock, hinv.usage, hinv.pending, fun run hrun => (hinv.runs run hrun).later hlater,
          ?_, ?_, fun r hr => hlater.sent (hinv.reports r hr),
          fun call hcall => (hinv.calls call hcall).later hlater⟩
        · intro e' he'
          apply EventOk.later hlater
          rcases List.mem_append.mp he' with he' | he'
          · exact hinv.events e' he'
          · rwa [List.mem_singleton.mp he']
        · refine List.pairwise_append.mpr ⟨hinv.distinct, List.pairwise_singleton _ _, ?_⟩
          intro a ha b hb heq
          rw [List.mem_singleton.mp hb] at heq
          exact hnew ⟨a, ha, heq⟩
  | report r =>
      unfold MeterState.carryOut MeterState.insertReport at hlater ⊢
      dsimp only at hlater ⊢
      split at hlater
      · rename_i hknown
        rwa [if_pos hknown]
      · rename_i hnew
        rw [if_neg hnew]
        refine ⟨hinv.clock, hinv.usage, hinv.pending, fun run hrun => (hinv.runs run hrun).later hlater,
          fun e he => (hinv.events e he).later hlater, hinv.distinct, ?_,
          fun call hcall => (hinv.calls call hcall).later hlater⟩
        intro r' hr'
        rcases List.mem_append.mp hr' with hr' | hr'
        · exact hinv.reports r' hr'
        · rwa [List.mem_singleton.mp hr']

/-- The event that a run sends is one of its key and its hour. -/
theorem ReportRunOk.event {st : MeterState} {run : ReportRun} (h : ReportRunOk st run)
    {cust : Customer} {queue : List Customer} {rows : List UsageLog}
    (hpc : run.pc = .send cust queue rows) : EventOk st (meterEvent run cust rows) :=
  ⟨cust.keyId, run.periodStart, h.past, rfl, h.rows cust queue rows hpc⟩

theorem Advance.inv {st st' : MeterState} {run run' : ReportRun} (h : Advance st run st' run')
    (hinv : MeterInv st) (hrun : ReportRunOk st run) : MeterInv st' := by
  cases h with
  | ended | goto | skip | summed => exact hinv
  | sent hpc => exact hinv.carryOut (hrun.event hpc)
  | recorded hpc => exact hinv.carryOut (hrun.sent _ _ _ hpc)

/-! ## Every run -/

theorem meterInv_init {st : MeterState} (h : metering.init st) : MeterInv st := by
  obtain ⟨hclock, husage, hpending, -, hreports, hevents, hcalls, hruns⟩ := h
  refine ⟨hclock, ?_, ?_, ?_, ?_, ?_, ?_, ?_⟩
  · simp [husage]
  · simp [hpending]
  · simp [hruns]
  · simp [hevents]
  · simp [hevents]
  · simp [hreports]
  · simp [hcalls]

/-- Everything that a step of the system can do. -/
inductive MeterMove (st : MeterState) : MeterAction → MeterState → Prop
  | insertUsage {keyId model : String} {tokensIn tokensOut : Int32} {now : Int} (hnow : 0 ≤ now) :
      MeterMove st (.insertUsage keyId model tokensIn tokensOut now) { st with
        pending := st.pending ++
          [⟨st.usage.length + st.pending.length, keyId, model, tokensIn, tokensOut, now⟩] }
  | commitUsage {j : Nat} {row : UsageLog} (hget : st.pending[j]? = some row) :
      MeterMove st (.commitUsage j)
        { st with usage := st.usage ++ [row], pending := st.pending.eraseIdx j }
  | addCustomer (keyId stripeCustomerId : String) :
      MeterMove st (.addCustomer keyId stripeCustomerId)
        { st with customers := st.customers ++ [⟨keyId, stripeCustomerId, st.clock⟩] }
  | reorder {customers : List Customer} (hperm : customers.Perm st.customers) :
      MeterMove st (.reorder customers) { st with customers }
  | elapse {time : Int} (htime : st.clock ≤ time) :
      MeterMove st (.elapse time) { st with clock := time }
  | start :
      MeterMove st .start { st with
        runs := st.runs ++
          [⟨hourStart st.clock - 3600000000, hourStart st.clock, .fetch, [], []⟩] }
  | advance {i : Nat} {o : Outcome} {run run' : ReportRun} {events : List MeterEvent}
      {reports : List MeterReport} (hget : st.runs[i]? = some run)
      (hfrom : advance st run o = ({ st with events, reports }, run'))
      (h : Advance st run { st with events, reports } run') :
      MeterMove st (.advance i o) { st with events, reports, runs := st.runs.set i run' }
  | giveUp {i : Nat} {crashed : Bool} {run run' : ReportRun} {call : MeterCall}
      (hget : st.runs[i]? = some run) (h : giveUp run crashed = some (call, run')) :
      MeterMove st (.giveUp i crashed)
        { st with onTheWay := st.onTheWay ++ [call], runs := st.runs.set i run' }
  | late {j : Nat} {call : MeterCall} {events : List MeterEvent} {reports : List MeterReport}
      (hget : st.onTheWay[j]? = some call) (h : st.carryOut call = { st with events, reports }) :
      MeterMove st (.late j) { st with events, reports, onTheWay := st.onTheWay.eraseIdx j }
  | crash {i : Nat} {run : ReportRun} (hget : st.runs[i]? = some run) :
      MeterMove st (.crash i) { st with runs := st.runs.set i { run with pc := .failed } }

theorem move_of_step {st st' : MeterState} {a : MeterAction} (hstep : meterStep st a = some st') :
    MeterMove st a st' := by
  cases a with
  | insertUsage keyId model tokensIn tokensOut now =>
      simp only [meterStep] at hstep
      split at hstep
      · rename_i hnow
        cases hstep
        exact .insertUsage hnow
      · cases hstep
  | commitUsage j =>
      simp only [meterStep] at hstep
      split at hstep
      · cases hstep
      · rename_i row hget
        cases hstep
        exact .commitUsage hget
  | addCustomer keyId stripeCustomerId =>
      simp only [meterStep] at hstep
      split at hstep
      · cases hstep
      · cases hstep
        exact .addCustomer keyId stripeCustomerId
  | reorder customers =>
      simp only [meterStep] at hstep
      split at hstep
      · rename_i hperm
        cases hstep
        exact .reorder hperm
      · cases hstep
  | elapse time =>
      simp only [meterStep] at hstep
      split at hstep
      · rename_i htime
        cases hstep
        exact .elapse htime
      · cases hstep
  | start =>
      cases hstep
      exact .start
  | advance i o =>
      simp only [meterStep] at hstep
      split at hstep
      · cases hstep
      · rename_i run hget
        have hadvance := advance_spec st run o
        obtain ⟨events, reports, hframe⟩ := hadvance.frame
        rw [hframe] at hadvance hstep
        cases hstep
        exact .advance hget (Prod.ext hframe rfl) hadvance
  | giveUp i crashed =>
      simp only [meterStep] at hstep
      split at hstep
      · cases hstep
      · rename_i run hget
        split at hstep
        · cases hstep
        · rename_i call next hgiveUp
          cases hstep
          exact .giveUp hget hgiveUp
  | late j =>
      simp only [meterStep] at hstep
      split at hstep
      · cases hstep
      · rename_i call hget
        obtain ⟨events, reports, hframe⟩ := st.carryOut_frame call
        rw [hframe] at hstep
        cases hstep
        exact .late hget hframe
  | crash i =>
      simp only [meterStep] at hstep
      split at hstep
      · cases hstep
      · rename_i run hget
        cases hstep
        exact .crash hget

/-- The clock and the events of every step go on. -/
theorem later_of_step {st st' : MeterState} {a : MeterAction} (hstep : meterStep st a = some st') :
    st.Later st' := by
  cases move_of_step hstep with
  | insertUsage | commitUsage | addCustomer | reorder | start | giveUp | crash =>
      exact ⟨le_rfl, fun _ h => h⟩
  | elapse htime => exact ⟨htime, fun _ h => h⟩
  | advance _ _ hadvance => exact ⟨le_rfl, hadvance.later.events⟩
  | @late _ call _ _ _ hcarry =>
      have hlater := st.carryOut_later call
      rw [hcarry] at hlater
      exact ⟨le_rfl, hlater.events⟩

/-- The invariant asks of a run nothing but what holds of it. -/
theorem MeterInv.setRun {st : MeterState} (hinv : MeterInv st) {i : Nat} {next : ReportRun}
    (hnext : ReportRunOk st next) : ∀ run ∈ st.runs.set i next, ReportRunOk st run := by
  intro run hrun
  rcases List.mem_or_eq_of_mem_set hrun with hrun | rfl
  · exact hinv.runs run hrun
  · exact hnext

/-- Every step keeps the invariant. -/
theorem meterInv_step {st st' : MeterState} {a : MeterAction} (hinv : MeterInv st)
    (hstep : meterStep st a = some st') : MeterInv st' := by
  cases move_of_step hstep with
  | insertUsage hnow =>
      refine hinv.later le_rfl hinv.usage ?_ hinv.runs hinv.calls rfl rfl
      exact List.forall_mem_append.mpr ⟨hinv.pending, List.forall_mem_singleton.mpr hnow⟩
  | commitUsage hget =>
      refine hinv.later le_rfl ?_ ?_ hinv.runs hinv.calls rfl rfl
      · have hcommitted := hinv.pending _ (List.mem_of_getElem? hget)
        exact List.forall_mem_append.mpr ⟨hinv.usage, List.forall_mem_singleton.mpr hcommitted⟩
      · intro row hrow
        exact hinv.pending row (List.mem_of_mem_eraseIdx hrow)
  | addCustomer | reorder =>
      exact hinv.later le_rfl hinv.usage hinv.pending hinv.runs hinv.calls rfl rfl
  | elapse htime => exact hinv.later htime hinv.usage hinv.pending hinv.runs hinv.calls rfl rfl
  | start =>
      refine hinv.later le_rfl hinv.usage hinv.pending ?_ hinv.calls rfl rfl
      refine List.forall_mem_append.mpr ⟨hinv.runs, List.forall_mem_singleton.mpr ?_⟩
      -- the hour before the present one is over
      have hclock := hinv.clock
      refine ⟨?_, ?_, by simp, by simp⟩
      · unfold MeterState.PastHour FullHour hourStart
        dsimp only
        omega
      · exact (Int.sub_add_cancel _ _).symm
  | advance hget _ hadvance =>
      have hrun := hinv.runs _ (List.mem_of_getElem? hget)
      have hnext := hadvance.inv hinv hrun
      exact hnext.later le_rfl hnext.usage hnext.pending (hnext.setRun (hadvance.runOk hrun))
        hnext.calls rfl rfl
  | giveUp hget hgiveUp =>
      have hrun := hinv.runs _ (List.mem_of_getElem? hget)
      rcases giveUp_cases hgiveUp with
        ⟨cust, queue, rows, pc, hpc, hnext, rfl, rfl⟩ | ⟨cust, queue, rows, hpc, rfl, rfl⟩
      · refine hinv.later le_rfl hinv.usage hinv.pending
          (hinv.setRun (hrun.goto ?_ ?_)) ?_ rfl rfl
        · rcases hnext with rfl | rfl <;> simp
        · rcases hnext with rfl | rfl <;> simp
        · exact List.forall_mem_append.mpr
            ⟨hinv.calls, List.forall_mem_singleton.mpr (hrun.event hpc)⟩
      · refine hinv.later le_rfl hinv.usage hinv.pending
          (hinv.setRun (hrun.goto (by simp) (by simp))) ?_ rfl rfl
        exact List.forall_mem_append.mpr
          ⟨hinv.calls, List.forall_mem_singleton.mpr (hrun.sent _ _ _ hpc)⟩
  | late hget hcarry =>
      have hnext := hinv.carryOut (hinv.calls _ (List.mem_of_getElem? hget))
      rw [hcarry] at hnext
      refine hnext.later le_rfl hnext.usage hnext.pending hnext.runs ?_ rfl rfl
      intro call hcall
      exact hnext.calls call (List.mem_of_mem_eraseIdx hcall)
  | crash hget =>
      have hrun := hinv.runs _ (List.mem_of_getElem? hget)
      exact hinv.later le_rfl hinv.usage hinv.pending
        (hinv.setRun (hrun.goto (by simp) (by simp))) hinv.calls rfl rfl

theorem meterInv_of_reachable {st : MeterState} (h : metering.Reachable st) : MeterInv st :=
  h.invariant MeterInv (fun _ hs => meterInv_init hs) fun _ _ _ hs _ hstep =>
    meterInv_step hs hstep

/-! ## Nothing is billed twice -/

/-- A row is in one hour of one key. -/
theorem identifier_of_covers {st : MeterState} {e : MeterEvent} (he : EventOk st e) {row : UsageLog}
    (hrow : row ∈ e.covers) : e.identifier = identifier row.keyId (hourStart row.timestamp) := by
  obtain ⟨keyId, start, hpast, hid, hcovers⟩ := he
  have hof := hcovers row hrow
  rw [hid, hof.1, hof.start_eq hpast.1]

/-- **No usage is billed twice**: in every reachable state no usage row is in two
of the events that Stripe counts. -/
theorem billedOnce_of_reachable {st : MeterState} (h : metering.Reachable st) : BilledOnce st := by
  have hinv := meterInv_of_reachable h
  refine hinv.distinct.imp_of_mem ?_
  intro a b ha hb hne row hrow hrow'
  apply hne
  rw [identifier_of_covers (hinv.events a ha) hrow, identifier_of_covers (hinv.events b hb) hrow']

/-! ## A concrete run -/

def freshMeters : MeterState :=
  { clock := 3600000000
    usage := []
    pending := []
    customers := []
    reports := []
    events := []
    onTheWay := []
    runs := [] }

/-- Steps of the runs given, in this order, with nothing failing. -/
def advanceAll (runs : List Nat) : List MeterAction := runs.map (.advance · .ok)

/-- Two runs of the same hour check before either records. The first one gives its event up
on the way and crashes, the second one sends it again before the first event arrives after
all. An hour later there is one more event, for a row that committed in time. -/
def twoRuns : List MeterAction :=
  List.flatten [
    [.addCustomer "key-1" "cus_1", .insertUsage "key-1" "llama3.2:3b" 7 5 3600000000,
      .insertUsage "key-1" "llama3.2:3b" 1 1 7200000000, .commitUsage 0, .elapse 7200000000,
      .start, .start],
    advanceAll [0, 1, 0, 1, 0, 1], [.giveUp 0 true], advanceAll [1, 1, 1],
    [.late 0, .commitUsage 0, .elapse 10800000000, .start], advanceAll [2, 2, 2, 2, 2, 2]]

/-- Two events for two hours, in spite of the crashed run. -/
theorem billedOnce_of_reachable_two_runs : ∃ st,
    metering.run (fun _ _ => True) freshMeters twoRuns = some st ∧
      st.events.map (fun e => (e.identifier, e.value)) =
        [("meter-key-1-3600", 17), ("meter-key-1-7200", 3)] ∧ BilledOnce st := by
  have hevents : (metering.run (fun _ _ => True) freshMeters twoRuns).map
      (fun st => st.events.map fun e => (e.identifier, e.value)) =
        some [("meter-key-1-3600", 17), ("meter-key-1-7200", 3)] := by decide +kernel
  have hinit : metering.init freshMeters := ⟨le_rfl, rfl, rfl, rfl, rfl, rfl, rfl, rfl⟩
  obtain ⟨st, hst, hreached, hevents⟩ := System.exists_reachedBy_of_run (.init hinit) hevents
  exact ⟨st, hst, hevents, billedOnce_of_reachable hreached⟩

end InferPlatform.Gateway
