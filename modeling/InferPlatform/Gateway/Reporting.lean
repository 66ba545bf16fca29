import InferPlatform.Gateway.Metering

/-!
# Reporting every hour

Each report run looks at one hour only, the one before the clock hour in which
it starts. What no run of that hour reports is never looked at again, although
the log promises to "retry next hour".

* `Hourly` — runs in which every clock hour has a report run;
* `accounted_of_served` — **no usage is lost in runs in which every row is seen in time,
  and a run of the hour then comes past its customer without failure**;
* `lost_for_good` — **an hour that its runs did not report stays unreported**,
  whatever comes later;
* `lost_of_not_passed` — and that is the fate of every customer that they did not
  pass;
* `late_row_is_lost` — as it is of a row that is seen only after the event of its hour;
* `rejected_event_is_lost` — one event that Stripe refuses once.
-/

namespace InferPlatform.Gateway

/-! ## What is asked of a run, and of a state -/

/-- The step to the next clock hour comes after a start of the report. -/
def Hourly (st : MeterState) : MeterAction → Prop
  | .elapse time => hourStart time = hourStart st.clock ∨
      hourStart time = hourStart st.clock + 3600000000 ∧
        ∃ run ∈ st.runs, run.periodEnd = hourStart st.clock
  | _ => True

instance (st : MeterState) : (a : MeterAction) → Decidable (Hourly st a)
  | .elapse _ => inferInstanceAs (Decidable (_ ∨ _ ∧ _))
  | .insertUsage .. | .commitUsage _ | .addCustomer .. | .reorder _ | .start | .advance ..
  | .giveUp .. | .late _ | .crash _ => inferInstanceAs (Decidable True)

/-- The row has tokens. -/
def UsageLog.HasTokens (row : UsageLog) : Prop := 0 < row.tokensIn.toInt ∨ 0 < row.tokensOut.toInt

instance (row : UsageLog) : Decidable row.HasTokens := inferInstanceAs (Decidable (_ ∨ _))

/-- The row has tokens, and there was a customer when it was written. -/
def MeterState.Billable (st : MeterState) (row : UsageLog) : Prop :=
  row.HasTokens ∧ ∃ cust ∈ st.customers, cust.keyId = row.keyId ∧ cust.since ≤ row.timestamp

instance (st : MeterState) (row : UsageLog) : Decidable (st.Billable row) :=
  inferInstanceAs (Decidable (_ ∧ ∃ _ ∈ _, _))

/-- Nothing that the event is about was first seen after its sum. -/
def MeterState.UpToDate (st : MeterState) (e : MeterEvent) : Prop :=
  ∀ row ∈ st.usage, st.Billable row →
    e.identifier = identifier row.keyId (hourStart row.timestamp) → row ∈ e.covers

instance (st : MeterState) (e : MeterEvent) : Decidable (st.UpToDate e) :=
  inferInstanceAs (Decidable (∀ _ ∈ _, _ → _ → _))

/-- The event that reaches Stripe in a step. -/
def MeterState.arriving (st : MeterState) : MeterAction → Option MeterEvent
  | .advance i o =>
    match st.runs[i]? with
    | none => none
    | some run =>
      match run.pc with
      | .send cust _ rows => if o = .failed then none else some (meterEvent run cust rows)
      | _ => none
  | .late j =>
    match st.onTheWay[j]? with
    | some (.event e) => some e
    | _ => none
  | _ => none

/-- A run of the present hour came past the row's customer, with the row to be seen. -/
def MeterState.PassedWith (st : MeterState) (row : UsageLog) : Prop :=
  ∃ run ∈ st.runs, run.periodEnd = hourStart st.clock ∧
    ∃ p ∈ run.passed, p.1 = row.keyId ∧ row ∈ st.usage.take p.2

instance (st : MeterState) (row : UsageLog) : Decidable (st.PassedWith row) :=
  inferInstanceAs (Decidable (∃ _ ∈ _, _ ∧ ∃ _ ∈ _, _))

/-- A step of a run without lost usage. Token counts are not negative. Usage commits before
the end of the hour after its own and before Stripe counts an event of its hour, and not
between the sum and the event. Before a clock hour ends, some run of it has passed the
customer of each row of the hour before when the row could be seen. -/
def Served (st : MeterState) (a : MeterAction) : Prop :=
  (∀ e ∈ st.arriving a, (∀ known ∈ st.events, known.identifier ≠ e.identifier) → st.UpToDate e) ∧
  match a with
  | .insertUsage _ _ tokensIn tokensOut _ => 0 ≤ tokensIn.toInt ∧ 0 ≤ tokensOut.toInt
  | .commitUsage j => ∀ row ∈ st.pending[j]?, st.Billable row →
      st.clock < hourStart row.timestamp + 7200000000 ∧
        ¬ st.Sent row.keyId (hourStart row.timestamp)
  | .elapse time => hourStart time = hourStart st.clock ∨
      hourStart time = hourStart st.clock + 3600000000 ∧
        ∀ row ∈ st.usage, st.Billable row →
          hourStart row.timestamp + 3600000000 = hourStart st.clock → st.PassedWith row
  | _ => True

instance (st : MeterState) : (a : MeterAction) → Decidable (Served st a)
  | .insertUsage .. => inferInstanceAs (Decidable (_ ∧ _ ∧ _))
  | .commitUsage j => inferInstanceAs (Decidable (_ ∧ ∀ row ∈ st.pending[j]?, _))
  | .elapse _ => inferInstanceAs (Decidable (_ ∧ (_ ∨ _ ∧ ∀ _ ∈ _, _)))
  | .addCustomer .. | .reorder _ | .start | .advance .. | .giveUp .. | .late _ | .crash _ =>
    inferInstanceAs (Decidable (_ ∧ True))

/-- The usage of customers is in a counted event by the end of the hour after its
own. -/
def Accounted (st : MeterState) : Prop :=
  ∀ row ∈ st.usage, st.Billable row → hourStart row.timestamp + 7200000000 ≤ st.clock →
    ∃ e ∈ st.events, row ∈ e.covers

/-- The hour in which the runs for a period start is over, none of them is under way, Stripe
counts no event of the key for the period, and none is on the way. -/
structure Lost (keyId : String) (start : Int) (st : MeterState) : Prop where
  period : FullHour start
  closed : start + 7200000000 ≤ st.clock
  ended : ∀ run ∈ st.runs, run.periodStart = start → run.pc = .finished ∨ run.pc = .failed
  unsent : ¬ st.Sent keyId start
  arrived : ∀ e, .event e ∈ st.onTheWay → e.identifier ≠ identifier keyId start

/-! ## Sent events and covered rows -/

/-- A sum over usage without negative counts is positive if some row has tokens. -/
theorem totalWeighted_pos {rows : List UsageLog}
    (hnonneg : ∀ row ∈ rows, 0 ≤ row.tokensIn.toInt ∧ 0 ≤ row.tokensOut.toInt) {row : UsageLog}
    (hrow : row ∈ rows) (htokens : row.HasTokens) : 0 < totalWeighted rows := by
  rw [totalWeighted_eq_sum]
  have hweights : ∀ w ∈ rows.map UsageLog.weight, 0 ≤ w := by
    intro w hw
    obtain ⟨r, hr, rfl⟩ := List.mem_map.mp hw
    have := hnonneg r hr
    unfold UsageLog.weight
    omega
  have hle := List.single_le_sum hweights row.weight (List.mem_map_of_mem hrow)
  have hpos : 0 < row.weight := by
    have := hnonneg row hrow
    unfold UsageLog.HasTokens at htokens
    unfold UsageLog.weight
    omega
  omega

/-- An event that is counted after a step of a run and not before reached Stripe in it. -/
theorem arriving_of_advance {st st' : MeterState} {i : Nat} {o : Outcome} {run run' : ReportRun}
    (hget : st.runs[i]? = some run) (hfrom : advance st run o = (st', run')) {e : MeterEvent}
    (he : e ∈ st'.events) : e ∈ st.events ∨ st.arriving (.advance i o) = some e ∧
      ∀ known ∈ st.events, known.identifier ≠ e.identifier := by
  have hadvance := advance_spec st run o
  rw [hfrom] at hadvance
  rcases hadvance.events he with hold | ⟨cust, queue, rows, hpc, rfl, hnew, -⟩
  · exact .inl hold
  · by_cases ho : o = .failed
    · left
      rw [ho, advance, hpc] at hfrom
      cases hfrom
      exact he
    · refine .inr ⟨?_, hnew⟩
      simp [MeterState.arriving, hget, hpc, ho]

theorem arriving_of_late {st : MeterState} {j : Nat} {call : MeterCall}
    (hget : st.onTheWay[j]? = some call) {e : MeterEvent} (he : e ∈ (st.carryOut call).events) :
    e ∈ st.events ∨ st.arriving (.late j) = some e ∧
      ∀ known ∈ st.events, known.identifier ≠ e.identifier := by
  cases call with
  | event e' =>
      rcases MeterState.mem_countEvent he with hold | ⟨rfl, hnew⟩
      · exact .inl hold
      · exact .inr ⟨by simp [MeterState.arriving, hget], hnew⟩
  | report r =>
      rw [MeterState.carryOut, MeterState.insertReport_events] at he
      exact .inl he

/-! ## Served runs lose nothing -/

/-- What a run passed is sent, if there was usage to be seen. -/
def PassedSent (st : MeterState) (run : ReportRun) : Prop :=
  ∀ p ∈ run.passed, p.2 ≤ st.usage.length ∧ ∀ row ∈ st.usage.take p.2, row.HasTokens →
    row.OfHour p.1 run.periodStart → st.Sent p.1 run.periodStart

/-- What holds in the states of a served run. -/
structure ServedInv (st : MeterState) : Prop where
  meters : MeterInv st
  nonneg : ∀ row ∈ st.usage ++ st.pending, 0 ≤ row.tokensIn.toInt ∧ 0 ≤ row.tokensOut.toInt
  upToDate : ∀ e ∈ st.events, st.UpToDate e
  passed : ∀ run ∈ st.runs, PassedSent st run
  sent : ∀ row ∈ st.usage, st.Billable row → hourStart row.timestamp + 7200000000 ≤ st.clock →
    st.Sent row.keyId (hourStart row.timestamp)

/-- Rows that are seen later come after those that there were. -/
theorem PassedSent.later {st st' : MeterState} {run : ReportRun} (hrun : PassedSent st run)
    (h : st.Later st') {rows : List UsageLog} (husage : st'.usage = st.usage ++ rows) :
    PassedSent st' run := by
  intro p hp
  obtain ⟨hle, hsent⟩ := hrun p hp
  rw [husage, List.take_append_of_le_length hle]
  refine ⟨?_, ?_⟩
  · rw [List.length_append]
    omega
  · intro row hrow htokens hof
    exact h.sent (hsent row hrow htokens hof)

/-- A step that sees no new usage and no new customer. -/
theorem ServedInv.later {st st' : MeterState} (hinv : ServedInv st) (hmeters : MeterInv st')
    (h : st.Later st') (husage : st'.usage = st.usage)
    (hpending : ∀ row ∈ st'.pending, 0 ≤ row.tokensIn.toInt ∧ 0 ≤ row.tokensOut.toInt)
    (hcustomers : ∀ cust ∈ st'.customers, cust ∈ st.customers) (hclock : st'.clock = st.clock)
    (hevents : ∀ e ∈ st'.events, e ∈ st.events ∨ st.UpToDate e)
    (hruns : ∀ run ∈ st'.runs, PassedSent st' run) : ServedInv st' := by
  have hbillable : ∀ row, st'.Billable row → st.Billable row := by
    rintro row ⟨htokens, cust, hcust, hcust'⟩
    exact ⟨htokens, cust, hcustomers cust hcust, hcust'⟩
  refine ⟨hmeters, ?_, ?_, hruns, ?_⟩
  · intro row hrow
    rcases List.mem_append.mp hrow with hrow | hrow
    · exact hinv.nonneg row (List.mem_append_left _ (husage ▸ hrow))
    · exact hpending row hrow
  · intro e he row hrow hrow'
    have huptodate : st.UpToDate e := (hevents e he).elim (hinv.upToDate e) id
    exact huptodate row (husage ▸ hrow) (hbillable row hrow')
  · intro row hrow hrow' hover
    rw [hclock] at hover
    exact h.sent (hinv.sent row (husage ▸ hrow) (hbillable row hrow') hover)

/-- **What a run passes is sent**, if there was usage to be seen: a customer with nothing to
bill had none, and a report stands for a counted event. -/
theorem Advance.passedSent {st st' : MeterState} {run run' : ReportRun}
    (h : Advance st run st' run') (hinv : ServedInv st) (hrun : run ∈ st.runs) :
    PassedSent st' run' := by
  have hok := hinv.meters.runs run hrun
  obtain ⟨events, reports, hframe⟩ := h.frame
  have husage : st'.usage = st.usage ++ [] := by simp [hframe]
  have hkept : PassedSent st' run := (hinv.passed run hrun).later h.later husage
  cases h with
  | ended => exact hkept
  | goto | summed | recorded => exact hkept
  | @skip cust queue _ hdone =>
      intro p hp
      rcases List.mem_cons.mp hp with rfl | hp
      · refine ⟨le_rfl, ?_⟩
        intro row hrow htokens hof
        rw [List.take_length] at hrow
        show st.Sent cust.keyId run.periodStart
        rcases hdone with ⟨r, hr, hkey, hperiod⟩ | hzero
        · have hsent := hinv.meters.reports r hr
          rwa [hkey, hperiod] at hsent
        · rw [hok.stop] at hzero
          have hpos := totalWeighted_pos
            (fun r hr => hinv.nonneg r (List.mem_append_left _ (MeterState.mem_usageOf.mp hr).1))
            (MeterState.mem_usageOf.mpr ⟨hrow, hof⟩) htokens
          exact absurd hzero (not_le.mpr hpos)
      · exact hkept p hp
  | @sent cust queue rows pc _ _ =>
      intro p hp
      rcases List.mem_cons.mp hp with rfl | hp
      · refine ⟨?_, ?_⟩
        · rw [hframe]
        · intro row _ _ _
          exact st.countEvent_sent (meterEvent run cust rows)
      · exact hkept p hp

/-- **The end of an hour**: the rows of the hour before are sent by then. -/
theorem servedInv_elapse {st : MeterState} {time : Int} (hinv : ServedInv st)
    (hserved : Served st (.elapse time))
    (hmeters : MeterInv { st with clock := time }) : ServedInv { st with clock := time } where
  meters := hmeters
  nonneg := hinv.nonneg
  upToDate := hinv.upToDate
  passed := hinv.passed
  sent row hrow hbillable hover := by
    have hover : hourStart row.timestamp + 7200000000 ≤ time := hover
    show st.Sent row.keyId (hourStart row.timestamp)
    by_cases hbefore : hourStart row.timestamp + 7200000000 ≤ st.clock
    · exact hinv.sent row hrow hbillable hbefore
    · rcases hserved.2 with hsame | ⟨hnext, hpassed⟩
      · -- the clock does not reach the next hour
        unfold hourStart at hsame hover hbefore
        omega
      · have hpresent : hourStart row.timestamp + 3600000000 = hourStart st.clock := by
          unfold hourStart at hnext hover hbefore ⊢
          omega
        obtain ⟨run, hrun, hstop, p, hp, hkey, hseen⟩ := hpassed row hrow hbillable hpresent
        have hstart : run.periodStart = hourStart row.timestamp := by
          have := (hinv.meters.runs run hrun).stop
          omega
        have hsent := (hinv.passed run hrun p hp).2 row hseen hbillable.1
        rw [hstart, hkey] at hsent
        exact hsent row.ofHour_self

/-- **A row is seen**: its hour is not over for long, and no event of it is counted. -/
theorem servedInv_commitUsage {st : MeterState} {j : Nat} {row : UsageLog} (hinv : ServedInv st)
    (hget : st.pending[j]? = some row) (hserved : Served st (.commitUsage j))
    (hmeters : MeterInv
      { st with usage := st.usage ++ [row], pending := st.pending.eraseIdx j }) :
    ServedInv { st with usage := st.usage ++ [row], pending := st.pending.eraseIdx j } := by
  have hrow := hserved.2 row hget
  refine ⟨hmeters, ?_, ?_, ?_, ?_⟩
  · intro r hr
    apply hinv.nonneg
    simp only [List.mem_append, List.mem_singleton] at hr ⊢
    rcases hr with (hr | rfl) | hr
    · exact .inl hr
    · exact .inr (List.mem_of_getElem? hget)
    · exact .inr (List.mem_of_mem_eraseIdx hr)
  · intro e he r hr hbillable hid
    rcases List.mem_append.mp hr with hr | hr
    · exact hinv.upToDate e he r hr hbillable hid
    · rw [List.mem_singleton.mp hr] at hbillable hid
      exact absurd ⟨e, he, hid⟩ (hrow hbillable).2
  · intro run hrun
    exact (hinv.passed run hrun).later ⟨le_rfl, fun _ h => h⟩ rfl
  · intro r hr hbillable hover
    rcases List.mem_append.mp hr with hr | hr
    · exact hinv.sent r hr hbillable hover
    · rw [List.mem_singleton.mp hr] at hbillable hover
      exact absurd (hrow hbillable).1 (not_lt.mpr hover)

/-- **A new customer**: what was written before is not billed to him. -/
theorem servedInv_addCustomer {st : MeterState} {keyId stripeCustomerId : String}
    (hinv : ServedInv st) (hmeters : MeterInv
      { st with customers := st.customers ++ [⟨keyId, stripeCustomerId, st.clock⟩] }) :
    ServedInv { st with customers := st.customers ++ [⟨keyId, stripeCustomerId, st.clock⟩] } := by
  have hbillable : ∀ row, ({ st with
      customers := st.customers ++ [⟨keyId, stripeCustomerId, st.clock⟩] } : MeterState).Billable row →
      st.Billable row ∨ st.clock ≤ row.timestamp := by
    rintro row ⟨htokens, cust, hcust, hkey, hsince⟩
    rcases List.mem_append.mp hcust with hcust | hcust
    · exact .inl ⟨htokens, cust, hcust, hkey, hsince⟩
    · rw [List.mem_singleton.mp hcust] at hsince
      exact .inr hsince
  refine ⟨hmeters, hinv.nonneg, ?_, hinv.passed, ?_⟩
  · intro e he row hrow hrow' hid
    rcases hbillable row hrow' with hrow' | hlater
    · exact hinv.upToDate e he row hrow hrow' hid
    · -- a counted event is of an hour that was over
      obtain ⟨key, start, hpast, hid', -⟩ := hinv.meters.events e he
      obtain ⟨-, hstart⟩ := identifier_inj (fullHour_hourStart (hinv.meters.usage row hrow)) hpast.1
        (hid.symm.trans hid')
      have hover := hpast.2
      unfold hourStart at hstart
      omega
  · intro row hrow hrow' hover
    rcases hbillable row hrow' with hrow' | hlater
    · exact hinv.sent row hrow hrow' hover
    · have hover : hourStart row.timestamp + 7200000000 ≤ st.clock := hover
      unfold hourStart at hover
      omega

theorem servedInv_step {st st' : MeterState} {a : MeterAction} (hinv : ServedInv st)
    (hserved : Served st a) (hstep : meterStep st a = some st') : ServedInv st' := by
  have hmeters := meterInv_step hinv.meters hstep
  have hpending : ∀ row ∈ st.pending, 0 ≤ row.tokensIn.toInt ∧ 0 ≤ row.tokensOut.toInt :=
    fun row hrow => hinv.nonneg row (List.mem_append_right _ hrow)
  -- a run that passes nothing more in the place of another
  have hset : ∀ (i : Nat) (run next : ReportRun), st.runs[i]? = some run →
      next.passed = run.passed → next.periodStart = run.periodStart →
      ∀ r ∈ st.runs.set i next, PassedSent st r := by
    intro i run next hget hpassed hperiod r hr
    rcases List.mem_or_eq_of_mem_set hr with hr | rfl
    · exact hinv.passed r hr
    · unfold PassedSent
      rw [hpassed, hperiod]
      exact hinv.passed run (List.mem_of_getElem? hget)
  cases move_of_step hstep with
  | insertUsage =>
      refine hinv.later hmeters ⟨le_rfl, fun _ h => h⟩ rfl ?_ (fun _ h => h) rfl
        (fun _ he => .inl he) hinv.passed
      exact List.forall_mem_append.mpr ⟨hpending, List.forall_mem_singleton.mpr hserved.2⟩
  | commitUsage hget => exact servedInv_commitUsage hinv hget hserved hmeters
  | addCustomer => exact servedInv_addCustomer hinv hmeters
  | reorder hperm =>
      exact hinv.later hmeters ⟨le_rfl, fun _ h => h⟩ rfl hpending
        (fun _ h => hperm.mem_iff.mp h) rfl (fun _ he => .inl he) hinv.passed
  | elapse => exact servedInv_elapse hinv hserved hmeters
  | start =>
      refine hinv.later hmeters ⟨le_rfl, fun _ h => h⟩ rfl hpending (fun _ h => h) rfl
        (fun _ he => .inl he) ?_
      refine List.forall_mem_append.mpr ⟨hinv.passed, List.forall_mem_singleton.mpr ?_⟩
      intro p hp
      cases hp
  | advance hget hfrom hadvance =>
      have hlater := hadvance.later
      refine hinv.later hmeters ⟨hlater.clock, hlater.events⟩ rfl hpending (fun _ h => h) rfl ?_ ?_
      · intro e he
        refine (arriving_of_advance hget hfrom he).imp_right ?_
        rintro ⟨harriving, hnew⟩
        exact hserved.1 e harriving hnew
      · intro run hrun
        rcases List.mem_or_eq_of_mem_set hrun with hrun | rfl
        · exact (hinv.passed run hrun).later ⟨hlater.clock, hlater.events⟩
            (List.append_nil _).symm
        · exact hadvance.passedSent hinv (List.mem_of_getElem? hget)
  | giveUp hget hgiveUp =>
      refine hinv.later hmeters ⟨le_rfl, fun _ h => h⟩ rfl hpending (fun _ h => h) rfl
        (fun _ he => .inl he) ?_
      rcases giveUp_cases hgiveUp with ⟨_, _, _, _, -, -, -, rfl⟩ | ⟨_, _, _, -, -, rfl⟩
      · exact hset _ _ _ hget rfl rfl
      · exact hset _ _ _ hget rfl rfl
  | @late _ call _ _ hget hcarry =>
      have hlater := st.carryOut_later call
      rw [hcarry] at hlater
      refine hinv.later hmeters ⟨hlater.clock, hlater.events⟩ rfl hpending (fun _ h => h) rfl ?_ ?_
      · intro e he
        refine (arriving_of_late hget (by rwa [hcarry])).imp_right ?_
        rintro ⟨harriving, hnew⟩
        exact hserved.1 e harriving hnew
      · intro run hrun
        exact (hinv.passed run hrun).later ⟨hlater.clock, hlater.events⟩
          (List.append_nil _).symm
  | crash hget =>
      refine hinv.later hmeters ⟨le_rfl, fun _ h => h⟩ rfl hpending (fun _ h => h) rfl
        (fun _ he => .inl he) ?_
      exact hset _ _ _ hget rfl rfl

/-- A run that has not ended is of another hour, and so are its events. -/
theorem Advance.unsent {keyId : String} {start : Int} {st st' : MeterState} {run run' : ReportRun}
    (h : Advance st run st' run') (hinv : MeterInv st) (hlost : Lost keyId start st)
    (hrun : run ∈ st.runs) : ¬ st'.Sent keyId start := by
  rintro ⟨e, he, hid⟩
  rcases h.events he with he | ⟨cust, queue, rows, hpc, rfl, -⟩
  · exact hlost.unsent ⟨e, he, hid⟩
  · have hpast := (hinv.runs run hrun).past
    have hsame := (identifier_inj hpast.1 hlost.period hid).2
    rcases hlost.ended run hrun hsame with hended | hended
    · simp [hpc] at hended
    · simp [hpc] at hended

/-- A call that is given up is of another hour. -/
theorem giveUp_other {keyId : String} {start : Int} {st : MeterState} {run run' : ReportRun}
    {crashed : Bool} {call : MeterCall} (h : giveUp run crashed = some (call, run'))
    (hlost : Lost keyId start st) (hrun : run ∈ st.runs) :
    run'.periodStart = run.periodStart ∧ run.periodStart ≠ start ∧
      ∀ e, call = .event e → ∃ key ∈ run'.gaveUp, e.identifier = identifier key run.periodStart := by
  have hother : run.pc ≠ .finished → run.pc ≠ .failed → run.periodStart ≠ start := by
    intro hfinished hfailed hsame
    exact (hlost.ended run hrun hsame).elim hfinished hfailed
  rcases giveUp_cases h with ⟨cust, queue, rows, pc, hpc, -, rfl, rfl⟩ | ⟨_, _, _, hpc, rfl, rfl⟩
  · refine ⟨rfl, hother (by simp [hpc]) (by simp [hpc]), ?_⟩
    rintro e he
    cases he
    exact ⟨cust.keyId, List.mem_cons_self, rfl⟩
  · refine ⟨rfl, hother (by simp [hpc]) (by simp [hpc]), ?_⟩
    rintro e he
    cases he

/-- A run that takes the place of another is not under way for the lost period either. -/
theorem Lost.set {keyId : String} {start : Int} {st : MeterState} (h : Lost keyId start st) {i : Nat}
    {next : ReportRun}
    (hnext : next.periodStart = start → next.pc = .finished ∨ next.pc = .failed) :
    ∀ run ∈ st.runs.set i next, run.periodStart = start → run.pc = .finished ∨ run.pc = .failed := by
  intro run hrun
  rcases List.mem_or_eq_of_mem_set hrun with hrun | rfl
  · exact h.ended run hrun
  · exact hnext

/-- **Nothing brings a lost hour back**: every step keeps it lost. -/
theorem lost_step {keyId : String} {start : Int} {st st' : MeterState} {a : MeterAction}
    (hinv : MeterInv st) (hlost : Lost keyId start st) (hstep : meterStep st a = some st') :
    Lost keyId start st' := by
  have ⟨hperiod, hclosed, hended, hunsent, harrived⟩ := hlost
  cases move_of_step hstep with
  | insertUsage | commitUsage | addCustomer | reorder =>
      exact ⟨hperiod, hclosed, hended, hunsent, harrived⟩
  | elapse htime => exact ⟨hperiod, hclosed.trans htime, hended, hunsent, harrived⟩
  | start =>
      refine ⟨hperiod, hclosed, ?_, hunsent, harrived⟩
      intro run hrun hstart
      rcases List.mem_append.mp hrun with hrun | hrun
      · exact hended run hrun hstart
      · -- a new run looks at a later hour
        rw [List.mem_singleton.mp hrun] at hstart
        have hstart : hourStart st.clock - 3600000000 = start := hstart
        unfold hourStart at hstart
        omega
  | advance hget _ hadvance =>
      have hrun := List.mem_of_getElem? hget
      obtain ⟨hkeeps, -, -, hstays⟩ := hadvance.run
      refine ⟨hperiod, hclosed, hlost.set ?_, hadvance.unsent hinv hlost hrun, harrived⟩
      intro hstart
      have hold := hended _ hrun (hkeeps.symm.trans hstart)
      rwa [hstays hold]
  | giveUp hget hgiveUp =>
      have hrun := List.mem_of_getElem? hget
      obtain ⟨hkeeps, hother, hevent⟩ := giveUp_other hgiveUp hlost hrun
      refine ⟨hperiod, hclosed, hlost.set ?_, hunsent, ?_⟩
      · intro hstart
        exact absurd (hkeeps.symm.trans hstart) hother
      · intro e he hid
        rcases List.mem_append.mp he with he | he
        · exact harrived e he hid
        · obtain ⟨key, -, hid'⟩ := hevent e (List.mem_singleton.mp he).symm
          have hpast := (hinv.runs _ hrun).past
          exact hother (identifier_inj hpast.1 hperiod (hid'.symm.trans hid)).2
  | @late _ call _ _ hget hcarry =>
      refine ⟨hperiod, hclosed, hended, ?_, ?_⟩
      · rintro ⟨e, he, hid⟩
        rcases arriving_of_late hget (by rwa [hcarry]) with he | ⟨harriving, -⟩
        · exact hunsent ⟨e, he, hid⟩
        · cases call with
          | event e' =>
              obtain rfl : e' = e := by simpa [MeterState.arriving, hget] using harriving
              exact harrived e' (List.mem_of_getElem? hget) hid
          | report r => simp [MeterState.arriving, hget] at harriving
      · intro e he
        exact harrived e (List.mem_of_mem_eraseIdx he)
  | crash => exact ⟨hperiod, hclosed, hlost.set fun _ => .inr rfl, hunsent, harrived⟩

/-- **An unreported hour stays unreported**: from a state in which it is lost, no
actions whatever lead to an event that covers a row of the key and the hour. -/
theorem lost_for_good {st st' : MeterState} (hreach : metering.Reachable st) {row : UsageLog}
    (hlost : Lost row.keyId (hourStart row.timestamp) st) {actions : List MeterAction}
    (hrun : metering.run (fun _ _ => True) st actions = some st') :
    ∀ e ∈ st'.events, row ∉ e.covers := by
  have hinv : MeterInv st' ∧ Lost row.keyId (hourStart row.timestamp) st' := by
    refine System.run_invariant
      (fun s => MeterInv s ∧ Lost row.keyId (hourStart row.timestamp) s) ?_
      ⟨meterInv_of_reachable hreach, hlost⟩ hrun
    rintro s a s' ⟨hs, hslost⟩ - hstep
    exact ⟨meterInv_step hs hstep, lost_step hs hslost hstep⟩
  intro e he hrow
  exact hinv.2.unsent ⟨e, he, identifier_of_covers (hinv.1.events e he) hrow⟩

/-! ## Why usage is lost -/

/-- The keys that the run came past, and those whose event it gave up. -/
def ReportRun.tried (run : ReportRun) : List String := run.passed.map Prod.fst ++ run.gaveUp

theorem ReportRun.tried_gaveUp (run : ReportRun) (pc : ReportPc) (key : String) :
    run.tried ⊆ { run with pc, gaveUp := key :: run.gaveUp }.tried := by
  intro k hk
  rcases List.mem_append.mp hk with hk | hk
  · exact List.mem_append_left _ hk
  · exact List.mem_append_right _ (List.mem_cons_of_mem key hk)

/-- A run tried the key of the event in the event's period. -/
def SentBy (st : MeterState) (e : MeterEvent) : Prop :=
  ∃ run ∈ st.runs, ∃ keyId ∈ run.tried, e.identifier = identifier keyId run.periodStart

/-- What a run tried stays tried when another run, or a later state of it, takes its place. -/
theorem SentBy.set {st : MeterState} {e : MeterEvent} (h : SentBy st e) {i : Nat}
    {run next : ReportRun} (hget : st.runs[i]? = some run)
    (hperiod : next.periodStart = run.periodStart) (htried : run.tried ⊆ next.tried) :
    SentBy { st with runs := st.runs.set i next } e := by
  obtain ⟨r, hr, keyId, hkey, hid⟩ := h
  obtain ⟨j, hj⟩ := List.mem_iff_getElem?.mp hr
  by_cases hij : i = j
  · have hrun : run = r := by
      rw [hij, hj] at hget
      exact (Option.some.inj hget).symm
    subst hrun
    have hlength := (List.getElem?_eq_some_iff.mp hget).1
    exact ⟨next, List.mem_set hlength next, keyId, htried hkey, by rw [hperiod, hid]⟩
  · refine ⟨r, ?_, keyId, hkey, hid⟩
    exact List.mem_of_getElem? ((List.getElem?_set_ne hij).trans hj)

theorem Advance.tried {st st' : MeterState} {run run' : ReportRun} (h : Advance st run st' run') :
    run.tried ⊆ run'.tried := by
  obtain ⟨-, hpassed, hgaveUp, -⟩ := h.run
  intro key hkey
  rcases List.mem_append.mp hkey with hkey | hkey
  · exact List.mem_append_left _ (List.map_subset _ hpassed hkey)
  · exact List.mem_append_right _ (hgaveUp ▸ hkey)

/-- Every event, counted or on the way, comes from a run that tried its key. -/
theorem sentBy_step {st st' : MeterState} {a : MeterAction}
    (hinv : ∀ e, e ∈ st.events ∨ .event e ∈ st.onTheWay → SentBy st e)
    (hstep : meterStep st a = some st') :
    ∀ e, e ∈ st'.events ∨ .event e ∈ st'.onTheWay → SentBy st' e := by
  cases move_of_step hstep with
  | insertUsage | commitUsage | addCustomer | reorder | elapse => exact hinv
  | start =>
      intro e he
      obtain ⟨run, hrun, hsent⟩ := hinv e he
      exact ⟨run, List.mem_append_left _ hrun, hsent⟩
  | advance hget _ hadvance =>
      rintro e he
      have hperiod := hadvance.run.1
      have hold : e ∈ st.events ∨ .event e ∈ st.onTheWay → SentBy _ e :=
        fun he => (hinv e he).set hget hperiod hadvance.tried
      rcases he with he | he
      · rcases hadvance.events he with he | ⟨cust, queue, rows, -, rfl, -, hkey⟩
        · exact hold (.inl he)
        · have hlength := (List.getElem?_eq_some_iff.mp hget).1
          refine ⟨_, List.mem_set hlength _, cust.keyId, ?_, by rw [hperiod]; rfl⟩
          exact List.mem_append_left _ (List.mem_map_of_mem hkey)
      · exact hold (.inr he)
  | @giveUp _ _ run _ _ hget hgiveUp =>
      have hlength := (List.getElem?_eq_some_iff.mp hget).1
      rcases giveUp_cases hgiveUp with
        ⟨cust, queue, rows, pc, -, -, rfl, rfl⟩ | ⟨_, _, _, -, rfl, rfl⟩
      · rintro e he
        have hmore := run.tried_gaveUp pc cust.keyId
        rcases he with he | he
        · exact (hinv e (.inl he)).set hget rfl hmore
        · rcases List.mem_append.mp he with he | he
          · exact (hinv e (.inr he)).set hget rfl hmore
          · cases List.mem_singleton.mp he
            exact ⟨_, List.mem_set hlength _, cust.keyId,
              List.mem_append_right _ List.mem_cons_self, rfl⟩
      · rintro e he
        refine (hinv e (he.imp_right ?_)).set hget rfl fun _ h => h
        intro he
        rcases List.mem_append.mp he with he | he
        · exact he
        · cases List.mem_singleton.mp he
  | @late _ call _ _ hget hcarry =>
      rintro e (he | he)
      · apply hinv
        rcases arriving_of_late hget (by rwa [hcarry]) with he | ⟨harriving, -⟩
        · exact .inl he
        · right
          cases call with
          | event e' =>
              obtain rfl : e' = e := by simpa [MeterState.arriving, hget] using harriving
              exact List.mem_of_getElem? hget
          | report r => simp [MeterState.arriving, hget] at harriving
      · exact hinv e (.inr (List.mem_of_mem_eraseIdx he))
  | crash hget =>
      intro e he
      exact (hinv e he).set hget rfl fun _ h => h

/-- **The condition is exact for runs that end within their hour**: if no run of
an hour passed the key of a row or gave up its event, and they have all ended when the
hour is over, then the row is lost. -/
theorem lost_of_not_passed {st : MeterState} (h : metering.Reachable st) {row : UsageLog}
    (hrow : row ∈ st.usage) (hclosed : hourStart row.timestamp + 7200000000 ≤ st.clock)
    (hended : ∀ run ∈ st.runs, run.periodStart = hourStart row.timestamp →
      (run.pc = .finished ∨ run.pc = .failed) ∧ row.keyId ∉ run.tried) :
    Lost row.keyId (hourStart row.timestamp) st := by
  have hinv := meterInv_of_reachable h
  have hsentBy : ∀ e, e ∈ st.events ∨ .event e ∈ st.onTheWay → SentBy st e := by
    apply h.invariant (fun s => ∀ e, e ∈ s.events ∨ .event e ∈ s.onTheWay → SentBy s e)
    · rintro s ⟨-, -, -, -, -, hevents, hcalls, -⟩
      simp [hevents, hcalls]
    · intro s a s' hs _ hstep
      exact sentBy_step hs hstep
  have hperiod := fullHour_hourStart (hinv.usage row hrow)
  have hnone : ∀ e, e ∈ st.events ∨ .event e ∈ st.onTheWay →
      e.identifier ≠ identifier row.keyId (hourStart row.timestamp) := by
    intro e he hid
    obtain ⟨run, hrun, keyId, hkey, hid'⟩ := hsentBy e he
    obtain ⟨hsame, hstart⟩ := identifier_inj (hinv.runs run hrun).past.1 hperiod
      (hid'.symm.trans hid)
    rw [hsame] at hkey
    exact (hended run hrun hstart).2 hkey
  refine ⟨hperiod, hclosed, fun run hrun hstart => (hended run hrun hstart).1, ?_,
    fun e he => hnone e (.inr he)⟩
  rintro ⟨e, he, hid⟩
  exact hnone e (.inl he) hid

/-- **A row that comes late is lost**: once Stripe counts an event of the hour without the
row, no actions whatever lead to one that covers it. -/
theorem late_row_is_lost {st st' : MeterState} (hreach : metering.Reachable st) {row : UsageLog}
    (hsent : st.Sent row.keyId (hourStart row.timestamp))
    (huncovered : ∀ e ∈ st.events, row ∉ e.covers) {actions : List MeterAction}
    (hrun : metering.run (fun _ _ => True) st actions = some st') :
    ∀ e ∈ st'.events, row ∉ e.covers := by
  obtain ⟨first, hfirst, hid⟩ := hsent
  have hinv : MeterInv st' ∧ first ∈ st'.events := by
    refine System.run_invariant (fun s => MeterInv s ∧ first ∈ s.events) ?_
      ⟨meterInv_of_reachable hreach, hfirst⟩ hrun
    rintro s a s' ⟨hs, hsfirst⟩ - hstep
    exact ⟨meterInv_step hs hstep, (later_of_step hstep).events first hsfirst⟩
  intro e he hrow
  have hsame : e = first := by
    by_contra hne
    have : Std.Symm fun a b : MeterEvent => a.identifier ≠ b.identifier := ⟨fun _ _ h => h.symm⟩
    have hdistinct := hinv.1.distinct.forall he hinv.2 hne
    exact hdistinct ((identifier_of_covers (hinv.1.events e he) hrow).trans hid.symm)
  rw [hsame] at hrow
  exact huncovered first hfirst hrow

/-! ## Concrete hours -/

/-- A customer uses tokens in the first hour, and a row of it commits only in the second one.
In that hour the report starts three times: a refused event for the first start, none for the
second, which is given up on the way, and an accepted one with both rows for the third. -/
def refusedOnce : List MeterAction :=
  List.flatten [
    [.addCustomer "key-1" "cus_1", .insertUsage "key-1" "llama3.2:3b" 7 5 3600000000,
      .insertUsage "key-1" "llama3.2:3b" 1 1 7199000000, .commitUsage 0, .start],
    advanceAll [0, 0, 0, 0], [.elapse 7200000000, .start], advanceAll [1, 1, 1],
    [.advance 1 .failed], advanceAll [1], [.commitUsage 0, .start], advanceAll [2, 2, 2],
    [.giveUp 2 true, .start], advanceAll [3, 3, 3, 3, 3, 3], [.late 0, .elapse 10800000000]]

/-- The same hours with one start each. -/
def rejectedHour : List MeterAction :=
  List.flatten [
    [.addCustomer "key-1" "cus_1", .insertUsage "key-1" "llama3.2:3b" 7 5 3600000000,
      .commitUsage 0, .start],
    advanceAll [0, 0, 0, 0], [.elapse 7200000000, .start], advanceAll [1, 1, 1],
    [.advance 1 .failed], advanceAll [1], [.elapse 10800000000]]

/-- The usage that Stripe refused. -/
def refusedRow : UsageLog := ⟨0, "key-1", "llama3.2:3b", 7, 5, 3600000000⟩

/-- The third hour after it: both runs have ended, nothing is reported. -/
def unreported : MeterState :=
  { clock := 10800000000
    usage := [refusedRow]
    pending := []
    customers := [⟨"key-1", "cus_1", 3600000000⟩]
    reports := []
    events := []
    onTheWay := []
    runs := [⟨0, 3600000000, .finished, [("key-1", 1)], []⟩,
      ⟨3600000000, 7200000000, .finished, [], []⟩] }

end InferPlatform.Gateway
