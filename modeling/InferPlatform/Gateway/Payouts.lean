import InferPlatform.Base.System
import InferPlatform.Gateway.Billing
import Mathlib

/-!
# Nightly payouts

Every gateway process runs a loop that wakes up every five minutes and, in the
hour from 02:00 UTC, calls `process_payouts` unless it has done so today. That
it has is only known to the process itself. A payout run counts the usage of the
last 24 hours and splits it among the providers.

* `processPayouts`, `payoutCheck` — one payout run, one wake-up;
* `payoutLoop` — any number of processes that start, wake up and stop;
* `paidOnce_of_orderly` — **no usage is paid twice in runs in which a process that wakes
  up to pay is the only one, none starts after the payout of the hour, and payouts do not
  come earlier in the day than the day before**;
* `restart_pays_twice` — a restart during the hour pays the same usage again.
-/

namespace InferPlatform.Gateway

/-! ## One payout run -/

structure Provider where
  nodeId : String
  stripeAccountId : String
  deriving DecidableEq, Repr

/-- `state.db` and `state.stripe` are set; the payout per provider, in cents, of
a weighted token total among a number of providers. -/
structure PayoutConfig where
  db : Bool
  stripe : Bool
  cents : Int → Nat → UInt64

/-- The payout per provider as the code computes it from the configured rates. -/
def centsOf (tokenRateUsdPer1k commissionRate : Float) (totalWeighted : Int) (providers : Nat) :
    UInt64 :=
  let grossUsd := Float.ofInt totalWeighted * tokenRateUsdPer1k / 1000.0
  let providerPoolUsd := grossUsd * (1.0 - commissionRate)
  let perProviderUsd := providerPoolUsd / providers.toFloat
  (perProviderUsd * 100.0).floor.toUInt64

/-- What database and Stripe answer in one run: whether the two queries succeed,
and whose transfer is accepted. -/
structure PayoutOutcome where
  providersOk : Bool
  totalsOk : Bool
  accepted : Provider → Bool

/-- A run that got as far as creating transfers: its window, the usage it counted
and what became of each transfer. -/
structure PayoutRun where
  periodStart : Int
  now : Int
  counted : List UsageLog
  perProviderCents : UInt64
  transfers : List (Provider × Bool)
  deriving DecidableEq, Repr

/-- Some transfer was created. -/
def PayoutRun.Pays (run : PayoutRun) : Prop := ∃ t ∈ run.transfers, t.2 = true

instance (run : PayoutRun) : Decidable run.Pays := inferInstanceAs (Decidable (∃ _ ∈ _, _))

/-- `process_payouts` at the clock reading `now`: an error where a query fails,
else the run, or nothing where there is nothing to transfer. -/
def processPayouts (cfg : PayoutConfig) (usage : List UsageLog) (providers : List Provider)
    (now : Int) (o : PayoutOutcome) : Except Unit (Option PayoutRun) :=
  if ¬ (cfg.db ∧ cfg.stripe) then .ok none
  else
    let periodStart := now - 86400000000
    if ¬ o.providersOk then .error ()
    else if providers = [] then .ok none
    -- without providers the usage is not even read
    else if ¬ o.totalsOk then .error ()
    else
      -- the window ends now, not at the end of the day
      let counted := usage.filter fun row => row.Within periodStart now
      let total := totalWeighted counted
      if total = 0 then .ok none
      else
        let perProviderCents := cfg.cents total providers.length
        if perProviderCents = 0 then .ok none
        else .ok (some ⟨periodStart, now, counted, perProviderCents,
          providers.map fun p => (p, o.accepted p)⟩)

/-- What the loop does after a wake-up at `now`: the payout day it remembers, and
the run it made. `process_payouts` reads the clock again, at `runNow`. -/
def payoutCheck (cfg : PayoutConfig) (usage : List UsageLog) (providers : List Provider)
    (lastPayoutDay : Option Nat) (now runNow : Int) (o : PayoutOutcome) :
    Option Nat × Option PayoutRun :=
  if hour now = 2 then
    let today := ordinal (dayOf now)
    if lastPayoutDay ≠ some today then
      match processPayouts cfg usage providers runNow o with
      -- tried again at the next wake-up
      | .error _ => (lastPayoutDay, none)
      | .ok run => (some today, run)
    else (lastPayoutDay, none)
  else (lastPayoutDay, none)

/-! ## The loop -/

/-- A gateway process: when its loop wakes up next, and what it remembers. -/
structure PayoutProcess where
  pid : Nat
  nextTick : Int
  lastPayoutDay : Option Nat
  deriving DecidableEq, Repr

/-- `clock` is the last clock reading. -/
structure PayoutState where
  clock : Int
  usage : List UsageLog
  providers : List Provider
  processes : List PayoutProcess
  runs : List PayoutRun
  deriving DecidableEq, Repr

inductive PayoutAction
  | insertUsage (row : UsageLog)
  | setProviders (providers : List Provider)
  | start (pid : Nat) (time : Int)
  | stop (pid : Nat)
  | tick (pid : Nat) (now runNow : Int) (o : PayoutOutcome)

/-- The state after a wake-up of process `p`; the interval's next tick is five
minutes after this one was due. -/
def tickState (cfg : PayoutConfig) (st : PayoutState) (p : PayoutProcess) (now runNow : Int)
    (o : PayoutOutcome) : PayoutState :=
  let check := payoutCheck cfg st.usage st.providers p.lastPayoutDay now runNow o
  { st with
    clock := runNow
    processes := st.processes.map fun q =>
      if q.pid = p.pid then ⟨p.pid, p.nextTick + 300000000, check.1⟩ else q
    runs := st.runs ++ check.2.toList }

/-- The interval of a new process ticks at once. Ticks may be late, not early. -/
def payoutStep (cfg : PayoutConfig) (st : PayoutState) : PayoutAction → Option PayoutState
  | .insertUsage row => some { st with usage := st.usage ++ [row] }
  | .setProviders providers => some { st with providers }
  | .start pid time =>
    if st.clock ≤ time ∧ ∀ p ∈ st.processes, p.pid ≠ pid then
      -- a new process remembers no payout
      some { st with clock := time, processes := ⟨pid, time, none⟩ :: st.processes }
    else none
  | .stop pid => some { st with processes := st.processes.filter fun p => p.pid ≠ pid }
  | .tick pid now runNow o =>
    match st.processes.find? fun p => p.pid = pid with
    | none => none
    | some p =>
      if p.nextTick ≤ now ∧ st.clock ≤ now ∧ now ≤ runNow then
        some (tickState cfg st p now runNow o)
      else none

/-- The payout loops of all gateway processes over one database, from any
contents of it. -/
def payoutLoop (cfg : PayoutConfig) : System PayoutState PayoutAction where
  init st := st.processes = [] ∧ st.runs = []
  step := payoutStep cfg

def PayoutState.payingRuns (st : PayoutState) : List PayoutRun :=
  st.runs.filter fun run => run.Pays

/-- The windows of the runs that paid do not overlap, and no usage row was
counted by two of them. -/
def PaidOnce (st : PayoutState) : Prop :=
  st.payingRuns.Pairwise fun a b =>
    Disjoint (Set.Ico a.periodStart a.now) (Set.Ico b.periodStart b.now) ∧
      ∀ row ∈ a.counted, row ∉ b.counted

/-- The process wakes up in the payout hour and has not paid today, as far as it knows. -/
def PayoutProcess.Unpaid (p : PayoutProcess) (now : Int) : Prop :=
  hour now = 2 ∧ p.lastPayoutDay ≠ some (ordinal (dayOf now))

instance (p : PayoutProcess) (now : Int) : Decidable (p.Unpaid now) :=
  inferInstanceAs (Decidable (_ ∧ _))

/-- A step of an orderly run. In the payout hour no process starts after the payout of the
day, and one that wakes up to pay is the only one. It reads the clock the same day, and not
at an earlier time of the day than the payout of the day before: where both came at the
first wake-up of the hour, in a later phase of the five minutes, or in the same one and no
less late. -/
def Orderly (st : PayoutState) : PayoutAction → Prop
  | .start _ time => hour time = 2 → ∀ run ∈ st.payingRuns, dayOf run.now ≠ dayOf time
  | .tick pid now runNow _ => ∀ p ∈ st.processes, p.pid = pid → p.Unpaid now →
      st.processes = [p] ∧ dayOf runNow = dayOf now ∧
        ∀ run ∈ st.payingRuns, dayOf run.now + 1 = dayOf now →
          run.now % 86400000000 ≤ runNow % 86400000000
  | _ => True

instance (st : PayoutState) : (a : PayoutAction) → Decidable (Orderly st a)
  | .start _ _ => inferInstanceAs (Decidable (_ → _))
  | .tick _ _ _ _ => inferInstanceAs (Decidable (∀ _ ∈ _, _))
  | .insertUsage _ | .setProviders _ | .stop _ => inferInstanceAs (Decidable True)

/-! ## What a run and a wake-up do -/

/-- A run counts usage of its window only. -/
structure PayoutRun.Ok (run : PayoutRun) (now : Int) : Prop where
  now_eq : run.now = now
  start_eq : run.periodStart = now - 86400000000
  counted : ∀ row ∈ run.counted, row.Within run.periodStart run.now

/-- Whatever a run does, it counts usage of its window only. -/
theorem processPayouts_ok {cfg : PayoutConfig} {usage : List UsageLog}
    {providers : List Provider} {now : Int} {o : PayoutOutcome} {run : PayoutRun}
    (h : processPayouts cfg usage providers now o = .ok (some run)) : run.Ok now := by
  unfold processPayouts at h
  dsimp only at h
  split at h
  · cases h
  split at h
  · cases h
  split at h
  · cases h
  split at h
  · cases h
  split at h
  · cases h
  split at h
  · cases h
  · cases h
    refine ⟨rfl, rfl, ?_⟩
    intro row hrow
    simpa using (List.mem_filter.mp hrow).2

/-- A wake-up does nothing, unless it is one to pay. A run that it makes then is known to the
process afterwards. -/
theorem payoutCheck_cases (cfg : PayoutConfig) (usage : List UsageLog) (providers : List Provider)
    (p : PayoutProcess) (now runNow : Int) (o : PayoutOutcome) :
    let check := payoutCheck cfg usage providers p.lastPayoutDay now runNow o
    (¬ p.Unpaid now ∧ check = (p.lastPayoutDay, none)) ∨
      (p.Unpaid now ∧ check = (p.lastPayoutDay, none)) ∨
      (p.Unpaid now ∧ ∃ run, check = (some (ordinal (dayOf now)), run) ∧
        ∀ r ∈ run.toList, r.Ok runNow) := by
  dsimp only
  unfold payoutCheck PayoutProcess.Unpaid
  dsimp only
  by_cases hhour : hour now = 2
  · rw [if_pos hhour]
    by_cases hlast : p.lastPayoutDay = some (ordinal (dayOf now))
    · rw [if_neg (not_not.mpr hlast)]
      exact .inl ⟨fun h => h.2 hlast, rfl⟩
    · rw [if_pos hlast]
      right
      cases hrun : processPayouts cfg usage providers runNow o with
      | error e => exact .inl ⟨⟨hhour, hlast⟩, rfl⟩
      | ok run =>
          refine .inr ⟨⟨hhour, hlast⟩, run, rfl, ?_⟩
          intro r hr
          obtain rfl : run = some r := by simpa using hr
          exact processPayouts_ok hrun
  · rw [if_neg hhour]
    exact .inl ⟨fun h => hhour h.1, rfl⟩

/-! ## The invariant of orderly runs -/

/-- What holds of a run: it was made after 02:00, and is past. -/
structure RunOk (st : PayoutState) (run : PayoutRun) : Prop where
  ok : run.Ok run.now
  late : 7200000000 ≤ run.now % 86400000000
  past : run.now ≤ st.clock

/-- A process that may still wake up in the payout hour of a day with a payout knows of it. -/
def Remembers (st : PayoutState) (p : PayoutProcess) : Prop :=
  ∀ run ∈ st.payingRuns, ∀ now, p.nextTick ≤ now → st.clock ≤ now → hour now = 2 →
    dayOf now = dayOf run.now → p.lastPayoutDay = some (ordinal (dayOf now))

structure PayoutInv (st : PayoutState) : Prop where
  runs : ∀ run ∈ st.runs, RunOk st run
  remembers : ∀ p ∈ st.processes, Remembers st p
  apart : st.payingRuns.Pairwise fun a b => a.now + 86400000000 ≤ b.now

theorem payoutInv_init {st : PayoutState} (h : st.processes = [] ∧ st.runs = []) :
    PayoutInv st := by
  obtain ⟨hprocesses, hruns⟩ := h
  constructor
  · simp [hruns]
  · simp [hprocesses]
  · simp [PayoutState.payingRuns, hruns]

theorem RunOk.mono {st st' : PayoutState} {run : PayoutRun} (h : RunOk st run)
    (hclock : st.clock ≤ st'.clock) : RunOk st' run :=
  ⟨h.ok, h.late, h.past.trans hclock⟩

/-- As time goes on a process has to remember no more. -/
theorem Remembers.mono {st st' : PayoutState} {p p' : PayoutProcess} (h : Remembers st p)
    (hruns : st'.runs = st.runs) (hclock : st.clock ≤ st'.clock) (htick : p.nextTick ≤ p'.nextTick)
    (hlast : p'.lastPayoutDay = p.lastPayoutDay) : Remembers st' p' := by
  intro run hrun now hnext hnow
  rw [PayoutState.payingRuns, hruns] at hrun
  rw [hlast]
  exact h run hrun now (htick.trans hnext) (hclock.trans hnow)

/-- The processes and the clock go on, and no run is made. -/
theorem PayoutInv.goOn {st st' : PayoutState} (hinv : PayoutInv st) (hruns : st'.runs = st.runs)
    (hclock : st.clock ≤ st'.clock)
    (hprocesses : ∀ p' ∈ st'.processes, ∃ p ∈ st.processes, p.nextTick ≤ p'.nextTick ∧
      p'.lastPayoutDay = p.lastPayoutDay) : PayoutInv st' := by
  refine ⟨?_, ?_, ?_⟩
  · intro run hrun
    exact (hinv.runs run (hruns ▸ hrun)).mono hclock
  · intro p' hp'
    obtain ⟨p, hp, htick, hlast⟩ := hprocesses p' hp'
    exact (hinv.remembers p hp).mono hruns hclock htick hlast
  · rw [PayoutState.payingRuns, hruns]
    exact hinv.apart

/-- A new process starts outside of every payout hour in which there was a payout. -/
theorem remembers_start {st : PayoutState} (hinv : PayoutInv st) {pid : Nat} {time : Int}
    (hclock : st.clock ≤ time)
    (hhour : hour time = 2 → ∀ run ∈ st.payingRuns, dayOf run.now ≠ dayOf time) :
    Remembers { st with clock := time } ⟨pid, time, none⟩ := by
  intro run hrun now hnext _ htwo hday
  have hnext : time ≤ now := hnext
  obtain ⟨-, hlate, hpast⟩ := hinv.runs run (List.mem_of_mem_filter hrun)
  exfalso
  -- between the payout and `now` it is 02:00 to 03:00
  have hstart : hour time = 2 ∧ dayOf run.now = dayOf time := by
    unfold hour dayOf at *
    omega
  exact hhour hstart.1 run hrun hstart.2

/-- **One day apart**: a payout comes at least a day after every payout before it. -/
theorem day_apart {st : PayoutState} (hinv : PayoutInv st) {p : PayoutProcess}
    (hp : p ∈ st.processes) {now runNow : Int} (htick : p.nextTick ≤ now) (hclock : st.clock ≤ now)
    (hunpaid : p.Unpaid now) (hday : dayOf runNow = dayOf now) {run : PayoutRun}
    (hrun : run ∈ st.payingRuns)
    (htime : dayOf run.now + 1 = dayOf now → run.now % 86400000000 ≤ runNow % 86400000000) :
    run.now + 86400000000 ≤ runNow := by
  have hpast := (hinv.runs run (List.mem_of_mem_filter hrun)).past
  have hother : dayOf now ≠ dayOf run.now := by
    intro hsame
    exact hunpaid.2 (hinv.remembers p hp run hrun now htick hclock hunpaid.1 hsame)
  unfold dayOf at hday hother htime
  omega

/-- A wake-up to pay: the run that it makes, if any, is a day after the others, and known to
the only process. -/
theorem payoutInv_paid {st : PayoutState} (hinv : PayoutInv st) {p : PayoutProcess}
    (hp : st.processes = [p]) {now runNow : Int} (htick : p.nextTick ≤ now)
    (hclock : st.clock ≤ now) (hread : now ≤ runNow) (hunpaid : p.Unpaid now)
    (hday : dayOf runNow = dayOf now)
    (htime : ∀ run ∈ st.payingRuns, dayOf run.now + 1 = dayOf now →
      run.now % 86400000000 ≤ runNow % 86400000000)
    {run : Option PayoutRun} (hrun : ∀ r ∈ run.toList, r.Ok runNow) :
    PayoutInv { st with
      clock := runNow
      processes := [⟨p.pid, p.nextTick + 300000000, some (ordinal (dayOf now))⟩]
      runs := st.runs ++ run.toList } := by
  refine ⟨?_, ?_, ?_⟩
  · intro r hr
    rcases List.mem_append.mp hr with hr | hr
    · exact (hinv.runs r hr).mono (hclock.trans hread)
    · have hok := hrun r hr
      have hnow := hok.now_eq
      refine ⟨hnow.symm ▸ hok, ?_, hnow.le⟩
      have htwo := hunpaid.1
      rw [hnow]
      unfold hour at htwo
      unfold dayOf at hday
      omega
  · intro q hq r hr later _ hlater _ hsame
    obtain rfl := List.mem_singleton.mp hq
    have hlater : runNow ≤ later := hlater
    have hpast : r.now ≤ runNow := by
      rcases List.mem_append.mp (List.mem_of_mem_filter hr) with hr | hr
      · exact (hinv.runs r hr).past.trans (hclock.trans hread)
      · exact (hrun r hr).now_eq.le
    have heq : dayOf later = dayOf now := by
      unfold dayOf at hsame hday ⊢
      omega
    show some (ordinal (dayOf now)) = some (ordinal (dayOf later))
    rw [heq]
  · have hmem : p ∈ st.processes := by simp [hp]
    show List.Pairwise _ ((st.runs ++ run.toList).filter fun run => run.Pays)
    rw [List.filter_append]
    refine List.pairwise_append.mpr ⟨hinv.apart, ?_, ?_⟩
    · apply List.Pairwise.filter
      cases run <;> simp
    · intro a ha b hb
      rw [(hrun b (List.mem_of_mem_filter hb)).now_eq]
      exact day_apart hinv hmem htick hclock hunpaid hday ha (htime a ha)

theorem payoutInv_tick (cfg : PayoutConfig) {st : PayoutState} {p : PayoutProcess}
    {now runNow : Int} {o : PayoutOutcome} (hinv : PayoutInv st) (hp : p ∈ st.processes)
    (htick : p.nextTick ≤ now) (hclock : st.clock ≤ now) (hread : now ≤ runNow)
    (horderly : Orderly st (.tick p.pid now runNow o)) :
    PayoutInv (tickState cfg st p now runNow o) := by
  have hnone : ∀ check, payoutCheck cfg st.usage st.providers p.lastPayoutDay now runNow o =
      (p.lastPayoutDay, none) → check = tickState cfg st p now runNow o → PayoutInv check := by
    rintro check hcheck rfl
    unfold tickState
    rw [hcheck]
    refine hinv.goOn (by simp) (hclock.trans hread) ?_
    intro q' hq'
    obtain ⟨q, hq, rfl⟩ := List.mem_map.mp hq'
    dsimp only
    split
    · exact ⟨p, hp, by show _ ≤ p.nextTick + _; omega, rfl⟩
    · exact ⟨q, hq, le_rfl, rfl⟩
  rcases payoutCheck_cases cfg st.usage st.providers p now runNow o with
    ⟨-, hcheck⟩ | ⟨-, hcheck⟩ | ⟨hunpaid, run, hcheck, hrun⟩
  · exact hnone _ hcheck rfl
  · exact hnone _ hcheck rfl
  · obtain ⟨hsingle, hday, htime⟩ := horderly p hp rfl hunpaid
    have hpaid := payoutInv_paid hinv hsingle htick hclock hread hunpaid hday htime hrun
    have hstate : tickState cfg st p now runNow o = { st with
        clock := runNow
        processes := [⟨p.pid, p.nextTick + 300000000, some (ordinal (dayOf now))⟩]
        runs := st.runs ++ run.toList } := by
      simp [tickState, hcheck, hsingle]
    rw [hstate]
    exact hpaid

/-- Every orderly step keeps the invariant. -/
theorem payoutInv_step (cfg : PayoutConfig) {st st' : PayoutState} {a : PayoutAction}
    (hinv : PayoutInv st) (horderly : Orderly st a) (hstep : payoutStep cfg st a = some st') :
    PayoutInv st' := by
  cases a with
  | insertUsage row =>
      cases hstep
      exact hinv.goOn rfl le_rfl fun p hp => ⟨p, hp, le_rfl, rfl⟩
  | setProviders providers =>
      cases hstep
      exact hinv.goOn rfl le_rfl fun p hp => ⟨p, hp, le_rfl, rfl⟩
  | start pid time =>
      simp only [payoutStep] at hstep
      split at hstep
      · rename_i henabled
        cases hstep
        have hlater : PayoutInv { st with clock := time } :=
          hinv.goOn rfl henabled.1 fun p hp => ⟨p, hp, le_rfl, rfl⟩
        refine ⟨fun run hrun => (hlater.runs run hrun).mono le_rfl, ?_, hlater.apart⟩
        intro p hp
        rcases List.mem_cons.mp hp with rfl | hp
        · exact (remembers_start hinv henabled.1 horderly).mono rfl le_rfl le_rfl rfl
        · exact (hlater.remembers p hp).mono rfl le_rfl le_rfl rfl
      · cases hstep
  | stop pid =>
      cases hstep
      exact hinv.goOn rfl le_rfl fun p hp => ⟨p, List.mem_of_mem_filter hp, le_rfl, rfl⟩
  | tick pid now runNow o =>
      simp only [payoutStep] at hstep
      split at hstep
      · cases hstep
      · rename_i p hfind
        split at hstep
        · rename_i henabled
          cases hstep
          have hmem := List.mem_of_find?_eq_some hfind
          obtain rfl : p.pid = pid := by simpa using List.find?_some hfind
          exact payoutInv_tick cfg hinv hmem henabled.1 henabled.2.1 henabled.2.2 horderly
        · cases hstep

/-- Runs a day apart have disjoint windows, and so count different usage. -/
theorem paidOnce_of_inv {st : PayoutState} (hinv : PayoutInv st) : PaidOnce st := by
  have hruns : ∀ run ∈ st.payingRuns, run.Ok run.now := fun run hrun =>
    (hinv.runs run (List.mem_of_mem_filter hrun)).ok
  have hapart : st.payingRuns.Pairwise fun a b =>
      a.now + 86400000000 ≤ b.now ∧ a.Ok a.now ∧ b.Ok b.now :=
    hinv.apart.imp_of_mem fun ha hb h => ⟨h, hruns _ ha, hruns _ hb⟩
  refine hapart.imp ?_
  rintro a b ⟨h, ha, hb⟩
  have hstart := hb.start_eq
  constructor
  · rw [Set.Ico_disjoint_Ico]
    exact (min_le_left _ _).trans (le_trans (by omega) (le_max_right _ _))
  · intro row hrow hrow'
    have hwithin := (ha.counted row hrow).2
    have hwithin' := (hb.counted row hrow').1
    omega

/-- **No usage is paid twice** in an orderly run: in every state that it reaches
the windows of the runs that paid are disjoint and no usage row was counted by
two of them. -/
theorem paidOnce_of_orderly (cfg : PayoutConfig) {st : PayoutState}
    (h : (payoutLoop cfg).ReachedBy Orderly st) : PaidOnce st := by
  apply paidOnce_of_inv
  refine h.invariant PayoutInv (fun s hs => payoutInv_init hs) ?_
  intro s a s' hs ha hstep
  exact payoutInv_step cfg hs ha hstep

/-! ## Concrete nights -/

/-- One cent for 6250 weighted tokens, as with a rate of 0.002 dollars per 1000
tokens and a commission of a fifth. -/
def sampleConfig : PayoutConfig :=
  ⟨true, true, fun total providers => UInt64.ofNat (total.toNat / 6250 / providers)⟩

/-- Half a million output tokens at one in the morning of the first day. -/
def sampleUsage : UsageLog := ⟨0, "key-1", "llama3.2:3b", 0, 500000, 3600000000⟩

def sampleState : PayoutState :=
  { clock := 0
    usage := [sampleUsage]
    providers := [⟨"node-1", "acct_1"⟩]
    processes := []
    runs := [] }

def allGood : PayoutOutcome := ⟨true, true, fun _ => true⟩

/-- Two nights with late wake-ups. The first process starts in the payout hour. The second
one starts before that of the next day, while the first one still runs. -/
def twoNights : List PayoutAction :=
  [.start 0 7380000000, .tick 0 7380000005 7380000009 allGood,
    .tick 0 7680000100 7680000100 allGood,
    .insertUsage ⟨1, "key-1", "llama3.2:3b", 0, 500000, 8000000000⟩,
    .start 1 93490000000, .tick 1 93490000020 93490000020 allGood, .stop 0,
    .tick 1 93790001000 93790001003 allGood]

/-- A payout at 02:00, a restart, and a wake-up at 02:10. -/
def restartInHour : List PayoutAction :=
  [.start 0 7200000000, .tick 0 7200000000 7200000000 allGood, .stop 0,
    .start 1 7800000000, .tick 1 7800000000 7800000000 allGood]

/-- Both nights pay, each of them its own usage. -/
theorem paidOnce_of_orderly_two_nights : ∃ st,
    (payoutLoop sampleConfig).run Orderly sampleState twoNights = some st ∧
      st.payingRuns.length = 2 ∧ PaidOnce st := by
  have hlength : ((payoutLoop sampleConfig).run Orderly sampleState twoNights).map
      (fun st => st.payingRuns.length) = some 2 := by decide
  have hinit : (payoutLoop sampleConfig).init sampleState := ⟨rfl, rfl⟩
  obtain ⟨st, hst, hreached, hpays⟩ := System.exists_reachedBy_of_run (.init hinit) hlength
  exact ⟨st, hst, hpays, paidOnce_of_orderly sampleConfig hreached⟩

/-- The restarted process does not know of the payout and pays for the same
usage again. -/
theorem restart_pays_twice : ∃ st, (payoutLoop sampleConfig).Reachable st ∧
    (∃ row, st.payingRuns.map (fun run => decide (row ∈ run.counted)) = [true, true]) ∧
    ¬ PaidOnce st := by
  have htwice : ((payoutLoop sampleConfig).run (fun _ _ => True) sampleState restartInHour).map
      (fun st => st.payingRuns.map fun run => decide (sampleUsage ∈ run.counted)) =
        some [true, true] := by decide
  have hinit : (payoutLoop sampleConfig).init sampleState := ⟨rfl, rfl⟩
  obtain ⟨st, -, hreached, hcounted⟩ := System.exists_reachedBy_of_run (.init hinit) htwice
  refine ⟨st, hreached, ⟨_, hcounted⟩, ?_⟩
  intro hpaid
  obtain ⟨first, rest, hruns, hfirst, hrest⟩ := List.map_eq_cons_iff.mp hcounted
  obtain ⟨second, rest', rfl, hsecond, -⟩ := List.map_eq_cons_iff.mp hrest
  rw [PaidOnce, hruns] at hpaid
  exact ((List.pairwise_cons.mp hpaid).1 second List.mem_cons_self).2 _ (of_decide_eq_true hfirst)
    (of_decide_eq_true hsecond)

end InferPlatform.Gateway
