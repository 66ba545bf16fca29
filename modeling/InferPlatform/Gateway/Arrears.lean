import InferPlatform.Gateway.Payouts
import Mathlib.Algebra.Order.BigOperators.Group.List
import Mathlib.Algebra.Order.Ring.Nat
import Mathlib.Data.List.TakeWhile

/-!
# Refused transfers

A payout run that Stripe refuses a transfer of ends like any other one, and the next run
computes its amount anew from its own window.

* `PayoutRun.earned`, `PayoutRun.paid` — what a run owes a provider, and what it transfers;
* `MadeGood` — whenever a transfer is accepted, the provider has all that he earned while
  he was onboarded;
* `madeGood_steady` — **that holds while no transfer is accepted after a refused one**, and
  the first run with one breaks it;
* `refused_not_madeGood` — a transfer that is refused one night and never made up for.
-/

namespace InferPlatform.Gateway

/-! ## What is owed -/

def PayoutRun.Onboarded (run : PayoutRun) (p : Provider) : Prop :=
  p ∈ run.transfers.map Prod.fst

def PayoutRun.Accepted (run : PayoutRun) (p : Provider) : Prop := (p, true) ∈ run.transfers

def PayoutRun.Refused (run : PayoutRun) (p : Provider) : Prop := (p, false) ∈ run.transfers

instance PayoutRun.decidableOnboarded (run : PayoutRun) (p : Provider) : Decidable (run.Onboarded p) :=
  inferInstanceAs (Decidable (_ ∈ _))

instance PayoutRun.decidableAccepted (run : PayoutRun) (p : Provider) : Decidable (run.Accepted p) :=
  inferInstanceAs (Decidable (_ ∈ _))

instance PayoutRun.decidableRefused (run : PayoutRun) (p : Provider) : Decidable (run.Refused p) :=
  inferInstanceAs (Decidable (_ ∈ _))

/-- The share of a provider in the usage of the run's window. -/
def PayoutRun.earned (cfg : PayoutConfig) (p : Provider) (run : PayoutRun) : Nat :=
  run.transfers.countP (fun t => t.1 = p) *
    (cfg.cents (totalWeighted run.counted) run.transfers.length).toNat

/-- What the run transfers to a provider. -/
def PayoutRun.paid (p : Provider) (run : PayoutRun) : Nat :=
  run.transfers.countP (fun t => t = (p, true)) * run.perProviderCents.toNat

/-- Over any runs in which a provider is onboarded, up to one in which his transfer is
accepted, he is paid what he earned: what was refused is transferred by then. -/
def MadeGood (cfg : PayoutConfig) (runs : List PayoutRun) : Prop :=
  ∀ p segment last, segment ++ [last] <:+: runs →
    (∀ run ∈ segment ++ [last], run.Onboarded p) → last.Accepted p →
    ((segment ++ [last]).map (·.earned cfg p)).sum ≤ ((segment ++ [last]).map (·.paid p)).sum

/-- No transfer is accepted after one that was refused. -/
def NoneAfterRefusal (runs : List PayoutRun) : Prop :=
  ∀ p segment last, segment ++ [last] <:+: runs →
    (∀ run ∈ segment ++ [last], run.Onboarded p) → last.Accepted p →
    ∀ run ∈ segment, ¬ run.Refused p

/-- The process is started once, and not stopped. -/
def NoRestart (st : PayoutState) : PayoutAction → Prop
  | .start _ _ => st.processes = [] ∧ st.runs = []
  | .stop _ => False
  | _ => True

instance (st : PayoutState) : (a : PayoutAction) → Decidable (NoRestart st a)
  | .start _ _ => inferInstanceAs (Decidable (_ ∧ _))
  | .stop _ => inferInstanceAs (Decidable False)
  | .insertUsage _ | .setProviders _ | .tick _ _ _ _ => inferInstanceAs (Decidable True)

/-- The last runs in which the provider is onboarded, newest first. -/
def streak (p : Provider) (runs : List PayoutRun) : List PayoutRun :=
  runs.reverse.takeWhile fun run => run.Onboarded p

/-- Stripe accepts no transfer of a provider of whom it refused one since he is onboarded. -/
def Steady (st : PayoutState) : PayoutAction → Prop
  | .tick _ _ _ o => ∀ p ∈ st.providers, (∃ run ∈ streak p st.runs, run.Refused p) →
      o.accepted p = false
  | _ => True

instance (st : PayoutState) : (a : PayoutAction) → Decidable (Steady st a)
  | .tick _ _ _ o => inferInstanceAs (Decidable (∀ p ∈ st.providers, _ → o.accepted p = false))
  | .start _ _ | .stop _ | .insertUsage _ | .setProviders _ => inferInstanceAs (Decidable True)

/-! ## One run -/

/-- The run pays its own share, which is not nothing, to whom Stripe accepts. -/
structure PayoutRun.Shared (cfg : PayoutConfig) (run : PayoutRun) : Prop where
  cents : run.perProviderCents = cfg.cents (totalWeighted run.counted) run.transfers.length
  positive : run.perProviderCents ≠ 0
  answers : ∃ (providers : List Provider) (accepted : Provider → Bool),
    run.transfers = providers.map fun p => (p, accepted p)

theorem processPayouts_shared {cfg : PayoutConfig} {usage : List UsageLog}
    {providers : List Provider} {now : Int} {o : PayoutOutcome} {run : PayoutRun}
    (h : processPayouts cfg usage providers now o = .ok (some run)) :
    run.Shared cfg ∧ run.transfers = providers.map fun p => (p, o.accepted p) := by
  unfold processPayouts at h
  dsimp only at h
  split at h
  · cases h
  split at h
  · cases h
  split at h
  · cases h
  split at h
  · cases h
  split at h
  · cases h
  split at h
  · cases h
  · rename_i hcents
    cases h
    refine ⟨⟨?_, hcents, providers, o.accepted, rfl⟩, rfl⟩
    rw [List.length_map]

section Run

variable {cfg : PayoutConfig} {run : PayoutRun} (h : run.Shared cfg) (p : Provider)
include h

theorem PayoutRun.Shared.earned_eq :
    run.earned cfg p = run.transfers.countP (fun t => t.1 = p) * run.perProviderCents.toNat := by
  rw [PayoutRun.earned, ← h.cents]

theorem PayoutRun.Shared.paid_le : run.paid p ≤ run.earned cfg p := by
  rw [h.earned_eq]
  apply Nat.mul_le_mul_right
  apply List.countP_mono_left
  intro t _ ht
  simp only [decide_eq_true_eq] at ht ⊢
  rw [ht]

/-- All transfers to one provider get one answer. -/
theorem PayoutRun.Shared.one_answer (haccepted : run.Accepted p) : ¬ run.Refused p := by
  obtain ⟨providers, accepted, htransfers⟩ := h.answers
  intro hrefused
  rw [PayoutRun.Accepted, htransfers, List.mem_map] at haccepted
  rw [PayoutRun.Refused, htransfers, List.mem_map] at hrefused
  obtain ⟨q, -, hyes⟩ := haccepted
  obtain ⟨q', -, hno⟩ := hrefused
  obtain ⟨rfl, hyes⟩ := Prod.mk.inj hyes
  obtain ⟨rfl, hno⟩ := Prod.mk.inj hno
  rw [hyes] at hno
  cases hno

/-- A provider who is not refused is paid his share. -/
theorem PayoutRun.Shared.paid_eq (hrefused : ¬ run.Refused p) :
    run.paid p = run.earned cfg p := by
  rw [h.earned_eq, PayoutRun.paid]
  congr 1
  apply List.countP_congr
  rintro ⟨q, accepted⟩ ht
  simp only [decide_eq_true_eq, Prod.mk.injEq]
  constructor
  · exact And.left
  · rintro rfl
    refine ⟨rfl, ?_⟩
    by_contra hno
    rw [Bool.not_eq_true] at hno
    rw [hno] at ht
    exact hrefused ht

/-- One who is refused is paid less. -/
theorem PayoutRun.Shared.paid_lt (hrefused : run.Refused p) : run.paid p < run.earned cfg p := by
  have hnone : run.transfers.countP (fun t => t = (p, true)) = 0 := by
    rw [List.countP_eq_zero]
    intro t ht heq
    simp only [decide_eq_true_eq] at heq
    rw [heq] at ht
    exact h.one_answer p ht hrefused
  have hsome : 0 < run.transfers.countP (fun t => t.1 = p) :=
    List.countP_pos_iff.mpr ⟨(p, false), hrefused, by simp⟩
  have hcents : 0 < run.perProviderCents.toNat := by
    rw [Nat.pos_iff_ne_zero]
    intro hzero
    exact h.positive (UInt64.toNat_inj.mp hzero)
  rw [h.earned_eq, PayoutRun.paid, hnone, Nat.zero_mul]
  exact Nat.mul_pos hsome hcents

end Run

/-! ## All runs -/

/-- **What a run refuses is never made up for**: each run pays its own share only. -/
theorem madeGood_iff {cfg : PayoutConfig} {runs : List PayoutRun}
    (h : ∀ run ∈ runs, run.Shared cfg) : MadeGood cfg runs ↔ NoneAfterRefusal runs := by
  constructor
  · intro hgood p segment last hpart honboarded haccepted run hrun hrefused
    have hle := hgood p segment last hpart honboarded haccepted
    have hlt : ((segment ++ [last]).map (·.paid p)).sum <
        ((segment ++ [last]).map (·.earned cfg p)).sum := by
      apply List.sum_lt_sum
      · intro r hr
        exact (h r (hpart.subset hr)).paid_le p
      · have hmem : run ∈ segment ++ [last] := List.mem_append_left _ hrun
        exact ⟨run, hmem, (h run (hpart.subset hmem)).paid_lt p hrefused⟩
    omega
  · intro hnone p segment last hpart honboarded haccepted
    apply List.sum_le_sum
    intro run hrun
    have hshared := h run (hpart.subset hrun)
    apply le_of_eq
    rcases List.mem_append.mp hrun with hearlier | hlast
    · exact (hshared.paid_eq p (hnone p segment last hpart honboarded haccepted run hearlier)).symm
    · rw [List.mem_singleton] at hlast
      subst hlast
      exact (hshared.paid_eq p (hshared.one_answer p haccepted)).symm

/-- What a step adds to the runs. -/
theorem runs_of_step {cfg : PayoutConfig} {st st' : PayoutState} {a : PayoutAction}
    (hstep : payoutStep cfg st a = some st') :
    st'.runs = st.runs ∨ ∃ pid now runNow o run, a = .tick pid now runNow o ∧
      processPayouts cfg st.usage st.providers runNow o = .ok (some run) ∧
      st'.runs = st.runs ++ [run] := by
  cases a with
  | insertUsage row =>
      cases hstep
      exact .inl rfl
  | setProviders providers =>
      cases hstep
      exact .inl rfl
  | start pid time =>
      simp only [payoutStep] at hstep
      split at hstep
      · cases hstep
        exact .inl rfl
      · cases hstep
  | stop pid =>
      cases hstep
      exact .inl rfl
  | tick pid now runNow o =>
      simp only [payoutStep] at hstep
      split at hstep
      · cases hstep
      · rename_i p _
        split at hstep
        · cases hstep
          show st.runs ++ (payoutCheck cfg st.usage st.providers p.lastPayoutDay now runNow o).2.toList
            = st.runs ∨ _
          unfold payoutCheck
          dsimp only
          split
          · split
            · cases hrun : processPayouts cfg st.usage st.providers runNow o with
              | error e => exact .inl (by simp)
              | ok made =>
                  cases made with
                  | none => exact .inl (by simp)
                  | some run =>
                      refine .inr ⟨pid, now, runNow, o, run, rfl, hrun, ?_⟩
                      simp [tickState, payoutCheck, *]
            · exact .inl (by simp)
          · exact .inl (by simp)
        · cases hstep

theorem shared_of_reachedBy {cfg : PayoutConfig} {allowed : PayoutState → PayoutAction → Prop}
    {st : PayoutState} (h : (payoutLoop cfg).ReachedBy allowed st) :
    ∀ run ∈ st.runs, run.Shared cfg := by
  refine h.invariant (fun st => ∀ run ∈ st.runs, run.Shared cfg) ?_ ?_
  · rintro s ⟨-, hruns⟩ run hrun
    rw [hruns] at hrun
    cases hrun
  · intro s a s' hs _ hstep run hrun
    rcases runs_of_step hstep with hsame | ⟨pid, now, runNow, o, new, -, hnew, hruns⟩
    · exact hs run (hsame ▸ hrun)
    · rw [hruns, List.mem_append, List.mem_singleton] at hrun
      rcases hrun with hrun | rfl
      · exact hs run hrun
      · exact (processPayouts_shared hnew).1

/-! ## Streaks -/

theorem mem_streak {p : Provider} {runs segment : List PayoutRun} (hsuffix : segment <:+ runs)
    (honboarded : ∀ run ∈ segment, run.Onboarded p) {run : PayoutRun} (hrun : run ∈ segment) :
    run ∈ streak p runs := by
  obtain ⟨earlier, rfl⟩ := hsuffix
  rw [streak, List.reverse_append, List.takeWhile_append_of_pos]
  · exact List.mem_append_left _ (List.mem_reverse.mpr hrun)
  · intro r hr
    exact decide_eq_true (honboarded r (List.mem_reverse.mp hr))

theorem exists_segment {p : Provider} {runs : List PayoutRun} {run : PayoutRun}
    (h : run ∈ streak p runs) :
    ∃ segment, segment <:+ runs ∧ (∀ r ∈ segment, r.Onboarded p) ∧ run ∈ segment := by
  refine ⟨(streak p runs).reverse, ?_, ?_, List.mem_reverse.mpr h⟩
  · rw [← List.reverse_prefix, List.reverse_reverse]
    exact List.takeWhile_prefix _
  · intro r hr
    have hmem : r ∈ runs.reverse.takeWhile fun run => run.Onboarded p := List.mem_reverse.mp hr
    simpa using List.mem_takeWhile_imp hmem

/-- One more run: what it accepts was not refused before. -/
theorem noneAfterRefusal_concat {runs : List PayoutRun} {run : PayoutRun} :
    NoneAfterRefusal (runs ++ [run]) ↔ NoneAfterRefusal runs ∧
      ∀ p, run.Accepted p → ∀ r ∈ streak p runs, ¬ r.Refused p := by
  constructor
  · intro h
    refine ⟨?_, ?_⟩
    · intro p segment last hpart
      exact h p segment last (hpart.trans (List.prefix_append _ _).isInfix)
    · intro p haccepted r hr
      obtain ⟨segment, ⟨earlier, rfl⟩, honboarded, hmem⟩ := exists_segment hr
      refine h p segment run ?_ ?_ haccepted r hmem
      · exact ⟨earlier, [], by simp⟩
      · intro r' hr'
        rcases List.mem_append.mp hr' with hr' | hr'
        · exact honboarded r' hr'
        · rw [List.mem_singleton.mp hr']
          exact List.mem_map_of_mem haccepted
  · rintro ⟨hruns, hnew⟩ p segment last hpart honboarded haccepted
    rcases List.infix_concat_iff.mp hpart with hsuffix | hpart
    · obtain ⟨earlier, hsplit⟩ := hsuffix
      rw [← List.append_assoc] at hsplit
      obtain ⟨hsegment, hlast⟩ := List.append_inj' hsplit rfl
      obtain rfl : last = run := by simpa using hlast
      intro r hr
      apply hnew p haccepted r
      exact mem_streak ⟨earlier, hsegment⟩
        (fun r' hr' => honboarded r' (List.mem_append_left _ hr')) hr
    · exact hruns p segment last hpart honboarded haccepted

/-- A run of the loop accepts what its step says. -/
theorem noneAfterRefusal_tick {cfg : PayoutConfig} {st : PayoutState} {pid : Nat}
    {now runNow : Int} {o : PayoutOutcome} {run : PayoutRun}
    (hrun : processPayouts cfg st.usage st.providers runNow o = .ok (some run)) :
    NoneAfterRefusal (st.runs ++ [run]) ↔
      NoneAfterRefusal st.runs ∧ Steady st (.tick pid now runNow o) := by
  have htransfers := (processPayouts_shared hrun).2
  have haccepted : ∀ p, run.Accepted p ↔ p ∈ st.providers ∧ o.accepted p = true := by
    intro p
    rw [PayoutRun.Accepted, htransfers, List.mem_map]
    constructor
    · rintro ⟨q, hq, heq⟩
      obtain ⟨rfl, hanswer⟩ := Prod.mk.inj heq
      exact ⟨hq, hanswer⟩
    · rintro ⟨hp, hanswer⟩
      exact ⟨p, hp, by rw [hanswer]⟩
  rw [noneAfterRefusal_concat]
  apply and_congr_right
  intro _
  constructor
  · rintro h p hp ⟨r, hr, hrefused⟩
    by_contra hanswer
    rw [Bool.not_eq_false] at hanswer
    exact h p ((haccepted p).mpr ⟨hp, hanswer⟩) r hr hrefused
  · intro h p hp r hr hrefused
    obtain ⟨hmem, hanswer⟩ := (haccepted p).mp hp
    rw [h p hmem ⟨r, hr, hrefused⟩] at hanswer
    cases hanswer

/-! ## The loop -/

/-- **Refused transfers are made good** in runs without a restart in which Stripe accepts no
transfer of a provider after a refused one; and the first payout run in which it does
leaves one that is not. -/
theorem madeGood_steady (cfg : PayoutConfig) {st : PayoutState}
    (h : (payoutLoop cfg).ReachedBy (fun st a => NoRestart st a ∧ Steady st a) st) :
    MadeGood cfg st.runs ∧
      ∀ a st', NoRestart st a → payoutStep cfg st a = some st' → st'.runs ≠ st.runs →
        (MadeGood cfg st'.runs ↔ Steady st a) := by
  have hnone : NoneAfterRefusal st.runs := by
    refine h.invariant (fun st => NoneAfterRefusal st.runs) ?_ ?_
    · rintro s ⟨-, hruns⟩ p segment last hpart
      rw [hruns] at hpart
      simp at hpart
    · rintro s a s' hs ⟨-, hsteady⟩ hstep
      rcases runs_of_step hstep with hsame | ⟨pid, now, runNow, o, run, rfl, hrun, hruns⟩
      · rw [hsame]
        exact hs
      · rw [hruns]
        exact (noneAfterRefusal_tick hrun).mpr ⟨hs, hsteady⟩
  have hshared := shared_of_reachedBy h
  refine ⟨(madeGood_iff hshared).mpr hnone, ?_⟩
  intro a st' _ hstep hne
  rcases runs_of_step hstep with hsame | ⟨pid, now, runNow, o, run, rfl, hrun, hruns⟩
  · exact absurd hsame hne
  · have hshared' : ∀ r ∈ st.runs ++ [run], r.Shared cfg := by
      intro r hr
      rcases List.mem_append.mp hr with hr | hr
      · exact hshared r hr
      · rw [List.mem_singleton.mp hr]
        exact (processPayouts_shared hrun).1
    rw [hruns, madeGood_iff hshared', noneAfterRefusal_tick hrun]
    exact and_iff_right hnone

/-! ## Two nights -/

/-- Stripe refuses every transfer. -/
def allRefused : PayoutOutcome := ⟨true, true, fun _ => false⟩

/-- A process from two o'clock on, with a wake-up every five minutes until two o'clock of the
next night, and usage in both nights; `first` and `second` are what Stripe answers. -/
def secondNight (first second : PayoutOutcome) : List PayoutAction :=
  [.start 0 7200000000, .tick 0 7200000000 7200000000 first,
    .insertUsage ⟨1, "key-1", "llama3.2:3b", 0, 500000, 8000000000⟩] ++
  (List.range 288).map fun i =>
    .tick 0 (7500000000 + 300000000 * (i : Int)) (7500000000 + 300000000 * (i : Int)) second

/-- A second provider is onboarded after the first one. -/
def twoProviders : PayoutState :=
  { sampleState with providers := [⟨"node-1", "acct_1"⟩, ⟨"node-2", "acct_2"⟩] }

/-- Stripe accepts the transfers of the second provider only. -/
def secondAccepted : PayoutOutcome := ⟨true, true, fun p => p.nodeId = "node-2"⟩

/-- In both nights Stripe refuses the first provider, to whom both payouts are still owed, and
accepts the second one, who gets both. -/
theorem madeGood_steady_two_nights : ∃ st,
    (payoutLoop sampleConfig).run (fun st a => NoRestart st a ∧ Steady st a) twoProviders
      (secondNight secondAccepted secondAccepted) = some st ∧
    st.runs.map (·.transfers.map Prod.snd) = [[false, true], [false, true]] ∧
    MadeGood sampleConfig st.runs := by
  have hnights : ((payoutLoop sampleConfig).run (fun st a => NoRestart st a ∧ Steady st a)
      twoProviders (secondNight secondAccepted secondAccepted)).map
      (fun st => st.runs.map (·.transfers.map Prod.snd)) =
        some [[false, true], [false, true]] := by
    decide +kernel
  have hinit : (payoutLoop sampleConfig).init twoProviders := ⟨rfl, rfl⟩
  obtain ⟨st, hst, hreached, hruns⟩ := System.exists_reachedBy_of_run (.init hinit) hnights
  exact ⟨st, hst, hruns, (madeGood_steady sampleConfig hreached).1⟩

/-- Stripe refuses 160 cents the first night and accepts 160 cents the second night: the
first payout is never made. -/
theorem refused_not_madeGood : ∃ st,
    (payoutLoop sampleConfig).ReachedBy NoRestart st ∧
      st.runs.map (·.transfers) =
        [[(⟨"node-1", "acct_1"⟩, false)], [(⟨"node-1", "acct_1"⟩, true)]] ∧
      st.runs.map (·.perProviderCents) = [160, 160] ∧ ¬ MadeGood sampleConfig st.runs := by
  have hnights : ((payoutLoop sampleConfig).run NoRestart sampleState
      (secondNight allRefused allGood)).map
      (fun st => (st.runs.map (·.transfers), st.runs.map (·.perProviderCents),
        st.runs.map (·.earned sampleConfig ⟨"node-1", "acct_1"⟩),
        st.runs.map (·.paid ⟨"node-1", "acct_1"⟩))) =
      some ([[(⟨"node-1", "acct_1"⟩, false)], [(⟨"node-1", "acct_1"⟩, true)]], [160, 160],
        [160, 160], [0, 160]) := by decide +kernel
  have hinit : (payoutLoop sampleConfig).init sampleState := ⟨rfl, rfl⟩
  obtain ⟨st, -, hreached, hvalue⟩ := System.exists_reachedBy_of_run (.init hinit) hnights
  simp only [Prod.mk.injEq] at hvalue
  obtain ⟨htransfers, hcents, hearned, hpaid⟩ := hvalue
  refine ⟨st, hreached, htransfers, hcents, ?_⟩
  intro hgood
  obtain ⟨first, rest, hruns, hfirst, hrest⟩ := List.map_eq_cons_iff.mp htransfers
  obtain ⟨second, rest', rfl, hsecond, hnil⟩ := List.map_eq_cons_iff.mp hrest
  obtain rfl : rest' = [] := List.map_eq_nil_iff.mp hnil
  have hle := hgood ⟨"node-1", "acct_1"⟩ [first] second (by rw [hruns]; exact List.infix_rfl)
    (by simp [PayoutRun.Onboarded, hfirst, hsecond]) (by simp [PayoutRun.Accepted, hsecond])
  rw [List.singleton_append, ← hruns, hearned, hpaid] at hle
  exact absurd hle (by decide)

end InferPlatform.Gateway
