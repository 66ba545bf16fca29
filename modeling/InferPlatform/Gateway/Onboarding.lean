import InferPlatform.Gateway.Webhook

/-!
# From onboarding to payout

A Connect account is created by a `connect` request, becomes payable by a webhook, and
is paid by a payout run. The three parts of the gateway share only the table of
accounts, and run at any time. A payout run selects its providers once and then makes one
transfer after the other; what webhooks write in between does not change whom it pays.

* `onboardings` — `connect` requests, webhook requests and payout runs as one system;
* `paid_onboarded` — **every transfer goes to an account of which the event stored last,
  when the run selected its providers, is a signed one that says that it can charge and
  be paid**.
-/

namespace InferPlatform.Gateway

section

variable (hmac : List UInt8 → List UInt8 → List UInt8) (fromSlice : List UInt8 → Option Json)

/-! ## The system -/

structure OnboardingConfig where
  setup : BillingSetup
  webhookSecret : String
  cents : Int → Nat → UInt64

def OnboardingConfig.payout (cfg : OnboardingConfig) : PayoutConfig :=
  ⟨cfg.setup.db, cfg.setup.stripe, cfg.cents⟩

/-- The secret that the handler checks with, where Stripe is configured. -/
def OnboardingConfig.secret (cfg : OnboardingConfig) : Option String :=
  if cfg.setup.stripe then some cfg.webhookSecret else none

/-- A payout run with its transfers so far, and those ahead with Stripe's answers. -/
structure PayoutProgress where
  run : PayoutRun
  ahead : List (Provider × Bool)
  deriving DecidableEq, Repr

/-- `runs` are the payout runs that got as far as creating transfers. -/
structure OnboardingState where
  connects : ConnectState
  usage : List UsageLog
  runs : List PayoutProgress
  deriving DecidableEq

inductive OnboardingAction
  | connects (a : ConnectAction)
  | webhook (req : WebhookRequest) (ok : Bool)
  | recordUsage (row : UsageLog)
  | payout (now : Int) (o : PayoutOutcome)
  | transfer (i : Nat)

/-- The table, if there is a database. -/
def OnboardingState.table (cfg : OnboardingConfig) (st : OnboardingState) :
    Option (List ProviderAccount) :=
  if cfg.setup.db then some st.connects.accounts else none

/-- A payout run may start at any time, and makes its transfers at any time after that, or
stops. Events reach the table through the webhook only. -/
def onboardingStep (cfg : OnboardingConfig) (st : OnboardingState) :
    OnboardingAction → Option OnboardingState
  | .connects (.accountUpdated _ _) => none
  | .connects a => (connectStep cfg.setup st.connects a).map fun connects => { st with connects }
  | .webhook req ok =>
    let received := (stripeWebhook hmac fromSlice cfg.secret (st.table cfg) req ok).1
    some { st with
      connects := { st.connects with accounts := received.getD st.connects.accounts } }
  | .recordUsage row => some { st with usage := st.usage ++ [row] }
  | .payout now o =>
    match processPayouts cfg.payout st.usage (joinProviders st.connects) now o with
    | .ok (some run) =>
      some { st with runs := st.runs ++ [⟨{ run with transfers := [] }, run.transfers⟩] }
    -- nothing to transfer, or a failed query
    | .ok none | .error _ => some st
  | .transfer i =>
    match st.runs[i]? with
    | some ⟨run, transfer :: ahead⟩ =>
      let run := { run with transfers := run.transfers ++ [transfer] }
      some { st with runs := st.runs.set i ⟨run, ahead⟩ }
    | some ⟨_, []⟩ | none => none

def onboardings (cfg : OnboardingConfig) : System OnboardingState OnboardingAction where
  init st := st.connects.accounts = [] ∧ st.connects.requests = [] ∧ st.runs = []
  step := onboardingStep hmac fromSlice cfg

/-! ## What is noted of a run -/

/-- A webhook request and the event that it carried. -/
abbrev Delivery := WebhookRequest × Json

/-- The events written to the table so far, and for each payout run those that were there
when it selected its providers. -/
structure PayoutTrail where
  deliveries : List Delivery
  selected : List (List Delivery)

/-- The event of a request that reaches the statement of the handler. -/
def deliveredEvent (cfg : OnboardingConfig) (req : WebhookRequest) : Option Json :=
  match cfg.secret with
  | none => none
  | some secret =>
    match checkSignature hmac secret req with
    | .error _ => none
    | .ok () => (fromSlice req.body).filter fun event => eventType event = "account.updated"

def noteOnboarding (cfg : OnboardingConfig) (trail : PayoutTrail) (st : OnboardingState)
    (a : OnboardingAction) (st' : OnboardingState) : PayoutTrail :=
  match a with
  | .webhook req ok =>
    match deliveredEvent hmac fromSlice cfg req with
    | some event =>
      if ok ∧ cfg.setup.db then { trail with deliveries := trail.deliveries ++ [(req, event)] }
      else trail
    | none => trail
  | .payout _ _ =>
    { trail with
      selected := trail.selected ++ (st'.runs.drop st.runs.length).map fun _ => trail.deliveries }
  | .connects _ | .recordUsage _ | .transfer _ => trail

/-- The system, and the notes. -/
abbrev trailedOnboardings (cfg : OnboardingConfig) :
    System (OnboardingState × PayoutTrail) OnboardingAction :=
  (onboardings hmac fromSlice cfg).observed ⟨[], []⟩ (noteOnboarding hmac fromSlice cfg)

/-- The last delivery about an account. -/
def lastAbout (account : String) (deliveries : List Delivery) : Option Delivery :=
  (deliveries.filter fun d => eventAccount d.2 = some account).getLast?

/-- The last delivery about an account says that it is complete. -/
def SaysComplete (account : String) (deliveries : List Delivery) : Prop :=
  ∃ d, lastAbout account deliveries = some d ∧ eventComplete d.2 = true

/-- The account of a provider is complete, as a signed `account.updated` event says. -/
def PaidFor (cfg : OnboardingConfig) (deliveries : List Delivery) (p : Provider) : Prop :=
  ∃ req event, lastAbout p.stripeAccountId deliveries = some (req, event) ∧
    eventComplete event = true ∧ eventType event = "account.updated" ∧
    fromSlice req.body = some event ∧
    (cfg.webhookSecret = "" ∨ ∃ sig, req.stripeSignature = some sig ∧
      validateWebhookSignature hmac req.body sig cfg.webhookSecret = .ok true)

/-! ## What the parts do to the table -/

/-- A `connect` request adds a row that is not complete, or leaves the table. -/
theorem accounts_connectAdvance (st : ConnectState) (run : ConnectRun) (o : Outcome)
    (reply : String) :
    (connectAdvance st run o reply).1.accounts = st.accounts ∨
      ∃ row, row.onboardingComplete = false ∧
        (connectAdvance st run o reply).1.accounts = st.accounts ++ [row] := by
  unfold connectAdvance
  cases run.pc with
  | lookup =>
      left
      dsimp only
      split
      · split
        · split <;> rfl
        · rfl
      · rfl
  | relink | createAccount | createLink =>
      left
      dsimp only
      split <;> rfl
  | insert accountId onboardingUrl =>
      dsimp only
      split
      · exact .inl rfl
      · exact .inl rfl
      · rename_i accounts hstored
        exact .inr ⟨_, rfl, insertAccount_eq_some hstored⟩
      · rename_i accounts hstored
        exact .inr ⟨_, rfl, insertAccount_eq_some hstored⟩
  | givenUp | done | failed | dropped => exact .inl rfl

theorem accounts_connectLate {st : ConnectState} {run : ConnectRun}
    {next : ConnectState × ConnectRun} (h : connectLate st run = some next) :
    next.1.accounts = st.accounts ∨
      ∃ row, row.onboardingComplete = false ∧ next.1.accounts = st.accounts ++ [row] := by
  unfold connectLate at h
  split at h
  · dsimp only at h
    split at h
    · rename_i accounts hstored
      cases h
      exact .inr ⟨_, rfl, insertAccount_eq_some hstored⟩
    · cases h
      exact .inl rfl
  · cases h

theorem accounts_connectStep {setup : BillingSetup} {st st' : ConnectState} {a : ConnectAction}
    (ha : ∀ event ok, a ≠ .accountUpdated event ok) (h : connectStep setup st a = some st') :
    st'.accounts = st.accounts ∨
      ∃ row, row.onboardingComplete = false ∧ st'.accounts = st.accounts ++ [row] := by
  cases a with
  | registerNode id =>
      simp only [connectStep] at h
      split at h
      · cases h
      · cases h
        exact .inl rfl
  | connect req =>
      cases h
      exact .inl rfl
  | advance i o reply =>
      simp only [connectStep] at h
      split at h
      · cases h
      · rename_i run _
        cases h
        exact accounts_connectAdvance st run o reply
  | drop i =>
      simp only [connectStep] at h
      split at h
      · cases h
      · split at h
        · cases h
        · cases h
        · cases h
        · cases h
          exact .inl rfl
  | abandon i rowId dropped =>
      obtain ⟨run, -, rfl⟩ := Option.map_eq_some_iff.mp h
      exact .inl rfl
  | late i =>
      obtain ⟨next, hbind, rfl⟩ := Option.map_eq_some_iff.mp h
      obtain ⟨run, -, hlate⟩ := Option.bind_eq_some_iff.mp hbind
      exact accounts_connectLate hlate
  | accountUpdated event ok => exact absurd rfl (ha event ok)

/-- A webhook writes the event that it delivers, and nothing else. -/
theorem accounts_stripeWebhook (cfg : OnboardingConfig) (db : Option (List ProviderAccount))
    (req : WebhookRequest) (ok : Bool) :
    (stripeWebhook hmac fromSlice cfg.secret db req ok).1 =
      match deliveredEvent hmac fromSlice cfg req with
      | some event => db.map fun accounts => handleAccountUpdated accounts event ok
      | none => db := by
  unfold stripeWebhook deliveredEvent
  cases cfg.secret with
  | none => rfl
  | some secret =>
      dsimp only
      cases checkSignature hmac secret req with
      | error e => rfl
      | ok _ =>
          dsimp only
          cases fromSlice req.body with
          | none => rfl
          | some event =>
              by_cases htype : eventType event = "account.updated"
              · rw [Option.filter_some, if_pos (decide_eq_true htype)]
                simp only [if_pos htype]
              · rw [Option.filter_some, if_neg (by simpa using htype)]
                simp only [if_neg htype]

theorem handleAccountUpdated_failed (accounts : List ProviderAccount) (event : Json) :
    handleAccountUpdated accounts event false = accounts := by
  unfold handleAccountUpdated
  split <;> rfl

/-- A delivered event is of a valid request. -/
theorem delivers_of_deliveredEvent {cfg : OnboardingConfig} {req : WebhookRequest} {event : Json}
    (h : deliveredEvent hmac fromSlice cfg req = some event) :
    Delivers hmac fromSlice cfg.webhookSecret req event := by
  unfold deliveredEvent at h
  split at h
  · cases h
  · rename_i secret hsecret
    have hsame : secret = cfg.webhookSecret := by
      unfold OnboardingConfig.secret at hsecret
      split at hsecret
      · exact (Option.some.inj hsecret).symm
      · cases hsecret
    split at h
    · cases h
    · rename_i hsigned
      obtain ⟨hparsed, htype⟩ := Option.filter_eq_some_iff.mp h
      exact ⟨hsame ▸ hsigned, hparsed, of_decide_eq_true htype⟩

/-- A webhook leaves the table and the notes, or writes its event to both. -/
theorem webhook_cases (cfg : OnboardingConfig) (st : OnboardingState) (trail : PayoutTrail)
    (req : WebhookRequest) (ok : Bool) :
    let accounts := (stripeWebhook hmac fromSlice cfg.secret (st.table cfg) req ok).1.getD
      st.connects.accounts
    let trail' := noteOnboarding hmac fromSlice cfg trail st (.webhook req ok)
      { st with connects := { st.connects with accounts } }
    (accounts = st.connects.accounts ∧ trail' = trail) ∨
      ∃ event, Delivers hmac fromSlice cfg.webhookSecret req event ∧
        accounts = handleAccountUpdated st.connects.accounts event true ∧
        trail' = { trail with deliveries := trail.deliveries ++ [(req, event)] } := by
  dsimp only
  rw [accounts_stripeWebhook]
  unfold noteOnboarding OnboardingState.table
  dsimp only
  cases hevent : deliveredEvent hmac fromSlice cfg req with
  | none =>
      refine .inl ⟨?_, rfl⟩
      dsimp only
      split <;> rfl
  | some event =>
      by_cases hwritten : ok = true ∧ cfg.setup.db = true
      · obtain ⟨rfl, hdb⟩ := hwritten
        refine .inr ⟨event, delivers_of_deliveredEvent hmac fromSlice hevent, ?_, ?_⟩
        · simp [hdb]
        · simp [hdb]
      · refine .inl ⟨?_, ?_⟩
        · by_cases hdb : cfg.setup.db = true
          · have hok : ok = false := by simpa [hdb] using hwritten
            simp [hdb, hok, handleAccountUpdated_failed]
          · simp [hdb]
        · simp only [if_neg hwritten]

/-- What a valid signature is. -/
theorem signed_of_checkSignature {secret : String} {req : WebhookRequest}
    (h : checkSignature hmac secret req = .ok ()) :
    secret = "" ∨ ∃ sig, req.stripeSignature = some sig ∧
      validateWebhookSignature hmac req.body sig secret = .ok true := by
  unfold checkSignature at h
  split at h
  · exact .inl ‹_›
  · right
    split at h
    · cases h
    · rename_i sig hsig
      refine ⟨sig, hsig, ?_⟩
      split at h
      · cases h
      · cases h
      · assumption

/-! ## The invariant -/

/-- The transfers of run `i` go to accounts that were complete when it selected its
providers, before the events that were written since. -/
def OnlyOnboarded (cfg : OnboardingConfig) (trail : PayoutTrail) (i : Nat)
    (transfers : List (Provider × Bool)) : Prop :=
  ∃ deliveries, trail.selected[i]? = some deliveries ∧ deliveries <+: trail.deliveries ∧
    ∀ t ∈ transfers, PaidFor hmac fromSlice cfg deliveries t.1

/-- The events were delivered, a complete account is complete by the last of them, and the
transfers of every run, also those ahead, are to such accounts. -/
structure TrailOk (cfg : OnboardingConfig) (s : OnboardingState × PayoutTrail) : Prop where
  delivered : ∀ d ∈ s.2.deliveries, Delivers hmac fromSlice cfg.webhookSecret d.1 d.2
  complete : ∀ a ∈ s.1.connects.accounts, a.onboardingComplete = true →
    SaysComplete a.stripeAccountId s.2.deliveries
  aligned : s.2.selected.length = s.1.runs.length
  paid : ∀ (i : Nat) (progress : PayoutProgress), s.1.runs[i]? = some progress →
    OnlyOnboarded hmac fromSlice cfg s.2 i (progress.run.transfers ++ progress.ahead)

theorem lastAbout_concat (account : String) (deliveries : List Delivery) (d : Delivery) :
    lastAbout account (deliveries ++ [d]) =
      if eventAccount d.2 = some account then some d else lastAbout account deliveries := by
  unfold lastAbout
  rw [List.filter_append]
  by_cases haccount : eventAccount d.2 = some account
  · simp [haccount]
  · simp [haccount]

/-- An event that is written keeps the flags explained. -/
theorem saysComplete_handleAccountUpdated {accounts : List ProviderAccount}
    {deliveries : List Delivery} (req : WebhookRequest) (event : Json)
    (h : ∀ a ∈ accounts, a.onboardingComplete = true → SaysComplete a.stripeAccountId deliveries) :
    ∀ a ∈ handleAccountUpdated accounts event true, a.onboardingComplete = true →
      SaysComplete a.stripeAccountId (deliveries ++ [(req, event)]) := by
  rw [handleAccountUpdated_eq]
  intro a ha hcomplete
  obtain ⟨old, hold, rfl⟩ := List.mem_map.mp ha
  unfold SaysComplete
  show ∃ d, lastAbout old.stripeAccountId _ = some d ∧ _
  rw [lastAbout_concat]
  by_cases haccount : eventAccount event = some old.stripeAccountId
  · rw [if_pos haccount]
    refine ⟨(req, event), rfl, ?_⟩
    simpa [lastReceived, eventsOf, haccount] using hcomplete
  · rw [if_neg haccount]
    apply h old hold
    simpa [lastReceived, eventsOf, haccount] using hcomplete

/-- The transfers of a run are to the providers of the table. -/
theorem mem_joinProviders_of_transfer {cfg : PayoutConfig} {usage : List UsageLog}
    {providers : List Provider} {now : Int} {o : PayoutOutcome} {run : PayoutRun}
    (h : processPayouts cfg usage providers now o = .ok (some run)) {t : Provider × Bool}
    (ht : t ∈ run.transfers) : t.1 ∈ providers := by
  rw [← transfers_of_processPayouts h]
  exact List.mem_map_of_mem ht

theorem TrailOk.paidFor {cfg : OnboardingConfig} {s : OnboardingState × PayoutTrail}
    (hinv : TrailOk hmac fromSlice cfg s) {p : Provider} (hp : p ∈ joinProviders s.1.connects) :
    PaidFor hmac fromSlice cfg s.2.deliveries p := by
  obtain ⟨a, ha, rfl⟩ := List.mem_map.mp hp
  obtain ⟨hmem, hcond⟩ := List.mem_filter.mp ha
  obtain ⟨hcomplete, -⟩ := of_decide_eq_true hcond
  obtain ⟨⟨req, event⟩, hlast, hevent⟩ := hinv.complete a hmem hcomplete
  have hdelivered : (req, event) ∈ s.2.deliveries :=
    (List.mem_filter.mp (List.mem_of_getLast? hlast)).1
  obtain ⟨hsigned, hparsed, htype⟩ := hinv.delivered (req, event) hdelivered
  exact ⟨req, event, hlast, hevent, htype, hparsed, signed_of_checkSignature hmac hsigned⟩

/-- A step of the connect requests adds no complete account. -/
theorem TrailOk.connects {cfg : OnboardingConfig} {s : OnboardingState × PayoutTrail}
    (hinv : TrailOk hmac fromSlice cfg s) {a : ConnectAction} {connects : ConnectState}
    (hne : ∀ event ok, a ≠ .accountUpdated event ok)
    (hconnects : connectStep cfg.setup s.1.connects a = some connects) :
    TrailOk hmac fromSlice cfg ({ s.1 with connects }, s.2) := by
  refine ⟨hinv.delivered, ?_, hinv.aligned, hinv.paid⟩
  intro a' ha' hcomplete
  rcases accounts_connectStep hne hconnects with hsame | ⟨row, hrow, hadded⟩
  · exact hinv.complete a' (hsame ▸ ha') hcomplete
  · have hmem : a' ∈ s.1.connects.accounts ++ [row] := hadded ▸ ha'
    rcases List.mem_append.mp hmem with hold | hnew
    · exact hinv.complete a' hold hcomplete
    · -- a new row is not complete
      rw [List.mem_singleton.mp hnew, hrow] at hcomplete
      cases hcomplete

/-- An event is written that was delivered. -/
theorem TrailOk.written {cfg : OnboardingConfig} {s : OnboardingState × PayoutTrail}
    (hinv : TrailOk hmac fromSlice cfg s) {req : WebhookRequest} {event : Json}
    (hdelivers : Delivers hmac fromSlice cfg.webhookSecret req event) :
    TrailOk hmac fromSlice cfg
      ({ s.1 with connects := { s.1.connects with
          accounts := handleAccountUpdated s.1.connects.accounts event true } },
        { s.2 with deliveries := s.2.deliveries ++ [(req, event)] }) := by
  refine ⟨?_, saysComplete_handleAccountUpdated req event hinv.complete, hinv.aligned, ?_⟩
  · exact List.forall_mem_append.mpr ⟨hinv.delivered, List.forall_mem_singleton.mpr hdelivers⟩
  · intro i progress hprogress
    obtain ⟨deliveries, hselected, hprefix, hpaid⟩ := hinv.paid i progress hprogress
    exact ⟨deliveries, hselected, hprefix.trans (List.prefix_append _ _), hpaid⟩

/-- A run begins with the events that are in the table. -/
theorem TrailOk.payout {cfg : OnboardingConfig} {s : OnboardingState × PayoutTrail}
    (hinv : TrailOk hmac fromSlice cfg s) {now : Int} {o : PayoutOutcome} {run : PayoutRun}
    (hrun : processPayouts cfg.payout s.1.usage (joinProviders s.1.connects) now o =
      .ok (some run)) :
    TrailOk hmac fromSlice cfg
      ({ s.1 with runs := s.1.runs ++ [⟨{ run with transfers := [] }, run.transfers⟩] },
        { s.2 with selected := s.2.selected ++ [s.2.deliveries] }) := by
  refine ⟨hinv.delivered, hinv.complete, by simp [hinv.aligned], ?_⟩
  intro i progress hprogress
  dsimp only at hprogress
  rcases Nat.lt_or_ge i s.1.runs.length with hi | hi
  · rw [List.getElem?_append_left hi] at hprogress
    obtain ⟨deliveries, hselected, hrest⟩ := hinv.paid i progress hprogress
    refine ⟨deliveries, ?_, hrest⟩
    rw [List.getElem?_append_left (hinv.aligned ▸ hi)]
    exact hselected
  · rw [List.getElem?_append_right hi, List.getElem?_singleton] at hprogress
    split at hprogress
    · rename_i hzero
      cases hprogress
      refine ⟨s.2.deliveries, ?_, List.prefix_refl _, ?_⟩
      · rw [List.getElem?_append_right (hinv.aligned ▸ hi), hinv.aligned, hzero]
        rfl
      · intro t ht
        exact hinv.paidFor hmac fromSlice
          (mem_joinProviders_of_transfer hrun (by simpa using ht))
    · cases hprogress

/-- A transfer was ahead before. -/
theorem TrailOk.transfer {cfg : OnboardingConfig} {s : OnboardingState × PayoutTrail}
    (hinv : TrailOk hmac fromSlice cfg s) {i : Nat} {run : PayoutRun} {t : Provider × Bool}
    {ahead : List (Provider × Bool)} (hrun : s.1.runs[i]? = some ⟨run, t :: ahead⟩) :
    TrailOk hmac fromSlice cfg
      ({ s.1 with
        runs := s.1.runs.set i ⟨{ run with transfers := run.transfers ++ [t] }, ahead⟩ }, s.2) := by
  refine ⟨hinv.delivered, hinv.complete, by simp [hinv.aligned], ?_⟩
  intro j progress hprogress
  rcases List.getElem?_set_cases hprogress with ⟨rfl, rfl⟩ | ⟨-, hprogress⟩
  · simpa using hinv.paid j _ hrun
  · exact hinv.paid j progress hprogress

theorem trailOk_step {cfg : OnboardingConfig} {s s' : OnboardingState × PayoutTrail}
    {a : OnboardingAction} (hinv : TrailOk hmac fromSlice cfg s)
    (hstep : (trailedOnboardings hmac fromSlice cfg).step s a = some s') :
    TrailOk hmac fromSlice cfg s' := by
  obtain ⟨hnext, hnotes⟩ := System.observed_step hstep
  obtain ⟨st, trail⟩ := s
  obtain ⟨st', trail'⟩ := s'
  dsimp only at hnext hnotes
  cases a with
  | connects a =>
      have hne : ∀ event ok, a ≠ .accountUpdated event ok := by
        rintro event ok rfl
        cases hnext
      have hmap : (connectStep cfg.setup st.connects a).map
          (fun connects => { st with connects }) = some st' := by
        cases a with
        | accountUpdated event ok => exact absurd rfl (hne event ok)
        | registerNode | connect | advance | drop | abandon | late => exact hnext
      obtain ⟨connects, hconnects, rfl⟩ := Option.map_eq_some_iff.mp hmap
      subst hnotes
      exact hinv.connects hmac fromSlice hne hconnects
  | webhook req ok =>
      cases hnext
      rcases webhook_cases hmac fromSlice cfg st trail req ok with
        ⟨hsame, hkept⟩ | ⟨event, hdelivers, hwritten, hadded⟩
      · obtain rfl : trail' = trail := hnotes.trans hkept
        refine ⟨hinv.delivered, ?_, hinv.aligned, hinv.paid⟩
        intro a ha
        exact hinv.complete a (hsame ▸ ha)
      · obtain rfl := hnotes.trans hadded
        have hnext := hinv.written hmac fromSlice hdelivers
        refine ⟨hnext.delivered, ?_, hnext.aligned, hnext.paid⟩
        intro a ha
        exact hnext.complete a (hwritten ▸ ha)
  | recordUsage row =>
      cases hnext
      subst hnotes
      exact ⟨hinv.delivered, hinv.complete, hinv.aligned, hinv.paid⟩
  | payout now o =>
      simp only [onboardings, onboardingStep] at hnext
      split at hnext
      · rename_i run hrun
        cases hnext
        have htrail : trail' = { trail with selected := trail.selected ++ [trail.deliveries] } := by
          simpa [noteOnboarding] using hnotes
        subst htrail
        exact hinv.payout hmac fromSlice hrun
      all_goals
        cases hnext
        have htrail : trail' = trail := by simpa [noteOnboarding] using hnotes
        subst htrail
        exact hinv
  | transfer i =>
      simp only [onboardings, onboardingStep] at hnext
      split at hnext
      · rename_i run t ahead hrun
        cases hnext
        subst hnotes
        exact hinv.transfer hmac fromSlice hrun
      · cases hnext
      · cases hnext

/-- **Only onboarded accounts are paid**: whatever comes between the transfers of a payout
run, each goes to an account about which the event stored last, when the run selected its
providers, is a signed `account.updated` event that says that the account can charge and be
paid. -/
theorem paid_onboarded {cfg : OnboardingConfig} {s : OnboardingState × PayoutTrail}
    (h : (trailedOnboardings hmac fromSlice cfg).Reachable s) :
    ∀ (i : Nat) (progress : PayoutProgress), s.1.runs[i]? = some progress →
      OnlyOnboarded hmac fromSlice cfg s.2 i progress.run.transfers := by
  have hinv : TrailOk hmac fromSlice cfg s := by
    refine h.invariant _ ?_ fun _ _ _ h _ => trailOk_step hmac fromSlice h
    rintro ⟨st, trail⟩ ⟨⟨haccounts, -, hruns⟩, htrail⟩
    dsimp only at haccounts hruns htrail
    subst htrail
    refine ⟨by simp, ?_, by simp [hruns], by simp [hruns]⟩
    intro a ha
    rw [haccounts] at ha
    cases ha
  intro i progress hprogress
  obtain ⟨deliveries, hselected, hprefix, hpaid⟩ := hinv.paid i progress hprogress
  exact ⟨deliveries, hselected, hprefix, fun t ht => hpaid t (List.mem_append_left _ ht)⟩

end

/-! ## One account from its creation to its first payout -/

def onboardingConfig : OnboardingConfig :=
  ⟨⟨true, true⟩, "whsec_test", fun total providers => UInt64.ofNat (total.toNat / providers)⟩

/-- All of request `i`, where the node has no account. -/
def createAccountOf (i : Nat) (accountId rowId : String) : List ConnectAction :=
  [.advance i .ok "", .advance i .ok accountId, .advance i .ok "https://stripe/link",
    .advance i .ok rowId]

/-- Two payout runs, and two webhooks: one before the second run, and one that takes back
what the first has said, between the second run's selection and its transfer. -/
def firstPayout : List OnboardingAction :=
  (.connect sampleConnect :: createAccountOf 0 "acct_1" "row-1").map .connects ++
    [.recordUsage ⟨0, "key-1", "llama3.2:3b", 0, 500000, 0⟩, .payout 1 allGood,
      .webhook newerRequest true, .payout 2 allGood, .webhook olderRequest true, .transfer 0]

/-- The first of the two payout runs finds no onboarded account; the second one pays the
account that was onboarded when it looked. -/
theorem paid_onboarded_first : ∃ s,
    (trailedOnboardings eventMac readEvent onboardingConfig).run (fun _ _ => True)
      (⟨connectStart, [], []⟩, ⟨[], []⟩) firstPayout = some s ∧
      s.1.runs.map (fun r => (r.run.now, r.run.transfers)) =
        [(2, [(⟨"node-1", "acct_1"⟩, true)])] ∧
      s.1.connects.accounts = [acct1 false] ∧
      OnlyOnboarded eventMac readEvent onboardingConfig s.2 0 [(⟨"node-1", "acct_1"⟩, true)] := by
  have hrun : ((trailedOnboardings eventMac readEvent onboardingConfig).run (fun _ _ => True)
      (⟨connectStart, [], []⟩, ⟨[], []⟩) firstPayout).map
        (fun s => (s.1.runs.map fun r => (r.run.now, r.run.transfers), s.1.connects.accounts)) =
        some ([(2, [(⟨"node-1", "acct_1"⟩, true)])], [acct1 false]) := by decide +kernel
  have hinit : (trailedOnboardings eventMac readEvent onboardingConfig).init
      (⟨connectStart, [], []⟩, ⟨[], []⟩) := ⟨⟨rfl, rfl, rfl⟩, rfl⟩
  obtain ⟨s, hs, hreached, hvalue⟩ := System.exists_reachedBy_of_run (.init hinit) hrun
  obtain ⟨hruns, haccounts⟩ := Prod.mk.inj hvalue
  refine ⟨s, hs, hruns, haccounts, ?_⟩
  obtain ⟨progress, rest, hprogress, hmade, -⟩ := List.map_eq_cons_iff.mp hruns
  have hfirst : s.1.runs[0]? = some progress := by rw [hprogress]; rfl
  rw [← (Prod.mk.inj hmade).2]
  exact paid_onboarded eventMac readEvent hreached 0 progress hfirst

end InferPlatform.Gateway
