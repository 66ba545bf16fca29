import InferPlatform.Agent.Tunnel
import InferPlatform.Gateway.Heartbeat

/-!
# Connections

A connect beside the registry that it registers with. Once its tunnel is open the command
registers its node, and then again every thirty seconds until its Ctrl-C; it does not look at
the tunnel any more. Other commands of the provider run beside it, a disconnect among them
that kills the tunnel, and the gateway does whatever else it does.

* `connections` — the commands of a provider and the gateway as a system;
* `stageMove_of_step` — what a step of the commands means to one connect;
* `waiting_unswept` — **a connect that is heard in time keeps its node from every sweep until
  its Ctrl-C, with its tunnel or without**;
* `second_failure_swept` — two failures in a row are not heard in time.
-/

namespace InferPlatform.Agent

/-! ## Stages of a connect -/

/-- How far a command is with its requests. The heartbeats go on while the command deals with
its Ctrl-C, and stop when it returns. -/
inductive Stage
  | early
  | registering
  | writing
  | beating
  | over
  deriving DecidableEq, Repr

def Command.stage : Command → Stage
  | .connect _ .validate | .connect _ .spawn | .connect _ (.readPort _) => .early
  | .connect _ (.register _ _) => .registering
  | .connect _ (.write _ _) => .writing
  | .connect _ (.wait _) | .connect _ (.kill _) | .connect _ .remove => .beating
  | .connect _ .done | .connect _ .failed | .disconnect _ => .over

def Command.args : Command → Option ConnectArgs
  | .connect args _ => some args
  | .disconnect _ => none

def CliState.stage (st : CliState) (i : Nat) : Stage :=
  (st.commands[i]?.map Command.stage).getD .early

def CliState.args (st : CliState) (i : Nat) : Option ConnectArgs :=
  st.commands[i]?.bind Command.args

/-- Command `i` gets the reply to its registration. -/
def CliAction.replies (i : Nat) : CliAction → Bool
  | .advance j (.registered _) => j = i
  | _ => false

/-- Command `i` has written its state file, and starts its heartbeats. -/
def CliAction.starts (i : Nat) : CliAction → Bool
  | .advance j (.written .ok) => j = i
  | _ => false

/-- A step of the commands keeps the stage of command `i`, or takes it to the next one or to
its end. -/
inductive StageMove (i : Nat) : Stage → CliAction → Stage → Prop
  | keep {stage : Stage} {a : CliAction} (hreplies : a.replies i = false)
      (hstarts : a.starts i = false) : StageMove i stage a stage
  | ask {a : CliAction} (hreplies : a.replies i = false) (hstarts : a.starts i = false) :
      StageMove i .early a .registering
  | accept : StageMove i .registering (.advance i (.registered true)) .writing
  | start : StageMove i .writing (.advance i (.written .ok)) .beating
  | finish {stage : Stage} {a : CliAction} : StageMove i stage a .over

theorem stage_of_advance {st st' : CliState} {i : Nat} {c c' : Command} {answer : Answer}
    (h : advance st i c answer = some (st', c')) :
    c'.args = c.args ∧ StageMove i c.stage (.advance i answer) c'.stage := by
  unfold advance at h
  split at h
  · rename_i args ok
    cases h
    cases ok
    · exact ⟨rfl, .finish⟩
    · exact ⟨rfl, .keep rfl rfl⟩
  · cases h
    exact ⟨rfl, .finish⟩
  · split at h
    · cases h
      exact ⟨rfl, .keep rfl rfl⟩
    · cases h
  · split at h
    · cases h
      exact ⟨rfl, .ask rfl rfl⟩
    · cases h
      exact ⟨rfl, .finish⟩
  · -- the reply to the registration
    rename_i args pid port ok
    cases h
    cases ok
    · exact ⟨rfl, .finish⟩
    · exact ⟨rfl, .accept⟩
  · split at h
    · cases h
      exact ⟨rfl, .start⟩
    · cases h
      exact ⟨rfl, .finish⟩
    · cases h
      exact ⟨rfl, .finish⟩
  · rename_i args pid ok
    cases h
    cases ok
    · exact ⟨rfl, .finish⟩
    · exact ⟨rfl, .keep rfl rfl⟩
  · cases h
    exact ⟨rfl, .keep rfl rfl⟩
  · cases h
    exact ⟨rfl, .finish⟩
  · split at h
    · cases h
      exact ⟨rfl, .finish⟩
    · cases h
      exact ⟨rfl, .finish⟩
  · cases h
    exact ⟨rfl, .finish⟩
  · cases h
    exact ⟨rfl, .finish⟩
  · cases h

/-- A new command is at its start. -/
theorem stageMove_append {st : CliState} {a : CliAction} {i : Nat} {c : Command}
    (hreplies : a.replies i = false) (hstarts : a.starts i = false)
    (hc : c.stage = .early ∨ c.stage = .over) :
    let st' := { st with commands := st.commands ++ [c] }
    (∀ args, st.args i = some args → st'.args i = some args) ∧
      StageMove i (st.stage i) a (st'.stage i) := by
  intro st'
  rcases Nat.lt_trichotomy i st.commands.length with hlt | rfl | hgt
  · have hsame : st'.commands[i]? = st.commands[i]? := List.getElem?_append_left hlt
    simp only [CliState.args, CliState.stage, hsame]
    exact ⟨fun _ h => h, .keep hreplies hstarts⟩
  · have hnone : st.commands[st.commands.length]? = none := List.getElem?_eq_none (le_refl _)
    have hnew : st'.commands[st.commands.length]? = some c := List.getElem?_concat_length
    simp only [CliState.args, CliState.stage, hnone, hnew]
    refine ⟨by rintro args ⟨⟩, ?_⟩
    rcases hc with hearly | hover
    · rw [Option.map_some, hearly]
      exact .keep hreplies hstarts
    · rw [Option.map_some, hover]
      exact .finish
  · have hnone : st.commands[i]? = none := List.getElem?_eq_none (by omega)
    have hnone' : st'.commands[i]? = none := List.getElem?_eq_none (by simp [st']; omega)
    simp only [CliState.args, CliState.stage, hnone, hnone']
    exact ⟨fun _ h => h, .keep hreplies hstarts⟩

theorem stageMove_of_step {st st' : CliState} {a : CliAction} (h : cliStep st a = some st')
    (i : Nat) : (∀ args, st.args i = some args → st'.args i = some args) ∧
      StageMove i (st.stage i) a (st'.stage i) := by
  cases a with
  | connect args =>
      cases h
      exact stageMove_append rfl rfl (.inl rfl)
  | disconnect =>
      cases h
      exact stageMove_append rfl rfl (.inr rfl)
  | exit pid =>
      cases h
      exact ⟨fun _ h => h, .keep rfl rfl⟩
  | advance j answer =>
      simp only [cliStep] at h
      split at h
      · cases h
      · rename_i c hc
        obtain ⟨⟨next, c'⟩, hadvance, rfl⟩ := Option.map_eq_some_iff.mp h
        by_cases hj : j = i
        · subst hj
          obtain ⟨hargs, hmove⟩ := stage_of_advance hadvance
          have hlt : j < st.commands.length := (List.getElem?_eq_some_iff.mp hc).1
          have hnew : (st.commands.set j c')[j]? = some c' := List.getElem?_set_self hlt
          simp only [CliState.args, CliState.stage, hc, hnew]
          exact ⟨fun args h => hargs.trans h, hmove⟩
        · have hsame : (st.commands.set j c')[i]? = st.commands[i]? := List.getElem?_set_ne hj
          simp only [CliState.args, CliState.stage, hsame]
          refine ⟨fun _ h => h, .keep ?_ ?_⟩
          · cases answer <;> simp [CliAction.replies, hj]
          · cases answer with
            | written o => cases o <;> simp [CliAction.starts, hj]
            | _ => rfl

end InferPlatform.Agent

namespace InferPlatform.Gateway

open Agent

/-! ## The system -/

/-- A request under way. -/
structure ConnectCall where
  since : Int
  handled : Bool
  deriving DecidableEq, Repr

/-- The gateway, the commands of a provider, and one connect among them: what it registers,
its request under way and the next tick of its interval. Times are in microseconds, on one
clock. -/
structure ConnectionState where
  registry : RegistryState
  cli : CliState
  payload : Option RegisterNodeRequest
  call : Option ConnectCall
  nextTick : Int
  clock : Int

inductive ConnectionAction
  | elapse (time : Int)
  | send
  | handle (id : String) (upsert : Outcome)
  | receive (reply : Reply)
  | cli (a : CliAction)
  | registry (a : RegistryAction)

/-- Connect `i`, on a machine with this GPU. The interval ticks every thirty seconds from the
end of the connect's preparations on, and not at once; ticks that were missed are made up for. -/
def connectionStep (i : Nat) (gpu : String × UInt64) (st : ConnectionState) :
    ConnectionAction → Option ConnectionState
  | .elapse time =>
    if time < st.clock then none
    -- the client gives up after fifteen seconds
    else if ∃ call ∈ st.call, st.cli.stage i ≠ .over ∧ call.since + 15000000 < time then none
    else some { st with clock := time }
  | .send =>
    match st.call, st.cli.commands[i]? with
    | none, some (.connect args (.register _ port)) =>
      some { st with payload := some (args.registration port gpu), call := some ⟨st.clock, false⟩ }
    | none, some command =>
      if command.stage = .beating ∧ st.nextTick ≤ st.clock then
        some { st with call := some ⟨st.clock, false⟩, nextTick := st.nextTick + 30000000 }
      else none
    | _, _ => none
  | .handle id upsert =>
    match st.payload, st.call with
    | some req, some ⟨since, false⟩ =>
      let input : RegisterInput := ⟨id, st.clock, st.clock, upsert, []⟩
      if st.registry.store.Fresh id then
        let store := (register st.registry.store req input).1
        some { st with registry := { st.registry with store }, call := some ⟨since, true⟩ }
      else none
    | _, _ => none
  | .receive reply =>
    match st.call with
    | none => none
    | some call =>
      if reply.success ∧ ¬ call.handled then none
      else
        match st.cli.stage i with
        | .registering =>
          (cliStep st.cli (.advance i (.registered reply.success))).map fun cli =>
            { st with cli, call := none }
        -- a heartbeat that fails is only reported
        | .beating => some { st with call := none }
        | _ => none
  | .cli a =>
    if a.replies i then none
    else
      (cliStep st.cli a).map fun cli =>
        { st with cli, nextTick := if a.starts i then st.clock + 30000000 else st.nextTick }
  | .registry a =>
    if a.ReadsClock st.clock then
      (registryStep st.registry a).map fun registry => { st with registry }
    else none

/-- The commands of a provider and a gateway, from the start of both. -/
def connections (i : Nat) (gpu : String × UInt64) : System ConnectionState ConnectionAction where
  init st := registry.init st.registry ∧ Agent.cli.init st.cli ∧ st.payload = none ∧ st.call = none
  step := connectionStep i gpu

def noteReply (beats : Beats) (st : ConnectionState) (a : ConnectionAction)
    (_ : ConnectionState) : Beats :=
  match a, st.call with
  | .receive reply, some call =>
    if reply.success then ⟨some call.since, 0⟩ else { beats with failures := beats.failures + 1 }
  | _, _ => beats

/-- The system, with when the last request that succeeded was sent, and the failures since. -/
abbrev notedReplies (i : Nat) (gpu : String × UInt64) :
    System (ConnectionState × Beats) ConnectionAction :=
  (connections i gpu).observed ⟨none, 0⟩ noteReply

/-- What a step does. -/
inductive ConnectionMove (i : Nat) (gpu : String × UInt64) (st : ConnectionState) :
    ConnectionAction → ConnectionState → Prop
  | elapse {time : Int} (hclock : st.clock ≤ time) :
      ConnectionMove i gpu st (.elapse time) { st with clock := time }
  | ask {args : ConnectArgs} {port : UInt16} (hcall : st.call = none)
      (hstage : st.cli.stage i = .registering) (hargs : st.cli.args i = some args) :
      ConnectionMove i gpu st .send { st with
        payload := some (args.registration port gpu)
        call := some ⟨st.clock, false⟩ }
  | beat (hcall : st.call = none) (hstage : st.cli.stage i = .beating)
      (hdue : st.nextTick ≤ st.clock) :
      ConnectionMove i gpu st .send { st with
        call := some ⟨st.clock, false⟩
        nextTick := st.nextTick + 30000000 }
  | handle {id : String} {upsert : Outcome} {req : RegisterNodeRequest} {since : Int}
      (hpayload : st.payload = some req) (hcall : st.call = some ⟨since, false⟩)
      (hfresh : st.registry.store.Fresh id) :
      ConnectionMove i gpu st (.handle id upsert) { st with
        registry := { st.registry with
          store := (register st.registry.store req ⟨id, st.clock, st.clock, upsert, []⟩).1 }
        call := some ⟨since, true⟩ }
  | reply {reply : Reply} {call : ConnectCall} {cli : CliState} (hcall : st.call = some call)
      (hhandled : reply.success = true → call.handled = true)
      (hstage : st.cli.stage i = .registering)
      (hcli : cliStep st.cli (.advance i (.registered reply.success)) = some cli) :
      ConnectionMove i gpu st (.receive reply) { st with cli, call := none }
  | heard {reply : Reply} {call : ConnectCall} (hcall : st.call = some call)
      (hhandled : reply.success = true → call.handled = true)
      (hstage : st.cli.stage i = .beating) :
      ConnectionMove i gpu st (.receive reply) { st with call := none }
  | cli {a : CliAction} {cli : CliState} (hreplies : a.replies i = false)
      (hcli : cliStep st.cli a = some cli) :
      ConnectionMove i gpu st (.cli a) { st with
        cli
        nextTick := if a.starts i then st.clock + 30000000 else st.nextTick }
  | registry {a : RegistryAction} {next : RegistryState} (hreads : a.ReadsClock st.clock)
      (hmove : RegistryMove st.registry a next) :
      ConnectionMove i gpu st (.registry a) { st with registry := next }

theorem connectionMove_of_step {i : Nat} {gpu : String × UInt64} {st st' : ConnectionState}
    {a : ConnectionAction} (h : connectionStep i gpu st a = some st') :
    ConnectionMove i gpu st a st' := by
  cases a with
  | elapse time =>
      simp only [connectionStep] at h
      split at h
      · cases h
      · split at h
        · cases h
        · cases h
          exact .elapse (by omega)
  | send =>
      simp only [connectionStep] at h
      split at h
      · rename_i args pid port hcall hcommand
        cases h
        refine .ask hcall ?_ ?_
        · rw [CliState.stage, hcommand]
          rfl
        · rw [CliState.args, hcommand]
          rfl
      · rename_i command hcall hcommand
        split at h
        · rename_i hbeat
          cases h
          refine .beat hcall ?_ hbeat.2
          rw [CliState.stage, hcommand]
          exact hbeat.1
        · cases h
      · cases h
  | handle id upsert =>
      simp only [connectionStep] at h
      split at h
      · rename_i req since hpayload hcall
        split at h
        · rename_i hfresh
          cases h
          exact .handle hpayload hcall hfresh
        · cases h
      · cases h
  | receive reply =>
      simp only [connectionStep] at h
      split at h
      · cases h
      · rename_i call hcall
        split at h
        · cases h
        · rename_i hhandled
          have hsucceeded : reply.success = true → call.handled = true := by
            intro hsuccess
            simpa [hsuccess] using hhandled
          split at h
          · rename_i hstage
            obtain ⟨cli, hcli, rfl⟩ := Option.map_eq_some_iff.mp h
            exact .reply hcall hsucceeded hstage hcli
          · rename_i hstage
            cases h
            exact .heard hcall hsucceeded hstage
          · cases h
  | cli a =>
      simp only [connectionStep] at h
      split at h
      · cases h
      · rename_i hreplies
        obtain ⟨cli, hcli, rfl⟩ := Option.map_eq_some_iff.mp h
        exact .cli (by simpa using hreplies) hcli
  | registry a =>
      simp only [connectionStep] at h
      split at h
      · rename_i hreads
        obtain ⟨next, hnext, rfl⟩ := Option.map_eq_some_iff.mp h
        exact .registry hreads (registryMove_of_step hnext)
      · cases h

/-! ## A connect that is heard in time -/

/-- How old a registration can be when the interval ticks after `failures` failures. -/
def Limits.tickDue (limits : Limits) (failures : Nat) : Int :=
  30000000 * (failures + 1) + limits.request + limits.delay

/-- How old it can be at all. -/
def Limits.tickAge (limits : Limits) : Int :=
  limits.tickDue limits.failures + limits.delay + limits.request

/-- By when the connect does the next thing: it has a reply, it starts its heartbeats, or it
wakes up for one. -/
def dueBy (limits : Limits) (i : Nat) (s : ConnectionState × Beats) : Option Int :=
  match s.1.cli.stage i with
  | .registering => s.1.call.map fun call => call.since + limits.request
  | .writing => s.2.registered.map fun b => b + limits.request + limits.delay
  | .beating =>
    match s.1.call with
    | some call => some (call.since + limits.request)
    | none => some (s.1.nextTick + limits.delay)
  | .early | .over => none

/-- A run within limits: time stands still where the connect would be late, the statement of
every registration succeeds, and so does a request after enough failures. -/
def Punctual (limits : Limits) (i : Nat) (s : ConnectionState × Beats) : ConnectionAction → Prop
  | .elapse time => ∀ due ∈ dueBy limits i s, time ≤ due
  | .handle _ upsert => upsert = .ok
  | .receive reply => reply.success = true ∨ s.2.failures < limits.failures
  | .send | .cli _ | .registry _ => True

instance (limits : Limits) (i : Nat) (s : ConnectionState × Beats) :
    (a : ConnectionAction) → Decidable (Punctual limits i s a)
  | .elapse time => inferInstanceAs (Decidable (∀ due ∈ dueBy limits i s, time ≤ due))
  | .handle _ upsert => inferInstanceAs (Decidable (upsert = .ok))
  | .receive reply =>
    inferInstanceAs (Decidable (reply.success = true ∨ s.2.failures < limits.failures))
  | .send | .cli _ | .registry _ => inferInstanceAs (Decidable True)

/-- The node of the connect was seen at `t` or later. -/
def ConnectionState.Seen (st : ConnectionState) (t : Int) : Prop :=
  ∃ req ∈ st.payload, SeenSince req.name t st.registry.store

/-- The invariant of a run within limits. -/
structure KeptAlive (limits : Limits) (i : Nat) (gpu : String × UInt64)
    (s : ConnectionState × Beats) : Prop where
  failures : s.2.failures ≤ limits.failures
  named : ∀ req ∈ s.1.payload, ∃ args port, s.1.cli.args i = some args ∧
    req = args.registration port gpu
  called : ∀ call ∈ s.1.call, call.since ≤ s.1.clock ∧
    (call.handled = true → s.1.Seen call.since)
  registered : ∀ b ∈ s.2.registered, b ≤ s.1.clock ∧ s.1.Seen b
  early : s.1.cli.stage i = .early → s.1.call = none ∧ s.2.registered = none
  registering : s.1.cli.stage i = .registering → s.2.registered = none ∧
    ∀ call ∈ s.1.call, s.1.clock ≤ call.since + limits.request
  writing : s.1.cli.stage i = .writing → s.1.call = none ∧ s.2.failures = 0 ∧
    ∃ b, s.2.registered = some b ∧ s.1.clock ≤ b + limits.request + limits.delay
  waiting : s.1.cli.stage i = .beating → s.1.call = none →
    s.1.clock ≤ s.1.nextTick + limits.delay ∧
      ∃ b, s.2.registered = some b ∧ s.1.nextTick ≤ b + limits.tickDue s.2.failures
  beating : s.1.cli.stage i = .beating → ∀ call ∈ s.1.call,
    s.1.clock ≤ call.since + limits.request ∧
      s.1.nextTick ≤ call.since + 30000000 ∧ call.since + 30000000 ≤ s.1.nextTick + limits.delay ∧
      ∃ b, s.2.registered = some b ∧ s.1.nextTick ≤ b + limits.tickDue (s.2.failures + 1)

variable {limits : Limits} {i : Nat} {gpu : String × UInt64} {s s' : ConnectionState × Beats}

theorem keptAlive_init (h : (notedReplies i gpu).init s) : KeptAlive limits i gpu s := by
  obtain ⟨⟨-, ⟨-, hcommands⟩, hpayload, hcall⟩, hbeats⟩ := h
  have hstage : s.1.cli.stage i = .early := by
    rw [CliState.stage, hcommands]
    rfl
  refine ⟨?_, ?_, ?_, ?_, ?_, ?_, ?_, ?_, ?_⟩
  · rw [hbeats]
    exact Nat.zero_le _
  · rw [hpayload]
    rintro req ⟨⟩
  · rw [hcall]
    rintro call ⟨⟩
  · rw [hbeats]
    rintro b ⟨⟩
  · rw [hbeats]
    exact fun _ => ⟨hcall, rfl⟩
  all_goals
    rw [hstage]
    rintro ⟨⟩

theorem tickDue_mono (limits : Limits) {n m : Nat} (h : n ≤ m) :
    limits.tickDue n ≤ limits.tickDue m := by
  unfold Limits.tickDue
  omega


/-- Where no reply comes in, the notes stay. -/
theorem noteReply_of_ne {beats : Beats} {st st' : ConnectionState} {a : ConnectionAction}
    (h : ∀ reply, a ≠ .receive reply) : noteReply beats st a st' = beats := by
  cases a with
  | receive reply => exact absurd rfl (h reply)
  | elapse | send | handle | cli | registry => rfl

theorem noteReply_receive {beats : Beats} {st st' : ConnectionState} {reply : Reply}
    {call : ConnectCall} (hcall : st.call = some call) :
    noteReply beats st (.receive reply) st' =
      if reply.success then ⟨some call.since, 0⟩
      else { beats with failures := beats.failures + 1 } := by
  simp [noteReply, hcall]

section

variable {st : ConnectionState} {beats : Beats}

/-- Time goes on to when the next thing is due. -/
theorem KeptAlive.elapse (hinv : KeptAlive limits i gpu (st, beats)) {time : Int}
    (hclock : st.clock ≤ time) (hdue : ∀ due ∈ dueBy limits i (st, beats), time ≤ due) :
    KeptAlive limits i gpu ({ st with clock := time }, beats) := by
  refine ⟨hinv.failures, hinv.named, ?_, ?_, hinv.early, ?_, ?_, ?_, ?_⟩
  · intro call hcall
    exact ⟨(hinv.called call hcall).1.trans hclock, (hinv.called call hcall).2⟩
  · intro b hb
    exact ⟨(hinv.registered b hb).1.trans hclock, (hinv.registered b hb).2⟩
  · intro hstage
    refine ⟨(hinv.registering hstage).1, ?_⟩
    intro call hcall
    apply hdue
    simp only [dueBy, show st.cli.stage i = _ from hstage, show st.call = _ from hcall]
    rfl
  · intro hstage
    obtain ⟨hcall, hzero, b, hb, -⟩ := hinv.writing hstage
    refine ⟨hcall, hzero, b, hb, ?_⟩
    apply hdue
    simp only [dueBy, show st.cli.stage i = _ from hstage, show beats.registered = _ from hb]
    rfl
  · intro hstage hcall
    refine ⟨?_, (hinv.waiting hstage hcall).2⟩
    apply hdue
    simp only [dueBy, show st.cli.stage i = _ from hstage, show st.call = _ from hcall]
    rfl
  · intro hstage call hcall
    refine ⟨?_, (hinv.beating hstage call hcall).2⟩
    apply hdue
    simp only [dueBy, show st.cli.stage i = _ from hstage, show st.call = _ from hcall]
    rfl

/-- The connect asks for its node. -/
theorem KeptAlive.ask (hinv : KeptAlive limits i gpu (st, beats)) {args : ConnectArgs}
    {port : UInt16} (hstage : st.cli.stage i = .registering) (hargs : st.cli.args i = some args) :
    KeptAlive limits i gpu ({ st with
      payload := some (args.registration port gpu)
      call := some ⟨st.clock, false⟩ }, beats) := by
  have hnone : beats.registered = none := (hinv.registering hstage).1
  refine ⟨hinv.failures, ?_, ?_, ?_, ?_, ?_, ?_, ?_, ?_⟩
  · rintro req ⟨⟩
    exact ⟨args, port, hargs, rfl⟩
  · rintro call ⟨⟩
    exact ⟨le_refl _, by rintro ⟨⟩⟩
  · dsimp only
    rw [hnone]
    rintro b ⟨⟩
  · dsimp only
    rw [hstage]
    rintro ⟨⟩
  · refine fun _ => ⟨hnone, ?_⟩
    rintro call ⟨⟩
    dsimp only
    omega
  all_goals
    dsimp only
    rw [hstage]
    rintro ⟨⟩

/-- The interval ticks. -/
theorem KeptAlive.beat (hinv : KeptAlive limits i gpu (st, beats)) (hcall : st.call = none)
    (hstage : st.cli.stage i = .beating) (hdue : st.nextTick ≤ st.clock) :
    KeptAlive limits i gpu ({ st with
      call := some ⟨st.clock, false⟩
      nextTick := st.nextTick + 30000000 }, beats) := by
  obtain ⟨hlate, b, hb, htick⟩ := hinv.waiting hstage hcall
  refine ⟨hinv.failures, hinv.named, ?_, hinv.registered, ?_, ?_, ?_, ?_, ?_⟩
  · rintro call ⟨⟩
    exact ⟨le_refl _, by rintro ⟨⟩⟩
  · dsimp only
    rw [hstage]
    rintro ⟨⟩
  · dsimp only
    rw [hstage]
    rintro ⟨⟩
  · dsimp only
    rw [hstage]
    rintro ⟨⟩
  · rintro - ⟨⟩
  · rintro - call ⟨⟩
    have hsucc : limits.tickDue (beats.failures + 1) = limits.tickDue beats.failures + 30000000 := by
      unfold Limits.tickDue
      push_cast
      ring
    dsimp only at hlate hb htick ⊢
    exact ⟨by omega, by omega, by omega, b, hb, by omega⟩

/-- The gateway handles the request under way. -/
theorem KeptAlive.handle (hinv : KeptAlive limits i gpu (st, beats)) {id : String}
    {req : RegisterNodeRequest} {since : Int} (hpayload : st.payload = some req)
    (hcall : st.call = some ⟨since, false⟩) (hfresh : st.registry.store.Fresh id) :
    KeptAlive limits i gpu ({ st with
      registry := { st.registry with
        store := (register st.registry.store req ⟨id, st.clock, st.clock, .ok, []⟩).1 }
      call := some ⟨since, true⟩ }, beats) := by
  obtain ⟨args, port, -, hreq⟩ := hinv.named req hpayload
  have haccepted : findViolations req.models = [] := by
    rw [hreq]
    rfl
  have hseen := seenSince_register haccepted st.clock hfresh
  obtain ⟨hsince, -⟩ := hinv.called ⟨since, false⟩ hcall
  refine ⟨hinv.failures, hinv.named, ?_, ?_, ?_, ?_, ?_, ?_, ?_⟩
  · rintro call ⟨⟩
    exact ⟨hsince, fun _ => ⟨req, hpayload, hseen.mono hsince⟩⟩
  · intro b hb
    have hle := (hinv.registered b hb).1
    exact ⟨hle, req, hpayload, hseen.mono hle⟩
  · intro hstage
    have hnone : st.call = none := (hinv.early hstage).1
    rw [hcall] at hnone
    cases hnone
  · intro hstage
    obtain ⟨hnone, hlimit⟩ := hinv.registering hstage
    refine ⟨hnone, ?_⟩
    rintro call ⟨⟩
    exact hlimit ⟨since, false⟩ hcall
  · intro hstage
    have hnone : st.call = none := (hinv.writing hstage).1
    rw [hcall] at hnone
    cases hnone
  · rintro - ⟨⟩
  · rintro hstage call ⟨⟩
    exact hinv.beating hstage ⟨since, false⟩ hcall

/-- The reply to the registration: the connect goes on, or ends. -/
theorem KeptAlive.reply (hinv : KeptAlive limits i gpu (st, beats)) {reply : Reply}
    {call : ConnectCall} {cli : CliState} (hcall : st.call = some call)
    (hhandled : reply.success = true → call.handled = true)
    (hstage : st.cli.stage i = .registering)
    (hcli : cliStep st.cli (.advance i (.registered reply.success)) = some cli)
    (hfew : reply.success = true ∨ beats.failures < limits.failures) :
    KeptAlive limits i gpu ({ st with cli, call := none },
      if reply.success then ⟨some call.since, 0⟩
      else { beats with failures := beats.failures + 1 }) := by
  obtain ⟨hsince, hseen⟩ := hinv.called call hcall
  obtain ⟨hnone, hlimit⟩ := hinv.registering hstage
  obtain ⟨hargs, hmove⟩ := stageMove_of_step hcli i
  have hnamed : ∀ req ∈ st.payload, ∃ args port, cli.args i = some args ∧
      req = args.registration port gpu := by
    intro req hreq
    obtain ⟨args, port, h, rfl⟩ := hinv.named req hreq
    exact ⟨args, port, hargs args h, rfl⟩
  cases hreply : reply.success with
  | false =>
      rw [if_neg (by simp)]
      have hover : cli.stage i = .over := by
        rw [hstage, hreply] at hmove
        generalize cli.stage i = stage at hmove
        cases hmove with
        | keep hreplies => simp [CliAction.replies] at hreplies
        | finish => rfl
      refine ⟨?_, hnamed, by rintro call' ⟨⟩, hinv.registered, ?_, ?_, ?_, ?_, ?_⟩
      · rcases hfew with hsuccess | hfew
        · rw [hreply] at hsuccess
          cases hsuccess
        · exact hfew
      all_goals
        dsimp only
        rw [hover]
        rintro ⟨⟩
  | true =>
      rw [if_pos rfl]
      have hnext : cli.stage i = .writing ∨ cli.stage i = .over := by
        rw [hstage, hreply] at hmove
        generalize cli.stage i = stage at hmove
        cases hmove with
        | keep hreplies => simp [CliAction.replies] at hreplies
        | accept => exact .inl rfl
        | finish => exact .inr rfl
      refine ⟨Nat.zero_le _, hnamed, by rintro call' ⟨⟩, ?_, ?_, ?_, ?_, ?_, ?_⟩
      · rintro b ⟨⟩
        exact ⟨hsince, hseen (hhandled hreply)⟩
      · intro hearly
        rcases hnext with hnext | hnext <;> rw [hearly] at hnext <;> cases hnext
      · intro hregistering
        rcases hnext with hnext | hnext <;> rw [hregistering] at hnext <;> cases hnext
      · refine fun _ => ⟨rfl, rfl, call.since, rfl, ?_⟩
        have hclock := hlimit call hcall
        dsimp only at hclock ⊢
        omega
      · intro hbeating
        rcases hnext with hnext | hnext <;> rw [hbeating] at hnext <;> cases hnext
      · rintro - call' ⟨⟩

/-- The reply to a heartbeat. -/
theorem KeptAlive.heard (hrequest : (limits.request : Int) ≤ 30000000)
    (hinv : KeptAlive limits i gpu (st, beats)) {reply : Reply} {call : ConnectCall}
    (hcall : st.call = some call) (hhandled : reply.success = true → call.handled = true)
    (hstage : st.cli.stage i = .beating)
    (hfew : reply.success = true ∨ beats.failures < limits.failures) :
    KeptAlive limits i gpu ({ st with call := none },
      if reply.success then ⟨some call.since, 0⟩
      else { beats with failures := beats.failures + 1 }) := by
  obtain ⟨hsince, hseen⟩ := hinv.called call hcall
  obtain ⟨hlate, hnear, hfar, b, hb, htick⟩ := hinv.beating hstage call hcall
  dsimp only at hlate hnear hfar hb htick
  have hother : ∀ stage, stage ≠ .beating → st.cli.stage i ≠ stage := by
    rintro stage hne rfl
    exact hne hstage
  cases hreply : reply.success with
  | false =>
      rw [if_neg (by simp)]
      have hfew : beats.failures < limits.failures := by simpa [hreply] using hfew
      refine ⟨hfew, hinv.named, by rintro call' ⟨⟩, hinv.registered, ?_, ?_, ?_, ?_, ?_⟩
      · exact fun h => absurd h (hother _ (by decide))
      · exact fun h => absurd h (hother _ (by decide))
      · exact fun h => absurd h (hother _ (by decide))
      · refine fun _ _ => ⟨?_, b, hb, htick⟩
        dsimp only
        omega
      · rintro - call' ⟨⟩
  | true =>
      rw [if_pos rfl]
      refine ⟨Nat.zero_le _, hinv.named, by rintro call' ⟨⟩, ?_, ?_, ?_, ?_, ?_, ?_⟩
      · rintro b' ⟨⟩
        exact ⟨hsince, hseen (hhandled hreply)⟩
      · exact fun h => absurd h (hother _ (by decide))
      · exact fun h => absurd h (hother _ (by decide))
      · exact fun h => absurd h (hother _ (by decide))
      · have hzero : limits.tickDue 0 = 30000000 + limits.request + limits.delay := by
          simp [Limits.tickDue]
        refine fun _ _ => ⟨?_, call.since, rfl, ?_⟩
        · dsimp only
          omega
        · dsimp only
          omega
      · rintro - call' ⟨⟩

/-- A step of the commands that is not the reply to the registration. -/
theorem KeptAlive.cli (hinv : KeptAlive limits i gpu (st, beats)) {a : CliAction} {cli : CliState}
    (hreplies : a.replies i = false) (hcli : cliStep st.cli a = some cli) :
    KeptAlive limits i gpu ({ st with
      cli
      nextTick := if a.starts i then st.clock + 30000000 else st.nextTick }, beats) := by
  obtain ⟨hargs, hmove⟩ := stageMove_of_step hcli i
  have hnamed : ∀ req ∈ st.payload, ∃ args port, cli.args i = some args ∧
      req = args.registration port gpu := by
    intro req hreq
    obtain ⟨args, port, h, rfl⟩ := hinv.named req hreq
    exact ⟨args, port, hargs args h, rfl⟩
  generalize hbefore : st.cli.stage i = before at hmove
  generalize hafter : cli.stage i = after at hmove
  cases hmove with
  | keep _ hstarts =>
      have hsame : cli.stage i = st.cli.stage i := hafter.trans hbefore.symm
      rw [if_neg (by simp [hstarts])]
      refine ⟨hinv.failures, hnamed, hinv.called, hinv.registered, ?_, ?_, ?_, ?_, ?_⟩
      all_goals
        dsimp only
        rw [hsame]
      · exact hinv.early
      · exact hinv.registering
      · exact hinv.writing
      · exact hinv.waiting
      · exact hinv.beating
  | ask _ hstarts =>
      obtain ⟨hcall, hnone⟩ := hinv.early hbefore
      dsimp only at hcall hnone
      refine ⟨hinv.failures, hnamed, hinv.called, hinv.registered, ?_, ?_, ?_, ?_, ?_⟩
      · dsimp only
        rw [hafter]
        rintro ⟨⟩
      · refine fun _ => ⟨hnone, ?_⟩
        dsimp only
        rw [hcall]
        rintro call ⟨⟩
      all_goals
        dsimp only
        rw [hafter]
        rintro ⟨⟩
  | accept => simp [CliAction.replies] at hreplies
  | start =>
      obtain ⟨hcall, hzero, b, hb, hlate⟩ := hinv.writing hbefore
      dsimp only at hcall hzero hb hlate
      have hstarts : (CliAction.advance i (.written .ok)).starts i = true := by
        simp [CliAction.starts]
      rw [if_pos hstarts]
      refine ⟨hinv.failures, hnamed, hinv.called, hinv.registered, ?_, ?_, ?_, ?_, ?_⟩
      · dsimp only
        rw [hafter]
        rintro ⟨⟩
      · dsimp only
        rw [hafter]
        rintro ⟨⟩
      · dsimp only
        rw [hafter]
        rintro ⟨⟩
      · have hdue : limits.tickDue 0 = 30000000 + limits.request + limits.delay := by
          simp [Limits.tickDue]
        refine fun _ _ => ⟨?_, b, hb, ?_⟩
        · dsimp only
          omega
        · dsimp only
          rw [hzero]
          omega
      · dsimp only
        rw [hcall]
        rintro - call ⟨⟩
  | finish =>
      refine ⟨hinv.failures, hnamed, hinv.called, hinv.registered, ?_, ?_, ?_, ?_, ?_⟩
      all_goals
        dsimp only
        rw [hafter]
        rintro ⟨⟩

/-- What else the gateway does. -/
theorem KeptAlive.registry (hinv : KeptAlive limits i gpu (st, beats)) {a : RegistryAction}
    {next : RegistryState} (hreads : a.ReadsClock st.clock)
    (hmove : RegistryMove st.registry a next) :
    KeptAlive limits i gpu ({ st with registry := next }, beats) := by
  have hkeeps : ∀ t ≤ st.clock, st.Seen t → ({ st with registry := next }).Seen t := by
    rintro t ht ⟨req, hreq, hseen⟩
    exact ⟨req, hreq, hseen.move hmove hreads ht⟩
  refine ⟨hinv.failures, hinv.named, ?_, ?_, hinv.early, hinv.registering, hinv.writing,
    hinv.waiting, hinv.beating⟩
  · intro call hcall
    obtain ⟨hsince, hseen⟩ := hinv.called call hcall
    exact ⟨hsince, fun h => hkeeps _ hsince (hseen h)⟩
  · intro b hb
    obtain ⟨hle, hseen⟩ := hinv.registered b hb
    exact ⟨hle, hkeeps _ hle hseen⟩

end

theorem keptAlive_step (hrequest : (limits.request : Int) ≤ 30000000) {a : ConnectionAction}
    (hinv : KeptAlive limits i gpu s) (hallowed : Punctual limits i s a)
    (hstep : (notedReplies i gpu).step s a = some s') : KeptAlive limits i gpu s' := by
  obtain ⟨hnext, hnotes⟩ := System.observed_step hstep
  obtain ⟨st, beats⟩ := s
  obtain ⟨st', beats'⟩ := s'
  dsimp only at hnext hnotes
  cases connectionMove_of_step hnext with
  | elapse hclock =>
      obtain rfl : beats' = beats := hnotes.trans (noteReply_of_ne (by simp))
      exact hinv.elapse hclock hallowed
  | ask hcall hstage hargs =>
      obtain rfl : beats' = beats := hnotes.trans (noteReply_of_ne (by simp))
      exact hinv.ask hstage hargs
  | beat hcall hstage hdue =>
      obtain rfl : beats' = beats := hnotes.trans (noteReply_of_ne (by simp))
      exact hinv.beat hcall hstage hdue
  | handle hpayload hcall hfresh =>
      obtain rfl : beats' = beats := hnotes.trans (noteReply_of_ne (by simp))
      obtain rfl := show _ = Outcome.ok from hallowed
      exact hinv.handle hpayload hcall hfresh
  | reply hcall hhandled hstage hcli =>
      rw [noteReply_receive hcall] at hnotes
      rw [hnotes]
      exact hinv.reply hcall hhandled hstage hcli hallowed
  | heard hcall hhandled hstage =>
      rw [noteReply_receive hcall] at hnotes
      rw [hnotes]
      exact hinv.heard hrequest hcall hhandled hstage hallowed
  | cli hreplies hcli =>
      obtain rfl : beats' = beats := hnotes.trans (noteReply_of_ne (by simp))
      exact hinv.cli hreplies hcli
  | registry hreads hmove =>
      obtain rfl : beats' = beats := hnotes.trans (noteReply_of_ne (by simp))
      exact hinv.registry hreads hmove

/-- Within limits, the registration of a connect with its heartbeats is never older than
`tickAge`. -/
theorem KeptAlive.registered_le (hinv : KeptAlive limits i gpu s)
    (hstage : s.1.cli.stage i = .beating) :
    ∃ b, s.2.registered = some b ∧ s.1.clock ≤ b + limits.tickAge := by
  have hmono := tickDue_mono limits hinv.failures
  unfold Limits.tickAge
  cases hcall : s.1.call with
  | none =>
      obtain ⟨hlate, b, hb, htick⟩ := hinv.waiting hstage hcall
      exact ⟨b, hb, by omega⟩
  | some call =>
      obtain ⟨hlate, -, hfar, b, hb, htick⟩ := hinv.beating hstage call hcall
      have hsucc : limits.tickDue (s.2.failures + 1) = limits.tickDue s.2.failures + 30000000 := by
        unfold Limits.tickDue
        push_cast
        ring
      exact ⟨b, hb, by omega⟩

/-- **A connect keeps its node**: where the limits let a registration grow no older than
ninety seconds, every sweep leaves the node that a connect has registered as it is while the
connect waits for its Ctrl-C.
Nothing is asked of its tunnel, which a disconnect may have killed. -/
theorem waiting_unswept {limits : Limits} (hage : limits.tickAge ≤ 90000000) {i : Nat}
    {gpu : String × UInt64} {s : ConnectionState × Beats}
    (h : (notedReplies i gpu).ReachedBy (Punctual limits i) s) {args : ConnectArgs} {pid : UInt32}
    (hwaiting : s.1.cli.commands[i]? = some (.connect args (.wait pid))) :
    ∃ port n, s.1.payload = some (args.registration port gpu) ∧
      (s.1.registry.store.roster.find? fun n => n.name = args.nodeName port) = some n ∧
        s.1.clock - 90000000 ≤ n.lastSeen ∧
        ∀ o, ((sweep s.1.registry.store s.1.clock o).roster.find? fun n =>
          n.name = args.nodeName port) = some n := by
  have hrequest : (limits.request : Int) ≤ 30000000 := by
    unfold Limits.tickAge Limits.tickDue at hage
    omega
  have hinv : KeptAlive limits i gpu s :=
    h.invariant _ (fun _ h => keptAlive_init h) fun _ _ _ h => keptAlive_step hrequest h
  have hstage : s.1.cli.stage i = .beating := by
    rw [CliState.stage, hwaiting]
    rfl
  obtain ⟨b, hb, hclock⟩ := hinv.registered_le hstage
  obtain ⟨-, req, hreq, hseen⟩ := hinv.registered b hb
  obtain ⟨args', port, hargs, rfl⟩ := hinv.named req hreq
  have hown : s.1.cli.args i = some args := by
    rw [CliState.args, hwaiting]
    rfl
  obtain rfl : args' = args := Option.some.inj (hargs.symm.trans hown)
  have hrecent : s.1.clock ≤ b + 90000000 := by omega
  obtain ⟨n, hswept⟩ := hseen.swept hrecent
  exact ⟨port, n, hreq, hswept⟩

/-! ## One failure, and a second -/

def connectionStart : ConnectionState :=
  ⟨startState none, ⟨[], .absent, []⟩, none, none, 0, 0⟩

/-- A connect up to its wait, and a disconnect from another terminal. -/
def connectThenDisconnect : List ConnectionAction :=
  (untilRegistration 4242).map .cli ++
    [.send, .handle "node-1" .ok, .receive (.response 201), .cli (.advance 0 (.written .ok)),
      .cli .disconnect, .cli (.advance 1 (.fileRead true)), .cli (.advance 1 (.killed true)),
      .cli (.advance 1 (.removed true))]

/-- A heartbeat that is sent at a time and gets no answer. -/
def lostBeat (time : Int) : List ConnectionAction :=
  [.elapse time, .send, .elapse (time + 10000000), .receive .unreachable]

/-- The tunnel is gone and the disconnect has returned, but the node is not swept. -/
theorem waiting_unswept_disconnected : ∃ s,
    (notedReplies 0 ("RTX 4090", 24576)).run (Punctual ⟨1, 10000000, 5000000⟩ 0)
      (connectionStart, ⟨none, 0⟩)
      (connectThenDisconnect ++ lostBeat 30000000 ++ [.elapse 60000000, .send]) = some s ∧
    s.1.cli.live = [] ∧ s.1.cli.commands[1]? = some (.disconnect .done) ∧
    ∃ port n, s.1.payload = some (sampleArgs.registration port ("RTX 4090", 24576)) ∧
      (s.1.registry.store.roster.find? fun n => n.name = sampleArgs.nodeName port) = some n ∧
        s.1.clock - 90000000 ≤ n.lastSeen ∧
        ∀ o, ((sweep s.1.registry.store s.1.clock o).roster.find? fun n =>
          n.name = sampleArgs.nodeName port) = some n := by
  have hrun : ((notedReplies 0 ("RTX 4090", 24576)).run (Punctual ⟨1, 10000000, 5000000⟩ 0)
      (connectionStart, ⟨none, 0⟩)
      (connectThenDisconnect ++ lostBeat 30000000 ++ [.elapse 60000000, .send])).map
        (fun s => s.1.cli) =
      some ⟨[], .absent, [.connect sampleArgs (.wait 4242), .disconnect .done]⟩ := by
    decide +kernel
  have hinit : (notedReplies 0 ("RTX 4090", 24576)).init (connectionStart, ⟨none, 0⟩) :=
    ⟨⟨⟨rfl, rfl, rfl⟩, ⟨rfl, rfl⟩, rfl, rfl⟩, rfl⟩
  obtain ⟨s, hs, hreached, hvalue⟩ := System.exists_reachedBy_of_run (.init hinit) hrun
  have hage : Limits.tickAge ⟨1, 10000000, 5000000⟩ ≤ 90000000 := by decide
  have hwaiting : s.1.cli.commands[0]? = some (.connect sampleArgs (.wait 4242)) := by
    rw [hvalue]
    rfl
  refine ⟨s, hs, ?_, ?_, waiting_unswept hage hreached hwaiting⟩
  · rw [hvalue]
  · rw [hvalue]
    rfl

/-- After a second failure in a row the node is found stale. -/
theorem second_failure_swept : ∃ s,
    (notedReplies 0 ("RTX 4090", 24576)).ReachedBy (Punctual ⟨2, 10000000, 0⟩ 0) s ∧
      s.1.cli.stage 0 = .beating ∧
      (sweep s.1.registry.store s.1.clock .ok).roster.map (·.status) = [.offline] := by
  have hrun : ((notedReplies 0 ("RTX 4090", 24576)).run (Punctual ⟨2, 10000000, 0⟩ 0)
      (connectionStart, ⟨none, 0⟩)
      (connectThenDisconnect ++ lostBeat 30000000 ++ lostBeat 60000000 ++
        [.elapse 90000000, .send, .elapse 90000001])).map
        (fun s => (s.1.cli.stage 0,
          (sweep s.1.registry.store s.1.clock .ok).roster.map (·.status))) =
      some (.beating, [.offline]) := by decide +kernel
  have hinit : (notedReplies 0 ("RTX 4090", 24576)).init (connectionStart, ⟨none, 0⟩) :=
    ⟨⟨⟨rfl, rfl, rfl⟩, ⟨rfl, rfl⟩, rfl, rfl⟩, rfl⟩
  obtain ⟨s, -, hreached, hvalue⟩ := System.exists_reachedBy_of_run (.init hinit) hrun
  injection hvalue with hstage hstatus
  exact ⟨s, hreached, hstage, hstatus⟩

end InferPlatform.Gateway
