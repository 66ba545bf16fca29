import InferPlatform.Base.Exclusion
import InferPlatform.Base.System
import InferPlatform.Gateway.License
import InferPlatform.Gateway.Nodes

/-!
# The tunnel of a provider

`infer connect` spawns a `bore` process, registers its public port with the coordinator and
records its pid, then waits for Ctrl-C to kill it. `infer disconnect`, from another
terminal, kills the pid on record. Both are cut here at each call that can fail.

* `parseBorePort`, `findPort` — the port in what `bore` prints;
* `advance` — the steps of the two commands;
* `cli` — any number of commands, and tunnels that exit on their own;
* `noOrphans_clean` — **no tunnel outlives its command** as long as a command that gives
  up has lost its tunnel before;
* `rejected_orphan` — a registration that is rejected leaves a tunnel that nobody knows of.
-/

namespace InferPlatform.Agent

open Gateway (isWhitespace)

/-! ## The port -/

/-- What follows the first occurrence of a text. -/
def afterFirst (pat : List Char) : List Char → Option (List Char)
  | [] => if pat = [] then some [] else none
  | c :: text =>
    if pat.isPrefixOf (c :: text) then some ((c :: text).drop pat.length)
    else afterFirst pat text

/-- What precedes it, or the whole text. -/
def beforeFirst (pat : List Char) : List Char → List Char
  | [] => []
  | c :: text => if pat.isPrefixOf (c :: text) then [] else c :: beforeFirst pat text

/-- `u16::from_str`: digits, perhaps with a plus sign before them. -/
def parseU16 (text : List Char) : Option UInt16 :=
  let digits := match text with
    | '+' :: rest => rest
    | _ => text
  if digits ≠ [] ∧ digits.all Char.isDigit then
    let value := digits.foldl (fun n c => n * 10 + (c.toNat - 48)) 0
    if value < 65536 then some (UInt16.ofNat value) else none
  else none

/-- The number behind the last colon of what follows `listening at`. -/
def parseBorePort (line : String) : Option UInt16 :=
  (afterFirst "listening at".toList line.toList).bind fun rest =>
    let addr := Lines.trim isWhitespace (beforeFirst "listening at".toList rest)
    parseU16 (Lines.trim isWhitespace (addr.reverse.takeWhile (· ≠ ':')).reverse)

/-- A line that is read: whether it comes after the deadline, and its text, if it could be
read. -/
structure StderrLine where
  late : Bool
  text : Option String
  deriving DecidableEq, Repr

/-- The first port in the lines; `none` is an error, or the end of the lines. -/
def findPort : List StderrLine → Option UInt16
  | [] => none
  | line :: rest =>
    if line.late then none
    else
      match line.text with
      | none => none
      | some text =>
        match parseBorePort text with
        | some port => some port
        | none => findPort rest

/-! ## The commands -/

/-- What a connect is given, and its `HOSTNAME`. -/
structure ConnectArgs where
  endpoint : String := "http://localhost:11434"
  model : String
  providerToken : String
  tunnelHost : String := "tunnel.infer.ram4.dev"
  coordinatorUrl : String := "https://api.infer.ram4.dev"
  hostname : Option String
  deriving DecidableEq, Repr

structure ConnectState where
  borePid : UInt32
  publicHost : String
  publicPort : UInt16
  endpoint : String
  model : String
  coordinatorUrl : String
  providerToken : String
  nodeName : String
  deriving DecidableEq, Repr

def ConnectArgs.nodeName (args : ConnectArgs) (publicPort : UInt16) : String :=
  "provider-" ++ args.hostname.getD (toString publicPort.toNat)

def ConnectArgs.state (args : ConnectArgs) (borePid : UInt32) (publicPort : UInt16) :
    ConnectState :=
  { borePid
    publicHost := args.tunnelHost
    publicPort
    endpoint := args.endpoint
    model := args.model
    coordinatorUrl := args.coordinatorUrl
    providerToken := args.providerToken
    nodeName := args.nodeName publicPort }

/-- The body of `register_node`: the end of the tunnel is both addresses. -/
def ConnectArgs.registration (args : ConnectArgs) (publicPort : UInt16) (gpu : String × UInt64) :
    Gateway.RegisterNodeRequest :=
  { name := args.nodeName publicPort
    host := args.tunnelHost
    port := publicPort
    agentPort := publicPort
    gpuName := gpu.1
    vramMb := gpu.2
    models := [] }

/-- `state.json`. -/
inductive StateFile
  | absent
  | corrupt
  | recorded (state : ConnectState)
  deriving DecidableEq, Repr

/-- The next call of a connect, with the pid and the port that it knows; or how it ended. -/
inductive ConnectPc
  | validate
  | spawn
  | readPort (pid : UInt32)
  | register (pid : UInt32) (port : UInt16)
  | write (pid : UInt32) (port : UInt16)
  | wait (pid : UInt32)
  | kill (pid : UInt32)
  | remove
  | done
  | failed
  deriving DecidableEq, Repr

inductive DisconnectPc
  | read
  | kill (pid : UInt32)
  | remove
  | done
  | failed
  deriving DecidableEq, Repr

inductive Command
  | connect (args : ConnectArgs) (pc : ConnectPc)
  | disconnect (pc : DisconnectPc)
  deriving DecidableEq, Repr

/-- How a write ends; a torn one leaves a file that is not JSON. -/
inductive WriteOutcome
  | ok
  | failed
  | torn
  deriving DecidableEq, Repr

/-- What a call answers. -/
inductive Answer
  | ollama (ok : Bool)
  | spawned (pid : Option UInt32)
  | stderr (lines : List StderrLine)
  | registered (ok : Bool)
  | written (o : WriteOutcome)
  | ctrlC (ok : Bool)
  | fileRead (ok : Bool)
  | killed (delivered : Bool)
  | removed (ok : Bool)
  deriving DecidableEq, Repr

/-- A `bore` process that is running, with the command that spawned it. -/
structure Bore where
  pid : UInt32
  owner : Nat
  deriving DecidableEq, Repr

structure CliState where
  live : List Bore
  file : StateFile
  commands : List Command
  deriving DecidableEq, Repr

/-- The processes after `kill -15`, whose failure is ignored. -/
def killProcess (live : List Bore) (pid : UInt32) (delivered : Bool) : List Bore :=
  if delivered then live.filter fun b => b.pid ≠ pid else live

/-- A step of command `i`: the state and the command after it. -/
def advance (st : CliState) (i : Nat) : Command → Answer → Option (CliState × Command)
  | .connect args .validate, .ollama ok =>
    some (st, .connect args (if ok then .spawn else .failed))
  | .connect args .spawn, .spawned none => some (st, .connect args .failed)
  | .connect args .spawn, .spawned (some pid) =>
    -- no two processes have one pid
    if ∀ b ∈ st.live, b.pid ≠ pid then
      some ({ st with live := ⟨pid, i⟩ :: st.live }, .connect args (.readPort pid))
    else none
  | .connect args (.readPort pid), .stderr lines =>
    match findPort lines with
    | some port => some (st, .connect args (.register pid port))
    | none => some (st, .connect args .failed)
  | .connect args (.register pid port), .registered ok =>
    some (st, .connect args (if ok then .write pid port else .failed))
  | .connect args (.write pid port), .written o =>
    match o with
    | .ok => some ({ st with file := .recorded (args.state pid port) }, .connect args (.wait pid))
    | .failed => some (st, .connect args .failed)
    | .torn => some ({ st with file := .corrupt }, .connect args .failed)
  | .connect args (.wait pid), .ctrlC ok =>
    some (st, .connect args (if ok then .kill pid else .failed))
  | .connect args (.kill pid), .killed delivered =>
    some ({ st with live := killProcess st.live pid delivered }, .connect args .remove)
  | .connect args .remove, .removed ok =>
    some ({ st with file := if ok then .absent else st.file }, .connect args .done)
  | .disconnect .read, .fileRead ok =>
    match ok, st.file with
    | true, .recorded state => some (st, .disconnect (.kill state.borePid))
    | _, _ => some (st, .disconnect .failed)
  | .disconnect (.kill pid), .killed delivered =>
    some ({ st with live := killProcess st.live pid delivered }, .disconnect .remove)
  | .disconnect .remove, .removed ok =>
    some ({ st with file := if ok then .absent else st.file }, .disconnect .done)
  | _, _ => none

/-! ## The system -/

inductive CliAction
  | connect (args : ConnectArgs)
  | disconnect
  | advance (i : Nat) (answer : Answer)
  | exit (pid : UInt32)
  deriving DecidableEq, Repr

def cliStep (st : CliState) : CliAction → Option CliState
  | .connect args => some { st with commands := st.commands ++ [.connect args .validate] }
  | .disconnect => some { st with commands := st.commands ++ [.disconnect .read] }
  | .advance i answer =>
    match st.commands[i]? with
    | none => none
    | some command =>
      (advance st i command answer).map fun next =>
        { next.1 with commands := st.commands.set i next.2 }
  | .exit pid => some { st with live := st.live.filter fun b => b.pid ≠ pid }

/-- The commands of a provider, one after the other or at the same time, from any file. -/
def cli : System CliState CliAction where
  init st := st.live = [] ∧ st.commands = []
  step := cliStep

/-- The command has returned. -/
def Command.finished : Command → Bool
  | .connect _ .done | .connect _ .failed | .disconnect .done | .disconnect .failed => true
  | _ => false

/-- When no command is running, a tunnel that is has its pid on record; and a connect that
returned an error has no tunnel. -/
structure NoOrphans (st : CliState) : Prop where
  recorded : (∀ c ∈ st.commands, c.finished) →
    ∀ b ∈ st.live, ∃ state, st.file = .recorded state ∧ state.borePid = b.pid
  failed : ∀ i args, st.commands[i]? = some (.connect args .failed) →
    ∀ b ∈ st.live, b.owner ≠ i

/-- The command leaves its tunnel behind: it fails after the spawn, or does not reach it
with the signal. -/
def Command.abandons : Command → Answer → Bool
  | .connect _ (.readPort _), .stderr lines => (findPort lines).isNone
  | .connect _ (.register _ _), .registered ok => ¬ ok
  | .connect _ (.write _ _), .written o => o ≠ .ok
  | .connect _ (.wait _), .ctrlC ok => ¬ ok
  | .connect _ (.kill _), .killed delivered => ¬ delivered
  | _, _ => false

/-- The tunnel of a command is not running. -/
def Exited (st : CliState) (i : Nat) : Prop := ∀ b ∈ st.live, b.owner ≠ i

/-- A command leaves its tunnel behind only when that has exited. -/
def Clean (st : CliState) : CliAction → Prop
  | .advance i answer => ∀ c ∈ st.commands[i]?, c.abandons answer → Exited st i
  | _ => True

instance (st : CliState) (i : Nat) : Decidable (Exited st i) :=
  inferInstanceAs (Decidable (∀ b ∈ st.live, b.owner ≠ i))

instance (st : CliState) : (a : CliAction) → Decidable (Clean st a)
  | .advance i answer =>
    inferInstanceAs (Decidable (∀ c ∈ st.commands[i]?, c.abandons answer → Exited st i))
  | .connect _ | .disconnect | .exit _ => inferInstanceAs (Decidable True)

/-! ## What a step does to the tunnels -/

/-- The tunnel that a command has spawned and is still to kill. -/
def Command.tunnel : Command → Option UInt32
  | .connect _ (.readPort pid) | .connect _ (.register pid _) | .connect _ (.write pid _)
  | .connect _ (.wait pid) | .connect _ (.kill pid) => some pid
  | _ => none

/-- A step of a command goes on, spawns a tunnel, kills its own one, or leaves it behind. -/
inductive TunnelMove (live : List Bore) (i : Nat) (c : Command) (answer : Answer) :
    List Bore → Command → Prop
  | goOn {live' : List Bore} {c' : Command} (hlive : live' ⊆ live) (htunnel : c'.tunnel = c.tunnel)
      (habandons : c.abandons answer = false) : TunnelMove live i c answer live' c'
  | spawn {pid : UInt32} {c' : Command} (hfree : c.tunnel = none) (htunnel : c'.tunnel = some pid)
      (habandons : c.abandons answer = false) : TunnelMove live i c answer (⟨pid, i⟩ :: live) c'
  | kill {pid : UInt32} {c' : Command} (hpid : c.tunnel = some pid) (htunnel : c'.tunnel = none)
      (habandons : c.abandons answer = false) :
      TunnelMove live i c answer (live.filter fun b => b.pid ≠ pid) c'
  | abandon {c' : Command} (htunnel : c'.tunnel = none) (habandons : c.abandons answer = true)
      (hend : (∃ args, c' = .connect args .failed) ∨ answer = .killed false) : TunnelMove live i c answer live c'

theorem killProcess_subset (live : List Bore) (pid : UInt32) (delivered : Bool) :
    killProcess live pid delivered ⊆ live := by
  unfold killProcess
  split
  · exact List.filter_subset_self _
  · exact List.Subset.refl _

theorem tunnelMove_of_advance {st st' : CliState} {i : Nat} {c c' : Command} {answer : Answer}
    (h : advance st i c answer = some (st', c')) :
    TunnelMove st.live i c answer st'.live c' := by
  unfold advance at h
  split at h
  · -- validate
    cases h
    exact .goOn (List.Subset.refl _) (by split <;> rfl) rfl
  · -- no tunnel is spawned
    cases h
    exact .goOn (List.Subset.refl _) rfl rfl
  · split at h
    · cases h
      exact .spawn rfl rfl rfl
    · cases h
  · -- the port
    rename_i args pid lines
    split at h
    · rename_i port hport
      cases h
      exact .goOn (List.Subset.refl _) rfl (by simp [Command.abandons, hport])
    · rename_i hport
      cases h
      exact .abandon rfl (by simp [Command.abandons, hport]) (.inl ⟨_, rfl⟩)
  · -- the registration
    rename_i args pid port ok
    cases h
    cases ok
    · exact .abandon rfl rfl (.inl ⟨_, rfl⟩)
    · exact .goOn (List.Subset.refl _) rfl rfl
  · -- the state file
    rename_i args pid port o
    split at h
    · cases h
      exact .goOn (List.Subset.refl _) rfl rfl
    · cases h
      exact .abandon rfl rfl (.inl ⟨_, rfl⟩)
    · cases h
      exact .abandon rfl rfl (.inl ⟨_, rfl⟩)
  · -- Ctrl-C
    rename_i args pid ok
    cases h
    cases ok
    · exact .abandon rfl rfl (.inl ⟨_, rfl⟩)
    · exact .goOn (List.Subset.refl _) rfl rfl
  · rename_i args pid delivered
    cases h
    cases delivered
    · exact .abandon rfl rfl (.inr rfl)
    · exact .kill rfl rfl rfl
  · cases h
    exact .goOn (List.Subset.refl _) rfl rfl
  · -- the disconnect
    split at h
    · cases h
      exact .goOn (List.Subset.refl _) rfl rfl
    · cases h
      exact .goOn (List.Subset.refl _) rfl rfl
  · cases h
    exact .goOn (killProcess_subset _ _ _) rfl rfl
  · cases h
    exact .goOn (List.Subset.refl _) rfl rfl
  · cases h

/-! ## Every tunnel is held -/

/-- Every tunnel belongs to a command that is still to kill it. -/
def Held (st : CliState) : Prop :=
  ∀ b ∈ st.live, ∃ c, st.commands[b.owner]? = some c ∧ c.tunnel = some b.pid

theorem Held.noOrphans {st : CliState} (h : Held st) : NoOrphans st := by
  constructor
  · intro hfinished b hb
    obtain ⟨c, hc, htunnel⟩ := h b hb
    have hend := hfinished c (List.mem_of_getElem? hc)
    cases c with
    | connect args pc => cases pc <;> simp_all [Command.finished, Command.tunnel]
    | disconnect pc => cases htunnel
  · rintro i args hc b hb rfl
    obtain ⟨c, hc', htunnel⟩ := h b hb
    rw [hc] at hc'
    cases hc'
    cases htunnel

theorem Held.start {st : CliState} (h : Held st) (c : Command) :
    Held { st with commands := st.commands ++ [c] } := by
  intro b hb
  obtain ⟨owner, howner, htunnel⟩ := h b hb
  refine ⟨owner, ?_, htunnel⟩
  show (st.commands ++ [c])[b.owner]? = some owner
  rw [List.getElem?_append_left (List.getElem?_eq_some_iff.mp howner).1]
  exact howner

/-- A step of a command keeps the tunnels of the others. -/
theorem Held.advance {st st' : CliState} (h : Held st) {i : Nat} {c c' : Command} {answer : Answer}
    (hc : st.commands[i]? = some c) (hcommands : st'.commands = st.commands.set i c')
    (hmove : TunnelMove st.live i c answer st'.live c')
    (hclean : c.abandons answer = true → Exited st i) : Held st' := by
  have hi : i < st.commands.length := (List.getElem?_eq_some_iff.mp hc).1
  have hother : ∀ b ∈ st.live, b.owner ≠ i →
      ∃ o, st'.commands[b.owner]? = some o ∧ o.tunnel = some b.pid := by
    intro b hb hne
    rw [hcommands, List.getElem?_set_ne (Ne.symm hne)]
    exact h b hb
  have hown : ∀ pid, c'.tunnel = some pid →
      ∃ o, st'.commands[i]? = some o ∧ o.tunnel = some pid := by
    intro pid htunnel
    refine ⟨c', ?_, htunnel⟩
    rw [hcommands, List.getElem?_set_self hi]
  -- what the command of a tunnel knows of it
  have hknows : ∀ b ∈ st.live, b.owner = i → c.tunnel = some b.pid := by
    rintro b hb rfl
    obtain ⟨o, ho, htunnel⟩ := h b hb
    rw [hc] at ho
    cases ho
    exact htunnel
  generalize hlive' : st'.live = live' at hmove
  intro b hb
  rw [hlive'] at hb
  cases hmove with
  | goOn hlive htunnel =>
      by_cases hne : b.owner = i
      · rw [hne]
        exact hown b.pid (htunnel.trans (hknows b (hlive hb) hne))
      · exact hother b (hlive hb) hne
  | @spawn pid _ hfree htunnel =>
      rcases List.mem_cons.mp hb with rfl | hb
      · exact hown pid htunnel
      · by_cases hne : b.owner = i
        · have hsame := hknows b hb hne
          rw [hfree] at hsame
          cases hsame
        · exact hother b hb hne
  | kill hpid =>
      obtain ⟨hb, hpid'⟩ := List.mem_filter.mp hb
      apply hother b hb
      intro howner
      have hsame := hknows b hb howner
      rw [hpid] at hsame
      simp_all
  | abandon _ habandons => exact hother b hb (hclean habandons b hb)

/-- A step of a command is a step of the system. -/
theorem advance_of_step {st st' : CliState} {i : Nat} {answer : Answer}
    (h : cliStep st (.advance i answer) = some st') :
    ∃ c c', st.commands[i]? = some c ∧ st'.commands = st.commands.set i c' ∧
      TunnelMove st.live i c answer st'.live c' := by
  simp only [cliStep] at h
  split at h
  · cases h
  · rename_i c hc
    obtain ⟨⟨next, c'⟩, hadvance, rfl⟩ := Option.map_eq_some_iff.mp h
    have hmove := tunnelMove_of_advance hadvance
    exact ⟨c, c', hc, rfl, hmove⟩

theorem held_step {st st' : CliState} {a : CliAction} (h : Held st) (hclean : Clean st a)
    (hstep : cliStep st a = some st') : Held st' := by
  cases a with
  | connect args =>
      cases hstep
      exact h.start _
  | disconnect =>
      cases hstep
      exact h.start _
  | advance i answer =>
      obtain ⟨c, c', hc, hcommands, hmove⟩ := advance_of_step hstep
      exact h.advance hc hcommands hmove (hclean c hc)
  | exit pid =>
      cases hstep
      intro b hb
      exact h b (List.mem_of_mem_filter hb)

/-- **No tunnel is orphaned** in runs in which a command that gives up has lost its tunnel
before, and whose last signal reaches it; and a command that gives up with a tunnel running
leaves an orphan. -/
theorem noOrphans_clean {st : CliState} (h : cli.ReachedBy Clean st) :
    NoOrphans st ∧
      ∀ a st', cliStep st a = some st' → (∀ i, a ≠ .advance i (.killed false)) →
        (NoOrphans st' ↔ Clean st a) := by
  have hheld : Held st := by
    refine h.invariant Held ?_ fun _ _ _ hs hclean hstep => held_step hs hclean hstep
    rintro s ⟨hlive, -⟩ b hb
    rw [hlive] at hb
    cases hb
  refine ⟨hheld.noOrphans, ?_⟩
  intro a st' hstep hdelivered
  constructor
  · intro hnone
    cases a with
    | connect | disconnect | exit => trivial
    | advance i answer =>
        intro c hc habandons
        obtain ⟨c₀, c', hc₀, hcommands, hmove⟩ := advance_of_step hstep
        obtain rfl : c₀ = c := Option.some.inj (hc₀.symm.trans hc)
        have hi : i < st.commands.length := (List.getElem?_eq_some_iff.mp hc).1
        generalize hlive : st'.live = live' at hmove
        cases hmove with
        | goOn _ _ hkeeps | spawn _ _ hkeeps | kill _ _ hkeeps =>
            rw [hkeeps] at habandons
            cases habandons
        | abandon _ _ hend =>
            rcases hend with ⟨args, rfl⟩ | rfl
            · have hfailed : st'.commands[i]? = some (.connect args .failed) := by
                rw [hcommands, List.getElem?_set_self hi]
              have hexited := hnone.failed i args hfailed
              rwa [hlive] at hexited
            · exact absurd rfl (hdelivered i)
  · intro hclean
    exact (held_step hheld hclean hstep).noOrphans

/-! ## A rejected registration -/

def sampleArgs : ConnectArgs :=
  { model := "llama3.1:70b", providerToken := "tok", hostname := some "gpu-box" }

/-- What `bore` prints, and the port in it. -/
def boreLines : List StderrLine :=
  [⟨false, some "connected to server"⟩, ⟨false, some "listening at tunnel.infer.ram4.dev:40001"⟩]

example : findPort boreLines = some 40001 := by decide +kernel

/-- A connect up to its registration. -/
def untilRegistration (pid : UInt32) : List CliAction :=
  [.connect sampleArgs, .advance 0 (.ollama true), .advance 0 (.spawned (some pid)),
    .advance 0 (.stderr boreLines)]

/-- A connect that is disconnected from another terminal, and ends with Ctrl-C. -/
theorem noOrphans_clean_disconnect : ∃ st,
    cli.run Clean ⟨[], .absent, []⟩ (untilRegistration 4242 ++
      [.advance 0 (.registered true), .advance 0 (.written .ok), .disconnect,
        .advance 1 (.fileRead true), .advance 1 (.killed true), .advance 1 (.removed true),
        .advance 0 (.ctrlC true), .advance 0 (.killed true), .advance 0 (.removed false)]) =
      some st ∧
    st.commands = [.connect sampleArgs .done, .disconnect .done] ∧ NoOrphans st := by
  have hrun : (cli.run Clean ⟨[], .absent, []⟩ (untilRegistration 4242 ++
      [.advance 0 (.registered true), .advance 0 (.written .ok), .disconnect,
        .advance 1 (.fileRead true), .advance 1 (.killed true), .advance 1 (.removed true),
        .advance 0 (.ctrlC true), .advance 0 (.killed true), .advance 0 (.removed false)])).map
      (·.commands) = some [.connect sampleArgs .done, .disconnect .done] := by decide +kernel
  have hinit : cli.init ⟨[], .absent, []⟩ := ⟨rfl, rfl⟩
  obtain ⟨st, hst, hreached, hcommands⟩ := System.exists_reachedBy_of_run (.init hinit) hrun
  exact ⟨st, hst, hcommands, (noOrphans_clean hreached).1⟩

/-- The coordinator rejects the registration: the connect returns the error, and its tunnel
runs on without a record. -/
theorem rejected_orphan : ∃ st, cli.Reachable st ∧
    st = ⟨[⟨4242, 0⟩], .absent, [.connect sampleArgs .failed]⟩ ∧ ¬ NoOrphans st := by
  have hrun : (cli.run (fun _ _ => True) ⟨[], .absent, []⟩
      (untilRegistration 4242 ++ [.advance 0 (.registered false)])).map id =
      some ⟨[⟨4242, 0⟩], .absent, [.connect sampleArgs .failed]⟩ := by decide +kernel
  have hinit : cli.init ⟨[], .absent, []⟩ := ⟨rfl, rfl⟩
  obtain ⟨st, -, hreached, hvalue⟩ := System.exists_reachedBy_of_run (.init hinit) hrun
  refine ⟨st, hreached, hvalue, ?_⟩
  intro hnone
  rw [id] at hvalue
  subst hvalue
  obtain ⟨state, hfile, -⟩ := hnone.recorded (by decide) ⟨4242, 0⟩ List.mem_cons_self
  cases hfile

end InferPlatform.Agent
