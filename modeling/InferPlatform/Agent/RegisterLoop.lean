import InferPlatform.Base.Backoff
import InferPlatform.Gateway.Nodes
import Mathlib.Data.UInt

/-!
# The registration loop of a node agent

An agent posts its registration again and again: half a minute after an answer that
accepts it, and after a wait that doubles up to two minutes where the gateway refuses
or cannot be reached. The loop never ends, so only its rounds are modelled.

* `RegisterLoop.after` — the loop body after its request;
* `afterAll_eq` — **the loop after any series of replies in closed form**.
-/

namespace InferPlatform.Agent

open Gateway

/-- What an agent registers with: its `NODE_NAME` and `NODE_HOST`, its ports, and what
it found of its hardware. -/
structure Registrant where
  nodeName : String
  nodeHost : Option String
  nodePort : UInt16
  agentPort : UInt16
  gpuName : String
  vramMb : UInt64
  deriving DecidableEq, Repr

/-- The body of the request; it lists no models. -/
def Registrant.payload (agent : Registrant) : RegisterNodeRequest :=
  { name := agent.nodeName
    host := agent.nodeHost.getD "127.0.0.1"
    port := agent.nodePort
    agentPort := agent.agentPort
    gpuName := agent.gpuName
    vramMb := agent.vramMb
    models := [] }

/-- What comes of a request: a status, or no answer within ten seconds. -/
inductive Reply
  | response (status : Nat)
  | unreachable
  deriving DecidableEq, Repr

def Reply.success : Reply → Bool
  | .response status => 200 ≤ status ∧ status < 300
  | .unreachable => false

/-- `backoff_secs`, and the `registration_ok` that the health endpoint shows. -/
structure RegisterLoop where
  backoffSecs : UInt64
  registrationOk : Bool
  deriving DecidableEq, Repr

def RegisterLoop.start : RegisterLoop := ⟨2, false⟩

/-- `u64::min`. -/
def min64 (a b : UInt64) : UInt64 := if a ≤ b then a else b

/-- The loop after a reply, and for how many seconds it sleeps then. -/
def RegisterLoop.after (loop : RegisterLoop) (reply : Reply) : RegisterLoop × UInt64 :=
  if reply.success then (⟨2, true⟩, 30)
  else (⟨min64 (loop.backoffSecs * 2) 120, false⟩, loop.backoffSecs)

/-! ## Rounds -/

/-- The loop after a series of replies. -/
def RegisterLoop.afterAll (replies : List Reply) : RegisterLoop :=
  replies.foldl (fun loop reply => (loop.after reply).1) .start

/-- The failures since the last success. -/
def failuresInARow (replies : List Reply) : Nat :=
  (replies.reverse.takeWhile fun reply => ¬ reply.success).length

/-- The wait in seconds after a failure that follows `k` others. -/
abbrev backoff (k : Nat) : Nat := Backoff.delay 2 120 k

/-- The loop waits as long as `failures` call for; its doubling does not overflow. -/
def RegisterLoop.Waits (loop : RegisterLoop) (failures : Nat) : Prop :=
  loop.backoffSecs.toNat = backoff failures

namespace RegisterLoop

theorem toNat_min64 (a b : UInt64) : (min64 a b).toNat = min a.toNat b.toNat := by
  unfold min64
  by_cases h : a ≤ b
  · have hle := UInt64.le_iff_toNat_le.mp h
    rw [if_pos h]
    omega
  · have hlt : ¬ a.toNat ≤ b.toNat := fun hle => h (UInt64.le_iff_toNat_le.mpr hle)
    rw [if_neg h]
    omega

theorem waits_start : start.Waits 0 := rfl

/-- **One failure**: the loop sleeps for the present wait and doubles it. -/
theorem Waits.failed {loop : RegisterLoop} {failures : Nat} (h : loop.Waits failures)
    {reply : Reply} (hreply : reply.success = false) :
    (loop.after reply).1.Waits (failures + 1) ∧ (loop.after reply).1.registrationOk = false ∧
      (loop.after reply).2.toNat = backoff failures := by
  have hle : backoff failures ≤ 120 := Backoff.delay_le failures
  have hafter : loop.after reply = (⟨min64 (loop.backoffSecs * 2) 120, false⟩, loop.backoffSecs) := by
    simp [after, hreply]
  rw [hafter]
  refine ⟨?_, rfl, h⟩
  show (min64 (loop.backoffSecs * 2) 120).toNat = backoff (failures + 1)
  have hdouble : (loop.backoffSecs * 2).toNat = backoff failures * 2 := by
    rw [UInt64.toNat_mul, h]
    show backoff failures * 2 % 2 ^ 64 = backoff failures * 2
    omega
  have hnext : backoff (failures + 1) = min (backoff failures * 2) 120 :=
    (Backoff.min_delay_mul_two failures).symm
  rw [toNat_min64, hdouble, hnext]
  rfl

theorem Waits.succeeded (loop : RegisterLoop) {reply : Reply} (hreply : reply.success = true) :
    (loop.after reply).1.Waits 0 ∧ (loop.after reply).1.registrationOk = true ∧
      (loop.after reply).2 = 30 := by
  have hafter : loop.after reply = (⟨2, true⟩, 30) := by simp [after, hreply]
  rw [hafter]
  exact ⟨rfl, rfl, rfl⟩

theorem afterAll_concat (replies : List Reply) (reply : Reply) :
    afterAll (replies ++ [reply]) = ((afterAll replies).after reply).1 := by
  simp [afterAll]

end RegisterLoop

theorem failuresInARow_concat (replies : List Reply) (reply : Reply) :
    failuresInARow (replies ++ [reply]) =
      if reply.success then 0 else failuresInARow replies + 1 := by
  cases h : reply.success <;> simp [failuresInARow, h]

/-- **The loop in closed form**: after any replies, the flag tells whether the last was
a success, and the wait is two seconds doubled for each failure since, up to 120. -/
theorem RegisterLoop.afterAll_eq (replies : List Reply) :
    (RegisterLoop.afterAll replies).registrationOk = (replies.getLast?.any (·.success)) ∧
      (RegisterLoop.afterAll replies).Waits (failuresInARow replies) := by
  induction replies using List.reverseRecOn with
  | nil => exact ⟨rfl, RegisterLoop.waits_start⟩
  | append_singleton replies reply ih =>
      rw [RegisterLoop.afterAll_concat, failuresInARow_concat, List.getLast?_concat]
      cases hreply : reply.success with
      | true =>
          obtain ⟨hwaits, hflag, -⟩ :=
            RegisterLoop.Waits.succeeded (RegisterLoop.afterAll replies) hreply
          exact ⟨by simp [hflag, hreply], hwaits⟩
      | false =>
          obtain ⟨hwaits, hflag, -⟩ := ih.2.failed hreply
          exact ⟨by simp [hflag, hreply], by simpa using hwaits⟩

end InferPlatform.Agent
