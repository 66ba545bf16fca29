import Mathlib.Data.List.Basic

/-!
# Relays

Stages that work one after the other on a state: each answers or fails, an answer extends
the state for the next stage, and the first failure ends the relay.

* `run` — the relay, with the states that the stages saw;
* `length_run_of_ok` — an answer has been through all of them;
* `exists_stage_of_ok` — where its answer comes from.
-/

namespace Relay

variable {State Answer Failure : Type} (extend : State → Answer → State)

/-- The relay from its first stage, and the answer of the last one. -/
def run (first : State → Except Failure Answer) :
    List (State → Except Failure Answer) → State → List State × Except Failure Answer
  | [], s => ([s], first s)
  | next :: rest, s =>
    match first s with
    | .error e => ([s], .error e)
    | .ok answer =>
      let (seen, result) := run next rest (extend s answer)
      (s :: seen, result)

variable {extend}

theorem run_cons_error {first next : State → Except Failure Answer}
    {rest : List (State → Except Failure Answer)} {s : State} {e : Failure}
    (h : first s = .error e) : run extend first (next :: rest) s = ([s], .error e) := by
  rw [run, h]

theorem run_cons_ok {first next : State → Except Failure Answer}
    {rest : List (State → Except Failure Answer)} {s : State} {answer : Answer}
    (h : first s = .ok answer) :
    run extend first (next :: rest) s =
      (s :: (run extend next rest (extend s answer)).1,
        (run extend next rest (extend s answer)).2) := by
  rw [run, h]

theorem run_seen_ne_nil (first : State → Except Failure Answer)
    (rest : List (State → Except Failure Answer)) (s : State) :
    (run extend first rest s).1 ≠ [] := by
  cases rest with
  | nil => simp [run]
  | cons next rest =>
      cases h : first s with
      | error e => simp [run_cons_error h]
      | ok answer => simp [run_cons_ok h]

/-- An answer comes from the last stage, so every stage was reached. -/
theorem length_run_of_ok {first : State → Except Failure Answer}
    {rest : List (State → Except Failure Answer)} {s : State} {answer : Answer}
    (h : (run extend first rest s).2 = .ok answer) :
    (run extend first rest s).1.length = rest.length + 1 := by
  induction rest generalizing first s with
  | nil => simp [run]
  | cons next rest ih =>
      cases hfirst : first s with
      | error e =>
          rw [run_cons_error hfirst] at h
          cases h
      | ok turn =>
          rw [run_cons_ok hfirst] at h ⊢
          rw [List.length_cons, ih h, List.length_cons]

theorem exists_stage_of_ok {first : State → Except Failure Answer}
    {rest : List (State → Except Failure Answer)} {s : State} {answer : Answer}
    (h : (run extend first rest s).2 = .ok answer) :
    ∃ stage ∈ first :: rest, ∃ s', stage s' = .ok answer := by
  induction rest generalizing first s with
  | nil => exact ⟨first, List.mem_cons_self, s, h⟩
  | cons next rest ih =>
      cases hfirst : first s with
      | error e =>
          rw [run_cons_error hfirst] at h
          cases h
      | ok turn =>
          rw [run_cons_ok hfirst] at h
          obtain ⟨stage, hmem, hstage⟩ := ih h
          exact ⟨stage, List.mem_cons_of_mem _ hmem, hstage⟩

end Relay
