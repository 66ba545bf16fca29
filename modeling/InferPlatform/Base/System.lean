import Mathlib.Data.Set.Basic

/-!
# Transition systems

A system is a set of initial states and a partial step function on actions. A
run may be restricted to steps that meet a condition on the state before the
step and the action; what holds initially and is kept by every such step holds
in every state that such a run reaches. What another party answers to a step is
part of the action, as an `Outcome`.
-/

/-- The answer to a statement or call: done; not done, with an error; or done,
but with an error for the caller. -/
inductive Outcome
  | ok
  | failed
  | lost
  deriving DecidableEq, Repr

/-- `step s a` is `none` where the action is not possible. -/
structure System (σ α : Type) where
  init : σ → Prop
  step : σ → α → Option σ

namespace System

variable {σ α : Type} (sys : System σ α)

/-- The states reached by runs whose steps all meet `allowed`. -/
inductive ReachedBy (allowed : σ → α → Prop) : σ → Prop
  | init {s : σ} (h : sys.init s) : ReachedBy allowed s
  | step {s s' : σ} {a : α} (h : ReachedBy allowed s) (hallowed : allowed s a)
      (hstep : sys.step s a = some s') : ReachedBy allowed s'

/-- The states reached by any run. -/
def Reachable : σ → Prop := sys.ReachedBy fun _ _ => True

/-- The state after a list of actions, if all of them are allowed and possible. -/
def run (allowed : σ → α → Prop) [∀ s a, Decidable (allowed s a)] (s : σ) (actions : List α) :
    Option σ :=
  actions.foldlM (fun s a => if allowed s a then sys.step s a else none) s

/-- The system from one state on. -/
def startingAt (s : σ) : System σ α where
  init s' := s' = s
  step := sys.step

variable {sys}

/-- A run that is continued is a run. -/
theorem ReachedBy.continued {allowed : σ → α → Prop} {s s' : σ} (h : sys.ReachedBy allowed s)
    (hlater : (sys.startingAt s).ReachedBy allowed s') : sys.ReachedBy allowed s' := by
  induction hlater with
  | init hs =>
      rw [hs]
      exact h
  | step _ hallowed hstep ih => exact .step ih hallowed hstep

/-- **Invariants**: what holds initially and is kept by every allowed step holds
in every state reached. -/
theorem ReachedBy.invariant {allowed : σ → α → Prop} (Inv : σ → Prop)
    (hinit : ∀ s, sys.init s → Inv s)
    (hstep : ∀ s a s', Inv s → allowed s a → sys.step s a = some s' → Inv s') {s : σ}
    (h : sys.ReachedBy allowed s) : Inv s := by
  induction h with
  | init h => exact hinit _ h
  | step _ hallowed hs ih => exact hstep _ _ _ ih hallowed hs

/-! ## Observed systems -/

/-- The system beside what an observer notes of its steps; no step depends on the
notes. -/
def observed {η : Type} (sys : System σ α) (start : η) (note : η → σ → α → σ → η) :
    System (σ × η) α where
  init s := sys.init s.1 ∧ s.2 = start
  step s a := (sys.step s.1 a).map fun s' => (s', note s.2 s.1 a s')

/-- A step of an observed system is a step of the system, and a note of it. -/
theorem observed_step {η : Type} {start : η} {note : η → σ → α → σ → η} {s s' : σ × η} {a : α}
    (h : (sys.observed start note).step s a = some s') :
    sys.step s.1 a = some s'.1 ∧ s'.2 = note s.2 s.1 a s'.1 := by
  obtain ⟨next, hstep, rfl⟩ := Option.map_eq_some_iff.mp h
  exact ⟨hstep, rfl⟩

/-- Every restricted run is a run. -/
theorem ReachedBy.reachable {allowed : σ → α → Prop} {s : σ} (h : sys.ReachedBy allowed s) :
    sys.Reachable s := by
  induction h with
  | init h => exact .init h
  | step _ _ hs ih => exact .step ih trivial hs

/-- What every allowed step keeps, a list of actions keeps. -/
theorem run_invariant {allowed : σ → α → Prop} [∀ s a, Decidable (allowed s a)] (Inv : σ → Prop)
    (hstep : ∀ s a s', Inv s → allowed s a → sys.step s a = some s' → Inv s') {s s' : σ}
    {actions : List α} (h : Inv s) (hrun : sys.run allowed s actions = some s') : Inv s' := by
  induction actions generalizing s with
  | nil =>
      obtain rfl : s = s' := by simpa [run] using hrun
      exact h
  | cons a actions ih =>
      rw [run, List.foldlM_cons] at hrun
      by_cases ha : allowed s a
      · rw [if_pos ha] at hrun
        cases hs : sys.step s a with
        | none =>
            rw [hs] at hrun
            cases hrun
        | some next =>
            rw [hs] at hrun
            exact ih (hstep s a next h ha hs) hrun
      · rw [if_neg ha] at hrun
        cases hrun

/-- The state after a list of allowed actions is reached. -/
theorem reachedBy_of_run {allowed : σ → α → Prop} [∀ s a, Decidable (allowed s a)] {s s' : σ}
    {actions : List α} (h : sys.ReachedBy allowed s)
    (hrun : sys.run allowed s actions = some s') : sys.ReachedBy allowed s' :=
  run_invariant (sys.ReachedBy allowed) (fun _ _ _ hs ha hstep => .step hs ha hstep) h hrun

/-- A list of allowed actions of which some value is known afterwards. -/
theorem exists_reachedBy_of_run {allowed : σ → α → Prop} [∀ s a, Decidable (allowed s a)] {s : σ}
    {actions : List α} {β : Type} {f : σ → β} {b : β} (h : sys.ReachedBy allowed s)
    (hrun : (sys.run allowed s actions).map f = some b) :
    ∃ s', sys.run allowed s actions = some s' ∧ sys.ReachedBy allowed s' ∧ f s' = b := by
  obtain ⟨s', hs', hvalue⟩ := Option.map_eq_some_iff.mp hrun
  exact ⟨s', hs', reachedBy_of_run h hs', hvalue⟩

end System
