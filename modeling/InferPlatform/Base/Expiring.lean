import Mathlib.Logic.Function.Basic

/-!
# Counters that expire

A store of integers by key, each perhaps with a time at which it expires. `INCR` starts
again from nothing where a counter has expired, and keeps the expiry of one that has not;
`EXPIRE` sets the expiry of a counter that is there.

* `Store.incr`, `Store.expire`, `Store.get` — the commands, at a time;
* `Counts` — a counter has a value and is kept up to a time; the commands on its key and
  on other keys keep that.
-/

namespace Expiring

/-- Times are in milliseconds. -/
structure Entry where
  value : Int
  expiry : Option Nat
  deriving DecidableEq, Repr

/-- An entry is there until its expiry has passed. -/
def Entry.present (now : Nat) (e : Entry) : Bool :=
  match e.expiry with
  | none => true
  | some t => now ≤ t

variable {κ : Type}

abbrev Store (κ : Type) := κ → Option Entry

namespace Store

def empty : Store κ := fun _ => none

/-- The entry of a key, unless it has expired. -/
def entry (s : Store κ) (now : Nat) (k : κ) : Option Entry := (s k).filter (·.present now)

def get (s : Store κ) (now : Nat) (k : κ) : Option Int := (s.entry now k).map (·.value)

variable [DecidableEq κ]

/-- `INCR`: the store after it, and the answer. -/
def incr (s : Store κ) (now : Nat) (k : κ) : Store κ × Int :=
  match s.entry now k with
  | some e => (Function.update s k (some { e with value := e.value + 1 }), e.value + 1)
  | none => (Function.update s k (some ⟨1, none⟩), 1)

/-- `EXPIRE`, in seconds from now. -/
def expire (s : Store κ) (now : Nat) (k : κ) (seconds : Nat) : Store κ :=
  match s.entry now k with
  | some e => Function.update s k (some { e with expiry := some (now + 1000 * seconds) })
  | none => s

theorem incr_of_ne (s : Store κ) (now : Nat) {k k' : κ} (h : k' ≠ k) :
    (s.incr now k).1 k' = s k' := by
  unfold incr
  split
  · exact Function.update_of_ne h _ _
  · exact Function.update_of_ne h _ _

theorem expire_of_ne (s : Store κ) (now : Nat) {k k' : κ} (seconds : Nat) (h : k' ≠ k) :
    s.expire now k seconds k' = s k' := by
  unfold expire
  cases s.entry now k with
  | none => rfl
  | some e => exact Function.update_of_ne h _ _

end Store

/-- The counter of `k` stands at `n`, and is kept before the time `until`. -/
def Counts (s : Store κ) (k : κ) (n : Nat) (kept : Nat) : Prop :=
  match s k with
  | none => n = 0
  | some e => e.value = n ∧ 0 < n ∧ ∀ t ∈ e.expiry, kept ≤ t

namespace Counts

variable {s : Store κ} {k : κ} {n kept now : Nat}

theorem empty (k : κ) (kept : Nat) : Counts Store.empty k 0 kept := rfl

theorem congr {s' : Store κ} (h : Counts s k n kept) (hsame : s' k = s k) : Counts s' k n kept := by
  unfold Counts
  rw [hsame]
  exact h

/-- While it is kept, a counter is there. -/
theorem entry_eq (h : Counts s k n kept) (hnow : now ≤ kept) : s.entry now k = s k := by
  unfold Counts at h
  unfold Store.entry
  cases hs : s k with
  | none => rfl
  | some e =>
      rw [hs] at h
      obtain ⟨-, -, hexpiry⟩ := h
      rw [Option.filter_some, if_pos]
      unfold Entry.present
      cases he : e.expiry with
      | none => rfl
      | some t =>
          have hkept := hexpiry t he
          simp only [decide_eq_true_eq]
          omega

/-- While it is kept, a counter is read as it stands. -/
theorem get_eq (h : Counts s k n kept) (hnow : now ≤ kept) : (s.get now k).getD 0 = n := by
  rw [Store.get, h.entry_eq hnow]
  unfold Counts at h
  cases hs : s k with
  | none =>
      rw [hs] at h
      simp only at h
      rw [h]
      rfl
  | some e =>
      rw [hs] at h
      exact h.1

variable [DecidableEq κ]

/-- The commands on other keys do not matter. -/
theorem incr_of_ne {k' : κ} (h : Counts s k n kept) (hne : k ≠ k') :
    Counts (s.incr now k').1 k n kept :=
  h.congr (s.incr_of_ne now hne)

theorem expire_of_ne {k' : κ} {seconds : Nat} (h : Counts s k n kept) (hne : k ≠ k') :
    Counts (s.expire now k' seconds) k n kept :=
  h.congr (s.expire_of_ne now seconds hne)

/-- **`INCR` counts**: it answers the next number. -/
theorem incr (h : Counts s k n kept) (hnow : now ≤ kept) :
    (s.incr now k).2 = n + 1 ∧ Counts (s.incr now k).1 k (n + 1) kept := by
  unfold Store.incr
  rw [h.entry_eq hnow]
  unfold Counts at h ⊢
  cases hs : s k with
  | none =>
      rw [hs] at h
      simp only at h
      subst h
      simp
  | some e =>
      rw [hs] at h
      obtain ⟨hvalue, -, hexpiry⟩ := h
      dsimp only
      rw [Function.update_self, hvalue]
      exact ⟨rfl, by simp, Nat.succ_pos n, hexpiry⟩

/-- **`EXPIRE` keeps the count**, if it sets an expiry that is late enough. -/
theorem expire {seconds : Nat} (h : Counts s k n kept) (hlate : kept ≤ now + 1000 * seconds) :
    Counts (s.expire now k seconds) k n kept := by
  unfold Store.expire
  split
  · rename_i e he
    unfold Store.entry at he
    unfold Counts at h ⊢
    cases hs : s k with
    | none =>
        rw [hs] at he
        cases he
    | some e' =>
        rw [hs] at h he
        obtain rfl : e' = e := by
          have hmem := Option.filter_eq_some_iff.mp he
          exact Option.some.inj hmem.1
        rw [Function.update_self]
        refine ⟨h.1, h.2.1, ?_⟩
        rintro t ⟨⟩
        exact hlate
  · exact h

end Counts

end Expiring
