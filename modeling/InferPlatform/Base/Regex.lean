import Mathlib.Data.List.Basic
import Mathlib.Data.List.Count

/-!
# Leftmost-first regular expressions

Patterns over an arbitrary alphabet, with word boundaries. Their meaning is the
relation `Matches` between a word and the characters around it; `run` is the
matcher that tries alternatives in order of preference (an option and a
repetition are greedy), and `replaceAll` replaces the matches found from left
to right.

* `run_eq_some` — what the matcher finds is a match;
* `replaceFrom_of_not_isMatch` — a text without a match is left as it is;
* `countP_replaceAll_lt` — replacing removes a character that every match needs.
-/

namespace Regex

variable {α β : Type}

/-- A repetition (`many`) is of a single character class. -/
inductive Pat (α : Type)
  | set (p : α → Bool)
  | boundary
  | seq (a b : Pat α)
  | opt (a : Pat α)
  | many (p : α → Bool)

namespace Pat

/-- One or more characters of a class. -/
def plus (p : α → Bool) : Pat α := .seq (.set p) (.many p)

/-- `n` copies of `a`, then `b`. -/
def times (a : Pat α) : Nat → Pat α → Pat α
  | 0, b => b
  | n + 1, b => .seq a (times a n b)

/-- The least length of a match. -/
def minLen : Pat α → Nat
  | .set _ => 1
  | .boundary => 0
  | .seq a b => a.minLen + b.minLen
  | .opt _ => 0
  | .many _ => 0

/-- Some part of the pattern that cannot be left out only takes characters of
`q`. -/
def Needs (q : α → Bool) : Pat α → Prop
  | .set p => ∀ c, p c = true → q c = true
  | .seq a b => a.Needs q ∨ b.Needs q
  | .boundary | .opt _ | .many _ => False

end Pat

section

variable (isWord : α → Bool)

/-- A word boundary between two characters, either of which may be missing. -/
def edge (prev next : Option α) : Bool := prev.any isWord != next.any isWord

/-- The word `w` matches where `prev` stands before it and `next` after it. -/
def Matches : Pat α → Option α → List α → Option α → Prop
  | .set p, _, w, _ => ∃ c, w = [c] ∧ p c = true
  | .boundary, prev, w, next => w = [] ∧ edge isWord prev next = true
  | .seq a b, prev, w, next => ∃ u v, w = u ++ v ∧
      Matches a prev u (v.head?.or next) ∧ Matches b (u.getLast?.or prev) v next
  | .opt a, prev, w, next => Matches a prev w next ∨ w = []
  | .many p, _, w, _ => ∀ c ∈ w, p c = true

/-- The longest repetition first, then the shorter ones. -/
def runMany (p : α → Bool) (prev : Option α) (s : List α)
    (k : Option α → List α → Option β) : Option β :=
  match s with
  | [] => k prev []
  | c :: s =>
    -- greedy: go on before stopping
    if p c then (runMany p (some c) s k).or (k prev (c :: s)) else k prev (c :: s)

/-- Match at the start of `s` and go on with `k`, in order of preference. -/
def run : Pat α → Option α → List α → (Option α → List α → Option β) → Option β
  | .set _, _, [], _ => none
  | .set p, _, c :: s, k => if p c then k (some c) s else none
  | .boundary, prev, s, k => if edge isWord prev s.head? then k prev s else none
  | .seq a b, prev, s, k => run a prev s fun prev s => run b prev s k
  | .opt a, prev, s, k => (run a prev s k).or (k prev s)
  | .many p, prev, s, k => runMany p prev s k

/-- The length of the preferred match at the start of `s`. -/
def matchLen (p : Pat α) (prev : Option α) (s : List α) : Option Nat :=
  run isWord p prev s fun _ rest => some (s.length - rest.length)

/-- A match starts somewhere in `s`. -/
def isMatchFrom (p : Pat α) : Option α → List α → Bool
  | prev, [] => (matchLen isWord p prev []).isSome
  | prev, c :: s => (matchLen isWord p prev (c :: s)).isSome || isMatchFrom p (some c) s

def isMatch (p : Pat α) (s : List α) : Bool := isMatchFrom isWord p none s

/-- Replace the matches from left to right, the first `skip` characters being
the rest of the last match. For patterns without empty matches. -/
def replaceFrom (p : Pat α) (rep : List α) : Option α → Nat → List α → List α
  | _, _, [] => []
  | _, skip + 1, c :: s => replaceFrom p rep (some c) skip s
  | prev, 0, c :: s =>
    match matchLen isWord p prev (c :: s) with
    | some (n + 1) => rep ++ replaceFrom p rep (some c) n s
    | _ => c :: replaceFrom p rep (some c) 0 s

def replaceAll (p : Pat α) (rep s : List α) : List α := replaceFrom isWord p rep none 0 s

/-! ## The matcher and the relation -/

variable {isWord}

theorem runMany_eq_some {p : α → Bool} {s : List α} {prev : Option α}
    {k : Option α → List α → Option β} {x : β} (h : runMany p prev s k = some x) :
    ∃ w rest, s = w ++ rest ∧ (∀ c ∈ w, p c = true) ∧ k (w.getLast?.or prev) rest = some x := by
  induction s generalizing prev with
  | nil => exact ⟨[], [], rfl, by simp, h⟩
  | cons c s ih =>
      rw [runMany] at h
      have hstop : k prev (c :: s) = some x →
          ∃ w rest, c :: s = w ++ rest ∧ (∀ c ∈ w, p c = true) ∧
            k (w.getLast?.or prev) rest = some x := fun hk => ⟨[], c :: s, rfl, by simp, hk⟩
      by_cases hc : p c = true
      · rw [if_pos hc, Option.or_eq_some_iff] at h
        rcases h with h | ⟨-, h⟩
        · obtain ⟨w, rest, rfl, hw, hk⟩ := ih h
          refine ⟨c :: w, rest, rfl, ?_, ?_⟩
          · simpa [hc] using hw
          · rw [List.getLast?_cons, Option.some_or]
            cases hlast : w.getLast? <;> simpa [hlast] using hk
        · exact hstop h
      · rw [if_neg hc] at h
        exact hstop h

theorem head?_append_or (v rest : List α) : (v ++ rest).head? = v.head?.or rest.head? := by
  cases v <;> rfl

theorem getLast?_append_or (u v : List α) (prev : Option α) :
    (u ++ v).getLast?.or prev = v.getLast?.or (u.getLast?.or prev) := by
  rw [List.getLast?_append, Option.or_assoc]

/-- What the matcher finds is a match followed by a success of the rest. -/
theorem run_eq_some {p : Pat α} {s : List α} {prev : Option α}
    {k : Option α → List α → Option β} {x : β} (h : run isWord p prev s k = some x) :
    ∃ w rest, s = w ++ rest ∧ Matches isWord p prev w rest.head? ∧
      k (w.getLast?.or prev) rest = some x := by
  induction p generalizing prev s k with
  | set p =>
      cases s with
      | nil => cases h
      | cons c s =>
          rw [run] at h
          split at h
          · exact ⟨[c], s, rfl, ⟨c, rfl, ‹_›⟩, h⟩
          · cases h
  | boundary =>
      rw [run] at h
      split at h
      · exact ⟨[], s, rfl, ⟨rfl, ‹_›⟩, h⟩
      · cases h
  | seq a b iha ihb =>
      obtain ⟨u, s, rfl, hu, h⟩ := iha h
      obtain ⟨v, rest, rfl, hv, h⟩ := ihb h
      refine ⟨u ++ v, rest, (List.append_assoc ..).symm, ⟨u, v, rfl, ?_, hv⟩, ?_⟩
      · rwa [head?_append_or] at hu
      · rwa [getLast?_append_or]
  | opt a ih =>
      rw [run, Option.or_eq_some_iff] at h
      rcases h with h | ⟨-, h⟩
      · obtain ⟨w, rest, rfl, hw, h⟩ := ih h
        exact ⟨w, rest, rfl, .inl hw, h⟩
      · exact ⟨[], s, rfl, .inr rfl, h⟩
  | many p =>
      obtain ⟨w, rest, rfl, hw, h⟩ := runMany_eq_some h
      exact ⟨w, rest, rfl, hw, h⟩

theorem matchLen_eq_some {p : Pat α} {s : List α} {prev : Option α} {n : Nat}
    (h : matchLen isWord p prev s = some n) :
    ∃ w rest, s = w ++ rest ∧ w.length = n ∧ Matches isWord p prev w rest.head? := by
  obtain ⟨w, rest, rfl, hw, hn⟩ := run_eq_some h
  refine ⟨w, rest, rfl, ?_, hw⟩
  simpa using hn

/-! ## What every match contains -/

theorem Matches.minLen_le {p : Pat α} {prev next : Option α} {w : List α}
    (h : Matches isWord p prev w next) : p.minLen ≤ w.length := by
  induction p generalizing prev w next with
  | set p =>
      obtain ⟨c, rfl, -⟩ := h
      exact Nat.le_refl 1
  | boundary => exact Nat.zero_le _
  | seq a b iha ihb =>
      obtain ⟨u, v, rfl, hu, hv⟩ := h
      rw [List.length_append]
      exact Nat.add_le_add (iha hu) (ihb hv)
  | opt a _ => exact Nat.zero_le _
  | many p => exact Nat.zero_le _

theorem Matches.exists_mem {q : α → Bool} {p : Pat α} {prev next : Option α} {w : List α}
    (h : Matches isWord p prev w next) (hneeds : p.Needs q) : ∃ c ∈ w, q c = true := by
  induction p generalizing prev w next with
  | set p =>
      obtain ⟨c, rfl, hc⟩ := h
      exact ⟨c, List.mem_cons_self, hneeds c hc⟩
  | seq a b iha ihb =>
      obtain ⟨u, v, rfl, hu, hv⟩ := h
      rcases hneeds with hneeds | hneeds
      · obtain ⟨c, hc, hq⟩ := iha hu hneeds
        exact ⟨c, List.mem_append_left v hc, hq⟩
      · obtain ⟨c, hc, hq⟩ := ihb hv hneeds
        exact ⟨c, List.mem_append_right u hc, hq⟩
  | boundary => exact absurd hneeds id
  | opt a _ => exact absurd hneeds id
  | many p => exact absurd hneeds id

theorem Pat.minLen_times (a b : Pat α) (n : Nat) :
    (a.times n b).minLen = n * a.minLen + b.minLen := by
  induction n with
  | zero => simp [Pat.times]
  | succ n ih =>
      rw [Pat.times, Pat.minLen, ih, Nat.succ_mul]
      omega

/-! ## Replacing -/

/-- Without a match nothing changes. -/
theorem replaceFrom_of_not_isMatch {p : Pat α} {rep s : List α} {prev : Option α}
    (h : isMatchFrom isWord p prev s = false) : replaceFrom isWord p rep prev 0 s = s := by
  induction s generalizing prev with
  | nil => rfl
  | cons c s ih =>
      rw [isMatchFrom, Bool.or_eq_false_iff] at h
      have hnone : matchLen isWord p prev (c :: s) = none := by simpa using h.1
      rw [replaceFrom, hnone, ih h.2]

theorem isMatchFrom_of_length_lt {p : Pat α} {s : List α} {prev : Option α}
    (h : s.length < p.minLen) : isMatchFrom isWord p prev s = false := by
  have hnone : ∀ (prev : Option α) (s : List α), s.length < p.minLen →
      (matchLen isWord p prev s).isSome = false := by
    intro prev s hlen
    cases hm : matchLen isWord p prev s with
    | none => rfl
    | some n =>
        obtain ⟨w, rest, rfl, -, hw⟩ := matchLen_eq_some hm
        have := hw.minLen_le
        rw [List.length_append] at hlen
        omega
  induction s generalizing prev with
  | nil => exact hnone prev [] h
  | cons c s ih =>
      rw [isMatchFrom, hnone prev (c :: s) h, ih (Nat.lt_of_succ_lt h)]
      rfl

/-- A replacement text that is not empty leaves no text empty. -/
theorem replaceAll_eq_nil {p : Pat α} {rep s : List α} (hrep : rep ≠ []) :
    replaceAll isWord p rep s = [] ↔ s = [] := by
  cases s with
  | nil => exact iff_of_true rfl rfl
  | cons c s =>
      refine iff_of_false ?_ (List.cons_ne_nil c s)
      rw [replaceAll, replaceFrom]
      split
      · exact fun h => hrep (List.append_eq_nil_iff.mp h).1
      · exact List.cons_ne_nil _ _

section Count

variable {q : α → Bool} {p : Pat α} {rep : List α}

/-- A replacement text without characters of `q` brings none into the text. -/
theorem countP_replaceFrom_le (hrep : rep.countP q = 0) (s : List α) (prev : Option α)
    (skip : Nat) :
    (replaceFrom isWord p rep prev skip s).countP q ≤ (s.drop skip).countP q := by
  induction s generalizing prev skip with
  | nil => simp [replaceFrom]
  | cons c s ih =>
      cases skip with
      | succ skip => exact ih (some c) skip
      | zero =>
          have hkeep := ih (some c) 0
          rw [replaceFrom]
          split
          · have hskip := ih (some c) ‹Nat›
            have hdrop := List.Sublist.countP_le (p := q) (List.drop_sublist ‹Nat› s)
            rw [List.countP_append, hrep, List.drop_zero, List.countP_cons]
            omega
          · rw [List.drop_zero] at hkeep
            rw [List.countP_cons, List.drop_zero, List.countP_cons]
            omega

/-- Where every match needs a character of `q`, replacing one leaves fewer. -/
theorem countP_replaceFrom_lt (hneeds : p.Needs q) (hrep : rep.countP q = 0) {s : List α}
    {prev : Option α} (h : isMatchFrom isWord p prev s = true) :
    (replaceFrom isWord p rep prev 0 s).countP q < s.countP q := by
  induction s generalizing prev with
  | nil =>
      obtain ⟨n, hn⟩ := Option.isSome_iff_exists.mp h
      obtain ⟨w, rest, hnil, -, hw⟩ := matchLen_eq_some hn
      obtain ⟨c, hc, -⟩ := hw.exists_mem hneeds
      rw [(List.append_eq_nil_iff.mp hnil.symm).1] at hc
      cases hc
  | cons c s ih =>
      rw [replaceFrom]
      split
      · rename_i n hn
        obtain ⟨w, rest, hs, hlen, hw⟩ := matchLen_eq_some hn
        have hrest : s.drop n = rest := by
          have hdrop := congrArg (List.drop (n + 1)) hs
          rwa [List.drop_left' hlen, List.drop_succ_cons] at hdrop
        have hpos : 0 < w.countP q := List.countP_pos_iff.mpr (hw.exists_mem hneeds)
        have hle : (replaceFrom isWord p rep (some c) n s).countP q ≤ (s.drop n).countP q :=
          countP_replaceFrom_le hrep s (some c) n
        rw [hrest] at hle
        rw [hs, List.countP_append, List.countP_append, hrep]
        omega
      · rename_i hnone
        have hlater : isMatchFrom isWord p (some c) s = true := by
          rw [isMatchFrom, Bool.or_eq_true] at h
          refine h.resolve_left fun hsome => ?_
          obtain ⟨n, hn⟩ := Option.isSome_iff_exists.mp hsome
          cases n with
          | succ n => exact hnone n hn
          | zero =>
              obtain ⟨w, rest, -, hlen, hw⟩ := matchLen_eq_some hn
              obtain ⟨d, hd, -⟩ := hw.exists_mem hneeds
              rw [List.length_eq_zero_iff.mp hlen] at hd
              cases hd
        have := ih hlater
        rw [List.countP_cons, List.countP_cons]
        omega

theorem countP_replaceAll_le (hrep : rep.countP q = 0) (s : List α) :
    (replaceAll isWord p rep s).countP q ≤ s.countP q :=
  countP_replaceFrom_le hrep s none 0

theorem countP_replaceAll_lt (hneeds : p.Needs q) (hrep : rep.countP q = 0) {s : List α}
    (h : isMatch isWord p s = true) : (replaceAll isWord p rep s).countP q < s.countP q :=
  countP_replaceFrom_lt hneeds hrep h

end Count

end

end Regex
