import InferPlatform.Base.Exclusion
import InferPlatform.Base.Expiring
import InferPlatform.Base.Separator
import InferPlatform.Base.System

/-!
# The rate limit

A call of `check_and_increment` reads the clock, counts itself at Redis under its key and
minute, sets the expiry of the counter if it was the first, and compares. Calls of any
number of processes interleave between these steps.

* `limiterStep` — the calls, command by command, over one Redis;
* `LimiterInv` — the counts handed out under a key and minute are `1 … n`;
* `exact_of_inTime` — **of the calls of a key and a minute as many are within the limit as
  it allows**, if no call takes a minute from its clock reading to Redis.
-/

namespace InferPlatform.Gateway

open Expiring

/-- `timestamp() / 60` at a clock reading in milliseconds. -/
def clockMinute (reading : Nat) : Nat := reading / 1000 / 60

/-- `rate:{key_id}:{minute}`. -/
def rateKey (keyId : String) (minute : Nat) : String := s!"rate:{keyId}:{minute}"

/-- The next step of a call, with what it has read so far; or its answer. -/
inductive LimiterPc
  | readClock
  | incr (reading : Nat)
  | expire (minute : Nat) (count : Int)
  | done (minute : Nat) (count : Int) (within : Bool)
  | failed
  deriving DecidableEq, Repr

structure LimiterCall where
  keyId : String
  rpm : Int
  pc : LimiterPc
  deriving DecidableEq, Repr

/-- `now` is the time at Redis. -/
structure LimiterState where
  now : Nat
  store : Store String
  calls : List LimiterCall

/-- A process has a clock of its own. -/
inductive LimiterAction
  | pass (ms : Nat)
  | call (keyId : String) (rpm : Int)
  | readClock (i : Nat) (reading : Nat)
  | incr (i : Nat) (o : Outcome)
  | expire (i : Nat) (o : Outcome)
  deriving DecidableEq, Repr

/-- A call after its count is known. -/
def LimiterCall.decided (c : LimiterCall) (minute : Nat) (count : Int) : LimiterCall :=
  { c with pc := .done minute count (count ≤ c.rpm) }

/-- The first call of a minute sets the expiry before that. -/
def LimiterCall.counted (c : LimiterCall) (minute : Nat) (count : Int) : LimiterCall :=
  if count = 1 then { c with pc := .expire minute count } else c.decided minute count

def limiterStep (st : LimiterState) : LimiterAction → Option LimiterState
  | .pass ms => some { st with now := st.now + ms }
  | .call keyId rpm => some { st with calls := st.calls ++ [⟨keyId, rpm, .readClock⟩] }
  | .readClock i reading =>
    match st.calls[i]? with
    | none => none
    | some c =>
      match c.pc with
      | .readClock => some { st with calls := st.calls.set i { c with pc := .incr reading } }
      | _ => none
  | .incr i o =>
    match st.calls[i]? with
    | none => none
    | some c =>
      match c.pc with
      | .incr reading =>
        let minute := clockMinute reading
        let counted := st.store.incr st.now (rateKey c.keyId minute)
        match o with
        | .ok =>
          some { st with
            store := counted.1
            calls := st.calls.set i (c.counted minute counted.2) }
        | .failed => some { st with calls := st.calls.set i { c with pc := .failed } }
        | .lost =>
          some { st with store := counted.1, calls := st.calls.set i { c with pc := .failed } }
      | _ => none
  | .expire i o =>
    match st.calls[i]? with
    | none => none
    | some c =>
      match c.pc with
      | .expire minute count =>
        let store := st.store.expire st.now (rateKey c.keyId minute) 120
        match o with
        | .ok => some { st with store, calls := st.calls.set i (c.decided minute count) }
        | .failed => some { st with calls := st.calls.set i { c with pc := .failed } }
        | .lost => some { st with store, calls := st.calls.set i { c with pc := .failed } }
      | _ => none

/-- All calls of all processes, from an empty Redis on. -/
def limiter : System LimiterState LimiterAction where
  init st := st.store = Store.empty ∧ st.calls = []
  step := limiterStep

/-! ## What is promised -/

/-- The minute of a call that has read the clock. -/
def LimiterPc.minute : LimiterPc → Option Nat
  | .readClock | .failed => none
  | .incr reading => some (clockMinute reading)
  | .expire minute _ | .done minute _ _ => some minute

/-- The reading of a call that is still to be counted. -/
def LimiterPc.reading : LimiterPc → Option Nat
  | .incr reading => some reading
  | _ => none

/-- The count of a call that has been counted. -/
def LimiterPc.count : LimiterPc → Option Int
  | .expire _ count | .done _ count _ => some count
  | .readClock | .incr _ | .failed => none

def LimiterPc.answer : LimiterPc → Option Bool
  | .done _ _ within => some within
  | _ => none

/-- A call of the key whose minute this is. -/
def LimiterCall.Of (keyId : String) (minute : Nat) (c : LimiterCall) : Prop :=
  c.keyId = keyId ∧ c.pc.minute = some minute

instance (keyId : String) (minute : Nat) (c : LimiterCall) : Decidable (c.Of keyId minute) :=
  inferInstanceAs (Decidable (_ ∧ _))

/-- The limit of a key is exact, and its counter is what the key's own calls of the minute
have made it, at least until the end of the next minute. -/
structure Exact (keyId : String) (rpm : Int) (st : LimiterState) : Prop where
  granted : ∀ minute, (∀ c ∈ st.calls, c.Of keyId minute → c.pc.answer.isSome) →
    st.calls.countP (fun c => c.Of keyId minute ∧ c.pc.answer = some true) =
      min (st.calls.countP fun c => c.Of keyId minute) rpm.toNat
  counter : ∀ minute, st.now < 60000 * (minute + 2) →
    (st.store.get st.now (rateKey keyId minute)).getD 0 =
      st.calls.countP fun c => c.Of keyId minute ∧ c.pc.count.isSome

/-- The key has this limit; commands succeed, and a call is counted within a minute of its
clock reading. -/
def InTime (keyId : String) (rpm : Int) (st : LimiterState) : LimiterAction → Prop
  | .call k r => k = keyId → r = rpm
  | .incr i o => o = .ok ∧ ∀ c ∈ st.calls[i]?, ∀ reading ∈ c.pc.reading,
      reading ≤ st.now ∧ st.now < reading + 60000
  | .expire _ o => o = .ok
  | .pass _ | .readClock _ _ => True

instance (keyId : String) (rpm : Int) (st : LimiterState) :
    (a : LimiterAction) → Decidable (InTime keyId rpm st a)
  | .call k r => inferInstanceAs (Decidable (k = keyId → r = rpm))
  | .incr i o => inferInstanceAs (Decidable (o = .ok ∧ ∀ c ∈ st.calls[i]?,
      ∀ reading ∈ c.pc.reading, reading ≤ st.now ∧ st.now < reading + 60000))
  | .expire _ o => inferInstanceAs (Decidable (o = .ok))
  | .pass _ | .readClock _ _ => inferInstanceAs (Decidable True)

/-! ## Keys -/

/-- A key id may contain the separator, the minute does not. -/
theorem rateKey_inj {keyId keyId' : String} {minute minute' : Nat}
    (h : rateKey keyId minute = rateKey keyId' minute') : keyId = keyId' ∧ minute = minute' := by
  have htoList : ∀ (k : String) (m : Nat), (rateKey k m).toList =
      ("rate:".toList ++ k.toList) ++ ':' :: m.repr.toList := by
    intro k m
    show ("rate:" ++ k ++ ":" ++ m.repr).toList = _
    simp only [String.toList_append, List.append_assoc]
    rfl
  have hchars := congrArg String.toList h
  rw [htoList, htoList] at hchars
  obtain ⟨hkey, hnumber⟩ := Separator.append_inj (Separator.notMem_repr rfl minute)
    (Separator.notMem_repr rfl minute') hchars
  exact ⟨String.toList_inj.mp (List.append_cancel_left hkey),
    Nat.repr_inj.mp (String.toList_inj.mp hnumber)⟩

/-! ## The invariant -/

section

variable {keyId : String} {rpm : Int} {st st' : LimiterState}

/-- The counts that the calls of a key and a minute have got. -/
def countsOf (keyId : String) (minute : Nat) (calls : List LimiterCall) : List Int :=
  calls.filterMap fun c => if c.Of keyId minute then c.pc.count else none

/-- `1 … n`. -/
def upTo (n : Nat) : List Int := (List.range n).map fun (j : Nat) => (j : Int) + 1

structure CallOk (keyId : String) (rpm : Int) (now : Nat) (c : LimiterCall) : Prop where
  rpm_eq : c.keyId = keyId → c.rpm = rpm
  /-- It compares its count with its limit. -/
  answered : ∀ minute count within, c.pc = .done minute count within →
    within = decide (count ≤ c.rpm)
  /-- Its minute has begun when it sets the expiry. -/
  begun : ∀ minute count, c.pc = .expire minute count → 60000 * minute ≤ now

structure LimiterInv (keyId : String) (rpm : Int) (st : LimiterState) : Prop where
  counts : ∀ minute, (countsOf keyId minute st.calls).Perm
    (upTo (countsOf keyId minute st.calls).length)
  counter : ∀ minute, Counts st.store (rateKey keyId minute)
    (countsOf keyId minute st.calls).length (60000 * (minute + 2))
  calls : ∀ c ∈ st.calls, CallOk keyId rpm st.now c

theorem CallOk.later {now now' : Nat} {c : LimiterCall} (h : CallOk keyId rpm now c)
    (hnow : now ≤ now') : CallOk keyId rpm now' c :=
  ⟨h.rpm_eq, h.answered, fun minute count hpc => (h.begun minute count hpc).trans hnow⟩

theorem callOk_set {now : Nat} {calls : List LimiterCall} {i : Nat} {c' : LimiterCall}
    (h : ∀ c ∈ calls, CallOk keyId rpm now c) (hc' : CallOk keyId rpm now c') :
    ∀ c ∈ calls.set i c', CallOk keyId rpm now c := by
  intro c hc
  rcases List.mem_or_eq_of_mem_set hc with hold | rfl
  · exact h c hold
  · exact hc'

/-- A step of a call that does not count it. -/
theorem countsOf_set {calls : List LimiterCall} {i : Nat} {c c' : LimiterCall} {minute : Nat}
    (hc : calls[i]? = some c)
    (hsame : (if c'.Of keyId minute then c'.pc.count else none) =
      if c.Of keyId minute then c.pc.count else none) :
    countsOf keyId minute (calls.set i c') = countsOf keyId minute calls := by
  obtain ⟨before, after, rfl, hset⟩ := List.exists_split_of_set hc c'
  rw [hset]
  simp only [countsOf, List.filterMap_append, List.filterMap_cons, hsame]

/-- A step that counts it. -/
theorem countsOf_set_perm {calls : List LimiterCall} {i : Nat} {c c' : LimiterCall} {minute : Nat}
    {count : Int} (hc : calls[i]? = some c)
    (hbefore : (if c.Of keyId minute then c.pc.count else none) = none)
    (hafter : (if c'.Of keyId minute then c'.pc.count else none) = some count) :
    (countsOf keyId minute (calls.set i c')).Perm (count :: countsOf keyId minute calls) := by
  obtain ⟨before, after, rfl, hset⟩ := List.exists_split_of_set hc c'
  rw [hset]
  simp only [countsOf, List.filterMap_append, List.filterMap_cons, hbefore, hafter]
  exact List.perm_middle

/-- What counts nothing, and leaves the counters of the key. -/
theorem LimiterInv.of_quiet (h : LimiterInv keyId rpm st)
    (hcounts : ∀ minute, countsOf keyId minute st'.calls = countsOf keyId minute st.calls)
    (hstore : ∀ minute n, Counts st.store (rateKey keyId minute) n (60000 * (minute + 2)) →
      Counts st'.store (rateKey keyId minute) n (60000 * (minute + 2)))
    (hcalls : ∀ c ∈ st'.calls, CallOk keyId rpm st'.now c) : LimiterInv keyId rpm st' := by
  refine ⟨?_, ?_, hcalls⟩
  · intro minute
    rw [hcounts]
    exact h.counts minute
  · intro minute
    rw [hcounts]
    exact hstore minute _ (h.counter minute)

theorem upTo_succ (n : Nat) : (upTo (n + 1)).Perm (((n : Int) + 1) :: upTo n) := by
  rw [upTo, List.range_succ, List.map_append, List.map_singleton]
  exact List.perm_append_singleton _ _

/-- A call of the key is counted. -/
theorem LimiterInv.of_counted (h : LimiterInv keyId rpm st) (minute : Nat) {count : Int}
    (hcounted : (countsOf keyId minute st'.calls).Perm (count :: countsOf keyId minute st.calls))
    (hothers : ∀ m, m ≠ minute → countsOf keyId m st'.calls = countsOf keyId m st.calls)
    (hcount : count = (countsOf keyId minute st.calls).length + 1)
    (hcounter : Counts st'.store (rateKey keyId minute)
      ((countsOf keyId minute st.calls).length + 1) (60000 * (minute + 2)))
    (hstore : ∀ m n, m ≠ minute → Counts st.store (rateKey keyId m) n (60000 * (m + 2)) →
      Counts st'.store (rateKey keyId m) n (60000 * (m + 2)))
    (hcalls : ∀ c ∈ st'.calls, CallOk keyId rpm st'.now c) : LimiterInv keyId rpm st' := by
  have hlength := hcounted.length_eq
  rw [List.length_cons] at hlength
  refine ⟨?_, ?_, hcalls⟩
  · intro m
    by_cases hm : m = minute
    · subst hm
      rw [hlength]
      have hearlier := hcounted.trans ((h.counts m).cons count)
      rw [hcount] at hearlier
      exact hearlier.trans (upTo_succ _).symm
    · rw [hothers m hm]
      exact h.counts m
  · intro m
    by_cases hm : m = minute
    · subst hm
      rw [hlength]
      exact hcounter
    · rw [hothers m hm]
      exact hstore m _ hm (h.counter m)

/-! ## The steps -/

theorem clockMinute_bounds (reading : Nat) :
    60000 * clockMinute reading ≤ reading ∧ reading < 60000 * (clockMinute reading + 1) := by
  unfold clockMinute
  omega

theorem limiterInv_init (h : limiter.init st) : LimiterInv keyId rpm st := by
  obtain ⟨hstore, hcalls⟩ := h
  have hnone : ∀ minute, countsOf keyId minute st.calls = [] := by
    intro minute
    rw [hcalls]
    rfl
  refine ⟨?_, ?_, ?_⟩
  · intro minute
    rw [hnone]
    exact List.Perm.refl _
  · intro minute
    rw [hnone, hstore]
    exact Counts.empty _ _
  · rw [hcalls]
    simp

theorem LimiterInv.pass (h : LimiterInv keyId rpm st) (ms : Nat) :
    LimiterInv keyId rpm { st with now := st.now + ms } :=
  h.of_quiet (fun _ => rfl) (fun _ _ hcounter => hcounter)
    fun c hc => (h.calls c hc).later (Nat.le_add_right _ _)

theorem LimiterInv.call (h : LimiterInv keyId rpm st) {k : String} {r : Int}
    (hr : k = keyId → r = rpm) :
    LimiterInv keyId rpm { st with calls := st.calls ++ [⟨k, r, .readClock⟩] } := by
  refine h.of_quiet ?_ (fun _ _ hcounter => hcounter) ?_
  · intro minute
    simp [countsOf, LimiterCall.Of, LimiterPc.minute]
  · intro c hc
    rcases List.mem_append.mp hc with hc | hc
    · exact h.calls c hc
    · rw [List.mem_singleton.mp hc]
      exact ⟨hr, nofun, nofun⟩

theorem LimiterInv.readClock (h : LimiterInv keyId rpm st) {i : Nat} {c : LimiterCall}
    (hc : st.calls[i]? = some c) (hpc : c.pc = .readClock) (reading : Nat) :
    LimiterInv keyId rpm { st with calls := st.calls.set i { c with pc := .incr reading } } := by
  refine h.of_quiet ?_ (fun _ _ hcounter => hcounter) ?_
  · intro minute
    apply countsOf_set hc
    simp [hpc, LimiterPc.count]
  · have hok := h.calls c (List.mem_of_getElem? hc)
    exact callOk_set h.calls ⟨hok.rpm_eq, nofun, nofun⟩

theorem counted_pc (c : LimiterCall) (minute : Nat) (count : Int) :
    (c.counted minute count).keyId = c.keyId ∧
      (c.counted minute count).pc.minute = some minute ∧
      (c.counted minute count).pc.count = some count := by
  unfold LimiterCall.counted
  split <;> exact ⟨rfl, rfl, rfl⟩

theorem CallOk.counted {now : Nat} {c : LimiterCall} (h : CallOk keyId rpm now c) {minute : Nat}
    (hbegun : 60000 * minute ≤ now) (count : Int) :
    CallOk keyId rpm now (c.counted minute count) := by
  unfold LimiterCall.counted
  split
  · refine ⟨h.rpm_eq, nofun, ?_⟩
    rintro _ _ ⟨⟩
    exact hbegun
  · refine ⟨h.rpm_eq, ?_, nofun⟩
    rintro _ _ _ ⟨⟩
    rfl

theorem LimiterInv.incr (h : LimiterInv keyId rpm st) {i : Nat} {c : LimiterCall} {reading : Nat}
    (hc : st.calls[i]? = some c) (hpc : c.pc = .incr reading)
    (hreading : reading ≤ st.now) (htime : st.now < reading + 60000) :
    LimiterInv keyId rpm { st with
      store := (st.store.incr st.now (rateKey c.keyId (clockMinute reading))).1
      calls := st.calls.set i (c.counted (clockMinute reading)
        (st.store.incr st.now (rateKey c.keyId (clockMinute reading))).2) } := by
  obtain ⟨hstart, hend⟩ := clockMinute_bounds reading
  generalize hminute : clockMinute reading = minute at hstart hend
  have hcalls : ∀ count, ∀ c' ∈ st.calls.set i (c.counted minute count),
      CallOk keyId rpm st.now c' := fun count =>
    callOk_set h.calls ((h.calls c (List.mem_of_getElem? hc)).counted (by omega) count)
  have hnone : c.pc.count = none := by rw [hpc, LimiterPc.count]
  by_cases hkey : c.keyId = keyId
  · subst hkey
    have hkept : st.now ≤ 60000 * (minute + 2) := by omega
    obtain ⟨hanswer, hcounter⟩ := (h.counter minute).incr hkept
    obtain ⟨hsame, hof, hcount⟩ := counted_pc c minute
      (st.store.incr st.now (rateKey c.keyId minute)).2
    refine h.of_counted minute ?_ ?_ hanswer hcounter ?_ (hcalls _)
    · apply countsOf_set_perm hc
      · simp [hnone]
      · rw [if_pos ⟨hsame, hof⟩, hcount]
    · intro m hm
      apply countsOf_set hc
      rw [if_neg, hnone, ite_self]
      rintro ⟨-, hminute'⟩
      rw [hof] at hminute'
      exact hm (Option.some.inj hminute').symm
    · intro m n hm hm'
      exact hm'.incr_of_ne fun heq => hm (rateKey_inj heq).2
  · -- a call of another key
    refine h.of_quiet ?_ ?_ (hcalls _)
    · intro m
      obtain ⟨hsame, -, -⟩ := counted_pc c minute
        (st.store.incr st.now (rateKey c.keyId minute)).2
      apply countsOf_set hc
      rw [if_neg fun hof => hkey (hsame.symm.trans hof.1), if_neg fun hof => hkey hof.1]
    · intro m n hm
      exact hm.incr_of_ne fun heq => hkey (rateKey_inj heq).1.symm

theorem LimiterInv.expire (h : LimiterInv keyId rpm st) {i : Nat} {c : LimiterCall} {minute : Nat}
    {count : Int} (hc : st.calls[i]? = some c) (hpc : c.pc = .expire minute count) :
    LimiterInv keyId rpm { st with
      store := st.store.expire st.now (rateKey c.keyId minute) 120
      calls := st.calls.set i (c.decided minute count) } := by
  have hok := h.calls c (List.mem_of_getElem? hc)
  refine h.of_quiet ?_ ?_ ?_
  · intro m
    apply countsOf_set hc
    simp [LimiterCall.Of, LimiterCall.decided, hpc, LimiterPc.minute, LimiterPc.count]
  · intro m n hm
    by_cases heq : rateKey keyId m = rateKey c.keyId minute
    · -- two minutes from a time in the minute on
      have hbegun := hok.begun minute count hpc
      obtain ⟨-, rfl⟩ := rateKey_inj heq
      rw [← heq]
      exact hm.expire (by omega)
    · exact hm.expire_of_ne heq
  · apply callOk_set h.calls
    refine ⟨hok.rpm_eq, ?_, nofun⟩
    rintro _ _ _ ⟨⟩
    rfl

theorem limiterInv_step {a : LimiterAction} (h : LimiterInv keyId rpm st)
    (hallowed : InTime keyId rpm st a) (hstep : limiterStep st a = some st') :
    LimiterInv keyId rpm st' := by
  cases a with
  | pass ms =>
      cases hstep
      exact h.pass ms
  | call k r =>
      cases hstep
      exact h.call hallowed
  | readClock i reading =>
      simp only [limiterStep] at hstep
      split at hstep
      · cases hstep
      · rename_i c hc
        split at hstep
        · rename_i hpc
          cases hstep
          exact h.readClock hc hpc reading
        · cases hstep
  | incr i o =>
      obtain ⟨rfl, htime⟩ := hallowed
      simp only [limiterStep] at hstep
      split at hstep
      · cases hstep
      · rename_i c hc
        split at hstep
        · rename_i reading hpc
          cases hstep
          obtain ⟨hreading, htime⟩ := htime c hc reading (by rw [hpc]; rfl)
          exact h.incr hc hpc hreading htime
        · cases hstep
  | expire i o =>
      obtain rfl : o = .ok := hallowed
      simp only [limiterStep] at hstep
      split at hstep
      · cases hstep
      · rename_i c hc
        split at hstep
        · rename_i minute count hpc
          cases hstep
          exact h.expire hc hpc
        · cases hstep

/-! ## The limit -/

/-- Of `1 … n`, as many are within a limit as it allows. -/
theorem countP_upTo (n : Nat) (rpm : Int) :
    (upTo n).countP (fun count => count ≤ rpm) = min n rpm.toNat := by
  induction n with
  | zero => simp [upTo]
  | succ n ih =>
      rw [(upTo_succ n).countP_eq, List.countP_cons, ih]
      by_cases hle : (n : Int) + 1 ≤ rpm
      · rw [if_pos (decide_eq_true hle)]
        omega
      · rw [if_neg (by simpa using hle)]
        omega

theorem LimiterInv.exact (h : LimiterInv keyId rpm st) : Exact keyId rpm st := by
  have hcounted : ∀ minute, (countsOf keyId minute st.calls).length =
      st.calls.countP fun c => c.Of keyId minute ∧ c.pc.count.isSome := by
    intro minute
    rw [countsOf, List.length_filterMap_eq_countP]
    apply List.countP_congr
    intro c _
    by_cases hof : c.Of keyId minute <;> simp [hof]
  constructor
  · intro minute hanswered
    have hall : (countsOf keyId minute st.calls).length =
        st.calls.countP fun c => c.Of keyId minute := by
      rw [hcounted]
      apply List.countP_congr
      intro c hc
      simp only [decide_eq_true_eq, and_iff_left_iff_imp]
      intro hof
      have hanswer := hanswered c hc hof
      cases hpc : c.pc <;> simp_all [LimiterPc.answer, LimiterPc.count]
    have hgranted : st.calls.countP (fun c => c.Of keyId minute ∧ c.pc.answer = some true) =
        (countsOf keyId minute st.calls).countP fun count => count ≤ rpm := by
      rw [countsOf, List.countP_filterMap]
      apply List.countP_congr
      intro c hc
      by_cases hof : c.Of keyId minute
      · have hok := h.calls c hc
        have hrpm := hok.rpm_eq hof.1
        have hanswer := hanswered c hc hof
        cases hpc : c.pc with
        | done minute' count within =>
            have hwithin := hok.answered minute' count within hpc
            simp [hof, LimiterPc.answer, LimiterPc.count, hwithin, hrpm]
        | readClock | incr | expire | failed =>
            rw [hpc] at hanswer
            cases hanswer
      · simp [hof]
    rw [hgranted, (h.counts minute).countP_eq, countP_upTo, hall]
  · intro minute hnow
    rw [← hcounted]
    exact (h.counter minute).get_eq hnow.le

/-- **The limit is exact**: for every interleaving of calls that count themselves within a
minute of their clock reading. -/
theorem exact_of_inTime (keyId : String) (rpm : Int) {st : LimiterState}
    (h : limiter.ReachedBy (InTime keyId rpm) st) : Exact keyId rpm st := by
  apply LimiterInv.exact
  refine h.invariant (LimiterInv keyId rpm) (fun s hs => limiterInv_init hs) ?_
  intro s a s' hs hallowed hstep
  exact limiterInv_step hs hallowed hstep

end

/-- Two calls of a key with a limit of one, from the end of a minute into the next one: the
call that reads the clock last is counted first. -/
theorem exact_of_inTime_two_calls : ∃ st,
    limiter.run (InTime "key-1" 1) ⟨0, Store.empty, []⟩
      [.pass 59000, .call "key-1" 1, .call "key-1" 1, .call "key-2" 5, .readClock 0 59000,
        .readClock 2 59000, .pass 500, .readClock 1 59500, .incr 1 .ok, .pass 30000, .incr 0 .ok,
        .incr 2 .ok, .expire 1 .ok, .expire 2 .ok] = some st ∧
    st.calls.map (·.pc.answer) = [some false, some true, some true] ∧ Exact "key-1" 1 st := by
  have hrun : (limiter.run (InTime "key-1" 1) ⟨0, Store.empty, []⟩
      [.pass 59000, .call "key-1" 1, .call "key-1" 1, .call "key-2" 5, .readClock 0 59000,
        .readClock 2 59000, .pass 500, .readClock 1 59500, .incr 1 .ok, .pass 30000, .incr 0 .ok,
        .incr 2 .ok, .expire 1 .ok, .expire 2 .ok]).map
      (fun st => st.calls.map (·.pc.answer)) = some [some false, some true, some true] := by
    decide +kernel
  have hinit : limiter.init ⟨0, Store.empty, []⟩ := ⟨rfl, rfl⟩
  obtain ⟨st, hst, hreached, hanswers⟩ := System.exists_reachedBy_of_run (.init hinit) hrun
  exact ⟨st, hst, hanswers, exact_of_inTime "key-1" 1 hreached⟩

end InferPlatform.Gateway
