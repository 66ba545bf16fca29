import Mathlib.Algebra.BigOperators.Group.List.Basic
import Mathlib.Algebra.Ring.Int.Defs

/-!
# Usage rows and the clock

The rows of `usage_logs`, the sums that the billing jobs take over them, and the
calendar functions they use. A moment is a number of microseconds since the
epoch, as the database stores it.
-/

namespace InferPlatform.Gateway

/-- A row of `usage_logs`. -/
structure UsageLog where
  id : Nat
  keyId : String
  model : String
  tokensIn : Int32
  tokensOut : Int32
  timestamp : Int
  deriving DecidableEq, Repr

namespace UsageLog

/-- The row's timestamp is in the half-open window. -/
def Within (start stop : Int) (row : UsageLog) : Prop :=
  start ≤ row.timestamp ∧ row.timestamp < stop

instance (start stop : Int) (row : UsageLog) : Decidable (row.Within start stop) :=
  inferInstanceAs (Decidable (_ ∧ _))

/-- Output tokens count twice. -/
def weight (row : UsageLog) : Int := row.tokensIn.toInt + row.tokensOut.toInt * 2

end UsageLog

/-- `SUM(tokens_in)`, 0 where there is no row. -/
def sumIn (rows : List UsageLog) : Int := (rows.map fun row => row.tokensIn.toInt).sum

def sumOut (rows : List UsageLog) : Int := (rows.map fun row => row.tokensOut.toInt).sum

/-- The sum that both jobs bill. -/
def totalWeighted (rows : List UsageLog) : Int := sumIn rows + sumOut rows * 2

theorem totalWeighted_eq_sum (rows : List UsageLog) :
    totalWeighted rows = (rows.map UsageLog.weight).sum := by
  induction rows with
  | nil => rfl
  | cons row rows ih =>
      unfold totalWeighted sumIn sumOut at ih ⊢
      simp only [List.map_cons, List.sum_cons, UsageLog.weight] at ih ⊢
      omega

/-! ## The calendar -/

/-- The start of the moment's clock hour. -/
def hourStart (t : Int) : Int := t / 3600000000 * 3600000000

/-- The hour of the day, UTC. -/
def hour (t : Int) : Int := t / 3600000000 % 24

/-- Days since the epoch. -/
def dayOf (t : Int) : Int := t / 86400000000

/-- The day of the year, from 1, in the Gregorian calendar: the days since the
year 1 within their 400, 100, 4 and single years. -/
def ordinal (day : Int) : Nat :=
  let n := ((day + 719162) % 146097).toNat
  let n := n - min (n / 36524) 3 * 36524
  let n := n % 1461
  n - min (n / 365) 3 * 365 + 1

/-- New Year's Day 1970, a leap day and the last day of a leap year. -/
example : ordinal 0 = 1 ∧ ordinal 19782 = 60 ∧ ordinal 20088 = 366 ∧ ordinal 20089 = 1 := by
  decide

end InferPlatform.Gateway
