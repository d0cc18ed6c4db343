import Mathlib.Algebra.Order.Group.Nat
import Mathlib.Tactic.NormNum

/-!
# The arithmetic of PostgreSQL

Timestamps are microseconds since the Unix epoch. The queries of the service multiply a number of seconds
by an interval of one second, in `double precision`, and add the result to a timestamp or subtract it.
Each of these steps fails outside of a range that PostgreSQL documents, and so does an `INTEGER` that
grows beyond 32 bits.

* **`Postgres`**, **`Postgres.Documented`** — the arithmetic, and its documented ranges;
* **`intervalMicros_eq`** — intervals of up to 8,000 years are exact.
-/

namespace ArcAdmin

/-- A second, in microseconds. -/
def second : Nat := 1000000

/-- The value, if it lies in the range. -/
def inRange (low high n : Int) : Option Int := if low ≤ n ∧ n ≤ high then some n else none

/-- The `double precision` number closest to a natural number, the even one of two. -/
def toDouble (n : Nat) : Nat :=
  let ulp := 2 ^ (Nat.log2 n - 52)
  let mantissa := n / ulp
  let rest := n % ulp
  if ulp < 2 * rest ∨ (2 * rest = ulp ∧ mantissa % 2 = 1) then (mantissa + 1) * ulp
  else mantissa * ulp

/-- `secs::double precision * interval '1 second'` in microseconds, before its range is checked. -/
def intervalMicros (secs : Nat) : Nat := toDouble (toDouble secs * second)

/-- What the queries use of PostgreSQL: intervals, and timestamps since the Unix epoch, both in
microseconds. `none` is an error. -/
structure Postgres where
  /-- Whether the planner computes constant parts of an expression in advance, those of `CASE` arms that
  are never entered included. -/
  folds : Bool
  /-- `$1::double precision * interval '1 second'` -/
  seconds : Nat → Option Int
  /-- `timestamptz + interval` -/
  add : Int → Int → Option Int
  /-- `timestamptz - interval` -/
  sub : Int → Int → Option Int
  /-- a parameter of the type `timestamptz` -/
  timestamp : Int → Option Int

/-- 4713 BC. -/
def minTimestamp : Int := -210866803200000000

/-- The last microsecond of 294276 AD. -/
def maxTimestamp : Int := 9224318015999999999

/-- The ranges that PostgreSQL documents: intervals of 64 bits, timestamps from 4713 BC to
294276 AD. -/
structure Postgres.Documented (postgres : Postgres) : Prop where
  seconds n : postgres.seconds n = inRange 0 (2 ^ 63 - 1) (intervalMicros n)
  add time span : postgres.add time span = inRange minTimestamp maxTimestamp (time + span)
  sub time span : postgres.sub time span = inRange minTimestamp maxTimestamp (time - span)
  timestamp time : postgres.timestamp time = inRange minTimestamp maxTimestamp time

/-- The ranges of PostgreSQL, as a database. -/
def Postgres.documented : Postgres where
  folds := true
  seconds n := inRange 0 (2 ^ 63 - 1) (intervalMicros n)
  add time span := inRange minTimestamp maxTimestamp (time + span)
  sub time span := inRange minTimestamp maxTimestamp (time - span)
  timestamp time := inRange minTimestamp maxTimestamp time

theorem Postgres.documented_documented : Postgres.documented.Documented :=
  ⟨fun _ => rfl, fun _ _ => rfl, fun _ _ => rfl, fun _ => rfl⟩

/-- An `INTEGER`, if it fits 32 bits. -/
def int4 (n : Nat) : Option Nat := if n < 2 ^ 31 then some n else none

theorem inRange_eq_some {low high n m : Int} :
    inRange low high n = some m ↔ (low ≤ n ∧ n ≤ high) ∧ n = m := by
  unfold inRange
  split <;> simp [*]

/-! ## Exact intervals

`double precision` has 53 bits. A whole number of seconds in microseconds has a factor of 64, so
products far beyond the lifetimes of sessions are still exact.
-/

/-- A multiple of the unit in the last place is a `double precision` number. -/
theorem toDouble_eq {n : Nat} (h : 2 ^ (Nat.log2 n - 52) ∣ n) : toDouble n = n := by
  have hrest : n % 2 ^ (Nat.log2 n - 52) = 0 := Nat.mod_eq_zero_of_dvd h
  have hulp : 0 < 2 ^ (Nat.log2 n - 52) := Nat.two_pow_pos _
  unfold toDouble
  simp only [hrest]
  rw [if_neg (by omega), Nat.div_mul_cancel h]

theorem log2_lt {n k : Nat} (hk : 0 < k) (h : n < 2 ^ k) : Nat.log2 n < k := by
  by_cases hn : n = 0
  · subst hn
    simpa using hk
  · exact (Nat.log2_lt hn).2 h

/-- **Intervals of up to 8,000 years** are exact: a million is a multiple of 64. -/
theorem intervalMicros_eq {secs : Nat} (h : secs < 2 ^ 38) : intervalMicros secs = secs * second := by
  have hsecs : toDouble secs = secs := by
    apply toDouble_eq
    have hlog := log2_lt (by decide) h
    rw [show Nat.log2 secs - 52 = 0 by omega]
    exact Nat.one_dvd secs
  have hmicros : secs * second < 2 ^ 58 := by
    unfold second
    omega
  unfold intervalMicros
  rw [hsecs]
  apply toDouble_eq
  have hlog := log2_lt (by decide) hmicros
  have hpow : 2 ^ (Nat.log2 (secs * second) - 52) ∣ 2 ^ 6 := Nat.pow_dvd_pow 2 (by omega)
  exact (hpow.trans (by decide : 2 ^ 6 ∣ second)).mul_left secs


/-- An interval of at least a second is not empty. -/
theorem toDouble_pos {n : Nat} (h : 0 < n) : 0 < toDouble n := by
  have hulp : 0 < 2 ^ (Nat.log2 n - 52) := Nat.two_pow_pos _
  have hle : 2 ^ (Nat.log2 n - 52) ≤ n :=
    (Nat.pow_le_pow_right (by decide) (Nat.sub_le _ _)).trans (Nat.log2_self_le (by omega))
  have hmantissa : 0 < n / 2 ^ (Nat.log2 n - 52) := Nat.div_pos hle hulp
  unfold toDouble
  simp only
  split
  · exact Nat.mul_pos (Nat.succ_pos _) hulp
  · exact Nat.mul_pos hmantissa hulp

theorem intervalMicros_pos {secs : Nat} (h : 0 < secs) : 0 < intervalMicros secs :=
  toDouble_pos (Nat.mul_pos (toDouble_pos h) (by decide))

end ArcAdmin
