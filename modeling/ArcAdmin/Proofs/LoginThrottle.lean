import Mathlib.Data.List.Induction
import ArcAdmin.ReadCommitted.Statements
import ArcAdmin.Repositories.AuthSessions
import ArcAdmin.Sample

/-!
# The login throttle

`record_login_failure` is one upsert that counts, restarts the window and locks. What it is for is
said by `Reached` and `LockedBefore`, which look at the times of the failures only: a key is locked
while the failures of the current window have reached the limit, or an earlier lock runs.

The statement fails where PostgreSQL cannot compute its values: an interval, a timestamp or the count is
out of range. Then the failure is not counted.

* **`recorded`** — the row that one call leaves, if its values can be computed;
* **`Fits`** — they can, said of the settings, the time and the row before the call;
* **`Stays`** — the state before a call in which the upsert does what it is for;
* **`loginFailures_locked`** — a run of calls keeps the law exactly if all its calls are such.
-/

namespace ArcAdmin

open ReadCommitted
open Repositories.AuthSessions

/-! ## The calls

One key of the throttle, called at given times. The three keys of a login are independent of each
other.
-/

/-- The settings of one throttle key. -/
structure Throttle where
  maxFailures : Nat
  windowSecs : Nat
  lockoutSecs : Nat
  maxFailures_pos : 0 < maxFailures
  windowSecs_pos : 0 < windowSecs
  lockoutSecs_pos : 0 < lockoutSecs

namespace Throttle

/-- The window and the lockout as PostgreSQL has them, in microseconds: exact for up to 8,000 years. -/
def window (θ : Throttle) : Nat := intervalMicros θ.windowSecs

def lockout (θ : Throttle) : Nat := intervalMicros θ.lockoutSecs

theorem lockout_pos (θ : Throttle) : 0 < θ.lockout := intervalMicros_pos θ.lockoutSecs_pos

/-- One call, in a transaction of its own. -/
def record (θ : Throttle) (postgres : Postgres) (key : String) : Db (Option Nat) := do
  beginTx
  let lockedUntil ← recordLoginFailure postgres key θ.maxFailures θ.windowSecs θ.lockoutSecs
  commitTx
  return lockedUntil

/-- The state after a call at time `t`. -/
def callAt (θ : Throttle) (postgres : Postgres) (key : String) (s : Server Table) (t : Nat) :
    Server Table :=
  ((θ.record postgres key).run 0 ⟨none, { s with clock := t }⟩).2.server

/-- The state after calls at the times `ts`. -/
def calls (θ : Throttle) (postgres : Postgres) (key : String) (s : Server Table) (ts : List Nat) :
    Server Table :=
  ts.foldl (θ.callAt postgres key) s

/-- The row of a key. -/
def attempts (s : Server Table) (key : String) : Option LoginAttemptRow :=
  s.store.get .authLoginAttempts key

/-- The row that a call leaves, if its values can be computed. -/
def recorded (θ : Throttle) (postgres : Postgres) (t : Nat) (row : Option LoginAttemptRow) :
    Option LoginAttemptRow :=
  if planned postgres θ.windowSecs θ.lockoutSecs then
    match row with
    | none => some { failureCount := 1, windowStartedAt := t, lockedUntil := none, updatedAt := t }
    | some row => failedAgain postgres t θ.maxFailures θ.windowSecs θ.lockoutSecs row
  else none

/-- **What a call leaves and returns**, if its values can be computed. -/
theorem record_ends {θ : Throttle} {postgres : Postgres} {key : String} {s : Server Table} {t : Nat}
    {row : LoginAttemptRow} (h : θ.recorded postgres t (attempts s key) = some row) :
    ∃ c', Ends 0 (θ.record postgres key) ⟨none, { s with clock := t }⟩ row.lockedUntil c' ∧
      attempts c'.server key = some row := by
  let server : Server Table := { s with clock := t }
  let tx : Tx Table := ⟨t, [], [], []⟩
  let begun : Conn Table := ⟨some tx, server⟩
  let upsert := recordLoginFailureStmt postgres begun.snapshot key θ.maxFailures θ.windowSecs
    θ.lockoutSecs
  have hplanned : planned postgres θ.windowSecs θ.lockoutSecs = true := by
    by_contra hno
    unfold recorded at h
    rw [if_neg hno] at h
    cases h
  unfold recorded at h
  rw [if_pos hplanned] at h
  have hupsert : ∃ inserted mode, Ends 0 (upsert.exec (dbError .outOfRange)) begun (row, inserted)
      ⟨some (tx.write .authLoginAttempts key mode (some row) []), server⟩ := by
    have hview : (tx.view server.store).get .authLoginAttempts upsert.id = attempts s key := rfl
    cases hrow : attempts s key with
    | none =>
      rw [hrow] at hview h
      cases h
      exact ⟨true, .update, (ends_upsert_none hview).2 ⟨rfl, rfl⟩⟩
    | some old =>
      rw [hrow] at hview h
      exact ⟨false, .noKeyUpdate, (ends_upsert_some hview).2 ⟨row, h, rfl, rfl⟩⟩
  obtain ⟨inserted, mode, hends⟩ := hupsert
  have hreject : (!planned postgres θ.windowSecs θ.lockoutSecs) = false := by
    rw [hplanned]
    rfl
  refine ⟨_, ends_bind.2 ⟨(), begun, ends_beginTx.2 rfl, ends_bind.2 ⟨_, _, ends_bind.2
    ⟨_, begun, ends_query.2 ⟨rfl, rfl⟩, ends_bind.2 ⟨(), begun, ends_reject.2 ⟨hreject, rfl⟩,
      ends_bind.2 ⟨_, _, hends, ends_ret.2 ⟨rfl, rfl⟩⟩⟩⟩,
    ends_bind.2 ⟨(), _, (ends_commitTx rfl).2 rfl, ends_ret.2 ⟨rfl, rfl⟩⟩⟩⟩, ?_⟩
  unfold attempts
  rw [Server.commit_store, Tx.view_write]
  exact Store.get_set_self _ _ _ _

/-- **A call that returns** has computed the values of its row. -/
theorem recorded_of_ends {θ : Throttle} {postgres : Postgres} {key : String} {s : Server Table}
    {t : Nat} {r : Option Nat} {c' : Conn Table}
    (h : Ends 0 (θ.record postgres key) ⟨none, { s with clock := t }⟩ r c') :
    ∃ row, θ.recorded postgres t (attempts s key) = some row := by
  let server : Server Table := { s with clock := t }
  let tx : Tx Table := ⟨t, [], [], []⟩
  let begun : Conn Table := ⟨some tx, server⟩
  obtain ⟨_, c₁, hbegin, h⟩ := ends_bind.1 h
  obtain rfl : c₁ = begun := ends_beginTx.1 hbegin
  obtain ⟨_, c₂, hrecord, _⟩ := ends_bind.1 h
  obtain ⟨snap, c₃, hquery, hrecord⟩ := ends_bind.1 hrecord
  obtain ⟨rfl, rfl⟩ := ends_query.1 hquery
  obtain ⟨_, c₄, hreject, hrecord⟩ := ends_bind.1 hrecord
  obtain ⟨hplanned, rfl⟩ := ends_reject.1 hreject
  obtain ⟨new, c₅, hupsert, _⟩ := ends_bind.1 hrecord
  have hplanned' : planned postgres θ.windowSecs θ.lockoutSecs = true := by simpa using hplanned
  let upsert := recordLoginFailureStmt postgres begun.snapshot key θ.maxFailures θ.windowSecs
    θ.lockoutSecs
  have hview : (tx.view server.store).get .authLoginAttempts upsert.id = attempts s key := rfl
  unfold recorded
  rw [if_pos hplanned']
  cases hrow : attempts s key with
  | none => exact ⟨_, rfl⟩
  | some old =>
    rw [hrow] at hview
    obtain ⟨row, hset, _⟩ := (ends_upsert_some hview).1 hupsert
    exact ⟨row, hset⟩

/-! ## Values that can be computed

When PostgreSQL computes the values of the upsert, in terms of exact numbers. A lock that would
end after the last timestamp of the database is an error instead.
-/

/-- The window of the row is over at time `t`. -/
def Expired (θ : Throttle) (t : Nat) (row : LoginAttemptRow) : Prop :=
  row.windowStartedAt + θ.window ≤ t

instance (θ : Throttle) (t : Nat) (row : LoginAttemptRow) : Decidable (θ.Expired t row) :=
  inferInstanceAs (Decidable (_ ≤ _))

/-- How many failures there are with the one at time `t`. -/
def countAt (θ : Throttle) (t : Nat) (row : LoginAttemptRow) : Nat :=
  if θ.Expired t row then 1 else row.failureCount + 1

/-- **The values of the statement can be computed** at time `t`, for the row before: the intervals, the
timestamps and the count lie in the ranges of PostgreSQL. -/
structure Fits (θ : Throttle) (folds : Bool) (t : Nat) (row : Option LoginAttemptRow) : Prop where
  planned : folds = true → θ.window < 2 ^ 63 ∧ θ.lockout < 2 ^ 63
  window : row.isSome → θ.window < 2 ^ 63 ∧ minTimestamp ≤ (t : Int) - θ.window ∧
    (t : Int) - θ.window ≤ maxTimestamp
  count : ∀ r ∈ row, θ.Expired t r ∨ r.failureCount + 1 < 2 ^ 31
  lock : ∀ r ∈ row, θ.maxFailures ≤ θ.countAt t r →
    θ.lockout < 2 ^ 63 ∧ (t : Int) + θ.lockout ≤ maxTimestamp

/-- The row that a call leaves at time `t`, computed exactly. -/
def next (θ : Throttle) (t : Nat) : Option LoginAttemptRow → LoginAttemptRow
  | none => { failureCount := 1, windowStartedAt := t, lockedUntil := none, updatedAt := t }
  | some row =>
    { failureCount := θ.countAt t row
      windowStartedAt := if θ.Expired t row then t else row.windowStartedAt
      lockedUntil := if θ.maxFailures ≤ θ.countAt t row then some (t + θ.lockout) else none
      updatedAt := t }

section Fits

variable {θ : Throttle} {postgres : Postgres} {t : Nat}

theorem seconds_isSome (hpostgres : postgres.Documented) (secs : Nat) :
    (postgres.seconds secs).isSome = true ↔ intervalMicros secs < 2 ^ 63 := by
  rw [hpostgres.seconds, Option.isSome_iff_exists]
  simp only [inRange_eq_some]
  constructor
  · rintro ⟨n, ⟨_, hle⟩, _⟩
    omega
  · intro hlt
    exact ⟨_, ⟨by omega, by omega⟩, rfl⟩

theorem planned_iff (hpostgres : postgres.Documented) :
    planned postgres θ.windowSecs θ.lockoutSecs = true ↔
      (postgres.folds = true → θ.window < 2 ^ 63 ∧ θ.lockout < 2 ^ 63) := by
  have hwindow := seconds_isSome hpostgres θ.windowSecs
  have hlockout := seconds_isSome hpostgres θ.lockoutSecs
  unfold planned window lockout
  cases postgres.folds with
  | false => simp
  | true => simp [hwindow, hlockout]

/-- The start of the windows that are not over. -/
theorem windowStart_iff (hpostgres : postgres.Documented) {start : Int} :
    windowStart postgres t θ.windowSecs = some start ↔
      (θ.window < 2 ^ 63 ∧ minTimestamp ≤ (t : Int) - θ.window ∧
        (t : Int) - θ.window ≤ maxTimestamp) ∧ start = t - θ.window := by
  unfold windowStart window
  simp only [Option.bind_eq_bind, hpostgres.seconds, hpostgres.sub, Option.bind_eq_some_iff,
    inRange_eq_some]
  constructor
  · rintro ⟨span, ⟨⟨_, hspan⟩, rfl⟩, ⟨hlow, hhigh⟩, rfl⟩
    exact ⟨⟨by omega, hlow, hhigh⟩, rfl⟩
  · rintro ⟨⟨hspan, hlow, hhigh⟩, rfl⟩
    exact ⟨_, ⟨⟨by omega, by omega⟩, rfl⟩, ⟨hlow, hhigh⟩, rfl⟩

/-- The end of a lock. -/
theorem lockEnd_iff (hpostgres : postgres.Documented) {lock : Int} :
    lockEnd postgres t θ.lockoutSecs = some lock ↔
      (θ.lockout < 2 ^ 63 ∧ (t : Int) + θ.lockout ≤ maxTimestamp) ∧ lock = t + θ.lockout := by
  have hfirst : minTimestamp = -210866803200000000 := rfl
  unfold lockEnd lockout
  simp only [Option.bind_eq_bind, hpostgres.seconds, hpostgres.add, Option.bind_eq_some_iff,
    inRange_eq_some]
  constructor
  · rintro ⟨span, ⟨⟨_, hspan⟩, rfl⟩, ⟨_, hhigh⟩, rfl⟩
    exact ⟨⟨by omega, hhigh⟩, rfl⟩
  · rintro ⟨⟨hspan, hhigh⟩, rfl⟩
    exact ⟨_, ⟨⟨by omega, by omega⟩, rfl⟩, ⟨by omega, hhigh⟩, rfl⟩

/-- The new count. -/
theorem count_iff {old : LoginAttemptRow} {count : Nat} :
    (if θ.Expired t old then some 1 else int4 (old.failureCount + 1)) = some count ↔
      (θ.Expired t old ∨ old.failureCount + 1 < 2 ^ 31) ∧ count = θ.countAt t old := by
  unfold int4 countAt
  by_cases hexpired : θ.Expired t old
  · simp [hexpired, eq_comm]
  · rw [if_neg hexpired, if_neg hexpired, Option.ite_none_right_eq_some]
    constructor
    · rintro ⟨hfits, hcount⟩
      exact ⟨.inr hfits, (Option.some.inj hcount).symm⟩
    · rintro ⟨hfits, rfl⟩
      exact ⟨hfits.resolve_left hexpired, rfl⟩

/-- The new lock. -/
theorem lock_iff (hpostgres : postgres.Documented) {count : Nat} {lock : Option Nat} :
    (if count ≥ θ.maxFailures then
        (lockEnd postgres t θ.lockoutSecs).map fun lock => some lock.toNat
      else some none) = some lock ↔
      (θ.maxFailures ≤ count → θ.lockout < 2 ^ 63 ∧ (t : Int) + θ.lockout ≤ maxTimestamp) ∧
        lock = if θ.maxFailures ≤ count then some (t + θ.lockout) else none := by
  by_cases hmax : θ.maxFailures ≤ count
  · rw [if_pos hmax, if_pos hmax, Option.map_eq_some_iff]
    simp only [lockEnd_iff hpostgres]
    have hnat : ((t : Int) + θ.lockout).toNat = t + θ.lockout := by omega
    constructor
    · rintro ⟨_, ⟨hfits, rfl⟩, rfl⟩
      rw [hnat]
      exact ⟨fun _ => hfits, rfl⟩
    · rintro ⟨hfits, rfl⟩
      exact ⟨_, ⟨hfits hmax, rfl⟩, by rw [hnat]⟩
  · rw [if_neg hmax, if_neg hmax]
    simp [hmax, eq_comm]

/-- **The new values of a row that is there** can be computed exactly where they fit. -/
theorem failedAgain_iff (hpostgres : postgres.Documented) {old new : LoginAttemptRow} :
    failedAgain postgres t θ.maxFailures θ.windowSecs θ.lockoutSecs old = some new ↔
      ((θ.window < 2 ^ 63 ∧ minTimestamp ≤ (t : Int) - θ.window ∧
          (t : Int) - θ.window ≤ maxTimestamp) ∧
        (θ.Expired t old ∨ old.failureCount + 1 < 2 ^ 31) ∧
        (θ.maxFailures ≤ θ.countAt t old →
          θ.lockout < 2 ^ 63 ∧ (t : Int) + θ.lockout ≤ maxTimestamp)) ∧
      new = θ.next t (some old) := by
  have hexpired : (old.windowStartedAt : Int) ≤ t - θ.window ↔ θ.Expired t old := by
    unfold Expired
    omega
  unfold failedAgain
  simp only [Option.bind_eq_bind, Option.bind_eq_some_iff, windowStart_iff hpostgres]
  constructor
  · rintro ⟨start, ⟨hwindow, rfl⟩, count, hcount, lock, hlock, hnew⟩
    simp only [hexpired] at hcount hnew
    obtain ⟨hcounts, rfl⟩ := count_iff.1 hcount
    obtain ⟨hlocks, rfl⟩ := (lock_iff hpostgres).1 hlock
    exact ⟨⟨hwindow, hcounts, hlocks⟩, (Option.some.inj hnew).symm⟩
  · rintro ⟨⟨hwindow, hcount, hlock⟩, rfl⟩
    refine ⟨_, ⟨hwindow, rfl⟩, θ.countAt t old, ?_, _, (lock_iff hpostgres).2 ⟨hlock, rfl⟩, ?_⟩
    · simp only [hexpired]
      exact count_iff.2 ⟨hcount, rfl⟩
    · simp only [hexpired]
      rfl

/-- **A call leaves its row exactly where the values fit.** -/
theorem recorded_iff (hpostgres : postgres.Documented) {row : Option LoginAttemptRow}
    {new : LoginAttemptRow} :
    θ.recorded postgres t row = some new ↔ θ.Fits postgres.folds t row ∧ new = θ.next t row := by
  unfold recorded
  have hplanned := planned_iff (θ := θ) hpostgres
  cases row with
  | none =>
    constructor
    · intro h
      split at h
      · rename_i hyes
        cases h
        exact ⟨⟨hplanned.1 hyes, fun h => absurd h (by simp), by simp, by simp⟩, rfl⟩
      · cases h
    · rintro ⟨hfits, rfl⟩
      rw [if_pos (hplanned.2 hfits.planned)]
      rfl
  | some old =>
    constructor
    · intro h
      split at h
      · rename_i hyes
        obtain ⟨⟨hwindow, hcount, hlock⟩, rfl⟩ := (failedAgain_iff hpostgres).1 h
        refine ⟨⟨hplanned.1 hyes, fun _ => hwindow, ?_, ?_⟩, rfl⟩
        · intro r hr
          cases hr
          exact hcount
        · intro r hr
          cases hr
          exact hlock
      · cases h
    · rintro ⟨hfits, rfl⟩
      rw [if_pos (hplanned.2 hfits.planned)]
      exact (failedAgain_iff hpostgres).2
        ⟨⟨hfits.window rfl, hfits.count old rfl, hfits.lock old rfl⟩, rfl⟩

end Fits

/-! ## What the throttle is for

The specification looks at the times of the failures and at the settings, and at no row.
-/

/-- A run of failures that are counted together: when it began, and how many there are. -/
structure Window where
  start : Nat
  count : Nat

/-- A failure that comes when the window is over begins another one. -/
def Window.next (window : Nat) (w : Option Window) (t : Nat) : Window :=
  match w with
  | none => ⟨t, 1⟩
  | some w => if w.start + window ≤ t then ⟨t, 1⟩ else ⟨w.start, w.count + 1⟩

/-- The current window after failures at the times `ts`. -/
def windowOf (θ : Throttle) (ts : List Nat) : Option Window :=
  ts.foldl (fun w t => some (Window.next θ.window w t)) none

/-- The failures of the current window have reached the limit. -/
def Reached (θ : Throttle) (ts : List Nat) : Prop :=
  ∃ w, θ.windowOf ts = some w ∧ θ.maxFailures ≤ w.count

/-- An earlier failure than those after `pre` has set a lock that still runs at `now`. -/
def LockedBefore (θ : Throttle) (pre : List Nat) (now : Nat) : Prop :=
  ∃ earlier t, earlier ++ [t] <+: pre ∧ θ.Reached (earlier ++ [t]) ∧
    now < t + θ.lockout

/-- The key is locked at `now`. -/
def Locked (s : Server Table) (key : String) (now : Nat) : Prop :=
  ∃ row, attempts s key = some row ∧ ∃ lock, row.lockedUntil = some lock ∧ now < lock

/-- **The law of the throttle**, for the call at time `t` that follows the calls `pre`: the failure is
counted, for the call returns; the key is locked if it should be, and only then; and no lock that runs
is shortened. -/
structure Lawful (θ : Throttle) (postgres : Postgres) (key : String) (s : Server Table)
    (pre : List Nat) (t : Nat) : Prop where
  counted : ∃ r c', Ends 0 (θ.record postgres key)
    ⟨none, { θ.calls postgres key s pre with clock := t }⟩ r c'
  locked : Locked (θ.calls postgres key s (pre ++ [t])) key t ↔
    θ.Reached (pre ++ [t]) ∨ θ.LockedBefore pre t
  kept : ∀ row lock, attempts (θ.calls postgres key s pre) key = some row →
    row.lockedUntil = some lock → t < lock →
      ∃ row' lock', attempts (θ.calls postgres key s (pre ++ [t])) key = some row' ∧
        row'.lockedUntil = some lock' ∧ lock ≤ lock'

/-- **The state in which a call keeps the law**: a first failure is not to lock yet, and a window is
not restarted while a lock runs, unless one failure locks. -/
def Stays (θ : Throttle) (t : Nat) : Option LoginAttemptRow → Prop
  | none => 1 < θ.maxFailures
  | some row => θ.Expired t row →
      (∃ lock, row.lockedUntil = some lock ∧ t < lock) → θ.maxFailures = 1

/-! ## The run

The invariant relates the row with the times of the failures so far; the step lemma is about one
more call.
-/

variable {postgres : Postgres} {key : String} {s : Server Table}

theorem calls_append (θ : Throttle) (postgres : Postgres) (key : String) (s : Server Table)
    (pre : List Nat) (t : Nat) :
    θ.calls postgres key s (pre ++ [t]) = θ.callAt postgres key (θ.calls postgres key s pre) t :=
  List.foldl_append

/-- What a call leaves, if its values can be computed. -/
theorem attempts_calls_append {θ : Throttle} {pre : List Nat} {t : Nat} {row : LoginAttemptRow}
    (h : θ.recorded postgres t (attempts (θ.calls postgres key s pre) key) = some row) :
    attempts (θ.calls postgres key s (pre ++ [t])) key = some row := by
  obtain ⟨c', hends, hrow⟩ := record_ends h
  rw [calls_append]
  unfold callAt
  rw [show (θ.record postgres key).run 0 ⟨none, { θ.calls postgres key s pre with clock := t }⟩ = _
    from hends]
  exact hrow

/-- The window that a row tells of. -/
def Window.ofRow (row : LoginAttemptRow) : Window := ⟨row.windowStartedAt, row.failureCount⟩

/-- A call counts as the window does. -/
theorem windowOf_append (θ : Throttle) (pre : List Nat) (t : Nat) {row : Option LoginAttemptRow}
    (hrow : θ.windowOf pre = row.map Window.ofRow) :
    θ.windowOf (pre ++ [t]) = some (Window.ofRow (θ.next t row)) := by
  have hnext : θ.windowOf (pre ++ [t]) = some (Window.next θ.window (θ.windowOf pre) t) :=
    List.foldl_append
  rw [hnext, hrow]
  cases row with
  | none => rfl
  | some r =>
    by_cases hexpired : r.windowStartedAt + θ.window ≤ t
    · simp [next, countAt, Expired, Window.next, Window.ofRow, hexpired]
    · simp [next, countAt, Expired, Window.next, Window.ofRow, hexpired]

/-- **What the row of a key says** after calls at the times `ts`, the last of which was at `last`:
the window, and a lock that is no shorter than any that was set before and still runs. -/
structure Tracks (θ : Throttle) (ts : List Nat) (last : Nat) (row : LoginAttemptRow) : Prop where
  window : θ.windowOf ts = some (Window.ofRow row)
  locked : row.lockedUntil =
    if θ.maxFailures ≤ row.failureCount then some (last + θ.lockout) else none
  earlier : ∀ now, θ.LockedBefore ts now → last ≤ now →
    ∃ lock, row.lockedUntil = some lock ∧ now < lock

/-- What is known before a call at time `t`. -/
def Ready (θ : Throttle) (pre : List Nat) (t : Nat) (row : Option LoginAttemptRow) : Prop :=
  (pre = [] ∧ row = none) ∨ ∃ last r, last ≤ t ∧ row = some r ∧ θ.Tracks pre last r

/-- The lock that a call sets, if any. -/
theorem next_locked (θ : Throttle) (t : Nat) {row : Option LoginAttemptRow}
    (hstays : θ.Stays t row) : (θ.next t row).lockedUntil =
      if θ.maxFailures ≤ (θ.next t row).failureCount then some (t + θ.lockout)
      else none := by
  cases row with
  | none =>
    have hmax : ¬θ.maxFailures ≤ 1 := Nat.not_le.2 hstays
    show none = if θ.maxFailures ≤ 1 then _ else _
    rw [if_neg hmax]
  | some r => rfl

/-- **A lock that runs is prolonged**, if the call is one that keeps the law. -/
theorem next_prolongs (θ : Throttle) {pre : List Nat} {last t lock : Nat} {r : LoginAttemptRow}
    (h : θ.Tracks pre last r) (hlast : last ≤ t) (hstays : θ.Stays t (some r))
    (hlock : r.lockedUntil = some lock) (hrun : t < lock) :
    (θ.next t (some r)).lockedUntil = some (t + θ.lockout) ∧
      lock ≤ t + θ.lockout := by
  have hcount : θ.maxFailures ≤ r.failureCount := by
    by_contra hfew
    have hnone := h.locked
    rw [if_neg hfew, hlock] at hnone
    cases hnone
  have hlast' : lock = last + θ.lockout := by
    have hsome := h.locked
    rw [if_pos hcount, hlock] at hsome
    exact Option.some.inj hsome
  have hnew : θ.maxFailures ≤ (θ.next t (some r)).failureCount := by
    by_cases hexpired : θ.Expired t r
    · have hone : θ.maxFailures = 1 := hstays hexpired ⟨lock, hlock, hrun⟩
      simp [next, countAt, hexpired, hone]
    · simp only [next, countAt, hexpired, if_false]
      omega
  refine ⟨?_, by omega⟩
  rw [θ.next_locked t hstays, if_pos hnew]

/-- **One call.** It keeps the law, and the row says afterwards what it should. -/
theorem Ready.call {θ : Throttle} {pre : List Nat} {t : Nat} {row : Option LoginAttemptRow}
    (h : θ.Ready pre t row) (hstays : θ.Stays t row) :
    θ.Tracks (pre ++ [t]) t (θ.next t row) := by
  have hwindow : θ.windowOf pre = row.map Window.ofRow := by
    rcases h with ⟨rfl, rfl⟩ | ⟨last, r, _, rfl, htracks⟩
    · rfl
    · exact htracks.window
  refine ⟨θ.windowOf_append pre t hwindow, θ.next_locked t hstays, fun now hbefore hnow => ?_⟩
  obtain ⟨earlier, t', hprefix, ⟨w, hw, hmax⟩, hrun⟩ := hbefore
  rcases List.prefix_concat_iff.1 hprefix with hlast | hold
  · -- it is this call that has set the lock
    have ht : t' = t := by
      have := (List.append_inj' hlast rfl).2
      exact List.singleton_inj.1 this
    subst ht
    rw [hlast, θ.windowOf_append pre t' hwindow] at hw
    cases hw
    have hcount : θ.maxFailures ≤ (θ.next t' row).failureCount := hmax
    refine ⟨t' + θ.lockout, ?_, hrun⟩
    rw [θ.next_locked t' hstays, if_pos hcount]
  · -- an earlier lock has been prolonged
    rcases h with ⟨rfl, rfl⟩ | ⟨last, r, hlast, rfl, htracks⟩
    · have hnil := List.prefix_nil.1 hold
      simp at hnil
    · obtain ⟨lock, hlock, hlt⟩ := htracks.earlier now ⟨earlier, t', hold, ⟨w, hw, hmax⟩, hrun⟩
        (Nat.le_trans hlast hnow)
      obtain ⟨hsome, hle⟩ := θ.next_prolongs htracks hlast hstays hlock (by omega)
      exact ⟨_, hsome, by omega⟩

/-- **A call that keeps the law.** -/
theorem Ready.lawful {θ : Throttle} {pre : List Nat} {t : Nat} (hpostgres : postgres.Documented)
    (h : θ.Ready pre t (attempts (θ.calls postgres key s pre) key))
    (hfits : θ.Fits postgres.folds t (attempts (θ.calls postgres key s pre) key))
    (hstays : θ.Stays t (attempts (θ.calls postgres key s pre) key)) :
    θ.Lawful postgres key s pre t := by
  have hrecorded := (recorded_iff hpostgres).2 ⟨hfits, rfl⟩
  have hrow := attempts_calls_append hrecorded
  have htracks := h.call hstays
  obtain ⟨c', hends, _⟩ := record_ends hrecorded
  refine ⟨⟨_, c', hends⟩, ?_, ?_⟩
  · constructor
    · rintro ⟨row, hsome, lock, hlock, _⟩
      rw [hrow] at hsome
      cases hsome
      refine .inl ⟨_, htracks.window, ?_⟩
      by_contra hfew
      have hcount :
          ¬θ.maxFailures ≤ (θ.next t (attempts (θ.calls postgres key s pre) key)).failureCount := hfew
      have hnone := htracks.locked
      rw [if_neg hcount, hlock] at hnone
      cases hnone
    · rintro (⟨w, hw, hmax⟩ | hbefore)
      · rw [htracks.window] at hw
        cases hw
        have hcount : θ.maxFailures ≤ (θ.next t (attempts (θ.calls postgres key s pre) key)).failureCount :=
          hmax
        refine ⟨_, hrow, t + θ.lockout, ?_, ?_⟩
        · rw [htracks.locked, if_pos hcount]
        · have hpos := θ.lockout_pos
          omega
      · obtain ⟨earlier, t', hprefix, hreached⟩ := hbefore
        obtain ⟨lock, hlock, hlt⟩ := htracks.earlier t
          ⟨earlier, t', hprefix.trans (List.prefix_append _ _), hreached⟩ le_rfl
        exact ⟨_, hrow, lock, hlock, hlt⟩
  · intro row lock hsome hlock hrun
    rcases h with ⟨_, hnone⟩ | ⟨last, r, hlast, hr, hold⟩
    · rw [hnone] at hsome
      cases hsome
    · rw [hsome] at hr
      cases hr
      rw [hsome] at hrow hstays
      obtain ⟨hnew, hle⟩ := θ.next_prolongs hold hlast hstays hlock hrun
      exact ⟨_, _, hrow, hnew, hle⟩

/-- **A call that keeps the law** has computed its values, and stays. -/
theorem Lawful.stays {θ : Throttle} {pre : List Nat} {t : Nat} (hpostgres : postgres.Documented)
    (hfirst : attempts (θ.calls postgres key s pre) key = none → pre = [])
    (h : θ.Lawful postgres key s pre t) :
    θ.Fits postgres.folds t (attempts (θ.calls postgres key s pre) key) ∧
      θ.Stays t (attempts (θ.calls postgres key s pre) key) := by
  obtain ⟨r, c', hends⟩ := h.counted
  obtain ⟨row, hrecorded⟩ := recorded_of_ends hends
  have hrow := attempts_calls_append hrecorded
  obtain ⟨hfits, rfl⟩ := (recorded_iff hpostgres).1 hrecorded
  refine ⟨hfits, ?_⟩
  cases hold : attempts (θ.calls postgres key s pre) key with
  | none =>
    have hnil := hfirst hold
    subst hnil
    by_contra hmax
    have hreached : θ.Reached [t] := ⟨⟨t, 1⟩, rfl, Nat.not_lt.1 hmax⟩
    obtain ⟨row, hsome, lock, hlock, _⟩ := h.locked.2 (.inl hreached)
    rw [hrow, hold] at hsome
    cases hsome
    cases hlock
  | some r =>
    rintro hexpired ⟨lock, hlock, hrun⟩
    obtain ⟨row', lock', hsome, hlock', _⟩ := h.kept r lock hold hlock hrun
    rw [hrow, hold] at hsome
    cases hsome
    have hpos := θ.maxFailures_pos
    by_contra hmany
    have hfew : ¬θ.maxFailures ≤ 1 := by omega
    simp [next, countAt, hexpired, hfew] at hlock'

/-- After the calls `pre`, the next call is ready, if all of them fit and stayed. -/
theorem ready_calls (θ : Throttle) (hpostgres : postgres.Documented)
    (hs : attempts s key = none) (pre : List Nat) (t : Nat)
    (hmono : (pre ++ [t]).Pairwise (· ≤ ·))
    (hstays : ∀ pre' t', pre' ++ [t'] <+: pre →
      θ.Fits postgres.folds t' (attempts (θ.calls postgres key s pre') key) ∧
        θ.Stays t' (attempts (θ.calls postgres key s pre') key)) :
    θ.Ready pre t (attempts (θ.calls postgres key s pre) key) := by
  induction pre using List.reverseRecOn generalizing t with
  | nil => exact .inl ⟨rfl, hs⟩
  | append_singleton pre last ih =>
    have hlast : last ≤ t := (List.pairwise_append.1 hmono).2.2 last (by simp) t (by simp)
    have hready := ih last (hmono.sublist (List.sublist_append_left _ _)) fun pre' t' hp =>
      hstays pre' t' (hp.trans (List.prefix_append _ _))
    obtain ⟨hfits, hstay⟩ := hstays pre last List.prefix_rfl
    refine .inr ⟨last, _, hlast, attempts_calls_append ((recorded_iff hpostgres).2 ⟨hfits, rfl⟩), ?_⟩
    exact hready.call hstay

/-- **The login failure state machine.** Calls on one key, at times that do not decrease, lock as
they should (after each call, which returns, the key is locked exactly if the failures of the current
window have reached the limit or an earlier lock still runs, and no call shortens or clears a lock that
runs) if and only if every one of them fits and stays: its intervals, timestamps and count lie in the
ranges of PostgreSQL; the first failure is not already to lock, and no window is restarted while a lock
runs, unless one failure locks. -/
theorem loginFailures_locked (θ : Throttle) (hpostgres : postgres.Documented) (key : String)
    (s : Server Table) (hs : attempts s key = none) (ts : List Nat) (hmono : ts.Pairwise (· ≤ ·)) :
    (∀ pre t, pre ++ [t] <+: ts → θ.Lawful postgres key s pre t) ↔
      ∀ pre t, pre ++ [t] <+: ts →
        θ.Fits postgres.folds t (attempts (θ.calls postgres key s pre) key) ∧
          θ.Stays t (attempts (θ.calls postgres key s pre) key) := by
  constructor
  · intro hlawful pre t hprefix
    refine (hlawful pre t hprefix).stays hpostgres fun hnone => ?_
    induction pre using List.reverseRecOn with
    | nil => rfl
    | append_singleton pre last _ =>
      -- the call before has left a row
      obtain ⟨r, c', hends⟩ := (hlawful pre last ((List.prefix_append _ _).trans hprefix)).counted
      obtain ⟨row, hrecorded⟩ := recorded_of_ends hends
      rw [attempts_calls_append hrecorded] at hnone
      cases hnone
  · intro hstays pre t hprefix
    obtain ⟨hfits, hstay⟩ := hstays pre t hprefix
    refine Ready.lawful hpostgres (θ.ready_calls hpostgres hs pre t (hmono.sublist hprefix.sublist) ?_)
      hfits hstay
    exact fun pre' t' hp => hstays pre' t' (hp.trans ((List.prefix_append _ _).trans hprefix))

/-- Two failures lock for a quarter of an hour. -/
def twoFailures : Throttle := ⟨2, 900, 900, by decide, by decide, by decide⟩

/-- Nothing is out of range in the first microseconds, after a few failures. -/
theorem twoFailures_fits {t : Nat} (ht : t ≤ 7) {row : Option LoginAttemptRow}
    (hrow : ∀ r ∈ row, r.failureCount ≤ 2) : twoFailures.Fits true t row := by
  have hwindow : twoFailures.window = 900000000 := by decide +kernel
  have hlockout : twoFailures.lockout = 900000000 := by decide +kernel
  have hfirst : minTimestamp = -210866803200000000 := rfl
  have hlast : maxTimestamp = 9224318015999999999 := rfl
  refine ⟨fun _ => by omega, fun _ => by omega, fun r hr => ?_, fun r _ _ => by omega⟩
  have hcount := hrow r hr
  exact .inr (by omega)

/-- The first failure does not lock, the second one does, and the third one, which comes while the lock
runs, prolongs it. -/
theorem loginFailures_locked_sample :
    twoFailures.Lawful .documented "account" Sample.server [] 5 ∧
      twoFailures.Lawful .documented "account" Sample.server [5] 6 ∧
      twoFailures.Lawful .documented "account" Sample.server [5, 6] 7 := by
  have hrow₀ : attempts (twoFailures.calls .documented "account" Sample.server []) "account" = none :=
    rfl
  have hrow₁ : attempts (twoFailures.calls .documented "account" Sample.server [5]) "account" =
      some ⟨1, 5, none, 5⟩ := by decide +kernel
  have hrow₂ : attempts (twoFailures.calls .documented "account" Sample.server [5, 6]) "account" =
      some ⟨2, 5, some (6 + 900 * second), 6⟩ := by decide +kernel
  have hlawful := (loginFailures_locked twoFailures Postgres.documented_documented "account"
    Sample.server rfl [5, 6, 7] (by decide)).2 fun pre t hprefix => by
      obtain ⟨rest, hrest⟩ := hprefix
      rcases pre with _ | ⟨first, _ | ⟨next, _ | ⟨third, pre⟩⟩⟩
      · obtain rfl : t = 5 := (List.cons.inj hrest).1
        rw [hrow₀]
        have hstays : twoFailures.Stays 5 none := show 1 < 2 by decide
        exact ⟨twoFailures_fits (by decide) fun r hr => absurd hr (by simp), hstays⟩
      · obtain ⟨rfl, hrest₁⟩ := List.cons.inj hrest
        obtain rfl : t = 6 := (List.cons.inj hrest₁).1
        rw [hrow₁]
        refine ⟨twoFailures_fits (by decide) fun r hr => ?_, fun _ hlock => ?_⟩
        · cases hr
          decide
        · obtain ⟨lock, hlock, _⟩ := hlock
          cases hlock
      · obtain ⟨rfl, hrest₁⟩ := List.cons.inj hrest
        obtain ⟨rfl, hrest₂⟩ := List.cons.inj hrest₁
        obtain rfl : t = 7 := (List.cons.inj hrest₂).1
        rw [hrow₂]
        refine ⟨twoFailures_fits (by decide) fun r hr => ?_, fun hexpired _ => ?_⟩
        · cases hr
          decide
        · -- the window is not over
          have hopen : ¬twoFailures.Expired 7 ⟨2, 5, some (6 + 900 * second), 6⟩ := by
            decide +kernel
          exact absurd hexpired hopen
      · have hlen := congrArg List.length hrest
        simp at hlen
  exact ⟨hlawful [] 5 (by decide), hlawful [5] 6 (by decide), hlawful [5, 6] 7 (by decide)⟩

/-- One failure is to lock, or the window is shorter than the lock, or the lock ends after the last
timestamp of the database. -/
def oneFailure : Throttle := ⟨1, 900, 900, by decide, by decide, by decide⟩

def shortWindow : Throttle := ⟨2, 10, 900, by decide, by decide, by decide⟩

def longestLockout : Throttle := ⟨2, 900, 9223372036854775807, by decide, by decide, by decide⟩

/-- **The key is not locked by the one failure that should lock it; a failure after the window clears a
lock that still runs; and a key is never locked where the lock cannot be computed.** -/
theorem loginFailure_unlocked :
    ¬oneFailure.Lawful .documented "account" Sample.server [] 0 ∧
      ¬shortWindow.Lawful .documented "account" Sample.server [0, 0] (60 * second) ∧
      ¬longestLockout.Lawful .documented "account" Sample.server [0] 0 := by
  refine ⟨fun h => ?_, fun h => ?_, fun h => ?_⟩
  · obtain ⟨row, hrow, lock, hlock, _⟩ := h.locked.2 (.inl ⟨⟨0, 1⟩, rfl, le_rfl⟩)
    have hleft : attempts (oneFailure.calls .documented "account" Sample.server ([] ++ [0]))
        "account" = some ⟨1, 0, none, 0⟩ := by decide +kernel
    rw [hleft] at hrow
    cases hrow
    cases hlock
  · have hrow : attempts (shortWindow.calls .documented "account" Sample.server [0, 0]) "account" =
        some ⟨2, 0, some (900 * second), 0⟩ := by decide +kernel
    have hleft : attempts (shortWindow.calls .documented "account" Sample.server
        ([0, 0] ++ [60 * second])) "account" = some ⟨1, 60 * second, none, 60 * second⟩ := by
      decide +kernel
    obtain ⟨row, lock, hnew, hlock, _⟩ := h.kept _ (900 * second) hrow rfl (by decide)
    rw [hleft] at hnew
    cases hnew
    cases hlock
  · -- the call fails, whatever is stored
    obtain ⟨r, c', hends⟩ := h.counted
    obtain ⟨row, hrecorded⟩ := recorded_of_ends hends
    have hfits := ((recorded_iff Postgres.documented_documented).1 hrecorded).1
    have hlong : ¬longestLockout.lockout < 2 ^ 63 := by decide +kernel
    exact hlong (hfits.planned rfl).2

end Throttle

end ArcAdmin
