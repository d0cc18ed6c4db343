import ArcAdmin.Config
import ArcAdmin.Services.AuditLogs
import Mathlib.Tactic.NormNum

/-!
# The limits of configured times

A time limit may be any positive `i64`; `chrono` and PostgreSQL hold far smaller ones. What a login
and the archiver compute from a configuration is a point in time that can lie outside of what the
library or the database can hold: then the login panics, or its query fails.

* **`Chrono.Documented`**, **`Postgres.Documented`** — the ranges of the two;
* **`loginSound_iff`** — the date arithmetic of a login succeeds if and only if each point in time
  that it computes lies in range;
* **`archiverSound_iff`** — the same for the cutoff of the archiver.
-/

namespace ArcAdmin.ConfigLimits

open MachineInt
open Services.AuditLogs (minTimestampMicros maxTimestampMicros)

/-! ## Dates outside

The ranges of `chrono`, in nanoseconds; those of PostgreSQL are in `ArcAdmin.Postgres`.
-/

/-- What the code uses of `chrono`: durations, and points in time since the Unix epoch, both in
nanoseconds. `none` is a panic. -/
structure Chrono where
  /-- `Duration::seconds` -/
  seconds : Int → Option Int
  /-- `Duration::days` -/
  days : Int → Option Int
  /-- `DateTime<Utc> + Duration` -/
  add : Int → Int → Option Int
  /-- `DateTime<Utc> - Duration` -/
  sub : Int → Int → Option Int

def nanosPerSecond : Int := 1000000000

def secondsPerDay : Int := 86400

/-- A duration is at most `i64::MAX` milliseconds long. -/
def maxSeconds : Int := (2 ^ 63 - 1) / 1000

/-- `DateTime::<Utc>::MIN_UTC`. -/
def minUtc : Int := minTimestampMicros * 1000

/-- `DateTime::<Utc>::MAX_UTC`. -/
def maxUtc : Int := maxTimestampMicros * 1000 + 999

/-- The ranges that `chrono` documents. -/
structure Chrono.Documented (chrono : Chrono) : Prop where
  seconds n :
    chrono.seconds n = (inRange (-maxSeconds) maxSeconds n).map fun n => n * nanosPerSecond
  days n :
    chrono.days n =
      (inRange (-maxSeconds) maxSeconds (n * secondsPerDay)).map fun n => n * nanosPerSecond
  add time duration : chrono.add time duration = inRange minUtc maxUtc (time + duration)
  sub time duration : chrono.sub time duration = inRange minUtc maxUtc (time - duration)

/-- The ranges of `chrono`, as a library. -/
def Chrono.documented : Chrono where
  seconds n := (inRange (-maxSeconds) maxSeconds n).map fun n => n * nanosPerSecond
  days n := (inRange (-maxSeconds) maxSeconds (n * secondsPerDay)).map fun n => n * nanosPerSecond
  add time duration := inRange minUtc maxUtc (time + duration)
  sub time duration := inRange minUtc maxUtc (time - duration)

theorem Chrono.documented_documented : Chrono.documented.Documented :=
  ⟨fun _ => rfl, fun _ => rfl, fun _ _ => rfl, fun _ _ => rfl⟩

/-! ## What the code computes

The four points in time, as the code computes them from the configuration and the present.
-/

/-- `Utc::now() + Duration::seconds(ttl_secs)` of `create_login_session`. -/
def expiresAt (chrono : Chrono) (config : AuthSessionConfig) (persistent : Bool) (now : Int) :
    Option Int := do
  let ttlSecs := if persistent then config.persistentSessionTtlSecs else config.sessionTtlSecs
  let duration ← chrono.seconds ttlSecs
  chrono.add now duration

/-- `now() - $2::double precision * interval '1 second'` of `record_login_failure`. -/
def windowStart (postgres : Postgres) (config : AuthSessionConfig) (now : Int) : Option Int :=
  Repositories.AuthSessions.windowStart postgres now config.loginFailureWindowSecs

/-- `now() + $4::double precision * interval '1 second'` of `record_login_failure`. -/
def lockedUntil (postgres : Postgres) (config : AuthSessionConfig) (now : Int) : Option Int :=
  Repositories.AuthSessions.lockEnd postgres now config.loginLockoutSecs

/-- `Utc::now() - Duration::days(retention_days)` of the archiver, and the parameter of its queries
that it becomes. -/
def cutoff (chrono : Chrono) (postgres : Postgres) (retentionDays now : Int) : Option Int := do
  let duration ← chrono.days retentionDays
  let cutoff ← chrono.sub now duration
  postgres.timestamp (cutoff / 1000)

/-- Everything that a login computes from the configuration: `now` is the time of the service and
`dbNow` the time of the database. -/
structure LoginSound (chrono : Chrono) (postgres : Postgres) (config : AuthSessionConfig)
    (now dbNow : Int) : Prop where
  expiry : ∀ persistent, ∃ t, expiresAt chrono config persistent now = some t ∧ now < t
  window : ∃ t, windowStart postgres config dbNow = some t
  lockout : ∃ t, lockedUntil postgres config dbNow = some t

def ArchiverSound (chrono : Chrono) (postgres : Postgres) (retentionDays now : Int) : Prop :=
  ∃ t, cutoff chrono postgres retentionDays now = some t

/-! ## When it is in range

Each of them as an inequality between exact numbers, without the arithmetic of the libraries.
-/

/-- The points in time that a login computes lie in range. -/
structure LoginFits (config : AuthSessionConfig) (now dbNow : Int) : Prop where
  session : now + config.sessionTtlSecs * nanosPerSecond ≤ maxUtc
  persistentSession : now + config.persistentSessionTtlSecs * nanosPerSecond ≤ maxUtc
  windowSpan : (intervalMicros config.loginFailureWindowSecs : Int) < 2 ^ 63
  window : minTimestamp ≤ dbNow - intervalMicros config.loginFailureWindowSecs
  lockoutSpan : (intervalMicros config.loginLockoutSecs : Int) < 2 ^ 63
  lockout : dbNow + intervalMicros config.loginLockoutSecs ≤ maxTimestamp

/-- The cutoff does not lie before 4713 BC. -/
def RetentionFits (retentionDays now : Int) : Prop :=
  minTimestamp * 1000 ≤ now - retentionDays * secondsPerDay * nanosPerSecond

section

variable {chrono : Chrono} {postgres : Postgres} {config : AuthSessionConfig} {now dbNow : Int}

/-- **A session expires** at a time that `chrono` can hold, or the login panics. -/
theorem expiresAt_iff (hchrono : chrono.Documented) (hnow : 0 ≤ now) {secs : Nat} (hsecs : 0 < secs) :
    (∃ t, ((chrono.seconds secs).bind fun duration => chrono.add now duration) = some t ∧ now < t) ↔
      now + secs * nanosPerSecond ≤ maxUtc := by
  have hmax : maxUtc = 8210266876799999999999 := by decide
  have hmin : minUtc = -8334601228800000000000 := by decide
  have hsec : maxSeconds = 9223372036854775 := by decide
  have hnanos : nanosPerSecond = 1000000000 := rfl
  simp only [hchrono.seconds, hchrono.add, Option.bind_eq_some_iff, Option.map_eq_some_iff,
    inRange_eq_some, hmax, hmin, hsec, hnanos]
  constructor
  · rintro ⟨t, ⟨d, ⟨_, ⟨-, rfl⟩, rfl⟩, ⟨-, hle⟩, -⟩, -⟩
    exact hle
  · intro hle
    refine ⟨now + secs * 1000000000,
      ⟨_, ⟨secs, ⟨⟨?_, ?_⟩, rfl⟩, rfl⟩, ⟨?_, hle⟩, rfl⟩, ?_⟩ <;> omega

theorem windowStart_iff (config : AuthSessionConfig) (hpostgres : postgres.Documented) (hnow : dbNow ≤ maxTimestamp) :
    (∃ t, windowStart postgres config dbNow = some t) ↔
      (intervalMicros config.loginFailureWindowSecs : Int) < 2 ^ 63 ∧
        minTimestamp ≤ dbNow - intervalMicros config.loginFailureWindowSecs := by
  unfold windowStart Repositories.AuthSessions.windowStart
  generalize config.loginFailureWindowSecs = secs
  simp only [Option.bind_eq_bind, hpostgres.seconds, hpostgres.sub, Option.bind_eq_some_iff,
    inRange_eq_some]
  constructor
  · rintro ⟨t, span, ⟨⟨-, hspan⟩, rfl⟩, ⟨hle, -⟩, -⟩
    exact ⟨by omega, hle⟩
  · rintro ⟨hspan, hle⟩
    exact ⟨_, _, ⟨⟨by omega, by omega⟩, rfl⟩, ⟨hle, by omega⟩, rfl⟩

theorem lockedUntil_iff (config : AuthSessionConfig) (hpostgres : postgres.Documented) (hnow : minTimestamp ≤ dbNow) :
    (∃ t, lockedUntil postgres config dbNow = some t) ↔
      (intervalMicros config.loginLockoutSecs : Int) < 2 ^ 63 ∧
        dbNow + intervalMicros config.loginLockoutSecs ≤ maxTimestamp := by
  unfold lockedUntil Repositories.AuthSessions.lockEnd
  generalize config.loginLockoutSecs = secs
  simp only [Option.bind_eq_bind, hpostgres.seconds, hpostgres.add, Option.bind_eq_some_iff,
    inRange_eq_some]
  constructor
  · rintro ⟨t, span, ⟨⟨-, hspan⟩, rfl⟩, ⟨-, hle⟩, -⟩
    exact ⟨by omega, hle⟩
  · rintro ⟨hspan, hle⟩
    exact ⟨_, _, ⟨⟨by omega, by omega⟩, rfl⟩, ⟨by omega, hle⟩, rfl⟩

/-- **The date arithmetic of a login** succeeds if and only if each point in time that it computes
lies in range. -/
theorem loginSound_iff (hchrono : chrono.Documented) (hpostgres : postgres.Documented)
    (hnow : 0 ≤ now) (hlow : minTimestamp ≤ dbNow) (hhigh : dbNow ≤ maxTimestamp)
    (hsession : 0 < config.sessionTtlSecs) (hpersistent : 0 < config.persistentSessionTtlSecs) :
    LoginSound chrono postgres config now dbNow ↔ LoginFits config now dbNow := by
  have hexpiry := expiresAt_iff hchrono hnow hsession
  have hexpiry' := expiresAt_iff hchrono hnow hpersistent
  have hwindow := windowStart_iff config hpostgres hhigh
  have hlockout := lockedUntil_iff config hpostgres hlow
  constructor
  · intro h
    have hw := hwindow.1 h.window
    have hl := hlockout.1 h.lockout
    exact ⟨hexpiry.1 (h.expiry false), hexpiry'.1 (h.expiry true), hw.1, hw.2, hl.1, hl.2⟩
  · intro h
    refine ⟨fun persistent => ?_, hwindow.2 ⟨h.windowSpan, h.window⟩,
      hlockout.2 ⟨h.lockoutSpan, h.lockout⟩⟩
    cases persistent with
    | false => exact hexpiry.2 h.session
    | true => exact hexpiry'.2 h.persistentSession

/-- **The cutoff of the archiver** is a timestamp of the database if and only if it does not lie
before 4713 BC. -/
theorem archiverSound_iff (hchrono : chrono.Documented) (hpostgres : postgres.Documented)
    (hlow : 0 ≤ now) (hhigh : now ≤ maxUtc) {retentionDays : Int} (hpos : 0 < retentionDays) :
    ArchiverSound chrono postgres retentionDays now ↔ RetentionFits retentionDays now := by
  have hmax : maxUtc = 8210266876799999999999 := by decide
  have hmin : minUtc = -8334601228800000000000 := by decide
  have hsec : maxSeconds = 9223372036854775 := by decide
  have hfirst : minTimestamp = -210866803200000000 := rfl
  have hlast : maxTimestamp = 9224318015999999999 := rfl
  have hnanos : nanosPerSecond = 1000000000 := rfl
  have hday : secondsPerDay = 86400 := rfl
  unfold ArchiverSound RetentionFits cutoff
  simp only [Option.bind_eq_bind, hchrono.days, hchrono.sub, hpostgres.timestamp,
    Option.bind_eq_some_iff, Option.map_eq_some_iff, inRange_eq_some, hmax, hmin, hsec, hfirst, hlast,
    hnanos, hday]
  rw [hmax] at hhigh
  constructor
  · rintro ⟨t, d, ⟨_, ⟨-, rfl⟩, rfl⟩, c, ⟨-, rfl⟩, ⟨hle, -⟩, -⟩
    omega
  · intro hle
    refine ⟨_, _, ⟨_, ⟨⟨?_, ?_⟩, rfl⟩, rfl⟩, _, ⟨⟨?_, ?_⟩, rfl⟩, ⟨?_, ?_⟩, rfl⟩ <;> omega

end

/-! ## Moderate times

A bound that is easy to check, and far above what anybody configures.
-/

/-- **Times of up to 6,000 years** are safe until the year 256,000. -/
theorem loginFits_of_le {config : AuthSessionConfig} {now dbNow : Int} {bound : Nat}
    (hbound : bound ≤ 200000000000) (hsession : config.sessionTtlSecs ≤ bound)
    (hpersistent : config.persistentSessionTtlSecs ≤ bound)
    (hwindow : config.loginFailureWindowSecs ≤ bound) (hlockout : config.loginLockoutSecs ≤ bound)
    (hnow : now ≤ 8000000000000 * nanosPerSecond) (hlow : 0 ≤ dbNow)
    (hhigh : dbNow ≤ 8000000000000000000) : LoginFits config now dbNow := by
  have hmax : maxUtc = 8210266876799999999999 := by decide
  have hfirst : minTimestamp = -210866803200000000 := rfl
  have hlast : maxTimestamp = 9224318015999999999 := rfl
  have hnanos : nanosPerSecond = 1000000000 := rfl
  have hsecond : second = 1000000 := rfl
  have hspan : intervalMicros config.loginFailureWindowSecs =
      config.loginFailureWindowSecs * second := intervalMicros_eq (by omega)
  have hspan' : intervalMicros config.loginLockoutSecs = config.loginLockoutSecs * second :=
    intervalMicros_eq (by omega)
  rw [hnanos] at hnow
  constructor
  · rw [hmax, hnanos]
    omega
  · rw [hmax, hnanos]
    omega
  · rw [hspan, hsecond]
    omega
  · rw [hspan, hsecond]
    omega
  · rw [hspan', hsecond]
    omega
  · rw [hspan', hsecond]
    omega

/-! ## Accepted configurations

What validation accepts is far more than what the arithmetic can hold.
-/

/-- **Accepted configurations**: the date arithmetic of logins and of the archiver succeeds if and
only if each point in time that it computes lies in the range of the library, or of the database,
that has to hold it. -/
theorem acceptedConfig {values : Config.ConfigValues} {config : AuthSessionConfig}
    (hconfig : Config.fromValues values = .ok config) {retention : Option String} {days : Int}
    (hdays : Config.retentionDays retention = .ok days) {chrono : Chrono} {postgres : Postgres}
    (hchrono : chrono.Documented) (hpostgres : postgres.Documented) {now dbNow : Int}
    (hnow : 0 ≤ now ∧ now ≤ maxUtc) (hdb : minTimestamp ≤ dbNow ∧ dbNow ≤ maxTimestamp) :
    (LoginSound chrono postgres config now dbNow ∧ ArchiverSound chrono postgres days now) ↔
      LoginFits config now dbNow ∧ RetentionFits days now := by
  have hpos := Config.pos_of_fromValues hconfig
  have hretention := Config.pos_of_positiveInt hdays
  exact and_congr (loginSound_iff hchrono hpostgres hnow.1 hdb.1 hdb.2 hpos.1 hpos.2)
    (archiverSound_iff hchrono hpostgres hnow.1 hnow.2 hretention)

/-- No value is set. -/
def noValues : Config.ConfigValues where
  sessionTtlSecs := none
  sessionIdleTimeoutSecs := none
  persistentSessionTtlSecs := none
  persistentSessionIdleTimeoutSecs := none
  maxSessionsPerUser := none
  loginMaxFailures := none
  loginIpMaxFailures := none
  loginAccountIpMaxFailures := none
  loginFailureWindowSecs := none
  loginLockoutSecs := none

/-- The default configuration. -/
def defaults : AuthSessionConfig where
  sessionTtlSecs := 28800
  sessionIdleTimeoutSecs := 1800
  persistentSessionTtlSecs := 2592000
  persistentSessionIdleTimeoutSecs := 604800
  maxSessionsPerUser := 10
  loginMaxFailures := 5
  loginIpMaxFailures := 50
  loginAccountIpMaxFailures := 5
  loginFailureWindowSecs := 900
  loginLockoutSecs := 900

/-- **The defaults** are safe: here in September 2026. -/
theorem acceptedConfig_defaults :
    LoginSound .documented .documented defaults 1790000000000000000 1790000000000000 ∧
      ArchiverSound .documented .documented 365 1790000000000000000 :=
  (acceptedConfig (show Config.fromValues noValues = .ok defaults from rfl)
    (show Config.retentionDays none = .ok 365 from rfl) Chrono.documented_documented
    Postgres.documented_documented (by decide) (by decide)).2
    ⟨loginFits_of_le (show 2592000 ≤ 200000000000 by decide) (by decide) (by decide) (by decide)
      (by decide) (by decide) (by decide) (by decide), by unfold RetentionFits; decide⟩

/-- `SESSION_TTL_SECS=9223372036854775807`. -/
def greatestTtl : Config.ConfigValues :=
  { noValues with sessionTtlSecs := some "9223372036854775807" }

/-- **The greatest lifetime** is accepted, and every login that asks for no persistent session
panics, at any time; so does the archiver with the greatest retention. -/
theorem greatestTtl_panics :
    ∃ config, Config.fromValues greatestTtl = .ok config ∧
      (∀ now dbNow, expiresAt .documented config false now = none ∧
        ¬ LoginSound .documented .documented config now dbNow) ∧
      Config.retentionDays (some "9223372036854775807") = .ok (2 ^ 63 - 1) ∧
      ∀ now, cutoff .documented .documented (2 ^ 63 - 1) now = none := by
  have hpanics : ∀ now,
      expiresAt .documented { defaults with sessionTtlSecs := 2 ^ 63 - 1 } false now = none := by
    intro now
    have : Chrono.documented.seconds ((2 ^ 63 - 1 : Nat) : Int) = none := by decide
    unfold expiresAt
    simp only [Bool.false_eq_true, if_false]
    rw [this]
    rfl
  have haccepted : Config.fromValues greatestTtl =
      .ok { defaults with sessionTtlSecs := 2 ^ 63 - 1 } := by
    have hparse : Config.positiveI64 "SESSION_TTL_SECS" greatestTtl.sessionTtlSecs 28800 =
        .ok (2 ^ 63 - 1) := by decide +kernel
    unfold Config.fromValues
    rw [hparse]
    rfl
  refine ⟨_, haccepted, fun now dbNow => ?_, by decide +kernel, fun now => ?_⟩
  · refine ⟨hpanics now, fun hsound => ?_⟩
    obtain ⟨t, ht, -⟩ := hsound.expiry false
    rw [hpanics now] at ht
    cases ht
  · have : Chrono.documented.days (2 ^ 63 - 1) = none := by decide
    unfold cutoff
    rw [this]
    rfl

end ArcAdmin.ConfigLimits
