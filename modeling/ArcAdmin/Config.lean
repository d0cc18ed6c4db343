import ArcAdmin.External
import ArcAdmin.MachineInt
import ArcAdmin.Results
import ArcAdmin.Text

/-!
# Configuration

`config.rs`: the values of `AppConfig::from_values` that reach a login, and the one that the
audit archiver reads with a copy of the same function. A value is a number of the environment or
its default; only zero and the negative numbers are refused.
-/

namespace ArcAdmin.Config

open MachineInt

/-- `str::parse` for a signed type of `w ≤ 64` bits. -/
def parseInt (w : Nat) (text : String) : Option Int :=
  (parseI64 text.toList).filter fun n => Fits w n

/-- A positive number of `w` bits from the environment. -/
def positiveInt (w : Nat) (message : String) (value : Option String) (default : Int) :
    Except String Int := do
  let parsed := value.mapM (parseInt w)
  let value ← parsed.elim (.error message) fun value => .ok (value.getD default)
  bailIf (value ≤ 0) message
  return value

def positiveI64 (name : String) (value : Option String) (default : Int) : Except String Int :=
  positiveInt 64 s!"{name} must be a positive integer" value default

def positiveI32 (name : String) (value : Option String) (default : Int) : Except String Int :=
  positiveInt 32 s!"{name} must be a positive integer" value default

/-- The values of `ConfigValues` that the sessions and the login throttle are configured with. -/
structure ConfigValues where
  sessionTtlSecs : Option String
  sessionIdleTimeoutSecs : Option String
  persistentSessionTtlSecs : Option String
  persistentSessionIdleTimeoutSecs : Option String
  maxSessionsPerUser : Option String
  loginMaxFailures : Option String
  loginIpMaxFailures : Option String
  loginAccountIpMaxFailures : Option String
  loginFailureWindowSecs : Option String
  loginLockoutSecs : Option String

def fromValues (values : ConfigValues) : Except String AuthSessionConfig := do
  let sessionTtlSecs ← positiveI64 "SESSION_TTL_SECS" values.sessionTtlSecs 28800
  let sessionIdleTimeoutSecs ←
    positiveI64 "SESSION_IDLE_TIMEOUT_SECS" values.sessionIdleTimeoutSecs 1800
  let persistentSessionTtlSecs ←
    positiveI64 "PERSISTENT_SESSION_TTL_SECS" values.persistentSessionTtlSecs 2592000
  let persistentSessionIdleTimeoutSecs ←
    positiveI64 "PERSISTENT_SESSION_IDLE_TIMEOUT_SECS" values.persistentSessionIdleTimeoutSecs
      604800
  let maxSessionsPerUser ← positiveI64 "MAX_SESSIONS_PER_USER" values.maxSessionsPerUser 10
  let loginMaxFailures ← positiveI32 "LOGIN_MAX_FAILURES" values.loginMaxFailures 5
  let loginIpMaxFailures ← positiveI32 "LOGIN_IP_MAX_FAILURES" values.loginIpMaxFailures 50
  let loginAccountIpMaxFailures ←
    positiveI32 "LOGIN_ACCOUNT_IP_MAX_FAILURES" values.loginAccountIpMaxFailures 5
  let loginFailureWindowSecs ←
    positiveI64 "LOGIN_FAILURE_WINDOW_SECS" values.loginFailureWindowSecs 900
  let loginLockoutSecs ← positiveI64 "LOGIN_LOCKOUT_SECS" values.loginLockoutSecs 900
  bailIf (sessionIdleTimeoutSecs > sessionTtlSecs)
    "SESSION_IDLE_TIMEOUT_SECS cannot exceed SESSION_TTL_SECS"
  bailIf (persistentSessionIdleTimeoutSecs > persistentSessionTtlSecs)
    "PERSISTENT_SESSION_IDLE_TIMEOUT_SECS cannot exceed PERSISTENT_SESSION_TTL_SECS"
  return {
    sessionTtlSecs := sessionTtlSecs.toNat
    sessionIdleTimeoutSecs := sessionIdleTimeoutSecs.toNat
    persistentSessionTtlSecs := persistentSessionTtlSecs.toNat
    persistentSessionIdleTimeoutSecs := persistentSessionIdleTimeoutSecs.toNat
    maxSessionsPerUser := maxSessionsPerUser.toNat
    loginMaxFailures := loginMaxFailures.toNat
    loginIpMaxFailures := loginIpMaxFailures.toNat
    loginAccountIpMaxFailures := loginAccountIpMaxFailures.toNat
    loginFailureWindowSecs := loginFailureWindowSecs.toNat
    loginLockoutSecs := loginLockoutSecs.toNat }

/-- `AUDIT_RETENTION_DAYS` of `bin/archive_audit_logs.rs`. -/
def retentionDays (value : Option String) : Except String Int :=
  positiveInt 64 "AUDIT_RETENTION_DAYS 必须是正整数" value 365

/-! ## What is accepted

Validation looks at the sign only. What follows from that for the arithmetic of the service is the
subject of `ArcAdmin.Proofs.ConfigLimits`.
-/

/-- An accepted value is positive. -/
theorem pos_of_positiveInt {w : Nat} {message : String} {value : Option String} {default n : Int}
    (h : positiveInt w message value default = .ok n) : 0 < n := by
  unfold positiveInt at h
  obtain ⟨m, -, h⟩ := bind_ok.1 h
  obtain ⟨_, hm, h⟩ := bind_ok.1 h
  have hpos := bailIf_ok.1 hm
  rw [decide_eq_false_iff_not] at hpos
  cases h
  omega

/-- **An accepted configuration** keeps sessions alive for a while. -/
theorem pos_of_fromValues {values : ConfigValues} {config : AuthSessionConfig}
    (h : fromValues values = .ok config) :
    0 < config.sessionTtlSecs ∧ 0 < config.persistentSessionTtlSecs := by
  unfold fromValues at h
  obtain ⟨ttl, httl, h⟩ := bind_ok.1 h
  obtain ⟨_, -, h⟩ := bind_ok.1 h
  obtain ⟨persistentTtl, hpersistent, h⟩ := bind_ok.1 h
  obtain ⟨_, -, h⟩ := bind_ok.1 h
  obtain ⟨_, -, h⟩ := bind_ok.1 h
  obtain ⟨_, -, h⟩ := bind_ok.1 h
  obtain ⟨_, -, h⟩ := bind_ok.1 h
  obtain ⟨_, -, h⟩ := bind_ok.1 h
  obtain ⟨_, -, h⟩ := bind_ok.1 h
  obtain ⟨_, -, h⟩ := bind_ok.1 h
  have hpos := pos_of_positiveInt httl
  have hpos' := pos_of_positiveInt hpersistent
  obtain ⟨_, -, h⟩ := bind_ok.1 h
  obtain ⟨_, -, h⟩ := bind_ok.1 h
  cases h
  constructor
  · show 0 < ttl.toNat
    omega
  · show 0 < persistentTtl.toNat
    omega

end ArcAdmin.Config
