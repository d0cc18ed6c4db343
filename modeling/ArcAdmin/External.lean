import ArcAdmin.Postgres
import ArcAdmin.Text

/-!
# Code outside the repository

The functions that the service takes from other crates: SHA-256, Argon2, AES-GCM, TOTP and
WebAuthn, the random source of the operating system, and the arithmetic of the database. They are
parameters of the model.

A random value is the value `draw` of a number that the database has never handed out before, so
that every value is drawn once.
-/

namespace ArcAdmin

/-- What WebAuthn reports about a passkey that has answered a challenge. -/
structure PasskeyResult where
  credentialId : String
  needsUpdate : Bool
deriving DecidableEq, Repr

structure External where
  /-- `hex(Sha256::digest(token))`. -/
  tokenHash : String → String
  /-- The `i`-th 32-byte token drawn for the number `n`. -/
  randomToken : Nat → Nat → String
  /-- The salt, nonce, secret or identifier drawn as number `n`. -/
  randomValue : Nat → String
  /-- `Argon2::default().hash_password_with_salt`. -/
  hashPassword : String → String → Except String String
  /-- Whether the password matches the encoded hash; `none` if the hash does not parse. -/
  verifyPassword : String → String → Option Bool
  /-- The bounded Argon2 profile of recovery codes. -/
  hashRecoveryCode : String → String → Except String String
  encryptTotpSecret : Nat → String → String → Option String
  decryptTotpSecret : Nat → String → Option String
  base64Encode : String → String
  base64Decode : String → Option String
  /-- `Totp::check_current` for the account, secret and code at a time: the matched time step.
  The outer `none` is a failing configuration. -/
  checkCurrent : String → String → String → Nat → Option (Option Nat)
  /-- The secret in base 32, the provisioning URI and the QR code. -/
  totpProvisioning : String → String → Option (String × String × String)
  startPasskeyAuthentication : List String → Nat → Option (String × String)
  finishPasskeyAuthentication : String → String → Option PasskeyResult
  credentialId : String → String
  updateCredential : String → PasskeyResult → String
  startPasskeyRegistration : String → String → String → List String → Nat → Option (String × String)
  parseRegistration : String → Option String
  finishPasskeyRegistration : String → String → Option String
  /-- The interval and timestamp arithmetic of the database. -/
  postgres : Postgres

/-- What the listing queries take from outside: the text comparisons of the database, and the trace
ids that the telemetry layer gave the audit records. -/
structure Sql where
  /-- `text ILIKE pattern`. -/
  ilike : String → String → Bool
  /-- `a <= b` under the collation of the database. -/
  collate : String → String → Bool
  /-- The column `trace_id` of the audit record under a key, which never changes. -/
  traceId : Nat → Option String

/-- A collation orders all texts. -/
structure Sql.Lawful (sql : Sql) : Prop where
  total : ∀ a b, sql.collate a b = true ∨ sql.collate b a = true
  trans : ∀ a b c, sql.collate a b = true → sql.collate b c = true → sql.collate a c = true

structure AuthSessionConfig where
  sessionTtlSecs : Nat
  sessionIdleTimeoutSecs : Nat
  persistentSessionTtlSecs : Nat
  persistentSessionIdleTimeoutSecs : Nat
  maxSessionsPerUser : Nat
  loginMaxFailures : Nat
  loginIpMaxFailures : Nat
  loginAccountIpMaxFailures : Nat
  loginFailureWindowSecs : Nat
  loginLockoutSecs : Nat

end ArcAdmin
