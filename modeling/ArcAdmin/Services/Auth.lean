import ArcAdmin.Models
import ArcAdmin.Repositories.AuditLogs

/-!
# Authentication service

`services/auth.rs`: password verification, the session a login opens, throttling, and password
changes. A random token is drawn together with the number of the row that stores its hash, so that
the token of a row is a function of the row's key.
-/

namespace ArcAdmin.Services.Auth

open ReadCommitted

def minPasswordLength : Nat := 12
def maxPasswordLength : Nat := 128
def bootstrapPasswordLength : Nat := 16

def dummyPasswordHash : String :=
  "$argon2id$v=19$m=19456,t=2,p=1$pDDhKh46fVQNqRy3OeXTTw$+5qvGkvmKsilvsRWsskXT4k6fmmE4q35ntz6ME1UNBE"

structure LoginSessionOutcome where
  response : LoginResponse
  sessionToken : String
  csrfToken : String
  persistent : Bool
  ttlSecs : Nat

inductive LoginOutcome where
  | authenticated (outcome : LoginSessionOutcome)
  | mfaRequired (response : LoginResponse)

/-- `LoginThrottleKeys::new`. -/
def throttleKeys (env : External) (username clientIp : String) : LoginContext :=
  let username := toAsciiLowercase username
  { account := env.tokenHash ("account:" ++ username)
    sourceIp := env.tokenHash ("source_ip:" ++ clientIp)
    accountIp := env.tokenHash ("account_ip:" ++ username ++ ":" ++ clientIp) }

/-! ## Passwords

A login verifies against a dummy hash where there is no user, so that it takes as long; the
outcome is the same as for a wrong password.
-/

def validatePassword (password : String) : Db Unit :=
  let length := password.length
  Prog.reject (!(minPasswordLength ≤ length && length ≤ maxPasswordLength))
    (.validation "密码长度需在 12-128 个字符之间")

/-- A hash with a salt of its own. -/
def hashPassword (env : External) (password : String) : Db String := do
  let n ← fresh
  Prog.okOrThrow ((env.hashPassword (env.randomValue n) password).mapError .internal)

/-- A password against the stored hash; a hash that does not parse is an error. -/
def verifyPasswordHash (env : External) (password encodedHash : String) : Db Bool :=
  Prog.okOr (env.verifyPassword password encodedHash) (.internal "invalid stored password hash")

/-- A stored hash that does not parse is a wrong password here. -/
def verifyLoginPassword (env : External) (password encodedHash : String) : Bool :=
  (env.verifyPassword password encodedHash).getD false

/-! ## Sessions

Opening a session and closing one. The limit of sessions is enforced in the transaction that opens
the new one.
-/

/-- The audit record of revoked sessions, if there were any. -/
def recordSessionRevocation (actorUserId : Option Nat) (targetUserId : Nat) (reason : String)
    (revokedSessionCount : Nat) : Db Unit :=
  Prog.whenever (revokedSessionCount != 0) <|
    Repositories.AuditLogs.record actorUserId "auth.session.revoked" "user" (some targetUserId)
      [("reason", .text reason), ("revokedSessionCount", .number revokedSessionCount)]

/-- Open a session for the user row `user`. `checkedAt` is the moment of the password check, and
`completed` the challenge that was completed, if one was needed, with its answer; both are for the
journal only. -/
def createLoginSession (env : External) (config : AuthSessionConfig) (persistent : Bool)
    (keys : LoginContext) (user : Repositories.Users.Found) (checkedAt : Nat)
    (completed : Option (Nat × Factor)) : Db LoginSessionOutcome := do
  let ttlSecs := if persistent then config.persistentSessionTtlSecs else config.sessionTtlSecs
  let idleTimeoutSecs :=
    if persistent then config.persistentSessionIdleTimeoutSecs else config.sessionIdleTimeoutSecs
  -- the deadline is counted from here, before the transaction begins
  let now ← utcNow
  let expiresAt := now + ttlSecs * second
  beginTx
  Repositories.Users.updateLastLogin user.id
  Repositories.AuthSessions.clearLoginFailures keys.account
  Repositories.AuthSessions.clearLoginFailures keys.accountIp
  let sessionId ← Repositories.AuthSessions.create
    { userId := user.id
      sessionTokenHash := fun n => env.tokenHash (env.randomToken n 0)
      csrfTokenHash := fun n => env.tokenHash (env.randomToken n 1)
      tokenVersion := user.row.tokenVersion
      idleTimeoutSecs, persistent, expiresAt, checkedAt
      readAt := user.asOf
      completed }
  -- the oldest sessions beyond the limit make room for this one
  let revoked ← Repositories.AuthSessions.enforceUserLimit user.id config.maxSessionsPerUser
  recordSessionRevocation (some user.id) user.id "session_limit" revoked
  let _ ← Repositories.AuthSessions.prune
  Repositories.AuditLogs.record (some user.id) "auth.login.success" "auth_session"
    (some sessionId)
    [("persistent", .bool persistent), ("expiresAt", .number expiresAt),
      ("revokedBySessionLimit", .number revoked),
      ("sourceIpFingerprint", .text (takePrefix keys.sourceIp 12))]
  commitTx
  let roles ← Repositories.Users.roleNamesByUser user.id
  return {
    response :=
      { status := .authenticated
        expiresAt := some expiresAt
        user := some (userResponse user.id user.row roles)
        challengeToken := none
        methods := []
        totpSecret := none
        totpUri := none
        totpQrCode := none
        recoveryCodes := [] }
    sessionToken := env.randomToken sessionId 0
    csrfToken := env.randomToken sessionId 1
    persistent, ttlSecs }

/-- The session is revoked if it is one of the user, and the audit log says so in either case. -/
def logout (userId sessionId : Nat) : Db Unit := do
  beginTx
  let revoked ← Repositories.AuthSessions.revoke sessionId userId
  recordSessionRevocation (some userId) userId "logout" revoked.toNat
  Repositories.AuditLogs.record (some userId) "auth.logout" "auth_session" (some sessionId) []
  commitTx

/-! ## Throttling

Each failed login is counted under three keys. The lock that ends last decides.
-/

/-- The later of two optional times. -/
def later (a b : Option Nat) : Option Nat :=
  match a, b with
  | some a, some b => some (max a b)
  | some a, none => some a
  | none, b => b

/-- When the login is unlocked again, if one of its three keys is locked now. -/
def lockedUntil (keys : LoginContext) : Db (Option Nat) := do
  let account ← Repositories.AuthSessions.lockedUntil keys.account
  let sourceIp ← Repositories.AuthSessions.lockedUntil keys.sourceIp
  let accountIp ← Repositories.AuthSessions.lockedUntil keys.accountIp
  return later (later account sourceIp) accountIp

/-- One failed login: it is counted under the three keys, with a limit for each, and the audit
record tells which of them are locked now. The keys are told by their first characters only. -/
def recordFailedLogin (env : External) (config : AuthSessionConfig) (keys : LoginContext)
    (userId : Option Nat) : Db (Option Nat) := do
  beginTx
  let record key maxFailures := Repositories.AuthSessions.recordLoginFailure env.postgres key
    maxFailures config.loginFailureWindowSecs config.loginLockoutSecs
  let account ← record keys.account config.loginMaxFailures
  let sourceIp ← record keys.sourceIp config.loginIpMaxFailures
  let accountIp ← record keys.accountIp config.loginAccountIpMaxFailures
  let lockedUntil := later (later account sourceIp) accountIp
  let lockedDimensions := (account.map fun _ => "account").toList ++
    (sourceIp.map fun _ => "source_ip").toList ++ (accountIp.map fun _ => "account_ip").toList
  Repositories.AuditLogs.record none "auth.login.failure" "user" userId
    [("identifierFingerprint", .text (takePrefix keys.account 12)),
      ("sourceIpFingerprint", .text (takePrefix keys.sourceIp 12)),
      ("locked", .bool lockedUntil.isSome), ("lockedDimensions", .texts lockedDimensions)]
  commitTx
  return lockedUntil

/-- The error of a locked login: how many seconds are left, at least one. -/
def rateLimited (lockedUntil now : Nat) : ApiError :=
  .rateLimited (max ((lockedUntil - now) / second) 1)

/-! ## The account itself

What a user may do to the own account, and the first administrator.
-/

/-- The account of the session with the names of its active roles. -/
def me (userId : Nat) : Db UserResponse := do
  let row ← Repositories.Users.findById userId
  let row ← Prog.okOr row (.notFound "用户不存在")
  let roles ← Repositories.Users.roleNamesByUser userId
  return userResponse row.id row.row roles

/-- The password of the session's own account. -/
def verifyCurrentPassword (env : External) (userId : Nat) (password : String) : Db Unit := do
  let row ← Repositories.Users.findById userId
  let row ← Prog.okOr row .unauthorized
  let passwordMatches ← verifyPasswordHash env password row.row.passwordHash
  Prog.reject (!passwordMatches) (.validation "当前密码不正确")

/-- A new password for the own account, which ends all sessions of it, the present one included. -/
def changePassword (env : External) (userId : Nat) (req : ChangePasswordRequest) : Db Unit := do
  Prog.reject (isEmpty req.currentPassword) (.validation "当前密码不能为空")
  validatePassword req.newPassword
  Prog.reject (req.currentPassword == req.newPassword) (.validation "新密码不能与当前密码相同")
  verifyCurrentPassword env userId req.currentPassword
  let passwordHash ← hashPassword env req.newPassword
  beginTx
  let row ← Repositories.Users.updatePassword userId passwordHash
  Prog.reject row.isNone .unauthorized
  let revoked ← Repositories.AuthSessions.revokeAllForUser userId
  recordSessionRevocation (some userId) userId "password_change" revoked.count
  Repositories.AuditLogs.record (some userId) "user.password.change" "user" (some userId)
    [("revokedExistingSessions", .bool true), ("revokedSessionCount", .number revoked.count)]
  commitTx

/-- `organizations::default_assignment`. -/
def defaultAssignment : Db (Nat × Option Nat) := do
  let s ← poolQuery
  let organization := (s.store.rows .organizations).find? fun e =>
    e.2.code == "default" && e.2.status == "active"
  let organization ← Prog.okOr organization (dbError .rowNotFound)
  let department := (s.store.rows .departments).find? fun e =>
    e.2.organizationId == organization.1 && e.2.code == "root" && e.2.status == "active"
  return (organization.1, department.map (·.1))

/-- The account of the first administrator: the existing one reactivated, or a new one. -/
def bootstrapAccount (existing : Option Repositories.Users.Found)
    (user : Repositories.Users.NewUser) : Db (Nat × UserRow) :=
  match existing with
  | some existing => do
    let row ← Repositories.Users.activateBootstrapAccount existing.id user.passwordHash
      user.displayName user.email
    return (existing.id, row)
  | none => do
    let found ← Repositories.Users.create user
    return (found.id, found.row)

/-- The command line tool that creates or reactivates the first administrator. -/
def bootstrapSuperAdmin (env : External) (username password displayName : String)
    (email : Option String) : Db UserResponse := do
  let username := trim username
  Prog.reject (!(3 ≤ byteLen username && byteLen username ≤ 64) ||
      !username.toList.all fun c => isAsciiAlphanumeric c || c == '_' || c == '-')
    (.validation "管理员用户名需为 3-64 位字母、数字、下划线或连字符")
  validatePassword password
  Prog.reject (password.length < bootstrapPasswordLength)
    (.validation "引导管理员密码不能少于 16 位")
  let displayName := trim displayName
  Prog.reject (isEmpty displayName || byteLen displayName > 128)
    (.validation "显示名称长度需在 1-128 个字符之间")
  let roleId ← Repositories.Roles.idByCode "super_admin"
  let roleId ← Prog.okOr roleId (.internal "缺少内置超级管理员角色")
  let existing ← Repositories.Users.findByUsername username
  let (organizationId, departmentId) ← defaultAssignment
  let passwordHash ← hashPassword env password
  beginTx
  let (id, row) ← bootstrapAccount existing
    { username, passwordHash, displayName, email
      status := "active"
      organizationId, departmentId }
  let _ ← Repositories.Users.assignRoles id [roleId]
  let revoked ← Repositories.AuthSessions.revokeAllForUser id
  recordSessionRevocation none id "bootstrap_reactivation" revoked.count
  Repositories.AuditLogs.record none "user.bootstrap_super_admin" "user" (some id)
    [("username", .text username), ("roleId", .number roleId)]
  commitTx
  let roles ← Repositories.Users.roleNamesByUser id
  return userResponse id row roles

end ArcAdmin.Services.Auth
