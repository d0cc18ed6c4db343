import ArcAdmin.Services.Mfa

/-!
# Login and re-authentication

`login` of `services/auth.rs`, which hands over to the MFA service when a second factor is needed,
and the two services that let a session do sensitive things for a while: `services/step_up.rs` and
`services/module_unlock.rs`.
-/

namespace ArcAdmin.Services

open ReadCommitted

namespace Auth

/-- The first step of a login. A locked key is refused before the password is looked at. An
unknown name, an account that is not active and a wrong password are one failure, and are
counted as one. What a right password leads to is up to `beginLogin`. -/
def login (env : External) (config : AuthSessionConfig) (req : LoginRequest) (clientIp : String) :
    Db LoginOutcome := do
  let username := trim req.username
  let keys := throttleKeys env username clientIp
  let locked ← lockedUntil keys
  match locked with
  | some locked =>
    let now ← utcNow
    .fail (rateLimited locked now)
  | none =>
    let row ← Repositories.Users.findByUsername username
    let passwordHash := row.elim dummyPasswordHash fun user => user.row.passwordHash
    let passwordValid := req.password.length ≤ maxPasswordLength &&
      verifyLoginPassword env req.password passwordHash
    match row.filter fun user => user.row.status == "active" && passwordValid with
    | none =>
      let locked ← recordFailedLogin env config keys (row.map (·.id))
      match locked with
      | some locked =>
        let now ← utcNow
        .fail (rateLimited locked now)
      | none => .fail .unauthorized
    | some user =>
      let response ← Mfa.beginLogin env user req.remember keys
      match response with
      | some response => return .mfaRequired response
      | none =>
        let outcome ← createLoginSession env config req.remember keys user user.asOf none
        return .authenticated outcome

end Auth

namespace StepUp

def passwordChangeScope : String := "auth.password.change"
def usersSensitiveScope : String := "users.sensitive"
def usersRolesScope : String := "users.roles.write"
def usersDeleteScope : String := "users.delete"
def rolesSensitiveScope : String := "roles.sensitive"
def rolesPermissionsScope : String := "roles.permissions.write"
def rolesDeleteScope : String := "roles.delete"
def departmentsWriteScope : String := "departments.write"
def departmentsDeleteScope : String := "departments.delete"

def tokenTtlSecs : Nat := 300

def validScopes : List String :=
  [passwordChangeScope, usersSensitiveScope, usersRolesScope, usersDeleteScope,
    rolesSensitiveScope, rolesPermissionsScope, rolesDeleteScope, departmentsWriteScope,
    departmentsDeleteScope]

def issue (env : External) (sessionId userId : Nat) (req : StepUpRequest) :
    Db StepUpResponse := do
  Prog.reject (!validScopes.contains req.scope) (.validation "无效的再认证操作范围")
  Mfa.verifyReauthentication env userId req.currentPassword req.totpCode
  let now ← utcNow
  let expiresAt := now + tokenTtlSecs * second
  beginTx
  let _ ← Repositories.StepUp.prune
  let id ← Repositories.StepUp.create (fun n => env.tokenHash (env.randomToken n 0)) sessionId
    userId req.scope expiresAt
  Repositories.AuditLogs.record (some userId) "auth.step_up.success" "user" (some userId)
    [("scope", .text req.scope)]
  commitTx
  return { token := env.randomToken id 0, expiresAt }

/-- Use up a token; `header` is the value of the request's `X-Step-Up-Token`. -/
def consume (env : External) (sessionId userId : Nat) (header : Option String) (scope : String) :
    Db Unit := do
  let token ← Prog.okOr (header.filter fun value => byteLen value == 64)
    (.forbidden "需要先完成身份再认证")
  beginTx
  let consumed ← Repositories.StepUp.consume (env.tokenHash token) sessionId userId scope
  Prog.reject (!consumed) (.forbidden "再认证凭据已失效或已使用")
  Repositories.AuditLogs.record (some userId) "auth.step_up.consumed" "user" (some userId)
    [("scope", .text scope)]
  commitTx

end StepUp

namespace ModuleUnlock

def usersModule : String := "users"
def rolesModule : String := "roles"
def unlockTtlSecs : Nat := 300
def validModules : List String := [usersModule, rolesModule]

def validateModule (module' : String) : Db Unit :=
  Prog.reject (!validModules.contains module') (.validation "无效的模块解锁范围")

def status (sessionId userId : Nat) (module' : String) : Db ModuleUnlockStatusResponse := do
  validateModule module'
  let expiresAt ← Repositories.ModuleUnlock.activeExpiresAt sessionId userId module'
  return { module', unlocked := expiresAt.isSome, expiresAt }

def issue (env : External) (sessionId userId : Nat) (req : ModuleUnlockRequest) :
    Db ModuleUnlockStatusResponse := do
  validateModule req.module'
  Mfa.verifyReauthentication env userId req.currentPassword req.totpCode
  let now ← utcNow
  let expiresAt := now + unlockTtlSecs * second
  beginTx
  let _ ← Repositories.ModuleUnlock.prune
  Repositories.ModuleUnlock.upsert sessionId userId req.module' expiresAt
  Repositories.AuditLogs.record (some userId) "auth.module_unlock.issued" "user" (some userId)
    [("module", .text req.module'), ("expiresAt", .number expiresAt)]
  commitTx
  return { module' := req.module', unlocked := true, expiresAt := some expiresAt }

def require (sessionId userId : Nat) (module' : String) : Db Unit := do
  validateModule module'
  let expiresAt ← Repositories.ModuleUnlock.activeExpiresAt sessionId userId module'
  Prog.reject expiresAt.isNone (.forbidden "当前模块需要先完成身份验证")

end ModuleUnlock

end ArcAdmin.Services
