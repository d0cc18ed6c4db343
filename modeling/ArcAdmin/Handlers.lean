import ArcAdmin.SessionAuth
import ArcAdmin.Services.Users
import ArcAdmin.Services.Roles

/-!
# Handlers

`handlers/auth.rs`, `handlers/users.rs`, `handlers/roles.rs` and `handlers/departments.rs`: each
authenticates the request, checks permissions and re-authentication, and calls its service.

What is left out only reads, once it is authenticated: the listings of users, roles, permissions,
departments and audit records, the statistics of users, and the requests for one user or one department.
Their queries are in `ArcAdmin.Repositories`.
-/

namespace ArcAdmin.Handlers

open ReadCommitted SessionAuth

def userRead : String := "user:directory:read"
def userWrite : String := "user:write"
def userRoleWrite : String := "user:roles:write"
def userDeactivate : String := "user:admin:deactivate"
def roleRead : String := "role:directory:read"
def roleWrite : String := "role:write"
def rolePermissionWrite : String := "role:permissions:write"
def departmentRead : String := "organization:department:read"
def departmentWrite : String := "organization:department:write"
def superAdminGrant : String := "user:super_admin:grant"
def resetPassword : String := "user:admin:reset_password"

/-- Use up the step-up token of the request. -/
def stepUp (env : External) (actor : ActorContext) (parts : Parts) (scope : String) : Db Unit :=
  Services.StepUp.consume env actor.sessionId actor.userId parts.stepUpHeader scope

/-- Sensitive requests use up a step-up token, the others need their module unlocked. -/
def stepUpOrUnlock (env : External) (actor : ActorContext) (parts : Parts) (sensitive : Bool)
    (scope module' : String) : Db Unit :=
  if sensitive then stepUp env actor parts scope
  else Services.ModuleUnlock.require actor.sessionId actor.userId module'

/-! ## Authentication and MFA

The login requests come without a session; the second step of a login presents the challenge token
instead. All others authenticate first.
-/

namespace Auth

/-- A session outcome as a response: the two cookies and the body. -/
def setLoginResponse (outcome : Services.Auth.LoginSessionOutcome) : Reply :=
  .authenticated outcome.sessionToken outcome.csrfToken outcome.response

def login (env : External) (config : AuthSessionConfig) (req : LoginRequest) (clientIp : String) :
    Db Reply := do
  let outcome ← Services.Auth.login env config req clientIp
  match outcome with
  | .authenticated outcome => return setLoginResponse outcome
  | .mfaRequired response => return .mfaRequired response

def logout (env : External) (parts : Parts) : Db Reply := do
  let actor ← authenticate env parts
  Services.Auth.logout actor.userId actor.sessionId
  return .noContent

def me (env : External) (parts : Parts) : Db Reply := do
  let actor ← authenticate env parts
  let user ← Services.Auth.me actor.userId
  return .user user

def changePassword (env : External) (parts : Parts) (req : ChangePasswordRequest) : Db Reply := do
  let actor ← authenticate env parts
  stepUp env actor parts Services.StepUp.passwordChangeScope
  Services.Auth.changePassword env actor.userId req
  return .noContent

def issueStepUp (env : External) (parts : Parts) (req : StepUpRequest) : Db Reply := do
  let actor ← authenticate env parts
  let response ← Services.StepUp.issue env actor.sessionId actor.userId req
  return .stepUp response

def moduleUnlockStatus (env : External) (parts : Parts) (module' : String) : Db Reply := do
  let actor ← authenticate env parts
  let response ← Services.ModuleUnlock.status actor.sessionId actor.userId module'
  return .moduleUnlock response

def moduleUnlock (env : External) (parts : Parts) (req : ModuleUnlockRequest) : Db Reply := do
  let actor ← authenticate env parts
  let response ← Services.ModuleUnlock.issue env actor.sessionId actor.userId req
  return .moduleUnlock response

def mePermissions (env : External) (parts : Parts) : Db Reply := do
  let actor ← authenticate env parts
  return .permissionCodes actor.permissionCodes

def verifyTotp (env : External) (config : AuthSessionConfig) (req : MfaCodeRequest) : Db Reply := do
  let outcome ← Services.Mfa.verifyTotp env config req.challengeToken req.code
  return setLoginResponse outcome

def verifyRecoveryCode (env : External) (config : AuthSessionConfig) (req : MfaCodeRequest) :
    Db Reply := do
  let outcome ← Services.Mfa.verifyRecoveryLogin env config req.challengeToken req.code
  return setLoginResponse outcome

def startPasskeyAuthentication (env : External) (challengeToken : String) : Db Reply := do
  let response ← Services.Mfa.startPasskeyAuthentication env challengeToken
  return .webauthn response

def finishPasskeyAuthentication (env : External) (config : AuthSessionConfig)
    (req : MfaPasskeyFinishRequest) : Db Reply := do
  let outcome ← Services.Mfa.finishPasskeyAuthentication env config req.challengeToken
    req.credential
  return setLoginResponse outcome

def mfaStatus (env : External) (parts : Parts) : Db Reply := do
  let actor ← authenticate env parts
  let response ← Services.Mfa.status actor.userId
  return .mfaStatus response

def startPasskeyRegistration (env : External) (parts : Parts)
    (req : MfaPasskeyRegistrationStartRequest) : Db Reply := do
  let actor ← authenticate env parts
  let user ← Services.Auth.me actor.userId
  let response ← Services.Mfa.startPasskeyRegistration env user req
  return .webauthn response

def finishPasskeyRegistration (env : External) (parts : Parts) (req : MfaPasskeyFinishRequest) :
    Db Reply := do
  let actor ← authenticate env parts
  let response ← Services.Mfa.finishPasskeyRegistration env actor.userId req.challengeToken
    req.credential
  return .mfaStatus response

def revokePasskey (env : External) (parts : Parts) (passkeyId : Nat)
    (req : MfaFactorRevokeRequest) : Db Reply := do
  let actor ← authenticate env parts
  Services.Mfa.revokePasskey env actor.userId passkeyId req
  return .noContent

def regenerateRecoveryCodes (env : External) (parts : Parts) (req : MfaFactorRevokeRequest) :
    Db Reply := do
  let actor ← authenticate env parts
  let codes ← Services.Mfa.regenerateRecoveryCodes env actor.userId req
  return .recoveryCodes codes

end Auth

/-! ## Users

A request that changes something sensitive uses up a step-up token; the others are content with an
unlocked module.
-/

namespace Users

def create (env : External) (parts : Parts) (req : CreateUserRequest) : Db Reply := do
  let actor ← requirePermission env parts userWrite
  let grantsRoles := req.roleIds.any fun roleIds => !roleIds.isEmpty
  let inactive := req.status.any (· != "active")
  Prog.whenever grantsRoles (require actor userRoleWrite)
  Prog.whenever inactive (require actor userDeactivate)
  Prog.whenever req.departmentId.isSome (require actor departmentRead)
  let needsStepUp := grantsRoles || inactive ||
    req.departmentId.any fun departmentId => actor.departmentId != some departmentId
  stepUpOrUnlock env actor parts needsStepUp Services.StepUp.usersSensitiveScope
    Services.ModuleUnlock.usersModule
  let user ← Services.Users.create env actor req (actor.hasPermission superAdminGrant)
    (actor.hasPermission departmentRead)
  return .user user

def update (env : External) (parts : Parts) (id : Nat) (req : UpdateUserRequest) : Db Reply := do
  let actor ← requirePermission env parts userWrite
  Prog.whenever req.password.isSome (require actor resetPassword)
  Prog.whenever req.status.isSome (require actor userDeactivate)
  Prog.whenever req.departmentId.isSome (require actor departmentRead)
  stepUpOrUnlock env actor parts
    (req.password.isSome || req.status.isSome || req.departmentId.isSome)
    Services.StepUp.usersSensitiveScope Services.ModuleUnlock.usersModule
  let user ← Services.Users.update env id (some actor) req (actor.hasPermission superAdminGrant)
    (actor.hasPermission departmentRead)
  return .user user

def delete (env : External) (parts : Parts) (id : Nat) : Db Reply := do
  let actor ← requirePermission env parts userDeactivate
  stepUp env actor parts Services.StepUp.usersDeleteScope
  Services.Users.delete id (some actor)
  return .noContent

def batchDelete (env : External) (parts : Parts) (req : BatchUserIdsRequest) : Db Reply := do
  let actor ← requirePermission env parts userDeactivate
  stepUp env actor parts Services.StepUp.usersDeleteScope
  Services.Users.deleteMany (some actor) req
  return .noContent

def assignRoles (env : External) (parts : Parts) (id : Nat) (req : AssignRolesRequest) :
    Db Reply := do
  let actor ← requirePermission env parts userRoleWrite
  stepUp env actor parts Services.StepUp.usersRolesScope
  Services.Users.assignRoles (some actor) id req (actor.hasPermission superAdminGrant)
  return .noContent

def batchAssignRoles (env : External) (parts : Parts) (req : BatchAssignRolesRequest) :
    Db Reply := do
  let actor ← requirePermission env parts userRoleWrite
  stepUp env actor parts Services.StepUp.usersRolesScope
  Services.Users.assignRolesMany (some actor) req (actor.hasPermission superAdminGrant)
  return .noContent

end Users

/-! ## Roles

As for users; the permissions of a role are always replaced with a step-up token.
-/

namespace Roles

def get (env : External) (parts : Parts) (id : Nat) : Db Reply := do
  let _ ← requirePermission env parts roleRead
  let role ← Services.Roles.get id
  return .role role

def create (env : External) (parts : Parts) (req : CreateRoleRequest) : Db Reply := do
  let actor ← requirePermission env parts roleWrite
  let needsStepUp := req.permissionIds.any fun permissionIds => !permissionIds.isEmpty
  Prog.whenever needsStepUp (require actor rolePermissionWrite)
  stepUpOrUnlock env actor parts needsStepUp Services.StepUp.rolesPermissionsScope
    Services.ModuleUnlock.rolesModule
  let role ← Services.Roles.create (some actor.userId) actor.dataScope req
    (actor.hasPermission rolePermissionWrite)
  return .role role

def update (env : External) (parts : Parts) (id : Nat) (req : UpdateRoleRequest) : Db Reply := do
  let actor ← requirePermission env parts roleWrite
  stepUpOrUnlock env actor parts (req.dataScope.isSome || req.isActive.isSome)
    Services.StepUp.rolesSensitiveScope Services.ModuleUnlock.rolesModule
  let role ← Services.Roles.update (some actor.userId) actor.dataScope id req
  return .role role

def delete (env : External) (parts : Parts) (id : Nat) : Db Reply := do
  let actor ← requirePermission env parts roleWrite
  stepUp env actor parts Services.StepUp.rolesDeleteScope
  Services.Roles.delete (some actor.userId) id
  return .noContent

def getPermissions (env : External) (parts : Parts) (id : Nat) : Db Reply := do
  let _ ← requirePermission env parts roleRead
  let ids ← Services.Roles.getPermissions id
  return .permissionIds ids

def putPermissions (env : External) (parts : Parts) (id : Nat)
    (req : UpdateRolePermissionsRequest) : Db Reply := do
  let actor ← requirePermission env parts rolePermissionWrite
  stepUp env actor parts Services.StepUp.rolesPermissionsScope
  Services.Roles.assignPermissions (some actor.userId) id req
  return .noContent

end Roles

/-! ## Departments

The three writers of departments use up a step-up token each.
-/

namespace Departments

def create (env : External) (parts : Parts) (req : CreateDepartmentRequest) : Db Reply := do
  let actor ← requirePermission env parts departmentWrite
  stepUp env actor parts Services.StepUp.departmentsWriteScope
  let department ← Services.Departments.create actor req
  return .department department

def update (env : External) (parts : Parts) (id : Nat) (req : UpdateDepartmentRequest) :
    Db Reply := do
  let actor ← requirePermission env parts departmentWrite
  stepUp env actor parts Services.StepUp.departmentsWriteScope
  let department ← Services.Departments.update actor id req
  return .department department

def delete (env : External) (parts : Parts) (id : Nat) : Db Reply := do
  let actor ← requirePermission env parts departmentWrite
  stepUp env actor parts Services.StepUp.departmentsDeleteScope
  Services.Departments.delete actor id
  return .noContent

end Departments

end ArcAdmin.Handlers
