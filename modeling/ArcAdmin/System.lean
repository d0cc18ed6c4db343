import ArcAdmin.Handlers
import ArcAdmin.ReadCommitted.World

/-!
# The running system

Every request that changes something, the program that serves it, and the worlds in which any number
of them run at the same time.  The requests that authenticate their session and then only read are
represented by a few of them; the listings are left out (see `ArcAdmin.Handlers`).

* **`serve`** — the program of a request;
* **`Config`**, **`Server`** — the configurations of a running service and its committed state;
* **`Accepted`** — `auth_context` accepts a session now.
-/

namespace ArcAdmin

open ReadCommitted

/-- A request to the service, or a run of its command line tool.

All requests that write are here: logins and second factors, sessions, re-authentication, users, roles
and departments. -/
inductive Request where
  | login (req : LoginRequest) (clientIp : String)
  | logout (parts : Parts)
  | me (parts : Parts)
  | changePassword (parts : Parts) (req : ChangePasswordRequest)
  | stepUp (parts : Parts) (req : StepUpRequest)
  | moduleUnlockStatus (parts : Parts) (module' : String)
  | moduleUnlock (parts : Parts) (req : ModuleUnlockRequest)
  | mePermissions (parts : Parts)
  | verifyTotp (req : MfaCodeRequest)
  | verifyRecoveryCode (req : MfaCodeRequest)
  | startPasskeyAuthentication (challengeToken : String)
  | finishPasskeyAuthentication (req : MfaPasskeyFinishRequest)
  | mfaStatus (parts : Parts)
  | startPasskeyRegistration (parts : Parts) (req : MfaPasskeyRegistrationStartRequest)
  | finishPasskeyRegistration (parts : Parts) (req : MfaPasskeyFinishRequest)
  | revokePasskey (parts : Parts) (passkeyId : Nat) (req : MfaFactorRevokeRequest)
  | regenerateRecoveryCodes (parts : Parts) (req : MfaFactorRevokeRequest)
  | createUser (parts : Parts) (req : CreateUserRequest)
  | updateUser (parts : Parts) (id : Nat) (req : UpdateUserRequest)
  | deleteUser (parts : Parts) (id : Nat)
  | batchDeleteUsers (parts : Parts) (req : BatchUserIdsRequest)
  | assignRoles (parts : Parts) (id : Nat) (req : AssignRolesRequest)
  | batchAssignRoles (parts : Parts) (req : BatchAssignRolesRequest)
  | getRole (parts : Parts) (id : Nat)
  | createRole (parts : Parts) (req : CreateRoleRequest)
  | updateRole (parts : Parts) (id : Nat) (req : UpdateRoleRequest)
  | deleteRole (parts : Parts) (id : Nat)
  | getRolePermissions (parts : Parts) (id : Nat)
  | putRolePermissions (parts : Parts) (id : Nat) (req : UpdateRolePermissionsRequest)
  | createDepartment (parts : Parts) (req : CreateDepartmentRequest)
  | updateDepartment (parts : Parts) (id : Nat) (req : UpdateDepartmentRequest)
  | deleteDepartment (parts : Parts) (id : Nat)
  | bootstrapSuperAdmin (username password displayName : String) (email : Option String)

/-- **The program that serves a request.** -/
def serve (env : External) (config : AuthSessionConfig) : Request → Db Reply
  | .login req clientIp => Handlers.Auth.login env config req clientIp
  | .logout parts => Handlers.Auth.logout env parts
  | .me parts => Handlers.Auth.me env parts
  | .changePassword parts req => Handlers.Auth.changePassword env parts req
  | .stepUp parts req => Handlers.Auth.issueStepUp env parts req
  | .moduleUnlockStatus parts module' => Handlers.Auth.moduleUnlockStatus env parts module'
  | .moduleUnlock parts req => Handlers.Auth.moduleUnlock env parts req
  | .mePermissions parts => Handlers.Auth.mePermissions env parts
  | .verifyTotp req => Handlers.Auth.verifyTotp env config req
  | .verifyRecoveryCode req => Handlers.Auth.verifyRecoveryCode env config req
  | .startPasskeyAuthentication challengeToken =>
    Handlers.Auth.startPasskeyAuthentication env challengeToken
  | .finishPasskeyAuthentication req => Handlers.Auth.finishPasskeyAuthentication env config req
  | .mfaStatus parts => Handlers.Auth.mfaStatus env parts
  | .startPasskeyRegistration parts req => Handlers.Auth.startPasskeyRegistration env parts req
  | .finishPasskeyRegistration parts req => Handlers.Auth.finishPasskeyRegistration env parts req
  | .revokePasskey parts passkeyId req => Handlers.Auth.revokePasskey env parts passkeyId req
  | .regenerateRecoveryCodes parts req => Handlers.Auth.regenerateRecoveryCodes env parts req
  | .createUser parts req => Handlers.Users.create env parts req
  | .updateUser parts id req => Handlers.Users.update env parts id req
  | .deleteUser parts id => Handlers.Users.delete env parts id
  | .batchDeleteUsers parts req => Handlers.Users.batchDelete env parts req
  | .assignRoles parts id req => Handlers.Users.assignRoles env parts id req
  | .batchAssignRoles parts req => Handlers.Users.batchAssignRoles env parts req
  | .getRole parts id => Handlers.Roles.get env parts id
  | .createRole parts req => Handlers.Roles.create env parts req
  | .updateRole parts id req => Handlers.Roles.update env parts id req
  | .deleteRole parts id => Handlers.Roles.delete env parts id
  | .getRolePermissions parts id => Handlers.Roles.getPermissions env parts id
  | .putRolePermissions parts id req => Handlers.Roles.putPermissions env parts id req
  | .createDepartment parts req => Handlers.Departments.create env parts req
  | .updateDepartment parts id req => Handlers.Departments.update env parts id req
  | .deleteDepartment parts id => Handlers.Departments.delete env parts id
  | .bootstrapSuperAdmin username password displayName email => do
    let user ← Services.Auth.bootstrapSuperAdmin env username password displayName email
    return .user user

/-- The committed state of the service. -/
abbrev Db.State := Server Table

/-- A configuration of the running service. -/
abbrev Db.Config := ReadCommitted.Config Table ApiError Reply Request

/-- The committed state as a statement outside any transaction sees it. -/
def committed (s : Server Table) : Snap := (⟨none, s⟩ : Conn Table).snapshot

/-- **`auth_context` accepts the session** in the committed state `s`. -/
def Accepted (s : Server Table) (sessionId : Nat) (session : SessionRow) : Prop :=
  s.store.get .authSessions sessionId = some session ∧
    ∃ u, s.store.get .users session.userId = some u ∧
      Repositories.AuthSessions.acceptedBy (committed s) session u = true

end ArcAdmin
