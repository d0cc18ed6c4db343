import ArcAdmin.Repositories.AuditLogs
import ArcAdmin.Repositories.Mfa
import ArcAdmin.Repositories.StepUp

/-!
# Requests and responses

The API data types of `models.rs` and the conversions between them and the rows. Responses keep
the fields that the services compute.
-/

namespace ArcAdmin

open Repositories

/-! ## Patches

A field of a request that may be absent, `null` or a value.
-/

inductive NullablePatch (α : Type) where
  | missing
  | null
  | value (a : α)
deriving DecidableEq, Repr

def nullablePatch {α : Type} : NullablePatch α → Bool × Option α
  | .missing => (false, none)
  | .null => (true, none)
  | .value a => (true, some a)

/-! ## Requests

The bodies and queries as they have been deserialized. What cannot be deserialized never reaches a
handler.
-/

structure LoginRequest where
  username : String
  password : String
  remember : Bool

structure ChangePasswordRequest where
  currentPassword : String
  newPassword : String

structure StepUpRequest where
  currentPassword : String
  totpCode : Option String
  scope : String

structure ModuleUnlockRequest where
  module' : String
  currentPassword : String
  totpCode : Option String

structure MfaCodeRequest where
  challengeToken : String
  code : String

structure MfaPasskeyRegistrationStartRequest where
  currentPassword : String
  totpCode : String
  name : String

/-- A challenge token together with the answer of the authenticator. -/
structure MfaPasskeyFinishRequest where
  challengeToken : String
  credential : String

structure MfaFactorRevokeRequest where
  currentPassword : String
  totpCode : String

structure CreateUserRequest where
  username : String
  password : String
  displayName : String
  email : Option String
  status : Option String
  departmentId : Option Nat
  roleIds : Option (List Nat)

structure UpdateUserRequest where
  displayName : Option String
  email : NullablePatch String
  status : Option String
  departmentId : Option Nat
  password : Option String

structure CreateDepartmentRequest where
  parentId : Nat
  code : String
  name : String
  status : Option String

structure UpdateDepartmentRequest where
  parentId : Option Nat
  code : Option String
  name : Option String
  status : Option String

structure AssignRolesRequest where
  roleIds : List Nat

structure BatchUserIdsRequest where
  userIds : List Nat

structure BatchAssignRolesRequest where
  userIds : List Nat
  roleIds : List Nat

structure CreateRoleRequest where
  code : String
  name : String
  category : Option String
  icon : Option String
  color : Option String
  description : Option String
  dataScope : Option String
  permissionIds : Option (List Nat)

structure UpdateRoleRequest where
  name : Option String
  category : Option String
  icon : NullablePatch String
  color : Option String
  description : NullablePatch String
  dataScope : Option String
  isActive : Option Bool

structure UpdateRolePermissionsRequest where
  permissionIds : List Nat

structure PageQuery where
  page : Option Int
  pageSize : Option Int
  keyword : Option String
  status : Option String
  role : Option String
  sortBy : Option String
  sortDirection : Option String

structure AuditLogQuery where
  page : Option Int
  pageSize : Option Int
  keyword : Option String
  action : Option String
  cursor : Option String

/-! ## Responses

The bodies that the services return. Fields that are copied from a row are copied by the functions
that stand with them.
-/

structure UserResponse where
  id : Nat
  username : String
  displayName : String
  email : Option String
  status : String
  departmentId : Option Nat
  roles : List String
  lastLoginAt : Option Nat
  createdAt : Nat
deriving DecidableEq, Repr

def userResponse (id : Nat) (row : UserRow) (roles : List String) : UserResponse where
  id := id
  username := row.username
  displayName := row.displayName
  email := row.email
  status := row.status
  departmentId := row.departmentId
  roles := roles
  lastLoginAt := row.lastLoginAt
  createdAt := row.createdAt

def userWithRolesResponse (row : Users.WithRoles) : UserResponse where
  id := row.id
  username := row.username
  displayName := row.displayName
  email := row.email
  status := row.status
  departmentId := row.departmentId
  roles := row.roles
  lastLoginAt := row.lastLoginAt
  createdAt := row.createdAt

/-- `DepartmentResponse`, which has the fields of the row. -/
abbrev DepartmentResponse := Departments.Found

structure RoleResponse where
  id : Nat
  row : RoleRow
  members : Nat
  permissionGroupIds : List Nat
deriving DecidableEq, Repr

inductive LoginStatusSchema where
  | authenticated
  | mfaRequired
  | mfaEnrollmentRequired
deriving DecidableEq, Repr

inductive MfaMethodSchema where
  | totp
  | passkey
  | recoveryCode
deriving DecidableEq, Repr

/-- The `Debug` text of a method. -/
def MfaMethodSchema.debug : MfaMethodSchema → String
  | .totp => "Totp"
  | .passkey => "Passkey"
  | .recoveryCode => "RecoveryCode"

structure LoginResponse where
  status : LoginStatusSchema
  expiresAt : Option Nat
  user : Option UserResponse
  challengeToken : Option String
  methods : List MfaMethodSchema
  totpSecret : Option String
  totpUri : Option String
  totpQrCode : Option String
  recoveryCodes : List String
deriving DecidableEq, Repr

structure StepUpResponse where
  token : String
  expiresAt : Nat
deriving DecidableEq, Repr

structure ModuleUnlockStatusResponse where
  module' : String
  unlocked : Bool
  expiresAt : Option Nat
deriving DecidableEq, Repr

structure MfaWebauthnChallengeResponse where
  challengeToken : String
  publicKey : String
deriving DecidableEq, Repr

structure MfaPasskeyResponse where
  id : Nat
  name : String
  createdAt : Nat
  lastUsedAt : Option Nat
deriving DecidableEq, Repr

structure MfaStatusResponse where
  required : Bool
  totpEnabled : Bool
  recoveryCodesRemaining : Nat
  passkeys : List MfaPasskeyResponse
deriving DecidableEq, Repr

structure PageUser where
  items : List UserResponse
  total : Nat
  page : Nat
  pageSize : Nat
  roleOptions : List String
deriving DecidableEq, Repr

structure AuditLogResponse where
  id : Nat
  actorUserId : Option Nat
  actorUsername : Option String
  action : String
  targetType : String
  targetId : Option Nat
  details : List (String × Detail)
  traceId : Option String
  createdAt : Int
deriving DecidableEq, Repr

def auditLogResponse (row : AuditLogs.Listed) : AuditLogResponse where
  id := row.id
  actorUserId := row.actorUserId
  actorUsername := row.actorUsername
  action := row.action
  targetType := row.targetType
  targetId := row.targetId
  details := row.details
  traceId := row.traceId
  createdAt := row.createdAt

structure PageAuditLog where
  items : List AuditLogResponse
  total : Nat
  page : Nat
  pageSize : Nat
  nextCursor : Option String
deriving DecidableEq, Repr

/-- What a handler answers with when it succeeds. A login that opened a session also sets its two
cookies. -/
inductive Reply where
  | noContent
  | user (response : UserResponse)
  | role (response : RoleResponse)
  | permissionIds (ids : List Nat)
  | permissionCodes (codes : List String)
  | mfaRequired (response : LoginResponse)
  | authenticated (sessionToken csrfToken : String) (response : LoginResponse)
  | stepUp (response : StepUpResponse)
  | moduleUnlock (response : ModuleUnlockStatusResponse)
  | webauthn (response : MfaWebauthnChallengeResponse)
  | mfaStatus (response : MfaStatusResponse)
  | recoveryCodes (codes : List String)
  | department (response : DepartmentResponse)
deriving DecidableEq, Repr

end ArcAdmin
