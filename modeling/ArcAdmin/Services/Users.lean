import ArcAdmin.Services.Auth
import ArcAdmin.Services.Departments

/-!
# User service

`services/users.rs`: what an administrator may do to accounts. Every operation checks first that
the actor may see the account; the operations that hand out rights call `validateRoleGrantScope`,
and those that may take the role `super_admin` from an active account call
`protectLastSuperAdmin` inside their transaction.
-/

namespace ArcAdmin.Services.Users

open ReadCommitted

def validStatuses : List String := ["active", "inactive", "suspended"]

def normalizedFilter (value : Option String) : Option String :=
  (value.map trim).filter fun value => !isEmpty value && value != "all"

/-- The order that a query asks for, newest account first if it asks for none. -/
def userSort (sortBy sortDirection : Option String) :
    Except ApiError Repositories.Users.UserSort :=
  let direction := sortDirection.getD "desc"
  match sortBy.getD "createdAt", direction with
  | "username", "asc" => .ok .usernameAsc
  | "username", "desc" => .ok .usernameDesc
  | "displayName", "asc" => .ok .displayNameAsc
  | "displayName", "desc" => .ok .displayNameDesc
  | "email", "asc" => .ok .emailAsc
  | "email", "desc" => .ok .emailDesc
  | "status", "asc" => .ok .statusAsc
  | "status", "desc" => .ok .statusDesc
  | "lastLoginAt", "asc" => .ok .lastLoginAtAsc
  | "lastLoginAt", "desc" => .ok .lastLoginAtDesc
  | "createdAt", "asc" => .ok .createdAtAsc
  | "createdAt", "desc" => .ok .createdAtDesc
  | _, "asc" | _, "desc" => .error (.validation "sortBy 不是允许的用户排序字段")
  | _, _ => .error (.validation "sortDirection 必须是 asc 或 desc")

/-- One page of the users that the actor sees and the filters admit. The total is counted first,
and a page beyond the last one is replaced by the last. The count, the roles for the filter
and the page are three statements. -/
def list (sql : Sql) (actor : ActorContext) (query : PageQuery) : Db PageUser := do
  let requestedPage := (max (query.page.getD 1) 1).toNat
  let pageSize := (max 1 (min (query.pageSize.getD 20) 100)).toNat
  let keyword := normalizedFilter query.keyword
  let status := normalizedFilter query.status
  Prog.reject (status.any fun value => !validStatuses.contains value)
    (.validation "status 必须是 active、inactive 或 suspended")
  let role := normalizedFilter query.role
  let sort ← Prog.okOrThrow (userSort query.sortBy query.sortDirection)
  let params : Repositories.Users.UserListParams :=
    { keyword, status, role, sort, page := requestedPage, pageSize }
  let total ← Repositories.Users.count sql actor params
  let roleOptions ← Repositories.Users.listRoleOptions sql actor
  let lastPage := max ((total + pageSize - 1) / pageSize) 1
  let page := min requestedPage lastPage
  let rows ← Repositories.Users.list sql actor { params with page }
  return { items := rows.map userWithRolesResponse, total, page, pageSize, roleOptions }

/-- One account, if the actor sees it. -/
def get (actor : ActorContext) (id : Nat) : Db UserResponse := do
  let found ← Repositories.Users.findByIdForActor actor id
  let found ← Prog.okOr found (.notFound "用户不存在")
  let roles ← Repositories.Users.roleNamesByUser id
  return userResponse found.id found.row roles

/-- The account exists, and the actor sees it. -/
def ensureActorCanAccess (actor : Option ActorContext) (userId : Nat) : Db Unit := do
  let row ← actor.elim (Repositories.Users.findById userId)
    fun actor => Repositories.Users.findByIdForActor actor userId
  Prog.reject row.isNone (.notFound "用户不存在")

/-- A batch is not empty, names no account twice, and not the one of the actor. -/
def validateBatchUserIds (userIds : List Nat) (actorUserId : Nat) : Db Unit := do
  Prog.reject userIds.isEmpty (.validation "至少需要选择一个用户")
  Prog.reject (userIds.dedup.length != userIds.length) (.validation "用户列表不能包含重复项")
  Prog.reject (userIds.contains actorUserId) (.forbidden "不能批量操作当前登录账号")

/-- Roles that may be handed out: each is active and named once, `super_admin` needs a permission
of its own, and no role carries a permission that the actor has not got. -/
def validateRoleGrantScope (actorUserId : Option Nat) (roleIds : List Nat)
    (canGrantSuperAdmin : Bool) : Db Unit := do
  Prog.reject (roleIds.dedup.length != roleIds.length) (.validation "角色列表不能包含重复项")
  let activeRoleIds ← Repositories.Roles.activeIdsByIds roleIds
  Prog.reject (activeRoleIds.length != roleIds.dedup.length)
    (.validation "角色列表中包含不存在或已停用的角色")
  let superAdminRoleId ← Repositories.Roles.idByCode "super_admin"
  Prog.reject (!canGrantSuperAdmin && superAdminRoleId.any roleIds.contains)
    (.forbidden "缺少授予超级管理员角色的权限")
  Prog.ifSome actorUserId fun actorUserId => do
    let actorPermissions ← Repositories.Permissions.permissionCodesByUser actorUserId
    let requestedPermissions ← Repositories.Permissions.codesByRoleIds roleIds
    Prog.reject (requestedPermissions.any fun permission => !actorPermissions.contains permission)
      (.forbidden "不能分配包含操作者自身未拥有权限的角色")

/-- The guard of every operation that may take `super_admin` from an account. The statement
behind it locks the role, so that the count stays right until the commit. -/
def protectLastSuperAdmin (userId : Nat) : Db Unit := do
  let (isActiveSuperAdmin, activeCount) ← Repositories.Users.superAdminGuardState userId
  Prog.reject (isActiveSuperAdmin && activeCount ≤ 1)
    (.forbidden "不能停用、删除或移除最后一个处于启用状态的超级管理员")

/-- A new account in the organization of the actor. Without a department of its own it gets the
actor's, which is not checked. -/
def create (env : External) (actor : ActorContext) (req : CreateUserRequest)
    (canGrantSuperAdmin canAssignDepartment : Bool) : Db UserResponse := do
  Prog.reject (!actor.canCreatePeer) (.forbidden "当前数据范围不允许创建其他用户")
  let username := trim req.username
  Prog.reject (!(3 ≤ byteLen username && byteLen username ≤ 64))
    (.validation "用户名长度需在 3-64 个字符之间")
  Prog.reject (!username.toList.all fun c => isAsciiAlphanumeric c || c == '_' || c == '-')
    (.validation "用户名仅允许字母、数字、下划线或连字符")
  Auth.validatePassword req.password
  let displayName := trim req.displayName
  Prog.reject (isEmpty displayName || byteLen displayName > 128)
    (.validation "显示名称长度需在 1-128 个字符之间")
  let status := req.status.getD "active"
  Prog.reject (!validStatuses.contains status) (.validation "状态只能为启用、停用或已暂停")
  let hash ← Auth.hashPassword env req.password
  Prog.ifSome req.roleIds fun roleIds =>
    validateRoleGrantScope (some actor.userId) roleIds canGrantSuperAdmin
  Prog.ifSome req.departmentId fun departmentId => do
    Prog.reject (!canAssignDepartment) (.forbidden "缺少查看部门目录的权限")
    Departments.validateAssignment actor departmentId
  let departmentId := req.departmentId.or actor.departmentId
  beginTx
  let row ← Repositories.Users.create
    { username, passwordHash := hash, displayName, email := req.email, status
      organizationId := actor.organizationId, departmentId }
  Prog.ifSome req.roleIds fun roleIds => do
    let _ ← Repositories.Users.assignRoles row.id roleIds
  Repositories.AuditLogs.record (some actor.userId) "user.create" "user" (some row.id)
    [("username", .text username), ("status", .text status),
      ("departmentId", departmentId.elim .null .number),
      ("roleIds", .numbers (req.roleIds.getD []))]
  commitTx
  let roles ← Repositories.Users.roleNamesByUser row.id
  return userResponse row.id row.row roles

/-- The checks on the department that an update asks for. -/
def validateDepartment (id : Nat) (actor : ActorContext) (departmentId : Nat)
    (canAssignDepartment : Bool) : Db Unit := do
  Prog.reject (!canAssignDepartment) (.forbidden "缺少查看部门目录的权限")
  Prog.reject (actor.userId == id && actor.departmentId != some departmentId)
    (.forbidden "不能调整当前登录账号所属部门")
  Departments.validateAssignment actor departmentId

/-- The checks on the status that an update asks for. -/
def validateStatus (id : Nat) (actorUserId : Option Nat) (status : String)
    (canGrantSuperAdmin : Bool) : Db Unit := do
  Prog.reject (!validStatuses.contains status) (.validation "状态只能为启用、停用或已暂停")
  Prog.reject (status != "active" && actorUserId == some id) (.forbidden "不能停用当前登录账号")
  Prog.whenever (status == "active") do
    let roleIds ← Repositories.Users.roleIdsByUser id
    validateRoleGrantScope actorUserId roleIds canGrantSuperAdmin

/-- The hash of the password that an update sets. -/
def newPasswordHash (env : External) : Option String → Db (Option String)
  | none => return none
  | some password => do
    Auth.validatePassword password
    let hash ← Auth.hashPassword env password
    return some hash

/-- The guard and the two statements on the account. -/
def applyUpdate (id : Nat) (req : UpdateUserRequest) (passwordHash displayName : Option String)
    (emailIsSet : Bool) (email : Option String) : Db (Option UserRow) := do
  Prog.whenever (req.status.any (· != "active")) (protectLastSuperAdmin id)
  Prog.ifSome passwordHash fun hash => do
    let row ← Repositories.Users.updatePassword id hash
    Prog.reject row.isNone (.notFound "用户不存在")
  Repositories.Users.updateProfile id displayName emailIsSet email req.status req.departmentId

/-- An update of an account. All checks but the guard come before the transaction. A new
password, and a status other than `active`, end the sessions of the account. -/
def update (env : External) (id : Nat) (actor : Option ActorContext) (req : UpdateUserRequest)
    (canGrantSuperAdmin canAssignDepartment : Bool) : Db UserResponse := do
  ensureActorCanAccess actor id
  let actorUserId := actor.map (·.userId)
  Prog.ifSome actor fun actor => Prog.ifSome req.departmentId fun departmentId =>
    validateDepartment id actor departmentId canAssignDepartment
  let displayName := req.displayName.map trim
  Prog.reject (displayName.any fun value => isEmpty value || byteLen value > 128)
    (.validation "显示名称长度需在 1-128 个字符之间")
  Prog.ifSome req.status fun status =>
    validateStatus id actorUserId status canGrantSuperAdmin
  let passwordHash ← newPasswordHash env req.password
  let (emailIsSet, email) := nullablePatch req.email
  let email := email.bind fun value => if isEmpty (trim value) then none else some (trim value)
  let statusRevokesSessions := req.status.any (· != "active")
  beginTx
  let row ← applyUpdate id req passwordHash displayName emailIsSet email
  let row ← Prog.okOr row (.notFound "用户不存在")
  Prog.whenever (passwordHash.isSome || statusRevokesSessions) do
    let revoked ← Repositories.AuthSessions.revokeAllForUser id
    Auth.recordSessionRevocation actorUserId id
      (if passwordHash.isSome then "admin_password_reset" else "account_status_changed") revoked.count
  Repositories.AuditLogs.record actorUserId "user.update" "user" (some id)
    [("displayNameChanged", .bool req.displayName.isSome),
      ("emailChanged", .bool (req.email != .missing)),
      ("status", req.status.elim .null .text),
      ("departmentId", req.departmentId.elim .null .number),
      ("passwordReset", .bool req.password.isSome)]
  commitTx
  let roles ← Repositories.Users.roleNamesByUser id
  return userResponse id row roles

/-- The part of a deletion that runs inside the transaction. -/
def deleteOne (id : Nat) (actorUserId : Option Nat) : Db Unit := do
  protectLastSuperAdmin id
  let previousRoleIds ← Repositories.Users.roleIdsByUser id
  let deleted ← Repositories.Users.softDelete id
  Prog.reject (!deleted) (.notFound "用户不存在")
  let revoked ← Repositories.AuthSessions.revokeAllForUser id
  Auth.recordSessionRevocation actorUserId id "account_deleted" revoked.count
  Repositories.AuditLogs.record actorUserId "user.delete" "user" (some id)
    [("previousRoleIds", .numbers previousRoleIds)]

/-- One account is deleted, in a transaction of its own. -/
def delete (id : Nat) (actor : Option ActorContext) : Db Unit := do
  ensureActorCanAccess actor id
  let actorUserId := actor.map (·.userId)
  Prog.reject (actorUserId == some id) (.forbidden "不能删除当前登录账号")
  beginTx
  deleteOne id actorUserId
  commitTx

/-- Many accounts are deleted in one transaction; the first that is refused takes the others with
it. -/
def deleteMany (actor : Option ActorContext) (req : BatchUserIdsRequest) : Db Unit := do
  let actor ← Prog.okOr actor (.forbidden "需要认证用户")
  validateBatchUserIds req.userIds actor.userId
  Prog.forEach req.userIds fun userId => ensureActorCanAccess (some actor) userId
  beginTx
  Prog.forEach req.userIds fun userId => deleteOne userId (some actor.userId)
  commitTx

/-- What an assignment does after the roles it replaces have been read: the same for one account
and for many. -/
def replaceRoles (superAdminRoleId actorUserId : Option Nat) (userId : Nat)
    (roleIds previousRoleIds : List Nat) : Db Unit := do
  Prog.whenever (!superAdminRoleId.any roleIds.contains) (protectLastSuperAdmin userId)
  let clearedAsOf ← Repositories.Users.assignRoles userId roleIds
  noteEvent (.rolesReplaced userId clearedAsOf)
  Prog.ifSome superAdminRoleId fun superAdminRoleId =>
    let wasRequired := previousRoleIds.contains superAdminRoleId
    let isRequired := roleIds.contains superAdminRoleId
    Prog.whenever (wasRequired != isRequired) <|
      Repositories.AuditLogs.record actorUserId "auth.mfa.policy.changed" "user" (some userId)
        [("required", .bool isRequired)]
  Repositories.AuditLogs.record actorUserId "user.roles.update" "user" (some userId)
    [("previousRoleIds", .numbers previousRoleIds), ("roleIds", .numbers roleIds)]

/-- The roles of one account are replaced. They are validated before the transaction, which only
asks whether the guard is called. -/
def assignRoles (actor : Option ActorContext) (userId : Nat) (req : AssignRolesRequest)
    (canGrantSuperAdmin : Bool) : Db Unit := do
  ensureActorCanAccess actor userId
  let actorUserId := actor.map (·.userId)
  let superAdminRoleId ← Repositories.Roles.idByCode "super_admin"
  validateRoleGrantScope actorUserId req.roleIds canGrantSuperAdmin
  let previousRoleIds ← Repositories.Users.roleIdsByUser userId
  beginTx
  replaceRoles superAdminRoleId actorUserId userId req.roleIds previousRoleIds
  commitTx

/-- The roles of many accounts are replaced by the same ones, in one transaction. -/
def assignRolesMany (actor : Option ActorContext) (req : BatchAssignRolesRequest)
    (canGrantSuperAdmin : Bool) : Db Unit := do
  let actor ← Prog.okOr actor (.forbidden "需要认证用户")
  validateBatchUserIds req.userIds actor.userId
  validateRoleGrantScope (some actor.userId) req.roleIds canGrantSuperAdmin
  Prog.forEach req.userIds fun userId => ensureActorCanAccess (some actor) userId
  let superAdminRoleId ← Repositories.Roles.idByCode "super_admin"
  beginTx
  Prog.forEach req.userIds fun userId => do
    let previousRoleIds ← Repositories.Users.roleIdsByUser userId
    replaceRoles superAdminRoleId (some actor.userId) userId req.roleIds previousRoleIds
  commitTx

end ArcAdmin.Services.Users
