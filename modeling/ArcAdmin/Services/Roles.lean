import ArcAdmin.Models
import ArcAdmin.Repositories.AuditLogs

/-!
# Role service

`services/roles.rs`: what an administrator may do to roles. The two checks on what may be handed
out are `validateDataScopeGrant` (the scope) and `validatePermissionGrantScope` (the codes).
-/

namespace ArcAdmin.Services.Roles

open ReadCommitted

def roleColors : List String := ["primary", "warning", "success", "danger", "neutral"]

def dataScopes : List String :=
  ["all", "organization", "department_and_children", "department", "self"]

def nullableTextUpdate : NullablePatch String → Repositories.Roles.NullableTextUpdate
  | .missing => .unchanged
  | .null => .set none
  | .value value => .set (some value)

def toResponse (row : Repositories.Roles.Found) : Db RoleResponse := do
  let permissionGroupIds ← Repositories.Roles.permissionGroupIdsByRole row.id
  return { id := row.id, row := row.row, members := row.members, permissionGroupIds }

def get (id : Nat) : Db RoleResponse := do
  let row ← Repositories.Roles.findById id
  let row ← Prog.okOr row (.notFound "角色不存在")
  toResponse row

/-! ## Checks

An administrator hands out no scope beyond the own one and no permission beyond the own ones. A
set of permissions has to be closed under their dependencies.
-/

def validateDataScope (dataScope : String) : Db DataScope := do
  Prog.reject (!dataScopes.contains dataScope)
    (.validation "数据范围只能是全部、组织、部门及下级、部门或仅本人")
  Prog.okOr (DataScope.fromDatabase dataScope) (.internal "无效的数据范围配置")

/-- Nobody hands out a scope beyond the own one. -/
def validateDataScopeGrant (actorDataScope requestedScope : DataScope) : Db Unit :=
  Prog.reject (!actorDataScope.canGrant requestedScope)
    (.forbidden "不能授予超出自身范围的数据权限")

/-- The codes of a set of permissions, if there are no repetitions, all of them exist, and those
that come with others have them: replacing the permissions of roles comes with reading roles
and permissions, and writing departments with reading them. -/
def validatePermissionDependencies (permissionIds : List Nat) : Db (List String) := do
  Prog.reject (permissionIds.dedup.length != permissionIds.length)
    (.validation "权限列表不能包含重复项")
  let codes ← Repositories.Permissions.codesByIds permissionIds
  let codes := codes.dedup
  Prog.reject (codes.length != permissionIds.dedup.length)
    (.validation "权限列表中包含不存在的权限")
  Prog.reject (codes.contains "role:permissions:write" &&
      (!codes.contains "role:directory:read" || !codes.contains "permission:directory:read"))
    (.validation "分配角色权限管理能力时，必须同时授予角色读取和权限目录读取权限")
  Prog.reject (codes.contains "organization:department:write" &&
      !codes.contains "organization:department:read")
    (.validation "分配部门管理能力时，必须同时授予部门目录读取权限")
  return codes

/-- Nobody hands out a permission that the actor has not got. Without an actor everything may be
handed out. -/
def validatePermissionGrantScope (actorUserId : Option Nat) (requestedPermissions : List String) :
    Db Unit :=
  Prog.ifSome actorUserId fun actorUserId => do
    let actorPermissions ← Repositories.Permissions.permissionCodesByUser actorUserId
    Prog.reject (requestedPermissions.any fun permission => !actorPermissions.contains permission)
      (.forbidden "不能授予操作者自身未拥有的权限")

def validateColor (color : String) : Db Unit :=
  Prog.reject (!roleColors.contains color)
    (.validation "颜色只能是 primary、warning、success、danger 或 neutral")

/-- Three to 64 lower case letters, digits or underscores, starting with a letter. -/
def validCode (code : String) : Bool :=
  3 ≤ byteLen code && byteLen code ≤ 64 && code.toList.head?.any isAsciiLowercase &&
    code.toList.all fun c => isAsciiLowercase c || isAsciiDigit c || c == '_'

/-! ## Operations

Creating, changing and deleting roles, and replacing their permissions.
-/

/-- A new role. Its permissions are checked after its row has been inserted, in the same
transaction, which is rolled back if they are refused. -/
def create (actorUserId : Option Nat) (actorDataScope : DataScope) (req : CreateRoleRequest)
    (canAssignPermissions : Bool) : Db RoleResponse := do
  let code := trim req.code
  Prog.reject (!validCode code)
    (.validation "角色编码需为 3-64 位小写字母、数字或下划线，且以字母开头")
  Prog.reject (isEmpty (trim req.name)) (.validation "角色名称不能为空")
  let color := req.color.getD "neutral"
  validateColor color
  let category := req.category.getD "general"
  let dataScope ← validateDataScope (req.dataScope.getD "self")
  validateDataScopeGrant actorDataScope dataScope
  beginTx
  let id ← Repositories.Roles.create
    { code
      name := trim req.name
      category
      icon := req.icon
      color
      description := req.description
      dataScope := dataScope.asStr }
  Prog.ifSome req.permissionIds fun permissionIds => do
    Prog.reject (!permissionIds.isEmpty && !canAssignPermissions)
      (.forbidden "缺少分配角色权限的权限")
    let permissionCodes ← validatePermissionDependencies permissionIds
    validatePermissionGrantScope actorUserId permissionCodes
    let _ ← Repositories.Roles.assignPermissions id permissionIds
  Repositories.AuditLogs.record actorUserId "role.create" "role" (some id)
    [("code", .text code), ("name", .text (trim req.name)), ("dataScope", .text dataScope.asStr),
      ("permissionIds", .numbers (req.permissionIds.getD []))]
  commitTx
  get id

/-- The checks on switching a role off. -/
def validateDeactivation (id : Nat) : Db Unit := do
  let role ← Repositories.Roles.findById id
  let role ← Prog.okOr role (.notFound "角色不存在")
  Prog.reject (role.row.code == "super_admin") (.forbidden "内置超级管理员角色不可停用")

/-- The checks on a new data scope. -/
def validateScopeUpdate (id : Nat) (actorDataScope : DataScope) (dataScope : String) :
    Db Unit := do
  let requestedScope ← validateDataScope dataScope
  validateDataScopeGrant actorDataScope requestedScope
  let role ← Repositories.Roles.findById id
  let role ← Prog.okOr role (.notFound "角色不存在")
  Prog.reject (role.row.code == "super_admin" && dataScope != "all")
    (.forbidden "内置超级管理员角色的数据范围必须为全部数据")

/-- The checks on switching a role on. -/
def validateActivation (id : Nat) (actorUserId : Option Nat) : Db Unit := do
  let permissionCodes ← Repositories.Permissions.codesByRoleIds [id]
  validatePermissionGrantScope actorUserId permissionCodes

/-- An update of the columns of a role. What is given is checked column by column, before the
transaction; the permissions are not touched. -/
def update (actorUserId : Option Nat) (actorDataScope : DataScope) (id : Nat)
    (req : UpdateRoleRequest) : Db RoleResponse := do
  let name := req.name.map trim
  Prog.reject (name.any isEmpty) (.validation "角色名称不能为空")
  let category := req.category.map trim
  Prog.reject (category.any isEmpty) (.validation "角色分类不能为空")
  Prog.whenever (req.isActive == some false) (validateDeactivation id)
  Prog.ifSome req.dataScope fun dataScope => validateScopeUpdate id actorDataScope dataScope
  Prog.whenever (req.isActive == some true) (validateActivation id actorUserId)
  Prog.ifSome req.color fun color => validateColor color
  beginTx
  let updated ← Repositories.Roles.update id
    { name, category
      icon := nullableTextUpdate req.icon
      color := req.color
      description := nullableTextUpdate req.description
      dataScope := req.dataScope
      isActive := req.isActive }
  Prog.reject (!updated) (.notFound "角色不存在")
  Repositories.AuditLogs.record actorUserId "role.update" "role" (some id)
    [("name", req.name.elim .null .text), ("category", req.category.elim .null .text),
      ("color", req.color.elim .null .text), ("dataScope", req.dataScope.elim .null .text),
      ("isActive", req.isActive.elim .null .bool)]
  commitTx
  get id

/-- A role without members is deleted. The members are counted twice: by the check, and by the
condition of the `DELETE`. -/
def delete (actorUserId : Option Nat) (id : Nat) : Db Unit := do
  let row ← Repositories.Roles.findById id
  let row ← Prog.okOr row (.notFound "角色不存在")
  Prog.reject (row.row.code == "super_admin") (.forbidden "内置超级管理员角色不可删除")
  Prog.reject (row.members > 0) (.conflict "角色仍有成员，请先迁移用户后再删除")
  beginTx
  let deleted ← Repositories.Roles.deleteIfUnassigned id
  Prog.reject (!deleted) (.conflict "角色仍有成员，请先迁移用户后再删除")
  Repositories.AuditLogs.record actorUserId "role.delete" "role" (some id) []
  commitTx

def getPermissions (id : Nat) : Db (List Nat) := do
  let row ← Repositories.Roles.findById id
  let _ ← Prog.okOr row (.notFound "角色不存在")
  Repositories.Roles.permissionIdsByRole id

/-- The permissions of a role are replaced. The check, the reading of the old ones and the
replacement share a transaction, but not a snapshot. -/
def assignPermissions (actorUserId : Option Nat) (id : Nat) (req : UpdateRolePermissionsRequest) :
    Db Unit := do
  let role ← Repositories.Roles.findById id
  let role ← Prog.okOr role (.notFound "角色不存在")
  Prog.reject (role.row.code == "super_admin") (.forbidden "内置超级管理员角色的权限不可修改")
  beginTx
  let permissionCodes ← validatePermissionDependencies req.permissionIds
  validatePermissionGrantScope actorUserId permissionCodes
  let previousPermissionIds ← Repositories.Roles.permissionIdsByRole id
  let clearedAsOf ← Repositories.Roles.assignPermissions id req.permissionIds
  noteEvent (.permissionsReplaced id clearedAsOf)
  Repositories.AuditLogs.record actorUserId "role.permissions.update" "role" (some id)
    [("previousPermissionIds", .numbers previousPermissionIds),
      ("permissionIds", .numbers req.permissionIds)]
  commitTx

end ArcAdmin.Services.Roles
