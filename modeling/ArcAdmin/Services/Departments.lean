import ArcAdmin.Models

/-!
# Department service

`services/departments.rs`: the checks on the department tree. What an actor sees is computed for
each check by a query of its own; `validateAssignment` is what the user service calls before it
puts a user into a department.
-/

namespace ArcAdmin.Services.Departments

open ReadCommitted

/-- One department, if the actor sees it. -/
def get (actor : ActorContext) (id : Nat) : Db DepartmentResponse := do
  let department ← Repositories.Departments.findById actor id
  Prog.okOr department (.notFound "部门不存在或超出数据范围")

/-! ## Checks

What an administrator may do to a department depends on what the actor sees, on the tree, and on
the state of the row.
-/

/-- A department that an account may be put into: the actor sees it, and it is active. -/
def validateAssignment (actor : ActorContext) (departmentId : Nat) : Db Unit := do
  let department ← Repositories.Departments.findById actor departmentId
  let department ← Prog.okOr department (.validation "目标部门不存在或超出数据范围")
  Prog.reject (department.row.status != "active") (.validation "不能将用户分配到已停用部门")

/-- A department that another one may be put below: not that one itself, visible, and active. -/
def validateParent (actor : ActorContext) (parentId : Nat) (targetId : Option Nat) : Db Unit := do
  Prog.reject (targetId == some parentId) (.validation "部门不能作为自己的上级部门")
  let parent ← Repositories.Departments.findById actor parentId
  let parent ← Prog.okOr parent (.validation "上级部门不存在或超出数据范围")
  Prog.reject (parent.row.status != "active") (.validation "不能选择已停用部门作为上级部门")

def ensureCodeAvailable (organizationId : Nat) (code : String) (excludeId : Option Nat) :
    Db Unit := do
  let taken ← Repositories.Departments.codeExists organizationId code excludeId
  Prog.reject taken (.conflict "当前组织中已存在相同部门编码")

def validateCode (value : String) : Except ApiError String :=
  let code := trim value
  let valid := (2 ≤ byteLen code && byteLen code ≤ 64) &&
    code.toList.head?.any isAsciiLowercase &&
    code.toList.all fun c => isAsciiLowercase c || isAsciiDigit c || c == '_' || c == '-'
  if valid then .ok code
  else .error (.validation "部门编码需为 2-64 位小写字母、数字、下划线或连字符，且以字母开头")

def validateName (value : String) : Except ApiError String :=
  let name := trim value
  if isEmpty name || byteLen name > 128 then
    .error (.validation "部门名称长度需在 1-128 个字符之间")
  else .ok name

def validateStatus (value : String) : Except ApiError String :=
  if value == "active" || value == "inactive" then .ok value
  else .error (.validation "部门状态只能为启用或停用")

/-! ## Operations

Each operation checks first and then works in one transaction. The checks are outside of it.
-/

/-- A new department below one that is visible and active. An actor whose scope has no
departments below the own one creates none. -/
def create (actor : ActorContext) (req : CreateDepartmentRequest) : Db DepartmentResponse := do
  Prog.reject (actor.dataScope == .department || actor.dataScope == .selfOnly)
    (.forbidden "当前数据范围不允许创建下级部门")
  let code ← Prog.okOrThrow (validateCode req.code)
  let name ← Prog.okOrThrow (validateName req.name)
  let status ← Prog.okOrThrow (validateStatus (req.status.getD "active"))
  validateParent actor req.parentId none
  ensureCodeAvailable actor.organizationId code none
  beginTx
  let id ← Repositories.Departments.create actor.organizationId
    { parentId := req.parentId, code, name, status }
  Repositories.AuditLogs.record (some actor.userId) "department.create" "department" (some id)
    [("organizationId", .number actor.organizationId), ("parentId", .number req.parentId),
      ("code", .text code), ("name", .text name), ("status", .text status)]
  commitTx
  get actor id

/-- The checks on a parent that an update asks for, unless it is the present one. -/
def validateMove (actor : ActorContext) (id : Nat) (current : DepartmentRow) (parentId : Nat) :
    Db Unit :=
  Prog.whenever (current.parentId != some parentId) do
    validateParent actor parentId (some id)
    let cycle ← Repositories.Departments.parentWouldCreateCycle actor.organizationId id parentId
    Prog.reject cycle (.validation "上级部门不能是当前部门或其下级部门")

/-- An update of a department other than the root. A new parent is checked by two queries, and
the code by a third one, all of them before the transaction. -/
def update (actor : ActorContext) (id : Nat) (req : UpdateDepartmentRequest) :
    Db DepartmentResponse := do
  Prog.reject (req.parentId.isNone && req.code.isNone && req.name.isNone && req.status.isNone)
    (.validation "至少需要提供一个待更新字段")
  let current ← Repositories.Departments.findById actor id
  let current ← Prog.okOr current (.notFound "部门不存在或超出数据范围")
  Prog.reject current.row.parentId.isNone (.forbidden "根部门不可修改")
  Prog.ifSome req.parentId (validateMove actor id current.row)
  let code ← Prog.okOrThrow (req.code.mapM validateCode)
  Prog.ifSome code fun code => ensureCodeAvailable actor.organizationId code (some id)
  let name ← Prog.okOrThrow (req.name.mapM validateName)
  let status ← Prog.okOrThrow (req.status.mapM validateStatus)
  beginTx
  let updated ← Repositories.Departments.update actor.organizationId id
    { parentId := req.parentId, code, name, status }
  Prog.reject (!updated) (.notFound "部门不存在")
  Repositories.AuditLogs.record (some actor.userId) "department.update" "department" (some id)
    [("previousParentId", current.row.parentId.elim .null .number),
      ("parentId", req.parentId.elim .null .number), ("code", code.elim .null .text),
      ("name", name.elim .null .text), ("status", status.elim .null .text)]
  commitTx
  get actor id

/-- A department without children and members is deleted. Both are counted by the check, and
again by the statement. -/
def delete (actor : ActorContext) (id : Nat) : Db Unit := do
  let current ← Repositories.Departments.findById actor id
  let current ← Prog.okOr current (.notFound "部门不存在或超出数据范围")
  Prog.reject current.row.parentId.isNone (.forbidden "根部门不可删除")
  Prog.reject (current.childCount > 0) (.conflict "部门仍有下级部门，请先移动或删除下级部门")
  Prog.reject (current.memberCount > 0) (.conflict "部门仍有成员，请先将成员调至其他部门")
  beginTx
  let deleted ← Repositories.Departments.deleteIfEmpty actor.organizationId id
  Prog.reject (!deleted) (.conflict "部门已被占用，请刷新后重试")
  Repositories.AuditLogs.record (some actor.userId) "department.delete" "department" (some id)
    [("code", .text current.row.code), ("name", .text current.row.name)]
  commitTx

end ArcAdmin.Services.Departments
