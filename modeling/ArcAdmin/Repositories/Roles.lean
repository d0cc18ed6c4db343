import ArcAdmin.Repositories.Users

/-!
# Role and permission repositories

`repositories/roles.rs` and the permission queries of `repositories/permissions.rs`. Lists of
permission codes stand for the sets into which the services collect them, so their order is left
open.
-/

namespace ArcAdmin.Repositories

open ReadCommitted

namespace Roles

structure NewRole where
  code : String
  name : String
  category : String
  icon : Option String
  color : String
  description : Option String
  dataScope : String

inductive NullableTextUpdate where
  | unchanged
  | set (value : Option String)
deriving DecidableEq, Repr

def NullableTextUpdate.apply : NullableTextUpdate → Option String → Option String
  | .unchanged, old => old
  | .set value, _ => value

structure RoleUpdate where
  name : Option String
  category : Option String
  icon : NullableTextUpdate
  color : Option String
  description : NullableTextUpdate
  dataScope : Option String
  isActive : Option Bool

/-- A role as the service reads it, with the number of its live members. -/
structure Found where
  id : Nat
  row : RoleRow
  members : Nat

/-- The live users that hold a role. -/
def liveMembers (s : Snap) (roleId : Nat) : List Nat :=
  ((s.store.rows .userRoles).filter fun e => e.1.2 == roleId &&
    (s.store.get .users e.1.1).any fun u : UserRow => u.deletedAt.isNone).map fun e => e.1.1

def findById (id : Nat) : Db (Option Found) := do
  let s ← poolQuery
  return (s.store.get .roles id).map fun row => ⟨id, row, (liveMembers s id).length⟩

def createStmt (s : Snap) (role : NewRole) : Insert Table .roles where
  key n := n
  row _ :=
    { code := role.code
      name := role.name
      category := role.category
      icon := role.icon
      color := role.color
      description := role.description
      dataScope := role.dataScope
      isActive := true
      createdAt := s.now
      updatedAt := s.now }
  evs _ := []
  hkey _ _ h := (Option.some.inj h).symm
  ok := insert_noEvents

def create (role : NewRole) : Db Nat := do
  let s ← query
  (createStmt s role).exec (dbError .uniqueViolation)

/-- The active role with that code in a snapshot. -/
def activeByCode (s : Snap) (code : String) : Option Nat :=
  ((s.store.rows .roles).find? fun e => e.2.code == code && e.2.isActive).map (·.1)

def idByCode (code : String) : Db (Option Nat) := do
  let s ← poolQuery
  return activeByCode s code

/-- The active roles among `roleIds` in a snapshot. -/
def activeAmong (s : Snap) (roleIds : List Nat) : List Nat :=
  ((s.store.rows .roles).filter fun e => roleIds.contains e.1 && e.2.isActive).map (·.1)

def activeIdsByIds (roleIds : List Nat) : Db (List Nat) := do
  let s ← poolQuery
  return activeAmong s roleIds

def updateStmt (id : Nat) (role : RoleUpdate) : Update Table .roles where
  cond _ i _ := i == id
  set s row :=
    { row with
      name := role.name.getD row.name
      category := role.category.getD row.category
      icon := role.icon.apply row.icon
      color := role.color.getD row.color
      description := role.description.apply row.description
      dataScope := role.dataScope.getD row.dataScope
      isActive := role.isActive.getD row.isActive
      updatedAt := s.now }
  evs _ _ := []
  ok _ _ _ _ := ⟨rfl, rfl⟩

def update (id : Nat) (role : RoleUpdate) : Db Bool := do
  let rows ← (updateStmt id role).exec
  return !rows.isEmpty

def deleteIfUnassignedStmt (id : Nat) : Delete Table .roles where
  cond s i _ := i == id && (liveMembers s i).isEmpty
  ok _ _ _ _ := rfl

/-- `ON DELETE CASCADE` of `user_roles (role_id)`. -/
def cascadeUserRolesStmt (roleId : Nat) : Delete Table .userRoles where
  cond _ id _ := id.2 == roleId
  seen s id row := LinkRow.isStored row (s.store.get .userRoles id)
  ok _ _ _ _ := rfl

/-- `DELETE FROM role_permissions WHERE role_id = $1`, and `ON DELETE CASCADE` of its role. -/
def clearPermissionsStmt (roleId : Nat) : Delete Table .rolePermissions where
  cond _ id _ := id.1 == roleId
  seen s id row := LinkRow.isStored row (s.store.get .rolePermissions id)
  ok _ _ _ _ := rfl

def deleteIfUnassigned (id : Nat) : Db Bool := do
  let deleted ← (deleteIfUnassignedStmt id).exec
  Prog.forEach deleted fun roleId => do
    let _ ← (cascadeUserRolesStmt roleId).exec
    let _ ← (clearPermissionsStmt roleId).exec
  return !deleted.isEmpty

/-- The permissions of a role in a snapshot, by key. -/
def permissionsOf (s : Snap) (roleId : Nat) : List Nat :=
  (((s.store.rows .rolePermissions).filter fun e => e.1.1 == roleId).map
    fun e => e.1.2).insertionSort (· ≤ ·)

def permissionIdsByRole (roleId : Nat) : Db (List Nat) := do
  let s ← poolQuery
  return permissionsOf s roleId

def permissionGroupIdsByRole (roleId : Nat) : Db (List Nat) := do
  let s ← poolQuery
  let groups := (permissionsOf s roleId).filterMap fun id =>
    (s.store.get .permissions id).map fun p : PermissionRow => p.groupId
  return groups.dedup.insertionSort (· ≤ ·)

def assignPermissionStmt (roleId permissionId : Nat) : Insert Table .rolePermissions where
  key _ := (roleId, permissionId)
  row n := ⟨n⟩
  evs n := [.permissionAssigned n]
  hkey _ _ h := by cases h
  ok _ := rfl

/-- `INSERT INTO role_permissions` with its two foreign keys. -/
def assignPermission (roleId permissionId : Nat) : Db Unit := do
  let _ ← (assignPermissionStmt roleId permissionId).exec (dbError .uniqueViolation)
  references .roles roleId (fun _ => true) (dbError .foreignKeyViolation)
  references .permissions permissionId (fun _ => true) (dbError .foreignKeyViolation)

/-- The permissions of a role are deleted and inserted.  The result is how much of the journal had been
written when the `DELETE` took its snapshot. -/
def assignPermissions (roleId : Nat) (permissionIds : List Nat) : Db Nat := do
  let s ← query
  let _ ← (clearPermissionsStmt roleId).execOn s
  Prog.forEach permissionIds fun permissionId => assignPermission roleId permissionId
  return s.asOf

end Roles

namespace Permissions

/-- The code of a permission in a snapshot. -/
def codeOf (s : Snap) (id : Nat) : Option String :=
  (s.store.get .permissions id).map fun p : PermissionRow => p.code

def codesByIds (permissionIds : List Nat) : Db (List String) := do
  let s ← query
  return ((s.store.rows .permissions).filter fun e => permissionIds.contains e.1).map (·.2.code)

/-- The codes that the permissions of the roles carry. -/
def codesOfRoles (s : Snap) (roleIds : List Nat) : List String :=
  (((s.store.rows .rolePermissions).filter fun e => roleIds.contains e.1.1).filterMap
    fun e => codeOf s e.1.2).dedup

def codesByRoleIds (roleIds : List Nat) : Db (List String) := do
  let s ← poolQuery
  return codesOfRoles s roleIds

/-- The active roles of a user in a snapshot. -/
def activeRolesOf (s : Snap) (userId : Nat) : List (Nat × RoleRow) :=
  (s.store.rows .roles).filter fun e =>
    e.2.isActive && (s.store.get .userRoles (userId, e.1)).isSome

/-- The codes of the active roles of a user, and none for a user that is not active. -/
def codesOfUser (s : Snap) (userId : Nat) : List String :=
  if Users.isActive s userId then codesOfRoles s ((activeRolesOf s userId).map (·.1)) else []

def permissionCodesByUser (userId : Nat) : Db (List String) := do
  let s ← poolQuery
  return codesOfUser s userId

structure DashboardStats where
  totalUsers : Nat
  activeUsers : Nat
  totalRoles : Nat
  totalPermissions : Nat
  suspendedUsers : Nat
deriving DecidableEq, Repr

def stats (actor : ActorContext) : Db DashboardStats := do
  let s ← poolQuery
  let users := Users.visibleUsers s actor
  return {
    totalUsers := users.length
    activeUsers := (users.filter fun u => u.2.status == "active").length
    totalRoles := (s.store.rows .roles).length
    totalPermissions := (s.store.rows .permissions).length
    suspendedUsers := (users.filter fun u => u.2.status == "suspended").length }

end Permissions

end ArcAdmin.Repositories
