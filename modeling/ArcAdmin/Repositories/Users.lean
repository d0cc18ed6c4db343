import ArcAdmin.External
import ArcAdmin.Paging
import ArcAdmin.Repositories.Departments
import Mathlib.Data.List.Dedup
import Mathlib.Data.List.Sort

/-!
# User repository

`repositories/users.rs`: the statements on users and their role assignments. A user row that a
statement returns comes with its key and with the position of the statement snapshot in the
journal (`asOf`, which no function decides on).
-/

namespace ArcAdmin.Repositories.Users

open ReadCommitted

/-- A user row as a statement read it. -/
structure Found where
  id : Nat
  row : UserRow
  asOf : Nat
deriving DecidableEq, Repr

structure NewUser where
  username : String
  passwordHash : String
  displayName : String
  email : Option String
  status : String
  organizationId : Nat
  departmentId : Option Nat

/-- The live user of that name in a snapshot. -/
def byUsername (s : Snap) (username : String) : Option Found :=
  ((s.store.rows .users).find? fun e => e.2.username == username && e.2.deletedAt.isNone).map
    fun e => ⟨e.1, e.2, s.asOf⟩

def findByUsername (username : String) : Db (Option Found) := do
  let s ← poolQuery
  return byUsername s username

/-- The live user under that key in a snapshot. -/
def byId (s : Snap) (id : Nat) : Option Found :=
  ((s.store.get .users id).filter fun row : UserRow => row.deletedAt.isNone).map
    fun row => ⟨id, row, s.asOf⟩

def findById (id : Nat) : Db (Option Found) := do
  let s ← poolQuery
  return byId s id

/-- The row-level data scope of the user queries. -/
def isVisible (s : Snap) (actor : ActorContext) (id : Nat) (row : UserRow) : Bool :=
  actor.dataScope == .all ||
    (row.organizationId == actor.organizationId &&
      (actor.dataScope == .organization ||
        (actor.dataScope == .selfOnly && id == actor.userId) ||
        (actor.dataScope == .department && row.departmentId.isSome &&
          row.departmentId == actor.departmentId) ||
        (actor.dataScope == .departmentAndChildren &&
          row.departmentId.any
            (Departments.visibleDepartments s actor.organizationId actor.departmentId).contains)))

def findByIdForActor (actor : ActorContext) (id : Nat) : Db (Option Found) := do
  let s ← poolQuery
  return (byId s id).filter fun found => isVisible s actor id found.row

/-- The composite foreign key `(department_id, organization_id)`. -/
def referencesDepartment (departmentId : Option Nat) (organizationId : Nat) : Db Unit :=
  match departmentId with
  | some id =>
    references .departments id (fun d : DepartmentRow => d.organizationId == organizationId)
      (dbError .foreignKeyViolation)
  | none => .ret ()

def createStmt (s : Snap) (user : NewUser) : Insert Table .users where
  key n := n
  row _ :=
    { username := user.username
      passwordHash := user.passwordHash
      displayName := user.displayName
      email := user.email
      status := user.status
      organizationId := user.organizationId
      departmentId := user.departmentId
      tokenVersion := 0
      lastLoginAt := none
      createdAt := s.now
      updatedAt := s.now
      deletedAt := none }
  evs _ := []
  hkey _ _ h := (Option.some.inj h).symm
  ok _ := ⟨rfl, rfl, rfl⟩

def create (user : NewUser) : Db Found := do
  let s ← query
  let stmt := createStmt s user
  let id ← stmt.exec (dbError .uniqueViolation)
  references .organizations user.organizationId (fun _ => true) (dbError .foreignKeyViolation)
  referencesDepartment user.departmentId user.organizationId
  return ⟨id, stmt.row id, s.asOf⟩

def activateBootstrapAccountStmt (id : Nat) (passwordHash displayName : String)
    (email : Option String) : Update Table .users where
  cond _ i row := i == id && row.deletedAt.isNone
  set s row :=
    { row with
      passwordHash
      displayName
      email
      status := "active"
      tokenVersion := row.tokenVersion + 1
      updatedAt := s.now }
  evs _ _ := [.passwordReplaced]
  ok _ _ _ _ := ⟨rfl, fun _ => rfl, .inl ⟨rfl, rfl⟩⟩

def activateBootstrapAccount (id : Nat) (passwordHash displayName : String)
    (email : Option String) : Db UserRow := do
  let rows ← (activateBootstrapAccountStmt id passwordHash displayName email).exec
  Prog.okOr rows.head? (dbError .rowNotFound)

def updateProfileStmt (id : Nat) (displayName : Option String) (emailIsSet : Bool)
    (email : Option String) (status : Option String) (departmentId : Option Nat) :
    Update Table .users where
  cond _ i row := i == id && row.deletedAt.isNone
  set s row :=
    { row with
      displayName := displayName.getD row.displayName
      email := if emailIsSet then email else row.email
      status := status.getD row.status
      departmentId := departmentId.or row.departmentId
      updatedAt := s.now }
  evs _ _ := if status.any (· != "active") then [.suspended] else []
  ok s i row _ := by
    refine ⟨rfl, fun _ => rfl, ?_⟩
    cases status with
    | none => exact .inr (.inr ⟨rfl, .inr rfl, rfl, rfl⟩)
    | some st =>
      by_cases hst : st = "active"
      · exact .inr (.inr ⟨by simp [hst], .inl hst, rfl, rfl⟩)
      · exact .inr (.inl ⟨by simp [hst], hst, rfl, rfl⟩)

def updateProfile (id : Nat) (displayName : Option String) (emailIsSet : Bool)
    (email : Option String) (status : Option String) (departmentId : Option Nat) :
    Db (Option UserRow) := do
  let rows ← (updateProfileStmt id displayName emailIsSet email status departmentId).exec
  match rows.head? with
  | none => return none
  | some row =>
    Prog.whenever departmentId.isSome (referencesDepartment row.departmentId row.organizationId)
    return some row

def updatePasswordStmt (id : Nat) (passwordHash : String) : Update Table .users where
  cond _ i row := i == id && row.deletedAt.isNone
  set s row :=
    { row with passwordHash, tokenVersion := row.tokenVersion + 1, updatedAt := s.now }
  evs _ _ := [.passwordReplaced]
  ok _ _ _ _ := ⟨rfl, fun _ => rfl, .inl ⟨rfl, rfl⟩⟩

def updatePassword (id : Nat) (passwordHash : String) : Db (Option UserRow) := do
  let rows ← (updatePasswordStmt id passwordHash).exec
  return rows.head?

def softDeleteStmt (id : Nat) : Update Table .users where
  cond _ i row := i == id && row.deletedAt.isNone
  set s row := { row with deletedAt := some s.now, updatedAt := s.now }
  evs _ _ := []
  ok s i row h := by
    have hlive : row.deletedAt = none := by simpa using (Bool.and_eq_true_iff.1 h).2
    exact ⟨rfl, fun hdel => by simp [hlive] at hdel, .inr (.inr ⟨rfl, .inr rfl, rfl, rfl⟩)⟩

/-- `DELETE FROM user_roles WHERE user_id = $1`. -/
def clearRolesStmt (userId : Nat) : Delete Table .userRoles where
  cond _ id _ := id.1 == userId
  seen s id row := LinkRow.isStored row (s.store.get .userRoles id)
  ok _ _ _ _ := rfl

def softDelete (id : Nat) : Db Bool := do
  let rows ← (softDeleteStmt id).exec
  Prog.whenever (!rows.isEmpty) do
    let _ ← (clearRolesStmt id).exec
  return !rows.isEmpty

/-- Whether a user is live and has the status `active`. -/
def isActive (s : Snap) (id : Nat) : Bool :=
  (s.store.get .users id).any fun row : UserRow =>
    row.deletedAt.isNone && row.status == "active"

/-- The live users with status `active` that hold a role, each once. -/
def activeHolders (s : Snap) (roleId : Nat) : List Nat :=
  (((s.store.rows .userRoles).filter fun e => e.1.2 == roleId && isActive s e.1.1).map
    fun e => e.1.1).dedup

def superAdminGuardState (userId : Nat) : Db (Bool × Nat) := do
  let locked : List (Nat × RoleRow) ←
    selectForUpdate Table.roles fun _ _ (row : RoleRow) => row.code == "super_admin"
  match locked.head? with
  | none => return (false, 0)
  | some (roleId, _) =>
    let s ← query
    let holders := activeHolders s roleId
    return (holders.contains userId, holders.length)

def updateLastLoginStmt (id : Nat) : Update Table .users where
  cond _ i _ := i == id
  set s row := { row with lastLoginAt := some s.now }
  evs _ _ := []
  ok _ _ _ _ := ⟨rfl, fun _ => rfl, .inr (.inr ⟨rfl, .inr rfl, rfl, rfl⟩)⟩

def updateLastLogin (id : Nat) : Db Unit := do
  let _ ← (updateLastLoginStmt id).exec

/-- The roles assigned to a user, by key. -/
def rolesOf (s : Snap) (userId : Nat) : List Nat :=
  (((s.store.rows .userRoles).filter fun e => e.1.1 == userId).map fun e => e.1.2).insertionSort
    (· ≤ ·)

def roleNamesByUser (userId : Nat) : Db (List String) := do
  let s ← poolQuery
  return (rolesOf s userId).filterMap fun id => (s.store.get .roles id).map fun r : RoleRow => r.name

def roleIdsByUser (userId : Nat) : Db (List Nat) := do
  let s ← poolQuery
  return rolesOf s userId

def assignRoleStmt (userId roleId : Nat) : Insert Table .userRoles where
  key _ := (userId, roleId)
  row n := ⟨n⟩
  evs _ := [.roleAssigned]
  hkey _ _ h := by cases h
  ok _ := rfl

/-- `INSERT INTO user_roles` with its two foreign keys. -/
def assignRole (userId roleId : Nat) : Db Unit := do
  let _ ← (assignRoleStmt userId roleId).exec (dbError .uniqueViolation)
  references .users userId (fun _ => true) (dbError .foreignKeyViolation)
  references .roles roleId (fun _ => true) (dbError .foreignKeyViolation)

/-- The roles of a user are deleted and inserted.  The result is how much of the journal had been
written when the `DELETE` took its snapshot. -/
def assignRoles (userId : Nat) (roleIds : List Nat) : Db Nat := do
  let s ← query
  let _ ← (clearRolesStmt userId).execOn s
  Prog.forEach roleIds fun roleId => assignRole userId roleId
  return s.asOf

/-! ## Listing

The list and the count have the same filters, written twice in the source. Both restrict the rows
to the scope of the actor by the query that `isVisible` stands for.
-/

inductive UserSort where
  | usernameAsc
  | usernameDesc
  | displayNameAsc
  | displayNameDesc
  | emailAsc
  | emailDesc
  | statusAsc
  | statusDesc
  | lastLoginAtAsc
  | lastLoginAtDesc
  | createdAtAsc
  | createdAtDesc
deriving DecidableEq, Repr

structure UserListParams where
  keyword : Option String
  status : Option String
  role : Option String
  sort : UserSort
  page : Nat
  pageSize : Nat

/-- `NULLS LAST`. -/
def nullsLast {α : Type} (le : α → α → Bool) : Option α → Option α → Bool
  | _, none => true
  | none, some _ => false
  | some a, some b => le a b

/-- The column of `ORDER BY`, with its direction. -/
def UserSort.le (sql : Sql) : UserSort → UserRow → UserRow → Bool
  | .usernameAsc, a, b => sql.collate a.username b.username
  | .usernameDesc, a, b => sql.collate b.username a.username
  | .displayNameAsc, a, b => sql.collate a.displayName b.displayName
  | .displayNameDesc, a, b => sql.collate b.displayName a.displayName
  | .emailAsc, a, b => nullsLast sql.collate a.email b.email
  | .emailDesc, a, b => nullsLast (fun x y => sql.collate y x) a.email b.email
  | .statusAsc, a, b => sql.collate a.status b.status
  | .statusDesc, a, b => sql.collate b.status a.status
  | .lastLoginAtAsc, a, b => nullsLast (fun x y => decide (x ≤ y)) a.lastLoginAt b.lastLoginAt
  | .lastLoginAtDesc, a, b => nullsLast (fun x y => decide (y ≤ x)) a.lastLoginAt b.lastLoginAt
  | .createdAtAsc, a, b => decide (a.createdAt ≤ b.createdAt)
  | .createdAtDesc, a, b => decide (b.createdAt ≤ a.createdAt)

/-- The filters of the list and of the count query. -/
def isMatch (sql : Sql) (s : Snap) (params : UserListParams) (u : Nat × UserRow) : Bool :=
  (params.keyword.all fun k =>
      let like := "%" ++ k ++ "%"
      sql.ilike u.2.username like || sql.ilike u.2.displayName like ||
        u.2.email.any (sql.ilike · like)) &&
    (params.status.all fun status => u.2.status == status) &&
    params.role.all fun role =>
      (s.store.rows .userRoles).any fun e : (Nat × Nat) × LinkRow =>
        e.1.1 == u.1 && (s.store.get .roles e.1.2).any fun r : RoleRow => r.isActive && r.name == role

/-- A row of the list query. -/
structure WithRoles where
  id : Nat
  username : String
  displayName : String
  email : Option String
  status : String
  departmentId : Option Nat
  lastLoginAt : Option Nat
  createdAt : Nat
  roles : List String
deriving DecidableEq, Repr

/-- `users LEFT JOIN user_roles LEFT JOIN roles`, inactive roles left out: a user with several
assignments comes several times. -/
def joinRoles (s : Snap) : List ((Nat × UserRow) × Option RoleRow) :=
  (s.store.rows .users).flatMap fun u : Nat × UserRow =>
    let assigned := (s.store.rows .userRoles).filter fun e : (Nat × Nat) × LinkRow => e.1.1 == u.1
    if assigned.isEmpty then [(u, none)]
    else assigned.map fun e : (Nat × Nat) × LinkRow =>
      (u, (s.store.get .roles e.1.2).filter fun r : RoleRow => r.isActive)

/-- `array_agg(DISTINCT r.name ORDER BY r.name)`. -/
def aggregateNames (sql : Sql) (roles : List (Option RoleRow)) : List String :=
  ((roles.filterMap fun r => r.map (·.name)).dedup).insertionSort fun a b => sql.collate a b = true

def listIn (sql : Sql) (s : Snap) (actor : ActorContext) (params : UserListParams) :
    List WithRoles :=
  let rows := (joinRoles s).filter fun (u, _) =>
    u.2.deletedAt.isNone && isVisible s actor u.1 u.2 && isMatch sql s params u
  -- `GROUP BY u.id`
  let users := (rows.map (·.1)).dedup
  let sorted := users.insertionSort
    (Paging.OrderedBy (fun a b => params.sort.le sql a.2 b.2) Prod.fst)
  let page := (sorted.drop ((params.page - 1) * params.pageSize)).take params.pageSize
  page.map fun u =>
    { id := u.1
      username := u.2.username
      displayName := u.2.displayName
      email := u.2.email
      status := u.2.status
      departmentId := u.2.departmentId
      lastLoginAt := u.2.lastLoginAt
      createdAt := u.2.createdAt
      roles := aggregateNames sql ((rows.filter fun (v, _) => v.1 == u.1).map (·.2)) }

/-- PostgreSQL has no text with the character U+0000, and refuses it as a parameter. -/
def refusesText (text : String) : Bool := text.toList.contains (Char.ofNat 0)

/-- One of the text parameters of the list and of the count query is refused. -/
def UserListParams.refused (params : UserListParams) : Bool :=
  params.keyword.any refusesText || params.status.any refusesText || params.role.any refusesText

def list (sql : Sql) (actor : ActorContext) (params : UserListParams) : Db (List WithRoles) := do
  let s ← poolQuery
  Prog.reject params.refused (dbError .invalidText)
  return listIn sql s actor params

/-- The live users that an actor sees. -/
def visibleUsers (s : Snap) (actor : ActorContext) : List (Nat × UserRow) :=
  (s.store.rows .users).filter fun u : Nat × UserRow =>
    u.2.deletedAt.isNone && isVisible s actor u.1 u.2

def count (sql : Sql) (actor : ActorContext) (params : UserListParams) : Db Nat := do
  let s ← poolQuery
  Prog.reject params.refused (dbError .invalidText)
  return ((visibleUsers s actor).filter (isMatch sql s params)).length

def roleOptionsIn (sql : Sql) (s : Snap) (actor : ActorContext) : List String :=
  let names := (visibleUsers s actor).flatMap fun u =>
    ((s.store.rows .userRoles).filter fun e : (Nat × Nat) × LinkRow => e.1.1 == u.1).filterMap
      fun e : (Nat × Nat) × LinkRow =>
        ((s.store.get .roles e.1.2).filter fun r : RoleRow => r.isActive).map fun r : RoleRow => r.name
  names.dedup.insertionSort fun a b => sql.collate a b = true

def listRoleOptions (sql : Sql) (actor : ActorContext) : Db (List String) := do
  let s ← poolQuery
  return roleOptionsIn sql s actor

end ArcAdmin.Repositories.Users
