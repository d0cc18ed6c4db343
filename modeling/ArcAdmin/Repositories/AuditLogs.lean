import ArcAdmin.External
import ArcAdmin.Paging
import ArcAdmin.Repositories.Departments
import Mathlib.Data.Prod.Lex

/-!
# Audit log repository

`record`, `list` and `count` of `repositories/audit_logs.rs`. The column `trace_id` is kept apart
(`Sql.traceId`): it comes from the telemetry layer, and `record` only passes it on.
-/

namespace ArcAdmin.Repositories.AuditLogs

open ReadCommitted

def recordStmt (s : Snap) (actorUserId : Option Nat) (action targetType : String)
    (targetId : Option Nat) (details : List (String × Detail)) : Insert Table .auditLogs :=
  let user (id : Nat) : Option UserRow := s.store.get .users id
  let actor : Option UserRow := actorUserId.bind user
  let target : Option UserRow := if targetType == "user" then targetId.bind user else none
  { key := fun n => n
    row := fun _ =>
      { actorUserId, action, targetType, targetId, details
        organizationId := (actor.map (·.organizationId)).or (target.map (·.organizationId))
        departmentId :=
          (actor.bind (·.departmentId)).or (target.bind (·.departmentId))
        createdAt := s.now }
    evs := fun _ => []
    hkey := fun _ _ h => (Option.some.inj h).symm
    ok := insert_noEvents }

/-- Check the foreign key of a nullable column. -/
def referencesOption (t : Table) (id : Option t.Id) (cond : t.Row → Bool) : Db Unit :=
  match id with
  | some id => references t id cond (dbError .foreignKeyViolation)
  | none => .ret ()

def record (actorUserId : Option Nat) (action targetType : String) (targetId : Option Nat)
    (details : List (String × Detail)) : Db Unit := do
  let s ← query
  let stmt := recordStmt s actorUserId action targetType targetId details
  let _ ← stmt.exec (dbError .uniqueViolation)
  referencesOption .users actorUserId fun _ => true
  referencesOption .organizations (stmt.row 0).organizationId fun _ => true
  referencesOption .departments (stmt.row 0).departmentId fun _ => true

/-! ## Listing

The listing and the count share their filters. A page is cut either by its number or by the
cursor, which compares the time and the id as one row.
-/

/-- A row of the listing query. -/
structure Listed where
  id : Nat
  actorUserId : Option Nat
  actorUsername : Option String
  action : String
  targetType : String
  targetId : Option Nat
  details : List (String × Detail)
  traceId : Option String
  createdAt : Int
deriving DecidableEq, Repr

/-- `LEFT JOIN users u ON u.id = a.actor_user_id`. -/
def actorUsername (s : Snap) (row : AuditLogRow) : Option String :=
  (row.actorUserId.bind fun id => s.store.get .users id).map fun u : UserRow => u.username

def listed (sql : Sql) (s : Snap) (e : Nat × AuditLogRow) : Listed where
  id := e.1
  actorUserId := e.2.actorUserId
  actorUsername := actorUsername s e.2
  action := e.2.action
  targetType := e.2.targetType
  targetId := e.2.targetId
  details := e.2.details
  traceId := sql.traceId e.1
  createdAt := e.2.createdAt

/-- The row-level data scope of the audit queries. -/
def isVisible (s : Snap) (actor : ActorContext) (row : AuditLogRow) : Bool :=
  actor.dataScope == .all ||
    (row.organizationId == some actor.organizationId &&
      (actor.dataScope == .organization ||
        (actor.dataScope == .selfOnly && row.actorUserId == some actor.userId) ||
        (actor.dataScope == .department && row.departmentId.isSome &&
          row.departmentId == actor.departmentId) ||
        (actor.dataScope == .departmentAndChildren &&
          row.departmentId.any
            (Departments.visibleDepartments s actor.organizationId actor.departmentId).contains)))

/-- The filters of the audit queries. -/
def isMatch (sql : Sql) (s : Snap) (keyword action : Option String) (e : Nat × AuditLogRow) : Bool :=
  (keyword.all fun k =>
      let like := "%" ++ k ++ "%"
      sql.ilike e.2.action like || sql.ilike e.2.targetType like ||
        (actorUsername s e.2).any (sql.ilike · like) || sql.traceId e.1 == some k) &&
    action.all fun a => e.2.action == a

/-- The rows that an actor sees under a filter. -/
def selected (sql : Sql) (s : Snap) (actor : ActorContext) (keyword action : Option String) :
    List (Nat × AuditLogRow) :=
  (s.store.rows .auditLogs).filter fun e : Nat × AuditLogRow =>
    isVisible s actor e.2 && isMatch sql s keyword action e

/-- `(created_at, id)`, compared as a row of SQL. -/
def sortKey (e : Nat × AuditLogRow) : Int ×ₗ Nat := toLex (e.2.createdAt, e.1)

def listIn (sql : Sql) (s : Snap) (actor : ActorContext) (keyword action : Option String)
    (page pageSize : Nat) (cursor : Option (Int × Nat)) : List Listed :=
  let rows := (selected sql s actor keyword action).filter
    (Paging.below sortKey (cursor.map toLex))
  let offset := if cursor.isSome then 0 else (page - 1) * pageSize
  (((Paging.newestFirst sortKey rows).drop offset).take (pageSize + 1)).map (listed sql s)

def list (sql : Sql) (actor : ActorContext) (keyword action : Option String)
    (page pageSize : Nat) (cursor : Option (Int × Nat)) : Db (List Listed) := do
  let s ← poolQuery
  return listIn sql s actor keyword action page pageSize cursor

def count (sql : Sql) (actor : ActorContext) (keyword action : Option String) : Db Nat := do
  let s ← poolQuery
  return (selected sql s actor keyword action).length

end ArcAdmin.Repositories.AuditLogs
