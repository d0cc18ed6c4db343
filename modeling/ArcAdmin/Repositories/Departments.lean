import ArcAdmin.Schema

/-!
# Department repository

The recursive queries over the department tree: `visible_departments` of the user queries, which
discards duplicates (`UNION`), and those of `repositories/departments.rs`, which do not
(`UNION ALL`) and therefore never end on a cycle; and the statements that change departments, with
their foreign keys. The column `depth`, which only responses show, is left out.
-/

namespace ArcAdmin.Repositories.Departments

open ReadCommitted

/-- The children of the departments `parents` within one organization. -/
def children (s : Snap) (organizationId : Nat) (parents : List Nat) :
    List (Nat × DepartmentRow) :=
  (s.store.rows .departments).filter fun e =>
    e.2.organizationId == organizationId && e.2.parentId.any parents.contains

/-- Add the children of the departments found last until nothing is new. -/
def closure (s : Snap) (organizationId : Nat) : Nat → List Nat → List Nat → List Nat
  | 0, found, _ => found
  | fuel + 1, found, last =>
    let new := ((children s organizationId last).map (·.1)).filter fun id => !found.contains id
    if new.isEmpty then found else closure s organizationId fuel (found ++ new) new

/-- `visible_departments`: the department and everything below it. One round per department is
enough, since every round but the last finds a new one. -/
def visibleDepartments (s : Snap) (organizationId : Nat) (departmentId : Option Nat) : List Nat :=
  let roots := ((s.store.rows .departments).filter fun e =>
    some e.1 == departmentId && e.2.organizationId == organizationId).map (·.1)
  closure s organizationId (s.store.rows .departments).length roots roots

/-- The levels of the `UNION ALL` recursion below `level`; `none` if it does not end. A path of
more departments than there are has been through a cycle. -/
def levels (s : Snap) (organizationId : Nat) (deeper : Bool) :
    Nat → List (Nat × DepartmentRow) → Option (List (Nat × DepartmentRow))
  | _, [] => some []
  | 0, _ :: _ => none
  | fuel + 1, level =>
    let next := if deeper then children s organizationId (level.map (·.1)) else []
    (levels s organizationId deeper fuel next).map fun rest => level ++ rest

/-! ## `find_by_id`

The query returns the department with the number of its members and of its children, which the
checks of the service rest on.
-/

/-- A department as `find_by_id` returns it. -/
structure Found where
  id : Nat
  row : DepartmentRow
  memberCount : Nat
  childCount : Nat
deriving DecidableEq, Repr

/-- The departments that an actor sees, or `none` if the recursion does not end. -/
def visible (s : Snap) (actor : ActorContext) : Option (List (Nat × DepartmentRow)) :=
  let wide := actor.dataScope == .all || actor.dataScope == .organization
  let roots := (s.store.rows .departments).filter fun e =>
    e.2.organizationId == actor.organizationId &&
      ((wide && e.2.parentId.isNone) || (!wide && some e.1 == actor.departmentId))
  let deeper := wide || actor.dataScope == .departmentAndChildren
  levels s actor.organizationId deeper (s.store.rows .departments).length roots

/-- The live users of a department. -/
def memberCount (s : Snap) (id : Nat) : Nat :=
  ((s.store.rows .users).filter fun e =>
    e.2.departmentId == some id && e.2.deletedAt.isNone).length

/-- The departments directly below a department. -/
def childCount (s : Snap) (id : Nat) : Nat :=
  ((s.store.rows .departments).filter fun e => e.2.parentId == some id).length

def findById (actor : ActorContext) (id : Nat) : Db (Option Found) := do
  let s ← poolQuery
  let rows ← Prog.okOr (visible s actor) (dbError .statementTimeout)
  return (rows.find? fun e => e.1 == id).map fun e =>
    { id := e.1, row := e.2, memberCount := memberCount s e.1, childCount := childCount s e.1 }

/-! ## Checks

Queries that change nothing. Each takes its own snapshot, so what one of them has found may have
changed when the next one looks.
-/

def codeExists (organizationId : Nat) (code : String) (excludeId : Option Nat) : Db Bool := do
  let s ← poolQuery
  return (s.store.rows .departments).any fun e =>
    e.2.organizationId == organizationId && e.2.code == code && excludeId.all (e.1 != ·)

/-- The department and its descendants, or `none` if the recursion does not end. -/
def descendants (s : Snap) (organizationId departmentId : Nat) : Option (List (Nat × DepartmentRow)) :=
  let roots := (s.store.rows .departments).filter fun e =>
    e.1 == departmentId && e.2.organizationId == organizationId
  levels s organizationId true (s.store.rows .departments).length roots

def parentWouldCreateCycle (organizationId departmentId parentId : Nat) : Db Bool := do
  let s ← poolQuery
  let rows ← Prog.okOr (descendants s organizationId departmentId) (dbError .statementTimeout)
  return rows.any fun e => e.1 == parentId

/-! ## Statements

The statements with their foreign keys. A foreign key to a department is checked against the
departments that are committed, or written by the transaction itself.
-/

structure NewDepartment where
  parentId : Nat
  code : String
  name : String
  status : String

structure DepartmentUpdate where
  parentId : Option Nat
  code : Option String
  name : Option String
  status : Option String

/-- The composite foreign key `(parent_id, organization_id)`. -/
def referencesParent (parentId organizationId : Nat) : Db Unit :=
  references .departments parentId (fun d : DepartmentRow => d.organizationId == organizationId)
    (dbError .foreignKeyViolation)

def createStmt (s : Snap) (organizationId : Nat) (department : NewDepartment) :
    Insert Table .departments where
  key n := n
  row _ :=
    { organizationId
      parentId := some department.parentId
      code := department.code
      name := department.name
      status := department.status
      createdAt := s.now
      updatedAt := s.now }
  evs _ := []
  hkey _ _ h := (Option.some.inj h).symm
  ok _ := rfl

def create (organizationId : Nat) (department : NewDepartment) : Db Nat := do
  let s ← query
  let id ← (createStmt s organizationId department).exec (dbError .uniqueViolation)
  references .organizations organizationId (fun _ => true) (dbError .foreignKeyViolation)
  referencesParent department.parentId organizationId
  return id

def updateStmt (organizationId id : Nat) (department : DepartmentUpdate) :
    Update Table .departments where
  cond _ i row := i == id && row.organizationId == organizationId
  set s row :=
    { row with
      parentId := department.parentId.or row.parentId
      code := department.code.getD row.code
      name := department.name.getD row.name
      status := department.status.getD row.status
      updatedAt := s.now }
  evs _ _ := []
  ok _ _ _ _ := rfl

/-- The unique index `(organization_id, code)`.

Two updates that are under way at the same time and give one code to two departments both pass, since
neither sees what the other has written.  In the database the second one waits for the first, and fails
when that commits; so the runs of the model include those of the database, and a few more. -/
def codeIsUnique (organizationId id : Nat) (code : String) : Db Unit := do
  let s ← query
  Prog.reject
    ((s.store.rows .departments).any fun e =>
      e.1 != id && e.2.organizationId == organizationId && e.2.code == code)
    (dbError .uniqueViolation)

def update (organizationId id : Nat) (department : DepartmentUpdate) : Db Bool := do
  let rows ← (updateStmt organizationId id department).exec
  Prog.whenever (!rows.isEmpty) do
    Prog.ifSome department.code fun code => codeIsUnique organizationId id code
    Prog.ifSome department.parentId fun parentId => referencesParent parentId organizationId
  return !rows.isEmpty

/-- Take the deleted users out of the department. -/
def detachDeletedStmt (id : Nat) : Update Table .users where
  cond _ _ row := row.departmentId == some id && row.deletedAt.isSome
  set s row := { row with departmentId := none, updatedAt := s.now }
  evs _ _ := []
  ok _ _ _ _ := ⟨rfl, fun _ => rfl, .inr (.inr ⟨rfl, .inr rfl, rfl, rfl⟩)⟩

def deleteIfEmptyStmt (organizationId id : Nat) : Delete Table .departments where
  cond s i row := i == id && row.organizationId == organizationId && row.parentId.isSome &&
    childCount s i == 0 && memberCount s i == 0
  ok _ _ _ _ := rfl

/-- The tables with a foreign key to `departments`: departments, users and the audit log. -/
def isReferenced (s : Snap) (id : Nat) : Bool :=
  (s.store.rows .departments).any (fun e => e.2.parentId == some id) ||
    (s.store.rows .users).any (fun e => e.2.departmentId == some id) ||
    (s.store.rows .auditLogs).any fun e => e.2.departmentId == some id

/-- The foreign keys to the departments that a statement deleted. -/
def restrict (deleted : List Nat) : Db Unit :=
  Prog.forEach deleted fun id => do
    let s ← query
    Prog.reject (isReferenced s id) (dbError .foreignKeyViolation)

def deleteIfEmpty (organizationId id : Nat) : Db Bool := do
  let _ ← (detachDeletedStmt id).exec
  let deleted ← (deleteIfEmptyStmt organizationId id).exec
  restrict deleted
  return !deleted.isEmpty

end ArcAdmin.Repositories.Departments
