import Mathlib

/-!
# Data scopes, actors and errors

The vocabulary of `access.rs` and `error.rs`, which every other module speaks:

* `DataScope` — the row-level data scopes, their codes in the database (`fromDatabase_asStr`: a code is
  read back as it was written) and which of them an actor may hand out (`canGrant`);
* `ActorContext` — the actor that `authenticate` has made of a request, with its permissions;
* `ApiError` — the errors of the API, with their texts.
-/

namespace ArcAdmin

/-! ## Data scopes

A scope is stored as a text. A code that is none of the five has no scope, and the caller decides
what to make of it.
-/

inductive DataScope where
  | all
  | organization
  | departmentAndChildren
  | department
  | selfOnly
deriving DecidableEq, Repr

namespace DataScope

def asStr : DataScope → String
  | .all => "all"
  | .organization => "organization"
  | .departmentAndChildren => "department_and_children"
  | .department => "department"
  | .selfOnly => "self"

def fromDatabase (value : String) : Option DataScope :=
  if value = "all" then some .all
  else if value = "organization" then some .organization
  else if value = "department_and_children" then some .departmentAndChildren
  else if value = "department" then some .department
  else if value = "self" then some .selfOnly
  else none

def canGrant : DataScope → DataScope → Bool
  | .all, _ => true
  | .organization, requested => requested != .all
  | .departmentAndChildren, requested =>
    requested == .departmentAndChildren || requested == .department || requested == .selfOnly
  | .department, requested => requested == .department || requested == .selfOnly
  | .selfOnly, requested => requested == .selfOnly

@[simp] theorem fromDatabase_asStr (s : DataScope) : fromDatabase s.asStr = some s := by
  cases s <;> rfl

end DataScope

/-! ## Actors

What a request knows of its user is what `authenticate` has read. Later changes of roles or
departments reach the next request, not this one.
-/

structure ActorContext where
  userId : Nat
  sessionId : Nat
  organizationId : Nat
  departmentId : Option Nat
  dataScope : DataScope
  permissionCodes : List String
deriving Repr

namespace ActorContext

def hasPermission (actor : ActorContext) (code : String) : Bool :=
  actor.permissionCodes.contains code

def canCreatePeer (actor : ActorContext) : Bool := actor.dataScope != .selfOnly

end ActorContext

/-! ## Errors

An error carries what the response shows. The database errors are those that some statement of the
service can raise; an outage of the database is a dropped connection.
-/

inductive ApiError where
  | unauthorized
  | forbidden (message : String)
  | notFound (message : String)
  | conflict (message : String)
  | validation (message : String)
  | csrfInvalid
  | rateLimited (retryAfterSecs : Nat)
  | internal (message : String)
deriving DecidableEq, Repr

/-- The database errors that the service tells apart. -/
inductive SqlxError where
  | uniqueViolation
  | foreignKeyViolation
  | rowNotFound
  | statementTimeout
  /-- an interval, a timestamp or an integer out of range -/
  | outOfRange
  /-- a text with the character U+0000 -/
  | invalidText
deriving DecidableEq, Repr

def dbError : SqlxError → ApiError
  | .uniqueViolation => .conflict "唯一约束冲突：用户名或角色编码已存在"
  | .foreignKeyViolation => .validation "关联数据不存在或仍被引用"
  | .rowNotFound => .internal "no rows returned by a query that expected to return at least one row"
  | .statementTimeout => .internal "canceling statement due to statement timeout"
  | .outOfRange => .internal "value out of range"
  | .invalidText => .internal "invalid byte sequence for encoding \"UTF8\": 0x00"

end ArcAdmin
