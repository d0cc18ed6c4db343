import ArcAdmin.Models

/-!
# Audit log service

`services/audit_logs.rs`: the page and filter parameters of the audit listing, and its cursor, which
is the time in microseconds and the id of the last row that has been read.
-/

namespace ArcAdmin.Services.AuditLogs

open ReadCommitted
open Repositories.AuditLogs (Listed)

/-- The microseconds that a `chrono::DateTime<Utc>` can hold. -/
def minTimestampMicros : Int := -8334601228800000000

def maxTimestampMicros : Int := 8210266876799999999

/-- `chrono::DateTime::from_timestamp_micros`. -/
def fromTimestampMicros (micros : Int) : Option Int :=
  if minTimestampMicros ≤ micros ∧ micros ≤ maxTimestampMicros then some micros else none

def parseCursor (cursor : String) : Except ApiError (Int × Nat) := do
  let invalid : ApiError := .validation "cursor 格式无效"
  let (timestamp, id) ← (splitOnce '.' cursor.toList).elim (.error invalid) .ok
  let timestamp ← (parseI64 timestamp).elim (.error invalid) .ok
  let id ← (parseI64 id).elim (.error invalid) .ok
  let createdAt ← (fromTimestampMicros timestamp).elim (.error invalid) .ok
  if id ≤ 0 then .error invalid
  return (createdAt, id.toNat)

def encodeCursor (row : Listed) : String := toString row.createdAt ++ "." ++ toString row.id

/-- A filter that is not blank. -/
def normalizedFilter (value : Option String) : Option String :=
  (value.map trim).filter fun value => !isEmpty value

def list (sql : Sql) (actor : ActorContext) (query : AuditLogQuery) : Db PageAuditLog := do
  let page := (max (query.page.getD 1) 1).toNat
  let pageSize := (max 1 (min (query.pageSize.getD 20) 100)).toNat
  let keyword := normalizedFilter query.keyword
  let action := normalizedFilter query.action
  let cursor ← Prog.okOrThrow (query.cursor.mapM parseCursor)
  let rows ← Repositories.AuditLogs.list sql actor keyword action page pageSize cursor
  let total ← Repositories.AuditLogs.count sql actor keyword action
  let hasMore := rows.length > pageSize
  let rows := if hasMore then rows.dropLast else rows
  let nextCursor := if hasMore then rows.getLast?.map encodeCursor else none
  return { items := rows.map auditLogResponse, total, page, pageSize, nextCursor }

end ArcAdmin.Services.AuditLogs
