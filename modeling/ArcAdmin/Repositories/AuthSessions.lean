import ArcAdmin.Repositories.Roles
import ArcAdmin.External

/-!
# Session repository

`repositories/auth_sessions.rs`: server-side sessions and the login throttle. Whether a session is
valid is decided anew on every request, by `acceptedBy`.
-/

namespace ArcAdmin.Repositories.AuthSessions

open ReadCommitted

structure SessionAuthContext where
  sessionId : Nat
  userId : Nat
  csrfTokenHash : String
  organizationId : Nat
  departmentId : Option Nat
  dataScope : String
  permissionCodes : List String
deriving DecidableEq, Repr

structure NewSession where
  userId : Nat
  sessionTokenHash : Nat → String
  csrfTokenHash : Nat → String
  tokenVersion : Nat
  idleTimeoutSecs : Nat
  persistent : Bool
  expiresAt : Nat
  checkedAt : Nat
  readAt : Nat
  completed : Option (Nat × Factor)

/-- The user holds the role `super_admin`, and the role is active. -/
def holdsSuperAdmin (s : Snap) (userId : Nat) : Bool :=
  (Permissions.activeRolesOf s userId).any fun e => e.2.code == "super_admin"

/-- The user has enrolled TOTP. -/
def totpEnabled (s : Snap) (userId : Nat) : Bool :=
  (s.store.get .userMfaSettings userId).any fun m : MfaSettingsRow => m.totpEnabledAt.isSome

/-- The `WHERE` clause of `auth_context`: the session is valid for its user `u`. -/
def acceptedBy (s : Snap) (session : SessionRow) (u : UserRow) : Bool :=
  session.revokedAt.isNone && s.now < session.expiresAt &&
    s.now < session.lastSeenAt + session.idleTimeoutSecs * second &&
    session.tokenVersion == u.tokenVersion && u.deletedAt.isNone && u.status == "active" &&
    (!holdsSuperAdmin s session.userId || totpEnabled s session.userId)

/-- The `data_scope` column of `auth_context`: the broadest scope of the active roles. -/
def broadestScope (roles : List RoleRow) : String :=
  if roles.any fun r => r.code == "super_admin" || r.dataScope == "all" then "all"
  else if roles.any fun r => r.dataScope == "organization" then "organization"
  else if roles.any fun r => r.dataScope == "department_and_children" then
    "department_and_children"
  else if roles.any fun r => r.dataScope == "department" then "department"
  else "self"

/-- The query of `auth_context` on a snapshot. -/
def authContextQuery (s : Snap) (sessionTokenHash : String) : Option SessionAuthContext :=
  (s.store.rows .authSessions).findSome? fun e =>
    if e.2.sessionTokenHash == sessionTokenHash then
      (s.store.get .users e.2.userId).bind fun u : UserRow =>
        if acceptedBy s e.2 u then
          let roles := Permissions.activeRolesOf s e.2.userId
          some
            { sessionId := e.1
              userId := e.2.userId
              csrfTokenHash := e.2.csrfTokenHash
              organizationId := u.organizationId
              departmentId := u.departmentId
              dataScope := broadestScope (roles.map (·.2))
              permissionCodes := Permissions.codesOfRoles s (roles.map (·.1)) }
        else none
    else none

/-- `UPDATE auth_sessions SET last_seen_at = now()`, at most once a minute. -/
def touchStmt (sessionId : Nat) : Update Table .authSessions where
  cond s i row := i == sessionId && row.lastSeenAt + 60 * second < s.now
  set s row := { row with lastSeenAt := s.now }
  evs _ _ := []
  ok _ _ _ _ := ⟨rfl, rfl, id⟩

def authContext (sessionTokenHash : String) : Db (Option SessionAuthContext) := do
  let s ← poolQuery
  let context := authContextQuery s sessionTokenHash
  match context with
  | none => return none
  | some context =>
    -- the update is a statement of its own on the pool
    beginTx
    let _ ← (touchStmt context.sessionId).exec
    commitTx
    return some context

/-- How many open sessions of a user are newer than `now()`. -/
def openLater (s : Snap) (userId : Nat) : Nat :=
  ((s.store.rows .authSessions).filter fun e =>
    e.2.userId == userId && e.2.revokedAt.isNone && s.now < e.2.createdAt).length

def createStmt (s : Snap) (session : NewSession) : Insert Table .authSessions where
  key n := n
  row n :=
    { userId := session.userId
      sessionTokenHash := session.sessionTokenHash n
      csrfTokenHash := session.csrfTokenHash n
      tokenVersion := session.tokenVersion
      idleTimeoutSecs := session.idleTimeoutSecs
      persistent := session.persistent
      expiresAt := session.expiresAt
      lastSeenAt := s.now
      revokedAt := none
      createdAt := s.now
      checkedAt := session.checkedAt
      readAt := session.readAt
      completed := session.completed
      later := openLater s session.userId }
  evs _ := [.sessionCreated session.userId session.completed]
  hkey _ _ h := (Option.some.inj h).symm
  ok _ := ⟨rfl, rfl⟩

def create (session : NewSession) : Db Nat := do
  let s ← query
  let id ← (createStmt s session).exec (dbError .uniqueViolation)
  references .users session.userId (fun _ => true) (dbError .foreignKeyViolation)
  return id

/-- Revoke the sessions that satisfy `which`. -/
def revokeStmt (which : Snap → Nat → SessionRow → Bool) : Update Table .authSessions where
  cond s i row := which s i row && row.revokedAt.isNone
  set s row := { row with revokedAt := some s.now }
  evs _ _ := []
  ok _ _ _ _ := ⟨rfl, rfl, fun _ => rfl⟩

def revoke (sessionId userId : Nat) : Db Bool := do
  let rows ← (revokeStmt fun _ i row => i == sessionId && row.userId == userId).exec
  return !rows.isEmpty

/-- How many sessions a statement revoked, and how much of the journal had been written when it
took its snapshot. -/
structure Revocation where
  count : Nat
  asOf : Nat

def revokeAllForUserStmt (userId : Nat) : Update Table .authSessions :=
  revokeStmt fun _ _ row => row.userId == userId

def revokeAllForUser (userId : Nat) : Db Revocation := do
  let s ← query
  let rows ← (revokeAllForUserStmt userId).execOn s
  return ⟨rows.length, s.asOf⟩

/-- `a` is listed before `b` under `ORDER BY created_at DESC, id DESC`. -/
def newerFirst (a b : Nat × SessionRow) : Prop :=
  b.2.createdAt < a.2.createdAt ∨ (a.2.createdAt = b.2.createdAt ∧ b.1 ≤ a.1)

instance : DecidableRel newerFirst := fun a b =>
  inferInstanceAs (Decidable (b.2.createdAt < a.2.createdAt ∨ _))

/-- The sessions that the limit keeps: the newest `maxSessions` unrevoked ones. -/
def keptSessions (s : Snap) (userId maxSessions : Nat) : List Nat :=
  ((((s.store.rows .authSessions).filter fun e => e.2.userId == userId && e.2.revokedAt.isNone)
    ).insertionSort newerFirst |>.take maxSessions).map (·.1)

def enforceUserLimit (userId maxSessions : Nat) : Db Nat := do
  let rows ← (revokeStmt fun s i row =>
    row.userId == userId && !(keptSessions s userId maxSessions).contains i).exec
  return rows.length

def pruneSessionsStmt : Delete Table .authSessions where
  cond s _ row := row.expiresAt + 7 * day < s.now || row.revokedAt.any fun t => t + 7 * day < s.now
  ok _ _ _ _ := rfl

/-- `ON DELETE CASCADE` of `auth_step_up_tokens (session_id)`. -/
def cascadeStepUpTokensStmt (sessionId : Nat) : Delete Table .authStepUpTokens where
  cond _ _ row := row.sessionId == sessionId
  ok _ _ _ _ := rfl

/-- `ON DELETE CASCADE` of `auth_module_unlocks (session_id)`. -/
def cascadeModuleUnlocksStmt (sessionId : Nat) : Delete Table .authModuleUnlocks where
  cond _ id _ := id.1 == sessionId
  ok _ _ _ _ := rfl

def pruneAttemptsStmt : Delete Table .authLoginAttempts where
  cond s _ row := row.updatedAt + 30 * day < s.now
  ok _ _ _ _ := rfl

def prune : Db Nat := do
  let sessions ← pruneSessionsStmt.exec
  Prog.forEach sessions fun sessionId => do
    let _ ← (cascadeStepUpTokensStmt sessionId).exec
    let _ ← (cascadeModuleUnlocksStmt sessionId).exec
  let attempts ← pruneAttemptsStmt.exec
  return sessions.length + attempts.length

def lockedUntil (identifierHash : String) : Db (Option Nat) := do
  let s ← poolQuery
  return ((s.store.get .authLoginAttempts identifierHash).bind
    fun a : LoginAttemptRow => a.lockedUntil).filter (s.now < ·)

/-- `now() - $2::double precision * interval '1 second'`. -/
def windowStart (postgres : Postgres) (now : Int) (windowSecs : Nat) : Option Int := do
  let window ← postgres.seconds windowSecs
  postgres.sub now window

/-- `now() + $4::double precision * interval '1 second'`. -/
def lockEnd (postgres : Postgres) (now : Int) (lockoutSecs : Nat) : Option Int := do
  let lockout ← postgres.seconds lockoutSecs
  postgres.add now lockout

/-- The row that `record_login_failure` leaves when there was one before, if its values can be
computed. -/
def failedAgain (postgres : Postgres) (now maxFailures windowSecs lockoutSecs : Nat)
    (row : LoginAttemptRow) : Option LoginAttemptRow := do
  let start ← windowStart postgres now windowSecs
  let expired := (row.windowStartedAt : Int) ≤ start
  let failureCount ← (if expired then some 1 else int4 (row.failureCount + 1))
  let lockedUntil ← (if failureCount ≥ maxFailures then
      (lockEnd postgres now lockoutSecs).map fun lock => some lock.toNat
    else some none)
  return {
    failureCount
    windowStartedAt := if expired then now else row.windowStartedAt
    lockedUntil
    updatedAt := now }

def recordLoginFailureStmt (postgres : Postgres) (s : Snap) (identifierHash : String)
    (maxFailures windowSecs lockoutSecs : Nat) : Upsert Table .authLoginAttempts where
  id := identifierHash
  row :=
    { failureCount := 1, windowStartedAt := s.now, lockedUntil := none, updatedAt := s.now }
  set := failedAgain postgres s.now maxFailures windowSecs lockoutSecs
  hkey := rfl
  okInsert := noEvents
  okUpdate _ _ _ := rfl

/-- The two intervals are constants of the statement: where the planner computes them in advance, it
fails before any row is looked at. -/
def planned (postgres : Postgres) (windowSecs lockoutSecs : Nat) : Bool :=
  !postgres.folds || ((postgres.seconds windowSecs).isSome && (postgres.seconds lockoutSecs).isSome)

def recordLoginFailure (postgres : Postgres) (identifierHash : String)
    (maxFailures windowSecs lockoutSecs : Nat) : Db (Option Nat) := do
  let s ← query
  Prog.reject (!planned postgres windowSecs lockoutSecs) (dbError .outOfRange)
  let row ← (recordLoginFailureStmt postgres s identifierHash maxFailures windowSecs
    lockoutSecs).exec (dbError .outOfRange)
  return row.1.lockedUntil

def clearLoginFailuresStmt (identifierHash : String) : Delete Table .authLoginAttempts where
  cond _ id _ := id == identifierHash
  ok _ _ _ _ := rfl

def clearLoginFailures (identifierHash : String) : Db Unit := do
  let _ ← (clearLoginFailuresStmt identifierHash).exec

end ArcAdmin.Repositories.AuthSessions
