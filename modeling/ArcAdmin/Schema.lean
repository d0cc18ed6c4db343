import ArcAdmin.Access
import ArcAdmin.Postgres
import ArcAdmin.ReadCommitted.Statements

/-!
# The database schema

The tables of `backend/migrations`, with the columns that the modelled functions read or write,
and the row protocol of each table: what the statements of the repositories may do to one row.

Four columns are not in the database. They are auxiliary: no function reads them to decide
anything. `checkedAt` is how much of the journal had been written when the login that leads to
this row verified the password; `readAt` is the same for the moment at which the user row was read
whose `token_version` a session carries; `completed` is the challenge whose completion opened the
session, with its answer, or `none` for a session opened by a password alone; `later` is how many
open sessions of the user there were, when the session was inserted, whose transactions had started
after its own.

Times are microseconds. Statuses, role codes, scopes and challenge kinds are the texts that the
columns hold.

* **`Event`** — what the changes of a row leave in the journal;
* **`instance : Schema Table`** — tables, keys, unique indexes and row protocols.
-/

namespace ArcAdmin

open ReadCommitted

def day : Nat := 24 * 60 * 60 * second

/-! ## Tables and rows

Each row has the columns that some modelled function reads or writes, under their names in the
migrations.
-/

inductive Table where
  | organizations
  | departments
  | users
  | roles
  | permissions
  | userRoles
  | rolePermissions
  | authSessions
  | authLoginAttempts
  | userMfaSettings
  | userMfaRecoveryCodes
  | userPasskeys
  | authMfaChallenges
  | authStepUpTokens
  | authModuleUnlocks
  | auditLogs
deriving DecidableEq, Repr

structure OrganizationRow where
  code : String
  name : String
  status : String
deriving DecidableEq, Repr

structure DepartmentRow where
  organizationId : Nat
  parentId : Option Nat
  code : String
  name : String
  status : String
  createdAt : Nat
  updatedAt : Nat
deriving DecidableEq, Repr

structure UserRow where
  username : String
  passwordHash : String
  displayName : String
  email : Option String
  status : String
  organizationId : Nat
  departmentId : Option Nat
  tokenVersion : Nat
  lastLoginAt : Option Nat
  createdAt : Nat
  updatedAt : Nat
  deletedAt : Option Nat
deriving DecidableEq, Repr

structure RoleRow where
  code : String
  name : String
  category : String
  icon : Option String
  color : String
  description : Option String
  dataScope : String
  isActive : Bool
  createdAt : Nat
  updatedAt : Nat
deriving DecidableEq, Repr

structure PermissionRow where
  groupId : Nat
  code : String
deriving DecidableEq, Repr

/-- A row of a join table, which has no columns besides its key: the number of the tuple. A link that
is removed and made again is another tuple. -/
structure LinkRow where
  tuple : Nat
deriving DecidableEq, Repr

/-- Whether the row is the tuple that is stored under its key. -/
def LinkRow.isStored (row : LinkRow) (stored : Option LinkRow) : Bool := stored == some row

theorem LinkRow.isStored_some (row : LinkRow) : row.isStored (some row) = true :=
  beq_self_eq_true _

/-- What a challenge was answered with: the TOTP time step that matched, the recovery code that was
spent, the passkey that was used.  For a passkey the journal is told as well how much of it had been
written when the passkeys of the user were listed. -/
inductive Factor where
  | totp (counter : Nat)
  | totpEnrollment (counter : Nat)
  | recoveryCode (id : Nat)
  | passkeyStart
  | passkey (id listedAsOf : Nat)
  | passkeyRegistration
deriving DecidableEq, Repr

namespace Factor

/-- The kind of challenge that a factor answers. -/
def kind : Factor → String
  | .totp _ | .recoveryCode _ | .passkeyStart => "login"
  | .totpEnrollment _ => "totp_enrollment"
  | .passkey _ _ => "passkey_authentication"
  | .passkeyRegistration => "passkey_registration"

/-- The TOTP time step that a factor was accepted with. -/
def counter? : Factor → Option Nat
  | .totp counter | .totpEnrollment counter => some counter
  | _ => none

end Factor

structure SessionRow where
  userId : Nat
  sessionTokenHash : String
  csrfTokenHash : String
  tokenVersion : Nat
  idleTimeoutSecs : Nat
  persistent : Bool
  expiresAt : Nat
  lastSeenAt : Nat
  revokedAt : Option Nat
  createdAt : Nat
  checkedAt : Nat
  readAt : Nat
  completed : Option (Nat × Factor)
  later : Nat
deriving DecidableEq, Repr

structure LoginAttemptRow where
  failureCount : Nat
  windowStartedAt : Nat
  lockedUntil : Option Nat
  updatedAt : Nat
deriving DecidableEq, Repr

structure MfaSettingsRow where
  webauthnUserId : String
  totpSecretCiphertext : Option String
  totpEnabledAt : Option Nat
  recoveryCodesIssuedAt : Option Nat
  lastReauthTotpCounter : Option Nat
  lastReauthTotpUsedAt : Option Nat
  createdAt : Nat
  updatedAt : Nat
deriving DecidableEq, Repr

structure RecoveryCodeRow where
  userId : Nat
  codeHash : String
  usedAt : Option Nat
  createdAt : Nat
deriving DecidableEq, Repr

structure PasskeyRow where
  userId : Nat
  name : String
  credentialId : String
  credential : String
  lastUsedAt : Option Nat
  createdAt : Nat
  updatedAt : Nat
deriving DecidableEq, Repr

/-- The throttle keys of a login, which travel with its challenges. -/
structure LoginContext where
  account : String
  sourceIp : String
  accountIp : String
deriving DecidableEq, Repr

/-- The `state` column of a challenge, by the type that was serialized into it. -/
inductive ChallengeState where
  | login (context : LoginContext)
  | enrollment (login : LoginContext) (encryptedSecret : String)
  | passkeyAuthentication (login : LoginContext) (authentication : String)
  | passkeyRegistration (name : String) (registration : String)
deriving DecidableEq, Repr

structure ChallengeRow where
  tokenHash : String
  userId : Nat
  kind : String
  persistent : Bool
  state : ChallengeState
  attemptCount : Nat
  maxAttempts : Nat
  expiresAt : Nat
  consumedAt : Option Nat
  createdAt : Nat
  checkedAt : Nat
deriving DecidableEq, Repr

structure StepUpTokenRow where
  tokenHash : String
  sessionId : Nat
  userId : Nat
  scope : String
  expiresAt : Nat
  consumedAt : Option Nat
  createdAt : Nat
deriving DecidableEq, Repr

structure ModuleUnlockRow where
  userId : Nat
  issuedAt : Nat
  expiresAt : Nat
deriving DecidableEq, Repr

/-- A value in the details of an audit record. -/
inductive Detail where
  | null
  | bool (b : Bool)
  | number (n : Nat)
  | text (s : String)
  | numbers (ns : List Nat)
  | texts (ss : List String)
deriving DecidableEq, Repr

structure AuditLogRow where
  actorUserId : Option Nat
  action : String
  targetType : String
  targetId : Option Nat
  details : List (String × Detail)
  organizationId : Option Nat
  departmentId : Option Nat
  createdAt : Int
deriving DecidableEq, Repr

/-- The kinds that a login passes through; a user has at most one open challenge among them. -/
def isLoginKind (kind : String) : Bool :=
  kind == "login" || kind == "totp_enrollment" || kind == "passkey_authentication"

/-! ## Events

The journal records what was committed, in the order of the commits. It is not in the database: it
is how statements about a whole run are written down, such as which request has consumed a token.
-/

/-- The events of the journal.  Most of them are about the row whose change leaves them.  Four are
about a request: a login with a recovery code, the revocation of a passkey, and the replacement of the
permissions of a role or of the roles of a user.

An `asOf` is how much of the journal had been written when the statement that the event speaks of took
its snapshot: the `DELETE` of a replacement, or the `UPDATE` that revokes the sessions of a user.  What
stands in the journal behind that point was committed too late for the statement to see it. -/
inductive Event where
  | passwordReplaced
  | suspended
  | sessionCreated (userId : Nat) (completed : Option (Nat × Factor))
  | challengeIssued (userId : Nat) (kind : String) (expiresAt : Nat) (successorOf : Option Nat)
  | challengeFailed
  | challengeSuperseded
  | challengeSucceeded (userId : Nat) (at' : Nat) (factor : Factor)
  | totpEnabled
  | totpReauthenticated (counter : Nat)
  | recoveryCodeIssued (userId : Nat) (clearedAsOf : Nat)
  | recoveryCodeUsed
  | recoveryLogin (userId : Nat) (code : Nat) (revokedAsOf : Nat)
  | stepUpIssued (sessionId userId : Nat) (scope : String) (expiresAt : Nat)
  | stepUpConsumed (sessionId userId : Nat) (scope : String) (at' : Nat)
  | roleAssigned
  | permissionAssigned (tuple : Nat)
  | passkeyRevoked (userId passkeyId : Nat) (revokedAsOf : Nat)
  | permissionsReplaced (roleId : Nat) (clearedAsOf : Nat)
  | rolesReplaced (userId : Nat) (clearedAsOf : Nat)
deriving DecidableEq, Repr

/-! ## Row protocols

What a statement of the repositories may do to one row. A statement carries the proof that it
respects the protocol of its table, so these are the facts about rows that hold in every run,
whatever the programs do.
-/

/-- Users are never removed. A new password comes with a new `token_version`, and a status other
than `active` leaves its mark in the journal. -/
def userProtocol : Option UserRow → Option UserRow → List Event → Prop
  | none, some new, evs => evs = [] ∧ new.tokenVersion = 0 ∧ new.deletedAt = none
  | some old, some new, evs =>
    new.username = old.username ∧ (old.deletedAt.isSome → new.deletedAt = old.deletedAt) ∧
      ((evs = [.passwordReplaced] ∧ new.tokenVersion = old.tokenVersion + 1) ∨
        (evs = [.suspended] ∧ new.status ≠ "active" ∧
          new.tokenVersion = old.tokenVersion ∧ new.passwordHash = old.passwordHash) ∨
        (evs = [] ∧ (new.status = "active" ∨ new.status = old.status) ∧
          new.tokenVersion = old.tokenVersion ∧ new.passwordHash = old.passwordHash))
  | _, _, _ => False

/-- The code of a role never changes. -/
def roleProtocol : Option RoleRow → Option RoleRow → List Event → Prop
  | some old, some new, evs => evs = [] ∧ new.code = old.code
  | _, _, evs => evs = []

/-- A session only ever gets another `last_seen_at`, or is revoked. -/
def sessionProtocol : Option SessionRow → Option SessionRow → List Event → Prop
  | none, some new, evs =>
    new.revokedAt = none ∧ evs = [.sessionCreated new.userId new.completed]
  | some old, some new, evs =>
    evs = [] ∧ new = { old with lastSeenAt := new.lastSeenAt, revokedAt := new.revokedAt } ∧
      (old.revokedAt.isSome → new.revokedAt.isSome)
  | _, none, evs => evs = []

/-- TOTP is never switched off again, and the re-authentication counter only grows. -/
def mfaSettingsProtocol : Option MfaSettingsRow → Option MfaSettingsRow → List Event → Prop
  | none, some new, evs =>
    evs = [] ∧ new.totpEnabledAt = none ∧ new.lastReauthTotpCounter = none
  | some old, some new, evs =>
    (evs = [] ∧ new.totpEnabledAt = old.totpEnabledAt ∧
        new.totpSecretCiphertext = old.totpSecretCiphertext ∧
        new.lastReauthTotpCounter = old.lastReauthTotpCounter) ∨
      (evs = [.totpEnabled] ∧ new.totpEnabledAt.isSome ∧
        new.lastReauthTotpCounter = old.lastReauthTotpCounter) ∨
      (∃ counter, evs = [.totpReauthenticated counter] ∧
        new.totpEnabledAt = old.totpEnabledAt ∧
        new.totpSecretCiphertext = old.totpSecretCiphertext ∧
        (∀ last, old.lastReauthTotpCounter = some last → last < counter) ∧
        new.lastReauthTotpCounter = some counter)
  | _, _, _ => False

/-- A recovery code is issued to a user, and used once. -/
def recoveryCodeProtocol : Option RecoveryCodeRow → Option RecoveryCodeRow → List Event → Prop
  | none, some new, evs =>
    (∃ clearedAsOf, evs = [.recoveryCodeIssued new.userId clearedAsOf]) ∧ new.usedAt = none
  | some old, some new, evs =>
    evs = [.recoveryCodeUsed] ∧ old.usedAt = none ∧ new.usedAt.isSome ∧
      new.userId = old.userId ∧ new.codeHash = old.codeHash
  | _, none, evs => evs = []

/-- A challenge keeps what it was issued with; it records a failure, is superseded, or succeeds.
Whether it was still open is up to the request (see `ArcAdmin.Proofs.ChallengeProtocol`). -/
def challengeProtocol : Option ChallengeRow → Option ChallengeRow → List Event → Prop
  | none, some new, evs =>
    new.attemptCount = 0 ∧ 0 < new.maxAttempts ∧ new.consumedAt = none ∧
      ∃ successorOf, evs = [.challengeIssued new.userId new.kind new.expiresAt successorOf]
  | some old, some new, evs =>
    new = { old with attemptCount := new.attemptCount, consumedAt := new.consumedAt } ∧
      ((evs = [.challengeFailed] ∧ new.attemptCount = old.attemptCount + 1 ∧
          (old.attemptCount + 1 ≥ old.maxAttempts → new.consumedAt.isSome) ∧
          (old.attemptCount + 1 < old.maxAttempts → new.consumedAt = old.consumedAt)) ∨
        (evs = [.challengeSuperseded] ∧ new.attemptCount = old.attemptCount ∧
          old.consumedAt = none ∧ new.consumedAt.isSome) ∨
        (∃ now factor, evs = [.challengeSucceeded old.userId now factor] ∧
          new.attemptCount = old.attemptCount ∧ new.consumedAt.isSome))
  | _, none, evs => evs = []

/-- A passkey stays with its user. -/
def passkeyProtocol : Option PasskeyRow → Option PasskeyRow → List Event → Prop
  | some old, some new, evs => evs = [] ∧ new.userId = old.userId
  | _, _, evs => evs = []

/-- A step-up token is used once, before it expires. -/
def stepUpProtocol : Option StepUpTokenRow → Option StepUpTokenRow → List Event → Prop
  | none, some new, evs =>
    evs = [.stepUpIssued new.sessionId new.userId new.scope new.expiresAt] ∧ new.consumedAt = none
  | some old, some new, evs =>
    ∃ now, evs = [.stepUpConsumed old.sessionId old.userId old.scope now] ∧
      old.consumedAt = none ∧ now < old.expiresAt ∧ new = { old with consumedAt := some now }
  | _, none, evs => evs = []

/-- The rows of a join table are inserted, which leaves the event `ev`, and deleted. -/
def linkProtocol (ev : LinkRow → Event) : Option LinkRow → Option LinkRow → List Event → Prop
  | none, some new, evs => evs = [ev new]
  | some _, none, evs => evs = []
  | _, _, _ => False

/-- Rows whose changes leave no events. -/
def silentProtocol {α : Type} : Option α → Option α → List Event → Prop
  | _, _, evs => evs = []

/-- A change without events is silent. -/
theorem noEvents : ([] : List Event) = [] := rfl

/-- So is every insertion without events. -/
theorem insert_noEvents (_ : Nat) : ([] : List Event) = [] := rfl

/-- Rows that only migrations write. -/
def fixedProtocol {α : Type} : Option α → Option α → List Event → Prop
  | _, _, _ => False

/-! ## The schema -/

/-- Foreign keys in the primary key, or the primary key of a join table. -/
abbrev Table.Id : Table → Type
  | .userRoles => Nat × Nat
  | .rolePermissions => Nat × Nat
  | .authLoginAttempts => String
  | .authModuleUnlocks => Nat × String
  | _ => Nat

abbrev Table.Row : Table → Type
  | .organizations => OrganizationRow
  | .departments => DepartmentRow
  | .users => UserRow
  | .roles => RoleRow
  | .permissions => PermissionRow
  | .userRoles => LinkRow
  | .rolePermissions => LinkRow
  | .authSessions => SessionRow
  | .authLoginAttempts => LoginAttemptRow
  | .userMfaSettings => MfaSettingsRow
  | .userMfaRecoveryCodes => RecoveryCodeRow
  | .userPasskeys => PasskeyRow
  | .authMfaChallenges => ChallengeRow
  | .authStepUpTokens => StepUpTokenRow
  | .authModuleUnlocks => ModuleUnlockRow
  | .auditLogs => AuditLogRow

/-- The number that the sequence of a `BIGSERIAL` column put into a key. -/
def Table.serialNo : (t : Table) → t.Id → Option Nat
  | .organizations, id | .departments, id | .users, id | .roles, id | .permissions, id
  | .authSessions, id | .userMfaRecoveryCodes, id | .userPasskeys, id | .authMfaChallenges, id
  | .authStepUpTokens, id | .auditLogs, id => some id
  | .userMfaSettings, _ | .userRoles, _ | .rolePermissions, _ | .authLoginAttempts, _
  | .authModuleUnlocks, _ => none

/-- The unique indexes other than the primary keys. -/
def Table.clash : (t : Table) → t.Row → t.Row → Bool
  | .organizations, a, b => a.code == b.code
  | .departments, a, b => a.organizationId == b.organizationId && a.code == b.code
  | .users, a, b => a.username == b.username && a.deletedAt.isNone && b.deletedAt.isNone
  | .roles, a, b => a.code == b.code
  | .permissions, a, b => a.code == b.code
  | .authSessions, a, b => a.sessionTokenHash == b.sessionTokenHash
  | .userMfaSettings, a, b => a.webauthnUserId == b.webauthnUserId
  | .userPasskeys, a, b => a.credentialId == b.credentialId
  | .authMfaChallenges, a, b =>
    a.tokenHash == b.tokenHash ||
      (a.userId == b.userId && a.consumedAt.isNone && b.consumedAt.isNone &&
        isLoginKind a.kind && isLoginKind b.kind)
  | .authStepUpTokens, a, b => a.tokenHash == b.tokenHash
  | .userRoles, _, _ | .rolePermissions, _, _ | .authLoginAttempts, _, _
  | .userMfaRecoveryCodes, _, _ | .authModuleUnlocks, _, _ | .auditLogs, _, _ => false

def Table.protocol : (t : Table) → Option t.Row → Option t.Row → List Event → Prop
  | .organizations => fixedProtocol
  | .permissions => fixedProtocol
  | .users => userProtocol
  | .roles => roleProtocol
  | .authSessions => sessionProtocol
  | .userMfaSettings => mfaSettingsProtocol
  | .userMfaRecoveryCodes => recoveryCodeProtocol
  | .authMfaChallenges => challengeProtocol
  | .userPasskeys => passkeyProtocol
  | .authStepUpTokens => stepUpProtocol
  | .userRoles => linkProtocol fun _ => .roleAssigned
  | .rolePermissions => linkProtocol fun row => .permissionAssigned row.tuple
  | .departments | .authLoginAttempts | .authModuleUnlocks | .auditLogs => silentProtocol

instance : Schema Table where
  decTable := inferInstance
  Id := Table.Id
  decId
    | .userRoles | .rolePermissions => inferInstanceAs (DecidableEq (Nat × Nat))
    | .authLoginAttempts => inferInstanceAs (DecidableEq String)
    | .authModuleUnlocks => inferInstanceAs (DecidableEq (Nat × String))
    | .organizations | .departments | .users | .roles | .permissions | .authSessions
    | .userMfaSettings | .userMfaRecoveryCodes | .userPasskeys | .authMfaChallenges
    | .authStepUpTokens | .auditLogs => inferInstanceAs (DecidableEq Nat)
  Row := Table.Row
  Ev := Event
  serialNo := Table.serialNo
  clash := Table.clash
  Allowed t _ old new evs := t.protocol old new evs

/-- Programs against the database. -/
abbrev Db (α : Type) := Prog Table ApiError α

abbrev Snap := Snapshot Table

end ArcAdmin
