import ArcAdmin.System
import ArcAdmin.ReadCommitted.Sequential
import Mathlib.Data.String.Basic

/-!
# A sample installation

A small database and stand-ins for the code outside the repository, on which concrete runs are
evaluated. The stand-ins are one-to-one where the real functions are in practice, and the code of
every authenticator is `000000`, for the time step that is current.

Four accounts: `root` (10) is a super administrator with TOTP, `helper` (11) may write users and
their roles within the organization, `clerk` (12) holds the role `reporter`, and `agent` (13) has
enrolled TOTP.
-/

namespace ArcAdmin.Sample

open ReadCommitted

/-- The `i`-th token of number `n`: 64 characters for every number below 240. -/
def token (n i : Nat) : String :=
  let digits := List.replicate (n % 60) 'a' ++ List.replicate (n / 60) 'c'
  String.ofList (digits ++ List.replicate (63 - digits.length) 'b' ++ [Char.ofNat (48 + i)])

def external : External where
  tokenHash t := t
  randomToken := token
  randomValue n := token n 0
  hashPassword _ password := .ok password
  verifyPassword password hash := some (password == hash)
  hashRecoveryCode _ code := .ok code
  encryptTotpSecret _ _ secret := some secret
  decryptTotpSecret _ encrypted := some encrypted
  base64Encode s := s
  base64Decode s := some s
  checkCurrent _ _ code now :=
    some (if code == "000000" then some (now / (30 * second)) else none)
  totpProvisioning _ secret := some (secret, secret, secret)
  startPasskeyAuthentication _ _ := none
  finishPasskeyAuthentication _ _ := none
  credentialId credential := credential
  updateCredential credential _ := credential
  startPasskeyRegistration _ _ _ _ _ := none
  parseRegistration _ := none
  finishPasskeyRegistration _ _ := none
  postgres := .documented

/-- Texts are compared character by character, and a pattern has no wildcards but the outer ones. -/
def sql : Sql where
  ilike text pattern := pattern == "%" ++ text ++ "%"
  collate a b := decide (a ≤ b)
  traceId _ := none

theorem sql_lawful : sql.Lawful where
  total a b := by
    show decide (a ≤ b) = true ∨ decide (b ≤ a) = true
    simpa using le_total a b
  trans a b c hab hbc := by
    have hab' : a ≤ b := of_decide_eq_true hab
    have hbc' : b ≤ c := of_decide_eq_true hbc
    exact decide_eq_true (le_trans hab' hbc')

def config : AuthSessionConfig where
  sessionTtlSecs := 86400
  sessionIdleTimeoutSecs := 1800
  persistentSessionTtlSecs := 2592000
  persistentSessionIdleTimeoutSecs := 604800
  maxSessionsPerUser := 10
  loginMaxFailures := 5
  loginIpMaxFailures := 30
  loginAccountIpMaxFailures := 5
  loginFailureWindowSecs := 900
  loginLockoutSecs := 900

/-! ## Rows

The rows of the installation, by table.
-/

def user (id : Nat) (username : String) : Write Table where
  table := .users
  id := id
  value := some
    { username
      passwordHash := "old password of " ++ username
      displayName := username
      email := none
      status := "active"
      organizationId := 1
      departmentId := none
      tokenVersion := 0
      lastLoginAt := none
      createdAt := 0
      updatedAt := 0
      deletedAt := none }

def role (id : Nat) (code dataScope : String) : Write Table where
  table := .roles
  id := id
  value := some
    { code
      name := code
      category := "general"
      icon := none
      color := "neutral"
      description := none
      dataScope
      isActive := true
      createdAt := 0
      updatedAt := 0 }

def permission (id : Nat) (code : String) : Write Table where
  table := .permissions
  id := id
  value := some { groupId := 1, code }

def holds (userId roleId : Nat) : Write Table where
  table := .userRoles
  id := (userId, roleId)
  value := some ⟨0⟩

def grants (roleId permissionId : Nat) : Write Table where
  table := .rolePermissions
  id := (roleId, permissionId)
  value := some ⟨0⟩

/-- TOTP is enrolled. -/
def totp (userId : Nat) : Write Table where
  table := .userMfaSettings
  id := userId
  value := some
    { webauthnUserId := token userId 1
      totpSecretCiphertext := some (token userId 2)
      totpEnabledAt := some 0
      recoveryCodesIssuedAt := none
      lastReauthTotpCounter := none
      lastReauthTotpUsedAt := none
      createdAt := 0
      updatedAt := 0 }

def organization : Write Table where
  table := .organizations
  id := (1 : Nat)
  value := some { code := "default", name := "Default", status := "active" }

def rows : List (Write Table) :=
  [organization,
    permission 1 "user:write", permission 2 "user:admin:reset_password",
    permission 3 "user:admin:deactivate", permission 4 "user:roles:write",
    permission 5 "user:super_admin:grant", permission 6 "audit:logs:read",
    role 1 "super_admin" "all", role 2 "helpdesk" "organization", role 3 "observer" "all",
    role 4 "reporter" "self",
    grants 1 1, grants 1 2, grants 1 3, grants 1 4, grants 1 5, grants 1 6,
    grants 2 1, grants 2 2, grants 2 3, grants 2 4, grants 4 6,
    user 10 "root", user 11 "helper", user 12 "clerk", user 13 "agent",
    holds 10 1, holds 11 2, holds 12 4, totp 10, totp 13]

/-- The installation before its first request. -/
def server : Server Table where
  store := Store.ofRows rows
  log := []
  clock := 1000000 * second
  seq := 20

theorem server_wf : server.Wf := Server.wf_ofRows (by decide)

/-! ## An organization chart

A second installation, with departments, for the operations on accounts and departments.
-/

def department (id : Nat) (parentId : Option Nat) (code : String) : Write Table where
  table := .departments
  id := id
  value := some
    { organizationId := 1
      parentId
      code
      name := code
      status := "active"
      createdAt := 0
      updatedAt := 0 }

/-- An account in a department. -/
def member (id : Nat) (username : String) (departmentId : Nat) : Write Table where
  table := .users
  id := id
  value := some
    { username
      passwordHash := "old password of " ++ username
      displayName := username
      email := none
      status := "active"
      organizationId := 1
      departmentId := some departmentId
      tokenVersion := 0
      lastLoginAt := none
      createdAt := 0
      updatedAt := 0
      deletedAt := none }

/-- The root department (1), sales (2) with its northern branch (3), and support (4). -/
def chart : List (Write Table) :=
  [organization, department 1 none "root", department 2 (some 1) "sales",
    department 3 (some 2) "north", department 4 (some 1) "support",
    member 10 "root" 1, member 21 "manager" 2, member 22 "seller" 3, member 23 "helper" 4]

def office : Server Table where
  store := Store.ofRows chart
  log := []
  clock := 1000000 * second
  seq := 30

theorem office_wf : office.Wf := Server.wf_ofRows (by decide)

/-- The administrator of the whole organization. -/
def administrator : ActorContext where
  userId := 10
  sessionId := 0
  organizationId := 1
  departmentId := some 1
  dataScope := .organization
  permissionCodes := []

/-- The administrator of the sales department and its branches. -/
def manager : ActorContext where
  userId := 21
  sessionId := 0
  organizationId := 1
  departmentId := some 2
  dataScope := .departmentAndChildren
  permissionCodes := []

/-- There is one role `super_admin`. -/
theorem superAdmin_id {id : Nat} {row : RoleRow} (h : server.store.get .roles id = some row)
    (hcode : row.code = "super_admin") : id = 1 := by
  have hone : ∀ e : Nat × RoleRow, e ∈ server.store.rows .roles →
      e.2.code = "super_admin" → e.1 = 1 := by decide
  exact hone (id, row) (Store.mem_rows.2 h) hcode

/-! ## Requests

Requests of the accounts above, so that a run reads as a list of what the clients do.
-/

/-- The cookies and headers of the session with number `n`, and the step-up token with number
`s`. -/
def parts (n s : Nat) : Parts where
  safe := false
  sessionCookie := some (token n 0)
  csrfCookie := some (token n 1)
  csrfHeader := some (token n 1)
  stepUpHeader := some (token s 0)

/-- A login with the first password. -/
def login (username : String) : Request :=
  .login ⟨username, "old password of " ++ username, false⟩ "10.0.0.1"

/-- The second step of a login, for the challenge with number `n`. -/
def verifyTotp (n : Nat) : Request := .verifyTotp ⟨token n 0, "000000"⟩

/-- Re-authentication of an account without a second factor. -/
def stepUp (session : Nat) (username scope : String) : Request :=
  .stepUp (parts session 0) ⟨"old password of " ++ username, none, scope⟩

/-- Re-authentication of an account with TOTP. -/
def stepUpTotp (session : Nat) (username scope : String) : Request :=
  .stepUp (parts session 0) ⟨"old password of " ++ username, some "000000", scope⟩

end ArcAdmin.Sample
