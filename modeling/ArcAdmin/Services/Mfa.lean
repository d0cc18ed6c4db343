import ArcAdmin.Services.Auth

/-!
# MFA service

`services/mfa.rs`: the second step of a login (TOTP, TOTP enrollment, recovery codes, passkeys),
re-authentication, and the management of factors. A login that needs a second factor answers with a
challenge; whoever completes the challenge opens the session.

The four completions share `failChallenge`, which records a wrong answer and commits it although
the request fails.
-/

namespace ArcAdmin.Services.Mfa

open ReadCommitted
open Repositories.Mfa (Challenge)

def challengeTtlSecs : Nat := 300
def recoveryCodeCount : Nat := 10

/-! ## Reading the state of a challenge

The column `state` holds one of four types. Reading it as another one is an error.
-/

/-- `serde_json::from_value::<LoginContext>`. -/
def loginState (state : ChallengeState) : Except ApiError LoginContext :=
  match state with
  | .login context => .ok context
  | _ => .error (.internal "missing field account")

/-- `serde_json::from_value::<EnrollmentState>`. -/
def enrollmentState (state : ChallengeState) : Except ApiError (LoginContext × String) :=
  match state with
  | .enrollment login encryptedSecret => .ok (login, encryptedSecret)
  | _ => .error (.internal "missing field login")

/-- `serde_json::from_value::<PasskeyAuthenticationState>`. -/
def passkeyAuthenticationState (state : ChallengeState) :
    Except ApiError (LoginContext × String) :=
  match state with
  | .passkeyAuthentication login authentication => .ok (login, authentication)
  | _ => .error (.internal "missing field login")

/-- `serde_json::from_value::<PasskeyRegistrationState>`. -/
def passkeyRegistrationState (state : ChallengeState) : Except ApiError (String × String) :=
  match state with
  | .passkeyRegistration name registration => .ok (name, registration)
  | _ => .error (.internal "missing field name")

/-! ## The first step of a login

After the password: no second factor, a challenge, or the enrolment of TOTP.
-/

/-- The methods that a challenge offers. -/
def offeredMethods (summary : Repositories.Mfa.MfaSummaryRow) : List MfaMethodSchema :=
  (if summary.totpEnabled then [.totp] else []) ++
    (if summary.passkeyCount > 0 then [.passkey] else []) ++
    if summary.recoveryCodesRemaining > 0 then [.recoveryCode] else []

/-- The first step of a login, once the password has been found right. `none` stands for an
account that needs no second factor. Otherwise the open challenges of the user are superseded
by a new one, for a factor or for the enrolment of TOTP, whose token is the answer. -/
def beginLogin (env : External) (user : Repositories.Users.Found) (persistent : Bool)
    (login : LoginContext) : Db (Option LoginResponse) := do
  let summary ← Repositories.Mfa.summary user.id
  if !summary.required && !summary.totpEnabled && summary.passkeyCount == 0 then
    return none
  let now ← utcNow
  let expiresAt := now + challengeTtlSecs * second
  -- the token is drawn by the insertion, and only its hash is stored
  let tokenHash n := env.tokenHash (env.randomToken n 0)
  beginTx
  let _ ← Repositories.Mfa.pruneChallenges
  let _ ← Repositories.Mfa.consumeLoginChallengesForUser user.id
  -- a factor is required and there is no TOTP: the login becomes an enrolment
  if summary.required && !summary.totpEnabled then
    let n ← fresh
    let secret := env.randomValue n
    let nonce ← fresh
    let encrypted ← Prog.okOr (env.encryptTotpSecret user.id (env.randomValue nonce) secret)
      (.internal "failed to encrypt MFA secret")
    let uuid ← fresh
    let _ ← Repositories.Mfa.ensureSettings user.id (env.randomValue uuid)
    let challengeId ← Repositories.Mfa.createChallenge
      { tokenHash
        userId := user.id
        kind := "totp_enrollment"
        persistent
        state := .enrollment login (env.base64Encode encrypted)
        expiresAt
        checkedAt := user.asOf
        successorOf := none }
    Repositories.AuditLogs.record (some user.id) "auth.mfa.enrollment.started" "user"
      (some user.id) [("factor", .text "totp")]
    commitTx
    let (base32, uri, qrCode) ← Prog.okOr (env.totpProvisioning user.row.username secret)
      (.internal "failed to configure TOTP")
    return some
      { status := .mfaEnrollmentRequired
        expiresAt := none
        user := none
        challengeToken := some (env.randomToken challengeId 0)
        methods := [.totp]
        totpSecret := some base32
        totpUri := some uri
        totpQrCode := some qrCode
        recoveryCodes := [] }
  -- otherwise a factor is asked for
  let methods := offeredMethods summary
  let challengeId ← Repositories.Mfa.createChallenge
    { tokenHash
      userId := user.id
      kind := "login"
      persistent
      state := .login login
      expiresAt
      checkedAt := user.asOf
      successorOf := none }
  Repositories.AuditLogs.record (some user.id) "auth.mfa.challenge.issued" "user" (some user.id)
    [("methods", .texts (methods.map MfaMethodSchema.debug))]
  commitTx
  return some
    { status := .mfaRequired
      expiresAt := none
      user := none
      challengeToken := some (env.randomToken challengeId 0)
      methods
      totpSecret := none
      totpUri := none
      totpQrCode := none
      recoveryCodes := [] }

/-! ## The second step of a login

The challenge is locked before its answer is checked, and consumed in the same transaction, so of
two answers at the same time one waits for the other. Only then is the session opened, in a
transaction of its own.
-/

/-- Lock the open challenge with that token. -/
def lockChallenge (env : External) (challengeToken expectedKind : String) : Db Challenge := do
  let challenge ← Repositories.Mfa.challengeForUpdate (env.tokenHash challengeToken) expectedKind
  Prog.okOr challenge .unauthorized

/-- A wrong answer: it is recorded and committed, and the request fails. -/
def failChallenge {α : Type} (challenge : Challenge) (factor : String) : Db α := do
  let locked ← Repositories.Mfa.recordChallengeFailure challenge.id
  Repositories.AuditLogs.record (some challenge.row.userId) "auth.mfa.verify.failure" "user"
    (some challenge.row.userId) [("factor", .text factor), ("locked", .bool locked)]
  commitTx
  .fail (if locked then .rateLimited challengeTtlSecs else .unauthorized)

/-- The time step that a code matches now, under the encrypted secret of the challenge's user. -/
def checkCode (env : External) (userId : Nat) (encrypted code : String) :
    Db (Repositories.Users.Found × Option Nat) := do
  let secret ← Prog.okOr (env.decryptTotpSecret userId encrypted)
    (.internal "invalid encrypted MFA secret")
  let user ← Repositories.Users.findById userId
  let user ← Prog.okOr user .unauthorized
  let now ← utcNow
  let counter ← Prog.okOr (env.checkCurrent user.row.username secret (trim code) now)
    (.internal "failed to configure TOTP")
  return (user, counter)

/-- Open the session that a completed challenge stands for. -/
def openSession (env : External) (config : AuthSessionConfig) (challenge : Challenge)
    (factor : Factor) (login : LoginContext) (user : Repositories.Users.Found) :
    Db Auth.LoginSessionOutcome :=
  Auth.createLoginSession env config challenge.row.persistent login user challenge.row.checkedAt
    (some (challenge.id, factor))

/-- A login with a TOTP code. The code is checked under the lock on the challenge, and the
session is opened after the commit that consumes it. -/
def verifyTotpLogin (env : External) (config : AuthSessionConfig) (challengeToken code : String) :
    Db Auth.LoginSessionOutcome := do
  beginTx
  let challenge ← lockChallenge env challengeToken "login"
  let login ← Prog.okOrThrow (loginState challenge.row.state)
  let encrypted ← Repositories.Mfa.totpSecretForUpdate challenge.row.userId
  let encrypted ← Prog.okOr encrypted .unauthorized
  let (user, counter) ← checkCode env challenge.row.userId encrypted code
  match counter with
  | none => failChallenge challenge "totp"
  | some counter =>
    Repositories.Mfa.consumeChallenge challenge.id (.totp counter)
    Repositories.AuditLogs.record (some challenge.row.userId) "auth.mfa.verify.success" "user"
      (some challenge.row.userId) [("factor", .text "totp")]
    commitTx
    openSession env config challenge (.totp counter) login user

/-- Ten codes of five groups, from ten random tokens. -/
def generateRecoveryCodes (env : External) : Db (List String) := do
  let n ← fresh
  return (List.range recoveryCodeCount).map fun i =>
    let raw := (toAsciiUppercase (takePrefix (env.randomToken n i) 20)).toList
    "-".intercalate ((List.range 5).map fun j => String.ofList ((raw.drop (4 * j)).take 4))

def hashRecoveryCodes (env : External) (codes : List String) : Db (List String) := do
  let n ← fresh
  Prog.okOrThrow <| codes.zipIdx.mapM fun code =>
    (env.hashRecoveryCode (env.randomToken n code.2) code.1).mapError ApiError.internal

/-- The enrolment of TOTP that a login asks for. The code is checked in a first transaction,
which is rolled back before the recovery codes are hashed; the second one locks the challenge
anew and enables TOTP without checking the code again. -/
def verifyTotpEnrollment (env : External) (config : AuthSessionConfig)
    (challengeToken code : String) : Db Auth.LoginSessionOutcome := do
  beginTx
  let challenge ← lockChallenge env challengeToken "totp_enrollment"
  let (_, encryptedSecret) ← Prog.okOrThrow (enrollmentState challenge.row.state)
  let encrypted ← Prog.okOr (env.base64Decode encryptedSecret) .unauthorized
  let (user, counter) ← checkCode env challenge.row.userId encrypted code
  match counter with
  | none => failChallenge challenge "totp_enrollment"
  | some counter =>
    rollbackTx
    let recoveryCodes ← generateRecoveryCodes env
    let hashes ← hashRecoveryCodes env recoveryCodes
    beginTx
    let challenge ← lockChallenge env challengeToken "totp_enrollment"
    let (login, _) ← Prog.okOrThrow (enrollmentState challenge.row.state)
    Repositories.Mfa.enableTotp challenge.row.userId encrypted
    Repositories.Mfa.replaceRecoveryCodes challenge.row.userId hashes
    Repositories.Mfa.consumeChallenge challenge.id (.totpEnrollment counter)
    Repositories.AuditLogs.record (some challenge.row.userId) "auth.mfa.enrollment.completed"
      "user" (some challenge.row.userId)
      [("factor", .text "totp"), ("recoveryCodeCount", .number recoveryCodes.length)]
    commitTx
    let outcome ← openSession env config challenge (.totpEnrollment counter) login user
    return { outcome with response := { outcome.response with recoveryCodes } }

/-- A TOTP code as the second step of a login: the kind of the challenge tells whether it enrols
TOTP. -/
def verifyTotp (env : External) (config : AuthSessionConfig) (challengeToken code : String) :
    Db Auth.LoginSessionOutcome := do
  let kind ← Repositories.Mfa.challengeKind (env.tokenHash challengeToken)
  let kind ← Prog.okOr kind .unauthorized
  if kind == "totp_enrollment" then
    verifyTotpEnrollment env config challengeToken code
  else
    verifyTotpLogin env config challengeToken code

/-- The first stored code that the answer matches. -/
def matchingRecoveryCode (env : External) (recoveryCode : String) :
    List (Nat × RecoveryCodeRow) → Except ApiError (Option Nat)
  | [] => .ok none
  | (id, row) :: codes =>
    match env.verifyPassword (toAsciiUppercase (trim recoveryCode)) row.codeHash with
    | none => .error (.internal "invalid stored recovery code hash")
    | some true => .ok (some id)
    | some false => matchingRecoveryCode env recoveryCode codes

/-- Spend the matching code, if there is one and it is still unused. -/
def spendRecoveryCode (userId : Nat) : Option Nat → Db (Option Nat)
  | some matchingId => do
    let consumed ← Repositories.Mfa.consumeRecoveryCode userId matchingId
    return if consumed then some matchingId else none
  | none => return none

/-- A login with a recovery code. The codes are compared on the pool, before the transaction; in
the transaction the one that matched is used up, all sessions of the user are revoked, and
the challenge is consumed. -/
def verifyRecoveryLogin (env : External) (config : AuthSessionConfig)
    (challengeToken recoveryCode : String) : Db Auth.LoginSessionOutcome := do
  let challenge ← Repositories.Mfa.challenge (env.tokenHash challengeToken) "login"
  let challenge ← Prog.okOr challenge .unauthorized
  let codes ← Repositories.Mfa.recoveryCodes challenge.row.userId
  let matchingId ← Prog.okOrThrow (matchingRecoveryCode env recoveryCode codes)
  beginTx
  let challenge ← lockChallenge env challengeToken "login"
  let consumed ← spendRecoveryCode challenge.row.userId matchingId
  match consumed with
  | some matchingId =>
    let login ← Prog.okOrThrow (loginState challenge.row.state)
    Repositories.Mfa.consumeChallenge challenge.id (.recoveryCode matchingId)
    let revoked ← Repositories.AuthSessions.revokeAllForUser challenge.row.userId
    noteEvent (.recoveryLogin challenge.row.userId matchingId revoked.asOf)
    Auth.recordSessionRevocation (some challenge.row.userId) challenge.row.userId
      "mfa_recovery_code" revoked.count
    Repositories.AuditLogs.record (some challenge.row.userId) "auth.mfa.recovery_code.used"
      "user" (some challenge.row.userId) [("revokedSessionCount", .number revoked.count)]
    commitTx
    let user ← Repositories.Users.findById challenge.row.userId
    let user ← Prog.okOr user .unauthorized
    openSession env config challenge (.recoveryCode matchingId) login user
  | none => failChallenge challenge "recovery_code"

/-- The first half of a passkey login: the login challenge is consumed, and a passkey challenge
takes its place, which keeps the moment of the password check. -/
def startPasskeyAuthentication (env : External) (challengeToken : String) :
    Db MfaWebauthnChallengeResponse := do
  beginTx
  let challenge ← lockChallenge env challengeToken "login"
  let login ← Prog.okOrThrow (loginState challenge.row.state)
  let passkeys ← Repositories.Mfa.listPasskeys challenge.row.userId
  let n ← fresh
  let (publicKey, authentication) ← Prog.okOr
    (env.startPasskeyAuthentication (passkeys.keys.map fun key => key.2.credential) n)
    (.internal "failed to start passkey authentication")
  Repositories.Mfa.consumeChallenge challenge.id .passkeyStart
  let now ← utcNow
  let successor ← Repositories.Mfa.createChallenge
    { tokenHash := fun n => env.tokenHash (env.randomToken n 0)
      userId := challenge.row.userId
      kind := "passkey_authentication"
      persistent := challenge.row.persistent
      state := .passkeyAuthentication login authentication
      expiresAt := now + challengeTtlSecs * second
      checkedAt := challenge.row.checkedAt
      successorOf := some challenge.id }
  commitTx
  return { challengeToken := env.randomToken successor 0, publicKey }

/-- The second half: the credential has to be one of the passkeys that were listed under the lock
on the challenge. The session is opened in a transaction of its own, which looks at no
passkey any more. -/
def finishPasskeyAuthentication (env : External) (config : AuthSessionConfig)
    (challengeToken credential : String) : Db Auth.LoginSessionOutcome := do
  beginTx
  let challenge ← lockChallenge env challengeToken "passkey_authentication"
  let (login, authentication) ← Prog.okOrThrow (passkeyAuthenticationState challenge.row.state)
  let passkeys ← Repositories.Mfa.listPasskeys challenge.row.userId
  match env.finishPasskeyAuthentication credential authentication with
  | none => failChallenge challenge "passkey"
  | some result =>
    let used := passkeys.keys.find? fun key =>
      env.credentialId key.2.credential == result.credentialId
    let used ← Prog.okOr used .unauthorized
    let updated := if result.needsUpdate then env.updateCredential used.2.credential result
      else used.2.credential
    Repositories.Mfa.updatePasskeyAfterUse used.1 updated
    Repositories.Mfa.consumeChallenge challenge.id (.passkey used.1 passkeys.asOf)
    Repositories.AuditLogs.record (some challenge.row.userId) "auth.mfa.verify.success" "user"
      (some challenge.row.userId) [("factor", .text "passkey")]
    commitTx
    let user ← Repositories.Users.findById challenge.row.userId
    let user ← Prog.okOr user .unauthorized
    openSession env config challenge (.passkey used.1 passkeys.asOf) login user

/-! ## Re-authentication

A session that wants a step-up token proves its password and, where TOTP is enrolled, a code that
has not been used for this before.
-/

/-- A code of the authenticator for something that is not a login. Its time step has to be later
than the last one that was used so, which the `UPDATE` checks. -/
def verifyTotpCode (env : External) (userId : Nat) (code : String) : Db Unit := do
  let user ← Repositories.Users.findById userId
  let user ← Prog.okOr user .unauthorized
  beginTx
  let encrypted ← Repositories.Mfa.totpSecretForUpdate userId
  let encrypted ← Prog.okOr encrypted (.forbidden "该账号尚未完成 TOTP 注册")
  let secret ← Prog.okOr (env.decryptTotpSecret userId encrypted)
    (.internal "invalid encrypted MFA secret")
  let now ← utcNow
  let counter ← Prog.okOr (env.checkCurrent user.row.username secret (trim code) now)
    (.internal "failed to configure TOTP")
  let counter ← Prog.okOr counter (.validation "身份验证器验证码不正确")
  let consumed ← Repositories.Mfa.consumeReauthTotpCounter userId counter
  Prog.reject (!consumed) (.validation "验证码已使用或已过期，请输入最新验证码")
  commitTx

/-- The password, and a code where the account has TOTP or is required to have it. -/
def verifyReauthentication (env : External) (userId : Nat) (password : String)
    (code : Option String) : Db Unit := do
  Auth.verifyCurrentPassword env userId password
  let summary ← Repositories.Mfa.summary userId
  Prog.whenever (summary.totpEnabled || summary.required) do
    let code ← Prog.okOr (code.filter fun value => !isEmpty (trim value))
      (.forbidden "该操作需要身份验证器验证码")
    verifyTotpCode env userId code

/-- The password and a code, whatever the account has enrolled. -/
def verifyPasswordAndTotp (env : External) (userId : Nat) (password code : String) : Db Unit := do
  Auth.verifyCurrentPassword env userId password
  verifyTotpCode env userId code

/-! ## Factors

The management of factors by a user with a session.
-/

/-- The factors of an account, read by two statements. -/
def status (userId : Nat) : Db MfaStatusResponse := do
  let summary ← Repositories.Mfa.summary userId
  let passkeys ← Repositories.Mfa.listPasskeys userId
  return {
    required := summary.required
    totpEnabled := summary.totpEnabled
    recoveryCodesRemaining := summary.recoveryCodesRemaining
    passkeys := passkeys.keys.map fun key => ⟨key.1, key.2.name, key.2.createdAt, key.2.lastUsedAt⟩ }

/-- The first half of the registration of a passkey, after password and code: a challenge that
carries the name and the state of WebAuthn. -/
def startPasskeyRegistration (env : External) (user : UserResponse)
    (req : MfaPasskeyRegistrationStartRequest) : Db MfaWebauthnChallengeResponse := do
  let name := trim req.name
  Prog.reject (isEmpty name || name.length > 80) (.validation "通行密钥名称长度必须为 1-80 个字符")
  verifyPasswordAndTotp env user.id req.currentPassword req.totpCode
  let existing ← Repositories.Mfa.listPasskeys user.id
  beginTx
  let uuid ← fresh
  let webauthnUserId ← Repositories.Mfa.ensureSettings user.id (env.randomValue uuid)
  let n ← fresh
  let (publicKey, registration) ← Prog.okOr
    (env.startPasskeyRegistration webauthnUserId user.username user.displayName
      (existing.keys.map fun key => env.credentialId key.2.credential) n)
    (.internal "failed to start passkey registration")
  let now ← utcNow
  let challengeId ← Repositories.Mfa.createChallenge
    { tokenHash := fun n => env.tokenHash (env.randomToken n 0)
      userId := user.id
      kind := "passkey_registration"
      persistent := false
      state := .passkeyRegistration name registration
      expiresAt := now + challengeTtlSecs * second
      checkedAt := 0
      successorOf := none }
  Repositories.AuditLogs.record (some user.id) "auth.mfa.enrollment.started" "user"
    (some user.id) [("factor", .text "passkey")]
  commitTx
  return { challengeToken := env.randomToken challengeId 0, publicKey }

/-- The second half: the challenge has to be one of the user, and is consumed together with the
insertion of the passkey. -/
def finishPasskeyRegistration (env : External) (userId : Nat)
    (challengeToken credential : String) : Db MfaStatusResponse := do
  beginTx
  let challenge ← Repositories.Mfa.challengeForUpdate (env.tokenHash challengeToken)
    "passkey_registration"
  let challenge ← Prog.okOr (challenge.filter fun challenge => challenge.row.userId == userId)
    .unauthorized
  let (name, registration) ← Prog.okOrThrow (passkeyRegistrationState challenge.row.state)
  let answer ← Prog.okOr (env.parseRegistration credential) (.internal "invalid credential")
  let passkey ← Prog.okOr (env.finishPasskeyRegistration answer registration)
    (.validation "通行密钥注册失败，请重试")
  let _ ← Repositories.Mfa.createPasskey userId name (env.credentialId passkey) passkey
  Repositories.Mfa.consumeChallenge challenge.id .passkeyRegistration
  Repositories.AuditLogs.record (some userId) "auth.mfa.enrollment.completed" "user"
    (some userId) [("factor", .text "passkey")]
  commitTx
  status userId

/-- A passkey is deleted, and the sessions of the user are revoked by the statement behind it.
The note of the revocation names the moment of that statement. -/
def revokePasskey (env : External) (userId passkeyId : Nat) (req : MfaFactorRevokeRequest) :
    Db Unit := do
  verifyPasswordAndTotp env userId req.currentPassword req.totpCode
  beginTx
  let deleted ← Repositories.Mfa.deletePasskey userId passkeyId
  Prog.reject (!deleted) (.notFound "通行密钥不存在")
  let revoked ← Repositories.AuthSessions.revokeAllForUser userId
  noteEvent (.passkeyRevoked userId passkeyId revoked.asOf)
  Auth.recordSessionRevocation (some userId) userId "mfa_factor_revoked" revoked.count
  Repositories.AuditLogs.record (some userId) "auth.mfa.factor.revoked" "user" (some userId)
    [("factor", .text "passkey"), ("revokedSessionCount", .number revoked.count)]
  commitTx

/-- The codes of a user are replaced by ten new ones, and the sessions are revoked. -/
def regenerateRecoveryCodes (env : External) (userId : Nat) (req : MfaFactorRevokeRequest) :
    Db (List String) := do
  verifyPasswordAndTotp env userId req.currentPassword req.totpCode
  let codes ← generateRecoveryCodes env
  let hashes ← hashRecoveryCodes env codes
  beginTx
  Repositories.Mfa.replaceRecoveryCodes userId hashes
  let revoked ← Repositories.AuthSessions.revokeAllForUser userId
  Auth.recordSessionRevocation (some userId) userId "mfa_recovery_regenerated" revoked.count
  Repositories.AuditLogs.record (some userId) "auth.mfa.recovery_codes.generated" "user"
    (some userId) [("count", .number codes.length)]
  commitTx
  return codes

end ArcAdmin.Services.Mfa
