import ArcAdmin.Proofs.Footprints
import ArcAdmin.ReadCommitted.Rules
import ArcAdmin.System

/-!
# What the services change

The footprint of every service.  `Ordinary φ` says that `φ` allows the changes that any request may
make on the side (audit records, throttling, revocations, re-authentication grants); what a service is
about is a hypothesis of its own lemma.

Most services leave no events but those of their changes: for them the lemma says `Act.Steps`.  The
revocation of a passkey and the replacement of roles or permissions leave one more event, which the
lemma names: `Act.Tells`.
-/

namespace ArcAdmin

open ReadCommitted
open Prog.All

/-- **The changes that any request may make on the side.** Audit records and throttling are
written by nearly every request; sessions may be revoked, but not opened; the columns of
accounts may change, but no account comes or goes with an event. -/
structure Ordinary (φ : Change Table) : Prop where
  auditLogs : Free φ .auditLogs
  loginAttempts : Free φ .authLoginAttempts
  settings : ∀ id old new, φ .userMfaSettings id old new []
  reauthentications : ∀ id r r' counter,
    φ .userMfaSettings id (some r) (some r') [.totpReauthenticated counter]
  passkeys : ∀ id r r', φ .userPasskeys id (some r) (some r') []
  stepUpTokens : Free φ .authStepUpTokens
  moduleUnlocks : Free φ .authModuleUnlocks
  sessions : Edits φ .authSessions
  users : ∀ id old new, φ .users id old new []
  passwords : ∀ id r r', φ .users id (some r) (some r') [.passwordReplaced]
  userRoles : Edits φ .userRoles
  rolePermissions : Edits φ .rolePermissions

/-- The tables that any request may change on the side. -/
def sideTables : List Table :=
  [.auditLogs, .authLoginAttempts, .userMfaSettings, .userPasskeys, .authStepUpTokens,
    .authModuleUnlocks, .authSessions, .users, .userRoles, .rolePermissions]

/-- Where all of them are free, side changes are allowed. -/
theorem Ordinary.of_free {φ : Change Table} (h : ∀ t ∈ sideTables, Free φ t) : Ordinary φ where
  auditLogs := h _ (by decide)
  loginAttempts := h _ (by decide)
  settings _ _ _ := h _ (by decide) _ _ _ _
  reauthentications _ _ _ _ := h _ (by decide) _ _ _ _
  passkeys _ _ _ := h _ (by decide) _ _ _ _
  stepUpTokens := h _ (by decide)
  moduleUnlocks := h _ (by decide)
  sessions := (h _ (by decide)).edits
  users _ _ _ := h _ (by decide) _ _ _ _
  passwords _ _ _ := h _ (by decide) _ _ _ _
  userRoles := (h _ (by decide)).edits
  rolePermissions := (h _ (by decide)).edits

/-- More changes allow more. -/
theorem Ordinary.mono {φ ψ : Change Table} (h : Ordinary φ)
    (hle : ∀ t id old new evs, φ t id old new evs → ψ t id old new evs) : Ordinary ψ where
  auditLogs _ _ _ _ := hle _ _ _ _ _ (h.auditLogs _ _ _ _)
  loginAttempts _ _ _ _ := hle _ _ _ _ _ (h.loginAttempts _ _ _ _)
  settings _ _ _ := hle _ _ _ _ _ (h.settings _ _ _)
  reauthentications _ _ _ _ := hle _ _ _ _ _ (h.reauthentications _ _ _ _)
  passkeys _ _ _ := hle _ _ _ _ _ (h.passkeys _ _ _)
  stepUpTokens _ _ _ _ := hle _ _ _ _ _ (h.stepUpTokens _ _ _ _)
  moduleUnlocks _ _ _ _ := hle _ _ _ _ _ (h.moduleUnlocks _ _ _ _)
  sessions _ _ _ := hle _ _ _ _ _ (h.sessions _ _ _)
  users _ _ _ := hle _ _ _ _ _ (h.users _ _ _)
  passwords _ _ _ := hle _ _ _ _ _ (h.passwords _ _ _)
  userRoles _ _ _ := hle _ _ _ _ _ (h.userRoles _ _ _)
  rolePermissions _ _ _ := hle _ _ _ _ _ (h.rolePermissions _ _ _)

theorem ordinary_anything : Ordinary anything := .of_free fun _ _ => free_anything

/-- TOTP may be enabled. -/
def Enables (φ : Change Table) : Prop :=
  ∀ id r r', φ .userMfaSettings id (some r) (some r') [.totpEnabled]

/-- Recovery codes may be issued in the place of others. -/
structure Issues (φ : Change Table) : Prop where
  clear : ∀ id r, φ .userMfaRecoveryCodes id (some r) none []
  issue : ∀ id (new : RecoveryCodeRow) asOf,
    φ .userMfaRecoveryCodes id none (some new) [.recoveryCodeIssued new.userId asOf]

theorem Issues.of_free {φ : Change Table} (h : Free φ .userMfaRecoveryCodes) : Issues φ where
  clear _ _ := h _ _ _ _
  issue _ _ _ := h _ _ _ _

/-- The session that a login of the user opens may be inserted: its values are derived from the number
that its row is given. -/
def Admits (env : External) (φ : Change Table) (userId : Nat) (completed : Option (Nat × Factor)) :
    Prop :=
  ∀ (n : Nat) (new : SessionRow), new.userId = userId → new.completed = completed →
    new.sessionTokenHash = env.tokenHash (env.randomToken n 0) →
    new.csrfTokenHash = env.tokenHash (env.randomToken n 1) →
    φ .authSessions n none (some new) [.sessionCreated userId completed]

theorem admits_of_free {env : External} {φ : Change Table} (h : Free φ .authSessions) (userId : Nat)
    (completed : Option (Nat × Factor)) : Admits env φ userId completed :=
  fun _ _ _ _ _ _ => h _ _ _ _

/-- Passkeys may be registered. -/
def Registers (φ : Change Table) : Prop := ∀ id new, φ .userPasskeys id none (some new) []

/-- Recovery codes may be used. -/
def Uses (φ : Change Table) : Prop :=
  ∀ id r r', φ .userMfaRecoveryCodes id (some r) (some r') [.recoveryCodeUsed]

variable {φ : Change Table} {env : External} {config : AuthSessionConfig}

/-! ## Lifting

From footprints of statements to footprints of programs with transactions.
-/

section Steps

variable {α : Type} {m : Db α}

/-- A program without transaction boundaries. -/
theorem within_steps (h : m.All (Act.Within φ)) : m.All (Act.Steps φ) :=
  h.mono fun _ ha => ha.steps

/-- A program that leaves no events of its own. -/
theorem steps_tells {N : Event → Prop} (h : m.All (Act.Steps φ)) : m.All (Act.Tells φ N) :=
  h.mono fun _ ha => ha.tells

theorem within_tells {N : Event → Prop} (h : m.All (Act.Within φ)) : m.All (Act.Tells φ N) :=
  steps_tells (within_steps h)

theorem note_tells {N : Event → Prop} {e : Event} (h : N e) :
    (noteEvent (T := Table) e : Db Unit).All (Act.Tells φ N) :=
  all_perform (.inr ⟨e, h, rfl⟩)

theorem begin_steps : (beginTx : Db Unit).All (Act.Steps φ) := all_perform trivial

theorem commit_steps : (commitTx : Db Unit).All (Act.Steps φ) := all_perform trivial

theorem rollback_steps : (rollbackTx : Db Unit).All (Act.Steps φ) := all_perform trivial

end Steps

/-! ## Repositories

Functions of the repositories whose footprint is more than a set of tables.
-/

namespace Repositories

open Users (NewUser)

namespace Users

theorem updateLastLogin_within (h : Ordinary φ) (id : Nat) :
    (updateLastLogin id).All (Act.Within φ) :=
  .bind (Prog.All.update (fun _ _ _ _ => h.users _ _ _) trivial) fun _ => .ret

theorem softDelete_within (h : Ordinary φ) (id : Nat) : (softDelete id).All (Act.Within φ) :=
  .bind (Prog.All.update (fun _ _ _ _ => h.users _ _ _) trivial) fun _ =>
    .bind (whenever (.bind (delete_within _ h.userRoles) fun _ => .ret)) fun _ => .ret

theorem create_ordinary (h : Ordinary φ) (user : NewUser) : (create user).All (Act.Within φ) :=
  .bind query_within fun _ => .bind (Prog.All.insert fun _ => h.users _ _ _) fun _ =>
    .bind (references_within _ _ _) fun _ => .bind (referencesDepartment_within _ _) fun _ => .ret

theorem updatePassword_ordinary (h : Ordinary φ) (id : Nat) (passwordHash : String) :
    (updatePassword id passwordHash).All (Act.Within φ) :=
  .bind (Prog.All.update (fun _ _ _ _ => h.passwords _ _ _) trivial) fun _ => .ret

theorem activateBootstrapAccount_within (h : Ordinary φ) (id : Nat)
    (passwordHash displayName : String) (email : Option String) :
    (activateBootstrapAccount id passwordHash displayName email).All (Act.Within φ) :=
  .bind (Prog.All.update (fun _ _ _ _ => h.passwords _ _ _) trivial) fun _ => all_okOr _ _

end Users

namespace AuthSessions

theorem authContext_steps (h : Ordinary φ) (sessionTokenHash : String) :
    (authContext sessionTokenHash).All (Act.Steps φ) := by
  refine .bind (within_steps poolQuery_within) fun s => ?_
  simp only
  cases authContextQuery s sessionTokenHash with
  | none => exact .ret
  | some context =>
    exact .bind begin_steps fun _ =>
      .bind (within_steps (edit_within _ (fun _ _ => rfl) h.sessions)) fun _ =>
        .bind commit_steps fun _ => .ret

theorem revoke_within (h : Ordinary φ) (sessionId userId : Nat) :
    (revoke sessionId userId).All (Act.Within φ) :=
  .bind (edit_within _ (fun _ _ => rfl) h.sessions) fun _ => .ret

theorem enforceUserLimit_within (h : Ordinary φ) (userId maxSessions : Nat) :
    (enforceUserLimit userId maxSessions).All (Act.Within φ) :=
  .bind (edit_within _ (fun _ _ => rfl) h.sessions) fun _ => .ret

theorem create_within (hs : Free φ .authSessions) (session : NewSession) :
    (create session).All (Act.Within φ) :=
  .bind query_within fun _ => .bind (insert_within _ _ hs) fun _ =>
    .bind (references_within _ _ _) fun _ => .ret

theorem prune_within (h : Ordinary φ) : prune.All (Act.Within φ) :=
  .bind (delete_within _ h.sessions) fun _ =>
    .bind (forEach fun _ => .bind (delete_within _ h.stepUpTokens.edits) fun _ =>
      .bind (delete_within _ h.moduleUnlocks.edits) fun _ => .ret) fun _ =>
        .bind (delete_within _ h.loginAttempts.edits) fun _ => .ret

theorem lockedUntil_within (identifierHash : String) :
    (lockedUntil identifierHash).All (Act.Within φ) :=
  .bind poolQuery_within fun _ => .ret

theorem recordLoginFailure_within (h : Ordinary φ) (postgres : Postgres) (identifierHash : String)
    (maxFailures windowSecs lockoutSecs : Nat) :
    (recordLoginFailure postgres identifierHash maxFailures windowSecs lockoutSecs).All
      (Act.Within φ) :=
  .bind query_within fun _ => .bind (all_reject _ _) fun _ =>
    .bind (upsert_within _ _ h.loginAttempts) fun _ => .ret

theorem clearLoginFailures_within (h : Ordinary φ) (identifierHash : String) :
    (clearLoginFailures identifierHash).All (Act.Within φ) :=
  .bind (delete_within _ h.loginAttempts.edits) fun _ => .ret

end AuthSessions

namespace Mfa

theorem summary_within (userId : Nat) : (summary userId).All (Act.Within φ) :=
  .bind poolQuery_within fun _ => .ret

theorem ensureSettings_within (h : Ordinary φ) (userId : Nat) (webauthnUserId : String) :
    (ensureSettings userId webauthnUserId).All (Act.Within φ) :=
  .bind query_within fun _ =>
    .bind (.bind (all_perform ⟨h.settings _ _ _, fun _ _ _ => h.settings _ _ _⟩) fun _ =>
      all_okOr _ _) fun _ =>
      .bind (whenever (references_within _ _ _)) fun _ => .ret

theorem enableTotp_within (he : Enables φ) (userId : Nat) (ciphertext : String) :
    (enableTotp userId ciphertext).All (Act.Within φ) :=
  .bind (Prog.All.update (fun _ _ _ _ => he _ _ _) trivial) fun _ => .ret

theorem consumeReauthTotpCounter_within (h : Ordinary φ) (userId counter : Nat) :
    (consumeReauthTotpCounter userId counter).All (Act.Within φ) :=
  .bind (Prog.All.update (fun _ _ _ _ => h.reauthentications _ _ _ _) trivial) fun _ => .ret

theorem createChallenge_within (hc : Free φ .authMfaChallenges) (new : NewChallenge) :
    (createChallenge new).All (Act.Within φ) :=
  .bind query_within fun _ => .bind (insert_within _ _ hc) fun _ =>
    .bind (references_within _ _ _) fun _ => .ret

theorem consumeLoginChallengesForUser_within (hc : Alters φ .authMfaChallenges) (userId : Nat) :
    (consumeLoginChallengesForUser userId).All (Act.Within φ) :=
  .bind (alter_within _ hc) fun _ => .ret

theorem challengeForUpdate_within (tokenHash expectedKind : String) :
    (challengeForUpdate tokenHash expectedKind).All (Act.Within φ) :=
  .bind (selectForUpdate_within _) fun _ => .ret

theorem challenge_within (tokenHash expectedKind : String) :
    (challenge tokenHash expectedKind).All (Act.Within φ) :=
  .bind poolQuery_within fun _ => .ret

theorem challengeKind_within (tokenHash : String) :
    (challengeKind tokenHash).All (Act.Within φ) :=
  .bind poolQuery_within fun _ => .ret

theorem totpSecretForUpdate_within (userId : Nat) :
    (totpSecretForUpdate userId).All (Act.Within φ) :=
  .bind query_within fun _ => .ret

theorem recordChallengeFailure_within (hc : Alters φ .authMfaChallenges) (challengeId : Nat) :
    (recordChallengeFailure challengeId).All (Act.Within φ) :=
  .bind (alter_within _ hc) fun _ => .bind (all_okOr _ _) fun _ => .ret

theorem consumeChallenge_within (hc : Alters φ .authMfaChallenges) (challengeId : Nat)
    (factor : Factor) : (consumeChallenge challengeId factor).All (Act.Within φ) :=
  .bind (alter_within _ hc) fun _ => .ret

theorem pruneChallenges_within (hc : Edits φ .authMfaChallenges) :
    pruneChallenges.All (Act.Within φ) :=
  .bind (delete_within _ hc) fun _ => .ret

theorem replaceRecoveryCodes_within (h : Ordinary φ) (hi : Issues φ) (userId : Nat)
    (hashes : List String) : (replaceRecoveryCodes userId hashes).All (Act.Within φ) :=
  .bind query_within fun _ => .bind (Prog.All.deleteOn fun _ _ _ => hi.clear _ _) fun _ =>
    .bind (forEach fun _ => .bind query_within fun _ => .bind (Prog.All.insert fun _ => hi.issue _ _ _)
      fun _ => references_within _ _ _) fun _ =>
        .bind (Prog.All.update (fun _ _ _ _ => h.settings _ _ _) trivial) fun _ => .ret

theorem recoveryCodes_within (userId : Nat) : (recoveryCodes userId).All (Act.Within φ) :=
  .bind poolQuery_within fun _ => .ret

theorem consumeRecoveryCode_within (hu : Uses φ) (userId id : Nat) :
    (consumeRecoveryCode userId id).All (Act.Within φ) :=
  .bind (Prog.All.update (fun _ _ _ _ => hu _ _ _) trivial) fun _ => .ret

theorem listPasskeys_within (userId : Nat) : (listPasskeys userId).All (Act.Within φ) :=
  .bind poolQuery_within fun _ => .ret

theorem createPasskey_within (hp : Registers φ) (userId : Nat)
    (name credentialId credential : String) :
    (createPasskey userId name credentialId credential).All (Act.Within φ) :=
  .bind query_within fun _ => .bind (Prog.All.insert fun _ => hp _ _) fun _ =>
    .bind (references_within _ _ _) fun _ => .ret

theorem updatePasskeyAfterUse_within (h : Ordinary φ) (id : Nat) (credential : String) :
    (updatePasskeyAfterUse id credential).All (Act.Within φ) :=
  .bind (Prog.All.update (fun _ _ _ _ => h.passkeys _ _ _) trivial) fun _ => .ret

theorem deletePasskey_within (hp : Free φ .userPasskeys) (userId id : Nat) :
    (deletePasskey userId id).All (Act.Within φ) :=
  .bind (delete_within _ hp.edits) fun _ => .ret

end Mfa

end Repositories

/-! ## Services

Services of logins, sessions and factors.
-/

namespace Services

namespace Auth

theorem verifyCurrentPassword_within (userId : Nat) (password : String) :
    (verifyCurrentPassword env userId password).All (Act.Within φ) :=
  .bind (Repositories.Users.findById_within _) fun _ => .bind (all_okOr _ _) fun _ =>
    .bind (all_okOr _ _) fun _ => all_reject _ _

theorem me_within (userId : Nat) : (me userId).All (Act.Within φ) :=
  .bind (Repositories.Users.findById_within _) fun _ => .bind (all_okOr _ _) fun _ =>
    .bind (Repositories.Users.roleNamesByUser_within _) fun _ => .ret

theorem lockedUntil_within (keys : LoginContext) : (lockedUntil keys).All (Act.Within φ) :=
  .bind (Repositories.AuthSessions.lockedUntil_within _) fun _ =>
    .bind (Repositories.AuthSessions.lockedUntil_within _) fun _ =>
      .bind (Repositories.AuthSessions.lockedUntil_within _) fun _ => .ret

theorem recordFailedLogin_steps (h : Ordinary φ) (keys : LoginContext) (userId : Option Nat) :
    (recordFailedLogin env config keys userId).All (Act.Steps φ) := by
  refine .bind begin_steps fun _ => ?_
  refine .bind (within_steps (Repositories.AuthSessions.recordLoginFailure_within h _ _ _ _ _))
    fun _ => ?_
  refine .bind (within_steps (Repositories.AuthSessions.recordLoginFailure_within h _ _ _ _ _))
    fun _ => ?_
  refine .bind (within_steps (Repositories.AuthSessions.recordLoginFailure_within h _ _ _ _ _))
    fun _ => ?_
  refine .bind (within_steps (Repositories.AuditLogs.record_within h.auditLogs _ _ _ _ _))
    fun _ => ?_
  refine .bind commit_steps fun _ => ?_
  exact .ret

theorem logout_steps (h : Ordinary φ) (userId sessionId : Nat) :
    (logout userId sessionId).All (Act.Steps φ) := by
  refine .bind begin_steps fun _ => ?_
  refine .bind (within_steps (Repositories.AuthSessions.revoke_within h _ _)) fun _ => ?_
  refine .bind (within_steps (recordSessionRevocation_within h.auditLogs _ _ _ _)) fun _ => ?_
  refine .bind (within_steps (Repositories.AuditLogs.record_within h.auditLogs _ _ _ _ _))
    fun _ => ?_
  exact commit_steps

/-- What every change of a password or factor does to the sessions of the account. -/
theorem revokeAll_within (h : Ordinary φ) (userId : Nat) (actorUserId : Option Nat)
    (reason : String) :
    (do
      let revoked ← Repositories.AuthSessions.revokeAllForUser userId
      recordSessionRevocation actorUserId userId reason revoked.count : Db Unit).All
      (Act.Within φ) :=
  .bind (Repositories.AuthSessions.revokeAllForUser_within h.sessions _) fun _ =>
    recordSessionRevocation_within h.auditLogs _ _ _ _

theorem changePassword_steps (h : Ordinary φ) (userId : Nat) (req : ChangePasswordRequest) :
    (changePassword env userId req).All (Act.Steps φ) := by
  refine .bind (all_reject _ _) fun _ => ?_
  refine .bind (all_reject _ _) fun _ => ?_
  refine .bind (all_reject _ _) fun _ => ?_
  refine .bind (within_steps (verifyCurrentPassword_within _ _)) fun _ => ?_
  refine .bind (within_steps (hashPassword_within _ _)) fun _ => ?_
  refine .bind begin_steps fun _ => ?_
  refine .bind (within_steps (Repositories.Users.updatePassword_ordinary h _ _)) fun _ => ?_
  refine .bind (all_reject _ _) fun _ => ?_
  refine .bind (within_steps (Repositories.AuthSessions.revokeAllForUser_within h.sessions _))
    fun _ => ?_
  refine .bind (within_steps (recordSessionRevocation_within h.auditLogs _ _ _ _)) fun _ => ?_
  refine .bind (within_steps (Repositories.AuditLogs.record_within h.auditLogs _ _ _ _ _))
    fun _ => ?_
  exact commit_steps

/-- Opening a session adds a row. -/
theorem createLoginSession_steps (h : Ordinary φ) {completed : Option (Nat × Factor)}
    {user : Repositories.Users.Found} (hs : Admits env φ user.id completed) (persistent : Bool)
    (keys : LoginContext) (checkedAt : Nat) :
    (createLoginSession env config persistent keys user checkedAt completed).All
      (Act.Steps φ) := by
  refine .bind (within_steps utcNow_within) fun _ => ?_
  refine .bind begin_steps fun _ => ?_
  refine .bind (within_steps (Repositories.Users.updateLastLogin_within h _)) fun _ => ?_
  refine .bind (within_steps (Repositories.AuthSessions.clearLoginFailures_within h _)) fun _ => ?_
  refine .bind (within_steps (Repositories.AuthSessions.clearLoginFailures_within h _)) fun _ => ?_
  refine .bind (within_steps (.bind query_within fun s => .bind (Prog.All.insert fun n =>
    hs n _ rfl rfl rfl rfl) fun _ => .bind (references_within _ _ _) fun _ => .ret)) fun _ => ?_
  refine .bind (within_steps (Repositories.AuthSessions.enforceUserLimit_within h _ _)) fun _ => ?_
  refine .bind (within_steps (recordSessionRevocation_within h.auditLogs _ _ _ _)) fun _ => ?_
  refine .bind (within_steps (Repositories.AuthSessions.prune_within h)) fun _ => ?_
  refine .bind (within_steps (Repositories.AuditLogs.record_within h.auditLogs _ _ _ _ _))
    fun _ => ?_
  refine .bind commit_steps fun _ => ?_
  refine .bind (within_steps (Repositories.Users.roleNamesByUser_within _)) fun _ => ?_
  exact .ret

theorem defaultAssignment_within : defaultAssignment.All (Act.Within φ) :=
  .bind poolQuery_within fun _ => .bind (all_okOr _ _) fun _ => .ret

theorem bootstrapAccount_within (h : Ordinary φ) (existing : Option Repositories.Users.Found)
    (user : Repositories.Users.NewUser) : (bootstrapAccount existing user).All (Act.Within φ) := by
  cases existing with
  | none => exact .bind (Repositories.Users.create_ordinary h _) fun _ => .ret
  | some existing =>
    exact .bind (Repositories.Users.activateBootstrapAccount_within h _ _ _ _) fun _ => .ret

theorem bootstrapSuperAdmin_steps (h : Ordinary φ) (hr : Free φ .userRoles)
    (username password displayName : String) (email : Option String) :
    (bootstrapSuperAdmin env username password displayName email).All (Act.Steps φ) := by
  dsimp only [bootstrapSuperAdmin]
  refine .bind (all_reject _ _) fun _ => ?_
  refine .bind (all_reject _ _) fun _ => ?_
  refine .bind (all_reject _ _) fun _ => ?_
  refine .bind (all_reject _ _) fun _ => ?_
  refine .bind (within_steps (Repositories.Roles.idByCode_within _)) fun _ => ?_
  refine .bind (all_okOr _ _) fun _ => ?_
  refine .bind (within_steps (Repositories.Users.findByUsername_within _)) fun _ => ?_
  refine .bind (within_steps defaultAssignment_within) fun _ => ?_
  refine .bind (within_steps (hashPassword_within _ _)) fun _ => ?_
  refine .bind begin_steps fun _ => ?_
  refine .bind (within_steps (bootstrapAccount_within h _ _)) fun _ => ?_
  refine .bind (within_steps (Repositories.Users.assignRoles_within hr _ _)) fun _ => ?_
  refine .bind (within_steps (Repositories.AuthSessions.revokeAllForUser_within h.sessions _))
    fun _ => ?_
  refine .bind (within_steps (recordSessionRevocation_within h.auditLogs _ _ _ _)) fun _ => ?_
  refine .bind (within_steps (Repositories.AuditLogs.record_within h.auditLogs _ _ _ _ _))
    fun _ => ?_
  refine .bind commit_steps fun _ => ?_
  refine .bind (within_steps (Repositories.Users.roleNamesByUser_within _)) fun _ => ?_
  exact .ret

end Auth

namespace Mfa

open Repositories.Mfa (Challenge)

theorem lockChallenge_within (challengeToken expectedKind : String) :
    (lockChallenge env challengeToken expectedKind).All (Act.Within φ) :=
  .bind (Repositories.Mfa.challengeForUpdate_within _ _) fun _ => all_okOr _ _

theorem failChallenge_steps {α : Type} (h : Ordinary φ) (hc : Alters φ .authMfaChallenges)
    (challenge : Challenge) (factor : String) :
    (failChallenge challenge factor : Db α).All (Act.Steps φ) :=
  .bind (within_steps (Repositories.Mfa.recordChallengeFailure_within hc _)) fun _ =>
    .bind (within_steps (Repositories.AuditLogs.record_within h.auditLogs _ _ _ _ _)) fun _ =>
      .bind commit_steps fun _ => .fail

theorem beginLogin_steps (h : Ordinary φ) (hc : Free φ .authMfaChallenges)
    (user : Repositories.Users.Found) (persistent : Bool) (login : LoginContext) :
    (beginLogin env user persistent login).All (Act.Steps φ) := by
  refine .bind (within_steps (Repositories.Mfa.summary_within _)) fun summary => ?_
  simp only
  split
  · exact .ret
  refine .bind (within_steps utcNow_within) fun _ => .bind begin_steps fun _ =>
    .bind (within_steps (Repositories.Mfa.pruneChallenges_within hc.edits)) fun _ =>
      .bind (within_steps (Repositories.Mfa.consumeLoginChallengesForUser_within hc.alters _)) fun _ => ?_
  split
  · exact .bind (within_steps fresh_within) fun _ => .bind (within_steps fresh_within) fun _ =>
      .bind (all_okOr _ _) fun _ => .bind (within_steps fresh_within) fun _ =>
        .bind (within_steps (Repositories.Mfa.ensureSettings_within h _ _)) fun _ =>
          .bind (within_steps (Repositories.Mfa.createChallenge_within hc _)) fun _ =>
            .bind (within_steps (Repositories.AuditLogs.record_within h.auditLogs _ _ _ _ _))
              fun _ => .bind commit_steps fun _ => .bind (all_okOr _ _) fun _ => .ret
  · exact .bind (within_steps (Repositories.Mfa.createChallenge_within hc _)) fun _ =>
      .bind (within_steps (Repositories.AuditLogs.record_within h.auditLogs _ _ _ _ _)) fun _ =>
        .bind commit_steps fun _ => .ret

theorem generateRecoveryCodes_within : (generateRecoveryCodes env).All (Act.Within φ) :=
  .bind fresh_within fun _ => .ret

theorem hashRecoveryCodes_within (codes : List String) :
    (hashRecoveryCodes env codes).All (Act.Within φ) :=
  .bind fresh_within fun _ => all_okOrThrow _

theorem spendRecoveryCode_within (hu : Uses φ) (userId : Nat) (matchingId : Option Nat) :
    (spendRecoveryCode userId matchingId).All (Act.Within φ) := by
  cases matchingId with
  | none => exact .ret
  | some id =>
    exact .bind (Repositories.Mfa.consumeRecoveryCode_within hu _ _) fun _ => .ret

theorem startPasskeyAuthentication_steps (hc : Free φ .authMfaChallenges)
    (challengeToken : String) :
    (startPasskeyAuthentication env challengeToken).All (Act.Steps φ) := by
  refine .bind begin_steps fun _ => ?_
  refine .bind (within_steps (lockChallenge_within _ _)) fun _ => ?_
  refine .bind (all_okOrThrow _) fun _ => ?_
  refine .bind (within_steps (Repositories.Mfa.listPasskeys_within _)) fun _ => ?_
  refine .bind (within_steps fresh_within) fun _ => ?_
  refine .bind (all_okOr _ _) fun _ => ?_
  refine .bind (within_steps (Repositories.Mfa.consumeChallenge_within hc.alters _ _)) fun _ => ?_
  refine .bind (within_steps utcNow_within) fun _ => ?_
  refine .bind (within_steps (Repositories.Mfa.createChallenge_within hc _)) fun _ => ?_
  refine .bind commit_steps fun _ => ?_
  exact .ret

theorem verifyTotpCode_steps (h : Ordinary φ) (userId : Nat) (code : String) :
    (verifyTotpCode env userId code).All (Act.Steps φ) := by
  refine .bind (within_steps (Repositories.Users.findById_within _)) fun _ => ?_
  refine .bind (all_okOr _ _) fun _ => ?_
  refine .bind begin_steps fun _ => ?_
  refine .bind (within_steps (Repositories.Mfa.totpSecretForUpdate_within _)) fun _ => ?_
  refine .bind (all_okOr _ _) fun _ => ?_
  refine .bind (all_okOr _ _) fun _ => ?_
  refine .bind (within_steps utcNow_within) fun _ => ?_
  refine .bind (all_okOr _ _) fun _ => ?_
  refine .bind (all_okOr _ _) fun _ => ?_
  refine .bind (within_steps (Repositories.Mfa.consumeReauthTotpCounter_within h _ _)) fun _ => ?_
  refine .bind (all_reject _ _) fun _ => ?_
  exact commit_steps

theorem verifyReauthentication_steps (h : Ordinary φ) (userId : Nat) (password : String)
    (code : Option String) : (verifyReauthentication env userId password code).All (Act.Steps φ) :=
  .bind (within_steps (Auth.verifyCurrentPassword_within _ _)) fun _ =>
    .bind (within_steps (Repositories.Mfa.summary_within _)) fun _ =>
      whenever (.bind (all_okOr _ _) fun _ => verifyTotpCode_steps h _ _)

theorem verifyPasswordAndTotp_steps (h : Ordinary φ) (userId : Nat) (password code : String) :
    (verifyPasswordAndTotp env userId password code).All (Act.Steps φ) :=
  .bind (within_steps (Auth.verifyCurrentPassword_within _ _)) fun _ => verifyTotpCode_steps h _ _

theorem status_within (userId : Nat) : (status userId).All (Act.Within φ) :=
  .bind (Repositories.Mfa.summary_within _) fun _ =>
    .bind (Repositories.Mfa.listPasskeys_within _) fun _ => .ret

theorem startPasskeyRegistration_steps (h : Ordinary φ) (hc : Free φ .authMfaChallenges)
    (user : UserResponse) (req : MfaPasskeyRegistrationStartRequest) :
    (startPasskeyRegistration env user req).All (Act.Steps φ) := by
  dsimp only [startPasskeyRegistration]
  refine .bind (all_reject _ _) fun _ => ?_
  refine .bind (verifyPasswordAndTotp_steps h _ _ _) fun _ => ?_
  refine .bind (within_steps (Repositories.Mfa.listPasskeys_within _)) fun _ => ?_
  refine .bind begin_steps fun _ => ?_
  refine .bind (within_steps fresh_within) fun _ => ?_
  refine .bind (within_steps (Repositories.Mfa.ensureSettings_within h _ _)) fun _ => ?_
  refine .bind (within_steps fresh_within) fun _ => ?_
  refine .bind (all_okOr _ _) fun _ => ?_
  refine .bind (within_steps utcNow_within) fun _ => ?_
  refine .bind (within_steps (Repositories.Mfa.createChallenge_within hc _)) fun _ => ?_
  refine .bind (within_steps (Repositories.AuditLogs.record_within h.auditLogs _ _ _ _ _))
    fun _ => ?_
  refine .bind commit_steps fun _ => ?_
  exact .ret

theorem finishPasskeyRegistration_steps (h : Ordinary φ) (hc : Alters φ .authMfaChallenges)
    (hp : Registers φ) (userId : Nat) (challengeToken credential : String) :
    (finishPasskeyRegistration env userId challengeToken credential).All (Act.Steps φ) := by
  refine .bind begin_steps fun _ => ?_
  refine .bind (within_steps (Repositories.Mfa.challengeForUpdate_within _ _)) fun _ => ?_
  refine .bind (all_okOr _ _) fun _ => ?_
  refine .bind (all_okOrThrow _) fun _ => ?_
  refine .bind (all_okOr _ _) fun _ => ?_
  refine .bind (all_okOr _ _) fun _ => ?_
  refine .bind (within_steps (Repositories.Mfa.createPasskey_within hp _ _ _ _)) fun _ => ?_
  refine .bind (within_steps (Repositories.Mfa.consumeChallenge_within hc _ _)) fun _ => ?_
  refine .bind (within_steps (Repositories.AuditLogs.record_within h.auditLogs _ _ _ _ _))
    fun _ => ?_
  refine .bind commit_steps fun _ => ?_
  exact within_steps (status_within _)

theorem revokePasskey_tells {N : Event → Prop} (h : Ordinary φ) (hp : Free φ .userPasskeys)
    (userId passkeyId : Nat) (req : MfaFactorRevokeRequest)
    (hN : ∀ revokedAsOf, N (.passkeyRevoked userId passkeyId revokedAsOf)) :
    (revokePasskey env userId passkeyId req).All (Act.Tells φ N) := by
  refine .bind (steps_tells (verifyPasswordAndTotp_steps h _ _ _)) fun _ => ?_
  refine .bind (steps_tells begin_steps) fun _ => ?_
  refine .bind (within_tells (Repositories.Mfa.deletePasskey_within hp _ _)) fun _ => ?_
  refine .bind (all_reject _ _) fun _ => ?_
  refine .bind (within_tells (Repositories.AuthSessions.revokeAllForUser_within h.sessions _))
    fun _ => ?_
  refine .bind (note_tells (hN _)) fun _ => ?_
  refine .bind (within_tells (Auth.recordSessionRevocation_within h.auditLogs _ _ _ _)) fun _ => ?_
  refine .bind (within_tells (Repositories.AuditLogs.record_within h.auditLogs _ _ _ _ _))
    fun _ => ?_
  exact steps_tells commit_steps

theorem regenerateRecoveryCodes_steps (h : Ordinary φ) (hi : Issues φ) (userId : Nat)
    (req : MfaFactorRevokeRequest) :
    (regenerateRecoveryCodes env userId req).All (Act.Steps φ) := by
  refine .bind (verifyPasswordAndTotp_steps h _ _ _) fun _ => ?_
  refine .bind (within_steps generateRecoveryCodes_within) fun _ => ?_
  refine .bind (within_steps (hashRecoveryCodes_within _)) fun _ => ?_
  refine .bind begin_steps fun _ => ?_
  refine .bind (within_steps (Repositories.Mfa.replaceRecoveryCodes_within h hi _ _)) fun _ => ?_
  refine .bind (within_steps (Repositories.AuthSessions.revokeAllForUser_within h.sessions _))
    fun _ => ?_
  refine .bind (within_steps (Auth.recordSessionRevocation_within h.auditLogs _ _ _ _)) fun _ => ?_
  refine .bind (within_steps (Repositories.AuditLogs.record_within h.auditLogs _ _ _ _ _))
    fun _ => ?_
  refine .bind commit_steps fun _ => ?_
  exact .ret

end Mfa

namespace StepUp

theorem issue_steps (h : Ordinary φ) (sessionId userId : Nat) (req : StepUpRequest) :
    (issue env sessionId userId req).All (Act.Steps φ) := by
  refine .bind (all_reject _ _) fun _ => ?_
  refine .bind (Mfa.verifyReauthentication_steps h _ _ _) fun _ => ?_
  refine .bind (within_steps utcNow_within) fun _ => ?_
  refine .bind begin_steps fun _ => ?_
  refine .bind (within_steps (.bind (delete_within _ h.stepUpTokens.edits) fun _ => .ret))
    fun _ => ?_
  refine .bind (within_steps (.bind query_within fun _ => .bind (insert_within _ _ h.stepUpTokens)
    fun _ => .bind (references_within _ _ _) fun _ => .bind (references_within _ _ _) fun _ =>
      .ret)) fun _ => ?_
  refine .bind (within_steps (Repositories.AuditLogs.record_within h.auditLogs _ _ _ _ _))
    fun _ => ?_
  exact .bind commit_steps fun _ => .ret

theorem consume_steps (h : Ordinary φ) (sessionId userId : Nat) (header : Option String)
    (scope : String) : (consume env sessionId userId header scope).All (Act.Steps φ) := by
  refine .bind (all_okOr _ _) fun _ => ?_
  refine .bind begin_steps fun _ => ?_
  refine .bind (within_steps (.bind (update_within _ h.stepUpTokens) fun _ => .ret)) fun _ => ?_
  refine .bind (all_reject _ _) fun _ => ?_
  refine .bind (within_steps (Repositories.AuditLogs.record_within h.auditLogs _ _ _ _ _))
    fun _ => ?_
  exact commit_steps

end StepUp

namespace ModuleUnlock

theorem status_within (sessionId userId : Nat) (module' : String) :
    (status sessionId userId module').All (Act.Within φ) :=
  .bind (all_reject _ _) fun _ => .bind (.bind poolQuery_within fun _ => .ret) fun _ => .ret

theorem require_within (sessionId userId : Nat) (module' : String) :
    (require sessionId userId module').All (Act.Within φ) :=
  .bind (all_reject _ _) fun _ => .bind (.bind poolQuery_within fun _ => .ret) fun _ =>
    all_reject _ _

theorem issue_steps (h : Ordinary φ) (sessionId userId : Nat) (req : ModuleUnlockRequest) :
    (issue env sessionId userId req).All (Act.Steps φ) := by
  refine .bind (all_reject _ _) fun _ => ?_
  refine .bind (Mfa.verifyReauthentication_steps h _ _ _) fun _ => ?_
  refine .bind (within_steps utcNow_within) fun _ => ?_
  refine .bind begin_steps fun _ => ?_
  refine .bind (within_steps (.bind (delete_within _ h.moduleUnlocks.edits) fun _ => .ret))
    fun _ => ?_
  refine .bind (within_steps (.bind query_within fun _ => .bind (upsert_within _ _ h.moduleUnlocks)
    fun _ => .whenever (.bind (references_within _ _ _) fun _ => references_within _ _ _)))
      fun _ => ?_
  refine .bind (within_steps (Repositories.AuditLogs.record_within h.auditLogs _ _ _ _ _))
    fun _ => ?_
  exact .bind commit_steps fun _ => .ret

end ModuleUnlock

/-! ## Accounts and roles

Services of users and roles.
-/

namespace Users

theorem create_steps (h : Ordinary φ) (hr : Free φ .userRoles) (actor : ActorContext)
    (req : CreateUserRequest) (canGrantSuperAdmin canAssignDepartment : Bool) :
    (create env actor req canGrantSuperAdmin canAssignDepartment).All (Act.Steps φ) := by
  refine .bind (all_reject _ _) fun _ => ?_
  refine .bind (all_reject _ _) fun _ => ?_
  refine .bind (all_reject _ _) fun _ => ?_
  refine .bind (all_reject _ _) fun _ => ?_
  refine .bind (all_reject _ _) fun _ => ?_
  refine .bind (all_reject _ _) fun _ => ?_
  refine .bind (within_steps (Auth.hashPassword_within _ _)) fun _ => ?_
  refine .bind (within_steps (.ifSome fun _ => validateRoleGrantScope_within _ _ _)) fun _ => ?_
  refine .bind (within_steps (.ifSome fun _ => .bind (all_reject _ _) fun _ =>
    Departments.validateAssignment_within _ _)) fun _ => ?_
  refine .bind begin_steps fun _ => ?_
  refine .bind (within_steps (Repositories.Users.create_ordinary h _)) fun _ => ?_
  refine .bind (within_steps (.ifSome fun _ =>
    .bind (Repositories.Users.assignRoles_within hr _ _) fun _ => .ret)) fun _ => ?_
  refine .bind (within_steps (Repositories.AuditLogs.record_within h.auditLogs _ _ _ _ _))
    fun _ => ?_
  refine .bind commit_steps fun _ => ?_
  exact .bind (within_steps (Repositories.Users.roleNamesByUser_within _)) fun _ => .ret

/-- The checks before the transaction of an update change nothing. -/
theorem updateChecks_within (id : Nat) (actor : Option ActorContext) (req : UpdateUserRequest)
    (canAssignDepartment : Bool) :
    (Prog.ifSome actor fun actor => Prog.ifSome req.departmentId fun departmentId =>
      validateDepartment id actor departmentId canAssignDepartment : Db Unit).All
      (Act.Within φ) :=
  .ifSome fun _ => .ifSome fun _ => validateDepartment_within _ _ _ _

theorem applyUpdate_within (h : Ordinary φ) (hu : Free φ .users) (id : Nat)
    (req : UpdateUserRequest) (passwordHash displayName : Option String) (emailIsSet : Bool)
    (email : Option String) :
    (applyUpdate id req passwordHash displayName emailIsSet email).All (Act.Within φ) := by
  refine .bind (.whenever (protectLastSuperAdmin_within _)) fun _ => ?_
  refine .bind (.ifSome fun _ => .bind (Repositories.Users.updatePassword_ordinary h _ _) fun _ =>
    all_reject _ _) fun _ => ?_
  refine .bind (update_within _ hu) fun rows => ?_
  cases rows.head? with
  | none => exact .ret
  | some row =>
    exact .bind (.whenever (Repositories.Users.referencesDepartment_within _ _)) fun _ => .ret

theorem update_steps (h : Ordinary φ) (hu : Free φ .users) (id : Nat)
    (actor : Option ActorContext) (req : UpdateUserRequest)
    (canGrantSuperAdmin canAssignDepartment : Bool) :
    (update env id actor req canGrantSuperAdmin canAssignDepartment).All (Act.Steps φ) := by
  refine .bind (within_steps (ensureActorCanAccess_within _ _)) fun _ => ?_
  refine .bind (within_steps (updateChecks_within _ _ _ _)) fun _ => ?_
  refine .bind (all_reject _ _) fun _ => ?_
  refine .bind (within_steps (.ifSome fun _ => validateStatus_within _ _ _ _)) fun _ => ?_
  refine .bind (within_steps (newPasswordHash_within _ _)) fun _ => ?_
  refine .bind begin_steps fun _ => ?_
  refine .bind (within_steps (applyUpdate_within h hu _ _ _ _ _ _)) fun _ => ?_
  refine .bind (all_okOr _ _) fun _ => ?_
  refine .bind (within_steps (.whenever (Auth.revokeAll_within h _ _ _))) fun _ => ?_
  refine .bind (within_steps (Repositories.AuditLogs.record_within h.auditLogs _ _ _ _ _))
    fun _ => ?_
  refine .bind commit_steps fun _ => ?_
  exact .bind (within_steps (Repositories.Users.roleNamesByUser_within _)) fun _ => .ret

theorem deleteOne_within (h : Ordinary φ) (id : Nat) (actorUserId : Option Nat) :
    (deleteOne id actorUserId).All (Act.Within φ) := by
  refine .bind (protectLastSuperAdmin_within _) fun _ => ?_
  refine .bind (Repositories.Users.roleIdsByUser_within _) fun _ => ?_
  refine .bind (Repositories.Users.softDelete_within h _) fun _ => ?_
  refine .bind (all_reject _ _) fun _ => ?_
  refine .bind (Repositories.AuthSessions.revokeAllForUser_within h.sessions _) fun _ => ?_
  refine .bind (Auth.recordSessionRevocation_within h.auditLogs _ _ _ _) fun _ => ?_
  exact Repositories.AuditLogs.record_within h.auditLogs _ _ _ _ _

theorem delete_steps (h : Ordinary φ) (id : Nat) (actor : Option ActorContext) :
    (delete id actor).All (Act.Steps φ) := by
  refine .bind (within_steps (ensureActorCanAccess_within _ _)) fun _ => ?_
  refine .bind (all_reject _ _) fun _ => ?_
  refine .bind begin_steps fun _ => ?_
  exact .bind (within_steps (deleteOne_within h _ _)) fun _ => commit_steps

theorem deleteMany_steps (h : Ordinary φ) (actor : Option ActorContext)
    (req : BatchUserIdsRequest) : (deleteMany actor req).All (Act.Steps φ) := by
  refine .bind (all_okOr _ _) fun _ => ?_
  refine .bind (within_steps (validateBatchUserIds_within _ _)) fun _ => ?_
  refine .bind (within_steps (.forEach fun _ => ensureActorCanAccess_within _ _)) fun _ => ?_
  refine .bind begin_steps fun _ => ?_
  exact .bind (within_steps (.forEach fun _ => deleteOne_within h _ _)) fun _ => commit_steps

/-- **What a replacement of roles does**: changes that are harmless, and one event. -/
theorem replaceRoles_all {ok : Act Table → Prop} (hwithin : ∀ a : Act Table, a.Within φ → ok a)
    (h : Ordinary φ) (hr : Free φ .userRoles) (superAdminRoleId actorUserId : Option Nat)
    (userId : Nat) (roleIds previousRoleIds : List Nat)
    (hnote : ∀ clearedAsOf, ok (.note (.rolesReplaced userId clearedAsOf))) :
    (replaceRoles superAdminRoleId actorUserId userId roleIds previousRoleIds).All ok := by
  have hall {α : Type} {m : Db α} (hm : m.All (Act.Within φ)) : m.All ok := hm.mono hwithin
  refine .bind (hall (.whenever (protectLastSuperAdmin_within _))) fun _ => ?_
  refine .bind (hall (Repositories.Users.assignRoles_within hr _ _)) fun _ => ?_
  refine .bind (all_perform (hnote _)) fun _ => ?_
  refine .bind (hall (.ifSome fun _ => .whenever
    (Repositories.AuditLogs.record_within h.auditLogs _ _ _ _ _))) fun _ => ?_
  exact hall (Repositories.AuditLogs.record_within h.auditLogs _ _ _ _ _)

theorem replaceRoles_tells {N : Event → Prop} (h : Ordinary φ) (hr : Free φ .userRoles)
    (superAdminRoleId actorUserId : Option Nat) (userId : Nat) (roleIds previousRoleIds : List Nat)
    (hN : ∀ clearedAsOf, N (.rolesReplaced userId clearedAsOf)) :
    (replaceRoles superAdminRoleId actorUserId userId roleIds previousRoleIds).All
      (Act.Tells φ N) :=
  replaceRoles_all (fun _ ha => ha.steps.tells) h hr _ _ _ _ _ fun _ => .inr ⟨_, hN _, rfl⟩

theorem assignRoles_tells {N : Event → Prop} (h : Ordinary φ) (hr : Free φ .userRoles)
    (actor : Option ActorContext) (userId : Nat) (req : AssignRolesRequest)
    (canGrantSuperAdmin : Bool) (hN : ∀ clearedAsOf, N (.rolesReplaced userId clearedAsOf)) :
    (assignRoles actor userId req canGrantSuperAdmin).All (Act.Tells φ N) := by
  refine .bind (within_tells (ensureActorCanAccess_within _ _)) fun _ => ?_
  refine .bind (within_tells (Repositories.Roles.idByCode_within _)) fun _ => ?_
  refine .bind (within_tells (validateRoleGrantScope_within _ _ _)) fun _ => ?_
  refine .bind (within_tells (Repositories.Users.roleIdsByUser_within _)) fun _ => ?_
  refine .bind (steps_tells begin_steps) fun _ => ?_
  exact .bind (replaceRoles_tells h hr _ _ _ _ _ hN) fun _ => steps_tells commit_steps

theorem assignRolesMany_tells {N : Event → Prop} (h : Ordinary φ) (hr : Free φ .userRoles)
    (actor : Option ActorContext) (req : BatchAssignRolesRequest) (canGrantSuperAdmin : Bool)
    (hN : ∀ userId clearedAsOf, N (.rolesReplaced userId clearedAsOf)) :
    (assignRolesMany actor req canGrantSuperAdmin).All (Act.Tells φ N) := by
  refine .bind (all_okOr _ _) fun _ => ?_
  refine .bind (within_tells (validateBatchUserIds_within _ _)) fun _ => ?_
  refine .bind (within_tells (validateRoleGrantScope_within _ _ _)) fun _ => ?_
  refine .bind (within_tells (.forEach fun _ => ensureActorCanAccess_within _ _)) fun _ => ?_
  refine .bind (within_tells (Repositories.Roles.idByCode_within _)) fun _ => ?_
  refine .bind (steps_tells begin_steps) fun _ => ?_
  refine .bind (.forEach fun _ => ?_) fun _ => steps_tells commit_steps
  exact .bind (within_tells (Repositories.Users.roleIdsByUser_within _)) fun _ =>
    replaceRoles_tells h hr _ _ _ _ _ (hN _)

end Users

namespace Roles

theorem create_steps (h : Ordinary φ) (hr : Free φ .roles) (hp : Free φ .rolePermissions)
    (actorUserId : Option Nat) (actorDataScope : DataScope) (req : CreateRoleRequest)
    (canAssignPermissions : Bool) :
    (create actorUserId actorDataScope req canAssignPermissions).All (Act.Steps φ) := by
  refine .bind (all_reject _ _) fun _ => ?_
  refine .bind (all_reject _ _) fun _ => ?_
  refine .bind (all_reject _ _) fun _ => ?_
  refine .bind (within_steps (validateDataScope_within _)) fun _ => ?_
  refine .bind (all_reject _ _) fun _ => ?_
  refine .bind begin_steps fun _ => ?_
  refine .bind (within_steps (Repositories.Roles.create_within hr _)) fun _ => ?_
  refine .bind (within_steps (.ifSome fun _ => .bind (all_reject _ _) fun _ =>
    .bind (validatePermissionDependencies_within _) fun _ =>
      .bind (validatePermissionGrantScope_within _ _) fun _ =>
        .bind (Repositories.Roles.assignPermissions_within hp _ _) fun _ => .ret)) fun _ => ?_
  refine .bind (within_steps (Repositories.AuditLogs.record_within h.auditLogs _ _ _ _ _))
    fun _ => ?_
  exact .bind commit_steps fun _ => within_steps (get_within _)

theorem update_steps (h : Ordinary φ) (hr : Free φ .roles) (actorUserId : Option Nat)
    (actorDataScope : DataScope) (id : Nat) (req : UpdateRoleRequest) :
    (update actorUserId actorDataScope id req).All (Act.Steps φ) := by
  refine .bind (all_reject _ _) fun _ => ?_
  refine .bind (all_reject _ _) fun _ => ?_
  refine .bind (within_steps (.whenever (validateDeactivation_within _))) fun _ => ?_
  refine .bind (within_steps (.ifSome fun _ => validateScopeUpdate_within _ _ _)) fun _ => ?_
  refine .bind (within_steps (.whenever (validateActivation_within _ _))) fun _ => ?_
  refine .bind (.ifSome fun _ => all_reject _ _) fun _ => ?_
  refine .bind begin_steps fun _ => ?_
  refine .bind (within_steps (.bind (update_within _ hr) fun _ => .ret)) fun _ => ?_
  refine .bind (all_reject _ _) fun _ => ?_
  refine .bind (within_steps (Repositories.AuditLogs.record_within h.auditLogs _ _ _ _ _))
    fun _ => ?_
  exact .bind commit_steps fun _ => within_steps (get_within _)

theorem delete_steps (h : Ordinary φ) (hr : Edits φ .roles) (actorUserId : Option Nat)
    (id : Nat) : (delete actorUserId id).All (Act.Steps φ) := by
  refine .bind (within_steps (Repositories.Roles.findById_within _)) fun _ => ?_
  refine .bind (all_okOr _ _) fun _ => ?_
  refine .bind (all_reject _ _) fun _ => ?_
  refine .bind (all_reject _ _) fun _ => ?_
  refine .bind begin_steps fun _ => ?_
  refine .bind (within_steps (.bind (delete_within _ hr) fun _ => .bind (.forEach fun _ =>
    .bind (delete_within _ h.userRoles) fun _ => .bind (delete_within _ h.rolePermissions)
      fun _ => .ret) fun _ => .ret)) fun _ => ?_
  refine .bind (all_reject _ _) fun _ => ?_
  refine .bind (within_steps (Repositories.AuditLogs.record_within h.auditLogs _ _ _ _ _))
    fun _ => ?_
  exact commit_steps

theorem assignPermissions_tells {N : Event → Prop} (h : Ordinary φ) (hp : Free φ .rolePermissions)
    (actorUserId : Option Nat) (id : Nat) (req : UpdateRolePermissionsRequest)
    (hN : ∀ clearedAsOf, N (.permissionsReplaced id clearedAsOf)) :
    (assignPermissions actorUserId id req).All (Act.Tells φ N) := by
  refine .bind (within_tells (Repositories.Roles.findById_within _)) fun _ => ?_
  refine .bind (all_okOr _ _) fun _ => ?_
  refine .bind (all_reject _ _) fun _ => ?_
  refine .bind (steps_tells begin_steps) fun _ => ?_
  refine .bind (within_tells (validatePermissionDependencies_within _)) fun _ => ?_
  refine .bind (within_tells (validatePermissionGrantScope_within _ _)) fun _ => ?_
  refine .bind (within_tells (Repositories.Roles.permissionIdsByRole_within _)) fun _ => ?_
  refine .bind (within_tells (Repositories.Roles.assignPermissions_within hp _ _)) fun _ => ?_
  refine .bind (note_tells (hN _)) fun _ => ?_
  refine .bind (within_tells (Repositories.AuditLogs.record_within h.auditLogs _ _ _ _ _))
    fun _ => ?_
  exact steps_tells commit_steps

theorem getPermissions_within (id : Nat) : (getPermissions id).All (Act.Within φ) :=
  .bind (Repositories.Roles.findById_within _) fun _ => .bind (all_okOr _ _) fun _ =>
    Repositories.Roles.permissionIdsByRole_within _

end Roles

/-! ## Departments

Services of departments.
-/

namespace Departments

theorem create_steps (h : Ordinary φ) (hd : Free φ .departments) (actor : ActorContext)
    (req : CreateDepartmentRequest) : (create actor req).All (Act.Steps φ) := by
  refine .bind (all_reject _ _) fun _ => ?_
  refine .bind (all_okOrThrow _) fun _ => ?_
  refine .bind (all_okOrThrow _) fun _ => ?_
  refine .bind (all_okOrThrow _) fun _ => ?_
  refine .bind (within_steps (validateParent_within _ _ _)) fun _ => ?_
  refine .bind (within_steps (ensureCodeAvailable_within _ _ _)) fun _ => ?_
  refine .bind begin_steps fun _ => ?_
  refine .bind (within_steps (Repositories.Departments.create_within hd _ _)) fun _ => ?_
  refine .bind (within_steps (Repositories.AuditLogs.record_within h.auditLogs _ _ _ _ _))
    fun _ => ?_
  exact .bind commit_steps fun _ => within_steps (get_within _ _)

theorem update_steps (h : Ordinary φ) (hd : Free φ .departments) (actor : ActorContext) (id : Nat)
    (req : UpdateDepartmentRequest) : (update actor id req).All (Act.Steps φ) := by
  refine .bind (all_reject _ _) fun _ => ?_
  refine .bind (within_steps (Repositories.Departments.findById_within _ _)) fun _ => ?_
  refine .bind (all_okOr _ _) fun _ => ?_
  refine .bind (all_reject _ _) fun _ => ?_
  refine .bind (within_steps (.ifSome fun _ => validateMove_within _ _ _ _)) fun _ => ?_
  refine .bind (all_okOrThrow _) fun _ => ?_
  refine .bind (within_steps (.ifSome fun _ => ensureCodeAvailable_within _ _ _)) fun _ => ?_
  refine .bind (all_okOrThrow _) fun _ => ?_
  refine .bind (all_okOrThrow _) fun _ => ?_
  refine .bind begin_steps fun _ => ?_
  refine .bind (within_steps (Repositories.Departments.update_within hd _ _ _)) fun _ => ?_
  refine .bind (all_reject _ _) fun _ => ?_
  refine .bind (within_steps (Repositories.AuditLogs.record_within h.auditLogs _ _ _ _ _))
    fun _ => ?_
  exact .bind commit_steps fun _ => within_steps (get_within _ _)

theorem delete_steps (h : Ordinary φ) (hd : Free φ .departments) (actor : ActorContext) (id : Nat) :
    (delete actor id).All (Act.Steps φ) := by
  refine .bind (within_steps (Repositories.Departments.findById_within _ _)) fun _ => ?_
  refine .bind (all_okOr _ _) fun _ => ?_
  refine .bind (all_reject _ _) fun _ => ?_
  refine .bind (all_reject _ _) fun _ => ?_
  refine .bind (all_reject _ _) fun _ => ?_
  refine .bind begin_steps fun _ => ?_
  refine .bind (within_steps (Repositories.Departments.deleteIfEmpty_within hd h.users _ _))
    fun _ => ?_
  refine .bind (all_reject _ _) fun _ => ?_
  refine .bind (within_steps (Repositories.AuditLogs.record_within h.auditLogs _ _ _ _ _))
    fun _ => ?_
  exact commit_steps

end Departments

end Services

/-! ## Handlers

Guards of the handlers.
-/

section Handlers

open SessionAuth

theorem authenticate_steps (h : Ordinary φ) (parts : Parts) :
    (authenticate env parts).All (Act.Steps φ) := by
  refine .bind (all_okOr _ _) fun _ => ?_
  refine .bind (Repositories.AuthSessions.authContext_steps h _) fun _ => ?_
  refine .bind (all_okOr _ _) fun _ => ?_
  refine .bind (.whenever (.bind (all_okOr _ _) fun _ => .bind (all_okOr _ _) fun _ =>
    all_reject _ _)) fun _ => ?_
  exact .bind (all_okOr _ _) fun _ => .ret

theorem requirePermission_steps (h : Ordinary φ) (parts : Parts) (code : String) :
    (requirePermission env parts code).All (Act.Steps φ) :=
  .bind (authenticate_steps h _) fun _ => .bind (all_reject _ _) fun _ => .ret

theorem stepUpOrUnlock_steps (h : Ordinary φ) (actor : ActorContext) (parts : Parts)
    (sensitive : Bool) (scope module' : String) :
    (Handlers.stepUpOrUnlock env actor parts sensitive scope module').All (Act.Steps φ) := by
  unfold Handlers.stepUpOrUnlock
  split
  · exact Services.StepUp.consume_steps h _ _ _ _
  · exact within_steps (Services.ModuleUnlock.require_within _ _ _)

theorem stepUp_steps (h : Ordinary φ) (actor : ActorContext) (parts : Parts) (scope : String) :
    (Handlers.stepUp env actor parts scope).All (Act.Steps φ) :=
  Services.StepUp.consume_steps h _ _ _ _

end Handlers

end ArcAdmin
