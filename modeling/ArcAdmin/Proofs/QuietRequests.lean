import ArcAdmin.Proofs.Steps

/-!
# What whole requests change

`Request.Permitted φ` says that `φ` allows the changes that the request is about, beside those that any
request may make (`Ordinary`), and `Request.Notes` which events it leaves of its own.  A contract then
carries all requests past whose changes do not matter to it, and looks only at the others.

Four requests may end in a new session.  What all the others change is within their footprint from the
first act to the last.

* **`serve_tells`** — the footprint of a request that opens no session.
-/

namespace ArcAdmin

open ReadCommitted SessionAuth
open Prog.All

variable {φ : Change Table} {env : External} {config : AuthSessionConfig}

/-! ## Requests

Which tables a request is about, so that a condition on changes can be checked against it.
-/

/-- `φ` allows the changes that the request is about. Most requests need the whole of their
table. The second step of a login needs to change challenges but not to issue any, and the
requests that enable TOTP or replace codes need just that. -/
def Request.Permitted (φ : Change Table) : Request → Prop
  | .login .. | .startPasskeyAuthentication .. | .startPasskeyRegistration .. =>
    Free φ .authMfaChallenges
  | .verifyTotp .. => Alters φ .authMfaChallenges ∧ Enables φ ∧ Issues φ
  | .verifyRecoveryCode .. => Alters φ .authMfaChallenges ∧ Uses φ
  | .finishPasskeyAuthentication .. => Alters φ .authMfaChallenges
  | .finishPasskeyRegistration .. => Alters φ .authMfaChallenges ∧ Registers φ
  | .revokePasskey .. => Free φ .userPasskeys
  | .regenerateRecoveryCodes .. => Issues φ
  | .createUser .. | .assignRoles .. | .batchAssignRoles .. | .bootstrapSuperAdmin .. =>
    Free φ .userRoles
  | .updateUser .. => Free φ .users
  | .createRole .. => Free φ .roles ∧ Free φ .rolePermissions
  | .updateRole .. | .deleteRole .. => Free φ .roles
  | .putRolePermissions .. => Free φ .rolePermissions
  | .createDepartment .. | .updateDepartment .. | .deleteDepartment .. => Free φ .departments
  | _ => True

/-- The tables, other than the challenges, that some request is about. -/
def subjectTables : List Table :=
  [.userMfaSettings, .userMfaRecoveryCodes, .userPasskeys, .userRoles, .users, .roles,
    .rolePermissions, .departments]

/-- The request may issue a challenge. -/
def Request.issuesChallenge : Request → Bool
  | .login .. | .startPasskeyAuthentication .. | .startPasskeyRegistration .. => true
  | _ => false

/-- The request may issue recovery codes. -/
def Request.issuesCodes : Request → Bool
  | .verifyTotp .. | .regenerateRecoveryCodes .. => true
  | _ => false

/-- The request may enable TOTP. -/
def Request.enrolls : Request → Bool
  | .verifyTotp .. => true
  | _ => false

/-- The request may remove a passkey. -/
def Request.removesPasskey : Request → Bool
  | .revokePasskey .. => true
  | _ => false

/-- What the requests need, each for its own subject. -/
theorem Request.permitted {req : Request}
    (h : ∀ t ∈ [Table.userRoles, .users, .roles, .rolePermissions, .departments], Free φ t)
    (hreg : Registers φ) (hp : req.removesPasskey = true → Free φ .userPasskeys) (hu : Uses φ)
    (hc : Alters φ .authMfaChallenges)
    (hnew : req.issuesChallenge = true → Free φ .authMfaChallenges)
    (hi : req.issuesCodes = true → Issues φ) (he : req.enrolls = true → Enables φ) :
    req.Permitted φ := by
  cases req with
  | login | startPasskeyAuthentication | startPasskeyRegistration => exact hnew rfl
  | verifyTotp => exact ⟨hc, he rfl, hi rfl⟩
  | verifyRecoveryCode => exact ⟨hc, hu⟩
  | finishPasskeyAuthentication => exact hc
  | finishPasskeyRegistration => exact ⟨hc, hreg⟩
  | revokePasskey => exact hp rfl
  | regenerateRecoveryCodes => exact hi rfl
  | createUser | assignRoles | batchAssignRoles | bootstrapSuperAdmin =>
    exact h .userRoles (by decide)
  | updateUser => exact h .users (by decide)
  | createRole => exact ⟨h .roles (by decide), h .rolePermissions (by decide)⟩
  | updateRole | deleteRole => exact h .roles (by decide)
  | putRolePermissions => exact h .rolePermissions (by decide)
  | createDepartment | updateDepartment | deleteDepartment => exact h .departments (by decide)
  | logout | me | changePassword | stepUp | moduleUnlockStatus | moduleUnlock | mePermissions
  | mfaStatus | deleteUser | batchDeleteUsers | getRole | getRolePermissions => trivial

/-- Where the subjects of all requests are free, every request is permitted. -/
theorem Request.permitted_of_free {req : Request} (h : ∀ t ∈ subjectTables, Free φ t)
    (hc : Alters φ .authMfaChallenges)
    (hnew : req.issuesChallenge = true → Free φ .authMfaChallenges) : req.Permitted φ := by
  have hsub : [Table.userRoles, .users, .roles, .rolePermissions, .departments] ⊆
      subjectTables := by decide
  have hpasskeys : Free φ .userPasskeys := h _ (by decide)
  have hcodes : Free φ .userMfaRecoveryCodes := h _ (by decide)
  have hsettings : Free φ .userMfaSettings := h _ (by decide)
  exact Request.permitted (fun t ht => h t (hsub ht)) (fun _ _ => hpasskeys _ _ _ _)
    (fun _ => hpasskeys) (fun _ _ _ => hcodes _ _ _ _) hc hnew
    (fun _ => .of_free hcodes) fun _ _ _ _ => hsettings _ _ _ _

/-! ## Requests that open no session

The case split over all requests, by the services that they call.
-/

/-- The request may end in a new session. -/
def Request.opensSession : Request → Bool
  | .login .. | .verifyTotp .. | .verifyRecoveryCode .. | .finishPasskeyAuthentication .. => true
  | _ => false

/-- The events that the request leaves of its own. -/
def Request.Notes : Request → Event → Prop
  | .verifyRecoveryCode .., .recoveryLogin .. => True
  | .revokePasskey .., .passkeyRevoked .. => True
  | .putRolePermissions .., .permissionsReplaced .. => True
  | .assignRoles .., .rolesReplaced .. => True
  | .batchAssignRoles .., .rolesReplaced .. => True
  | _, _ => False

/-- **What a request changes that opens no session**, and the events that it leaves of its own. -/
theorem serve_tells (h : Ordinary φ) {req : Request} (hquiet : req.opensSession = false)
    (hw : req.Permitted φ) : (serve env config req).All (Act.Tells φ req.Notes) := by
  cases req with
  | login | verifyTotp | verifyRecoveryCode | finishPasskeyAuthentication => cases hquiet
  -- Most requests authenticate and then do one thing; what they note is what their service notes.
  | logout parts =>
    refine steps_tells ?_
    exact .bind (authenticate_steps h _) fun _ =>
      .bind (Services.Auth.logout_steps h _ _) fun _ => .ret
  | me parts =>
    refine steps_tells ?_
    exact .bind (authenticate_steps h _) fun _ =>
      .bind (within_steps (Services.Auth.me_within _)) fun _ => .ret
  | changePassword parts req =>
    refine steps_tells ?_
    exact .bind (authenticate_steps h _) fun _ => .bind (stepUp_steps h _ _ _) fun _ =>
      .bind (Services.Auth.changePassword_steps h _ _) fun _ => .ret
  | stepUp parts req =>
    refine steps_tells ?_
    exact .bind (authenticate_steps h _) fun _ =>
      .bind (Services.StepUp.issue_steps h _ _ _) fun _ => .ret
  | moduleUnlockStatus parts module' =>
    refine steps_tells ?_
    exact .bind (authenticate_steps h _) fun _ =>
      .bind (within_steps (Services.ModuleUnlock.status_within _ _ _)) fun _ => .ret
  | moduleUnlock parts req =>
    refine steps_tells ?_
    exact .bind (authenticate_steps h _) fun _ =>
      .bind (Services.ModuleUnlock.issue_steps h _ _ _) fun _ => .ret
  | mePermissions parts =>
    exact steps_tells (.bind (authenticate_steps h _) fun _ => .ret)
  -- before a session there is only the challenge token
  | startPasskeyAuthentication challengeToken =>
    refine steps_tells ?_
    exact .bind (Services.Mfa.startPasskeyAuthentication_steps hw _) fun _ => .ret
  | mfaStatus parts =>
    refine steps_tells ?_
    exact .bind (authenticate_steps h _) fun _ =>
      .bind (within_steps (Services.Mfa.status_within _)) fun _ => .ret
  | startPasskeyRegistration parts req =>
    refine steps_tells ?_
    exact .bind (authenticate_steps h _) fun _ =>
      .bind (within_steps (Services.Auth.me_within _)) fun _ =>
        .bind (Services.Mfa.startPasskeyRegistration_steps h hw _ _) fun _ => .ret
  | finishPasskeyRegistration parts req =>
    refine steps_tells ?_
    exact .bind (authenticate_steps h _) fun _ =>
      .bind (Services.Mfa.finishPasskeyRegistration_steps h hw.1 hw.2 _ _ _) fun _ => .ret
  -- a revocation notes the passkey, and no other part of the request notes anything
  | revokePasskey parts passkeyId req =>
    exact .bind (steps_tells (authenticate_steps h _)) fun _ =>
      .bind (Services.Mfa.revokePasskey_tells h hw _ _ _ fun _ => trivial) fun _ => .ret
  | regenerateRecoveryCodes parts req =>
    refine steps_tells ?_
    exact .bind (authenticate_steps h _) fun _ =>
      .bind (Services.Mfa.regenerateRecoveryCodes_steps h hw _ _) fun _ => .ret
  -- the three refusals of the form come between the permission and the step-up
  | createUser parts req =>
    refine steps_tells ?_
    refine .bind (requirePermission_steps h _ _) fun _ => ?_
    refine .bind (.whenever (all_reject _ _)) fun _ => ?_
    refine .bind (.whenever (all_reject _ _)) fun _ => ?_
    refine .bind (.whenever (all_reject _ _)) fun _ => ?_
    refine .bind (stepUpOrUnlock_steps h _ _ _ _ _) fun _ => ?_
    exact .bind (Services.Users.create_steps h hw _ _ _ _) fun _ => .ret
  | updateUser parts id req =>
    refine steps_tells ?_
    refine .bind (requirePermission_steps h _ _) fun _ => ?_
    refine .bind (.whenever (all_reject _ _)) fun _ => ?_
    refine .bind (.whenever (all_reject _ _)) fun _ => ?_
    refine .bind (.whenever (all_reject _ _)) fun _ => ?_
    refine .bind (stepUpOrUnlock_steps h _ _ _ _ _) fun _ => ?_
    exact .bind (Services.Users.update_steps h hw _ _ _ _ _) fun _ => .ret
  | deleteUser parts id =>
    refine steps_tells ?_
    exact .bind (requirePermission_steps h _ _) fun _ => .bind (stepUp_steps h _ _ _) fun _ =>
      .bind (Services.Users.delete_steps h _ _) fun _ => .ret
  | batchDeleteUsers parts req =>
    refine steps_tells ?_
    exact .bind (requirePermission_steps h _ _) fun _ => .bind (stepUp_steps h _ _ _) fun _ =>
      .bind (Services.Users.deleteMany_steps h _ _) fun _ => .ret
  | assignRoles parts id req =>
    exact .bind (steps_tells (requirePermission_steps h _ _)) fun _ =>
      .bind (steps_tells (stepUp_steps h _ _ _)) fun _ =>
      .bind (Services.Users.assignRoles_tells h hw _ _ _ _ fun _ => trivial) fun _ => .ret
  | batchAssignRoles parts req =>
    exact .bind (steps_tells (requirePermission_steps h _ _)) fun _ =>
      .bind (steps_tells (stepUp_steps h _ _ _)) fun _ =>
      .bind (Services.Users.assignRolesMany_tells h hw _ _ _ fun _ _ => trivial) fun _ => .ret
  | getRole parts id =>
    refine steps_tells ?_
    exact .bind (requirePermission_steps h _ _) fun _ =>
      .bind (within_steps (Services.Roles.get_within _)) fun _ => .ret
  | createRole parts req =>
    refine steps_tells ?_
    refine .bind (requirePermission_steps h _ _) fun _ => ?_
    refine .bind (.whenever (all_reject _ _)) fun _ => ?_
    refine .bind (stepUpOrUnlock_steps h _ _ _ _ _) fun _ => ?_
    exact .bind (Services.Roles.create_steps h hw.1 hw.2 _ _ _ _) fun _ => .ret
  | updateRole parts id req =>
    refine steps_tells ?_
    exact .bind (requirePermission_steps h _ _) fun _ =>
      .bind (stepUpOrUnlock_steps h _ _ _ _ _) fun _ =>
        .bind (Services.Roles.update_steps h hw _ _ _ _) fun _ => .ret
  | deleteRole parts id =>
    refine steps_tells ?_
    have hroles : Free φ .roles := hw
    exact .bind (requirePermission_steps h _ _) fun _ => .bind (stepUp_steps h _ _ _) fun _ =>
      .bind (Services.Roles.delete_steps h hroles.edits _ _) fun _ => .ret
  | getRolePermissions parts id =>
    refine steps_tells ?_
    exact .bind (requirePermission_steps h _ _) fun _ =>
      .bind (within_steps (Services.Roles.getPermissions_within _)) fun _ => .ret
  | putRolePermissions parts id req =>
    exact .bind (steps_tells (requirePermission_steps h _ _)) fun _ =>
      .bind (steps_tells (stepUp_steps h _ _ _)) fun _ =>
      .bind (Services.Roles.assignPermissions_tells h hw _ _ _ fun _ => trivial) fun _ => .ret
  | createDepartment parts req =>
    refine steps_tells ?_
    exact .bind (requirePermission_steps h _ _) fun _ => .bind (stepUp_steps h _ _ _) fun _ =>
      .bind (Services.Departments.create_steps h hw _ _) fun _ => .ret
  | updateDepartment parts id req =>
    refine steps_tells ?_
    exact .bind (requirePermission_steps h _ _) fun _ => .bind (stepUp_steps h _ _ _) fun _ =>
      .bind (Services.Departments.update_steps h hw _ _ _) fun _ => .ret
  | deleteDepartment parts id =>
    refine steps_tells ?_
    exact .bind (requirePermission_steps h _ _) fun _ => .bind (stepUp_steps h _ _ _) fun _ =>
      .bind (Services.Departments.delete_steps h hw _ _) fun _ => .ret
  | bootstrapSuperAdmin username password displayName email =>
    refine steps_tells ?_
    exact .bind (Services.Auth.bootstrapSuperAdmin_steps h hw _ _ _ _) fun _ => .ret

end ArcAdmin
