import ArcAdmin.ReadCommitted.Replace
import ArcAdmin.Proofs.Logins

/-!
# What functions lock

Which functions neither change nor lock a row of a table, so that what a transaction has made of
that table is not touched by them; and what a request knows of the challenge that it has locked.
-/

namespace ArcAdmin

open ReadCommitted
open Prog.All

section Outside

variable {t : Table}

theorem query_outside : (query : Db Snap).All (Act.Outside t) := all_perform trivial

theorem poolQuery_outside : (poolQuery : Db Snap).All (Act.Outside t) := all_perform trivial

theorem note_outside {e : Event} : (noteEvent (T := Table) e : Db Unit).All (Act.Outside t) :=
  all_perform trivial

theorem references_outside {u : Table} (hu : u ≠ t) (id : u.Id) (cond : u.Row → Bool)
    (missing : ApiError) : (references u id cond missing : Db Unit).All (Act.Outside t) :=
  Prog.All.references hu

namespace Repositories

theorem AuditLogs.referencesOption_outside {u : Table} (hu : u ≠ t) (id : Option u.Id)
    (cond : u.Row → Bool) : (AuditLogs.referencesOption u id cond).All (Act.Outside t) := by
  cases id with
  | none => exact .ret
  | some id => exact references_outside hu _ _ _

/-- The tables that an audit record writes or refers to. -/
def auditTables : List Table := [.auditLogs, .users, .organizations, .departments]

theorem AuditLogs.record_outside (ht : t ∉ auditTables) (actorUserId : Option Nat)
    (action targetType : String) (targetId : Option Nat) (details : List (String × Detail)) :
    (AuditLogs.record actorUserId action targetType targetId details).All (Act.Outside t) := by
  have hne : ∀ u ∈ auditTables, u ≠ t := by
    rintro u hu rfl
    exact ht hu
  refine .bind query_outside fun s => ?_
  refine .bind (Prog.All.insert (hne _ (by decide))) fun _ => ?_
  refine .bind (referencesOption_outside (hne _ (by decide)) _ _) fun _ => ?_
  refine .bind (referencesOption_outside (hne _ (by decide)) _ _) fun _ => ?_
  exact referencesOption_outside (hne _ (by decide)) _ _

theorem Roles.permissionIdsByRole_outside (roleId : Nat) :
    (Roles.permissionIdsByRole roleId).All (Act.Outside t) := .bind poolQuery_outside fun _ => .ret

theorem Roles.assignPermissions_outside (ht : t ∉ [.rolePermissions, .roles, .permissions])
    (roleId : Nat) (permissionIds : List Nat) :
    (Roles.assignPermissions roleId permissionIds).All (Act.Outside t) := by
  have hne : ∀ u ∈ [Table.rolePermissions, .roles, .permissions], u ≠ t := by
    rintro u hu rfl
    exact ht hu
  refine .bind query_outside fun s => ?_
  refine .bind (Prog.All.deleteOn fun _ => hne _ (by decide)) fun _ => ?_
  refine .bind (forEach fun id => ?_) fun _ => .ret
  refine .bind (Prog.All.insert (hne _ (by decide))) fun _ => ?_
  exact .bind (references_outside (hne _ (by decide)) _ _ _) fun _ =>
    references_outside (hne _ (by decide)) _ _ _

theorem Users.roleIdsByUser_outside (userId : Nat) :
    (Users.roleIdsByUser userId).All (Act.Outside t) := .bind poolQuery_outside fun _ => .ret

theorem Users.assignRoles_outside (ht : t ∉ [.userRoles, .users, .roles]) (userId : Nat)
    (roleIds : List Nat) : (Users.assignRoles userId roleIds).All (Act.Outside t) := by
  have hne : ∀ u ∈ [Table.userRoles, .users, .roles], u ≠ t := by
    rintro u hu rfl
    exact ht hu
  refine .bind query_outside fun s => ?_
  refine .bind (Prog.All.deleteOn fun _ => hne _ (by decide)) fun _ => ?_
  refine .bind (forEach fun id => ?_) fun _ => .ret
  refine .bind (Prog.All.insert (hne _ (by decide))) fun _ => ?_
  exact .bind (references_outside (hne _ (by decide)) _ _ _) fun _ =>
    references_outside (hne _ (by decide)) _ _ _

theorem Users.superAdminGuardState_outside (ht : t ≠ .roles) (userId : Nat) :
    (Users.superAdminGuardState userId).All (Act.Outside t) := by
  refine .bind (Prog.All.selectForUpdate (fun _ _ => ht.symm) trivial) fun locked => ?_
  cases locked.head? with
  | none => exact .ret
  | some e => exact .bind query_outside fun _ => .ret

end Repositories

theorem Services.Users.protectLastSuperAdmin_outside (ht : t ≠ .roles) (userId : Nat) :
    (Services.Users.protectLastSuperAdmin userId).All (Act.Outside t) :=
  .bind (Repositories.Users.superAdminGuardState_outside ht _) fun _ => all_reject _ _

theorem Services.Roles.validatePermissionDependencies_outside (permissionIds : List Nat) :
    (Services.Roles.validatePermissionDependencies permissionIds).All (Act.Outside t) :=
  .bind (all_reject _ _) fun _ => .bind (.bind query_outside fun _ => .ret) fun _ =>
    .bind (all_reject _ _) fun _ => .bind (all_reject _ _) fun _ => .bind (all_reject _ _) fun _ =>
      .ret

theorem Services.Roles.validatePermissionGrantScope_outside (actorUserId : Option Nat)
    (requestedPermissions : List String) :
    (Services.Roles.validatePermissionGrantScope actorUserId requestedPermissions).All
      (Act.Outside t) :=
  ifSome fun _ => .bind (.bind poolQuery_outside fun _ => .ret) fun _ => all_reject _ _

namespace Repositories

theorem AuthSessions.revokeAllForUser_outside (ht : t ≠ .authSessions) (userId : Nat) :
    (AuthSessions.revokeAllForUser userId).All (Act.Outside t) :=
  .bind query_outside fun _ => .bind (Prog.All.updateOn fun _ => ht.symm) fun _ => .ret

namespace Mfa

theorem challengeForUpdate_outside (ht : t ≠ .authMfaChallenges) (tokenHash expectedKind : String) :
    (challengeForUpdate tokenHash expectedKind).All (Act.Outside t) :=
  .bind (Prog.All.selectForUpdate (fun _ _ => ht.symm) trivial) fun _ => .ret

theorem consumeChallenge_outside (ht : t ≠ .authMfaChallenges) (challengeId : Nat)
    (factor : Factor) : (consumeChallenge challengeId factor).All (Act.Outside t) :=
  .bind (Prog.All.update (fun _ _ => ht.symm) trivial) fun _ => .ret

theorem enableTotp_outside (ht : t ≠ .userMfaSettings) (userId : Nat) (ciphertext : String) :
    (enableTotp userId ciphertext).All (Act.Outside t) :=
  .bind (Prog.All.update (fun _ _ => ht.symm) trivial) fun _ => .ret

end Mfa

end Repositories

theorem Services.Auth.recordSessionRevocation_outside (ht : t ∉ Repositories.auditTables)
    (actorUserId : Option Nat) (userId : Nat) (reason : String) (count : Nat) :
    (Services.Auth.recordSessionRevocation actorUserId userId reason count).All (Act.Outside t) :=
  .whenever (Repositories.AuditLogs.record_outside ht _ _ _ _ _)

theorem Services.Mfa.lockChallenge_outside {env : External} (ht : t ≠ .authMfaChallenges)
    (challengeToken expectedKind : String) :
    (Services.Mfa.lockChallenge env challengeToken expectedKind).All (Act.Outside t) :=
  .bind (Repositories.Mfa.challengeForUpdate_outside ht _ _) fun _ => all_okOr _ _

end Outside

/-! ## The challenge that a request has locked

What the second step of a login knows from its lock to its commit.
-/

/-- The transaction has locked the challenge, and has not changed it. -/
def HoldsChallenge (challenge : Repositories.Mfa.Challenge) (c : Conn Table) : Prop :=
  c.Owns ⟨.authMfaChallenges, challenge.id⟩ ∧
    c.view.get .authMfaChallenges challenge.id = some challenge.row

/-- **The challenge is of the expected kind, and was open when it was found.** `P` is what is known
besides. -/
theorem Services.Mfa.lockChallenge_holds {J : Judge Table} {p : Nat} {P : Conn Table → Prop}
    {env : External} (hst : J.Stable P)
    (hown : ∀ (id : Nat) (φ : Option ChallengeRow → Prop), J.Stable fun c =>
      c.Owns ⟨.authMfaChallenges, id⟩ ∧ φ (c.view.get .authMfaChallenges id))
    (hlock : ∀ tx s id m, P ⟨some tx, s⟩ → P ⟨some (tx.acquire ⟨.authMfaChallenges, id⟩ m), s⟩)
    (challengeToken expectedKind : String) :
    Triple J p P (Services.Mfa.lockChallenge env challengeToken expectedKind) fun challenge c =>
      (challenge.row.kind = expectedKind ∧ challenge.row.consumedAt = none) ∧
        P c ∧ HoldsChallenge challenge c := by
  have hholds : ∀ challenge, J.Stable fun c => P c ∧ HoldsChallenge challenge c := fun challenge =>
    hst.and (hown challenge.id fun v => v = some challenge.row)
  let Q (rows : List (Nat × ChallengeRow)) (c : Conn Table) : Prop := P c ∧ ∀ e ∈ rows,
    (∃ s : Snap, True ∧ Repositories.Mfa.isOpen s (env.tokenHash challengeToken) expectedKind e.2 = true) ∧
      c.Owns ⟨.authMfaChallenges, e.1⟩ ∧ c.view.get .authMfaChallenges e.1 = some e.2
  have hQ : ∀ rows, J.Stable (Q rows) := by
    intro rows
    refine hst.and (Judge.Stable.forall fun e c c' hr h he => ⟨(h he).1, ?_⟩)
    exact hown e.1 (fun v => v = some e.2) c c' hr (h he).2
  have hselect : Triple J p P (selectForUpdate Table.authMfaChallenges
      fun s _ (row : ChallengeRow) =>
        Repositories.Mfa.isOpen s (env.tokenHash challengeToken) expectedKind row : Db _) Q :=
    Triple.selectForUpdate hst hown (fun _ _ _ => trivial) fun tx s id m _ hP => hlock tx s id m hP
  refine Triple.bind (R := fun o c => P c ∧ ∀ challenge, o = some challenge →
    (challenge.row.kind = expectedKind ∧ challenge.row.consumedAt = none) ∧
      HoldsChallenge challenge c) (hselect.bind fun rows => Triple.ret (hQ rows) ?_) fun o => ?_
  · rintro c _ ⟨hP, hrows⟩
    refine ⟨hP, fun challenge hsome => ?_⟩
    obtain ⟨e, he, rfl⟩ := Option.map_eq_some_iff.1 hsome
    obtain ⟨⟨s, _, hopen⟩, hheld⟩ := hrows e (List.mem_of_mem_head? he)
    simp only [Repositories.Mfa.isOpen, Bool.and_eq_true, beq_iff_eq,
      Option.isNone_iff_eq_none] at hopen
    exact ⟨⟨hopen.1.1.2, hopen.1.2⟩, hheld⟩
  · cases o with
    | none => exact Triple.fail
    | some challenge =>
      refine Triple.ret ?_ fun c _ hc => ⟨(hc.2 challenge rfl).1, hc.1, (hc.2 challenge rfl).2⟩
      refine hst.and (Judge.Stable.forall fun ch c c' hr h hsome => ⟨(h hsome).1, ?_⟩)
      exact hown ch.id (fun v => v = some ch.row) c c' hr (h hsome).2

end ArcAdmin
